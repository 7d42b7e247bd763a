import SyncProvider.Js.DrainStops

/-!
# JS: a drain that is cancelled

`cancelActiveDrain` sets a flag and wakes the wait in progress. Between the end
of a wait and the code behind it there is no wait to wake, and that code looks at
the flag only when it begins another wait. Where it ends the drain instead, the
cancel is lost.

A cancelled drain always settles, after a few more turns.

Results:
1. `Unwinding.windsUp` : a cancelled drain settles.
2. `cancel_decides_iff` : when it settles as cancelled.
3. `cancel_before_last_size_is_lost` : a drain that reports `MAX_ITERATIONS`.
-/

namespace SyncProvider.Js

/-! ## The model -/

/-- What waits for the promise leaves a cancel to decide. -/
def Settlement.LeavesCancel {α : Type} (goesOn : α → Prop) : Settlement α → Prop
  | .value a => goesOn a
  | .stop cause => cause = .cancelled
  | .error _ => False

/-- No wait is in progress, and the drain has not ended for another reason. -/
def Phase.Kept : Phase → Prop
  | .resolved result _ => result.stoppedReason = .CANCELLED
  | .awaiting _ _ | .rejected _ => False
  | _ => True

/-- A drain in this phase ends, or has ended, for another reason. -/
def Phase.Lost : Phase → Prop
  | .returned (.stop cause) => cause ≠ .cancelled
  | .returned (.error _) | .rejected _ => True
  | .resolved result _ => result.stoppedReason ≠ .CANCELLED
  | _ => False

namespace Drain

/-- The loop does not end with this value. -/
def GoesOn (d : Drain) : Value → Prop
  | .isSyncingAgain false => False
  | .queueSize size => size = 0 ∨ (d.iterations : ℚ) < d.maxIterations
  | .pendingItems pending => ∀ cooldownEnd ∈ soonestCooldownEnd pending d.clock,
    cooldownEnd < d.deadlineAt
  | _ => True

/-- The code that runs does not end the drain for a reason of its own. -/
def KeepsCancel (d : Drain) : Label → Prop
  | .run =>
    match d.phase with
    | .settled _ settlement => d.sleepTimer.isSome = true ∨ settlement.LeavesCancel d.GoesOn
    | .returned settlement => settlement.LeavesCancel fun _ => True
    | _ => True
  | _ => True

/-! ## A turn of a cancelled drain -/

variable {d d' : Drain}

theorem raceWithStop_of_cancelled (hcancelled : d.cancelled = true) (work : Work) :
    d.raceWithStop work = { d with phase := .settled work (.stop .cancelled) } := by
  unfold raceWithStop
  rw [if_pos hcancelled]

/-- After a value that the loop goes on with, it runs into the cancel. -/
theorem kept_raceWithStop {d₀ : Drain} (hcancelled : d₀.cancelled = true) (work : Work) :
    (d₀.raceWithStop work).phase.Kept := by
  rw [raceWithStop_of_cancelled hcancelled]
  trivial

theorem waitAfterNoProgress_of_goesOn {pending : List SyncItem}
    (hgoes : d.GoesOn (.pendingItems pending)) :
    ∃ waitMs, d.waitAfterNoProgress pending = .value waitMs := by
  unfold waitAfterNoProgress
  split
  · exact ⟨_, rfl⟩
  · rename_i cooldownEnd hsoonest
    rw [if_neg (not_le_of_gt (hgoes cooldownEnd hsoonest))]
    exact ⟨_, rfl⟩

theorem kept_resume (hcancelled : d.cancelled = true) {value : Value} (hgoes : d.GoesOn value) :
    (d.resume value).phase.Kept := by
  cases value with
  | isSyncing syncing => cases syncing <;> exact kept_raceWithStop hcancelled _
  | queueSize size =>
    have hread : (d.readSize size).cancelled = true := hcancelled
    have hlocal : { d.readSize size with cycleJustRan := false }.cancelled = true := hcancelled
    simp only [resume, afterSize]
    split
    · exact kept_raceWithStop hread _
    · rename_i hsize
      rw [if_neg (not_le_of_gt (hgoes.resolve_left hsize))]
      split
      · split
        · obtain ⟨work, -, hwait⟩ := waitFor_cases
            { d.readSize size with cycleJustRan := false } d.delayBetweenCyclesMs
          rw [hwait]
          exact kept_raceWithStop hlocal _
        · exact kept_raceWithStop hlocal _
      · exact kept_raceWithStop hread _
  | isSyncingAgain syncing =>
    cases syncing with
    | true => exact kept_raceWithStop hcancelled _
    | false => exact hgoes.elim
  | pendingItems pending =>
    obtain ⟨waitMs, hwait⟩ := waitAfterNoProgress_of_goesOn hgoes
    rw [resume, hwait]
    trivial
  | connectionStatus status =>
    have hlocal : { d with iterations := d.iterations + 1, cycleJustRan := true }.cancelled =
        true := hcancelled
    simp only [resume]
    split
    · exact kept_raceWithStop hcancelled _
    · exact kept_raceWithStop hlocal _
  | flushed => exact kept_raceWithStop hcancelled _
  | slept => exact kept_raceWithStop hcancelled _

/-- A value that the loop does not go on with ends it. -/
theorem lost_resume {value : Value} (hgoes : ¬ d.GoesOn value) : (d.resume value).phase.Lost := by
  cases value with
  | queueSize size =>
    obtain ⟨hsize, hle⟩ := not_or.mp hgoes
    simp only [resume, afterSize]
    rw [if_neg hsize, if_pos (not_lt.mp hle)]
    simp [Phase.Lost, result]
  | isSyncingAgain syncing =>
    cases syncing with
    | true => exact absurd trivial hgoes
    | false => simp [resume, Phase.Lost, result]
  | pendingItems pending =>
    simp only [GoesOn, not_forall, not_lt] at hgoes
    obtain ⟨cooldownEnd, hsoonest, hle⟩ := hgoes
    have hwait : d.waitAfterNoProgress pending = .stop (.cooldown pending d.clock) := by
      rw [waitAfterNoProgress, Option.mem_def.mp hsoonest]
      exact if_pos hle
    simp [resume, hwait, Phase.Lost]
  | isSyncing | connectionStatus | flushed | slept => exact absurd trivial hgoes

/-- What a turn of a cancelled drain does to the cancel. -/
structure Unwinds (d d' : Drain) : Prop where
  kept : d.KeepsCancel .run → d'.phase.Kept
  lost : ¬ d.KeepsCancel .run → d'.phase.Lost

theorem unwinds_stop {cause : StopCause} (hkeeps : d.KeepsCancel .run ↔ cause = .cancelled) :
    d.Unwinds (d.stop cause) := by
  refine ⟨fun h => ?_, fun h => ?_⟩
  · rw [hkeeps.mp h]
    rfl
  · have hcause : cause ≠ .cancelled := fun hc => h (hkeeps.mpr hc)
    cases cause with
    | cancelled => exact absurd rfl hcause
    | deadline | timer | cooldown => simp [stop, Phase.Lost, result, StopCause.reason]

theorem unwinds_of_run (hcancelled : d.cancelled = true) (h : d.run = some d') :
    d.Unwinds d' := by
  unfold run at h
  split at h
  · rename_i work settlement hphase
    split at h
    · rename_i hset
      cases h
      refine ⟨fun _ => ?_, fun hnot => absurd ?_ hnot⟩
      · simp [hphase, Phase.Kept]
      · simp [KeepsCancel, hphase, hset]
    · rename_i hset
      have hkeeps : d.KeepsCancel .run ↔ settlement.LeavesCancel d.GoesOn := by
        have hclear : d.sleepTimer = none := by simpa using hset
        simp [KeepsCancel, hphase, hclear]
      split at h
      · cases h
        exact ⟨fun hk => kept_resume hcancelled (hkeeps.mp hk),
          fun hnot => lost_resume fun hgoes => hnot (hkeeps.mpr hgoes)⟩
      · cases h
        exact ⟨fun _ => trivial, fun hnot hc => hnot (hkeeps.mpr hc)⟩
      · cases h
        exact ⟨fun _ => trivial, fun _ => trivial⟩
      · cases h
        exact unwinds_stop hkeeps
      · cases h
        exact ⟨fun hk => (hkeeps.mp hk).elim, fun _ => trivial⟩
  · rename_i waitMs hphase
    obtain ⟨work, -, hwait⟩ := waitFor_cases d waitMs
    rw [hwait, raceWithStop_of_cancelled hcancelled] at h
    cases h
    refine ⟨fun _ => trivial, fun hnot => absurd ?_ hnot⟩
    simp [KeepsCancel, hphase, Settlement.LeavesCancel]
  · rename_i cause hphase
    cases h
    refine unwinds_stop ?_
    simp [KeepsCancel, hphase, Settlement.LeavesCancel]
  · rename_i message hphase
    cases h
    refine ⟨fun hk => ?_, fun _ => trivial⟩
    simp [KeepsCancel, hphase, Settlement.LeavesCancel] at hk
  · cases h

/-! ## 1. A cancelled drain settles -/

/-- The drain has been cancelled, and no wait is in progress. -/
structure Unwinding (d : Drain) : Prop where
  cancelled : d.cancelled = true
  unwaited : ∀ work since, d.phase ≠ .awaiting work since

theorem Unwinding.windsUp (hd : Unwinding d) : WindsUp d := ⟨.inl hd.cancelled, hd.unwaited⟩

/-- Nothing but a turn, the clock and another cancel concerns it any more. -/
theorem Unwinding.step_cases {l : Label} (hd : Unwinding d) (h : d.step l = some d') :
    (l = .run ∧ d.Unwinds d') ∨ (l ≠ .run ∧ d'.phase = d.phase) := by
  rcases hd.windsUp.step_cases h with ⟨rfl, -⟩ | ⟨hl, hphase, -⟩
  · exact .inl ⟨rfl, unwinds_of_run hd.cancelled h⟩
  · exact .inr ⟨hl, hphase⟩

theorem cancelled_step {l : Label} (hd : Unwinding d) (h : d.step l = some d') :
    d'.cancelled = true := by
  cases Drain.step_cases h with
  | cancel | cancelWait => rfl
  | tick | settle => exact hd.cancelled
  | clearSleep | resume | leave | wait | stop | reject =>
    exact (hd.windsUp.stopping.run h).sameStops.cancelled.trans hd.cancelled

theorem Unwinding.step {l : Label} (hd : Unwinding d) (h : d.step l = some d') :
    Unwinding d' :=
  ⟨cancelled_step hd h, (hd.windsUp.step h).unwaited⟩

theorem unwinding_cancel (h : d.step .cancel = some d') : Unwinding d' := by
  cases Drain.step_cases h with
  | settle hphase hends => cases hends
  | cancelWait hphase => exact ⟨rfl, by simp⟩
  | cancel hphase hactive => exact ⟨rfl, hphase⟩

theorem kept_cancel (h : d.step .cancel = some d') : d'.phase.Kept := by
  cases Drain.step_cases h with
  | settle hphase hends => cases hends
  | cancelWait hphase => trivial
  | cancel hphase hactive =>
    unfold active at hactive
    change d.phase.Kept
    cases hd : d.phase with
    | awaiting work since => exact absurd hd (hphase work since)
    | settled | returned => trivial
    | resolved | rejected => simp [hd] at hactive

/-! ## 2. When it settles as cancelled -/

/-- The cancel has not been lost so far. -/
structure Cancels (d : Drain) : Prop extends Unwinding d where
  kept : d.phase.Kept

theorem Cancels.step {l : Label} (hd : Cancels d) (hkeeps : d.KeepsCancel l)
    (h : d.step l = some d') : Cancels d' := by
  refine ⟨hd.toUnwinding.step h, ?_⟩
  rcases hd.step_cases h with ⟨rfl, hunwinds⟩ | ⟨-, hphase⟩
  · exact hunwinds.kept hkeeps
  · rw [hphase]
    exact hd.kept

/-- The cancel is lost. -/
structure Loses (d : Drain) : Prop extends Unwinding d where
  lost : d.phase.Lost

theorem Cancels.lost_of_step {l : Label} (hd : Cancels d) (hkeeps : ¬ d.KeepsCancel l)
    (h : d.step l = some d') : Loses d' := by
  refine ⟨hd.toUnwinding.step h, ?_⟩
  rcases hd.step_cases h with ⟨rfl, hunwinds⟩ | ⟨hl, -⟩
  · exact hunwinds.lost hkeeps
  · exact absurd (by cases l <;> trivial) hkeeps

theorem phase_of_run_lost (hlost : d.phase.Lost) (h : d.run = some d') : d'.phase.Lost := by
  unfold run at h
  split at h
  · rename_i hphase
    rw [hphase] at hlost
    exact hlost.elim
  · rename_i hphase
    rw [hphase] at hlost
    exact hlost.elim
  · rename_i cause hphase
    rw [hphase] at hlost
    cases h
    cases cause with
    | cancelled => exact absurd rfl hlost
    | deadline | timer | cooldown => simp [stop, Phase.Lost, result, StopCause.reason]
  · cases h
    trivial
  · cases h

theorem Loses.step {l : Label} (hd : Loses d) (h : d.step l = some d') : Loses d' := by
  refine ⟨hd.toUnwinding.step h, ?_⟩
  rcases hd.step_cases h with ⟨rfl, -⟩ | ⟨-, hphase⟩
  · exact phase_of_run_lost hd.lost h
  · rw [hphase]
    exact hd.lost

theorem Cancels.stoppedReason (hd : Cancels d) (hsettled : d.active = false) :
    d.stoppedReason = some .CANCELLED := by
  have hkept := hd.kept
  unfold active at hsettled
  split at hsettled
  · rename_i hphase
    rw [hphase] at hkept
    exact stoppedReason_eq_some.mpr ⟨_, _, hphase, hkept⟩
  · rename_i hphase
    rw [hphase] at hkept
    exact hkept.elim
  · cases hsettled

theorem Loses.stoppedReason_ne (hd : Loses d) : d.stoppedReason ≠ some .CANCELLED := by
  intro hreason
  obtain ⟨result, cause, hphase, hcancelled⟩ := stoppedReason_eq_some.mp hreason
  have hlost := hd.lost
  rw [hphase] at hlost
  exact hlost hcancelled

/-- When `cancelActiveDrain` is called at any moment of an active drain, then
whatever happens next: a turn is due until the drain has settled, it settles
within five of them, and it reports `CANCELLED` exactly when none of the turns
after the cancel ends it for a reason of its own. -/
theorem cancel_decides_iff {d d₁ d₂ : Drain} {ls : List Label} (hcancel : d.step .cancel = some d₁)
    (hrun : StepSystem.exec step d₁ ls = some d₂) :
    ((d₂.active = true → (d₂.step .run).isSome = true) ∧ ls.count .run ≤ 5) ∧
    (d₂.active = false →
      (d₂.stoppedReason = some .CANCELLED ↔ StepSystem.Meets step KeepsCancel d₁ ls)) := by
  have hunwinding : Unwinding d₁ := unwinding_cancel hcancel
  refine ⟨⟨?_, ?_⟩, fun hsettled => ?_⟩
  · have hlast : Unwinding d₂ :=
      StepSystem.exec_invariant (fun hd hs => Unwinding.step hd hs) hunwinding hrun
    exact hlast.windsUp.run_isSome
  · have hturns := hunwinding.windsUp.turnsLeft_run hrun
    have hmax := turnsLeft_le_five d₁
    omega
  · have hcancels : Cancels d₁ := ⟨hunwinding, kept_cancel hcancel⟩
    exact StepSystem.last_iff_meets (I := Cancels) (J := Loses)
      (Q := fun d => d.stoppedReason = some .CANCELLED) Cancels.step
      Cancels.lost_of_step Loses.step hcancels hrun (fun h => h.stoppedReason hsettled)
      Loses.stoppedReason_ne

section Sample

/-- One cycle takes one of two items, and the size is read: 1. -/
def lastSizeRun : List Label :=
  [.answer (.isSyncing false), .run, .answer (.queueSize 2), .run,
    .answer (.connectionStatus .CONNECTED), .run, .answer .flushed, .run,
    .answer (.isSyncing false), .run, .answer (.queueSize 1)]

/-- With cycles left the loop goes on, into the cancel. -/
theorem cancel_decides_with_cycles_left :
    ∃ d d₁ d₂, StepSystem.exec step (start {} 0) lastSizeRun = some d ∧
      d.step .cancel = some d₁ ∧ StepSystem.exec step d₁ [.run, .run] = some d₂ ∧
      d₂.stoppedReason = some .CANCELLED ∧ StepSystem.Meets step KeepsCancel d₁ [.run, .run] := by
  obtain ⟨d, hrun, d₁, hcancel, d₂, hlast, hsettled, hreason⟩ :
      ∃ d ∈ StepSystem.exec step (start {} 0) lastSizeRun, ∃ d₁ ∈ d.step .cancel,
        ∃ d₂ ∈ StepSystem.exec step d₁ [.run, .run],
          d₂.active = false ∧ d₂.stoppedReason = some .CANCELLED := by
    decide +kernel
  refine ⟨d, d₁, d₂, hrun, hcancel, hlast, hreason, ?_⟩
  exact ((cancel_decides_iff hcancel hlast).2 hsettled).mp hreason

/-! ## 3. A cancel that is lost -/

/-- `maxIterations` is 1 and the one cycle has run. The cancel comes when the size
has been read and the loop has not gone on yet. The drain reports
`MAX_ITERATIONS`. -/
theorem cancel_before_last_size_is_lost :
    ∃ d d₁ d₂, StepSystem.exec step (start { maxIterations := some (.fin 1) } 0) lastSizeRun =
        some d ∧ d.step .cancel = some d₁ ∧
      StepSystem.exec step d₁ [.run] = some d₂ ∧ d₂.stoppedReason = some .MAX_ITERATIONS := by
  obtain ⟨d, hrun, d₁, hcancel, d₂, hlast, hreason⟩ :
      ∃ d ∈ StepSystem.exec step (start { maxIterations := some (.fin 1) } 0) lastSizeRun,
        ∃ d₁ ∈ d.step .cancel, ∃ d₂ ∈ StepSystem.exec step d₁ [.run],
          d₂.stoppedReason = some .MAX_ITERATIONS := by
    decide +kernel
  exact ⟨d, d₁, d₂, hrun, hcancel, hlast, hreason⟩

end Sample

end Drain

end SyncProvider.Js
