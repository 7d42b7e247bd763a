import SyncProvider.Js.DrainController

/-!
# JS: a drain that may not wait any more

`raceWithStop` begins no wait once the drain has been cancelled or its deadline
has come. A drain that is not waiting then has a few turns left: its code runs
into a `DrainStop`, or it ends before.

Results:
1. `WindsUp.step` : it waits for nothing again.
2. `WindsUp.turnsLeft_run`, `WindsUp.settles` : it settles, by turns alone.
-/

namespace SyncProvider.Js

/-! ## The model -/

/-- The turns that a drain in this phase still takes, at most, when no wait begins. -/
def Phase.turnsLeft : Phase → Nat
  | .settled _ (.value _) => 4
  | .returned (.value _) => 3
  | .settled _ _ => 2
  | .returned _ => 1
  | _ => 0

namespace Drain

/-- One more turn for the `finally` of `sleepWithStop`. -/
def turnsLeft (d : Drain) : Nat := d.phase.turnsLeft + if d.sleepTimer.isSome then 1 else 0

/-- A wait that is asked for does not begin. -/
def Stopping (d : Drain) : Prop := d.cancelled = true ∨ d.deadlineAt ≤ d.clock

/-- No wait is in progress, and none begins. -/
structure WindsUp (d : Drain) : Prop where
  stopping : d.Stopping
  unwaited : ∀ work since, d.phase ≠ .awaiting work since

variable {d d' : Drain}

theorem turnsLeft_le_five (d : Drain) : d.turnsLeft ≤ 5 := by
  have hphase : d.phase.turnsLeft ≤ 4 := by
    unfold Phase.turnsLeft
    split <;> decide
  unfold turnsLeft
  split <;> omega

theorem turnsLeft_le_of_timer (htimer : d'.sleepTimer = d.sleepTimer)
    (hphase : d'.phase.turnsLeft < d.phase.turnsLeft) : d'.turnsLeft < d.turnsLeft := by
  simpa only [turnsLeft, htimer, Nat.add_lt_add_iff_right] using hphase

/-! ## A turn -/

theorem Stopping.same (hd : d.Stopping) (hsame : SameStops d d') : d'.Stopping := by
  unfold Stopping
  rw [hsame.cancelled, hsame.deadlineAt, hsame.clock]
  exact hd

theorem raceWithStop_of_stopping (hd : d.Stopping) (work : Work) :
    ∃ cause, d.raceWithStop work = { d with phase := .settled work (.stop cause) } := by
  unfold raceWithStop
  split
  · exact ⟨_, rfl⟩
  · rename_i hcancelled
    have hle : d.deadlineAt ≤ d.clock := hd.resolve_left hcancelled
    rw [if_pos (sub_nonpos.mpr hle)]
    exact ⟨_, rfl⟩

/-- What becomes of a drain whose code runs on from an `await`. -/
structure RunsOut (d d' : Drain) : Prop extends SameStops d d' where
  sleepTimer : d'.sleepTimer = d.sleepTimer
  turnsLeft : d'.phase.turnsLeft ≤ 3
  unwaited : ∀ work since, d'.phase ≠ .awaiting work since

theorem Stopping.runsOut {d₀ : Drain} (hd : d.Stopping) (hsame : SameStops d d₀)
    (htimer : d₀.sleepTimer = d.sleepTimer) (work : Work) :
    RunsOut d (d₀.raceWithStop work) := by
  obtain ⟨cause, hrace⟩ := raceWithStop_of_stopping (hd.same hsame) work
  rw [hrace]
  exact ⟨⟨hsame.deadlineAt, hsame.clock, hsame.cancelled⟩, htimer, Nat.le_succ 2, by simp⟩

theorem Stopping.runsOut_waitFor {d₀ : Drain} (hd : d.Stopping) (hsame : SameStops d d₀)
    (htimer : d₀.sleepTimer = d.sleepTimer) (waitMs : ℚ) : RunsOut d (d₀.waitFor waitMs) := by
  obtain ⟨work, -, hwait⟩ := waitFor_cases d₀ waitMs
  rw [hwait]
  exact hd.runsOut hsame htimer work

theorem Stopping.runsOut_afterSize (hd : d.Stopping) (size : Int) :
    RunsOut d (d.afterSize size) := by
  have hread : SameStops d (d.readSize size) := ⟨rfl, rfl, rfl⟩
  have hlocal : SameStops d { d.readSize size with cycleJustRan := false } := ⟨rfl, rfl, rfl⟩
  unfold afterSize
  split
  · exact hd.runsOut hread rfl _
  · split
    · exact ⟨⟨rfl, rfl, rfl⟩, rfl, Nat.zero_le 3, by simp⟩
    · split
      · dsimp only
        split
        · exact hd.runsOut_waitFor hlocal rfl _
        · exact hd.runsOut hlocal rfl _
      · exact hd.runsOut hread rfl _

theorem Stopping.runsOut_resume (hd : d.Stopping) (value : Value) : RunsOut d (d.resume value) := by
  cases value with
  | isSyncing syncing => cases syncing <;> exact hd.runsOut (.refl d) rfl _
  | queueSize size => exact hd.runsOut_afterSize size
  | isSyncingAgain syncing =>
    cases syncing with
    | true => exact hd.runsOut (.refl d) rfl _
    | false => exact ⟨⟨rfl, rfl, rfl⟩, rfl, Nat.zero_le 3, by simp [resume]⟩
  | pendingItems pending =>
    refine ⟨⟨rfl, rfl, rfl⟩, rfl, ?_, by simp [resume]⟩
    cases hwait : d.waitAfterNoProgress pending <;> simp [resume, hwait, Phase.turnsLeft]
  | connectionStatus status =>
    have hlocal : SameStops d
        { d with iterations := d.iterations + 1, cycleJustRan := true } := ⟨rfl, rfl, rfl⟩
    simp only [resume]
    split
    · exact hd.runsOut (.refl d) rfl _
    · exact hd.runsOut hlocal rfl _
  | flushed => exact hd.runsOut (.refl d) rfl _
  | slept => exact hd.runsOut (.refl d) rfl _

/-- What a turn does when no wait begins. -/
structure Closer (d d' : Drain) : Prop extends WindsUp d' where
  sameStops : SameStops d d'
  turnsLeft : d'.turnsLeft < d.turnsLeft

theorem Stopping.closer (hd : d.Stopping) (hsame : SameStops d d')
    (hunwaited : ∀ work since, d'.phase ≠ .awaiting work since)
    (hturns : d'.turnsLeft < d.turnsLeft) : Closer d d' :=
  ⟨⟨hd.same hsame, hunwaited⟩, hsame, hturns⟩

theorem Stopping.closer_of_runsOut (hd : d.Stopping) (h : RunsOut d d')
    (hturns : 3 < d.phase.turnsLeft) : Closer d d' :=
  hd.closer h.toSameStops h.unwaited
    (turnsLeft_le_of_timer h.sleepTimer (Nat.lt_of_le_of_lt h.turnsLeft hturns))

theorem Stopping.run (hd : d.Stopping) (h : d.run = some d') : Closer d d' := by
  unfold Drain.run at h
  split at h
  · rename_i work settlement hphase
    split at h
    · rename_i hset
      cases h
      refine hd.closer ⟨rfl, rfl, rfl⟩ (by simp [hphase]) ?_
      simp [Drain.turnsLeft, hset]
    · split at h
      · cases h
        refine hd.closer_of_runsOut (hd.runsOut_resume _) ?_
        rw [hphase]
        exact Nat.lt_succ_self 3
      · cases h
        refine hd.closer ⟨rfl, rfl, rfl⟩ (by simp) (turnsLeft_le_of_timer rfl ?_)
        rw [hphase]
        exact Nat.one_lt_two
      · cases h
        refine hd.closer ⟨rfl, rfl, rfl⟩ (by simp) (turnsLeft_le_of_timer rfl ?_)
        rw [hphase]
        exact Nat.one_lt_two
      · cases h
        refine hd.closer ⟨rfl, rfl, rfl⟩ (by simp [stop]) (turnsLeft_le_of_timer rfl ?_)
        rw [hphase]
        exact Nat.two_pos
      · cases h
        refine hd.closer ⟨rfl, rfl, rfl⟩ (by simp) (turnsLeft_le_of_timer rfl ?_)
        rw [hphase]
        exact Nat.two_pos
  · rename_i waitMs hphase
    obtain ⟨work, -, hwait⟩ := waitFor_cases d waitMs
    obtain ⟨cause, hrace⟩ := raceWithStop_of_stopping hd work
    rw [hwait, hrace] at h
    cases h
    refine hd.closer ⟨rfl, rfl, rfl⟩ (by simp) (turnsLeft_le_of_timer rfl ?_)
    rw [hphase]
    exact Nat.lt_succ_self 2
  · rename_i cause hphase
    cases h
    refine hd.closer ⟨rfl, rfl, rfl⟩ (by simp [stop]) (turnsLeft_le_of_timer rfl ?_)
    rw [hphase]
    exact Nat.one_pos
  · rename_i message hphase
    cases h
    refine hd.closer ⟨rfl, rfl, rfl⟩ (by simp) (turnsLeft_le_of_timer rfl ?_)
    rw [hphase]
    exact Nat.one_pos
  · cases h

/-! ## 1. It waits for nothing again -/

/-- Nothing but a turn, the clock and a cancel concerns it any more. -/
theorem WindsUp.step_cases {l : Label} (hd : WindsUp d) (h : d.step l = some d') :
    (l = .run ∧ Closer d d') ∨
      (l ≠ .run ∧ d'.phase = d.phase ∧ d'.sleepTimer = d.sleepTimer ∧ d'.Stopping) := by
  cases Drain.step_cases h with
  | tick hactive hle => exact .inr ⟨by simp, rfl, rfl, hd.stopping.imp_right fun h => h.trans hle⟩
  | settle hphase hends => exact absurd hphase (hd.unwaited _ _)
  | cancelWait hphase => exact absurd hphase (hd.unwaited _ _)
  | cancel hphase hactive => exact .inr ⟨by simp, rfl, rfl, .inl rfl⟩
  | clearSleep | resume | leave | wait | stop | reject => exact .inl ⟨rfl, hd.stopping.run h⟩

theorem WindsUp.step {l : Label} (hd : WindsUp d) (h : d.step l = some d') : WindsUp d' := by
  rcases hd.step_cases h with ⟨-, hcloser⟩ | ⟨-, hphase, -, hstopping⟩
  · exact hcloser.toWindsUp
  · exact ⟨hstopping, by rw [hphase]; exact hd.unwaited⟩

/-! ## 2. It settles -/

/-- Every turn takes the drain closer to its end. -/
theorem WindsUp.turnsLeft_run {ls : List Label} (hd : WindsUp d)
    (h : StepSystem.exec Drain.step d ls = some d') :
    ls.count .run + d'.turnsLeft ≤ d.turnsLeft := by
  induction ls generalizing d with
  | nil =>
    cases h
    simp
  | cons l ls ih =>
    obtain ⟨m, hm, hrest⟩ := StepSystem.exec_cons_eq_some.mp h
    have hlater : ls.count .run + d'.turnsLeft ≤ m.turnsLeft := ih (hd.step hm) hrest
    rcases hd.step_cases hm with ⟨rfl, hcloser⟩ | ⟨hl, hphase, htimer, -⟩
    · have hless : m.turnsLeft < d.turnsLeft := hcloser.turnsLeft
      rw [List.count_cons_self]
      omega
    · rw [List.count_cons_of_ne hl]
      have hsame : m.turnsLeft = d.turnsLeft := by
        rw [Drain.turnsLeft, Drain.turnsLeft, hphase, htimer]
      omega

/-- As long as it has not settled, a turn is due. -/
theorem WindsUp.run_isSome (hd : WindsUp d) (hactive : d.active = true) :
    d.run.isSome = true := by
  unfold Drain.run
  split
  · split
    · rfl
    · split <;> rfl
  · rfl
  · rfl
  · rfl
  · rename_i hsettled hvalue hstop herror
    cases hphase : d.phase with
    | awaiting work since => exact absurd hphase (hd.unwaited work since)
    | settled work settlement => exact absurd hphase (hsettled work settlement)
    | returned settlement =>
      cases settlement with
      | value waitMs => exact absurd hphase (hvalue waitMs)
      | stop cause => exact absurd hphase (hstop cause)
      | error message => exact absurd hphase (herror message)
    | resolved | rejected =>
      rw [active, hphase] at hactive
      cases hactive

/-- Turns alone settle it. -/
theorem WindsUp.settles (hd : WindsUp d) :
    ∃ k d', k ≤ d.turnsLeft ∧
      StepSystem.exec Drain.step d (List.replicate k .run) = some d' ∧ d'.active = false := by
  -- on the turns that are left
  induction hn : d.turnsLeft using Nat.strong_induction_on generalizing d with
  | _ n ih =>
    cases hactive : d.active with
    | false => exact ⟨0, d, Nat.zero_le n, rfl, hactive⟩
    | true =>
      obtain ⟨m, hm⟩ := Option.isSome_iff_exists.mp (hd.run_isSome hactive)
      have hcloser : Closer d m := hd.stopping.run hm
      have hless : m.turnsLeft < n := hn ▸ hcloser.turnsLeft
      obtain ⟨k, d', hk, hrun, hsettled⟩ := ih m.turnsLeft hless hcloser.toWindsUp rfl
      refine ⟨k + 1, d', Nat.succ_le_of_lt (Nat.lt_of_le_of_lt hk hless), ?_, hsettled⟩
      rw [List.replicate_succ]
      exact StepSystem.exec_cons_eq_some.mpr ⟨m, hm, hrun⟩

end Drain

end SyncProvider.Js
