import SyncProvider.Js.DrainController

/-!
# JS: when a drain may time out

A drain stops with `TIMEOUT` when its deadline has come, or when waiting for it
is pointless because nothing can be dispatched before. Two things break that.
`soonestCooldownEnd` looks at the cooling items only, so a list that also holds
an item that is due gives the drain up. And a deadline timer is clamped to the
longest delay `setTimeout` honors, so a single wait of that length ends the drain
ahead of a deadline that is further away.

Results:
1. `timeout_justified_iff` : when a `TIMEOUT` is justified.
2. `mixed_queue_times_out_early` : a drain that gives up on an item that is due.
3. `clamped_timer_times_out_early` : a drain whose deadline timer is clamped.
-/

namespace SyncProvider.Js

/-! ## The soonest cooldown end -/

theorem sooner_le (now : ℚ) (soonest : Option ℚ) (item : SyncItem) :
    (∀ s, soonest = some s → ∃ s', sooner now soonest item = some s' ∧ s' ≤ s) ∧
      (now < item.nextRetryAt →
        ∃ s', sooner now soonest item = some s' ∧ s' ≤ item.nextRetryAt) := by
  unfold sooner
  split
  · rename_i h
    exact ⟨fun s hs => ⟨_, rfl, (h.2 s hs).le⟩, fun _ => ⟨_, rfl, le_rfl⟩⟩
  · rename_i h
    refine ⟨fun s hs => ⟨s, hs, le_rfl⟩, fun hnow => ?_⟩
    cases soonest with
    | none => exact absurd ⟨hnow, by rintro _ ⟨⟩⟩ h
    | some s =>
      refine ⟨s, rfl, le_of_not_gt fun hlt => h ⟨hnow, ?_⟩⟩
      rintro _ ⟨⟩
      exact hlt

theorem foldl_sooner_le (now : ℚ) (items : List SyncItem) (soonest : Option ℚ) :
    (∀ s, soonest = some s → ∃ s', items.foldl (sooner now) soonest = some s' ∧ s' ≤ s) ∧
      ∀ x ∈ items, now < x.nextRetryAt →
        ∃ s', items.foldl (sooner now) soonest = some s' ∧ s' ≤ x.nextRetryAt := by
  induction items generalizing soonest with
  | nil => exact ⟨fun s hs => ⟨s, hs, le_rfl⟩, fun x hx => absurd hx List.not_mem_nil⟩
  | cons item items ih =>
    obtain ⟨hkeep, hitem⟩ := sooner_le now soonest item
    obtain ⟨hlater, hrest⟩ := ih (sooner now soonest item)
    constructor
    · intro s hs
      obtain ⟨s₁, hs₁, hle₁⟩ := hkeep s hs
      obtain ⟨s₂, hs₂, hle₂⟩ := hlater s₁ hs₁
      exact ⟨s₂, hs₂, hle₂.trans hle₁⟩
    · intro x hx hnow
      rcases List.mem_cons.mp hx with rfl | hx
      · obtain ⟨s₁, hs₁, hle₁⟩ := hitem hnow
        obtain ⟨s₂, hs₂, hle₂⟩ := hlater s₁ hs₁
        exact ⟨s₂, hs₂, hle₂.trans hle₁⟩
      · exact hrest x hx hnow

/-- No cooling item ends its cooldown before the soonest end. -/
theorem soonestCooldownEnd_le {items : List SyncItem} {now : ℚ} {x : SyncItem} (hx : x ∈ items)
    (hnow : now < x.nextRetryAt) :
    ∃ s, soonestCooldownEnd items now = some s ∧ s ≤ x.nextRetryAt :=
  (foldl_sooner_le now items none).2 x hx hnow

namespace Drain

/-! ## What stops a drain -/

/-- The step stops the drain for this cause. -/
inductive StopsFor (d : Drain) : Label → StopCause → Prop where
  | cancelled {l : Label} : StopsFor d l .cancelled
  | deadline {l : Label} (h : d.deadlineAt ≤ d.clock) : StopsFor d l .deadline
  | timer {work : Work} {since : ℚ} (hphase : d.phase = .awaiting work since)
    (hdue : d.deadlineTimerDue since ≤ d.clock) : StopsFor d .deadlineTimer (.timer since)
  | cooldown {work : Work} {pending : List SyncItem} {cooldownEnd : ℚ}
    (hphase : d.phase = .settled work (.value (.pendingItems pending)))
    (hsoonest : soonestCooldownEnd pending d.clock = some cooldownEnd)
    (hle : d.deadlineAt ≤ cooldownEnd) : StopsFor d .run (.cooldown pending d.clock)

/-- What a step can do to the deadline, the clock and the cause of a stop. -/
structure StepCause (d : Drain) (l : Label) (d' : Drain) : Prop where
  deadlineAt : d'.deadlineAt = d.deadlineAt
  clock : d.clock ≤ d'.clock
  cause : ∀ cause, d'.phase.cause = some cause → d.phase.cause = some cause ∨ StopsFor d l cause

/-- A wait that does not begin was cancelled, or is past the deadline. -/
theorem cause_raceWithStop {d : Drain} {work : Work} {cause : StopCause}
    (h : (d.raceWithStop work).phase.cause = some cause) :
    cause = .cancelled ∨ cause = .deadline ∧ d.deadlineAt ≤ d.clock := by
  unfold raceWithStop at h
  split at h
  · cases h
    exact .inl rfl
  · split at h
    · rename_i hle
      cases h
      exact .inr ⟨rfl, sub_nonpos.mp hle⟩
    · cases h

theorem stepCause_raceWithStop {d d₀ : Drain} (work : Work) (l : Label) (hsame : SameStops d d₀) :
    StepCause d l (d₀.raceWithStop work) := by
  have hrace := sameStops_raceWithStop d₀ work
  refine ⟨hrace.deadlineAt.trans hsame.deadlineAt, (hrace.clock.trans hsame.clock).ge,
    fun cause hcause => .inr ?_⟩
  rcases cause_raceWithStop hcause with rfl | ⟨rfl, hle⟩
  · exact .cancelled
  · rw [hsame.deadlineAt, hsame.clock] at hle
    exact .deadline hle

theorem cause_waitAfterNoProgress {d : Drain} {pending : List SyncItem} {cause : StopCause}
    (h : (Phase.returned (d.waitAfterNoProgress pending)).cause = some cause) :
    cause = .cooldown pending d.clock ∧
      ∃ cooldownEnd, soonestCooldownEnd pending d.clock = some cooldownEnd ∧
        d.deadlineAt ≤ cooldownEnd := by
  unfold waitAfterNoProgress at h
  split at h
  · cases h
  · rename_i cooldownEnd hsoonest
    split at h <;> cases h
    exact ⟨rfl, cooldownEnd, hsoonest, ‹_›⟩

theorem step_cause {d d' : Drain} {l : Label} (h : d.step l = some d') : StepCause d l d' := by
  cases step_cases h with
  | tick hactive hle => exact ⟨rfl, hle, fun cause hcause => .inl hcause⟩
  | settle hphase hends =>
    refine ⟨rfl, le_rfl, fun cause hcause => ?_⟩
    cases hends with
    | deadlineTimer hdue =>
      cases hcause
      exact .inr (.timer hphase hdue)
    | answer | fail | sleepTimer => cases hcause
  | cancelWait hphase =>
    refine ⟨rfl, le_rfl, fun cause hcause => ?_⟩
    cases hcause
    exact .inr .cancelled
  | cancel hphase hactive => exact ⟨rfl, le_rfl, fun cause hcause => .inl hcause⟩
  | clearSleep hphase hset => exact ⟨rfl, le_rfl, fun cause hcause => .inl hcause⟩
  | resume hphase hclear hresumes =>
    cases hresumes with
    | asks hsame hagain => exact stepCause_raceWithStop _ _ hsame
    | empty =>
      refine ⟨rfl, le_rfl, fun cause hcause => ?_⟩
      cases hcause
    | maxIterations hsize hle =>
      refine ⟨rfl, le_rfl, fun cause hcause => ?_⟩
      cases hcause
    | returns =>
      refine ⟨rfl, le_rfl, fun cause hcause => .inr ?_⟩
      obtain ⟨rfl, cooldownEnd, hsoonest, hle⟩ := cause_waitAfterNoProgress hcause
      exact .cooldown hphase hsoonest hle
  | leave hvalue hcause => exact ⟨rfl, le_rfl, fun cause hc => .inl (hcause ▸ hc)⟩
  | wait hphase hwork => exact stepCause_raceWithStop _ _ (.refl d)
  | stop hcause =>
    refine ⟨rfl, le_rfl, fun cause hc => .inl ?_⟩
    cases hc
    exact hcause
  | reject =>
    refine ⟨rfl, le_rfl, fun cause hcause => ?_⟩
    cases hcause

/-! ## 1. When a timeout is justified -/

/-- The drain stopped on this list, read at this moment. -/
def GaveUpOn (d : Drain) (pending : List SyncItem) (now : ℚ) : Prop :=
  d.phase.cause = some (.cooldown pending now)

/-- The deadline has come, or nothing on the list that decided can be dispatched
before it. -/
def Justified (d : Drain) : Prop :=
  d.deadlineAt ≤ d.clock ∨
    ∃ pending now, d.GaveUpOn pending now ∧ ∀ x ∈ pending, d.deadlineAt ≤ x.nextRetryAt

/-- The step does not stop the drain early: a deadline timer that fires was not
clamped, and a list to give up on holds no item that is due. -/
def KeepsDeadline (d : Drain) : Label → Prop
  | .deadlineTimer => ∀ work since, d.phase = .awaiting work since →
    d.deadlineAt - since ≤ MAX_TIMER_DELAY_MS ∨ d.deadlineAt ≤ d.clock
  | .run => ∀ work pending cooldownEnd,
    d.phase = .settled work (.value (.pendingItems pending)) →
    soonestCooldownEnd pending d.clock = some cooldownEnd → d.deadlineAt ≤ cooldownEnd →
    (∀ x ∈ pending, d.clock < x.nextRetryAt) ∨ d.deadlineAt ≤ d.clock
  | _ => True

/-- What is known of a drain that is about to stop. -/
def CauseHolds (d : Drain) : StopCause → Prop
  | .cancelled => True
  | .deadline => d.deadlineAt ≤ d.clock
  | .timer since => d.deadlineTimerDue since ≤ d.clock
  | .cooldown pending now => now ≤ d.clock ∧
    ∃ cooldownEnd, soonestCooldownEnd pending now = some cooldownEnd ∧ d.deadlineAt ≤ cooldownEnd

/-- When no item was due, every item is cooling, past the deadline. -/
theorem cooling_past_deadline {d : Drain} {pending : List SyncItem} {now : ℚ}
    (h : d.CauseHolds (.cooldown pending now)) (hcooling : ∀ x ∈ pending, now < x.nextRetryAt) :
    ∀ x ∈ pending, d.deadlineAt ≤ x.nextRetryAt := by
  obtain ⟨-, cooldownEnd, hsoonest, hle⟩ := h
  intro x hx
  obtain ⟨s, hs, hsx⟩ := soonestCooldownEnd_le hx (hcooling x hx)
  obtain rfl := Option.some.inj (hsoonest.symm.trans hs)
  exact hle.trans hsx

theorem causeHolds_step {d d' : Drain} {l : Label}
    (hI : ∀ cause, d.phase.cause = some cause → d.CauseHolds cause) (h : d.step l = some d') :
    ∀ cause, d'.phase.cause = some cause → d'.CauseHolds cause := by
  obtain ⟨hdeadline, hclock, hcause⟩ := step_cause h
  have hlater {cause : StopCause} (hd : d.CauseHolds cause) : d'.CauseHolds cause := by
    cases cause with
    | cancelled => trivial
    | deadline =>
      rw [CauseHolds, hdeadline]
      exact hd.trans hclock
    | timer since =>
      rw [CauseHolds, deadlineTimerDue, hdeadline]
      exact hd.trans hclock
    | cooldown pending now =>
      rw [CauseHolds, hdeadline]
      exact ⟨hd.1.trans hclock, hd.2⟩
  intro cause hc
  rcases hcause cause hc with hold | hnew
  · exact hlater (hI cause hold)
  · refine hlater ?_
    cases hnew with
    | cancelled => trivial
    | deadline h => exact h
    | timer hphase hdue => exact hdue
    | cooldown hphase hsoonest hle => exact ⟨le_rfl, _, hsoonest, hle⟩

theorem justified_step {d d' : Drain} {l : Label}
    (hI : ∀ cause, d.phase.cause = some cause → cause = .cancelled ∨ d.Justified)
    (hl : d.KeepsDeadline l) (h : d.step l = some d') :
    ∀ cause, d'.phase.cause = some cause → cause = .cancelled ∨ d'.Justified := by
  obtain ⟨hdeadline, hclock, hcause⟩ := step_cause h
  have hreached (hle : d.deadlineAt ≤ d.clock) : d'.Justified :=
    .inl (by rw [hdeadline]; exact hle.trans hclock)
  intro cause hc
  rcases hcause cause hc with hold | hnew
  · rcases hI cause hold with rfl | hle | ⟨pending, now, hgave, hall⟩
    · exact .inl rfl
    · exact .inr (hreached hle)
    · -- the same stop, one step further
      obtain rfl := Option.some.inj (hold.symm.trans hgave)
      exact .inr (.inr ⟨pending, now, hc, by rwa [hdeadline]⟩)
  · cases hnew with
    | cancelled => exact .inl rfl
    | deadline hle => exact .inr (hreached hle)
    | timer hphase hdue =>
      right
      refine hreached ?_
      rcases hl _ _ hphase with hshort | hle
      · rw [deadlineTimerDue, min_eq_left hshort] at hdue
        linarith
      · exact hle
    | cooldown hphase hsoonest hle =>
      right
      rcases hl _ _ _ hphase hsoonest hle with hcooling | hle
      · refine .inr ⟨_, _, hc, ?_⟩
        rw [hdeadline]
        exact cooling_past_deadline ⟨le_rfl, _, hsoonest, hle⟩ hcooling
      · exact hreached hle

/-- What is known of the result of a drain. -/
def ResultFits (d : Drain) : Prop :=
  ∀ result cause, d.phase = .resolved result cause → result.stoppedReason = .TIMEOUT →
    ∃ c, cause = some c ∧ c ≠ .cancelled

theorem resultFits_step {d d' : Drain} {l : Label} (h : d.step l = some d') : d'.ResultFits := by
  intro result cause hphase htimeout
  obtain ⟨-, hres⟩ := step_resolved h hphase
  cases hres with
  | empty => cases htimeout
  | maxIterations => cases htimeout
  | @stop c hcause =>
    refine ⟨c, rfl, ?_⟩
    rintro rfl
    cases htimeout

theorem ResultFits.cause {d : Drain} (hfits : d.ResultFits) (h : d.stoppedReason = some .TIMEOUT) :
    ∃ c, d.phase.cause = some c ∧ c ≠ .cancelled := by
  obtain ⟨result, cause, hphase, htimeout⟩ := stoppedReason_eq_some.mp h
  obtain ⟨c, rfl, hc⟩ := hfits result cause hphase htimeout
  exact ⟨c, by rw [hphase]; rfl, hc⟩

/-- In any run of `runDrain`: a `TIMEOUT` is justified exactly when the deadline
has come, or the drain gave up on a list without an item that is due. It always
is when no clamped deadline timer fires ahead of the deadline, and no list with
an item that is due is given up on. -/
theorem timeout_justified_iff {options : DrainOptions} {now : ℚ} {d : Drain} {ls : List Label}
    (hrun : StepSystem.exec step (start options now) ls = some d) 
    (htimeout : d.stoppedReason = some .TIMEOUT) :
    (d.Justified ↔ d.deadlineAt ≤ d.clock ∨
      ∃ pending read, d.GaveUpOn pending read ∧ ∀ x ∈ pending, read < x.nextRetryAt) ∧
    (StepSystem.Meets step KeepsDeadline (start options now) ls → d.Justified) := by
  have hstart := sameStops_raceWithStop (enter options now) .isSyncing
  have hfits : d.ResultFits := by
    refine StepSystem.exec_invariant (fun _ => resultFits_step) ?_ hrun
    intro result cause hphase
    have hactive : (start options now).active = true := raceWithStop_active _ _
    rw [active_eq_false hphase] at hactive
    cases hactive
  obtain ⟨c, hc, hne⟩ := hfits.cause htimeout
  constructor
  · have hholds : ∀ cause, d.phase.cause = some cause → d.CauseHolds cause := by
      refine StepSystem.exec_invariant causeHolds_step ?_ hrun
      intro cause hcause
      rcases cause_raceWithStop hcause with rfl | ⟨rfl, hle⟩
      · trivial
      · exact (hstart.deadlineAt.trans_le hle).trans hstart.clock.ge
    constructor
    · rintro (hle | ⟨pending, read, hgave, hall⟩)
      · exact .inl hle
      · have hread : read ≤ d.clock := (hholds _ hgave).1
        rcases le_or_gt d.deadlineAt d.clock with hle | hlt
        · exact .inl hle
        · exact .inr ⟨pending, read, hgave, fun x hx => (hread.trans_lt hlt).trans_le (hall x hx)⟩
    · rintro (hle | ⟨pending, read, hgave, hcooling⟩)
      · exact .inl hle
      · exact .inr ⟨pending, read, hgave, cooling_past_deadline (hholds _ hgave) hcooling⟩
  · intro hkeeps
    have hall : ∀ cause, d.phase.cause = some cause → cause = .cancelled ∨ d.Justified := by
      refine StepSystem.exec_invariant_of_meets justified_step ?_ hkeeps hrun
      intro cause hcause
      rcases cause_raceWithStop hcause with rfl | ⟨rfl, hle⟩
      · exact .inl rfl
      · exact .inr (.inl ((hstart.deadlineAt.trans_le hle).trans hstart.clock.ge))
    exact (hall c hc).resolve_left hne

section Sample

/-- The run up to the first cycle: one item is waiting, and the device is online. -/
def firstFlush (size : Int) : List Label :=
  [.answer (.isSyncing false), .run, .answer (.queueSize size), .run,
    .answer (.connectionStatus .CONNECTED), .run]

/-- The cycle ends, nothing has left the queue, and the pending items are read. -/
def noProgress (size : Int) (pending : List SyncItem) : List Label :=
  [.answer .flushed, .run, .answer (.isSyncing false), .run, .answer (.queueSize size), .run,
    .answer (.pendingItems pending), .run, .run]

/-- Everything cools down past the deadline of 60 seconds. -/
theorem timeout_justified_when_all_cool :
    ∃ d, StepSystem.exec step (start {} 0)
        (firstFlush 1 ++ [.tick 100] ++ noProgress 1 [⟨"A", 100100⟩]) = some d ∧
      d.stoppedReason = some .TIMEOUT ∧ d.clock < d.deadlineAt ∧ d.Justified := by
  obtain ⟨d, hrun, htimeout, hlt, hgave⟩ : ∃ d ∈ StepSystem.exec step (start {} 0)
      (firstFlush 1 ++ [.tick 100] ++ noProgress 1 [⟨"A", 100100⟩]),
      d.stoppedReason = some .TIMEOUT ∧ d.clock < d.deadlineAt ∧
        d.phase.cause = some (.cooldown [⟨"A", 100100⟩] 100) := by
    decide +kernel
  refine ⟨d, hrun, htimeout, hlt, (timeout_justified_iff hrun htimeout).1.mpr (.inr ?_)⟩
  exact ⟨_, _, hgave, by norm_num⟩

/-! ## 2. A queue that is partly due -/

/-- The batch size is 1. The first cycle failed one item, which cools down past
the deadline of 60 seconds. The other one is due. The drain gives up. -/
theorem mixed_queue_times_out_early :
    ∃ d, StepSystem.exec step (start {} 0)
        (firstFlush 2 ++ [.tick 100] ++ noProgress 2 [⟨"B", 0⟩, ⟨"A", 100100⟩]) = some d ∧
      d.stoppedReason = some .TIMEOUT ∧ ¬ d.Justified := by
  obtain ⟨d, hrun, htimeout, hlt, hgave⟩ : ∃ d ∈ StepSystem.exec step (start {} 0)
      (firstFlush 2 ++ [.tick 100] ++ noProgress 2 [⟨"B", 0⟩, ⟨"A", 100100⟩]),
      d.stoppedReason = some .TIMEOUT ∧ d.clock < d.deadlineAt ∧
        d.phase.cause = some (.cooldown [⟨"B", 0⟩, ⟨"A", 100100⟩] 100) ∧ 0 < d.deadlineAt := by
    decide +kernel
  refine ⟨d, hrun, htimeout, ?_⟩
  rintro (hle | ⟨pending, read, hpending, hall⟩)
  · exact absurd hle (not_le_of_gt hlt)
  · obtain ⟨rfl, rfl⟩ := StopCause.cooldown.inj (Option.some.inj (hgave.1.symm.trans hpending))
    exact absurd (hall ⟨"B", 0⟩ List.mem_cons_self) (not_le_of_gt hgave.2)

/-! ## 3. A clamped deadline timer -/

/-- The deadline is 50 days away, and a native call hangs. Its deadline timer
fires after the longest delay there is, about 25 days. -/
theorem clamped_timer_times_out_early :
    ∃ d, StepSystem.exec step (start { timeoutMs := some (.fin 4320000000) } 0)
        [.tick 2147483647, .deadlineTimer, .run] = some d ∧
      d.stoppedReason = some .TIMEOUT ∧ ¬ d.Justified := by
  obtain ⟨d, hrun, htimeout, hlt, hcause⟩ : ∃ d ∈ StepSystem.exec step
      (start { timeoutMs := some (.fin 4320000000) } 0)
      [.tick 2147483647, .deadlineTimer, .run],
      d.stoppedReason = some .TIMEOUT ∧ d.clock < d.deadlineAt ∧
        d.phase.cause = some (.timer 0) := by
    decide +kernel
  refine ⟨d, hrun, htimeout, ?_⟩
  rintro (hle | ⟨pending, read, hpending, -⟩)
  · exact absurd hle (not_le_of_gt hlt)
  · cases hcause.symm.trans hpending

end Sample

end Drain

end SyncProvider.Js
