import SyncProvider.Ios.Budget

/-!
# iOS: the `nextRetryAt` sentinel

A `PENDING` row with `nextRetryAt = 0` is meant to be one that was never
attempted, and one with a positive value one that was. Two operations write the
two columns: `markInFlight` counts the attempt before the request, the record of
a failure sets the deadline after it. Launch recovery writes neither, so it
turns a first attempt that died into a `PENDING` row with an attempt and no
deadline.

Results:
1. `Cycle.sentinel_step` : a cycle keeps the sentinel.
2. `sentinel_iff` : it holds along a run exactly when no launch recovery finds a
   first attempt.
3. `killed_first_attempt_breaks_sentinel` : a run in which one does.
-/

namespace SyncProvider.Ios

/-! ## The sentinel -/

/-- The item this step of a cycle claims for its dispatch. -/
def Cycle.claims (c : Cycle) : CycleEvent → List String
  | .markInFlight _ =>
    match c.phase with
    | .claiming item _ => [item.id]
    | _ => []
  | _ => []

/-- The item this step claims for its dispatch. -/
def Engine.claims (e : Engine) : Label → List String
  | .cycle t ev => (e.flushes t).elim [] fun c => c.claims ev
  | _ => []

/-- What the deadline column of a `PENDING` row says. `dispatched` are the ids
that were ever claimed for a dispatch. -/
structure Sentinel (dispatched : List String) (t : StoredItems) : Prop where
  zero : ∀ r ∈ t.rows, r.status = .PENDING →
    (r.nextRetryAt = 0 ↔ r.attempts = 0 ∧ r.id ∉ dispatched)
  positive : ∀ r ∈ t.rows, r.status = .PENDING → (0 < r.nextRetryAt ↔ r.id ∈ dispatched)
  visible : ∀ r ∈ t.rows, r.status = .PENDING → r.id ∈ dispatched →
    ∃ m, SyncItemDao.earliestRetryAt t = some m ∧ m ≤ r.nextRetryAt

/-- The clock is past the epoch when the record of a failure is written. -/
def Label.ClockPositive : Label → Prop
  | .cycle _ (.write nowMs) => 0 < nowMs
  | _ => True

/-- The step keeps the sentinel. Launch recovery does when every row it finds
was cooling before its attempt. -/
def Engine.KeepsSentinel (e : Engine) : Label → Prop
  | .recover => ∀ r ∈ e.world.store.rows, r.status = .IN_FLIGHT → 0 < r.nextRetryAt
  | _ => True

/-! ## 1. What a cycle does to it -/

/-- What is known of the rows: an item that was never claimed is as it was
enqueued, one in flight was claimed, and one that waits again has a deadline. -/
structure Attempted (dispatched : List String) (t : StoredItems) : Prop where
  fresh : ∀ r ∈ t.rows, r.id ∉ dispatched → r.attempts = 0 ∧ r.nextRetryAt = 0
  inFlight : ∀ r ∈ t.rows, r.status = .IN_FLIGHT → r.id ∈ dispatched
  waiting : ∀ r ∈ t.rows, r.status = .PENDING → r.id ∈ dispatched → 0 < r.nextRetryAt

namespace Attempted

variable {dispatched : List String} {t t' : StoredItems}

theorem sentinel (h : Attempted dispatched t) : Sentinel dispatched t where
  zero r hr hs := by
    constructor
    · intro hzero
      have hid : r.id ∉ dispatched := fun hid => by
        have := h.waiting r hr hs hid
        omega
      exact ⟨(h.fresh r hr hid).1, hid⟩
    · rintro ⟨-, hid⟩
      exact (h.fresh r hr hid).2
  positive r hr hs := by
    refine ⟨fun hpos => ?_, h.waiting r hr hs⟩
    by_contra hid
    rw [(h.fresh r hr hid).2] at hpos
    exact lt_irrefl _ hpos
  visible r hr hs hid := SyncItemDao.exists_earliestRetryAt_le hr hs (h.waiting r hr hs hid)

/-- Rows go, and nothing else changes. -/
theorem of_subset (h : Attempted dispatched t) (hrows : t'.rows ⊆ t.rows) :
    Attempted dispatched t' where
  fresh r hr := h.fresh r (hrows hr)
  inFlight r hr := h.inFlight r (hrows hr)
  waiting r hr := h.waiting r (hrows hr)

/-- One row is claimed. -/
theorem mark (h : Attempted dispatched t) (id : String) (nowMs : Int) :
    Attempted (dispatched ++ [id]) (SyncItemDao.markInFlight id nowMs t) := by
  have hcases {r : StoredSyncItem} (hr : r ∈ (SyncItemDao.markInFlight id nowMs t).rows) :
      r ∈ t.rows ∧ r.id ≠ id ∨ r.id = id ∧ r.status = .IN_FLIGHT := by
    rw [SyncItemDao.markInFlight] at hr
    rcases SyncItemDao.updateById_cases hr with hr | ⟨r₀, -, hid, rfl⟩
    · exact .inl hr
    · exact .inr ⟨hid, rfl⟩
  refine ⟨fun r hr hid => ?_, fun r hr hs => ?_, fun r hr hs hid => ?_⟩
  · simp only [List.mem_append, List.mem_singleton, not_or] at hid
    rcases hcases hr with ⟨hr, -⟩ | ⟨heq, -⟩
    · exact h.fresh r hr hid.1
    · exact absurd heq hid.2
  · rcases hcases hr with ⟨hr, -⟩ | ⟨rfl, -⟩
    · exact List.mem_append_left _ (h.inFlight r hr hs)
    · exact List.mem_append_right _ (List.mem_singleton_self _)
  · rcases hcases hr with ⟨hr, hne⟩ | ⟨-, hflight⟩
    · rw [List.mem_append, List.mem_singleton] at hid
      exact h.waiting r hr hs (hid.resolve_right hne)
    · rw [hs] at hflight
      cases hflight

/-- The row of a claimed item fails for good or gets a deadline. -/
theorem write (h : Attempted dispatched t) {id : String} (hclaimed : id ∈ dispatched)
    (hrows : ∀ r ∈ t'.rows, r ∈ t.rows ∧ r.id ≠ id ∨
      r.id = id ∧ (r.status = .FAILED ∨ r.status = .PENDING ∧ 0 < r.nextRetryAt)) :
    Attempted dispatched t' := by
  refine ⟨fun r hr hid => ?_, fun r hr hs => ?_, fun r hr hs hid => ?_⟩
  · rcases hrows r hr with ⟨hr, -⟩ | ⟨rfl, -⟩
    · exact h.fresh r hr hid
    · exact absurd hclaimed hid
  · rcases hrows r hr with ⟨hr, -⟩ | ⟨rfl, -⟩
    · exact h.inFlight r hr hs
    · exact hclaimed
  · rcases hrows r hr with ⟨hr, -⟩ | ⟨-, hfailed | ⟨-, hpos⟩⟩
    · exact h.waiting r hr hs hid
    · rw [hs] at hfailed
      cases hfailed
    · exact hpos

theorem writeFailure {w : World} (h : Attempted dispatched w.store) (c : Cycle)
    {item : StoredSyncItem} (rest : List StoredSyncItem) (record : FailureRecord) {nowMs : Int}
    (hnow : 0 < nowMs) (hclaimed : item.id ∈ dispatched) :
    Attempted dispatched (Cycle.writeFailure w c item rest record nowMs).1.store := by
  have hdeadline (delayMs : Int) : 0 < nowMs + max 0 delayMs := by omega
  unfold Cycle.writeFailure
  split
  · refine h.write hclaimed fun r hr => ?_
    rcases SyncItemDao.markFailed_cases hr with hr | ⟨r₀, -, hid, rfl⟩
    · exact .inl hr
    · exact .inr ⟨hid, .inl rfl⟩
  · refine h.write hclaimed fun r hr => ?_
    rcases SyncItemDao.markPendingForRetry_cases hr with hr | ⟨r₀, -, hid, rfl⟩
    · exact .inl hr
    · exact .inr ⟨hid, .inr ⟨rfl, hdeadline _⟩⟩
  · refine h.write hclaimed fun r hr => ?_
    rcases SyncItemDao.markCredentialRejected_cases hr with hr | ⟨r₀, -, hid, rfl⟩
    · exact .inl hr
    · exact .inr ⟨hid, .inr ⟨rfl, hdeadline _⟩⟩

end Attempted

/-- The item under dispatch was claimed. -/
def CyclePhase.Claimed (dispatched : List String) (phase : CyclePhase) : Prop :=
  ∀ x, phase.hand.marked = some x → x.id ∈ dispatched

theorem Cycle.sentinel_step {scheme : String → Option String} {config : DispatcherConfig}
    {paused : Bool} {w w' : World} {c c' : Cycle} {ev : CycleEvent} {dispatched : List String}
    (hA : Attempted dispatched w.store) (hC : c.phase.Claimed dispatched)
    (hnow : ∀ nowMs, ev = .write nowMs → 0 < nowMs)
    (h : c.step scheme config paused w ev = some (w', c')) :
    Attempted (dispatched ++ c.claims ev) w'.store ∧
      c'.phase.Claimed (dispatched ++ c.claims ev) := by
  have hnone {phase : CyclePhase} (hphase : phase.hand.marked = none) (D : List String) :
      phase.Claimed D := by
    intro x hx
    rw [hphase] at hx
    cases hx
  cases Cycle.step_cases h with
  | @markInFlight item rest nowMs hphase =>
    simp only [claims, hphase]
    refine ⟨hA.mark item.id nowMs, fun x hx => ?_⟩
    cases hx
    exact List.mem_append_right _ (List.mem_singleton_self _)
  | fetchNone hphase | fetch hphase | leave hphase | take hphase | summarize hphase
  | finish hphase =>
    simp only [claims, List.append_nil]
    exact ⟨hA, hnone rfl _⟩
  | fail hstorage =>
    simp only [claims, List.append_nil]
    exact ⟨hA, hnone rfl _⟩
  | prepare hphase | rejectUrl hphase | send hphase | sendFails hphase | answer hphase
  | succeed hphase | failItem hphase =>
    rw [hphase] at hC
    simp only [claims, List.append_nil]
    exact ⟨hA, hC⟩
  | @remove item rest statusCode nowMs hphase =>
    simp only [claims, List.append_nil]
    refine ⟨hA.of_subset fun r hr => ?_, hnone rfl _⟩
    exact (KeyedTable.mem_deleteWhere.mp hr).1
  | @record item rest record nowMs hphase =>
    rw [hphase] at hC
    simp only [claims, List.append_nil]
    refine ⟨hA.writeFailure c rest record (hnow nowMs rfl) (hC item rfl), ?_⟩
    unfold Cycle.writeFailure
    split <;> exact hnone rfl _

/-- What a cycle claims has entered the store. -/
theorem Cycle.claims_issued {w : World} {c : Cycle} {ev : CycleEvent} {id : String}
    (hL : Ledger w c.phase.hand) (h : id ∈ c.claims ev) : id ∈ w.issued := by
  unfold claims at h
  split at h
  · split at h
    · rename_i item rest hphase
      rw [hphase] at hL
      rw [List.mem_singleton.mp h]
      exact hL.items_issued item (by simp [CyclePhase.hand, Hand.items])
    · cases h
  · cases h

namespace Engine

/-! ## 2. The sentinel over a run -/

/-- What holds in every state while the steps keep the sentinel. -/
structure Traced (dispatched : List String) (e : Engine) : Prop where
  accounts : Accounts e
  issued : ∀ id ∈ dispatched, id ∈ e.world.issued
  rows : Attempted dispatched e.world.store
  hands : ∀ t c, e.flushes t = some c → c.phase.Claimed dispatched

theorem Boot.traced {e : Engine} (h : Boot e) (hstore : e.world.store = .empty) :
    Traced [] e where
  accounts := h.accounts hstore
  issued := by simp
  rows := by
    rw [hstore]
    constructor <;> simp
  hands t c hc := by
    rw [h.flushes] at hc
    cases hc

namespace Traced

variable {scheme : String → Option String} {e e' : Engine} {dispatched : List String}

/-- A step outside the cycles that claims nothing. -/
theorem outside (hT : Traced dispatched e) {l : Label} (hstep : e.step scheme l = some e')
    (hclaims : e.claims l = []) (hissued : e.world.issued ⊆ e'.world.issued)
    (hrows : Attempted dispatched e'.world.store)
    (hflushes : ∀ t c, e'.flushes t = some c → e.flushes t = some c ∨ c.phase.hand.marked = none) :
    Traced (dispatched ++ e.claims l) e' := by
  rw [hclaims, List.append_nil]
  refine ⟨hT.accounts.step hstep, fun id hid => hissued (hT.issued id hid), hrows, ?_⟩
  intro t c hc x hx
  rcases hflushes t c hc with hc | hmarked
  · exact hT.hands t c hc x hx
  · rw [hmarked] at hx
    cases hx

theorem inCycle (hT : Traced dispatched e) {t : Nat} {ev : CycleEvent} {c c' : Cycle}
    (hl : (Label.cycle t ev).ClockPositive) (hstep : e.step scheme (.cycle t ev) = some e')
    (h : InCycle scheme e e' t ev c c') : Traced (dispatched ++ e.claims (.cycle t ev)) e' := by
  have hclaims : e.claims (.cycle t ev) = c.claims ev := by simp [claims, h.before]
  have hnow : ∀ nowMs, ev = .write nowMs → 0 < nowMs := by
    rintro nowMs rfl
    exact hl
  obtain ⟨hrows, hclaimed⟩ :=
    Cycle.sentinel_step hT.rows (hT.hands t c h.before) hnow h.step
  rw [hclaims]
  refine ⟨hT.accounts.step hstep, fun id hid => ?_, hrows, fun u d hd => ?_⟩
  · rw [(Cycle.step_spec h.step).issued]
    rcases List.mem_append.mp hid with hid | hid
    · exact hT.issued id hid
    · exact Cycle.claims_issued (hT.accounts.hands t c h.before).1 hid
  · rcases flushes_setCycle (h.flushes ▸ hd) with ⟨-, rfl⟩ | ⟨-, hd⟩
    · exact hclaimed
    · exact fun x hx => List.mem_append_left _ (hT.hands u d hd x hx)

theorem step (hT : Traced dispatched e) {l : Label} (hl : l.ClockPositive)
    (hkeeps : e.KeepsSentinel l) (h : e.step scheme l = some e') :
    Traced (dispatched ++ e.claims l) e' := by
  have hstep := h
  cases l with
  | enqueue items =>
    obtain ⟨store, hnew, hrows, rfl⟩ := Engine.step_enqueue h
    refine hT.outside hstep rfl (List.subset_append_left _ _) ?_ fun t c hc => .inl hc
    have hrows {r : StoredSyncItem} (hr : r ∈ store.rows) :
        r ∈ e.world.store.rows ∨
          r.attempts = 0 ∧ r.nextRetryAt = 0 ∧ r.status = .PENDING ∧ r.id ∉ dispatched := by
      rw [hrows, List.mem_append] at hr
      refine hr.imp_right fun hr => ?_
      obtain ⟨item, hitem, rfl⟩ := List.mem_map.mp hr
      refine ⟨rfl, rfl, rfl, fun hid => ?_⟩
      have hnot : item.id ∉ e.world.issued := hnew item hitem
      exact hnot (hT.issued item.id hid)
    refine ⟨fun r hr hid => ?_, fun r hr hs => ?_, fun r hr hs hid => ?_⟩
    · rcases hrows hr with hr | ⟨hattempts, hzero, -⟩
      · exact hT.rows.fresh r hr hid
      · exact ⟨hattempts, hzero⟩
    · rcases hrows hr with hr | ⟨-, -, hpending, -⟩
      · exact hT.rows.inFlight r hr hs
      · rw [hs] at hpending
        cases hpending
    · rcases hrows hr with hr | ⟨-, -, -, hnot⟩
      · exact hT.rows.waiting r hr hs hid
      · exact absurd hid hnot
  | remove call =>
    cases h
    refine hT.outside hstep rfl (List.Subset.refl _) (hT.rows.of_subset fun r hr => ?_)
      fun t c hc => .inl hc
    cases call with
    | remove id => exact (KeyedTable.mem_deleteWhere.mp hr).1
    | clear => cases hr
  | updateConfig config =>
    cases h
    exact hT.outside hstep rfl (List.Subset.refl _) hT.rows fun t c hc => .inl hc
  | setPaused paused =>
    cases h
    exact hT.outside hstep rfl (List.Subset.refl _) hT.rows fun t c hc => .inl hc
  | flush t recovered nowMs =>
    simp only [Engine.step, Option.ite_none_right_eq_some] at h
    obtain ⟨-, h⟩ := h
    cases h
    obtain ⟨config, -, h | ⟨-, h⟩⟩ := e.flush_cases t recovered nowMs <;> rw [h] at hstep ⊢
    · exact hT.outside hstep rfl (List.Subset.refl _) hT.rows fun u c hc => .inl hc
    · refine hT.outside hstep rfl (List.Subset.refl _) hT.rows fun u c hc => ?_
      rcases flushes_setCycle hc with ⟨-, rfl⟩ | ⟨-, hc⟩
      · exact .inr rfl
      · exact .inl hc
  | cycle t ev =>
    obtain ⟨c, c', h⟩ := step_cycle h
    exact hT.inCycle hl hstep h
  | recover =>
    simp only [Engine.step, Option.ite_none_right_eq_some] at h
    obtain ⟨-, h⟩ := h
    cases h
    refine hT.outside hstep rfl (List.Subset.refl _) ?_ fun t c hc => .inl hc
    refine ⟨fun r hr hid => ?_, fun r hr hs => ?_, fun r hr hs hid => ?_⟩
    · rcases SyncItemDao.resetInFlightToPending_cases hr with ⟨hr, -⟩ | ⟨r₀, hr₀, -, rfl⟩
      · exact hT.rows.fresh r hr hid
      · exact hT.rows.fresh r₀ hr₀ hid
    · rcases SyncItemDao.resetInFlightToPending_cases hr with ⟨-, hnot⟩ | ⟨r₀, -, -, rfl⟩
      · exact absurd hs hnot
      · cases hs
    · rcases SyncItemDao.resetInFlightToPending_cases hr with ⟨hr, -⟩ | ⟨r₀, hr₀, hflight, rfl⟩
      · exact hT.rows.waiting r hr hs hid
      · exact hkeeps r₀ hr₀ hflight
  | kill config paused =>
    cases h
    exact hT.outside hstep rfl (List.Subset.refl _) hT.rows (by rintro _ _ ⟨⟩)

/-- A launch recovery after which the sentinel holds found no first attempt. -/
theorem keepsSentinel (hT : Traced dispatched e) {l : Label} (h : e.step scheme l = some e')
    (hS : Sentinel (dispatched ++ e.claims l) e'.world.store) : e.KeepsSentinel l := by
  cases l with
  | recover =>
    intro r hr hs
    simp only [Engine.step, Option.ite_none_right_eq_some] at h
    obtain ⟨-, h⟩ := h
    cases h
    have hmem : { r with status := .PENDING } ∈
        (SyncItemDao.resetInFlightToPending e.world.store).rows :=
      SyncItemDao.mem_resetInFlightToPending.mpr ⟨r, hr, by rw [if_pos hs]⟩
    refine (hS.positive _ hmem rfl).mpr ?_
    exact List.mem_append_left _ (hT.rows.inFlight r hr hs)
  | _ => trivial

end Traced

/-- Along every run from the first launch, kills and relaunches included: the
sentinel holds in every state exactly when every launch recovery finds only rows
in flight that were cooling before their attempt. -/
theorem sentinel_iff {scheme : String → Option String} {e : Engine} {ls : List Label}
    {p : Engine × List String} (h : Boot e) (hstore : e.world.store = .empty)
    (hclock : ∀ l ∈ ls, l.ClockPositive)
    (hrun : StepSystem.exec (StepSystem.recorded (step scheme) claims) (e, []) ls = some p) :
    StepSystem.Always (StepSystem.recorded (step scheme) claims)
        (fun p => Sentinel p.2 p.1.world.store) (e, []) ls ↔
      StepSystem.Meets (StepSystem.recorded (step scheme) claims)
        (fun p l => p.1.KeepsSentinel l) (e, []) ls := by
  let I (p : Engine × List String) : Prop := Traced p.2 p.1
  have hstep : ∀ {p l q}, I p → l.ClockPositive → p.1.KeepsSentinel l →
      StepSystem.recorded (step scheme) claims p l = some q → I q := by
    intro p l q hT hl hkeeps hs
    obtain ⟨hs, hq⟩ := StepSystem.recorded_eq_some.mp hs
    change Traced q.2 q.1
    rw [hq]
    exact hT.step hl hkeeps hs
  have hkeeps : ∀ {p l q}, I p → l.ClockPositive →
      StepSystem.recorded (step scheme) claims p l = some q →
      Sentinel q.2 q.1.world.store → p.1.KeepsSentinel l := by
    intro p l q hT _ hs hS
    obtain ⟨hs, hq⟩ := StepSystem.recorded_eq_some.mp hs
    rw [hq] at hS
    exact hT.keepsSentinel hs hS
  let D (_ : Engine × List String) (l : Label) : Prop := l.ClockPositive
  have hD : StepSystem.Meets (StepSystem.recorded (step scheme) claims) D (e, []) ls :=
    StepSystem.meets_of_forall hclock
  exact StepSystem.always_iff_meets (D := D) hstep (fun hT => hT.rows.sentinel) hkeeps
    (h.traced hstore) hD hrun

section Sample

instance decidableKeepsSentinel (e : Engine) (l : Label) : Decidable (e.KeepsSentinel l) := by
  cases l <;> unfold KeepsSentinel <;> infer_instance

/-- A first attempt comes back with a 503 and the item cools down. The process
dies during the second one, and the next launch recovers. -/
def cooledRun : List Label :=
  .enqueue [SyncQueueStorage.sampleItem "A"] :: prepareRun 0 ++
    [.cycle 0 .send, .cycle 0 (.answer (some 503) none), .cycle 0 (.settle 0),
      .cycle 0 (.write 2100), .cycle 0 .next, .cycle 0 (.summarize 2200), .cycle 0 .finish,
      .flush 1 none 4000, .cycle 1 (.fetch 4000), .cycle 1 .next, .cycle 1 (.markInFlight 4001),
      .kill sampleConfig false, .recover]

/-- The row waits again, with its old deadline. -/
theorem sentinel_survives_cooled_recovery :
    ∃ p, StepSystem.exec (StepSystem.recorded (step https) claims) (firstLaunch, []) cooledRun =
        some p ∧
      p.1.world.store.rows.map (fun r => (r.attempts, r.nextRetryAt)) = [(2, 3100)] ∧
      StepSystem.Always (StepSystem.recorded (step https) claims)
        (fun p => Sentinel p.2 p.1.world.store) (firstLaunch, []) cooledRun := by
  have hend : (StepSystem.exec (StepSystem.recorded (step https) claims) (firstLaunch, [])
      cooledRun).map (fun p => p.1.world.store.rows.map fun r => (r.attempts, r.nextRetryAt)) =
      some [(2, 3100)] := by
    decide +kernel
  obtain ⟨p, hp, hrow⟩ := Option.map_eq_some_iff.mp hend
  have hclock : ∀ l ∈ cooledRun, l.ClockPositive := by
    simp [cooledRun, prepareRun, Label.ClockPositive]
  refine ⟨p, hp, hrow, (sentinel_iff firstLaunch_boot rfl hclock hp).mpr ?_⟩
  decide +kernel

/-! ## 3. A first attempt that dies -/

/-- The process dies during the first attempt, and the next launch recovers. -/
def killedRun : List Label :=
  .enqueue [SyncQueueStorage.sampleItem "A"] :: prepareRun 0 ++ dieRun sampleConfig

/-- The attempt was counted and no deadline was written. After the recovery the
row looks as if it was never attempted, and the wake query does not see it. -/
theorem killed_first_attempt_breaks_sentinel :
    ∃ p, StepSystem.exec (StepSystem.recorded (step https) claims) (firstLaunch, []) killedRun =
        some p ∧ (∀ l ∈ killedRun, l.ClockPositive) ∧
      p.1.world.store.rows.map (fun r => (r.status, r.attempts, r.nextRetryAt)) =
        [(.PENDING, 1, 0)] ∧
      p.2 = ["A"] ∧ SyncItemDao.earliestRetryAt p.1.world.store = none ∧
      ¬ Sentinel p.2 p.1.world.store := by
  refine ⟨_, rfl, ?_, by decide +kernel, by decide +kernel, by decide +kernel, fun h => ?_⟩
  · simp [killedRun, prepareRun, dieRun, Label.ClockPositive]
  · exact absurd (h.positive _ List.mem_cons_self rfl) (by decide +kernel)

end Sample

end Engine

end SyncProvider.Ios
