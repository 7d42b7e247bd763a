import SyncProvider.Ios.Ledger

/-!
# iOS: the attempt budget

An item may be sent `max 1 maxAttempts` times. The counter is compared only
after a failure, so nothing compares it between a recovery and the next request:
a process that dies during the last attempt leaves a row whose counter has
reached the budget, and launch recovery makes it dispatchable again.

Results:
1. `request_within_budget` : the budget holds in every run whose launch
   recoveries find attempts left, and whose lower budgets stay above the
   counters of what waits.
2. `killed_last_attempt_is_repeated` : a run in which a process dies during the
   last attempt.
-/

namespace SyncProvider.Ios

/-- The step leaves the budget at `M`. -/
def Label.HasBudget (M : Int) : Label → Prop
  | .updateConfig config | .kill config _ => budget config = M
  | _ => True

namespace Engine

/-! ## The invariants -/

/-- The accounts agree for every cycle, and only one is active. -/
structure Accounts (e : Engine) : Prop where
  ledger : Ledger e.world .empty
  hands : ∀ t c, e.flushes t = some c → Ledger e.world c.phase.hand ∧ c.phase.Recalls
  running : ∀ t c, e.flushes t = some c → c.active = true → e.world.isCycleRunning = true
  unique : ∀ t c u d, e.flushes t = some c → e.flushes u = some d → c.active = true →
    d.active = true → t = u

/-- Whatever can still be dispatched has attempts left. -/
structure Within (e : Engine) (M : Int) : Prop where
  rows : e.world.Within M
  hands : ∀ t c, e.flushes t = some c → c.phase.hand.Within M

theorem Within.mono {e : Engine} {M N : Int} (hW : e.Within M) (h : M ≤ N) : e.Within N where
  rows r hr hs := (hW.rows r hr hs).trans_le h
  hands t c hc := ⟨fun x hx => ((hW.hands t c hc).items x hx).trans_le h,
    fun hr x hx => ((hW.hands t c hc).retry hr x hx).trans_le h⟩

theorem Within.congr {e e' : Engine} {M : Int} (hW : e.Within M)
    (hstore : e'.world.store = e.world.store) (hflushes : e'.flushes = e.flushes) :
    e'.Within M where
  rows r hr := hW.rows r (hstore ▸ hr)
  hands t c hc := hW.hands t c (hflushes ▸ hc)

/-- The step leaves attempts to whatever can still be dispatched. Launch recovery
does when the rows it finds have attempts left. A lower budget does when it is
above the counters of what waits or is in hand. -/
def KeepsBudget (e : Engine) : Label → Prop
  | .recover => ∀ r ∈ e.world.store.rows, r.status = .IN_FLIGHT → r.attempts < budget e.config
  | .updateConfig config => budget config < budget e.config → e.Within (budget config)
  | .kill config _ => budget config < budget e.config → e.world.Within (budget config)
  | _ => True

/-- The attempts that were persisted for an item before its dispatch, when its
request is about to start. -/
def attemptsBefore (e : Engine) (t : Nat) : Option Int :=
  (e.flushes t).bind fun c => match c.phase with
    | .prepared _ before _ _ _ => before
    | _ => none

namespace Accounts

variable {scheme : String → Option String} {e e' : Engine}

theorem oneCycle (hA : Accounts e) : OneCycle e := ⟨hA.running, hA.unique⟩

/-- A step that leaves the cycles alone and the accounts in order. -/
theorem outside (hA : Accounts e) (hflushes : e'.flushes = e.flushes)
    (hrunning : e'.world.isCycleRunning = e.world.isCycleRunning)
    (hledger : ∀ h, Ledger e.world h → Ledger e'.world h) : Accounts e' where
  ledger := hledger _ hA.ledger
  hands t c hc := (hA.hands t c (hflushes ▸ hc)).imp_left (hledger _)
  running t c hc := by
    rw [hrunning]
    exact hA.running t c (hflushes ▸ hc)
  unique t c u d hc hd := hA.unique t c u d (hflushes ▸ hc) (hflushes ▸ hd)

theorem flush (hA : Accounts e) (t : Nat) (recovered : Option StringMap) (nowMs : Int) :
    Accounts (e.flush t recovered nowMs) := by
  obtain ⟨config, -, h | ⟨hidle, h⟩⟩ := e.flush_cases t recovered nowMs <;> rw [h]
  · exact hA.outside rfl rfl fun _ => id
  · have hledger : ∀ h, Ledger e.world h →
        Ledger ({ e.world with isCycleRunning := true }.emit { type := "SYNC_STARTED" }) h :=
      fun h hL => hL.congr rfl rfl rfl rfl rfl rfl id
    have hone := hA.oneCycle.flush t recovered nowMs
    rw [h] at hone
    refine ⟨hledger _ hA.ledger, fun u c hc => ?_, hone.running, hone.unique⟩
    rcases flushes_setCycle hc with ⟨-, rfl⟩ | ⟨-, hc⟩
    · exact ⟨hledger _ hA.ledger, trivial⟩
    · exact (hA.hands u c hc).imp_left (hledger _)

theorem inCycle {t : Nat} {ev : CycleEvent} {c c' : Cycle} (hA : Accounts e)
    (h : InCycle scheme e e' t ev c c') : Accounts e' := by
  obtain ⟨hL, hR⟩ := hA.hands t c h.before
  have hstep := hL.cycle_step hR h.step
  have hone := hA.oneCycle.inCycle h
  refine ⟨hstep.1.release, fun u d hd => ?_, hone.running, hone.unique⟩
  rcases flushes_setCycle (h.flushes ▸ hd) with ⟨rfl, rfl⟩ | ⟨hu, hd⟩
  · exact hstep
  · refine ⟨?_, (hA.hands u d hd).2⟩
    cases hda : d.active with
    | true =>
      obtain ⟨notBefore, hw⟩ := Cycle.step_ended h.step (hA.oneCycle.ended hu h.before hd hda)
      rw [hw]
      exact (hA.hands u d hd).1.congr rfl rfl rfl rfl rfl rfl id
    | false =>
      rw [CyclePhase.hand_of_ended hda]
      exact hstep.1.release

theorem step {l : Label} (hA : Accounts e) (h : e.step scheme l = some e') : Accounts e' := by
  cases l with
  | enqueue items =>
    obtain ⟨store, hnew, hrows, rfl⟩ := Engine.step_enqueue h
    refine hA.outside rfl rfl fun hand hL =>
      hL.outside (List.subset_append_left _ _) rfl rfl fun r hr => ?_
    change r ∈ store.rows at hr
    rw [hrows, List.mem_append] at hr
    rcases hr with hr | hr
    · exact .inl ⟨r, hr, rfl, rfl⟩
    · obtain ⟨item, hitem, rfl⟩ := List.mem_map.mp hr
      refine .inr ⟨List.mem_append_right _ (List.mem_map_of_mem hitem), ?_, rfl⟩
      change item.id ∉ e.world.issued
      exact hnew item hitem
  | remove call =>
    cases h
    refine hA.outside rfl rfl fun hand hL =>
      hL.outside (List.Subset.refl _) rfl rfl fun r hr => .inl ⟨r, ?_, rfl, rfl⟩
    cases call with
    | remove id => exact (KeyedTable.mem_deleteWhere.mp hr).1
    | clear => cases hr
  | updateConfig config =>
    cases h
    exact hA.outside rfl rfl fun _ => id
  | setPaused paused =>
    cases h
    exact hA.outside rfl rfl fun _ => id
  | flush t recovered nowMs =>
    simp only [Engine.step, Option.ite_none_right_eq_some] at h
    obtain ⟨-, h⟩ := h
    cases h
    exact hA.flush t recovered nowMs
  | cycle t ev =>
    obtain ⟨c, c', h⟩ := step_cycle h
    exact hA.inCycle h
  | recover =>
    simp only [Engine.step, Option.ite_none_right_eq_some] at h
    obtain ⟨-, h⟩ := h
    cases h
    refine hA.outside rfl rfl fun hand hL =>
      hL.outside (List.Subset.refl _) rfl rfl fun r hr => ?_
    rcases SyncItemDao.resetInFlightToPending_cases hr with ⟨hr, -⟩ | ⟨r₀, hr₀, -, rfl⟩
    · exact .inl ⟨r, hr, rfl, rfl⟩
    · exact .inl ⟨r₀, hr₀, rfl, rfl⟩
  | kill config paused =>
    cases h
    refine ⟨hA.ledger.congr rfl rfl rfl rfl rfl rfl id, ?_, ?_, ?_⟩
    · rintro _ _ ⟨⟩
    · rintro _ _ ⟨⟩
    · rintro _ _ _ _ ⟨⟩

end Accounts

/-- What can still be dispatched keeps having attempts left. -/
theorem Within.step {scheme : String → Option String} {e e' : Engine} {l : Label}
    (hW : e.Within (budget e.config)) (hA : Accounts e) (hl : e.KeepsBudget l)
    (h : e.step scheme l = some e') : e'.Within (budget e'.config) := by
  cases l with
  | enqueue items =>
    obtain ⟨store, hnew, hrows, rfl⟩ := Engine.step_enqueue h
    refine ⟨fun r hr hs => ?_, hW.hands⟩
    change r ∈ store.rows at hr
    rw [hrows, List.mem_append] at hr
    rcases hr with hr | hr
    · exact hW.rows r hr hs
    · obtain ⟨item, hitem, rfl⟩ := List.mem_map.mp hr
      exact Int.lt_of_lt_of_le Int.zero_lt_one (le_max_left _ _)
  | remove call =>
    cases h
    refine ⟨fun r hr => hW.rows r ?_, hW.hands⟩
    cases call with
    | remove id => exact (KeyedTable.mem_deleteWhere.mp hr).1
    | clear => cases hr
  | updateConfig config =>
    cases h
    rcases lt_or_ge (budget config) (budget e.config) with hlt | hle
    · exact (hl hlt).congr rfl rfl
    · exact (hW.mono hle).congr rfl rfl
  | setPaused paused =>
    cases h
    exact hW.congr rfl rfl
  | flush t recovered nowMs =>
    simp only [Engine.step, Option.ite_none_right_eq_some] at h
    obtain ⟨-, h⟩ := h
    cases h
    obtain ⟨config, hpolicy, h⟩ := e.flush_cases t recovered nowMs
    have hM : budget config = budget e.config := by rw [budget, hpolicy, budget]
    rw [← hM] at hW
    rcases h with h | ⟨-, h⟩ <;> rw [h]
    · exact hW.congr rfl rfl
    · refine ⟨hW.rows, fun u c hc => ?_⟩
      rcases flushes_setCycle hc with ⟨-, rfl⟩ | ⟨-, hc⟩
      · exact Hand.within_empty _
      · exact hW.hands u c hc
  | cycle t ev =>
    obtain ⟨c, c', h⟩ := step_cycle h
    obtain ⟨hL, hR⟩ := hA.hands t c h.before
    have hstep := (hW.hands t c h.before).cycle_step hW.rows hL hR h.step
    rw [h.config]
    refine ⟨hstep.1, fun u d hd => ?_⟩
    rcases flushes_setCycle (h.flushes ▸ hd) with ⟨-, rfl⟩ | ⟨-, hd⟩
    · exact hstep.2
    · exact hW.hands u d hd
  | recover =>
    simp only [Engine.step, Option.ite_none_right_eq_some] at h
    obtain ⟨-, h⟩ := h
    cases h
    refine ⟨fun r hr hs => ?_, hW.hands⟩
    rcases SyncItemDao.resetInFlightToPending_cases hr with ⟨hr, -⟩ | ⟨r₀, hr₀, hflight, rfl⟩
    · exact hW.rows r hr hs
    · exact hl r₀ hr₀ hflight
  | kill config paused =>
    cases h
    refine ⟨?_, by rintro _ _ ⟨⟩⟩
    rcases lt_or_ge (budget config) (budget e.config) with hlt | hle
    · exact hl hlt
    · exact (hW.mono hle).rows

/-- No step takes an item past the budget. -/
theorem spent_step {scheme : String → Option String} {e e' : Engine} {l : Label} {id : String}
    (hW : e.Within (budget e.config)) (hA : Accounts e) (h : e.step scheme l = some e')
    (hle : e.world.spent id ≤ budget e.config) : e'.world.spent id ≤ budget e.config := by
  rcases step_cases h with h | ⟨t, ev, c, c', -, h⟩
  · rw [World.spent, h.requests, h.refunds]
    exact hle
  · rcases (hA.hands t c h.before).1.spent_cycle_step h.step id with hspent | ⟨x, hx, hspent⟩
    · exact hspent.trans hle
    · exact hspent.trans ((hW.hands t c h.before).items x hx)

/-- The request that is about to start has attempts left. -/
theorem attemptsBefore_lt {e : Engine} {M : Int} {t : Nat} {k : Int} (hW : e.Within M)
    (hA : Accounts e) (h : e.attemptsBefore t = some k) : k < M := by
  obtain ⟨c, hc, h⟩ := Option.bind_eq_some_iff.mp h
  have hR := (hA.hands t c hc).2
  have hhand := hW.hands t c hc
  cases hphase : c.phase with
  | prepared item before rest sentWith request =>
    rw [hphase] at h hR hhand
    rw [hR k h]
    exact hhand.items item (by simp [CyclePhase.hand, Hand.items])
  | _ =>
    rw [hphase] at h
    cases h

theorem Boot.accounts {e : Engine} (h : Boot e) (hstore : e.world.store = .empty) :
    Accounts e where
  ledger :=
    { rows_issued := by simp [hstore]
      requests_issued := by simp [h.requests]
      items_issued := by simp [Hand.items, Hand.empty]
      nodup := by simp [Hand.items, Hand.empty]
      rows := by simp [hstore]
      ahead := by simp [Hand.empty]
      ahead_row := by simp [Hand.empty]
      marked := by simp [Hand.empty]
      marked_row := by simp [Hand.empty] }
  hands t c hc := by
    rw [h.flushes] at hc
    cases hc
  running t c hc := by
    rw [h.flushes] at hc
    cases hc
  unique t c u d hc := by
    rw [h.flushes] at hc
    cases hc

theorem Boot.within {e : Engine} (h : Boot e) (hstore : e.world.store = .empty) (M : Int) :
    e.Within M where
  rows := by simp [World.Within, hstore]
  hands t c hc := by
    rw [h.flushes] at hc
    cases hc

/-! ## 1. The budget over a run -/

theorem budget_step {scheme : String → Option String} {e e' : Engine} {l : Label}
    (hl : l.HasBudget (budget e.config)) (h : e.step scheme l = some e') :
    budget e'.config = budget e.config := by
  cases l with
  | enqueue items =>
    obtain ⟨store, -, -, rfl⟩ := Engine.step_enqueue h
    rfl
  | remove call =>
    cases h
    rfl
  | setPaused paused =>
    cases h
    rfl
  | updateConfig config =>
    cases h
    exact hl
  | kill config paused =>
    cases h
    exact hl
  | flush t recovered nowMs =>
    simp only [step, Option.ite_none_right_eq_some] at h
    obtain ⟨-, h⟩ := h
    cases h
    obtain ⟨config, hpolicy, h | ⟨-, h⟩⟩ := e.flush_cases t recovered nowMs
    · rw [h, budget, budget, ← hpolicy]
    · rw [h, budget, budget, ← hpolicy]
      rfl
  | cycle t ev =>
    obtain ⟨c, c', h⟩ := step_cycle h
    rw [h.config]
  | recover =>
    simp only [step, Option.ite_none_right_eq_some] at h
    obtain ⟨-, h⟩ := h
    cases h
    rfl

/-- In every run from the first launch whose steps keep the budget: a request
starts only for a counter below the budget in force, and with one budget
throughout, no item is sent more often than that, refunded attempts aside. -/
theorem request_within_budget {scheme : String → Option String} {e e' : Engine} {ls : List Label}
    (h : Boot e) (hstore : e.world.store = .empty)
    (hkeeps : StepSystem.Meets (step scheme) KeepsBudget e ls)
    (hrun : StepSystem.exec (step scheme) e ls = some e') :
    (∀ t k, e'.attemptsBefore t = some k → k < budget e'.config) ∧
      ((∀ l ∈ ls, l.HasBudget (budget e.config)) →
        ∀ id, e'.world.spent id ≤ budget e.config) := by
  let I (f : Engine) : Prop := Accounts f ∧ f.Within (budget f.config)
  have hstart : I e := ⟨h.accounts hstore, h.within hstore _⟩
  have hstep : ∀ {f l f'}, I f → KeepsBudget f l → f.step scheme l = some f' → I f' :=
    fun hI hl hs => ⟨hI.1.step hs, hI.2.step hI.1 hl hs⟩
  constructor
  · obtain ⟨hA, hW⟩ := StepSystem.exec_invariant_of_meets
      hstep hstart hkeeps hrun
    exact fun t k hk => attemptsBefore_lt hW hA hk
  · intro hfixed id
    let J (f : Engine) : Prop :=
      I f ∧ budget f.config = budget e.config ∧ f.world.spent id ≤ budget e.config
    have hJ : ∀ {f l f'}, J f → KeepsBudget f l ∧ l.HasBudget (budget e.config) →
        f.step scheme l = some f' → J f' := by
      rintro f l f' ⟨hI, hM, hle⟩ ⟨hl, hfix⟩ hs
      rw [← hM] at hle hfix
      exact ⟨hstep hI hl hs, (budget_step hfix hs).trans hM, hM ▸ spent_step hI.2 hI.1 hs hle⟩
    have hspent : e.world.spent id ≤ budget e.config := by
      simp [World.spent, h.requests, h.refunds, budget]
    have hmeets := hkeeps.and (StepSystem.meets_of_forall hfixed)
    exact (StepSystem.exec_invariant_of_meets hJ ⟨hstart, rfl, hspent⟩ hmeets hrun).2.2

section Sample

/-- An item up to its request: a cycle fetches and claims it, and the request is
built. -/
def prepareRun (t : Nat) : List Label :=
  [.flush t none 2000, .cycle t (.fetch 2000), .cycle t .next, .cycle t (.markInFlight 2001),
    .cycle t .prepare]

/-- The process dies with a request on the wire, and the next launch recovers. -/
def dieRun (config : DispatcherConfig) : List Label :=
  [.cycle 0 .send, .kill config false, .recover]

/-- An attempt that dies with the process counts. The next one is the second of
five. -/
theorem request_within_budget_after_recovery :
    ∃ e, StepSystem.exec (step https) firstLaunch
        (.enqueue [SyncQueueStorage.sampleItem "A"] ::
          prepareRun 0 ++ dieRun sampleConfig ++ prepareRun 1) = some e ∧
      e.attemptsBefore 1 = some 1 ∧ 1 < budget e.config ∧
      ∀ id, e.world.spent id ≤ budget firstLaunch.config := by
  obtain ⟨e, he, hbefore⟩ : ∃ e, StepSystem.exec (step https) firstLaunch
      (.enqueue [SyncQueueStorage.sampleItem "A"] ::
        prepareRun 0 ++ dieRun sampleConfig ++ prepareRun 1) = some e ∧
      e.attemptsBefore 1 = some 1 := ⟨_, rfl, by decide⟩
  have hkeeps : StepSystem.Meets (step https) KeepsBudget firstLaunch
      (.enqueue [SyncQueueStorage.sampleItem "A"] ::
        prepareRun 0 ++ dieRun sampleConfig ++ prepareRun 1) := by
    refine .cons rfl trivial (.cons rfl trivial (.cons rfl trivial (.cons rfl trivial ?_)))
    refine .cons rfl trivial (.cons rfl trivial (.cons rfl trivial ?_))
    refine .cons rfl (fun hlt => absurd hlt (lt_irrefl _)) (.cons rfl ?_ ?_)
    · unfold KeepsBudget
      decide
    exact .cons rfl trivial (.cons rfl trivial (.cons rfl trivial (.cons rfl trivial
      (.cons rfl trivial trivial))))
  have hfixed : ∀ l ∈ (.enqueue [SyncQueueStorage.sampleItem "A"] ::
      prepareRun 0 ++ dieRun sampleConfig ++ prepareRun 1 : List Label),
      l.HasBudget (budget firstLaunch.config) := by
    simp [prepareRun, dieRun, Label.HasBudget, firstLaunch]
  obtain ⟨hlt, hspent⟩ := request_within_budget firstLaunch_boot rfl hkeeps he
  exact ⟨e, he, hbefore, hlt 1 1 hbefore, hspent hfixed⟩

/-! ## 2. A repeated last attempt -/

/-- The sample configuration with one attempt. -/
def singleAttempt : DispatcherConfig :=
  { sampleConfig with retryPolicy := { samplePolicy with maxAttempts := 1 } }

/-- One attempt is allowed. The process dies while its request is out. Recovery
makes the row dispatchable, and the next cycle sends it again. -/
theorem killed_last_attempt_is_repeated :
    ∃ e e', StepSystem.exec (step https) { firstLaunch with config := singleAttempt }
        (.enqueue [SyncQueueStorage.sampleItem "A"] ::
          prepareRun 0 ++ dieRun singleAttempt ++ prepareRun 1) = some e ∧
      e.attemptsBefore 1 = some 1 ∧ budget e.config = 1 ∧
      e.step https (.cycle 1 .send) = some e' ∧ e'.world.spent "A" = 2 :=
  ⟨_, _, rfl, by decide, by decide, rfl, by decide⟩

end Sample

end Engine

end SyncProvider.Ios
