import SyncProvider.Ios.Wire

/-!
# iOS: the rows in flight

A cycle marks a row `IN_FLIGHT` before its request and writes the outcome after
the answer. In between, the row is out of sight of every fetch. Launch recovery
puts such rows back, and nothing else does. It runs once in a process, in a task
of its own that a call of `flush` does not wait for.

Results:
1. `Cycle.step_hand`, `Cycle.step_inFlight` : what a cycle has in hand, and which
   rows it puts in flight.
2. `recovery_spares_live_iff` : when launch recovery leaves the rows alone whose
   request is out.
3. `nothing_stranded_iff` : when a cycle that ends leaves no row in flight.
-/

namespace SyncProvider.Ios

/-! ## 1. The hand of a cycle -/

/-- The snapshots in hand are of distinct items, each of them issued. -/
structure Hand.Owned (h : Hand) (issued : List String) : Prop where
  issued : ∀ x ∈ h.items, x.id ∈ issued
  nodup : (h.items.map (·.id)).Nodup

theorem Hand.Owned.mono {h : Hand} {issued issued' : List String} (hO : h.Owned issued)
    (hsub : issued ⊆ issued') : h.Owned issued' :=
  ⟨fun x hx => hsub (hO.issued x hx), hO.nodup⟩

theorem Hand.marked_mem_items {h : Hand} {x : StoredSyncItem} (hx : h.marked = some x) :
    x ∈ h.items := by
  simp [Hand.items, hx]

/-- Whoever has an item under dispatch is active. -/
theorem Cycle.active_of_marked {c : Cycle} {x : StoredSyncItem}
    (hx : c.phase.hand.marked = some x) : c.active = true := by
  cases hc : c.active with
  | true => rfl
  | false =>
    rw [CyclePhase.hand_of_ended hc] at hx
    cases hx

namespace Cycle

variable {scheme : String → Option String} {config : DispatcherConfig} {paused : Bool}
  {w w' : World} {c c' : Cycle} {ev : CycleEvent}

/-- A step keeps the snapshots in hand, lets some go, or fetches a batch. -/
theorem step_hand (h : c.step scheme config paused w ev = some (w', c')) :
    c'.phase.hand.items.Sublist c.phase.hand.items ∨
      ∃ nowMs limit, c'.phase.hand.items = SyncItemDao.fetchPending nowMs limit w.store := by
  have hdrop {d : Cycle} (hd : d.phase.hand.items = []) :
      d.phase.hand.items.Sublist c.phase.hand.items := by
    rw [hd]
    exact List.nil_sublist _
  cases step_cases h with
  | fetchNone | leave | summarize | fail => exact .inl (hdrop rfl)
  | fetch hphase hpending hsome => exact .inr ⟨_, _, hpending.symm⟩
  | finish => exact .inl (hdrop rfl)
  | take hphase | markInFlight hphase | prepare hphase | rejectUrl hphase | send hphase
  | sendFails hphase | answer hphase | succeed hphase | failItem hphase =>
    left
    rw [hphase]
    exact List.Sublist.refl _
  | remove hphase =>
    left
    rw [hphase]
    exact List.sublist_append_right _ _
  | @record item rest record nowMs hphase =>
    left
    rw [hphase]
    unfold writeFailure
    cases record.write with
    | markCredentialRejected => exact List.nil_sublist _
    | markFailed | markPendingForRetry => exact List.sublist_append_right _ _

theorem step_owned (hO : c.phase.hand.Owned w.issued)
    (hrows : ∀ id ∈ w.store.keys, id ∈ w.issued)
    (h : c.step scheme config paused w ev = some (w', c')) :
    c'.phase.hand.Owned w'.issued := by
  rw [(step_spec h).issued]
  rcases step_hand h with hsub | ⟨nowMs, limit, hfetch⟩
  · exact ⟨fun x hx => hO.issued x (hsub.subset hx), hO.nodup.sublist (hsub.map _)⟩
  · refine ⟨fun x hx => ?_, hfetch ▸ SyncItemDao.fetchPending_nodup nowMs limit w.store⟩
    rw [hfetch] at hx
    exact hrows _ (KeyedTable.key_mem_keys (SyncItemDao.fetchPending_subset hx).1)

/-- After a failed dispatch the loop goes on or stops. -/
theorem phase_writeFailure (w : World) (c : Cycle) (item : StoredSyncItem)
    (rest : List StoredSyncItem) (record : FailureRecord) (nowMs : Int) :
    (writeFailure w c item rest record nowMs).2.phase = .looping rest ∨
      (writeFailure w c item rest record nowMs).2.phase = .summarizing false := by
  unfold writeFailure
  cases record.write with
  | markCredentialRejected => exact .inr rfl
  | markFailed | markPendingForRetry => exact .inl rfl

/-- What an outcome leaves of its row is not in flight. -/
theorem writeFailure_inFlight {item : StoredSyncItem} {rest : List StoredSyncItem}
    {record : FailureRecord} {nowMs : Int} {r : StoredSyncItem}
    (hr : r ∈ (writeFailure w c item rest record nowMs).1.store.rows)
    (hs : r.status = .IN_FLIGHT) : r ∈ w.store.rows ∧ r.id ≠ item.id := by
  unfold writeFailure at hr
  split at hr
  · rcases SyncItemDao.markFailed_cases hr with hr | ⟨r₀, -, -, rfl⟩
    · exact hr
    · cases hs
  · rcases SyncItemDao.markPendingForRetry_cases hr with hr | ⟨r₀, -, -, rfl⟩
    · exact hr
    · cases hs
  · rcases SyncItemDao.markCredentialRejected_cases hr with hr | ⟨r₀, -, -, rfl⟩
    · exact hr
    · cases hs

/-- A row in flight after a step was so before, and is not the one whose outcome
was written, or it is the one the step has claimed. -/
theorem step_inFlight (h : c.step scheme config paused w ev = some (w', c')) {r : StoredSyncItem}
    (hr : r ∈ w'.store.rows) (hs : r.status = .IN_FLIGHT) :
    (r ∈ w.store.rows ∧ ∀ x, c.phase.hand.marked = some x → r.id = x.id →
      c'.phase.hand.marked = some x ∨ c'.active = false) ∨
      ∃ x, c'.phase.hand.marked = some x ∧ x.id = r.id := by
  cases step_cases h with
  | @markInFlight item rest nowMs hphase =>
    obtain ⟨r₀, hr₀, rfl⟩ := SyncItemDao.mem_markInFlight.mp hr
    by_cases hid : r₀.id = item.id
    · rw [if_pos hid]
      exact .inr ⟨item, rfl, hid.symm⟩
    · rw [if_neg hid]
      refine .inl ⟨hr₀, fun x hx => ?_⟩
      rw [hphase] at hx
      cases hx
  | @remove item rest statusCode nowMs hphase =>
    obtain ⟨hr₀, hne⟩ := KeyedTable.mem_deleteWhere.mp hr
    refine .inl ⟨hr₀, fun x hx hid => ?_⟩
    rw [hphase] at hx
    cases hx
    simp [hid] at hne
  | @record item rest record nowMs hphase =>
    obtain ⟨hr₀, hne⟩ := writeFailure_inFlight hr hs
    refine .inl ⟨hr₀, fun x hx hid => ?_⟩
    rw [hphase] at hx
    cases hx
    exact absurd hid hne
  | fetchNone hphase | fetch hphase | leave hphase | take hphase =>
    refine .inl ⟨hr, fun x hx => ?_⟩
    rw [hphase] at hx
    cases hx
  | summarize | fail | finish => exact .inl ⟨hr, fun x hx hid => .inr rfl⟩
  | prepare hphase | rejectUrl hphase | send hphase | sendFails hphase | answer hphase
  | succeed hphase | failItem hphase =>
    refine .inl ⟨hr, fun x hx hid => .inl ?_⟩
    rw [hphase] at hx
    exact hx

theorem step_answer {statusCode : Option Int} {error : Option TransportError}
    (h : c.step scheme config paused w (.answer statusCode error) = some (w', c')) : w' = w := by
  cases step_cases h with
  | answer => rfl

/-- The row of the item under dispatch stays in flight until its outcome. -/
theorem step_carried (h : c.step scheme config paused w ev = some (w', c'))
    (hold : ∀ x, c.phase.hand.marked = some x → ∀ r ∈ w.store.rows, r.id = x.id →
      r.status = .IN_FLIGHT) {x : StoredSyncItem} (hx : c'.phase.hand.marked = some x)
    {r : StoredSyncItem} (hr : r ∈ w'.store.rows) (hid : r.id = x.id) : r.status = .IN_FLIGHT := by
  cases step_cases h with
  | @markInFlight item rest nowMs hphase =>
    cases hx
    obtain ⟨r₀, -, rfl⟩ := SyncItemDao.mem_markInFlight.mp hr
    by_cases hid₀ : r₀.id = x.id
    · rw [if_pos hid₀]
    · rw [if_neg hid₀] at hid
      exact absurd hid hid₀
  | @record item rest record nowMs hphase =>
    unfold writeFailure at hx
    split at hx <;> cases hx
  | fetchNone | fetch | leave | take | remove | summarize | fail | finish => cases hx
  | prepare hphase | rejectUrl hphase | send hphase | sendFails hphase | answer hphase
  | succeed hphase | failItem hphase =>
    refine hold x ?_ r hr hid
    rw [hphase]
    exact hx

end Cycle

namespace Engine

variable {scheme : String → Option String} {e e' : Engine} {l : Label} {t : Nat} {c : Cycle}

/-- While a cycle is active, a row of a known item changes in a step of that
cycle only, or when launch recovery puts it back. -/
theorem rows_of_other (hO : OneCycle e) (hc : e.flushes t = some c) (hca : c.active = true)
    (hl : ∀ ev, l ≠ .cycle t ev) (h : e.step scheme l = some e') {r : StoredSyncItem}
    (hr : r ∈ e'.world.store.rows) (hid : r.id ∈ e.world.issued) :
    r ∈ e.world.store.rows ∨ l = .recover ∧ e.recovering = true ∧
      ∃ r₀ ∈ e.world.store.rows, r₀.status = .IN_FLIGHT ∧ { r₀ with status := .PENDING } = r := by
  cases l with
  | enqueue items =>
    obtain ⟨store, hnew, hrows, rfl⟩ := Engine.step_enqueue h
    have hr : r ∈ store.rows := hr
    rw [hrows, List.mem_append] at hr
    rcases hr with hr | hr
    · exact .inl hr
    · -- the id of a new row is not a known one
      obtain ⟨item, hitem, rfl⟩ := List.mem_map.mp hr
      exact absurd hid (hnew item hitem)
  | remove call =>
    cases h
    left
    cases call with
    | remove x => exact (KeyedTable.mem_deleteWhere.mp hr).1
    | clear => cases hr
  | updateConfig config | setPaused paused | kill config paused =>
    cases h
    exact .inl hr
  | flush u recovered nowMs =>
    simp only [step, Option.ite_none_right_eq_some] at h
    obtain ⟨-, h⟩ := h
    cases h
    left
    obtain ⟨config, -, heq | ⟨-, heq⟩⟩ := e.flush_cases u recovered nowMs <;> rwa [heq] at hr
  | cycle u ev =>
    obtain ⟨d, d', hcycle⟩ := step_cycle h
    have hu : u ≠ t := by
      rintro rfl
      exact hl ev rfl
    obtain ⟨notBefore, hw⟩ :=
      Cycle.step_ended hcycle.step (hO.ended (Ne.symm hu) hcycle.before hc hca)
    rw [hw] at hr
    exact .inl hr
  | recover =>
    simp only [step, Option.ite_none_right_eq_some] at h
    obtain ⟨hrecovering, h⟩ := h
    cases h
    rcases SyncItemDao.resetInFlightToPending_cases hr with ⟨hr, -⟩ | hr
    · exact .inl hr
    · exact .inr ⟨rfl, hrecovering, hr⟩

/-- What the store and the cycles hold are issued items, and one cycle is active
at a time. -/
structure Custody (e : Engine) : Prop where
  one : OneCycle e
  issued : KeysIssued e
  owned : ∀ t c, e.flushes t = some c → c.phase.hand.Owned e.world.issued

theorem Custody.step (hC : Custody e) (h : e.step scheme l = some e') : Custody e' := by
  have hissued : e.world.issued ⊆ e'.world.issued := (outbox_step h).issued_mono
  refine ⟨hC.one.step h, hC.issued.step h, fun t c hc => ?_⟩
  rcases step_kinds h with hA | ⟨u, recovered, nowMs, -, -, rfl⟩ | ⟨u, ev, d, d', -, hcycle⟩ |
    ⟨config, paused, rfl⟩
  · exact Hand.Owned.mono (hC.owned t c (hA.flushes ▸ hc)) hissued
  · obtain ⟨config, -, heq | ⟨-, heq⟩⟩ := e.flush_cases u recovered nowMs <;> rw [heq] at hc ⊢
    · exact hC.owned t c hc
    · rcases flushes_setCycle hc with ⟨-, rfl⟩ | ⟨-, hc⟩
      · exact ⟨fun x hx => absurd hx List.not_mem_nil, List.nodup_nil⟩
      · exact hC.owned t c hc
  · rcases flushes_setCycle (hcycle.flushes ▸ hc) with ⟨-, rfl⟩ | ⟨-, hc⟩
    · exact Cycle.step_owned (hC.owned u d hcycle.before) hC.issued hcycle.step
    · exact Hand.Owned.mono (hC.owned t c hc) hissued
  · cases h
    cases hc

theorem Boot.custody (h : Boot e) : Custody e where
  one := h.oneCycle
  issued _ hid := h.issued ▸ hid
  owned t c hc := by
    rw [h.flushes] at hc
    cases hc

/-! ## 2. Launch recovery -/

/-- Until launch recovery has run, the row of an item under dispatch is in
flight, if it is still there. -/
def Carried (e : Engine) : Prop :=
  e.recovering = true → ∀ t c x, e.flushes t = some c → c.phase.hand.marked = some x →
    ∀ r ∈ e.world.store.rows, r.id = x.id → r.status = .IN_FLIGHT

theorem Boot.carried (h : Boot e) : Carried e := by
  rintro - t c x hc
  rw [h.flushes] at hc
  cases hc

theorem Carried.step (hC : Custody e) (hI : Carried e) (h : e.step scheme l = some e') :
    Carried e' := by
  intro hrecovering t c x hc hx r hr hid
  have hca : c.active = true := Cycle.active_of_marked hx
  -- a step beside this cycle leaves its row alone
  have beside (hc₀ : e.flushes t = some c) (hl : ∀ ev, l ≠ .cycle t ev)
      (hnot : l ≠ .recover) (hsame : e.recovering = true) : r.status = .IN_FLIGHT := by
    have hissued : r.id ∈ e.world.issued :=
      hid ▸ (hC.owned t c hc₀).issued x (Hand.marked_mem_items hx)
    rcases rows_of_other hC.one hc₀ hca hl h hr hissued with hr | ⟨hrecover, -⟩
    · exact hI hsame t c x hc₀ hx r hr hid
    · exact absurd hrecover hnot
  cases l with
  | enqueue items =>
    obtain ⟨store, -, -, rfl⟩ := Engine.step_enqueue h
    exact beside hc (by simp) (by simp) hrecovering
  | remove call | updateConfig config | setPaused paused =>
    cases h
    exact beside hc (by simp) (by simp) hrecovering
  | flush u recovered nowMs =>
    obtain ⟨-, h⟩ := Option.ite_none_right_eq_some.mp h
    cases h
    obtain ⟨config, -, heq | ⟨-, heq⟩⟩ := e.flush_cases u recovered nowMs
    · rw [heq] at hc hrecovering
      exact beside hc (by simp) (by simp) hrecovering
    · rw [heq] at hc hrecovering
      rcases flushes_setCycle hc with ⟨-, rfl⟩ | ⟨-, hc⟩
      · cases hx
      · exact beside hc (by simp) (by simp) hrecovering
  | cycle u ev =>
    obtain ⟨d, hd, h'⟩ := Option.bind_eq_some_iff.mp h
    obtain ⟨⟨w, d'⟩, hstep, rfl⟩ := Option.map_eq_some_iff.mp h'
    rcases flushes_setCycle hc with ⟨rfl, rfl⟩ | ⟨hu, hc⟩
    · exact Cycle.step_carried hstep (fun x hx r hr hid => hI hrecovering _ d x hd hx r hr hid)
        hx hr hid
    · exact beside hc (by rintro ev' ⟨⟩; exact hu rfl) (by simp) hrecovering
  | recover =>
    obtain ⟨-, h⟩ := Option.ite_none_right_eq_some.mp h
    cases h
    cases hrecovering
  | kill config paused =>
    cases h
    cases hc

/-- The step puts the row of this item back from in flight. -/
def PutsBack (e e' : Engine) (id : String) : Prop :=
  (∃ r ∈ e.world.store.rows, r.id = id ∧ r.status = .IN_FLIGHT) ∧
    ∃ r ∈ e'.world.store.rows, r.id = id ∧ r.status = .PENDING

/-- No row is put back whose request is out in this process. -/
def SparesLive (scheme : String → Option String) (e : Engine) (l : Label) : Prop :=
  ∀ e', e.step scheme l = some e' → ∀ t id, Wire.Awaits e t id → ¬PutsBack e e' id

/-- When launch recovery runs, the row of every request that is out is gone. -/
def RecoversApart (e : Engine) (l : Label) : Prop :=
  l = .recover → e.recovering = true → ∀ t id, Wire.Awaits e t id → id ∉ e.world.store.keys

/-- The row of a request that is out can only be put back by launch recovery. -/
theorem sparesLive_of_ne_recover (hC : Custody e) (hl : l ≠ .recover) : SparesLive scheme e l := by
  rintro e' h t id ⟨c, item, rest, sentWith, hc, hphase, rfl⟩ ⟨⟨r, hr, hid, hs⟩, r', hr', hid', hs'⟩
  have hca : c.active = true := by rw [Cycle.active, hphase]
  have hsame : r' ∈ e.world.store.rows := by
    by_cases hcycle : ∃ ev, l = .cycle t ev
    · obtain ⟨ev, rfl⟩ := hcycle
      obtain ⟨d, d', hin⟩ := step_cycle h
      obtain rfl : c = d := Option.some.inj (hc.symm.trans hin.before)
      obtain ⟨statusCode, error, rfl⟩ := Cycle.step_onWire hphase hin.step
      rwa [Cycle.step_answer hin.step] at hr'
    · have hissued : r'.id ∈ e.world.issued :=
        hid'.trans hid.symm ▸ hC.issued r.id (KeyedTable.key_mem_keys hr)
      rcases rows_of_other hC.one hc hca (fun ev heq => hcycle ⟨ev, heq⟩) h hr' hissued with
        hr' | ⟨hrecover, -⟩
      · exact hr'
      · exact absurd hrecover hl
  -- one row cannot have both statuses
  rw [KeyedTable.eq_of_key_eq hsame hr (hid'.trans hid.symm), hs] at hs'
  cases hs'

theorem sparesLive_iff (hC : Custody e) (hI : Carried e) :
    SparesLive scheme e l ↔ RecoversApart e l := by
  by_cases hl : l = .recover
  · subst hl
    constructor
    · rintro hspares - hrecovering t id hA hkey
      have hwaits := hA
      obtain ⟨c, item, rest, sentWith, hc, hphase, rfl⟩ := hA
      obtain ⟨r, hr, hid⟩ := KeyedTable.mem_keys.mp hkey
      have hs : r.status = .IN_FLIGHT :=
        hI hrecovering t c item hc (by rw [hphase]; rfl) r hr hid
      refine hspares _ (if_pos hrecovering) t item.id hwaits ⟨⟨r, hr, hid, hs⟩, ?_⟩
      exact ⟨_, SyncItemDao.mem_resetInFlightToPending.mpr ⟨r, hr, if_pos hs⟩, hid, rfl⟩
    · rintro hapart e' h t id hA ⟨⟨r, hr, hid, -⟩, -⟩
      obtain ⟨hrecovering, -⟩ := Option.ite_none_right_eq_some.mp h
      exact hapart rfl hrecovering t id hA (hid ▸ KeyedTable.key_mem_keys hr)
  · exact ⟨fun _ heq => absurd heq hl, fun _ => sparesLive_of_ne_recover hC hl⟩

/-- In every run of an install, whatever calls come in at the `await`s: no row
whose request is out in this process is put back from `IN_FLIGHT` to `PENDING`,
exactly when launch recovery finds no row of a request that is out. -/
theorem recovery_spares_live_iff {e₀ : Engine} (h : Boot e₀) (ls : List Label) :
    StepSystem.Meets (step scheme) (SparesLive scheme) e₀ ls ↔
      StepSystem.Meets (step scheme) RecoversApart e₀ ls :=
  StepSystem.meets_congr (I := fun e => Custody e ∧ Carried e) (D := fun _ _ => True)
    (fun hI _ hs => ⟨hI.1.step hs, hI.2.step hI.1 hs⟩) (fun hI => sparesLive_iff hI.1 hI.2)
    ⟨h.custody, h.carried⟩ (StepSystem.meets_of_forall fun _ _ => trivial)

section Sample

/-- A flush that does not wait for launch recovery. -/
theorem recovery_puts_back_live_request :
    ∃ e e', StepSystem.exec (step https) firstLaunch
        (fetchRun [SyncQueueStorage.sampleItem "A"] ++ sendRun) = some e ∧
      e.step https .recover = some e' ∧ Wire.Awaits e 0 "A" ∧ PutsBack e e' "A" :=
  ⟨_, _, rfl, rfl, ⟨_, _, _, _, rfl, rfl, rfl⟩, ⟨_, List.mem_cons_self, rfl, rfl⟩,
    ⟨_, List.mem_cons_self, rfl, rfl⟩⟩

/-- One that comes after it. -/
theorem recovery_spares_live_before_flush :
    StepSystem.Meets (step https) (SparesLive https) firstLaunch
      (.recover :: fetchRun [SyncQueueStorage.sampleItem "A"] ++ sendRun) := by
  refine (recovery_spares_live_iff firstLaunch_boot _).mpr ⟨?_, fun e _ => ?_⟩
  · rintro - - t id ⟨c, item, rest, sentWith, hc, -⟩
    cases hc
  · have hlater : ∀ l ∈ fetchRun [SyncQueueStorage.sampleItem "A"] ++ sendRun,
        l ≠ .recover := by decide
    exact (StepSystem.meets_of_forall hlater).mono fun _ _ hl heq => absurd heq hl

end Sample

end Engine

/-! ## 3. The end of a cycle -/

/-- The item whose outcome is being written. -/
def CyclePhase.settling : CyclePhase → Option StoredSyncItem
  | .removing item _ _ | .recording item _ _ => some item
  | _ => none

namespace Cycle

variable {scheme : String → Option String} {config : DispatcherConfig} {paused : Bool}
  {w w' : World} {c c' : Cycle} {ev : CycleEvent} {ids : List String}

/-- The ids the cycle moves to `IN_FLIGHT` in a step. -/
def moved (_ : World) (c : Cycle) (ev : CycleEvent) : List String :=
  match ev, c.phase with
  | .markInFlight _, .claiming item _ => [item.id]
  | _, _ => []

theorem moved_issued (hO : c.phase.hand.Owned w.issued) {id : String} (hid : id ∈ c.moved w ev) :
    id ∈ w.issued := by
  unfold moved at hid
  split at hid
  · rename_i item rest hphase
    rw [hphase] at hO
    rw [List.mem_singleton.mp hid]
    exact hO.issued item List.mem_cons_self
  · cases hid

/-- A cycle and the ids it has moved to `IN_FLIGHT` so far: of those, only the
one under dispatch may be in flight. -/
structure Tracks (w : World) (c : Cycle) (ids : List String) : Prop where
  fetching : ∀ limit, c.phase = .fetching limit → ids = []
  ahead : ∀ x ∈ c.phase.hand.ahead, x.id ∉ ids
  marked : ∀ x, c.phase.hand.marked = some x → x.id ∈ ids
  rows : c.active = true → ∀ r ∈ w.store.rows, r.id ∈ ids → r.status = .IN_FLIGHT →
    ∃ x, c.phase.hand.marked = some x ∧ x.id = r.id

theorem Tracks.rows_step (hT : Tracks w c ids)
    (h : c.step scheme config paused w ev = some (w', c')) (hc' : c'.active = true)
    {r : StoredSyncItem} (hr : r ∈ w'.store.rows) (hid : r.id ∈ ids)
    (hs : r.status = .IN_FLIGHT) : ∃ x, c'.phase.hand.marked = some x ∧ x.id = r.id := by
  rcases step_inFlight h hr hs with ⟨hr, hkeep⟩ | hmarked
  · obtain ⟨x, hx, hxid⟩ := hT.rows (step_active h hc').1 r hr hid hs
    rcases hkeep x hx hxid.symm with hx | hended
    · exact ⟨x, hx, hxid⟩
    · rw [hc'] at hended
      cases hended
  · exact hmarked

/-- A step that moves no row and fetches none. -/
theorem Tracks.move (hT : Tracks w c ids)
    (h : c.step scheme config paused w ev = some (w', c')) (hnone : c.moved w ev = [])
    (hphase : ∀ limit, c'.phase ≠ .fetching limit)
    (hahead : ∀ x ∈ c'.phase.hand.ahead, x ∈ c.phase.hand.ahead)
    (hmarked : ∀ x, c'.phase.hand.marked = some x → c.phase.hand.marked = some x) :
    Tracks w' c' (ids ++ c.moved w ev) := by
  rw [hnone, List.append_nil]
  exact ⟨fun limit hl => absurd hl (hphase limit), fun x hx => hT.ahead x (hahead x hx),
    fun x hx => hT.marked x (hmarked x hx), fun hc' r hr hid hs => hT.rows_step h hc' hr hid hs⟩

theorem Tracks.step (hT : Tracks w c ids) (hO : c.phase.hand.Owned w.issued)
    (h : c.step scheme config paused w ev = some (w', c')) :
    Tracks w' c' (ids ++ c.moved w ev) := by
  have hstep := h
  cases step_cases h with
  | @fetch limit nowMs pending hphase hpending hsome =>
    rw [hT.fetching _ hphase]
    exact ⟨by rintro _ ⟨⟩, fun _ _ => List.not_mem_nil, by rintro _ ⟨⟩,
      fun _ _ _ hid => absurd hid List.not_mem_nil⟩
  | @markInFlight item rest nowMs hphase =>
    have hmoved : c.moved w (.markInFlight nowMs) = [item.id] := by
      simp only [moved, hphase]
    have hahead := hT.ahead
    have hnodup := hO.nodup
    rw [hphase] at hahead hnodup
    rw [hmoved]
    refine ⟨by rintro _ ⟨⟩, fun x hx hid => ?_, ?_, fun hc' r hr hid hs => ?_⟩
    · rcases List.mem_append.mp hid with hid | hid
      · exact hahead x (List.mem_cons_of_mem _ hx) hid
      · -- the batch has no item twice
        exact (List.nodup_cons.mp hnodup).1
          (List.mem_map.mpr ⟨x, hx, List.mem_singleton.mp hid⟩)
    · rintro x ⟨⟩
      exact List.mem_append_right _ (List.mem_singleton.mpr rfl)
    · rcases List.mem_append.mp hid with hid | hid
      · exact hT.rows_step hstep hc' hr hid hs
      · exact ⟨item, rfl, (List.mem_singleton.mp hid).symm⟩
  | @record item rest record nowMs hphase =>
    rcases phase_writeFailure w c item rest record nowMs with hphase' | hphase'
    · refine hT.move hstep rfl ?_ ?_ ?_ <;> rw [hphase']
      · rintro _ ⟨⟩
      · rw [hphase]
        exact fun _ hx => hx
      · rintro _ ⟨⟩
    · refine hT.move hstep rfl ?_ ?_ ?_ <;> rw [hphase']
      · rintro _ ⟨⟩
      · rintro _ ⟨⟩
      · rintro _ ⟨⟩
  | fetchNone hphase | leave hphase | take hphase | prepare hphase | rejectUrl hphase | send hphase
  | sendFails hphase | answer hphase | succeed hphase | failItem hphase | remove hphase
  | summarize hphase | finish hphase =>
    refine hT.move hstep rfl (by rintro _ ⟨⟩) ?_ ?_
    all_goals
      rw [hphase]
      simp [CyclePhase.hand, Hand.empty]
  | fail hstorage =>
    exact hT.move hstep rfl (by rintro _ ⟨⟩) (by rintro _ ⟨⟩) (by rintro _ ⟨⟩)

/-- The step that ends a cycle leaves the rows alone, and at that moment the
item under dispatch is the one whose outcome is being written. -/
theorem step_ends (h : c.step scheme config paused w ev = some (w', c')) (hc : c.active = true)
    (hc' : c'.active = false) :
    w'.store = w.store ∧ c.phase.hand.marked = c.phase.settling := by
  obtain ⟨hstore, -, -, -, ⟨nothingPending, hphase⟩ | ⟨hstorage, -⟩⟩ := step_ending h hc hc'
  · rw [hphase]
    exact ⟨hstore, rfl⟩
  · refine ⟨hstore, ?_⟩
    unfold inStorage at hstorage
    split at hstorage
    case h_6 => cases hstorage
    all_goals
      rename_i hphase
      rw [hphase]
      rfl

end Cycle

namespace Engine

/-- What a step shows of the cycle of flush call `t`. -/
def observed {α : Type*} (f : World → Cycle → CycleEvent → List α) (t : Nat) (e : Engine) :
    Label → List α
  | .cycle u ev =>
    if u = t then
      match e.flushes t with
      | some c => f e.world c ev
      | none => []
    else []
  | _ => []

section Observed

variable {α : Type*} {f : World → Cycle → CycleEvent → List α} {scheme : String → Option String}
  {e e' : Engine} {l : Label} {t : Nat}

theorem observed_of_other (hl : ∀ ev, l ≠ .cycle t ev) : observed f t e l = [] := by
  unfold observed
  split
  · rename_i u ev
    exact if_neg fun hu => hl ev (by rw [hu])
  · rfl

theorem observed_of_cycle {ev : CycleEvent} {c : Cycle} (hc : e.flushes t = some c) :
    observed f t e (.cycle t ev) = f e.world c ev := by
  simp only [observed, if_true, hc]

end Observed

variable {scheme : String → Option String} {e e' : Engine} {l : Label} {t : Nat}

/-- A cycle that another call's step starts has nothing in hand. -/
theorem hand_of_new {c : Cycle} (h : e.step scheme l = some e') (hl : ∀ ev, l ≠ .cycle t ev)
    (hnone : e.flushes t = none) (hc : e'.flushes t = some c) : c.phase.hand = .empty := by
  rcases step_kinds h with hA | ⟨u, recovered, nowMs, -, -, rfl⟩ | ⟨u, ev, d, d', rfl, hcycle⟩ |
    ⟨config, paused, rfl⟩
  · rw [hA.flushes, hnone] at hc
    cases hc
  · obtain ⟨config, -, heq | ⟨-, heq⟩⟩ := e.flush_cases u recovered nowMs <;> rw [heq] at hc
    · rw [show _ = none from hnone] at hc
      cases hc
    · rcases flushes_setCycle hc with ⟨-, rfl⟩ | ⟨-, hc⟩
      · rfl
      · rw [show _ = none from hnone] at hc
        cases hc
  · rcases flushes_setCycle (hcycle.flushes ▸ hc) with ⟨rfl, -⟩ | ⟨-, hc⟩
    · exact absurd rfl (hl ev)
    · rw [hnone] at hc
      cases hc
  · cases h
    cases hc

/-- The cycle of flush call `t`, if there is one yet, and the ids it has moved. -/
structure Tracked (t : Nat) (p : Engine × List String) : Prop where
  custody : Custody p.1
  issued : ∀ id ∈ p.2, id ∈ p.1.world.issued
  idle : p.1.flushes t = none → p.2 = []
  cycle : ∀ c, p.1.flushes t = some c → c.Tracks p.1.world p.2

theorem Tracked.step {p p' : Engine × List String} (hT : Tracked t p) (hl : l.isKill = false)
    (h : StepSystem.recorded (Engine.step scheme) (observed Cycle.moved t) p l = some p') :
    Tracked t p' := by
  obtain ⟨e, ids⟩ := p
  obtain ⟨e', ids'⟩ := p'
  obtain ⟨hstep, rfl⟩ := StepSystem.recorded_eq_some.mp h
  have hcustody : Custody e' := hT.custody.step hstep
  have hissued : e.world.issued ⊆ e'.world.issued := (outbox_step hstep).issued_mono
  by_cases hcycle : ∃ ev, l = .cycle t ev
  · obtain ⟨ev, rfl⟩ := hcycle
    obtain ⟨c, c', hin⟩ := step_cycle hstep
    have hself : e'.flushes t = some c' := by rw [hin.flushes, Function.update_self]
    have hmoved : observed Cycle.moved t e (.cycle t ev) = c.moved e.world ev :=
      observed_of_cycle hin.before
    have htracks : c'.Tracks e'.world (ids ++ c.moved e.world ev) :=
      (hT.cycle c hin.before).step (hT.custody.owned t c hin.before) hin.step
    show Tracked t (e', ids ++ observed Cycle.moved t e (.cycle t ev))
    rw [hmoved]
    refine ⟨hcustody, fun id hid => ?_, fun hnone => ?_, fun d hd => ?_⟩
    · rcases List.mem_append.mp hid with hid | hid
      · exact hissued (hT.issued id hid)
      · exact hissued (Cycle.moved_issued (hT.custody.owned t c hin.before) hid)
    · rw [hself] at hnone
      cases hnone
    · obtain rfl : c' = d := Option.some.inj (hself.symm.trans hd)
      exact htracks
  · have hother : ∀ ev, l ≠ .cycle t ev := fun ev heq => hcycle ⟨ev, heq⟩
    show Tracked t (e', ids ++ observed Cycle.moved t e l)
    rw [observed_of_other hother, List.append_nil]
    have hids : ∀ id ∈ ids, id ∈ e'.world.issued := fun id hid => hissued (hT.issued id hid)
    cases hc : e.flushes t with
    | none =>
      have hnone : ids = [] := hT.idle hc
      subst hnone
      refine ⟨hcustody, hids, fun _ => rfl, fun d hd => ?_⟩
      refine ⟨fun _ _ => rfl, fun _ _ => List.not_mem_nil, fun x hx => ?_,
        fun _ _ _ hid => absurd hid List.not_mem_nil⟩
      rw [hand_of_new hstep hother hc hd] at hx
      cases hx
    | some c =>
      have hkeep : e'.flushes t = some c := flushes_of_other hstep hother hl hc
      have htracks : c.Tracks e.world ids := hT.cycle c hc
      refine ⟨hcustody, hids, fun hnone => ?_, fun d hd => ?_⟩
      · rw [hkeep] at hnone
        cases hnone
      · obtain rfl : c = d := Option.some.inj (hkeep.symm.trans hd)
        refine ⟨htracks.fetching, htracks.ahead, htracks.marked, fun hca r hr hid hs => ?_⟩
        rcases rows_of_other hT.custody.one hc hca hother hstep hr (hT.issued _ hid) with
          hr | ⟨-, -, r₀, -, -, rfl⟩
        · exact htracks.rows hca r hr hid hs
        · cases hs

/-- In every run of an install, whatever calls come in at the `await`s and
whichever storage operations throw: when the cycle of a flush call ends, none of
the rows it has moved to `IN_FLIGHT` is still so, exactly when it does not end in
the write of an outcome whose row is still in flight. -/
theorem nothing_stranded_iff {e₁ e₂ e₃ : Engine} {ls : List Label} {ids : List String}
    {ev : CycleEvent} {c₂ c₃ : Cycle} (h : Reachable scheme e₁) (hfree : e₁.flushes t = none)
    (hkill : ∀ l ∈ ls, l.isKill = false)
    (hrun : StepSystem.exec (StepSystem.recorded (step scheme) (observed Cycle.moved t)) (e₁, [])
      ls = some (e₂, ids))
    (hend : e₂.step scheme (.cycle t ev) = some e₃) (hc₂ : e₂.flushes t = some c₂)
    (hactive : c₂.active = true) (hc₃ : e₃.flushes t = some c₃) (hended : c₃.active = false) :
    (∀ r ∈ e₃.world.store.rows, r.id ∈ ids → r.status ≠ .IN_FLIGHT) ↔
      ∀ x, c₂.phase.settling = some x → ∀ r ∈ e₂.world.store.rows, r.id = x.id →
        r.status ≠ .IN_FLIGHT := by
  have hstart : Tracked t (e₁, []) :=
    ⟨h.invariant (fun h0 => Boot.custody h0) Custody.step, by simp, fun _ => rfl, fun c hc => by
      rw [hfree] at hc
      cases hc⟩
  have htracked : Tracked t (e₂, ids) :=
    StepSystem.exec_invariant_of_meets (fun hT hl hs => hT.step hl hs) hstart
      (StepSystem.meets_of_forall hkill) hrun
  have htracks : c₂.Tracks e₂.world ids := htracked.cycle c₂ hc₂
  obtain ⟨c, c', hin⟩ := step_cycle hend
  obtain rfl : c₂ = c := Option.some.inj (hc₂.symm.trans hin.before)
  obtain rfl : c₃ = c' := by
    rw [hin.flushes, Function.update_self] at hc₃
    exact (Option.some.inj hc₃).symm
  obtain ⟨hstore, hsettling⟩ := Cycle.step_ends hin.step hactive hended
  rw [hstore, ← hsettling]
  constructor
  · intro hnone x hx r hr hid
    exact hnone r hr (hid ▸ htracks.marked x hx)
  · intro hwrite r hr hid hs
    obtain ⟨x, hx, hxid⟩ := htracks.rows hactive r hr hid hs
    exact hwrite x hx r hr hxid.symm hs

section Sample

/-- A cycle with one item, up to the write of its outcome. -/
def outcomeRun (statusCode : Int) : List Label :=
  fetchRun [SyncQueueStorage.sampleItem "A"] ++ sendRun ++
    [.cycle 0 (.answer (some statusCode) none), .cycle 0 (.settle 0)]

/-- The item is delivered, and the store throws when its row is to be removed. -/
theorem delivered_row_stays_in_flight :
    ∃ e₂ e₃ c₃, StepSystem.exec (StepSystem.recorded (step https) (observed Cycle.moved 0))
        (firstLaunch, []) (outcomeRun 200) = some (e₂, ["A"]) ∧
      e₂.step https (.cycle 0 (.fail .NATIVE_MODULE_UNAVAILABLE)) = some e₃ ∧
      e₃.flushes 0 = some c₃ ∧ c₃.active = false ∧
      ∃ r ∈ e₃.world.store.rows, r.id = "A" ∧ r.status = .IN_FLIGHT :=
  ⟨_, _, _, rfl, rfl, rfl, rfl, _, List.mem_cons_self, rfl, rfl⟩

/-- The same cycle when nothing throws. -/
theorem nothing_stranded_when_removed :
    ∃ e₂ e₃, StepSystem.exec (StepSystem.recorded (step https) (observed Cycle.moved 0))
        (firstLaunch, []) (outcomeRun 200 ++ [.cycle 0 (.write 2100), .cycle 0 .next]) =
          some (e₂, ["A"]) ∧
      e₂.step https (.cycle 0 (.summarize 2200)) = some e₃ ∧
      ∀ r ∈ e₃.world.store.rows, r.id ∈ ["A"] → r.status ≠ .IN_FLIGHT := by
  obtain ⟨e₂, e₃, c₂, c₃, hrun, hend, hc₂, hactive, hphase, hc₃, hended⟩ : ∃ e₂ e₃ c₂ c₃,
      StepSystem.exec (StepSystem.recorded (step https) (observed Cycle.moved 0))
        (firstLaunch, []) (outcomeRun 200 ++ [.cycle 0 (.write 2100), .cycle 0 .next]) =
          some (e₂, ["A"]) ∧
      e₂.step https (.cycle 0 (.summarize 2200)) = some e₃ ∧ e₂.flushes 0 = some c₂ ∧
      c₂.active = true ∧ c₂.phase = .summarizing false ∧ e₃.flushes 0 = some c₃ ∧
      c₃.active = false :=
    ⟨_, _, _, _, rfl, rfl, rfl, rfl, rfl, rfl, rfl⟩
  refine ⟨e₂, e₃, hrun, hend, ?_⟩
  refine (nothing_stranded_iff ⟨firstLaunch, [], firstLaunch_boot, rfl⟩ rfl (by decide) hrun hend
    hc₂ hactive hc₃ hended).mpr ?_
  rw [hphase]
  rintro _ ⟨⟩

end Sample

end Engine

end SyncProvider.Ios
