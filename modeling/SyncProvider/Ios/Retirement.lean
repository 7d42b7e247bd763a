import SyncProvider.Ios.Departures
import SyncProvider.Ios.Tally

/-!
# iOS: a failed item is left alone

A row that is marked `FAILED` is out of every later batch: a fetch takes `PENDING` rows only,
launch recovery takes `IN_FLIGHT` ones, and the cycle that marked it goes on without it. The
writes of a cycle look at the id of a row and not at its status, so this rests on what the
cycles have in hand.

Results:
1. `Cycle.step_live` : what a cycle has in hand has not failed.
2. `failed_is_final` : what becomes of a failed row in a run.
-/

namespace SyncProvider.Ios

open StepSystem (exec exec_past_invariant)
open SyncItemDao (SameBut)

/-! ## 1. What a cycle has in hand -/

namespace Cycle

variable {scheme : String → Option String} {config : DispatcherConfig} {paused : Bool}
  {w w' : World} {c c' : Cycle} {ev : CycleEvent}

/-- Whoever has an item in hand is active. -/
theorem active_of_items {x : StoredSyncItem} (hx : x ∈ c.phase.hand.items) : c.active = true := by
  cases hc : c.active with
  | true => rfl
  | false =>
    rw [CyclePhase.hand_of_ended hc] at hx
    cases hx

/-- A row that a failed dispatch leaves failed is the one of its item. -/
theorem failed_of_writeFailure {item : StoredSyncItem} {rest : List StoredSyncItem}
    {record : FailureRecord} {nowMs : Int} {r : StoredSyncItem}
    (hr : r ∈ (writeFailure w c item rest record nowMs).1.store.rows) (hs : r.status = .FAILED) :
    r ∈ w.store.rows ∨ r.id = item.id := by
  unfold writeFailure at hr
  split at hr
  · rcases SyncItemDao.markFailed_cases hr with ⟨hr, -⟩ | ⟨r₀, -, hid, rfl⟩
    · exact .inl hr
    · exact .inr hid
  · rcases SyncItemDao.markPendingForRetry_cases hr with ⟨hr, -⟩ | ⟨r₀, -, -, rfl⟩
    · exact .inl hr
    · cases hs
  · rcases SyncItemDao.markCredentialRejected_cases hr with ⟨hr, -⟩ | ⟨r₀, -, -, rfl⟩
    · exact .inl hr
    · cases hs

/-- What is in hand after a failed dispatch is what was to come. -/
theorem items_writeFailure {item x : StoredSyncItem} {rest : List StoredSyncItem}
    {record : FailureRecord} {nowMs : Int}
    (hx : x ∈ (writeFailure w c item rest record nowMs).2.phase.hand.items) : x ∈ rest := by
  rcases phase_writeFailure w c item rest record nowMs with hphase | hphase
  · rw [hphase] at hx
    exact hx
  · rw [hphase] at hx
    cases hx

/-- A cycle that has no failed row in hand has none in hand after a step. -/
theorem step_live (hO : c.phase.hand.Owned w.issued)
    (hL : ∀ x ∈ c.phase.hand.items, ∀ r ∈ w.store.rows, r.id = x.id → r.status ≠ .FAILED)
    (h : c.step scheme config paused w ev = some (w', c')) {x r : StoredSyncItem}
    (hx : x ∈ c'.phase.hand.items) (hr : r ∈ w'.store.rows) (hid : r.id = x.id) :
    r.status ≠ .FAILED := by
  cases step_cases h with
  | @fetch limit nowMs pending hphase hpending hsome =>
    have hx : x ∈ SyncItemDao.fetchPending nowMs limit w.store := hpending ▸ hx
    obtain ⟨hrow, hs, -⟩ := SyncItemDao.fetchPending_subset hx
    obtain rfl : r = x := KeyedTable.eq_of_key_eq hr hrow hid
    rw [hs]
    exact ItemStatus.noConfusion
  | @markInFlight item rest nowMs hphase =>
    rw [hphase] at hL
    obtain ⟨r₀, hr₀, rfl⟩ := SyncItemDao.mem_markInFlight.mp hr
    split at hid
    · rename_i heq
      rw [if_pos heq]
      exact ItemStatus.noConfusion
    · rename_i hne
      rw [if_neg hne]
      exact hL x hx r₀ hr₀ hid
  | @remove item rest statusCode nowMs hphase =>
    rw [hphase] at hL
    exact hL x (List.mem_cons_of_mem _ hx) r (KeyedTable.mem_deleteWhere.mp hr).1 hid
  | @record item rest record nowMs hphase =>
    rw [hphase] at hL hO
    have hx : x ∈ rest := items_writeFailure hx
    intro hs
    rcases failed_of_writeFailure hr hs with hr | hitem
    · exact hL x (List.mem_cons_of_mem _ hx) r hr hid hs
    · -- the items in hand are distinct
      have hnodup : (item.id :: rest.map (·.id)).Nodup := hO.nodup
      refine (List.nodup_cons.mp hnodup).1 ?_
      rw [← hitem, hid]
      exact List.mem_map_of_mem hx
  | take hphase | prepare hphase | rejectUrl hphase | send hphase | sendFails hphase
  | answer hphase | succeed hphase | failItem hphase =>
    rw [hphase] at hL
    exact hL x hx r hr hid
  | fetchNone | leave | summarize | fail | finish => cases hx

/-- A row that is not in hand stays as it is. -/
theorem step_stays (h : c.step scheme config paused w ev = some (w', c')) {r : StoredSyncItem}
    (hr : r ∈ w.store.rows) (hhand : ∀ x ∈ c.phase.hand.items, x.id ≠ r.id) :
    r ∈ w'.store.rows := by
  cases step_cases h with
  | @markInFlight item rest nowMs hphase =>
    rw [hphase] at hhand
    exact (SyncItemDao.sameBut_markInFlight item.id nowMs w.store r
      (hhand item List.mem_cons_self).symm).mpr hr
  | @remove item rest statusCode nowMs hphase =>
    rw [hphase] at hhand
    exact (SyncItemDao.sameBut_delete item.id w.store r
      (hhand item List.mem_cons_self).symm).mpr hr
  | @record item rest record nowMs hphase =>
    rw [hphase] at hhand
    have hne : r.id ≠ item.id := (hhand item List.mem_cons_self).symm
    unfold writeFailure
    cases record.write with
    | markFailed code => exact (SyncItemDao.sameBut_markFailed _ _ _ r hne).mpr hr
    | markPendingForRetry code delayMs =>
      exact (SyncItemDao.sameBut_markPendingForRetry _ _ _ _ _ r hne).mpr hr
    | markCredentialRejected code delayMs attempts =>
      exact (SyncItemDao.sameBut_markCredentialRejected _ _ _ _ _ _ r hne).mpr hr
  | fetchNone | fetch | leave | take | prepare | rejectUrl | send | sendFails | answer | succeed
  | failItem | summarize | fail | finish => exact hr

end Cycle

/-! ## 2. What a run does to a failed row -/

namespace Engine

variable {scheme : String → Option String} {e e' e₀ : Engine} {l : Label} {past : List Label}
  {r : StoredSyncItem}

/-- Nothing in hand has a failed row. -/
def HandsLive (e : Engine) : Prop := ∀ t c, e.flushes t = some c → ∀ x ∈ c.phase.hand.items,
  ∀ r ∈ e.world.store.rows, r.id = x.id → r.status ≠ .FAILED

theorem Boot.handsLive (h : Boot e) : HandsLive e := by
  intro t c hc
  rw [h.flushes] at hc
  cases hc

theorem HandsLive.step (hC : Custody e) (hH : HandsLive e) (h : e.step scheme l = some e') :
    HandsLive e' := by
  intro t c hc x hx r hr hid
  by_cases hl : ∃ ev, l = .cycle t ev
  · obtain ⟨ev, rfl⟩ := hl
    obtain ⟨d, d', hcycle⟩ := step_cycle h
    rcases flushes_setCycle (hcycle.flushes ▸ hc) with ⟨-, rfl⟩ | ⟨hne, -⟩
    · exact Cycle.step_live (hC.owned t d hcycle.before) (hH t d hcycle.before) hcycle.step hx hr
        hid
    · exact absurd rfl hne
  · have hc₀ : e.flushes t = some c := by
      rcases step_flush_origin h hc with hc | hempty | ⟨ev, d, heq, -⟩
      · exact hc
      · rw [hempty] at hx
        cases hx
      · exact absurd ⟨ev, heq⟩ hl
    have hissued : r.id ∈ e.world.issued := hid ▸ (hC.owned t c hc₀).issued x hx
    rcases rows_of_other hC.one hc₀ (Cycle.active_of_items hx) (fun ev heq => hl ⟨ev, heq⟩) h hr
        hissued with hr | ⟨-, -, r₀, -, -, rfl⟩
    · exact hH t c hc₀ x hx r hr hid
    · exact ItemStatus.noConfusion

/-- The call takes the item out. -/
def TakesOut (id : String) (call : SyncQueueStorage.RemoveCall) : Prop :=
  call = .remove id ∨ call = .clear

/-- A failed row that no cycle has in hand. It is in the store as it was, unless a call has taken
it out. -/
structure Retired (r : StoredSyncItem) (past : List Label) (e : Engine) : Prop where
  issued : r.id ∈ e.world.issued
  row : r ∈ e.world.store.rows ∨
    r.id ∉ e.world.store.keys ∧ ∃ call, TakesOut r.id call ∧ Label.remove call ∈ past
  untouched : ∀ t c, e.flushes t = some c → ∀ x ∈ c.phase.hand.items, x.id ≠ r.id

/-- A step leaves a failed row as it is, unless it is a call that takes it out. -/
theorem step_retired (hs : r.status = .FAILED)
    (huntouched : ∀ t c, e.flushes t = some c → ∀ x ∈ c.phase.hand.items, x.id ≠ r.id)
    (h : e.step scheme l = some e') (hr : r ∈ e.world.store.rows) :
    r ∈ e'.world.store.rows ∨
      r.id ∉ e'.world.store.keys ∧ ∃ call, TakesOut r.id call ∧ l = .remove call := by
  cases l with
  | enqueue items =>
    obtain ⟨store, -, hrows, rfl⟩ := Engine.step_enqueue h
    refine .inl (?_ : r ∈ store.rows)
    rw [hrows]
    exact List.mem_append_left _ hr
  | remove call =>
    cases h
    cases call with
    | remove x =>
      by_cases heq : r.id = x
      · exact .inr ⟨fun hid => (SyncItemDao.mem_delete.mp hid).2 heq, _, .inl (heq ▸ rfl), rfl⟩
      · exact .inl ((SyncItemDao.sameBut_delete x e.world.store r heq).mpr hr)
    | clear => exact .inr ⟨fun hid => (by cases hid), _, .inr rfl, rfl⟩
  | updateConfig config | setPaused paused | kill config paused =>
    cases h
    exact .inl hr
  | flush t recovered nowMs =>
    obtain ⟨-, h⟩ := Option.ite_none_right_eq_some.mp h
    cases h
    left
    obtain ⟨config, -, heq | ⟨-, heq⟩⟩ := e.flush_cases t recovered nowMs
    all_goals
      rw [heq]
      exact hr
  | cycle t ev =>
    obtain ⟨c, c', hcycle⟩ := step_cycle h
    exact .inl (Cycle.step_stays hcycle.step hr (huntouched t c hcycle.before))
  | recover =>
    obtain ⟨-, h⟩ := Option.ite_none_right_eq_some.mp h
    cases h
    refine .inl (SyncItemDao.mem_resetInFlightToPending.mpr ⟨r, hr, if_neg ?_⟩)
    rw [hs]
    exact ItemStatus.noConfusion

theorem Retired.step (hs : r.status = .FAILED) (hR : Retired r past e)
    (h : e.step scheme l = some e') : Retired r (past ++ [l]) e' where
  issued := (outbox_step h).issued_mono hR.issued
  row := by
    rcases hR.row with hr | ⟨hgone, call, htakes, hcall⟩
    · refine (step_retired hs hR.untouched h hr).imp_right ?_
      rintro ⟨hgone, call, htakes, rfl⟩
      exact ⟨hgone, call, htakes, List.mem_append_right _ (List.mem_singleton_self _)⟩
    · refine .inr ⟨fun hid => ?_, call, htakes, List.mem_append_left _ hcall⟩
      rcases (outbox_step h).stored_new hid with hid | ⟨-, hnew⟩
      · exact hgone hid
      · exact hnew hR.issued
  untouched t c hc x hx hid := by
    rcases step_flush_origin h hc with hc | hempty | ⟨ev, d, rfl, hcycle⟩
    · exact hR.untouched t c hc x hx hid
    · rw [hempty] at hx
      cases hx
    · rcases Cycle.step_hand hcycle.step with hsub | ⟨nowMs, limit, hfetch⟩
      · exact hR.untouched t d hcycle.before x (hsub.subset hx) hid
      · -- a fetch takes pending rows only
        rw [hfetch] at hx
        obtain ⟨hrow, hpending, -⟩ := SyncItemDao.fetchPending_subset hx
        rcases hR.row with hr | ⟨hgone, -⟩
        · obtain rfl : x = r := KeyedTable.eq_of_key_eq hrow hr hid
          rw [hs] at hpending
          cases hpending
        · exact hgone (hid ▸ KeyedTable.key_mem_keys hrow)

/-- No request of the step is for a retired item. -/
theorem Retired.requested_eq (hR : Retired r past e) (h : e.step scheme l = some e') :
    e'.requested r.id = e.requested r.id := by
  have hnone : ((e.uploads l).map (·.itemId)).count r.id = 0 := by
    refine List.count_eq_zero.mpr fun hmem => ?_
    obtain ⟨u, hu, hid⟩ := List.mem_map.mp hmem
    obtain ⟨t, c, item, before, rest, sentWith, request, hc, hphase, rfl⟩ := mem_uploads hu
    refine hR.untouched t c hc item ?_ hid
    rw [hphase]
    exact List.mem_cons_self
  rw [requested, requested, step_requests h, List.map_append, List.count_append, List.map_map]
  exact Nat.add_eq_left.mpr hnone

/-- In every run from a reachable state, through pauses, configurations, kills and recoveries: a
row that has failed stays exactly as it is until a call takes it out, and no request for it is
started any more. -/
theorem failed_is_final {ls : List Label} (hreach : Reachable scheme e)
    (hr : r ∈ e.world.store.rows) (hs : r.status = .FAILED)
    (hrun : exec (Engine.step scheme) e ls = some e') :
    (r ∈ e'.world.store.rows ∨
      r.id ∉ e'.world.store.keys ∧ ∃ call, TakesOut r.id call ∧ Label.remove call ∈ ls) ∧
      e'.requested r.id = e.requested r.id := by
  have hinv : Custody e ∧ HandsLive e :=
    hreach.invariant (I := fun m => Custody m ∧ HandsLive m)
      (fun h0 => ⟨h0.custody, h0.handsLive⟩) fun hI h => ⟨hI.1.step h, hI.2.step hI.1 h⟩
  have hstart : Retired r [] e :=
    ⟨hinv.1.issued _ (KeyedTable.key_mem_keys hr), .inl hr,
      fun t c hc x hx hid => hinv.2 t c hc x hx r hr hid.symm hs⟩
  have hend : Retired r ls e' ∧ e'.requested r.id = e.requested r.id :=
    exec_past_invariant
      (P := fun past m => Retired r past m ∧ m.requested r.id = e.requested r.id) ⟨hstart, rfl⟩
      (fun _ ⟨hR, hcount⟩ h => ⟨hR.step hs h, (hR.requested_eq h).trans hcount⟩) hrun
  exact ⟨hend.1.row, hend.2⟩

section Sample

/-- The server refuses the item for good, and the next flush looks for work. -/
def refusedRun : List Label :=
  fetchRun [SyncQueueStorage.sampleItem "A"] ++ sendRun ++ answerRun 400

theorem failed_is_final_when_refused :
    ∃ e r, exec (Engine.step https) firstLaunch refusedRun = some e ∧
      e.world.store.rows = [r] ∧ r.status = .FAILED ∧
      ∀ ls e', exec (Engine.step https) e ls = some e' →
        (r ∈ e'.world.store.rows ∨
          r.id ∉ e'.world.store.keys ∧ ∃ call, TakesOut r.id call ∧ Label.remove call ∈ ls) ∧
          e'.requested r.id = e.requested r.id := by
  obtain ⟨e, r, he, hrow, hs⟩ : ∃ e r, exec (Engine.step https) firstLaunch refusedRun = some e ∧
      e.world.store.rows = [r] ∧ r.status = .FAILED := ⟨_, _, rfl, rfl, rfl⟩
  have hreach : Reachable https e := ⟨firstLaunch, refusedRun, firstLaunch_boot, he⟩
  refine ⟨e, r, he, hrow, hs, fun ls e' hrun => ?_⟩
  exact failed_is_final hreach (hrow ▸ List.mem_singleton_self r) hs hrun

end Sample

end Engine

end SyncProvider.Ios
