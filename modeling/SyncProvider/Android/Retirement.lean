import SyncProvider.Android.Departures

/-!
# Android: a failed item is left alone

A row that is marked `FAILED` is out of every later batch: a claim takes `PENDING` rows only
and a reset takes `IN_FLIGHT` ones. The write of a dispatch looks at the id of a row and not at
its status, so this rests on what the cycle has in hand and has not written yet.

Results:
1. `Cycle.step_untouched` : a cycle takes up no failed row.
2. `failed_stays_failed` : what becomes of a failed row in a run.
-/

namespace SyncProvider.Android

open StepSystem (exec exec_past_invariant)

/-! ## 1. What a cycle takes up -/

/-- No row with this id waits or is in flight. -/
def Shut (id : String) (t : SyncItems) : Prop := ∀ x ∈ t.rows, x.id = id → x.status = .FAILED

/-- A row that a claim leaves failed is left as it was. -/
theorem SyncItemDao.failed_of_claimPending {now limit : Int} {t : SyncItems} {r : SyncItemEntity}
    (hr : r ∈ (claimPending now limit t).1.rows) (hs : r.status = .FAILED) : r ∈ t.rows := by
  have hfold {chunks : List (List String)} {t : SyncItems}
      (hr : r ∈ (chunks.foldl (fun t ids => markInFlight ids t) t).rows) : r ∈ t.rows := by
    induction chunks generalizing t with
    | nil => exact hr
    | cons ids chunks ih =>
      obtain ⟨r₀, hr₀, rfl⟩ := KeyedTable.mem_updateWhere.mp (ih hr)
      split at hs
      · cases hs
      · rename_i hin
        rwa [if_neg hin]
  exact hfold hr

theorem SyncItemDao.failed_of_resetInFlight {t : SyncItems} {r : SyncItemEntity}
    (hr : r ∈ (resetInFlight t).rows) (hs : r.status = .FAILED) : r ∈ t.rows := by
  obtain ⟨r₀, hr₀, rfl⟩ := KeyedTable.mem_updateWhere.mp hr
  split at hs
  · cases hs
  · rename_i hin
    rwa [if_neg hin]

theorem SyncItemDao.failed_stays_resetInFlight {t : SyncItems} {r : SyncItemEntity}
    (hr : r ∈ t.rows) (hs : r.status = .FAILED) : r ∈ (resetInFlight t).rows :=
  KeyedTable.mem_updateWhere.mpr ⟨r, hr, if_neg (by simp [hs])⟩

namespace Dispatch

variable {accepts : HttpRequest → Bool} {live options : SyncOptions}
  {credentials : CredentialPolicy} {w w' : World} {d d' : Dispatch} {ev : DispatchEvent}
  {r : SyncItemEntity}

theorem unwritten_of_step (h : d.step accepts live options credentials w ev = some (w', d'))
    (hu : d'.unwritten = true) : d.unwritten = true := by
  cases step_moves h with
  | start | refuse | unbuilt | send | respond | settle => rfl
  | emit | crash => cases hu

/-- A dispatch leaves the rows of other items alone, and its own once the outcome is written. -/
theorem step_stays (h : d.step accepts live options credentials w ev = some (w', d'))
    (hr : r ∈ w.table.rows) (hne : d.unwritten = true → d.entity.id ≠ r.id) :
    r ∈ w'.table.rows := by
  cases step_moves h with
  | refuse => exact StoreWrite.mem_run_of_ne hr (hne rfl).symm
  | settle =>
    refine StoreWrite.mem_run_of_ne hr ?_
    rw [settle_write_id]
    exact (hne rfl).symm
  | start | unbuilt | send | respond | emit | crash => exact hr

/-- A row fails by the outcome of its own dispatch. -/
theorem step_failed (h : d.step accepts live options credentials w ev = some (w', d'))
    (hr : r ∈ w'.table.rows) :
    r ∈ w.table.rows ∨ r.id = d.entity.id ∧ d'.unwritten = false := by
  cases step_moves h with
  | refuse =>
    rcases StoreWrite.run_cases hr with ⟨hr, -⟩ | ⟨r₀, -, -, hid, -⟩
    · exact .inl hr
    · exact .inr ⟨hid, rfl⟩
  | settle =>
    rcases StoreWrite.run_cases hr with ⟨hr, -⟩ | ⟨r₀, -, -, hid, -⟩
    · exact .inl hr
    · exact .inr ⟨hid.trans (settle_write_id ..), rfl⟩
  | start | unbuilt | send | respond | emit | crash => exact .inl hr

end Dispatch

namespace Cycle

variable {accepts : HttpRequest → Bool} {live : SyncOptions} {cancelled : Bool} {w w' : World}
  {c c' : Cycle} {ev : CycleEvent} {r : SyncItemEntity} {id : String}

/-- The cycle is to write nothing about this item. -/
def Untouched (c : Cycle) (id : String) : Prop :=
  ∀ d ∈ c.dispatches, d.unwritten = true → d.entity.id ≠ id

/-- A cycle takes up no item whose row has failed or is gone. -/
theorem step_untouched (h : c.step accepts live cancelled w ev = some (w', c'))
    (hU : c.Untouched id) (hT : Shut id w.table) : c'.Untouched id := by
  intro x hx hu hid
  rcases step_dispatches h hx with hx | ⟨-, hrow, hpending⟩ | ⟨i, dev, d, rfl, hi, hstep⟩
  · exact hU x hx hu hid
  · rw [hT _ hrow hid] at hpending
    cases hpending
  · refine hU d (List.mem_of_getElem? hi) (Dispatch.unwritten_of_step hstep hu) ?_
    rw [← (Dispatch.step_spec hstep).entity]
    exact hid

/-- A failed row that the cycle is not to write about stays as it is. -/
theorem step_stays (h : c.step accepts live cancelled w ev = some (w', c'))
    (hr : r ∈ w.table.rows) (hs : r.status = .FAILED) (hU : c.Untouched r.id) :
    r ∈ w'.table.rows := by
  obtain ⟨phase, rfl, hmoves⟩ := step_moves h
  cases hmoves with
  | claim hphase =>
    refine (SyncItemDao.mem_claimPending_iff_of_notMem fun hid => ?_).mpr hr
    obtain ⟨x, hx, hxid⟩ := List.mem_map.mp hid
    obtain ⟨hrow, hpending, -⟩ := SyncItemDao.selectClaimable_subset hx
    obtain rfl : x = r := KeyedTable.eq_of_key_eq hrow hr hxid
    rw [hs] at hpending
    cases hpending
  | @dispatch probing ds i dev d d' w' hphase hstart hi hstep =>
    refine Dispatch.step_stays hstep hr (hU d ?_)
    rw [dispatches_of_phase hphase]
    exact List.mem_of_getElem? hi
  | release hphase => exact SyncItemDao.failed_stays_resetInFlight hr hs
  | abort hphase | abortReported hphase =>
    split
    · exact SyncItemDao.failed_stays_resetInFlight hr hs
    · exact hr
  | emitStarted | resumeEmpty | resumeClaimed | probeRejected | probePassed | join | record
  | resumeRecorded | emitTerminal | resumeReported | throw | raise | emitFailed | finish =>
    exact hr

/-- A row that is failed after a step was so before, or the cycle has just written it and is done
with it. -/
theorem step_failed (hN : c.ids.Nodup) (h : c.step accepts live cancelled w ev = some (w', c'))
    (hr : r ∈ w'.table.rows) (hs : r.status = .FAILED) :
    r ∈ w.table.rows ∨ c'.Untouched r.id := by
  obtain ⟨phase, rfl, hmoves⟩ := step_moves h
  cases hmoves with
  | claim hphase => exact .inl (SyncItemDao.failed_of_claimPending hr hs)
  | @dispatch probing ds i dev d d' w' hphase hstart hi hstep =>
    rcases Dispatch.step_failed hstep hr with hr | ⟨hid, hwritten⟩
    · exact .inl hr
    · right
      intro x hx hu hxid
      have hx : x ∈ ds.set i d' := hx
      have hdistinct : (ds.map (·.entity.id)).Nodup := by
        simpa [ids, dispatches_of_phase hphase] using hN
      rcases mem_set_cases hdistinct hi hx with rfl | ⟨-, hne⟩
      · rw [hwritten] at hu
        cases hu
      · exact hne (hxid.trans hid)
  | release hphase => exact .inl (SyncItemDao.failed_of_resetInFlight hr hs)
  | abort hphase | abortReported hphase =>
    left
    split at hr
    · exact SyncItemDao.failed_of_resetInFlight hr hs
    · exact hr
  | emitStarted | resumeEmpty | resumeClaimed | probeRejected | probePassed | join | record
  | resumeRecorded | emitTerminal | resumeReported | throw | raise | emitFailed | finish =>
    exact .inl hr

end Cycle

/-! ## 2. What a run does to a failed row -/

namespace Engine

variable {accepts : HttpRequest → Bool} {e e' : Engine} {l : Label} {past : List Label}
  {r : SyncItemEntity} {id : String}

/-- No cycle is to write anything about this item. -/
def Untouched (e : Engine) (id : String) : Prop :=
  ∀ t c, (e.calls t).state = .cycle c → c.Untouched id

/-- Nothing is to be written about the item of a failed row. -/
def HandsLive (e : Engine) : Prop :=
  ∀ r ∈ e.world.table.rows, r.status = .FAILED → e.Untouched r.id

theorem step_untouched (h : e.step accepts l = some e') (hU : e.Untouched id)
    (hT : Shut id e.world.table) : e'.Untouched id := by
  intro t c hc
  rcases step_newCycle h hc with hc | ⟨now, -, -, hphase, -⟩ | ⟨ev, d, rfl, hd, hstep⟩
  · exact hU t c hc
  · intro x hx
    simp only [Cycle.dispatches, hphase] at hx
    cases hx
  · exact Cycle.step_untouched hstep (hU t d hd) hT

/-- The call takes the item out. -/
def TakesOut (id : String) (call : SyncQueueStorage.RemoveCall) : Prop :=
  call = .removeItem id ∨ call = .clear

/-- A step leaves a failed row as it is, unless it is a call that takes it out. -/
theorem step_retired (h : e.step accepts l = some e') (hr : r ∈ e.world.table.rows)
    (hs : r.status = .FAILED) (hU : e.Untouched r.id) :
    r ∈ e'.world.table.rows ∨
      r.id ∉ e'.world.table.keys ∧ ∃ call, TakesOut r.id call ∧ l = .remove call := by
  cases l with
  | enqueue items =>
    obtain ⟨table, -, hrows, rfl⟩ := Engine.step_enqueue h
    refine .inl (?_ : r ∈ table.rows)
    rw [hrows]
    exact List.mem_append_left _ hr
  | remove call =>
    cases h
    cases call with
    | removeItem x =>
      by_cases heq : r.id = x
      · exact .inr ⟨fun hid => (SyncItemDao.mem_deleteById.mp hid).2 heq, _, .inl (heq ▸ rfl), rfl⟩
      · exact .inl (KeyedTable.mem_deleteWhere.mpr ⟨hr, by simpa using heq⟩)
    | clear => exact .inr ⟨fun hid => (by cases hid), _, .inr rfl, rfl⟩
  | configure options credentials | setPaused paused | cancel t =>
    cases h
    exact .inl hr
  | giveUp t =>
    simp only [step, Option.ite_none_right_eq_some] at h
    obtain ⟨-, h⟩ := h
    split at h <;> cases h
    all_goals exact .inl hr
  | call t op | lock t | checkPaused t | readCredentials t | begin t now =>
    simp only [step] at h
    split at h <;> cases h
    exact .inl hr
  | reset t =>
    simp only [step] at h
    split at h <;> cases h
    exact .inl (SyncItemDao.failed_stays_resetInFlight hr hs)
  | cycle t ev =>
    obtain ⟨c, w, c', hc, hstep, rfl⟩ := step_cycle h
    exact .inl (Cycle.step_stays hstep hr hs (hU t c hc))
  | unlock t =>
    simp only [step] at h
    split at h
    · cases h
      exact .inl hr
    · split at h <;> cases h
      exact .inl hr
    · cases h

/-- A row that is failed after a step was so before, or nothing is left to be written about it. -/
theorem step_failed (hI : Inv e) (h : e.step accepts l = some e') (hr : r ∈ e'.world.table.rows)
    (hs : r.status = .FAILED) : r ∈ e.world.table.rows ∨ e'.Untouched r.id := by
  cases l with
  | enqueue items =>
    obtain ⟨table, -, hrows, rfl⟩ := Engine.step_enqueue h
    have hr : r ∈ table.rows := hr
    rw [hrows, List.mem_append] at hr
    refine .inl (hr.resolve_right fun hr => ?_)
    obtain ⟨item, -, rfl⟩ := List.mem_map.mp hr
    cases hs
  | remove call =>
    cases h
    left
    cases call with
    | removeItem x => exact (KeyedTable.mem_deleteWhere.mp hr).1
    | clear => cases hr
  | configure options credentials | setPaused paused | cancel t =>
    cases h
    exact .inl hr
  | giveUp t =>
    simp only [step, Option.ite_none_right_eq_some] at h
    obtain ⟨-, h⟩ := h
    split at h <;> cases h
    all_goals exact .inl hr
  | call t op | lock t | checkPaused t | readCredentials t | begin t now =>
    simp only [step] at h
    split at h <;> cases h
    exact .inl hr
  | reset t =>
    simp only [step] at h
    split at h <;> cases h
    exact .inl (SyncItemDao.failed_of_resetInFlight hr hs)
  | cycle t ev =>
    obtain ⟨c, w, c', hc, hstep, rfl⟩ := step_cycle h
    refine (Cycle.step_failed (hI.nodup_ids hc) hstep hr hs).imp_right fun hU u d hd => ?_
    rcases state_update hd with hd | ⟨-, hd⟩
    · -- one cycle holds the mutex
      obtain rfl : u = t := hI.eq_of_cycle hd hc
      simp only [setState, setCall, Function.update_self] at hd
      cases hd
      exact hU
    · cases hd
      exact hU
  | unlock t =>
    simp only [step] at h
    split at h
    · cases h
      exact .inl hr
    · split at h <;> cases h
      exact .inl hr
    · cases h

theorem shut_of_failed (hr : r ∈ e.world.table.rows) (hs : r.status = .FAILED) :
    Shut r.id e.world.table := by
  intro x hx hid
  obtain rfl : x = r := KeyedTable.eq_of_key_eq hx hr hid
  exact hs

theorem Boot.handsLive (h : Boot e) : HandsLive e := by
  intro r _ _ t c hc
  rw [h.calls] at hc
  cases hc

theorem HandsLive.step (hI : Inv e) (hH : HandsLive e) (h : e.step accepts l = some e') :
    HandsLive e' := by
  intro r hr hs
  rcases step_failed hI h hr hs with hr | hU
  · exact step_untouched h (hH r hr hs) (shut_of_failed hr hs)
  · exact hU

/-- A failed row that nothing is to be written about. It is in the table as it was, unless a call
has taken it out. -/
structure Retired (r : SyncItemEntity) (past : List Label) (e : Engine) : Prop where
  issued : r.id ∈ e.world.issued
  row : r ∈ e.world.table.rows ∨
    r.id ∉ e.world.table.keys ∧ ∃ call, TakesOut r.id call ∧ Label.remove call ∈ past
  untouched : e.Untouched r.id

theorem Retired.shut (hs : r.status = .FAILED) (hR : Retired r past e) :
    Shut r.id e.world.table := by
  rcases hR.row with hr | ⟨hgone, -⟩
  · exact shut_of_failed hr hs
  · intro x hx hid
    exact absurd (hid ▸ KeyedTable.key_mem_keys hx) hgone

theorem Retired.step (hs : r.status = .FAILED) (hR : Retired r past e)
    (h : e.step accepts l = some e') : Retired r (past ++ [l]) e' where
  issued := (outbox_step h).issued_mono hR.issued
  row := by
    rcases hR.row with hr | ⟨hgone, call, htakes, hcall⟩
    · refine (step_retired h hr hs hR.untouched).imp_right ?_
      rintro ⟨hgone, call, htakes, rfl⟩
      exact ⟨hgone, call, htakes, List.mem_append_right _ (List.mem_singleton_self _)⟩
    · refine .inr ⟨fun hid => ?_, call, htakes, List.mem_append_left _ hcall⟩
      rcases (outbox_step h).stored_new hid with hid | ⟨-, hnew⟩
      · exact hgone hid
      · exact hnew hR.issued
  untouched := step_untouched h hR.untouched (hR.shut hs)

/-- No request of the step is for a retired item. -/
theorem Retired.requested_eq (hR : Retired r past e) (h : e.step accepts l = some e') :
    e'.requested r.id = e.requested r.id := by
  rcases step_requests h with hsame | ⟨t, c, d, request, hc, hd, hbuild, hmore⟩
  · rw [requested, requested, hsame]
  · obtain ⟨u, i, c', d', -, hc', hi, hid, hu, -⟩ := step_request h hmore
    have hne : d.entity.id ≠ r.id := by
      have hid : d.entity.id = d'.entity.id := hid
      rw [hid]
      exact hR.untouched u c' hc' d' (List.mem_of_getElem? hi) hu
    simp [requested, hmore, hne]

/-- In every run from a reachable state, through pauses, configurations, cancellations and resets:
a row that has failed stays exactly as it is until a call takes it out, and no request for it is
started any more. -/
theorem failed_stays_failed {ls : List Label} (hreach : Reachable accepts e)
    (hr : r ∈ e.world.table.rows) (hs : r.status = .FAILED)
    (hrun : exec (Engine.step accepts) e ls = some e') :
    (r ∈ e'.world.table.rows ∨
      r.id ∉ e'.world.table.keys ∧ ∃ call, TakesOut r.id call ∧ Label.remove call ∈ ls) ∧
      e'.requested r.id = e.requested r.id := by
  have hinv : Inv e ∧ HandsLive e :=
    hreach.invariant (I := fun m => Inv m ∧ HandsLive m) (fun h0 => ⟨h0.inv, h0.handsLive⟩)
      fun hI h => ⟨hI.1.step h, hI.2.step hI.1 h⟩
  have hstart : Retired r [] e :=
    ⟨hinv.1.keys_issued _ (KeyedTable.key_mem_keys hr), .inl hr, hinv.2 r hr hs⟩
  have hend : Retired r ls e' ∧ e'.requested r.id = e.requested r.id :=
    exec_past_invariant
      (P := fun past m => Retired r past m ∧ m.requested r.id = e.requested r.id) ⟨hstart, rfl⟩
      (fun _ ⟨hR, hcount⟩ h => ⟨hR.step hs h, (hR.requested_eq h).trans hcount⟩) hrun
  exact ⟨hend.1.row, hend.2⟩

section Sample

/-- The server refuses the item for good. -/
def refusedRun : List Label :=
  claimRun [SyncQueueStorage.sampleItem "A"] ++ dispatchRun 0 400

theorem failed_stays_failed_when_refused :
    ∃ e r, exec (Engine.step fun _ => true) (coldStart .TRUSTED) refusedRun = some e ∧
      e.world.table.rows = [r] ∧ r.status = .FAILED ∧
      ∀ ls e', exec (Engine.step fun _ => true) e ls = some e' →
        (r ∈ e'.world.table.rows ∨
          r.id ∉ e'.world.table.keys ∧ ∃ call, TakesOut r.id call ∧ Label.remove call ∈ ls) ∧
          e'.requested r.id = e.requested r.id := by
  obtain ⟨e, r, he, hrow, hs⟩ : ∃ e r,
      exec (Engine.step fun _ => true) (coldStart .TRUSTED) refusedRun = some e ∧
        e.world.table.rows = [r] ∧ r.status = .FAILED := ⟨_, _, rfl, rfl, rfl⟩
  have hreach : Reachable (fun _ => true) e :=
    ⟨coldStart .TRUSTED, refusedRun, coldStart_boot .TRUSTED, he⟩
  refine ⟨e, r, he, hrow, hs, fun ls e' hrun => ?_⟩
  exact failed_stays_failed hreach (hrow ▸ List.mem_singleton_self r) hs hrun

end Sample

end Engine

end SyncProvider.Android
