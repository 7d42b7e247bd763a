import SyncProvider.Ios.InFlight
import SyncProvider.Lib.Past

/-!
# iOS: what a request carries

A row is written once, by `enqueue`. Cycles, launch recovery and the next launches touch
its status, its attempts and its times, and a request is built from a snapshot of it.
So what goes out for an item is what was handed in for it, under a configuration that the
install had at some moment of the run.

Results:
1. `Engine.step_content` : where the content of a row comes from.
2. `uploads_what_was_enqueued` : what the requests of a run carry.
-/

namespace SyncProvider.Ios

open StepSystem (exec exec_past_invariant recorded recorded_eq_some Visits visits_last)
open SyncQueueStorage (NewItem)

/-! ## What is handed in, and what goes out -/

/-- The row as `enqueue` has written it. -/
def StoredSyncItem.asEnqueued (item : StoredSyncItem) : StoredSyncItem :=
  { item with
    attempts := 0
    lastAttemptAt := none
    nextRetryAt := 0
    lastErrorCode := none
    status := .PENDING }

@[simp] theorem StoredSyncItem.asEnqueued_id (item : StoredSyncItem) :
    item.asEnqueued.id = item.id := rfl

/-- The text behind `bodyData`. -/
def bodyData (item : StoredSyncItem) : String := item.body.getD ""

/-- A request with its body, which is in `httpBody` or in a file. -/
structure Upload where
  itemId : String
  request : URLRequest
  body : String
  deriving DecidableEq

/-- The rows a call adds. -/
def Label.rows : Label → List StoredSyncItem
  | .enqueue items => items.map NewItem.stored
  | _ => []

namespace Engine

/-- What the store had at the launch of `e`, and what the calls of `ls` have handed in. -/
def entered (e : Engine) (ls : List Label) : List StoredSyncItem :=
  e.world.store.rows.map StoredSyncItem.asEnqueued ++ ls.flatMap Label.rows

end Engine

/-- The request a step of the cycle starts. -/
def Cycle.uploads (c : Cycle) : CycleEvent → List Upload
  | .send =>
    match c.phase with
    | .prepared item _ _ _ request => [⟨item.id, request, bodyData item⟩]
    | _ => []
  | _ => []

def Engine.uploads (e : Engine) : Label → List Upload
  | .cycle t ev =>
    match e.flushes t with
    | some c => c.uploads ev
    | none => []
  | _ => []

/-! ## 1. The content of a row -/

section Content

variable {scheme : String → Option String} {config : DispatcherConfig} {paused : Bool}
  {w w' : World} {c c' : Cycle} {ev : CycleEvent}

/-- The outcome of a failed dispatch leaves the content of the rows alone. -/
theorem Cycle.content_writeFailure {item : StoredSyncItem} {rest : List StoredSyncItem}
    {record : FailureRecord} {nowMs : Int} {r : StoredSyncItem}
    (hr : r ∈ (writeFailure w c item rest record nowMs).1.store.rows) :
    ∃ r₀ ∈ w.store.rows, r₀.asEnqueued = r.asEnqueued := by
  unfold writeFailure at hr
  split at hr
  · rcases SyncItemDao.markFailed_cases hr with ⟨hr, -⟩ | ⟨r₀, hr₀, -, rfl⟩
    · exact ⟨r, hr, rfl⟩
    · exact ⟨r₀, hr₀, rfl⟩
  · rcases SyncItemDao.markPendingForRetry_cases hr with ⟨hr, -⟩ | ⟨r₀, hr₀, -, rfl⟩
    · exact ⟨r, hr, rfl⟩
    · exact ⟨r₀, hr₀, rfl⟩
  · rcases SyncItemDao.markCredentialRejected_cases hr with ⟨hr, -⟩ | ⟨r₀, hr₀, -, rfl⟩
    · exact ⟨r, hr, rfl⟩
    · exact ⟨r₀, hr₀, rfl⟩

/-- A cycle adds no row and changes the content of none. -/
theorem Cycle.step_content (h : c.step scheme config paused w ev = some (w', c'))
    {r : StoredSyncItem} (hr : r ∈ w'.store.rows) :
    ∃ r₀ ∈ w.store.rows, r₀.asEnqueued = r.asEnqueued := by
  cases step_cases h with
  | markInFlight hphase =>
    obtain ⟨r₀, hr₀, rfl⟩ := SyncItemDao.mem_markInFlight.mp hr
    refine ⟨r₀, hr₀, ?_⟩
    split <;> rfl
  | remove hphase => exact ⟨r, (KeyedTable.mem_deleteWhere.mp hr).1, rfl⟩
  | record hphase => exact content_writeFailure hr
  | fetchNone | fetch | leave | take | prepare | rejectUrl | send | sendFails | answer | succeed
  | failItem | summarize | fail | finish => exact ⟨r, hr, rfl⟩

/-- A prepared request is built from the snapshot it is prepared for. -/
theorem Cycle.step_prepared (h : c.step scheme config paused w ev = some (w', c'))
    {item : StoredSyncItem} {before : Option Int} {rest : List StoredSyncItem}
    {sentWith : DispatcherConfig} {request : URLRequest}
    (hphase' : c'.phase = .prepared item before rest sentWith request) :
    request = buildRequest config item := by
  cases step_cases h with
  | prepare hphase hurl =>
    cases hphase'
    rfl
  | record hphase =>
    rcases phase_writeFailure w c _ _ _ _ with hphase | hphase
    · rw [hphase] at hphase'
      cases hphase'
    · rw [hphase] at hphase'
      cases hphase'
  | fetchNone | fetch | leave | take | markInFlight | rejectUrl | send | sendFails | answer
  | succeed | failItem | remove | summarize | fail | finish => cases hphase'

/-- The log of the requests grows by the uploads. -/
theorem Cycle.step_requests (h : c.step scheme config paused w ev = some (w', c')) :
    w'.requests = w.requests ++ (c.uploads ev).map fun u => (u.itemId, u.request) := by
  cases step_cases h with
  | send hphase => simp only [uploads, hphase, List.map_cons, List.map_nil]
  | @record item rest record nowMs hphase =>
    exact (writeFailure_spec w c item rest record nowMs).2.2.1.trans (List.append_nil _).symm
  | fetchNone | fetch | leave | take | markInFlight | prepare | rejectUrl | sendFails | answer
  | succeed | failItem | remove | summarize | fail | finish => exact (List.append_nil _).symm

/-- What it sends is what it has prepared. -/
theorem Cycle.mem_uploads {u : Upload} (hu : u ∈ c.uploads ev) :
    ∃ item before rest sentWith request, c.phase = .prepared item before rest sentWith request ∧
      u = ⟨item.id, request, bodyData item⟩ := by
  unfold uploads at hu
  split at hu
  · split at hu
    · rename_i hphase
      exact ⟨_, _, _, _, _, hphase, List.mem_singleton.mp hu⟩
    · cases hu
  · cases hu

end Content

namespace Engine

variable {scheme : String → Option String} {e e' : Engine} {l : Label}

/-- A row has the content of an earlier row, or it is a new one. -/
theorem step_content (h : e.step scheme l = some e') {r : StoredSyncItem}
    (hr : r ∈ e'.world.store.rows) :
    (∃ r₀ ∈ e.world.store.rows, r₀.asEnqueued = r.asEnqueued) ∨ r.asEnqueued ∈ l.rows := by
  cases l with
  | enqueue items =>
    obtain ⟨store, -, hrows, rfl⟩ := Engine.step_enqueue h
    have hr : r ∈ store.rows := hr
    rw [hrows, List.mem_append] at hr
    refine hr.imp (fun hr => ⟨r, hr, rfl⟩) fun hr => ?_
    obtain ⟨item, hitem, rfl⟩ := List.mem_map.mp hr
    exact List.mem_map_of_mem hitem
  | remove call =>
    cases h
    left
    cases call with
    | remove x => exact ⟨r, (KeyedTable.mem_deleteWhere.mp hr).1, rfl⟩
    | clear => cases hr
  | updateConfig config | setPaused paused | kill config paused =>
    cases h
    exact .inl ⟨r, hr, rfl⟩
  | flush t recovered nowMs =>
    obtain ⟨-, h⟩ := Option.ite_none_right_eq_some.mp h
    cases h
    left
    obtain ⟨config, -, heq | ⟨-, heq⟩⟩ := e.flush_cases t recovered nowMs
    all_goals
      rw [heq] at hr
      exact ⟨r, hr, rfl⟩
  | cycle t ev =>
    obtain ⟨c, c', hcycle⟩ := step_cycle h
    exact .inl (Cycle.step_content hcycle.step hr)
  | recover =>
    obtain ⟨-, h⟩ := Option.ite_none_right_eq_some.mp h
    cases h
    left
    obtain ⟨r₀, hr₀, rfl⟩ := SyncItemDao.mem_resetInFlightToPending.mp hr
    refine ⟨r₀, hr₀, ?_⟩
    split <;> rfl

/-- Every item is issued once. -/
theorem step_issued (h : e.step scheme l = some e') (hN : e.world.issued.Nodup) :
    e'.world.issued = e.world.issued ++ l.rows.map (·.id) ∧ e'.world.issued.Nodup := by
  have hsame (hissued : e'.world.issued = e.world.issued) (hrows : l.rows = []) :
      e'.world.issued = e.world.issued ++ l.rows.map (·.id) ∧ e'.world.issued.Nodup := by
    rw [hissued, hrows, List.map_nil, List.append_nil]
    exact ⟨rfl, hN⟩
  cases l with
  | enqueue items =>
    simp only [step, Option.ite_none_right_eq_some, Option.map_eq_some_iff] at h
    obtain ⟨hnew, store, hins, rfl⟩ := h
    have hids : (items.map NewItem.stored).map (·.id) = items.map (·.id) := by
      rw [List.map_map]
      rfl
    have hkeys : (e.world.store.keys ++ items.map (·.id)).Nodup := by
      rw [← hids, ← KeyedTable.keys_insertAll hins]
      exact store.nodup
    refine ⟨congrArg (e.world.issued ++ ·) hids.symm, List.nodup_append.mpr ⟨hN, ?_, ?_⟩⟩
    · -- the store takes no id twice
      exact (List.nodup_append.mp hkeys).2.1
    · rintro id hid _ hnewid rfl
      obtain ⟨item, hitem, rfl⟩ := List.mem_map.mp hnewid
      have := List.all_eq_true.mp hnew item hitem
      simp [hid] at this
  | remove call | updateConfig config | setPaused paused | kill config paused =>
    cases h
    exact hsame rfl rfl
  | flush t recovered nowMs =>
    obtain ⟨-, h⟩ := Option.ite_none_right_eq_some.mp h
    cases h
    refine hsame ?_ rfl
    obtain ⟨config, -, heq | ⟨-, heq⟩⟩ := e.flush_cases t recovered nowMs <;> rw [heq]
    rfl
  | cycle t ev =>
    obtain ⟨c, c', hcycle⟩ := step_cycle h
    exact hsame (Cycle.step_spec hcycle.step).issued rfl
  | recover =>
    obtain ⟨-, h⟩ := Option.ite_none_right_eq_some.mp h
    cases h
    exact hsame rfl rfl

/-- What a cycle holds after a step it held before, or read from the store. -/
theorem step_items (h : e.step scheme l = some e') {t : Nat} {c : Cycle}
    (hc : e'.flushes t = some c) {x : StoredSyncItem} (hx : x ∈ c.phase.hand.items) :
    (∃ d, e.flushes t = some d ∧ x ∈ d.phase.hand.items) ∨ x ∈ e.world.store.rows := by
  rcases step_kinds h with hA | ⟨u, recovered, nowMs, -, -, rfl⟩ | ⟨u, ev, d, d', -, hcycle⟩ |
    ⟨config, paused, rfl⟩
  · exact .inl ⟨c, hA.flushes ▸ hc, hx⟩
  · obtain ⟨config, -, heq | ⟨-, heq⟩⟩ := e.flush_cases u recovered nowMs <;> rw [heq] at hc
    · exact .inl ⟨c, hc, hx⟩
    · rcases flushes_setCycle hc with ⟨-, rfl⟩ | ⟨-, hc⟩
      · exact absurd hx List.not_mem_nil
      · exact .inl ⟨c, hc, hx⟩
  · rcases flushes_setCycle (hcycle.flushes ▸ hc) with ⟨rfl, rfl⟩ | ⟨-, hc⟩
    · rcases Cycle.step_hand hcycle.step with hsub | ⟨nowMs, limit, hfetch⟩
      · exact .inl ⟨d, hcycle.before, hsub.subset hx⟩
      · rw [hfetch] at hx
        exact .inr (SyncItemDao.fetchPending_subset hx).1
    · exact .inl ⟨c, hc, hx⟩
  · cases h
    cases hc

/-- A request that is prepared after a step was prepared before, or a step of the cycle has built
it from the configuration of that moment. -/
theorem step_prepared (h : e.step scheme l = some e') {t : Nat} {c : Cycle}
    (hc : e'.flushes t = some c) {item : StoredSyncItem} {before : Option Int}
    {rest : List StoredSyncItem} {sentWith : DispatcherConfig} {request : URLRequest}
    (hphase : c.phase = .prepared item before rest sentWith request) :
    e.flushes t = some c ∨
      (∃ c₀, e.flushes t = some c₀) ∧ request = buildRequest e.config item := by
  rcases step_kinds h with hA | ⟨u, recovered, nowMs, -, -, rfl⟩ | ⟨u, ev, d, d', -, hcycle⟩ |
    ⟨config, paused, rfl⟩
  · exact .inl (hA.flushes ▸ hc)
  · obtain ⟨config, -, heq | ⟨-, heq⟩⟩ := e.flush_cases u recovered nowMs <;> rw [heq] at hc
    · exact .inl hc
    · rcases flushes_setCycle hc with ⟨-, rfl⟩ | ⟨-, hc⟩
      · cases hphase
      · exact .inl hc
  · rcases flushes_setCycle (hcycle.flushes ▸ hc) with ⟨rfl, rfl⟩ | ⟨-, hc⟩
    · exact .inr ⟨⟨d, hcycle.before⟩, Cycle.step_prepared hcycle.step hphase⟩
    · exact .inl hc
  · cases h
    cases hc

theorem uploads_cycle {t : Nat} {ev : CycleEvent} {c : Cycle} (hc : e.flushes t = some c) :
    e.uploads (.cycle t ev) = c.uploads ev := by
  simp only [uploads, hc]

theorem step_requests (h : e.step scheme l = some e') :
    e'.world.requests =
      e.world.requests ++ (e.uploads l).map fun u => (u.itemId, u.request) := by
  cases l with
  | cycle t ev =>
    obtain ⟨c, c', hcycle⟩ := step_cycle h
    rw [uploads_cycle hcycle.before]
    exact Cycle.step_requests hcycle.step
  | enqueue | remove | updateConfig | setPaused | flush | recover | kill =>
    rcases step_cases h with hout | ⟨t, ev, c, c', hl, -⟩
    · exact hout.requests.trans (List.append_nil _).symm
    · cases hl

/-- The request a step starts is one that a cycle has prepared. -/
theorem mem_uploads {u : Upload} (hu : u ∈ e.uploads l) :
    ∃ t c item before rest sentWith request, e.flushes t = some c ∧
      c.phase = .prepared item before rest sentWith request ∧
      u = ⟨item.id, request, bodyData item⟩ := by
  unfold uploads at hu
  split at hu
  · split at hu
    · rename_i c hc
      obtain ⟨item, before, rest, sentWith, request, hphase, rfl⟩ := Cycle.mem_uploads hu
      exact ⟨_, c, item, before, rest, sentWith, request, hc, hphase, rfl⟩
    · cases hu
  · cases hu

/-! ## 2. What a run sends -/

/-- The rows, the snapshots and the requests of a run from `e₀` come from what entered. -/
structure Faithful (scheme : String → Option String) (e₀ : Engine) (past : List Label)
    (p : Engine × List Upload) : Prop where
  ids : (e₀.entered past).map (·.id) = p.1.world.issued
  nodup : p.1.world.issued.Nodup
  requests : p.2.map (fun u => (u.itemId, u.request)) = p.1.world.requests
  rows : ∀ r ∈ p.1.world.store.rows, r.asEnqueued ∈ e₀.entered past
  items : ∀ t c, p.1.flushes t = some c → ∀ x ∈ c.phase.hand.items, x.asEnqueued ∈ e₀.entered past
  prepared : ∀ t c item before rest sentWith request, p.1.flushes t = some c →
    c.phase = .prepared item before rest sentWith request →
    Visits (step scheme) (fun m => request = buildRequest m.config item) e₀ past
  sent : ∀ u ∈ p.2, ∃ x ∈ e₀.entered past, u.itemId = x.id ∧ u.body = bodyData x ∧
    Visits (step scheme) (fun m => u.request = buildRequest m.config x) e₀ past

theorem entered_snoc (e : Engine) (ls : List Label) (l : Label) :
    e.entered (ls ++ [l]) = e.entered ls ++ l.rows := by
  simp [entered]

variable {e₀ : Engine} {past : List Label} {p p' : Engine × List Upload}

theorem Boot.faithful (h : Boot e) : Faithful scheme e [] (e, []) where
  ids := by
    rw [entered, List.flatMap_nil, List.append_nil, List.map_map]
    exact h.issued.symm
  nodup := h.issued ▸ e.world.store.nodup
  requests := h.requests.symm
  rows r hr := List.mem_append_left _ (List.mem_map_of_mem hr)
  items t c hc := by
    rw [h.flushes] at hc
    cases hc
  prepared t c item before rest sentWith request hc := by
    rw [h.flushes] at hc
    cases hc
  sent u hu := absurd hu List.not_mem_nil

theorem Faithful.step (hpast : exec (step scheme) e₀ past = some p.1)
    (hF : Faithful scheme e₀ past p)
    (h : recorded (Engine.step scheme) uploads p l = some p') :
    Faithful scheme e₀ (past ++ [l]) p' := by
  obtain ⟨e, sent⟩ := p
  obtain ⟨e', sent'⟩ := p'
  obtain ⟨hstep, rfl⟩ := recorded_eq_some.mp h
  obtain ⟨hissued, hnodup⟩ := step_issued hstep hF.nodup
  have hold {x : StoredSyncItem} (hx : x ∈ e₀.entered past) : x ∈ e₀.entered (past ++ [l]) := by
    rw [entered_snoc]
    exact List.mem_append_left _ hx
  have hnow {Q : Engine → Prop} (hQ : Q e) : Visits (Engine.step scheme) Q e₀ past :=
    visits_last hpast hQ
  refine ⟨?_, hnodup, ?_, fun r hr => ?_, fun t c hc x hx => ?_, ?_, fun u hu => ?_⟩
  · rw [entered_snoc, List.map_append, hF.ids]
    exact hissued.symm
  · rw [List.map_append, hF.requests]
    exact (step_requests hstep).symm
  · rcases step_content hstep hr with ⟨r₀, hr₀, hsame⟩ | hnew
    · exact hold (hsame ▸ hF.rows r₀ hr₀)
    · rw [entered_snoc]
      exact List.mem_append_right _ hnew
  · rcases step_items hstep hc hx with ⟨d, hd, hx⟩ | hx
    · exact hold (hF.items t d hd x hx)
    · exact hold (hF.rows x hx)
  · intro t c item before rest sentWith request hc hphase
    rcases step_prepared hstep hc hphase with hc | ⟨-, hbuilt⟩
    · exact (hF.prepared t c item before rest sentWith request hc hphase).append [l]
    · exact Visits.append (hnow hbuilt) [l]
  · rcases List.mem_append.mp hu with hu | hu
    · obtain ⟨x, hx, hid, hbody, hvisits⟩ := hF.sent u hu
      exact ⟨x, hold hx, hid, hbody, hvisits.append [l]⟩
    · obtain ⟨t, c, item, before, rest, sentWith, request, hc, hphase, rfl⟩ := mem_uploads hu
      have hitem : item ∈ c.phase.hand.items := by
        rw [hphase]
        exact List.mem_cons_self
      exact ⟨item.asEnqueued, hold (hF.items t c hc item hitem), rfl, rfl,
        (hF.prepared t c item before rest sentWith request hc hphase).append [l]⟩

/-- In every run from a launch, whatever the interleaving and however often the process dies:
each request belongs to an item that was handed in, its body is the body of that item, and the
request is the one that this item has under a configuration of the run. The rows keep the
content they were handed in with. -/
theorem uploads_what_was_enqueued {ls : List Label} {sent : List Upload} (h0 : Boot e₀)
    (hrun : exec (recorded (Engine.step scheme) uploads) (e₀, []) ls = some (e, sent)) :
    sent.map (fun u => (u.itemId, u.request)) = e.world.requests ∧
      (∀ r ∈ e.world.store.rows, r.asEnqueued ∈ e₀.entered ls) ∧
      (∀ u ∈ sent, ∃ x ∈ e₀.entered ls, u.itemId = x.id) ∧
      ∀ x ∈ e₀.entered ls, ∀ u ∈ sent, u.itemId = x.id →
        u.body = bodyData x ∧
          Visits (Engine.step scheme) (fun m => u.request = buildRequest m.config x) e₀ ls := by
  have hF : Faithful scheme e₀ ls (e, sent) :=
    exec_past_invariant (P := fun past p => Faithful scheme e₀ past p) h0.faithful
      (fun hpast => Faithful.step (StepSystem.exec_of_recorded hpast)) hrun
  refine ⟨hF.requests, hF.rows, fun u hu => ?_, fun x hx u hu hid => ?_⟩
  · obtain ⟨x, hx, hid, -⟩ := hF.sent u hu
    exact ⟨x, hx, hid⟩
  · obtain ⟨y, hy, hidy, hbody, hvisits⟩ := hF.sent u hu
    -- no id enters twice
    have hdistinct : ((e₀.entered ls).map (·.id)).Nodup := hF.ids ▸ hF.nodup
    obtain rfl : y = x := List.inj_on_of_nodup_map hdistinct hy hx (hidy.symm.trans hid)
    exact ⟨hbody, hvisits⟩

section Sample

/-- One item, enqueued and sent. -/
theorem uploads_what_was_enqueued_once :
    ∃ u e, exec (recorded (Engine.step https) uploads) (firstLaunch, [])
        (fetchRun [SyncQueueStorage.sampleItem "A"] ++ sendRun) = some (e, [u]) ∧
      u.itemId = "A" ∧ u.body = "{}" ∧
        Visits (Engine.step https) (fun m => u.request = buildRequest m.config (sampleStored "A" 0))
          firstLaunch (fetchRun [SyncQueueStorage.sampleItem "A"] ++ sendRun) := by
  have hrun : exec (recorded (Engine.step https) uploads) (firstLaunch, [])
      (fetchRun [SyncQueueStorage.sampleItem "A"] ++ sendRun) =
        some (_, [⟨"A", buildRequest sampleConfig (sampleStored "A" 0), "{}"⟩]) := rfl
  have hsent := (uploads_what_was_enqueued firstLaunch_boot hrun).2.2.2 (sampleStored "A" 0)
    (List.mem_singleton_self _) _ (List.mem_singleton_self _) rfl
  exact ⟨_, _, hrun, rfl, hsent⟩

end Sample

end Engine

end SyncProvider.Ios
