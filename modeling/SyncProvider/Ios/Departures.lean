import SyncProvider.Ios.Payload
import SyncProvider.Lib.Safekeeping

/-!
# iOS: what leaves the queue

A row is deleted by `remove`, by `clear`, and by a cycle whose request was answered with a
success. Between that answer and the deletion the cycle may fail or the process may die, and
then the row stays and is sent again. Nothing else takes a row away: not a failure, not a
kill, not the recovery after it.

Results:
1. `Cycle.step_kept` : when a cycle lets a row go.
2. `nothing_is_lost` : what becomes of an item in a run.
-/

namespace SyncProvider.Ios

open StepSystem (exec recorded)

/-! ## 1. What a cycle lets go -/

namespace Cycle

/-- The id of the item whose request is out. -/
def awaits (c : Cycle) (id : String) : Prop := ∃ item rest sentWith,
  c.phase = .onWire item rest sentWith ∧ item.id = id

/-- The item was delivered, and its row is still to go. -/
def confirmed (c : Cycle) (id : String) : Prop :=
  (∃ item rest sentWith outcome, c.phase = .answered item rest sentWith outcome ∧
    outcome.succeeded = true ∧ item.id = id) ∨
  ∃ item rest statusCode, c.phase = .removing item rest statusCode ∧ item.id = id

/-- The item whose request the step answers with a success. -/
def delivers (c : Cycle) : CycleEvent → List String
  | .answer (some statusCode) none =>
    match c.phase with
    | .onWire item _ _ => if 200 ≤ statusCode ∧ statusCode < 300 then [item.id] else []
    | _ => []
  | _ => []

variable {scheme : String → Option String} {config : DispatcherConfig} {paused : Bool}
  {w w' : World} {c c' : Cycle} {ev : CycleEvent}

theorem succeeded_classifyResponse {itemId : String} {statusCode : Option Int}
    {error : Option TransportError} :
    (classifyResponse itemId statusCode error).succeeded = true ↔
      error = none ∧ ∃ status, statusCode = some status ∧ 200 ≤ status ∧ status < 300 := by
  unfold classifyResponse
  split
  · simp
  · simp
  · rename_i status
    dsimp only
    split
    · rename_i hok
      simpa using hok
    · rename_i hok
      split <;> simpa using hok

theorem awaits_of_delivers {id : String} (h : id ∈ c.delivers ev) : c.awaits id := by
  unfold delivers at h
  split at h
  · split at h
    · split at h
      · rename_i hphase _
        obtain rfl := List.mem_singleton.mp h
        exact ⟨_, _, _, hphase, rfl⟩
      · cases h
    · cases h
  · cases h

/-- A cycle deletes the row of an item it has delivered, and no other. -/
theorem step_kept (h : c.step scheme config paused w ev = some (w', c')) {id : String}
    (hid : id ∈ w.store.keys) : id ∈ w'.store.keys ∨ c.confirmed id := by
  cases step_cases h with
  | @remove item rest statusCode nowMs hphase =>
    by_cases heq : item.id = id
    · exact .inr (.inr ⟨item, rest, statusCode, hphase, heq⟩)
    · exact .inl (SyncItemDao.mem_delete.mpr ⟨hid, fun h => heq h.symm⟩)
  | markInFlight hphase =>
    left
    rwa [SyncItemDao.keys_markInFlight]
  | @record item rest record nowMs hphase =>
    left
    rwa [(writeFailure_spec w c item rest record nowMs).2.1]
  | fetchNone | fetch | leave | take | prepare | rejectUrl | send | sendFails | answer | succeed
  | failItem | summarize | fail | finish => exact .inl hid

/-- An item is delivered by the answer to its request. -/
theorem step_confirmed (h : c.step scheme config paused w ev = some (w', c')) {id : String}
    (hid : c'.confirmed id) : c.confirmed id ∨ id ∈ c.delivers ev := by
  have hother (ha : ∀ item rest sentWith outcome, c'.phase = .answered item rest sentWith outcome →
      outcome.succeeded = false)
      (hr : ∀ item rest statusCode, c'.phase ≠ .removing item rest statusCode) :
      c.confirmed id ∨ id ∈ c.delivers ev := by
    rcases hid with ⟨item, rest, sentWith, outcome, hphase, hok, -⟩ | ⟨_, _, _, hphase, -⟩
    · rw [ha _ _ _ _ hphase] at hok
      cases hok
    · exact absurd hphase (hr _ _ _)
  cases step_cases h with
  | @answer item rest sentWith statusCode error hphase =>
    rcases hid with ⟨item', rest', sentWith', outcome, hphase', hok, rfl⟩ |
      ⟨_, _, _, hphase', -⟩
    · cases hphase'
      obtain ⟨rfl, status, rfl, hrange⟩ := succeeded_classifyResponse.mp hok
      right
      simp only [delivers, hphase, if_pos hrange]
      exact List.mem_singleton_self _
    · cases hphase'
  | @succeed item rest sentWith outcome sample hphase hok =>
    rcases hid with ⟨_, _, _, _, hphase', -⟩ | ⟨item', rest', statusCode, hphase', rfl⟩
    · cases hphase'
    · cases hphase'
      exact .inl (.inl ⟨item, rest, sentWith, outcome, hphase, hok, rfl⟩)
  | @record item rest record nowMs hphase =>
    rcases phase_writeFailure w c item rest record nowMs with hnext | hnext
    all_goals
      refine hother (fun _ _ _ _ hphase' => ?_) fun _ _ _ hphase' => ?_
      all_goals
        rw [hnext] at hphase'
        cases hphase'
  | rejectUrl hphase hurl | sendFails hphase =>
    refine hother (fun _ _ _ _ hphase' => ?_) fun _ _ _ hphase' => ?_
    · cases hphase'
      rfl
    · cases hphase'
  | fetchNone | fetch | leave | take | markInFlight | prepare | send | failItem | remove
  | summarize | fail | finish =>
    exact hother (fun _ _ _ _ hphase' => nomatch hphase') fun _ _ _ hphase' => nomatch hphase'

/-- A request that is out is in the log. -/
theorem step_awaits (h : c.step scheme config paused w ev = some (w', c')) {id : String}
    (hid : c'.awaits id) : c.awaits id ∨ id ∈ w'.requests.map (·.1) := by
  obtain ⟨item, rest, sentWith, hphase', rfl⟩ := hid
  cases step_cases h with
  | send hphase =>
    cases hphase'
    right
    simp
  | @record item rest record nowMs hphase =>
    rcases phase_writeFailure w c item rest record nowMs with hnext | hnext
    all_goals
      rw [hnext] at hphase'
      cases hphase'
  | fetchNone | fetch | leave | take | markInFlight | prepare | rejectUrl | sendFails | answer
  | succeed | failItem | remove | summarize | fail | finish => cases hphase'

end Cycle

/-! ## 2. What a run lets go -/

namespace Engine

variable {scheme : String → Option String} {e e' : Engine} {l : Label}

def awaits (e : Engine) (id : String) : Prop := ∃ t c, e.flushes t = some c ∧ c.awaits id

def confirmed (e : Engine) (id : String) : Prop := ∃ t c, e.flushes t = some c ∧ c.confirmed id

def delivers (e : Engine) : Label → List String
  | .cycle t ev =>
    match e.flushes t with
    | some c => c.delivers ev
    | none => []
  | _ => []

/-- The rows that `removeItem` and `clearQueue` take out. -/
def removes (e : Engine) : Label → List String
  | .remove (.remove id) => e.world.store.keys.filter (· == id)
  | .remove .clear => e.world.store.keys
  | _ => []

theorem awaits_of_delivers {id : String} (h : id ∈ e.delivers l) : e.awaits id := by
  unfold delivers at h
  split at h
  · split at h
    · rename_i c hc
      exact ⟨_, c, hc, Cycle.awaits_of_delivers h⟩
    · cases h
  · cases h

/-- What holds of a cycle after a step held of it before, or the step is its own. -/
theorem step_flush_origin (h : e.step scheme l = some e') {t : Nat} {c : Cycle}
    (hc : e'.flushes t = some c) :
    e.flushes t = some c ∨ c.phase.hand.items = [] ∨
      ∃ ev d, l = .cycle t ev ∧ InCycle scheme e e' t ev d c := by
  rcases step_kinds h with hA | ⟨u, recovered, nowMs, -, -, rfl⟩ | ⟨u, ev, d, d', rfl, hcycle⟩ |
    ⟨config, paused, rfl⟩
  · exact .inl (hA.flushes ▸ hc)
  · obtain ⟨config, -, heq | ⟨-, heq⟩⟩ := e.flush_cases u recovered nowMs <;> rw [heq] at hc
    · exact .inl hc
    · rcases flushes_setCycle hc with ⟨-, rfl⟩ | ⟨-, hc⟩
      · exact .inr (.inl rfl)
      · exact .inl hc
  · rcases flushes_setCycle (hcycle.flushes ▸ hc) with ⟨rfl, rfl⟩ | ⟨-, hc⟩
    · exact .inr (.inr ⟨ev, d, rfl, hcycle⟩)
    · exact .inl hc
  · cases h
    cases hc

theorem step_confirmed (h : e.step scheme l = some e') {id : String} (hid : e'.confirmed id) :
    e.confirmed id ∨ id ∈ e.delivers l := by
  obtain ⟨t, c, hc, hid⟩ := hid
  rcases step_flush_origin h hc with hc | hempty | ⟨ev, d, rfl, hcycle⟩
  · exact .inl ⟨t, c, hc, hid⟩
  · rcases hid with ⟨item, rest, sentWith, outcome, hphase, -⟩ | ⟨item, rest, _, hphase, -⟩
    all_goals
      rw [hphase] at hempty
      cases hempty
  · simp only [delivers, hcycle.before]
    exact (Cycle.step_confirmed hcycle.step hid).imp_left fun hid => ⟨t, d, hcycle.before, hid⟩

theorem step_awaits (h : e.step scheme l = some e') {id : String} (hid : e'.awaits id) :
    e.awaits id ∨ id ∈ e'.world.requests.map (·.1) := by
  obtain ⟨t, c, hc, hid⟩ := hid
  rcases step_flush_origin h hc with hc | hempty | ⟨ev, d, rfl, hcycle⟩
  · exact .inl ⟨t, c, hc, hid⟩
  · obtain ⟨item, rest, sentWith, hphase, -⟩ := hid
    rw [hphase] at hempty
    cases hempty
  · exact (Cycle.step_awaits hcycle.step hid).imp_left fun hid => ⟨t, d, hcycle.before, hid⟩

/-- A row stays, unless it was delivered or the step takes it out. A new id has its row. -/
theorem step_kept (hN : e.world.issued.Nodup) (h : e.step scheme l = some e') {id : String}
    (hid : id ∈ e'.world.issued) :
    id ∈ e'.world.store.keys ∨ (id ∈ e.world.issued ∧ id ∉ e.world.store.keys) ∨
      e.confirmed id ∨ id ∈ e.removes l := by
  by_cases hkept : id ∈ e'.world.store.keys
  · exact .inl hkept
  by_cases hbefore : id ∈ e.world.store.keys
  · -- the row is gone, so the step has taken it
    refine .inr (.inr ?_)
    cases l with
    | enqueue items =>
      obtain ⟨store, -, hrows, rfl⟩ := Engine.step_enqueue h
      refine absurd ?_ hkept
      obtain ⟨r, hr, rfl⟩ := KeyedTable.mem_keys.mp hbefore
      refine KeyedTable.key_mem_keys (?_ : r ∈ store.rows)
      rw [hrows]
      exact List.mem_append_left _ hr
    | remove call =>
      cases h
      right
      cases call with
      | remove x =>
        have heq : id = x := by
          by_contra hne
          exact hkept (SyncItemDao.mem_delete.mpr ⟨hbefore, hne⟩)
        simpa [removes, heq] using heq ▸ hbefore
      | clear => exact hbefore
    | updateConfig config | setPaused paused | kill config paused =>
      cases h
      exact absurd hbefore hkept
    | flush t recovered nowMs =>
      obtain ⟨-, h⟩ := Option.ite_none_right_eq_some.mp h
      cases h
      obtain ⟨config, -, heq | ⟨-, heq⟩⟩ := e.flush_cases t recovered nowMs
      all_goals
        rw [heq] at hkept
        exact absurd hbefore hkept
    | cycle t ev =>
      obtain ⟨c, c', hcycle⟩ := step_cycle h
      rcases Cycle.step_kept hcycle.step hbefore with hstays | hconfirmed
      · exact absurd hstays hkept
      · exact .inl ⟨t, c, hcycle.before, hconfirmed⟩
    | recover =>
      obtain ⟨-, h⟩ := Option.ite_none_right_eq_some.mp h
      cases h
      refine absurd ?_ hkept
      simpa using hbefore
  · -- a new id would have its row
    refine .inr (.inl ⟨?_, hbefore⟩)
    obtain ⟨hissued, -⟩ := step_issued h hN
    rw [hissued, List.mem_append] at hid
    refine hid.resolve_right fun hnew => hkept ?_
    cases l with
    | enqueue items =>
      obtain ⟨store, -, hrows, rfl⟩ := Engine.step_enqueue h
      obtain ⟨r, hr, rfl⟩ := List.mem_map.mp hnew
      refine KeyedTable.key_mem_keys (?_ : r ∈ store.rows)
      rw [hrows]
      exact List.mem_append_right _ hr
    | remove | updateConfig | setPaused | flush | cycle | recover | kill => cases hnew

/-- The queue as a store that lets go of what is delivered or taken out. -/
def safekeeping (scheme : String → Option String) :
    Safekeeping (step scheme) String where
  issued e := e.world.issued
  kept e := e.world.store.keys
  sent e := e.world.requests.map (·.1)
  outstanding := awaits
  confirmed := confirmed
  delivers := delivers
  removes := removes
  Sound e := e.world.issued.Nodup
  sound hN h := (step_issued h hN).2
  keeps hN h _ hid := step_kept hN h hid
  confirms h _ hid := step_confirmed h hid
  sends h _ hid := step_awaits h hid
  sent_mono h := by
    rw [step_requests h, List.map_append]
    exact List.subset_append_left _ _
  delivers_outstanding _ hid := awaits_of_delivers hid

theorem Boot.starts (h : Boot e) : (safekeeping scheme).Starts e where
  sound := by
    have hnodup : e.world.issued.Nodup := h.issued ▸ e.world.store.nodup
    exact hnodup
  kept id hid := by
    have hid : id ∈ e.world.issued := hid
    rwa [h.issued] at hid
  confirmed id := by
    rintro ⟨t, c, hc, -⟩
    rw [h.flushes] at hc
    cases hc
  outstanding id := by
    rintro ⟨t, c, hc, -⟩
    rw [h.flushes] at hc
    cases hc

/-- In every run from a launch, whatever the interleaving and however often the process dies: an
item that was handed in is in the store as it was handed in, or a request of the run for it was
answered with a success, or `removeItem` or `clearQueue` took it out. -/
theorem nothing_is_lost {e₀ : Engine} {ls : List Label} {gone : List (Departure String)}
    (h0 : Boot e₀)
    (hrun : exec (recorded (Engine.step scheme) (safekeeping scheme).departures) (e₀, []) ls =
      some (e, gone)) :
    (∀ x ∈ e₀.entered ls, (∃ r ∈ e.world.store.rows, r.asEnqueued = x) ∨
      .delivered x.id ∈ gone ∨ .removed x.id ∈ gone) ∧
      ∀ id, .delivered id ∈ gone → id ∈ e.world.requests.map (·.1) := by
  have hF : ∃ sent, Faithful scheme e₀ ls (e, sent) := by
    obtain ⟨sent, hsent⟩ := StepSystem.exec_recorded_of_exec uploads
      [] (StepSystem.exec_of_recorded hrun)
    exact ⟨sent, StepSystem.exec_past_invariant (P := fun past p => Faithful scheme e₀ past p)
      h0.faithful (fun hpast => Faithful.step (StepSystem.exec_of_recorded hpast)) hsent⟩
  obtain ⟨sent, hF⟩ := hF
  refine ⟨fun x hx => ?_, fun id hid => Safekeeping.delivered_sent h0.starts hrun hid⟩
  have hissued : x.id ∈ e.world.issued := by
    rw [← hF.ids]
    exact List.mem_map_of_mem hx
  refine (Safekeeping.accounted h0.starts hrun x.id hissued).imp_left fun hkept => ?_
  obtain ⟨r, hr, hid⟩ := KeyedTable.mem_keys.mp hkept
  have hdistinct : ((e₀.entered ls).map (·.id)).Nodup := hF.ids ▸ hF.nodup
  exact ⟨r, hr, List.inj_on_of_nodup_map hdistinct (hF.rows r hr) hx hid⟩

section Sample

/-- One of two items is delivered, and the process dies while the other one is out. -/
def interruptedRun : List Label :=
  fetchRun [SyncQueueStorage.sampleItem "A", SyncQueueStorage.sampleItem "B"] ++ sendRun ++
    answerRun 200 ++ sendRun ++ [.kill sampleConfig false, .recover]

theorem nothing_is_lost_when_killed :
    ∃ e gone, exec (recorded (Engine.step https) (safekeeping https).departures)
        (firstLaunch, []) interruptedRun = some (e, gone) ∧
      gone = [.delivered "A"] ∧ e.world.store.keys = ["B"] ∧
      (∀ x ∈ firstLaunch.entered interruptedRun, (∃ r ∈ e.world.store.rows, r.asEnqueued = x) ∨
        .delivered x.id ∈ gone ∨ .removed x.id ∈ gone) ∧
      ∀ id, .delivered id ∈ gone → id ∈ e.world.requests.map (·.1) := by
  have hrun : exec (recorded (Engine.step https) (safekeeping https).departures)
      (firstLaunch, []) interruptedRun = some (_, [.delivered "A"]) := rfl
  exact ⟨_, _, hrun, rfl, rfl, nothing_is_lost firstLaunch_boot hrun⟩

end Sample

end Engine

end SyncProvider.Ios
