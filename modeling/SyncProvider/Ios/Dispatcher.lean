import SyncProvider.Ios.Cycle
import SyncProvider.Ios.Storage
import SyncProvider.Lib.Outbox
import Mathlib.Logic.Function.Basic

/-!
# iOS: the engine of one install

The `SyncDispatcher` actor with everyone who uses it: any number of `flush`
calls, the storage calls and configuration changes that land at its `await`s,
launch recovery, and the death of the process followed by the next launch. A
run is a list of `Label`s in any order.

Results:
1. `step_cases` : a step either stays outside the cycles or is a step of one.
2. `refines` : the engine refines a store-and-forward queue.
-/

namespace SyncProvider.Ios

open SyncQueueStorage (NewItem RemoveCall)

/-! ## The model -/

structure Engine where
  world : World
  /-- The configuration of the actor. -/
  config : DispatcherConfig
  paused : Bool
  /-- Launch recovery has not run yet. -/
  recovering : Bool
  /-- The cycles the `flush` calls have started. -/
  flushes : Nat → Option Cycle

inductive Label where
  | enqueue (items : List NewItem)
  | remove (call : RemoveCall)
  | updateConfig (config : DispatcherConfig)
  | setPaused (paused : Bool)
  /-- A call of `flush`. `recovered` are the headers it can read back, if any. -/
  | flush (t : Nat) (recovered : Option StringMap) (nowMs : Int)
  | cycle (t : Nat) (ev : CycleEvent)
  /-- Launch recovery runs. -/
  | recover
  /-- The process dies and is launched again with this configuration. -/
  | kill (config : DispatcherConfig) (paused : Bool)
  deriving DecidableEq

/-- `restoreCredentialsIfNeeded`: the configuration to go on with, if any. -/
def restoreCredentialsIfNeeded (config : DispatcherConfig) (recovered : Option StringMap) :
    Option DispatcherConfig :=
  if config.credentialsUnavailable then
    recovered.map fun headers =>
      { config with defaultHeaders := headers, credentialsUnavailable := false }
  else some config

namespace Engine

def setCycle (e : Engine) (t : Nat) (c : Cycle) : Engine :=
  { e with flushes := Function.update e.flushes t (some c) }

/-- `flush` up to its first `await`. A call that starts no cycle returns. -/
def flush (e : Engine) (t : Nat) (recovered : Option StringMap) (nowMs : Int) : Engine :=
  if e.paused then e
  else match restoreCredentialsIfNeeded e.config recovered with
    | none => e
    | some config =>
      if e.world.isCycleRunning then { e with config := config }
      else
        let w := { e.world with isCycleRunning := true }.emit { type := "SYNC_STARTED" }
        { e with world := w, config := config }.setCycle t
          (Cycle.start nowMs (max config.batchSize 1))

/-- One step of the install. -/
def step (scheme : String → Option String) (e : Engine) : Label → Option Engine
  | .enqueue items =>
    -- the generated ids are new
    if items.all fun item => !e.world.issued.contains item.id then
      (SyncItemDao.insertBatch (items.map NewItem.stored) e.world.store).map fun store =>
        { e with world := { e.world with
            store := store
            issued := e.world.issued ++ items.map (·.id) } }
    else none
  | .remove call =>
    some { e with world := { e.world with store := SyncQueueStorage.run call e.world.store } }
  | .updateConfig config => some { e with config := Ios.updateConfig e.config config }
  | .setPaused paused => some { e with paused := paused }
  | .flush t recovered nowMs =>
    if (e.flushes t).isNone then some (e.flush t recovered nowMs) else none
  | .cycle t ev =>
    (e.flushes t).bind fun c =>
      (c.step scheme e.config e.paused e.world ev).map fun (w, c') =>
        { e.setCycle t c' with world := w }
  | .recover =>
    if e.recovering then
      some { e with
        world := { e.world with store := SyncItemDao.resetInFlightToPending e.world.store }
        recovering := false }
    else none
  | .kill config paused =>
    some
      { world := { e.world with
          isCycleRunning := false
          credentialHeldUntil := none
          lastResult := none }
        config := config
        paused := paused
        recovering := true
        flushes := fun _ => none }

/-- A process that has just been launched, on whatever store the last one left. -/
structure Boot (e : Engine) : Prop where
  issued : e.world.issued = e.world.store.keys
  requests : e.world.requests = []
  refunds : e.world.refunds = []
  isCycleRunning : e.world.isCycleRunning = false
  flushes : ∀ t, e.flushes t = none

abbrev Reachable (scheme : String → Option String) (e : Engine) : Prop :=
  StepSystem.Reachable Boot (step scheme) e

/-- The number of requests started for an item so far. -/
def requested (e : Engine) (id : String) : Nat := (e.world.requests.map (·.1)).count id

/-- The snapshots of a flush call whose request may still be started. -/
def unsent (e : Engine) (t : Nat) : List StoredSyncItem :=
  match e.flushes t with
  | some c => c.unsent
  | none => []

/-! ## 1. What a step can do -/

/-- What a step outside the cycles can do: rows with new ids enter the store,
rows leave it, and cycles begin or are lost with nothing in hand. -/
structure Outside (e e' : Engine) : Prop where
  issued : e.world.issued ⊆ e'.world.issued
  keys : ∀ id ∈ e'.world.store.keys,
    id ∈ e.world.store.keys ∨ id ∈ e'.world.issued ∧ id ∉ e.world.issued
  requests : e'.world.requests = e.world.requests
  refunds : e'.world.refunds = e.world.refunds
  unsent : ∀ t, e'.unsent t = e.unsent t ∨ e'.unsent t = []

/-- A step of the cycle of flush call `t`. -/
structure InCycle (scheme : String → Option String) (e e' : Engine) (t : Nat) (ev : CycleEvent)
    (c c' : Cycle) : Prop where
  before : e.flushes t = some c
  step : c.step scheme e.config e.paused e.world ev = some (e'.world, c')
  flushes : e'.flushes = Function.update e.flushes t (some c')
  config : e'.config = e.config

/-- A flush call that has a cycle after `setCycle` is the one it was set for, or
had it before. -/
theorem flushes_setCycle {e : Engine} {t u : Nat} {c d : Cycle}
    (h : Function.update e.flushes t (some c) u = some d) :
    u = t ∧ d = c ∨ u ≠ t ∧ e.flushes u = some d := by
  by_cases hu : u = t
  · subst hu
    rw [Function.update_self] at h
    exact .inl ⟨rfl, (Option.some.inj h).symm⟩
  · rw [Function.update_of_ne hu] at h
    exact .inr ⟨hu, h⟩

theorem retryPolicy_restoreCredentialsIfNeeded {config config' : DispatcherConfig}
    {recovered : Option StringMap}
    (h : restoreCredentialsIfNeeded config recovered = some config') :
    config'.retryPolicy = config.retryPolicy := by
  unfold restoreCredentialsIfNeeded at h
  split at h
  · obtain ⟨headers, -, rfl⟩ := Option.map_eq_some_iff.mp h
    rfl
  · cases h
    rfl

/-- A call of `flush` starts no cycle, or it starts one while none is running.
The policy stays what it was. -/
theorem flush_cases (e : Engine) (t : Nat) (recovered : Option StringMap) (nowMs : Int) :
    ∃ config, config.retryPolicy = e.config.retryPolicy ∧
      (e.flush t recovered nowMs = { e with config := config } ∨
        e.world.isCycleRunning = false ∧
          e.flush t recovered nowMs =
            { e with
              world := { e.world with isCycleRunning := true }.emit { type := "SYNC_STARTED" }
              config := config }.setCycle t (Cycle.start nowMs (max config.batchSize 1))) := by
  unfold flush
  split
  · exact ⟨e.config, rfl, .inl rfl⟩
  · split
    · exact ⟨e.config, rfl, .inl rfl⟩
    · rename_i config hconfig
      refine ⟨config, retryPolicy_restoreCredentialsIfNeeded hconfig, ?_⟩
      split
      · exact .inl rfl
      · rename_i hrunning
        exact .inr ⟨by simpa using hrunning, rfl⟩

theorem outside_flush (e : Engine) (t : Nat) (recovered : Option StringMap) (nowMs : Int) :
    Outside e (e.flush t recovered nowMs) := by
  obtain ⟨config, -, h | ⟨-, h⟩⟩ := e.flush_cases t recovered nowMs <;> rw [h]
  · exact ⟨List.Subset.refl _, fun _ => .inl, rfl, rfl, fun _ => .inl rfl⟩
  · refine ⟨List.Subset.refl _, fun _ => .inl, rfl, rfl, fun u => ?_⟩
    by_cases hu : u = t
    · subst hu
      right
      simp only [Engine.unsent, setCycle, Function.update_self]
      rfl
    · left
      simp only [Engine.unsent, setCycle, Function.update_of_ne hu]

/-- The rows are new ones, behind the others. -/
theorem step_enqueue {scheme : String → Option String} {e e' : Engine} {items : List NewItem}
    (h : e.step scheme (.enqueue items) = some e') :
    ∃ store : StoredItems, (∀ item ∈ items, item.id ∉ e.world.issued) ∧
      store.rows = e.world.store.rows ++ items.map NewItem.stored ∧
      e' = { e with world := { e.world with
        store := store
        issued := e.world.issued ++ items.map (·.id) } } := by
  simp only [step, Option.ite_none_right_eq_some, Option.map_eq_some_iff] at h
  obtain ⟨hnew, store, hins, rfl⟩ := h
  refine ⟨store, fun item hitem => ?_, KeyedTable.rows_insertAll hins, rfl⟩
  simpa using List.all_eq_true.mp hnew item hitem

theorem step_cycle {scheme : String → Option String} {e e' : Engine} {t : Nat} {ev : CycleEvent}
    (h : e.step scheme (.cycle t ev) = some e') : ∃ c c', InCycle scheme e e' t ev c c' := by
  obtain ⟨c, hc, h⟩ := Option.bind_eq_some_iff.mp h
  obtain ⟨⟨w, c'⟩, hstep, rfl⟩ := Option.map_eq_some_iff.mp h
  exact ⟨c, c', hc, hstep, rfl, rfl⟩

theorem step_cases {scheme : String → Option String} {e e' : Engine} {l : Label}
    (h : e.step scheme l = some e') :
    Outside e e' ∨ ∃ t ev c c', l = .cycle t ev ∧ InCycle scheme e e' t ev c c' := by
  cases l with
  | enqueue items =>
    left
    obtain ⟨store, hnew, hrows, rfl⟩ := Engine.step_enqueue h
    have hkeys : store.keys = e.world.store.keys ++ items.map (·.id) := by
      rw [KeyedTable.keys, hrows, List.map_append, List.map_map]
      rfl
    refine ⟨List.subset_append_left _ _, fun id hid => ?_, rfl, rfl, fun t => .inl rfl⟩
    rw [hkeys, List.mem_append] at hid
    refine hid.imp_right fun hid => ⟨List.mem_append_right _ hid, ?_⟩
    obtain ⟨item, hitem, rfl⟩ := List.mem_map.mp hid
    exact hnew item hitem
  | remove call =>
    left
    cases h
    refine ⟨List.Subset.refl _, fun id hid => .inl ?_, rfl, rfl, fun t => .inl rfl⟩
    cases call with
    | remove x => exact KeyedTable.keys_deleteWhere_subset _ _ hid
    | clear => cases hid
  | updateConfig config =>
    cases h
    exact .inl ⟨List.Subset.refl _, fun _ => .inl, rfl, rfl, fun _ => .inl rfl⟩
  | setPaused paused =>
    cases h
    exact .inl ⟨List.Subset.refl _, fun _ => .inl, rfl, rfl, fun _ => .inl rfl⟩
  | flush t recovered nowMs =>
    simp only [step, Option.ite_none_right_eq_some] at h
    obtain ⟨-, h⟩ := h
    cases h
    exact .inl (e.outside_flush t recovered nowMs)
  | cycle t ev =>
    obtain ⟨c, c', h⟩ := step_cycle h
    exact .inr ⟨t, ev, c, c', rfl, h⟩
  | recover =>
    simp only [step, Option.ite_none_right_eq_some] at h
    obtain ⟨-, h⟩ := h
    cases h
    refine .inl ⟨List.Subset.refl _, fun id hid => .inl ?_, rfl, rfl, fun _ => .inl rfl⟩
    simpa using hid
  | kill config paused =>
    cases h
    exact .inl ⟨List.Subset.refl _, fun _ => .inl, rfl, rfl, fun _ => .inr rfl⟩

/-! ## 2. The refinement -/

/-- The queue the engine implements: the store, and the snapshots in hand that
can still be sent. -/
def outbox (e : Engine) : Outbox String where
  issued := {id | id ∈ e.world.issued}
  stored := {id | id ∈ e.world.store.keys}
  held := {id | ∃ t, ∃ x ∈ e.unsent t, x.id = id}
  sent := e.world.requests.map (·.1)

/-- Every id in the store was issued. -/
def KeysIssued (e : Engine) : Prop := ∀ id ∈ e.world.store.keys, id ∈ e.world.issued

theorem Outside.outbox_step {e e' : Engine} (h : Outside e e') :
    Outbox.Step e.outbox e'.outbox where
  issued_mono := h.issued
  stored_new := h.keys
  held_stored := by
    rintro id ⟨t, x, hx, rfl⟩
    rcases h.unsent t with hu | hu
    · exact .inl ⟨t, x, hu ▸ hx, rfl⟩
    · rw [hu] at hx
      cases hx
  sent_held := .inl (by simp only [outbox, h.requests])

namespace InCycle

variable {scheme : String → Option String} {e e' : Engine} {t : Nat} {ev : CycleEvent}
  {c c' : Cycle}

theorem unsent (h : InCycle scheme e e' t ev c c') : e.unsent t = c.unsent := by
  simp only [Engine.unsent, h.before]

theorem unsent' (h : InCycle scheme e e' t ev c c') : e'.unsent t = c'.unsent := by
  simp only [Engine.unsent, h.flushes, Function.update_self]

theorem flushes_of_ne (h : InCycle scheme e e' t ev c c') {u : Nat} (hu : u ≠ t) :
    e'.flushes u = e.flushes u := by
  rw [h.flushes, Function.update_of_ne hu]

theorem outbox_step (h : InCycle scheme e e' t ev c c') : Outbox.Step e.outbox e'.outbox := by
  have hspec := Cycle.step_spec h.step
  refine ⟨fun id hid => ?_, fun id hid => .inl (hspec.keys hid), ?_, ?_⟩
  · change id ∈ e'.world.issued
    rwa [hspec.issued]
  · rintro id ⟨u, x, hx, rfl⟩
    by_cases hut : u = t
    · subst hut
      rw [h.unsent'] at hx
      refine (hspec.unsent x hx).imp (fun hx => ⟨u, x, ?_, rfl⟩) KeyedTable.key_mem_keys
      rwa [h.unsent]
    · refine .inl ⟨u, x, ?_, rfl⟩
      rwa [Engine.unsent, h.flushes_of_ne hut] at hx
  · refine hspec.requests.imp (fun hr => ?_) ?_
    · simp only [outbox, hr]
    · rintro ⟨x, hx, request, hr⟩
      refine ⟨x.id, ⟨t, x, h.unsent ▸ hx, rfl⟩, ?_⟩
      simp only [outbox, hr, List.map_append, List.map_singleton]

end InCycle

theorem outbox_step {scheme : String → Option String} {e e' : Engine} {l : Label}
    (h : e.step scheme l = some e') : Outbox.Step e.outbox e'.outbox := by
  rcases step_cases h with h | ⟨t, ev, c, c', -, h⟩
  · exact h.outbox_step
  · exact h.outbox_step

theorem KeysIssued.step {scheme : String → Option String} {e e' : Engine} {l : Label}
    (hI : KeysIssued e) (h : e.step scheme l = some e') : KeysIssued e' := by
  have hstep := outbox_step h
  intro id hid
  rcases hstep.stored_new hid with hk | hk
  · exact hstep.issued_mono (hI id hk)
  · exact hk.1

theorem Reachable.keysIssued {scheme : String → Option String} {e : Engine}
    (h : Reachable scheme e) : KeysIssued e :=
  h.invariant (fun h0 _ hid => h0.issued ▸ hid) KeysIssued.step

theorem refines (scheme : String → Option String) :
    Outbox.Refines (step scheme) KeysIssued outbox where
  inv := KeysIssued.step
  sim _ h := outbox_step h

/-- Once an item is neither in the store nor in a snapshot that may still be
sent, no request for it is started in any later run. -/
theorem Reachable.requested_eq {scheme : String → Option String} {e e' : Engine} {id : String}
    {ls : List Label} (h : Reachable scheme e) (hgone : e.outbox.Gone id)
    (hrun : StepSystem.exec (step scheme) e ls = some e') :
    e'.requested id = e.requested id :=
  hgone.never_sent (refines scheme) h.keysIssued hrun

section Sample

/-- The first launch of an install. -/
def firstLaunch : Engine where
  world :=
    { store := .empty
      issued := []
      results := []
      isCycleRunning := false
      credentialHeldUntil := none
      lastResult := none
      requests := []
      refunds := []
      events := []
      wakes := [] }
  config := sampleConfig
  paused := false
  recovering := true
  flushes _ := none

theorem firstLaunch_boot : Boot firstLaunch := ⟨rfl, rfl, rfl, rfl, fun _ => rfl⟩

/-- A parser that finds `https`, as the real one does in the sample's url. -/
def https (_ : String) : Option String := some "https"

/-- Enqueue the items and let a cycle fetch them. -/
def fetchRun (items : List NewItem) : List Label :=
  [.enqueue items, .flush 0 none 2000, .cycle 0 (.fetch 2000)]

/-- The next item of the cycle, up to its request. -/
def sendRun : List Label :=
  [.cycle 0 .next, .cycle 0 (.markInFlight 2001), .cycle 0 .prepare, .cycle 0 .send]

/-- The answer to the request, and the write of the outcome. -/
def answerRun (statusCode : Int) : List Label :=
  [.cycle 0 (.answer (some statusCode) none), .cycle 0 (.settle 0), .cycle 0 (.write 2100)]

end Sample

end Engine

end SyncProvider.Ios
