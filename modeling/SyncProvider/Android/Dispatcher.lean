import SyncProvider.Android.Cycle
import SyncProvider.Android.Storage
import SyncProvider.Lib.Outbox
import Mathlib.Logic.Function.Basic

/-!
# Android: the dispatcher of one process

`SyncDispatcher` with everyone who uses it: any number of `flush` callers (the
JS facade, the retry timer, `SyncWorker`), any number of `resetInFlight` callers
(`RecoveryWorker`, `SyncWorker`), and the storage calls and configuration
changes that take no part in `flushMutex`. Every caller is a coroutine that can
be cancelled at any moment. A run is a list of `Label`s in any order.

Results:
1. `step_cases` : a step either stays outside the cycles or is a step of one.
2. `Reachable.inv` : who holds the mutex, and whose rows are in hand.
3. `refines` : the dispatcher refines a store-and-forward queue.
4. `no_double_send` : one cycle at a time, one request per item at a time, and
   none after a success.
-/

namespace SyncProvider.Android

open SyncQueueStorage (NewItem RemoveCall)

/-! ## The model -/

inductive Operation where
  | flush | resetInFlight
  deriving DecidableEq

/-- Where a caller of `flush` or `resetInFlight` stands. -/
inductive CallState where
  | idle
  /-- Suspended in `flushMutex.lock`. -/
  | waiting (op : Operation)
  /-- In the `withLock` block. -/
  | entered (op : Operation)
  | unpaused
  /-- About to call `runCycle(getOptions(), credentials)`. -/
  | admitted (credentials : CredentialPolicy)
  | cycle (c : Cycle)
  /-- The block is done, the mutex is to be released. -/
  | leaving
  deriving DecidableEq

structure Call where
  state : CallState
  cancelled : Bool
  deriving DecidableEq

namespace Call

def idle : Call where
  state := .idle
  cancelled := false

/-- The caller is inside the `withLock` block. -/
def holdsMutex (call : Call) : Bool :=
  match call.state with
  | .idle | .waiting _ => false
  | _ => true

def inRunCycle (call : Call) : Bool :=
  match call.state with
  | .cycle _ => true
  | _ => false

/-- The rows its cycle has in hand. -/
def dispatches (call : Call) : List Dispatch :=
  match call.state with
  | .cycle c => c.dispatches
  | _ => []

def ids (call : Call) : List String := call.dispatches.map (·.entity.id)

/-- The ids in hand whose request may still be started. -/
def unsent (call : Call) : List String :=
  (call.dispatches.filter Dispatch.unsent).map (·.entity.id)

end Call

structure Engine where
  world : World
  /-- What `getOptions()` returns. -/
  options : SyncOptions
  /-- What `credentialPolicy()` returns. -/
  credentials : CredentialPolicy
  paused : Bool
  flushMutex : Option Nat
  calls : Nat → Call

inductive Label where
  | enqueue (items : List NewItem)
  | remove (call : RemoveCall)
  | configure (options : SyncOptions) (credentials : CredentialPolicy)
  | setPaused (paused : Bool)
  | call (t : Nat) (op : Operation)
  | cancel (t : Nat)
  /-- A cancelled caller throws outside `runCycle`. -/
  | giveUp (t : Nat)
  | lock (t : Nat)
  | checkPaused (t : Nat)
  | readCredentials (t : Nat)
  | begin (t : Nat) (now : Int)
  | reset (t : Nat)
  | cycle (t : Nat) (ev : CycleEvent)
  | unlock (t : Nat)
  deriving DecidableEq

namespace Engine

def setCall (e : Engine) (t : Nat) (call : Call) : Engine :=
  { e with calls := Function.update e.calls t call }

def setState (e : Engine) (t : Nat) (state : CallState) : Engine :=
  e.setCall t { e.calls t with state := state }

/-- One step of the process. `accepts` are the checks of the HTTP client. -/
def step (accepts : HttpRequest → Bool) (e : Engine) : Label → Option Engine
  | .enqueue items =>
    -- the generated ids are new
    if items.all fun item => !e.world.issued.contains item.id then
      (SyncItemDao.insertBatch (items.map NewItem.entity) e.world.table).map fun table =>
        { e with world := { e.world with
            table := table
            issued := e.world.issued ++ items.map (·.id) } }
    else none
  | .remove call =>
    some { e with world := { e.world with table := SyncQueueStorage.remove call e.world.table } }
  | .configure options credentials => some { e with options := options, credentials := credentials }
  | .setPaused paused => some { e with paused := paused }
  | .call t op =>
    match (e.calls t).state with
    | .idle => some (e.setCall t ⟨.waiting op, false⟩)
    | _ => none
  | .cancel t => some (e.setCall t { e.calls t with cancelled := true })
  | .giveUp t =>
    if (e.calls t).cancelled then
      match (e.calls t).state with
      | .waiting _ => some (e.setCall t .idle)
      | .entered .resetInFlight => some (e.setState t .leaving)
      | _ => none
    else none
  | .lock t =>
    match (e.calls t).state, e.flushMutex with
    | .waiting op, none => some { e.setState t (.entered op) with flushMutex := some t }
    | _, _ => none
  | .checkPaused t =>
    match (e.calls t).state with
    | .entered .flush => some (e.setState t (if e.paused then .leaving else .unpaused))
    | _ => none
  | .readCredentials t =>
    match (e.calls t).state with
    | .unpaused =>
      some (e.setState t
        (if e.credentials = .UNAVAILABLE then .leaving else .admitted e.credentials))
    | _ => none
  | .begin t now =>
    match (e.calls t).state with
    | .admitted credentials =>
      let c : Cycle :=
        { options := e.options, credentials := credentials, startedAt := now, phase := .starting }
      some { e.setState t (.cycle c) with world := { e.world with syncing := true } }
    | _ => none
  | .reset t =>
    match (e.calls t).state with
    | .entered .resetInFlight =>
      some { e.setState t .leaving with world := e.world.resetInFlight }
    | _ => none
  | .cycle t ev =>
    match (e.calls t).state with
    | .cycle c =>
      (c.step accepts e.options (e.calls t).cancelled e.world ev).map fun (w, c') =>
        { e.setState t (.cycle c') with world := w }
    | _ => none
  | .unlock t =>
    match (e.calls t).state with
    | .leaving => some { e.setCall t .idle with flushMutex := none }
    | .cycle c =>
      if c.phase = .finished then some { e.setCall t .idle with flushMutex := none } else none
    | _ => none

/-- A process that has just started, on whatever table the last one left. -/
structure Boot (e : Engine) : Prop where
  issued : e.world.issued = e.world.table.keys
  requests : e.world.requests = []
  succeeded : e.world.succeeded = []
  flushMutex : e.flushMutex = none
  calls : ∀ t, e.calls t = .idle

abbrev Reachable (accepts : HttpRequest → Bool) (e : Engine) : Prop :=
  StepSystem.Reachable Boot (step accepts) e

/-- The number of requests started for an item so far. -/
def requested (e : Engine) (id : String) : Nat := (e.world.requests.map (·.1)).count id

/-! ## 1. What a step can do -/

/-- What a step outside the cycles can do: rows with new ids enter the table,
rows leave it, and callers begin or end with nothing in hand. -/
structure Outside (e e' : Engine) : Prop where
  issued : e.world.issued ⊆ e'.world.issued
  keys : ∀ id ∈ e'.world.table.keys,
    id ∈ e.world.table.keys ∨ id ∈ e'.world.issued ∧ id ∉ e.world.issued
  requests : e'.world.requests = e.world.requests
  succeeded : e'.world.succeeded = e.world.succeeded
  calls : ∀ t, (e'.calls t).dispatches = (e.calls t).dispatches ∨ (e'.calls t).dispatches = []

/-- A step of the cycle of caller `t`. -/
structure InCycle (e e' : Engine) (t : Nat) (c c' : Cycle) : Prop where
  state : (e.calls t).state = .cycle c
  spec : CycleSpec e.world c e'.world c'
  calls : e'.calls = Function.update e.calls t { e.calls t with state := .cycle c' }
  flushMutex : e'.flushMutex = e.flushMutex

theorem dispatches_update {e : Engine} {t : Nat} {call : Call}
    (h : call.dispatches = (e.calls t).dispatches ∨ call.dispatches = []) (u : Nat) :
    (Function.update e.calls t call u).dispatches = (e.calls u).dispatches ∨
      (Function.update e.calls t call u).dispatches = [] := by
  by_cases hu : u = t
  · subst hu
    rwa [Function.update_self]
  · rw [Function.update_of_ne hu]
    exact .inl rfl

/-- The rows are new ones, behind the others. -/
theorem step_enqueue {accepts : HttpRequest → Bool} {e e' : Engine} {items : List NewItem}
    (h : e.step accepts (.enqueue items) = some e') :
    ∃ table : SyncItems, (∀ item ∈ items, item.id ∉ e.world.issued) ∧
      table.rows = e.world.table.rows ++ items.map NewItem.entity ∧
      e' = { e with world := { e.world with
        table := table
        issued := e.world.issued ++ items.map (·.id) } } := by
  simp only [step, Option.ite_none_right_eq_some, Option.map_eq_some_iff] at h
  obtain ⟨hnew, table, hins, rfl⟩ := h
  refine ⟨table, fun item hitem => ?_, KeyedTable.rows_insertAll hins, rfl⟩
  simpa using List.all_eq_true.mp hnew item hitem

/-- A caller moves, and of the world only `syncing` and the statuses change. -/
theorem Outside.of_call {e e' : Engine} {t : Nat} {call : Call}
    (hissued : e'.world.issued = e.world.issued) (hkeys : e'.world.table.keys = e.world.table.keys)
    (hrequests : e'.world.requests = e.world.requests)
    (hsucceeded : e'.world.succeeded = e.world.succeeded)
    (hcalls : e'.calls = Function.update e.calls t call)
    (hd : call.dispatches = (e.calls t).dispatches ∨ call.dispatches = []) : Outside e e' where
  issued := by rw [hissued]; exact List.Subset.refl _
  keys := fun id h => .inl (hkeys ▸ h)
  requests := hrequests
  succeeded := hsucceeded
  calls := by
    rw [hcalls]
    exact dispatches_update hd

theorem step_cases {accepts : HttpRequest → Bool} {e e' : Engine} {l : Label}
    (h : e.step accepts l = some e') : Outside e e' ∨ ∃ t c c', InCycle e e' t c c' := by
  cases l with
  | enqueue items =>
    left
    obtain ⟨table, hnew, hrows, rfl⟩ := Engine.step_enqueue h
    have hkeys : table.keys = e.world.table.keys ++ items.map (·.id) := by
      rw [KeyedTable.keys, hrows, List.map_append, List.map_map]
      rfl
    refine ⟨List.subset_append_left _ _, fun id hid => ?_, rfl, rfl, fun t => .inl rfl⟩
    rw [hkeys, List.mem_append] at hid
    refine hid.imp_right fun hid => ⟨List.mem_append_right _ hid, ?_⟩
    obtain ⟨item, hitem, rfl⟩ := List.mem_map.mp hid
    exact hnew item hitem
  | remove call =>
    left
    cases h
    refine ⟨List.Subset.refl _, fun id hid => .inl ?_, rfl, rfl, fun t => .inl rfl⟩
    cases call with
    | removeItem x => exact KeyedTable.keys_deleteWhere_subset _ _ hid
    | clear => cases hid
  | configure options credentials =>
    cases h
    exact .inl ⟨List.Subset.refl _, fun _ => .inl, rfl, rfl, fun _ => .inl rfl⟩
  | setPaused paused =>
    cases h
    exact .inl ⟨List.Subset.refl _, fun _ => .inl, rfl, rfl, fun _ => .inl rfl⟩
  | call t op =>
    simp only [step] at h
    split at h <;> cases h
    exact .inl (.of_call rfl rfl rfl rfl rfl (.inr rfl))
  | cancel t =>
    cases h
    exact .inl (.of_call rfl rfl rfl rfl rfl (.inl rfl))
  | giveUp t =>
    simp only [step, Option.ite_none_right_eq_some] at h
    obtain ⟨-, h⟩ := h
    split at h <;> cases h
    all_goals exact .inl (.of_call rfl rfl rfl rfl rfl (.inr rfl))
  | lock t =>
    simp only [step] at h
    split at h <;> cases h
    exact .inl (.of_call rfl rfl rfl rfl rfl (.inr rfl))
  | checkPaused t =>
    simp only [step] at h
    split at h <;> cases h
    refine .inl (.of_call rfl rfl rfl rfl rfl (.inr ?_))
    split <;> rfl
  | readCredentials t =>
    simp only [step] at h
    split at h <;> cases h
    refine .inl (.of_call rfl rfl rfl rfl rfl (.inr ?_))
    split <;> rfl
  | begin t now =>
    simp only [step] at h
    split at h <;> cases h
    exact .inl (.of_call rfl rfl rfl rfl rfl (.inr rfl))
  | reset t =>
    simp only [step] at h
    split at h <;> cases h
    exact .inl (.of_call rfl (SyncItemDao.keys_resetInFlight _) rfl rfl rfl (.inr rfl))
  | cycle t ev =>
    simp only [step] at h
    split at h
    case h_2 => cases h
    case h_1 c hc =>
      obtain ⟨⟨w, c'⟩, hstep, rfl⟩ := Option.map_eq_some_iff.mp h
      exact .inr ⟨t, c, c', hc, Cycle.step_spec hstep, rfl, rfl⟩
  | unlock t =>
    simp only [step] at h
    split at h
    · cases h
      exact .inl (.of_call rfl rfl rfl rfl rfl (.inr rfl))
    · split at h <;> cases h
      exact .inl (.of_call rfl rfl rfl rfl rfl (.inr rfl))
    · cases h

/-! ## 2. Invariants -/

/-- Whoever is inside the block holds the mutex. -/
def Exclusive (e : Engine) : Prop := ∀ t, (e.calls t).holdsMutex = true → e.flushMutex = some t

/-- Two callers inside the block are one caller. -/
theorem Exclusive.eq {e : Engine} (h : Exclusive e) {t u : Nat}
    (ht : (e.calls t).holdsMutex = true) (hu : (e.calls u).holdsMutex = true) : t = u :=
  Option.some.inj ((h t ht).symm.trans (h u hu))

/-- A caller outside the block stays outside, one inside may leave. -/
theorem Exclusive.keep {e e' : Engine} (h : Exclusive e) {t : Nat} {call : Call}
    (hcalls : e'.calls = Function.update e.calls t call) (hmutex : e'.flushMutex = e.flushMutex)
    (hcall : call.holdsMutex = true → (e.calls t).holdsMutex = true) : Exclusive e' := by
  intro u hu
  rw [hmutex]
  rw [hcalls] at hu
  by_cases hut : u = t
  · subst hut
    rw [Function.update_self] at hu
    exact h u (hcall hu)
  · rw [Function.update_of_ne hut] at hu
    exact h u hu

/-- The mutex is free, so the caller that takes it is alone in the block. -/
theorem Exclusive.acquire {e e' : Engine} (h : Exclusive e) {t : Nat} {call : Call}
    (hcalls : e'.calls = Function.update e.calls t call) (hfree : e.flushMutex = none)
    (hmutex : e'.flushMutex = some t) : Exclusive e' := by
  intro u hu
  rw [hcalls] at hu
  by_cases hut : u = t
  · subst hut
    exact hmutex
  · rw [Function.update_of_ne hut] at hu
    have := h u hu
    rw [hfree] at this
    cases this

/-- The caller that leaves the block was alone in it. -/
theorem Exclusive.release {e e' : Engine} (h : Exclusive e) {t : Nat} {call : Call}
    (hcalls : e'.calls = Function.update e.calls t call) (ht : (e.calls t).holdsMutex = true)
    (hcall : call.holdsMutex = false) : Exclusive e' := by
  intro u hu
  rw [hcalls] at hu
  by_cases hut : u = t
  · subst hut
    rw [Function.update_self, hcall] at hu
    cases hu
  · rw [Function.update_of_ne hut] at hu
    exact absurd (h.eq hu ht) hut

theorem Exclusive.step {accepts : HttpRequest → Bool} {e e' : Engine} {l : Label}
    (hE : Exclusive e) (h : e.step accepts l = some e') : Exclusive e' := by
  cases l with
  | enqueue items =>
    obtain ⟨table, -, -, rfl⟩ := Engine.step_enqueue h
    exact hE
  | remove call =>
    cases h
    exact hE
  | configure options credentials =>
    cases h
    exact hE
  | setPaused paused =>
    cases h
    exact hE
  | call t op =>
    simp only [Engine.step] at h
    split at h <;> cases h
    exact hE.keep rfl rfl (by simp [Call.holdsMutex])
  | cancel t =>
    cases h
    exact hE.keep rfl rfl id
  | giveUp t =>
    simp only [Engine.step, Option.ite_none_right_eq_some] at h
    obtain ⟨-, h⟩ := h
    split at h
    · cases h
      exact hE.keep rfl rfl (by simp [Call.holdsMutex, Call.idle])
    · rename_i hs
      cases h
      exact hE.keep rfl rfl (by simp [Call.holdsMutex, hs])
    · cases h
  | lock t =>
    simp only [Engine.step] at h
    split at h
    case h_2 => cases h
    case h_1 hfree =>
      cases h
      exact hE.acquire rfl hfree rfl
  | checkPaused t =>
    simp only [Engine.step] at h
    split at h
    case h_2 => cases h
    case h_1 hs =>
      cases h
      exact hE.keep rfl rfl (by simp [Call.holdsMutex, hs])
  | readCredentials t =>
    simp only [Engine.step] at h
    split at h
    case h_2 => cases h
    case h_1 hs =>
      cases h
      exact hE.keep rfl rfl (by simp [Call.holdsMutex, hs])
  | begin t now =>
    simp only [Engine.step] at h
    split at h
    case h_2 => cases h
    case h_1 hs =>
      cases h
      exact hE.keep rfl rfl (by simp [Call.holdsMutex, hs])
  | reset t =>
    simp only [Engine.step] at h
    split at h
    case h_2 => cases h
    case h_1 hs =>
      cases h
      exact hE.keep rfl rfl (by simp [Call.holdsMutex, hs])
  | cycle t ev =>
    simp only [Engine.step] at h
    split at h
    case h_2 => cases h
    case h_1 hs =>
      obtain ⟨-, -, rfl⟩ := Option.map_eq_some_iff.mp h
      exact hE.keep rfl rfl (by simp [Call.holdsMutex, hs])
  | unlock t =>
    simp only [Engine.step] at h
    split at h
    · rename_i hs
      cases h
      exact hE.release rfl (by simp [Call.holdsMutex, hs]) rfl
    · rename_i hs
      split at h <;> cases h
      exact hE.release rfl (by simp [Call.holdsMutex, hs]) rfl
    · cases h

/-- The queue the dispatcher implements: the table is the store, the rows in
hand that can still be sent are held. -/
def outbox (e : Engine) : Outbox String where
  issued := {id | id ∈ e.world.issued}
  stored := {id | id ∈ e.world.table.keys}
  held := {id | ∃ t, id ∈ (e.calls t).unsent}
  sent := e.world.requests.map (·.1)

/-- What holds in every reachable state. -/
structure Inv (e : Engine) : Prop where
  exclusive : Exclusive e
  nodup : ∀ t, (e.calls t).ids.Nodup
  keys_issued : ∀ id ∈ e.world.table.keys, id ∈ e.world.issued
  ids_issued : ∀ t, ∀ id ∈ (e.calls t).ids, id ∈ e.world.issued
  succeeded_gone : ∀ id ∈ e.world.succeeded, e.outbox.Gone id

theorem Boot.inv {e : Engine} (h : Boot e) : Inv e where
  exclusive t ht := by
    rw [h.calls t] at ht
    cases ht
  nodup t := by
    rw [h.calls t]
    exact List.nodup_nil
  keys_issued id hid := h.issued ▸ hid
  ids_issued t id hid := by
    rw [h.calls t] at hid
    cases hid
  succeeded_gone id hid := by
    rw [h.succeeded] at hid
    cases hid

/-- A caller with rows in hand is in a cycle. -/
theorem holdsMutex_of_mem_ids {call : Call} {id : String} (h : id ∈ call.ids) :
    call.holdsMutex = true := by
  obtain ⟨state, cancelled⟩ := call
  cases state <;> first | rfl | cases h

theorem Outside.outbox_step {e e' : Engine} (h : Outside e e') :
    Outbox.Step e.outbox e'.outbox where
  issued_mono := h.issued
  stored_new := h.keys
  held_stored := by
    rintro id ⟨t, ht⟩
    refine .inl ⟨t, ?_⟩
    rcases h.calls t with hd | hd
    · simpa only [Call.unsent, hd] using ht
    · simp [Call.unsent, hd] at ht
  sent_held := .inl (by simp only [outbox, h.requests])

namespace InCycle

variable {e e' : Engine} {t : Nat} {c c' : Cycle}

theorem ids (h : InCycle e e' t c c') : (e.calls t).ids = c.ids := by
  simp [Call.ids, Call.dispatches, Cycle.ids, h.state]

theorem unsent (h : InCycle e e' t c c') : (e.calls t).unsent = c.unsent := by
  simp [Call.unsent, Call.dispatches, Cycle.unsent, h.state]

theorem ids' (h : InCycle e e' t c c') : (e'.calls t).ids = c'.ids := by
  rw [h.calls, Function.update_self]
  rfl

theorem unsent' (h : InCycle e e' t c c') : (e'.calls t).unsent = c'.unsent := by
  rw [h.calls, Function.update_self]
  rfl

theorem calls_of_ne (h : InCycle e e' t c c') {u : Nat} (hu : u ≠ t) :
    e'.calls u = e.calls u := by
  rw [h.calls, Function.update_of_ne hu]

theorem outbox_step (h : InCycle e e' t c c') : Outbox.Step e.outbox e'.outbox where
  issued_mono := by
    intro id hid
    change id ∈ e'.world.issued
    rwa [h.spec.issued]
  stored_new := fun id hid => .inl (h.spec.keys hid)
  held_stored := by
    rintro id ⟨u, hu⟩
    by_cases hut : u = t
    · subst hut
      rw [h.unsent'] at hu
      refine (h.spec.unsent id hu).imp_left fun hid => ⟨u, ?_⟩
      rwa [h.unsent]
    · rw [h.calls_of_ne hut] at hu
      exact .inl ⟨u, hu⟩
  sent_held := by
    refine h.spec.requests.imp (fun hr => ?_) ?_
    · simp only [outbox, hr]
    · rintro ⟨id, hid, request, hr⟩
      refine ⟨id, ⟨t, h.unsent ▸ hid⟩, ?_⟩
      simp only [outbox, hr, List.map_append, List.map_singleton]

end InCycle

theorem outbox_step {accepts : HttpRequest → Bool} {e e' : Engine} {l : Label}
    (h : e.step accepts l = some e') : Outbox.Step e.outbox e'.outbox := by
  rcases step_cases h with h | ⟨t, c, c', h⟩
  · exact h.outbox_step
  · exact h.outbox_step

theorem Inv.outside {e e' : Engine} (hI : Inv e) (hexclusive : Exclusive e') (h : Outside e e') :
    Inv e' := by
  refine ⟨hexclusive, fun t => ?_, fun id hid => ?_, fun t id hid => ?_, fun id hid => ?_⟩
  · rcases h.calls t with hd | hd
    · simpa only [Call.ids, hd] using hI.nodup t
    · simp [Call.ids, hd]
  · rcases h.keys id hid with hk | ⟨hk, -⟩
    · exact h.issued (hI.keys_issued id hk)
    · exact hk
  · rcases h.calls t with hd | hd
    · exact h.issued (hI.ids_issued t id (by simpa only [Call.ids, hd] using hid))
    · simp [Call.ids, hd] at hid
  · exact (hI.succeeded_gone id (h.succeeded ▸ hid)).step h.outbox_step

theorem Inv.inCycle {e e' : Engine} {t : Nat} {c c' : Cycle} (hI : Inv e)
    (hexclusive : Exclusive e') (h : InCycle e e' t c c') : Inv e' := by
  have hgone {id : String} (hid : id ∈ e.world.succeeded) : e'.outbox.Gone id :=
    (hI.succeeded_gone id hid).step h.outbox_step
  have hnodup : c.ids.Nodup := h.ids ▸ hI.nodup t
  have hissued {id : String} (hid : id ∈ c'.ids) : id ∈ e'.world.issued := by
    rw [h.spec.issued]
    rcases h.spec.ids id hid with hid | hid
    · exact hI.ids_issued t id (h.ids ▸ hid)
    · exact hI.keys_issued id hid
  refine ⟨hexclusive, fun u => ?_, fun id hid => ?_, fun u id hid => ?_, fun id hid => ?_⟩
  · by_cases hut : u = t
    · subst hut
      rw [h.ids']
      exact h.spec.nodup hnodup
    · rw [h.calls_of_ne hut]
      exact hI.nodup u
  · rw [h.spec.issued]
    exact hI.keys_issued id (h.spec.keys hid)
  · by_cases hut : u = t
    · subst hut
      exact hissued (h.ids' ▸ hid)
    · rw [h.calls_of_ne hut] at hid
      rw [h.spec.issued]
      exact hI.ids_issued u id hid
  · rcases h.spec.succeeded with hs | ⟨x, hx, hs, hkey, hunsent⟩
    · exact hgone (hs ▸ hid)
    · rw [hs, List.mem_append, List.mem_singleton] at hid
      rcases hid with hid | rfl
      · exact hgone hid
      · -- the row is out of the table, and no other caller has rows in hand
        refine ⟨?_, hkey, ?_⟩
        · change id ∈ e'.world.issued
          rw [h.spec.issued]
          exact hI.ids_issued t id (h.ids ▸ hx)
        · rintro ⟨u, hu⟩
          by_cases hut : u = t
          · subst hut
            exact hunsent hnodup (h.unsent' ▸ hu)
          · have hmem : id ∈ (e'.calls u).ids := (List.filter_sublist.map _).subset hu
            have ht : (e'.calls t).holdsMutex = true := by simp [h.calls, Call.holdsMutex]
            exact hut (hexclusive.eq (holdsMutex_of_mem_ids hmem) ht)

theorem Inv.step {accepts : HttpRequest → Bool} {e e' : Engine} {l : Label} (hI : Inv e)
    (h : e.step accepts l = some e') : Inv e' := by
  have hexclusive := hI.exclusive.step h
  rcases step_cases h with h | ⟨t, c, c', h⟩
  · exact hI.outside hexclusive h
  · exact hI.inCycle hexclusive h

theorem Reachable.inv {accepts : HttpRequest → Bool} {e : Engine} (h : Reachable accepts e) :
    Inv e :=
  h.invariant Boot.inv Inv.step

/-! ## 3. The refinement -/

theorem refines (accepts : HttpRequest → Bool) :
    Outbox.Refines (step accepts) Inv outbox where
  inv := Inv.step
  sim _ h := outbox_step h

/-- Once an item is neither in the table nor in the hands of a cycle that may
still send it, no request for it is started in any later run. -/
theorem Reachable.requested_eq {accepts : HttpRequest → Bool} {e e' : Engine} {id : String}
    {ls : List Label} (h : Reachable accepts e) (hgone : e.outbox.Gone id)
    (hrun : StepSystem.exec (step accepts) e ls = some e') :
    e'.requested id = e.requested id :=
  hgone.never_sent (refines accepts) h.inv hrun

/-! ## 4. No double send -/

/-- Two dispatches of one item are one dispatch. -/
theorem Inv.dispatch_unique {e : Engine} (hI : Inv e) {t u i j : Nat} {d d' : Dispatch}
    (hd : (e.calls t).dispatches[i]? = some d) (hd' : (e.calls u).dispatches[j]? = some d')
    (hid : d.entity.id = d'.entity.id) : t = u ∧ i = j := by
  have hmem : d.entity.id ∈ (e.calls t).ids := List.mem_map_of_mem (List.mem_of_getElem? hd)
  have hmem' : d'.entity.id ∈ (e.calls u).ids := List.mem_map_of_mem (List.mem_of_getElem? hd')
  obtain rfl : t = u :=
    hI.exclusive.eq (holdsMutex_of_mem_ids hmem) (holdsMutex_of_mem_ids hmem')
  have hi : (e.calls t).ids[i]? = some d.entity.id := by
    simp [Call.ids, hd]
  have hj : (e.calls t).ids[j]? = some d.entity.id := by
    simp [Call.ids, hd', hid]
  have hlt : i < (e.calls t).ids.length := (List.getElem?_eq_some_iff.mp hi).1
  exact ⟨rfl, (List.getElem?_inj hlt (hI.nodup t)).mp (hi.trans hj.symm)⟩

/-- In every reachable state at most one caller is inside `runCycle`, at most
one request is out for each item, and once `markSucceeded` ran for an item no
later run starts a request for it. -/
theorem no_double_send {accepts : HttpRequest → Bool} {e : Engine} (h : Reachable accepts e) :
    (∀ t u, (e.calls t).inRunCycle = true → (e.calls u).inRunCycle = true → t = u) ∧
    (∀ (t u i j : Nat) (d d' : Dispatch),
      (e.calls t).dispatches[i]? = some d → (e.calls u).dispatches[j]? = some d' →
      d.onWire = true → d'.onWire = true → d.entity.id = d'.entity.id → t = u ∧ i = j) ∧
    ∀ id ∈ e.world.succeeded, ∀ ls e', StepSystem.exec (step accepts) e ls = some e' →
      e'.requested id = e.requested id := by
  have hI := h.inv
  refine ⟨fun t u ht hu => ?_, fun t u i j d d' hd hd' _ _ hid => ?_, fun id hid ls e' hrun => ?_⟩
  · have holds {call : Call} (hc : call.inRunCycle = true) : call.holdsMutex = true := by
      obtain ⟨state, cancelled⟩ := call
      cases state <;> first | rfl | cases hc
    exact hI.exclusive.eq (holds ht) (holds hu)
  · exact hI.dispatch_unique hd hd' hid
  · exact h.requested_eq (hI.succeeded_gone id hid) hrun

section Sample

def sampleOptions : SyncOptions where
  strategy := .automatic
  retryPolicy :=
    { maxAttempts := .fin 5
      backoff := .exponential
      baseDelayMs := .fin 1000
      maxDelayMs := .fin 60000
      jitter := false
      retryOnStatusCodes := [.fin 500, .fin 503] }
  batchSize := none
  requestTimeoutMs := none
  maxQueueSize := none
  persistQueue := none
  defaultHeaders := none

/-- A process on an empty table. -/
def coldStart (credentials : CredentialPolicy) : Engine where
  world :=
    { table := .empty
      issued := []
      results := []
      syncing := false
      requests := []
      succeeded := []
      events := []
      wakes := [] }
  options := sampleOptions
  credentials := credentials
  paused := false
  flushMutex := none
  calls _ := .idle

theorem coldStart_boot (credentials : CredentialPolicy) : Boot (coldStart credentials) :=
  ⟨rfl, rfl, rfl, rfl, fun _ => rfl⟩

/-- Enqueue the items, then run caller 0 up to the moment its cycle has the
claimed rows in hand. -/
def claimRun (items : List NewItem) : List Label :=
  [.enqueue items, .call 0 .flush, .lock 0, .checkPaused 0, .readCredentials 0, .begin 0 2000,
    .cycle 0 .emitStarted, .cycle 0 .claim, .cycle 0 .resume]

/-- The dispatch at position `i`, from its start to the recorded answer. -/
def dispatchRun (i : Nat) (code : Int) : List Label :=
  [.cycle 0 (.dispatch i (.start 2001)), .cycle 0 (.dispatch i .send),
    .cycle 0 (.dispatch i (.respond (.response code))), .cycle 0 (.dispatch i (.settle 2100 0))]

/-- After a cycle has delivered its item, a second flush sends nothing. -/
theorem no_double_send_after_delivery :
    ∃ e, StepSystem.exec (step fun _ => true) (coldStart .TRUSTED)
        (claimRun [SyncQueueStorage.sampleItem "A"] ++ dispatchRun 0 200) = some e ∧
      ∀ ls e', StepSystem.exec (step fun _ => true) e ls = some e' →
        e'.requested "A" = e.requested "A" := by
  obtain ⟨e, he, hmem⟩ : ∃ e, StepSystem.exec (step fun _ => true) (coldStart .TRUSTED)
      (claimRun [SyncQueueStorage.sampleItem "A"] ++ dispatchRun 0 200) = some e ∧
      e.world.succeeded = ["A"] := ⟨_, rfl, rfl⟩
  refine ⟨e, he, (no_double_send ⟨_, _, coldStart_boot .TRUSTED, he⟩).2.2 "A" ?_⟩
  simp [hmem]

end Sample

end Engine

end SyncProvider.Android
