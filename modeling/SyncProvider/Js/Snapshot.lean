import SyncProvider.Lib.Replica
import Mathlib.Data.List.InsertIdx

/-!
# JS: `useSyncSnapshot`

The hook reads every field once when it is mounted, and again when an event says that the
field has changed. `isSyncing` is read once, and the events bring it. The reads land in any
order, and nothing asks whether another one has been sampled later.

The listener is registered, the hook stays mounted and its reads succeed. `isPaused`,
`progress` and `error` are left out.

Results:
1. `Faithful.simulates` : a field of the hook is a copy in the sense of `Replication`.
2. `synced_iff` : when the hook has come to what the engine is.
3. `stale_read_lands_last` : a hook that has not.
-/

open Replication (Replica Notice View Moves)

namespace SyncProvider.Js.Snapshot

variable {ι ρ V : Type}

/-! ## The model -/

inductive SyncEventType where
  | itemEnqueued
  | itemRemoved
  | syncStarted
  | syncProgress
  | syncSucceeded
  | syncFailed
  | itemSucceeded
  | itemFailed
  | itemRetrying
  | queueCleared
  | connectionChanged
  | paused
  | resumed
  | backgroundSyncStarted
  | backgroundSyncCompleted
  deriving DecidableEq

/-- `QUEUE_REFRESH_EVENTS`. -/
def SyncEventType.refreshesQueue : SyncEventType → Bool
  | .itemEnqueued | .itemRemoved | .queueCleared | .syncSucceeded | .syncFailed | .itemSucceeded
  | .itemFailed => true
  | .syncStarted | .syncProgress | .itemRetrying | .connectionChanged | .paused | .resumed
  | .backgroundSyncStarted | .backgroundSyncCompleted => false

inductive ConnectionStatus where
  | connected
  | disconnected
  | metered
  | unknown
  deriving DecidableEq

inductive ConnectionType where
  | wifi
  | cellular
  | ethernet
  | bluetooth
  | vpn
  | other
  | none
  | unknown
  deriving DecidableEq

structure Connection where
  status : ConnectionStatus
  type : ConnectionType
  deriving DecidableEq

/-- What the reads ask the engine for. -/
structure Engine (ι ρ : Type) where
  size : Nat
  items : List ι
  isSyncing : Bool
  connection : Connection
  lastResult : Option ρ
  deriving DecidableEq

/-- A change of the engine with its event. Only what the event is about is changed. -/
structure Update (ι ρ : Type) where
  event : SyncEventType
  size : Nat
  items : List ι
  connection : Connection
  /-- The result that a cycle records, if it records one. -/
  result : Option ρ
  deriving DecidableEq

def Engine.update (engine : Engine ι ρ) (u : Update ι ρ) : Engine ι ρ where
  size := if u.event.refreshesQueue then u.size else engine.size
  items := if u.event.refreshesQueue then u.items else engine.items
  isSyncing :=
    match u.event with
    | .syncStarted => true
    | .syncSucceeded | .syncFailed => false
    | _ => engine.isSyncing
  connection := if u.event = .connectionChanged then u.connection else engine.connection
  lastResult :=
    match u.event with
    | .syncSucceeded | .syncFailed => u.result.or engine.lastResult
    | _ => engine.lastResult

/-- The state of the hook. -/
structure Hook (ι ρ : Type) where
  size : Nat
  items : List ι
  isSyncing : Bool
  connection : Connection
  lastResult : Option ρ
  deriving DecidableEq

/-- The two reads of `refreshQueue`, which land together. -/
structure QueueRead (ι : Type) where
  size : Option Nat
  items : Option (List ι)
  deriving DecidableEq

/-- A read is `none` until it has been sampled. -/
structure State (ι ρ : Type) where
  engine : Engine ι ρ
  hook : Hook ι ρ
  /-- The events that are still to be delivered. -/
  events : List SyncEventType
  queueReads : List (QueueRead ι)
  syncingReads : List (Option Bool)
  connectionReads : List (Option Connection)
  resultReads : List (Option (Option ρ))
  deriving DecidableEq

/-- The effect has started the first reads. -/
def initial (engine : Engine ι ρ) : State ι ρ where
  engine := engine
  hook := ⟨0, [], false, ⟨.unknown, .unknown⟩, none⟩
  events := []
  queueReads := [⟨none, none⟩]
  syncingReads := [none]
  connectionReads := [none]
  resultReads := [none]

def refreshQueue (s : State ι ρ) : State ι ρ :=
  { s with queueReads := s.queueReads ++ [⟨none, none⟩] }

def refreshConnection (s : State ι ρ) : State ι ρ :=
  { s with connectionReads := s.connectionReads ++ [none] }

def refreshLastResult (s : State ι ρ) : State ι ρ :=
  { s with resultReads := s.resultReads ++ [none] }

/-- The listener. -/
def onEvent (s : State ι ρ) (event : SyncEventType) : State ι ρ :=
  let s := if event.refreshesQueue then refreshQueue s else s
  match event with
  | .syncStarted => { s with hook.isSyncing := true }
  | .syncSucceeded | .syncFailed => refreshLastResult { s with hook.isSyncing := false }
  | .connectionChanged => refreshConnection s
  | _ => s

inductive Label (ι ρ : Type) where
  /-- The engine changes, and emits the event. -/
  | emit (u : Update ι ρ)
  | deliver
  | sampleSize (k : Nat)
  | sampleItems (k : Nat)
  | landQueue (k : Nat)
  | sampleSyncing (k : Nat)
  | landSyncing (k : Nat)
  | sampleConnection (k : Nat)
  | landConnection (k : Nat)
  | sampleResult (k : Nat)
  | landResult (k : Nat)
  deriving DecidableEq

def step (s : State ι ρ) : Label ι ρ → Option (State ι ρ)
  | .emit u => some { s with engine := s.engine.update u, events := s.events ++ [u.event] }
  | .deliver =>
    match s.events with
    | [] => none
    | event :: rest => some (onEvent { s with events := rest } event)
  | .sampleSize k =>
    match s.queueReads[k]? with
    | some ⟨none, items⟩ =>
      some { s with queueReads := s.queueReads.set k ⟨some s.engine.size, items⟩ }
    | _ => none
  | .sampleItems k =>
    match s.queueReads[k]? with
    | some ⟨size, none⟩ =>
      some { s with queueReads := s.queueReads.set k ⟨size, some s.engine.items⟩ }
    | _ => none
  | .landQueue k =>
    match s.queueReads[k]? with
    | some ⟨some size, some items⟩ =>
      some { s with
        hook.size := size
        hook.items := items
        queueReads := s.queueReads.eraseIdx k }
    | _ => none
  | .sampleSyncing k =>
    match s.syncingReads[k]? with
    | some none => some { s with syncingReads := s.syncingReads.set k (some s.engine.isSyncing) }
    | _ => none
  | .landSyncing k =>
    match s.syncingReads[k]? with
    | some (some b) =>
      some { s with hook.isSyncing := b, syncingReads := s.syncingReads.eraseIdx k }
    | _ => none
  | .sampleConnection k =>
    match s.connectionReads[k]? with
    | some none =>
      some { s with connectionReads := s.connectionReads.set k (some s.engine.connection) }
    | _ => none
  | .landConnection k =>
    match s.connectionReads[k]? with
    | some (some snap) =>
      some { s with hook.connection := snap, connectionReads := s.connectionReads.eraseIdx k }
    | _ => none
  | .sampleResult k =>
    match s.resultReads[k]? with
    | some none => some { s with resultReads := s.resultReads.set k (some s.engine.lastResult) }
    | _ => none
  | .landResult k =>
    match s.resultReads[k]? with
    -- an `undefined` result is not set
    | some (some none) => some { s with resultReads := s.resultReads.eraseIdx k }
    | some (some (some res)) =>
      some { s with hook.lastResult := some res, resultReads := s.resultReads.eraseIdx k }
    | _ => none

/-! ## What is claimed -/

/-- Nothing is to come any more. -/
structure Settled (s : State ι ρ) : Prop where
  events : s.events = []
  queueReads : s.queueReads = []
  syncingReads : s.syncingReads = []
  connectionReads : s.connectionReads = []
  resultReads : s.resultReads = []

/-- The hook is what the engine is. -/
def Synced (s : State ι ρ) : Prop :=
  s.hook.size = s.engine.size ∧ s.hook.items = s.engine.items ∧
    s.hook.isSyncing = s.engine.isSyncing ∧ s.hook.connection = s.engine.connection ∧
    s.hook.lastResult = s.engine.lastResult

/-- A field of the hook, with what the events say of it and with its reads. -/
structure Field (ι ρ V : Type) where
  source : Engine ι ρ → V
  copy : Hook ι ρ → V
  notice : SyncEventType → Option (Notice V)
  reads : State ι ρ → List (Option V)
  label : Label ι ρ → Option (Replication.Label V)
  absent : V → Bool

namespace Field

def view (f : Field ι ρ V) : View (State ι ρ) (Label ι ρ) V where
  absent := f.absent
  view s :=
    { source := f.source s.engine
      copy := f.copy s.hook
      notices := s.events.filterMap f.notice
      reads := f.reads s }
  label s
    | .emit u => (f.notice u.event).map (.change (f.source (s.engine.update u)))
    | .deliver => (s.events.head?.bind f.notice).map fun _ => .deliver
    | l => f.label l
  refreshes
    | .emit u => (f.notice u.event).isSome
    | _ => false

end Field

/-- A field that `refreshQueue` reads. -/
def ofQueue (source : Engine ι ρ → V) (copy : Hook ι ρ → V) (part : QueueRead ι → Option V)
    (label : Label ι ρ → Option (Replication.Label V)) : Field ι ρ V where
  source := source
  copy := copy
  notice event := if event.refreshesQueue then some .reread else none
  reads s := s.queueReads.map part
  label := label
  absent _ := false

def size : Field ι ρ Nat :=
  ofQueue Engine.size Hook.size QueueRead.size fun
    | .sampleSize k => some (.sample k)
    | .landQueue k => some (.land k)
    | _ => none

def items : Field ι ρ (List ι) :=
  ofQueue Engine.items Hook.items QueueRead.items fun
    | .sampleItems k => some (.sample k)
    | .landQueue k => some (.land k)
    | _ => none

def isSyncing : Field ι ρ Bool where
  source engine := engine.isSyncing
  copy hook := hook.isSyncing
  notice
    | .syncStarted => some (.write true)
    | .syncSucceeded | .syncFailed => some (.write false)
    | _ => none
  reads s := s.syncingReads
  label
    | .sampleSyncing k => some (.sample k)
    | .landSyncing k => some (.land k)
    | _ => none
  absent _ := false

def connection : Field ι ρ Connection where
  source engine := engine.connection
  copy hook := hook.connection
  notice event := if event = .connectionChanged then some .reread else none
  reads s := s.connectionReads
  label
    | .sampleConnection k => some (.sample k)
    | .landConnection k => some (.land k)
    | _ => none
  absent _ := false

/-- `undefined` is absent. -/
def lastResult : Field ι ρ (Option ρ) where
  source engine := engine.lastResult
  copy hook := hook.lastResult
  notice
    | .syncSucceeded | .syncFailed => some .reread
    | _ => none
  reads s := s.resultReads
  label
    | .sampleResult k => some (.sample k)
    | .landResult k => some (.land k)
    | _ => none
  absent res := res.isNone

/-- Whenever a read of the field lands with something else than the engine has now, while no
event for the field is still to be delivered, and no other read of it is still to be sampled
or has been sampled with what the engine has now, an event for the field is emitted later. -/
def Field.Converges (f : Field ι ρ V) : State ι ρ → List (Label ι ρ) → Prop := f.view.Converges step

instance [DecidableEq V] (f : Field ι ρ V) (s : State ι ρ) (ls : List (Label ι ρ)) :
    Decidable (f.Converges s ls) :=
  inferInstanceAs (Decidable (f.view.Converges step s ls))

/-! ## 1. Fields are copies -/

variable {f : Field ι ρ V} {s s' : State ι ρ} {l : Label ι ρ}

/-- What a step of a read does. -/
inductive Reads (s : State ι ρ) : Label ι ρ → State ι ρ → Prop where
  | sampleSize {k : Nat} {items : Option (List ι)} (h : s.queueReads[k]? = some ⟨none, items⟩) :
    Reads s (.sampleSize k)
      { s with queueReads := s.queueReads.set k ⟨some s.engine.size, items⟩ }
  | sampleItems {k : Nat} {size : Option Nat} (h : s.queueReads[k]? = some ⟨size, none⟩) :
    Reads s (.sampleItems k)
      { s with queueReads := s.queueReads.set k ⟨size, some s.engine.items⟩ }
  | landQueue {k size : Nat} {items : List ι}
    (h : s.queueReads[k]? = some ⟨some size, some items⟩) :
    Reads s (.landQueue k)
      { s with
        hook.size := size
        hook.items := items
        queueReads := s.queueReads.eraseIdx k }
  | sampleSyncing {k : Nat} (h : s.syncingReads[k]? = some none) :
    Reads s (.sampleSyncing k)
      { s with syncingReads := s.syncingReads.set k (some s.engine.isSyncing) }
  | landSyncing {k : Nat} {b : Bool} (h : s.syncingReads[k]? = some (some b)) :
    Reads s (.landSyncing k)
      { s with hook.isSyncing := b, syncingReads := s.syncingReads.eraseIdx k }
  | sampleConnection {k : Nat} (h : s.connectionReads[k]? = some none) :
    Reads s (.sampleConnection k)
      { s with connectionReads := s.connectionReads.set k (some s.engine.connection) }
  | landConnection {k : Nat} {snap : Connection} (h : s.connectionReads[k]? = some (some snap)) :
    Reads s (.landConnection k)
      { s with hook.connection := snap, connectionReads := s.connectionReads.eraseIdx k }
  | sampleResult {k : Nat} (h : s.resultReads[k]? = some none) :
    Reads s (.sampleResult k)
      { s with resultReads := s.resultReads.set k (some s.engine.lastResult) }
  | landResult {k : Nat} {res : Option ρ} (h : s.resultReads[k]? = some (some res)) :
    Reads s (.landResult k)
      { s with
        hook.lastResult := Replication.land Option.isNone s.hook.lastResult res
        resultReads := s.resultReads.eraseIdx k }

theorem reads_of_step (h : step s l = some s') (hemit : ∀ u, l ≠ .emit u)
    (hdeliver : l ≠ .deliver) : Reads s l s' := by
  cases l with
  | emit u => exact absurd rfl (hemit u)
  | deliver => exact absurd rfl hdeliver
  | sampleSize k =>
    simp only [step] at h
    split at h <;> cases h
    exact .sampleSize ‹_›
  | sampleItems k =>
    simp only [step] at h
    split at h <;> cases h
    exact .sampleItems ‹_›
  | landQueue k =>
    simp only [step] at h
    split at h <;> cases h
    exact .landQueue ‹_›
  | sampleSyncing k =>
    simp only [step] at h
    split at h <;> cases h
    exact .sampleSyncing ‹_›
  | landSyncing k =>
    simp only [step] at h
    split at h <;> cases h
    exact .landSyncing ‹_›
  | sampleConnection k =>
    simp only [step] at h
    split at h <;> cases h
    exact .sampleConnection ‹_›
  | landConnection k =>
    simp only [step] at h
    split at h <;> cases h
    exact .landConnection ‹_›
  | sampleResult k =>
    simp only [step] at h
    split at h <;> cases h
    exact .sampleResult ‹_›
  | landResult k =>
    simp only [step] at h
    split at h <;> cases h
    · exact .landResult ‹_›
    · exact .landResult ‹_›

/-- What a field has to show. -/
structure Faithful (f : Field ι ρ V) : Prop where
  reads : ∀ s engine events, f.reads { s with engine := engine, events := events } = f.reads s
  quiet : ∀ engine u, f.notice u.event = none → f.source (engine.update u) = f.source engine
  emits : ∀ engine u notice, f.notice u.event = some notice →
    (notice = .reread ∨ notice = .write (f.source (engine.update u))) ∧
      (f.absent (f.source (engine.update u)) = true →
        f.source (engine.update u) = f.source engine)
  ignores : ∀ s event, f.notice event = none →
    f.copy (onEvent s event).hook = f.copy s.hook ∧ f.reads (onEvent s event) = f.reads s
  rereads : ∀ s event, f.notice event = some .reread →
    f.copy (onEvent s event).hook = f.copy s.hook ∧
      f.reads (onEvent s event) = f.reads s ++ [none]
  writes : ∀ s event v, f.notice event = some (.write v) →
    f.copy (onEvent s event).hook = v ∧ f.reads (onEvent s event) = f.reads s
  asks : ∀ l v notice, f.label l ≠ some (.change v notice)
  moves : ∀ s l s' l', Reads s l s' → f.label l = some l' →
    Moves f.absent (f.view.view s) l' (f.view.view s')
  stays : ∀ s l s', Reads s l s' → f.label l = none → f.view.view s' = f.view.view s

theorem onEvent_engine (s : State ι ρ) (event : SyncEventType) :
    (onEvent s event).engine = s.engine := by
  cases event <;> rfl

theorem onEvent_events (s : State ι ρ) (event : SyncEventType) :
    (onEvent s event).events = s.events := by
  cases event <;> rfl

/-- What a field shows of a delivery. -/
theorem view_onEvent (f : Field ι ρ V) (s : State ι ρ) (event : SyncEventType) :
    f.view.view (onEvent s event) = ⟨f.source s.engine, f.copy (onEvent s event).hook,
      s.events.filterMap f.notice, f.reads (onEvent s event)⟩ := by
  show (⟨f.source (onEvent s event).engine, f.copy (onEvent s event).hook,
    (onEvent s event).events.filterMap f.notice, f.reads (onEvent s event)⟩ : Replica V) = _
  rw [onEvent_engine, onEvent_events]

theorem step_deliver (h : step s .deliver = some s') :
    ∃ event rest, s.events = event :: rest ∧ s' = onEvent { s with events := rest } event := by
  simp only [step] at h
  split at h <;> cases h
  exact ⟨_, _, ‹_›, rfl⟩

theorem filterMap_emitted (f : Field ι ρ V) (events : List SyncEventType) (event : SyncEventType) :
    (events ++ [event]).filterMap f.notice =
      events.filterMap f.notice ++ (f.notice event).toList := by
  rw [List.filterMap_append]
  cases h : f.notice event with
  | none => simp [h]
  | some notice => simp [h]

theorem Faithful.emit_moves (h : Faithful f) (s : State ι ρ) (u : Update ι ρ) {notice : Notice V}
    (hnotice : f.notice u.event = some notice) :
    Moves f.absent (f.view.view s) (.change (f.source (s.engine.update u)) notice)
      (f.view.view { s with engine := s.engine.update u, events := s.events ++ [u.event] }) := by
  obtain ⟨hkind, habsent⟩ := h.emits s.engine u notice hnotice
  have hview : f.view.view { s with engine := s.engine.update u, events := s.events ++ [u.event] } =
      ⟨f.source (s.engine.update u), f.copy s.hook, s.events.filterMap f.notice ++ [notice],
        f.reads s⟩ := by
    show (⟨_, _, (s.events ++ [u.event]).filterMap f.notice, _⟩ : Replica V) = _
    rw [filterMap_emitted, hnotice, h.reads]
    rfl
  rw [hview]
  exact .changes habsent hkind

theorem Faithful.emit_stays (h : Faithful f) (s : State ι ρ) (u : Update ι ρ)
    (hnotice : f.notice u.event = none) :
    f.view.view { s with engine := s.engine.update u, events := s.events ++ [u.event] } =
      f.view.view s := by
  show (⟨f.source (s.engine.update u), f.copy s.hook, (s.events ++ [u.event]).filterMap f.notice,
    _⟩ : Replica V) = ⟨f.source s.engine, f.copy s.hook, s.events.filterMap f.notice, f.reads s⟩
  rw [filterMap_emitted, hnotice, h.reads, h.quiet _ _ hnotice, Option.toList_none, List.append_nil]

theorem Faithful.deliver_moves (h : Faithful f) {event : SyncEventType} {rest : List SyncEventType}
    (hevents : s.events = event :: rest) {notice : Notice V}
    (hnotice : f.notice event = some notice) :
    Moves f.absent (f.view.view s) .deliver
      (f.view.view (onEvent { s with events := rest } event)) := by
  have hnotices : (f.view.view s).notices = notice :: rest.filterMap f.notice := by
    show s.events.filterMap f.notice = _
    rw [hevents, List.filterMap_cons, hnotice]
  have hreads : f.reads { s with events := rest } = f.reads s := h.reads s s.engine rest
  rw [view_onEvent]
  cases notice with
  | reread =>
    obtain ⟨hcopy, hafter⟩ := h.rereads { s with events := rest } event hnotice
    rw [hcopy, hafter, hreads]
    exact .rereads hnotices
  | write v =>
    obtain ⟨hcopy, hafter⟩ := h.writes { s with events := rest } event v hnotice
    rw [hcopy, hafter, hreads]
    exact .writes hnotices

theorem Faithful.deliver_stays (h : Faithful f) {event : SyncEventType} {rest : List SyncEventType}
    (hevents : s.events = event :: rest) (hnotice : f.notice event = none) :
    f.view.view (onEvent { s with events := rest } event) = f.view.view s := by
  obtain ⟨hcopy, hafter⟩ := h.ignores { s with events := rest } event hnotice
  have hreads : f.reads { s with events := rest } = f.reads s := h.reads s s.engine rest
  rw [view_onEvent, hcopy, hafter, hreads]
  show (⟨_, _, rest.filterMap f.notice, _⟩ : Replica V) = ⟨_, _, s.events.filterMap f.notice, _⟩
  rw [hevents, List.filterMap_cons, hnotice]

/-- Every step of the hook is one of the copy, or leaves it as it is. -/
theorem Faithful.simulates (h : Faithful f) : f.view.Simulates step where
  moves s l s' l' hs hl := by
    cases l with
    | emit u =>
      obtain ⟨notice, hnotice, rfl⟩ := Option.map_eq_some_iff.mp hl
      cases hs
      exact h.emit_moves s u hnotice
    | deliver =>
      obtain ⟨event, rest, hevents, rfl⟩ := step_deliver hs
      obtain ⟨notice, hnotice, rfl⟩ := Option.map_eq_some_iff.mp hl
      rw [hevents] at hnotice
      exact h.deliver_moves hevents hnotice
    | sampleSize | sampleItems | landQueue | sampleSyncing | landSyncing | sampleConnection
    | landConnection | sampleResult | landResult =>
      refine h.moves _ _ _ _ (reads_of_step hs (fun u heq => ?_) fun heq => ?_) hl <;> cases heq
  stays s l s' hs hl := by
    cases l with
    | emit u =>
      cases hs
      exact h.emit_stays s u (Option.map_eq_none_iff.mp hl)
    | deliver =>
      obtain ⟨event, rest, hevents, rfl⟩ := step_deliver hs
      have hnotice := Option.map_eq_none_iff.mp hl
      rw [hevents] at hnotice
      exact h.deliver_stays hevents hnotice
    | sampleSize | sampleItems | landQueue | sampleSyncing | landSyncing | sampleConnection
    | landConnection | sampleResult | landResult =>
      refine h.stays _ _ _ (reads_of_step hs (fun u heq => ?_) fun heq => ?_) hl <;> cases heq
  refreshes s l := by
    cases l with
    | emit u =>
      show (f.notice u.event).isSome = true ↔ ∃ v notice, (f.notice u.event).map
        (Replication.Label.change (f.source (s.engine.update u))) = some (.change v notice)
      cases f.notice u.event with
      | none =>
        refine ⟨fun hsome => (by cases hsome), ?_⟩
        rintro ⟨v, notice, heq⟩
        cases heq
      | some notice => exact ⟨fun _ => ⟨_, notice, rfl⟩, fun _ => rfl⟩
    | deliver =>
      refine ⟨fun hsome => (by cases hsome), ?_⟩
      rintro ⟨v, notice, heq⟩
      obtain ⟨notice', -, heq⟩ := Option.map_eq_some_iff.mp heq
      cases heq
    | sampleSize | sampleItems | landQueue | sampleSyncing | landSyncing | sampleConnection
    | landConnection | sampleResult | landResult =>
      refine ⟨fun hsome => (by cases hsome), ?_⟩
      rintro ⟨v, notice, heq⟩
      exact absurd heq (h.asks _ v notice)

/-! ## 2. The fields of the hook -/

/-- A read of the queue is sampled, and its other half stays. -/
theorem map_set_of_eq {α β : Type} (g : α → β) {l : List α} {k : Nat} {x y : α}
    (h : l[k]? = some x) (hxy : g y = g x) : (l.set k y).map g = l.map g := by
  rw [List.map_set, hxy]
  refine List.ext_getElem? fun j => ?_
  by_cases hj : k = j
  · subst hj
    have hlt : k < (l.map g).length := by
      rw [List.length_map]
      exact (List.getElem?_eq_some_iff.mp h).1
    rw [List.getElem?_set_self hlt, List.getElem?_map, h]
    rfl
  · rw [List.getElem?_set_ne hj]

theorem faithful_ofQueue {source : Engine ι ρ → V} {copy : Hook ι ρ → V}
    {part : QueueRead ι → Option V} {label : Label ι ρ → Option (Replication.Label V)}
    (hquiet : ∀ engine u, u.event.refreshesQueue = false →
      source (engine.update u) = source engine)
    (hcopy : ∀ s event, copy (onEvent s event).hook = copy s.hook)
    (hpart : part ⟨none, none⟩ = none)
    (hasks : ∀ l v notice, label l ≠ some (.change v notice))
    (hmoves : ∀ s l s' l', Reads s l s' → label l = some l' →
      Moves (fun _ => false) ((ofQueue source copy part label).view.view s) l'
        ((ofQueue source copy part label).view.view s'))
    (hstays : ∀ s l s', Reads s l s' → label l = none →
      (ofQueue source copy part label).view.view s' =
        (ofQueue source copy part label).view.view s) :
    Faithful (ofQueue source copy part label) where
  reads _ _ _ := rfl
  quiet engine u h := by
    refine hquiet engine u (Bool.eq_false_iff.mpr fun hrefreshes => ?_)
    simp [ofQueue, hrefreshes] at h
  emits engine u notice h := by
    refine ⟨.inl ?_, fun habsent => by cases habsent⟩
    simp only [ofQueue] at h
    split at h <;> cases h
    rfl
  ignores s event h := by
    refine ⟨hcopy s event, ?_⟩
    cases event <;> first | rfl | cases h
  rereads s event h := by
    refine ⟨hcopy s event, ?_⟩
    have hadded : (refreshQueue s).queueReads.map part = s.queueReads.map part ++ [none] := by
      rw [refreshQueue, List.map_append, List.map_singleton, hpart]
    cases event <;> first | exact hadded | cases h
  writes s event v h := by
    cases event <;> cases h
  asks := hasks
  moves := hmoves
  stays := hstays

theorem faithful_size : Faithful (size : Field ι ρ Nat) := by
  refine faithful_ofQueue ?_ ?_ rfl ?_ ?_ ?_
  · intro engine u hquiet
    exact if_neg (by rw [hquiet]; exact Bool.false_ne_true)
  · intro s event
    cases event <;> rfl
  · intro l v notice h
    cases l <;> cases h
  · intro s l s' l' h hl
    cases h with
    | @sampleSize k items h =>
      cases hl
      refine Replication.moves_sample ?_ rfl rfl rfl List.map_set
      show (s.queueReads.map QueueRead.size)[k]? = some none
      rw [List.getElem?_map, h]
      rfl
    | @landQueue k size items h =>
      cases hl
      refine Replication.moves_land (v := size) ?_ rfl rfl rfl (List.eraseIdx_map _ _ _).symm
      show (s.queueReads.map QueueRead.size)[k]? = some (some size)
      rw [List.getElem?_map, h]
      rfl
    | sampleItems | sampleSyncing | landSyncing | sampleConnection | landConnection
    | sampleResult | landResult => cases hl
  · intro s l s' h hl
    cases h with
    | sampleSize | landQueue => cases hl
    | sampleItems h =>
      refine congrArg (Replica.mk s.engine.size s.hook.size (s.events.filterMap size.notice)) ?_
      exact map_set_of_eq QueueRead.size h rfl
    | sampleSyncing | landSyncing | sampleConnection | landConnection | sampleResult
    | landResult => rfl

theorem faithful_items : Faithful (items : Field ι ρ (List ι)) := by
  refine faithful_ofQueue ?_ ?_ rfl ?_ ?_ ?_
  · intro engine u hquiet
    exact if_neg (by rw [hquiet]; exact Bool.false_ne_true)
  · intro s event
    cases event <;> rfl
  · intro l v notice h
    cases l <;> cases h
  · intro s l s' l' h hl
    cases h with
    | @sampleItems k size h =>
      cases hl
      refine Replication.moves_sample ?_ rfl rfl rfl List.map_set
      show (s.queueReads.map QueueRead.items)[k]? = some none
      rw [List.getElem?_map, h]
      rfl
    | @landQueue k size items h =>
      cases hl
      refine Replication.moves_land (v := items) ?_ rfl rfl rfl (List.eraseIdx_map _ _ _).symm
      show (s.queueReads.map QueueRead.items)[k]? = some (some items)
      rw [List.getElem?_map, h]
      rfl
    | sampleSize | sampleSyncing | landSyncing | sampleConnection | landConnection
    | sampleResult | landResult => cases hl
  · intro s l s' h hl
    cases h with
    | sampleItems | landQueue => cases hl
    | sampleSize h =>
      refine congrArg (Replica.mk s.engine.items s.hook.items (s.events.filterMap items.notice)) ?_
      exact map_set_of_eq QueueRead.items h rfl
    | sampleSyncing | landSyncing | sampleConnection | landConnection | sampleResult
    | landResult => rfl

theorem faithful_isSyncing : Faithful (isSyncing : Field ι ρ Bool) where
  reads _ _ _ := rfl
  quiet engine u h := by
    obtain ⟨event, size, items, connection, result⟩ := u
    cases event <;> first | rfl | cases h
  emits engine u notice h := by
    refine ⟨.inr ?_, fun habsent => by cases habsent⟩
    obtain ⟨event, size, items, connection, result⟩ := u
    cases event <;> cases h <;> rfl
  ignores s event h := by
    cases event <;> first | exact ⟨rfl, rfl⟩ | cases h
  rereads s event h := by
    cases event <;> cases h
  writes s event v h := by
    cases event <;> cases h <;> exact ⟨rfl, rfl⟩
  asks l v notice h := by
    cases l <;> cases h
  moves s l s' l' h hl := by
    cases h with
    | sampleSyncing h =>
      cases hl
      exact Replication.moves_sample h rfl rfl rfl rfl
    | landSyncing h =>
      cases hl
      exact Replication.moves_land h rfl rfl rfl rfl
    | sampleSize | sampleItems | landQueue | sampleConnection | landConnection | sampleResult
    | landResult => cases hl
  stays s l s' h hl := by
    cases h with
    | sampleSyncing | landSyncing => cases hl
    | sampleSize | sampleItems | landQueue | sampleConnection | landConnection | sampleResult
    | landResult => rfl

theorem faithful_connection : Faithful (connection : Field ι ρ Connection) where
  reads _ _ _ := rfl
  quiet engine u h := by
    obtain ⟨event, size, items, connection, result⟩ := u
    cases event <;> first | rfl | cases h
  emits engine u notice h := by
    refine ⟨.inl ?_, fun habsent => by cases habsent⟩
    obtain ⟨event, size, items, connection, result⟩ := u
    cases event <;> cases h
    rfl
  ignores s event h := by
    cases event <;> first | exact ⟨rfl, rfl⟩ | cases h
  rereads s event h := by
    cases event <;> first | exact ⟨rfl, rfl⟩ | cases h
  writes s event v h := by
    cases event <;> cases h
  asks l v notice h := by
    cases l <;> cases h
  moves s l s' l' h hl := by
    cases h with
    | sampleConnection h =>
      cases hl
      exact Replication.moves_sample h rfl rfl rfl rfl
    | landConnection h =>
      cases hl
      exact Replication.moves_land h rfl rfl rfl rfl
    | sampleSize | sampleItems | landQueue | sampleSyncing | landSyncing | sampleResult
    | landResult => cases hl
  stays s l s' h hl := by
    cases h with
    | sampleConnection | landConnection => cases hl
    | sampleSize | sampleItems | landQueue | sampleSyncing | landSyncing | sampleResult
    | landResult => rfl

theorem faithful_lastResult : Faithful (lastResult : Field ι ρ (Option ρ)) where
  reads _ _ _ := rfl
  quiet engine u h := by
    obtain ⟨event, size, items, connection, result⟩ := u
    cases event <;> first | rfl | cases h
  emits engine u notice h := by
    obtain ⟨event, size, items, connection, result⟩ := u
    have hor (habsent : (result.or engine.lastResult).isNone = true) :
        result.or engine.lastResult = engine.lastResult := by
      cases result with
      | none => rfl
      | some res => cases habsent
    cases event <;> cases h <;> exact ⟨.inl rfl, hor⟩
  ignores s event h := by
    cases event <;> first | exact ⟨rfl, rfl⟩ | cases h
  rereads s event h := by
    cases event <;> first | exact ⟨rfl, rfl⟩ | cases h
  writes s event v h := by
    cases event <;> cases h
  asks l v notice h := by
    cases l <;> cases h
  moves s l s' l' h hl := by
    cases h with
    | sampleResult h =>
      cases hl
      exact Replication.moves_sample h rfl rfl rfl rfl
    | landResult h =>
      cases hl
      exact Replication.moves_land h rfl rfl rfl rfl
    | sampleSize | sampleItems | landQueue | sampleSyncing | landSyncing | sampleConnection
    | landConnection => cases hl
  stays s l s' h hl := by
    cases h with
    | sampleResult | landResult => cases hl
    | sampleSize | sampleItems | landQueue | sampleSyncing | landSyncing | sampleConnection
    | landConnection => rfl

/-! ## 3. What the hook comes to -/

/-- A read of a field is under way when the hook is mounted. -/
theorem inv_initial (f : Field ι ρ V) (engine : Engine ι ρ)
    (hreads : f.reads (initial engine) = [none])
    (habsent : f.absent (f.source engine) = true →
      f.copy (initial engine).hook = f.source engine) :
    Replication.Inv f.view.absent (f.view.view (initial engine)) where
  latest notice h := by cases h
  untouched h := by
    refine ⟨habsent h, (fun notice hmem => by cases hmem), fun v hv => ?_⟩
    change some v ∈ f.reads (initial engine) at hv
    rw [hreads] at hv
    cases List.mem_singleton.mp hv
  way := by
    refine .inr (.inr ⟨none, ?_, .inl rfl⟩)
    show none ∈ f.reads (initial engine)
    rw [hreads]
    exact List.mem_cons_self

/-- A field of a hook that has come to rest. -/
theorem Faithful.copy_iff (h : Faithful f) {engine : Engine ι ρ} {ls : List (Label ι ρ)}
    (hrun : StepSystem.exec step (initial engine) ls = some s) (hevents : s.events = [])
    (hreads : f.reads s = []) (hstart : f.reads (initial engine) = [none])
    (habsent : f.absent (f.source engine) = true →
      f.copy (initial engine).hook = f.source engine) :
    f.copy s.hook = f.source s.engine ↔ f.Converges (initial engine) ls := by
  refine View.last_iff h.simulates (inv_initial f engine hstart habsent) hrun ⟨?_, hreads⟩
  show s.events.filterMap f.notice = []
  rw [hevents]
  rfl

/-- A hook at rest is what the engine is exactly when, for every field, each read that is not
timely is made good by a later event. -/
theorem synced_iff (engine : Engine ι ρ) (ls : List (Label ι ρ)) (s : State ι ρ)
    (hrun : StepSystem.exec step (initial engine) ls = some s) (hsettled : Settled s) :
    Synced s ↔ size.Converges (initial engine) ls ∧ items.Converges (initial engine) ls ∧
      isSyncing.Converges (initial engine) ls ∧ connection.Converges (initial engine) ls ∧
      lastResult.Converges (initial engine) ls := by
  have hqueue {β : Type} (part : QueueRead ι → Option β) : s.queueReads.map part = [] := by
    rw [hsettled.queueReads]
    rfl
  have hundefined (h : engine.lastResult.isNone = true) : none = engine.lastResult :=
    (Option.isNone_iff_eq_none.mp h).symm
  refine and_congr ?_ (and_congr ?_ (and_congr ?_ (and_congr ?_ ?_)))
  · exact faithful_size.copy_iff hrun hsettled.events (hqueue _) rfl fun h => by cases h
  · exact faithful_items.copy_iff hrun hsettled.events (hqueue _) rfl fun h => by cases h
  · exact faithful_isSyncing.copy_iff hrun hsettled.events hsettled.syncingReads rfl
      fun h => by cases h
  · exact faithful_connection.copy_iff hrun hsettled.events hsettled.connectionReads rfl
      fun h => by cases h
  · exact faithful_lastResult.copy_iff hrun hsettled.events hsettled.resultReads rfl hundefined

/-- An engine with one item, that is online. -/
def idleEngine : Engine Nat Nat := ⟨1, [7], false, ⟨.connected, .wifi⟩, none⟩

/-- A change that is about nothing but its event. -/
def updateOf (event : SyncEventType) : Update Nat Nat :=
  ⟨event, 0, [], ⟨.unknown, .unknown⟩, none⟩

/-- A cycle begins and sends the item. The first read of `isSyncing` lands before the event,
and a read of the queue is overtaken by a later one that has seen the same. -/
def cycleRun : List (Label Nat Nat) :=
  [.sampleSyncing 0, .sampleSize 0, .sampleItems 0, .landQueue 0, .sampleConnection 0,
    .landConnection 0, .sampleResult 0, .landResult 0, .landSyncing 0,
    .emit (updateOf .syncStarted), .deliver, .emit (updateOf .itemSucceeded), .deliver,
    .emit { updateOf .syncSucceeded with result := some 3 }, .deliver, .sampleSize 0,
    .sampleSize 1, .sampleItems 1, .landQueue 1, .sampleItems 0, .landQueue 0, .sampleResult 0,
    .landResult 0]

theorem synced_of_cycle :
    ∃ s, StepSystem.exec step (initial idleEngine) cycleRun = some s ∧ Synced s := by
  have hrun : StepSystem.exec step (initial idleEngine) cycleRun =
      some ⟨⟨0, [], false, ⟨.connected, .wifi⟩, some 3⟩,
        ⟨0, [], false, ⟨.connected, .wifi⟩, some 3⟩, [], [], [], [], []⟩ := by decide
  exact ⟨_, hrun, (synced_iff _ _ _ hrun ⟨rfl, rfl, rfl, rfl, rfl⟩).mpr (by decide)⟩

/-- The first read of `isSyncing` is sampled before a cycle begins, and lands behind its
event. -/
def staleRun : List (Label Nat Nat) :=
  [.sampleSyncing 0, .sampleSize 0, .sampleItems 0, .landQueue 0, .sampleConnection 0,
    .landConnection 0, .sampleResult 0, .landResult 0, .emit (updateOf .syncStarted), .deliver,
    .landSyncing 0]

theorem stale_read_lands_last :
    ∃ s, StepSystem.exec step (initial idleEngine) staleRun = some s ∧ Settled s ∧
      s.engine.isSyncing = true ∧ s.hook.isSyncing = false ∧ ¬ Synced s := by
  refine ⟨⟨⟨1, [7], true, ⟨.connected, .wifi⟩, none⟩, ⟨1, [7], false, ⟨.connected, .wifi⟩, none⟩,
    [], [], [], [], []⟩, by decide, ⟨rfl, rfl, rfl, rfl, rfl⟩, rfl, rfl, fun hsynced => ?_⟩
  obtain ⟨-, -, hsyncing, -⟩ := hsynced
  cases hsyncing

end SyncProvider.Js.Snapshot
