import SyncProvider.Ios.Dispatch

/-!
# iOS: one flush cycle

`runCycle` as a step relation. A cycle fetches one batch and then works through
it item by item: claim, request, record. The `await`s are the phases of
`CyclePhase`, and at each of them the actor lets other calls in, the storage
serves others, and the process may die.

Results:
1. `Cycle.step_cases` : what one step of a cycle does.
2. `Cycle.step_spec` : what it can do to the queue.
-/

namespace SyncProvider.Ios

/-! ## What the parties share -/

/-- A recorded flush result, without its random id. -/
structure StoredSyncResult where
  startedAt : Int
  finishedAt : Int
  itemsAttempted : Nat
  itemsSucceeded : Nat
  itemsFailed : Nat
  errorMessage : Option String
  deriving DecidableEq

/-- The store, the state of the actor, and the history of what was done. -/
structure World where
  store : StoredItems
  /-- Every id that ever entered the store. -/
  issued : List String
  results : List StoredSyncResult
  isCycleRunning : Bool
  credentialHeldUntil : Option Int
  lastResult : Option StoredSyncResult
  /-- The HTTP requests started, in order. -/
  requests : List (String × URLRequest)
  /-- The ids whose attempt `markCredentialRejected` gave back, in order. -/
  refunds : List String
  events : List SyncEvent
  /-- The arguments `onCycleFinished` was called with. -/
  wakes : List (Option Int)

def World.emit (w : World) (event : SyncEvent) : World := { w with events := w.events ++ [event] }

/-! ## The cycle -/

inductive CyclePhase where
  /-- `getPending` is awaited, with the limit read when it was called. -/
  | fetching (limit : Int)
  /-- At the head of the dispatch loop. -/
  | looping (rest : List StoredSyncItem)
  | claiming (item : StoredSyncItem) (rest : List StoredSyncItem)
  /-- `markInFlight` ran. `before` are the attempts the row had, if it was there. -/
  | claimed (item : StoredSyncItem) (before : Option Int) (rest : List StoredSyncItem)
  /-- The request is built, `shouldUseBackgroundSession` is awaited. -/
  | prepared (item : StoredSyncItem) (before : Option Int) (rest : List StoredSyncItem)
    (sentWith : DispatcherConfig) (request : URLRequest)
  /-- The HTTP request is out. -/
  | onWire (item : StoredSyncItem) (rest : List StoredSyncItem) (sentWith : DispatcherConfig)
  | answered (item : StoredSyncItem) (rest : List StoredSyncItem) (sentWith : DispatcherConfig)
    (outcome : ItemDispatchOutcome)
  /-- Delivered, `remove` is awaited. -/
  | removing (item : StoredSyncItem) (rest : List StoredSyncItem) (statusCode : Option Int)
  /-- Failed, the write of the record is awaited. -/
  | recording (item : StoredSyncItem) (rest : List StoredSyncItem) (record : FailureRecord)
  /-- `recordResult` is awaited. -/
  | summarizing (nothingPending : Bool)
  /-- `isCycleRunning` is false again, `onCycleFinished` is awaited. -/
  | finishing (notBefore : Option Int)
  | finished
  deriving DecidableEq

/-- A running `runCycle`, with its counters. -/
structure Cycle where
  startedAt : Int
  total : Nat
  attempted : Nat
  succeededIds : List String
  failedIds : List String
  firstError : Option String
  phase : CyclePhase
  deriving DecidableEq

inductive CycleEvent where
  | fetch (nowMs : Int)
  | next
  | markInFlight (nowMs : Int)
  | prepare
  | send
  /-- The dispatch ends before the request starts. -/
  | sendFails (error : TransportError)
  | answer (statusCode : Option Int) (error : Option TransportError)
  | settle (sample : ℚ)
  | write (nowMs : Int)
  | summarize (nowMs : Int)
  /-- The awaited storage operation throws. -/
  | fail (code : SyncErrorCode)
  | finish
  deriving DecidableEq

namespace Cycle

def start (startedAt limit : Int) : Cycle where
  startedAt := startedAt
  total := 0
  attempted := 0
  succeededIds := []
  failedIds := []
  firstError := none
  phase := .fetching limit

def progressEvent (c : Cycle) : SyncEvent where
  type := "SYNC_PROGRESS"
  progress := some ((c.attempted : ℚ) / c.total)
  metadata := [("index", toString c.attempted), ("total", toString c.total)]

def succeededEvent (item : StoredSyncItem) (statusCode : Option Int) : SyncEvent where
  type := "ITEM_SUCCEEDED"
  itemId := item.id
  statusCode := statusCode
  attempt := some (item.attempts + 1)

def result (c : Cycle) (finishedAt : Int) : StoredSyncResult where
  startedAt := c.startedAt
  finishedAt := finishedAt
  itemsAttempted := c.attempted
  itemsSucceeded := c.succeededIds.length
  itemsFailed := c.failedIds.length
  errorMessage := c.firstError

def terminalEvent (c : Cycle) (nothingPending : Bool) : SyncEvent :=
  let attempted := ("attempted", toString c.attempted)
  let succeeded := ("succeeded", toString c.succeededIds.length)
  let failed := ("failed", toString c.failedIds.length)
  if nothingPending then
    { type := "SYNC_SUCCEEDED", metadata := [attempted, succeeded, failed] }
  else if c.failedIds.isEmpty then { type := "SYNC_SUCCEEDED", metadata := [attempted, succeeded] }
  else { type := "SYNC_FAILED", metadata := [attempted, succeeded, failed] }

/-- `finishCycle` up to its `await`. -/
def finishCycle (w : World) (c : Cycle) : World × Cycle :=
  ({ w with isCycleRunning := false, credentialHeldUntil := none },
    { c with phase := .finishing w.credentialHeldUntil })

/-- The write of a failed dispatch, and how the loop goes on after it. -/
def writeFailure (w : World) (c : Cycle) (item : StoredSyncItem) (rest : List StoredSyncItem)
    (record : FailureRecord) (nowMs : Int) : World × Cycle :=
  match record.write with
  | .markFailed errorCode =>
    ({ w with store := SyncItemDao.markFailed item.id errorCode w.store }.emit record.event,
      { c with
        failedIds := c.failedIds ++ [item.id]
        firstError := c.firstError <|> record.message
        phase := .looping rest })
  | .markPendingForRetry errorCode retryDelayMs =>
    ({ w with
        store := SyncItemDao.markPendingForRetry item.id errorCode retryDelayMs nowMs w.store }.emit
          record.event,
      { c with phase := .looping rest })
  | .markCredentialRejected errorCode retryDelayMs attempts =>
    -- the next item would carry the same rejected credential
    ({ w with
        store := SyncItemDao.markCredentialRejected item.id errorCode retryDelayMs attempts nowMs
          w.store
        refunds := w.refunds ++ [item.id]
        credentialHeldUntil := some (SyncItemDao.heldUntil retryDelayMs nowMs) }.emit record.event,
      { c with phase := .summarizing false })

/-- The phases that await a storage operation. -/
def inStorage : CyclePhase → Bool
  | .fetching _ | .claiming _ _ | .removing _ _ _ | .recording _ _ _ | .summarizing _ => true
  | _ => false

/-- One step of a cycle. `scheme` is the scheme of a url that parses, `config`
and `paused` are read at this moment. -/
def step (scheme : String → Option String) (config : DispatcherConfig) (paused : Bool) (w : World)
    (c : Cycle) (ev : CycleEvent) : Option (World × Cycle) :=
  match ev, c.phase with
  | .fetch nowMs, .fetching limit =>
    let pending := SyncItemDao.fetchPending nowMs limit w.store
    some (w, { c with
      total := pending.length
      phase := if pending.isEmpty then .summarizing true else .looping pending })
  | .next, .looping [] => some (w, { c with phase := .summarizing false })
  | .next, .looping (item :: rest) =>
    if paused then some (w, { c with phase := .summarizing false })
    else some (w, { c with attempted := c.attempted + 1, phase := .claiming item rest })
  | .markInFlight nowMs, .claiming item rest =>
    some ({ w with store := SyncItemDao.markInFlight item.id nowMs w.store },
      { c with phase := .claimed item ((w.store.find? item.id).map (·.attempts)) rest })
  | .prepare, .claimed item before rest =>
    if ((scheme item.url).map fun s => hasPrefix s "http") = some true then
      some (w, { c with phase := .prepared item before rest config (buildRequest config item) })
    else some (w, { c with phase := .answered item rest config (invalidUrl item) })
  | .send, .prepared item _ rest sentWith request =>
    some ({ w with requests := w.requests ++ [(item.id, request)] },
      { c with phase := .onWire item rest sentWith })
  | .sendFails error, .prepared item _ rest sentWith _ =>
    some (w, { c with
      phase := .answered item rest sentWith (classifyResponse item.id none (some error)) })
  | .answer statusCode error, .onWire item rest sentWith =>
    some (w, { c with
      phase := .answered item rest sentWith (classifyResponse item.id statusCode error) })
  | .settle sample, .answered item rest sentWith outcome =>
    if outcome.succeeded then
      some (w.emit c.progressEvent, { c with
        succeededIds := c.succeededIds ++ [item.id]
        phase := .removing item rest outcome.statusCode })
    else
      -- `config` is the live one, `sentWith` decides about the credential only
      let record := recordFailureOutcome config sentWith item outcome sample
      some (w.emit c.progressEvent, { c with phase := .recording item rest record })
  | .write _, .removing item rest statusCode =>
    some ({ w with store := (SyncItemDao.delete item.id w.store).1 }.emit
        (succeededEvent item statusCode),
      { c with phase := .looping rest })
  | .write nowMs, .recording item rest record => some (writeFailure w c item rest record nowMs)
  | .summarize nowMs, .summarizing nothingPending =>
    let result := c.result nowMs
    let w := { w with results := w.results ++ [result], lastResult := some result }
    some (finishCycle (w.emit (c.terminalEvent nothingPending)) c)
  | .fail code, phase =>
    if inStorage phase then
      some (finishCycle (w.emit { type := "SYNC_FAILED", errorCode := some code }) c)
    else none
  | .finish, .finishing notBefore =>
    some ({ w with wakes := w.wakes ++ [notBefore] }, { c with phase := .finished })
  | _, _ => none

/-- Between `SYNC_STARTED` and `finishCycle`. -/
def active (c : Cycle) : Bool :=
  match c.phase with
  | .finishing _ | .finished => false
  | _ => true

/-- The snapshots the cycle has not taken up yet. -/
def rest (c : Cycle) : List StoredSyncItem :=
  match c.phase with
  | .looping rest | .claiming _ rest | .claimed _ _ rest | .prepared _ _ rest _ _
  | .onWire _ rest _ | .answered _ rest _ _ | .removing _ rest _ | .recording _ rest _ => rest
  | _ => []

/-- The snapshots whose request may still be started. -/
def unsent (c : Cycle) : List StoredSyncItem :=
  match c.phase with
  | .claiming item rest | .claimed item _ rest | .prepared item _ rest _ _ => item :: rest
  | _ => c.rest

end Cycle

/-! ## 1. What a cycle can do -/

namespace Cycle

/-- What one step of a cycle does. -/
inductive Moves (scheme : String → Option String) (config : DispatcherConfig) (paused : Bool)
    (w : World) (c : Cycle) : CycleEvent → World → Cycle → Prop where
  | fetchNone {limit nowMs : Int} (hphase : c.phase = .fetching limit)
    (hnone : SyncItemDao.fetchPending nowMs limit w.store = []) :
    Moves scheme config paused w c (.fetch nowMs) w
      { c with total := 0, phase := .summarizing true }
  | fetch {limit nowMs : Int} {pending : List StoredSyncItem} (hphase : c.phase = .fetching limit)
    (hpending : SyncItemDao.fetchPending nowMs limit w.store = pending) (hsome : pending ≠ []) :
    Moves scheme config paused w c (.fetch nowMs) w
      { c with total := pending.length, phase := .looping pending }
  | leave {rest : List StoredSyncItem} (hphase : c.phase = .looping rest)
    (hleave : rest = [] ∨ paused = true) :
    Moves scheme config paused w c .next w { c with phase := .summarizing false }
  | take {item : StoredSyncItem} {rest : List StoredSyncItem}
    (hphase : c.phase = .looping (item :: rest)) (hpaused : paused = false) :
    Moves scheme config paused w c .next w
      { c with attempted := c.attempted + 1, phase := .claiming item rest }
  | markInFlight {item : StoredSyncItem} {rest : List StoredSyncItem} {nowMs : Int}
    (hphase : c.phase = .claiming item rest) :
    Moves scheme config paused w c (.markInFlight nowMs)
      { w with store := SyncItemDao.markInFlight item.id nowMs w.store }
      { c with phase := .claimed item ((w.store.find? item.id).map (·.attempts)) rest }
  | prepare {item : StoredSyncItem} {before : Option Int} {rest : List StoredSyncItem}
    (hphase : c.phase = .claimed item before rest)
    (hurl : ((scheme item.url).map fun s => hasPrefix s "http") = some true) :
    Moves scheme config paused w c .prepare w
      { c with phase := .prepared item before rest config (buildRequest config item) }
  | rejectUrl {item : StoredSyncItem} {before : Option Int} {rest : List StoredSyncItem}
    (hphase : c.phase = .claimed item before rest)
    (hurl : ((scheme item.url).map fun s => hasPrefix s "http") ≠ some true) :
    Moves scheme config paused w c .prepare w
      { c with phase := .answered item rest config (invalidUrl item) }
  | send {item : StoredSyncItem} {before : Option Int} {rest : List StoredSyncItem}
    {sentWith : DispatcherConfig} {request : URLRequest}
    (hphase : c.phase = .prepared item before rest sentWith request) :
    Moves scheme config paused w c .send
      { w with requests := w.requests ++ [(item.id, request)] }
      { c with phase := .onWire item rest sentWith }
  | sendFails {item : StoredSyncItem} {before : Option Int} {rest : List StoredSyncItem}
    {sentWith : DispatcherConfig} {request : URLRequest} {error : TransportError}
    (hphase : c.phase = .prepared item before rest sentWith request) :
    Moves scheme config paused w c (.sendFails error) w
      { c with
        phase := .answered item rest sentWith (classifyResponse item.id none (some error)) }
  | answer {item : StoredSyncItem} {rest : List StoredSyncItem} {sentWith : DispatcherConfig}
    {statusCode : Option Int} {error : Option TransportError}
    (hphase : c.phase = .onWire item rest sentWith) :
    Moves scheme config paused w c (.answer statusCode error) w
      { c with phase := .answered item rest sentWith (classifyResponse item.id statusCode error) }
  | succeed {item : StoredSyncItem} {rest : List StoredSyncItem} {sentWith : DispatcherConfig}
    {outcome : ItemDispatchOutcome} {sample : ℚ}
    (hphase : c.phase = .answered item rest sentWith outcome) (hok : outcome.succeeded = true) :
    Moves scheme config paused w c (.settle sample) (w.emit c.progressEvent)
      { c with
        succeededIds := c.succeededIds ++ [item.id]
        phase := .removing item rest outcome.statusCode }
  | failItem {item : StoredSyncItem} {rest : List StoredSyncItem} {sentWith : DispatcherConfig}
    {outcome : ItemDispatchOutcome} {sample : ℚ}
    (hphase : c.phase = .answered item rest sentWith outcome) (hok : outcome.succeeded = false) :
    Moves scheme config paused w c (.settle sample) (w.emit c.progressEvent)
      { c with
        phase := .recording item rest (recordFailureOutcome config sentWith item outcome sample) }
  | remove {item : StoredSyncItem} {rest : List StoredSyncItem} {statusCode : Option Int}
    {nowMs : Int} (hphase : c.phase = .removing item rest statusCode) :
    Moves scheme config paused w c (.write nowMs)
      ({ w with store := (SyncItemDao.delete item.id w.store).1 }.emit
        (succeededEvent item statusCode))
      { c with phase := .looping rest }
  | record {item : StoredSyncItem} {rest : List StoredSyncItem} {record : FailureRecord}
    {nowMs : Int} (hphase : c.phase = .recording item rest record) :
    Moves scheme config paused w c (.write nowMs)
      (writeFailure w c item rest record nowMs).1 (writeFailure w c item rest record nowMs).2
  | summarize {nothingPending : Bool} {nowMs : Int}
    (hphase : c.phase = .summarizing nothingPending) :
    Moves scheme config paused w c (.summarize nowMs)
      { w with
        results := w.results ++ [c.result nowMs]
        lastResult := some (c.result nowMs)
        events := w.events ++ [c.terminalEvent nothingPending]
        isCycleRunning := false
        credentialHeldUntil := none }
      { c with phase := .finishing w.credentialHeldUntil }
  | fail {code : SyncErrorCode} (hstorage : inStorage c.phase = true) :
    Moves scheme config paused w c (.fail code)
      { w.emit { type := "SYNC_FAILED", errorCode := some code } with
        isCycleRunning := false
        credentialHeldUntil := none }
      { c with phase := .finishing w.credentialHeldUntil }
  | finish {notBefore : Option Int} (hphase : c.phase = .finishing notBefore) :
    Moves scheme config paused w c .finish { w with wakes := w.wakes ++ [notBefore] }
      { c with phase := .finished }

theorem step_cases {scheme : String → Option String} {config : DispatcherConfig} {paused : Bool}
    {w w' : World} {c c' : Cycle} {ev : CycleEvent}
    (h : c.step scheme config paused w ev = some (w', c')) :
    Moves scheme config paused w c ev w' c' := by
  unfold step at h
  split at h
  · rename_i hphase
    cases hpending : SyncItemDao.fetchPending _ _ w.store with
    | nil =>
      rw [hpending] at h
      cases h
      exact .fetchNone hphase hpending
    | cons item rest =>
      rw [hpending] at h
      cases h
      exact .fetch hphase hpending (List.cons_ne_nil item rest)
  · cases h
    exact .leave ‹_› (.inl rfl)
  · split at h <;> cases h
    · exact .leave ‹_› (.inr ‹_›)
    · exact .take ‹_› (by simp_all)
  · cases h
    exact .markInFlight ‹_›
  · split at h <;> cases h
    · exact .prepare ‹_› ‹_›
    · exact .rejectUrl ‹_› ‹_›
  · cases h
    exact .send ‹_›
  · cases h
    exact .sendFails ‹_›
  · cases h
    exact .answer ‹_›
  · split at h <;> cases h
    · exact .succeed ‹_› ‹_›
    · exact .failItem ‹_› (by simp_all)
  · cases h
    exact .remove ‹_›
  · rename_i hphase
    simp only [Option.some.injEq] at h
    rw [← show _ = w' from congrArg Prod.fst h, ← show _ = c' from congrArg Prod.snd h]
    exact .record hphase
  · cases h
    exact .summarize ‹_›
  · split at h <;> cases h
    exact .fail ‹_›
  · cases h
    exact .finish ‹_›
  · cases h

/-- The write of a failed dispatch changes its row at most. -/
theorem writeFailure_spec (w : World) (c : Cycle) (item : StoredSyncItem)
    (rest : List StoredSyncItem) (record : FailureRecord) (nowMs : Int) :
    (writeFailure w c item rest record nowMs).1.issued = w.issued ∧
      (writeFailure w c item rest record nowMs).1.store.keys = w.store.keys ∧
      (writeFailure w c item rest record nowMs).1.requests = w.requests ∧
      ∀ x ∈ (writeFailure w c item rest record nowMs).2.unsent, x ∈ rest := by
  unfold writeFailure
  cases record.write with
  | markFailed errorCode => exact ⟨rfl, SyncItemDao.keys_markFailed .., rfl, fun _ h => h⟩
  | markPendingForRetry errorCode retryDelayMs =>
    exact ⟨rfl, SyncItemDao.keys_markPendingForRetry .., rfl, fun _ h => h⟩
  | markCredentialRejected errorCode retryDelayMs attempts =>
    exact ⟨rfl, SyncItemDao.keys_markCredentialRejected .., rfl, fun _ h => by cases h⟩

end Cycle

/-! ## 2. What a cycle can do to the queue -/

structure CycleSpec (w : World) (c : Cycle) (w' : World) (c' : Cycle) : Prop where
  issued : w'.issued = w.issued
  keys : w'.store.keys ⊆ w.store.keys
  unsent : ∀ x ∈ c'.unsent, x ∈ c.unsent ∨ x ∈ w.store.rows
  requests : w'.requests = w.requests ∨
    ∃ x ∈ c.unsent, ∃ request, w'.requests = w.requests ++ [(x.id, request)]

namespace Cycle

theorem step_spec {scheme : String → Option String} {config : DispatcherConfig} {paused : Bool}
    {w w' : World} {c c' : Cycle} {ev : CycleEvent}
    (h : c.step scheme config paused w ev = some (w', c')) : CycleSpec w c w' c' := by
  have hnone {x : StoredSyncItem} {p : Prop} (hx : x ∈ ([] : List StoredSyncItem)) : p := by
    cases hx
  cases step_cases h with
  | fetchNone hphase hnothing =>
    exact ⟨rfl, List.Subset.refl _, fun x hx => hnone hx, .inl rfl⟩
  | fetch hphase hpending hsome =>
    refine ⟨rfl, List.Subset.refl _, fun x hx => .inr ?_, .inl rfl⟩
    rw [← hpending] at hx
    exact (SyncItemDao.fetchPending_subset hx).1
  | leave hphase hleave => exact ⟨rfl, List.Subset.refl _, fun x hx => hnone hx, .inl rfl⟩
  | @take item rest hphase hpaused =>
    have hunsent : c.unsent = item :: rest := by rw [unsent, Cycle.rest, hphase]
    exact ⟨rfl, List.Subset.refl _, fun x hx => .inl (hunsent ▸ hx), .inl rfl⟩
  | @markInFlight item rest nowMs hphase =>
    have hunsent : c.unsent = item :: rest := by rw [unsent, hphase]
    refine ⟨rfl, ?_, fun x hx => .inl (hunsent ▸ hx), .inl rfl⟩
    rw [SyncItemDao.keys_markInFlight]
    exact List.Subset.refl _
  | @prepare item before rest hphase hurl =>
    have hunsent : c.unsent = item :: rest := by rw [unsent, hphase]
    exact ⟨rfl, List.Subset.refl _, fun x hx => .inl (hunsent ▸ hx), .inl rfl⟩
  | @rejectUrl item before rest hphase hurl =>
    have hunsent : c.unsent = item :: rest := by rw [unsent, hphase]
    exact ⟨rfl, List.Subset.refl _, fun x hx => .inl (hunsent ▸ List.mem_cons_of_mem _ hx),
      .inl rfl⟩
  | @send item before rest sentWith request hphase =>
    have hunsent : c.unsent = item :: rest := by rw [unsent, hphase]
    exact ⟨rfl, List.Subset.refl _, fun x hx => .inl (hunsent ▸ List.mem_cons_of_mem _ hx),
      .inr ⟨item, hunsent ▸ List.mem_cons_self, request, rfl⟩⟩
  | @sendFails item before rest sentWith request error hphase =>
    have hunsent : c.unsent = item :: rest := by rw [unsent, hphase]
    exact ⟨rfl, List.Subset.refl _, fun x hx => .inl (hunsent ▸ List.mem_cons_of_mem _ hx),
      .inl rfl⟩
  | @answer item rest sentWith statusCode error hphase =>
    have hunsent : c.unsent = rest := by rw [unsent, Cycle.rest, hphase]
    exact ⟨rfl, List.Subset.refl _, fun x hx => .inl (hunsent ▸ hx), .inl rfl⟩
  | @succeed item rest sentWith outcome sample hphase hok =>
    have hunsent : c.unsent = rest := by rw [unsent, Cycle.rest, hphase]
    exact ⟨rfl, List.Subset.refl _, fun x hx => .inl (hunsent ▸ hx), .inl rfl⟩
  | @failItem item rest sentWith outcome sample hphase hok =>
    have hunsent : c.unsent = rest := by rw [unsent, Cycle.rest, hphase]
    exact ⟨rfl, List.Subset.refl _, fun x hx => .inl (hunsent ▸ hx), .inl rfl⟩
  | @remove item rest statusCode nowMs hphase =>
    have hunsent : c.unsent = rest := by rw [unsent, Cycle.rest, hphase]
    exact ⟨rfl, KeyedTable.keys_deleteWhere_subset _ _, fun x hx => .inl (hunsent ▸ hx), .inl rfl⟩
  | @record item rest record nowMs hphase =>
    have hunsent : c.unsent = rest := by rw [unsent, Cycle.rest, hphase]
    obtain ⟨hissued, hkeys, hrequests, hrest⟩ := writeFailure_spec w c item rest record nowMs
    exact ⟨hissued, by rw [hkeys]; exact List.Subset.refl _,
      fun x hx => .inl (hunsent ▸ hrest x hx), .inl hrequests⟩
  | summarize hphase => exact ⟨rfl, List.Subset.refl _, fun x hx => hnone hx, .inl rfl⟩
  | fail hstorage => exact ⟨rfl, List.Subset.refl _, fun x hx => hnone hx, .inl rfl⟩
  | finish hphase => exact ⟨rfl, List.Subset.refl _, fun x hx => hnone hx, .inl rfl⟩

end Cycle

end SyncProvider.Ios
