import SyncProvider.Android.Dispatch
import Mathlib.Data.List.Basic

/-!
# Android: one flush cycle

`runCycle`, `abortCycle`, `dispatchClaimed` and `dispatchConcurrently` as a
step relation. A cycle is a coroutine with children: the suspension points are
the phases of `CyclePhase`, and each child is a `Dispatch` with a state of its
own, so any interleaving of the children, of the cycle and of its environment
is a sequence of steps.

A storage operation may still run when the coroutine is already cancelled,
because the cancellation can arrive after the operation was handed to its
dispatcher. What a cancelled coroutine cannot do is go on after it
(`CycleEvent.resume`, `join`). It throws instead (`CycleEvent.throw`).

Results:
1. `Dispatch.step_spec` : what one step of one dispatch can do.
2. `Cycle.step_moves` : the ways a phase of a cycle can end.
3. `Cycle.step_spec` : what one step of a cycle does to the rows.
-/

namespace SyncProvider.Android

/-! ## What the parties share -/

structure SyncResult where
  startedAt : Int
  finishedAt : Int
  successCount : Nat
  failureCount : Nat
  succeededIds : List String
  failedIds : List String
  errors : StringMap
  deriving DecidableEq

/-- The store, and the history of what was done. -/
structure World where
  table : SyncItems
  /-- Every id that ever entered the table. -/
  issued : List String
  /-- The `sync_results` rows. -/
  results : List SyncResult
  syncing : Bool
  /-- The HTTP requests started, in order. -/
  requests : List (String × HttpRequest)
  /-- The ids `markSucceeded` ran for, in order. -/
  succeeded : List String
  events : List SyncEvent
  /-- The arguments `onCycleFinished` was called with. -/
  wakes : List (Option Int)

namespace World

/-- Run the write that records an attempt. -/
def write (w : World) (s : StoreWrite) : World :=
  { w with
    table := s.run w.table
    succeeded := match s with
      | .markSucceeded id => w.succeeded ++ [id]
      | _ => w.succeeded }

def emit (w : World) (event : SyncEvent) : World := { w with events := w.events ++ [event] }

def resetInFlight (w : World) : World := { w with table := SyncItemDao.resetInFlight w.table }

end World

/-! ## One dispatch -/

/-- Where `dispatchRecordingOutcome` stands. -/
inductive DispatchState where
  /-- The coroutine exists and has not started. -/
  | queued
  /-- `startedAt` is read, the budget is not checked yet. -/
  | started (startedAt : Int)
  /-- The HTTP request is out. -/
  | requesting (startedAt : Int)
  | attempted (startedAt : Int) (result : AttemptResult)
  /-- The storage write ran, the event is not emitted yet. -/
  | settled (event : SyncEvent) (outcome : ItemOutcome)
  | done (outcome : ItemOutcome)
  deriving DecidableEq

structure Dispatch where
  entity : SyncItemEntity
  state : DispatchState
  deriving DecidableEq

inductive DispatchEvent where
  | start (now : Int)
  /-- The budget is already spent: `markFailed` runs. -/
  | refuse
  /-- Build the request and start it. -/
  | send
  | respond (r : CallResult)
  /-- `finishedAt` is read and the outcome is written. -/
  | settle (now : Int) (sample : ℚ)
  | emit
  /-- Something threw out of `dispatchItem`. -/
  | crash (message : String)
  deriving DecidableEq

def DispatchEvent.isStart : DispatchEvent → Bool
  | .start _ => true
  | _ => false

namespace Dispatch

/-- The request of this dispatch may still be started. -/
def unsent (d : Dispatch) : Bool :=
  match d.state with
  | .queued | .started _ => true
  | _ => false

/-- The request of this dispatch is out. -/
def onWire (d : Dispatch) : Bool :=
  match d.state with
  | .requesting _ => true
  | _ => false

/-- The dispatch has not started, or has finished. -/
def atRest (d : Dispatch) : Bool :=
  match d.state with
  | .queued | .done _ => true
  | _ => false

/-- A claimed row whose dispatch has not started. -/
def queue (entity : SyncItemEntity) : Dispatch where
  entity := entity
  state := .queued

def outcome? (d : Dispatch) : Option ItemOutcome :=
  match d.state with
  | .done outcome => some outcome
  | _ => none

def budgetSpent (d : Dispatch) (options : SyncOptions) : Bool :=
  RetryPolicyEvaluator.attemptBudget options.retryPolicy ≤ d.entity.attempts

/-- One step of a dispatch. `options` and `credentials` are the ones its cycle
was started with, `live` the options in force at this moment. -/
def step (accepts : HttpRequest → Bool) (live options : SyncOptions)
    (credentials : CredentialPolicy) (w : World) (d : Dispatch) (ev : DispatchEvent) :
    Option (World × Dispatch) :=
  match ev, d.state with
  | .start now, .queued => some (w, { d with state := .started now })
  | .refuse, .started startedAt =>
    if d.budgetSpent options then
      let s := Android.refuse d.entity startedAt
      some (w.write s.write, { d with state := .settled s.event s.outcome })
    else none
  | .send, .started startedAt =>
    if d.budgetSpent options then none
    else match buildRequest accepts d.entity options.defaultHeaders with
      | none => some (w, { d with state := .attempted startedAt (buildFailure d.entity) })
      | some request =>
        some ({ w with requests := w.requests ++ [(d.entity.id, request)] },
          { d with state := .requesting startedAt })
  | .respond r, .requesting startedAt =>
    -- `getOptions().retryPolicy`, not the policy of the cycle
    let result := classify live.retryPolicy (requestTimeout options) r
    some (w, { d with state := .attempted startedAt result })
  | .settle now sample, .attempted startedAt result =>
    let s := Android.settle options credentials d.entity startedAt now sample result
    some (w.write s.write, { d with state := .settled s.event s.outcome })
  | .emit, .settled event outcome => some (w.emit event, { d with state := .done outcome })
  | .crash message, .started _ | .crash message, .attempted _ _ | .crash message, .settled _ _ =>
    -- `runCatching` turns whatever was thrown into an outcome
    some (w, { d with state := .done (.failed d.entity.id .NETWORK_ERROR message) })
  | _, _ => none

end Dispatch

/-! ## The cycle -/

/-- What ended a cycle early. -/
inductive AbortCause where
  | cancelled
  /-- Another exception, with the code it carries when it is a `SyncException`. -/
  | failed (code : Option SyncErrorCode)
  deriving DecidableEq

def AbortCause.errorCode : AbortCause → SyncErrorCode
  | .cancelled => .NETWORK_ERROR
  | .failed code => code.getD .NETWORK_ERROR

inductive CyclePhase where
  /-- About to emit `SYNC_STARTED`. -/
  | starting
  | claiming
  /-- `claimPending` ran and the cycle has not resumed yet. -/
  | claimed (rows : List SyncItemEntity)
  /-- The claimed rows are dispatched, one at first while `probing`. -/
  | dispatching (probing : Bool) (dispatches : List Dispatch)
  /-- The probe was rejected, the rest of the batch is to be released. -/
  | releasing (first : ItemOutcome)
  | recording (outcomes : List ItemOutcome)
  /-- `recordResult` ran and the cycle has not resumed yet. -/
  | recorded (result : SyncResult) (notBefore : Option Int)
  /-- `terminalEventSent` is set, the event is to be emitted. -/
  | reporting (result : SyncResult) (notBefore : Option Int)
  /-- The terminal event is out and the cycle has not resumed yet. -/
  | reported (notBefore : Option Int)
  /-- In `abortCycle`. -/
  | aborting (cause : AbortCause) (terminalEventSent : Bool) (notBefore : Option Int)
  | failing (cause : AbortCause) (notBefore : Option Int)
  /-- `syncing` is false again, `onCycleFinished` is to be called. -/
  | finishing (notBefore : Option Int)
  | finished
  deriving DecidableEq

/-- A running `runCycle`, with its arguments. -/
structure Cycle where
  options : SyncOptions
  credentials : CredentialPolicy
  startedAt : Int
  phase : CyclePhase
  deriving DecidableEq

inductive CycleEvent where
  | emitStarted
  | claim
  | resume
  | dispatch (i : Nat) (ev : DispatchEvent)
  /-- The probe is done. -/
  | probed
  | release
  | join
  | record (now : Int)
  | emitTerminal
  /-- The suspended call throws `CancellationException`. -/
  | throw
  /-- A storage operation of the cycle throws. -/
  | raise (code : Option SyncErrorCode)
  | abort
  | emitFailed
  | finish
  deriving DecidableEq

namespace Cycle

def DEFAULT_BATCH_SIZE : Int := 25

def batchSize (options : SyncOptions) : Int :=
  max ((options.batchSize.map Double.toInt32).getD DEFAULT_BATCH_SIZE) 1

/-- The latest hold among the rejected credentials. -/
def holdOf (outcomes : List ItemOutcome) : Option Int :=
  (outcomes.filterMap fun
    | .credentialRejected _ nextRetryAt => some nextRetryAt
    | _ => none).max?

/-- Rescheduled and held items count as neither success nor failure. The ids of
one cycle are distinct, so no error replaces another. -/
def buildResult (startedAt finishedAt : Int) (outcomes : List ItemOutcome) : SyncResult :=
  let succeeded := outcomes.filterMap fun
    | .succeeded itemId _ => some itemId
    | _ => none
  let failed := outcomes.filterMap fun
    | .failed itemId code message => some (itemId, code.name ++ ": " ++ message)
    | _ => none
  { startedAt := startedAt
    finishedAt := finishedAt
    successCount := succeeded.length
    failureCount := failed.length
    succeededIds := succeeded
    failedIds := failed.map (·.1)
    errors := failed }

def terminalEvent (result : SyncResult) : SyncEvent where
  type := if result.failedIds.isEmpty then .SYNC_SUCCEEDED else .SYNC_FAILED

/-- Whether a dispatch of this phase may start now. The probe runs in
`NonCancellable`, a queued child of the supervisor scope does not. -/
def mayStart (probing cancelled : Bool) (i : Nat) : Bool := if probing then i == 0 else !cancelled

/-- The phase in which `abortCycle` begins, when the suspended call of this
phase throws. While the probe runs, or while a dispatch is under way, nothing
is thrown: both are waited for. -/
def thrown (cause : AbortCause) : CyclePhase → Option CyclePhase
  | .starting | .claiming | .claimed _ | .releasing _ => some (.aborting cause false none)
  | .dispatching false dispatches =>
    if dispatches.all Dispatch.atRest then some (.aborting cause false none) else none
  | .recording outcomes => some (.aborting cause false (holdOf outcomes))
  | .recorded _ notBefore => some (.aborting cause false notBefore)
  | .reporting _ notBefore | .reported notBefore => some (.aborting cause true notBefore)
  | _ => none

/-- The phases whose suspended call is a storage operation. -/
def inStorage : CyclePhase → Bool
  | .claiming | .releasing _ | .recording _ => true
  | _ => false

/-- One step of a cycle. `live` are the options in force at this moment, and
`cancelled` says whether the coroutine is cancelled. -/
def step (accepts : HttpRequest → Bool) (live : SyncOptions) (cancelled : Bool) (w : World)
    (c : Cycle) (ev : CycleEvent) : Option (World × Cycle) :=
  match ev, c.phase with
  | .emitStarted, .starting =>
    some (w.emit { type := .SYNC_STARTED }, { c with phase := .claiming })
  | .claim, .claiming =>
    let (table, rows) := SyncItemDao.claimPending c.startedAt (batchSize c.options) w.table
    some ({ w with table := table }, { c with phase := .claimed rows })
  | .resume, .claimed rows =>
    if cancelled then none
    else if rows.isEmpty then some (w, { c with phase := .recording [] })
    else
      some (w,
        { c with phase := .dispatching (c.credentials == .PERSISTED) (rows.map Dispatch.queue) })
  | .dispatch i ev, .dispatching probing dispatches =>
    if ev.isStart && !mayStart probing cancelled i then none
    else dispatches[i]?.bind fun d =>
      (d.step accepts live c.options c.credentials w ev).map fun (w', d') =>
        (w', { c with phase := .dispatching probing (dispatches.set i d') })
  | .probed, .dispatching true dispatches =>
    match dispatches.head?.bind Dispatch.outcome? with
    | some (.credentialRejected id nextRetryAt) =>
      some (w, { c with phase := .releasing (.credentialRejected id nextRetryAt) })
    | some _ => some (w, { c with phase := .dispatching false dispatches })
    | none => none
  | .release, .releasing first => some (w.resetInFlight, { c with phase := .recording [first] })
  | .join, .dispatching false dispatches =>
    if cancelled then none
    else (dispatches.mapM Dispatch.outcome?).map fun outcomes =>
      (w, { c with phase := .recording outcomes })
  | .record now, .recording outcomes =>
    let result := buildResult c.startedAt now outcomes
    some ({ w with results := w.results ++ [result] },
      { c with phase := .recorded result (holdOf outcomes) })
  | .resume, .recorded result notBefore =>
    if cancelled then none else some (w, { c with phase := .reporting result notBefore })
  | .emitTerminal, .reporting result notBefore =>
    some (w.emit (terminalEvent result), { c with phase := .reported notBefore })
  | .resume, .reported notBefore =>
    if cancelled then none
    else some ({ w with syncing := false }, { c with phase := .finishing notBefore })
  | .throw, phase =>
    if cancelled then (thrown .cancelled phase).map fun phase' => (w, { c with phase := phase' })
    else none
  | .raise code, phase =>
    if inStorage phase then
      (thrown (.failed code) phase).map fun phase' => (w, { c with phase := phase' })
    else none
  | .abort, .aborting cause terminalEventSent notBefore =>
    -- any row still `IN_FLIGHT` is one that never started
    let w := if cause = .cancelled then w.resetInFlight else w
    if terminalEventSent then
      some ({ w with syncing := false }, { c with phase := .finishing notBefore })
    else some (w, { c with phase := .failing cause notBefore })
  | .emitFailed, .failing cause notBefore =>
    some ({ w.emit { type := .SYNC_FAILED, errorCode := some cause.errorCode } with
        syncing := false },
      { c with phase := .finishing notBefore })
  | .finish, .finishing notBefore =>
    some ({ w with wakes := w.wakes ++ [notBefore] }, { c with phase := .finished })
  | _, _ => none

/-- The rows the cycle has in hand, each with its state. -/
def dispatches (c : Cycle) : List Dispatch :=
  match c.phase with
  | .claimed rows => rows.map Dispatch.queue
  | .dispatching _ dispatches => dispatches
  | _ => []

/-- The ids of the rows in hand. -/
def ids (c : Cycle) : List String := c.dispatches.map (·.entity.id)

/-- The ids in hand whose request may still be started. -/
def unsent (c : Cycle) : List String := (c.dispatches.filter Dispatch.unsent).map (·.entity.id)

end Cycle

/-! ## 1. What a dispatch can do -/

theorem World.issued_write (w : World) (s : StoreWrite) : (w.write s).issued = w.issued := rfl

theorem World.requests_write (w : World) (s : StoreWrite) :
    (w.write s).requests = w.requests := rfl

theorem World.keys_write_subset (w : World) (s : StoreWrite) :
    (w.write s).table.keys ⊆ w.table.keys :=
  s.keys_run_subset w.table

/-- A write that adds to `succeeded` has taken its row out of the table. -/
theorem World.succeeded_write (w : World) (s : StoreWrite) :
    (w.write s).succeeded = w.succeeded ∨
      (w.write s).succeeded = w.succeeded ++ [s.id] ∧ s.id ∉ (w.write s).table.keys := by
  cases s with
  | markSucceeded id =>
    refine .inr ⟨rfl, fun h => ?_⟩
    exact (SyncItemDao.mem_deleteById.mp h).2 rfl
  | markRetry => exact .inl rfl
  | markFailed => exact .inl rfl

namespace Dispatch

/-- The step a dispatch takes, with what it takes it from. -/
inductive Moves (accepts : HttpRequest → Bool) (live options : SyncOptions)
    (credentials : CredentialPolicy) (w : World) :
    Dispatch → DispatchEvent → World → Dispatch → Prop where
  | start {entity : SyncItemEntity} {now : Int} :
      Moves accepts live options credentials w ⟨entity, .queued⟩ (.start now)
        w ⟨entity, .started now⟩
  | refuse {entity : SyncItemEntity} {startedAt : Int}
      (hspent : budgetSpent ⟨entity, .started startedAt⟩ options = true) :
      Moves accepts live options credentials w ⟨entity, .started startedAt⟩ .refuse
        (w.write (Android.refuse entity startedAt).write)
        ⟨entity, .settled (Android.refuse entity startedAt).event
          (Android.refuse entity startedAt).outcome⟩
  | unbuilt {entity : SyncItemEntity} {startedAt : Int}
      (hbudget : ¬ budgetSpent ⟨entity, .started startedAt⟩ options = true)
      (hbuild : buildRequest accepts entity options.defaultHeaders = none) :
      Moves accepts live options credentials w ⟨entity, .started startedAt⟩ .send
        w ⟨entity, .attempted startedAt (buildFailure entity)⟩
  | send {entity : SyncItemEntity} {startedAt : Int} {request : HttpRequest}
      (hbudget : ¬ budgetSpent ⟨entity, .started startedAt⟩ options = true)
      (hbuild : buildRequest accepts entity options.defaultHeaders = some request) :
      Moves accepts live options credentials w ⟨entity, .started startedAt⟩ .send
        { w with requests := w.requests ++ [(entity.id, request)] }
        ⟨entity, .requesting startedAt⟩
  | respond {entity : SyncItemEntity} {startedAt : Int} {r : CallResult} :
      Moves accepts live options credentials w ⟨entity, .requesting startedAt⟩ (.respond r)
        w ⟨entity, .attempted startedAt
          (classify live.retryPolicy (requestTimeout options) r)⟩
  | settle {entity : SyncItemEntity} {startedAt now : Int} {sample : ℚ}
      {result : AttemptResult} :
      Moves accepts live options credentials w ⟨entity, .attempted startedAt result⟩
        (.settle now sample)
        (w.write
          (Android.settle options credentials entity startedAt now sample result).write)
        ⟨entity, .settled
          (Android.settle options credentials entity startedAt now sample result).event
          (Android.settle options credentials entity startedAt now sample result).outcome⟩
  | emit {entity : SyncItemEntity} {event : SyncEvent} {outcome : ItemOutcome} :
      Moves accepts live options credentials w ⟨entity, .settled event outcome⟩ .emit
        (w.emit event) ⟨entity, .done outcome⟩
  | crash {entity : SyncItemEntity} {state : DispatchState} {message : String}
      (hlive : atRest ⟨entity, state⟩ = false) (hwire : onWire ⟨entity, state⟩ = false) :
      Moves accepts live options credentials w ⟨entity, state⟩ (.crash message)
        w ⟨entity, .done (.failed entity.id .NETWORK_ERROR message)⟩

theorem step_moves {accepts : HttpRequest → Bool} {live options : SyncOptions}
    {credentials : CredentialPolicy} {w w' : World} {d d' : Dispatch} {ev : DispatchEvent}
    (h : d.step accepts live options credentials w ev = some (w', d')) :
    Moves accepts live options credentials w d ev w' d' := by
  obtain ⟨entity, state⟩ := d
  cases ev with
  | start now =>
    cases state <;> cases h
    exact .start
  | refuse =>
    cases state <;> simp only [step, reduceCtorEq, Option.ite_none_right_eq_some] at h
    obtain ⟨hspent, h⟩ := h
    cases h
    exact .refuse hspent
  | send =>
    cases state with
    | started startedAt =>
      simp only [step, Option.ite_none_left_eq_some] at h
      obtain ⟨hbudget, h⟩ := h
      split at h <;> cases h
      · exact .unbuilt hbudget ‹_›
      · exact .send hbudget ‹_›
    | _ => cases h
  | respond r =>
    cases state <;> cases h
    exact .respond
  | settle now sample =>
    cases state <;> cases h
    exact .settle
  | emit =>
    cases state <;> cases h
    exact .emit
  | crash message =>
    cases state <;> cases h
    all_goals exact .crash rfl rfl

end Dispatch

/-- What one step of a dispatch can do. -/
structure DispatchSpec (w : World) (d : Dispatch) (w' : World) (d' : Dispatch) : Prop where
  entity : d'.entity = d.entity
  issued : w'.issued = w.issued
  keys : w'.table.keys ⊆ w.table.keys
  unsent : d'.unsent = true → d.unsent = true
  requests : w'.requests = w.requests ∨
    d.unsent = true ∧ ∃ request, w'.requests = w.requests ++ [(d.entity.id, request)]
  succeeded : w'.succeeded = w.succeeded ∨
    w'.succeeded = w.succeeded ++ [d.entity.id] ∧ d.entity.id ∉ w'.table.keys ∧ d'.unsent = false

namespace DispatchSpec

/-- A step that leaves the world alone. -/
theorem of_world {w : World} {d d' : Dispatch} (he : d'.entity = d.entity)
    (hu : d'.unsent = true → d.unsent = true) : DispatchSpec w d w d' :=
  ⟨he, rfl, List.Subset.refl _, hu, .inl rfl, .inl rfl⟩

/-- A step that writes about its own row. -/
theorem of_write {w : World} {d d' : Dispatch} {s : StoreWrite} (he : d'.entity = d.entity)
    (hs : s.id = d.entity.id) (hu : d'.unsent = false) : DispatchSpec w d (w.write s) d' where
  entity := he
  issued := w.issued_write s
  keys := w.keys_write_subset s
  unsent := by simp [hu]
  requests := .inl (w.requests_write s)
  succeeded := by
    rcases w.succeeded_write s with h | ⟨h, hkey⟩
    · exact .inl h
    · exact .inr ⟨hs ▸ h, hs ▸ hkey, hu⟩

end DispatchSpec

theorem Dispatch.step_spec {accepts : HttpRequest → Bool} {live options : SyncOptions}
    {credentials : CredentialPolicy} {w w' : World} {d d' : Dispatch} {ev : DispatchEvent}
    (h : d.step accepts live options credentials w ev = some (w', d')) :
    DispatchSpec w d w' d' := by
  cases step_moves h with
  | start | unbuilt => exact .of_world rfl fun _ => rfl
  | refuse => exact .of_write rfl rfl rfl
  | send => exact ⟨rfl, rfl, List.Subset.refl _, fun _ => rfl, .inr ⟨rfl, _, rfl⟩, .inl rfl⟩
  | respond | crash => exact .of_world rfl (by simp [unsent])
  | settle => exact .of_write rfl (settle_write_id ..) rfl
  | emit => exact ⟨rfl, rfl, List.Subset.refl _, by simp [unsent], .inl rfl, .inl rfl⟩

namespace Dispatch

theorem done_of_outcome {d : Dispatch} {outcome : ItemOutcome} (h : d.outcome? = some outcome) :
    d.state = .done outcome := by
  unfold outcome? at h
  split at h <;> cases h
  assumption

theorem atRest_of_outcome {d : Dispatch} {outcome : ItemOutcome} (h : d.outcome? = some outcome) :
    d.atRest = true := by
  simp [atRest, done_of_outcome h]

/-- The outcomes of a batch, in the order of its rows. -/
theorem map_outcome_of_mapM {ds : List Dispatch} {outcomes : List ItemOutcome}
    (h : ds.mapM outcome? = some outcomes) : ds.map outcome? = outcomes.map some := by
  induction ds generalizing outcomes with
  | nil =>
    cases h
    rfl
  | cons x xs ih =>
    simp only [List.mapM_cons, Option.bind_eq_bind, Option.bind_eq_some_iff] at h
    obtain ⟨outcome, hx, rest, hrest, heq⟩ := h
    cases heq
    rw [List.map_cons, List.map_cons, hx, ih hrest]

theorem outcome_of_mapM {ds : List Dispatch} {outcomes : List ItemOutcome}
    (h : ds.mapM outcome? = some outcomes) {d : Dispatch} (hd : d ∈ ds) :
    ∃ outcome, d.outcome? = some outcome := by
  have hmem : d.outcome? ∈ outcomes.map some := map_outcome_of_mapM h ▸ List.mem_map_of_mem hd
  obtain ⟨outcome, -, houtcome⟩ := List.mem_map.mp hmem
  exact ⟨outcome, houtcome.symm⟩

theorem mem_of_mapM {ds : List Dispatch} {outcomes : List ItemOutcome}
    (h : ds.mapM outcome? = some outcomes) {outcome : ItemOutcome} (hmem : outcome ∈ outcomes) :
    ∃ d ∈ ds, d.outcome? = some outcome := by
  have hmap : some outcome ∈ ds.map outcome? := map_outcome_of_mapM h ▸ List.mem_map_of_mem hmem
  exact List.mem_map.mp hmap

end Dispatch

/-! ## 2. What a cycle can do -/

namespace Cycle

variable {accepts : HttpRequest → Bool} {live : SyncOptions} {cancelled : Bool} {w w' : World}
  {c c' : Cycle} {ev : CycleEvent}

/-- The steps of a cycle, one constructor for each way a phase can end. -/
inductive Moves (accepts : HttpRequest → Bool) (live : SyncOptions) (cancelled : Bool) (w : World)
    (c : Cycle) : CycleEvent → World → CyclePhase → Prop where
  | emitStarted (hphase : c.phase = .starting) :
    Moves accepts live cancelled w c .emitStarted (w.emit { type := .SYNC_STARTED }) .claiming
  | claim (hphase : c.phase = .claiming) :
    Moves accepts live cancelled w c .claim
      { w with table := (SyncItemDao.claimPending c.startedAt (batchSize c.options) w.table).1 }
      (.claimed (SyncItemDao.claimPending c.startedAt (batchSize c.options) w.table).2)
  | resumeEmpty (hphase : c.phase = .claimed []) (hlive : cancelled = false) :
    Moves accepts live cancelled w c .resume w (.recording [])
  | resumeClaimed {rows : List SyncItemEntity} (hphase : c.phase = .claimed rows)
      (hsome : rows ≠ []) (hlive : cancelled = false) :
    Moves accepts live cancelled w c .resume w
      (.dispatching (c.credentials == .PERSISTED) (rows.map Dispatch.queue))
  | dispatch {probing : Bool} {ds : List Dispatch} {i : Nat} {dev : DispatchEvent}
      {d d' : Dispatch} {w' : World} (hphase : c.phase = .dispatching probing ds)
      (hstart : dev.isStart = true → mayStart probing cancelled i = true) (hi : ds[i]? = some d)
      (hstep : d.step accepts live c.options c.credentials w dev = some (w', d')) :
    Moves accepts live cancelled w c (.dispatch i dev) w' (.dispatching probing (ds.set i d'))
  | probeRejected {ds : List Dispatch} {id : String} {nextRetryAt : Int}
      (hphase : c.phase = .dispatching true ds)
      (hhead : ds.head?.bind Dispatch.outcome? = some (.credentialRejected id nextRetryAt)) :
    Moves accepts live cancelled w c .probed w (.releasing (.credentialRejected id nextRetryAt))
  | probePassed {ds : List Dispatch} {outcome : ItemOutcome}
      (hphase : c.phase = .dispatching true ds)
      (hhead : ds.head?.bind Dispatch.outcome? = some outcome)
      (hpassed : ∀ id nextRetryAt, outcome ≠ .credentialRejected id nextRetryAt) :
    Moves accepts live cancelled w c .probed w (.dispatching false ds)
  | release {first : ItemOutcome} (hphase : c.phase = .releasing first) :
    Moves accepts live cancelled w c .release w.resetInFlight (.recording [first])
  | join {ds : List Dispatch} {outcomes : List ItemOutcome}
      (hphase : c.phase = .dispatching false ds) (hlive : cancelled = false)
      (houtcomes : ds.mapM Dispatch.outcome? = some outcomes) :
    Moves accepts live cancelled w c .join w (.recording outcomes)
  | record {outcomes : List ItemOutcome} {now : Int} (hphase : c.phase = .recording outcomes) :
    Moves accepts live cancelled w c (.record now)
      { w with results := w.results ++ [buildResult c.startedAt now outcomes] }
      (.recorded (buildResult c.startedAt now outcomes) (holdOf outcomes))
  | resumeRecorded {result : SyncResult} {notBefore : Option Int}
      (hphase : c.phase = .recorded result notBefore) (hlive : cancelled = false) :
    Moves accepts live cancelled w c .resume w (.reporting result notBefore)
  | emitTerminal {result : SyncResult} {notBefore : Option Int}
      (hphase : c.phase = .reporting result notBefore) :
    Moves accepts live cancelled w c .emitTerminal (w.emit (terminalEvent result))
      (.reported notBefore)
  | resumeReported {notBefore : Option Int} (hphase : c.phase = .reported notBefore)
      (hlive : cancelled = false) :
    Moves accepts live cancelled w c .resume { w with syncing := false } (.finishing notBefore)
  | throw {phase : CyclePhase} (hcancelled : cancelled = true)
      (hthrown : thrown .cancelled c.phase = some phase) :
    Moves accepts live cancelled w c .throw w phase
  | raise {code : Option SyncErrorCode} {phase : CyclePhase} (hstorage : inStorage c.phase = true)
      (hthrown : thrown (.failed code) c.phase = some phase) :
    Moves accepts live cancelled w c (.raise code) w phase
  | abortReported {cause : AbortCause} {notBefore : Option Int}
      (hphase : c.phase = .aborting cause true notBefore) :
    Moves accepts live cancelled w c .abort
      { (if cause = .cancelled then w.resetInFlight else w) with syncing := false }
      (.finishing notBefore)
  | abort {cause : AbortCause} {notBefore : Option Int}
      (hphase : c.phase = .aborting cause false notBefore) :
    Moves accepts live cancelled w c .abort
      (if cause = .cancelled then w.resetInFlight else w) (.failing cause notBefore)
  | emitFailed {cause : AbortCause} {notBefore : Option Int}
      (hphase : c.phase = .failing cause notBefore) :
    Moves accepts live cancelled w c .emitFailed
      { w.emit { type := .SYNC_FAILED, errorCode := some cause.errorCode } with syncing := false }
      (.finishing notBefore)
  | finish {notBefore : Option Int} (hphase : c.phase = .finishing notBefore) :
    Moves accepts live cancelled w c .finish { w with wakes := w.wakes ++ [notBefore] } .finished

theorem step_moves (h : c.step accepts live cancelled w ev = some (w', c')) :
    ∃ phase, c' = { c with phase := phase } ∧
      Moves accepts live cancelled w c ev w' phase := by
  obtain ⟨options, credentials, startedAt, phase⟩ := c
  cases ev with
  | emitStarted =>
    cases phase <;> cases h
    exact ⟨_, rfl, .emitStarted rfl⟩
  | claim =>
    cases phase <;> cases h
    exact ⟨_, rfl, .claim rfl⟩
  | resume =>
    cases phase with
    | claimed rows =>
      simp only [step, Option.ite_none_left_eq_some, Bool.not_eq_true] at h
      obtain ⟨hlive, h⟩ := h
      cases rows with
      | nil =>
        cases h
        exact ⟨_, rfl, .resumeEmpty rfl hlive⟩
      | cons r rows =>
        cases h
        exact ⟨_, rfl, .resumeClaimed rfl (List.cons_ne_nil r rows) hlive⟩
    | recorded result notBefore =>
      simp only [step, Option.ite_none_left_eq_some, Bool.not_eq_true] at h
      obtain ⟨hlive, h⟩ := h
      cases h
      exact ⟨_, rfl, .resumeRecorded rfl hlive⟩
    | reported notBefore =>
      simp only [step, Option.ite_none_left_eq_some, Bool.not_eq_true] at h
      obtain ⟨hlive, h⟩ := h
      cases h
      exact ⟨_, rfl, .resumeReported rfl hlive⟩
    | _ => cases h
  | dispatch i dev =>
    cases phase with
    | dispatching probing ds =>
      simp only [step, Option.ite_none_left_eq_some, Option.bind_eq_some_iff,
        Option.map_eq_some_iff] at h
      obtain ⟨hstart, d, hi, ⟨w₁, d'⟩, hd, heq⟩ := h
      cases heq
      exact ⟨_, rfl, .dispatch rfl (by simpa using hstart) hi hd⟩
    | _ => cases h
  | probed =>
    cases phase with
    | dispatching probing ds =>
      cases probing with
      | false => cases h
      | true =>
        simp only [step] at h
        split at h
        · rename_i hhead
          cases h
          exact ⟨_, rfl, .probeRejected rfl hhead⟩
        · rename_i hpassed hhead
          cases h
          refine ⟨_, rfl, .probePassed rfl hhead fun id nextRetryAt heq => ?_⟩
          exact hpassed id nextRetryAt heq
        · cases h
    | _ => cases h
  | release =>
    cases phase <;> cases h
    exact ⟨_, rfl, .release rfl⟩
  | join =>
    cases phase with
    | dispatching probing ds =>
      cases probing with
      | true => cases h
      | false =>
        simp only [step, Option.ite_none_left_eq_some, Option.map_eq_some_iff,
          Bool.not_eq_true] at h
        obtain ⟨hlive, outcomes, houtcomes, heq⟩ := h
        cases heq
        exact ⟨_, rfl, .join rfl hlive houtcomes⟩
    | _ => cases h
  | record now =>
    cases phase <;> cases h
    exact ⟨_, rfl, .record rfl⟩
  | emitTerminal =>
    cases phase <;> cases h
    exact ⟨_, rfl, .emitTerminal rfl⟩
  | throw =>
    simp only [step, Option.ite_none_right_eq_some, Option.map_eq_some_iff] at h
    obtain ⟨hcancelled, phase', ht, heq⟩ := h
    cases heq
    exact ⟨_, rfl, .throw hcancelled ht⟩
  | raise code =>
    simp only [step, Option.ite_none_right_eq_some, Option.map_eq_some_iff] at h
    obtain ⟨hstorage, phase', ht, heq⟩ := h
    cases heq
    exact ⟨_, rfl, .raise hstorage ht⟩
  | abort =>
    cases phase with
    | aborting cause terminalEventSent notBefore =>
      cases terminalEventSent <;> cases h
      · exact ⟨_, rfl, .abort rfl⟩
      · exact ⟨_, rfl, .abortReported rfl⟩
    | _ => cases h
  | emitFailed =>
    cases phase <;> cases h
    exact ⟨_, rfl, .emitFailed rfl⟩
  | finish =>
    cases phase <;> cases h
    exact ⟨_, rfl, .finish rfl⟩

theorem dispatches_of_phase {probing : Bool} {ds : List Dispatch}
    (h : c.phase = .dispatching probing ds) : c.dispatches = ds := by
  simp only [dispatches, h]

/-- The batch stays the same rows while they are dispatched. -/
theorem map_entity_set {ds : List Dispatch} {i : Nat} {d d' : Dispatch} (hi : ds[i]? = some d)
    (hentity : d'.entity = d.entity) : (ds.set i d').map (·.entity) = ds.map (·.entity) := by
  obtain ⟨hlt, hget⟩ := List.getElem?_eq_some_iff.mp hi
  rw [List.map_set, hentity, ← hget, ← List.getElem_map fun d : Dispatch => d.entity,
    List.set_getElem_self]
  simpa using hlt

theorem map_id_set {ds : List Dispatch} {i : Nat} {d d' : Dispatch} (hi : ds[i]? = some d)
    (hentity : d'.entity = d.entity) :
    (ds.set i d').map (·.entity.id) = ds.map (·.entity.id) := by
  have hentities := congrArg (List.map (·.id)) (map_entity_set hi hentity)
  rw [List.map_map, List.map_map] at hentities
  exact hentities

/-- The other dispatches of a batch are of other items. -/
theorem mem_set_cases {ds : List Dispatch} {i : Nat} {d d' x : Dispatch}
    (hN : (ds.map (·.entity.id)).Nodup) (hi : ds[i]? = some d) (hx : x ∈ ds.set i d') :
    x = d' ∨ x ∈ ds ∧ x.entity.id ≠ d.entity.id := by
  obtain ⟨hlt, -⟩ := List.getElem?_eq_some_iff.mp hi
  obtain ⟨j, hj⟩ := List.mem_iff_getElem?.mp hx
  by_cases hij : i = j
  · subst hij
    rw [List.getElem?_set_self hlt] at hj
    cases hj
    exact .inl rfl
  · rw [List.getElem?_set_ne hij] at hj
    refine .inr ⟨List.mem_of_getElem? hj, fun hsame => hij ?_⟩
    have hid : (ds.map (·.entity.id))[i]? = some d.entity.id := by simp [hi]
    have hjd : (ds.map (·.entity.id))[j]? = some d.entity.id := by simp [hj, hsame]
    exact (List.getElem?_inj (List.getElem?_eq_some_iff.mp hid).1 hN).mp (hid.trans hjd.symm)

/-- Where each phase is left when its suspended call throws. -/
inductive Thrown (cause : AbortCause) (phase : CyclePhase) : CyclePhase → Prop where
  | starting (hphase : phase = .starting) : Thrown cause phase (.aborting cause false none)
  | claiming (hphase : phase = .claiming) : Thrown cause phase (.aborting cause false none)
  | claimed {rows : List SyncItemEntity} (hphase : phase = .claimed rows) :
      Thrown cause phase (.aborting cause false none)
  | dispatching {ds : List Dispatch} (hphase : phase = .dispatching false ds)
      (hrest : ∀ d ∈ ds, d.atRest = true) : Thrown cause phase (.aborting cause false none)
  | releasing {first : ItemOutcome} (hphase : phase = .releasing first) :
      Thrown cause phase (.aborting cause false none)
  | recording {outcomes : List ItemOutcome} (hphase : phase = .recording outcomes) :
      Thrown cause phase (.aborting cause false (holdOf outcomes))
  | recorded {result : SyncResult} {notBefore : Option Int}
      (hphase : phase = .recorded result notBefore) :
      Thrown cause phase (.aborting cause false notBefore)
  | reporting {result : SyncResult} {notBefore : Option Int}
      (hphase : phase = .reporting result notBefore) :
      Thrown cause phase (.aborting cause true notBefore)
  | reported {notBefore : Option Int} (hphase : phase = .reported notBefore) :
      Thrown cause phase (.aborting cause true notBefore)

theorem thrown_spec {cause : AbortCause} {phase phase' : CyclePhase}
    (h : thrown cause phase = some phase') : Thrown cause phase phase' := by
  cases phase with
  | dispatching probing ds =>
    cases probing with
    | true => cases h
    | false =>
      rw [thrown, Option.ite_none_right_eq_some, List.all_eq_true] at h
      obtain ⟨hrest, h⟩ := h
      cases h
      exact .dispatching rfl hrest
  | starting => cases h; exact .starting rfl
  | claiming => cases h; exact .claiming rfl
  | claimed rows => cases h; exact .claimed rfl
  | releasing first => cases h; exact .releasing rfl
  | recording outcomes => cases h; exact .recording rfl
  | recorded result notBefore => cases h; exact .recorded rfl
  | reporting result notBefore => cases h; exact .reporting rfl
  | reported notBefore => cases h; exact .reported rfl
  | aborting | failing | finishing | finished => cases h

/-- The rows in hand are let go when the suspended call throws. -/
theorem dispatches_thrown {cause : AbortCause} {phase : CyclePhase}
    (h : thrown cause c.phase = some phase) : dispatches { c with phase := phase } = [] := by
  cases thrown_spec h <;> rfl

end Cycle

/-! ## 3. What a cycle does to the rows -/

/-- What one step of a cycle does to the rows and the requests. -/
structure CycleSpec (w : World) (c : Cycle) (w' : World) (c' : Cycle) : Prop where
  issued : w'.issued = w.issued
  keys : w'.table.keys ⊆ w.table.keys
  ids : ∀ id ∈ c'.ids, id ∈ c.ids ∨ id ∈ w.table.keys
  unsent : ∀ id ∈ c'.unsent, id ∈ c.unsent ∨ id ∈ w.table.keys
  nodup : c.ids.Nodup → c'.ids.Nodup
  requests : w'.requests = w.requests ∨
    ∃ id ∈ c.unsent, ∃ request, w'.requests = w.requests ++ [(id, request)]
  succeeded : w'.succeeded = w.succeeded ∨
    ∃ id ∈ c.ids, w'.succeeded = w.succeeded ++ [id] ∧ id ∉ w'.table.keys ∧
      (c.ids.Nodup → id ∉ c'.unsent)

namespace CycleSpec

/-- A step that dispatches nothing: the rows in hand stay or are let go. -/
theorem of_dispatches {w w' : World} {c c' : Cycle} (hissued : w'.issued = w.issued)
    (hkeys : w'.table.keys ⊆ w.table.keys) (hrequests : w'.requests = w.requests)
    (hsucceeded : w'.succeeded = w.succeeded)
    (hd : c'.dispatches = c.dispatches ∨ c'.dispatches = []) : CycleSpec w c w' c' where
  issued := hissued
  keys := hkeys
  ids := by
    rcases hd with hd | hd
    · simp only [Cycle.ids, hd]
      exact fun _ h => .inl h
    · simp [Cycle.ids, hd]
  unsent := by
    rcases hd with hd | hd
    · simp only [Cycle.unsent, hd]
      exact fun _ h => .inl h
    · simp [Cycle.unsent, hd]
  nodup := by
    rcases hd with hd | hd
    · simp only [Cycle.ids, hd]
      exact id
    · simp [Cycle.ids, hd]
  requests := .inl hrequests
  succeeded := .inl hsucceeded

/-- A claim: the rows in hand are rows of the table. -/
theorem of_claim {w w' : World} {c c' : Cycle} {rows : List SyncItemEntity}
    (hissued : w'.issued = w.issued) (hkeys : w'.table.keys = w.table.keys)
    (hrequests : w'.requests = w.requests) (hsucceeded : w'.succeeded = w.succeeded)
    (hd : c'.dispatches = rows.map Dispatch.queue) (hrows : ∀ r ∈ rows, r ∈ w.table.rows)
    (hnodup : (rows.map (·.id)).Nodup) : CycleSpec w c w' c' := by
  have hids : c'.ids = rows.map (·.id) := by
    simp only [Cycle.ids, hd, List.map_map]
    rfl
  have hmem : ∀ id ∈ c'.ids, id ∈ w.table.keys := by
    intro id h
    rw [hids] at h
    obtain ⟨r, hr, rfl⟩ := List.mem_map.mp h
    exact KeyedTable.key_mem_keys (hrows r hr)
  exact
    { issued := hissued
      keys := by rw [hkeys]; exact List.Subset.refl _
      ids := fun id h => .inr (hmem id h)
      unsent := fun id h => .inr (hmem id ((List.filter_sublist.map _).subset h))
      nodup := fun _ => hids ▸ hnodup
      requests := .inl hrequests
      succeeded := .inl hsucceeded }

/-- A step of the dispatch at position `i`. -/
theorem of_dispatch {w w' : World} {c c' : Cycle} {i : Nat} {d d' : Dispatch}
    (hi : c.dispatches[i]? = some d) (hd : c'.dispatches = c.dispatches.set i d')
    (h : DispatchSpec w d w' d') : CycleSpec w c w' c' := by
  have hmem : d ∈ c.dispatches := List.mem_of_getElem? hi
  have hids : c'.ids = c.ids := by
    unfold Cycle.ids
    rw [hd]
    exact Cycle.map_id_set hi h.entity
  refine ⟨h.issued, h.keys, fun id hid => .inl (hids ▸ hid), fun id hid => .inl ?_,
    fun hn => hids ▸ hn, ?_, ?_⟩
  · unfold Cycle.unsent at hid
    rw [hd] at hid
    obtain ⟨x, hx, rfl⟩ := List.mem_map.mp hid
    obtain ⟨hx, hux⟩ := List.mem_filter.mp hx
    rcases List.mem_or_eq_of_mem_set hx with hx | rfl
    · exact List.mem_map.mpr ⟨x, List.mem_filter.mpr ⟨hx, hux⟩, rfl⟩
    · exact List.mem_map.mpr ⟨d, List.mem_filter.mpr ⟨hmem, h.unsent hux⟩, by rw [h.entity]⟩
  · rcases h.requests with hr | ⟨hu, request, hr⟩
    · exact .inl hr
    · exact .inr ⟨d.entity.id, List.mem_map.mpr ⟨d, List.mem_filter.mpr ⟨hmem, hu⟩, rfl⟩,
        request, hr⟩
  · rcases h.succeeded with hs | ⟨hs, hkey, hu⟩
    · exact .inl hs
    · refine .inr ⟨d.entity.id, List.mem_map.mpr ⟨d, hmem, rfl⟩, hs, hkey, fun hn hid => ?_⟩
      unfold Cycle.unsent at hid
      obtain ⟨x, hx, hxid⟩ := List.mem_map.mp hid
      obtain ⟨hx, hux⟩ := List.mem_filter.mp hx
      -- the only dispatch with this id is the one that has just settled
      have hd' : d' ∈ c'.dispatches := by
        rw [hd]
        exact List.mem_set (List.getElem?_eq_some_iff.mp hi).1 d'
      have hn' : (c'.dispatches.map (·.entity.id)).Nodup := by
        rw [← hids] at hn
        exact hn
      have : x = d' := List.inj_on_of_nodup_map hn' hx hd' (by rw [hxid, h.entity])
      rw [this, hu] at hux
      cases hux

end CycleSpec

namespace Cycle

theorem step_spec {accepts : HttpRequest → Bool} {live : SyncOptions} {cancelled : Bool}
    {w w' : World} {c c' : Cycle} {ev : CycleEvent}
    (h : c.step accepts live cancelled w ev = some (w', c')) : CycleSpec w c w' c' := by
  obtain ⟨phase, rfl, hmoves⟩ := step_moves h
  have quiet {w' : World} (hw : w'.issued = w.issued ∧ w'.table.keys = w.table.keys ∧
      w'.requests = w.requests ∧ w'.succeeded = w.succeeded)
      (hd : dispatches { c with phase := phase } = c.dispatches ∨
        dispatches { c with phase := phase } = []) :
      CycleSpec w c w' { c with phase := phase } :=
    .of_dispatches hw.1 (by rw [hw.2.1]; exact List.Subset.refl _) hw.2.2.1 hw.2.2.2 hd
  have hreset : w.resetInFlight.table.keys = w.table.keys := SyncItemDao.keys_resetInFlight _
  cases hmoves with
  | claim hphase =>
    exact .of_claim rfl (SyncItemDao.keys_claimPending ..) rfl rfl rfl
      (fun r hr => (SyncItemDao.selectClaimable_subset hr).1) (SyncItemDao.selectClaimable_nodup ..)
  | dispatch hphase hstart hi hstep =>
    have hdispatches := dispatches_of_phase hphase
    exact .of_dispatch (hdispatches ▸ hi) (hdispatches ▸ rfl) (Dispatch.step_spec hstep)
  | resumeClaimed hphase | probePassed hphase =>
    refine quiet ⟨rfl, rfl, rfl, rfl⟩ (.inl ?_)
    simp only [dispatches, hphase]
  | release hphase => exact quiet ⟨rfl, hreset, rfl, rfl⟩ (.inr rfl)
  | throw hcancelled hthrown => exact quiet ⟨rfl, rfl, rfl, rfl⟩ (.inr (dispatches_thrown hthrown))
  | raise hstorage hthrown => exact quiet ⟨rfl, rfl, rfl, rfl⟩ (.inr (dispatches_thrown hthrown))
  | abort hphase | abortReported hphase =>
    split
    · exact quiet ⟨rfl, hreset, rfl, rfl⟩ (.inr rfl)
    · exact quiet ⟨rfl, rfl, rfl, rfl⟩ (.inr rfl)
  | emitStarted hphase | resumeEmpty hphase | probeRejected hphase | join hphase | record hphase
  | resumeRecorded hphase | emitTerminal hphase | resumeReported hphase | emitFailed hphase
  | finish hphase =>
    exact quiet ⟨rfl, rfl, rfl, rfl⟩ (.inr rfl)

end Cycle

/-! ## The wakes -/

theorem Dispatch.wakes_step {accepts : HttpRequest → Bool} {live options : SyncOptions}
    {credentials : CredentialPolicy} {w w' : World} {d d' : Dispatch} {ev : DispatchEvent}
    (h : d.step accepts live options credentials w ev = some (w', d')) : w'.wakes = w.wakes := by
  cases step_moves h <;> rfl

theorem Cycle.wakes_subset {accepts : HttpRequest → Bool} {live : SyncOptions} {cancelled : Bool}
    {w w' : World} {c c' : Cycle} {ev : CycleEvent}
    (h : c.step accepts live cancelled w ev = some (w', c')) : w.wakes ⊆ w'.wakes := by
  obtain ⟨phase, -, hmoves⟩ := step_moves h
  cases hmoves with
  | dispatch hphase hstart hi hstep =>
    rw [Dispatch.wakes_step hstep]
    exact List.Subset.refl _
  | finish hphase => exact List.subset_append_left _ _
  | abort hphase | abortReported hphase => split <;> exact List.Subset.refl _
  | _ => exact List.Subset.refl _

end SyncProvider.Android
