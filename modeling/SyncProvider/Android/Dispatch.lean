import SyncProvider.Android.Database

/-!
# Android: the dispatch of one item

The parts of `SyncDispatcher` that concern a single claimed row: the request it
sends (`buildRequest`), the classification of the answer (`runOnce`), and what
is then written and emitted (`dispatchItem` and its three failure branches).
All of them are pure here. The clock readings and the jitter sample are
arguments, and so are the two policies a dispatch consults: the options of its
cycle, and the options in force when the answer arrives.
-/

namespace SyncProvider.Android

/-! ## The request -/

/-- What `buildRequest` hands to the HTTP client. The body carries the text of its
media type, which the client sends as the content type if it can parse it. -/
structure HttpRequest where
  url : String
  method : HttpMethod
  headers : StringMap
  body : Option (String × String)
  deriving DecidableEq

/-- `builder.header(k, v)`: replaces every header of that name, in any case. -/
def setHeader (headers : StringMap) (h : String × String) : StringMap :=
  headers.filter (fun h' => h'.1.toLower != h.1.toLower) ++ [h]

/-- Default headers first, item headers over them. `accepts` stands for the
checks of the HTTP client's builder, which throws on a url or a header it
cannot send. -/
def buildRequest (accepts : HttpRequest → Bool) (entity : SyncItemEntity)
    (defaultHeaders : Option StringMap) : Option HttpRequest :=
  let request : HttpRequest :=
    { url := entity.url
      method := entity.method
      headers := (entity.headers.getD []).foldl setHeader
        ((defaultHeaders.getD []).foldl setHeader [])
      body := match entity.method with
        | .GET | .DELETE => none
        | _ => some (entity.contentType.getD "application/json", entity.body.getD "") }
  if accepts request then some request else none

def DEFAULT_REQUEST_TIMEOUT_MS : Int := 30000
def MIN_REQUEST_TIMEOUT_MS : Int := 1000

def requestTimeout (options : SyncOptions) : Int :=
  max ((options.requestTimeoutMs.map Double.toInt64).getD DEFAULT_REQUEST_TIMEOUT_MS)
    MIN_REQUEST_TIMEOUT_MS

/-! ## The answer -/

/-- How the HTTP call of one attempt ends. -/
inductive CallResult where
  /-- `execute()` returned a response with this status. -/
  | response (code : Int)
  | socketTimeout (message : Option String)
  | ioException (message : Option String)
  | otherException (message : Option String) (className : String)
  /-- `withTimeoutOrNull` yielded null. -/
  | timedOut
  /-- Something outside `execute()` threw. -/
  | thrown (message : Option String) (className : String)
  deriving DecidableEq

structure AttemptFailure where
  code : SyncErrorCode
  message : String
  statusCode : Option Int
  retryable : Bool
  deriving DecidableEq

inductive AttemptResult where
  | success (statusCode : Int)
  | failure (f : AttemptFailure)
  deriving DecidableEq

/-- The classification of a response. -/
def classifyStatus (code : Int) (policy : RetryPolicy) : AttemptResult :=
  let message := "HTTP " ++ toString code
  if 200 ≤ code ∧ code ≤ 299 then .success code
  else if code = 401 ∨ code = 403 then .failure ⟨.UNAUTHORIZED, message, code, false⟩
  else if RetryPolicyEvaluator.shouldRetryStatus code policy then
    .failure ⟨.SERVER_ERROR, message, code, true⟩
  else if 400 ≤ code ∧ code ≤ 499 then .failure ⟨.SERVER_ERROR, message, code, false⟩
  else .failure ⟨.SERVER_ERROR, message, code, false⟩

/-- `runOnce` from the end of the HTTP call on. `policy` is read from the live
options at that moment. -/
def classify (policy : RetryPolicy) (timeoutMs : Int) : CallResult → AttemptResult
  | .response code => classifyStatus code policy
  | .timedOut =>
    .failure ⟨.TIMEOUT, "Request timed out (" ++ toString timeoutMs ++ "ms)", none, true⟩
  | .socketTimeout message => .failure ⟨.TIMEOUT, message.getD "Request timed out", none, true⟩
  | .ioException message => .failure ⟨.NETWORK_ERROR, message.getD "Network error", none, true⟩
  | .otherException message className =>
    .failure ⟨.NETWORK_ERROR, message.getD className, none, false⟩
  | .thrown message className => .failure ⟨.NETWORK_ERROR, message.getD className, none, false⟩

/-- `runOnce` when `buildRequest` returned null. -/
def buildFailure (entity : SyncItemEntity) : AttemptResult :=
  .failure ⟨.INVALID_PAYLOAD, "Failed to build request for item " ++ entity.id, none, false⟩

/-! ## The settlement -/

inductive ItemOutcome where
  | succeeded (itemId : String) (statusCode : Int)
  /-- Retriable failure re-queued with a persisted cooldown. -/
  | rescheduled (itemId : String)
  /-- Restored credential rejected: the item waits, without spending an attempt. -/
  | credentialRejected (itemId : String) (nextRetryAt : Int)
  | failed (itemId : String) (code : SyncErrorCode) (message : String)
  deriving DecidableEq

inductive SyncEventType where
  | SYNC_STARTED | SYNC_SUCCEEDED | SYNC_FAILED | ITEM_SUCCEEDED | ITEM_FAILED | ITEM_RETRYING
  deriving DecidableEq

structure SyncEvent where
  type : SyncEventType
  itemId : Option String := none
  errorCode : Option SyncErrorCode := none
  statusCode : Option Int := none
  attempt : Option Int := none
  deriving DecidableEq

/-- The one storage write that records an attempt. -/
inductive StoreWrite where
  | markSucceeded (id : String)
  | markRetry (id : String) (attempts lastAttemptAt : Int) (code : SyncErrorCode)
      (nextRetryAt : Int)
  | markFailed (id : String) (attempts lastAttemptAt : Int) (code : SyncErrorCode)
  deriving DecidableEq

/-- The write as `SyncQueueStorage` runs it. A terminal row loses its cooldown. -/
def StoreWrite.run : StoreWrite → SyncItems → SyncItems
  | .markSucceeded id, t => (SyncItemDao.deleteById id t).1
  | .markRetry id attempts lastAttemptAt code nextRetryAt, t =>
    SyncItemDao.updateStatus id .PENDING attempts (some lastAttemptAt) (some code) nextRetryAt t
  | .markFailed id attempts lastAttemptAt code, t =>
    SyncItemDao.updateStatus id .FAILED attempts (some lastAttemptAt) (some code) 0 t

/-- What one attempt comes to: the write, the event after it, the outcome. -/
structure Settlement where
  write : StoreWrite
  event : SyncEvent
  outcome : ItemOutcome
  deriving DecidableEq

/-- The retry budget was spent before this cycle. -/
def refuse (entity : SyncItemEntity) (startedAt : Int) : Settlement where
  write := .markFailed entity.id entity.attempts startedAt .MAX_ATTEMPTS_EXCEEDED
  event :=
    { type := .ITEM_FAILED
      itemId := entity.id
      errorCode := some .MAX_ATTEMPTS_EXCEEDED
      attempt := entity.attempts }
  outcome := .failed entity.id .MAX_ATTEMPTS_EXCEEDED "Retry budget exhausted"

def retryingEvent (entity : SyncItemEntity) (attempt : Int) (f : AttemptFailure) : SyncEvent where
  type := .ITEM_RETRYING
  itemId := entity.id
  errorCode := f.code
  statusCode := f.statusCode
  attempt := attempt

/-- Persist the cooldown. The row is excluded from claims until it elapses. -/
def reschedule (entity : SyncItemEntity) (attempt startedAt finishedAt : Int)
    (f : AttemptFailure) (options : SyncOptions) (sample : ℚ) (rnd : Double → Double := id) :
    Settlement :=
  let nextRetryAt := wrap64
    (finishedAt + RetryPolicyEvaluator.computeDelayMs attempt options.retryPolicy sample rnd)
  { write := .markRetry entity.id attempt startedAt f.code nextRetryAt
    event := retryingEvent entity attempt f
    outcome := .rescheduled entity.id }

/-- Floor for the wait after a restored credential is rejected. -/
def MIN_CREDENTIAL_HOLD_MS : Int := 60000

/-- A restored token was rejected. The item stays `PENDING` without spending an
attempt. -/
def holdForCredentialRenewal (entity : SyncItemEntity) (attempt startedAt finishedAt : Int)
    (f : AttemptFailure) (options : SyncOptions) (sample : ℚ) (rnd : Double → Double := id) :
    Settlement :=
  let backoffMs := RetryPolicyEvaluator.computeDelayMs attempt options.retryPolicy sample rnd
  let nextRetryAt := wrap64 (finishedAt + max backoffMs MIN_CREDENTIAL_HOLD_MS)
  { write := .markRetry entity.id entity.attempts startedAt f.code nextRetryAt
    event := retryingEvent entity attempt f
    outcome := .credentialRejected entity.id nextRetryAt }

/-- A non-retryable failure keeps its real code. Only a retriable one can run
out of budget. -/
def failTerminally (entity : SyncItemEntity) (attempt startedAt : Int) (f : AttemptFailure) :
    Settlement :=
  let terminalCode := if f.retryable then .MAX_ATTEMPTS_EXCEEDED else f.code
  { write := .markFailed entity.id attempt startedAt terminalCode
    event :=
      { type := .ITEM_FAILED
        itemId := entity.id
        errorCode := some terminalCode
        statusCode := f.statusCode
        attempt := attempt }
    outcome := .failed entity.id terminalCode f.message }

def succeed (entity : SyncItemEntity) (attempt statusCode : Int) : Settlement where
  write := .markSucceeded entity.id
  event :=
    { type := .ITEM_SUCCEEDED
      itemId := entity.id
      statusCode := some statusCode
      attempt := attempt }
  outcome := .succeeded entity.id statusCode

/-- `dispatchItem` from the end of `runOnce` on. `finishedAt` is the clock read
after the attempt. -/
def settle (options : SyncOptions) (credentials : CredentialPolicy) (entity : SyncItemEntity)
    (startedAt finishedAt : Int) (sample : ℚ) (result : AttemptResult) : Settlement :=
  let attempt := wrap32 (entity.attempts + 1)
  match result with
  | .success statusCode => succeed entity attempt statusCode
  | .failure f =>
    if credentials = .PERSISTED ∧ f.code = .UNAUTHORIZED then
      holdForCredentialRenewal entity attempt startedAt finishedAt f options sample
    else if f.retryable && RetryPolicyEvaluator.hasBudget attempt options.retryPolicy then
      reschedule entity attempt startedAt finishedAt f options sample
    else failTerminally entity attempt startedAt f

/-! ## What a settlement concerns -/

/-- The id of the row a write is about. -/
def StoreWrite.id : StoreWrite → String
  | .markSucceeded id | .markRetry id .. | .markFailed id .. => id

/-- The exits of `dispatchItem`. -/
inductive Exit (entity : SyncItemEntity) : Settlement → Prop where
  | refused (startedAt : Int) : Exit entity (refuse entity startedAt)
  | succeeded (attempt statusCode : Int) : Exit entity (succeed entity attempt statusCode)
  | held (attempt startedAt finishedAt : Int) (f : AttemptFailure) (options : SyncOptions)
      (sample : ℚ) :
    Exit entity (holdForCredentialRenewal entity attempt startedAt finishedAt f options sample)
  | rescheduled (attempt startedAt finishedAt : Int) (f : AttemptFailure) (options : SyncOptions)
      (sample : ℚ) : Exit entity (reschedule entity attempt startedAt finishedAt f options sample)
  | failed (attempt startedAt : Int) (f : AttemptFailure) :
    Exit entity (failTerminally entity attempt startedAt f)

theorem exit_settle (options : SyncOptions) (credentials : CredentialPolicy)
    (entity : SyncItemEntity) (startedAt finishedAt : Int) (sample : ℚ) (result : AttemptResult) :
    Exit entity (settle options credentials entity startedAt finishedAt sample result) := by
  cases result with
  | success statusCode => exact .succeeded _ statusCode
  | failure f =>
    simp only [settle]
    split
    · exact .held ..
    · split
      · exact .rescheduled ..
      · exact .failed ..

theorem Exit.write_id {entity : SyncItemEntity} {s : Settlement} (h : Exit entity s) :
    s.write.id = entity.id := by
  cases h <;> rfl

/-- Whatever the attempt came to, the write is about its own row. -/
@[simp] theorem settle_write_id (options : SyncOptions) (credentials : CredentialPolicy)
    (entity : SyncItemEntity) (startedAt finishedAt : Int) (sample : ℚ) (result : AttemptResult) :
    (settle options credentials entity startedAt finishedAt sample result).write.id =
      entity.id :=
  (exit_settle ..).write_id

/-- A write adds no row, and a success takes its own row away. -/
theorem StoreWrite.keys_run_subset (w : StoreWrite) (t : SyncItems) :
    (w.run t).keys ⊆ t.keys := by
  cases w with
  | markSucceeded id => exact KeyedTable.keys_deleteWhere_subset _ t
  | markRetry => simp [StoreWrite.run]
  | markFailed => simp [StoreWrite.run]

end SyncProvider.Android
