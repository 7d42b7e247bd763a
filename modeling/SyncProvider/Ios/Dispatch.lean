import SyncProvider.Ios.Options
import SyncProvider.Ios.Database

/-!
# iOS: the dispatch of one item

The parts of the iOS `SyncDispatcher` that concern a single item: the request
(`dispatchOne`), the classification of the answer, and what a failed dispatch
is recorded as (`recordFailureOutcome`). All of them are pure here. Where the
source reads the configuration of the actor, that configuration is an argument,
next to `sentWith`, the one captured before the request.

Result:
1. `recordFailureOutcome_eq_iff` : when two configurations record a failure
   alike.
-/

namespace SyncProvider.Ios

/-! ## The request -/

structure URLRequest where
  url : String
  httpMethod : String
  headers : StringMap
  timeoutMs : Int
  deriving DecidableEq

/-- `setValue(_:forHTTPHeaderField:)`: replaces the header, in any case. -/
def setValue (headers : StringMap) (h : String × String) : StringMap :=
  headers.filter (fun h' => h'.1.toLower != h.1.toLower) ++ [h]

def hasHeader (headers : StringMap) (field : String) : Bool :=
  headers.any fun h => h.1.toLower == field.toLower

/-- `hasPrefix`, for the ASCII text of a url scheme. -/
def hasPrefix (s p : String) : Bool := p.toList.isPrefixOf s.toList

/-- The request of an item. Default headers first, item headers over them, and
the content type unless one of them set it. -/
def buildRequest (config : DispatcherConfig) (item : StoredSyncItem) : URLRequest :=
  let headers := (item.headers.getD []).foldl setValue (config.defaultHeaders.foldl setValue [])
  let headers := match item.contentType with
    | some contentType =>
      if hasHeader headers "Content-Type" then headers
      else setValue headers ("Content-Type", contentType)
    | none => headers
  { url := item.url
    httpMethod := item.method
    headers := headers
    timeoutMs := config.requestTimeoutMs }

/-! ## The answer -/

structure ItemDispatchOutcome where
  itemId : String
  succeeded : Bool
  statusCode : Option Int
  errorCode : Option SyncErrorCode
  errorMessage : Option String
  deriving DecidableEq

/-- What `wrapAsSyncProviderError` makes of a transport error. -/
structure TransportError where
  code : SyncErrorCode
  message : String
  deriving DecidableEq

/-- `dispatchOne` for a url that is not an absolute http one. -/
def invalidUrl (item : StoredSyncItem) : ItemDispatchOutcome where
  itemId := item.id
  succeeded := false
  statusCode := none
  errorCode := some .INVALID_URL
  errorMessage := some ("Invalid URL: " ++ item.url)

def classifyResponse (itemId : String) (statusCode : Option Int)
    (transportError : Option TransportError) : ItemDispatchOutcome :=
  match transportError, statusCode with
  | some error, _ => ⟨itemId, false, statusCode, some error.code, some error.message⟩
  | none, none => ⟨itemId, false, none, some .NETWORK_ERROR, some "No HTTP response received"⟩
  | none, some status =>
    let message := "HTTP " ++ toString status
    if 200 ≤ status ∧ status < 300 then ⟨itemId, true, some status, none, none⟩
    else if status = 401 ∨ status = 403 then
      ⟨itemId, false, some status, some .UNAUTHORIZED, some message⟩
    else ⟨itemId, false, some status, some .SERVER_ERROR, some message⟩

/-! ## The record of a failure -/

def kMinCredentialHoldMs : Int := 60000

/-- A rejection of default headers that were read back from storage. -/
def isStaleCredentialRejection (outcome : ItemDispatchOutcome) (sentWith : DispatcherConfig) :
    Bool :=
  sentWith.source == .persisted && sentWith.hasDefaultHeaders &&
    outcome.errorCode == some .UNAUTHORIZED

/-- Should the failed outcome be retried? `policy` is the one in force. -/
def decideRetry (policy : RetryPolicyValue) (outcome : ItemDispatchOutcome) : Bool :=
  match outcome.errorCode with
  | some .UNAUTHORIZED | some .INVALID_URL => false
  | some .NETWORK_ERROR | some .TIMEOUT => true
  | _ =>
    match outcome.statusCode with
    | some status => RetryPolicyEvaluator.shouldRetry status policy
    | none => false

/-- The storage operation that records a failed dispatch. -/
inductive FailureWrite where
  | markCredentialRejected (errorCode : Option SyncErrorCode) (retryDelayMs attempts : Int)
  | markFailed (errorCode : SyncErrorCode)
  | markPendingForRetry (errorCode : Option SyncErrorCode) (retryDelayMs : Int)
  deriving DecidableEq

/-- The events the dispatcher emits. -/
structure SyncEvent where
  type : String
  itemId : Option String := none
  progress : Option ℚ := none
  errorCode : Option SyncErrorCode := none
  statusCode : Option Int := none
  attempt : Option Int := none
  metadata : StringMap := []
  deriving DecidableEq

/-- What `recordFailureOutcome` does with a failed item. -/
structure FailureRecord where
  write : FailureWrite
  event : SyncEvent
  /-- The message of the `.failed` disposition. -/
  message : Option String
  deriving DecidableEq

/-- The attempt is the last one the policy allows. -/
def exhausted (policy : RetryPolicyValue) (attempt : Int) : Bool := policy.maxAttempts ≤ attempt

/-- `recordFailureOutcome`. `config` is the configuration in force when the
answer is there, `item` the snapshot from before the claim. -/
def recordFailureOutcome (config sentWith : DispatcherConfig) (item : StoredSyncItem)
    (outcome : ItemDispatchOutcome) (sample : ℚ) : FailureRecord :=
  let policy := config.retryPolicy
  let attemptsAfter := item.attempts + 1
  let retrying : SyncEvent :=
    { type := "ITEM_RETRYING"
      itemId := item.id
      errorCode := outcome.errorCode
      statusCode := outcome.statusCode
      attempt := attemptsAfter }
  if isStaleCredentialRejection outcome sentWith then
    let delayMs := RetryPolicyEvaluator.nextDelayMs attemptsAfter policy sample
    { write := .markCredentialRejected outcome.errorCode (max delayMs kMinCredentialHoldMs)
        item.attempts
      event := retrying
      message := none }
  else if decideRetry policy outcome && !exhausted policy attemptsAfter then
    let delayMs := RetryPolicyEvaluator.nextDelayMs attemptsAfter policy sample
    { write := .markPendingForRetry outcome.errorCode delayMs
      event := retrying
      message := none }
  else
    let finalErrorCode :=
      if decideRetry policy outcome then .MAX_ATTEMPTS_EXCEEDED
      else outcome.errorCode.getD .NETWORK_ERROR
    { write := .markFailed finalErrorCode
      event :=
        { type := "ITEM_FAILED"
          itemId := item.id
          errorCode := some finalErrorCode
          statusCode := outcome.statusCode
          attempt := attemptsAfter }
      message := some (outcome.errorMessage.getD finalErrorCode.name) }

/-- A failure is held with its attempt given back, retried while there is
another attempt, or final. -/
theorem recordFailureOutcome_write (config sentWith : DispatcherConfig) (item : StoredSyncItem)
    (outcome : ItemDispatchOutcome) (sample : ℚ) :
    (∃ delayMs, (recordFailureOutcome config sentWith item outcome sample).write =
      .markCredentialRejected outcome.errorCode delayMs item.attempts) ∨
    (∃ delayMs, (recordFailureOutcome config sentWith item outcome sample).write =
      .markPendingForRetry outcome.errorCode delayMs ∧
      item.attempts + 1 < config.retryPolicy.maxAttempts) ∨
    ∃ code,
      (recordFailureOutcome config sentWith item outcome sample).write = .markFailed code := by
  unfold recordFailureOutcome
  dsimp only
  split
  · exact .inl ⟨_, rfl⟩
  · split
    · rename_i hkept
      refine .inr (.inl ⟨_, rfl, ?_⟩)
      simpa [exhausted] using (Bool.and_eq_true_iff.mp hkept).2
    · exact .inr (.inr ⟨_, rfl⟩)

/-- `updateConfig`. -/
def updateConfig (_ newConfig : DispatcherConfig) : DispatcherConfig := newConfig

/-! ## 1. Two policies and one failure -/

/-- Neither policy has another attempt after this one, or both have one, with the same
delay before it. -/
def AgreeOnRetry (p q : RetryPolicyValue) (attempt : Int) (sample : ℚ) : Prop :=
  p.maxAttempts ≤ attempt ∧ q.maxAttempts ≤ attempt ∨
    attempt < p.maxAttempts ∧ attempt < q.maxAttempts ∧
      RetryPolicyEvaluator.nextDelayMs attempt p sample =
        RetryPolicyEvaluator.nextDelayMs attempt q sample

/-- The policies give the attempt the same delay, or both less than the least hold. -/
def AgreeOnHold (p q : RetryPolicyValue) (attempt : Int) (sample : ℚ) : Prop :=
  RetryPolicyEvaluator.nextDelayMs attempt p sample =
      RetryPolicyEvaluator.nextDelayMs attempt q sample ∨
    RetryPolicyEvaluator.nextDelayMs attempt p sample ≤ kMinCredentialHoldMs ∧
      RetryPolicyEvaluator.nextDelayMs attempt q sample ≤ kMinCredentialHoldMs

/-- The policies agree on a status code: both list it and agree on the retry, or neither
lists it. An error that says `MAX_ATTEMPTS_EXCEEDED` by itself does not tell a policy that
does not list the code from one that has no attempt left. -/
def AgreeOnStatus (p q : RetryPolicyValue) (errorCode : Option SyncErrorCode) (status : Int)
    (attempt : Int) (sample : ℚ) : Prop :=
  (status ∈ p.retryOnStatusCodes ∧ status ∈ q.retryOnStatusCodes ∧
      AgreeOnRetry p q attempt sample) ∨
    (status ∉ p.retryOnStatusCodes ∧ status ∉ q.retryOnStatusCodes) ∨
    errorCode = some .MAX_ATTEMPTS_EXCEEDED ∧
      (status ∈ p.retryOnStatusCodes → p.maxAttempts ≤ attempt) ∧
      (status ∈ q.retryOnStatusCodes → q.maxAttempts ≤ attempt)

/-- The policies agree on a failed dispatch, in the fields that this kind of failure asks
for. -/
def AgreeOnFailure (p q : RetryPolicyValue) (sentWith : DispatcherConfig) (item : StoredSyncItem)
    (outcome : ItemDispatchOutcome) (sample : ℚ) : Prop :=
  if isStaleCredentialRejection outcome sentWith then AgreeOnHold p q (item.attempts + 1) sample
  else match outcome.errorCode, outcome.statusCode with
    | some .UNAUTHORIZED, _ | some .INVALID_URL, _ => True
    | some .NETWORK_ERROR, _ | some .TIMEOUT, _ => AgreeOnRetry p q (item.attempts + 1) sample
    | _, none => True
    | errorCode, some status => AgreeOnStatus p q errorCode status (item.attempts + 1) sample

/-- Both policies retry the failure after the same delay, or neither does, for the same
reason. -/
def DecideAlike (p q : RetryPolicyValue) (outcome : ItemDispatchOutcome) (attempt : Int)
    (sample : ℚ) : Prop :=
  if decideRetry p outcome && !exhausted p attempt then
    (decideRetry q outcome && !exhausted q attempt) = true ∧
      RetryPolicyEvaluator.nextDelayMs attempt p sample =
        RetryPolicyEvaluator.nextDelayMs attempt q sample
  else
    (decideRetry q outcome && !exhausted q attempt) = false ∧
      (decideRetry p outcome = decideRetry q outcome ∨
        outcome.errorCode = some .MAX_ATTEMPTS_EXCEEDED)

section DecideAlike

variable {p q : RetryPolicyValue} {outcome : ItemDispatchOutcome} {attempt : Int} {sample : ℚ}

theorem decideAlike_of_final (h : ∀ policy, decideRetry policy outcome = false) :
    DecideAlike p q outcome attempt sample := by
  simp [DecideAlike, h]

theorem decideAlike_iff_of_retry (h : ∀ policy, decideRetry policy outcome = true) :
    DecideAlike p q outcome attempt sample ↔ AgreeOnRetry p q attempt sample := by
  by_cases hp : attempt < p.maxAttempts
  · simp [DecideAlike, AgreeOnRetry, exhausted, h, hp]
  · simp [DecideAlike, AgreeOnRetry, exhausted, h, hp]
    omega

theorem decideAlike_iff_of_status {status : Int}
    (h : ∀ policy, decideRetry policy outcome = RetryPolicyEvaluator.shouldRetry status policy) :
    DecideAlike p q outcome attempt sample ↔
      AgreeOnStatus p q outcome.errorCode status attempt sample := by
  have hlisted (policy : RetryPolicyValue) :
      decideRetry policy outcome = true ↔ status ∈ policy.retryOnStatusCodes := by
    simp [h, RetryPolicyEvaluator.shouldRetry]
  cases hp : decideRetry p outcome <;> cases hq : decideRetry q outcome <;>
    simp [DecideAlike, AgreeOnStatus, AgreeOnRetry, ← hlisted, exhausted, hp, hq] <;> grind

end DecideAlike

/-- Without a stale credential the record is that of the retry that follows, or of the
reason for having none. -/
theorem recordFailureOutcome_eq_iff_of_fresh {config config' sentWith : DispatcherConfig}
    {item : StoredSyncItem} {outcome : ItemDispatchOutcome} {sample : ℚ}
    (hfresh : isStaleCredentialRejection outcome sentWith = false) :
    recordFailureOutcome config sentWith item outcome sample =
      recordFailureOutcome config' sentWith item outcome sample ↔
      DecideAlike config.retryPolicy config'.retryPolicy outcome (item.attempts + 1) sample := by
  simp only [recordFailureOutcome, hfresh, Bool.false_eq_true, if_false, DecideAlike]
  cases hp : decideRetry config.retryPolicy outcome &&
      !exhausted config.retryPolicy (item.attempts + 1) <;>
    cases hq : decideRetry config'.retryPolicy outcome &&
      !exhausted config'.retryPolicy (item.attempts + 1)
  · -- neither keeps the item: the final codes decide
    have hcode :
        (if decideRetry config.retryPolicy outcome then SyncErrorCode.MAX_ATTEMPTS_EXCEEDED
          else outcome.errorCode.getD .NETWORK_ERROR) =
        (if decideRetry config'.retryPolicy outcome then SyncErrorCode.MAX_ATTEMPTS_EXCEEDED
          else outcome.errorCode.getD .NETWORK_ERROR) ↔
        decideRetry config.retryPolicy outcome = decideRetry config'.retryPolicy outcome ∨
          outcome.errorCode = some .MAX_ATTEMPTS_EXCEEDED := by
      cases decideRetry config.retryPolicy outcome <;>
        cases decideRetry config'.retryPolicy outcome <;>
        cases outcome.errorCode <;> simp [eq_comm]
    simp only [Bool.false_eq_true, if_false, FailureRecord.mk.injEq, true_and]
    constructor
    · rintro ⟨hwrite, -, -⟩
      exact hcode.mp (FailureWrite.markFailed.inj hwrite)
    · intro h
      rw [hcode.mpr h]
      exact ⟨rfl, rfl, rfl⟩
  · simp
  · simp
  · -- both keep it: the delays decide
    simp

theorem recordFailureOutcome_eq_iff {config config' sentWith : DispatcherConfig}
    {item : StoredSyncItem} {outcome : ItemDispatchOutcome} {sample : ℚ} :
    recordFailureOutcome config sentWith item outcome sample =
      recordFailureOutcome config' sentWith item outcome sample ↔
      AgreeOnFailure config.retryPolicy config'.retryPolicy sentWith item outcome sample := by
  unfold AgreeOnFailure
  cases hstale : isStaleCredentialRejection outcome sentWith with
  | true =>
    simp only [recordFailureOutcome, hstale, if_true, FailureRecord.mk.injEq,
      FailureWrite.markCredentialRejected.injEq, true_and, and_true, AgreeOnHold]
    omega
  | false =>
    rw [recordFailureOutcome_eq_iff_of_fresh hstale]
    obtain ⟨id, ok, statusCode, errorCode, message⟩ := outcome
    simp only [Bool.false_eq_true, if_false]
    split
    · exact iff_true_intro (decideAlike_of_final fun _ => rfl)
    · exact iff_true_intro (decideAlike_of_final fun _ => rfl)
    · exact decideAlike_iff_of_retry fun _ => rfl
    · exact decideAlike_iff_of_retry fun _ => rfl
    · refine iff_true_intro (decideAlike_of_final fun policy => ?_)
      simp_all [decideRetry]
    · refine decideAlike_iff_of_status fun policy => ?_
      simp_all [decideRetry]

section Sample

def samplePolicy : RetryPolicyValue where
  maxAttempts := 5
  backoff := .exponential
  baseDelayMs := 1000
  maxDelayMs := 60000
  jitter := false
  retryOnStatusCodes := [500, 503]

def sampleConfig : DispatcherConfig where
  retryPolicy := samplePolicy
  requestTimeoutMs := 30000
  batchSize := 25
  defaultHeaders := []
  source := .live
  hasDefaultHeaders := false
  credentialsUnavailable := false

def sampleStored (id : String) (attempts : Int) : StoredSyncItem where
  id := id
  method := "POST"
  url := "https://api.example.com/orders"
  headers := none
  body := some "{}"
  contentType := none
  priority := "NORMAL"
  createdAt := 1000
  attempts := attempts
  lastAttemptAt := none
  nextRetryAt := 0
  lastErrorCode := none
  status := .PENDING
  metadata := none

end Sample

end SyncProvider.Ios
