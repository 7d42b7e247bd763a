import SyncProvider.Android.Cycle
import SyncProvider.Ios.Conversions
import SyncProvider.Ios.Cycle

/-!
# One answer, two dispatchers

Android checks the budget before it sends an item and writes the counter after the
answer, iOS writes the counter first and checks the budget after the answer. Both
cut `maxAttempts` and the listed codes to integers. With a live credential and one
configuration throughout, what they make of a response is the same as long as
Android sends the item at all.

Results:
1. `disposition_of_spent`, `disposition_of_budget`, `disposition_of_answer` : what each
   dispatcher makes of a response.
2. `dispositions_agree_iff` : when the two are the same.
3. `fraction_of_an_attempt_splits` : a budget of one attempt and a half.
-/

namespace SyncProvider

/-! ## The model -/

/-- What has become of an item, with the counter that is stored. -/
inductive Disposition where
  | succeeded
  | retried (attempts : Int)
  | failed (code : SyncErrorCode) (attempts : Int)
  deriving DecidableEq

/-- A row of either store that was in flight. -/
def Disposition.ofRow (status : ItemStatus) (lastErrorCode : Option SyncErrorCode)
    (attempts : Int) : Option Disposition :=
  match status with
  | .PENDING => some (.retried attempts)
  | .FAILED => lastErrorCode.map fun code => .failed code attempts
  | .IN_FLIGHT => none

/-- An item that is gone has succeeded. -/
def androidDisposition (id : String) (t : Android.SyncItems) : Option Disposition :=
  match t.find? id with
  | none => some .succeeded
  | some r => Disposition.ofRow r.status r.lastErrorCode r.attempts

def iosDisposition (id : String) (t : Ios.StoredItems) : Option Disposition :=
  match t.find? id with
  | none => some .succeeded
  | some r => Disposition.ofRow r.status r.lastErrorCode r.attempts

/-- The policy as the bridge hands it to iOS. -/
def Android.RetryPolicy.bridged (policy : Android.RetryPolicy) : Ios.RetryPolicy where
  maxAttempts := policy.maxAttempts
  backoff := policy.backoff
  baseDelayMs := policy.baseDelayMs
  maxDelayMs := policy.maxDelayMs
  jitter := policy.jitter
  retryOnStatusCodes := policy.retryOnStatusCodes

/-- A dispatch of a cycle with these options, which do not change. -/
def Android.Dispatch.steady (accepts : Android.HttpRequest → Bool) (options : Android.SyncOptions)
    (p : Android.World × Android.Dispatch) (ev : Android.DispatchEvent) :
    Option (Android.World × Android.Dispatch) :=
  p.2.step accepts options options .TRUSTED p.1 ev

/-- `dispatchItem` for a request that is answered with this status. -/
def Android.Dispatch.answered (options : Android.SyncOptions) (entity : Android.SyncItemEntity)
    (code startedAt finishedAt : Int) (sample : ℚ) : List Android.DispatchEvent :=
  if (Android.Dispatch.queue entity).budgetSpent options then [.start startedAt, .refuse]
  else [.start startedAt, .send, .respond (.response code), .settle finishedAt sample]

/-- A cycle with this configuration, which does not change. -/
def Ios.Cycle.steady (scheme : String → Option String) (config : Ios.DispatcherConfig)
    (p : Ios.World × Ios.Cycle) (ev : Ios.CycleEvent) : Option (Ios.World × Ios.Cycle) :=
  p.2.step scheme config false p.1 ev

/-- One pass of the loop for a request that is answered with this status. -/
def Ios.Cycle.answered (code claimedAt writtenAt : Int) (sample : ℚ) : List Ios.CycleEvent :=
  [.markInFlight claimedAt, .prepare, .send, .answer (some code) none, .settle sample,
    .write writtenAt]

/-- What a response comes to, given whether its status is listed and whether this
was the last attempt. -/
def expected (code : Int) (listed last : Bool) (attempts : Int) : Disposition :=
  if 200 ≤ code ∧ code ≤ 299 then .succeeded
  else if code = 401 ∨ code = 403 then .failed .UNAUTHORIZED (attempts + 1)
  else if listed then
    if last then .failed .MAX_ATTEMPTS_EXCEEDED (attempts + 1) else .retried (attempts + 1)
  else .failed .SERVER_ERROR (attempts + 1)

/-! ## 1. What each dispatcher makes of a response -/

namespace Android

variable {t : SyncItems} {id : String}

theorem find?_updateStatus (h : id ∈ t.keys) (status : ItemStatus) (attempts : Int)
    (lastAttemptAt : Option Int) (lastErrorCode : Option SyncErrorCode) (nextRetryAt : Int) :
    ∃ r, (SyncItemDao.updateStatus id status attempts lastAttemptAt lastErrorCode nextRetryAt
        t).find? id = some r ∧
      r.status = status ∧ r.lastErrorCode = lastErrorCode ∧ r.attempts = attempts := by
  obtain ⟨r, hr, rfl⟩ := KeyedTable.mem_keys.mp h
  refine ⟨_, KeyedTable.find?_eq_some.mpr ⟨SyncItemDao.mem_updateStatus.mpr ⟨r, hr, rfl⟩, ?_⟩, ?_⟩
  · simp
  · simp

/-- The disposition that a write leaves. -/
def StoreWrite.disposition : StoreWrite → Disposition
  | .markSucceeded _ => .succeeded
  | .markRetry _ attempts _ _ _ => .retried attempts
  | .markFailed _ attempts _ code => .failed code attempts

theorem disposition_run (s : StoreWrite) (h : s.id ∈ t.keys) :
    androidDisposition s.id (s.run t) = some s.disposition := by
  cases s with
  | markSucceeded id =>
    have hgone : (SyncItemDao.deleteById id t).1.find? id = none := by
      rw [KeyedTable.find?, List.find?_eq_none]
      intro r hr
      simpa using (KeyedTable.mem_deleteWhere.mp hr).2
    show androidDisposition id (SyncItemDao.deleteById id t).1 = _
    rw [androidDisposition, hgone]
    rfl
  | markRetry id attempts lastAttemptAt code nextRetryAt =>
    have hid : id ∈ t.keys := h
    obtain ⟨r, hr, hstatus, hcode, hattempts⟩ := find?_updateStatus hid .PENDING attempts
      (some lastAttemptAt) (some code) nextRetryAt
    show androidDisposition id (SyncItemDao.updateStatus ..) = _
    rw [androidDisposition, hr]
    simp [Disposition.ofRow, hstatus, hattempts, StoreWrite.disposition]
  | markFailed id attempts lastAttemptAt code =>
    have hid : id ∈ t.keys := h
    obtain ⟨r, hr, hstatus, hcode, hattempts⟩ := find?_updateStatus hid .FAILED attempts
      (some lastAttemptAt) (some code) 0
    show androidDisposition id (SyncItemDao.updateStatus ..) = _
    rw [androidDisposition, hr]
    simp [Disposition.ofRow, hstatus, hcode, hattempts, StoreWrite.disposition]

/-- The settlement of an answered request. -/
theorem disposition_settle (options : SyncOptions) (entity : SyncItemEntity)
    (code startedAt finishedAt : Int) (sample : ℚ) (hattempts : 0 ≤ entity.attempts)
    (hnext : entity.attempts + 1 < 2 ^ 31) :
    (settle options .TRUSTED entity startedAt finishedAt sample
        (classifyStatus code options.retryPolicy)).write.disposition =
      expected code (RetryPolicyEvaluator.shouldRetryStatus code options.retryPolicy)
        (!RetryPolicyEvaluator.hasBudget (entity.attempts + 1) options.retryPolicy)
        entity.attempts := by
  have hwrap : wrap32 (entity.attempts + 1) = entity.attempts + 1 :=
    wrap32_eq_self (by omega) (by omega)
  unfold classifyStatus expected
  by_cases hok : 200 ≤ code ∧ code ≤ 299
  · simp only [if_pos hok]
    rfl
  · simp only [if_neg hok]
    by_cases hauth : code = 401 ∨ code = 403
    · simp only [if_pos hauth, settle, hwrap]
      rfl
    · simp only [if_neg hauth]
      cases hlisted : RetryPolicyEvaluator.shouldRetryStatus code options.retryPolicy with
      | true =>
        simp only [if_true, settle, hwrap]
        cases RetryPolicyEvaluator.hasBudget (entity.attempts + 1) options.retryPolicy <;> rfl
      | false =>
        simp only [Bool.false_eq_true, if_false, ite_self, settle, hwrap]
        rfl

variable {accepts : HttpRequest → Bool} {options : SyncOptions} {entity : SyncItemEntity}
  {code startedAt finishedAt : Int} {sample : ℚ} {w w' : World} {d' : Dispatch}

theorem budgetSpent_queue :
    (Dispatch.queue entity).budgetSpent options = true ↔
      RetryPolicyEvaluator.attemptBudget options.retryPolicy ≤ entity.attempts :=
  decide_eq_true_iff

/-- An item without budget is refused, and keeps its counter. -/
theorem disposition_of_spent (hid : entity.id ∈ w.table.keys)
    (hspent : (Dispatch.queue entity).budgetSpent options = true)
    (h : StepSystem.exec (Dispatch.steady accepts options) (w, Dispatch.queue entity)
      (Dispatch.answered options entity code startedAt finishedAt sample) = some (w', d')) :
    androidDisposition entity.id w'.table =
      some (.failed .MAX_ATTEMPTS_EXCEEDED entity.attempts) := by
  rw [Dispatch.answered, if_pos hspent] at h
  have hrefuse : Dispatch.budgetSpent { entity := entity, state := .started startedAt } options =
      true := hspent
  simp only [StepSystem.exec_cons, Dispatch.steady, Dispatch.step, Dispatch.queue,
    Option.bind_some, if_pos hrefuse, StepSystem.exec_nil] at h
  cases h
  exact disposition_run (refuse entity startedAt).write hid

/-- An item with budget is sent. -/
theorem disposition_of_budget (hid : entity.id ∈ w.table.keys) (hattempts : 0 ≤ entity.attempts)
    (hnext : entity.attempts + 1 < 2 ^ 31)
    (hbudget : ¬ (Dispatch.queue entity).budgetSpent options = true)
    (h : StepSystem.exec (Dispatch.steady accepts options) (w, Dispatch.queue entity)
      (Dispatch.answered options entity code startedAt finishedAt sample) = some (w', d')) :
    androidDisposition entity.id w'.table =
      some (expected code (RetryPolicyEvaluator.shouldRetryStatus code options.retryPolicy)
        (!RetryPolicyEvaluator.hasBudget (entity.attempts + 1) options.retryPolicy)
        entity.attempts) := by
  rw [Dispatch.answered, if_neg hbudget] at h
  have hsend : ¬ Dispatch.budgetSpent { entity := entity, state := .started startedAt } options =
      true := hbudget
  cases hbuild : buildRequest accepts entity options.defaultHeaders with
  | none =>
    simp [StepSystem.exec_cons, Dispatch.steady, Dispatch.step, Dispatch.queue, hsend, hbuild] at h
  | some request =>
    simp only [StepSystem.exec_cons, Dispatch.steady, Dispatch.step, Dispatch.queue,
      Option.bind_some, if_neg hsend, hbuild, StepSystem.exec_nil] at h
    cases h
    have hwrite := disposition_run (t := w.table)
      (settle options .TRUSTED entity startedAt finishedAt sample
        (classifyStatus code options.retryPolicy)).write (by rwa [settle_write_id])
    rw [settle_write_id, disposition_settle options entity code startedAt finishedAt sample
      hattempts hnext] at hwrite
    exact hwrite

end Android

namespace Ios

variable {scheme : String → Option String} {config : DispatcherConfig} {item : StoredSyncItem}
  {rest : List StoredSyncItem} {code claimedAt writtenAt : Int} {sample : ℚ} {w w' : World}
  {c c' : Cycle}

/-- The claimed row, as the write finds it. -/
theorem mem_claimed (claimedAt : Int) (hitem : item ∈ w.store.rows) :
    { item with
      status := .IN_FLIGHT
      attempts := item.attempts + 1
      lastAttemptAt := some claimedAt } ∈
        (SyncItemDao.markInFlight item.id claimedAt w.store).rows :=
  SyncItemDao.mem_markInFlight.mpr ⟨item, hitem, if_pos rfl⟩

/-- What an update by id leaves of a row that is there. -/
theorem iosDisposition_updateById {t : StoredItems} {f : StoredSyncItem → StoredSyncItem}
    (hf : ∀ r, (f r).id = r.id) {r : StoredSyncItem} (hr : r ∈ t.rows) :
    iosDisposition r.id (SyncItemDao.updateById r.id f hf t) =
      Disposition.ofRow (f r).status (f r).lastErrorCode (f r).attempts := by
  have hfind : (SyncItemDao.updateById r.id f hf t).find? r.id = some (f r) :=
    KeyedTable.find?_eq_some.mpr
      ⟨SyncItemDao.mem_updateById.mpr ⟨r, hr, if_pos rfl⟩, hf r⟩
  rw [iosDisposition, hfind]

/-- What the record of a failure leaves of the claimed row. -/
def FailureWrite.disposition (attempts : Int) : FailureWrite → Disposition
  | .markCredentialRejected _ _ attempts => .retried attempts
  | .markFailed errorCode => .failed errorCode attempts
  | .markPendingForRetry _ _ => .retried attempts

theorem iosDisposition_writeFailure {r : StoredSyncItem} {record : FailureRecord} {attempts : Int}
    (hr : r ∈ w.store.rows) (hid : r.id = item.id) (hattempts : r.attempts = attempts) :
    iosDisposition item.id (Cycle.writeFailure w c item rest record writtenAt).1.store =
      some (record.write.disposition attempts) := by
  unfold Cycle.writeFailure
  rw [← hid, ← hattempts]
  cases record.write with
  | markFailed | markPendingForRetry | markCredentialRejected =>
    refine iosDisposition_updateById ?_ hr
    exact fun _ => rfl

/-- The record of a response that is no success. -/
theorem disposition_record (hsource : config.source ≠ .persisted)
    (hok : ¬ (200 ≤ code ∧ code < 300)) :
    (recordFailureOutcome config config item (classifyResponse item.id (some code) none)
        sample).write.disposition (item.attempts + 1) =
      expected code (RetryPolicyEvaluator.shouldRetry code config.retryPolicy)
        (exhausted config.retryPolicy (item.attempts + 1)) item.attempts := by
  have hfresh (outcome : ItemDispatchOutcome) :
      isStaleCredentialRejection outcome config = false := by
    simp [isStaleCredentialRejection, hsource]
  have hok' : ¬ (200 ≤ code ∧ code ≤ 299) := by omega
  unfold recordFailureOutcome expected
  simp only [hfresh, Bool.false_eq_true, if_false, if_neg hok']
  by_cases hauth : code = 401 ∨ code = 403
  · simp only [classifyResponse, if_neg hok, if_pos hauth]
    rfl
  · simp only [classifyResponse, if_neg hok, if_neg hauth, decideRetry]
    cases RetryPolicyEvaluator.shouldRetry code config.retryPolicy <;>
      cases exhausted config.retryPolicy (item.attempts + 1) <;> rfl

/-- Whatever the budget, the item is sent. -/
theorem disposition_of_answer (hsource : config.source ≠ .persisted) (hitem : item ∈ w.store.rows)
    (hphase : c.phase = .claiming item rest)
    (h : StepSystem.exec (Cycle.steady scheme config) (w, c)
      (Cycle.answered code claimedAt writtenAt sample) = some (w', c')) :
    iosDisposition item.id w'.store =
      some (expected code (RetryPolicyEvaluator.shouldRetry code config.retryPolicy)
        (exhausted config.retryPolicy (item.attempts + 1)) item.attempts) := by
  obtain ⟨startedAt, total, attempted, succeededIds, failedIds, firstError, phase⟩ := c
  cases hphase
  have hclaimed := mem_claimed claimedAt hitem
  by_cases hurl : ((scheme item.url).map fun s => hasPrefix s "http") = some true
  · simp only [Cycle.answered, StepSystem.exec_cons, Cycle.steady, Cycle.step, Option.bind_some,
      if_pos hurl, StepSystem.exec_nil] at h
    by_cases hok : 200 ≤ code ∧ code < 300
    · have hsucceeded : classifyResponse item.id (some code) none =
          ⟨item.id, true, some code, none, none⟩ := if_pos hok
      simp only [hsucceeded, if_true, Option.bind_some] at h
      cases h
      have hgone : (SyncItemDao.delete item.id
          (SyncItemDao.markInFlight item.id claimedAt w.store)).1.find? item.id = none := by
        rw [KeyedTable.find?, List.find?_eq_none]
        intro r hr
        simpa using (KeyedTable.mem_deleteWhere.mp hr).2
      show iosDisposition item.id (SyncItemDao.delete item.id
        (SyncItemDao.markInFlight item.id claimedAt w.store)).1 = _
      rw [iosDisposition, hgone, expected, if_pos (by omega)]
    · have hfailed : (classifyResponse item.id (some code) none).succeeded = false := by
        simp only [classifyResponse, if_neg hok]
        split <;> rfl
      simp only [hfailed, Bool.false_eq_true, if_false, Option.bind_some] at h
      have hworld := congrArg Prod.fst (Option.some.inj h)
      change _ = w' at hworld
      rw [← hworld, ← disposition_record hsource hok]
      apply iosDisposition_writeFailure
      · exact hclaimed
      · rfl
      · rfl
  · simp only [Cycle.answered, StepSystem.exec_cons, Cycle.steady, Cycle.step, Option.bind_some,
      if_neg hurl] at h
    simp at h

end Ios

/-! ## 2. When the two agree -/

/-- A finite number within the 32-bit range. -/
def WithinInt32 (x : Double) : Prop := ∃ q, x.norm = .fin q ∧ -2 ^ 31 ≤ q ∧ q ≤ 2 ^ 31 - 1

theorem int_of_within {x : Double} (h : WithinInt32 x) : Ios.int x = some x.toInt32 := by
  obtain ⟨q, hq, hlow, hhigh⟩ := h
  have hlow' : -2 ^ 31 - 1 < Double.truncRat q :=
    (Double.lt_truncRat_iff (by norm_num)).mpr (by push_cast; linarith)
  have hhigh' : Double.truncRat q < 2 ^ 31 :=
    (Double.truncRat_lt_iff (by norm_num)).mpr (by push_cast; linarith)
  have hcut : x.toInt32 = Double.truncRat q := by
    cases x with
    | nan | inf => cases hq
    | negZero =>
      obtain rfl : (0 : ℚ) = q := Double.fin.inj hq
      rfl
    | fin r =>
      obtain rfl : r = q := Double.fin.inj hq
      show max (-2 ^ 31) (min (2 ^ 31 - 1) (Double.truncRat r)) = _
      omega
  rw [Ios.int, hq, hcut]
  exact if_pos ⟨by omega, by omega⟩

theorem mapM_int_of_within {xs : List Double} (h : ∀ x ∈ xs, WithinInt32 x) :
    xs.mapM Ios.int = some (xs.map Double.toInt32) := by
  induction xs with
  | nil => rfl
  | cons x xs ih =>
    rw [List.forall_mem_cons] at h
    rw [List.mapM_cons, int_of_within h.1, ih h.2]
    rfl

section Agreement

variable {policy : Android.RetryPolicy} {value : Ios.RetryPolicyValue}

/-- The numbers of the policy that decide a disposition. -/
theorem translate_bridged (hmax : WithinInt32 policy.maxAttempts)
    (hcodes : ∀ x ∈ policy.retryOnStatusCodes, WithinInt32 x)
    (h : policy.bridged.translate = some value) :
    value.maxAttempts = policy.maxAttempts.toInt32 ∧
      value.retryOnStatusCodes = policy.retryOnStatusCodes.map Double.toInt32 := by
  simp only [Ios.RetryPolicy.translate, Android.RetryPolicy.bridged, int_of_within hmax,
    mapM_int_of_within hcodes, Option.bind_eq_bind, Option.bind_some,
    Option.bind_eq_some_iff] at h
  obtain ⟨base, -, cap, -, hvalue⟩ := h
  cases hvalue
  exact ⟨rfl, rfl⟩

theorem listed_eq {code : Int}
    (h : value.retryOnStatusCodes = policy.retryOnStatusCodes.map Double.toInt32) :
    Ios.RetryPolicyEvaluator.shouldRetry code value =
      Android.RetryPolicyEvaluator.shouldRetryStatus (some code) policy := by
  rw [Ios.RetryPolicyEvaluator.shouldRetry, h]
  rw [Bool.eq_iff_iff]
  simp only [Android.RetryPolicyEvaluator.shouldRetryStatus, List.contains_iff_mem, List.mem_map,
    List.any_eq_true, beq_iff_eq]

/-- The two formulas for the last attempt are one. -/
theorem last_eq (attempts : ℕ) (h : value.maxAttempts = policy.maxAttempts.toInt32) :
    Ios.exhausted value ((attempts : Int) + 1) =
      !Android.RetryPolicyEvaluator.hasBudget ((attempts : Int) + 1) policy := by
  rw [Ios.exhausted, h, Android.RetryPolicyEvaluator.hasBudget,
    Android.RetryPolicyEvaluator.attemptBudget, Bool.eq_iff_iff]
  simp only [Bool.not_eq_true', decide_eq_true_iff, decide_eq_false_iff_not]
  omega

/-- A refusal counts no attempt, a response counts one. -/
theorem refused_ne_expected (code : Int) (listed last : Bool) (attempts : Int) :
    Disposition.failed .MAX_ATTEMPTS_EXCEEDED attempts ≠ expected code listed last attempts := by
  unfold expected
  intro h
  split at h
  · cases h
  · split at h
    · cases h
    · split at h
      · split at h
        · injection h with _ hattempts
          omega
        · cases h
      · cases h

end Agreement

/-- The two dispatchers make the same of a response exactly when there is an attempt
left in the budget as it is cut to an integer. -/
theorem dispositions_agree_iff {accepts : Android.HttpRequest → Bool}
    {scheme : String → Option String} {options : Android.SyncOptions}
    {config : Ios.DispatcherConfig} {entity : Android.SyncItemEntity} {item : Ios.StoredSyncItem}
    {rest : List Ios.StoredSyncItem} {c c' : Ios.Cycle} {d' : Android.Dispatch}
    {w w' : Android.World} {v v' : Ios.World} {code startedAt finishedAt claimedAt writtenAt : Int}
    {sample sample' : ℚ} {attempts : ℕ}
    (hmax : WithinInt32 options.retryPolicy.maxAttempts)
    (hcodes : ∀ x ∈ options.retryPolicy.retryOnStatusCodes, WithinInt32 x)
    (hpolicy : options.retryPolicy.bridged.translate = some config.retryPolicy)
    (hsource : config.source ≠ .persisted)
    (hentity : entity.attempts = attempts) (hid : entity.id ∈ w.table.keys)
    (hitem : item.attempts = attempts) (hrow : item ∈ v.store.rows)
    (hphase : c.phase = .claiming item rest)
    (handroid : StepSystem.exec (Android.Dispatch.steady accepts options)
      (w, Android.Dispatch.queue entity)
      (Android.Dispatch.answered options entity code startedAt finishedAt sample) = some (w', d'))
    (hios : StepSystem.exec (Ios.Cycle.steady scheme config) (v, c)
      (Ios.Cycle.answered code claimedAt writtenAt sample') = some (v', c')) :
    (∃ disposition, androidDisposition entity.id w'.table = some disposition ∧
        iosDisposition item.id v'.store = some disposition) ↔
      (attempts : Int) < max 1 options.retryPolicy.maxAttempts.toInt32 := by
  obtain ⟨hmax', hcodes'⟩ := translate_bridged hmax hcodes hpolicy
  have hanswer := Ios.disposition_of_answer hsource hrow hphase hios
  rw [hitem, listed_eq hcodes', last_eq attempts hmax'] at hanswer
  by_cases hspent : (Android.Dispatch.queue entity).budgetSpent options = true
  · have hrefused := Android.disposition_of_spent hid hspent handroid
    have hbudget := Android.budgetSpent_queue.mp hspent
    rw [hentity] at hrefused hbudget
    rw [hanswer, hrefused]
    constructor
    · rintro ⟨disposition, hrefusal, hexpected⟩
      cases hrefusal
      exact absurd (Option.some.inj hexpected).symm (refused_ne_expected _ _ _ _)
    · intro hlt
      rw [Android.RetryPolicyEvaluator.attemptBudget, max_comm] at hbudget
      omega
  · have hbudget := mt Android.budgetSpent_queue.mpr hspent
    rw [hentity, Android.RetryPolicyEvaluator.attemptBudget, max_comm] at hbudget
    have hrange : options.retryPolicy.maxAttempts.toInt32 ≤ 2 ^ 31 - 1 :=
      Double.truncSat_le (by decide) (by decide) _
    have hsent := Android.disposition_of_budget hid (by omega) (by omega) hspent handroid
    rw [hentity] at hsent
    exact ⟨fun _ => by omega, fun _ => ⟨_, hsent, hanswer⟩⟩

/-! ## 3. A budget of one attempt and a half -/

section Sample

def sampleOptions : Android.SyncOptions where
  strategy := .automatic
  retryPolicy :=
    { maxAttempts := .fin (3 / 2)
      backoff := .exponential
      baseDelayMs := .fin 1000
      maxDelayMs := .fin 60000
      jitter := false
      retryOnStatusCodes := [.fin 503] }
  batchSize := none
  requestTimeoutMs := none
  maxQueueSize := none
  persistQueue := none
  defaultHeaders := none

def sampleConfig : Ios.DispatcherConfig :=
  { Ios.sampleConfig with
    retryPolicy := (sampleOptions.retryPolicy.bridged.translate).getD Ios.samplePolicy }

def sampleEntity (attempts : Int) : Android.SyncItemEntity where
  id := "A"
  method := .POST
  url := "https://api.example.com/orders"
  headers := none
  body := some "\x7b\x7d"
  contentType := none
  priority := .NORMAL
  priorityWeight := 1
  createdAt := 1000
  attempts := attempts
  lastAttemptAt := none
  lastErrorCode := none
  status := .IN_FLIGHT
  metadata := none
  nextRetryAt := 0

def sampleWorld (attempts : Int) : Android.World where
  table := ⟨[sampleEntity attempts], by simp⟩
  issued := ["A"]
  results := []
  syncing := true
  requests := []
  succeeded := []
  events := []
  wakes := []

def sampleStore (attempts : Int) : Ios.World where
  store := ⟨[Ios.sampleStored "A" attempts], by simp⟩
  issued := ["A"]
  results := []
  isCycleRunning := true
  credentialHeldUntil := none
  lastResult := none
  requests := []
  refunds := []
  events := []
  wakes := []

/-- The only item of the batch is taken up. -/
def sampleCycle (attempts : Int) : Ios.Cycle where
  startedAt := 1000
  total := 1
  attempted := 1
  succeededIds := []
  failedIds := []
  firstError := none
  phase := .claiming (Ios.sampleStored "A" attempts) []

def sampleScheme : String → Option String := fun _ => some "https"

def androidAnswered (attempts code : Int) : Option (Android.World × Android.Dispatch) :=
  StepSystem.exec (Android.Dispatch.steady (fun _ => true) sampleOptions)
    (sampleWorld attempts, Android.Dispatch.queue (sampleEntity attempts))
    (Android.Dispatch.answered sampleOptions (sampleEntity attempts) code 2000 2100 0)

def iosAnswered (attempts code : Int) : Option (Ios.World × Ios.Cycle) :=
  StepSystem.exec (Ios.Cycle.steady sampleScheme sampleConfig)
    (sampleStore attempts, sampleCycle attempts) (Ios.Cycle.answered code 2000 2100 0)

/-- A first attempt that is answered with 503 uses up the budget on both platforms. -/
theorem dispositions_agree_first :
    ∃ w' d' v' c', androidAnswered 0 503 = some (w', d') ∧ iosAnswered 0 503 = some (v', c') ∧
      ∃ disposition, androidDisposition "A" w'.table = some disposition ∧
        iosDisposition "A" v'.store = some disposition := by
  obtain ⟨⟨w', d'⟩, handroid⟩ : ∃ p, androidAnswered 0 503 = some p :=
    Option.isSome_iff_exists.mp (by decide +kernel)
  obtain ⟨⟨v', c'⟩, hios⟩ : ∃ p, iosAnswered 0 503 = some p :=
    Option.isSome_iff_exists.mp (by decide +kernel)
  have hentity : (sampleEntity 0).attempts = ((0 : ℕ) : Int) := rfl
  refine ⟨w', d', v', c', handroid, hios, ?_⟩
  refine (dispositions_agree_iff ?_ ?_ ?_ ?_ hentity ?_ rfl ?_ rfl handroid hios).mpr ?_
  · exact ⟨3 / 2, rfl, by norm_num, by norm_num⟩
  · simp only [sampleOptions, List.forall_mem_singleton]
    exact ⟨503, rfl, by norm_num, by norm_num⟩
  · decide +kernel
  · decide
  · decide
  · exact List.mem_singleton_self _
  · decide +kernel

/-- One attempt is behind the item and the budget is one and a half. Android cuts the
budget to one and refuses the item, iOS sends it and it succeeds. -/
theorem fraction_of_an_attempt_splits :
    WithinInt32 sampleOptions.retryPolicy.maxAttempts ∧
      (.ofInt 1 : Double).lt sampleOptions.retryPolicy.maxAttempts = true ∧
      (androidAnswered 1 200).map (fun p => androidDisposition "A" p.1.table) =
        some (some (.failed .MAX_ATTEMPTS_EXCEEDED 1)) ∧
      (iosAnswered 1 200).map (fun p => iosDisposition "A" p.1.store) =
        some (some .succeeded) := by
  refine ⟨⟨3 / 2, rfl, by norm_num, by norm_num⟩, ?_, ?_, ?_⟩ <;> decide +kernel

end Sample

end SyncProvider
