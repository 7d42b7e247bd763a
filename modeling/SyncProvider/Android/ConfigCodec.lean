import SyncProvider.Android.Configuration
import Mathlib.Data.List.Nodup
import Mathlib.Logic.Equiv.List

/-!
# Android: how the stored configuration is encoded

`SyncConfigStore` key by key. A number is stored as its raw bits, the status codes as
one text, an absent field by the absence of its key, and of the headers the
preferences hold a flag only: their JSON is in the secret store.

The texts of numbers, the JSON of maps and the secret store are parameters.

Results:
1. `readStatusCodes_joined` : the status codes come back.
2. `load_save` : what is loaded after a save.
3. `toConfigPrefs_writeOptions` : the preferences of `ConfigPrefs` are these.
-/

namespace SyncProvider.Android.Raw

/-! ## The options -/

/-- A `Double`: its 64 bits. -/
abbrev KotlinDouble := BitVec 64

namespace KotlinDouble

def exponent (x : KotlinDouble) : ℕ := (x.extractLsb' 52 11).toNat

def fraction (x : KotlinDouble) : ℕ := (x.extractLsb' 0 52).toNat

def isNaN (x : KotlinDouble) : Bool := x.exponent == 0x7FF && x.fraction != 0

/-- Equal, where NaN equals NaN. -/
def Same (x y : KotlinDouble) : Prop := x = y ∨ x.isNaN = true ∧ y.isNaN = true

/-- The number. -/
def decode (x : KotlinDouble) : Double :=
  if x.exponent = 0x7FF then if x.fraction = 0 then .inf x.msb else .nan
  else
    let magnitude : ℚ :=
      if x.exponent = 0 then x.fraction / 2 ^ 1074
      else (2 ^ 52 + x.fraction) * 2 ^ x.exponent / 2 ^ 1075
    if x.msb then if magnitude = 0 then .negZero else .fin (-magnitude) else .fin magnitude

theorem Same.refl (x : KotlinDouble) : x.Same x := .inl rfl

theorem decode_of_isNaN {x : KotlinDouble} (h : x.isNaN = true) : x.decode = .nan := by
  simp only [isNaN, Bool.and_eq_true, beq_iff_eq, bne_iff_ne] at h
  rw [decode, if_pos h.1, if_neg h.2]

theorem Same.decode_eq {x y : KotlinDouble} (h : x.Same y) : x.decode = y.decode := by
  rcases h with rfl | ⟨hx, hy⟩
  · rfl
  · rw [decode_of_isNaN hx, decode_of_isNaN hy]

theorem map_decode_eq {xs ys : List KotlinDouble} (h : List.Forall₂ Same xs ys) :
    xs.map decode = ys.map decode := by
  induction h with
  | nil => rfl
  | cons hxy _ ih => rw [List.map_cons, List.map_cons, hxy.decode_eq, ih]

end KotlinDouble

structure RetryPolicy where
  maxAttempts : KotlinDouble
  backoff : BackoffStrategy
  baseDelayMs : KotlinDouble
  maxDelayMs : KotlinDouble
  jitter : Bool
  retryOnStatusCodes : List KotlinDouble
  deriving DecidableEq

/-- A `Map<String, String>`, in iteration order. -/
structure HeaderMap where
  entries : StringMap
  nodup : (entries.map Prod.fst).Nodup
  deriving DecidableEq

structure SyncOptions where
  strategy : SyncStrategy
  retryPolicy : RetryPolicy
  batchSize : Option KotlinDouble
  requestTimeoutMs : Option KotlinDouble
  maxQueueSize : Option KotlinDouble
  persistQueue : Option Bool
  defaultHeaders : Option HeaderMap
  deriving DecidableEq

structure EngineConfig where
  options : SyncOptions
  source : ConfigSource
  hasDefaultHeaders : Bool
  secretUnavailable : Bool
  deriving DecidableEq

/-! ## The platform -/

/-- Number texts and JSON. -/
structure Platform where
  /-- `Double.toString`. -/
  toText : KotlinDouble → String
  /-- `String.toDouble`, none when it throws. -/
  toDouble : String → Option KotlinDouble
  /-- The text of a `JSONObject` with these entries. -/
  toJson : HeaderMap → String
  /-- The entries of the parsed object, none when the parser throws. -/
  fromJson : String → Option HeaderMap

/-- Number texts and JSON lose nothing. -/
structure Platform.Faithful (p : Platform) : Prop where
  toText_ne : ∀ x, p.toText x ≠ ""
  toText_comma : ∀ x, ',' ∉ (p.toText x).toList
  toDouble_toText : ∀ x, ∃ y, p.toDouble (p.toText x) = some y ∧ y.Same x
  toJson_brace : ∀ m, (p.toJson m).toList.head? = some (Char.ofNat 0x7B)
  fromJson_toJson : ∀ m, ∃ m', p.fromJson (p.toJson m) = some m' ∧ m'.entries.Perm m.entries

inductive SecretRead where
  | Present (value : String)
  | Absent
  | Unavailable
  deriving DecidableEq

/-- A store for one secret, with states of type `σ`. -/
structure SecretStore (σ : Type) where
  read : σ → SecretRead
  /-- False when the value could not be stored. -/
  write : σ → String → Bool × σ
  delete : σ → σ

/-- What is written is stored, and read back. -/
structure SecretStore.Faithful {σ : Type} (secrets : SecretStore σ) : Prop where
  write_ok : ∀ s value, (secrets.write s value).1 = true
  read_write : ∀ s value, secrets.read (secrets.write s value).2 = .Present value

/-! ## The preferences -/

inductive PrefValue where
  | string (value : String)
  | long (value : BitVec 64)
  | boolean (value : Bool)
  deriving DecidableEq

/-- The stored preferences. -/
def Prefs := String → Option PrefValue

namespace Prefs

def contains (prefs : Prefs) (key : String) : Bool := (prefs key).isSome

/-- Throws when the value has another type, as do the two below. -/
def getString (prefs : Prefs) (key : String) (default : Option String) : Option (Option String) :=
  match prefs key with
  | none => some default
  | some (.string value) => some (some value)
  | some _ => none

def getLong (prefs : Prefs) (key : String) (default : BitVec 64) : Option (BitVec 64) :=
  match prefs key with
  | none => some default
  | some (.long value) => some value
  | some _ => none

def getBoolean (prefs : Prefs) (key : String) (default : Bool) : Option Bool :=
  match prefs key with
  | none => some default
  | some (.boolean value) => some value
  | some _ => none

/-- One edit: a value is put under the key, or the key is removed. -/
def edit (prefs : Prefs) (key : String) (value : Option PrefValue) : Prefs :=
  fun key' => if key' = key then value else prefs key'

def putString (prefs : Prefs) (key value : String) : Prefs := prefs.edit key (some (.string value))

def putBoolean (prefs : Prefs) (key : String) (value : Bool) : Prefs :=
  prefs.edit key (some (.boolean value))

/-- `putLong` with `toRawBits`. -/
def putDouble (prefs : Prefs) (key : String) (value : KotlinDouble) : Prefs :=
  prefs.edit key (some (.long value))

def remove (prefs : Prefs) (key : String) : Prefs := prefs.edit key none

def putOptionalDouble (prefs : Prefs) (key : String) (value : Option KotlinDouble) : Prefs :=
  match value with
  | some value => prefs.putDouble key value
  | none => prefs.remove key

@[simp] theorem edit_self (prefs : Prefs) (key : String) (value : Option PrefValue) :
    prefs.edit key value key = value := if_pos rfl

@[simp] theorem edit_of_ne {key key' : String} (prefs : Prefs) (value : Option PrefValue)
    (h : key' ≠ key) : prefs.edit key value key' = prefs key' := if_neg h

theorem putOptionalDouble_eq (prefs : Prefs) (key : String) (value : Option KotlinDouble) :
    prefs.putOptionalDouble key value = prefs.edit key (value.map .long) := by
  cases value <;> rfl

end Prefs

/-! ## `JsonMap` -/

namespace JsonMap

def encode (p : Platform) (map : Option HeaderMap) : Option String :=
  match map with
  | none => none
  | some map => if map.entries.isEmpty then none else some (p.toJson map)

/-- `isNullOrBlank` or a text that does not parse: none. -/
def decode (p : Platform) (raw : String) : Option HeaderMap :=
  if raw.toList.all Char.isWhitespace then none else p.fromJson raw

end JsonMap

/-! ## `SyncConfigStore` -/

namespace SyncConfigStore

def STATUS_CODE_SEPARATOR : Char := ','
def KEY_STRATEGY : String := "strategy"
def KEY_MAX_ATTEMPTS : String := "retry.maxAttempts"
def KEY_BACKOFF : String := "retry.backoff"
def KEY_BASE_DELAY_MS : String := "retry.baseDelayMs"
def KEY_MAX_DELAY_MS : String := "retry.maxDelayMs"
def KEY_JITTER : String := "retry.jitter"
def KEY_RETRY_STATUS_CODES : String := "retry.retryOnStatusCodes"
def KEY_BATCH_SIZE : String := "batchSize"
def KEY_REQUEST_TIMEOUT_MS : String := "requestTimeoutMs"
def KEY_MAX_QUEUE_SIZE : String := "maxQueueSize"
def KEY_PERSIST_QUEUE : String := "persistQueue"
def KEY_HAS_DEFAULT_HEADERS : String := "hasDefaultHeaders"

/-- `joinToString(STATUS_CODE_SEPARATOR)`. -/
def joined (texts : List String) : String :=
  String.ofList ([STATUS_CODE_SEPARATOR].intercalate (texts.map String.toList))

/-- `split(STATUS_CODE_SEPARATOR)`. -/
def split (text : String) : List String :=
  (text.toList.splitOn STATUS_CODE_SEPARATOR).map String.ofList

def writeOptions (p : Platform) (prefs : Prefs) (options : SyncOptions)
    (hasDefaultHeaders : Bool) : Prefs :=
  let policy := options.retryPolicy
  let prefs := prefs.putString KEY_STRATEGY (strategyName options.strategy)
  let prefs := prefs.putDouble KEY_MAX_ATTEMPTS policy.maxAttempts
  let prefs := prefs.putString KEY_BACKOFF (backoffName policy.backoff)
  let prefs := prefs.putDouble KEY_BASE_DELAY_MS policy.baseDelayMs
  let prefs := prefs.putDouble KEY_MAX_DELAY_MS policy.maxDelayMs
  let prefs := prefs.putBoolean KEY_JITTER policy.jitter
  let prefs := prefs.putString KEY_RETRY_STATUS_CODES
    (joined (policy.retryOnStatusCodes.map p.toText))
  let prefs := prefs.putOptionalDouble KEY_BATCH_SIZE options.batchSize
  let prefs := prefs.putOptionalDouble KEY_REQUEST_TIMEOUT_MS options.requestTimeoutMs
  let prefs := prefs.putOptionalDouble KEY_MAX_QUEUE_SIZE options.maxQueueSize
  let prefs := match options.persistQueue with
    | some persistQueue => prefs.putBoolean KEY_PERSIST_QUEUE persistQueue
    | none => prefs.remove KEY_PERSIST_QUEUE
  prefs.putBoolean KEY_HAS_DEFAULT_HEADERS hasDefaultHeaders

def readOptionalDouble (prefs : Prefs) (key : String) : Option (Option KotlinDouble) :=
  if prefs.contains key then (prefs.getLong key 0).map some else some none

/-- Throws when the key is missing. -/
def readDouble (prefs : Prefs) (key : String) : Option KotlinDouble :=
  (readOptionalDouble prefs key).bind id

def readStatusCodes (p : Platform) (prefs : Prefs) : Option (List KotlinDouble) := do
  let text ← prefs.getString KEY_RETRY_STATUS_CODES none
  ((split (text.getD "")).filter fun code => !code.isEmpty).mapM p.toDouble

def readPersistQueue (prefs : Prefs) : Option (Option Bool) :=
  if prefs.contains KEY_PERSIST_QUEUE then (prefs.getBoolean KEY_PERSIST_QUEUE false).map some
  else some none

/-- What `runCatching` runs, none when it throws. -/
def readFields (p : Platform) (prefs : Prefs) (strategy : String) : Option SyncOptions := do
  let strategy ← strategyValueOf strategy
  let maxAttempts ← readDouble prefs KEY_MAX_ATTEMPTS
  let backoff ← backoffValueOf ((← prefs.getString KEY_BACKOFF none).getD "")
  let baseDelayMs ← readDouble prefs KEY_BASE_DELAY_MS
  let maxDelayMs ← readDouble prefs KEY_MAX_DELAY_MS
  let jitter ← prefs.getBoolean KEY_JITTER false
  let retryOnStatusCodes ← readStatusCodes p prefs
  let batchSize ← readOptionalDouble prefs KEY_BATCH_SIZE
  let requestTimeoutMs ← readOptionalDouble prefs KEY_REQUEST_TIMEOUT_MS
  let maxQueueSize ← readOptionalDouble prefs KEY_MAX_QUEUE_SIZE
  let persistQueue ← readPersistQueue prefs
  return {
    strategy := strategy
    retryPolicy := {
      maxAttempts := maxAttempts
      backoff := backoff
      baseDelayMs := baseDelayMs
      maxDelayMs := maxDelayMs
      jitter := jitter
      retryOnStatusCodes := retryOnStatusCodes }
    batchSize := batchSize
    requestTimeoutMs := requestTimeoutMs
    maxQueueSize := maxQueueSize
    persistQueue := persistQueue
    defaultHeaders := none }

/-- The outer option is none when the first read throws. -/
def readOptions (p : Platform) (prefs : Prefs) : Option (Option SyncOptions) :=
  (prefs.getString KEY_STRATEGY none).map fun strategy => strategy.bind (readFields p prefs)

end SyncConfigStore

/-- What the store is made of. -/
structure Disk (σ : Type) where
  prefs : Prefs
  secrets : σ

namespace SyncConfigStore

variable {σ : Type}

/-- The persisted configuration, or none when `configureSync` never ran. The outer
option is none when it throws. -/
def load (p : Platform) (secrets : SecretStore σ) (disk : Disk σ) :
    Option (Option EngineConfig) := do
  match ← readOptions p disk.prefs with
  | none => return none
  | some options =>
    if ← disk.prefs.getBoolean KEY_HAS_DEFAULT_HEADERS false then
      let headers := match secrets.read disk.secrets with
        | .Present value => JsonMap.decode p value
        | _ => none
      return some ⟨{ options with defaultHeaders := headers }, .PERSISTED, true, headers.isNone⟩
    else return some ⟨options, .PERSISTED, false, false⟩

def save (p : Platform) (secrets : SecretStore σ) (options : SyncOptions) (disk : Disk σ) :
    Disk σ :=
  let headers := JsonMap.encode p options.defaultHeaders
  let stored := match headers with
    | none => secrets.delete disk.secrets
    | some headers =>
      let (written, stored) := secrets.write disk.secrets headers
      if written then stored else secrets.delete stored
  ⟨writeOptions p disk.prefs options headers.isSome, stored⟩

/-! ## 1. What is read back -/

/-- What a save leaves under each of its keys. -/
def written (p : Platform) (options : SyncOptions) (hasDefaultHeaders : Bool) :
    List (String × Option PrefValue) :=
  let policy := options.retryPolicy
  [(KEY_STRATEGY, some (.string (strategyName options.strategy))),
    (KEY_MAX_ATTEMPTS, some (.long policy.maxAttempts)),
    (KEY_BACKOFF, some (.string (backoffName policy.backoff))),
    (KEY_BASE_DELAY_MS, some (.long policy.baseDelayMs)),
    (KEY_MAX_DELAY_MS, some (.long policy.maxDelayMs)),
    (KEY_JITTER, some (.boolean policy.jitter)),
    (KEY_RETRY_STATUS_CODES, some (.string (joined (policy.retryOnStatusCodes.map p.toText)))),
    (KEY_BATCH_SIZE, options.batchSize.map .long),
    (KEY_REQUEST_TIMEOUT_MS, options.requestTimeoutMs.map .long),
    (KEY_MAX_QUEUE_SIZE, options.maxQueueSize.map .long),
    (KEY_PERSIST_QUEUE, options.persistQueue.map .boolean),
    (KEY_HAS_DEFAULT_HEADERS, some (.boolean hasDefaultHeaders))]

def storedKeys : List String :=
  [KEY_STRATEGY, KEY_MAX_ATTEMPTS, KEY_BACKOFF, KEY_BASE_DELAY_MS, KEY_MAX_DELAY_MS, KEY_JITTER,
    KEY_RETRY_STATUS_CODES, KEY_BATCH_SIZE, KEY_REQUEST_TIMEOUT_MS, KEY_MAX_QUEUE_SIZE,
    KEY_PERSIST_QUEUE, KEY_HAS_DEFAULT_HEADERS]

variable {p : Platform} {prefs : Prefs} {options : SyncOptions} {hasDefaultHeaders : Bool}

theorem writeOptions_eq_foldl : writeOptions p prefs options hasDefaultHeaders =
    (written p options hasDefaultHeaders).foldl (fun prefs edit => prefs.edit edit.1 edit.2)
      prefs := by
  unfold writeOptions
  simp only [Prefs.putOptionalDouble_eq]
  cases hpersist : options.persistQueue with
  | none =>
    simp [written, hpersist, Prefs.putString, Prefs.putDouble, Prefs.putBoolean, Prefs.remove]
  | some persistQueue =>
    simp [written, hpersist, Prefs.putString, Prefs.putDouble, Prefs.putBoolean]

theorem foldl_edit_of_notMem {edits : List (String × Option PrefValue)} {key : String}
    (h : key ∉ edits.map Prod.fst) :
    edits.foldl (fun prefs edit => prefs.edit edit.1 edit.2) prefs key = prefs key := by
  induction edits generalizing prefs with
  | nil => rfl
  | cons edit edits ih =>
    rw [List.map_cons, List.mem_cons, not_or] at h
    rw [List.foldl_cons, ih h.2, Prefs.edit_of_ne _ _ h.1]

/-- Of edits of different keys each one is seen. -/
theorem foldl_edit_of_mem {edits : List (String × Option PrefValue)} {key : String}
    {value : Option PrefValue} (hnodup : (edits.map Prod.fst).Nodup) (h : (key, value) ∈ edits) :
    edits.foldl (fun prefs edit => prefs.edit edit.1 edit.2) prefs key = value := by
  induction edits generalizing prefs with
  | nil => cases h
  | cons edit edits ih =>
    rw [List.map_cons, List.nodup_cons] at hnodup
    rw [List.foldl_cons]
    rcases List.mem_cons.mp h with rfl | h
    · rw [foldl_edit_of_notMem hnodup.1, Prefs.edit_self]
    · exact ih hnodup.2 h

/-- Whatever was there before. -/
theorem writeOptions_apply (p : Platform) (prefs : Prefs) (options : SyncOptions)
    (hasDefaultHeaders : Bool) : ∀ edit ∈ written p options hasDefaultHeaders,
      writeOptions p prefs options hasDefaultHeaders edit.1 = edit.2 := by
  intro edit hedit
  have hkeys : storedKeys.Nodup := by decide
  rw [writeOptions_eq_foldl]
  exact foldl_edit_of_mem hkeys hedit

theorem readOptionalDouble_of_eq {key : String} {value : Option KotlinDouble}
    (h : prefs key = value.map .long) : readOptionalDouble prefs key = some value := by
  cases value with
  | none => simp [readOptionalDouble, Prefs.contains, h]
  | some value => simp [readOptionalDouble, Prefs.contains, Prefs.getLong, h]

theorem readDouble_of_eq {key : String} {value : KotlinDouble}
    (h : prefs key = some (.long value)) : readDouble prefs key = some value := by
  have hsome : readOptionalDouble prefs key = some (some value) := readOptionalDouble_of_eq h
  rw [readDouble, hsome]
  rfl

theorem readPersistQueue_of_eq {value : Option Bool}
    (h : prefs KEY_PERSIST_QUEUE = value.map .boolean) : readPersistQueue prefs = some value := by
  cases value with
  | none => simp [readPersistQueue, Prefs.contains, h]
  | some value => simp [readPersistQueue, Prefs.contains, Prefs.getBoolean, h]

theorem split_joined {texts : List String} (hne : ∀ text ∈ texts, text ≠ "")
    (hcomma : ∀ text ∈ texts, ',' ∉ text.toList) :
    (split (joined texts)).filter (fun code => !code.isEmpty) = texts := by
  cases htexts : texts with
  | nil => decide
  | cons first rest =>
    rw [← htexts]
    have hsplit : split (joined texts) = texts := by
      have hlists : ∀ chars ∈ texts.map String.toList, STATUS_CODE_SEPARATOR ∉ chars := by
        intro chars hchars
        obtain ⟨text, htext, rfl⟩ := List.mem_map.mp hchars
        exact hcomma text htext
      have hsome : texts.map String.toList ≠ [] := by simp [htexts]
      rw [split, joined, String.toList_ofList,
        List.splitOn_intercalate STATUS_CODE_SEPARATOR hlists hsome, List.map_map]
      have hid : String.ofList ∘ String.toList = id := by
        funext text
        exact String.ofList_toList
      rw [hid, List.map_id]
    rw [hsplit, List.filter_eq_self]
    intro text htext
    simp [hne text htext]

theorem mapM_toDouble (hp : p.Faithful) (codes : List KotlinDouble) :
    ∃ codes', (codes.map p.toText).mapM p.toDouble = some codes' ∧
      List.Forall₂ KotlinDouble.Same codes' codes := by
  induction codes with
  | nil => exact ⟨[], rfl, .nil⟩
  | cons code codes ih =>
    obtain ⟨codes', hcodes, hsame⟩ := ih
    obtain ⟨code', hcode, hsame'⟩ := hp.toDouble_toText code
    refine ⟨code' :: codes', ?_, .cons hsame' hsame⟩
    rw [List.map_cons, List.mapM_cons, hcode, hcodes]
    rfl

theorem readStatusCodes_joined (hp : p.Faithful) {codes : List KotlinDouble}
    (h : prefs KEY_RETRY_STATUS_CODES = some (.string (joined (codes.map p.toText)))) :
    ∃ codes', readStatusCodes p prefs = some codes' ∧
      List.Forall₂ KotlinDouble.Same codes' codes := by
  obtain ⟨codes', hcodes, hsame⟩ := mapM_toDouble hp codes
  refine ⟨codes', ?_, hsame⟩
  have hfilter : (split (joined (codes.map p.toText))).filter (fun code => !code.isEmpty) =
      codes.map p.toText := by
    apply split_joined
    · intro text htext
      obtain ⟨code, -, rfl⟩ := List.mem_map.mp htext
      exact hp.toText_ne code
    · intro text htext
      obtain ⟨code, -, rfl⟩ := List.mem_map.mp htext
      exact hp.toText_comma code
  simp only [readStatusCodes, Prefs.getString, h, Option.bind_eq_bind, Option.bind_some,
    Option.getD_some, hfilter, hcodes]

/-- The fields of the options come back, the headers apart. -/
theorem readOptions_writeOptions (hp : p.Faithful) (prefs : Prefs) (options : SyncOptions)
    (hasDefaultHeaders : Bool) :
    ∃ codes, List.Forall₂ KotlinDouble.Same codes options.retryPolicy.retryOnStatusCodes ∧
      readOptions p (writeOptions p prefs options hasDefaultHeaders) = some (some
        { options with
          retryPolicy := { options.retryPolicy with retryOnStatusCodes := codes }
          defaultHeaders := none }) := by
  have hwritten := writeOptions_apply p prefs options hasDefaultHeaders
  generalize writeOptions p prefs options hasDefaultHeaders = prefs' at hwritten ⊢
  simp only [written, List.forall_mem_cons] at hwritten
  obtain ⟨hstrategy, hmaxAttempts, hbackoff, hbaseDelayMs, hmaxDelayMs, hjitter, hcodes, hbatchSize,
    hrequestTimeoutMs, hmaxQueueSize, hpersistQueue, -⟩ := hwritten
  obtain ⟨codes, hread, hsame⟩ := readStatusCodes_joined hp hcodes
  refine ⟨codes, hsame, ?_⟩
  have hname : strategyValueOf (strategyName options.strategy) = some options.strategy := by
    cases options.strategy <;> rfl
  have hcurve : backoffValueOf (backoffName options.retryPolicy.backoff) =
      some options.retryPolicy.backoff := by
    cases options.retryPolicy.backoff <;> rfl
  simp only [readOptions, readFields, Prefs.getString, Prefs.getBoolean, hstrategy, hbackoff,
    hjitter, hname, hcurve, hread, readDouble_of_eq hmaxAttempts, readDouble_of_eq hbaseDelayMs,
    readDouble_of_eq hmaxDelayMs, readOptionalDouble_of_eq hbatchSize,
    readOptionalDouble_of_eq hrequestTimeoutMs, readOptionalDouble_of_eq hmaxQueueSize,
    readPersistQueue_of_eq hpersistQueue, Option.bind_eq_bind, Option.bind_some, Option.map_some,
    Option.getD_some, Option.pure_def]

/-- The flag, next to the options. -/
theorem getBoolean_writeOptions :
    (writeOptions p prefs options hasDefaultHeaders).getBoolean KEY_HAS_DEFAULT_HEADERS false =
      some hasDefaultHeaders := by
  have hflag : writeOptions p prefs options hasDefaultHeaders KEY_HAS_DEFAULT_HEADERS =
      some (.boolean hasDefaultHeaders) :=
    writeOptions_apply p prefs options hasDefaultHeaders
      (KEY_HAS_DEFAULT_HEADERS, some (.boolean hasDefaultHeaders)) (by simp [written])
  rw [Prefs.getBoolean, hflag]

end SyncConfigStore

/-! ## 2. What a load returns -/

/-- The same options. NaN equals NaN, no headers equal an empty map, and maps have no
order. -/
structure SyncOptions.Same (a b : SyncOptions) : Prop where
  strategy : a.strategy = b.strategy
  maxAttempts : a.retryPolicy.maxAttempts.Same b.retryPolicy.maxAttempts
  backoff : a.retryPolicy.backoff = b.retryPolicy.backoff
  baseDelayMs : a.retryPolicy.baseDelayMs.Same b.retryPolicy.baseDelayMs
  maxDelayMs : a.retryPolicy.maxDelayMs.Same b.retryPolicy.maxDelayMs
  jitter : a.retryPolicy.jitter = b.retryPolicy.jitter
  retryOnStatusCodes : List.Forall₂ KotlinDouble.Same a.retryPolicy.retryOnStatusCodes
    b.retryPolicy.retryOnStatusCodes
  batchSize : Option.Rel KotlinDouble.Same a.batchSize b.batchSize
  requestTimeoutMs : Option.Rel KotlinDouble.Same a.requestTimeoutMs b.requestTimeoutMs
  maxQueueSize : Option.Rel KotlinDouble.Same a.maxQueueSize b.maxQueueSize
  persistQueue : a.persistQueue = b.persistQueue
  defaultHeaders : ((a.defaultHeaders.map HeaderMap.entries).getD []).Perm
    ((b.defaultHeaders.map HeaderMap.entries).getD [])

namespace JsonMap

variable {p : Platform}

theorem encode_eq_none_iff {map : Option HeaderMap} :
    encode p map = none ↔ (map.map HeaderMap.entries).getD [] = [] := by
  cases map with
  | none => simp [encode]
  | some map => cases hentries : map.entries <;> simp [encode, hentries]

/-- The text of a JSON object is not blank. -/
theorem decode_encode (hp : p.Faithful) {map : Option HeaderMap} {raw : String}
    (h : encode p map = some raw) : ∃ headers, decode p raw = some headers ∧
      headers.entries.Perm ((map.map HeaderMap.entries).getD []) := by
  cases map with
  | none => cases h
  | some map =>
    simp only [encode] at h
    split at h
    · cases h
    · cases h
      obtain ⟨headers, hheaders, hperm⟩ := hp.fromJson_toJson map
      have hblank : ((p.toJson map).toList.all Char.isWhitespace) = false := by
        have hbrace := hp.toJson_brace map
        cases htext : (p.toJson map).toList with
        | nil => simp [htext] at hbrace
        | cons c cs =>
          rw [htext, List.head?_cons, Option.some_inj] at hbrace
          rw [hbrace, List.all_cons]
          rfl
      refine ⟨headers, ?_, hperm⟩
      rw [decode, hblank]
      exact hheaders

end JsonMap

theorem SyncOptions.same_of_codes {options : SyncOptions} {codes : List KotlinDouble}
    (headers : Option HeaderMap)
    (hcodes : List.Forall₂ KotlinDouble.Same codes options.retryPolicy.retryOnStatusCodes)
    (hheaders : ((headers.map HeaderMap.entries).getD []).Perm
      ((options.defaultHeaders.map HeaderMap.entries).getD [])) :
    SyncOptions.Same
      { options with
        retryPolicy := { options.retryPolicy with retryOnStatusCodes := codes }
        defaultHeaders := headers } options := by
  have hrel : ∀ x : Option KotlinDouble, Option.Rel KotlinDouble.Same x x := by
    intro x
    cases x with
    | none => exact .none
    | some x => exact .some (.refl x)
  exact ⟨rfl, .refl _, rfl, .refl _, .refl _, rfl, hcodes, hrel _, hrel _, hrel _, rfl, hheaders⟩

/-- For all options, and whatever is stored before: what is loaded after a save are the
options that were saved, with headers exactly when they have any, and readable. -/
theorem load_save {σ : Type} {p : Platform} (hp : p.Faithful) {secrets : SecretStore σ}
    (hsecrets : secrets.Faithful) (options : SyncOptions) (disk : Disk σ) :
    ∃ config, SyncConfigStore.load p secrets
        (SyncConfigStore.save p secrets options disk) = some (some config) ∧
      config.options.Same options ∧ config.source = .PERSISTED ∧
      (config.hasDefaultHeaders = true ↔
        (options.defaultHeaders.map HeaderMap.entries).getD [] ≠ []) ∧
      config.secretUnavailable = false := by
  have hread := SyncConfigStore.readOptions_writeOptions hp disk.prefs options
  cases hencode : JsonMap.encode p options.defaultHeaders with
  | none =>
    have hnone := JsonMap.encode_eq_none_iff.mp hencode
    obtain ⟨codes, hcodes, hoptions⟩ := hread false
    refine ⟨⟨_, .PERSISTED, false, false⟩, ?_, SyncOptions.same_of_codes none hcodes ?_,
      rfl, ?_, rfl⟩
    · simp only [SyncConfigStore.load, SyncConfigStore.save, hencode, Option.isSome_none, hoptions,
        SyncConfigStore.getBoolean_writeOptions]
      rfl
    · rw [hnone]
      exact .refl _
    · simp [hnone]
  | some raw =>
    have hsome : (options.defaultHeaders.map HeaderMap.entries).getD [] ≠ [] := by
      intro hnil
      rw [JsonMap.encode_eq_none_iff.mpr hnil] at hencode
      cases hencode
    obtain ⟨codes, hcodes, hoptions⟩ := hread true
    obtain ⟨headers, hdecode, hperm⟩ := JsonMap.decode_encode hp hencode
    refine ⟨⟨_, .PERSISTED, true, false⟩, ?_,
      SyncOptions.same_of_codes (some headers) hcodes hperm, rfl, ?_, rfl⟩
    · simp only [SyncConfigStore.load, SyncConfigStore.save, hencode, Option.isSome_some, hoptions,
        SyncConfigStore.getBoolean_writeOptions, hsecrets.write_ok, if_true]
      simp [hsecrets.read_write, hdecode]
    · simp [hsome]

section Sample

/-- Saved last before, with another type under one key. -/
def staleDisk : Disk SecretRead :=
  ⟨fun key => if key = "batchSize" then some (.string "9") else some (.boolean true),
    .Present "stale"⟩

/-- A store that keeps the value as it is. -/
def plainSecrets : SecretStore SecretRead where
  read := id
  write _ value := (true, .Present value)
  delete _ := .Absent

theorem plainSecrets_faithful : plainSecrets.Faithful := ⟨fun _ _ => rfl, fun _ _ => rfl⟩

/-- 503. -/
def code503 : KotlinDouble := 0x407F700000000000

def tenantHeaders : HeaderMap := ⟨[("X-Tenant", "42")], by simp⟩

def tenantJson : String :=
  String.ofList ([Char.ofNat 0x7B] ++ "\"X-Tenant\":\"42\"".toList ++ [Char.ofNat 0x7D])

def codesOf (m : StringMap) : List (List ℕ × List ℕ) :=
  m.map fun entry => (entry.1.toList.map Char.toNat, entry.2.toList.map Char.toNat)

def ofCodes (codes : List (List ℕ × List ℕ)) : StringMap :=
  codes.map fun entry =>
    (String.ofList (entry.1.map Char.ofNat), String.ofList (entry.2.map Char.ofNat))

theorem ofCodes_codesOf (m : StringMap) : ofCodes (codesOf m) = m := by
  have hchars : ∀ s : String, String.ofList ((s.toList.map Char.toNat).map Char.ofNat) = s := by
    intro s
    have hid : Char.ofNat ∘ Char.toNat = id := by
      funext c
      exact Char.ofNat_toNat c
    rw [List.map_map, hid, List.map_id, String.ofList_toList]
  rw [ofCodes, codesOf, List.map_map]
  conv_rhs => rw [← List.map_id m]
  refine List.map_congr_left fun entry _ => ?_
  simp only [Function.comp_apply, hchars, id_eq]

/-- The texts of the sample options are the platform's. Any other number or map has a
text of its own. -/
def samplePlatform : Platform where
  toText x := if x = code503 then "503.0" else String.ofList (List.replicate (x.toNat + 1) 'x')
  toDouble text := some (if text = "503.0" then code503 else BitVec.ofNat 64 (text.length - 1))
  toJson m :=
    if m = tenantHeaders then tenantJson
    else String.ofList
      (Char.ofNat 0x7B :: List.replicate (Encodable.encode (codesOf m.entries)) 'x')
  fromJson text :=
    if text = tenantJson then some tenantHeaders
    else
      ((@Encodable.decode (List (List ℕ × List ℕ)) _ (text.length - 1)).map ofCodes).bind
        fun m => if h : (m.map Prod.fst).Nodup then some ⟨m, h⟩ else none

theorem samplePlatform_faithful : samplePlatform.Faithful where
  toText_ne x := by
    simp only [samplePlatform]
    split
    · decide
    · intro h
      have hlength := congrArg String.length h
      rw [String.length_ofList, List.length_replicate] at hlength
      cases hlength
  toText_comma x := by
    simp only [samplePlatform]
    split
    · decide
    · rw [String.toList_ofList]
      intro h
      cases (List.mem_replicate.mp h).2
  toDouble_toText x := by
    refine ⟨x, ?_, .refl x⟩
    simp only [samplePlatform]
    by_cases hx : x = code503
    · rw [if_pos hx, if_pos rfl, hx]
    · have hne : String.ofList (List.replicate (x.toNat + 1) 'x') ≠ "503.0" := by
        intro h
        have hhead := congrArg (fun s : String => s.toList.head?) h
        rw [String.toList_ofList, List.replicate_succ, List.head?_cons] at hhead
        revert hhead
        decide
      rw [if_neg hx, if_neg hne, String.length_ofList, List.length_replicate, Nat.add_sub_cancel,
        BitVec.ofNat_toNat, BitVec.setWidth_eq]
  toJson_brace m := by
    simp only [samplePlatform]
    split
    · decide
    · rw [String.toList_ofList, List.head?_cons]
  fromJson_toJson m := by
    refine ⟨m, ?_, .refl _⟩
    simp only [samplePlatform]
    by_cases hm : m = tenantHeaders
    · rw [if_pos hm, if_pos rfl, hm]
    · have hne : String.ofList (Char.ofNat 0x7B ::
          List.replicate (Encodable.encode (codesOf m.entries)) 'x') ≠ tenantJson := by
        intro h
        have hquote : '"' ∈ tenantJson.toList := by decide
        rw [← h, String.toList_ofList, List.mem_cons] at hquote
        rcases hquote with hquote | hquote
        · revert hquote
          decide
        · cases (List.mem_replicate.mp hquote).2
      rw [if_neg hm, if_neg hne, String.length_ofList, List.length_cons, List.length_replicate,
        Nat.add_sub_cancel, Encodable.encodek, Option.map_some, Option.bind_some, ofCodes_codesOf,
        dif_pos m.nodup]

/-- A NaN with a payload, a negative zero, an infinity, and a key to be removed. -/
def unusualOptions : SyncOptions where
  strategy := .manual
  retryPolicy := ⟨0x7FF0000000000001, .fibonacci, 0x8000000000000000, 0x7FF0000000000000, false,
    [code503]⟩
  batchSize := none
  requestTimeoutMs := some 0
  maxQueueSize := none
  persistQueue := some false
  defaultHeaders := some tenantHeaders

theorem load_save_of_stale :
    ∃ config, SyncConfigStore.load samplePlatform plainSecrets
        (SyncConfigStore.save samplePlatform plainSecrets unusualOptions staleDisk) =
          some (some config) ∧
      config.options.Same unusualOptions ∧ config.hasDefaultHeaders = true := by
  obtain ⟨config, hload, hsame, -, hheaders, -⟩ :=
    load_save samplePlatform_faithful plainSecrets_faithful unusualOptions staleDisk
  exact ⟨config, hload, hsame, hheaders.mpr (by decide)⟩

end Sample

/-! ## 3. The same preferences, decoded -/

def SyncOptions.toOptions (options : SyncOptions) : Android.SyncOptions where
  strategy := options.strategy
  retryPolicy :=
    { maxAttempts := options.retryPolicy.maxAttempts.decode
      backoff := options.retryPolicy.backoff
      baseDelayMs := options.retryPolicy.baseDelayMs.decode
      maxDelayMs := options.retryPolicy.maxDelayMs.decode
      jitter := options.retryPolicy.jitter
      retryOnStatusCodes := options.retryPolicy.retryOnStatusCodes.map KotlinDouble.decode }
  batchSize := options.batchSize.map KotlinDouble.decode
  requestTimeoutMs := options.requestTimeoutMs.map KotlinDouble.decode
  maxQueueSize := options.maxQueueSize.map KotlinDouble.decode
  persistQueue := options.persistQueue
  defaultHeaders := options.defaultHeaders.map HeaderMap.entries

namespace Prefs

def string? (prefs : Prefs) (key : String) : Option String := (prefs.getString key none).join

def double? (prefs : Prefs) (key : String) : Option Double :=
  (SyncConfigStore.readOptionalDouble prefs key).join.map KotlinDouble.decode

def boolean? (prefs : Prefs) (key : String) : Option Bool :=
  if prefs.contains key then prefs.getBoolean key false else none

end Prefs

/-- The values, decoded. -/
def SyncConfigStore.toConfigPrefs (p : Platform) (prefs : Prefs) : ConfigPrefs where
  strategy := prefs.string? KEY_STRATEGY
  maxAttempts := prefs.double? KEY_MAX_ATTEMPTS
  backoff := prefs.string? KEY_BACKOFF
  baseDelayMs := prefs.double? KEY_BASE_DELAY_MS
  maxDelayMs := prefs.double? KEY_MAX_DELAY_MS
  jitter := prefs.boolean? KEY_JITTER
  retryOnStatusCodes :=
    (prefs.string? KEY_RETRY_STATUS_CODES).bind fun _ =>
      (readStatusCodes p prefs).map fun codes => codes.map KotlinDouble.decode
  batchSize := prefs.double? KEY_BATCH_SIZE
  requestTimeoutMs := prefs.double? KEY_REQUEST_TIMEOUT_MS
  maxQueueSize := prefs.double? KEY_MAX_QUEUE_SIZE
  persistQueue := prefs.boolean? KEY_PERSIST_QUEUE
  hasDefaultHeaders := prefs.boolean? KEY_HAS_DEFAULT_HEADERS

/-- A save leaves the preferences that `ConfigPrefs` has after it. -/
theorem toConfigPrefs_writeOptions {p : Platform} (hp : p.Faithful) (prefs : Prefs)
    (options : SyncOptions) (hasDefaultHeaders : Bool) (prefs' : ConfigPrefs) :
    SyncConfigStore.toConfigPrefs p
        (SyncConfigStore.writeOptions p prefs options hasDefaultHeaders) =
      Android.SyncConfigStore.writeOptions prefs' options.toOptions hasDefaultHeaders := by
  have hwritten := SyncConfigStore.writeOptions_apply p prefs options hasDefaultHeaders
  generalize SyncConfigStore.writeOptions p prefs options hasDefaultHeaders = saved at hwritten ⊢
  simp only [SyncConfigStore.written, List.forall_mem_cons] at hwritten
  obtain ⟨hstrategy, hmaxAttempts, hbackoff, hbaseDelayMs, hmaxDelayMs, hjitter, hcodes, hbatchSize,
    hrequestTimeoutMs, hmaxQueueSize, hpersistQueue, hhasDefaultHeaders, -⟩ := hwritten
  obtain ⟨codes, hread, hsame⟩ := SyncConfigStore.readStatusCodes_joined hp hcodes
  have hdouble : ∀ key (value : Option KotlinDouble), saved key = value.map .long →
      saved.double? key = value.map KotlinDouble.decode := by
    intro key value h
    rw [Prefs.double?, SyncConfigStore.readOptionalDouble_of_eq h]
    rfl
  have hstring : ∀ key value, saved key = some (.string value) →
      saved.string? key = some value := by
    intro key value h
    rw [Prefs.string?, Prefs.getString, h]
    rfl
  have hboolean : ∀ key (value : Option Bool), saved key = value.map .boolean →
      saved.boolean? key = value := by
    intro key value h
    cases value <;> simp [Prefs.boolean?, Prefs.contains, Prefs.getBoolean, h]
  have hdecoded := KotlinDouble.map_decode_eq hsame
  simp only [SyncConfigStore.toConfigPrefs, Android.SyncConfigStore.writeOptions,
    SyncOptions.toOptions, hstring _ _ hstrategy, hstring _ _ hbackoff, hstring _ _ hcodes,
    hdouble _ (some _) hmaxAttempts, hdouble _ (some _) hbaseDelayMs,
    hdouble _ (some _) hmaxDelayMs, hdouble _ _ hbatchSize, hdouble _ _ hrequestTimeoutMs,
    hdouble _ _ hmaxQueueSize, hboolean _ (some _) hjitter, hboolean _ _ hpersistQueue,
    hboolean _ (some _) hhasDefaultHeaders, hread, hdecoded, Option.bind_some, Option.map_some]

end SyncProvider.Android.Raw
