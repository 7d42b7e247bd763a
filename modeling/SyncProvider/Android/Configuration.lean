import SyncProvider.Android.Options
import SyncProvider.Lib.Reads
import SyncProvider.Lib.StepSystem
import SyncProvider.Lib.Writers
import Mathlib.Logic.Function.Basic

/-!
# Android: `configure` and the recovery of the secret

A call of `configure` sets the configuration in memory, then the queue cap, then
the stored secret and the preferences, all under one mutex. A cycle or a wake
that finds the default headers unreadable loads the configuration again, outside
the mutex and one access at a time, and swaps it in by reference.

Results:
1. `run_load` : what `load` returns after a `save`.
2. `run_serial` : the calls do not overlap, and no recovery undoes one.
3. `configured_as_unit` : the configuration is applied as a unit.
-/

namespace SyncProvider.Android

/-! ## The stored configuration -/

/-- Where the active configuration came from. -/
inductive ConfigSource where
  /-- Nothing was ever configured. -/
  | DEFAULTS
  /-- Restored from disk: this process has not heard from JS yet. -/
  | PERSISTED
  /-- Set by `configureSync` in this process. -/
  | LIVE
  deriving DecidableEq

/-- The configuration a runtime operates under. -/
structure EngineConfig where
  options : SyncOptions
  source : ConfigSource
  hasDefaultHeaders : Bool
  secretUnavailable : Bool
  deriving DecidableEq

/-- `SyncStrategy.name`. -/
def strategyName : SyncStrategy → String
  | .automatic => "AUTOMATIC"
  | .manual => "MANUAL"
  | .opportunistic => "OPPORTUNISTIC"

/-- `SyncStrategy.valueOf`. -/
def strategyValueOf : String → Option SyncStrategy
  | "AUTOMATIC" => some .automatic
  | "MANUAL" => some .manual
  | "OPPORTUNISTIC" => some .opportunistic
  | _ => none

/-- `BackoffStrategy.name`. -/
def backoffName : BackoffStrategy → String
  | .linear => "LINEAR"
  | .exponential => "EXPONENTIAL"
  | .fibonacci => "FIBONACCI"

/-- `BackoffStrategy.valueOf`. -/
def backoffValueOf : String → Option BackoffStrategy
  | "LINEAR" => some .linear
  | "EXPONENTIAL" => some .exponential
  | "FIBONACCI" => some .fibonacci
  | _ => none

/-- The preferences, key by key. A number stands for its raw bits, and the status
codes stand for the text that joins them. -/
structure ConfigPrefs where
  strategy : Option String := none
  maxAttempts : Option Double := none
  backoff : Option String := none
  baseDelayMs : Option Double := none
  maxDelayMs : Option Double := none
  jitter : Option Bool := none
  retryOnStatusCodes : Option (List Double) := none
  batchSize : Option Double := none
  requestTimeoutMs : Option Double := none
  maxQueueSize : Option Double := none
  persistQueue : Option Bool := none
  hasDefaultHeaders : Option Bool := none
  deriving DecidableEq

/-- What `SyncConfigStore` keeps. The secret is the JSON of a map. -/
structure ConfigDisk where
  prefs : ConfigPrefs
  secret : Option StringMap
  deriving DecidableEq

inductive SecretRead where
  | Present (value : StringMap)
  /-- Nothing is stored. -/
  | Absent
  /-- Something is stored but cannot be decrypted, now or ever. -/
  | Unavailable

/-- What an access finds: the disk, and whether the Keystore decrypts. -/
structure ConfigView where
  disk : ConfigDisk
  decrypts : Bool

namespace SyncConfigStore

open Reads (read)

/-- `JsonMap.encode`. -/
def encode (map : Option StringMap) : Option StringMap := map.filter fun m => !m.isEmpty

/-- One commit replaces or removes every key. -/
def writeOptions (prefs : ConfigPrefs) (options : SyncOptions) (hasDefaultHeaders : Bool) :
    ConfigPrefs :=
  let policy := options.retryPolicy
  { prefs with
    strategy := some (strategyName options.strategy)
    maxAttempts := some policy.maxAttempts
    backoff := some (backoffName policy.backoff)
    baseDelayMs := some policy.baseDelayMs
    maxDelayMs := some policy.maxDelayMs
    jitter := some policy.jitter
    retryOnStatusCodes := some policy.retryOnStatusCodes
    batchSize := options.batchSize
    requestTimeoutMs := options.requestTimeoutMs
    maxQueueSize := options.maxQueueSize
    persistQueue := options.persistQueue
    hasDefaultHeaders := some hasDefaultHeaders }

/-- `contains`, then the value. The key can be removed in between. -/
def readOptional {α : Type} (field : ConfigPrefs → Option α) (default : α) :
    Reads ConfigView (Option α) := do
  if ← read fun v => (field v.disk.prefs).isSome then
    return some ((← read fun v => field v.disk.prefs).getD default)
  else
    return none

def readOptionalDouble (field : ConfigPrefs → Option Double) : Reads ConfigView (Option Double) :=
  readOptional field (.fin 0)

/-- Throws when the key is missing. -/
def readDouble (field : ConfigPrefs → Option Double) : OptionT (Reads ConfigView) Double :=
  OptionT.mk (readOptionalDouble field)

/-- The constructor calls of `readOptions`. -/
def readFields (strategy : String) : OptionT (Reads ConfigView) SyncOptions := do
  let strategy ← OptionT.mk (pure (strategyValueOf strategy))
  let maxAttempts ← readDouble (·.maxAttempts)
  let backoff ← OptionT.mk (read fun v => backoffValueOf (v.disk.prefs.backoff.getD ""))
  let baseDelayMs ← readDouble (·.baseDelayMs)
  let maxDelayMs ← readDouble (·.maxDelayMs)
  let jitter ← OptionT.lift (read fun v => v.disk.prefs.jitter.getD false)
  let codes ← OptionT.lift (read fun v => v.disk.prefs.retryOnStatusCodes.getD [])
  let batchSize ← OptionT.lift (readOptionalDouble (·.batchSize))
  let requestTimeoutMs ← OptionT.lift (readOptionalDouble (·.requestTimeoutMs))
  let maxQueueSize ← OptionT.lift (readOptionalDouble (·.maxQueueSize))
  let persistQueue ← OptionT.lift (readOptional (·.persistQueue) false)
  return {
    strategy := strategy
    retryPolicy := {
      maxAttempts := maxAttempts
      backoff := backoff
      baseDelayMs := baseDelayMs
      maxDelayMs := maxDelayMs
      jitter := jitter
      retryOnStatusCodes := codes }
    batchSize := batchSize
    requestTimeoutMs := requestTimeoutMs
    maxQueueSize := maxQueueSize
    persistQueue := persistQueue
    defaultHeaders := none }

def readOptions : Reads ConfigView (Option SyncOptions) := do
  match ← read (·.disk.prefs.strategy) with
  | none => return none
  | some strategy => (readFields strategy).run

/-- `SecretStore.read`. -/
def readSecret : Reads ConfigView SecretRead :=
  read fun v =>
    match v.disk.secret with
    | none => .Absent
    | some value => if v.decrypts then .Present value else .Unavailable

/-- The persisted configuration, or none when `configureSync` never ran. -/
def load : Reads ConfigView (Option EngineConfig) := do
  match ← readOptions with
  | none => return none
  | some options =>
    if ← read fun v => v.disk.prefs.hasDefaultHeaders.getD false then
      let headers := match ← readSecret with
        | .Present value => some value
        | _ => none
      return some ⟨{ options with defaultHeaders := headers }, .PERSISTED, true, headers.isNone⟩
    else
      return some ⟨options, .PERSISTED, false, false⟩

end SyncConfigStore

/-! ## The runtime -/

namespace SyncQueueStorage

def DEFAULT_MAX_QUEUE_SIZE : Int := 10000

end SyncQueueStorage

/-- What `applyQueueCap` sets. -/
def queueCap (options : SyncOptions) : Int :=
  max ((options.maxQueueSize.map Double.toInt32).getD SyncQueueStorage.DEFAULT_MAX_QUEUE_SIZE) 1

/-- What `configure` sets in memory. -/
def EngineConfig.live (options : SyncOptions) : EngineConfig :=
  ⟨options, .LIVE, (SyncConfigStore.encode options.defaultHeaders).isSome, false⟩

/-- An object. The number is its identity: `configRef` never holds one number twice. -/
structure ConfigObject where
  id : Nat
  config : EngineConfig
  deriving DecidableEq

/-- The mutex, and what a call of `configure` sets while it holds it. -/
inductive ConfigSlot where
  | mutex
  /-- `configRef.set`. -/
  | memory
  /-- `applyQueueCap`. -/
  | cap
  /-- `secrets.write`, or `secrets.delete` without headers. -/
  | secret
  /-- `writeOptions`. -/
  | record
  deriving DecidableEq

/-- The order inside the mutex. -/
def configureOrder : List ConfigSlot := [.memory, .cap, .secret, .record]

/-- Where a call of `configure` stands. -/
inductive ConfigureState where
  | idle
  | waiting (options : SyncOptions)
  /-- It holds the mutex, with these left to set. -/
  | locked (options : SyncOptions) (rest : List ConfigSlot)
  | finished (options : SyncOptions)
  deriving DecidableEq

/-- Where a call of `configRecoveringSecret` stands. -/
inductive RecoveryState where
  | idle
  /-- It found `config` without its secret, and loads the configuration. -/
  | loading (config : ConfigObject) (rest : Reads ConfigView (Option EngineConfig))
  /-- It has tried the swap and reads once more. -/
  | swapped
  | finished (config : EngineConfig)

structure Configuration where
  configRef : ConfigObject
  maxQueueSize : Int
  disk : ConfigDisk
  configureMutex : Option Nat
  calls : Nat → ConfigureState
  readers : Nat → RecoveryState

/-- A call of `configure`. -/
structure ConfigureCall where
  id : Nat
  options : SyncOptions
  deriving DecidableEq

namespace Configuration

inductive Label where
  | configure (t : Nat) (options : SyncOptions)
  | lock (t : Nat)
  /-- Call `t` sets what is next. -/
  | write (t : Nat)
  | unlock (t : Nat)
  /-- `configRecoveringSecret` is called. -/
  | recover (u : Nat)
  /-- An access of the load, and whether the Keystore decrypts. -/
  | access (u : Nat) (decrypts : Bool)
  /-- `compareAndSet`, or the early return without a stored configuration. -/
  | swap (u : Nat)
  /-- The last read. -/
  | reread (u : Nat)
  deriving DecidableEq

def setCall (s : Configuration) (t : Nat) (call : ConfigureState) : Configuration :=
  { s with calls := Function.update s.calls t call }

def setReader (s : Configuration) (u : Nat) (reader : RecoveryState) : Configuration :=
  { s with readers := Function.update s.readers u reader }

/-- `configRef` holds another object. -/
def setConfig (s : Configuration) (config : EngineConfig) : Configuration :=
  { s with configRef := ⟨s.configRef.id + 1, config⟩ }

def set (s : Configuration) (options : SyncOptions) : ConfigSlot → Configuration
  | .mutex => s
  | .memory => s.setConfig (.live options)
  | .cap => { s with maxQueueSize := queueCap options }
  | .secret => { s with disk.secret := SyncConfigStore.encode options.defaultHeaders }
  | .record =>
    let hasDefaultHeaders := (SyncConfigStore.encode options.defaultHeaders).isSome
    { s with
      disk.prefs := SyncConfigStore.writeOptions s.disk.prefs options hasDefaultHeaders }

def step (s : Configuration) : Label → Option Configuration
  | .configure t options =>
    match s.calls t with
    | .idle => some (s.setCall t (.waiting options))
    | _ => none
  | .lock t =>
    match s.calls t, s.configureMutex with
    | .waiting options, none =>
      some ({ s with configureMutex := some t }.setCall t (.locked options configureOrder))
    | _, _ => none
  | .write t =>
    match s.calls t with
    | .locked options (slot :: rest) => some ((s.set options slot).setCall t (.locked options rest))
    | _ => none
  | .unlock t =>
    match s.calls t with
    | .locked options [] =>
      some ({ s with configureMutex := none }.setCall t (.finished options))
    | _ => none
  | .recover u =>
    match s.readers u with
    | .idle =>
      let config := s.configRef
      some (s.setReader u (if config.config.secretUnavailable then
        .loading config SyncConfigStore.load else .finished config.config))
    | _ => none
  | .access u decrypts =>
    match s.readers u with
    | .loading config rest =>
      some (s.setReader u (.loading config (rest.access ⟨s.disk, decrypts⟩)))
    | _ => none
  | .swap u =>
    match s.readers u with
    | .loading config (.done none) => some (s.setReader u (.finished config.config))
    | .loading config (.done (some reloaded)) =>
      some ((if s.configRef.id = config.id then s.setConfig reloaded else s).setReader u .swapped)
    | _ => none
  | .reread u =>
    match s.readers u with
    | .swapped => some (s.setReader u (.finished s.configRef.config))
    | _ => none

/-- What a step takes or sets, with its call. -/
def writes (s : Configuration) : Label → List (ConfigureCall × ConfigSlot)
  | .lock t =>
    match s.calls t with
    | .waiting options => [(⟨t, options⟩, .mutex)]
    | _ => []
  | .write t =>
    match s.calls t with
    | .locked options (slot :: _) => [(⟨t, options⟩, slot)]
    | _ => []
  | _ => []

/-- The slot has the value of this call. -/
def From (call : ConfigureCall) : ConfigSlot → Configuration → Prop
  | .mutex, _ => True
  | .memory, s => s.configRef.config = .live call.options
  | .cap, s => s.maxQueueSize = queueCap call.options
  | .secret, s => s.disk.secret = SyncConfigStore.encode call.options.defaultHeaders
  | .record, s => ∃ prefs, s.disk.prefs = SyncConfigStore.writeOptions prefs call.options
      (SyncConfigStore.encode call.options.defaultHeaders).isSome

end Configuration

/-! ## 1. Load after save -/

/-- What a later process finds of a configuration. -/
def EngineConfig.restored (options : SyncOptions) (decrypts : Bool) : EngineConfig :=
  match SyncConfigStore.encode options.defaultHeaders with
  | none => ⟨{ options with defaultHeaders := none }, .PERSISTED, false, false⟩
  | some headers =>
    if decrypts then ⟨{ options with defaultHeaders := some headers }, .PERSISTED, true, false⟩
    else ⟨{ options with defaultHeaders := none }, .PERSISTED, true, true⟩

namespace SyncConfigStore

@[simp] theorem run_readOptional {α : Type} {field : ConfigPrefs → Option α} {default : α}
    {v : ConfigView} : (readOptional field default).run v = field v.disk.prefs := by
  unfold readOptional
  rw [Reads.run_bind, Reads.run_read]
  cases h : field v.disk.prefs with
  | none => rfl
  | some a => simp [h]

@[simp] theorem strategyValueOf_name (strategy : SyncStrategy) :
    strategyValueOf (strategyName strategy) = some strategy := by
  cases strategy <;> rfl

@[simp] theorem backoffValueOf_name (backoff : BackoffStrategy) :
    backoffValueOf (backoffName backoff) = some backoff := by
  cases backoff <;> rfl

variable {v : ConfigView} {prefs : ConfigPrefs} {options : SyncOptions} {has : Bool}

theorem run_readFields (h : v.disk.prefs = writeOptions prefs options has) :
    (readFields (strategyName options.strategy)).run.run v =
      some { options with defaultHeaders := none } := by
  have hdouble (field : ConfigPrefs → Option Double) :
      (readDouble field).run.run v = field (writeOptions prefs options has) := by
    rw [← h]
    exact run_readOptional
  simp only [readFields, Reads.run_bindT, Reads.run_liftT, Reads.run_pureT, Reads.run_read,
    readOptionalDouble, run_readOptional, hdouble, OptionT.run_mk, Reads.run_pure, h]
  simp [writeOptions]

theorem run_readOptions (h : v.disk.prefs = writeOptions prefs options has) :
    readOptions.run v = some { options with defaultHeaders := none } := by
  rw [readOptions, Reads.run_bind, Reads.run_read, h]
  exact run_readFields h

/-- A load that nobody disturbs returns what was saved. -/
theorem run_load
    (hprefs : v.disk.prefs = writeOptions prefs options (encode options.defaultHeaders).isSome)
    (hsecret : v.disk.secret = encode options.defaultHeaders) :
    load.run v = some (.restored options v.decrypts) := by
  have hflag : v.disk.prefs.hasDefaultHeaders.getD false =
      (encode options.defaultHeaders).isSome := by
    rw [hprefs]
    rfl
  rw [load, Reads.run_bind, run_readOptions hprefs]
  simp only [Reads.run_bind, Reads.run_read, hflag]
  cases hheaders : encode options.defaultHeaders with
  | none => simp [EngineConfig.restored, hheaders]
  | some headers =>
    rw [hheaders] at hsecret
    cases hdecrypts : v.decrypts <;>
      simp [EngineConfig.restored, hheaders, readSecret, hsecret, hdecrypts]

end SyncConfigStore

/-! ## 2. One call at a time -/

namespace Configuration

/-- What a call takes and sets, in this order. -/
def slots : List ConfigSlot := .mutex :: configureOrder

/-- The calls take turns, and a recovery holds an object that lacks its secret. -/
structure Serial (s : Configuration) (log : List (ConfigureCall × ConfigSlot)) : Prop where
  holds : Writers.Holds From s log
  free : s.configureMutex = none → ∃ done, log = Writers.sections slots done
  held : ∀ t, s.configureMutex = some t → ∃ done passed options rest,
    log = Writers.sections slots done ++ passed.map (fun r => (⟨t, options⟩, r)) ∧
      slots = passed ++ rest ∧ s.calls t = .locked options rest
  holder : ∀ t options rest, s.calls t = .locked options rest → s.configureMutex = some t
  unavailable : ∀ u config rest, s.readers u = .loading config rest →
    config.config.secretUnavailable = true ∧ config.id ≤ s.configRef.id ∧
      (config.id = s.configRef.id → config = s.configRef)

section Step

variable {s s' : Configuration} {log new : List (ConfigureCall × ConfigSlot)} {t u : Nat}
  {options : SyncOptions} {call' : ConfigureState} {reader' : RecoveryState}

theorem setCall_self : (s.setCall t call').calls t = call' := Function.update_self _ _ _

theorem setCall_of_ne (h : u ≠ t) : (s.setCall t call').calls u = s.calls u :=
  Function.update_of_ne h _ _

theorem setReader_self : (s.setReader u reader').readers u = reader' := Function.update_self _ _ _

theorem setReader_of_ne (h : t ≠ u) : (s.setReader u reader').readers t = s.readers t :=
  Function.update_of_ne h _ _

theorem From.setCall {call : ConfigureCall} {r : ConfigSlot} (h : From call r s) :
    From call r (s.setCall t call') := by
  cases r <;> exact h

theorem From.setReader {call : ConfigureCall} {r : ConfigSlot} (h : From call r s) :
    From call r (s.setReader u reader') := by
  cases r <;> exact h

/-- A call sets its own value, and leaves the other slots. -/
theorem From.set {call : ConfigureCall} {r slot : ConfigSlot} (hr : r ≠ slot) (h : From call r s) :
    From call r (s.set options slot) := by
  cases slot <;> cases r <;> first | exact absurd rfl hr | exact h

theorem From.self {slot : ConfigSlot} : From ⟨t, options⟩ slot (s.set options slot) := by
  cases slot with
  | mutex => trivial
  | memory | cap | secret => rfl
  | record => exact ⟨s.disk.prefs, rfl⟩

/-- A call that is not the holder moves. -/
theorem Serial.outside (hS : Serial s log) (ht : ∀ options rest, s.calls t ≠ .locked options rest)
    (hcall : ∀ options rest, call' ≠ .locked options rest) : Serial (s.setCall t call') log := by
  refine ⟨fun r call hlast => From.setCall (hS.holds r call hlast), hS.free, fun v hv => ?_,
    fun v options rest hv => ?_, hS.unavailable⟩
  · obtain ⟨done, passed, options, rest, hlog, hslots, hlocked⟩ := hS.held v hv
    refine ⟨done, passed, options, rest, hlog, hslots, ?_⟩
    rw [← hlocked]
    refine setCall_of_ne ?_
    rintro rfl
    exact ht _ _ hlocked
  · by_cases hu : v = t
    · subst hu
      rw [setCall_self] at hv
      exact absurd hv (hcall _ _)
    · rw [setCall_of_ne hu] at hv
      exact hS.holder v options rest hv

/-- The mutex is free, and a call takes it. -/
theorem Serial.lock (hS : Serial s log) (hmutex : s.configureMutex = none) :
    Serial ({ s with configureMutex := some t }.setCall t (.locked options configureOrder))
      (log ++ [(⟨t, options⟩, .mutex)]) := by
  refine ⟨?_, fun h => ?_, fun v hv => ?_, fun v options' rest hv => ?_, hS.unavailable⟩
  · refine hS.holds.write trivial fun call r _ h => ?_
    cases r <;> exact h
  · cases h
  · obtain rfl : t = v := Option.some.inj hv
    obtain ⟨done, rfl⟩ := hS.free hmutex
    exact ⟨done, [.mutex], options, configureOrder, rfl, rfl, setCall_self⟩
  · by_cases hu : v = t
    · rw [hu]
      rfl
    · rw [setCall_of_ne hu] at hv
      cases hmutex.symm.trans (hS.holder v options' rest hv)

/-- The holder sets its next slot. -/
theorem Serial.write {slot : ConfigSlot} {rest : List ConfigSlot} (hS : Serial s log)
    (ht : s.calls t = .locked options (slot :: rest)) :
    Serial ((s.set options slot).setCall t (.locked options rest))
      (log ++ [(⟨t, options⟩, slot)]) := by
  have hmutex := hS.holder t options _ ht
  have hkept : (s.set options slot).configureMutex = s.configureMutex ∧
      (s.set options slot).calls = s.calls ∧ (s.set options slot).readers = s.readers := by
    cases slot <;> exact ⟨rfl, rfl, rfl⟩
  have hother (v : Nat) (hv : v ≠ t) :
      ((s.set options slot).setCall t (.locked options rest)).calls v = s.calls v := by
    rw [← hkept.2.1]
    exact setCall_of_ne hv
  refine ⟨?_, fun h => ?_, fun v hv => ?_, fun v options' rest' hv => ?_,
    fun v config load hv => ?_⟩
  · refine hS.holds.write (From.setCall From.self) fun call r hr h => ?_
    exact From.setCall (From.set hr h)
  · cases (hmutex.symm.trans hkept.1.symm).trans h
  · obtain rfl : t = v := Option.some.inj ((hmutex.symm.trans hkept.1.symm).trans hv)
    obtain ⟨done, passed, options', rest', rfl, hslots, hlocked⟩ := hS.held t hmutex
    cases ht.symm.trans hlocked
    exact ⟨done, passed ++ [slot], options, rest, by simp, by simp [hslots], setCall_self⟩
  · refine hkept.1.trans ?_
    by_cases hu : v = t
    · rw [hu, hmutex]
    · rw [hother v hu] at hv
      exact hS.holder v options' rest' hv
  · have hv' : s.readers v = .loading config load := by
      rw [← hkept.2.2]
      exact hv
    obtain ⟨hsecret, hid, hsame⟩ := hS.unavailable v config load hv'
    refine ⟨hsecret, ?_⟩
    cases slot with
    | memory =>
      refine ⟨Nat.le_succ_of_le hid, fun h => ?_⟩
      rw [h] at hid
      exact absurd hid (Nat.not_succ_le_self _)
    | mutex | cap | secret | record => exact ⟨hid, hsame⟩

/-- The holder has set everything, and gives the mutex back. -/
theorem Serial.unlock (hS : Serial s log) (ht : s.calls t = .locked options []) :
    Serial ({ s with configureMutex := none }.setCall t (.finished options)) log := by
  have hmutex := hS.holder t options _ ht
  refine ⟨?_, fun _ => ?_, fun v hv => ?_, fun v options' rest hv => ?_, hS.unavailable⟩
  · intro r call hlast
    have h := hS.holds r call hlast
    cases r <;> exact h
  · obtain ⟨done, passed, options', rest, hlog, hslots, hlocked⟩ := hS.held t hmutex
    cases ht.symm.trans hlocked
    rw [List.append_nil] at hslots
    exact ⟨done ++ [⟨t, options⟩], by rw [Writers.sections_snoc, hlog, hslots]⟩
  · cases hv
  · by_cases hu : v = t
    · rw [hu, setCall_self] at hv
      cases hv
    · rw [setCall_of_ne hu] at hv
      exact absurd (Option.some.inj (hmutex.symm.trans (hS.holder v options' rest hv))) (Ne.symm hu)

/-- A recovery moves. It holds what it held, or what is there now. -/
theorem Serial.recovery (hS : Serial s log)
    (hreader : ∀ config rest, reader' = .loading config rest →
      config.config.secretUnavailable = true ∧ config.id ≤ s.configRef.id ∧
        (config.id = s.configRef.id → config = s.configRef)) :
    Serial (s.setReader u reader') log := by
  refine ⟨fun r call hlast => From.setReader (hS.holds r call hlast), hS.free, hS.held, hS.holder,
    fun v config rest hv => ?_⟩
  by_cases hu : v = u
  · rw [hu, setReader_self] at hv
    exact hreader config rest hv
  · rw [setReader_of_ne hu] at hv
    exact hS.unavailable v config rest hv

/-- Once a call has set the configuration, no recovery holds the object that is there. -/
theorem Serial.stale {call : ConfigureCall} {config : ConfigObject}
    {rest : Reads ConfigView (Option EngineConfig)} (hS : Serial s log)
    (hlast : Writers.lastWriter .memory log = some call)
    (hu : s.readers u = .loading config rest) : s.configRef.id ≠ config.id := by
  intro h
  obtain ⟨hsecret, -, hsame⟩ := hS.unavailable u config rest hu
  have hlive : s.configRef.config = .live call.options := hS.holds .memory call hlast
  rw [hsame h.symm, hlive] at hsecret
  cases hsecret

/-- The swap of a recovery that found the object it started from. -/
theorem Serial.swap {config : ConfigObject} {rest : Reads ConfigView (Option EngineConfig)}
    {reloaded : EngineConfig} (hS : Serial s log) (hu : s.readers u = .loading config rest)
    (h : s.configRef.id = config.id) : Serial (s.setConfig reloaded) log := by
  refine ⟨fun r call hlast => ?_, hS.free, hS.held, hS.holder, fun v config' rest' hv => ?_⟩
  · have hfrom := hS.holds r call hlast
    cases r with
    | memory => exact absurd h (hS.stale hlast hu)
    | mutex | cap | secret | record => exact hfrom
  · obtain ⟨hsecret, hid, -⟩ := hS.unavailable v config' rest' hv
    refine ⟨hsecret, Nat.le_succ_of_le hid, fun hsame => ?_⟩
    rw [hsame] at hid
    exact absurd hid (Nat.not_succ_le_self _)

theorem Serial.step {l : Label} (hS : Serial s log) (h : s.step l = some s') :
    Serial s' (log ++ s.writes l) := by
  cases l with
  | configure t options =>
    simp only [Configuration.step] at h
    split at h
    · rename_i ht
      cases h
      show Serial _ (log ++ [])
      rw [List.append_nil]
      refine hS.outside (fun options rest h => ?_) (fun options rest h => ?_)
      · cases ht.symm.trans h
      · cases h
    · cases h
  | lock t =>
    simp only [Configuration.step] at h
    split at h
    · rename_i options ht hmutex
      cases h
      simp only [writes, ht]
      exact hS.lock hmutex
    · cases h
  | write t =>
    simp only [Configuration.step] at h
    split at h
    · rename_i options slot rest ht
      cases h
      simp only [writes, ht]
      exact hS.write ht
    · cases h
  | unlock t =>
    simp only [Configuration.step] at h
    split at h
    · rename_i options ht
      cases h
      show Serial _ (log ++ [])
      rw [List.append_nil]
      exact hS.unlock ht
    · cases h
  | recover u =>
    simp only [Configuration.step] at h
    split at h
    · cases h
      show Serial _ (log ++ [])
      rw [List.append_nil]
      refine hS.recovery fun config rest hloading => ?_
      split at hloading
      · rename_i hsecret
        cases hloading
        exact ⟨hsecret, le_rfl, fun _ => rfl⟩
      · cases hloading
    · cases h
  | access u decrypts =>
    simp only [Configuration.step] at h
    split at h
    · rename_i config rest hu
      cases h
      show Serial _ (log ++ [])
      rw [List.append_nil]
      refine hS.recovery fun config' rest' hloading => ?_
      cases hloading
      exact hS.unavailable u config rest hu
    · cases h
  | swap u =>
    show Serial _ (log ++ [])
    rw [List.append_nil]
    simp only [Configuration.step] at h
    split at h
    · cases h
      exact hS.recovery fun config rest h => by cases h
    · rename_i config reloaded hu
      cases h
      split
      · rename_i hid
        exact (hS.swap hu hid).recovery fun config rest h => by cases h
      · exact hS.recovery fun config rest h => by cases h
    · cases h
  | reread u =>
    simp only [Configuration.step] at h
    split at h
    · cases h
      show Serial _ (log ++ [])
      rw [List.append_nil]
      exact hS.recovery fun config rest h => by cases h
    · cases h

end Step

/-- No call and no recovery is under way. -/
structure Idle (s : Configuration) : Prop where
  mutex : s.configureMutex = none
  calls : ∀ t, s.calls t = .idle
  readers : ∀ u, s.readers u = .idle

theorem run_serial {s₀ s : Configuration} {ls : List Label}
    {log : List (ConfigureCall × ConfigSlot)} (hidle : Idle s₀)
    (hrun : StepSystem.exec (StepSystem.recorded step writes) (s₀, []) ls = some (s, log)) :
    Serial s log := by
  refine StepSystem.exec_invariant (I := fun p => Serial p.1 p.2) ?_ ?_ hrun
  · rintro ⟨s, log⟩ l ⟨s', log'⟩ hS hp
    obtain ⟨hstep, rfl⟩ := StepSystem.recorded_eq_some.mp hp
    exact Serial.step hS hstep
  · refine ⟨.nil, fun _ => ⟨[], rfl⟩, fun t h => ?_, fun t options rest h => ?_,
      fun u config rest h => ?_⟩
    · cases hidle.mutex.symm.trans h
    · cases (hidle.calls t).symm.trans h
    · cases (hidle.readers u).symm.trans h

/-! ## 3. The configuration as a unit -/

theorem Serial.whole {s : Configuration} {log : List (ConfigureCall × ConfigSlot)}
    {call : ConfigureCall} (hS : Serial s log)
    (hdone : ∀ t options rest, s.calls t ≠ .locked options rest)
    (hlast : Writers.lastWriter .mutex log = some call) (r : ConfigSlot) :
    Writers.lastWriter r log = some call := by
  have hmutex : s.configureMutex = none := by
    cases hholder : s.configureMutex with
    | none => rfl
    | some t =>
      obtain ⟨_, _, options, rest, -, -, hlocked⟩ := hS.held t hholder
      exact absurd hlocked (hdone t options rest)
  obtain ⟨done, rfl⟩ := hS.free hmutex
  have hslots (r : ConfigSlot) : r ∈ slots := by cases r <;> simp [slots, configureOrder]
  cases done using List.reverseRecOn with
  | nil => cases hlast
  | append_singleton done k =>
    rw [Writers.lastWriter_sections (hslots _)] at hlast
    cases hlast
    exact Writers.lastWriter_sections (hslots r)

/-- Any number of calls of `configure` and of recoveries, in any order of their
steps. At every moment memory has what the last call set there, and a swap leaves
it. When all calls have finished, memory, the queue cap and what `load` returns
come from the call that took the mutex last. -/
theorem configured_as_unit {s₀ s : Configuration} {ls : List Label}
    {log : List (ConfigureCall × ConfigSlot)} (hidle : Idle s₀)
    (hrun : StepSystem.exec (StepSystem.recorded step writes) (s₀, []) ls = some (s, log)) :
    (∀ call, Writers.lastWriter .memory log = some call →
      s.configRef.config = .live call.options ∧
        ∀ u s', s.step (.swap u) = some s' → s'.configRef = s.configRef) ∧
    ((∀ t options rest, s.calls t ≠ .locked options rest) →
      ∀ call, Writers.lastWriter .mutex log = some call →
        s.configRef.config = .live call.options ∧ s.maxQueueSize = queueCap call.options ∧
          ∀ decrypts, SyncConfigStore.load.run ⟨s.disk, decrypts⟩ =
            some (.restored call.options decrypts)) := by
  have hS := run_serial hidle hrun
  constructor
  · intro call hlast
    refine ⟨hS.holds .memory call hlast, fun u s' h => ?_⟩
    simp only [step] at h
    split at h
    · cases h
      rfl
    · rename_i config reloaded hu
      cases h
      rw [if_neg (hS.stale hlast hu)]
      rfl
    · cases h
  · intro hdone call hlast
    have hwhole := hS.whole hdone hlast
    refine ⟨hS.holds .memory call (hwhole _), hS.holds .cap call (hwhole _), fun decrypts => ?_⟩
    obtain ⟨prefs, hprefs⟩ := hS.holds .record call (hwhole _)
    exact SyncConfigStore.run_load (v := ⟨s.disk, decrypts⟩) hprefs
      (hS.holds .secret call (hwhole _))

section Sample

def sampleOptions (maxQueueSize : ℚ) (authorization : String) : SyncOptions where
  strategy := .automatic
  retryPolicy := ⟨.fin 5, .exponential, .fin 1000, .inf false, true, [.fin 500]⟩
  batchSize := some (.fin 25)
  requestTimeoutMs := none
  maxQueueSize := some (.fin maxQueueSize)
  persistQueue := some true
  defaultHeaders := some [("Authorization", authorization)]

def persisted : SyncOptions := sampleOptions 100 "Bearer old"

def refreshed : SyncOptions := sampleOptions 50 "Bearer new"

/-- The process starts while the Keystore does not decrypt. -/
def atLaunch : Configuration where
  configRef := ⟨0, .restored persisted false⟩
  maxQueueSize := queueCap persisted
  disk := ⟨SyncConfigStore.writeOptions {} persisted true, persisted.defaultHeaders⟩
  configureMutex := none
  calls _ := .idle
  readers _ := .idle

/-- A recovery reads the old record and the new secret: the call comes between. -/
def refreshMeanwhile : List Label :=
  .recover 0 :: List.replicate 18 (.access 0 true) ++
    [.configure 0 refreshed, .lock 0, .write 0, .write 0, .write 0, .write 0, .unlock 0] ++
    [.access 0 true, .swap 0, .reread 0]

end Sample

theorem configured_as_unit_refreshMeanwhile : ∃ s log,
    StepSystem.exec (StepSystem.recorded step writes) (atLaunch, []) refreshMeanwhile =
      some (s, log) ∧
    s.configRef.config = .live refreshed ∧ s.maxQueueSize = queueCap refreshed ∧
      ∀ decrypts, SyncConfigStore.load.run ⟨s.disk, decrypts⟩ =
        some (.restored refreshed decrypts) := by
  have hidle : Idle atLaunch := ⟨rfl, fun _ => rfl, fun _ => rfl⟩
  have hrun : (StepSystem.exec (StepSystem.recorded step writes) (atLaunch, [])
      refreshMeanwhile).map (fun p => (p.1.configureMutex, Writers.lastWriter .mutex p.2)) =
        some (none, some ⟨0, refreshed⟩) := by
    decide +kernel
  obtain ⟨⟨s, log⟩, hrun, hend⟩ := Option.map_eq_some_iff.mp hrun
  simp only [Prod.mk.injEq] at hend
  obtain ⟨hmutex, hlast⟩ := hend
  refine ⟨s, log, hrun, (configured_as_unit hidle hrun).2 (fun t options rest ht => ?_) _ hlast⟩
  cases hmutex.symm.trans ((run_serial hidle hrun).holder t options rest ht)

end Configuration

end SyncProvider.Android
