import SyncProvider.Ios.Configuration

/-!
# iOS: the stored configuration

`save` updates the Keychain and then the record. A Keychain operation that fails is
logged, and the record is written all the same. `load` pairs the record with the
secret the Keychain has then.

Results:
1. `save_eq_writes` : `save` is the two writes of a call of `configure`.
2. `Recorded.step` : what the two stores have of the last `save`.
3. `serves_last_save_iff` : `load` serves the last `save` exactly when no older secret
   is left under a failed write.
4. `failed_update_serves_old` : the headers of an earlier `save`.
-/

namespace SyncProvider.Ios

/-! ## The model -/

inductive SecretReadResult where
  | found (headers : StringMap)
  | notFound
  /-- The device has not been unlocked since boot. -/
  | unavailable
  deriving DecidableEq

/-- The Keychain operations that fail during a call. -/
structure KeychainFaults where
  update : Bool
  add : Bool
  delete : Bool
  deriving DecidableEq

namespace KeychainSecretStore

def readDefaultHeaders (unlocked : Bool) (secret : Option StringMap) : SecretReadResult :=
  if unlocked then
    match secret with
    | some headers => .found headers
    | none => .notFound
  else .unavailable

/-- `none` when it throws. -/
def writeDefaultHeaders (faults : KeychainFaults) (secret : Option StringMap)
    (headers : StringMap) : Option (Option StringMap) :=
  if faults.update then none
  else match secret with
    | some _ => some (some headers)
    | none =>
      -- `SecItemUpdate` finds no item
      if faults.add then none else some (some headers)

/-- `none` when it throws. -/
def deleteDefaultHeaders (faults : KeychainFaults) : Option (Option StringMap) :=
  if faults.delete then none else some none

end KeychainSecretStore

/-- The data under the key of the record. -/
inductive StoredRecord where
  | unreadable
  | readable (record : PersistedSyncRecord)
  deriving DecidableEq

structure ConfigDisk where
  record : Option StoredRecord
  secret : Option StringMap
  deriving DecidableEq

structure LoadedSyncConfig where
  options : SyncOptionsSnapshot
  source : ConfigSource
  credentialsUnavailable : Bool
  deriving DecidableEq

def kDefaultQueueCapacity : Int := 10000

def RetryPolicyValue.default : RetryPolicyValue where
  maxAttempts := 5
  backoff := .exponential
  baseDelayMs := 1000
  maxDelayMs := 60000
  jitter := true
  retryOnStatusCodes := [408, 425, 429, 500, 502, 503, 504]

def SyncOptionsSnapshot.default : SyncOptionsSnapshot where
  strategy := "AUTOMATIC"
  retryPolicy := .default
  batchSize := .fin 25
  requestTimeoutMs := .fin 30000
  maxQueueSize := .ofInt kDefaultQueueCapacity
  persistQueue := true
  defaultHeaders := []

def PersistedSyncRecord.options (record : PersistedSyncRecord) : SyncOptionsSnapshot where
  strategy := record.strategy
  retryPolicy := record.retryPolicy
  batchSize := record.batchSize
  requestTimeoutMs := record.requestTimeoutMs
  maxQueueSize := record.maxQueueSize
  persistQueue := record.persistQueue
  defaultHeaders := []

namespace SyncConfigStore

/-- The Keychain operation of `save`, `none` when it throws. -/
def updateSecret (faults : KeychainFaults) (disk : ConfigDisk) (options : SyncOptionsSnapshot) :
    Option (Option StringMap) :=
  if options.defaultHeaders.isEmpty then KeychainSecretStore.deleteDefaultHeaders faults
  else KeychainSecretStore.writeDefaultHeaders faults disk.secret options.defaultHeaders

def save (faults : KeychainFaults) (disk : ConfigDisk) (options : SyncOptionsSnapshot) :
    ConfigDisk where
  secret := (updateSecret faults disk options).getD disk.secret
  record :=
    let record := PersistedSyncRecord.ofOptions options
    if record.encodes then some (.readable record) else disk.record

/-- Headers with no record belong to a previous install. -/
def discardOrphanedSecret (unlocked : Bool) (faults : KeychainFaults) (disk : ConfigDisk) :
    ConfigDisk :=
  match KeychainSecretStore.readDefaultHeaders unlocked disk.secret with
  | .found _ =>
    { disk with secret := (KeychainSecretStore.deleteDefaultHeaders faults).getD disk.secret }
  | _ => disk

def load (unlocked : Bool) (faults : KeychainFaults) (disk : ConfigDisk) :
    LoadedSyncConfig × ConfigDisk :=
  match disk.record with
  | none => (⟨.default, .defaults, false⟩, discardOrphanedSecret unlocked faults disk)
  | some .unreadable => (⟨.default, .defaults, false⟩, disk)
  | some (.readable record) =>
    if record.hasDefaultHeaders then
      match KeychainSecretStore.readDefaultHeaders unlocked disk.secret with
      | .found headers =>
        (⟨{ record.options with defaultHeaders := headers }, .persisted, false⟩, disk)
      | _ => (⟨record.options, .persisted, true⟩, disk)
    else (⟨record.options, .persisted, false⟩, disk)

end SyncConfigStore

/-- A call of `save`, and whether its Keychain operation went through. -/
structure LastSave where
  options : SyncOptionsSnapshot
  stored : Bool
  deriving DecidableEq

/-- The disk, and the most recent `save`. -/
structure Saved where
  disk : ConfigDisk
  last : Option LastSave

namespace Saved

inductive Label where
  | save (options : SyncOptionsSnapshot) (faults : KeychainFaults)
  /-- A cold start. -/
  | load (unlocked : Bool) (faults : KeychainFaults)
  deriving DecidableEq

def step (s : Saved) : Label → Option Saved
  | .save options faults => some
    { disk := SyncConfigStore.save faults s.disk options
      last := some ⟨options, (SyncConfigStore.updateSecret faults s.disk options).isSome⟩ }
  | .load unlocked faults =>
    some { s with disk := (SyncConfigStore.load unlocked faults s.disk).2 }

/-- What was found, with nothing said about who saved it. -/
def found (disk : ConfigDisk) : Saved := ⟨disk, none⟩

/-- What is loaded belongs to this `save`. -/
structure Serves (last : LastSave) (loaded : LoadedSyncConfig) : Prop where
  headers : loaded.options.defaultHeaders ≠ [] →
    loaded.options.defaultHeaders = last.options.defaultHeaders
  unavailable : last.options.defaultHeaders ≠ [] → last.stored = false →
    loaded.credentialsUnavailable = true
  loggedOut : last.options.defaultHeaders = [] → loaded.options.defaultHeaders = []

/-- A cold start is served the most recent `save`. -/
def ServesLast (s : Saved) : Label → Prop
  | .load unlocked faults =>
    ∀ last ∈ s.last, Serves last (SyncConfigStore.load unlocked faults s.disk).1
  | .save _ _ => True

/-- On a cold start that can read the Keychain, headers that could not be stored have
left no secret. -/
def NoneLeft (s : Saved) : Label → Prop
  | .load unlocked _ => unlocked = true → ∀ last ∈ s.last,
    last.options.defaultHeaders ≠ [] → last.stored = false → s.disk.secret = none
  | .save _ _ => True

/-! ## 1. The writes of `save` -/

theorem save_eq_writes {c c₁ c₂ : Configuration} {t : Nat} {options : SyncOptionsSnapshot}
    (hsecret : c.write t options .secret = some c₁)
    (hrecord : c₁.write t options .record = some c₂) :
    SyncConfigStore.save ⟨false, false, false⟩ ⟨c.record.map .readable, c.secret⟩ options =
      ⟨c₂.record.map .readable, c₂.secret⟩ := by
  cases hsecret
  cases hrecord
  have hupdated (disk : ConfigDisk) :
      SyncConfigStore.updateSecret ⟨false, false, false⟩ disk options =
        some (secretOf options) := by
    unfold SyncConfigStore.updateSecret KeychainSecretStore.deleteDefaultHeaders
      KeychainSecretStore.writeDefaultHeaders secretOf
    cases disk.secret <;> split <;> rfl
  unfold SyncConfigStore.save
  rw [hupdated]
  cases hencodes : (PersistedSyncRecord.ofOptions options).encodes <;>
    simp only [hencodes, Bool.false_eq_true, if_false, if_true] <;> rfl

/-! ## 2. What the stores have of the last `save` -/

/-- The record is the one of the last `save`, and so is the secret when it was stored. -/
def Recorded (s : Saved) : Prop :=
  ∀ last ∈ s.last, s.disk.record = some (.readable (.ofOptions last.options)) ∧
    (last.options.defaultHeaders ≠ [] → last.stored = true →
      s.disk.secret = some last.options.defaultHeaders)

/-- The record of a `save` is written. -/
def Written : Label → Prop
  | .save options _ => (PersistedSyncRecord.ofOptions options).encodes = true
  | .load _ _ => True

theorem updateSecret_eq {faults : KeychainFaults} {disk : ConfigDisk}
    {options : SyncOptionsSnapshot} (hheaders : options.defaultHeaders ≠ [])
    (hstored : (SyncConfigStore.updateSecret faults disk options).isSome = true) :
    SyncConfigStore.updateSecret faults disk options = some (some options.defaultHeaders) := by
  obtain ⟨secret, hsecret⟩ := Option.isSome_iff_exists.mp hstored
  rw [hsecret]
  have hempty : options.defaultHeaders.isEmpty = false := by
    simpa using hheaders
  simp only [SyncConfigStore.updateSecret, hempty, Bool.false_eq_true, if_false,
    KeychainSecretStore.writeDefaultHeaders] at hsecret
  split at hsecret
  · cases hsecret
  · split at hsecret
    · rw [← hsecret]
    · split at hsecret
      · cases hsecret
      · rw [← hsecret]

/-- With a record there, `load` leaves the disk as it is. -/
theorem load_disk {unlocked : Bool} {faults : KeychainFaults} {disk : ConfigDisk}
    {record : StoredRecord} (h : disk.record = some record) :
    (SyncConfigStore.load unlocked faults disk).2 = disk := by
  unfold SyncConfigStore.load
  rw [h]
  cases record with
  | unreadable => rfl
  | readable record =>
    dsimp only
    split
    · split <;> rfl
    · rfl

theorem Recorded.step {s s' : Saved} {l : Label} (hR : Recorded s) (hwritten : Written l)
    (h : s.step l = some s') : Recorded s' := by
  cases l with
  | save options faults =>
    cases h
    intro last hlast
    obtain rfl := Option.some.inj hlast
    refine ⟨if_pos hwritten, fun hheaders hstored => ?_⟩
    show (SyncConfigStore.updateSecret faults s.disk options).getD s.disk.secret = _
    rw [updateSecret_eq hheaders hstored]
    rfl
  | load unlocked faults =>
    cases h
    intro last hlast
    obtain ⟨hrecord, hsecret⟩ := hR last hlast
    show (SyncConfigStore.load unlocked faults s.disk).2.record = _ ∧
      (_ → _ → (SyncConfigStore.load unlocked faults s.disk).2.secret = _)
    rw [load_disk hrecord]
    exact ⟨hrecord, hsecret⟩

/-! ## 3. What is served -/

theorem Recorded.serves_iff {s : Saved} {last : LastSave} {unlocked : Bool}
    {faults : KeychainFaults} (hR : Recorded s) (hlast : last ∈ s.last) :
    Serves last (SyncConfigStore.load unlocked faults s.disk).1 ↔
      (unlocked = true → last.options.defaultHeaders ≠ [] → last.stored = false →
        s.disk.secret = none) := by
  obtain ⟨hrecord, hsecret⟩ := hR last hlast
  unfold SyncConfigStore.load
  rw [hrecord]
  by_cases hheaders : last.options.defaultHeaders = []
  · have hflag : (PersistedSyncRecord.ofOptions last.options).hasDefaultHeaders = false := by
      simp [PersistedSyncRecord.ofOptions, hheaders]
    simp only [hflag, Bool.false_eq_true, if_false]
    refine ⟨fun _ _ hne => absurd hheaders hne, fun _ => ?_⟩
    exact ⟨fun hne => absurd rfl hne, fun hne => absurd hheaders hne, fun _ => rfl⟩
  · have hflag : (PersistedSyncRecord.ofOptions last.options).hasDefaultHeaders = true := by
      simp [PersistedSyncRecord.ofOptions, hheaders]
    simp only [hflag, if_true]
    have waits : Serves last
        ⟨(PersistedSyncRecord.ofOptions last.options).options, .persisted, true⟩ :=
      ⟨fun hne => absurd rfl hne, fun _ _ => rfl, fun hempty => absurd hempty hheaders⟩
    cases unlocked with
    | false => exact ⟨fun _ hunlocked => absurd hunlocked Bool.false_ne_true, fun _ => waits⟩
    | true =>
      cases hdisk : s.disk.secret with
      | none => exact ⟨fun _ _ _ _ => rfl, fun _ => waits⟩
      | some headers =>
        constructor
        · -- the secret is served, and nothing says that it is not the last one
          intro hserves _ _ hstored
          cases hserves.unavailable hheaders hstored
        · intro hnone
          have hstored : last.stored = true := by
            cases hstored : last.stored with
            | true => rfl
            | false => cases hnone rfl hheaders hstored
          obtain rfl := Option.some.inj (hdisk.symm.trans (hsecret hheaders hstored))
          refine ⟨fun _ => rfl, fun _ hfailed => ?_, fun hempty => absurd hempty hheaders⟩
          cases hstored.symm.trans hfailed

/-- For any sequence of saves and cold starts, with any failures of the Keychain,
in which the records are written: every cold start is served the most recent `save`
exactly when, on every cold start that can read the Keychain, headers that could not
be stored have left no secret. -/
theorem serves_last_save_iff {disk : ConfigDisk} {ls : List Label}
    (hwritten : ∀ l ∈ ls, Written l) :
    StepSystem.Meets step ServesLast (found disk) ls ↔
      StepSystem.Meets step NoneLeft (found disk) ls := by
  refine StepSystem.meets_congr (I := Recorded) (D := fun _ l => Written l)
    (fun hR hl hs => hR.step hl hs) (fun hR => ?_) ?_ (StepSystem.meets_of_forall hwritten)
  · rename_i s l
    cases l with
    | save options faults => exact Iff.rfl
    | load unlocked faults =>
      constructor
      · intro hserves hunlocked last hlast
        exact (hR.serves_iff hlast).mp (hserves last hlast) hunlocked
      · intro hnone last hlast
        exact (hR.serves_iff hlast).mpr fun hunlocked => hnone hunlocked last hlast
  · intro last hlast
    cases hlast

section Sample

instance decidableServes (last : LastSave) (loaded : LoadedSyncConfig) :
    Decidable (Serves last loaded) :=
  decidable_of_iff
    ((loaded.options.defaultHeaders ≠ [] →
        loaded.options.defaultHeaders = last.options.defaultHeaders) ∧
      (last.options.defaultHeaders ≠ [] → last.stored = false →
        loaded.credentialsUnavailable = true) ∧
      (last.options.defaultHeaders = [] → loaded.options.defaultHeaders = []))
    ⟨fun h => ⟨h.1, h.2.1, h.2.2⟩, fun h => ⟨h.headers, h.unavailable, h.loggedOut⟩⟩

instance decidableServesLast (s : Saved) : (l : Label) → Decidable (ServesLast s l)
  | .load unlocked faults => inferInstanceAs (Decidable
      (∀ last ∈ s.last, Serves last (SyncConfigStore.load unlocked faults s.disk).1))
  | .save _ _ => inferInstanceAs (Decidable True)

instance decidableNoneLeft (s : Saved) : (l : Label) → Decidable (NoneLeft s l)
  | .load unlocked _ => inferInstanceAs (Decidable (unlocked = true → ∀ last ∈ s.last,
      last.options.defaultHeaders ≠ [] → last.stored = false → s.disk.secret = none))
  | .save _ _ => inferInstanceAs (Decidable True)

instance decidableWritten : (l : Label) → Decidable (Written l)
  | .save options _ =>
    inferInstanceAs (Decidable ((PersistedSyncRecord.ofOptions options).encodes = true))
  | .load _ _ => inferInstanceAs (Decidable True)

def secondUser : SyncOptionsSnapshot :=
  Configuration.sampleSnapshot [("Authorization", "Bearer second")] 100

/-- A save whose update works, after one whose delete does not. -/
def recoveredRun : List Label :=
  [.load true ⟨false, false, false⟩, .save Configuration.refreshed ⟨false, false, false⟩,
    .save Configuration.loggedOut ⟨false, false, true⟩, .load true ⟨false, false, false⟩,
    .save secondUser ⟨false, false, false⟩, .load true ⟨false, false, false⟩]

/-- A save whose update fails. -/
def failedRun : List Label :=
  [.save Configuration.refreshed ⟨false, false, false⟩, .save secondUser ⟨true, false, false⟩,
    .load true ⟨false, false, false⟩]

/-- What a failed delete left behind is not served. -/
theorem serves_last_save_iff_recoveredRun :
    StepSystem.Meets step ServesLast (found ⟨none, none⟩) recoveredRun :=
  (serves_last_save_iff (by decide +kernel)).mpr (by decide +kernel)

/-- The token of the first user is served with the record of the second. -/
theorem failed_update_serves_old :
    ¬StepSystem.Meets step ServesLast (found ⟨none, none⟩) failedRun ∧
      ∃ s, StepSystem.exec step (found ⟨none, none⟩) failedRun = some s ∧
        s.last = some ⟨secondUser, false⟩ ∧
        (SyncConfigStore.load true ⟨false, false, false⟩ s.disk).1 =
          ⟨{ secondUser with defaultHeaders := [("Authorization", "Bearer old")] },
            .persisted, false⟩ := by
  refine ⟨by decide +kernel, ?_⟩
  have hend : (StepSystem.exec step (found ⟨none, none⟩) failedRun).map (fun s =>
      decide (s.last = some ⟨secondUser, false⟩ ∧
        (SyncConfigStore.load true ⟨false, false, false⟩ s.disk).1 =
          ⟨{ secondUser with defaultHeaders := [("Authorization", "Bearer old")] },
            .persisted, false⟩)) = some true := by
    decide +kernel
  obtain ⟨s, hrun, hs⟩ := Option.map_eq_some_iff.mp hend
  exact ⟨s, hrun, of_decide_eq_true hs⟩

end Sample

end Saved

end SyncProvider.Ios
