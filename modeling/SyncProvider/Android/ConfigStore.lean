import SyncProvider.Android.Configuration

/-!
# Android: the stored configuration

`save` writes the secret and then the preferences. A write of the secret can need
a new key, and a write that fails deletes the secret. The process can be killed
between any two of these steps.

Results:
1. `headers_of_load` : where the headers of a loaded configuration come from.
2. `Kept.step` : whose secret is stored.
3. `serves_no_earlier_save` : what a load returns after any saves and kills.
-/

namespace SyncProvider.Android

/-- Ciphertext and IV, which are committed together. -/
structure Ciphertext where
  key : Nat
  value : StringMap
  deriving DecidableEq

/-- Where `save` stands. -/
inductive SaveState where
  | idle
  /-- `encryptingCipher` is called, for the first time or after the key was deleted. -/
  | opening (options : SyncOptions) (headers : StringMap) (retried : Bool)
  /-- The first call threw. -/
  | resetting (options : SyncOptions) (headers : StringMap)
  | encrypting (options : SyncOptions) (headers : StringMap) (key : Nat)
  /-- There are no headers, or they could not be stored. -/
  | deleting (options : SyncOptions)
  | recording (options : SyncOptions)
  deriving DecidableEq

/-- The two stores and the key, with what was saved so far. -/
structure Saving where
  prefs : ConfigPrefs
  secret : Option Ciphertext
  /-- The entry of the Keystore. -/
  key : Option Nat
  /-- How many keys were generated. -/
  generated : Nat
  save : SaveState
  completed : Option SyncOptions
  /-- The saves that were interrupted since the last one that was completed. -/
  interrupted : List SyncOptions

/-- The options of the save that is under way. -/
def SaveState.options? : SaveState → Option SyncOptions
  | .idle => none
  | .opening options _ _ | .resetting options _ | .encrypting options _ _ | .deleting options
  | .recording options => some options

/-- The headers that are to be encrypted. -/
def SaveState.headers? : SaveState → Option StringMap
  | .opening _ headers _ | .resetting _ headers | .encrypting _ headers _ => some headers
  | _ => none

namespace Saving

inductive Label where
  | save (options : SyncOptions)
  | generateKey
  | initCipher
  /-- What is called throws, or the commit of the secret fails. -/
  | fail
  | deleteEntry
  | commitSecret
  | deleteSecret
  | writeOptions
  | kill
  /-- The Keystore loses the key. -/
  | loseKey
  deriving DecidableEq

def step (s : Saving) : Label → Option Saving
  | .save options =>
    match s.save with
    | .idle =>
      match SyncConfigStore.encode options.defaultHeaders with
      | none => some { s with save := .deleting options }
      | some headers => some { s with save := .opening options headers false }
    | _ => none
  | .generateKey =>
    match s.save, s.key with
    | .opening _ _ _, none =>
      some { s with key := some s.generated, generated := s.generated + 1 }
    | _, _ => none
  | .initCipher =>
    match s.save, s.key with
    | .opening options headers _, some key =>
      some { s with save := .encrypting options headers key }
    | _, _ => none
  | .fail =>
    match s.save with
    | .opening options headers false => some { s with save := .resetting options headers }
    | .opening options _ true | .resetting options _ | .encrypting options _ _ =>
      some { s with save := .deleting options }
    | _ => none
  | .deleteEntry =>
    match s.save with
    | .resetting options headers =>
      some { s with key := none, save := .opening options headers true }
    | _ => none
  | .commitSecret =>
    match s.save with
    | .encrypting options headers key =>
      some { s with secret := some ⟨key, headers⟩, save := .recording options }
    | _ => none
  | .deleteSecret =>
    match s.save with
    | .deleting options => some { s with secret := none, save := .recording options }
    | _ => none
  | .writeOptions =>
    match s.save with
    | .recording options =>
      let hasDefaultHeaders := (SyncConfigStore.encode options.defaultHeaders).isSome
      some { s with
        prefs := SyncConfigStore.writeOptions s.prefs options hasDefaultHeaders
        save := .idle
        completed := some options
        interrupted := [] }
    | _ => none
  | .kill =>
    some { s with
      save := .idle
      interrupted := s.interrupted ++ s.save.options?.toList }
  | .loseKey => some { s with key := none }

/-- The first launch of an install. -/
def fresh : Saving where
  prefs := {}
  secret := none
  key := none
  generated := 0
  save := .idle
  completed := none
  interrupted := []

/-- What a load reads. Nothing is decrypted under another key, or by a Keystore that
does not work now. -/
def view (s : Saving) (works : Bool) : ConfigView where
  disk := ⟨s.prefs, s.secret.map (·.value)⟩
  decrypts := works && s.secret.any fun c => s.key = some c.key

/-- The saves whose headers may be returned. -/
def current (s : Saving) : List SyncOptions :=
  s.completed.toList ++ s.interrupted ++ s.save.options?.toList

/-- What is loaded belongs to the last completed save, or to one that was interrupted
after it. -/
structure Serves (s : Saving) (config : EngineConfig) : Prop where
  headers : ∀ headers, config.options.defaultHeaders = some headers →
    ∃ options ∈ s.current, options.defaultHeaders = some headers
  unavailable : s.prefs.hasDefaultHeaders = some true → config.options.defaultHeaders = none →
    config.secretUnavailable = true
  loggedOut : ∀ options, s.completed = some options →
    SyncConfigStore.encode options.defaultHeaders = none → s.interrupted = [] →
    config.options.defaultHeaders = none

end Saving

/-! ## 1. What a load returns -/

namespace SyncConfigStore

variable {v : ConfigView} {config : EngineConfig}

theorem headers_of_readOptions {options : SyncOptions} (h : readOptions.run v = some options) :
    options.defaultHeaders = none := by
  rw [readOptions, Reads.run_bind, Reads.run_read] at h
  cases hstrategy : v.disk.prefs.strategy with
  | none =>
    rw [hstrategy] at h
    cases h
  | some strategy =>
    rw [hstrategy] at h
    change (readFields strategy).run.run v = some options at h
    simp only [readFields, Reads.run_bindT, Reads.run_liftT, Reads.run_pureT,
      Option.bind_eq_some_iff, Option.some.injEq] at h
    obtain ⟨_, -, _, -, _, -, _, -, _, -, _, -, _, -, _, -, _, -, _, -, _, -, rfl⟩ := h
    rfl

/-- The headers of a loaded configuration are the secret, and the preferences declare
them. Without the secret they are unavailable. -/
theorem headers_of_load (h : load.run v = some config) :
    (∀ headers, config.options.defaultHeaders = some headers →
      v.disk.prefs.hasDefaultHeaders = some true ∧ v.disk.secret = some headers) ∧
    (v.disk.prefs.hasDefaultHeaders = some true → config.options.defaultHeaders = none →
      config.secretUnavailable = true) := by
  rw [load, Reads.run_bind] at h
  cases hoptions : readOptions.run v with
  | none =>
    rw [hoptions] at h
    cases h
  | some options =>
    rw [hoptions] at h
    have hnone := headers_of_readOptions hoptions
    cases hflag : v.disk.prefs.hasDefaultHeaders.getD false with
    | false =>
      simp only [Reads.run_bind, Reads.run_read, hflag, Bool.false_eq_true, if_false,
        Reads.run_pure, Option.some.injEq] at h
      subst h
      refine ⟨fun headers hheaders => ?_, fun htrue => ?_⟩
      · cases hnone.symm.trans hheaders
      · rw [htrue] at hflag
        cases hflag
    | true =>
      have htrue : v.disk.prefs.hasDefaultHeaders = some true := by
        cases hdeclared : v.disk.prefs.hasDefaultHeaders with
        | none =>
          rw [hdeclared] at hflag
          cases hflag
        | some declared =>
          exact congrArg some ((congrArg (·.getD false) hdeclared).symm.trans hflag)
      simp only [Reads.run_bind, Reads.run_read, hflag, if_true, Reads.run_pure,
        Option.some.injEq, readSecret] at h
      subst h
      cases hsecret : v.disk.secret with
      | none => exact ⟨fun headers hheaders => absurd hheaders (by simp), fun _ _ => rfl⟩
      | some value =>
        cases hdecrypts : v.decrypts with
        | false => exact ⟨fun headers hheaders => absurd hheaders (by simp), fun _ _ => rfl⟩
        | true =>
          refine ⟨fun headers hheaders => ⟨htrue, hheaders⟩, fun _ hheaders => ?_⟩
          cases hheaders

end SyncConfigStore

/-! ## 2. Whose secret is stored -/

namespace Saving

variable {s s' : Saving} {l : Label}

theorem headers_of_encode {options : SyncOptions} {headers : StringMap}
    (h : SyncConfigStore.encode options.defaultHeaders = some headers) :
    options.defaultHeaders = some headers :=
  (Option.filter_eq_some_iff.mp h).1

structure Kept (s : Saving) : Prop where
  /-- The secret was saved by a save that counts. -/
  secret : ∀ c ∈ s.secret, ∃ options ∈ s.current, options.defaultHeaders = some c.value
  /-- A save encrypts its own headers. -/
  headers : ∀ headers ∈ s.save.headers?, ∃ options ∈ s.save.options?,
    options.defaultHeaders = some headers
  /-- When the preferences are to be written, no other secret is left. -/
  recording : ∀ options, s.save = .recording options →
    ∀ c ∈ s.secret, options.defaultHeaders = some c.value
  /-- The preferences say whether the last completed save had headers. -/
  prefs : ∀ options ∈ s.completed,
    s.prefs.hasDefaultHeaders = some (SyncConfigStore.encode options.defaultHeaders).isSome

theorem fresh_kept : Kept fresh where
  secret c hc := by cases hc
  headers headers hheaders := by cases hheaders
  recording options hsave := by cases hsave
  prefs options hoptions := by cases hoptions

/-- A save moves on and writes nothing but its key. -/
theorem Kept.advance (hK : Kept s) {key : Option Nat} {generated : Nat} {save : SaveState}
    (hoptions : save.options? = s.save.options?)
    (hheaders : save.headers? = s.save.headers? ∨ save.headers? = none)
    (hrecording : ∀ options, save ≠ .recording options) :
    Kept { s with key := key, generated := generated, save := save } where
  secret := by
    show ∀ c ∈ s.secret, ∃ options ∈ s.completed.toList ++ s.interrupted ++ save.options?.toList, _
    rw [hoptions]
    exact hK.secret
  headers headers hmem := by
    show ∃ options ∈ save.options?, _
    rw [hoptions]
    refine hK.headers headers ?_
    rcases hheaders with hheaders | hheaders
    · exact hheaders ▸ hmem
    · cases hheaders.symm.trans hmem
  recording options hsave := absurd hsave (hrecording options)
  prefs := hK.prefs

theorem Kept.step (hK : Kept s) (h : s.step l = some s') : Kept s' := by
  cases l with
  | save options =>
    simp only [Saving.step] at h
    split at h
    · rename_i hidle
      have hsecret : ∀ c ∈ s.secret, ∃ options ∈ s.completed.toList ++ s.interrupted,
          options.defaultHeaders = some c.value := by
        intro c hc
        obtain ⟨options, hmem, heq⟩ := hK.secret c hc
        rw [current, hidle] at hmem
        exact ⟨options, by simpa [SaveState.options?] using hmem, heq⟩
      split at h <;> cases h
      · refine ⟨fun c hc => ?_, fun headers hmem => ?_, fun options' hsave => ?_, hK.prefs⟩
        · obtain ⟨options, hmem, heq⟩ := hsecret c hc
          exact ⟨options, List.mem_append_left _ hmem, heq⟩
        · cases hmem
        · cases hsave
      · rename_i headers hencode
        refine ⟨fun c hc => ?_, fun headers' hmem => ?_, fun options' hsave => ?_, hK.prefs⟩
        · obtain ⟨options, hmem, heq⟩ := hsecret c hc
          exact ⟨options, List.mem_append_left _ hmem, heq⟩
        · obtain rfl := Option.some.inj hmem
          exact ⟨options, rfl, headers_of_encode hencode⟩
        · cases hsave
    · cases h
  | generateKey =>
    simp only [Saving.step] at h
    split at h <;> cases h
    exact hK.advance rfl (.inl rfl) (by simp_all)
  | initCipher =>
    simp only [Saving.step] at h
    split at h <;> cases h
    rename_i hsave _
    exact hK.advance (by rw [hsave]; rfl) (.inl (by rw [hsave]; rfl)) (by simp)
  | fail =>
    simp only [Saving.step] at h
    split at h <;> cases h <;> rename_i hsave
    · exact hK.advance (by rw [hsave]; rfl) (.inl (by rw [hsave]; rfl)) (by simp)
    all_goals exact hK.advance (by rw [hsave]; rfl) (.inr rfl) (by simp)
  | deleteEntry =>
    simp only [Saving.step] at h
    split at h <;> cases h
    rename_i hsave
    exact hK.advance (by rw [hsave]; rfl) (.inl (by rw [hsave]; rfl)) (by simp)
  | commitSecret =>
    simp only [Saving.step] at h
    split at h <;> cases h
    rename_i options headers key hsave
    have hown : options.defaultHeaders = some headers := by
      obtain ⟨options', hmem, heq⟩ := hK.headers headers (by rw [hsave]; rfl)
      rw [hsave] at hmem
      cases hmem
      exact heq
    refine ⟨fun c hc => ?_, fun headers' hmem => ?_, fun options' hrecording => ?_, hK.prefs⟩
    · obtain rfl := Option.some.inj hc
      exact ⟨options, List.mem_append_right _ List.mem_cons_self, hown⟩
    · cases hmem
    · cases hrecording
      intro c hc
      obtain rfl := Option.some.inj hc
      exact hown
  | deleteSecret =>
    simp only [Saving.step] at h
    split at h <;> cases h
    refine ⟨fun c hc => ?_, fun headers' hmem => ?_, fun options' _ c hc => ?_, hK.prefs⟩
    · cases hc
    · cases hmem
    · cases hc
  | writeOptions =>
    simp only [Saving.step] at h
    split at h <;> cases h
    rename_i options hsave
    refine ⟨fun c hc => ?_, fun headers' hmem => ?_, fun options' hrecording => ?_, ?_⟩
    · exact ⟨options, List.mem_cons_self, hK.recording options hsave c hc⟩
    · cases hmem
    · cases hrecording
    · intro options' hmem
      obtain rfl := Option.some.inj hmem
      rfl
  | kill =>
    cases h
    refine ⟨fun c hc => ?_, fun headers' hmem => ?_, fun options' hrecording => ?_, hK.prefs⟩
    · obtain ⟨options, hmem, heq⟩ := hK.secret c hc
      refine ⟨options, ?_, heq⟩
      simpa [current, SaveState.options?] using hmem
    · cases hmem
    · cases hrecording
  | loseKey =>
    cases h
    exact ⟨hK.secret, hK.headers, hK.recording, hK.prefs⟩

/-! ## 3. What is served -/

theorem Kept.serves (hK : Kept s) {works : Bool} {config : EngineConfig}
    (h : SyncConfigStore.load.run (s.view works) = some config) : Serves s config := by
  obtain ⟨hheaders, hunavailable⟩ := SyncConfigStore.headers_of_load h
  refine ⟨fun headers hserved => ?_, hunavailable, fun options hcompleted hencode _ => ?_⟩
  · obtain ⟨-, hsecret⟩ := hheaders headers hserved
    obtain ⟨c, hc, rfl⟩ := Option.map_eq_some_iff.mp hsecret
    exact hK.secret c hc
  · cases hserved : config.options.defaultHeaders with
    | none => rfl
    | some headers =>
      obtain ⟨hdeclared, -⟩ := hheaders headers hserved
      have hprefs := hK.prefs options hcompleted
      rw [hencode] at hprefs
      cases hprefs.symm.trans hdeclared

/-- From the first launch of an install, after any saves with any failures of the
secret writes and any kills: whatever a load returns belongs to the last completed
save, or to one that was interrupted after it. -/
theorem serves_no_earlier_save {s : Saving} {ls : List Label} {works : Bool}
    {config : EngineConfig} (hrun : StepSystem.exec step fresh ls = some s)
    (hload : SyncConfigStore.load.run (s.view works) = some config) : Serves s config :=
  (StepSystem.exec_invariant Kept.step fresh_kept hrun).serves hload

/-- A save whose steps all succeed. -/
def undisturbed (options : SyncOptions) : List Label :=
  match SyncConfigStore.encode options.defaultHeaders with
  | none => [.save options, .deleteSecret, .writeOptions]
  | some _ => [.save options, .initCipher, .commitSecret, .writeOptions]

/-- It is what a load returns, while the key lasts. -/
theorem load_of_undisturbed {options : SyncOptions} {key : Nat} (hidle : s.save = .idle)
    (hkey : s.key = some key) : ∃ s', StepSystem.exec step s (undisturbed options) = some s' ∧
      s'.completed = some options ∧
      SyncConfigStore.load.run (s'.view true) = some (.restored options true) := by
  unfold undisturbed
  cases hencode : SyncConfigStore.encode options.defaultHeaders with
  | none =>
    let s' := { s with
      secret := none
      prefs := SyncConfigStore.writeOptions s.prefs options false
      save := .idle
      completed := some options
      interrupted := [] }
    have hprefs : (s'.view true).disk.prefs = SyncConfigStore.writeOptions s.prefs options
        (SyncConfigStore.encode options.defaultHeaders).isSome := by
      rw [hencode]
      rfl
    have hload := SyncConfigStore.run_load hprefs hencode.symm
    refine ⟨s', by simp [StepSystem.exec, step, hidle, hencode, s'], rfl, hload.trans ?_⟩
    simp only [EngineConfig.restored, hencode]
  | some headers =>
    let s' := { s with
      secret := some ⟨key, headers⟩
      prefs := SyncConfigStore.writeOptions s.prefs options true
      save := .idle
      completed := some options
      interrupted := [] }
    have hprefs : (s'.view true).disk.prefs = SyncConfigStore.writeOptions s.prefs options
        (SyncConfigStore.encode options.defaultHeaders).isSome := by
      rw [hencode]
      rfl
    have hload := SyncConfigStore.run_load hprefs hencode.symm
    have hdecrypts : (s'.view true).decrypts = true := by simp [view, s', hkey]
    refine ⟨s', by simp [StepSystem.exec, step, hidle, hencode, hkey, s'], rfl, hload.trans ?_⟩
    rw [hdecrypts]

section Sample

/-- The second save has to delete the key, and is killed before its preferences. -/
def killedRun : List Label :=
  [.save Configuration.persisted, .generateKey, .initCipher, .commitSecret, .writeOptions,
    .save Configuration.refreshed, .fail, .deleteEntry, .generateKey, .initCipher, .commitSecret,
    .kill]

/-- The preferences of the first save are returned with the headers of the second. -/
theorem serves_no_earlier_save_killedRun :
    ∃ s config, StepSystem.exec step fresh killedRun = some s ∧
      SyncConfigStore.load.run (s.view true) = some config ∧
      config.options = { Configuration.persisted with
        defaultHeaders := Configuration.refreshed.defaultHeaders } ∧
      s.completed = some Configuration.persisted ∧
      s.interrupted = [Configuration.refreshed] ∧ Serves s config := by
  let config : EngineConfig := ⟨{ Configuration.persisted with
    defaultHeaders := Configuration.refreshed.defaultHeaders }, .PERSISTED, true, false⟩
  have hend : (StepSystem.exec step fresh killedRun).map (fun s =>
      decide (SyncConfigStore.load.run (s.view true) = some config ∧
        s.completed = some Configuration.persisted ∧
        s.interrupted = [Configuration.refreshed])) = some true := by
    decide +kernel
  obtain ⟨s, hrun, hs⟩ := Option.map_eq_some_iff.mp hend
  obtain ⟨hload, hcompleted, hinterrupted⟩ := of_decide_eq_true hs
  exact ⟨s, config, hrun, hload, rfl, hcompleted, hinterrupted,
    serves_no_earlier_save hrun hload⟩

end Sample

end Saving

end SyncProvider.Android
