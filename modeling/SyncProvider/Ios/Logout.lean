import SyncProvider.Ios.Configuration

/-!
# iOS: a logout and the recovery of the default headers

A flush that finds the default headers unavailable reads them back on the
dispatcher's actor: the Keychain, then the options of the engine, then the
configuration of the dispatcher. `updateConfig` has to wait for the actor. The
options have a lock of their own, which `configure` takes in between.

Results:
1. `Kept.step` : what a logout keeps, as long as no recovery overtakes it.
2. `logout_wins_iff` : the logout holds exactly when no recovery that found headers
   sets the options after the logout has.
3. `recovery_overtakes_logout` : the order in which the headers come back.
-/

namespace SyncProvider.Ios

/-- Where `restoreCredentialsIfNeeded` stands, on the dispatcher's actor. -/
inductive RecoveryState where
  | idle
  /-- `recoverDefaultHeaders` is called. -/
  | reading
  | found (headers : StringMap)
  /-- The options of the engine have the headers. -/
  | restored (headers : StringMap)
  deriving DecidableEq

structure Restoring where
  configuration : Configuration
  recovery : RecoveryState

namespace Restoring

inductive Label where
  | configure (t : Nat) (snapshot : SyncOptionsSnapshot)
  /-- Call `t` does its next write. -/
  | write (t : Nat)
  /-- The Keychain operation of call `t` throws. -/
  | secretFails (t : Nat)
  /-- A flush finds the default headers unavailable. -/
  | recover
  | readDefaultHeaders
  /-- The Keychain cannot be read. -/
  | readFails
  | restoreOptions
  | restoreConfig
  deriving DecidableEq

/-- The next write of the call needs the dispatcher's actor. -/
def wantsDispatcher : ConfigureState → Bool
  | .running _ .dispatcher => true
  | _ => false

def step (s : Restoring) : Label → Option Restoring
  | .configure t snapshot =>
    (s.configuration.step (.configure t snapshot)).map fun c => { s with configuration := c }
  | .write t =>
    -- the actor is not left between the guard of the recovery and its last write
    if wantsDispatcher (s.configuration.calls t) ∧ s.recovery ≠ .idle then none
    else (s.configuration.step (.write t)).map fun c => { s with configuration := c }
  | .secretFails t =>
    match s.configuration.calls t with
    | .running snapshot .secret =>
      some { s with configuration := s.configuration.setCall t (.running snapshot .record) }
    | _ => none
  | .recover =>
    if s.recovery = .idle ∧ s.configuration.config.credentialsUnavailable = true then
      some { s with recovery := .reading }
    else none
  | .readDefaultHeaders =>
    match s.recovery with
    | .reading =>
      match s.configuration.secret with
      | some headers => some { s with recovery := .found headers }
      | none => some { s with recovery := .idle }
    | _ => none
  | .readFails =>
    match s.recovery with
    | .reading => some { s with recovery := .idle }
    | _ => none
  | .restoreOptions =>
    match s.recovery with
    | .found headers =>
      some
        { configuration := { s.configuration with
            options := { s.configuration.options with defaultHeaders := headers } }
          recovery := .restored headers }
    | _ => none
  | .restoreConfig =>
    match s.recovery with
    | .restored headers =>
      some
        { configuration := { s.configuration with
            config := { s.configuration.config with
              defaultHeaders := headers
              credentialsUnavailable := false } }
          recovery := .idle }
    | _ => none

/-- An engine that was just created, on whatever it found. -/
structure Launch (s : Restoring) : Prop where
  calls : ∀ t, s.configuration.calls t = .idle
  recovery : s.recovery = .idle

/-- No call of `configure` is under way. -/
def Quiet (s : Restoring) : Prop :=
  ∀ t snapshot next, s.configuration.calls t ≠ .running snapshot next

/-- The call has set the options of the engine. -/
def hasSet : ConfigureState → Bool
  | .idle | .running _ .options => false
  | .running _ _ | .finished _ => true

def HasSet (t : Nat) (s : Restoring) : Prop := hasSet (s.configuration.calls t) = true

/-- Once call `t` has returned, neither the options nor the configuration of the
dispatcher have default headers. -/
def LoggedOut (t : Nat) (s : Restoring) : Prop :=
  ∀ snapshot, s.configuration.calls t = .finished snapshot →
    s.configuration.options.defaultHeaders = [] ∧ s.configuration.config.defaultHeaders = []

/-- The headers a recovery is to set. -/
def toRestore : RecoveryState → StringMap
  | .found headers => headers
  | _ => []

/-- A recovery that found headers does not set the options after call `t` has. -/
def InTime (t : Nat) (s : Restoring) (l : Label) : Prop :=
  l = .restoreOptions → HasSet t s → toRestore s.recovery = []

/-! ## 1. What a write does -/

/-- Where a call stands after a write. -/
def ConfigStore.after (snapshot : SyncOptionsSnapshot) : ConfigStore → ConfigureState
  | .options => .running snapshot .secret
  | .secret => .running snapshot .record
  | .record => .running snapshot .capacity
  | .capacity => .running snapshot .dispatcher
  | .dispatcher => .finished snapshot

/-- What a write leaves of the options and of the configuration of the dispatcher. -/
structure Writes (c c' : Configuration) (t : Nat) (snapshot : SyncOptionsSnapshot)
    (next : ConfigStore) : Prop where
  calls : c'.calls = Function.update c.calls t (ConfigStore.after snapshot next)
  options : c'.options = if next = .options then snapshot else c.options
  config : (next = .dispatcher ∧ snapshot.toDispatcherConfig .live false = some c'.config) ∨
    (next ≠ .dispatcher ∧ c'.config = c.config)

theorem writes_of_write {c c' : Configuration} {t : Nat} {snapshot : SyncOptionsSnapshot}
    {next : ConfigStore} (h : c.write t snapshot next = some c') :
    Writes c c' t snapshot next := by
  cases next with
  | options | secret =>
    cases h
    exact ⟨rfl, rfl, .inr ⟨by decide, rfl⟩⟩
  | record =>
    cases h
    cases (PersistedSyncRecord.ofOptions snapshot).encodes <;>
      simp only [Bool.false_eq_true, if_false, if_true] <;>
      exact ⟨rfl, rfl, .inr ⟨by decide, rfl⟩⟩
  | capacity =>
    obtain ⟨capacity, -, rfl⟩ := Option.map_eq_some_iff.mp h
    exact ⟨rfl, rfl, .inr ⟨by decide, rfl⟩⟩
  | dispatcher =>
    obtain ⟨config, hconfig, rfl⟩ := Option.map_eq_some_iff.mp h
    exact ⟨rfl, rfl, .inl ⟨rfl, hconfig⟩⟩

/-- The configuration for the dispatcher has the headers of the options. -/
theorem headers_of_toDispatcherConfig {options : SyncOptionsSnapshot} {source : ConfigSource}
    {config : DispatcherConfig} (h : options.toDispatcherConfig source false = some config) :
    config.defaultHeaders = options.defaultHeaders ∧ config.credentialsUnavailable = false := by
  obtain ⟨requestTimeoutMs, -, h⟩ := Option.bind_eq_some_iff.mp h
  obtain ⟨batchSize, -, rfl⟩ := Option.map_eq_some_iff.mp h
  exact ⟨rfl, rfl⟩

/-- One step of the engine, as the recovery and the calls see it. -/
inductive Steps (s : Restoring) : Label → Restoring → Prop where
  | configure {t : Nat} (snapshot : SyncOptionsSnapshot) (h : s.configuration.calls t = .idle) :
    Steps s (.configure t snapshot)
      { s with configuration := s.configuration.setCall t (.running snapshot .options) }
  | write {t : Nat} {snapshot : SyncOptionsSnapshot} {next : ConfigStore} {c : Configuration}
    (h : s.configuration.calls t = .running snapshot next)
    (hactor : next = .dispatcher → s.recovery = .idle)
    (hwrites : Writes s.configuration c t snapshot next) :
    Steps s (.write t) { s with configuration := c }
  | secretFails {t : Nat} {snapshot : SyncOptionsSnapshot}
    (h : s.configuration.calls t = .running snapshot .secret) :
    Steps s (.secretFails t)
      { s with configuration := s.configuration.setCall t (.running snapshot .record) }
  | recover (hidle : s.recovery = .idle)
    (hunavailable : s.configuration.config.credentialsUnavailable = true) :
    Steps s .recover { s with recovery := .reading }
  | found (h : s.recovery = .reading) {headers : StringMap}
    (hsecret : s.configuration.secret = some headers) :
    Steps s .readDefaultHeaders { s with recovery := .found headers }
  | notFound (h : s.recovery = .reading) :
    Steps s .readDefaultHeaders { s with recovery := .idle }
  | readFails (h : s.recovery = .reading) : Steps s .readFails { s with recovery := .idle }
  | restoreOptions {headers : StringMap} (h : s.recovery = .found headers) :
    Steps s .restoreOptions
      { configuration := { s.configuration with
          options := { s.configuration.options with defaultHeaders := headers } }
        recovery := .restored headers }
  | restoreConfig {headers : StringMap} (h : s.recovery = .restored headers) :
    Steps s .restoreConfig
      { configuration := { s.configuration with
          config := { s.configuration.config with
            defaultHeaders := headers
            credentialsUnavailable := false } }
        recovery := .idle }

theorem steps_of_step {s s' : Restoring} {l : Label} (h : s.step l = some s') : Steps s l s' := by
  cases l with
  | configure t snapshot =>
    obtain ⟨c, hc, rfl⟩ := Option.map_eq_some_iff.mp h
    simp only [Configuration.step] at hc
    split at hc
    · cases hc
      exact .configure snapshot ‹_›
    · cases hc
  | write t =>
    simp only [step, Option.ite_none_left_eq_some] at h
    obtain ⟨hactor, h⟩ := h
    obtain ⟨c, hc, rfl⟩ := Option.map_eq_some_iff.mp h
    simp only [Configuration.step] at hc
    split at hc
    · rename_i snapshot next ht
      refine .write ht (fun hnext => ?_) (writes_of_write hc)
      subst hnext
      by_contra hbusy
      exact hactor ⟨by rw [ht]; rfl, hbusy⟩
    · cases hc
  | secretFails t =>
    simp only [step] at h
    split at h <;> cases h
    exact .secretFails ‹_›
  | recover =>
    simp only [step, Option.ite_none_right_eq_some] at h
    obtain ⟨⟨hidle, hunavailable⟩, h⟩ := h
    cases h
    exact .recover hidle hunavailable
  | readDefaultHeaders =>
    simp only [step] at h
    split at h
    · split at h <;> cases h
      · exact .found ‹_› ‹_›
      · exact .notFound ‹_›
    · cases h
  | readFails =>
    simp only [step] at h
    split at h <;> cases h
    exact .readFails ‹_›
  | restoreOptions =>
    simp only [step] at h
    split at h <;> cases h
    exact .restoreOptions ‹_›
  | restoreConfig =>
    simp only [step] at h
    split at h <;> cases h
    exact .restoreConfig ‹_›

/-- A recovery is under way only while the dispatcher lacks the headers. -/
def Guarded (s : Restoring) : Prop :=
  s.recovery ≠ .idle → s.configuration.config.credentialsUnavailable = true

theorem Guarded.step {s s' : Restoring} {l : Label} (hG : Guarded s) (h : s.step l = some s') :
    Guarded s' := by
  cases steps_of_step h with
  | configure | secretFails => exact hG
  | write ht hactor hwrites =>
    rcases hwrites.config with ⟨rfl, -⟩ | ⟨-, hconfig⟩
    · exact fun hbusy => absurd (hactor rfl) hbusy
    · intro hbusy
      exact (congrArg DispatcherConfig.credentialsUnavailable hconfig).trans (hG hbusy)
  | recover hidle hunavailable => exact fun _ => hunavailable
  | found hreading | restoreOptions hreading => exact fun _ => hG (by rw [hreading]; simp)
  | notFound | readFails | restoreConfig => exact fun hbusy => absurd rfl hbusy

theorem Launch.guarded {s : Restoring} (h : Launch s) : Guarded s :=
  fun hbusy => absurd h.recovery hbusy

/-! ## 2. What the logout keeps -/

variable {s s' : Restoring} {t : Nat} {l : Label}

/-- Only call `t` is made, and it passes no default headers. -/
def Only (t : Nat) (l : Label) : Prop :=
  ∀ u snapshot, l = .configure u snapshot → u = t ∧ snapshot.defaultHeaders = []

/-- Call `t` is the only one under way, and passes no default headers. -/
structure Alone (t : Nat) (s : Restoring) : Prop where
  others : ∀ u snapshot next, s.configuration.calls u = .running snapshot next → u = t
  empty : ∀ snapshot next, s.configuration.calls t = .running snapshot next →
    snapshot.defaultHeaders = []

structure Kept (t : Nat) (s : Restoring) : Prop where
  alone : Alone t s
  guarded : Guarded s
  options : HasSet t s → s.configuration.options.defaultHeaders = []
  config : ∀ snapshot, s.configuration.calls t = .finished snapshot →
    s.configuration.config.defaultHeaders = [] ∧
      s.configuration.config.credentialsUnavailable = false

theorem Alone.step (hA : Alone t s) (honly : Only t l) (h : s.step l = some s') : Alone t s' := by
  have moved {u : Nat} {calls : Nat → ConfigureState} (call' : ConfigureState)
      (hcalls : calls = Function.update s.configuration.calls u call') (hu : u = t)
      (hempty : ∀ snapshot next, call' = .running snapshot next → snapshot.defaultHeaders = []) :
      (∀ v snapshot next, calls v = .running snapshot next → v = t) ∧
        ∀ snapshot next, calls t = .running snapshot next → snapshot.defaultHeaders = [] := by
    subst hcalls hu
    refine ⟨fun v snapshot next hv => ?_, fun snapshot next ht => ?_⟩
    · by_contra hne
      rw [Function.update_of_ne hne] at hv
      exact hne (hA.others v snapshot next hv)
    · rw [Function.update_self] at ht
      exact hempty snapshot next ht
  cases steps_of_step h with
  | configure snapshot ht =>
    obtain ⟨rfl, hempty⟩ := honly _ _ rfl
    obtain ⟨hothers, hempty'⟩ := moved (.running snapshot .options) rfl rfl (by
      rintro _ _ ⟨⟩
      exact hempty)
    exact ⟨hothers, hempty'⟩
  | write ht hactor hwrites =>
    rename_i u snapshot next c
    obtain rfl := hA.others _ _ _ ht
    obtain ⟨hothers, hempty⟩ := moved _ hwrites.calls rfl (by
      intro snapshot' next' hafter
      have hsame : snapshot' = snapshot := by cases next <;> cases hafter <;> rfl
      exact hsame ▸ hA.empty _ _ ht)
    exact ⟨hothers, hempty⟩
  | secretFails ht =>
    rename_i u snapshot
    obtain rfl := hA.others _ _ _ ht
    obtain ⟨hothers, hempty⟩ := moved (.running snapshot .record) rfl rfl (by
      rintro _ _ ⟨⟩
      exact hA.empty _ _ ht)
    exact ⟨hothers, hempty⟩
  | _ => exact ⟨hA.others, hA.empty⟩

theorem Kept.step (hK : Kept t s) (honly : Only t l) (hintime : InTime t s l)
    (h : s.step l = some s') : Kept t s' := by
  have hA := hK.alone.step honly h
  have hG := hK.guarded.step h
  cases steps_of_step h with
  | configure snapshot ht =>
    rename_i u
    obtain ⟨rfl, hempty⟩ := honly _ _ rfl
    have hcall := Function.update_self u (ConfigureState.running snapshot .options)
      s.configuration.calls
    refine ⟨hA, hG, fun hset => ?_, fun snapshot' hdone => ?_⟩
    · cases (congrArg hasSet hcall).symm.trans hset
    · cases hcall.symm.trans hdone
  | write ht hactor hwrites =>
    rename_i u snapshot next c
    obtain rfl := hK.alone.others _ _ _ ht
    have hempty := hK.alone.empty _ _ ht
    refine ⟨hA, hG, fun _ => ?_, fun snapshot' hdone => ?_⟩
    · show c.options.defaultHeaders = []
      rw [hwrites.options]
      split
      · exact hempty
      · rename_i hnext
        refine hK.options (show hasSet (s.configuration.calls u) = true from ?_)
        rw [ht]
        cases next <;> first | rfl | exact absurd rfl hnext
    · rw [show c.calls = _ from hwrites.calls, Function.update_self] at hdone
      rcases hwrites.config with ⟨rfl, hconfig⟩ | ⟨hnext, -⟩
      · obtain ⟨hheaders, havailable⟩ := headers_of_toDispatcherConfig hconfig
        exact ⟨hheaders.trans hempty, havailable⟩
      · cases next <;> first | exact absurd rfl hnext | cases hdone
  | secretFails ht =>
    rename_i u snapshot
    obtain rfl := hK.alone.others _ _ _ ht
    have hcall := Function.update_self u (ConfigureState.running snapshot .record)
      s.configuration.calls
    refine ⟨hA, hG, fun _ => hK.options ?_, fun snapshot' hdone => ?_⟩
    · exact congrArg hasSet ht
    · cases hcall.symm.trans hdone
  | restoreOptions hfound =>
    refine ⟨hA, hG, fun hset => ?_, hK.config⟩
    have hheaders := hintime rfl hset
    rwa [hfound] at hheaders
  | restoreConfig hrestored =>
    refine ⟨hA, hG, hK.options, fun snapshot hdone => ?_⟩
    have hunavailable := hK.guarded (by rw [hrestored]; simp)
    rw [(hK.config snapshot hdone).2] at hunavailable
    cases hunavailable
  | recover | found | notFound | readFails => exact ⟨hA, hG, hK.options, hK.config⟩

/-! ## 3. When the logout holds -/

theorem Kept.loggedOut (hK : Kept t s) : LoggedOut t s :=
  fun snapshot hdone => ⟨hK.options (congrArg hasSet hdone), (hK.config snapshot hdone).1⟩

/-- A recovery has set the options after call `t`, and is the last one. -/
structure Overtaken (t : Nat) (s : Restoring) : Prop where
  alone : Alone t s
  past : HasSet t s
  options : s.configuration.options.defaultHeaders ≠ []
  last : (∃ headers, s.recovery = .restored headers) ∨
    s.recovery = .idle ∧ s.configuration.config.credentialsUnavailable = false

theorem overtaken_of_not_inTime (hK : Kept t s) (honly : Only t l) (hintime : ¬InTime t s l)
    (h : s.step l = some s') : Overtaken t s' := by
  simp only [InTime, Classical.not_imp] at hintime
  obtain ⟨rfl, hset, hne⟩ := hintime
  have hA := hK.alone.step honly h
  cases steps_of_step h with
  | restoreOptions hfound =>
    rw [hfound] at hne
    exact ⟨hA, hset, hne, .inl ⟨_, rfl⟩⟩

theorem Overtaken.step (hO : Overtaken t s) (honly : Only t l) (h : s.step l = some s') :
    Overtaken t s' := by
  have hA := hO.alone.step honly h
  have hset : hasSet (s.configuration.calls t) = true := hO.past
  have busy {state : RecoveryState} (hstate : s.recovery = state)
      (hidle : state ≠ .idle) (hrestored : ∀ headers, state ≠ .restored headers) : False := by
    rcases hO.last with ⟨headers, hlast⟩ | ⟨hlast, -⟩
    · exact hrestored headers (hstate.symm.trans hlast)
    · exact hidle (hstate.symm.trans hlast)
  cases steps_of_step h with
  | configure snapshot ht =>
    obtain ⟨rfl, -⟩ := honly _ _ rfl
    rw [ht] at hset
    cases hset
  | write ht hactor hwrites =>
    rename_i u snapshot next c
    obtain rfl := hO.alone.others _ _ _ ht
    have hnext : next ≠ .options := by
      rintro rfl
      rw [ht] at hset
      cases hset
    refine ⟨hA, ?_, ?_, ?_⟩
    · show hasSet (c.calls u) = true
      rw [hwrites.calls, Function.update_self]
      cases next <;> rfl
    · show c.options.defaultHeaders ≠ []
      rw [hwrites.options, if_neg hnext]
      exact hO.options
    · rcases hwrites.config with ⟨rfl, hconfig⟩ | ⟨-, hconfig⟩
      · exact .inr ⟨hactor rfl, (headers_of_toDispatcherConfig hconfig).2⟩
      · rw [hconfig]
        exact hO.last
  | secretFails ht =>
    rename_i u snapshot
    obtain rfl := hO.alone.others _ _ _ ht
    have hcall := Function.update_self u (ConfigureState.running snapshot .record)
      s.configuration.calls
    exact ⟨hA, congrArg hasSet hcall, hO.options, hO.last⟩
  | recover hidle hunavailable =>
    rcases hO.last with ⟨headers, hlast⟩ | ⟨-, havailable⟩
    · cases hidle.symm.trans hlast
    · cases hunavailable.symm.trans havailable
  | found hreading | notFound hreading | readFails hreading | restoreOptions hreading =>
    exact (busy hreading (by simp) (by simp)).elim
  | restoreConfig => exact ⟨hA, hO.past, hO.options, .inr ⟨rfl, rfl⟩⟩

/-- After any run of the engine, call `configure` without default headers while no
other call is under way, and no other call follows. For any order of the steps of
the call and of the recoveries, once the call has returned the options and the
configuration of the dispatcher have no default headers from then on, exactly when
no recovery that found headers sets the options after the call has set them. -/
theorem logout_wins_iff {s s' : Restoring} {t : Nat} {snapshot : SyncOptionsSnapshot}
    {ls : List Label} (h : StepSystem.Reachable Launch step s) (hquiet : Quiet s)
    (hempty : snapshot.defaultHeaders = []) (hlast : ∀ l ∈ ls, ∀ u other, l ≠ .configure u other)
    (hrun : StepSystem.exec step s (.configure t snapshot :: ls) = some s')
    (hdone : s'.configuration.calls t = .finished snapshot) :
    StepSystem.Always step (LoggedOut t) s (.configure t snapshot :: ls) ↔
      StepSystem.Meets step (InTime t) s (.configure t snapshot :: ls) := by
  have hidle : s.configuration.calls t = .idle := by
    obtain ⟨m, hm, -⟩ := StepSystem.exec_cons_eq_some.mp hrun
    cases steps_of_step hm with
    | configure _ ht => exact ht
  have hK : Kept t s := by
    refine ⟨⟨fun u other next hu => absurd hu (hquiet u other next), ?_⟩,
      h.invariant (fun hlaunch => hlaunch.guarded) Guarded.step, fun hset => ?_, ?_⟩
    · intro other next ht
      exact absurd ht (hquiet t other next)
    · cases (congrArg hasSet hidle).symm.trans hset
    · intro other hother
      cases hidle.symm.trans hother
  have honly : StepSystem.Meets step (fun _ l => Only t l) s (.configure t snapshot :: ls) := by
    refine StepSystem.meets_of_forall fun l hl => ?_
    rcases List.mem_cons.mp hl with rfl | hl
    · rintro _ _ ⟨⟩
      exact ⟨rfl, hempty⟩
    · exact fun u other heq => absurd heq (hlast l hl u other)
  refine StepSystem.always_iff_meets_of_lost (I := Kept t) (J := Overtaken t)
    (fun hK honly hintime hs => hK.step honly hintime hs) Kept.loggedOut
    (fun hK honly hintime hs _ => overtaken_of_not_inTime hK honly hintime hs)
    (fun hO honly hs _ => hO.step honly hs) hK honly hrun fun hO hout => ?_
  exact hO.options (hout snapshot hdone).1

section Sample

instance decidableInTime (t : Nat) (s : Restoring) (l : Label) : Decidable (InTime t s l) :=
  inferInstanceAs (Decidable (l = .restoreOptions → hasSet (s.configuration.calls t) = true →
    toRestore s.recovery = []))

/-- The engine was started before the first unlock of the device. -/
def lockedLaunch : Restoring where
  configuration := { Configuration.atLaunch with
    source := .persisted
    secret := some [("Authorization", "Bearer old")]
    record := some (.ofOptions Configuration.refreshed)
    config := { Configuration.atLaunch.config with
      source := .persisted
      hasDefaultHeaders := true
      credentialsUnavailable := true } }
  recovery := .idle

theorem lockedLaunch_launch : Launch lockedLaunch := ⟨fun _ => rfl, rfl⟩

/-- A logout whose first write comes after the options of the recovery. -/
def inTimeRun : List Label :=
  [.recover, .readDefaultHeaders, .restoreOptions, .write 0, .write 0, .write 0, .write 0,
    .restoreConfig, .write 0]

/-- A logout whose first write comes before the options of the recovery. -/
def overtakenRun : List Label :=
  [.recover, .readDefaultHeaders, .write 0, .restoreOptions, .write 0, .write 0, .write 0,
    .restoreConfig, .write 0]

/-- The recovery comes first, and the logout holds. -/
theorem logout_wins_iff_inTimeRun : StepSystem.Always step (LoggedOut 0) lockedLaunch
    (.configure 0 Configuration.loggedOut :: inTimeRun) := by
  have hend : (StepSystem.exec step lockedLaunch
      (.configure 0 Configuration.loggedOut :: inTimeRun)).map (fun s => s.configuration.calls 0) =
        some (.finished Configuration.loggedOut) := by decide +kernel
  obtain ⟨s, hrun, hdone⟩ := Option.map_eq_some_iff.mp hend
  have hreachable : StepSystem.Reachable Launch step lockedLaunch :=
    ⟨lockedLaunch, [], lockedLaunch_launch, rfl⟩
  refine (logout_wins_iff hreachable (fun t snapshot next => ?_) rfl ?_ hrun hdone).mpr ?_
  · rw [lockedLaunch_launch.calls]
    simp
  · simp [inTimeRun]
  · decide +kernel

/-- The logout has set the options between the Keychain read of the recovery and its
write. When the call returns, the Keychain and the dispatcher have no headers, and
the options have the old token. -/
theorem recovery_overtakes_logout :
    Launch lockedLaunch ∧ ∃ s, StepSystem.exec step lockedLaunch
        (.configure 0 Configuration.loggedOut :: overtakenRun) = some s ∧
      s.configuration.calls 0 = .finished Configuration.loggedOut ∧
      s.configuration.secret = none ∧ s.configuration.config.defaultHeaders = [] ∧
      s.configuration.options.defaultHeaders = [("Authorization", "Bearer old")] ∧
      ¬LoggedOut 0 s := by
  have hend : (StepSystem.exec step lockedLaunch
      (.configure 0 Configuration.loggedOut :: overtakenRun)).map (fun s =>
        (s.configuration.calls 0, decide (s.configuration.secret = none ∧
          s.configuration.config.defaultHeaders = [] ∧
          s.configuration.options.defaultHeaders = [("Authorization", "Bearer old")]))) =
        some (.finished Configuration.loggedOut, true) := by
    decide +kernel
  obtain ⟨s, hrun, hs⟩ := Option.map_eq_some_iff.mp hend
  simp only [Prod.mk.injEq, decide_eq_true_eq] at hs
  obtain ⟨hdone, hsecret, hconfig, hoptions⟩ := hs
  refine ⟨lockedLaunch_launch, s, hrun, hdone, hsecret, hconfig, hoptions, fun hout => ?_⟩
  cases hoptions.symm.trans (hout _ hdone).1

end Sample

end Restoring

end SyncProvider.Ios
