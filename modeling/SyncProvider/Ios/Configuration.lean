import SyncProvider.Ios.Options
import SyncProvider.Lib.StepSystem
import SyncProvider.Lib.Writers
import Mathlib.Logic.Function.Basic

/-!
# iOS: overlapping calls of `configure`

A call sets the options under the lock, saves them (the secret, then the record),
and hands them to the storage actor and to the dispatcher. Nothing orders the
calls, so two of them can overtake each other between any two of these writes.

Results:
1. `run_written` : each store shows the call that wrote it last.
2. `applied_as_unit_iff` : when the stores come from one call.
-/

namespace SyncProvider.Ios

/-! ## The model -/

/-- Mirror of `SyncOptions`. -/
structure SyncOptionsSnapshot where
  strategy : String
  retryPolicy : RetryPolicyValue
  batchSize : Double
  requestTimeoutMs : Double
  maxQueueSize : Double
  persistQueue : Bool
  defaultHeaders : StringMap
  deriving DecidableEq

/-- `Int(_:)`. It traps on a number that has no 64-bit integer part. -/
def int (x : Double) : Option Int :=
  match x.norm with
  | .fin q =>
    if -2 ^ 63 ≤ Double.truncRat q ∧ Double.truncRat q < 2 ^ 63 then some (Double.truncRat q)
    else none
  | _ => none

def SyncOptionsSnapshot.toDispatcherConfig (options : SyncOptionsSnapshot) (source : ConfigSource)
    (credentialsUnavailable : Bool) : Option DispatcherConfig :=
  (int options.requestTimeoutMs).bind fun requestTimeoutMs =>
    (int options.batchSize).map fun batchSize =>
      { retryPolicy := options.retryPolicy
        requestTimeoutMs := requestTimeoutMs
        batchSize := batchSize
        defaultHeaders := options.defaultHeaders
        source := source
        hasDefaultHeaders := !options.defaultHeaders.isEmpty || credentialsUnavailable
        credentialsUnavailable := credentialsUnavailable }

/-- The non-secret half of the options. `defaultHeaders` is reduced to a flag. -/
structure PersistedSyncRecord where
  strategy : String
  retryPolicy : RetryPolicyValue
  batchSize : Double
  requestTimeoutMs : Double
  maxQueueSize : Double
  persistQueue : Bool
  hasDefaultHeaders : Bool
  deriving DecidableEq

def PersistedSyncRecord.ofOptions (options : SyncOptionsSnapshot) : PersistedSyncRecord where
  strategy := options.strategy
  retryPolicy := options.retryPolicy
  batchSize := options.batchSize
  requestTimeoutMs := options.requestTimeoutMs
  maxQueueSize := options.maxQueueSize
  persistQueue := options.persistQueue
  hasDefaultHeaders := !options.defaultHeaders.isEmpty

/-- `JSONEncoder` throws on a number that is not finite. -/
def PersistedSyncRecord.encodes (record : PersistedSyncRecord) : Bool :=
  record.batchSize.isFinite && record.requestTimeoutMs.isFinite && record.maxQueueSize.isFinite

/-- What `save` leaves in the secret store. Without headers it is deleted. -/
def secretOf (options : SyncOptionsSnapshot) : Option StringMap :=
  if options.defaultHeaders.isEmpty then none else some options.defaultHeaders

/-- What a call of `configure` writes, in this order. -/
inductive ConfigStore where
  /-- The options, their source and the credential hold, under the lock. -/
  | options
  | secret
  | record
  /-- `storage.updateCapacity`. -/
  | capacity
  /-- `dispatcher.updateConfig`. -/
  | dispatcher
  deriving DecidableEq

/-- Where a call of `configure` stands. -/
inductive ConfigureState where
  | idle
  | running (snapshot : SyncOptionsSnapshot) (next : ConfigStore)
  | finished (snapshot : SyncOptionsSnapshot)
  deriving DecidableEq

structure Configuration where
  options : SyncOptionsSnapshot
  source : ConfigSource
  credentialHoldUntil : Int
  secret : Option StringMap
  record : Option PersistedSyncRecord
  capacity : Int
  config : DispatcherConfig
  calls : Nat → ConfigureState

/-- A call of `configure`. -/
structure ConfigureCall where
  id : Nat
  snapshot : SyncOptionsSnapshot
  deriving DecidableEq

namespace Configuration

inductive Label where
  | configure (t : Nat) (snapshot : SyncOptionsSnapshot)
  /-- Call `t` does its next write. -/
  | write (t : Nat)
  deriving DecidableEq

def setCall (s : Configuration) (t : Nat) (call : ConfigureState) : Configuration :=
  { s with calls := Function.update s.calls t call }

/-- The next write of call `t`. -/
def write (s : Configuration) (t : Nat) (snapshot : SyncOptionsSnapshot) :
    ConfigStore → Option Configuration
  | .options =>
    some ({ s with options := snapshot, source := .live, credentialHoldUntil := 0 }.setCall t
      (.running snapshot .secret))
  | .secret => some ({ s with secret := secretOf snapshot }.setCall t (.running snapshot .record))
  | .record =>
    let record := PersistedSyncRecord.ofOptions snapshot
    -- what the encoder throws is logged, and the call goes on
    some ((if record.encodes then { s with record := some record } else s).setCall t
      (.running snapshot .capacity))
  | .capacity =>
    (int snapshot.maxQueueSize).map fun capacity =>
      { s with capacity := max 1 capacity }.setCall t (.running snapshot .dispatcher)
  | .dispatcher =>
    (snapshot.toDispatcherConfig .live false).map fun config =>
      { s with config := config }.setCall t (.finished snapshot)

def step (s : Configuration) : Label → Option Configuration
  | .configure t snapshot =>
    match s.calls t with
    | .idle => some (s.setCall t (.running snapshot .options))
    | _ => none
  | .write t =>
    match s.calls t with
    | .running snapshot next => s.write t snapshot next
    | _ => none

/-- The writes a step does. -/
def writes (s : Configuration) : Label → List (ConfigureCall × ConfigStore)
  | .configure _ _ => []
  | .write t =>
    match s.calls t with
    | .running snapshot next =>
      if next = .record ∧ (PersistedSyncRecord.ofOptions snapshot).encodes = false then []
      else [(⟨t, snapshot⟩, next)]
    | _ => []

/-- The store has the value of this call. -/
def From (call : ConfigureCall) : ConfigStore → Configuration → Prop
  | .options, s => s.options = call.snapshot ∧ s.source = .live
  | .secret, s => s.secret = secretOf call.snapshot
  | .record, s => s.record = some (.ofOptions call.snapshot)
  | .capacity, s => ∃ n, int call.snapshot.maxQueueSize = some n ∧ s.capacity = max 1 n
  | .dispatcher, s => call.snapshot.toDispatcherConfig .live false = some s.config

/-! ## 1. The stores and their last writers -/

/-- The stores a call wrote before this one. -/
def before : ConfigStore → List ConfigStore
  | .options => []
  | .secret => [.options]
  | .record => [.options, .secret]
  | .capacity => [.options, .secret, .record]
  | .dispatcher => [.options, .secret, .record, .capacity]

/-- What call `t` has written so far. -/
def Progress (t : Nat) (log : List (ConfigureCall × ConfigStore)) : ConfigureState → Prop
  | .idle => True
  | .running snapshot next =>
    (∀ r ∈ before next, (r = .record → (PersistedSyncRecord.ofOptions snapshot).encodes = true) →
      (⟨t, snapshot⟩, r) ∈ log) ∧
      (∀ r, (⟨t, snapshot⟩, r) ∈ log → r ∈ before next) ∧
      (next = .dispatcher → snapshot.maxQueueSize.isFinite = true)
  | .finished snapshot => ∀ r, (⟨t, snapshot⟩, r) ∈ log

/-- The stores show their last writers, and each call wrote what it passed, once. -/
structure Written (s : Configuration) (log : List (ConfigureCall × ConfigStore)) : Prop where
  holds : Writers.Holds From s log
  nodup : log.Nodup
  progress : ∀ t, Progress t log (s.calls t)
  known : ∀ call r, (call, r) ∈ log →
    (∃ next, s.calls call.id = .running call.snapshot next) ∨
      s.calls call.id = .finished call.snapshot

section Step

variable {s s' : Configuration} {log new : List (ConfigureCall × ConfigStore)} {t : Nat}
  {snapshot : SyncOptionsSnapshot} {next : ConfigStore} {call' : ConfigureState}

/-- The writes of the other calls do not count. -/
theorem Progress.mono {state : ConfigureState} (h : Progress t log state)
    (hnew : ∀ p ∈ new, p.1.id ≠ t) : Progress t (log ++ new) state := by
  cases state with
  | idle => trivial
  | running snapshot next =>
    obtain ⟨hpassed, honly, hsize⟩ := h
    refine ⟨fun r hr h => List.mem_append_left _ (hpassed r hr h), fun r hr => ?_, hsize⟩
    rcases List.mem_append.mp hr with hr | hr
    · exact honly r hr
    · exact absurd rfl (hnew _ hr)
  | finished snapshot => exact fun r => List.mem_append_left _ (h r)

/-- Call `t` moves on, and wrote at most for itself. -/
theorem Written.advance (hW : Written s log) (hcalls : s'.calls = Function.update s.calls t call')
    (hholds : Writers.Holds From s' (log ++ new)) (hnodup : (log ++ new).Nodup)
    (hnew : ∀ p ∈ new, p.1 = ⟨t, snapshot⟩) (hprogress : Progress t (log ++ new) call')
    (hbefore : s.calls t = .idle ∨ ∃ next, s.calls t = .running snapshot next)
    (hafter : (∃ next, call' = .running snapshot next) ∨ call' = .finished snapshot) :
    Written s' (log ++ new) := by
  refine ⟨hholds, hnodup, fun u => ?_, fun call r hr => ?_⟩
  · rw [hcalls]
    by_cases hu : u = t
    · subst hu
      rwa [Function.update_self]
    · rw [Function.update_of_ne hu]
      refine (hW.progress u).mono fun p hp => ?_
      rw [hnew p hp]
      exact Ne.symm hu
  · rw [hcalls]
    have hown (hcall : call = ⟨t, snapshot⟩) :
        (∃ next, Function.update s.calls t call' call.id = .running call.snapshot next) ∨
          Function.update s.calls t call' call.id = .finished call.snapshot := by
      subst hcall
      rwa [Function.update_self]
    rcases List.mem_append.mp hr with hr | hr
    · have hknown := hW.known call r hr
      by_cases hu : call.id = t
      · -- the call is the one that moves
        refine hown ?_
        obtain ⟨id, snapshot'⟩ := call
        obtain rfl : id = t := hu
        rcases hbefore with hbefore | ⟨next, hbefore⟩
        · rcases hknown with ⟨next', hknown⟩ | hknown <;> rw [hbefore] at hknown <;> cases hknown
        · rcases hknown with ⟨next', hknown⟩ | hknown <;> rw [hbefore] at hknown <;> cases hknown
          rfl
      · rw [Function.update_of_ne hu]
        exact hknown
    · exact hown (hnew _ hr)

theorem From.setCall {call : ConfigureCall} {r : ConfigStore} (h : From call r s) :
    From call r (s.setCall t call') := by
  cases r <;> exact h

theorem isFinite_of_int {x : Double} {n : Int} (h : int x = some n) : x.isFinite = true := by
  cases x with
  | nan | inf neg => cases h
  | negZero | fin q => rfl

/-- The stores a call writes before and with the next one. -/
theorem Progress.grow (h : Progress t log (.running snapshot next))
    (hnew : ∀ r, (⟨t, snapshot⟩, r) ∈ new ↔
      r = next ∧ (r = .record → (PersistedSyncRecord.ofOptions snapshot).encodes = true)) :
    (∀ r ∈ before next ++ [next],
      (r = .record → (PersistedSyncRecord.ofOptions snapshot).encodes = true) →
        (⟨t, snapshot⟩, r) ∈ log ++ new) ∧
      ∀ r, (⟨t, snapshot⟩, r) ∈ log ++ new → r ∈ before next ++ [next] := by
  obtain ⟨hpassed, honly, -⟩ := h
  constructor
  · intro r hr hrecord
    rcases List.mem_append.mp hr with hr | hr
    · exact List.mem_append_left _ (hpassed r hr hrecord)
    · exact List.mem_append_right _ ((hnew r).mpr ⟨List.mem_singleton.mp hr, hrecord⟩)
  · intro r hr
    rcases List.mem_append.mp hr with hr | hr
    · exact List.mem_append_left _ (honly r hr)
    · exact List.mem_append_right _ (List.mem_singleton.mpr ((hnew r).mp hr).1)

theorem not_mem_before : ∀ r : ConfigStore, r ∉ before r
  | .options | .secret | .record | .capacity | .dispatcher => by simp [before]

/-- A call writes its next store. -/
theorem Written.write (hW : Written s log) (ht : s.calls t = .running snapshot next)
    (h : s.write t snapshot next = some s') : Written s' (log ++ s.writes (.write t)) := by
  have hprogress := hW.progress t
  rw [ht] at hprogress
  have hwrites : s.writes (.write t) =
      if next = .record ∧ (PersistedSyncRecord.ofOptions snapshot).encodes = false then []
      else [(⟨t, snapshot⟩, next)] := by
    simp only [writes, ht]
  generalize s.writes (.write t) = new at hwrites ⊢
  have hmem (call : ConfigureCall) (r : ConfigStore) : (call, r) ∈ new ↔ call = ⟨t, snapshot⟩ ∧
      r = next ∧ (r = .record → (PersistedSyncRecord.ofOptions snapshot).encodes = true) := by
    rw [hwrites]
    split
    · rename_i hrecord
      simp [hrecord]
    · rename_i hrecord
      simp only [List.mem_singleton, Prod.mk.injEq]
      grind
  have hnew : ∀ p ∈ new, p.1 = ⟨t, snapshot⟩ := fun p hp => ((hmem p.1 p.2).mp hp).1
  obtain ⟨hpassed, honly⟩ := hprogress.grow fun r => by rw [hmem]; simp
  have hnodup : (log ++ new).Nodup := by
    refine hW.nodup.append ?_ fun p hp hp' => ?_
    · rw [hwrites]
      split
      · exact List.nodup_nil
      · exact List.nodup_singleton _
    · obtain ⟨call, r⟩ := p
      obtain ⟨rfl, rfl, -⟩ := (hmem call r).mp hp'
      exact not_mem_before r (hprogress.2.1 r hp)
  -- the store that is written shows the call, the others stay
  have hholds (hself : From ⟨t, snapshot⟩ next s')
      (hother : ∀ call r, r ≠ next → From call r s → From call r s')
      (hrecord : next = .record → (PersistedSyncRecord.ofOptions snapshot).encodes = true) :
      Writers.Holds From s' (log ++ new) := by
    rw [hwrites, if_neg]
    · exact hW.holds.write hself hother
    · rintro ⟨hnext, hencodes⟩
      rw [hrecord hnext] at hencodes
      cases hencodes
  cases next with
  | options =>
    cases h
    refine hW.advance rfl (hholds ⟨rfl, rfl⟩ (fun call r hr hfrom => ?_) (by simp)) hnodup hnew
      ⟨hpassed, honly, by simp⟩ (.inr ⟨_, ht⟩) (.inl ⟨_, rfl⟩)
    cases r <;> first | exact absurd rfl hr | exact hfrom
  | secret =>
    cases h
    refine hW.advance rfl (hholds rfl (fun call r hr hfrom => ?_) (by simp)) hnodup hnew
      ⟨hpassed, honly, by simp⟩ (.inr ⟨_, ht⟩) (.inl ⟨_, rfl⟩)
    cases r <;> first | exact absurd rfl hr | exact hfrom
  | record =>
    cases h
    cases hencodes : (PersistedSyncRecord.ofOptions snapshot).encodes with
    | true =>
      simp only [hencodes, if_true] at hholds ⊢
      refine hW.advance rfl (hholds rfl (fun call r hr hfrom => ?_) (fun _ => trivial)) hnodup hnew
        ⟨hpassed, honly, by simp⟩ (.inr ⟨_, ht⟩) (.inl ⟨_, rfl⟩)
      cases r <;> first | exact absurd rfl hr | exact hfrom
    | false =>
      obtain rfl : new = [] := by rw [hwrites, if_pos ⟨rfl, hencodes⟩]
      have hkept : Writers.Holds From s (log ++ []) := by
        rw [List.append_nil]
        exact hW.holds
      simp only [Bool.false_eq_true, if_false]
      exact hW.advance rfl (fun r call hlast => From.setCall (hkept r call hlast)) hnodup hnew
        ⟨hpassed, honly, by simp⟩ (.inr ⟨_, ht⟩) (.inl ⟨_, rfl⟩)
  | capacity =>
    obtain ⟨n, hn, rfl⟩ := Option.map_eq_some_iff.mp h
    refine hW.advance rfl (hholds ⟨n, hn, rfl⟩ (fun call r hr hfrom => ?_) (by simp)) hnodup hnew
      ⟨hpassed, honly, fun _ => isFinite_of_int hn⟩ (.inr ⟨_, ht⟩) (.inl ⟨_, rfl⟩)
    cases r <;> first | exact absurd rfl hr | exact hfrom
  | dispatcher =>
    obtain ⟨config, hconfig, rfl⟩ := Option.map_eq_some_iff.mp h
    have hencodes : (PersistedSyncRecord.ofOptions snapshot).encodes = true := by
      obtain ⟨timeout, htimeout, hbatch⟩ := Option.bind_eq_some_iff.mp hconfig
      obtain ⟨batch, hbatch, -⟩ := Option.map_eq_some_iff.mp hbatch
      simp [PersistedSyncRecord.encodes, PersistedSyncRecord.ofOptions, hprogress.2.2 rfl,
        isFinite_of_int htimeout, isFinite_of_int hbatch]
    refine hW.advance rfl (hholds hconfig (fun call r hr hfrom => ?_) (by simp)) hnodup hnew
      (fun r => hpassed r ?_ fun _ => hencodes) (.inr ⟨_, ht⟩) (.inr rfl)
    · cases r <;> first | exact absurd rfl hr | exact hfrom
    · cases r <;> simp [before]

theorem Written.step {l : Label} (hW : Written s log) (h : s.step l = some s') :
    Written s' (log ++ s.writes l) := by
  cases l with
  | configure t snapshot =>
    simp only [Configuration.step] at h
    split at h
    · rename_i ht
      cases h
      have hnone : ∀ r, (⟨t, snapshot⟩, r) ∉ log := by
        intro r hr
        rcases hW.known _ r hr with ⟨next, hknown⟩ | hknown <;> rw [ht] at hknown <;> cases hknown
      show Written _ (log ++ [])
      refine hW.advance rfl ?_ ?_ (by simp) ⟨by simp [before], fun r hr => ?_, by simp⟩ (.inl ht)
        (.inl ⟨_, rfl⟩)
      · rw [List.append_nil]
        exact fun r call hlast => From.setCall (hW.holds r call hlast)
      · rw [List.append_nil]
        exact hW.nodup
      · rw [List.append_nil] at hr
        exact absurd hr (hnone r)
    · cases h
  | write t =>
    simp only [Configuration.step] at h
    split at h
    · rename_i snapshot next ht
      exact hW.write ht h
    · cases h

end Step

theorem run_written {s₀ s : Configuration} {ls : List Label}
    {log : List (ConfigureCall × ConfigStore)} (hidle : ∀ t, s₀.calls t = .idle)
    (hrun : StepSystem.exec (StepSystem.recorded step writes) (s₀, []) ls = some (s, log)) :
    Written s log := by
  refine StepSystem.exec_invariant (I := fun p => Written p.1 p.2) ?_ ?_ hrun
  · rintro ⟨s, log⟩ l ⟨s', log'⟩ hW hp
    obtain ⟨hstep, rfl⟩ := StepSystem.recorded_eq_some.mp hp
    exact Written.step hW hstep
  · refine ⟨.nil, List.nodup_nil, fun t => ?_, by simp⟩
    show Progress t [] (s₀.calls t)
    rw [hidle t]
    trivial

/-! ## 2. One call for all stores -/

/-- For any number of calls of `configure`, in any order of their steps, when all
have finished: the options, the secret, the record, the capacity and the
configuration of the dispatcher come from one and the same call, exactly when
nobody writes a store after the call that set the options last has written it. -/
theorem applied_as_unit_iff {s₀ s : Configuration} {ls : List Label}
    {log : List (ConfigureCall × ConfigStore)} {last : ConfigureCall}
    (hidle : ∀ t, s₀.calls t = .idle)
    (hrun : StepSystem.exec (StepSystem.recorded step writes) (s₀, []) ls = some (s, log))
    (hdone : ∀ t snapshot next, s.calls t ≠ .running snapshot next)
    (hlast : Writers.lastWriter .options log = some last) :
    (∃ call, ∀ r, Writers.lastWriter r log = some call ∧ From call r s) ↔
      ∀ r pre post, log = pre ++ (last, r) :: post → ∀ call, (call, r) ∉ post := by
  have hW := run_written hidle hrun
  -- the call has finished, so it has written every store
  have hall : ∀ r, (last, r) ∈ log := by
    have hprogress := hW.progress last.id
    rcases hW.known last .options (Writers.mem_of_lastWriter hlast) with ⟨next, hknown⟩ | hknown
    · exact absurd hknown (hdone _ _ _)
    · rwa [hknown] at hprogress
  rw [← Writers.whole_iff hlast hW.nodup hall]
  constructor
  · rintro ⟨call, hcall⟩
    exact ⟨call, fun r => (hcall r).1⟩
  · rintro ⟨call, hcall⟩
    exact ⟨call, fun r => ⟨hcall r, hW.holds r call (hcall r)⟩⟩

section Sample

def sampleSnapshot (headers : StringMap) (maxQueueSize : ℚ) : SyncOptionsSnapshot where
  strategy := "hybrid"
  retryPolicy := ⟨5, .exponential, 1000, 60000, false, [500]⟩
  batchSize := .fin 10
  requestTimeoutMs := .fin 30000
  maxQueueSize := .fin maxQueueSize
  persistQueue := true
  defaultHeaders := headers

/-- A refreshed token, and a logout. -/
def refreshed : SyncOptionsSnapshot := sampleSnapshot [("Authorization", "Bearer old")] 100

def loggedOut : SyncOptionsSnapshot := sampleSnapshot [] 50

def atLaunch : Configuration where
  options := sampleSnapshot [] 1000
  source := .defaults
  credentialHoldUntil := 0
  secret := none
  record := none
  capacity := 1000
  config := ⟨⟨5, .exponential, 1000, 60000, false, [500]⟩, 30000, 10, [], .defaults, false, false⟩
  calls _ := .idle

/-- The logout has finished before the refresh starts. -/
def inTurn : List Label :=
  .configure 1 loggedOut :: List.replicate 5 (.write 1) ++
    .configure 0 refreshed :: List.replicate 5 (.write 0)

/-- The refresh has set the options when the logout overtakes it. -/
def overtaken : List Label :=
  [.configure 0 refreshed, .write 0, .configure 1 loggedOut] ++ List.replicate 5 (.write 1) ++
    List.replicate 4 (.write 0)

/-- The call a step belongs to. -/
def Label.call : Label → Nat
  | .configure t _ | .write t => t

variable {s s' : Configuration} {log log' : List (ConfigureCall × ConfigStore)} {u : Nat}

theorem step_calls {l : Label} (h : s.step l = some s') (hu : l.call ≠ u) :
    s'.calls u = s.calls u := by
  have hself (t : Nat) (s : Configuration) (call : ConfigureState) (ht : t ≠ u) :
      (s.setCall t call).calls u = s.calls u := Function.update_of_ne (Ne.symm ht) _ _
  cases l with
  | configure t snapshot =>
    simp only [step] at h
    split at h
    · cases h
      exact hself t s _ hu
    · cases h
  | write t =>
    simp only [step] at h
    split at h
    · rename_i snapshot next ht
      cases next with
      | options | secret =>
        cases h
        exact hself t _ _ hu
      | record =>
        cases h
        rw [hself t _ _ hu]
        split <;> rfl
      | capacity | dispatcher =>
        obtain ⟨_, -, rfl⟩ := Option.map_eq_some_iff.mp h
        exact hself t _ _ hu
    · cases h

/-- A call without a step stays where it was. -/
theorem exec_calls {ls : List Label} (hu : ∀ l ∈ ls, l.call ≠ u)
    (h : StepSystem.exec (StepSystem.recorded step writes) (s, log) ls = some (s', log')) :
    s'.calls u = s.calls u := by
  induction ls generalizing s log with
  | nil =>
    cases h
    rfl
  | cons l ls ih =>
    obtain ⟨⟨m, log₁⟩, hstep, hrun⟩ := StepSystem.exec_cons_eq_some.mp h
    obtain ⟨hstep, -⟩ := StepSystem.recorded_eq_some.mp hstep
    rw [ih (fun l hl => hu l (List.mem_cons_of_mem _ hl)) hrun,
      step_calls hstep (hu l List.mem_cons_self)]

/-- Both calls of a run are over. -/
theorem over_of_two {ls : List Label} (hls : ∀ l ∈ ls, l.call = 0 ∨ l.call = 1)
    (h : StepSystem.exec (StepSystem.recorded step writes) (atLaunch, []) ls = some (s, log))
    (hrefresh : s.calls 0 = .finished refreshed) (hlogout : s.calls 1 = .finished loggedOut) :
    ∀ t snapshot next, s.calls t ≠ .running snapshot next := by
  intro t snapshot next ht
  match t with
  | 0 => cases hrefresh.symm.trans ht
  | 1 => cases hlogout.symm.trans ht
  | t + 2 =>
    rw [exec_calls (fun l hl hl' => by rcases hls l hl with h0 | h1 <;> omega) h] at ht
    cases ht

end Sample

/-- With one call after the other the stores come from the second one. -/
theorem applied_as_unit_iff_inTurn : ∃ s log,
    StepSystem.exec (StepSystem.recorded step writes) (atLaunch, []) inTurn = some (s, log) ∧
      ∃ call, ∀ r, Writers.lastWriter r log = some call ∧ From call r s := by
  have hrun : (StepSystem.exec (StepSystem.recorded step writes) (atLaunch, []) inTurn).map
      (fun p => (p.2, p.1.calls 0, p.1.calls 1)) =
        some (Writers.sections [.options, .secret, .record, .capacity, .dispatcher]
          ([⟨1, loggedOut⟩] ++ [⟨0, refreshed⟩]), .finished refreshed, .finished loggedOut) := by
    decide +kernel
  obtain ⟨⟨s, log⟩, hrun, hend⟩ := Option.map_eq_some_iff.mp hrun
  simp only [Prod.mk.injEq] at hend
  obtain ⟨hlog, hrefresh, hlogout⟩ := hend
  have hlast (r : ConfigStore) : Writers.lastWriter r log = some ⟨0, refreshed⟩ := by
    rw [hlog]
    exact Writers.lastWriter_sections (by cases r <;> simp)
  have hnodup : log.Nodup := by
    rw [hlog]
    decide +kernel
  refine ⟨s, log, hrun, (applied_as_unit_iff (fun _ => rfl) hrun
    (over_of_two (by decide) hrun hrefresh hlogout) (hlast .options)).mpr ?_⟩
  exact (Writers.whole_iff (hlast .options) hnodup
    fun r => Writers.mem_of_lastWriter (hlast r)).mp ⟨_, hlast⟩

/-- The refresh has set the options when the logout overtakes it: the process is
logged out, and the token stays in the secret store for the next launch. -/
theorem logout_overtakes_refresh : ∃ s log,
    StepSystem.exec (StepSystem.recorded step writes) (atLaunch, []) overtaken = some (s, log) ∧
      (∀ t snapshot next, s.calls t ≠ .running snapshot next) ∧
      s.options = loggedOut ∧ s.secret = some [("Authorization", "Bearer old")] ∧
      ¬∃ call, ∀ r, From call r s := by
  have hrun : (StepSystem.exec (StepSystem.recorded step writes) (atLaunch, []) overtaken).map
      (fun p => (p.1.calls 0, p.1.calls 1, decide (p.1.options = loggedOut ∧
        p.1.secret = some [("Authorization", "Bearer old")]))) =
        some (.finished refreshed, .finished loggedOut, true) := by
    decide +kernel
  obtain ⟨⟨s, log⟩, hrun, hend⟩ := Option.map_eq_some_iff.mp hrun
  simp only [Prod.mk.injEq, decide_eq_true_eq] at hend
  obtain ⟨hrefresh, hlogout, hoptions, hsecret⟩ := hend
  refine ⟨s, log, hrun, over_of_two (by decide) hrun hrefresh hlogout, hoptions, hsecret, ?_⟩
  rintro ⟨call, hcall⟩
  have hself : s.options = call.snapshot ∧ s.source = .live := hcall .options
  have hother : s.secret = secretOf call.snapshot := hcall .secret
  rw [← hself.1, hoptions, hsecret] at hother
  cases hother

end Configuration

end SyncProvider.Ios
