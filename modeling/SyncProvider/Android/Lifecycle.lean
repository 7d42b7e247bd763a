import SyncProvider.Android.BackgroundSync
import SyncProvider.Android.Wake

/-!
# Android: the calls of the runtime, access by access

`pause`, `resume`, `configure`, `attachEngine` and `detachEngine` of `SyncProviderRuntime`,
and the calls of `RetryWake`, down to each access to what they share: the flag in memory
and on disk, the count of attached engines, the connectivity watch, the retry timer, the
retry kick and the preferences. Any thread may run between two accesses.

Result:
1. `step_cases` : what a step can be.
-/

namespace SyncProvider.Android

/-! ## The model -/

/-- What the calls share. -/
structure Shared where
  pausedFlag : Bool
  /-- `configStore.isPaused()`. -/
  persistedPaused : Bool
  /-- What `currentOptions()` returns. -/
  options : SyncOptions
  /-- What `credentialPolicy()` returns. -/
  credentials : CredentialPolicy
  table : SyncItems
  attachedEngines : Int
  /-- The field `connectivityWatch`. A job is named after the call that launched it. -/
  connectivityWatch : Option Nat
  /-- The job is active. -/
  watches : Nat → Bool
  retryTimer : RetryTimer
  prefs : BackgroundPrefs
  /-- The one-time work. -/
  kick : Option WorkRequest
  now : Int

namespace Shared

/-- `isWakeHalted`, which reads one field at a time. -/
def isHalted : Reads Shared Bool := do
  if ← .read (·.pausedFlag) then return true
  if ← .read fun s => s.options.strategy == .manual then return true
  .read fun s => s.credentials == .UNAVAILABLE

def delayUntil (s : Shared) (deadline : Int) : Int := max (deadline - s.now) 0

end Shared

/-- Where a call stands: what it does next. -/
inductive CallTask where
  | pause
  | pausePersist
  | pauseTimer
  | pauseKick
  | resume
  | resumePersist
  | attach
  | attachPersist
  | attachCount
  /-- The first engine: the watch is launched. -/
  | attachLaunch
  | attachField
  | attachRecovery
  | detach
  /-- The last engine: the watch is read from its field. -/
  | detachWatch
  | detachCancel (job : Option Nat)
  | detachField
  | detachTimer
  | configure (options : SyncOptions)
  | configureKick (isManual : Bool)
  /-- `RecoveryWorker` resets the rows in flight. -/
  | recovery
  /-- `isHalted` is being evaluated. Once it is true the timer is cancelled. -/
  | halt (caller : WakeCaller) (reads : Reads Shared Bool)
  /-- The deadline is read. -/
  | read (caller : WakeCaller)
  | decided (caller : WakeCaller) (deadline : Option Int)
  /-- `arm` asks whether an engine is attached. -/
  | live (caller : WakeCaller) (delayMs : Int)
  | timer (caller : WakeCaller) (delayMs : Int)
  /-- `armForResume` reads the deadline for the kick. -/
  | readKick
  | kick (caller : WakeCaller) (delayMs : Int) (reads : Reads BackgroundPrefs (Option Constraints))
  | done

namespace CallTask

def isDone : CallTask → Bool
  | .done => true
  | _ => false

def caller? : CallTask → Option WakeCaller
  | .halt caller _ | .read caller | .decided caller _ | .live caller _ | .timer caller _
  | .kick caller _ _ => some caller
  | _ => none

/-- The work of `scheduleRecovery` has not finished. -/
def isRecovery : CallTask → Bool
  | .recovery => true
  | k => k.caller? == some .recovery

/-- A call of `RetryWake` begins. -/
def wake (caller : WakeCaller) : CallTask := .halt caller Shared.isHalted

end CallTask

/-- The calls of the runtime. -/
inductive EntryPoint where
  | pause
  | resume
  | attachEngine
  | detachEngine
  /-- A cycle has ended. -/
  | onCycleFinished (t : Nat) (notBefore : Option Int)
  | configure (options : SyncOptions)

def EntryPoint.task : EntryPoint → CallTask
  | .pause => .pause
  | .resume => .resume
  | .attachEngine => .attach
  | .detachEngine => .detach
  | .onCycleFinished t notBefore => .wake (.cycle t notBefore)
  | .configure options => .configure options

structure Lifecycle where
  shared : Shared
  tasks : List CallTask

namespace Lifecycle

inductive Label where
  | call (entry : EntryPoint)
  /-- Task `u` goes on. A read of the store or an enqueue may fail. -/
  | advance (u : Nat) (ok : Bool)
  /-- The default headers can be read back after all. -/
  | recoverSecret (options : SyncOptions) (credentials : CredentialPolicy)
  /-- The rest of the process works on. -/
  | store (table : SyncItems)
  | prefs (prefs : BackgroundPrefs)
  | tick (ms : Nat)
  | fire
  /-- WorkManager runs the one-time work. -/
  | work

/-- One step of task `u`. -/
def advance (u : Nat) (ok : Bool) (s : Shared) : CallTask → Option (Shared × CallTask)
  | .pause => some ({ s with pausedFlag := true }, .pausePersist)
  | .pausePersist => some ({ s with persistedPaused := true }, .pauseTimer)
  | .pauseTimer => some ({ s with retryTimer := .cancel }, .pauseKick)
  | .pauseKick => some ({ s with kick := none }, .done)
  | .resume => some ({ s with pausedFlag := false }, .resumePersist)
  | .resumePersist => some ({ s with persistedPaused := false }, .wake .resume)
  | .attach => some ({ s with pausedFlag := false }, .attachPersist)
  | .attachPersist => some ({ s with persistedPaused := false }, .attachCount)
  | .attachCount =>
    some ({ s with attachedEngines := s.attachedEngines + 1 },
      if s.attachedEngines = 0 then .attachLaunch else .attachRecovery)
  | .attachLaunch => some ({ s with watches := Function.update s.watches u true }, .attachField)
  | .attachField => some ({ s with connectivityWatch := some u }, .attachRecovery)
  | .attachRecovery => some (s, .done)
  | .detach =>
    some ({ s with attachedEngines := s.attachedEngines - 1 },
      if s.attachedEngines - 1 = 0 then .detachWatch else .done)
  | .detachWatch => some (s, .detachCancel s.connectivityWatch)
  | .detachCancel none => some (s, .detachField)
  | .detachCancel (some job) =>
    some ({ s with watches := Function.update s.watches job false }, .detachField)
  | .detachField => some ({ s with connectivityWatch := none }, .detachTimer)
  | .detachTimer => some ({ s with retryTimer := .cancel }, .done)
  | .configure options =>
    some ({ s with options := options, credentials := .TRUSTED },
      .configureKick (options.strategy == .manual))
  | .configureKick isManual =>
    some (if isManual then { s with kick := none } else s, .wake .configure)
  | .recovery =>
    if ok then some ({ s with table := SyncItemDao.resetInFlight s.table }, .wake .recovery)
    else some (s, .recovery)
  | .halt caller (.get next) => some (s, .halt caller (next s))
  | .halt caller (.done false) => some (s, .read caller)
  | .halt _ (.done true) => some ({ s with retryTimer := .cancel }, .done)
  | .read caller =>
    if ok then some (s, .decided caller (caller.deadline s.table))
    -- `RecoveryWorker` runs again, the others give up
    else some (s, if caller = .recovery then .recovery else .done)
  | .decided _ none => some ({ s with retryTimer := .cancel }, .done)
  | .decided caller (some deadline) =>
    let delayMs := s.delayUntil (caller.wakeAt deadline)
    -- `armForResume` does not ask whether an engine is attached
    some (s, if caller = .resume then .timer caller delayMs else .live caller delayMs)
  | .live caller delayMs =>
    some (s, if 0 < s.attachedEngines then .timer caller delayMs
      else .kick caller delayMs BackgroundPrefs.kickConstraints)
  | .timer caller delayMs =>
    some ({ s with retryTimer := .arm s.now delayMs },
      if caller = .resume then .readKick
      else .kick caller delayMs BackgroundPrefs.kickConstraints)
  | .readKick =>
    if ok then
      match SyncItemDao.nextRetryDeadline s.table with
      | none => some (s, .done)
      | some deadline =>
        some (s, .kick .resume (s.delayUntil deadline) BackgroundPrefs.kickConstraints)
    else some (s, .done)
  | .kick caller delayMs (.get next) => some (s, .kick caller delayMs (next s.prefs))
  | .kick _ _ (.done none) => some (s, .done)
  | .kick _ delayMs (.done (some constraints)) =>
    some (if ok then { s with kick := some (.oneTime (max delayMs 0) constraints) } else s, .done)
  | .done => none

/-- `ExistingWorkPolicy.KEEP`: a recovery that has not finished stays the only one. -/
def spawned (tasks : List CallTask) : CallTask → List CallTask
  | .attachRecovery => if tasks.any CallTask.isRecovery then [] else [.recovery]
  | _ => []

def step (s : Lifecycle) : Label → Option Lifecycle
  | .call entry => some { s with tasks := s.tasks ++ [entry.task] }
  | .advance u ok =>
    s.tasks[u]?.bind fun k => (advance u ok s.shared k).map fun (shared, k') =>
      { shared := shared, tasks := s.tasks.set u k' ++ spawned s.tasks k }
  | .recoverSecret options credentials =>
    if s.shared.credentials = .UNAVAILABLE then
      some { s with shared := { s.shared with options := options, credentials := credentials } }
    else none
  | .store table => some { s with shared := { s.shared with table := table } }
  | .prefs prefs => some { s with shared := { s.shared with prefs := prefs } }
  | .tick ms => some { s with shared := { s.shared with now := s.shared.now + ms } }
  | .fire => s.shared.retryTimer.waiting.map fun _ =>
    { s with shared := { s.shared with
        retryTimer := { s.shared.retryTimer with waiting := none } } }
  | .work => s.shared.kick.map fun _ => { s with shared := { s.shared with kick := none } }

/-! ## 1. What a step can be -/

/-- Something outside of the calls changes. -/
structure Outside (s s' : Lifecycle) : Prop where
  tasks : s'.tasks = s.tasks
  pausedFlag : s'.shared.pausedFlag = s.shared.pausedFlag
  persistedPaused : s'.shared.persistedPaused = s.shared.persistedPaused
  attachedEngines : s'.shared.attachedEngines = s.shared.attachedEngines
  connectivityWatch : s'.shared.connectivityWatch = s.shared.connectivityWatch
  watches : s'.shared.watches = s.shared.watches
  waiting : s'.shared.retryTimer.waiting = s.shared.retryTimer.waiting ∨
    s'.shared.retryTimer.waiting = none
  kick : s'.shared.kick = s.shared.kick ∨ s'.shared.kick = none

inductive Moves (s : Lifecycle) : Label → Lifecycle → Prop where
  | call (entry : EntryPoint) : Moves s (.call entry) { s with tasks := s.tasks ++ [entry.task] }
  | advance {u : Nat} {ok : Bool} {k k' : CallTask} {shared : Shared} (hk : s.tasks[u]? = some k)
      (hstep : Lifecycle.advance u ok s.shared k = some (shared, k')) :
      Moves s (.advance u ok) ⟨shared, s.tasks.set u k' ++ spawned s.tasks k⟩
  | outside {l : Label} {s' : Lifecycle} (hcall : ∀ entry, l ≠ .call entry)
      (hadvance : ∀ u ok, l ≠ .advance u ok) (houtside : Outside s s') : Moves s l s'

theorem step_cases {s s' : Lifecycle} {l : Label} (h : s.step l = some s') : Moves s l s' := by
  cases l with
  | call entry =>
    cases h
    exact .call entry
  | advance u ok =>
    simp only [step, Option.bind_eq_some_iff, Option.map_eq_some_iff] at h
    obtain ⟨k, hk, ⟨shared, k'⟩, hstep, rfl⟩ := h
    exact .advance hk hstep
  | recoverSecret options credentials =>
    simp only [step, Option.ite_none_right_eq_some] at h
    obtain ⟨-, h⟩ := h
    cases h
    exact .outside (by simp) (by simp) ⟨rfl, rfl, rfl, rfl, rfl, rfl, .inl rfl, .inl rfl⟩
  | store | prefs | tick =>
    cases h
    exact .outside (by simp) (by simp) ⟨rfl, rfl, rfl, rfl, rfl, rfl, .inl rfl, .inl rfl⟩
  | fire =>
    simp only [step, Option.map_eq_some_iff] at h
    obtain ⟨_, -, rfl⟩ := h
    exact .outside (by simp) (by simp) ⟨rfl, rfl, rfl, rfl, rfl, rfl, .inr rfl, .inl rfl⟩
  | work =>
    simp only [step, Option.map_eq_some_iff] at h
    obtain ⟨_, -, rfl⟩ := h
    exact .outside (by simp) (by simp) ⟨rfl, rfl, rfl, rfl, rfl, rfl, .inl rfl, .inr rfl⟩

theorem mem_spawned {tasks : List CallTask} {k x : CallTask} (hx : x ∈ spawned tasks k) :
    x = .recovery := by
  cases k with
  | attachRecovery =>
    rw [spawned] at hx
    split at hx
    · cases hx
    · exact List.mem_singleton.mp hx
  | _ => cases hx

section Sample

/-- A row that was attempted and waits for its retry. -/
def coolingRow : SyncItemEntity where
  id := "a"
  method := .POST
  url := "https://api.example.com"
  headers := none
  body := none
  contentType := none
  priority := .NORMAL
  priorityWeight := 1
  createdAt := 0
  attempts := 1
  lastAttemptAt := some 0
  lastErrorCode := none
  status := .PENDING
  metadata := none
  nextRetryAt := 1000

/-- Background sync is on, an engine is attached, and the row waits. -/
def sampleLifecycle (tasks : List CallTask) : Lifecycle where
  shared :=
    { pausedFlag := false
      persistedPaused := false
      options := Engine.sampleOptions
      credentials := .TRUSTED
      table := ⟨[coolingRow], List.nodup_singleton _⟩
      attachedEngines := 1
      connectivityWatch := none
      watches := fun _ => false
      retryTimer := .cancel
      prefs := (BackgroundSyncManager.sampleManager []).prefs
      kick := none
      now := 0 }
  tasks := tasks

/-- Call `u` makes `n` steps. -/
def steps (u n : Nat) : List Label := List.replicate n (.advance u true)

def finished (s : Lifecycle) : Bool := s.tasks.all CallTask.isDone

end Sample

end Lifecycle

end SyncProvider.Android
