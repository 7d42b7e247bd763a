import SyncProvider.Android.Attempts
import SyncProvider.Android.Connectivity
import SyncProvider.Lib.TaskPool

/-!
# Android: the retry timer of the runtime

`SyncProviderRuntime` over the dispatcher: the calls of the JS layer, the arms
of `RetryWake`, the timer that fires, `RecoveryWorker`, and connectivity. The
coroutines are `Task`s that interleave at their suspension points, and between a
check and what they do about it, with each other and with the flush cycles.

`RetryWake` has no order between its callers: whoever touches the timer last
decides, whenever it read the store.

Results:
1. `Engine.step_between` : what the dispatcher does between the calls.
2. `Engine.step_call` : which calls get cancelled, and which reset.
3. `advance_cases` : what a task can do.
-/

namespace SyncProvider.Android

/-! ## What a caller of the dispatcher is about to do -/

namespace Call

/-- Its cycle has not ended, the call of `onCycleFinished` included. -/
def unfinished (call : Call) : Bool :=
  match call.state with
  | .cycle c => c.phase != .finished
  | _ => false

/-- A flush that has yet to begin its cycle. -/
def underway (call : Call) : Bool :=
  match call.state with
  | .waiting .flush | .entered .flush | .unpaused | .admitted _ => true
  | _ => false

/-- A reset that has yet to happen. -/
def resetting (call : Call) : Bool :=
  match call.state with
  | .waiting .resetInFlight | .entered .resetInFlight => true
  | _ => false

end Call

/-- The caller of the dispatcher whose step this is. -/
def Label.caller? : Label → Option Nat
  | .call t _ | .cancel t | .giveUp t | .lock t | .checkPaused t | .readCredentials t | .begin t _
  | .reset t | .cycle t _ | .unlock t => some t
  | .enqueue _ | .remove _ | .configure _ _ | .setPaused _ => none

/-- The row was attempted and waits to be dispatched again. -/
def SyncItemEntity.AwaitsRetry (r : SyncItemEntity) : Prop :=
  r.status = .PENDING ∧ 0 < r.nextRetryAt

/-! ## Tasks -/

/-- Who calls `RetryWake`. -/
inductive WakeCaller where
  /-- `onCycleFinished`, in the cycle of caller `t`. -/
  | cycle (t : Nat) (notBefore : Option Int)
  | configure
  /-- `RecoveryWorker`. -/
  | recovery
  /-- `resume`, which calls `armForResume`. -/
  | resume
  deriving DecidableEq

namespace WakeCaller

/-- The deadline that is read. -/
def deadline (caller : WakeCaller) (t : SyncItems) : Option Int :=
  match caller with
  | .resume => SyncItemDao.nextPendingDeadline t
  | _ => SyncItemDao.nextRetryDeadline t

/-- The instant to wake at. -/
def wakeAt (caller : WakeCaller) (deadline : Int) : Int :=
  match caller with
  | .cycle _ notBefore => max deadline (notBefore.getD 0)
  | .configure | .recovery => max deadline 0
  | .resume => deadline

/-- The caller of `flush` that holds the mutex meanwhile. -/
def holder? : WakeCaller → Option Nat
  | .cycle t _ => some t
  | _ => none

end WakeCaller

/-- Where a coroutine stands, with its locals. -/
inductive Task where
  /-- `RetryWake` was called, `isHalted` is next. -/
  | wake (caller : WakeCaller)
  /-- It was halted, `timer.cancel` is next. -/
  | halted (caller : WakeCaller)
  /-- The read of the deadline is awaited. -/
  | reading (caller : WakeCaller)
  /-- The timer is next. -/
  | decided (caller : WakeCaller) (deadline : Option Int)
  /-- `RecoveryWorker` is scheduled. -/
  | recovery
  /-- `RecoveryWorker` awaits its call `t` of `resetInFlight`. -/
  | recovering (t : Nat)
  /-- `pause` set the flag, `retryTimer.cancel` is next. -/
  | pausing
  /-- The timer fired, `isOffline` is next. -/
  | fired
  /-- It was offline, `wakeOwed.set(true)` is next. -/
  | firedOffline
  /-- The wake is owed, `isOffline` is asked again. -/
  | recheck
  /-- `onNetworkAvailable` was called. -/
  | networkAvailable
  /-- `dispatch` launched a flush. -/
  | dispatched
  | done
  deriving DecidableEq

namespace Task

def caller? : Task → Option WakeCaller
  | .wake caller | .halted caller | .reading caller | .decided caller _ => some caller
  | _ => none

def isRecovery (k : Task) : Bool :=
  match k with
  | .recovery | .recovering _ => true
  | k => k.caller? == some .recovery

/-- The steps of `RetryTimer` itself. -/
def isTimerStep : Task → Bool
  | .fired | .firedOffline | .recheck | .networkAvailable => true
  | _ => false

end Task

inductive TaskEvent where
  | go
  /-- The deadline read throws. -/
  | readFails
  /-- The dispatcher is called, as caller `t`. -/
  | call (t : Nat)
  deriving DecidableEq

/-! ## The runtime -/

structure RetryTimer where
  /-- When the waiting timer is due, if there is one. -/
  waiting : Option Int
  wakeOwed : Bool
  deriving DecidableEq

namespace RetryTimer

def arm (now delayMs : Int) : RetryTimer where
  waiting := some (now + delayMs)
  wakeOwed := false

def cancel : RetryTimer where
  waiting := none
  wakeOwed := false

end RetryTimer

/-- The fields of `SyncProviderRuntime` that the retry timer depends on. -/
structure Runtime where
  /-- The store, the dispatcher, the options and the pause flag. -/
  engine : Engine
  attachedEngines : Nat
  /-- The callers of the dispatcher that nobody cancels: the flushes of the
  timer, and the reset of `RecoveryWorker`. -/
  internal : Nat → Bool
  retryTimer : RetryTimer
  cm : ConnectivityManager
  monitor : ConnectivityMonitor
  connectivityWatch : Option ConnectivityWatch
  now : Int
  tasks : List Task

namespace Runtime

inductive Label where
  /-- A step of the dispatcher or its storage, or a call of them. -/
  | engine (l : Android.Label)
  /-- A cycle ends: `onCycleFinished` is called. -/
  | finish (t : Nat)
  | attachEngine
  | detachEngine
  | pause
  | resume
  | configure (options : SyncOptions) (credentials : CredentialPolicy)
  /-- The default headers can be read back after all. -/
  | recoverSecret (options : SyncOptions) (credentials : CredentialPolicy)
  | advance (u : Nat) (ev : TaskEvent)
  | tick (ms : Nat)
  | fire
  /-- A network comes up, changes its capabilities, or goes down. -/
  | network (network : Nat) (caps : Option NetworkCapabilities)
  | activate (network : Option Nat)
  /-- The next call of the network callback runs. -/
  | callback
  /-- The collector reads the flow. -/
  | collect
  | deliver
  deriving DecidableEq

def isHalted (s : Runtime) : Bool :=
  s.engine.paused || s.engine.options.strategy == .manual || s.engine.credentials == .UNAVAILABLE

def delayUntil (s : Runtime) (deadline : Int) : Int := max (deadline - s.now) 0

def setPaused (s : Runtime) (paused : Bool) : Runtime :=
  { s with engine := { s.engine with paused := paused } }

def spawn (s : Runtime) (k : Task) : Runtime := { s with tasks := s.tasks ++ [k] }

/-- `ExistingWorkPolicy.KEEP`: a recovery that has not finished stays the only one. -/
def scheduleRecovery (s : Runtime) : Runtime :=
  if s.tasks.any Task.isRecovery then s else s.spawn .recovery

/-- The steps of the dispatcher that can happen by themselves. `SyncWorker`
resets only with no engine attached, and a cycle keeps the mutex until its
`onCycleFinished` has returned. -/
def allows (s : Runtime) : Android.Label → Bool
  | .configure _ _ | .setPaused _ => false
  | .call _ op => op = .flush || s.attachedEngines = 0
  | .cancel t => !s.internal t
  | .cycle _ ev => ev != .finish
  | .unlock t => s.tasks.all fun k => k.caller?.bind WakeCaller.holder? != some t
  | _ => true

/-- The caller `t` is a new one. -/
def internalAfter (s : Runtime) : Android.Label → Nat → Bool
  | .call t _ => Function.update s.internal t false
  | _ => s.internal

/-- A call that nobody cancels. -/
def callInternally (accepts : HttpRequest → Bool) (s : Runtime) (t : Nat) (op : Operation) :
    Option Runtime :=
  (s.engine.step accepts (.call t op)).map fun e =>
    { s with engine := e, internal := Function.update s.internal t true }

/-- One step of a task: what it does to the runtime, and where it stands then. -/
def advance (accepts : HttpRequest → Bool) (s : Runtime) :
    Task → TaskEvent → Option (Runtime × Task)
  | .wake caller, .go => some (s, if s.isHalted then .halted caller else .reading caller)
  | .halted _, .go => some ({ s with retryTimer := .cancel }, .done)
  | .reading caller, .go => some (s, .decided caller (caller.deadline s.engine.world.table))
  | .reading caller, .readFails =>
    -- `RecoveryWorker` runs again, the others give up
    some (s, if caller = .recovery then .recovery else .done)
  | .decided _ none, .go => some ({ s with retryTimer := .cancel }, .done)
  | .decided caller (some deadline), .go =>
    let delayMs := s.delayUntil (caller.wakeAt deadline)
    -- `armForResume` does not ask whether an engine is attached
    if caller = .resume ∨ 0 < s.attachedEngines then
      some ({ s with retryTimer := .arm s.now delayMs }, .done)
    else some (s, .done)
  | .recovery, .call t =>
    (s.callInternally accepts t .resetInFlight).map fun s' => (s', .recovering t)
  | .recovering t, .go =>
    if (s.engine.calls t).state = .idle then some (s, .wake .recovery) else none
  | .pausing, .go => some ({ s with retryTimer := .cancel }, .done)
  | .fired, .go => some (s, if s.cm.isOffline then .firedOffline else .dispatched)
  | .firedOffline, .go =>
    some ({ s with retryTimer := { s.retryTimer with wakeOwed := true } }, .recheck)
  | .recheck, .go => some (s, if s.cm.isOffline then .done else .networkAvailable)
  | .networkAvailable, .go =>
    if s.retryTimer.wakeOwed then
      some ({ s with retryTimer := { s.retryTimer with wakeOwed := false } }, .dispatched)
    else some (s, .done)
  | .dispatched, .call t => (s.callInternally accepts t .flush).map fun s' => (s', .done)
  | _, _ => none

/-- One step of the runtime. -/
def step (accepts : HttpRequest → Bool) (s : Runtime) : Label → Option Runtime
  | .engine l =>
    if s.allows l then
      (s.engine.step accepts l).map fun e => { s with engine := e, internal := s.internalAfter l }
    else none
  | .finish t =>
    match (s.engine.calls t).state with
    | .cycle { phase := .finishing notBefore, .. } =>
      (s.engine.step accepts (.cycle t .finish)).map fun e =>
        { s with engine := e }.spawn (.wake (.cycle t notBefore))
    | _ => none
  | .attachEngine =>
    let s := s.setPaused false
    let s := if s.attachedEngines = 0 then
        { s with monitor := s.monitor.start s.cm, connectivityWatch := some (.waiting none) }
      else s
    some { s with attachedEngines := s.attachedEngines + 1 }.scheduleRecovery
  | .detachEngine =>
    if s.attachedEngines = 0 then none
    else if s.attachedEngines = 1 then
      let s' := { s with
        attachedEngines := 0
        connectivityWatch := none
        retryTimer := .cancel }
      match s.connectivityWatch with
      -- a cancelled collector still makes the call it is about to make
      | some (.delivering _) => some (s'.spawn .networkAvailable)
      | _ => some s'
    else some { s with attachedEngines := s.attachedEngines - 1 }
  | .pause => some ((s.setPaused true).spawn .pausing)
  | .resume => some ((s.setPaused false).spawn (.wake .resume))
  | .configure options credentials =>
    some ({ s with engine := { s.engine with
      options := options
      credentials := credentials } }.spawn (.wake .configure))
  | .recoverSecret options credentials =>
    if s.engine.credentials = .UNAVAILABLE then
      some { s with engine := { s.engine with options := options, credentials := credentials } }
    else none
  | .advance u ev =>
    s.tasks[u]?.bind fun k => (s.advance accepts k ev).map fun (s', k') =>
      { s' with tasks := s.tasks.set u k' }
  | .tick ms => some { s with now := s.now + ms }
  | .fire => s.retryTimer.waiting.map fun _ =>
      { s with retryTimer := { s.retryTimer with waiting := none } }.spawn .fired
  | .network network caps =>
    some { s with
      cm := s.cm.change network caps
      monitor := s.monitor.announce (s.cm.callbacks network caps) }
  | .activate network => some { s with cm := { s.cm with activeNetwork := network } }
  | .callback =>
    match s.monitor.callbacks with
    | [] => none
    | call :: calls =>
      some { s with monitor := { s.monitor with callbacks := calls }.handle s.cm call }
  | .collect =>
    match s.connectivityWatch with
    | some (.waiting last) =>
      let next := s.monitor.state
      if last = some next then none
      else
        some { s with
          connectivityWatch := some (if next.isOnline then .delivering next
            else .waiting (some next)) }
    | _ => none
  | .deliver =>
    match s.connectivityWatch with
    | some (.delivering next) =>
      let s := { s with connectivityWatch := some (.waiting (some next)) }
      if s.retryTimer.wakeOwed then
        some ({ s with retryTimer := { s.retryTimer with wakeOwed := false } }.spawn .dispatched)
      else some s
    | _ => none

/-- A process no engine has been attached to, whatever its workers flush. -/
structure Launch (s : Runtime) : Prop where
  resetting : ∀ t, (s.engine.calls t).resetting = false
  attachedEngines : s.attachedEngines = 0
  internal : ∀ t, s.internal t = false
  retryTimer : s.retryTimer = .cancel
  connectivityWatch : s.connectivityWatch = none
  tasks : s.tasks = []

end Runtime

/-! ## What the dispatcher does between the calls -/

theorem Cycle.thrown_ne_finished {cause : AbortCause} {phase phase' : CyclePhase}
    (h : Cycle.thrown cause phase = some phase') : phase' ≠ .finished := by
  cases Cycle.thrown_spec h <;> rintro ⟨⟩

/-- Only `finish` ends a cycle. -/
theorem Cycle.phase_ne_finished {accepts : HttpRequest → Bool} {live : SyncOptions}
    {cancelled : Bool} {w w' : World} {c c' : Cycle} {ev : CycleEvent}
    (h : c.step accepts live cancelled w ev = some (w', c')) (hev : ev ≠ .finish) :
    c'.phase ≠ .finished := by
  obtain ⟨options, credentials, startedAt, phase⟩ := c
  cases ev with
  | finish => exact absurd rfl hev
  | emitStarted | claim | release | record now | emitTerminal | emitFailed =>
    cases phase <;> cases h
    rintro ⟨⟩
  | resume =>
    cases phase with
    | claimed rows =>
      simp only [step, Option.ite_none_left_eq_some] at h
      obtain ⟨-, h⟩ := h
      split at h <;> cases h <;> rintro ⟨⟩
    | recorded result notBefore | reported notBefore =>
      simp only [step, Option.ite_none_left_eq_some] at h
      obtain ⟨-, h⟩ := h
      cases h
      rintro ⟨⟩
    | _ => cases h
  | dispatch i ev =>
    cases phase with
    | dispatching probing dispatches =>
      simp only [step, Option.ite_none_left_eq_some, Option.bind_eq_some_iff,
        Option.map_eq_some_iff] at h
      obtain ⟨-, d, -, ⟨w₁, d'⟩, -, heq⟩ := h
      cases heq
      rintro ⟨⟩
    | _ => cases h
  | probed =>
    cases phase with
    | dispatching probing dispatches =>
      cases probing with
      | false => cases h
      | true =>
        simp only [step] at h
        split at h <;> cases h <;> rintro ⟨⟩
    | _ => cases h
  | join =>
    cases phase with
    | dispatching probing dispatches =>
      cases probing with
      | true => cases h
      | false =>
        simp only [step, Option.ite_none_left_eq_some, Option.map_eq_some_iff] at h
        obtain ⟨-, outcomes, -, heq⟩ := h
        cases heq
        rintro ⟨⟩
    | _ => cases h
  | throw | raise code =>
    simp only [step, Option.ite_none_right_eq_some, Option.map_eq_some_iff] at h
    obtain ⟨-, phase', ht, heq⟩ := h
    cases heq
    exact thrown_ne_finished ht
  | abort =>
    cases phase with
    | aborting cause terminalEventSent notBefore =>
      simp only [step] at h
      split at h <;> cases h <;> rintro ⟨⟩
    | _ => cases h

namespace Engine

def Unfinished (e : Engine) : Prop := ∃ t, (e.calls t).unfinished = true

/-- What a step between the calls keeps: the options, the pause, the cycles that
have not ended, the flushes that have yet to begin one, and the rows that await a
retry, up to those a cycle or a reset puts back. -/
structure Between (e e' : Engine) : Prop where
  paused : e'.paused = e.paused
  unfinished : e.Unfinished → e'.Unfinished
  underway : ∀ t, (e.calls t).underway = true → (e'.calls t).underway = true ∨ e'.Unfinished ∨
    (e.calls t).cancelled = true ∨ e.paused = true ∨ e.credentials = .UNAVAILABLE
  rows : ∀ r ∈ e'.world.table.rows, r.AwaitsRetry →
    r ∈ e.world.table.rows ∨ e'.Unfinished ∨ ∃ t, (e.calls t).resetting = true
  wakes : e'.world.wakes = e.world.wakes ∨ e'.Unfinished

/-- A step in which one caller moves, outside its cycle. -/
theorem Between.of_call {e e' : Engine} {t : Nat} {call : Call} (hpaused : e'.paused = e.paused)
    (hwakes : e'.world.wakes = e.world.wakes) (hcalls : e'.calls = Function.update e.calls t call)
    (hunfinished : (e.calls t).unfinished = true → call.unfinished = true)
    (hunderway : (e.calls t).underway = true → call.underway = true ∨ call.unfinished = true ∨
      (e.calls t).cancelled = true ∨ e.paused = true ∨ e.credentials = .UNAVAILABLE)
    (hrows : ∀ r ∈ e'.world.table.rows, r.AwaitsRetry →
      r ∈ e.world.table.rows ∨ (e.calls t).resetting = true) : Between e e' where
  paused := hpaused
  unfinished := by
    rintro ⟨u, hu⟩
    by_cases hut : u = t
    · subst hut
      exact ⟨u, by rw [hcalls, Function.update_self]; exact hunfinished hu⟩
    · exact ⟨u, by rwa [hcalls, Function.update_of_ne hut]⟩
  underway u hu := by
    by_cases hut : u = t
    · subst hut
      rcases hunderway hu with h | h | h
      · exact .inl (by rwa [hcalls, Function.update_self])
      · exact .inr (.inl ⟨u, by rwa [hcalls, Function.update_self]⟩)
      · exact .inr (.inr h)
    · exact .inl (by rwa [hcalls, Function.update_of_ne hut])
  rows r hr hwaits := by
    rcases hrows r hr hwaits with h | h
    · exact .inl h
    · exact .inr (.inr ⟨t, h⟩)
  wakes := .inl hwakes

/-- A step that moves no caller. -/
theorem Between.of_calls {e e' : Engine} (hpaused : e'.paused = e.paused)
    (hwakes : e'.world.wakes = e.world.wakes) (hcalls : e'.calls = e.calls)
    (hrows : ∀ r ∈ e'.world.table.rows, r.AwaitsRetry → r ∈ e.world.table.rows) : Between e e' :=
  have hcall : e'.calls = Function.update e.calls 0 (e.calls 0) := by
    rw [hcalls, Function.update_eq_self]
  .of_call hpaused hwakes hcall id .inl fun r hr hwaits => .inl (hrows r hr hwaits)

theorem step_between {accepts : HttpRequest → Bool} {e e' : Engine} {l : Label}
    (hconfigure : ∀ options credentials, l ≠ .configure options credentials)
    (hpause : ∀ paused, l ≠ .setPaused paused) (hfinish : ∀ t, l ≠ .cycle t .finish)
    (h : e.step accepts l = some e') : Between e e' := by
  cases l with
  | enqueue items =>
    obtain ⟨table, -, hrows, rfl⟩ := Engine.step_enqueue h
    refine .of_calls rfl rfl rfl fun r hr hwaits => ?_
    -- a new row has no deadline
    change r ∈ table.rows at hr
    rw [hrows, List.mem_append] at hr
    rcases hr with hr | hr
    · exact hr
    · obtain ⟨item, -, rfl⟩ := List.mem_map.mp hr
      exact absurd hwaits.2 (lt_irrefl 0)
  | remove call =>
    cases h
    refine .of_calls rfl rfl rfl fun r hr _ => ?_
    cases call with
    | removeItem id => exact (KeyedTable.mem_deleteWhere.mp hr).1
    | clear => cases hr
  | configure options credentials => exact absurd rfl (hconfigure options credentials)
  | setPaused paused => exact absurd rfl (hpause paused)
  | call t op =>
    simp only [step] at h
    split at h <;> cases h
    rename_i hstate
    refine .of_call rfl rfl rfl ?_ ?_ fun r hr _ => .inl hr
    · simp [Call.unfinished, hstate]
    · simp [Call.underway, hstate]
  | cancel t =>
    cases h
    exact .of_call rfl rfl rfl id .inl fun r hr _ => .inl hr
  | giveUp t =>
    simp only [step, Option.ite_none_right_eq_some] at h
    obtain ⟨hcancelled, h⟩ := h
    split at h <;> cases h
    all_goals
      rename_i hstate
      refine .of_call rfl rfl rfl ?_ (fun _ => .inr (.inr (.inl hcancelled)))
        fun r hr _ => .inl hr
      simp [Call.unfinished, hstate]
  | lock t =>
    simp only [step] at h
    split at h <;> cases h
    rename_i op hstate hfree
    refine .of_call rfl rfl rfl ?_ (fun hu => .inl ?_) fun r hr _ => .inl hr
    · simp [Call.unfinished, hstate]
    · cases op with
      | flush => rfl
      | resetInFlight => simp [Call.underway, hstate] at hu
  | checkPaused t =>
    simp only [step] at h
    split at h <;> cases h
    rename_i hstate
    refine .of_call rfl rfl rfl ?_ (fun _ => ?_) fun r hr _ => .inl hr
    · simp [Call.unfinished, hstate]
    · cases hp : e.paused with
      | true => exact .inr (.inr (.inr (.inl rfl)))
      | false => exact .inl rfl
  | readCredentials t =>
    simp only [step] at h
    split at h <;> cases h
    rename_i hstate
    refine .of_call rfl rfl rfl ?_ (fun _ => ?_) fun r hr _ => .inl hr
    · simp [Call.unfinished, hstate]
    · by_cases hcredentials : e.credentials = .UNAVAILABLE
      · exact .inr (.inr (.inr (.inr hcredentials)))
      · rw [if_neg hcredentials]
        exact .inl rfl
  | begin t now =>
    simp only [step] at h
    split at h <;> cases h
    rename_i hstate
    refine .of_call rfl rfl rfl ?_ (fun _ => .inr (.inl rfl)) fun r hr _ => .inl hr
    simp [Call.unfinished, hstate]
  | reset t =>
    simp only [step] at h
    split at h <;> cases h
    rename_i hstate
    refine .of_call rfl rfl rfl ?_ ?_ fun r hr _ => .inr ?_
    · simp [Call.unfinished, hstate]
    · simp [Call.underway, hstate]
    · simp [Call.resetting, hstate]
  | cycle t ev =>
    obtain ⟨c, w, c', hc, hstep, rfl⟩ := step_cycle h
    have hphase : c'.phase ≠ .finished :=
      Cycle.phase_ne_finished hstep fun hev => hfinish t (hev ▸ rfl)
    have hself : Unfinished { e.setState t (.cycle c') with world := w } :=
      ⟨t, by simpa [setState, setCall, Call.unfinished] using hphase⟩
    exact ⟨rfl, fun _ => hself, fun _ _ => .inr (.inl hself), fun _ _ _ => .inr (.inl hself),
      .inr hself⟩
  | unlock t =>
    simp only [step] at h
    split at h
    · rename_i hstate
      cases h
      refine .of_call rfl rfl rfl ?_ ?_ fun r hr _ => .inl hr
      · simp [Call.unfinished, hstate]
      · simp [Call.underway, hstate]
    · rename_i c hstate
      simp only [Option.ite_none_right_eq_some] at h
      obtain ⟨hphase, h⟩ := h
      cases h
      refine .of_call rfl rfl rfl ?_ ?_ fun r hr _ => .inl hr
      · simp [Call.unfinished, hstate, hphase]
      · simp [Call.underway, hstate]
    · cases h

theorem step_call_eq {accepts : HttpRequest → Bool} {e e' : Engine} {t : Nat} {op : Operation}
    (h : e.step accepts (.call t op) = some e') :
    (e.calls t).state = .idle ∧ e' = e.setCall t ⟨.waiting op, false⟩ := by
  simp only [step] at h
  split at h <;> cases h
  exact ⟨‹_›, rfl⟩

/-- A call is cancelled only by `cancel`, and resets only when it was made to. -/
theorem step_call {accepts : HttpRequest → Bool} {e e' : Engine} {l : Label}
    (h : e.step accepts l = some e') (t : Nat) :
    ((e'.calls t).cancelled = true → (e.calls t).cancelled = true ∨ l = .cancel t) ∧
    ((e'.calls t).resetting = true →
      (e.calls t).resetting = true ∨ l = .call t .resetInFlight) := by
  have same (hcalls : e'.calls = e.calls) :
      ((e'.calls t).cancelled = true → (e.calls t).cancelled = true ∨ l = .cancel t) ∧
      ((e'.calls t).resetting = true →
        (e.calls t).resetting = true ∨ l = .call t .resetInFlight) := by
    rw [hcalls]
    exact ⟨.inl, .inl⟩
  have moved {u : Nat} {call : Call} (hcalls : e'.calls = Function.update e.calls u call)
      (hcancelled : call.cancelled = true → (e.calls u).cancelled = true ∨ l = .cancel u)
      (hresetting : call.resetting = true →
        (e.calls u).resetting = true ∨ l = .call u .resetInFlight) :
      ((e'.calls t).cancelled = true → (e.calls t).cancelled = true ∨ l = .cancel t) ∧
      ((e'.calls t).resetting = true →
        (e.calls t).resetting = true ∨ l = .call t .resetInFlight) := by
    by_cases hut : t = u
    · subst hut
      rw [hcalls, Function.update_self]
      exact ⟨hcancelled, hresetting⟩
    · rw [hcalls, Function.update_of_ne hut]
      exact ⟨.inl, .inl⟩
  cases l with
  | enqueue items =>
    obtain ⟨table, -, -, rfl⟩ := Engine.step_enqueue h
    exact same rfl
  | remove call | configure options credentials | setPaused paused =>
    cases h
    exact same rfl
  | call u op =>
    simp only [step] at h
    split at h <;> cases h
    refine moved rfl (by rintro ⟨⟩) fun hr => .inr ?_
    cases op with
    | flush => cases hr
    | resetInFlight => rfl
  | cancel u =>
    cases h
    exact moved rfl (fun _ => .inr rfl) .inl
  | giveUp u =>
    simp only [step, Option.ite_none_right_eq_some] at h
    obtain ⟨-, h⟩ := h
    split at h <;> cases h
    · exact moved rfl (by rintro ⟨⟩) (by rintro ⟨⟩)
    · exact moved rfl .inl (by rintro ⟨⟩)
  | lock u =>
    simp only [step] at h
    split at h <;> cases h
    rename_i op hstate hfree
    refine moved rfl .inl fun hr => .inl ?_
    cases op with
    | flush => cases hr
    | resetInFlight => simp [Call.resetting, hstate]
  | checkPaused u =>
    simp only [step] at h
    split at h <;> cases h
    refine moved rfl .inl fun hr => ?_
    cases hp : e.paused <;> simp [Call.resetting, hp] at hr
  | readCredentials u =>
    simp only [step] at h
    split at h <;> cases h
    refine moved rfl .inl fun hr => ?_
    by_cases hc : e.credentials = .UNAVAILABLE <;> simp [Call.resetting, hc] at hr
  | begin u now | reset u =>
    simp only [step] at h
    split at h <;> cases h
    exact moved rfl .inl (by rintro ⟨⟩)
  | cycle u ev =>
    obtain ⟨c, w, c', hc, hstep, rfl⟩ := step_cycle h
    exact moved rfl .inl (by rintro ⟨⟩)
  | unlock u =>
    simp only [step] at h
    split at h
    · cases h
      exact moved rfl (by rintro ⟨⟩) (by rintro ⟨⟩)
    · simp only [Option.ite_none_right_eq_some] at h
      obtain ⟨-, h⟩ := h
      cases h
      exact moved rfl (by rintro ⟨⟩) (by rintro ⟨⟩)
    · cases h

theorem step_calls_of_ne {accepts : HttpRequest → Bool} {e e' : Engine} {l : Label} {t : Nat}
    (h : e.step accepts l = some e') (hl : l.caller? ≠ some t) : e'.calls t = e.calls t := by
  have moved (u : Nat) (call : Call) (hu : (some u : Option Nat) ≠ some t) :
      Function.update e.calls u call t = e.calls t :=
    Function.update_of_ne (fun heq => hu (congrArg some heq.symm)) _ _
  cases l with
  | enqueue items =>
    obtain ⟨table, -, -, rfl⟩ := Engine.step_enqueue h
    rfl
  | remove call | configure options credentials | setPaused paused =>
    cases h
    rfl
  | cancel u =>
    cases h
    exact moved u _ hl
  | giveUp u =>
    simp only [step, Option.ite_none_right_eq_some] at h
    obtain ⟨-, h⟩ := h
    split at h <;> cases h
    all_goals exact moved u _ hl
  | call u op | lock u | checkPaused u | readCredentials u | begin u now | reset u =>
    simp only [step] at h
    split at h <;> cases h
    exact moved u _ hl
  | cycle u ev =>
    obtain ⟨c, w, c', hc, hstep, rfl⟩ := step_cycle h
    exact moved u _ hl
  | unlock u =>
    simp only [step] at h
    split at h
    · cases h
      exact moved u _ hl
    · simp only [Option.ite_none_right_eq_some] at h
      obtain ⟨-, h⟩ := h
      cases h
      exact moved u _ hl
    · cases h

/-- What `onCycleFinished` was called with is not forgotten. -/
theorem step_wakes {accepts : HttpRequest → Bool} {e e' : Engine} {l : Label}
    (h : e.step accepts l = some e') : e.world.wakes ⊆ e'.world.wakes := by
  cases l with
  | enqueue items =>
    obtain ⟨table, -, -, rfl⟩ := Engine.step_enqueue h
    exact List.Subset.refl _
  | remove call | configure options credentials | setPaused paused | cancel u =>
    cases h
    exact List.Subset.refl _
  | giveUp u =>
    simp only [step, Option.ite_none_right_eq_some] at h
    obtain ⟨-, h⟩ := h
    split at h <;> cases h
    all_goals exact List.Subset.refl _
  | call u op | lock u | checkPaused u | readCredentials u | begin u now | reset u =>
    simp only [step] at h
    split at h <;> cases h
    exact List.Subset.refl _
  | cycle u ev =>
    obtain ⟨c, w, c', -, hstep, rfl⟩ := step_cycle h
    exact Cycle.wakes_subset hstep
  | unlock u =>
    simp only [step] at h
    split at h
    · cases h
      exact List.Subset.refl _
    · simp only [Option.ite_none_right_eq_some] at h
      obtain ⟨-, h⟩ := h
      cases h
      exact List.Subset.refl _
    · cases h

end Engine

/-! ## What a task can do -/

namespace Runtime

/-- What one step of a task does. -/
inductive Advances (accepts : HttpRequest → Bool) (s : Runtime) :
    Task → TaskEvent → Runtime → Task → Prop where
  | halt (caller : WakeCaller) (hhalted : s.isHalted = true) :
    Advances accepts s (.wake caller) .go s (.halted caller)
  | ask (caller : WakeCaller) (hhalted : s.isHalted = false) :
    Advances accepts s (.wake caller) .go s (.reading caller)
  | cancelHalted (caller : WakeCaller) :
    Advances accepts s (.halted caller) .go { s with retryTimer := .cancel } .done
  | read (caller : WakeCaller) :
    Advances accepts s (.reading caller) .go s
      (.decided caller (caller.deadline s.engine.world.table))
  | readFails (caller : WakeCaller) :
    Advances accepts s (.reading caller) .readFails s
      (if caller = .recovery then .recovery else .done)
  | cancelEmpty (caller : WakeCaller) :
    Advances accepts s (.decided caller none) .go { s with retryTimer := .cancel } .done
  | arm (caller : WakeCaller) (deadline : Int) :
    Advances accepts s (.decided caller (some deadline)) .go
      { s with retryTimer := .arm s.now (s.delayUntil (caller.wakeAt deadline)) } .done
  | unattended (caller : WakeCaller) (deadline : Int) (hattached : s.attachedEngines = 0) :
    Advances accepts s (.decided caller (some deadline)) .go s .done
  | recover {t : Nat} {e : Engine}
    (he : s.engine.step accepts (.call t .resetInFlight) = some e) :
    Advances accepts s .recovery (.call t)
      { s with engine := e, internal := Function.update s.internal t true } (.recovering t)
  | recovered {t : Nat} (hidle : (s.engine.calls t).state = .idle) :
    Advances accepts s (.recovering t) .go s (.wake .recovery)
  | cancelPaused : Advances accepts s .pausing .go { s with retryTimer := .cancel } .done
  | online (honline : s.cm.isOffline = false) : Advances accepts s .fired .go s .dispatched
  | offline (hoffline : s.cm.isOffline = true) : Advances accepts s .fired .go s .firedOffline
  | owe :
    Advances accepts s .firedOffline .go
      { s with retryTimer := { s.retryTimer with wakeOwed := true } } .recheck
  | stillOffline (hoffline : s.cm.isOffline = true) : Advances accepts s .recheck .go s .done
  | returned (honline : s.cm.isOffline = false) :
    Advances accepts s .recheck .go s .networkAvailable
  | deliver (howed : s.retryTimer.wakeOwed = true) :
    Advances accepts s .networkAvailable .go
      { s with retryTimer := { s.retryTimer with wakeOwed := false } } .dispatched
  | delivered (howed : s.retryTimer.wakeOwed = false) :
    Advances accepts s .networkAvailable .go s .done
  | dispatch {t : Nat} {e : Engine} (he : s.engine.step accepts (.call t .flush) = some e) :
    Advances accepts s .dispatched (.call t)
      { s with engine := e, internal := Function.update s.internal t true } .done

theorem advance_cases {accepts : HttpRequest → Bool} {s s' : Runtime} {k k' : Task}
    {ev : TaskEvent} (h : s.advance accepts k ev = some (s', k')) :
    Advances accepts s k ev s' k' := by
  unfold advance at h
  split at h
  · cases h
    cases hhalted : s.isHalted with
    | true => exact .halt _ hhalted
    | false => exact .ask _ hhalted
  · cases h
    exact .cancelHalted _
  · cases h
    exact .read _
  · cases h
    exact .readFails _
  · cases h
    exact .cancelEmpty _
  · dsimp only at h
    split at h <;> cases h
    · exact .arm _ _
    · exact .unattended _ _ (by omega)
  · obtain ⟨s₁, hcall, h⟩ := Option.map_eq_some_iff.mp h
    obtain ⟨e, he, rfl⟩ := Option.map_eq_some_iff.mp hcall
    cases h
    exact .recover he
  · split at h <;> cases h
    exact .recovered ‹_›
  · cases h
    exact .cancelPaused
  · cases h
    cases hoffline : s.cm.isOffline with
    | true => exact .offline hoffline
    | false => exact .online hoffline
  · cases h
    exact .owe
  · cases h
    cases hoffline : s.cm.isOffline with
    | true => exact .stillOffline hoffline
    | false => exact .returned hoffline
  · split at h <;> cases h
    · exact .deliver ‹_›
    · exact .delivered (by simp_all)
  · obtain ⟨s₁, hcall, h⟩ := Option.map_eq_some_iff.mp h
    obtain ⟨e, he, rfl⟩ := Option.map_eq_some_iff.mp hcall
    cases h
    exact .dispatch he
  · cases h

theorem step_advance {accepts : HttpRequest → Bool} {s s' : Runtime} {u : Nat} {ev : TaskEvent}
    (h : s.step accepts (.advance u ev) = some s') :
    ∃ k s₁ k', s.tasks[u]? = some k ∧ Advances accepts s k ev s₁ k' ∧
      s' = { s₁ with tasks := s.tasks.set u k' } := by
  obtain ⟨k, hk, h⟩ := Option.bind_eq_some_iff.mp h
  obtain ⟨⟨s₁, k'⟩, hadvance, rfl⟩ := Option.map_eq_some_iff.mp h
  exact ⟨k, s₁, k', hk, advance_cases hadvance, rfl⟩

theorem step_engine {accepts : HttpRequest → Bool} {s s' : Runtime} {l : Android.Label}
    (h : s.step accepts (.engine l) = some s') :
    s.allows l = true ∧ ∃ e, s.engine.step accepts l = some e ∧
      s' = { s with engine := e, internal := s.internalAfter l } := by
  simp only [step, Option.ite_none_right_eq_some, Option.map_eq_some_iff] at h
  obtain ⟨hl, e, he, rfl⟩ := h
  exact ⟨hl, e, he, rfl⟩

theorem step_finish {accepts : HttpRequest → Bool} {s s' : Runtime} {t : Nat}
    (h : s.step accepts (.finish t) = some s') :
    ∃ e notBefore, s.engine.step accepts (.cycle t .finish) = some e ∧
      notBefore ∈ e.world.wakes ∧
      s' = { s with engine := e }.spawn (.wake (.cycle t notBefore)) := by
  simp only [step] at h
  split at h
  · rename_i hstate
    obtain ⟨e, he, rfl⟩ := Option.map_eq_some_iff.mp h
    refine ⟨e, _, he, ?_, rfl⟩
    obtain ⟨c, w, c', hc, hstep, rfl⟩ := Engine.step_cycle he
    rw [hstate] at hc
    cases hc
    cases hstep
    exact List.mem_append_right _ List.mem_cons_self
  · cases h

/-- What an attach does: the engine starts unpaused, and a recovery is under way
in the end. -/
structure Attaches (s s' : Runtime) : Prop where
  engine : s'.engine = { s.engine with paused := false }
  attachedEngines : s'.attachedEngines = s.attachedEngines + 1
  internal : s'.internal = s.internal
  retryTimer : s'.retryTimer = s.retryTimer
  cm : s'.cm = s.cm
  now : s'.now = s.now
  watch : s.attachedEngines = 0 ∧ s'.connectivityWatch = some (.waiting none) ∨
    0 < s.attachedEngines ∧ s'.monitor = s.monitor ∧ s'.connectivityWatch = s.connectivityWatch
  tasks : s'.tasks = s.tasks ∧ (∃ k ∈ s.tasks, k.isRecovery = true) ∨
    s'.tasks = s.tasks ++ [.recovery]

theorem step_attachEngine {accepts : HttpRequest → Bool} {s s' : Runtime}
    (h : s.step accepts .attachEngine = some s') : Attaches s s' := by
  simp only [step, Option.some.injEq] at h
  subst h
  unfold scheduleRecovery
  by_cases hattached : s.attachedEngines = 0
  · rw [if_pos (show (s.setPaused false).attachedEngines = 0 from hattached)]
    split
    · rename_i hany
      exact ⟨rfl, rfl, rfl, rfl, rfl, rfl, .inl ⟨hattached, rfl⟩,
        .inl ⟨rfl, List.any_eq_true.mp hany⟩⟩
    · exact ⟨rfl, rfl, rfl, rfl, rfl, rfl, .inl ⟨hattached, rfl⟩, .inr rfl⟩
  · rw [if_neg (show ¬ (s.setPaused false).attachedEngines = 0 from hattached)]
    have hpos : 0 < s.attachedEngines := Nat.pos_of_ne_zero hattached
    split
    · rename_i hany
      exact ⟨rfl, rfl, rfl, rfl, rfl, rfl, .inr ⟨hpos, rfl, rfl⟩,
        .inl ⟨rfl, List.any_eq_true.mp hany⟩⟩
    · exact ⟨rfl, rfl, rfl, rfl, rfl, rfl, .inr ⟨hpos, rfl, rfl⟩, .inr rfl⟩

/-- The caller of the dispatcher whose step this is. -/
def Label.caller? : Label → Option Nat
  | .engine l => l.caller?
  | .finish t | .advance _ (.call t) => some t
  | _ => none

theorem Advances.calls_of_ne {s s' : Runtime} {accepts : HttpRequest → Bool} {k k' : Task}
    {u t : Nat} {ev : TaskEvent} (h : Advances accepts s k ev s' k')
    (hl : (Label.advance u ev).caller? ≠ some t) : s'.engine.calls t = s.engine.calls t := by
  cases h with
  | recover he | dispatch he => exact Engine.step_calls_of_ne he hl
  | _ => rfl

theorem step_calls_of_ne {accepts : HttpRequest → Bool} {s s' : Runtime} {l : Label} {t : Nat}
    (h : s.step accepts l = some s') (hl : l.caller? ≠ some t) :
    s'.engine.calls t = s.engine.calls t := by
  cases l with
  | engine l =>
    obtain ⟨-, e, he, rfl⟩ := step_engine h
    exact Engine.step_calls_of_ne he hl
  | finish u =>
    obtain ⟨e, notBefore, he, -, rfl⟩ := step_finish h
    exact Engine.step_calls_of_ne he hl
  | attachEngine => rw [(step_attachEngine h).engine]
  | detachEngine =>
    simp only [step, Option.ite_none_left_eq_some] at h
    obtain ⟨-, h⟩ := h
    split at h
    · split at h <;> cases h <;> rfl
    · cases h
      rfl
  | advance u ev =>
    obtain ⟨k, s₁, k', hk, hadvance, rfl⟩ := step_advance h
    have hcalls : s₁.engine.calls t = s.engine.calls t := hadvance.calls_of_ne hl
    exact hcalls
  | fire =>
    obtain ⟨due, hdue, rfl⟩ := Option.map_eq_some_iff.mp h
    rfl
  | pause | resume | configure options credentials | tick ms | network network caps
  | activate network =>
    cases h
    rfl
  | recoverSecret options credentials =>
    simp only [step, Option.ite_none_right_eq_some] at h
    obtain ⟨-, h⟩ := h
    cases h
    rfl
  | callback =>
    simp only [step] at h
    split at h <;> cases h
    rfl
  | collect =>
    simp only [step] at h
    split at h
    · split at h <;> cases h
      rfl
    · cases h
  | deliver =>
    simp only [step] at h
    split at h
    · split at h <;> cases h <;> rfl
    · cases h

/-- A caller that a run does not name stays where it is. -/
theorem exec_calls_of_le {accepts : HttpRequest → Bool} {s s' : Runtime} {ls : List Label}
    {n t : Nat} (hls : ∀ l ∈ ls, l.caller?.all (· < n) = true) (ht : n ≤ t)
    (hrun : StepSystem.exec (step accepts) s ls = some s') :
    s'.engine.calls t = s.engine.calls t := by
  let I (s' : Runtime) : Prop := s'.engine.calls t = s.engine.calls t
  let C (_ : Runtime) (l : Label) : Prop := l.caller?.all (· < n) = true
  have hstep : ∀ {s l s'}, I s → C s l → step accepts s l = some s' → I s' := by
    intro s₁ l s₂ hI hl h
    have hne : l.caller? ≠ some t := by
      intro heq
      have hlt : t < n := by simpa [C, heq] using hl
      omega
    exact (step_calls_of_ne h hne).trans hI
  have hmeets : StepSystem.Meets (step accepts) C s ls := StepSystem.meets_of_forall hls
  exact StepSystem.exec_invariant_of_meets hstep rfl hmeets hrun

end Runtime

end SyncProvider.Android
