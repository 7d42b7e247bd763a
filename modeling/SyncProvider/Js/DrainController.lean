import SyncProvider.Spec
import SyncProvider.Lib.Double
import SyncProvider.Lib.StepSystem

/-!
# JS: the drain loop

`runDrain` as a state machine over the turns of the JS event loop. What happens
between two `await`s is one step. The environment answers the native calls,
fires the timers, cancels and moves the clock, in any order and at any pace.

Numbers are exact. `setTimeout` fires at or after the moment it was asked for.

Results:
1. `step_cases` : what a step can do.
2. `step_resolved` : what a drain can resolve with.
-/

namespace SyncProvider.Js

/-! ## The options and the answers -/

inductive DrainStoppedReason where
  | EMPTY | MAX_ITERATIONS | TIMEOUT | CANCELLED
  deriving DecidableEq

/-- An absent option is `none`. -/
structure DrainOptions where
  maxIterations : Option Double := none
  timeoutMs : Option Double := none
  delayBetweenCyclesMs : Option Double := none

structure DrainResult where
  iterations : Nat
  itemsDispatched : Int
  queueRemaining : Int
  stoppedReason : DrainStoppedReason
  deriving DecidableEq

/-- What the loop reads of a pending item. -/
structure SyncItem where
  id : String
  nextRetryAt : ℚ
  deriving DecidableEq

inductive ConnectionStatus where
  | CONNECTED | DISCONNECTED | METERED | UNKNOWN
  deriving DecidableEq

def DRAIN_DEFAULT_MAX_ITERATIONS : ℚ := 32

def DRAIN_DEFAULT_TIMEOUT_MS : ℚ := 60000

/-- Shortest wait when nothing can happen yet. -/
def DRAIN_IDLE_WAIT_MS : ℚ := 250

/-- Longest delay `setTimeout` honors. -/
def MAX_TIMER_DELAY_MS : ℚ := 2147483647

def finiteOr (value : Option Double) (fallback : ℚ) : ℚ :=
  match value.map Double.norm with
  | some (.fin q) => q
  | _ => fallback

/-- One pass of the loop of `soonestCooldownEnd`. -/
def sooner (now : ℚ) (soonest : Option ℚ) (item : SyncItem) : Option ℚ :=
  if now < item.nextRetryAt ∧ ∀ s ∈ soonest, item.nextRetryAt < s then some item.nextRetryAt
  else soonest

/-- Soonest retry deadline still in the future, if any item is cooling down. -/
def soonestCooldownEnd (items : List SyncItem) (now : ℚ) : Option ℚ :=
  items.foldl (sooner now) none

/-! ## The state -/

/-- What the loop awaits. -/
inductive Work where
  | isSyncing
  | getQueueSize
  /-- The second read, after a size of 0. -/
  | isSyncingAgain
  | getPendingItems
  | getConnectionStatus
  | flush
  | sleep (ms : ℚ)
  deriving DecidableEq

/-- When the timer of a sleep that begins now is due. -/
def Work.sleepTimer (work : Work) (now : ℚ) : Option ℚ :=
  match work with
  | .sleep ms => some (now + min ms MAX_TIMER_DELAY_MS)
  | _ => none

/-- What an await gives. -/
inductive Value where
  | isSyncing (syncing : Bool)
  | queueSize (size : Int)
  | isSyncingAgain (syncing : Bool)
  | pendingItems (items : List SyncItem)
  | connectionStatus (status : ConnectionStatus)
  | flushed
  | slept
  deriving DecidableEq

/-- A native call can give this value. -/
def Value.answers : Value → Work → Bool
  | .isSyncing _, .isSyncing | .queueSize _, .getQueueSize
  | .isSyncingAgain _, .isSyncingAgain | .pendingItems _, .getPendingItems
  | .connectionStatus _, .getConnectionStatus | .flushed, .flush => true
  | _, _ => false

theorem Value.answers_queueSize {size : Int} {work : Work}
    (h : (Value.queueSize size).answers work = true) : work = .getQueueSize := by
  cases work <;> first | rfl | cases h

theorem Value.answers_isSyncingAgain {syncing : Bool} {work : Work}
    (h : (Value.isSyncingAgain syncing).answers work = true) : work = .isSyncingAgain := by
  cases work <;> first | rfl | cases h

/-- What a `DrainStop` was thrown for. -/
inductive StopCause where
  | cancelled
  /-- The deadline had passed when a wait was to begin. -/
  | deadline
  /-- The deadline timer of a wait that began at `since` fired. -/
  | timer (since : ℚ)
  /-- `waitAfterNoProgress` gave up on this list. -/
  | cooldown (pending : List SyncItem) (now : ℚ)
  deriving DecidableEq

def StopCause.reason : StopCause → DrainStoppedReason
  | .cancelled => .CANCELLED
  | _ => .TIMEOUT

/-- How a promise has settled. -/
inductive Settlement (α : Type) where
  | value (a : α)
  | stop (cause : StopCause)
  | error (message : String)
  deriving DecidableEq

inductive Phase where
  /-- In `raceWithStop` since then, with its deadline timer and waiter set. -/
  | awaiting (work : Work) (since : ℚ)
  /-- The race has settled, what awaits it is still to run. -/
  | settled (work : Work) (settlement : Settlement Value)
  /-- `waitAfterNoProgress` has settled. -/
  | returned (settlement : Settlement ℚ)
  /-- The drain has settled, stopped by `cause` if by anything. -/
  | resolved (result : DrainResult) (cause : Option StopCause)
  | rejected (message : String)
  deriving DecidableEq

/-- An active drain, with the clock and the module's `cancelled` flag. -/
structure Drain where
  maxIterations : ℚ
  delayBetweenCyclesMs : ℚ
  deadlineAt : ℚ
  clock : ℚ
  cancelled : Bool
  /-- When the sleep timer is due, while it is set. -/
  sleepTimer : Option ℚ
  iterations : Nat
  itemsDispatched : Int
  lastSize : Option Int
  cycleJustRan : Bool
  phase : Phase
  deriving DecidableEq

inductive Label where
  /-- The clock moves on. -/
  | tick (now : ℚ)
  /-- The native call that is awaited resolves. -/
  | answer (value : Value)
  /-- It rejects. -/
  | fail (message : String)
  | sleepTimer
  | deadlineTimer
  /-- `cancelActiveDrain`. -/
  | cancel
  /-- What waits for the settled promise runs. -/
  | run
  deriving DecidableEq

namespace Drain

/-! ## The steps -/

def idleWaitMs (d : Drain) : ℚ := max d.delayBetweenCyclesMs DRAIN_IDLE_WAIT_MS

/-- `raceWithStop`, with the sleep timer that `sleepWithStop` sets inside it. -/
def raceWithStop (d : Drain) (work : Work) : Drain :=
  if d.cancelled then { d with phase := .settled work (.stop .cancelled) }
  else if d.deadlineAt - d.clock ≤ 0 then { d with phase := .settled work (.stop .deadline) }
  else { d with
    phase := .awaiting work d.clock
    sleepTimer := match work with
      | .sleep ms => some (d.clock + min ms MAX_TIMER_DELAY_MS)
      | _ => d.sleepTimer }

/-- When the deadline timer of a wait that began at `since` is due. -/
def deadlineTimerDue (d : Drain) (since : ℚ) : ℚ :=
  since + min (d.deadlineAt - since) MAX_TIMER_DELAY_MS

/-- The locals of `runDrain` when it enters the loop. -/
def enter (options : DrainOptions) (now : ℚ) : Drain where
  maxIterations := finiteOr options.maxIterations DRAIN_DEFAULT_MAX_ITERATIONS
  delayBetweenCyclesMs := finiteOr options.delayBetweenCyclesMs 0
  deadlineAt := now + finiteOr options.timeoutMs DRAIN_DEFAULT_TIMEOUT_MS
  clock := now
  cancelled := false
  sleepTimer := none
  iterations := 0
  itemsDispatched := 0
  lastSize := none
  cycleJustRan := false
  phase := .awaiting .isSyncing now

/-- `runDrain` up to its first `await`. -/
def start (options : DrainOptions) (now : ℚ) : Drain := (enter options now).raceWithStop .isSyncing

def result (d : Drain) (stoppedReason : DrainStoppedReason) : DrainResult where
  iterations := d.iterations
  itemsDispatched := d.itemsDispatched
  queueRemaining := d.lastSize.getD 0
  stoppedReason := stoppedReason

/-- A `DrainStop` reaches the `catch`. -/
def stop (d : Drain) (cause : StopCause) : Drain :=
  { d with phase := .resolved (d.result cause.reason) cause }

/-- How long to wait after a cycle that took nothing off the queue. -/
def waitAfterNoProgress (d : Drain) (pending : List SyncItem) : Settlement ℚ :=
  match soonestCooldownEnd pending d.clock with
  | none => .value d.idleWaitMs
  | some cooldownEnd =>
    if d.deadlineAt ≤ cooldownEnd then .stop (.cooldown pending d.clock)
    else .value (max d.delayBetweenCyclesMs (cooldownEnd - d.clock))

/-- After a cycle: wait, or go on to the next one. -/
def waitFor (d : Drain) (waitMs : ℚ) : Drain :=
  if 0 < waitMs then d.raceWithStop (.sleep waitMs) else d.raceWithStop .getConnectionStatus

/-- The items that left the queue since its size was last read. -/
def removed (d : Drain) (size : Int) : Int :=
  match d.lastSize with
  | none => 0
  | some lastSize => lastSize - size

/-- A size is read and accounted for. -/
def readSize (d : Drain) (size : Int) : Drain :=
  { d with
    itemsDispatched :=
      if 0 < d.removed size then d.itemsDispatched + d.removed size else d.itemsDispatched
    lastSize := some size }

/-- The loop from the queue size on. -/
def afterSize (d : Drain) (size : Int) : Drain :=
  let d' := d.readSize size
  if size = 0 then d'.raceWithStop .isSyncingAgain
  else if d.maxIterations ≤ d.iterations then
    { d' with phase := .resolved (d'.result .MAX_ITERATIONS) none }
  else if d.cycleJustRan then
    let d' := { d' with cycleJustRan := false }
    if 0 < d.removed size then d'.waitFor d.delayBetweenCyclesMs
    else d'.raceWithStop .getPendingItems
  else d'.raceWithStop .getConnectionStatus

/-- The loop goes on with the value of an `await`. -/
def resume (d : Drain) : Value → Drain
  | .isSyncing true | .isSyncingAgain true => d.raceWithStop (.sleep DRAIN_IDLE_WAIT_MS)
  | .isSyncing false => d.raceWithStop .getQueueSize
  | .queueSize size => d.afterSize size
  | .isSyncingAgain false => { d with phase := .resolved (d.result .EMPTY) none }
  | .pendingItems pending => { d with phase := .returned (d.waitAfterNoProgress pending) }
  | .connectionStatus status =>
    if status = .DISCONNECTED then d.raceWithStop (.sleep d.idleWaitMs)
    else
      let d := { d with iterations := d.iterations + 1, cycleJustRan := true }
      d.raceWithStop .flush
  | .flushed | .slept => d.raceWithStop .isSyncing

/-- Run what waits for the promise that has settled. -/
def run (d : Drain) : Option Drain :=
  match d.phase with
  | .settled work settlement =>
    if d.sleepTimer.isSome then
      -- the `finally` of `sleepWithStop`
      some { d with sleepTimer := none }
    else match work, settlement with
      | _, .value value => some (d.resume value)
      | .getPendingItems, .stop cause => some { d with phase := .returned (.stop cause) }
      | .getPendingItems, .error message => some { d with phase := .returned (.error message) }
      | _, .stop cause => some (d.stop cause)
      | _, .error message => some { d with phase := .rejected message }
  | .returned (.value waitMs) => some (d.waitFor waitMs)
  | .returned (.stop cause) => some (d.stop cause)
  | .returned (.error message) => some { d with phase := .rejected message }
  | _ => none

def active (d : Drain) : Bool :=
  match d.phase with
  | .resolved _ _ | .rejected _ => false
  | _ => true

/-- Why the drain stopped, once it has resolved. -/
def stoppedReason (d : Drain) : Option DrainStoppedReason :=
  match d.phase with
  | .resolved result _ => some result.stoppedReason
  | _ => none

/-- One turn of the event loop that concerns the drain. -/
def step (d : Drain) : Label → Option Drain
  | .tick now => if d.active ∧ d.clock ≤ now then some { d with clock := now } else none
  | .answer value =>
    match d.phase with
    | .awaiting work _ =>
      if value.answers work then some { d with phase := .settled work (.value value) } else none
    | _ => none
  | .fail message =>
    match d.phase with
    | .awaiting (.sleep _) _ => none
    | .awaiting work _ => some { d with phase := .settled work (.error message) }
    | _ => none
  | .sleepTimer =>
    match d.phase, d.sleepTimer with
    | .awaiting work _, some due =>
      if due ≤ d.clock then some { d with phase := .settled work (.value .slept) } else none
    | _, _ => none
  | .deadlineTimer =>
    match d.phase with
    | .awaiting work since =>
      if d.deadlineTimerDue since ≤ d.clock then
        some { d with phase := .settled work (.stop (.timer since)) }
      else none
    | _ => none
  | .cancel =>
    match d.phase with
    | .awaiting work _ =>
      some { d with cancelled := true, phase := .settled work (.stop .cancelled) }
    | _ => if d.active then some { d with cancelled := true } else none
  | .run => d.run

/-! ## 1. What a step can do -/

/-- The two agree on what stops a drain. -/
structure SameStops (d d' : Drain) : Prop where
  deadlineAt : d'.deadlineAt = d.deadlineAt
  clock : d'.clock = d.clock
  cancelled : d'.cancelled = d.cancelled

theorem SameStops.refl (d : Drain) : SameStops d d := ⟨rfl, rfl, rfl⟩

/-- What the loop does with a value: it asks for something, it ends, or
`waitAfterNoProgress` does. It reads `isSyncing` again after a size of 0 only. -/
inductive Resumes (d : Drain) : Value → Drain → Prop where
  | asks {value : Value} {d₀ : Drain} {work : Work} (hsame : SameStops d d₀)
    (hagain : work = .isSyncingAgain → value = .queueSize 0) :
    Resumes d value (d₀.raceWithStop work)
  | empty : Resumes d (.isSyncingAgain false) { d with phase := .resolved (d.result .EMPTY) none }
  | maxIterations {size : Int} (hsize : size ≠ 0) (hle : d.maxIterations ≤ d.iterations) :
    Resumes d (.queueSize size) { d.readSize size with
      phase := .resolved ((d.readSize size).result .MAX_ITERATIONS) none }
  | returns {pending : List SyncItem} :
    Resumes d (.pendingItems pending)
      { d with phase := .returned (d.waitAfterNoProgress pending) }

/-- A wait asks for a sleep or for the connection. -/
theorem waitFor_cases (d : Drain) (waitMs : ℚ) :
    ∃ work, work ≠ .isSyncingAgain ∧ d.waitFor waitMs = d.raceWithStop work := by
  unfold waitFor
  split
  · exact ⟨_, by simp, rfl⟩
  · exact ⟨_, by simp, rfl⟩

theorem resumes_afterSize (d : Drain) (size : Int) :
    Resumes d (.queueSize size) (d.afterSize size) := by
  unfold afterSize
  split
  · rename_i hsize
    exact .asks ⟨rfl, rfl, rfl⟩ fun _ => by rw [hsize]
  · rename_i hsize
    split
    · exact .maxIterations hsize ‹_›
    · split
      · dsimp only
        split
        · obtain ⟨work, hwork, hwait⟩ := waitFor_cases
            { d.readSize size with cycleJustRan := false } d.delayBetweenCyclesMs
          rw [hwait]
          exact .asks ⟨rfl, rfl, rfl⟩ fun hagain => absurd hagain hwork
        · exact .asks ⟨rfl, rfl, rfl⟩ (by simp)
      · exact .asks ⟨rfl, rfl, rfl⟩ (by simp)

theorem resumes_resume (d : Drain) (value : Value) : Resumes d value (d.resume value) := by
  cases value with
  | isSyncing syncing => cases syncing <;> exact .asks (.refl d) (by simp)
  | queueSize size => exact resumes_afterSize d size
  | isSyncingAgain syncing =>
    cases syncing with
    | true => exact .asks (.refl d) (by simp)
    | false => exact .empty
  | pendingItems pending => exact .returns
  | connectionStatus status =>
    simp only [resume]
    split
    · exact .asks (.refl d) (by simp)
    · exact .asks ⟨rfl, rfl, rfl⟩ (by simp)
  | flushed => exact .asks (.refl d) (by simp)
  | slept => exact .asks (.refl d) (by simp)

end Drain

/-- What a `DrainStop` on its way to the `catch`, or one that got there, was
thrown for. -/
def Phase.cause : Phase → Option StopCause
  | .settled _ (.stop cause) | .returned (.stop cause) => some cause
  | .resolved _ cause => cause
  | _ => none

namespace Drain

/-- How the wait for `work` that began at `since` ends, a cancel aside. -/
inductive Ends (d : Drain) (work : Work) (since : ℚ) : Label → Settlement Value → Prop where
  | answer {value : Value} (hanswers : value.answers work = true) :
    Ends d work since (.answer value) (.value value)
  | fail {message : String} (hwork : ∀ ms, work ≠ .sleep ms) :
    Ends d work since (.fail message) (.error message)
  | sleepTimer {due : ℚ} (hset : d.sleepTimer = some due) (hdue : due ≤ d.clock) :
    Ends d work since .sleepTimer (.value .slept)
  | deadlineTimer (hdue : d.deadlineTimerDue since ≤ d.clock) :
    Ends d work since .deadlineTimer (.stop (.timer since))

/-- What a step does. -/
inductive Turn (d : Drain) : Label → Drain → Prop where
  | tick {now : ℚ} (hactive : d.active = true) (hle : d.clock ≤ now) :
    Turn d (.tick now) { d with clock := now }
  | settle {work : Work} {since : ℚ} {l : Label} {settlement : Settlement Value}
    (hphase : d.phase = .awaiting work since) (hends : Ends d work since l settlement) :
    Turn d l { d with phase := .settled work settlement }
  | cancelWait {work : Work} {since : ℚ} (hphase : d.phase = .awaiting work since) :
    Turn d .cancel { d with cancelled := true, phase := .settled work (.stop .cancelled) }
  | cancel (hphase : ∀ work since, d.phase ≠ .awaiting work since) (hactive : d.active = true) :
    Turn d .cancel { d with cancelled := true }
  | clearSleep {work : Work} {settlement : Settlement Value}
    (hphase : d.phase = .settled work settlement) (hset : d.sleepTimer.isSome = true) :
    Turn d .run { d with sleepTimer := none }
  | resume {work : Work} {value : Value} {d' : Drain}
    (hphase : d.phase = .settled work (.value value)) (hclear : d.sleepTimer = none)
    (hresumes : Resumes d value d') : Turn d .run d'
  | leave {settlement : Settlement ℚ} (hvalue : ∀ waitMs, settlement ≠ .value waitMs)
    (hcause : (Phase.returned settlement).cause = d.phase.cause) :
    Turn d .run { d with phase := .returned settlement }
  | wait {waitMs : ℚ} {work : Work} (hphase : d.phase = .returned (.value waitMs))
    (hwork : work ≠ .isSyncingAgain) : Turn d .run (d.raceWithStop work)
  | stop {cause : StopCause} (hcause : d.phase.cause = some cause) : Turn d .run (d.stop cause)
  | reject {message : String} : Turn d .run { d with phase := .rejected message }

theorem turn_of_run {d d' : Drain} (h : d.run = some d') : Turn d .run d' := by
  unfold run at h
  split at h
  · rename_i work settlement hphase
    split at h
    · cases h
      exact .clearSleep hphase ‹_›
    · rename_i hset
      split at h
      · cases h
        exact .resume hphase (by simpa using hset) (resumes_resume d _)
      · cases h
        exact .leave (by simp) (by rw [hphase]; rfl)
      · cases h
        exact .leave (by simp) (by rw [hphase]; rfl)
      · cases h
        exact .stop (by rw [hphase]; rfl)
      · cases h
        exact .reject
  · rename_i waitMs hphase
    obtain ⟨work, hwork, hwait⟩ := waitFor_cases d waitMs
    rw [hwait] at h
    cases h
    exact .wait hphase hwork
  · rename_i hphase
    cases h
    exact .stop (by rw [hphase]; rfl)
  · cases h
    exact .reject
  · cases h

theorem step_cases {d d' : Drain} {l : Label} (h : d.step l = some d') : Turn d l d' := by
  cases l with
  | tick now =>
    simp only [step, Option.ite_none_right_eq_some] at h
    obtain ⟨⟨hactive, hle⟩, h⟩ := h
    cases h
    exact .tick hactive hle
  | answer value =>
    simp only [step] at h
    split at h
    · rename_i hphase
      split at h <;> cases h
      exact .settle hphase (.answer ‹_›)
    · cases h
  | fail message =>
    simp only [step] at h
    split at h <;> cases h
    rename_i hsleep hphase
    exact .settle hphase (.fail hsleep)
  | sleepTimer =>
    simp only [step] at h
    split at h
    · rename_i hphase hset
      split at h <;> cases h
      exact .settle hphase (.sleepTimer hset ‹_›)
    · cases h
  | deadlineTimer =>
    simp only [step] at h
    split at h
    · rename_i hphase
      split at h <;> cases h
      exact .settle hphase (.deadlineTimer ‹_›)
    · cases h
  | cancel =>
    simp only [step] at h
    split at h
    · rename_i hphase
      cases h
      exact .cancelWait hphase
    · rename_i hphase
      split at h <;> cases h
      exact .cancel hphase ‹_›
  | run => exact turn_of_run h

/-! ## 2. How a drain ends -/

theorem raceWithStop_active (d : Drain) (work : Work) : (d.raceWithStop work).active = true := by
  unfold raceWithStop
  split
  · rfl
  · split <;> rfl

theorem sameStops_raceWithStop (d : Drain) (work : Work) : SameStops d (d.raceWithStop work) := by
  unfold raceWithStop
  split
  · exact ⟨rfl, rfl, rfl⟩
  · split <;> exact ⟨rfl, rfl, rfl⟩

/-- A turn moves neither the clock nor the deadline, and cancels nothing. -/
theorem sameStops_run {d d' : Drain} (h : d.run = some d') : SameStops d d' := by
  cases turn_of_run h with
  | settle hphase hends => cases hends
  | clearSleep | leave | stop | reject => exact ⟨rfl, rfl, rfl⟩
  | wait hphase hwork => exact sameStops_raceWithStop d _
  | resume hphase hclear hresumes =>
    cases hresumes with
    | @asks _ d₀ work hsame hagain =>
      have hrace := sameStops_raceWithStop d₀ work
      exact ⟨hrace.deadlineAt.trans hsame.deadlineAt, hrace.clock.trans hsame.clock,
        hrace.cancelled.trans hsame.cancelled⟩
    | empty | maxIterations | returns => exact ⟨rfl, rfl, rfl⟩

theorem active_eq_false {d : Drain} {result : DrainResult} {cause : Option StopCause}
    (h : d.phase = .resolved result cause) : d.active = false := by
  rw [active, h]

/-- The step resolves the drain with this result. -/
inductive ResolvesWith (d : Drain) : DrainResult → Option StopCause → Prop where
  | empty {work : Work} (hphase : d.phase = .settled work (.value (.isSyncingAgain false))) :
    ResolvesWith d (d.result .EMPTY) none
  | maxIterations {work : Work} {size : Int}
    (hphase : d.phase = .settled work (.value (.queueSize size)))
    (hsize : size ≠ 0) (hle : d.maxIterations ≤ d.iterations) :
    ResolvesWith d ((d.readSize size).result .MAX_ITERATIONS) none
  | stop {cause : StopCause} (hcause : d.phase.cause = some cause) :
    ResolvesWith d (d.result cause.reason) (some cause)

theorem step_resolved {d d' : Drain} {l : Label} {result : DrainResult} {cause : Option StopCause}
    (h : d.step l = some d') (hres : d'.phase = .resolved result cause) :
    l = .run ∧ d.ResolvesWith result cause := by
  have hended : d'.active = false := active_eq_false hres
  cases step_cases h with
  | tick hactive hle =>
    rw [active_eq_false (show d.phase = _ from hres)] at hactive
    cases hactive
  | settle hphase hends => cases hres
  | cancelWait hphase => cases hres
  | cancel hphase hactive =>
    rw [active_eq_false (show d.phase = _ from hres)] at hactive
    cases hactive
  | clearSleep hphase hset => cases hphase.symm.trans hres
  | resume hphase hclear hresumes =>
    cases hresumes with
    | asks hsame hagain =>
      rw [raceWithStop_active] at hended
      cases hended
    | empty =>
      cases hres
      exact ⟨rfl, .empty hphase⟩
    | maxIterations hsize hle =>
      cases hres
      exact ⟨rfl, .maxIterations hphase hsize hle⟩
    | returns => cases hres
  | leave hvalue hcause => cases hres
  | wait hphase hwork =>
    rw [raceWithStop_active] at hended
    cases hended
  | stop hcause =>
    cases hres
    exact ⟨rfl, .stop hcause⟩
  | reject => cases hres

theorem stoppedReason_eq_some {d : Drain} {reason : DrainStoppedReason} :
    d.stoppedReason = some reason ↔
      ∃ result cause, d.phase = .resolved result cause ∧ result.stoppedReason = reason := by
  unfold stoppedReason
  constructor
  · intro h
    split at h
    · rename_i result cause hphase
      exact ⟨result, cause, hphase, Option.some.inj h⟩
    · cases h
  · rintro ⟨result, cause, hphase, rfl⟩
    rw [hphase]

end Drain

end SyncProvider.Js
