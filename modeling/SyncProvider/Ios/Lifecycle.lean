import SyncProvider.Ios.Wake

/-!
# iOS: the calls of the engine, access by access

`pause`, `resume`, `configure`, `attachHybrid` and `detachHybrid` of `SyncEngine`, and
`rearmRetryTimer`, down to each access to what they share: the flag of the store and that
of the dispatcher, the count of attached hybrids, the ticket, and the retry timer. What
happens under the lock is one step. Any thread may run between two steps.

Result:
1. `step_cases` : what a step can be.
-/

namespace SyncProvider.Ios

/-! ## The model -/

/-- What the calls share. -/
structure Shared where
  /-- The flag of `configStore`. -/
  persistedPaused : Bool
  /-- `dispatcher.hooks.paused`. -/
  paused : Bool
  /-- `options.isManual`. -/
  isManual : Bool
  store : StoredItems
  attachedHybrids : Nat
  rearmTicket : Nat
  credentialHoldUntil : Int
  /-- When the pending wake is due, if there is one. -/
  retryTimer : Option Int
  wakeAwaitingConnectivity : Bool
  /-- `startup` has not finished. -/
  recovering : Bool
  now : Int

/-- Who calls `rearmRetryTimer`. -/
inductive RearmCaller where
  /-- The task that call `u` of `attachHybrid` has started. -/
  | attach (u : Nat)
  | resume
  | configure
  /-- `onCycleFinished`. -/
  | cycle (notBefore : Option Int)
  deriving DecidableEq

namespace RearmCaller

def scope : RearmCaller → RetryWakeScope
  | .resume => .allPending
  | _ => .attempted

def notBefore : RearmCaller → Option Int
  | .cycle notBefore => notBefore
  | _ => none

end RearmCaller

/-- Where a call stands: what it does next. -/
inductive CallTask where
  | pause
  | pauseHooks
  | pauseDisarm
  | resume
  | resumeHooks
  | configure (isManual : Bool)
  | attach
  | attachPersist
  | attachHooks
  /-- The task that re-arms is started. -/
  | attachWake
  /-- That task waits for launch recovery. -/
  | startup (u : Nat)
  | detach
  /-- The last hybrid: the timer is disarmed. -/
  | detachDisarm
  /-- `rearmRetryTimer` was called. -/
  | rearm (caller : RearmCaller)
  /-- `dispatcher.paused()` is awaited. -/
  | ticketed (caller : RearmCaller) (ticket : Nat) (canArm : Bool) (holdUntil : Int)
  /-- The read of the deadline is awaited. -/
  | asked (caller : RearmCaller) (ticket : Nat) (canArm : Bool) (holdUntil : Int)
    (isPaused : Bool)
  /-- The timer is next. -/
  | decided (caller : RearmCaller) (ticket : Nat) (holdUntil : Int) (wakeAt : Option Int)
  | done

def CallTask.isDone : CallTask → Bool
  | .done => true
  | _ => false

/-- The calls of the engine. -/
inductive EntryPoint where
  | pause
  | resume
  | attachHybrid
  | detachHybrid
  | configure (isManual : Bool)
  | onCycleFinished (notBefore : Option Int)
  deriving DecidableEq

def EntryPoint.task : EntryPoint → CallTask
  | .pause => .pause
  | .resume => .resume
  | .attachHybrid => .attach
  | .detachHybrid => .detach
  | .configure isManual => .configure isManual
  | .onCycleFinished notBefore => .rearm (.cycle notBefore)

def Shared.disarmRetryTimer (s : Shared) : Shared :=
  { s with
    rearmTicket := s.rearmTicket + 1
    retryTimer := none
    wakeAwaitingConnectivity := false }

structure Lifecycle where
  shared : Shared
  tasks : List CallTask

namespace Lifecycle

inductive Label where
  | call (entry : EntryPoint)
  /-- Task `u` goes on. A read of the store may throw. -/
  | advance (u : Nat) (ok : Bool)
  /-- Launch recovery finishes, which may fail to reset the rows. -/
  | recover (ok : Bool)
  /-- The rest of the process works on. -/
  | store (store : StoredItems)
  | tick (ms : Nat)
  | fire

/-- One step of task `u`. -/
def advance (ok : Bool) (s : Shared) : CallTask → Option (Shared × CallTask)
  | .pause => some ({ s with persistedPaused := true }, .pauseHooks)
  | .pauseHooks => some ({ s with paused := true }, .pauseDisarm)
  | .pauseDisarm | .detachDisarm => some (s.disarmRetryTimer, .done)
  | .resume => some ({ s with persistedPaused := false }, .resumeHooks)
  | .resumeHooks => some ({ s with paused := false }, .rearm .resume)
  | .configure isManual =>
    some ({ s with isManual := isManual, credentialHoldUntil := 0 }, .rearm .configure)
  | .attach => some ({ s with attachedHybrids := s.attachedHybrids + 1 }, .attachPersist)
  | .attachPersist => some ({ s with persistedPaused := false }, .attachHooks)
  | .attachHooks => some ({ s with paused := false }, .attachWake)
  | .attachWake => some (s, .done)
  | .startup u => if s.recovering then none else some (s, .rearm (.attach u))
  | .detach =>
    some ({ s with attachedHybrids := s.attachedHybrids - 1 },
      if s.attachedHybrids - 1 = 0 then .detachDisarm else .done)
  | .rearm caller =>
    let ticket := s.rearmTicket + 1
    let holdUntil := max s.credentialHoldUntil (caller.notBefore.getD 0)
    some ({ s with rearmTicket := ticket, credentialHoldUntil := holdUntil },
      .ticketed caller ticket (0 < s.attachedHybrids && !s.isManual) holdUntil)
  | .ticketed caller ticket canArm holdUntil =>
    some (s, .asked caller ticket canArm holdUntil s.paused)
  | .asked caller ticket canArm holdUntil isPaused =>
    if canArm && !isPaused then
      if ok then
        some (s, .decided caller ticket holdUntil (SyncEngine.earliest caller.scope s.store))
      else some (s, .done)
    else some (s, .decided caller ticket holdUntil none)
  | .decided _ ticket holdUntil wakeAt =>
    if ticket = s.rearmTicket then
      match wakeAt with
      | none => some ({ s with retryTimer := none, wakeAwaitingConnectivity := false }, .done)
      | some wakeAt =>
        let delayMs := max 0 (max wakeAt holdUntil - s.now)
        some ({ s with retryTimer := some (SyncEngine.arm s.now delayMs) }, .done)
    else some (s, .done)
  | .done => none

/-- What task `u` starts. -/
def spawned (u : Nat) : CallTask → List CallTask
  | .attachWake => [.startup u]
  | _ => []

def step (s : Lifecycle) : Label → Option Lifecycle
  | .call entry => some { s with tasks := s.tasks ++ [entry.task] }
  | .advance u ok =>
    s.tasks[u]?.bind fun k => (advance ok s.shared k).map fun (shared, k') =>
      { shared := shared, tasks := s.tasks.set u k' ++ spawned u k }
  | .recover ok =>
    if s.shared.recovering then
      some { s with shared := { s.shared with
        store := if ok then SyncItemDao.resetInFlightToPending s.shared.store else s.shared.store
        recovering := false } }
    else none
  | .store store => some { s with shared := { s.shared with store := store } }
  | .tick ms => some { s with shared := { s.shared with now := s.shared.now + ms } }
  | .fire => s.shared.retryTimer.map fun _ =>
    { s with shared := { s.shared with retryTimer := none } }

/-! ## 1. What a step can be -/

/-- Something outside of the calls changes. -/
structure Outside (s s' : Lifecycle) : Prop where
  tasks : s'.tasks = s.tasks
  persistedPaused : s'.shared.persistedPaused = s.shared.persistedPaused
  paused : s'.shared.paused = s.shared.paused
  attachedHybrids : s'.shared.attachedHybrids = s.shared.attachedHybrids
  rearmTicket : s'.shared.rearmTicket = s.shared.rearmTicket

inductive Moves (s : Lifecycle) : Label → Lifecycle → Prop where
  | call (entry : EntryPoint) : Moves s (.call entry) { s with tasks := s.tasks ++ [entry.task] }
  | advance {u : Nat} {ok : Bool} {k k' : CallTask} {shared : Shared} (hk : s.tasks[u]? = some k)
      (hstep : Lifecycle.advance ok s.shared k = some (shared, k')) :
      Moves s (.advance u ok) ⟨shared, s.tasks.set u k' ++ spawned u k⟩
  | outside {l : Label} {s' : Lifecycle} (hcall : ∀ entry, l ≠ .call entry)
      (hadvance : ∀ u ok, l ≠ .advance u ok) (houtside : Outside s s') : Moves s l s'

theorem step_cases {s s' : Lifecycle} {l : Label} (h : s.step l = some s') : Moves s l s' := by
  cases l with
  | call entry =>
    cases h
    exact .call entry
  | advance u ok =>
    simp only [step, Option.bind_eq_some_iff, Option.map_eq_some_iff] at h
    obtain ⟨k, hk, ⟨shared, k'⟩, hstep, rfl⟩ := h
    exact .advance hk hstep
  | recover ok =>
    simp only [step, Option.ite_none_right_eq_some] at h
    obtain ⟨-, h⟩ := h
    cases h
    exact .outside (by simp) (by simp) ⟨rfl, rfl, rfl, rfl, rfl⟩
  | store | tick =>
    cases h
    exact .outside (by simp) (by simp) ⟨rfl, rfl, rfl, rfl, rfl⟩
  | fire =>
    simp only [step, Option.map_eq_some_iff] at h
    obtain ⟨_, -, rfl⟩ := h
    exact .outside (by simp) (by simp) ⟨rfl, rfl, rfl, rfl, rfl⟩

/-- What stands among the tasks after one of them has gone on. -/
theorem mem_advance {tasks : List CallTask} {u : Nat} {k k' x : CallTask}
    (hx : x ∈ tasks.set u k' ++ spawned u k) : x ∈ tasks ∨ x = k' ∨ x = .startup u := by
  rcases List.mem_append.mp hx with hx | hx
  · exact (List.mem_or_eq_of_mem_set hx).imp_right .inl
  · cases k with
    | attachWake => exact .inr (.inr (List.mem_singleton.mp hx))
    | _ => cases hx

section Sample

/-- The engine was just created, and the row waits. -/
def launched : Lifecycle where
  shared :=
    { persistedPaused := false
      paused := false
      isManual := false
      store := ⟨[{ sampleStored "a" 1 with nextRetryAt := 1000 }], List.nodup_singleton _⟩
      attachedHybrids := 0
      rearmTicket := 0
      credentialHoldUntil := 0
      retryTimer := none
      wakeAwaitingConnectivity := false
      recovering := false
      now := 0 }
  tasks := []

/-- Call `u` makes `n` steps. -/
def steps (u n : Nat) : List Label := List.replicate n (.advance u true)

def finished (s : Lifecycle) : Bool := s.tasks.all CallTask.isDone

end Sample

end Lifecycle

end SyncProvider.Ios
