import SyncProvider.Ios.Bracket
import SyncProvider.Lib.TaskPool

/-!
# iOS: the retry timer of the engine

`SyncEngine` over the dispatcher: the calls of the JS layer, the asynchronous
re-arms of the retry timer, the wakes the timer fires, and the connectivity
monitor. Each `await` of such a call is a `Task`, so that any number of calls
interleave at their `await`s, with each other and with the flush cycles.

The deadline reads of a re-arm happen with no lock held. A re-arm draws a
ticket first, and only the newest one may touch the timer.

Results:
1. `Engine.step_between` : what the dispatcher does between the calls.
2. `Engine.Serial.unfinished_flush` : a flush that may run leaves a cycle that
   has not ended.
3. `advance_cases` : what a task can do.
-/

namespace SyncProvider.Ios

/-! ## Tasks -/

/-- Which rows decide when the retry timer wakes. -/
inductive RetryWakeScope where
  /-- Rows already attempted. -/
  | attempted
  /-- Every `PENDING` row. -/
  | allPending
  deriving DecidableEq

/-- The status of a `ConnectionSnapshot`. -/
inductive ConnectionStatus where
  | connected | disconnected | metered | unknown
  deriving DecidableEq

def ConnectionStatus.isOnline (status : ConnectionStatus) : Bool :=
  status == .connected || status == .metered

/-- Where an asynchronous call stands, with its locals. -/
inductive Task where
  /-- `rearmRetryTimer` was called. -/
  | rearm (scope : RetryWakeScope) (notBefore : Option Int)
  /-- `dispatcher.paused()` is awaited. -/
  | ticketed (scope : RetryWakeScope) (ticket : Nat) (canArm : Bool) (holdUntil : Int)
  /-- The read of the deadline is awaited. -/
  | asked (scope : RetryWakeScope) (ticket : Nat) (canArm : Bool) (holdUntil : Int)
    (isPaused : Bool)
  /-- The timer is next. -/
  | decided (ticket : Nat) (holdUntil : Int) (wakeAt : Option Int)
  /-- `retryWakeFired` was called. -/
  | fired
  /-- A hybrid was attached, `dispatcher.paused()` is awaited. -/
  | firedAttached
  /-- The dispatcher was not paused, `connectivity.current` is next. -/
  | firedUnpaused
  /-- Connectivity was offline, the record of the wake is next. -/
  | firedOffline
  /-- Connectivity was online, `flush` is next. -/
  | firedOnline
  /-- `attachHybrid` counted the hybrid. -/
  | attaching
  /-- The task of `attachHybrid`, which waits for launch recovery. -/
  | attachWake
  /-- `detachHybrid` was for the last hybrid, the disarm is next. -/
  | detaching
  /-- `pause` stopped the dispatcher, the disarm is next. -/
  | pausing
  /-- `configure` replaced the options, the dispatcher is next. -/
  | configuring (config : DispatcherConfig)
  | done
  deriving DecidableEq

inductive TaskEvent where
  | go
  /-- The deadline read throws. -/
  | readFails
  /-- The call of `flush`, with the headers it can read back, if any. -/
  | flush (t : Nat) (recovered : Option StringMap) (nowMs : Int)
  deriving DecidableEq

/-! ## The engine -/

/-- The fields of `SyncEngine` that the retry timer depends on. -/
structure SyncEngine where
  /-- The store, the dispatcher and launch recovery. -/
  engine : Engine
  /-- `options.isManual`. -/
  isManual : Bool
  wakeAwaitingConnectivity : Bool
  rearmTicket : Nat
  attachedHybrids : Nat
  credentialHoldUntil : Int
  /-- When the pending wake is due, if there is one. -/
  timer : Option Int
  /-- `connectivity.current`. -/
  current : ConnectionStatus
  /-- The listeners have yet to hear of `current`. -/
  listening : Bool
  /-- The statuses of the `CONNECTION_CHANGED` events. -/
  connectionChanges : List ConnectionStatus
  now : Int
  tasks : List Task

namespace SyncEngine

inductive Label where
  /-- A step of the dispatcher or its storage, other than the ones below. -/
  | engine (l : Ios.Label)
  /-- A cycle ends: `onCycleFinished` re-arms the timer. -/
  | finish (t : Nat)
  | attachHybrid
  | detachHybrid
  | pause
  | resume
  | configure (isManual : Bool) (config : DispatcherConfig)
  | advance (u : Nat) (ev : TaskEvent)
  | tick (ms : Nat)
  | fire
  /-- The monitor stores a snapshot. -/
  | pathUpdate (status : ConnectionStatus)
  /-- The monitor calls its listener. -/
  | listen
  deriving DecidableEq

/-- The steps of the dispatcher that are no part of a call below. -/
def isEngineStep : Ios.Label → Bool
  | .enqueue _ | .remove _ | .flush _ _ _ | .recover => true
  | .cycle _ ev => ev != .finish
  | .updateConfig _ | .setPaused _ | .kill _ _ => false

def setPaused (s : SyncEngine) (paused : Bool) : SyncEngine :=
  { s with engine := { s.engine with paused := paused } }

def spawn (s : SyncEngine) (k : Task) : SyncEngine := { s with tasks := s.tasks ++ [k] }

def disarmRetryTimer (s : SyncEngine) : SyncEngine :=
  { s with
    rearmTicket := s.rearmTicket + 1
    timer := none
    wakeAwaitingConnectivity := false }

def earliest (scope : RetryWakeScope) (store : StoredItems) : Option Int :=
  match scope with
  | .attempted => SyncItemDao.earliestRetryAt store
  | .allPending => SyncItemDao.earliestPendingAt store

/-- `RetryWakeTimer.arm`: the instant the wake is due. -/
def arm (now delayMs : Int) : Int := now + max 0 (min delayMs (2 ^ 31 - 1))

/-- One step of a task: what it does to the engine, and where it stands then. -/
def advance (scheme : String → Option String) (s : SyncEngine) :
    Task → TaskEvent → Option (SyncEngine × Task)
  | .rearm scope notBefore, .go =>
    let ticket := s.rearmTicket + 1
    let holdUntil := max s.credentialHoldUntil (notBefore.getD 0)
    some ({ s with rearmTicket := ticket, credentialHoldUntil := holdUntil },
      .ticketed scope ticket (0 < s.attachedHybrids && !s.isManual) holdUntil)
  | .ticketed scope ticket canArm holdUntil, .go =>
    some (s, .asked scope ticket canArm holdUntil s.engine.paused)
  | .asked scope ticket canArm holdUntil isPaused, .go =>
    let wakeAt := if canArm && !isPaused then earliest scope s.engine.world.store else none
    some (s, .decided ticket holdUntil wakeAt)
  | .asked _ _ canArm _ isPaused, .readFails =>
    if canArm && !isPaused then some (s, .done) else none
  | .decided ticket holdUntil wakeAt, .go =>
    if ticket = s.rearmTicket then
      match wakeAt with
      | none => some ({ s with timer := none, wakeAwaitingConnectivity := false }, .done)
      | some wakeAt =>
        let delayMs := max 0 (max wakeAt holdUntil - s.now)
        some ({ s with timer := some (arm s.now delayMs) }, .done)
    else some (s, .done)
  | .fired, .go => some (s, if 0 < s.attachedHybrids then .firedAttached else .done)
  | .firedAttached, .go => some (s, if s.engine.paused then .done else .firedUnpaused)
  | .firedUnpaused, .go => some (s, if s.current.isOnline then .firedOnline else .firedOffline)
  | .firedOffline, .go => some ({ s with wakeAwaitingConnectivity := true }, .done)
  | .firedOnline, .flush t recovered nowMs =>
    (s.engine.step scheme (.flush t recovered nowMs)).map fun e => ({ s with engine := e }, .done)
  | .attaching, .go => some (s.setPaused false, .attachWake)
  | .attachWake, .go =>
    if s.engine.recovering then none else some (s, .rearm .attempted none)
  | .detaching, .go | .pausing, .go => some (s.disarmRetryTimer, .done)
  | .configuring config, .go =>
    some ({ s with engine := { s.engine with config := updateConfig s.engine.config config } },
      .rearm .attempted none)
  | _, _ => none

/-- One step of the engine. -/
def step (scheme : String → Option String) (s : SyncEngine) : Label → Option SyncEngine
  | .engine l =>
    if isEngineStep l then (s.engine.step scheme l).map fun e => { s with engine := e } else none
  | .finish t =>
    match s.engine.flushes t with
    | some { phase := .finishing notBefore, .. } =>
      (s.engine.step scheme (.cycle t .finish)).map fun e =>
        { s with engine := e }.spawn (.rearm .attempted notBefore)
    | _ => none
  | .attachHybrid =>
    some ({ s with attachedHybrids := s.attachedHybrids + 1 }.spawn .attaching)
  | .detachHybrid =>
    let s := { s with attachedHybrids := s.attachedHybrids - 1 }
    some (if s.attachedHybrids = 0 then s.spawn .detaching else s)
  | .pause => some ((s.setPaused true).spawn .pausing)
  | .resume => some ((s.setPaused false).spawn (.rearm .allPending none))
  | .configure isManual config =>
    some ({ s with isManual := isManual, credentialHoldUntil := 0 }.spawn (.configuring config))
  | .advance u ev =>
    s.tasks[u]?.bind fun k => (s.advance scheme k ev).map fun (s', k') =>
      { s' with tasks := s.tasks.set u k' }
  | .tick ms => some { s with now := s.now + ms }
  | .fire => s.timer.map fun _ => { s with timer := none }.spawn .fired
  | .pathUpdate status =>
    if s.listening then none else some { s with current := status, listening := true }
  | .listen =>
    if s.listening then
      let s := { s with
        listening := false
        connectionChanges := s.connectionChanges ++ [s.current] }
      if s.current.isOnline then
        let hadWake := s.wakeAwaitingConnectivity
        let s := { s with wakeAwaitingConnectivity := false }
        some (if hadWake then s.spawn .fired else s)
      else some s
    else none

/-- An engine that was just created, on whatever store it finds. -/
structure Launch (s : SyncEngine) : Prop where
  flushes : ∀ t, s.engine.flushes t = none
  isCycleRunning : s.engine.world.isCycleRunning = false
  credentialHeldUntil : s.engine.world.credentialHeldUntil = none
  wakeAwaitingConnectivity : s.wakeAwaitingConnectivity = false
  attachedHybrids : s.attachedHybrids = 0
  timer : s.timer = none
  listening : s.listening = false
  tasks : s.tasks = []

/-- Nothing is in progress: no call, no task of one, and no flush cycle. -/
def Quiescent (s : SyncEngine) : Prop :=
  (∀ k ∈ s.tasks, k = .done) ∧
    ∀ t c, s.engine.flushes t = some c → c.phase = .finished

end SyncEngine

theorem SyncEngine.quiescent_of_no_cycle {s : SyncEngine} (htasks : ∀ k ∈ s.tasks, k = .done)
    (hflushes : s.engine.flushes = fun _ => none) : s.Quiescent := by
  refine ⟨htasks, fun t c hc => ?_⟩
  rw [hflushes] at hc
  cases hc

/-! ## What the dispatcher does between the calls -/

/-- The row was attempted and waits to be dispatched again. -/
def StoredSyncItem.AwaitsRetry (r : StoredSyncItem) : Prop :=
  r.status = .PENDING ∧ 0 < r.nextRetryAt

/-- Only `finish` ends a cycle. -/
theorem Cycle.phase_ne_finished {scheme : String → Option String} {config : DispatcherConfig}
    {paused : Bool} {w w' : World} {c c' : Cycle} {ev : CycleEvent}
    (h : c.step scheme config paused w ev = some (w', c')) (hev : ev ≠ .finish) :
    c'.phase ≠ .finished := by
  cases Cycle.step_cases h with
  | finish hphase => exact absurd rfl hev
  | @record item rest record nowMs hphase =>
    unfold writeFailure
    split <;> rintro ⟨⟩
  | _ =>
    rintro ⟨⟩

/-- The earliest deadline is that of a row. -/
theorem SyncItemDao.exists_of_earliestRetryAt {t : StoredItems} {m : Int}
    (h : SyncItemDao.earliestRetryAt t = some m) :
    ∃ r ∈ t.rows, r.AwaitsRetry ∧ r.nextRetryAt = m := by
  obtain ⟨r, hr, hp, rfl⟩ := KeyedTable.exists_of_minWhere h
  exact ⟨r, hr, by simpa [StoredSyncItem.AwaitsRetry] using hp, rfl⟩

namespace Engine

/-- A cycle has not ended, its call of `onCycleFinished` included. -/
def Unfinished (e : Engine) : Prop := ∃ t c, e.flushes t = some c ∧ c.phase ≠ .finished

theorem Unfinished.of_setCycle {e e' : Engine} {c' : Cycle} (h : e.Unfinished) (t : Nat)
    (hflushes : e'.flushes = Function.update e.flushes t (some c')) (hc' : c'.phase ≠ .finished) :
    e'.Unfinished := by
  obtain ⟨u, c, hc, hphase⟩ := h
  by_cases hu : u = t
  · subst hu
    exact ⟨u, c', by rw [hflushes, Function.update_self], hc'⟩
  · exact ⟨u, c, by rw [hflushes, Function.update_of_ne hu, hc], hphase⟩

/-- What a step between the calls keeps: the pause, the cycles that have not
ended, and the rows that await a retry, up to those a cycle or launch recovery
puts back. -/
structure Between (e e' : Engine) : Prop where
  paused : e'.paused = e.paused
  recovering : e'.recovering = true → e.recovering = true
  unfinished : e.Unfinished → e'.Unfinished
  rows : ∀ r ∈ e'.world.store.rows, r.AwaitsRetry →
    r ∈ e.world.store.rows ∨ e'.Unfinished ∨ e.recovering = true

theorem Between.of_store {e e' : Engine} (hpaused : e'.paused = e.paused)
    (hrecovering : e'.recovering = e.recovering) (hflushes : e'.flushes = e.flushes)
    (hrows : ∀ r ∈ e'.world.store.rows, r.AwaitsRetry → r ∈ e.world.store.rows) :
    Between e e' where
  paused := hpaused
  recovering h := hrecovering ▸ h
  unfinished := by
    rintro ⟨t, c, hc, hphase⟩
    exact ⟨t, c, hflushes ▸ hc, hphase⟩
  rows r hr hwaits := .inl (hrows r hr hwaits)

theorem between_flush (e : Engine) (t : Nat) (recovered : Option StringMap) (nowMs : Int) :
    Between e (e.flush t recovered nowMs) := by
  obtain ⟨config, -, h | ⟨-, h⟩⟩ := e.flush_cases t recovered nowMs <;> rw [h]
  · exact .of_store rfl rfl rfl fun r hr _ => hr
  · refine ⟨rfl, id, fun hU => ?_, fun r hr _ => .inl hr⟩
    exact hU.of_setCycle t rfl (by rintro ⟨⟩)

theorem step_between {scheme : String → Option String} {e e' : Engine} {l : Label}
    (hl : SyncEngine.isEngineStep l = true) (h : e.step scheme l = some e') : Between e e' := by
  cases l with
  | enqueue items =>
    obtain ⟨store, -, hrows, rfl⟩ := Engine.step_enqueue h
    refine .of_store rfl rfl rfl fun r hr hwaits => ?_
    -- a new row has no deadline
    rw [hrows, List.mem_append] at hr
    rcases hr with hr | hr
    · exact hr
    · obtain ⟨item, -, rfl⟩ := List.mem_map.mp hr
      exact absurd hwaits.2 (lt_irrefl 0)
  | remove call =>
    cases h
    refine .of_store rfl rfl rfl fun r hr _ => ?_
    cases call with
    | remove id => exact (KeyedTable.mem_deleteWhere.mp hr).1
    | clear => cases hr
  | updateConfig config | setPaused paused | kill config paused => cases hl
  | flush t recovered nowMs =>
    simp only [step, Option.ite_none_right_eq_some] at h
    obtain ⟨-, h⟩ := h
    cases h
    exact e.between_flush t recovered nowMs
  | cycle t ev =>
    have hpaused : e'.paused = e.paused ∧ e'.recovering = e.recovering := by
      obtain ⟨c, hc, h⟩ := Option.bind_eq_some_iff.mp h
      obtain ⟨⟨w, c'⟩, hstep, rfl⟩ := Option.map_eq_some_iff.mp h
      exact ⟨rfl, rfl⟩
    obtain ⟨c, c', h⟩ := step_cycle h
    have hphase : c'.phase ≠ .finished :=
      Cycle.phase_ne_finished h.step (by simpa [SyncEngine.isEngineStep] using hl)
    have hself : e'.Unfinished := ⟨t, c', by rw [h.flushes, Function.update_self], hphase⟩
    exact ⟨hpaused.1, fun hr => hpaused.2 ▸ hr, fun _ => hself, fun r _ _ => .inr (.inl hself)⟩
  | recover =>
    simp only [step, Option.ite_none_right_eq_some] at h
    obtain ⟨hrecovering, h⟩ := h
    cases h
    exact ⟨rfl, (by rintro ⟨⟩), id, fun r _ _ => .inr (.inr hrecovering)⟩

theorem Serial.congr {e e' : Engine} (hS : e.Serial) (hworld : e'.world = e.world)
    (hflushes : e'.flushes = e.flushes) : e'.Serial := by
  obtain ⟨world, config, paused, recovering, flushes⟩ := e'
  subst hworld hflushes
  exact ⟨⟨hS.one.running, hS.one.unique⟩, hS.active, hS.unheld⟩

theorem flush_flushes (e : Engine) (t : Nat) (recovered : Option StringMap) (nowMs : Int)
    (u : Nat) : (e.flush t recovered nowMs).flushes u = e.flushes u ∨ t = u := by
  obtain ⟨config, -, h | ⟨-, h⟩⟩ := e.flush_cases t recovered nowMs <;> rw [h]
  · exact .inl rfl
  · by_cases hu : u = t
    · exact .inr hu.symm
    · exact .inl (Function.update_of_ne hu _ _)

/-- Within a process a flush call that has started a cycle keeps it. -/
theorem step_flushes {scheme : String → Option String} {e e' : Engine} {l : Label}
    (h : e.step scheme l = some e') (hkill : ∀ config paused, l ≠ .kill config paused) (t : Nat) :
    (e'.flushes t).isSome = (e.flushes t).isSome ∨
      (∃ recovered nowMs, l = .flush t recovered nowMs) ∧ e.flushes t = none := by
  rcases step_kinds h with hA | ⟨u, recovered, nowMs, rfl, hnone, rfl⟩ | ⟨u, ev, c, c', -, hC⟩ |
    ⟨config, paused, rfl⟩
  · exact .inl (by rw [hA.flushes])
  · rcases e.flush_flushes u recovered nowMs t with heq | rfl
    · exact .inl (by rw [heq])
    · exact .inr ⟨⟨recovered, nowMs, rfl⟩, hnone⟩
  · left
    by_cases ht : t = u
    · subst ht
      rw [hC.flushes, Function.update_self, hC.before]
      rfl
    · rw [hC.flushes_of_ne ht]
  · exact absurd rfl (hkill config paused)

/-- A flush that is not paused and has its credentials leaves a cycle that has
not ended: its own, or the running one. -/
theorem Serial.unfinished_flush {e : Engine} (hS : Serial e) {t : Nat}
    {recovered : Option StringMap} {nowMs : Int} (hpaused : e.paused = false)
    (hcredentials : (restoreCredentialsIfNeeded e.config recovered).isSome = true) :
    (e.flush t recovered nowMs).Unfinished := by
  obtain ⟨config, hconfig⟩ := Option.isSome_iff_exists.mp hcredentials
  unfold Engine.flush
  rw [hpaused, if_neg Bool.false_ne_true, hconfig]
  show Unfinished (if e.world.isCycleRunning then _ else _)
  split
  · rename_i hrunning
    obtain ⟨u, c, hc, hactive⟩ := hS.active hrunning
    refine ⟨u, c, hc, fun hphase => ?_⟩
    rw [Cycle.active, hphase] at hactive
    cases hactive
  · exact ⟨t, Cycle.start nowMs (max config.batchSize 1), Function.update_self .., (by rintro ⟨⟩)⟩

end Engine

/-! ## What a task can do -/

namespace SyncEngine

/-- What one step of a task does. -/
inductive Advances (scheme : String → Option String) (s : SyncEngine) :
    Task → TaskEvent → SyncEngine → Task → Prop where
  | draw (scope : RetryWakeScope) (notBefore : Option Int) :
    Advances scheme s (.rearm scope notBefore) .go
      { s with
        rearmTicket := s.rearmTicket + 1
        credentialHoldUntil := max s.credentialHoldUntil (notBefore.getD 0) }
      (.ticketed scope (s.rearmTicket + 1) (decide (0 < s.attachedHybrids) && !s.isManual)
        (max s.credentialHoldUntil (notBefore.getD 0)))
  | ask (scope : RetryWakeScope) (ticket : Nat) (canArm : Bool) (holdUntil : Int) :
    Advances scheme s (.ticketed scope ticket canArm holdUntil) .go s
      (.asked scope ticket canArm holdUntil s.engine.paused)
  | read (scope : RetryWakeScope) (ticket : Nat) (canArm : Bool) (holdUntil : Int)
    (isPaused : Bool) :
    Advances scheme s (.asked scope ticket canArm holdUntil isPaused) .go s
      (.decided ticket holdUntil
        (if canArm && !isPaused then earliest scope s.engine.world.store else none))
  | readFails (scope : RetryWakeScope) (ticket : Nat) (canArm : Bool) (holdUntil : Int)
    (isPaused : Bool) :
    Advances scheme s (.asked scope ticket canArm holdUntil isPaused) .readFails s .done
  | stale {ticket : Nat} (hstale : ticket ≠ s.rearmTicket) (holdUntil : Int)
    (wakeAt : Option Int) :
    Advances scheme s (.decided ticket holdUntil wakeAt) .go s .done
  | cancel (holdUntil : Int) :
    Advances scheme s (.decided s.rearmTicket holdUntil none) .go
      { s with timer := none, wakeAwaitingConnectivity := false } .done
  | arm (holdUntil wakeAt : Int) :
    Advances scheme s (.decided s.rearmTicket holdUntil (some wakeAt)) .go
      { s with timer := some (arm s.now (max 0 (max wakeAt holdUntil - s.now))) } .done
  | attached (hattached : 0 < s.attachedHybrids) : Advances scheme s .fired .go s .firedAttached
  | detached (hattached : s.attachedHybrids = 0) : Advances scheme s .fired .go s .done
  | paused (hpaused : s.engine.paused = true) : Advances scheme s .firedAttached .go s .done
  | unpaused (hpaused : s.engine.paused = false) :
    Advances scheme s .firedAttached .go s .firedUnpaused
  | online (honline : s.current.isOnline = true) :
    Advances scheme s .firedUnpaused .go s .firedOnline
  | offline (honline : s.current.isOnline = false) :
    Advances scheme s .firedUnpaused .go s .firedOffline
  | record : Advances scheme s .firedOffline .go { s with wakeAwaitingConnectivity := true } .done
  | flush {t : Nat} {recovered : Option StringMap} {nowMs : Int}
    (hnone : s.engine.flushes t = none) :
    Advances scheme s .firedOnline (.flush t recovered nowMs)
      { s with engine := s.engine.flush t recovered nowMs } .done
  | unpause : Advances scheme s .attaching .go (s.setPaused false) .attachWake
  | started (hrecovering : s.engine.recovering = false) :
    Advances scheme s .attachWake .go s (.rearm .attempted none)
  | disarmDetached : Advances scheme s .detaching .go s.disarmRetryTimer .done
  | disarmPaused : Advances scheme s .pausing .go s.disarmRetryTimer .done
  | configured (config : DispatcherConfig) :
    Advances scheme s (.configuring config) .go
      { s with engine := { s.engine with config := updateConfig s.engine.config config } }
      (.rearm .attempted none)

theorem advance_cases {scheme : String → Option String} {s s' : SyncEngine} {k k' : Task}
    {ev : TaskEvent} (h : s.advance scheme k ev = some (s', k')) :
    Advances scheme s k ev s' k' := by
  unfold advance at h
  split at h
  · cases h
    exact .draw _ _
  · cases h
    exact .ask _ _ _ _
  · cases h
    exact .read _ _ _ _ _
  · split at h <;> cases h
    exact .readFails _ _ _ _ _
  · split at h
    · rename_i hticket
      subst hticket
      split at h <;> cases h
      · exact .cancel _
      · exact .arm _ _
    · cases h
      exact .stale ‹_› _ _
  · split at h <;> cases h
    · exact .attached ‹_›
    · exact .detached (by omega)
  · split at h <;> cases h
    · exact .paused ‹_›
    · exact .unpaused (by simp_all)
  · split at h <;> cases h
    · exact .online ‹_›
    · exact .offline (by simp_all)
  · cases h
    exact .record
  · obtain ⟨e, he, h⟩ := Option.map_eq_some_iff.mp h
    cases h
    simp only [Engine.step, Option.ite_none_right_eq_some] at he
    obtain ⟨hnone, he⟩ := he
    cases he
    exact .flush (by simpa using hnone)
  · cases h
    exact .unpause
  · split at h <;> cases h
    exact .started (by simp_all)
  · cases h
    exact .disarmDetached
  · cases h
    exact .disarmPaused
  · cases h
    exact .configured _
  · cases h

theorem step_engine {scheme : String → Option String} {s s' : SyncEngine} {l : Ios.Label}
    (h : s.step scheme (.engine l) = some s') :
    isEngineStep l = true ∧ ∃ e, s.engine.step scheme l = some e ∧
      s' = { s with engine := e } := by
  simp only [step, Option.ite_none_right_eq_some, Option.map_eq_some_iff] at h
  obtain ⟨hl, e, he, rfl⟩ := h
  exact ⟨hl, e, he, rfl⟩

/-- The end of a cycle leaves the store alone. -/
theorem step_finish {scheme : String → Option String} {s s' : SyncEngine} {t : Nat}
    (h : s.step scheme (.finish t) = some s') :
    ∃ e notBefore, s.engine.step scheme (.cycle t .finish) = some e ∧ e.paused = s.engine.paused ∧
      e.recovering = s.engine.recovering ∧ s' = { s with engine := e }.spawn
        (.rearm .attempted notBefore) := by
  simp only [step] at h
  split at h
  · obtain ⟨e, he, rfl⟩ := Option.map_eq_some_iff.mp h
    refine ⟨e, _, he, ?_, ?_, rfl⟩
    all_goals
      obtain ⟨c, -, he⟩ := Option.bind_eq_some_iff.mp he
      obtain ⟨⟨w, c'⟩, -, rfl⟩ := Option.map_eq_some_iff.mp he
      rfl
  · cases h

theorem step_advance {scheme : String → Option String} {s s' : SyncEngine} {u : Nat}
    {ev : TaskEvent} (h : s.step scheme (.advance u ev) = some s') :
    ∃ k s₁ k', s.tasks[u]? = some k ∧ Advances scheme s k ev s₁ k' ∧
      s' = { s₁ with tasks := s.tasks.set u k' } := by
  obtain ⟨k, hk, h⟩ := Option.bind_eq_some_iff.mp h
  obtain ⟨⟨s₁, k'⟩, hadvance, rfl⟩ := Option.map_eq_some_iff.mp h
  exact ⟨k, s₁, k', hk, advance_cases hadvance, rfl⟩

/-! ## What a step keeps -/

/-- The flush call a step makes. -/
def Label.flush? : Label → Option Nat
  | .engine (.flush t _ _) | .advance _ (.flush t _ _) => some t
  | _ => none

theorem Advances.flushes {scheme : String → Option String} {s s' : SyncEngine} {k k' : Task}
    {u : Nat} {ev : TaskEvent} (h : Advances scheme s k ev s' k') (t : Nat) :
    (s'.engine.flushes t).isSome = (s.engine.flushes t).isSome ∨
      (Label.advance u ev).flush? = some t ∧ s.engine.flushes t = none := by
  cases h with
  | @flush v recovered nowMs hnone =>
    rcases s.engine.flush_flushes v recovered nowMs t with heq | rfl
    · exact .inl (congrArg Option.isSome heq)
    · exact .inr ⟨rfl, hnone⟩
  | _ => exact .inl rfl

/-- A flush call that has started a cycle keeps it, and a cycle comes from a call. -/
theorem step_flushes {scheme : String → Option String} {s s' : SyncEngine} {l : Label}
    (h : s.step scheme l = some s') (t : Nat) :
    (s'.engine.flushes t).isSome = (s.engine.flushes t).isSome ∨
      l.flush? = some t ∧ s.engine.flushes t = none := by
  cases l with
  | engine l =>
    obtain ⟨hl, e, he, rfl⟩ := step_engine h
    have hkill (config : DispatcherConfig) (paused : Bool) : l ≠ .kill config paused := by
      rintro rfl
      cases hl
    rcases Engine.step_flushes he hkill t with heq | ⟨hl, hnone⟩
    · exact .inl heq
    · obtain ⟨recovered, nowMs, rfl⟩ := hl
      exact .inr ⟨rfl, hnone⟩
  | finish u =>
    obtain ⟨e, notBefore, he, -, -, rfl⟩ := step_finish h
    have hkill (config : DispatcherConfig) (paused : Bool) :
        Ios.Label.cycle u .finish ≠ .kill config paused := by
      rintro ⟨⟩
    rcases Engine.step_flushes he hkill t with heq | ⟨⟨recovered, nowMs, hl⟩, -⟩
    · exact .inl heq
    · cases hl
  | advance u ev =>
    obtain ⟨k, s₁, k', hk, hadvance, rfl⟩ := step_advance h
    exact hadvance.flushes t
  | fire =>
    obtain ⟨due, hdue, rfl⟩ := Option.map_eq_some_iff.mp h
    exact .inl rfl
  | attachHybrid | pause | resume | configure isManual config | tick ms =>
    cases h
    exact .inl rfl
  | detachHybrid =>
    simp only [step, Option.some.injEq] at h
    split at h <;> subst h <;> exact .inl rfl
  | pathUpdate status =>
    simp only [step] at h
    split at h <;> cases h
    exact .inl rfl
  | listen =>
    simp only [step, Option.ite_none_right_eq_some] at h
    obtain ⟨-, h⟩ := h
    split at h
    · split at h <;> cases h <;> exact .inl rfl
    · cases h
      exact .inl rfl

theorem Launch.serial {s : SyncEngine} (h : Launch s) : s.engine.Serial := by
  refine ⟨⟨fun t c hc => ?_, fun t c u d hc => ?_⟩, fun hr => ?_, fun _ => h.credentialHeldUntil⟩
  · rw [h.flushes] at hc
    cases hc
  · rw [h.flushes] at hc
    cases hc
  · rw [h.isCycleRunning] at hr
    cases hr

theorem Advances.serial {scheme : String → Option String} {s s' : SyncEngine} {k k' : Task}
    {ev : TaskEvent} (hS : s.engine.Serial) (h : Advances scheme s k ev s' k') :
    s'.engine.Serial := by
  cases h with
  | @flush t recovered nowMs hnone => exact hS.flush t recovered nowMs
  | unpause | configured => exact hS.congr rfl rfl
  | _ => exact hS

theorem step_serial {scheme : String → Option String} {s s' : SyncEngine} {l : Label}
    (hS : s.engine.Serial) (h : s.step scheme l = some s') : s'.engine.Serial := by
  cases l with
  | engine l =>
    obtain ⟨-, e, he, rfl⟩ := step_engine h
    exact hS.step he
  | finish t =>
    obtain ⟨e, notBefore, he, -, -, rfl⟩ := step_finish h
    exact hS.step he
  | advance u ev =>
    obtain ⟨k, s₁, k', hk, hadvance, rfl⟩ := step_advance h
    have hS' : s₁.engine.Serial := hadvance.serial hS
    exact hS'
  | fire =>
    obtain ⟨due, hdue, rfl⟩ := Option.map_eq_some_iff.mp h
    exact hS
  | pause | resume =>
    cases h
    exact hS.congr rfl rfl
  | attachHybrid | configure isManual config | tick ms =>
    cases h
    exact hS
  | detachHybrid =>
    simp only [step, Option.some.injEq] at h
    split at h <;> subst h <;> exact hS
  | pathUpdate status =>
    simp only [step] at h
    split at h <;> cases h
    exact hS
  | listen =>
    simp only [step, Option.ite_none_right_eq_some] at h
    obtain ⟨-, h⟩ := h
    split at h
    · split at h <;> cases h <;> exact hS
    · cases h
      exact hS

/-- A flush call that is never made has no cycle. -/
theorem exec_flushes_eq_none {scheme : String → Option String} {s s' : SyncEngine}
    {ls : List Label} {t : Nat} (hls : ∀ l ∈ ls, l.flush? ≠ some t)
    (hnone : s.engine.flushes t = none) (hrun : StepSystem.exec (step scheme) s ls = some s') :
    s'.engine.flushes t = none := by
  let I (s : SyncEngine) : Prop := s.engine.flushes t = none
  let C (_ : SyncEngine) (l : Label) : Prop := l.flush? ≠ some t
  have hstep : ∀ {s l s'}, I s → C s l → step scheme s l = some s' → I s' := by
    intro s l s' hnone hl h
    rcases step_flushes h t with heq | ⟨hl', -⟩
    · rw [show s.engine.flushes t = none from hnone] at heq
      exact Option.isNone_iff_eq_none.mp (by simpa using heq)
    · exact absurd hl' hl
  have hmeets : StepSystem.Meets (step scheme) C s ls := StepSystem.meets_of_forall hls
  exact StepSystem.exec_invariant_of_meets hstep hnone hmeets hrun

end SyncEngine

end SyncProvider.Ios
