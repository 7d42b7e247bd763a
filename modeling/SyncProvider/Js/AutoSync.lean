import SyncProvider.Js.Hooks
import SyncProvider.Js.Snapshot
import SyncProvider.Lib.EffectRuns

/-!
# JS: when `useAutoSync` flushes

A trigger is a tick of the timer, the app coming to the foreground, or an event that says the
device is connected again. The first two ask for the connection status. Each trigger then asks
`isSyncing`, and looks whether its run has been cleaned up before it flushes. Every answer is
awaited, so other triggers, events and cleanups come in between, and an answer may be old when
it lands. The listener of a run may outlive its cleanup.

When the timer ticks is left open.

Results:
1. `offline_flushes_le` : how often an offline device is flushed.
2. `cleaned_up_stays_silent` : what a run does behind its cleanup.
-/

namespace SyncProvider.Js.AutoSync

open Snapshot (ConnectionStatus SyncEventType)
open StepSystem (exec)

/-! ## The model -/

/-- The props that decide when to flush. -/
structure Options where
  enabled : Option Bool
  flushOnReconnect : Option Bool
  flushOnMetered : Option Bool
  flushOnAppForeground : Option Bool
  deriving DecidableEq

structure Inputs where
  options : Options
  nativeAvailable : Bool

/-- Where a trigger is. An answer is `none` when its promise is rejected. -/
inductive Stage where
  /-- `flushUnlessOffline` awaits `getConnectionStatus()`. -/
  | asksStatus
  | toldStatus (status : Option ConnectionStatus)
  /-- `safeFlush` awaits `isSyncing()`. -/
  | asksSyncing
  | toldSyncing (inFlight : Option Bool)
  /-- It awaits `flush()`. -/
  | flushing
  | over
  deriving DecidableEq

/-- A run of the effect that has got past its guards. -/
structure Run where
  options : Options
  subscription : Hooks.Run
  /-- `clearInterval` has not been called. -/
  timer : Bool
  appStateSubscription : Bool
  triggers : List Stage
  /-- The calls of `flush()` so far. -/
  flushes : Nat
  deriving DecidableEq

/-- What the runs share. `lastConnection` is `lastConnectionRef.current`. -/
structure Shared where
  lastConnection : Option ConnectionStatus
  listeners : Hooks.Listeners
  deriving DecidableEq

inductive Action where
  | subscription (a : Hooks.Action)
  | tick
  /-- `active` says whether the next state is `'active'`. -/
  | appState (active : Bool)
  | event (type : SyncEventType) (connectionStatus : Option ConnectionStatus)
  | answerStatus (i : Nat) (status : Option ConnectionStatus)
  | landStatus (i : Nat)
  | answerSyncing (i : Nat) (inFlight : Option Bool)
  | landSyncing (i : Nat)
  | settle (i : Nat)
  deriving DecidableEq

def Run.start (run : Run) (stage : Stage) : Run :=
  { run with triggers := run.triggers ++ [stage] }

def Run.setTrigger (run : Run) (i : Nat) (stage : Stage) : Run :=
  { run with triggers := run.triggers.set i stage }

/-- A status that `previous` was not. -/
def becomes (previous : Option ConnectionStatus) (next status : ConnectionStatus) : Bool :=
  previous ≠ some status && next = status

/-- Whether an event is to flush. -/
def reconnects (options : Options) (previous : Option ConnectionStatus)
    (next : ConnectionStatus) : Bool :=
  becomes previous next .connected ||
    options.flushOnMetered.getD false && becomes previous next .metered

/-- The status that the listener takes from an event. -/
def heard (options : Options) (type : SyncEventType)
    (connectionStatus : Option ConnectionStatus) : Option ConnectionStatus :=
  if options.flushOnReconnect.getD true && type = .connectionChanged then connectionStatus
  else none

/-- The listener. -/
def onEvent (run : Run) (shared : Shared) (type : SyncEventType)
    (connectionStatus : Option ConnectionStatus) : Run × Shared :=
  match heard run.options type connectionStatus with
  | none => (run, shared)
  | some next =>
    (if reconnects run.options shared.lastConnection next then run.start .asksSyncing else run,
      { shared with lastConnection := some next })

def advance (a : Action) (run : Run) (shared : Shared) : Option (Run × Shared) :=
  match a with
  | .subscription a =>
    (Hooks.advance Hooks.useAutoSync a run.subscription shared.listeners).map fun p =>
      ({ run with subscription := p.1 }, { shared with listeners := p.2 })
  | .tick => if run.timer then some (run.start .asksStatus, shared) else none
  | .appState active =>
    if run.appStateSubscription then
      some (if active then run.start .asksStatus else run, shared)
    else none
  | .event type connectionStatus =>
    if run.subscription.registration.isFulfilled then
      some (onEvent run shared type connectionStatus)
    else none
  | .answerStatus i status =>
    if run.triggers[i]? = some .asksStatus then
      some (run.setTrigger i (.toldStatus status), shared)
    else none
  | .landStatus i =>
    match run.triggers[i]? with
    | some (.toldStatus none) | some (.toldStatus (some .disconnected)) =>
      some (run.setTrigger i .over, shared)
    | some (.toldStatus _) => some (run.setTrigger i .asksSyncing, shared)
    | _ => none
  | .answerSyncing i inFlight =>
    if run.triggers[i]? = some .asksSyncing then
      some (run.setTrigger i (.toldSyncing inFlight), shared)
    else none
  | .landSyncing i =>
    match run.triggers[i]? with
    | some (.toldSyncing (some false)) =>
      if run.subscription.cancelled then some (run.setTrigger i .over, shared)
      else some ({ run.setTrigger i .flushing with flushes := run.flushes + 1 }, shared)
    | some (.toldSyncing _) => some (run.setTrigger i .over, shared)
    | _ => none
  | .settle i =>
    if run.triggers[i]? = some .flushing then some (run.setTrigger i .over, shared) else none

def setup (inputs : Inputs) (shared : Shared) : Shared × Option Run :=
  (shared,
    if Hooks.useAutoSync.subscribes ⟨inputs.options.enabled, inputs.nativeAvailable⟩ then
      some {
        options := inputs.options
        subscription := ⟨.pending, false, none, false⟩
        timer := true
        appStateSubscription := inputs.options.flushOnAppForeground.getD false
        triggers := []
        flushes := 0 }
    else none)

def cleanup (run : Run) (shared : Shared) : Run × Shared :=
  let (subscription, listeners) :=
    Hooks.remove shared.listeners (Hooks.useAutoSync.cleanup run.subscription)
  ({ run with subscription := subscription, timer := false, appStateSubscription := false },
    { shared with listeners := listeners })

def effect : Effects.Effect Inputs Run Shared Action where
  setup := setup
  advance := advance
  cleanup := cleanup

abbrev Component := Effects.Component Run Shared

abbrev Label := Effects.Label Inputs Action

def step : Component → Label → Option Component := Effects.step effect

def initial : Component := Effects.initial ⟨none, ⟨[], []⟩⟩

/-! ## What is claimed -/

/-- Whether a trigger can still flush when it hears no more of an online device. -/
def Stage.isArmed : Stage → Bool
  | .toldStatus (some status) => status ≠ .disconnected
  | .asksSyncing => true
  | .toldSyncing inFlight => inFlight = some false
  | .asksStatus | .toldStatus none | .flushing | .over => false

def Run.armed (run : Run) : Nat := run.triggers.countP Stage.isArmed

/-- The calls of `flush()` of all runs. -/
def flushes (s : Component) : Nat := Effects.weight Run.flushes s

/-- The triggers of all runs that can still flush. -/
def armed (s : Component) : Nat := Effects.weight Run.armed s

/-- The device is offline: no answer and no event says that it is online. -/
def Action.IsOffline : Action → Prop
  | .answerStatus _ status => status = none ∨ status = some .disconnected
  | .event _ connectionStatus =>
    connectionStatus ≠ some .connected ∧ connectionStatus ≠ some .metered
  | _ => True

/-! ## 1. An offline device -/

variable {s s' : Component} {ls : List Label} {run run' : Run} {shared shared' : Shared}
  {a : Action}

/-- Another trigger counts as it does. -/
theorem countP_set {p : Stage → Bool} {stages : List Stage} {i : Nat} {x y : Stage}
    (h : stages[i]? = some x) :
    (stages.set i y).countP p + (p x).toNat = stages.countP p + (p y).toNat := by
  induction stages generalizing i with
  | nil => cases h
  | cons z stages ih =>
    cases i with
    | zero =>
      obtain rfl := Option.some.inj h
      rw [List.set_cons_zero, List.countP_cons, List.countP_cons]
      cases p z <;> cases p y <;> simp
    | succ i =>
      have hrest := ih h
      rw [List.set_cons_succ, List.countP_cons, List.countP_cons]
      omega

theorem armed_setTrigger {i : Nat} {x y : Stage} (h : run.triggers[i]? = some x) :
    (run.setTrigger i y).armed + x.isArmed.toNat = run.armed + y.isArmed.toNat := countP_set h

theorem armed_start (run : Run) (stage : Stage) :
    (run.start stage).armed = run.armed + stage.isArmed.toNat := by
  rw [Run.armed, Run.start, List.countP_append, List.countP_singleton]
  cases stage.isArmed <;> rfl

theorem becomes_of_ne {previous : Option ConnectionStatus} {next status : ConnectionStatus}
    (h : next ≠ status) : becomes previous next status = false := by
  simp [becomes, h]

/-- An event of an offline device starts nothing. -/
theorem onEvent_offline {type : SyncEventType} {connectionStatus : Option ConnectionStatus}
    (h : Action.IsOffline (.event type connectionStatus)) :
    (onEvent run shared type connectionStatus).1 = run := by
  unfold onEvent
  split
  · rfl
  · rename_i next hnext
    have hstatus : connectionStatus = some next := by
      unfold heard at hnext
      split at hnext
      · exact hnext
      · cases hnext
    have hconnected : next ≠ .connected := fun heq => h.1 (heq ▸ hstatus)
    have hmetered : next ≠ .metered := fun heq => h.2 (heq ▸ hstatus)
    refine if_neg ?_
    simp [reconnects, becomes_of_ne hconnected, becomes_of_ne hmetered]

/-- Offline, a call of `flush()` is paid for by the trigger that makes it. -/
theorem advance_spends (ha : a.IsOffline) (h : advance a run shared = some (run', shared')) :
    run'.flushes + run'.armed ≤ run.flushes + run.armed := by
  cases a with
  | subscription a =>
    obtain ⟨p, -, heq⟩ := Option.map_eq_some_iff.mp h
    cases heq
    exact Nat.le_refl _
  | tick =>
    obtain ⟨-, h⟩ := Option.ite_none_right_eq_some.mp h
    cases h
    exact Nat.add_le_add_left (Nat.le_of_eq (armed_start run .asksStatus)) _
  | appState active =>
    obtain ⟨-, h⟩ := Option.ite_none_right_eq_some.mp h
    cases h
    cases active with
    | true => exact Nat.add_le_add_left (Nat.le_of_eq (armed_start run .asksStatus)) _
    | false => exact Nat.le_refl _
  | event type connectionStatus =>
    obtain ⟨-, h⟩ := Option.ite_none_right_eq_some.mp h
    have hsame : run' = run :=
      (congrArg Prod.fst (Option.some.inj h)).symm.trans (onEvent_offline ha)
    exact hsame ▸ Nat.le_refl _
  | answerStatus i status =>
    obtain ⟨hi, h⟩ := Option.ite_none_right_eq_some.mp h
    cases h
    have harmed := armed_setTrigger (y := .toldStatus status) hi
    have hstatus : (Stage.toldStatus status).isArmed = false := by
      rcases ha with rfl | rfl <;> rfl
    rw [hstatus] at harmed
    exact Nat.add_le_add_left (Nat.le_of_eq harmed) _
  | landStatus i =>
    simp only [advance] at h
    split at h
    · rename_i hi
      cases h
      exact Nat.add_le_add_left (Nat.le_of_eq (armed_setTrigger (y := .over) hi)) _
    · rename_i hi
      cases h
      exact Nat.add_le_add_left (Nat.le_of_eq (armed_setTrigger (y := .over) hi)) _
    · rename_i status hnone hoffline hi
      cases h
      have harmed := armed_setTrigger (y := .asksSyncing) hi
      have hstatus : (Stage.toldStatus status).isArmed = true := by
        cases status with
        | none => exact absurd rfl hnone
        | some status => exact decide_eq_true fun heq => hoffline (heq ▸ rfl)
      rw [hstatus] at harmed
      exact Nat.add_le_add_left (Nat.le_of_eq (Nat.add_right_cancel harmed)) _
    · cases h
  | answerSyncing i inFlight =>
    obtain ⟨hi, h⟩ := Option.ite_none_right_eq_some.mp h
    cases h
    have harmed := armed_setTrigger (y := .toldSyncing inFlight) hi
    have hone : (Stage.toldSyncing inFlight).isArmed.toNat ≤ 1 := Bool.toNat_le _
    have hasks : Stage.asksSyncing.isArmed.toNat = 1 := rfl
    show run.flushes + _ ≤ _
    omega
  | landSyncing i =>
    simp only [advance] at h
    split at h
    · rename_i hi
      have harmed (y : Stage) := armed_setTrigger (y := y) hi
      split at h <;> cases h
      · have hover : _ + 1 = run.armed + 0 := harmed .over
        show run.flushes + _ ≤ _
        omega
      · have hflushing : _ + 1 = run.armed + 0 := harmed .flushing
        show run.flushes + 1 + (run.setTrigger i .flushing).armed ≤ _
        omega
    · rename_i inFlight hbusy hi
      cases h
      have harmed := armed_setTrigger (y := .over) hi
      exact Nat.add_le_add_left (Nat.le_trans (Nat.le_add_right _ _) (Nat.le_of_eq harmed)) _
    · cases h
  | settle i =>
    obtain ⟨hi, h⟩ := Option.ite_none_right_eq_some.mp h
    cases h
    exact Nat.add_le_add_left (Nat.le_of_eq (armed_setTrigger (y := .over) hi)) _

theorem spends : Effects.Spends effect (fun run => run.flushes + run.armed) Action.IsOffline where
  setup inputs shared run h := by
    obtain ⟨-, heq⟩ := Option.ite_none_right_eq_some.mp h
    cases heq
    rfl
  advance _ _ _ _ _ ha h := advance_spends ha h
  cleanup _ _ := Nat.le_refl _

/-- While the device is offline, whatever the timers, the app and the promises do: no trigger
flushes but those that had passed their question already, and they flush once. -/
theorem offline_flushes_le (hoffline : ∀ l ∈ ls, Effects.Within Action.IsOffline l)
    (hrun : exec step s ls = some s') : flushes s' ≤ flushes s + armed s := by
  have hweight := Effects.weight_exec spends hoffline hrun
  rw [Effects.weight_add, Effects.weight_add] at hweight
  exact Nat.le_trans (Nat.le_add_right _ _) hweight

/-! ## 2. Behind the cleanup -/

theorem hooks_cancelled {hook : Hooks.Hook} {a : Hooks.Action} {run run' : Hooks.Run}
    {listeners listeners' : Hooks.Listeners} (hrun : run.cancelled = true)
    (hafter : ∀ run, (hook.afterAwait run).1.cancelled = run.cancelled)
    (h : Hooks.advance hook a run listeners = some (run', listeners')) :
    run'.cancelled = true := by
  rcases Hooks.advance_cases h with ⟨id, -, -, -, rfl, -⟩ | ⟨-, -, rfl, -⟩ | ⟨-, -, -, heq⟩
  · exact hrun
  · exact hrun
  · have hrun' : run' = (hook.afterAwait (Hooks.assign run)).1 := congrArg Prod.fst heq
    rw [hrun', hafter, Hooks.assign_cancelled, hrun]

/-- A run that is cleaned up, with the number of its calls. -/
def Silent (n : Nat) (run : Run) : Prop := run.subscription.cancelled = true ∧ run.flushes = n

theorem onEvent_silent {n : Nat} (hS : Silent n run) (shared : Shared) (type : SyncEventType)
    (connectionStatus : Option ConnectionStatus) :
    Silent n (onEvent run shared type connectionStatus).1 := by
  unfold onEvent
  split
  · exact hS
  · show Silent n (if _ then run.start .asksSyncing else run)
    split <;> exact hS

theorem silent_advance {n : Nat} (hS : Silent n run)
    (h : advance a run shared = some (run', shared')) : Silent n run' := by
  cases a with
  | subscription a =>
    obtain ⟨p, hp, heq⟩ := Option.map_eq_some_iff.mp h
    cases heq
    exact ⟨hooks_cancelled hS.1 (fun _ => rfl) hp, hS.2⟩
  | tick | answerStatus | answerSyncing | settle =>
    obtain ⟨-, h⟩ := Option.ite_none_right_eq_some.mp h
    cases h
    exact hS
  | appState active =>
    obtain ⟨-, h⟩ := Option.ite_none_right_eq_some.mp h
    cases h
    split <;> exact hS
  | event type connectionStatus =>
    obtain ⟨-, h⟩ := Option.ite_none_right_eq_some.mp h
    have hrun' : (onEvent run shared type connectionStatus).1 = run' :=
      congrArg Prod.fst (Option.some.inj h)
    exact hrun' ▸ onEvent_silent hS shared type connectionStatus
  | landStatus i =>
    simp only [advance] at h
    split at h <;> cases h
    · exact hS
    · exact hS
    · exact hS
  | landSyncing i =>
    simp only [advance, hS.1, if_true] at h
    split at h <;> cases h
    · exact hS
    · exact hS

/-- A run whose cleanup is not to come is cleaned up. -/
theorem sound : Effects.Sound effect (fun _ _ _ => True) (fun _ _ => True)
    (fun b run _ => b = false → run.subscription.cancelled = true) fun _ _ => True where
  symm _ _ _ := trivial
  setup _ _ _ _ _ _ := ⟨trivial, fun _ h => h, fun _ _ => ⟨nofun, fun _ _ => trivial⟩⟩
  advance _ _ _ _ _ _ _ _ _ hP _ h :=
    ⟨trivial, fun hb => (silent_advance ⟨hP hb, rfl⟩ h).1, fun _ _ _ hP' _ => ⟨hP', trivial⟩⟩
  cleanup _ _ _ _ _ _ _ h := by
    refine ⟨trivial, fun _ => ?_, fun _ hP' _ => ⟨hP', trivial⟩⟩
    cases h
    rfl

/-- Behind its cleanup a run flushes no more, whatever its promises bring and although its
listener may still be called. -/
theorem cleaned_up_stays_silent {ls₀ : List Label} {k : Nat}
    (hreach : exec step initial ls₀ = some s) (hcurrent : s.current ≠ some k)
    (hk : s.runs[k]? = some run) (hrun : exec step s ls = some s') :
    ∃ run', s'.runs[k]? = some run' ∧ run'.flushes = run.flushes := by
  have hinv : Effects.Inv (fun _ _ => True)
      (fun b run (_ : Shared) => b = false → run.subscription.cancelled = true)
      (fun _ _ => True) s :=
    StepSystem.exec_invariant (fun hI hstep => hI.step sound (Effects.allowed_true _ _) hstep)
      (Effects.inv_initial trivial) hreach
  have hcancelled : run.subscription.cancelled = true := by
    refine hinv.each k run hk ?_
    simpa using hcurrent
  have hbehind : Effects.Behind (Silent run.flushes) k s :=
    ⟨hcurrent, run, hk, hcancelled, rfl⟩
  obtain ⟨-, run', hk', -, hflushes⟩ :=
    Effects.behind_cleanup hbehind (fun _ _ _ _ _ hS h => silent_advance hS h) hrun
  exact ⟨run', hk', hflushes⟩

section Sample

def enabled : Inputs := ⟨⟨some true, none, none, some true⟩, true⟩

/-- A tick is told that the device is connected. -/
def askedRun : List Label :=
  [.setup enabled, .advance 0 (.subscription (.fulfill "A")), .advance 0 .tick,
    .advance 0 (.answerStatus 0 (some .connected))]

/-- The answer lands when the device is offline, and the app comes to the foreground. -/
def offlineRun : List Label :=
  [.advance 0 (.event .connectionChanged (some .disconnected)), .advance 0 (.landStatus 0),
    .advance 0 (.appState true), .advance 0 (.answerSyncing 0 (some false)),
    .advance 0 (.answerStatus 1 (some .disconnected)), .advance 0 (.landSyncing 0),
    .advance 0 (.landStatus 1)]

theorem offline_flushes_le_of_stale_answer :
    ∃ s s', exec step initial askedRun = some s ∧ exec step s offlineRun = some s' ∧
      flushes s = 0 ∧ armed s = 1 ∧ flushes s' = 1 ∧ flushes s' ≤ flushes s + armed s := by
  obtain ⟨s, s', hs, hs', hnone, harmed, hone⟩ :
      ∃ s s', exec step initial askedRun = some s ∧ exec step s offlineRun = some s' ∧
        flushes s = 0 ∧ armed s = 1 ∧ flushes s' = 1 := ⟨_, _, rfl, rfl, rfl, rfl, rfl⟩
  have hoffline : ∀ l ∈ offlineRun, Effects.Within Action.IsOffline l := by
    simp only [offlineRun, List.forall_mem_cons]
    exact ⟨⟨nofun, nofun⟩, trivial, trivial, trivial, .inr rfl, trivial, trivial, nofun⟩
  exact ⟨s, s', hs, hs', hnone, harmed, hone, offline_flushes_le hoffline hs'⟩

/-- The cleanup comes before the answers. -/
def unmountRun : List Label :=
  askedRun ++ [.advance 0 (.landStatus 0), .advance 0 (.answerSyncing 0 (some false)), .cleanup]

/-- The listener, which nobody has removed, hears that the device is connected. -/
def lateRun : List Label :=
  [.advance 0 (.landSyncing 0), .advance 0 (.event .connectionChanged (some .connected)),
    .advance 0 (.answerSyncing 1 (some false)), .advance 0 (.landSyncing 1)]

theorem cleaned_up_stays_silent_when_heard :
    ∃ s s' run run', exec step initial unmountRun = some s ∧ s.runs[0]? = some run ∧
      exec step s lateRun = some s' ∧ s'.runs[0]? = some run' ∧ run'.triggers.length = 2 ∧
      run'.flushes = run.flushes := by
  obtain ⟨s, s', run, run', hs, hcurrent, hrun, hs', hrun', htriggers⟩ :
      ∃ s s' run run', exec step initial unmountRun = some s ∧ s.current ≠ some 0 ∧
        s.runs[0]? = some run ∧ exec step s lateRun = some s' ∧ s'.runs[0]? = some run' ∧
        run'.triggers.length = 2 := ⟨_, _, _, _, rfl, nofun, rfl, rfl, rfl, rfl⟩
  obtain ⟨run'', hrun'', hflushes⟩ := cleaned_up_stays_silent hs hcurrent hrun hs'
  obtain rfl := Option.some.inj (hrun'.symm.trans hrun'')
  exact ⟨s, s', run, run', hs, hrun, hs', hrun', htriggers, hflushes⟩

end Sample

end SyncProvider.Js.AutoSync
