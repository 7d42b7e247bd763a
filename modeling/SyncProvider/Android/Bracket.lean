import SyncProvider.Android.Attempts

/-!
# Android: the bracket of a cycle

`SyncEventEmitter.emit` first takes a snapshot of the listeners under its mutex
and then calls each of them on `Dispatchers.Main`. A cancelled coroutine may
throw before the snapshot, between the two, and when it comes back from the main
thread. `runCycle` notes its terminal event as sent before it emits it.

Results:
1. `Engine.step_beside` : what the other callers can do to a running cycle.
2. `Emitter.step_cases` : which steps reach the listeners.
3. `Cycle.announced_step`, `Cycle.returned_step` : what one step of a cycle adds
   to its bracket and to its duties.
4. `cycle_bracketed_iff` : a listener that got `SYNC_STARTED` gets one terminal
   event exactly when the cycle does not throw between noting its terminal event
   as sent and delivering it.
5. `terminal_event_lost` : a run in which it does.
-/

namespace SyncProvider.Android

/-! ## 1. Beside a running cycle -/

namespace Engine

variable {accepts : HttpRequest → Bool} {e e' : Engine}

/-- A step that is none of the cycle `c` of caller `t`. The rows stay, go, or
are new. -/
structure Beside (t : Nat) (c : Cycle) (l : Label) (e e' : Engine) : Prop where
  state : (e'.calls t).state = .cycle c
  label : ∀ u ev, l ≠ .cycle u ev
  begins : ∀ u now, l ≠ .begin u now
  rows : ∀ r ∈ e'.world.table.rows, r ∈ e.world.table.rows ∨ r.id ∉ e.world.issued
  requests : e'.world.requests = e.world.requests
  events : e'.world.events = e.world.events
  syncing : e'.world.syncing = e.world.syncing
  wakes : e'.world.wakes = e.world.wakes

/-- The others wait for the mutex, change the configuration, or work on the
queue. -/
theorem step_beside {t : Nat} {c : Cycle} {l : Label} (hE : Exclusive e)
    (hc : (e.calls t).state = .cycle c) (hl : ∀ ev, l ≠ .cycle t ev) (hu : l ≠ .unlock t)
    (h : e.step accepts l = some e') : Beside t c l e e' := by
  have hholds : (e.calls t).holdsMutex = true := by simp [Call.holdsMutex, hc]
  -- a caller inside the block is `t`
  have only {u : Nat} {state : CallState} (hs : (e.calls u).state = state)
      (hin : Call.holdsMutex ⟨state, false⟩ = true) : state = .cycle c := by
    have hut : u = t := hE.eq (by unfold Call.holdsMutex at hin ⊢; rw [hs]; exact hin) hholds
    rw [← hs, hut, hc]
  have moved {u : Nat} {call : Call} (hcall : u = t → call.state = .cycle c) :
      (Function.update e.calls u call t).state = .cycle c := by
    by_cases h : t = u
    · subst h
      rw [Function.update_self]
      exact hcall rfl
    · rw [Function.update_of_ne h]
      exact hc
  have waits {u : Nat} {state : CallState} (hs : (e.calls u).state = state)
      (hne : state ≠ .cycle c) : u ≠ t := by
    rintro rfl
    exact hne (hs.symm.trans hc)
  cases l with
  | enqueue items =>
    obtain ⟨table, hnew, hrows, rfl⟩ := Engine.step_enqueue h
    refine ⟨hc, by simp, by simp, fun r hr => ?_, rfl, rfl, rfl, rfl⟩
    change r ∈ table.rows at hr
    rw [hrows, List.mem_append] at hr
    refine hr.imp_right fun hr => ?_
    obtain ⟨item, hitem, rfl⟩ := List.mem_map.mp hr
    have hid : item.id ∉ e.world.issued := hnew item hitem
    exact hid
  | remove call =>
    cases h
    refine ⟨hc, by simp, by simp, fun r hr => .inl ?_, rfl, rfl, rfl, rfl⟩
    cases call with
    | removeItem id => exact (KeyedTable.mem_deleteWhere.mp hr).1
    | clear => cases hr
  | configure options credentials =>
    cases h
    exact ⟨hc, by simp, by simp, fun r hr => .inl hr, rfl, rfl, rfl, rfl⟩
  | setPaused paused =>
    cases h
    exact ⟨hc, by simp, by simp, fun r hr => .inl hr, rfl, rfl, rfl, rfl⟩
  | cancel u =>
    cases h
    refine ⟨moved ?_, by simp, by simp, fun r hr => .inl hr, rfl, rfl, rfl, rfl⟩
    rintro rfl
    exact hc
  | giveUp u =>
    simp only [step, Option.ite_none_right_eq_some] at h
    obtain ⟨-, h⟩ := h
    split at h
    · rename_i hs
      cases h
      exact ⟨moved fun hut => absurd hut (waits hs (by simp)), by simp, by simp,
        fun r hr => .inl hr, rfl, rfl, rfl, rfl⟩
    · rename_i hs
      cases only hs rfl
    · cases h
  | call u op =>
    simp only [step] at h
    split at h
    · rename_i hs
      cases h
      exact ⟨moved fun hut => absurd hut (waits hs (by simp)), by simp, by simp,
        fun r hr => .inl hr, rfl, rfl, rfl, rfl⟩
    · cases h
  | lock u =>
    simp only [step] at h
    split at h
    · rename_i hs hfree
      rw [hE t hholds] at hfree
      cases hfree
    · cases h
  | checkPaused u | readCredentials u | begin u now | reset u =>
    simp only [step] at h
    split at h
    · rename_i hs
      cases only hs rfl
    · cases h
  | cycle u ev =>
    simp only [step] at h
    split at h
    · rename_i hs
      have hut : u = t := hE.eq (by simp [Call.holdsMutex, hs]) hholds
      exact absurd (by rw [hut]) (hl ev)
    · cases h
  | unlock u =>
    simp only [step] at h
    split at h
    · rename_i hs
      cases only hs rfl
    · rename_i hs
      have hut : u = t := hE.eq (by simp [Call.holdsMutex, hs]) hholds
      exact absurd (by rw [hut]) hu
    · cases h

theorem state_setState (e : Engine) (t : Nat) (state : CallState) :
    ((e.setState t state).calls t).state = state := by
  simp only [setState, setCall, Function.update_self]

end Engine

/-! ## 2. The listeners -/

namespace SyncEvent

def started : SyncEvent where
  type := .SYNC_STARTED

def isTerminal (event : SyncEvent) : Bool :=
  event.type == .SYNC_SUCCEEDED || event.type == .SYNC_FAILED

end SyncEvent

/-- The steps of a cycle in which it emits an event about itself. -/
def CycleEvent.delivers : CycleEvent → Bool
  | .emitStarted | .emitTerminal | .emitFailed => true
  | _ => false

/-- The dispatcher with its `SyncEventEmitter`. -/
structure Emitter where
  engine : Engine
  /-- The subscription ids. -/
  listeners : List Nat
  /-- The snapshot a caller has taken for the event it is about to deliver. -/
  snapshot : Nat → Option (List Nat)
  /-- The events about cycles that each listener was called with. -/
  received : Nat → List SyncEvent

namespace Emitter

inductive Label where
  | engine (l : Android.Label)
  | add (id : Nat)
  | remove (id : Nat)
  | clear
  /-- `emit` reads the listeners under its mutex. -/
  | snapshot (t : Nat)
  deriving DecidableEq

/-- The cycle is inside the `emit` of an event about itself. -/
def emitting : CyclePhase → Bool
  | .starting | .reporting _ _ | .failing _ _ => true
  | _ => false

/-- The listeners of the snapshot are called, in one go on the main thread. -/
def deliver (s : Emitter) (t : Nat) (ids : List Nat) (e : Engine) : Emitter :=
  { s with
    engine := e
    snapshot := Function.update s.snapshot t none
    received := fun id =>
      if ids.contains id then
        s.received id ++ e.world.events.drop s.engine.world.events.length
      else s.received id }

/-- What becomes of the snapshots and the listeners when the engine steps to
`e`. A cycle delivers only what it has taken a snapshot for, and loses the
snapshot when it throws. -/
def after (s : Emitter) (e : Engine) : Android.Label → Option Emitter
  | .begin t _ => some { s with engine := e, snapshot := Function.update s.snapshot t none }
  | .cycle t ev =>
    if ev.delivers then (s.snapshot t).map fun ids => s.deliver t ids e
    else some { s with engine := e, snapshot := Function.update s.snapshot t none }
  | _ => some { s with engine := e }

def step (accepts : HttpRequest → Bool) (s : Emitter) : Label → Option Emitter
  | .engine l => (s.engine.step accepts l).bind fun e => s.after e l
  | .add id =>
    -- a random id is a new one
    if s.listeners.contains id then none else some { s with listeners := s.listeners ++ [id] }
  | .remove id => some { s with listeners := s.listeners.filter (· != id) }
  | .clear => some { s with listeners := [] }
  | .snapshot t =>
    match (s.engine.calls t).state with
    | .cycle c =>
      if emitting c.phase then
        some { s with snapshot := Function.update s.snapshot t (some s.listeners) }
      else none
    | _ => none

variable {accepts : HttpRequest → Bool} {s s' : Emitter}

/-- The steps while the cycle `c` of caller `t` runs. -/
inductive Moves (accepts : HttpRequest → Bool) (s : Emitter) (t : Nat) (c : Cycle) :
    Label → Emitter → Prop where
  | beside {l : Android.Label} {e : Engine} (h : Engine.Beside t c l s.engine e) :
    Moves accepts s t c (.engine l) { s with engine := e }
  | deliver {ev : CycleEvent} {w : World} {phase : CyclePhase} {ids : List Nat}
      (hev : ev.delivers = true) (hids : s.snapshot t = some ids)
      (h : Cycle.Moves accepts s.engine.options (s.engine.calls t).cancelled s.engine.world c ev w
        phase) :
    Moves accepts s t c (.engine (.cycle t ev)) (s.deliver t ids
      { s.engine.setState t (.cycle { c with phase := phase }) with world := w })
  | cycle {ev : CycleEvent} {w : World} {phase : CyclePhase} (hev : ev.delivers = false)
      (h : Cycle.Moves accepts s.engine.options (s.engine.calls t).cancelled s.engine.world c ev w
        phase) :
    Moves accepts s t c (.engine (.cycle t ev))
      { s with
        engine := { s.engine.setState t (.cycle { c with phase := phase }) with world := w }
        snapshot := Function.update s.snapshot t none }
  | add (id : Nat) : Moves accepts s t c (.add id) { s with listeners := s.listeners ++ [id] }
  | remove (id : Nat) :
    Moves accepts s t c (.remove id) { s with listeners := s.listeners.filter (· != id) }
  | clear : Moves accepts s t c .clear { s with listeners := [] }
  | snapshot (u : Nat) :
    Moves accepts s t c (.snapshot u)
      { s with snapshot := Function.update s.snapshot u (some s.listeners) }

theorem step_cases {t : Nat} {c : Cycle} {l : Label} (hE : Engine.Exclusive s.engine)
    (hc : (s.engine.calls t).state = .cycle c) (hu : l ≠ .engine (.unlock t))
    (h : s.step accepts l = some s') : Moves accepts s t c l s' := by
  cases l with
  | engine l =>
    obtain ⟨e, he, h⟩ := Option.bind_eq_some_iff.mp h
    by_cases hl : ∃ ev, l = .cycle t ev
    · obtain ⟨ev, rfl⟩ := hl
      obtain ⟨c₁, w, c', hc₁, hstep, rfl⟩ := Engine.step_cycle he
      obtain rfl : c = c₁ := by
        rw [hc] at hc₁
        cases hc₁
        rfl
      obtain ⟨phase, rfl, hmoves⟩ := Cycle.step_moves hstep
      cases hev : ev.delivers with
      | true =>
        simp only [after, hev, if_true, Option.map_eq_some_iff] at h
        obtain ⟨ids, hids, rfl⟩ := h
        exact .deliver hev hids hmoves
      | false =>
        simp only [after, hev, Bool.false_eq_true, if_false] at h
        cases h
        exact .cycle hev hmoves
    · have hbeside := Engine.step_beside hE hc (fun ev heq => hl ⟨ev, heq⟩) (by simpa using hu) he
      have hafter : s' = { s with engine := e } := by
        cases l with
        | begin u now => exact absurd rfl (hbeside.begins u now)
        | cycle u ev => exact absurd rfl (hbeside.label u ev)
        | _ =>
          cases h
          rfl
      rw [hafter]
      exact .beside hbeside
  | add id =>
    simp only [step, Option.ite_none_left_eq_some] at h
    obtain ⟨-, h⟩ := h
    cases h
    exact .add id
  | remove id =>
    cases h
    exact .remove id
  | clear =>
    cases h
    exact .clear
  | snapshot u =>
    simp only [step] at h
    split at h
    · split at h <;> cases h
      exact .snapshot u
    · cases h

end Emitter

/-! ## 3. What one step adds to the bracket -/

/-- A listener that has heard of the start has also heard of the end, unless it
was lost. -/
def Closed (since : List SyncEvent) (lost : List Unit) : Prop :=
  (lost = [] ∧ (.started ∈ since →
    ∃ terminal : SyncEvent, terminal.isTerminal = true ∧ since = [.started, terminal])) ∨
  (lost ≠ [] ∧ (since = [] ∨ since = [.started]))

/-- What a listener has heard of the cycle so far, by its phase. -/
def CyclePhase.Announced (phase : CyclePhase) (since : List SyncEvent) (lost : List Unit) : Prop :=
  match phase with
  | .starting => since = [] ∧ lost = []
  | .reported _ | .aborting _ true _ | .finishing _ | .finished => Closed since lost
  | _ => (since = [] ∨ since = [.started]) ∧ lost = []

/-- What the cycle has done for its dispatcher so far. -/
def CyclePhase.Returned (phase : CyclePhase) (w : World) (wakes : List (Option Int)) : Prop :=
  match phase with
  | .finishing _ => w.syncing = false ∧ w.wakes = wakes
  | .finished => w.syncing = false ∧ ∃ notBefore, w.wakes = wakes ++ [notBefore]
  | _ => w.wakes = wakes

theorem CyclePhase.Returned.congr {phase : CyclePhase} {w w' : World} {wakes : List (Option Int)}
    (h : phase.Returned w wakes) (hsyncing : w'.syncing = w.syncing) (hwakes : w'.wakes = w.wakes) :
    phase.Returned w' wakes := by
  unfold Returned at h ⊢
  rw [hsyncing, hwakes]
  exact h

namespace Cycle

variable {accepts : HttpRequest → Bool} {live : SyncOptions} {cancelled : Bool} {w w' : World}
  {c : Cycle} {ev : CycleEvent} {phase : CyclePhase}

/-- The step throws away a terminal event that is noted as sent. -/
def loses (c : Cycle) (ev : CycleEvent) : List Unit :=
  match ev, c.phase with
  | .throw, .reporting _ _ => [()]
  | _, _ => []

theorem closed_of_unstarted {since : List SyncEvent} (h : .started ∉ since) : Closed since [] :=
  .inl ⟨rfl, fun hs => absurd hs h⟩

theorem terminalEvent_isTerminal (result : SyncResult) :
    (terminalEvent result).isTerminal = true := by
  unfold terminalEvent SyncEvent.isTerminal
  split <;> rfl

/-- A terminal event closes whatever was heard before. -/
theorem closed_of_terminal {since : List SyncEvent} (h : since = [] ∨ since = [.started])
    {terminal : SyncEvent} (hterminal : terminal.isTerminal = true) :
    Closed (since ++ [terminal]) [] := by
  refine .inl ⟨rfl, fun hstarted => ⟨terminal, hterminal, ?_⟩⟩
  rcases h with rfl | rfl
  · rw [List.nil_append, List.mem_singleton] at hstarted
    subst hstarted
    cases hterminal
  · rfl

/-- An event about the cycle, heard or not. A listener that has heard of the
start hears every later one. -/
theorem announced_delivers {since : List SyncEvent} {lost : List Unit}
    (hA : c.phase.Announced since lost) (hev : ev.delivers = true)
    (h : Moves accepts live cancelled w c ev w' phase) :
    ∃ event, w'.events = w.events ++ [event] ∧ c.loses ev = [] ∧
      phase.Announced (since ++ [event]) lost ∧
      (.started ∉ since → phase.Announced since lost) := by
  cases h with
  | emitStarted hphase =>
    rw [hphase] at hA
    obtain ⟨rfl, rfl⟩ := hA
    exact ⟨_, rfl, rfl, ⟨.inr rfl, rfl⟩, fun _ => ⟨.inl rfl, rfl⟩⟩
  | emitTerminal hphase =>
    rw [hphase] at hA
    obtain ⟨hsince, rfl⟩ := hA
    exact ⟨_, rfl, rfl, closed_of_terminal hsince (terminalEvent_isTerminal _),
      closed_of_unstarted⟩
  | emitFailed hphase =>
    rw [hphase] at hA
    obtain ⟨hsince, rfl⟩ := hA
    exact ⟨_, rfl, rfl, closed_of_terminal hsince rfl, closed_of_unstarted⟩
  | _ => cases hev

/-- A step that announces nothing. -/
theorem announced_step {since : List SyncEvent} {lost : List Unit}
    (hA : c.phase.Announced since lost) (hev : ev.delivers = false)
    (h : Moves accepts live cancelled w c ev w' phase) :
    phase.Announced since (lost ++ c.loses ev) := by
  have same {p : CyclePhase} (hphase : c.phase = p)
      (hnone : loses { c with phase := p } ev = []) : lost ++ c.loses ev = lost := by
    rw [← hphase] at hnone
    rw [show c.loses ev = [] from hnone, List.append_nil]
  cases h with
  | emitStarted | emitTerminal | emitFailed => cases hev
  | throw hcancelled hthrown =>
    cases thrown_spec hthrown with
    | reporting hphase =>
      -- the terminal event is noted as sent, and it is not
      rw [hphase] at hA
      obtain ⟨hsince, rfl⟩ := hA
      have hloses : c.loses .throw = [()] := by simp only [loses, hphase]
      rw [hloses]
      exact .inr ⟨by simp, hsince⟩
    | starting hphase =>
      rw [same hphase rfl]
      rw [hphase] at hA
      exact ⟨.inl hA.1, hA.2⟩
    | claiming hphase | claimed hphase | dispatching hphase | releasing hphase
    | recording hphase | recorded hphase | reported hphase =>
      rw [same hphase rfl]
      rw [hphase] at hA
      exact hA
  | raise hstorage hthrown =>
    cases thrown_spec hthrown with
    | claiming hphase | releasing hphase | recording hphase =>
      rw [same hphase rfl]
      rw [hphase] at hA
      exact hA
    | starting hphase | claimed hphase | dispatching hphase | recorded hphase
    | reporting hphase | reported hphase =>
      rw [hphase] at hstorage
      cases hstorage
  | claim hphase | resumeEmpty hphase | resumeClaimed hphase | dispatch hphase
  | probeRejected hphase | probePassed hphase | release hphase | join hphase | record hphase
  | resumeRecorded hphase | resumeReported hphase | abortReported hphase | abort hphase
  | finish hphase =>
    rw [same hphase rfl]
    rw [hphase] at hA
    exact hA

theorem returned_step {wakes : List (Option Int)} (hR : c.phase.Returned w wakes)
    (h : Moves accepts live cancelled w c ev w' phase) : phase.Returned w' wakes := by
  have thrown_wakes {cause : AbortCause} (ht : thrown cause c.phase = some phase) :
      phase.Returned w wakes := by
    cases thrown_spec ht with
    | starting hphase | claiming hphase | claimed hphase | dispatching hphase
    | releasing hphase | recording hphase | recorded hphase | reporting hphase
    | reported hphase =>
      rw [hphase] at hR
      exact hR
  have reset {cause : AbortCause} :
      (if cause = .cancelled then w.resetInFlight else w).wakes = w.wakes := by
    split <;> rfl
  cases h with
  | throw hcancelled hthrown => exact thrown_wakes hthrown
  | raise hstorage hthrown => exact thrown_wakes hthrown
  | dispatch hphase hstart hi hstep =>
    rw [hphase] at hR
    exact (Dispatch.wakes_step hstep).trans hR
  | abortReported hphase =>
    rw [hphase] at hR
    exact ⟨rfl, reset.trans hR⟩
  | abort hphase =>
    rw [hphase] at hR
    exact reset.trans hR
  | resumeReported hphase | emitFailed hphase =>
    rw [hphase] at hR
    exact ⟨rfl, hR⟩
  | finish hphase =>
    rw [hphase] at hR
    exact ⟨hR.1, _, by rw [hR.2]⟩
  | emitStarted hphase | claim hphase | resumeEmpty hphase | resumeClaimed hphase
  | probeRejected hphase | probePassed hphase | release hphase | join hphase | record hphase
  | resumeRecorded hphase | emitTerminal hphase =>
    rw [hphase] at hR
    exact hR

end Cycle

namespace Emitter

variable {accepts : HttpRequest → Bool} {s s' : Emitter}

/-! ## 4. The bracket over a run -/

/-- The cycle of caller `t` runs, and owes the dispatcher what its phase says. -/
structure Running (t : Nat) (wakes : List (Option Int)) (s : Emitter) : Prop where
  exclusive : Engine.Exclusive s.engine
  cycle : ∃ c, (s.engine.calls t).state = .cycle c ∧ c.phase.Returned s.engine.world wakes

/-- What listener `id` has heard since the `log`. -/
structure Heard (id t : Nat) (log since : List SyncEvent) (s : Emitter) : Prop where
  received : s.received id = log ++ since
  listening : .started ∈ since → id ∈ s.listeners
  taken : ∀ ids, s.snapshot t = some ids →
    (id ∈ ids → id ∈ s.listeners) ∧ (.started ∈ since → id ∈ ids)

/-- The bracket of the cycle of caller `t` as listener `id` sees it. -/
structure Follows (id t : Nat) (log : List SyncEvent) (p : Emitter × List Unit) : Prop where
  exclusive : Engine.Exclusive p.1.engine
  cycle : ∃ c since, (p.1.engine.calls t).state = .cycle c ∧ Heard id t log since p.1 ∧
    c.phase.Announced since p.2

theorem exclusive_step {l : Label} (hE : Engine.Exclusive s.engine)
    (h : s.step accepts l = some s') : Engine.Exclusive s'.engine := by
  cases l with
  | engine l =>
    obtain ⟨e, he, hafter⟩ := Option.bind_eq_some_iff.mp h
    have heq : s'.engine = e := by
      cases l with
      | cycle t ev =>
        simp only [after] at hafter
        split at hafter
        · obtain ⟨ids, -, rfl⟩ := Option.map_eq_some_iff.mp hafter
          rfl
        · cases hafter
          rfl
      | _ =>
        cases hafter
        rfl
    rw [heq]
    exact hE.step he
  | add id =>
    simp only [step, Option.ite_none_left_eq_some] at h
    obtain ⟨-, h⟩ := h
    cases h
    exact hE
  | remove id =>
    cases h
    exact hE
  | clear =>
    cases h
    exact hE
  | snapshot u =>
    simp only [step] at h
    split at h
    · split at h <;> cases h
      exact hE
    · cases h

theorem Running.step {t : Nat} {wakes : List (Option Int)} {l : Label} (hR : Running t wakes s)
    (hu : l ≠ .engine (.unlock t)) (h : s.step accepts l = some s') : Running t wakes s' := by
  obtain ⟨c, hc, hreturned⟩ := hR.cycle
  refine ⟨exclusive_step hR.exclusive h, ?_⟩
  cases step_cases hR.exclusive hc hu h with
  | beside hbeside => exact ⟨c, hbeside.state, hreturned.congr hbeside.syncing hbeside.wakes⟩
  | deliver hev hids hmoves | cycle hev hmoves =>
    exact ⟨_, Engine.state_setState .., Cycle.returned_step hreturned hmoves⟩
  | add | remove | clear | snapshot => exact ⟨c, hc, hreturned⟩

namespace Heard

variable {id t : Nat} {log since : List SyncEvent}

/-- A listener of the snapshot hears the event. -/
theorem deliver (hH : Heard id t log since s) {ids : List Nat} (hids : s.snapshot t = some ids)
    {e : Engine} {event : SyncEvent}
    (hevents : e.world.events = s.engine.world.events ++ [event]) (hid : id ∈ ids) :
    Heard id t log (since ++ [event]) (s.deliver t ids e) where
  received := by
    simp only [Emitter.deliver, List.contains_eq_mem, hid, decide_true, if_true, hevents,
      List.drop_left, hH.received, List.append_assoc]
  listening _ := (hH.taken ids hids).1 hid
  taken xs hxs := by
    simp only [Emitter.deliver, Function.update_self] at hxs
    cases hxs

/-- The others do not, and they have not heard of the start. -/
theorem miss (hH : Heard id t log since s) {ids : List Nat} (hids : s.snapshot t = some ids)
    {e : Engine} (hid : id ∉ ids) :
    .started ∉ since ∧ Heard id t log since (s.deliver t ids e) := by
  have hunstarted : .started ∉ since := fun hs => hid ((hH.taken ids hids).2 hs)
  refine ⟨hunstarted, ?_, fun hs => absurd hs hunstarted, fun xs hxs => ?_⟩
  · simp only [Emitter.deliver, List.contains_eq_mem, hid, decide_false, Bool.false_eq_true,
      if_false, hH.received]
  · simp only [Emitter.deliver, Function.update_self] at hxs
    cases hxs

/-- A listener that stays is not taken out of the snapshot of a caller. -/
theorem congr (hH : Heard id t log since s) (hreceived : s'.received id = s.received id)
    (hlisteners : id ∈ s.listeners → id ∈ s'.listeners)
    (hsnapshot : ∀ ids, s'.snapshot t = some ids → s.snapshot t = some ids ∨ ids = s.listeners) :
    Heard id t log since s' where
  received := hreceived.trans hH.received
  listening hs := hlisteners (hH.listening hs)
  taken ids hids := by
    rcases hsnapshot ids hids with hids | rfl
    · exact ⟨fun h => hlisteners ((hH.taken ids hids).1 h), (hH.taken ids hids).2⟩
    · exact ⟨hlisteners, hH.listening⟩

end Heard

/-- The listener stays, and the call goes on. -/
def Label.keeps (id t : Nat) (l : Label) : Prop :=
  l ≠ .remove id ∧ l ≠ .clear ∧ l ≠ .engine (.unlock t)

/-- The terminal event of caller `t` that this step throws away. -/
def loses (t : Nat) (s : Emitter) : Label → List Unit
  | .engine (.cycle u ev) =>
    if u = t then
      match (s.engine.calls t).state with
      | .cycle c => c.loses ev
      | _ => []
    else []
  | _ => []

theorem Follows.step {id t : Nat} {log : List SyncEvent} {p p' : Emitter × List Unit} {l : Label}
    (hF : Follows id t log p) (hl : l.keeps id t)
    (h : StepSystem.recorded (Emitter.step accepts) (loses t) p l = some p') :
    Follows id t log p' := by
  obtain ⟨s, lost⟩ := p
  obtain ⟨s', lost'⟩ := p'
  obtain ⟨hstep, hlost⟩ := StepSystem.recorded_eq_some.mp h
  change lost' = lost ++ loses t s l at hlost
  subst hlost
  obtain ⟨c, since, hc, hH, hA⟩ := hF.cycle
  change (s.engine.calls t).state = .cycle c at hc
  change Heard id t log since s at hH
  change c.phase.Announced since lost at hA
  obtain ⟨hremove, hclear, hunlock⟩ := hl
  refine ⟨exclusive_step hF.exclusive hstep, ?_⟩
  cases step_cases hF.exclusive hc hunlock hstep with
  | @beside l e hbeside =>
    have hnone : loses t s (.engine l) = [] := by
      cases l with
      | cycle u ev => exact absurd rfl (hbeside.label u ev)
      | _ => rfl
    rw [hnone, List.append_nil]
    exact ⟨c, since, hbeside.state, hH.congr rfl (fun h => h) fun ids hids => .inl hids, hA⟩
  | @deliver ev w phase ids hev hids hmoves =>
    obtain ⟨event, hevents, hnone, hheard, hmissed⟩ := Cycle.announced_delivers hA hev hmoves
    have hloses : loses t s (.engine (.cycle t ev)) = [] := by
      simp only [loses, if_true, hc, hnone]
    rw [hloses, List.append_nil]
    by_cases hid : id ∈ ids
    · exact ⟨_, _, Engine.state_setState .., hH.deliver hids hevents hid, hheard⟩
    · obtain ⟨hunstarted, hH'⟩ := hH.miss hids hid
      exact ⟨_, _, Engine.state_setState .., hH', hmissed hunstarted⟩
  | @cycle ev w phase hev hmoves =>
    have hloses : loses t s (.engine (.cycle t ev)) = c.loses ev := by
      simp only [loses, if_true, hc]
    rw [hloses]
    refine ⟨_, since, Engine.state_setState .., hH.congr rfl (fun h => h) fun ids hids => ?_,
      Cycle.announced_step hA hev hmoves⟩
    simp only [Function.update_self] at hids
    cases hids
  | add x =>
    rw [show loses t s (.add x) = [] from rfl, List.append_nil]
    exact ⟨c, since, hc, hH.congr rfl (List.mem_append_left _) fun ids hids => .inl hids, hA⟩
  | remove x =>
    rw [show loses t s (.remove x) = [] from rfl, List.append_nil]
    refine ⟨c, since, hc, hH.congr rfl (fun hid => ?_) fun ids hids => .inl hids, hA⟩
    refine List.mem_filter.mpr ⟨hid, ?_⟩
    have hne : id ≠ x := fun heq => hremove (by rw [heq])
    simpa using hne
  | clear => exact absurd rfl hclear
  | snapshot u =>
    rw [show loses t s (.snapshot u) = [] from rfl, List.append_nil]
    refine ⟨c, since, hc, hH.congr rfl (fun h => h) fun ids hids => ?_, hA⟩
    by_cases hu : t = u
    · subst hu
      simp only [Function.update_self, Option.some.injEq] at hids
      exact .inr hids.symm
    · simp only [Function.update_of_ne hu] at hids
      exact .inl hids

/-- The step is not the cancellation of the terminal `emit` of caller `t` before
its delivery. -/
def DeliversEnd (t : Nat) (s : Emitter) (l : Label) : Prop :=
  l = .engine (.cycle t .throw) → ∀ c result notBefore, (s.engine.calls t).state = .cycle c →
    c.phase ≠ .reporting result notBefore

theorem deliversEnd_iff (t : Nat) (s : Emitter) (l : Label) :
    DeliversEnd t s l ↔ ∀ x ∈ s.loses t l, False := by
  rw [show (∀ x ∈ s.loses t l, False) ↔ s.loses t l = [] from
    List.eq_nil_iff_forall_not_mem.symm]
  unfold DeliversEnd
  cases l with
  | engine l =>
    cases l with
    | cycle u ev =>
      by_cases hu : u = t
      · subst hu
        simp only [loses, if_true]
        cases hs : (s.engine.calls u).state with
        | cycle c =>
          cases ev with
          | throw =>
            constructor
            · intro h
              cases hphase : c.phase with
              | reporting result notBefore => exact absurd hphase (h rfl c result notBefore rfl)
              | _ => simp only [Cycle.loses, hphase]
            · intro h _ c₁ result notBefore heq hphase
              cases heq
              simp [Cycle.loses, hphase] at h
          | _ => simp [Cycle.loses]
        | _ => simp
      · simp [loses, hu]
    | _ => simp [loses]
  | _ => simp [loses]

/-- A listener that knows of the start has one terminal event, unless it was
thrown away. -/
theorem one_terminal_iff {since : List SyncEvent} {lost : List Unit} (h : Closed since lost)
    (hstarted : .started ∈ since) : (since.filter SyncEvent.isTerminal).length = 1 ↔ lost = [] := by
  rcases h with ⟨rfl, hclosed⟩ | ⟨hlost, hsince⟩
  · obtain ⟨terminal, hterminal, rfl⟩ := hclosed hstarted
    have hopen : SyncEvent.started.isTerminal = false := rfl
    simp [hopen, hterminal]
  · rcases hsince with rfl | rfl
    · cases hstarted
    · have hopen : SyncEvent.started.isTerminal = false := rfl
      simp [hopen, hlost]

/-- In every run of a process, for a cycle that begins and is over, however it
ended and whatever the other callers and the listeners did meanwhile: `syncing`
is false and `onCycleFinished` was called once. A listener that stays and got
the `SYNC_STARTED` of the cycle got exactly one terminal event since, if and
only if the cycle was not cancelled out of its terminal `emit` before the
delivery. -/
theorem cycle_bracketed_iff {s₀ s₁ s₂ : Emitter} {ls₀ ls : List Label} {t : Nat} {now : Int}
    {c : Cycle} (h : s₀.engine.Boot) (h₀ : StepSystem.exec (step accepts) s₀ ls₀ = some s)
    (hbegin : s.step accepts (.engine (.begin t now)) = some s₁)
    (hrun : StepSystem.exec (step accepts) s₁ ls = some s₂)
    (hunlock : .engine (.unlock t) ∉ ls) (hc : (s₂.engine.calls t).state = .cycle c)
    (hfinished : c.phase = .finished) :
    s₂.engine.world.syncing = false ∧
    (∃ notBefore, s₂.engine.world.wakes = s.engine.world.wakes ++ [notBefore]) ∧
    ∀ id, .remove id ∉ ls → .clear ∉ ls →
      ∃ since, s₂.received id = s.received id ++ since ∧
        (.started ∈ since →
          ((since.filter SyncEvent.isTerminal).length = 1 ↔
            StepSystem.Meets (step accepts) (DeliversEnd t) s₁ ls)) := by
  have hE : Engine.Exclusive s.engine :=
    StepSystem.exec_invariant exclusive_step h.inv.exclusive h₀
  have hE₁ := exclusive_step hE hbegin
  obtain ⟨e₁, he₁, hafter⟩ := Option.bind_eq_some_iff.mp hbegin
  cases hafter
  obtain ⟨c₁, hc₁, hphase₁, hwakes₁⟩ : ∃ c₁, (e₁.calls t).state = .cycle c₁ ∧
      c₁.phase = .starting ∧ e₁.world.wakes = s.engine.world.wakes := by
    simp only [Engine.step] at he₁
    split at he₁ <;> cases he₁
    exact ⟨_, Engine.state_setState .., rfl, rfl⟩
  have hsteps {P : Label → Prop} (hP : ∀ l ∈ ls, P l) : StepSystem.Meets (step accepts)
      (fun _ l => P l) { s with engine := e₁, snapshot := Function.update s.snapshot t none } ls :=
    StepSystem.meets_of_forall hP
  have hother {l l' : Label} (hl : l ∈ ls) (hl' : l' ∉ ls) : l ≠ l' := fun heq => hl' (heq ▸ hl)
  have hend : Running t s.engine.world.wakes s₂ := by
    refine StepSystem.exec_invariant_of_meets (fun hR hl hs => hR.step hl hs) ?_
      (hsteps fun l hl => hother hl hunlock) hrun
    refine ⟨hE₁, c₁, hc₁, ?_⟩
    rw [hphase₁]
    exact hwakes₁
  obtain ⟨c', hc', hreturned⟩ := hend.cycle
  obtain rfl : c = c' := by
    rw [hc] at hc'
    cases hc'
    rfl
  rw [hfinished] at hreturned
  refine ⟨hreturned.1, hreturned.2, fun id hremove hclear => ?_⟩
  obtain ⟨lost, hlost⟩ := StepSystem.exec_recorded_of_exec (loses t) [] hrun
  have hfollows : Follows id t (s.received id) (s₂, lost) := by
    refine StepSystem.exec_invariant_of_meets (C := fun _ l => l.keeps id t)
      (fun hF hl hs => hF.step hl hs) ?_ (StepSystem.meets_of_forall fun l hl =>
        ⟨hother hl hremove, hother hl hclear, hother hl hunlock⟩) hlost
    refine ⟨hE₁, c₁, [], hc₁, ⟨(List.append_nil _).symm, by simp, fun ids hids => ?_⟩, ?_⟩
    · simp only [Function.update_self] at hids
      cases hids
    · rw [hphase₁]
      exact ⟨rfl, rfl⟩
  obtain ⟨c', since, hc', hH, hA⟩ := hfollows.cycle
  obtain rfl : c = c' := by
    change (s₂.engine.calls t).state = _ at hc'
    rw [hc] at hc'
    cases hc'
    rfl
  refine ⟨since, hH.received, fun hstarted => ?_⟩
  rw [hfinished] at hA
  rw [one_terminal_iff hA hstarted,
    StepSystem.meets_iff_recorded (deliversEnd_iff t) (by simp) hlost]
  exact List.eq_nil_iff_forall_not_mem

section Sample

/-! ## 5. A terminal event that is lost -/

/-- A process with one listener on an empty table. -/
def oneListener : Emitter where
  engine := Engine.coldStart .TRUSTED
  listeners := [7]
  snapshot _ := none
  received _ := []

/-- Caller 0 gets up to the start of its cycle. -/
def lockRun : List Label :=
  [.engine (.call 0 .flush), .engine (.lock 0), .engine (.checkPaused 0),
    .engine (.readCredentials 0)]

/-- The cycle finds no row, and is about to report so. -/
def emptyCycleRun : List Label :=
  [.snapshot 0, .engine (.cycle 0 .emitStarted), .engine (.cycle 0 .claim),
    .engine (.cycle 0 .resume), .engine (.cycle 0 (.record 2100)), .engine (.cycle 0 .resume)]

/-- The caller is cancelled on its way to the main thread. -/
def cancelRun : List Label :=
  emptyCycleRun ++ [.snapshot 0, .engine (.cancel 0), .engine (.cycle 0 .throw),
    .engine (.cycle 0 .abort), .engine (.cycle 0 .finish)]

/-- The report gets through. -/
def reportRun : List Label :=
  emptyCycleRun ++ [.snapshot 0, .engine (.cycle 0 .emitTerminal), .engine (.cycle 0 .resume),
    .engine (.cycle 0 .finish)]

/-- The cycle is over, and its listener waits for the end of it. -/
theorem terminal_event_lost :
    ∃ s s₁ s₂ c, StepSystem.exec (step fun _ => true) oneListener lockRun = some s ∧
      s.step (fun _ => true) (.engine (.begin 0 2000)) = some s₁ ∧
      StepSystem.exec (step fun _ => true) s₁ cancelRun = some s₂ ∧
      (s₂.engine.calls 0).state = .cycle c ∧ c.phase = .finished ∧ s₂.listeners = [7] ∧
      s₂.received 7 = s.received 7 ++ [.started] :=
  ⟨_, _, _, _, rfl, rfl, rfl, rfl, rfl, rfl, rfl⟩

theorem cycle_bracketed_iff_when_reported :
    ∃ s s₁ s₂ since, StepSystem.exec (step fun _ => true) oneListener lockRun = some s ∧
      s.step (fun _ => true) (.engine (.begin 0 2000)) = some s₁ ∧
      StepSystem.exec (step fun _ => true) s₁ reportRun = some s₂ ∧
      s₂.received 7 = s.received 7 ++ since ∧ .started ∈ since ∧
      ((since.filter SyncEvent.isTerminal).length = 1 ↔
        StepSystem.Meets (step fun _ => true) (DeliversEnd 0) s₁ reportRun) := by
  obtain ⟨s, s₁, s₂, c, hs, hs₁, hs₂, hc, hfinished, hreceived⟩ : ∃ s s₁ s₂ c,
      StepSystem.exec (step fun _ => true) oneListener lockRun = some s ∧
      s.step (fun _ => true) (.engine (.begin 0 2000)) = some s₁ ∧
      StepSystem.exec (step fun _ => true) s₁ reportRun = some s₂ ∧
      (s₂.engine.calls 0).state = .cycle c ∧ c.phase = .finished ∧
      s₂.received 7 = s.received 7 ++ [.started, { type := .SYNC_SUCCEEDED }] :=
    ⟨_, _, _, _, rfl, rfl, rfl, rfl, rfl, rfl⟩
  have hboot : oneListener.engine.Boot := Engine.coldStart_boot .TRUSTED
  obtain ⟨-, -, hheard⟩ := cycle_bracketed_iff hboot hs hs₁ hs₂ (by decide) hc hfinished
  obtain ⟨since, hsince, hiff⟩ := hheard 7 (by decide) (by decide)
  have hstarted : .started ∈ since := by
    rw [List.append_cancel_left (hsince.symm.trans hreceived)]
    exact List.mem_cons_self ..
  exact ⟨s, s₁, s₂, since, hs, hs₁, hs₂, hsince, hstarted, hiff hstarted⟩

end Sample

end Emitter

end SyncProvider.Android
