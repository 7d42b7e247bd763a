import SyncProvider.Js.DrainController
import SyncProvider.Ios.Dispatcher

/-!
# JS: when an empty queue is empty

A drain reports `EMPTY` after three reads: no cycle is running, the queue size
is 0, no cycle is running. Between the first two a cycle may start and claim the
last item, and between the last two it may put the item back and end. Then each
read was right, and at no moment was the queue at rest.

The native side is any engine that answers the two reads, so its cycles are its
own steps.

Results:
1. `empty_truthful` : `EMPTY` is truthful when every cycle that ends between the
   size and the second read leaves nothing behind.
2. `requeued_in_window_reports_empty` : a cycle of the iOS engine that does.
-/

namespace SyncProvider.Js

/-! ## The model -/

/-- A native engine with the two reads a drain decides by. -/
structure NativeEngine (σ ℓ : Type) where
  step : σ → ℓ → Option σ
  isSyncing : σ → Bool
  getQueueSize : σ → Nat

/-- What a native call reads, if the drain decides by it. -/
def NativeEngine.reads {σ ℓ : Type} (N : NativeEngine σ ℓ) (s : σ) : Work → Option Value
  | .isSyncing => some (.isSyncing (N.isSyncing s))
  | .getQueueSize => some (.queueSize (N.getQueueSize s))
  | .isSyncingAgain => some (.isSyncingAgain (N.isSyncing s))
  | _ => none

/-- A drain and its native side. -/
structure DrainSystem (σ : Type) where
  native : σ
  drain : Drain
  /-- What the native call that is awaited has read. -/
  read : Option Value

inductive DrainSystemLabel (ℓ : Type) where
  | native (l : ℓ)
  /-- The native call that is awaited reads. -/
  | read
  | drain (l : Label)

/-- A call that reads resolves with what it has read. -/
def Label.admits (read : Option Value) : Label → Bool
  | .answer value =>
    match value with
    | .isSyncing _ | .queueSize _ | .isSyncingAgain _ => read == some value
    | _ => true
  | _ => true

def Label.isTick : Label → Bool
  | .tick _ => true
  | _ => false

namespace DrainSystem

variable {σ ℓ : Type}

def start (options : DrainOptions) (now : ℚ) (native : σ) : DrainSystem σ where
  native := native
  drain := Drain.start options now
  read := none

/-- The run ends when the drain has settled. -/
def step (N : NativeEngine σ ℓ) (s : DrainSystem σ) : DrainSystemLabel ℓ → Option (DrainSystem σ)
  | .native l =>
    if s.drain.active then (N.step s.native l).map fun native => { s with native := native }
    else none
  | .read =>
    match s.drain.phase, s.read with
    | .awaiting work _, none =>
      (N.reads s.native work).map fun value => { s with read := some value }
    | _, _ => none
  | .drain l =>
    if l.admits s.read then
      (s.drain.step l).map fun drain =>
        { s with drain := drain, read := if l.isTick then s.read else none }
    else none

/-- Nothing is pending and no cycle is running. -/
def Quiet (N : NativeEngine σ ℓ) (s : DrainSystem σ) : Prop :=
  N.isSyncing s.native = false ∧ N.getQueueSize s.native = 0

instance (N : NativeEngine σ ℓ) : DecidablePred (Quiet N) := fun s => by
  unfold Quiet
  infer_instance

/-- The size was read as 0, and `isSyncing` is still to be read again. -/
def inWindow (s : DrainSystem σ) : Bool :=
  match s.drain.phase, s.read with
  | .awaiting .getQueueSize _, some (.queueSize size) => size == 0
  | .settled _ (.value (.queueSize size)), _ => size == 0
  | .awaiting .isSyncingAgain _, none => true
  | _, _ => false

/-- A cycle that ends in the window leaves nothing pending. -/
def KeepsQuiet (N : NativeEngine σ ℓ) (s : DrainSystem σ) : DrainSystemLabel ℓ → Prop
  | .native l => s.inWindow = true → N.isSyncing s.native = true →
    ∀ native ∈ N.step s.native l, N.isSyncing native = false → N.getQueueSize native = 0
  | _ => True

instance (N : NativeEngine σ ℓ) (s : DrainSystem σ) (l : DrainSystemLabel ℓ) :
    Decidable (KeepsQuiet N s l) := by
  unfold KeepsQuiet
  split <;> infer_instance

/-! ## The window -/

theorem inWindow_iff {s : DrainSystem σ} :
    s.inWindow = true ↔
      (∃ since, s.drain.phase = .awaiting .getQueueSize since ∧ s.read = some (.queueSize 0)) ∨
      (∃ work, s.drain.phase = .settled work (.value (.queueSize 0))) ∨
      ∃ since, s.drain.phase = .awaiting .isSyncingAgain since ∧ s.read = none := by
  unfold inWindow
  constructor
  · intro h
    split at h
    · rename_i since size hphase hread
      obtain rfl : size = 0 := by simpa using h
      exact .inl ⟨since, hphase, hread⟩
    · rename_i work size hphase
      obtain rfl : size = 0 := by simpa using h
      exact .inr (.inl ⟨work, hphase⟩)
    · rename_i since hphase hread
      exact .inr (.inr ⟨since, hphase, hread⟩)
    · cases h
  · rintro (⟨since, hphase, hread⟩ | ⟨work, hphase⟩ | ⟨since, hphase, hread⟩)
    · rw [hphase, hread]
      rfl
    · rw [hphase]
      rfl
    · rw [hphase, hread]

/-- The second read was `false`. -/
def SawIdle (s : DrainSystem σ) : Prop :=
  (∃ since, s.drain.phase = .awaiting .isSyncingAgain since ∧
    s.read = some (.isSyncingAgain false)) ∨
  (∃ work, s.drain.phase = .settled work (.value (.isSyncingAgain false))) ∨
  s.drain.stoppedReason = some .EMPTY

/-- A cycle is running throughout the window, so the second read is `true`. -/
structure Tracks (N : NativeEngine σ ℓ) (s : DrainSystem σ) : Prop where
  running : s.inWindow = true → N.isSyncing s.native = true
  busy : ¬ s.SawIdle

variable {N : NativeEngine σ ℓ} {s s' : DrainSystem σ}

theorem Tracks.native {l : ℓ} (hT : Tracks N s) (hl : KeepsQuiet N s (.native l))
    (h : s.step N (.native l) = some s') (hquiet : ¬ Quiet N s') : Tracks N s' := by
  simp only [step, Option.ite_none_right_eq_some] at h
  obtain ⟨-, h⟩ := h
  obtain ⟨native, hnative, rfl⟩ := Option.map_eq_some_iff.mp h
  refine ⟨fun hwindow => ?_, hT.busy⟩
  have hbefore : N.isSyncing s.native = true := hT.running hwindow
  cases hafter : N.isSyncing native with
  | true => rfl
  | false => exact absurd ⟨hafter, hl hwindow hbefore native hnative hafter⟩ hquiet

theorem Tracks.read (hT : Tracks N s) (h : s.step N .read = some s') (hquiet : ¬ Quiet N s') :
    Tracks N s' := by
  simp only [step] at h
  split at h
  · rename_i work since hphase hread
    obtain ⟨value, hvalue, rfl⟩ := Option.map_eq_some_iff.mp h
    have hbusy (hidle : value ≠ .isSyncingAgain false) :
        ¬ SawIdle { s with read := some value } := by
      rintro (⟨-, -, hr⟩ | ⟨w, hw⟩ | hreason)
      · exact hidle (Option.some.inj hr)
      · exact hT.busy (.inr (.inl ⟨w, hw⟩))
      · exact hT.busy (.inr (.inr hreason))
    cases work with
    | isSyncing =>
      cases hvalue
      refine ⟨fun hwindow => ?_, hbusy (by simp)⟩
      simp [inWindow, hphase] at hwindow
    | getQueueSize =>
      cases hvalue
      refine ⟨fun hwindow => ?_, hbusy (by simp)⟩
      -- nothing is pending, so a cycle must be running
      have hsize : N.getQueueSize s.native = 0 := by simpa [inWindow, hphase] using hwindow
      exact Bool.of_not_eq_false fun hidle => hquiet ⟨hidle, hsize⟩
    | isSyncingAgain =>
      cases hvalue
      have hrunning : N.isSyncing s.native = true :=
        hT.running (inWindow_iff.mpr (.inr (.inr ⟨since, hphase, hread⟩)))
      exact ⟨fun _ => hrunning, hbusy (by simp [hrunning])⟩
    | _ => cases hvalue
  · cases h

/-- A wait that has ended without one of the two reads leaves nothing to track. -/
theorem tracks_settled {work : Work} {settlement : Settlement Value}
    (hphase : s.drain.phase = .settled work settlement)
    (hsize : settlement ≠ .value (.queueSize 0))
    (hagain : settlement ≠ .value (.isSyncingAgain false)) : Tracks N s := by
  constructor
  · intro hwindow
    rcases inWindow_iff.mp hwindow with ⟨_, hs, -⟩ | ⟨_, hs⟩ | ⟨_, hs, -⟩ <;>
      cases hphase.symm.trans hs
    exact absurd rfl hsize
  · rintro (⟨_, hs, -⟩ | ⟨_, hs⟩ | hreason)
    · cases hphase.symm.trans hs
    · cases hphase.symm.trans hs
      exact hagain rfl
    · rw [Drain.stoppedReason, hphase] at hreason
      cases hreason

/-- A wait that has just begun is in the window only as the second read. -/
theorem tracks_race {d : Drain} {work : Work} (hdrain : s.drain = d.raceWithStop work)
    (hagain : work = .isSyncingAgain → N.isSyncing s.native = true) (hread : s.read = none) :
    Tracks N s := by
  have hphase : (∃ cause, s.drain.phase = .settled work (.stop cause)) ∨
      s.drain.phase = .awaiting work d.clock := by
    rw [hdrain]
    unfold Drain.raceWithStop
    split
    · exact .inl ⟨_, rfl⟩
    · split
      · exact .inl ⟨_, rfl⟩
      · exact .inr rfl
  rcases hphase with ⟨cause, hphase⟩ | hphase
  · exact tracks_settled hphase (by simp) (by simp)
  · constructor
    · intro hwindow
      rcases inWindow_iff.mp hwindow with ⟨_, -, hr⟩ | ⟨_, hs⟩ | ⟨_, hs, -⟩
      · cases hread.symm.trans hr
      · cases hphase.symm.trans hs
      · cases hphase.symm.trans hs
        exact hagain rfl
    · rintro (⟨_, -, hr⟩ | ⟨_, hs⟩ | hreason)
      · cases hread.symm.trans hr
      · cases hphase.symm.trans hs
      · rw [Drain.stoppedReason, hphase] at hreason
        cases hreason

/-- A drain whose phase is outside the window and not `EMPTY` is tracked. -/
theorem tracks_ended (hawaits : ∀ work since, s.drain.phase ≠ .awaiting work since)
    (hsettled : ∀ work settlement, s.drain.phase ≠ .settled work settlement)
    (hreason : s.drain.stoppedReason ≠ some .EMPTY) : Tracks N s := by
  constructor
  · intro hwindow
    rcases inWindow_iff.mp hwindow with ⟨_, hs, -⟩ | ⟨_, hs⟩ | ⟨_, hs, -⟩
    · exact absurd hs (hawaits _ _)
    · exact absurd hs (hsettled _ _)
    · exact absurd hs (hawaits _ _)
  · rintro (⟨_, hs, -⟩ | ⟨_, hs⟩ | hs)
    · exact hawaits _ _ hs
    · exact hsettled _ _ hs
    · exact hreason hs

theorem Tracks.drain {l : Label} (hT : Tracks N s) (h : s.step N (.drain l) = some s') :
    Tracks N s' := by
  simp only [step, Option.ite_none_right_eq_some] at h
  obtain ⟨hadmits, h⟩ := h
  obtain ⟨drain, hdrain, rfl⟩ := Option.map_eq_some_iff.mp h
  -- what waits to be handled is the same as before
  have hsame {d : Drain} {read : Option Value} (hphase : d.phase = s.drain.phase)
      (hawaits : ∀ work since, s.drain.phase ≠ .awaiting work since) :
      Tracks N { s with drain := d, read := read } := by
    constructor
    · intro hwindow
      rcases inWindow_iff.mp hwindow with ⟨_, hs, -⟩ | ⟨work, hs⟩ | ⟨_, hs, -⟩
      · exact absurd (hphase.symm.trans hs) (hawaits _ _)
      · exact hT.running (inWindow_iff.mpr (.inr (.inl ⟨work, hphase.symm.trans hs⟩)))
      · exact absurd (hphase.symm.trans hs) (hawaits _ _)
    · rintro (⟨_, hs, -⟩ | ⟨work, hs⟩ | hreason)
      · exact hawaits _ _ (hphase.symm.trans hs)
      · exact hT.busy (.inr (.inl ⟨work, hphase.symm.trans hs⟩))
      · refine hT.busy (.inr (.inr ?_))
        rwa [Drain.stoppedReason, ← hphase]
  cases Drain.step_cases hdrain with
  | tick hactive hle => exact ⟨hT.running, hT.busy⟩
  | settle hphase hends =>
    cases hends with
    | answer hanswers =>
      constructor
      · intro hwindow
        rcases inWindow_iff.mp hwindow with ⟨_, hs, -⟩ | ⟨_, hs⟩ | ⟨_, hs, -⟩ <;> cases hs
        obtain rfl := Value.answers_queueSize hanswers
        exact hT.running (inWindow_iff.mpr (.inl ⟨_, hphase, eq_of_beq hadmits⟩))
      · rintro (⟨_, hs, -⟩ | ⟨_, hs⟩ | hreason)
        · cases hs
        · cases hs
          obtain rfl := Value.answers_isSyncingAgain hanswers
          exact hT.busy (.inl ⟨_, hphase, eq_of_beq hadmits⟩)
        · cases hreason
    | fail => exact tracks_settled rfl (by simp) (by simp)
    | sleepTimer => exact tracks_settled rfl (by simp) (by simp)
    | deadlineTimer hdue => exact tracks_settled rfl (by simp) (by simp)
  | cancelWait hphase => exact tracks_settled rfl (by simp) (by simp)
  | cancel hphase hactive => exact hsame rfl hphase
  | clearSleep hphase hset => exact hsame rfl (by simp [hphase])
  | resume hphase hclear hresumes =>
    cases hresumes with
    | asks hsame hagain =>
      refine tracks_race rfl (fun hwork => ?_) rfl
      rw [hagain hwork] at hphase
      exact hT.running (inWindow_iff.mpr (.inr (.inl ⟨_, hphase⟩)))
    | empty => exact absurd (.inr (.inl ⟨_, hphase⟩)) hT.busy
    | maxIterations hsize hle =>
      exact tracks_ended (by simp) (by simp) (by simp [Drain.stoppedReason, Drain.result])
    | returns => exact tracks_ended (by simp) (by simp) (by simp [Drain.stoppedReason])
  | leave hvalue hcause => exact tracks_ended (by simp) (by simp) (by simp [Drain.stoppedReason])
  | wait hphase hwork => exact tracks_race rfl (fun hagain => absurd hagain hwork) rfl
  | @stop cause hcause =>
    refine tracks_ended (by simp [Drain.stop]) (by simp [Drain.stop]) ?_
    cases cause <;> simp [Drain.stoppedReason, Drain.stop, Drain.result, StopCause.reason]
  | reject => exact tracks_ended (by simp) (by simp) (by simp [Drain.stoppedReason])

/-- Until the queue is quiet, a cycle runs throughout every window. -/
theorem Tracks.step {l : DrainSystemLabel ℓ} (hT : Tracks N s) (hl : KeepsQuiet N s l)
    (h : s.step N l = some s') (hquiet : ¬ Quiet N s') : Tracks N s' := by
  cases l with
  | native l => exact hT.native hl h hquiet
  | read => exact hT.read h hquiet
  | drain l => exact hT.drain h

theorem tracks_start (options : DrainOptions) (now : ℚ) (native : σ) :
    Tracks N (start options now native) := by
  have hdrain : (start options now native).drain =
      (Drain.enter options now).raceWithStop .isSyncing := rfl
  exact tracks_race hdrain (by simp) rfl

/-! ## 1. When `EMPTY` is truthful -/

/-- In any run against any native engine: when no cycle that ends between a size
of 0 and the second read of `isSyncing` leaves an item pending, a drain that
resolves with `EMPTY` has passed a moment at which nothing was pending and no
cycle was running. -/
theorem empty_truthful {options : DrainOptions} {now : ℚ} {native : σ}
    {ls : List (DrainSystemLabel ℓ)}
    (hkeeps : StepSystem.Meets (step N) (KeepsQuiet N) (start options now native) ls)
    (hrun : StepSystem.exec (step N) (start options now native) ls = some s)
    (hempty : s.drain.stoppedReason = some .EMPTY) :
    StepSystem.Visits (step N) (Quiet N) (start options now native) ls := by
  rcases StepSystem.invariant_or_visits Tracks.step (tracks_start options now native) hkeeps hrun
    with hT | hvisits
  · exact absurd (.inr (.inr hempty)) hT.busy
  · exact hvisits

section Sample

/-- The iOS engine as a drain sees it. -/
def iosEngine (scheme : String → Option String) : NativeEngine Ios.Engine Ios.Label where
  step := Ios.Engine.step scheme
  isSyncing e := e.world.isCycleRunning
  getQueueSize e := Ios.SyncItemDao.countPending e.world.store

/-- The drain reads that no cycle is running and asks for the size. A cycle
starts and claims the only item, and the size is read as 0. -/
def claimedRun : List (DrainSystemLabel Ios.Label) :=
  [.read, .drain (.answer (.isSyncing false)), .drain .run] ++
    (Ios.Engine.fetchRun [] ++ Ios.Engine.sendRun).map .native ++ [.read]

/-- The answer comes back, the cycle ends, and the drain reads that no cycle is
running. -/
def endedRun (statusCode : Int) : List (DrainSystemLabel Ios.Label) :=
  (Ios.Engine.answerRun statusCode ++
      ([.cycle 0 .next, .cycle 0 (.summarize 2200)] : List Ios.Label)).map .native ++
    [.drain (.answer (.queueSize 0)), .drain .run, .read,
      .drain (.answer (.isSyncingAgain false)), .drain .run]

/-- The cycle delivers the item. -/
theorem delivered_in_window_is_empty :
    ∃ e, StepSystem.exec (Ios.Engine.step Ios.Engine.https) Ios.Engine.firstLaunch
        [.enqueue [Ios.SyncQueueStorage.sampleItem "A"]] = some e ∧
      ∃ s, StepSystem.exec (step (iosEngine Ios.Engine.https)) (start {} 2000 e)
          (claimedRun ++ endedRun 200) = some s ∧
        StepSystem.Visits (step (iosEngine Ios.Engine.https)) (Quiet (iosEngine Ios.Engine.https))
          (start {} 2000 e) (claimedRun ++ endedRun 200) := by
  obtain ⟨e, he, hkeeps, s, hs, hempty⟩ : ∃ e ∈ StepSystem.exec (Ios.Engine.step Ios.Engine.https)
      Ios.Engine.firstLaunch [.enqueue [Ios.SyncQueueStorage.sampleItem "A"]],
      StepSystem.Meets (step (iosEngine Ios.Engine.https)) (KeepsQuiet (iosEngine Ios.Engine.https))
        (start {} 2000 e) (claimedRun ++ endedRun 200) ∧
      ∃ s ∈ StepSystem.exec (step (iosEngine Ios.Engine.https)) (start {} 2000 e)
        (claimedRun ++ endedRun 200), s.drain.stoppedReason = some .EMPTY := by
    decide +kernel
  exact ⟨e, he, s, hs, empty_truthful hkeeps hs hempty⟩

/-! ## 2. A cycle that puts the last item back -/

/-- A 503 comes back, so the cycle puts the item back and ends. The drain reports
`EMPTY`, and at every moment an item was pending or a cycle was running. -/
theorem requeued_in_window_reports_empty :
    ∃ e, StepSystem.exec (Ios.Engine.step Ios.Engine.https) Ios.Engine.firstLaunch
        [.enqueue [Ios.SyncQueueStorage.sampleItem "A"]] = some e ∧
      ∃ s, StepSystem.exec (step (iosEngine Ios.Engine.https)) (start {} 2000 e)
          (claimedRun ++ endedRun 503) = some s ∧
        s.drain.stoppedReason = some .EMPTY ∧
        ¬ StepSystem.Visits (step (iosEngine Ios.Engine.https))
          (Quiet (iosEngine Ios.Engine.https)) (start {} 2000 e) (claimedRun ++ endedRun 503) := by
  show ∃ e ∈ StepSystem.exec (Ios.Engine.step Ios.Engine.https) Ios.Engine.firstLaunch
        [.enqueue [Ios.SyncQueueStorage.sampleItem "A"]],
      ∃ s ∈ StepSystem.exec (step (iosEngine Ios.Engine.https)) (start {} 2000 e)
          (claimedRun ++ endedRun 503), s.drain.stoppedReason = some .EMPTY ∧
        ¬ StepSystem.Visits (step (iosEngine Ios.Engine.https))
          (Quiet (iosEngine Ios.Engine.https)) (start {} 2000 e) (claimedRun ++ endedRun 503)
  decide +kernel

end Sample

end DrainSystem

end SyncProvider.Js
