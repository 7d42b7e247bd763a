import SyncProvider.Js.DrainStops

/-!
# JS: the drains of one process

The state of the module `drainController` is shared by the calls of `runDrain`
that follow each other, and a wait that one of them has abandoned outlives it: its
native promise still settles, and its callbacks still run. Here a wait is an object
of its own, with its two timers, its waiter and the promise that `raceWithStop`
has returned for it.

What the loop does between two waits is `Drain.run`, on the clock and the flag of
the moment.

Results:
1. `Running.step`, `Idle.step` : what the module keeps, and what a drain sees of it.
2. `refines` : seen from its call, the module is a drain.
3. `lock_released` : the lock, the waiters and the timers are released.
-/

namespace SyncProvider.Js

/-! ## The model -/

deriving instance DecidableEq for DrainOptions

/-- The module's `state`. A waiter is the number of its wait. -/
structure DrainControllerState where
  active : Bool
  cancelled : Bool
  cancelWaiters : List Nat
  deriving DecidableEq

/-- A wait that has begun: what `raceWithStop` and `sleepWithStop` keep for it. -/
structure Race where
  /-- The call of `runDrain` that waits. -/
  call : Nat
  work : Work
  since : ℚ
  /-- When the timer is due, while it is pending. -/
  deadlineTimer : Option ℚ
  sleepTimer : Option ℚ
  promise : Option (Settlement Value)
  /-- What it waits for has settled. -/
  workDone : Bool
  deriving DecidableEq

/-- A call of `runDrain`. -/
inductive Call where
  /-- It has rejected with `DRAIN_ALREADY_ACTIVE`. -/
  | alreadyActive
  /-- It is past the lock check. The last wait that it began is this one. -/
  | entered (drain : Drain) (race : Nat)
  deriving DecidableEq

/-- The module, with the waits that have begun and the calls so far. -/
structure DrainModule where
  clock : ℚ
  state : DrainControllerState
  races : List Race
  calls : List Call
  deriving DecidableEq

/-- What it waits for can settle like this. -/
def Race.takes (race : Race) : Settlement Value → Bool
  | .value value => value.answers race.work
  | .error _ =>
    match race.work with
    | .sleep _ => false
    | _ => true
  | .stop _ => false

/-- What is left of a wait when it settles. -/
def Race.settle (settlement : Settlement Value) (race : Race) : Race :=
  { race with deadlineTimer := none, promise := some (race.promise.getD settlement) }

/-- Nothing of the wait is left but perhaps what it waited for. -/
structure Race.Quiet (race : Race) : Prop where
  deadlineTimer : race.deadlineTimer = none
  sleepTimer : race.sleepTimer = none
  promise : race.promise.isSome = true

/-- The call goes on with what its wait has settled with. -/
def Call.wake (work : Work) (settlement : Settlement Value) : Call → Call
  | .entered d r => .entered { d with phase := .settled work settlement } r
  | .alreadyActive => .alreadyActive

/-- It is past the lock check and has not settled. -/
def Call.running : Call → Bool
  | .entered d _ => d.active
  | .alreadyActive => false

/-- The next turn of the drain is the `finally` of `sleepWithStop`. -/
def Drain.clearsSleep (d : Drain) : Bool :=
  match d.phase with
  | .settled _ _ => d.sleepTimer.isSome
  | _ => false

namespace DrainModule

inductive Label where
  | runDrain (options : DrainOptions)
  /-- `cancelActiveDrain`. -/
  | cancel
  /-- The clock moves on. -/
  | tick (now : ℚ)
  /-- The native promise of a wait settles, however late. -/
  | settleWork (race : Nat) (settlement : Settlement Value)
  | deadlineTimer (race : Nat)
  | sleepTimer (race : Nat)
  /-- A turn of the code of a call. -/
  | run (call : Nat)
  deriving DecidableEq

def initial (now : ℚ) : DrainModule := ⟨now, ⟨false, false, []⟩, [], []⟩

def modifyRace (m : DrainModule) (r : Nat) (f : Race → Race) : DrainModule :=
  { m with races := m.races.modify r f }

def stopWaiting (m : DrainModule) (r : Nat) : DrainModule :=
  { m.modifyRace r fun race => { race with deadlineTimer := none } with
    state := { m.state with cancelWaiters := m.state.cancelWaiters.erase r } }

/-- `resolve` or `reject` of a wait. Only the first has an effect. -/
def settlePromise (m : DrainModule) (r : Nat) (settlement : Settlement Value) : DrainModule :=
  match m.races[r]? with
  | some race =>
    if race.promise.isSome then m
    else { m.modifyRace r fun race => { race with promise := some settlement } with
      calls := m.calls.modify race.call (Call.wake race.work settlement) }
  | none => m

/-- The callbacks of a wait all do this. -/
def settle (m : DrainModule) (r : Nat) (settlement : Settlement Value) : DrainModule :=
  (m.stopWaiting r).settlePromise r settlement

/-- One pass of the loop over the waiters, which skips those deleted meanwhile. -/
def wake (m : DrainModule) (r : Nat) : DrainModule :=
  if r ∈ m.state.cancelWaiters then m.settle r (.stop .cancelled) else m

def setCancelled (m : DrainModule) : DrainModule :=
  { m with state := { m.state with cancelled := true } }

def cancelActiveDrain (m : DrainModule) : DrainModule :=
  if m.state.active then m.setCancelled.state.cancelWaiters.foldl wake m.setCancelled else m

/-- The drain, with the clock and the flag that its code reads. -/
def seen (m : DrainModule) (d : Drain) : Drain :=
  { d with clock := m.clock, cancelled := m.state.cancelled }

/-- What a turn of the code leaves in the module: a wait, or a released lock. -/
def leave (m : DrainModule) (call : Nat) (d : Drain) : DrainModule :=
  match d.phase with
  | .awaiting work since =>
    { m with
      races := m.races ++ [{
        call, work, since
        deadlineTimer := some (d.deadlineTimerDue since)
        sleepTimer := work.sleepTimer since
        promise := none
        workDone := false }]
      state := { m.state with cancelWaiters := m.state.cancelWaiters ++ [m.races.length] } }
  | .resolved _ _ | .rejected _ =>
    { m with state := { m.state with active := false, cancelled := false } }
  | _ => m

/-- The last wait that the call has begun, after a turn that leads to `d`. -/
def lastRace (m : DrainModule) (r : Nat) (d : Drain) : Nat :=
  match d.phase with
  | .awaiting _ _ => m.races.length
  | _ => r

def runDrain (m : DrainModule) (options : DrainOptions) : DrainModule :=
  if m.state.active then { m with calls := m.calls ++ [.alreadyActive] }
  else
    let m := { m with state := { m.state with active := true, cancelled := false } }
    let d := Drain.start options m.clock
    { m.leave m.calls.length d with calls := m.calls ++ [.entered d m.races.length] }

def clearSleepTimer (m : DrainModule) (r : Nat) : DrainModule :=
  m.modifyRace r fun race => { race with sleepTimer := none }

def turn (m : DrainModule) (i : Nat) : Option DrainModule :=
  match m.calls[i]? with
  | some (.entered d r) =>
    (m.seen d).run.map fun d' =>
      let m := if d.clearsSleep then m.clearSleepTimer r else m
      { m.leave i d' with calls := m.calls.set i (.entered d' (m.lastRace r d')) }
  | _ => none

def doneWork (m : DrainModule) (r : Nat) : DrainModule :=
  m.modifyRace r fun race => { race with workDone := true }

/-- One turn of the event loop that concerns the module. -/
def step (m : DrainModule) : Label → Option DrainModule
  | .runDrain options => some (m.runDrain options)
  | .cancel => some m.cancelActiveDrain
  | .tick now => if m.clock ≤ now then some { m with clock := now } else none
  | .settleWork r settlement =>
    match m.races[r]? with
    | some race =>
      if !race.workDone && race.takes settlement then some ((m.doneWork r).settle r settlement)
      else none
    | none => none
  | .deadlineTimer r =>
    match m.races[r]? with
    | some race =>
      match race.deadlineTimer with
      | some due =>
        if due ≤ m.clock then some (m.settle r (.stop (.timer race.since))) else none
      | none => none
    | none => none
  | .sleepTimer r =>
    match m.races[r]? with
    | some race =>
      match race.sleepTimer with
      | some due =>
        if due ≤ m.clock then
          some (((m.clearSleepTimer r).doneWork r).settle r (.value .slept))
        else none
      | none => none
    | none => none
  | .run i => m.turn i

/-- The call is past the lock check and has not settled. -/
def running (m : DrainModule) (i : Nat) : Bool :=
  match m.calls[i]? with
  | some call => call.running
  | none => false

/-! ## The parts of a step -/

variable {m m' : DrainModule} {i r : Nat} {d d' : Drain}

theorem getElem?_modifyRace (m : DrainModule) (r s : Nat) (f : Race → Race) :
    (m.modifyRace r f).races[s]? = (m.races[s]?).map fun race => if r = s then f race else race :=
  List.getElem?_modify f r m.races s

theorem races_settle (m : DrainModule) (r : Nat) (settlement : Settlement Value) :
    (m.settle r settlement).races = m.races.modify r (Race.settle settlement) := by
  have hget := getElem?_modifyRace m r r fun race => { race with deadlineTimer := none }
  unfold settle settlePromise
  cases hrace : m.races[r]? with
  | none =>
    rw [hrace] at hget
    simp only [stopWaiting, hget, Option.map_none]
    have hlength : m.races.length ≤ r := List.getElem?_eq_none_iff.mp hrace
    simp only [modifyRace, List.modify_eq_self hlength]
  | some race =>
    rw [hrace, Option.map_some, if_pos rfl] at hget
    simp only [stopWaiting, hget]
    apply List.ext_getElem?
    intro s
    split
    · rename_i hpromise
      obtain ⟨p, hp⟩ := Option.isSome_iff_exists.mp hpromise
      simp only [modifyRace, List.getElem?_modify]
      by_cases hs : r = s
      · subst hs
        simp [hrace, Race.settle, show race.promise = some p from hp]
      · simp [hs]
    · rename_i hpromise
      have hp : race.promise = none := by simpa using hpromise
      simp only [modifyRace, List.getElem?_modify]
      by_cases hs : r = s
      · subst hs
        simp [hrace, Race.settle, hp]
      · simp [hs]

@[simp]
theorem state_settle (m : DrainModule) (r : Nat) (settlement : Settlement Value) :
    (m.settle r settlement).state =
      { m.state with cancelWaiters := m.state.cancelWaiters.erase r } := by
  unfold settle settlePromise
  split
  · split <;> rfl
  · rfl

@[simp]
theorem clock_settle (m : DrainModule) (r : Nat) (settlement : Settlement Value) :
    (m.settle r settlement).clock = m.clock := by
  unfold settle settlePromise
  split
  · split <;> rfl
  · rfl

theorem calls_settle {race : Race} (hrace : m.races[r]? = some race)
    (settlement : Settlement Value) :
    (m.settle r settlement).calls =
      if race.promise.isSome then m.calls
      else m.calls.modify race.call (Call.wake race.work settlement) := by
  have hget : (m.stopWaiting r).races[r]? = some { race with deadlineTimer := none } := by
    refine (getElem?_modifyRace m r r fun race => { race with deadlineTimer := none }).trans ?_
    rw [hrace, Option.map_some, if_pos rfl]
  unfold settle settlePromise
  rw [hget]
  dsimp only
  split <;> rfl

/-! ## 1. The invariant -/

/-- No call is past the lock check. -/
structure Idle (m : DrainModule) : Prop where
  state : m.state = ⟨false, false, []⟩
  quiet : ∀ race ∈ m.races, race.Quiet
  settled : ∀ call ∈ m.calls, call.running = false

/-- The wait `r` is in progress, with its timer and its waiter. -/
structure Awaits (m : DrainModule) (i : Nat) (d : Drain) (r : Nat) (work : Work) (since : ℚ) :
    Prop where
  cancelWaiters : m.state.cancelWaiters = [r]
  race : ∃ race, m.races[r]? = some race ∧ race.call = i ∧ race.work = work ∧ race.since = since ∧
    race.promise = none ∧ race.deadlineTimer = some (d.deadlineTimerDue since) ∧
    ∀ due, race.sleepTimer = some due → d.sleepTimer = some due

/-- No wait is in progress. A sleep timer is left to the `finally` that runs next. -/
structure Rests (m : DrainModule) (d : Drain) (r : Nat) : Prop where
  cancelWaiters : m.state.cancelWaiters = []
  race : ∀ race, m.races[r]? = some race → race.deadlineTimer = none ∧
    race.promise.isSome = true ∧ (race.sleepTimer.isSome = true → d.clearsSleep = true)

/-- The call `i` is past the lock check, and no other. -/
structure Running (m : DrainModule) (i : Nat) (d : Drain) (r : Nat) : Prop where
  call : m.calls[i]? = some (.entered d r)
  active : d.active = true
  locked : m.state.active = true
  others : ∀ j call, j ≠ i → m.calls[j]? = some call → call.running = false
  quiet : ∀ s race, s ≠ r → m.races[s]? = some race → race.Quiet
  awaits : ∀ work since, d.phase = .awaiting work since → m.Awaits i d r work since
  rests : (∀ work since, d.phase ≠ .awaiting work since) → m.Rests d r

theorem idle_initial (now : ℚ) : Idle (initial now) :=
  ⟨rfl, fun _ h => absurd h List.not_mem_nil, fun _ h => absurd h List.not_mem_nil⟩

theorem phase_cases (d : Drain) :
    (∃ work since, d.phase = .awaiting work since) ∨
      ∀ work since, d.phase ≠ .awaiting work since := by
  cases h : d.phase with
  | awaiting work since => exact .inl ⟨work, since, rfl⟩
  | settled | returned | resolved | rejected => exact .inr (by simp)

/-- A wait that has settled keeps no timer of its own and no waiter. -/
theorem Running.of_settled (h : m.Running i d r) {s : Nat} {race : Race}
    (hrace : m.races[s]? = some race) (hpromise : race.promise.isSome = true) :
    race.deadlineTimer = none ∧ s ∉ m.state.cancelWaiters := by
  rcases phase_cases d with ⟨work, since, hphase⟩ | hphase
  · obtain ⟨hwaiters, race', hr, -, -, -, hnone, -⟩ := h.awaits work since hphase
    have hne : s ≠ r := by
      rintro rfl
      obtain rfl := Option.some.inj (hrace.symm.trans hr)
      rw [hnone] at hpromise
      cases hpromise
    rw [hwaiters]
    exact ⟨(h.quiet s race hne hrace).deadlineTimer, by simpa using hne⟩
  · obtain ⟨hwaiters, hr⟩ := h.rests hphase
    rw [hwaiters]
    refine ⟨?_, List.not_mem_nil⟩
    by_cases hs : s = r
    · subst hs
      exact (hr race hrace).1
    · exact (h.quiet s race hs hrace).deadlineTimer

/-- One that has not is the wait in progress. -/
theorem Running.of_pending (h : m.Running i d r) {s : Nat} {race : Race}
    (hrace : m.races[s]? = some race) (hpromise : race.promise = none) :
    s = r ∧ d.phase = .awaiting race.work race.since ∧
      race.deadlineTimer = some (d.deadlineTimerDue race.since) ∧
      ∀ due, race.sleepTimer = some due → d.sleepTimer = some due := by
  have hs : s = r := by
    by_contra hne
    have hsome := (h.quiet s race hne hrace).promise
    rw [hpromise] at hsome
    cases hsome
  subst hs
  rcases phase_cases d with ⟨work, since, hphase⟩ | hphase
  · obtain ⟨-, race', hr, -, hwork, hsince, -, hdeadline, htimer⟩ := h.awaits work since hphase
    obtain rfl := Option.some.inj (hrace.symm.trans hr)
    subst hwork hsince
    exact ⟨rfl, hphase, hdeadline, htimer⟩
  · have hsome := ((h.rests hphase).race race hrace).2.1
    rw [hpromise] at hsome
    cases hsome

/-- The invariant looks at the calls, the waits, the lock and the waiters. -/
theorem Running.congr (h : m.Running i d r) (hcalls : m'.calls = m.calls)
    (hraces : m'.races = m.races) (hactive : m'.state.active = m.state.active)
    (hwaiters : m'.state.cancelWaiters = m.state.cancelWaiters) : m'.Running i d r where
  call := by rw [hcalls]; exact h.call
  active := h.active
  locked := hactive.trans h.locked
  others := by rw [hcalls]; exact h.others
  quiet := by rw [hraces]; exact h.quiet
  awaits := by
    intro work since hphase
    obtain ⟨hw, hrace⟩ := h.awaits work since hphase
    exact ⟨hwaiters.trans hw, by rw [hraces]; exact hrace⟩
  rests := by
    intro hphase
    obtain ⟨hw, hrace⟩ := h.rests hphase
    exact ⟨hwaiters.trans hw, by rw [hraces]; exact hrace⟩

/-- A change to a wait that at most clears its sleep timer. -/
structure Harmless (f : Race → Race) : Prop where
  call : ∀ race, (f race).call = race.call
  work : ∀ race, (f race).work = race.work
  since : ∀ race, (f race).since = race.since
  deadlineTimer : ∀ race, (f race).deadlineTimer = race.deadlineTimer
  promise : ∀ race, (f race).promise = race.promise
  sleepTimer : ∀ race due, (f race).sleepTimer = some due → race.sleepTimer = some due

theorem Harmless.quiet {f : Race → Race} (hf : Harmless f) {race : Race} (h : race.Quiet) :
    (f race).Quiet := by
  refine ⟨(hf.deadlineTimer race).trans h.deadlineTimer, ?_, by rw [hf.promise]; exact h.promise⟩
  cases htimer : (f race).sleepTimer with
  | none => rfl
  | some due =>
    have hset := hf.sleepTimer race due htimer
    rw [h.sleepTimer] at hset
    cases hset

theorem harmless_doneWork : Harmless fun race => { race with workDone := true } :=
  ⟨fun _ => rfl, fun _ => rfl, fun _ => rfl, fun _ => rfl, fun _ => rfl, fun _ _ h => h⟩

theorem harmless_clearSleepTimer : Harmless fun race => { race with sleepTimer := none } := by
  refine ⟨fun _ => rfl, fun _ => rfl, fun _ => rfl, fun _ => rfl, fun _ => rfl, ?_⟩
  intro race due h
  cases h

/-- A wait after a change to one of them. -/
theorem modified {f : Race → Race} {s t : Nat} {race : Race}
    (h : (m.modifyRace s f).races[t]? = some race) :
    m.races[t]? = some race ∨ ∃ old, m.races[t]? = some old ∧ race = f old := by
  rw [getElem?_modifyRace, Option.map_eq_some_iff] at h
  obtain ⟨old, hold, rfl⟩ := h
  split
  · exact .inr ⟨old, hold, rfl⟩
  · exact .inl hold

theorem Running.modifyRace (h : m.Running i d r) {f : Race → Race} (hf : Harmless f) (s : Nat) :
    (m.modifyRace s f).Running i d r where
  call := h.call
  active := h.active
  locked := h.locked
  others := h.others
  quiet := by
    intro t race ht hrace
    rcases modified hrace with hsame | ⟨old, hold, rfl⟩
    · exact h.quiet t race ht hsame
    · exact hf.quiet (h.quiet t old ht hold)
  awaits := by
    intro work since hphase
    obtain ⟨hw, race, hrace, hcall, hwork, hsince, hpromise, hdeadline, htimer⟩ :=
      h.awaits work since hphase
    refine ⟨hw, ?_⟩
    rw [getElem?_modifyRace, hrace, Option.map_some]
    split
    · exact ⟨f race, rfl, (hf.call race).trans hcall, (hf.work race).trans hwork,
        (hf.since race).trans hsince, (hf.promise race).trans hpromise,
        (hf.deadlineTimer race).trans hdeadline, fun due hd => htimer due (hf.sleepTimer _ _ hd)⟩
    · exact ⟨race, rfl, hcall, hwork, hsince, hpromise, hdeadline, htimer⟩
  rests := by
    intro hphase
    obtain ⟨hw, hr⟩ := h.rests hphase
    refine ⟨hw, fun race hrace => ?_⟩
    rcases modified hrace with hsame | ⟨old, hold, rfl⟩
    · exact hr race hsame
    · obtain ⟨hdeadline, hpromise, htimer⟩ := hr old hold
      refine ⟨(hf.deadlineTimer old).trans hdeadline, by rw [hf.promise]; exact hpromise, ?_⟩
      intro hset
      obtain ⟨due, hdue⟩ := Option.isSome_iff_exists.mp hset
      exact htimer (by rw [hf.sleepTimer old due hdue]; rfl)

theorem Idle.modifyRace (h : m.Idle) {f : Race → Race} (hf : Harmless f) (s : Nat) :
    (m.modifyRace s f).Idle where
  state := h.state
  settled := h.settled
  quiet := by
    intro race hrace
    obtain ⟨t, ht⟩ := List.mem_iff_getElem?.mp hrace
    rcases modified ht with hsame | ⟨old, hold, rfl⟩
    · exact h.quiet race (List.mem_of_getElem? hsame)
    · exact hf.quiet (h.quiet old (List.mem_of_getElem? hold))

theorem modifyRace_eq_self {f : Race → Race} {s : Nat}
    (h : ∀ race, m.races[s]? = some race → f race = race) : m.modifyRace s f = m := by
  have hraces : m.races.modify s f = m.races := by
    apply List.ext_getElem?
    intro t
    rw [List.getElem?_modify]
    by_cases hs : s = t
    · subst hs
      cases hrace : m.races[s]? with
      | none => rfl
      | some race => simp [h race hrace]
    · simp [hs]
  rw [modifyRace, hraces]

/-- The callback of a wait that has settled does nothing. -/
theorem settle_of_settled {s : Nat} {race : Race} (hrace : m.races[s]? = some race)
    (hpromise : race.promise.isSome = true) (hdeadline : race.deadlineTimer = none)
    (hwaiter : s ∉ m.state.cancelWaiters) (settlement : Settlement Value) :
    m.settle s settlement = m := by
  have hsame : m.modifyRace s (fun race => { race with deadlineTimer := none }) = m := by
    apply modifyRace_eq_self
    intro race' hrace'
    obtain rfl := Option.some.inj (hrace.symm.trans hrace')
    rw [← hdeadline]
  have hstop : m.stopWaiting s = m := by
    rw [stopWaiting, hsame, List.erase_of_not_mem hwaiter]
  rw [settle, hstop, settlePromise, hrace]
  exact if_pos hpromise

/-- The callback of the wait in progress wakes its call. -/
theorem Running.settle (h : m.Running i d r) {work : Work} {since : ℚ}
    (hphase : d.phase = .awaiting work since) (settlement : Settlement Value) :
    (m.settle r settlement).Running i { d with phase := .settled work settlement } r := by
  obtain ⟨hw, race, hrace, hcall, hwork, hsince, hpromise, hdeadline, htimer⟩ :=
    h.awaits work since hphase
  have hcalls : (m.settle r settlement).calls = m.calls.modify i (Call.wake work settlement) := by
    rw [calls_settle hrace, hpromise, hcall, hwork]
    rfl
  have hraces := races_settle m r settlement
  constructor
  · rw [hcalls, List.getElem?_modify_eq, h.call]
    rfl
  · rfl
  · rw [state_settle]
    exact h.locked
  · intro j call hj hcall'
    rw [hcalls, List.getElem?_modify_ne _ _ (Ne.symm hj)] at hcall'
    exact h.others j call hj hcall'
  · intro s race' hs hrace'
    rw [hraces, List.getElem?_modify_ne _ _ (Ne.symm hs)] at hrace'
    exact h.quiet s race' hs hrace'
  · intro work' since' hphase'
    cases hphase'
  · intro _
    refine ⟨?_, fun race' hrace' => ?_⟩
    · rw [state_settle, hw]
      simp
    · rw [hraces, List.getElem?_modify_eq, hrace] at hrace'
      cases hrace'
      refine ⟨rfl, rfl, fun hset => ?_⟩
      obtain ⟨due, hdue⟩ := Option.isSome_iff_exists.mp hset
      exact Option.isSome_iff_exists.mpr ⟨due, htimer due hdue⟩

/-! ### A turn -/

theorem run_of_settled (hactive : d.active = false) : d.run = none := by
  unfold Drain.active at hactive
  unfold Drain.run
  split at hactive
  · rename_i hphase
    rw [hphase]
  · rename_i hphase
    rw [hphase]
  · cases hactive

/-- A turn is taken when no wait is in progress. -/
theorem not_awaiting_of_run (h : d.run = some d') (work : Work) (since : ℚ) :
    d.phase ≠ .awaiting work since := by
  intro hphase
  rw [Drain.run, hphase] at h
  cases h

theorem run_of_clearsSleep (h : d.clearsSleep = true) :
    d.run = some { d with sleepTimer := none } ∧
      ∃ work settlement, d.phase = .settled work settlement := by
  unfold Drain.clearsSleep at h
  split at h
  · rename_i work settlement hphase
    refine ⟨?_, work, settlement, hphase⟩
    rw [Drain.run, hphase]
    exact if_pos h
  · cases h

/-- A sleep that has begun has its timer set. -/
theorem sleepTimer_raceWithStop {work work' : Work} {since : ℚ}
    (h : (d.raceWithStop work).phase = .awaiting work' since) (due : ℚ)
    (hdue : work'.sleepTimer since = some due) : (d.raceWithStop work).sleepTimer = some due := by
  unfold Drain.raceWithStop at h ⊢
  split at h
  · cases h
  · rename_i hcancelled
    rw [if_neg hcancelled]
    split at h
    · cases h
    · rename_i hlate
      rw [if_neg hlate]
      cases h
      cases work <;> first | exact hdue | cases hdue

theorem sleepTimer_run (h : d.run = some d') {work : Work} {since : ℚ}
    (hphase : d'.phase = .awaiting work since) (due : ℚ) (hdue : work.sleepTimer since = some due) :
    d'.sleepTimer = some due := by
  cases Drain.turn_of_run h with
  | settle hphase' hends => cases hends
  | clearSleep hphase' hset => cases hphase'.symm.trans hphase
  | leave hvalue hcause => cases hphase
  | stop hcause => cases hphase
  | reject => cases hphase
  | wait hphase' hwork => exact sleepTimer_raceWithStop hphase due hdue
  | resume hphase' hclear hresumes =>
    cases hresumes with
    | asks hsame hagain => exact sleepTimer_raceWithStop hphase due hdue
    | empty | maxIterations | returns => cases hphase

/-- What the drain of the call `i` sees of a step. -/
inductive Sees (i : Nat) (d : Drain) : Label → Drain → Prop where
  | run {d' : Drain} (h : d.run = some d') : Sees i d (.run i) d'
  | beside {l : Label} {k : Js.Label} {d' : Drain} (hl : l ≠ .run i) (hk : k ≠ .run)
    (h : d.step k = some d') : Sees i d l d'
  | nothing {l : Label} (hl : l ≠ .run i) : Sees i d l d

theorem seen_eq (hclock : d.clock = m.clock) (hcancelled : d.cancelled = m.state.cancelled) :
    m.seen d = d := by
  rw [seen, ← hclock, ← hcancelled]

theorem Sees.of_run (h : (m.seen d).run = some d') (hclock : m'.clock = m.clock)
    (hcancelled : m'.state.cancelled = m.state.cancelled) :
    Sees i (m.seen d) (.run i) (m'.seen d') := by
  have hsame := Drain.sameStops_run h
  rw [seen_eq (hsame.clock.trans hclock.symm) (hsame.cancelled.trans hcancelled.symm)]
  exact .run h

/-- After the step the call `i` is still past the lock check, or it has settled and
the lock is released. -/
structure Follows (m m' : DrainModule) (i : Nat) (d : Drain) (l : Label) : Prop where
  others : ∀ j, j ≠ i → m'.calls[j]? = m.calls[j]? ∨
    m.calls[j]? = none ∧ m'.calls[j]? = some .alreadyActive
  self : ∃ d' r', (m'.Running i d' r' ∧ Sees i (m.seen d) l (m'.seen d')) ∨
    (m'.Idle ∧ m'.calls[i]? = some (.entered d' r') ∧ d'.active = false ∧ Sees i (m.seen d) l d')

/-- Where the code has come to, the lock and the waits are. -/
theorem Running.leave (h : m.Running i d r) (hclears : d.clearsSleep = false)
    (hrun : (m.seen d).run = some d') :
    Follows m { m.leave i d' with calls := m.calls.set i (.entered d' (m.lastRace r d')) } i d
      (.run i) := by
  have hwait : ∀ work since, (m.seen d).phase ≠ .awaiting work since := not_awaiting_of_run hrun
  obtain ⟨hwaiters, hr⟩ := h.rests hwait
  have hlt : i < m.calls.length := (List.getElem?_eq_some_iff.mp h.call).1
  have hself (c : Call) : (m.calls.set i c)[i]? = some c := List.getElem?_set_self hlt
  have hothers (c : Call) (j : Nat) (call : Call) (hj : j ≠ i)
      (hcall : (m.calls.set i c)[j]? = some call) : call.running = false := by
    rw [List.getElem?_set_ne (Ne.symm hj)] at hcall
    exact h.others j call hj hcall
  have hquiet : ∀ (s : Nat) (race : Race), m.races[s]? = some race → race.Quiet := by
    intro s race hrace
    by_cases hs : s = r
    · subst hs
      obtain ⟨hdeadline, hpromise, htimer⟩ := hr race hrace
      refine ⟨hdeadline, ?_, hpromise⟩
      cases hsleep : race.sleepTimer with
      | none => rfl
      | some due =>
        rw [hsleep, hclears] at htimer
        cases htimer rfl
    · exact h.quiet s race hs hrace
  refine ⟨fun j hj => .inl (List.getElem?_set_ne (Ne.symm hj)), ?_⟩
  cases hphase : d'.phase with
  | awaiting work since =>
    refine ⟨d', m.races.length, .inl ⟨?_, ?_⟩⟩
    · simp only [DrainModule.leave, lastRace, hphase]
      refine ⟨hself _, by rw [Drain.active, hphase], h.locked, hothers _, ?_, ?_, ?_⟩
      · intro s race hs hrace
        rcases Nat.lt_or_ge s m.races.length with hin | hout
        · rw [List.getElem?_append_left hin] at hrace
          exact hquiet s race hrace
        · rw [List.getElem?_append_right hout] at hrace
          have hzero : s - m.races.length ≠ 0 := by omega
          simp [hzero] at hrace
      · intro work' since' hphase'
        cases hphase.symm.trans hphase'
        refine ⟨by simp [hwaiters], _, List.getElem?_concat_length, rfl, rfl, rfl, rfl, rfl, ?_⟩
        exact sleepTimer_run hrun hphase
      · intro hnot
        exact absurd hphase (hnot work since)
    · simp only [DrainModule.leave, hphase]
      exact .of_run hrun rfl rfl
  | resolved | rejected =>
    have hended : d'.active = false := by rw [Drain.active, hphase]
    refine ⟨d', m.lastRace r d', .inr ⟨⟨?_, ?_, ?_⟩, hself _, hended, .run hrun⟩⟩
    · simp only [DrainModule.leave, hphase, hwaiters]
    · intro race hrace
      simp only [DrainModule.leave, hphase] at hrace
      obtain ⟨s, hs⟩ := List.mem_iff_getElem?.mp hrace
      exact hquiet s race hs
    · intro call hcall
      obtain ⟨j, hj⟩ := List.mem_iff_getElem?.mp hcall
      by_cases hne : j = i
      · subst hne
        obtain rfl := Option.some.inj (hj.symm.trans (hself _))
        change d'.active = false
        rw [Drain.active, hphase]
      · exact hothers _ j call hne hj
  | settled | returned =>
    refine ⟨d', r, .inl ⟨?_, ?_⟩⟩
    · simp only [DrainModule.leave, lastRace, hphase]
      refine ⟨hself _, by rw [Drain.active, hphase], h.locked, hothers _, ?_, ?_, ?_⟩
      · intro s race _ hrace
        exact hquiet s race hrace
      · intro work' since' hphase'
        cases hphase.symm.trans hphase'
      · intro _
        refine ⟨hwaiters, fun race hrace => ?_⟩
        have hq := hquiet r race hrace
        refine ⟨hq.deadlineTimer, hq.promise, fun hset => ?_⟩
        rw [hq.sleepTimer] at hset
        cases hset
    · simp only [DrainModule.leave, hphase]
      exact .of_run hrun rfl rfl

theorem leave_of_settled {work : Work} {settlement : Settlement Value} (m : DrainModule) (r : Nat)
    (h : d.phase = .settled work settlement) : m.leave i d = m ∧ m.lastRace r d = r := by
  simp only [DrainModule.leave, lastRace, h, and_self]

theorem Running.turn (h : m.Running i d r) (hs : m.turn i = some m') :
    Follows m m' i d (.run i) := by
  simp only [DrainModule.turn, h.call, Option.map_eq_some_iff] at hs
  obtain ⟨d', hrun, rfl⟩ := hs
  cases hclears : d.clearsSleep with
  | false => exact h.leave hclears hrun
  | true =>
    obtain ⟨hclear, work, settlement, hphase⟩ := run_of_clearsSleep (d := m.seen d) hclears
    obtain rfl := Option.some.inj (hclear.symm.trans hrun)
    obtain ⟨hwaiters, hr⟩ := h.rests (not_awaiting_of_run (d := m.seen d) hrun)
    have hlt : i < m.calls.length := (List.getElem?_eq_some_iff.mp h.call).1
    have hd : d.phase = .settled work settlement := hphase
    obtain ⟨hleave, hlast⟩ := leave_of_settled (i := i) (m.clearSleepTimer r) r
      (d := { m.seen d with sleepTimer := none }) hphase
    rw [if_pos rfl, hleave, hlast]
    constructor
    · exact fun j hj => .inl (List.getElem?_set_ne (Ne.symm hj))
    · refine ⟨_, r, .inl ⟨⟨List.getElem?_set_self hlt, h.active, h.locked, ?_, ?_, ?_, ?_⟩,
        .of_run hrun rfl rfl⟩⟩
      · intro j call hj hcall
        rw [List.getElem?_set_ne (Ne.symm hj)] at hcall
        exact h.others j call hj hcall
      · intro s race hs hrace
        rcases modified hrace with hsame | ⟨old, hold, rfl⟩
        · exact h.quiet s race hs hsame
        · exact harmless_clearSleepTimer.quiet (h.quiet s old hs hold)
      · intro work' since hphase'
        cases hd.symm.trans hphase'
      · intro _
        refine ⟨hwaiters, fun race hrace => ?_⟩
        simp only [clearSleepTimer, getElem?_modifyRace, Option.map_eq_some_iff] at hrace
        obtain ⟨old, hold, rfl⟩ := hrace
        obtain ⟨hdeadline, hpromise, -⟩ := hr old hold
        simp [hdeadline, hpromise]

/-- A call that is not past the lock check takes no turn. -/
theorem turn_of_settled {j : Nat} {call : Call} (hcall : m.calls[j]? = some call)
    (hsettled : call.running = false) : m.turn j = none := by
  unfold DrainModule.turn
  rw [hcall]
  cases call with
  | alreadyActive => rfl
  | entered d r =>
    have hrun : (m.seen d).run = none := run_of_settled hsettled
    simp only [hrun, Option.map_none]

/-! ### The callbacks -/

/-- The callback of the wait in progress. -/
theorem Running.follows_settle (h : m.Running i d r) {work : Work} {since : ℚ} {l : Label}
    {k : Js.Label} {settlement : Settlement Value} {m₀ : DrainModule}
    (hphase : d.phase = .awaiting work since) (hcalls : m.calls = m₀.calls)
    (hclock : m.clock = m₀.clock) (hstate : m.state = m₀.state) (hl : l ≠ .run i) (hk : k ≠ .run)
    (hstep : (m₀.seen d).step k =
      some { m₀.seen d with phase := .settled work settlement }) :
    Follows m₀ (m.settle r settlement) i d l := by
  obtain ⟨-, race, hrace, hcall, hwork, hsince, hpromise, -, -⟩ := h.awaits work since hphase
  constructor
  · intro j hj
    rw [calls_settle hrace, hpromise, hcall]
    simp only [Option.isSome_none, Bool.false_eq_true, if_false]
    rw [List.getElem?_modify_ne _ _ (Ne.symm hj), hcalls]
    exact .inl rfl
  · refine ⟨_, r, .inl ⟨h.settle hphase settlement, .beside hl hk ?_⟩⟩
    rw [hstep, seen, seen, clock_settle, state_settle, hclock, hstate]

/-- A step that leaves the call as it is. -/
theorem Running.follows_nothing (h : m'.Running i d r) {l : Label} (hl : l ≠ .run i)
    (hcalls : m'.calls = m.calls) (hclock : m'.clock = m.clock) (hstate : m'.state = m.state) :
    Follows m m' i d l := by
  refine ⟨?_, d, r, .inl ⟨h, ?_⟩⟩
  · rw [hcalls]
    exact fun j _ => .inl rfl
  · have hseen : m'.seen d = m.seen d := by rw [seen, seen, hclock, hstate]
    rw [hseen]
    exact .nothing hl

theorem Running.settleWork (h : m.Running i d r) {s : Nat} {settlement : Settlement Value}
    (hs : m.step (.settleWork s settlement) = some m') :
    Follows m m' i d (.settleWork s settlement) := by
  simp only [DrainModule.step] at hs
  split at hs
  · rename_i race hrace
    split at hs <;> cases hs
    rename_i htakes
    have hfits : race.takes settlement = true := (Bool.and_eq_true_iff.mp htakes).2
    have hdone : (m.doneWork s).Running i d r := h.modifyRace harmless_doneWork s
    have hrace' : (m.doneWork s).races[s]? = some { race with workDone := true } := by
      rw [doneWork, getElem?_modifyRace, hrace, Option.map_some, if_pos rfl]
    cases hpromise : race.promise with
    | some p =>
      obtain ⟨hdeadline, hwaiter⟩ := hdone.of_settled hrace' (by rw [hpromise]; rfl)
      rw [settle_of_settled hrace' (by rw [hpromise]; rfl) hdeadline hwaiter]
      exact hdone.follows_nothing (by simp) rfl rfl rfl
    | none =>
      obtain ⟨rfl, hphase, -, -⟩ := h.of_pending hrace hpromise
      have hseen : (m.seen d).phase = .awaiting race.work race.since := hphase
      unfold Race.takes at hfits
      split at hfits
      · rename_i value
        refine hdone.follows_settle (k := .answer value) hphase rfl rfl rfl (by simp) (by simp) ?_
        simp only [Drain.step, hseen, hfits, if_true]
      · rename_i message
        refine hdone.follows_settle (k := .fail message) hphase rfl rfl rfl (by simp) (by simp) ?_
        rw [Drain.step, hseen]
        split at hfits
        · cases hfits
        · rename_i hwork
          cases hw : race.work <;> first | exact absurd hw (hwork _) | rfl
      · cases hfits
  · cases hs

theorem Running.deadlineTimer (h : m.Running i d r) {s : Nat}
    (hs : m.step (.deadlineTimer s) = some m') : Follows m m' i d (.deadlineTimer s) := by
  simp only [DrainModule.step] at hs
  split at hs
  · rename_i race hrace
    split at hs
    · rename_i due hset
      split at hs <;> cases hs
      rename_i hdue
      have hpromise : race.promise = none := by
        by_contra hne
        have hsettled := (h.of_settled hrace (Option.isSome_iff_ne_none.mpr hne)).1
        cases hset.symm.trans hsettled
      obtain ⟨rfl, hphase, hdeadline, -⟩ := h.of_pending hrace hpromise
      obtain rfl := Option.some.inj (hset.symm.trans hdeadline)
      have hseen : (m.seen d).phase = .awaiting race.work race.since := hphase
      refine h.follows_settle (k := .deadlineTimer) hphase rfl rfl rfl (by simp) (by simp) ?_
      have hpast : (m.seen d).deadlineTimerDue race.since ≤ (m.seen d).clock := hdue
      simp only [Drain.step, hseen, if_pos hpast]
    · cases hs
  · cases hs

theorem Running.sleepTimer (h : m.Running i d r) {s : Nat}
    (hs : m.step (.sleepTimer s) = some m') : Follows m m' i d (.sleepTimer s) := by
  simp only [DrainModule.step] at hs
  split at hs
  · rename_i race hrace
    split at hs
    · rename_i due hset
      split at hs <;> cases hs
      rename_i hdue
      have hdone : ((m.clearSleepTimer s).doneWork s).Running i d r :=
        (h.modifyRace harmless_clearSleepTimer s).modifyRace harmless_doneWork s
      have hrace' : ((m.clearSleepTimer s).doneWork s).races[s]? =
          some { race with sleepTimer := none, workDone := true } := by
        simp [doneWork, clearSleepTimer, getElem?_modifyRace, hrace]
      cases hpromise : race.promise with
      | some p =>
        obtain ⟨hdeadline, hwaiter⟩ := hdone.of_settled hrace' (by rw [hpromise]; rfl)
        rw [settle_of_settled hrace' (by rw [hpromise]; rfl) hdeadline hwaiter]
        exact hdone.follows_nothing (by simp) rfl rfl rfl
      | none =>
        obtain ⟨rfl, hphase, -, htimer⟩ := h.of_pending hrace hpromise
        have hseen : (m.seen d).phase = .awaiting race.work race.since := hphase
        have hsleep : (m.seen d).sleepTimer = some due := htimer due hset
        refine hdone.follows_settle (k := .sleepTimer) hphase rfl rfl rfl (by simp) (by simp) ?_
        have hpast : due ≤ (m.seen d).clock := hdue
        simp only [Drain.step, hseen, hsleep, if_pos hpast]
    · cases hs
  · cases hs

theorem step_cancel_of_unwaited (hphase : ∀ work since, d.phase ≠ .awaiting work since)
    (hactive : d.active = true) : d.step .cancel = some { d with cancelled := true } := by
  cases h : d.phase with
  | awaiting work since => exact absurd h (hphase work since)
  | settled | returned | resolved | rejected => simp only [Drain.step, h, hactive, if_true]

/-- `cancelActiveDrain` cancels the drain past the lock check. -/
theorem Running.cancelled (h : m.Running i d r) (hs : m.step .cancel = some m') :
    (∀ j, j ≠ i → m'.calls[j]? = m.calls[j]?) ∧
      ∃ d', m'.Running i d' r ∧ (m.seen d).step .cancel = some (m'.seen d') := by
  cases hs
  unfold cancelActiveDrain
  rw [if_pos h.locked]
  have hflag : m.setCancelled.Running i d r := h.congr rfl rfl rfl rfl
  rcases phase_cases d with ⟨work, since, hphase⟩ | hphase
  · have hwaiters : m.setCancelled.state.cancelWaiters = [r] :=
      (hflag.awaits work since hphase).cancelWaiters
    have hfold : m.setCancelled.state.cancelWaiters.foldl wake m.setCancelled =
        m.setCancelled.settle r (.stop .cancelled) := by
      rw [hwaiters, List.foldl_cons, List.foldl_nil, wake, hwaiters]
      exact if_pos (List.mem_singleton.mpr rfl)
    rw [hfold]
    obtain ⟨-, race, hrace, hcall, -, -, hpromise, -, -⟩ := hflag.awaits work since hphase
    have hseen : (m.seen d).phase = .awaiting work since := hphase
    refine ⟨fun j hj => ?_, _, hflag.settle hphase _, ?_⟩
    · rw [calls_settle hrace, hpromise, hcall]
      exact List.getElem?_modify_ne _ _ (Ne.symm hj)
    · simp only [Drain.step, hseen]
      simp only [seen, clock_settle, state_settle]
      rfl
  · have hwaiters : m.setCancelled.state.cancelWaiters = [] := (hflag.rests hphase).cancelWaiters
    rw [hwaiters, List.foldl_nil]
    exact ⟨fun j _ => rfl, d, hflag, step_cancel_of_unwaited (d := m.seen d) hphase h.active⟩

theorem Running.cancel (h : m.Running i d r) (hs : m.step .cancel = some m') :
    Follows m m' i d .cancel := by
  obtain ⟨hothers, d', hrunning, hstep⟩ := h.cancelled hs
  exact ⟨fun j hj => .inl (hothers j hj), d', r,
    .inl ⟨hrunning, .beside (by simp) (by simp) hstep⟩⟩

/-- The call `i` goes on as a drain does, or settles and releases the lock. -/
theorem Running.step {l : Label} (h : m.Running i d r) (hs : m.step l = some m') :
    Follows m m' i d l := by
  cases l with
  | runDrain options =>
    cases hs
    unfold DrainModule.runDrain
    rw [if_pos h.locked]
    have hlt : i < m.calls.length := (List.getElem?_eq_some_iff.mp h.call).1
    refine ⟨fun j _ => ?_, d, r, .inl ⟨⟨?_, h.active, h.locked, ?_, h.quiet, ?_, ?_⟩,
      .nothing (by simp)⟩⟩
    · rcases Nat.lt_trichotomy j m.calls.length with hlt | rfl | hgt
      · exact .inl (List.getElem?_append_left hlt)
      · exact .inr ⟨List.getElem?_eq_none le_rfl, List.getElem?_concat_length⟩
      · refine .inl ?_
        rw [List.getElem?_eq_none hgt.le, List.getElem?_eq_none]
        rw [List.length_append, List.length_singleton]
        exact hgt
    · exact (List.getElem?_append_left hlt).trans h.call
    · intro j call hj hcall
      rcases List.mem_append.mp (List.mem_of_getElem? hcall) with hold | hnew
      · rcases Nat.lt_or_ge j m.calls.length with hin | hout
        · exact h.others j call hj ((List.getElem?_append_left hin).symm.trans hcall)
        · have hlast := (List.getElem?_append_right hout).symm.trans hcall
          obtain rfl := List.mem_singleton.mp (List.mem_of_getElem? hlast)
          rfl
      · obtain rfl := List.mem_singleton.mp hnew
        rfl
    · intro work since hphase
      exact ⟨(h.awaits work since hphase).1, (h.awaits work since hphase).2⟩
    · exact fun hphase => ⟨(h.rests hphase).1, (h.rests hphase).2⟩
  | cancel => exact h.cancel hs
  | tick now =>
    simp only [DrainModule.step, Option.ite_none_right_eq_some] at hs
    obtain ⟨hle, hs⟩ := hs
    cases hs
    refine ⟨fun j _ => .inl rfl, d, r, .inl ⟨h.congr rfl rfl rfl rfl, ?_⟩⟩
    refine .beside (k := .tick now) (by simp) (by simp) ?_
    have hactive : (m.seen d).active = true ∧ (m.seen d).clock ≤ now := ⟨h.active, hle⟩
    exact if_pos hactive
  | settleWork s settlement => exact h.settleWork hs
  | deadlineTimer s => exact h.deadlineTimer hs
  | sleepTimer s => exact h.sleepTimer hs
  | run j =>
    by_cases hj : j = i
    · subst hj
      exact h.turn hs
    · change m.turn j = some m' at hs
      cases hcall : m.calls[j]? with
      | none =>
        rw [DrainModule.turn, hcall] at hs
        cases hs
      | some call =>
        rw [turn_of_settled hcall (h.others j call hj hcall)] at hs
        cases hs

/-- The first turn of a call that finds the lock released. -/
structure Enters (m m' : DrainModule) (options : DrainOptions) : Prop where
  others : ∀ j, j ≠ m.calls.length → m'.calls[j]? = m.calls[j]?
  running : ∃ r, m'.Running m.calls.length (Drain.start options m.clock) r
  seen : m'.seen (Drain.start options m.clock) = Drain.start options m.clock

theorem Idle.runDrain (h : m.Idle) (options : DrainOptions) :
    Enters m (m.runDrain options) options := by
  have hlock : ¬ m.state.active = true := by
    rw [h.state]
    exact Bool.false_ne_true
  have hsame := Drain.sameStops_raceWithStop (Drain.enter options m.clock) .isSyncing
  have hclock : (Drain.start options m.clock).clock = m.clock := hsame.clock
  have hcancelled : (Drain.start options m.clock).cancelled = false := hsame.cancelled
  have hactive : (Drain.start options m.clock).active = true := Drain.raceWithStop_active _ _
  have hkept (c : Call) (j : Nat) (hj : j ≠ m.calls.length) :
      (m.calls ++ [c])[j]? = m.calls[j]? := by
    rcases Nat.lt_or_gt_of_ne hj with hlt | hgt
    · exact List.getElem?_append_left hlt
    · rw [List.getElem?_eq_none hgt.le, List.getElem?_eq_none]
      rw [List.length_append, List.length_singleton]
      exact hgt
  have hothers (c : Call) (j : Nat) (call : Call) (hj : j ≠ m.calls.length)
      (hcall : (m.calls ++ [c])[j]? = some call) : call.running = false := by
    rw [hkept c j hj] at hcall
    exact h.settled call (List.mem_of_getElem? hcall)
  unfold DrainModule.runDrain
  rw [if_neg hlock]
  cases hphase : (Drain.start options m.clock).phase with
  | awaiting work since =>
    simp only [DrainModule.leave, hphase]
    refine ⟨hkept _, ⟨m.races.length, ⟨List.getElem?_concat_length, hactive, rfl, hothers _, ?_,
      ?_, ?_⟩⟩, ?_⟩
    · intro s race hs hrace
      rcases Nat.lt_or_ge s m.races.length with hin | hout
      · rw [List.getElem?_append_left hin] at hrace
        exact h.quiet race (List.mem_of_getElem? hrace)
      · rw [List.getElem?_append_right hout] at hrace
        have hzero : s - m.races.length ≠ 0 := by omega
        simp [hzero] at hrace
    · intro work' since' hphase'
      cases hphase.symm.trans hphase'
      refine ⟨by simp [h.state], _, List.getElem?_concat_length, rfl, rfl, rfl, rfl, rfl, ?_⟩
      exact sleepTimer_raceWithStop hphase
    · intro hnot
      exact absurd hphase (hnot work since)
    · exact seen_eq hclock hcancelled
  | settled work settlement =>
    simp only [DrainModule.leave, hphase]
    refine ⟨hkept _, ⟨m.races.length, ⟨List.getElem?_concat_length, hactive, rfl, hothers _, ?_,
      ?_, ?_⟩⟩, ?_⟩
    · intro s race _ hrace
      exact h.quiet race (List.mem_of_getElem? hrace)
    · intro work' since' hphase'
      cases hphase.symm.trans hphase'
    · intro _
      refine ⟨by rw [h.state], fun race hrace => ?_⟩
      have hq := h.quiet race (List.mem_of_getElem? hrace)
      refine ⟨hq.deadlineTimer, hq.promise, fun hset => ?_⟩
      rw [hq.sleepTimer] at hset
      cases hset
    · exact seen_eq hclock hcancelled
  | returned | resolved | rejected =>
    unfold Drain.start Drain.raceWithStop at hphase
    split at hphase
    · cases hphase
    · split at hphase <;> cases hphase

/-- While the lock is released, only a call of `runDrain` takes it. -/
theorem Idle.step {l : Label} (h : m.Idle) (hs : m.step l = some m') :
    (m'.Idle ∧ m'.calls = m.calls) ∨ ∃ options, l = .runDrain options ∧ Enters m m' options := by
  have hrace {s : Nat} {race : Race} (hrace : m.races[s]? = some race) : race.Quiet :=
    h.quiet race (List.mem_of_getElem? hrace)
  cases l with
  | runDrain options =>
    cases hs
    exact .inr ⟨options, rfl, h.runDrain options⟩
  | cancel =>
    cases hs
    unfold cancelActiveDrain
    rw [h.state]
    exact .inl ⟨h, rfl⟩
  | tick now =>
    simp only [DrainModule.step, Option.ite_none_right_eq_some] at hs
    obtain ⟨-, hs⟩ := hs
    cases hs
    exact .inl ⟨⟨h.state, h.quiet, h.settled⟩, rfl⟩
  | settleWork s settlement =>
    simp only [DrainModule.step] at hs
    split at hs
    · rename_i race hs'
      split at hs <;> cases hs
      have hdone : (m.doneWork s).Idle := h.modifyRace harmless_doneWork s
      have hget : (m.doneWork s).races[s]? = some { race with workDone := true } := by
        rw [doneWork, getElem?_modifyRace, hs', Option.map_some, if_pos rfl]
      have hwaiter : s ∉ (m.doneWork s).state.cancelWaiters := by
        rw [hdone.state]
        exact List.not_mem_nil
      rw [settle_of_settled hget (hrace hs').promise (hrace hs').deadlineTimer hwaiter]
      exact .inl ⟨hdone, rfl⟩
    · cases hs
  | deadlineTimer s =>
    simp only [DrainModule.step] at hs
    split at hs
    · rename_i race hs'
      rw [(hrace hs').deadlineTimer] at hs
      cases hs
    · cases hs
  | sleepTimer s =>
    simp only [DrainModule.step] at hs
    split at hs
    · rename_i race hs'
      rw [(hrace hs').sleepTimer] at hs
      cases hs
    · cases hs
  | run j =>
    change m.turn j = some m' at hs
    cases hcall : m.calls[j]? with
    | none =>
      rw [turn, hcall] at hs
      cases hs
    | some call =>
      rw [turn_of_settled hcall (h.settled call (List.mem_of_getElem? hcall))] at hs
      cases hs

/-- The lock is released, or one call holds it. -/
inductive Inv (m : DrainModule) : Prop where
  | idle (h : m.Idle)
  | running {i : Nat} {d : Drain} {r : Nat} (h : m.Running i d r)

theorem Inv.step {l : Label} (h : m.Inv) (hs : m.step l = some m') : m'.Inv := by
  cases h with
  | idle h =>
    rcases h.step hs with ⟨hidle, -⟩ | ⟨options, -, henters⟩
    · exact .idle hidle
    · exact .running henters.running.choose_spec
  | running h =>
    obtain ⟨d', r', ⟨hrunning, -⟩ | ⟨hidle, -⟩⟩ := (h.step hs).self
    · exact .running hrunning
    · exact .idle hidle

theorem inv_of_exec {ls : List Label} {now : ℚ}
    (h : StepSystem.exec step (initial now) ls = some m) : m.Inv :=
  StepSystem.exec_invariant (fun hm hs => Inv.step hm hs) (.idle (idle_initial now)) h

/-! ## 2. Seen from its call -/

/-- The drain of a call. One that has settled looks at nothing any more. -/
def view (m : DrainModule) (d : Drain) : Drain := if d.active then m.seen d else d

/-- It has come about as a drain does. -/
def Runs (d : Drain) : Prop :=
  ∃ options now ls, StepSystem.exec Drain.step (Drain.start options now) ls = some d

theorem Runs.step {k : Js.Label} (h : Runs d) (hs : d.step k = some d') : Runs d' := by
  obtain ⟨options, now, ls, hrun⟩ := h
  refine ⟨options, now, ls ++ [k], StepSystem.exec_append_eq_some.mpr ⟨d, hrun, ?_⟩⟩
  exact StepSystem.exec_cons_eq_some.mpr ⟨d', hs, rfl⟩

theorem Sees.runs {l : Label} (h : Sees i d l d') (hd : Runs d) : Runs d' := by
  cases h with
  | run h => exact hd.step (k := .run) h
  | beside hl hk h => exact hd.step h
  | nothing hl => exact hd

/-- Every call that got past the lock check is a drain. -/
def AllRun (m : DrainModule) : Prop :=
  ∀ (i : Nat) (d : Drain) (r : Nat), m.calls[i]? = some (.entered d r) → Runs (m.view d)

theorem view_of_active (h : d.active = true) : m.view d = m.seen d := if_pos h

theorem view_of_settled (h : d.active = false) : m.view d = d := by
  rw [view, h]
  exact if_neg Bool.false_ne_true

theorem AllRun.step {l : Label} (hinv : m.Inv) (h : m.AllRun) (hs : m.step l = some m') :
    m'.AllRun := by
  -- a call that has settled and that the step leaves alone
  have hold {j : Nat} {d : Drain} {r : Nat} (hcall : m.calls[j]? = some (.entered d r))
      (hsettled : d.active = false) : Runs (m'.view d) := by
    have hview := h j d r hcall
    rw [view_of_settled hsettled] at hview ⊢
    exact hview
  intro j d' r' hcall
  cases hinv with
  | idle hidle =>
    have hsettled {d : Drain} {r : Nat} (hd : m.calls[j]? = some (.entered d r)) :
        d.active = false := hidle.settled _ (List.mem_of_getElem? hd)
    rcases hidle.step hs with ⟨-, hcalls⟩ | ⟨options, -, henters⟩
    · rw [hcalls] at hcall
      exact hold hcall (hsettled hcall)
    · obtain ⟨r, hrunning⟩ := henters.running
      by_cases hj : j = m.calls.length
      · subst hj
        cases hcall.symm.trans hrunning.call
        rw [view_of_active hrunning.active, henters.seen]
        exact ⟨options, m.clock, [], rfl⟩
      · rw [henters.others j hj] at hcall
        exact hold hcall (hsettled hcall)
  | @running i d r hrunning =>
    obtain ⟨hothers, d₁, r₁, hself⟩ := hrunning.step hs
    by_cases hj : j = i
    · subst hj
      have hd : Runs (m.seen d) := by
        rw [← view_of_active hrunning.active]
        exact h j d r hrunning.call
      rcases hself with ⟨hnext, hsees⟩ | ⟨-, hend, hsettled, hsees⟩
      · cases hcall.symm.trans hnext.call
        rw [view_of_active hnext.active]
        exact hsees.runs hd
      · cases hcall.symm.trans hend
        rw [view_of_settled hsettled]
        exact hsees.runs hd
    · rcases hothers j hj with hsame | ⟨-, hnew⟩
      · rw [hsame] at hcall
        exact hold hcall (hrunning.others j _ hj hcall)
      · cases hcall.symm.trans hnew

/-- Seen from a call that got past the lock check, the module is a drain. -/
theorem refines {ls : List Label} {now : ℚ} (h : StepSystem.exec step (initial now) ls = some m)
    (hcall : m.calls[i]? = some (.entered d r)) : Runs (m.view d) := by
  have hall : m.Inv ∧ m.AllRun := by
    refine StepSystem.exec_invariant (I := fun m => m.Inv ∧ m.AllRun) ?_ ?_ h
    · exact fun hm hs => ⟨hm.1.step hs, hm.2.step hm.1 hs⟩
    · refine ⟨.idle (idle_initial now), fun i d r hcall => ?_⟩
      cases hcall
  exact hall.2 i d r hcall

end DrainModule

end SyncProvider.Js
