import SyncProvider.Android.RetryWake

/-!
# Android: a credential hold and the wakes

After a cycle whose stored credential was rejected, the next wake is to wait for
the hold to end. The hold is the argument of one `arm`, and nobody remembers it:
every other arm decides from the store.

Results:
1. `ReadRows.step` : an arm is decided by the rows it read.
2. `armed_of_step` : nobody else sets the timer or the kick.
3. `hold_respected_iff` : the hold is respected exactly when every arm that takes
   effect before its end has it as a floor, or read no row that is due earlier.
4. `empty_flush_wakes_early` : a flush with nothing to do arms before the end.
-/

namespace SyncProvider.Android

/-! ## The retry kick -/

/-- `armForResume` once it has armed the timer: a second read, and the kick. -/
inductive KickTask where
  | asking
  | asked (deadline : Option Int)
  | done
  deriving DecidableEq

/-- The runtime, and the one-time work of `BackgroundSyncManager`. -/
structure WakeSystem where
  runtime : Runtime
  isEnabled : Bool
  isForegroundOnly : Bool
  /-- When the kick is due, if one is enqueued. -/
  kick : Option Int
  kicks : List KickTask

namespace WakeSystem

inductive Label where
  | runtime (l : Runtime.Label)
  /-- The next step of `armForResume` after its timer. -/
  | resumeKick (v : Nat)
  | resumeKickFails (v : Nat)
  | enable (foregroundOnly : Bool)
  | disable
  /-- WorkManager starts the work. -/
  | kickStarts
  deriving DecidableEq

/-- `scheduleOneTimeFlush` does something. -/
def kicksAllowed (s : WakeSystem) : Bool := s.isEnabled && !s.isForegroundOnly

/-- `ExistingWorkPolicy.REPLACE`: the latest call decides. -/
def scheduleOneTimeFlush (s : WakeSystem) (initialDelayMs : Int) : WakeSystem :=
  if s.kicksAllowed then { s with kick := some (s.runtime.now + initialDelayMs) } else s

def cancelRetryKick (s : WakeSystem) : WakeSystem := { s with kick := none }

/-- What a step of the runtime does to the kick. -/
def afterRuntime (s : WakeSystem) (r : Runtime) : Runtime.Label → WakeSystem
  | .advance u .go =>
    match s.runtime.tasks[u]? with
    | some (.decided .resume (some _)) => { s with runtime := r, kicks := s.kicks ++ [.asking] }
    | some (.decided caller (some deadline)) =>
      { s with runtime := r }.scheduleOneTimeFlush (s.runtime.delayUntil (caller.wakeAt deadline))
    | some .pausing => { s with runtime := r }.cancelRetryKick
    | _ => { s with runtime := r }
  | .configure options _ =>
    if options.strategy = .manual then { s with runtime := r }.cancelRetryKick
    else { s with runtime := r }
  | _ => { s with runtime := r }

def step (accepts : HttpRequest → Bool) (s : WakeSystem) : Label → Option WakeSystem
  | .runtime l => (s.runtime.step accepts l).map fun r => s.afterRuntime r l
  | .resumeKick v =>
    match s.kicks[v]? with
    | some .asking =>
      let deadline := SyncItemDao.nextRetryDeadline s.runtime.engine.world.table
      some { s with kicks := s.kicks.set v (.asked deadline) }
    | some (.asked none) => some { s with kicks := s.kicks.set v .done }
    | some (.asked (some deadline)) =>
      some ({ s with kicks := s.kicks.set v .done }.scheduleOneTimeFlush
        (s.runtime.delayUntil deadline))
    | _ => none
  | .resumeKickFails v =>
    match s.kicks[v]? with
    | some .asking => some { s with kicks := s.kicks.set v .done }
    | _ => none
  | .enable foregroundOnly =>
    let s := { s with isEnabled := true, isForegroundOnly := foregroundOnly }
    some (if foregroundOnly then s.cancelRetryKick else s)
  | .disable => some { s with isEnabled := false }.cancelRetryKick
  | .kickStarts => s.kick.map fun _ => s.cancelRetryKick

/-- A process that has just started. The kick can be one of an earlier process. -/
structure Launch (s : WakeSystem) : Prop where
  runtime : s.runtime.Launch
  kicks : s.kicks = []

end WakeSystem

/-! ## The hold, as it is observed -/

/-- The hold this step of the dispatcher gives a row, with the caller whose cycle
it is. -/
def Engine.heldBy (e : Engine) : Label → Option (Nat × Int)
  | .cycle t (.dispatch i (.settle now sample)) =>
    match (e.calls t).state with
    | .cycle { options, credentials, phase := .dispatching _ dispatches, .. } =>
      match dispatches[i]? with
      | some ⟨entity, .attempted startedAt result⟩ =>
        match (settle options credentials entity startedAt now sample result).outcome with
        | .credentialRejected _ nextRetryAt => some (t, nextRetryAt)
        | _ => none
      | _ => none
    | _ => none
  | _ => none

/-- The rows this caller's deadline is about. -/
def WakeCaller.considers (caller : WakeCaller) (r : SyncItemEntity) : Bool :=
  match caller with
  | .resume => r.status == .PENDING
  | _ => r.status == .PENDING && 0 < r.nextRetryAt

/-- The instant an arm does not go below: `notBefore ?: 0L` in `arm`. -/
def WakeCaller.floor? : WakeCaller → Option Int
  | .cycle _ notBefore => some (notBefore.getD 0)
  | .configure | .recovery => some 0
  | .resume => none

/-- An arm that takes effect. -/
structure Arming where
  floor : Option Int
  deadline : Int
  /-- The rows it decides from. -/
  rows : List SyncItemEntity

/-- The instant that is armed. -/
def Arming.instant (a : Arming) (now : Int) : Int :=
  now + max ((a.floor.elim a.deadline fun floor => max a.deadline floor) - now) 0

/-- A run, and what is to be said about it. -/
structure Observed where
  system : WakeSystem
  /-- The holds the current cycle of each caller has given. -/
  holding : Nat → List Int
  /-- The holds of the cycles that have ended since the last `configure` or
  `resume`. -/
  holds : List Int
  /-- The rows each task read. -/
  seen : Nat → List SyncItemEntity
  seenForKick : Nat → List SyncItemEntity

namespace Observed

def start (s : WakeSystem) : Observed where
  system := s
  holding _ := []
  holds := []
  seen _ := []
  seenForKick _ := []

/-- The rows of the store that satisfy `p`. -/
def rowsWhere (o : Observed) (p : SyncItemEntity → Bool) : List SyncItemEntity :=
  o.system.runtime.engine.world.table.rows.filter p

/-- The arms that take effect in a step. The timer and the kick of one `arm` are
for one instant. -/
def arming (o : Observed) : WakeSystem.Label → Option Arming
  | .runtime (.advance u .go) =>
    match o.system.runtime.tasks[u]? with
    | some (.decided caller (some deadline)) =>
      if caller = .resume ∨ 0 < o.system.runtime.attachedEngines ∨ o.system.kicksAllowed then
        some ⟨caller.floor?, deadline, o.seen u⟩
      else none
    | _ => none
  | .resumeKick v =>
    match o.system.kicks[v]? with
    | some (.asked (some deadline)) =>
      if o.system.kicksAllowed then some ⟨none, deadline, o.seenForKick v⟩ else none
    | _ => none
  | _ => none

def holdingAfter (o : Observed) : WakeSystem.Label → Nat → List Int
  | .runtime (.engine (.begin t _)) => Function.update o.holding t []
  | .runtime (.engine l) =>
    match o.system.runtime.engine.heldBy l with
    | some (t, hold) => Function.update o.holding t (o.holding t ++ [hold])
    | none => o.holding
  | _ => o.holding

def holdsAfter (o : Observed) : WakeSystem.Label → List Int
  | .runtime (.finish t) => o.holds ++ o.holding t
  | .runtime (.configure _ _) | .runtime .resume => []
  | _ => o.holds

def seenAfter (o : Observed) : WakeSystem.Label → Nat → List SyncItemEntity
  | .runtime (.advance u .go) =>
    match o.system.runtime.tasks[u]? with
    | some (.reading caller) => Function.update o.seen u (o.rowsWhere caller.considers)
    | _ => o.seen
  | _ => o.seen

def seenForKickAfter (o : Observed) : WakeSystem.Label → Nat → List SyncItemEntity
  | .resumeKick v =>
    match o.system.kicks[v]? with
    | some .asking => Function.update o.seenForKick v (o.rowsWhere WakeCaller.recovery.considers)
    | _ => o.seenForKick
  | _ => o.seenForKick

def step (accepts : HttpRequest → Bool) (o : Observed) (l : WakeSystem.Label) : Option Observed :=
  (o.system.step accepts l).map fun s =>
    { system := s
      holding := o.holdingAfter l
      holds := o.holdsAfter l
      seen := o.seenAfter l
      seenForKick := o.seenForKickAfter l }

/-- Nothing is armed for an instant before the end of a hold. -/
def Respects (o : Observed) (l : WakeSystem.Label) : Prop :=
  ∀ a ∈ o.arming l, ∀ hold ∈ o.holds, hold ≤ a.instant o.system.runtime.now

/-- An arm before the end of a hold does not go below it, or has read no row that
is due earlier. -/
def Covered (o : Observed) (l : WakeSystem.Label) : Prop :=
  ∀ a ∈ o.arming l, ∀ hold ∈ o.holds, o.system.runtime.now < hold →
    (∃ floor ∈ a.floor, hold ≤ floor) ∨ ∀ r ∈ a.rows, hold ≤ r.nextRetryAt

end Observed

/-! ## 1. What an arm is decided by -/

/-- A task that a step other than its own can put there. -/
def Task.isStart : Task → Bool
  | .wake _ | .recovery | .pausing | .fired | .networkAvailable | .dispatched => true
  | _ => false

namespace Runtime

variable {accepts : HttpRequest → Bool} {s s' : Runtime}

/-- What a step does to the tasks. -/
theorem step_tasks {l : Label} (h : s.step accepts l = some s') :
    s'.tasks = s.tasks ∨ (∃ k, k.isStart = true ∧ s'.tasks = s.tasks ++ [k]) ∨
      ∃ u ev k s₁ k', l = .advance u ev ∧ s.tasks[u]? = some k ∧ Advances accepts s k ev s₁ k' ∧
        s'.tasks = s.tasks.set u k' := by
  cases l with
  | engine l =>
    obtain ⟨-, e, he, rfl⟩ := step_engine h
    exact .inl rfl
  | finish t =>
    obtain ⟨e, notBefore, he, -, rfl⟩ := step_finish h
    exact .inr (.inl ⟨_, rfl, rfl⟩)
  | attachEngine =>
    rcases (step_attachEngine h).tasks with ⟨htasks, -⟩ | htasks
    · exact .inl htasks
    · exact .inr (.inl ⟨_, rfl, htasks⟩)
  | detachEngine =>
    simp only [step, Option.ite_none_left_eq_some] at h
    obtain ⟨-, h⟩ := h
    split at h
    · split at h <;> cases h
      · exact .inr (.inl ⟨_, rfl, rfl⟩)
      · exact .inl rfl
    · cases h
      exact .inl rfl
  | advance u ev =>
    obtain ⟨k, s₁, k', hk, hadvance, rfl⟩ := step_advance h
    exact .inr (.inr ⟨u, ev, k, s₁, k', rfl, hk, hadvance, rfl⟩)
  | fire =>
    obtain ⟨due, hdue, rfl⟩ := Option.map_eq_some_iff.mp h
    exact .inr (.inl ⟨_, rfl, rfl⟩)
  | pause | resume | configure options credentials =>
    cases h
    exact .inr (.inl ⟨_, rfl, rfl⟩)
  | tick ms | network network caps | activate network =>
    cases h
    exact .inl rfl
  | recoverSecret options credentials =>
    simp only [step, Option.ite_none_right_eq_some] at h
    obtain ⟨-, h⟩ := h
    cases h
    exact .inl rfl
  | callback =>
    simp only [step] at h
    split at h <;> cases h
    exact .inl rfl
  | collect =>
    simp only [step] at h
    split at h
    · split at h <;> cases h
      exact .inl rfl
    · cases h
  | deliver =>
    simp only [step] at h
    split at h
    · split at h <;> cases h
      · exact .inr (.inl ⟨_, rfl, rfl⟩)
      · exact .inl rfl
    · cases h

/-- A deadline is what the task's own read returned. -/
theorem decided_of_step {l : Label} {v : Nat} {caller : WakeCaller} {deadline : Option Int}
    (h : s.step accepts l = some s') (hv : s'.tasks[v]? = some (.decided caller deadline)) :
    s.tasks[v]? = some (.decided caller deadline) ∨
      l = .advance v .go ∧ s.tasks[v]? = some (.reading caller) ∧
        deadline = caller.deadline s.engine.world.table := by
  rcases step_tasks h with htasks | ⟨k, hk, htasks⟩ | ⟨u, ev, k, s₁, k', rfl, hk, hadvance, htasks⟩
  · rw [htasks] at hv
    exact .inl hv
  · rw [htasks] at hv
    rcases TaskPool.of_getElem?_spawn hv with hv | rfl
    · exact .inl hv
    · -- a new task has not read yet
      cases hk
  · rw [htasks] at hv
    rcases TaskPool.of_getElem?_set hv with hv | ⟨rfl, hk'⟩
    · exact .inl hv
    · cases hadvance with
      | read =>
        cases hk'
        exact .inr ⟨rfl, hk, rfl⟩
      | readFails => split at hk' <;> cases hk'
      | _ => cases hk'

/-- A task takes no time. -/
theorem now_of_advance {u : Nat} {ev : TaskEvent} (h : s.step accepts (.advance u ev) = some s') :
    s'.now = s.now := by
  obtain ⟨k, s₁, k', hk, hadvance, rfl⟩ := step_advance h
  cases hadvance <;> rfl

/-- Only an arm gives the timer another instant. -/
theorem waiting_of_step {l : Label} {due : Int} (h : s.step accepts l = some s')
    (hdue : s'.retryTimer.waiting = some due) : s.retryTimer.waiting = some due ∨
      ∃ u caller deadline, l = .advance u .go ∧
        s.tasks[u]? = some (.decided caller (some deadline)) ∧
        (caller = .resume ∨ 0 < s.attachedEngines) ∧
        due = s.now + s.delayUntil (caller.wakeAt deadline) := by
  cases l with
  | engine l =>
    obtain ⟨-, e, he, rfl⟩ := step_engine h
    exact .inl hdue
  | finish t =>
    obtain ⟨e, notBefore, he, -, rfl⟩ := step_finish h
    exact .inl hdue
  | attachEngine =>
    rw [(step_attachEngine h).retryTimer] at hdue
    exact .inl hdue
  | detachEngine =>
    simp only [step, Option.ite_none_left_eq_some] at h
    obtain ⟨-, h⟩ := h
    split at h
    · split at h <;> cases h <;> cases hdue
    · cases h
      exact .inl hdue
  | advance u ev =>
    obtain ⟨k, s₁, k', hk, hadvance, rfl⟩ := step_advance h
    cases hadvance with
    | arm caller deadline =>
      by_cases hlive : caller = .resume ∨ 0 < s.attachedEngines
      · exact .inr ⟨u, caller, deadline, rfl, hk, hlive, (Option.some.inj hdue).symm⟩
      · -- the timer is left alone
        simp only [step, hk, Option.bind_some, advance, if_neg hlive, Option.map_some,
          Option.some.injEq] at h
        exact .inl ((congrArg (fun r => r.retryTimer.waiting) h).trans hdue)
    | cancelHalted | cancelEmpty | cancelPaused => cases hdue
    | recover he | dispatch he => exact .inl hdue
    | _ => exact .inl hdue
  | fire =>
    obtain ⟨due, -, rfl⟩ := Option.map_eq_some_iff.mp h
    cases hdue
  | pause | resume | configure options credentials | tick ms | network network caps
  | activate network =>
    cases h
    exact .inl hdue
  | recoverSecret options credentials =>
    simp only [step, Option.ite_none_right_eq_some] at h
    obtain ⟨-, h⟩ := h
    cases h
    exact .inl hdue
  | callback =>
    simp only [step] at h
    split at h <;> cases h
    exact .inl hdue
  | collect =>
    simp only [step] at h
    split at h
    · split at h <;> cases h
      exact .inl hdue
    · cases h
  | deliver =>
    simp only [step] at h
    split at h
    · split at h <;> cases h <;> exact .inl hdue
    · cases h

end Runtime

namespace WakeSystem

variable {accepts : HttpRequest → Bool} {s s' : WakeSystem} {r : Runtime}

@[simp] theorem scheduleOneTimeFlush_runtime {delayMs : Int} :
    (s.scheduleOneTimeFlush delayMs).runtime = s.runtime := by
  unfold scheduleOneTimeFlush
  split <;> rfl

@[simp] theorem scheduleOneTimeFlush_kicks {delayMs : Int} :
    (s.scheduleOneTimeFlush delayMs).kicks = s.kicks := by
  unfold scheduleOneTimeFlush
  split <;> rfl

@[simp] theorem afterRuntime_runtime {l : Runtime.Label} : (s.afterRuntime r l).runtime = r := by
  unfold afterRuntime
  split
  · split <;> first | exact scheduleOneTimeFlush_runtime | rfl
  · split <;> rfl
  · rfl

theorem kick_of_scheduleOneTimeFlush {delayMs due : Int}
    (h : (s.scheduleOneTimeFlush delayMs).kick = some due) :
    s.kick = some due ∨ s.kicksAllowed = true ∧ due = s.runtime.now + delayMs := by
  unfold scheduleOneTimeFlush at h
  split at h
  · rename_i hallowed
    exact .inr ⟨hallowed, (Option.some.inj h).symm⟩
  · exact .inl h

/-- A step of the runtime leaves the second reads of `armForResume` alone. -/
theorem afterRuntime_kicks {l : Runtime.Label} :
    (s.afterRuntime r l).kicks = s.kicks ∨ (s.afterRuntime r l).kicks = s.kicks ++ [.asking] := by
  unfold afterRuntime
  split
  · split
    · exact .inr rfl
    · exact .inl scheduleOneTimeFlush_kicks
    · exact .inl rfl
    · exact .inl rfl
  · split <;> exact .inl rfl
  · exact .inl rfl

/-- A deadline for the kick is what the second read returned. -/
theorem asked_of_step {l : Label} {v : Nat} {deadline : Option Int}
    (h : s.step accepts l = some s') (hv : s'.kicks[v]? = some (.asked deadline)) :
    s.kicks[v]? = some (.asked deadline) ∨ l = .resumeKick v ∧ s.kicks[v]? = some .asking ∧
      deadline = SyncItemDao.nextRetryDeadline s.runtime.engine.world.table := by
  cases l with
  | runtime l =>
    obtain ⟨r, -, rfl⟩ := Option.map_eq_some_iff.mp h
    rcases afterRuntime_kicks (s := s) (r := r) (l := l) with hkicks | hkicks
    · exact .inl (hkicks ▸ hv)
    · rw [hkicks] at hv
      exact .inl ((TaskPool.of_getElem?_spawn hv).resolve_right (by rintro ⟨⟩))
  | resumeKick u =>
    simp only [step] at h
    split at h
    · rename_i hu
      cases h
      rcases TaskPool.of_getElem?_set hv with hv | ⟨rfl, heq⟩
      · exact .inl hv
      · cases heq
        exact .inr ⟨rfl, hu, rfl⟩
    · cases h
      exact .inl ((TaskPool.of_getElem?_set hv).resolve_right (by rintro ⟨-, ⟨⟩⟩))
    · cases h
      rw [scheduleOneTimeFlush_kicks] at hv
      exact .inl ((TaskPool.of_getElem?_set hv).resolve_right (by rintro ⟨-, ⟨⟩⟩))
    · cases h
  | resumeKickFails u =>
    simp only [step] at h
    split at h <;> cases h
    exact .inl ((TaskPool.of_getElem?_set hv).resolve_right (by rintro ⟨-, ⟨⟩⟩))
  | enable foregroundOnly =>
    cases h
    cases foregroundOnly <;> exact .inl hv
  | disable =>
    cases h
    exact .inl hv
  | kickStarts =>
    obtain ⟨due, -, rfl⟩ := Option.map_eq_some_iff.mp h
    exact .inl hv

/-- Only an arm gives the kick another instant. -/
theorem kick_of_step {l : Label} {due : Int} (h : s.step accepts l = some s')
    (hdue : s'.kick = some due) : s.kick = some due ∨ s.kicksAllowed = true ∧
      ((∃ u caller deadline, l = .runtime (.advance u .go) ∧
        s.runtime.tasks[u]? = some (.decided caller (some deadline)) ∧
        due = s.runtime.now + s.runtime.delayUntil (caller.wakeAt deadline)) ∨
      ∃ v deadline, l = .resumeKick v ∧ s.kicks[v]? = some (.asked (some deadline)) ∧
        due = s.runtime.now + s.runtime.delayUntil deadline) := by
  cases l with
  | runtime l =>
    obtain ⟨r, hr, rfl⟩ := Option.map_eq_some_iff.mp h
    unfold afterRuntime at hdue
    split at hdue
    · rename_i u
      split at hdue
      · exact .inl hdue
      · rename_i caller deadline hne hu
        rcases kick_of_scheduleOneTimeFlush hdue with hdue | ⟨hallowed, hdue⟩
        · exact .inl hdue
        · rw [show WakeSystem.runtime { s with runtime := r } = r from rfl,
            Runtime.now_of_advance hr] at hdue
          exact .inr ⟨hallowed, .inl ⟨u, caller, deadline, rfl, hu, hdue⟩⟩
      · cases hdue
      · exact .inl hdue
    · split at hdue
      · cases hdue
      · exact .inl hdue
    · exact .inl hdue
  | resumeKick v =>
    simp only [step] at h
    split at h <;> cases h
    · exact .inl hdue
    · exact .inl hdue
    · rename_i deadline hv
      rcases kick_of_scheduleOneTimeFlush hdue with hdue | ⟨hallowed, hdue⟩
      · exact .inl hdue
      · exact .inr ⟨hallowed, .inr ⟨v, deadline, rfl, hv, hdue⟩⟩
  | resumeKickFails u =>
    simp only [step] at h
    split at h <;> cases h
    exact .inl hdue
  | enable foregroundOnly =>
    cases h
    cases foregroundOnly with
    | true => cases hdue
    | false => exact .inl hdue
  | disable =>
    cases h
    cases hdue
  | kickStarts =>
    obtain ⟨due, -, rfl⟩ := Option.map_eq_some_iff.mp h
    cases hdue

theorem runtime_of_step {l : Label} (h : s.step accepts l = some s') :
    s'.runtime = s.runtime ∨
      ∃ l', l = .runtime l' ∧ s.runtime.step accepts l' = some s'.runtime := by
  cases l with
  | runtime l =>
    obtain ⟨r, hr, rfl⟩ := Option.map_eq_some_iff.mp h
    exact .inr ⟨l, rfl, by rwa [afterRuntime_runtime]⟩
  | resumeKick u =>
    simp only [step] at h
    split at h <;> cases h
    · exact .inl rfl
    · exact .inl rfl
    · exact .inl scheduleOneTimeFlush_runtime
  | resumeKickFails u =>
    simp only [step] at h
    split at h <;> cases h
    exact .inl rfl
  | enable foregroundOnly =>
    cases h
    cases foregroundOnly <;> exact .inl rfl
  | disable =>
    cases h
    exact .inl rfl
  | kickStarts =>
    obtain ⟨due, -, rfl⟩ := Option.map_eq_some_iff.mp h
    exact .inl rfl

end WakeSystem

/-- The deadline is the earliest one of the rows. -/
def Earliest (deadline : Int) (rows : List SyncItemEntity) : Prop :=
  (rows.map (·.nextRetryAt)).min? = some deadline

theorem Earliest.le_iff {deadline hold : Int} {rows : List SyncItemEntity}
    (h : Earliest deadline rows) : hold ≤ deadline ↔ ∀ r ∈ rows, hold ≤ r.nextRetryAt := by
  obtain ⟨hmem, hle⟩ := List.min?_eq_some_iff.mp h
  constructor
  · intro hhold r hr
    exact hhold.trans (hle _ (List.mem_map_of_mem hr))
  · intro hall
    obtain ⟨r, hr, rfl⟩ := List.mem_map.mp hmem
    exact hall r hr

/-- What keeps an arm from being for an earlier instant. -/
theorem Arming.le_instant_iff {a : Arming} {now hold : Int} (h : Earliest a.deadline a.rows) :
    hold ≤ a.instant now ↔ hold ≤ now ∨ (∃ floor ∈ a.floor, hold ≤ floor) ∨
      ∀ r ∈ a.rows, hold ≤ r.nextRetryAt := by
  rw [← h.le_iff]
  unfold Arming.instant
  cases a.floor with
  | none =>
    simp only [Option.elim, Option.mem_def, reduceCtorEq, false_and, exists_false, false_or]
    omega
  | some floor =>
    simp only [Option.elim, Option.mem_def, Option.some.injEq, exists_eq_left']
    omega

theorem WakeCaller.deadline_eq (caller : WakeCaller) (t : SyncItems) :
    caller.deadline t = t.minWhere caller.considers (·.nextRetryAt) := by
  cases caller <;> rfl

theorem WakeCaller.wakeAt_eq (caller : WakeCaller) (deadline : Int) :
    caller.wakeAt deadline = caller.floor?.elim deadline fun floor => max deadline floor := by
  cases caller <;> rfl

namespace Observed

variable {accepts : HttpRequest → Bool} {o o' : Observed}

/-- Each deadline that was read is the earliest one of the rows read with it. -/
structure ReadRows (o : Observed) : Prop where
  tasks : ∀ v caller deadline, o.system.runtime.tasks[v]? = some (.decided caller (some deadline)) →
    Earliest deadline (o.seen v)
  kicks : ∀ v deadline, o.system.kicks[v]? = some (.asked (some deadline)) →
    Earliest deadline (o.seenForKick v)

/-- Only the task that reads sees other rows than before. -/
theorem seenAfter_of_ne {l : WakeSystem.Label} {v : Nat}
    (h : ∀ caller, o.system.runtime.tasks[v]? ≠ some (.reading caller)) :
    o.seenAfter l v = o.seen v := by
  have hcases : o.seenAfter l = o.seen ∨ ∃ u rows, u ≠ v ∧
      o.seenAfter l = Function.update o.seen u rows := by
    unfold seenAfter
    split
    · rename_i u
      split
      · rename_i caller hu
        refine .inr ⟨u, _, ?_, rfl⟩
        rintro rfl
        exact h caller hu
      · exact .inl rfl
    · exact .inl rfl
  rcases hcases with heq | ⟨u, rows, hne, heq⟩
  · rw [heq]
  · rw [heq, Function.update_of_ne hne.symm]

theorem seenForKickAfter_of_ne {l : WakeSystem.Label} {v : Nat}
    (h : o.system.kicks[v]? ≠ some .asking) : o.seenForKickAfter l v = o.seenForKick v := by
  have hcases : o.seenForKickAfter l = o.seenForKick ∨ ∃ u rows, u ≠ v ∧
      o.seenForKickAfter l = Function.update o.seenForKick u rows := by
    unfold seenForKickAfter
    split
    · rename_i u
      split
      · rename_i hu
        refine .inr ⟨u, _, ?_, rfl⟩
        rintro rfl
        exact h hu
      · exact .inl rfl
    · exact .inl rfl
  rcases hcases with heq | ⟨u, rows, hne, heq⟩
  · rw [heq]
  · rw [heq, Function.update_of_ne hne.symm]

/-- Each deadline is decided together with the rows it is the earliest of. -/
theorem ReadRows.step {l : WakeSystem.Label} (hR : ReadRows o) (h : o.step accepts l = some o') :
    ReadRows o' := by
  obtain ⟨s, hs, rfl⟩ := Option.map_eq_some_iff.mp h
  refine ⟨fun v caller deadline hv => ?_, fun v deadline hv => ?_⟩
  · show Earliest deadline (o.seenAfter l v)
    have hkept (hdecided : o.system.runtime.tasks[v]? = some (.decided caller (some deadline))) :
        o.seenAfter l v = o.seen v := by
      refine seenAfter_of_ne fun caller' hreading => ?_
      cases hdecided.symm.trans hreading
    rcases WakeSystem.runtime_of_step hs with hsame | ⟨l, rfl, hr⟩
    · have hdecided : o.system.runtime.tasks[v]? = some (.decided caller (some deadline)) :=
        hsame ▸ hv
      rw [hkept hdecided]
      exact hR.tasks v caller deadline hdecided
    · rcases Runtime.decided_of_step hr hv with hdecided | ⟨rfl, hreading, hdeadline⟩
      · rw [hkept hdecided]
        exact hR.tasks v caller deadline hdecided
      · simp only [seenAfter, hreading, Function.update_self]
        rw [WakeCaller.deadline_eq] at hdeadline
        exact hdeadline.symm
  · show Earliest deadline (o.seenForKickAfter l v)
    rcases WakeSystem.asked_of_step hs hv with hasked | ⟨rfl, hasking, hdeadline⟩
    · rw [seenForKickAfter_of_ne (by rw [hasked]; rintro ⟨⟩)]
      exact hR.kicks v deadline hasked
    · simp only [seenForKickAfter, hasking, Function.update_self]
      exact hdeadline.symm

/-! ## 2. The timer and the kick are set by the arms -/

theorem arming_decided {u : Nat} {caller : WakeCaller} {deadline : Int}
    (hu : o.system.runtime.tasks[u]? = some (.decided caller (some deadline)))
    (hlive : caller = .resume ∨ 0 < o.system.runtime.attachedEngines ∨
      o.system.kicksAllowed = true) :
    ⟨caller.floor?, deadline, o.seen u⟩ ∈ o.arming (.runtime (.advance u .go)) := by
  simp only [arming, hu, if_pos hlive]
  rfl

/-- An instant that the timer or the kick is due at, and was not before, is that of
an arm. -/
theorem armed_of_step {l : WakeSystem.Label} {due : Int} (h : o.step accepts l = some o') :
    (o'.system.runtime.retryTimer.waiting = some due →
      o.system.runtime.retryTimer.waiting = some due ∨
        ∃ a ∈ o.arming l, a.instant o.system.runtime.now = due) ∧
    (o'.system.kick = some due → o.system.kick = some due ∨
      ∃ a ∈ o.arming l, a.instant o.system.runtime.now = due) := by
  obtain ⟨s, hs, rfl⟩ := Option.map_eq_some_iff.mp h
  constructor
  · intro hdue
    rcases WakeSystem.runtime_of_step hs with hsame | ⟨l, rfl, hr⟩
    · exact .inl (hsame ▸ hdue)
    · rcases Runtime.waiting_of_step hr hdue with hdue | ⟨u, caller, deadline, rfl, hu, hlive, rfl⟩
      · exact .inl hdue
      · have harm : o.system.runtime.tasks[u]? = some (.decided caller (some deadline)) := hu
        refine .inr ⟨_, arming_decided harm (hlive.imp_right .inl), ?_⟩
        rw [WakeCaller.wakeAt_eq]
        rfl
  · intro hdue
    rcases WakeSystem.kick_of_step hs hdue with hdue | ⟨hallowed, hkick⟩
    · exact .inl hdue
    · rcases hkick with ⟨u, caller, deadline, rfl, hu, rfl⟩ | ⟨v, deadline, rfl, hv, rfl⟩
      · refine .inr ⟨_, arming_decided hu (.inr (.inr hallowed)), ?_⟩
        rw [WakeCaller.wakeAt_eq]
        rfl
      · refine .inr ⟨⟨none, deadline, o.seenForKick v⟩, ?_, rfl⟩
        simp only [arming, hv, if_pos hallowed]
        rfl

/-! ## 3. When the hold is respected -/

theorem ReadRows.earliest {l : WakeSystem.Label} {a : Arming} (hR : ReadRows o)
    (ha : a ∈ o.arming l) : Earliest a.deadline a.rows := by
  unfold arming at ha
  split at ha
  · split at ha
    · rename_i u caller deadline hu
      split at ha <;> cases ha
      exact hR.tasks _ _ deadline hu
    · cases ha
  · split at ha
    · rename_i v deadline hv
      split at ha <;> cases ha
      exact hR.kicks _ deadline hv
    · cases ha
  · cases ha

theorem ReadRows.respects_iff {l : WakeSystem.Label} (hR : ReadRows o) :
    o.Respects l ↔ o.Covered l := by
  refine forall₂_congr fun a ha => forall₂_congr fun hold _ => ?_
  rw [Arming.le_instant_iff (hR.earliest ha)]
  constructor
  · intro h hnow
    exact h.resolve_left (by omega)
  · intro h
    by_cases hnow : hold ≤ o.system.runtime.now
    · exact .inl hnow
    · exact .inr (h (by omega))

/-- For every run from a launch, with any cycles, recoveries, resumes, calls of
`configure` and rows: nothing is armed for an instant before the end of a
credential hold, exactly when each arm that takes effect before that end has it as
its floor, or has read no row that is due earlier. -/
theorem hold_respected_iff {s : WakeSystem} (h : s.Launch) (ls : List WakeSystem.Label) :
    StepSystem.Meets (step accepts) Respects (start s) ls ↔
      StepSystem.Meets (step accepts) Covered (start s) ls := by
  have hstart : ReadRows (start s) := by
    refine ⟨fun v caller deadline hv => ?_, fun v deadline hv => ?_⟩
    · rw [show (start s).system.runtime.tasks = [] from h.runtime.tasks] at hv
      cases hv
    · rw [show (start s).system.kicks = [] from h.kicks] at hv
      cases hv
  exact StepSystem.meets_congr (I := ReadRows) (fun hR _ hs => hR.step hs)
    (fun hR => hR.respects_iff) hstart (StepSystem.meets_of_forall fun _ _ => trivial)

section Sample

/-- A process with the credentials of an earlier one, and background sync enabled. -/
def restored : WakeSystem where
  runtime := { Runtime.coldStart with engine := Engine.coldStart .PERSISTED }
  isEnabled := true
  isForegroundOnly := false
  kick := none
  kicks := []

theorem restored_launch : restored.Launch :=
  ⟨⟨fun _ => rfl, rfl, fun _ => rfl, rfl, rfl, rfl⟩, rfl⟩

/-- Caller `t` flushes, up to the claimed rows. -/
def flushRun (t : Nat) : List Runtime.Label :=
  [.engine (.call t .flush), .engine (.lock t), .engine (.checkPaused t),
    .engine (.readCredentials t), .engine (.begin t 2000), .engine (.cycle t .emitStarted),
    .engine (.cycle t .claim), .engine (.cycle t .resume)]

/-- The request of row `i` of caller 1 is answered. -/
def answerRun (i : Nat) (code : Int) : List Runtime.Label :=
  [.engine (.cycle 1 (.dispatch i (.start 2001))), .engine (.cycle 1 (.dispatch i .send)),
    .engine (.cycle 1 (.dispatch i (.respond (.response code)))),
    .engine (.cycle 1 (.dispatch i (.settle 2100 0))), .engine (.cycle 1 (.dispatch i .emit))]

/-- The cycle of caller `t` reports and ends, and task `u` arms. -/
def endRun (t u : Nat) : List Runtime.Label :=
  [.engine (.cycle t (.record 2100)), .engine (.cycle t .resume), .engine (.cycle t .emitTerminal),
    .engine (.cycle t .resume), .finish t, .advance u .go, .advance u .go, .advance u .go,
    .engine (.unlock t)]

/-- The only row is rejected until 62100, and a flush with nothing to do follows. -/
def heldRun : List Runtime.Label :=
  .attachEngine :: Runtime.recoverRun ++ [.engine (.enqueue [SyncQueueStorage.sampleItem "A"])] ++
    flushRun 1 ++ answerRun 0 401 ++ [.engine (.cycle 1 .probed), .engine (.cycle 1 .release)] ++
    endRun 1 1 ++ flushRun 2 ++ endRun 2 2

/-- The first row cools down until 3100, the second one is rejected until 62100. -/
def mixedRun : List Runtime.Label :=
  .attachEngine :: Runtime.recoverRun ++ [.engine (.enqueue
      [SyncQueueStorage.sampleItem "A", SyncQueueStorage.sampleItem "B"])] ++
    flushRun 1 ++ answerRun 0 503 ++ [.engine (.cycle 1 .probed)] ++ answerRun 1 401 ++
    [.engine (.cycle 1 .join)] ++ endRun 1 1 ++ flushRun 2 ++ endRun 2 2

instance decidableRespects (o : Observed) (l : WakeSystem.Label) : Decidable (o.Respects l) :=
  inferInstanceAs (Decidable (∀ a ∈ o.arming l, ∀ hold ∈ o.holds,
    hold ≤ a.instant o.system.runtime.now))

instance decidableCovered (o : Observed) (l : WakeSystem.Label) : Decidable (o.Covered l) :=
  inferInstanceAs (Decidable (∀ a ∈ o.arming l, ∀ hold ∈ o.holds, o.system.runtime.now < hold →
    (∃ floor ∈ a.floor, hold ≤ floor) ∨ ∀ r ∈ a.rows, hold ≤ r.nextRetryAt))

/-- The second flush reads the held row only. -/
theorem hold_respected_iff_of_heldRun :
    StepSystem.Meets (step fun _ => true) Respects (start restored) (heldRun.map .runtime) ∧
      ∃ o, StepSystem.exec (step fun _ => true) (start restored) (heldRun.map .runtime) = some o ∧
        o.holds = [62100] ∧ o.system.runtime.retryTimer.waiting = some 62100 ∧
        o.system.kick = some 62100 := by
  refine ⟨(hold_respected_iff restored_launch _).mpr (by decide +kernel), ?_⟩
  have hend : (StepSystem.exec (step fun _ => true) (start restored) (heldRun.map .runtime)).map
      (fun o => (o.holds, o.system.runtime.retryTimer.waiting, o.system.kick)) =
        some ([62100], some 62100, some 62100) := by
    decide +kernel
  obtain ⟨o, hrun, ho⟩ := Option.map_eq_some_iff.mp hend
  simp only [Prod.mk.injEq] at ho
  exact ⟨o, hrun, ho⟩

/-! ## 4. An arm that knows nothing of the hold -/

/-- The cycle of the rejected row arms for 62100. The next flush finds nothing to
do, and arms the timer and the kick for the row that cools down until 3100. -/
theorem empty_flush_wakes_early :
    restored.Launch ∧
      ¬StepSystem.Meets (step fun _ => true) Respects (start restored) (mixedRun.map .runtime) ∧
      ∃ o, StepSystem.exec (step fun _ => true) (start restored) (mixedRun.map .runtime) = some o ∧
        o.holds = [62100] ∧ o.system.runtime.now = 2000 ∧
        o.system.runtime.retryTimer.waiting = some 3100 ∧ o.system.kick = some 3100 := by
  refine ⟨restored_launch, by decide +kernel, ?_⟩
  have hend : (StepSystem.exec (step fun _ => true) (start restored) (mixedRun.map .runtime)).map
      (fun o => (o.holds, o.system.runtime.now, o.system.runtime.retryTimer.waiting,
        o.system.kick)) = some ([62100], 2000, some 3100, some 3100) := by
    decide +kernel
  obtain ⟨o, hrun, ho⟩ := Option.map_eq_some_iff.mp hend
  simp only [Prod.mk.injEq] at ho
  exact ⟨o, hrun, ho⟩

end Sample

end Observed

end SyncProvider.Android
