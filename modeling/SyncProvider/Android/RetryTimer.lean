import SyncProvider.Lib.Blocks
import SyncProvider.Lib.StepSystem
import Mathlib.Data.List.Perm.Basic

/-!
# Android: `RetryTimer`

`arm` and `cancel` cancel the waiting coroutine and reset `wakeOwed`, under one lock. A
coroutine can be cancelled until it goes on from its delay. From there `onFire` runs
outside the lock, to a flush that is launched or to a wake that is owed.

`wakeOwed` is modelled with the arm whose wake it is, where the source has a Boolean.

Results:
1. `Base.move` : an arm leads to at most one flush.
2. `replaced_arm_silent_iff` : when an arm that was replaced does nothing any more.
3. `replaced_arm_flushes` : two that do.
-/

namespace SyncProvider.Android

/-! ## The model -/

/-- Where the coroutine of an arm stands. -/
inductive JobPhase where
  /-- In `delay`, or not yet gone on from it. -/
  | delaying (due : Int)
  | cancelled
  /-- In `onFire`, `isOffline` is next. -/
  | fired
  /-- It was offline, `wakeOwed.set(true)` is next. -/
  | firedOffline
  /-- The wake is owed, `isOffline` is asked again. -/
  | recheck
  | networkAvailable
  | done
  deriving DecidableEq

/-- Who is inside `synchronized(lock)`, with `wakeOwed` reset. -/
inductive Section where
  | arming (delayMs : Int)
  | cancelling
  deriving DecidableEq

/-- The timer, with its coroutines and the network. -/
structure SingleShot where
  now : Int
  offline : Bool
  holder : Option Section
  waiting : Option Nat
  wakeOwed : Option Nat
  jobs : List JobPhase
  /-- The arms for which `dispatch` is next. -/
  dispatches : List Nat
  deriving DecidableEq

namespace SingleShot

def initial (now : Int) (offline : Bool) : SingleShot where
  now := now
  offline := offline
  holder := none
  waiting := none
  wakeOwed := none
  jobs := []
  dispatches := []

inductive Label where
  | tick (ms : Nat)
  | connectivity (offline : Bool)
  /-- `arm`, up to its launch. -/
  | arm (delayMs : Int)
  /-- `cancel`, but for its return. -/
  | cancel
  /-- The launch of the coroutine, if there is one, and the return. -/
  | leave
  /-- A coroutine goes on from its delay. -/
  | resume (k : Nat)
  /-- The next step of its `onFire`. -/
  | advance (k : Nat)
  /-- `onNetworkAvailable` is called. -/
  | networkAvailable
  /-- The next `dispatch` launches its flush. -/
  | launch (i : Nat)
  deriving DecidableEq

/-- `Job.cancel`. -/
def cancelJob : JobPhase → JobPhase
  | .delaying _ => .cancelled
  | phase => phase

/-- `waiting?.cancel()` and `wakeOwed.set(false)`. -/
def reset (s : SingleShot) : SingleShot :=
  { s with
    wakeOwed := none
    jobs := match s.waiting with
      | none => s.jobs
      | some k => s.jobs.modify k cancelJob }

def moveTo (s : SingleShot) (k : Nat) (phase : JobPhase) : SingleShot :=
  { s with jobs := s.jobs.set k phase }

/-- `wakeOwed.compareAndSet(true, false)`, with the `dispatch` that is next then. -/
def onNetworkAvailable (s : SingleShot) : SingleShot :=
  match s.wakeOwed with
  | none => s
  | some k => { s with wakeOwed := none, dispatches := s.dispatches ++ [k] }

def step (s : SingleShot) : Label → Option SingleShot
  | .tick ms => some { s with now := s.now + ms }
  | .connectivity offline => some { s with offline := offline }
  | .arm delayMs =>
    if s.holder = none then some { s.reset with holder := some (.arming delayMs) } else none
  | .cancel =>
    if s.holder = none then some { s.reset with holder := some .cancelling, waiting := none }
    else none
  | .leave =>
    match s.holder with
    | none => none
    | some (.arming delayMs) =>
      some { s with
        holder := none
        waiting := some s.jobs.length
        jobs := s.jobs ++ [.delaying (s.now + max delayMs 0)] }
    | some .cancelling => some { s with holder := none }
  | .resume k =>
    match s.jobs[k]? with
    | some (.delaying due) => if due ≤ s.now then some (s.moveTo k .fired) else none
    | _ => none
  | .advance k =>
    match s.jobs[k]? with
    | some .fired =>
      if s.offline then some (s.moveTo k .firedOffline)
      else some { s.moveTo k .done with dispatches := s.dispatches ++ [k] }
    | some .firedOffline => some { s.moveTo k .recheck with wakeOwed := some k }
    | some .recheck => some (s.moveTo k (if s.offline then .done else .networkAvailable))
    | some .networkAvailable => some (s.moveTo k .done).onNetworkAvailable
    | _ => none
  | .networkAvailable => some s.onNetworkAvailable
  | .launch i =>
    s.dispatches[i]?.map fun _ => { s with dispatches := s.dispatches.eraseIdx i }

/-! ## What happens -/

inductive Event where
  /-- `arm` has returned. -/
  | armed (k : Nat)
  /-- `cancel` has returned. -/
  | cancelled
  /-- A flush has been launched for this arm. -/
  | launched (k : Nat)
  deriving DecidableEq

def observed (s : SingleShot) : Label → List Event
  | .leave =>
    match s.holder with
    | some (.arming _) => [.armed s.jobs.length]
    | some .cancelling => [.cancelled]
    | none => []
  | .launch i =>
    match s.dispatches[i]? with
    | some k => [.launched k]
    | none => []
  | .tick _ | .connectivity _ | .arm _ | .cancel | .resume _ | .advance _ | .networkAvailable => []

def Event.replaces : Event → Bool
  | .armed _ | .cancelled => true
  | .launched _ => false

/-- A later `arm` or a `cancel` has returned. -/
def Superseded (log : List Event) (k : Nat) : Prop :=
  ∃ a b, log = a ++ .armed k :: b ∧ ∃ event ∈ b, event.replaces = true

/-- No arm that was superseded has launched a flush since, and none of them is owed a
wake. -/
def Silent (p : SingleShot × List Event) : Prop :=
  (∀ a k b, p.2 = a ++ .launched k :: b → ¬ Superseded a k) ∧
    ∀ k ∈ p.1.wakeOwed, ¬ Superseded p.2 k

/-- A coroutine is past its delay and has not come to its flush or its wake. -/
def Firing (phase : JobPhase) : Prop := phase = .fired ∨ phase = .firedOffline

instance (phase : JobPhase) : Decidable (Firing phase) := inferInstanceAs (Decidable (_ ∨ _))

/-- No coroutine is past its delay and no flush is to be launched. -/
def Settled (s : SingleShot) : Prop := (∀ phase ∈ s.jobs, ¬ Firing phase) ∧ s.dispatches = []

instance (s : SingleShot) : Decidable s.Settled := inferInstanceAs (Decidable (_ ∧ _))

/-- `arm` and `cancel` return when nothing of an earlier arm is under way: no coroutine
fires, no flush is to be launched and no wake has become owed. -/
def ReplacesIdle (s : SingleShot) : Label → Prop
  | .leave => s.Settled ∧ s.wakeOwed = none
  | _ => True

instance (s : SingleShot) (l : Label) : Decidable (s.ReplacesIdle l) :=
  match l with
  | .leave => inferInstanceAs (Decidable (_ ∧ _))
  | .tick _ | .connectivity _ | .arm _ | .cancel | .resume _ | .advance _ | .networkAvailable
  | .launch _ => .isTrue trivial

/-! ## 1. One flush for each arm -/

variable {s s' : SingleShot} {log events : List Event} {k : Nat}

/-- What a step can do, with its events. -/
inductive Moves (s : SingleShot) : List Event → SingleShot → Prop where
  | elapses {now : Int} {offline : Bool} : Moves s [] { s with now := now, offline := offline }
  | takes {waiting : Option Nat} (section' : Section) (hholder : s.holder = none) :
    Moves s [] { s.reset with holder := some section', waiting := waiting }
  | arms {due : Int} (hholder : s.holder.isSome = true) :
    Moves s [.armed s.jobs.length]
      { s with holder := none, waiting := some s.jobs.length, jobs := s.jobs ++ [.delaying due] }
  | cancels (hholder : s.holder.isSome = true) : Moves s [.cancelled] { s with holder := none }
  | fires {k : Nat} {due : Int} (hjob : s.jobs[k]? = some (.delaying due)) :
    Moves s [] (s.moveTo k .fired)
  | findsOffline {k : Nat} (hjob : s.jobs[k]? = some .fired) :
    Moves s [] (s.moveTo k .firedOffline)
  | dispatches {k : Nat} (hjob : s.jobs[k]? = some .fired) :
    Moves s [] { s.moveTo k .done with dispatches := s.dispatches ++ [k] }
  | owes {k : Nat} (hjob : s.jobs[k]? = some .firedOffline) :
    Moves s [] { s.moveTo k .recheck with wakeOwed := some k }
  | rechecks {k : Nat} {phase phase' : JobPhase} (hjob : s.jobs[k]? = some phase)
    (hphase : phase = .recheck ∨ phase = .networkAvailable)
    (hphase' : phase' = .networkAvailable ∨ phase' = .done) : Moves s [] (s.moveTo k phase')
  | delivers {k : Nat} (howed : s.wakeOwed = some k) :
    Moves s [] { s with wakeOwed := none, dispatches := s.dispatches ++ [k] }
  | deliversOwn {j k : Nat} (hjob : s.jobs[j]? = some .networkAvailable)
    (howed : s.wakeOwed = some k) :
    Moves s [] { s.moveTo j .done with wakeOwed := none, dispatches := s.dispatches ++ [k] }
  | launches {i k : Nat} (hget : s.dispatches[i]? = some k) :
    Moves s [.launched k] { s with dispatches := s.dispatches.eraseIdx i }

theorem moves_step {l : Label} (h : s.step l = some s') : Moves s (s.observed l) s' := by
  cases l with
  | tick ms =>
    cases h
    exact .elapses
  | connectivity offline =>
    cases h
    exact .elapses
  | arm delayMs =>
    simp only [step] at h
    split at h <;> cases h
    exact .takes _ ‹_›
  | cancel =>
    simp only [step] at h
    split at h <;> cases h
    exact .takes _ ‹_›
  | leave =>
    simp only [step] at h
    split at h
    · cases h
    · rename_i hholder
      cases h
      simp only [observed, hholder]
      exact .arms (by rw [hholder]; rfl)
    · rename_i hholder
      cases h
      simp only [observed, hholder]
      exact .cancels (by rw [hholder]; rfl)
  | resume k =>
    simp only [step] at h
    split at h
    · rename_i hjob
      split at h <;> cases h
      exact .fires hjob
    · cases h
  | advance k =>
    simp only [step] at h
    split at h
    · rename_i hjob
      split at h <;> cases h
      · exact .findsOffline hjob
      · exact .dispatches hjob
    · rename_i hjob
      cases h
      exact .owes hjob
    · rename_i hjob
      cases h
      refine .rechecks hjob (.inl rfl) ?_
      split
      · exact .inr rfl
      · exact .inl rfl
    · rename_i hjob
      cases h
      unfold onNetworkAvailable
      split
      · exact .rechecks hjob (.inr rfl) (.inr rfl)
      · rename_i howed
        exact .deliversOwn hjob howed
    · cases h
  | networkAvailable =>
    cases h
    unfold onNetworkAvailable
    split
    · exact .elapses
    · rename_i howed
      exact .delivers howed
  | launch i =>
    simp only [step, Option.map_eq_some_iff] at h
    obtain ⟨k, hget, rfl⟩ := h
    simp only [observed, hget]
    exact .launches hget

/-- The coroutine of an arm may still come to a flush or a wake. -/
def Live (phase : JobPhase) : Prop := Firing phase ∨ ∃ due, phase = .delaying due

instance (phase : JobPhase) : Decidable (Live phase) :=
  match phase with
  | .delaying due => .isTrue (.inr ⟨due, rfl⟩)
  | .fired => .isTrue (.inl (.inl rfl))
  | .firedOffline => .isTrue (.inl (.inr rfl))
  | .cancelled | .recheck | .networkAvailable | .done =>
    .isFalse (by rintro ((h | h) | ⟨due, h⟩) <;> cases h)

/-- Its own coroutine may. -/
def live (s : SingleShot) (k : Nat) : Prop := ∃ phase ∈ s.jobs[k]?, Live phase

instance (s : SingleShot) (k : Nat) : Decidable (s.live k) :=
  inferInstanceAs (Decidable (∃ phase ∈ s.jobs[k]?, Live phase))

/-- What is under way for an arm. -/
def credit (s : SingleShot) (k : Nat) : Nat :=
  (if s.live k then 1 else 0) + (if s.wakeOwed = some k then 1 else 0) + s.dispatches.count k

structure Base (log : List Event) (s : SingleShot) : Prop where
  armed : ∀ k, .armed k ∈ log ↔ k < s.jobs.length
  /-- Only the waiting coroutine is in its delay, and none is while the lock is held. -/
  delaying : ∀ (k : Nat) due, s.jobs[k]? = some (.delaying due) →
    s.waiting = some k ∧ s.holder = none
  known : ∀ k, k ∈ s.dispatches ∨ s.wakeOwed = some k ∨ .launched k ∈ log → k < s.jobs.length
  credit : ∀ k, s.credit k + log.count (.launched k) ≤ 1

theorem length_moveTo (s : SingleShot) (k : Nat) (phase : JobPhase) :
    (s.moveTo k phase).jobs.length = s.jobs.length := List.length_set

theorem getElem?_moveTo_of_ne {j : Nat} (hne : j ≠ k) (phase : JobPhase) :
    (s.moveTo k phase).jobs[j]? = s.jobs[j]? := List.getElem?_set_ne hne.symm

theorem getElem?_moveTo_self {phase : JobPhase} (h : s.jobs[k]? = some phase) (phase' : JobPhase) :
    (s.moveTo k phase').jobs[k]? = some phase' :=
  List.getElem?_set_self (List.getElem?_eq_some_iff.mp h).1

theorem length_reset (s : SingleShot) : s.reset.jobs.length = s.jobs.length := by
  unfold reset
  cases s.waiting with
  | none => rfl
  | some k => exact List.length_modify _ _ _

/-- A reset leaves a coroutine where it is, or cancels it in its delay. -/
theorem getElem?_reset {phase : JobPhase} (h : s.reset.jobs[k]? = some phase) :
    s.jobs[k]? = some phase ∨
      phase = .cancelled ∧ ∃ due, s.jobs[k]? = some (.delaying due) := by
  unfold reset at h
  cases hwaiting : s.waiting with
  | none =>
    rw [hwaiting] at h
    exact .inl h
  | some j =>
    rw [hwaiting] at h
    change (s.jobs.modify j cancelJob)[k]? = some phase at h
    rw [List.getElem?_modify] at h
    obtain ⟨phase₀, hphase₀, heq⟩ := Option.map_eq_some_iff.mp h
    split at heq
    · cases phase₀ with
      | delaying due => exact .inr ⟨heq.symm, due, hphase₀⟩
      | cancelled | fired | firedOffline | recheck | networkAvailable | done =>
        cases heq
        exact .inl hphase₀
    · cases heq
      exact .inl hphase₀

/-- Behind a reset nothing is in its delay. -/
theorem Base.not_delaying_reset (h : Base log s) {due : Int} :
    s.reset.jobs[k]? ≠ some (.delaying due) := by
  intro hjob
  rcases getElem?_reset hjob with hold | ⟨hphase, -⟩
  · obtain ⟨hwaiting, -⟩ := h.delaying k due hold
    have hreset : s.reset.jobs = s.jobs.modify k cancelJob := by rw [reset, hwaiting]
    rw [hreset, List.getElem?_modify, hold] at hjob
    simp [cancelJob] at hjob
  · cases hphase

theorem live_of_reset (h : s.reset.live k) : s.live k := by
  obtain ⟨phase, hphase, hlive⟩ := h
  rcases getElem?_reset hphase with hold | ⟨rfl, -⟩
  · exact ⟨phase, hold, hlive⟩
  · exact absurd hlive (by decide)

theorem live_moveTo_of_ne {j : Nat} (hne : j ≠ k) (phase : JobPhase) :
    (s.moveTo k phase).live j ↔ s.live j := by
  rw [live, getElem?_moveTo_of_ne hne, live]

theorem live_moveTo_self {phase : JobPhase} (h : s.jobs[k]? = some phase) (phase' : JobPhase) :
    (s.moveTo k phase').live k ↔ Live phase' := by
  rw [live, getElem?_moveTo_self h]
  simp

theorem live_of_getElem? {phase : JobPhase} (h : s.jobs[k]? = some phase) (hlive : Live phase) :
    s.live k := ⟨phase, h, hlive⟩

/-- A coroutine goes on, with as much to come as before. -/
theorem live_of_moveTo {phase phase' : JobPhase} (h : s.jobs[k]? = some phase)
    (hlive : Live phase' → Live phase) {j : Nat} (hj : (s.moveTo k phase').live j) : s.live j := by
  by_cases hne : j = k
  · subst hne
    exact ⟨phase, h, hlive ((live_moveTo_self h phase').mp hj)⟩
  · exact (live_moveTo_of_ne hne phase').mp hj

theorem ite_le_ite {p q : Prop} [Decidable p] [Decidable q] (h : p → q) :
    (if p then 1 else 0) ≤ if q then 1 else 0 := by
  split
  · rename_i hp
    exact Nat.le_of_eq (if_pos (h hp)).symm
  · exact Nat.zero_le _

theorem credit_le (hlive : s'.live k → s.live k)
    (howed : s'.wakeOwed = some k → s.wakeOwed = some k)
    (hcount : s'.dispatches.count k ≤ s.dispatches.count k) : s'.credit k ≤ s.credit k := by
  unfold credit
  exact Nat.add_le_add (Nat.add_le_add (ite_le_ite hlive) (ite_le_ite howed)) hcount

theorem count_eraseIdx {l : List Nat} {i : Nat} (h : l[i]? = some k) (j : Nat) :
    (l.eraseIdx i).count j + (if k = j then 1 else 0) = l.count j := by
  obtain ⟨hi, rfl⟩ := List.getElem?_eq_some_iff.mp h
  rw [← (List.getElem_cons_eraseIdx_perm hi).count_eq j, List.count_cons]
  simp

theorem count_dispatched (l : List Nat) (k : Nat) {j : Nat} :
    (l ++ [k]).count j = l.count j + if k = j then 1 else 0 := by
  rw [List.count_append, List.count_singleton]
  simp

/-- A coroutine comes to its flush. -/
theorem credit_spends (hlive : s.live k) (hdone : ¬ s'.live k)
    (howed : s'.wakeOwed = some k → s.wakeOwed = some k)
    (hcount : s'.dispatches.count k = s.dispatches.count k + if k = k then 1 else 0) :
    s'.credit k ≤ s.credit k := by
  rw [if_pos rfl] at hcount
  have howes := ite_le_ite howed
  rw [credit, credit, if_pos hlive, if_neg hdone, hcount]
  omega

/-- The wake that is owed is taken. -/
theorem credit_delivers {jobs : List JobPhase} {j : Nat} (howed : s.wakeOwed = some k)
    (hlive : live { s with jobs := jobs } j → s.live j) :
    credit { s with jobs := jobs, wakeOwed := none, dispatches := s.dispatches ++ [k] } j ≤
      s.credit j := by
  rw [credit, credit, howed, count_dispatched]
  refine Nat.le_trans (Nat.add_le_add_right (Nat.add_le_add_right (ite_le_ite hlive) _) _) ?_
  simp only [reduceCtorEq, if_false, Option.some.injEq]
  omega

/-- What is under way for an arm and what has been launched for it is never more. -/
theorem Moves.credit (h : Moves s events s') {j : Nat} (hj : j < s.jobs.length) :
    s'.credit j + events.count (.launched j) ≤ s.credit j := by
  cases h with
  | elapses => exact Nat.le_refl _
  | takes section' hholder => exact credit_le live_of_reset (fun h => by cases h) (Nat.le_refl _)
  | arms hholder =>
    refine credit_le ?_ (fun h => h) (Nat.le_refl _)
    rintro ⟨phase, hphase, hlive⟩
    refine ⟨phase, ?_, hlive⟩
    rw [Option.mem_def, List.getElem?_append_left hj] at hphase
    exact hphase
  | cancels => exact Nat.le_refl _
  | fires hjob =>
    exact credit_le (live_of_moveTo hjob fun _ => .inr ⟨_, rfl⟩) (fun h => h) (Nat.le_refl _)
  | findsOffline hjob =>
    exact credit_le (live_of_moveTo hjob fun _ => .inl (.inl rfl)) (fun h => h) (Nat.le_refl _)
  | rechecks hjob hphase hphase' =>
    refine credit_le (live_of_moveTo hjob fun hlive => ?_) (fun h => h) (Nat.le_refl _)
    rcases hphase' with rfl | rfl <;> exact absurd hlive (by decide)
  | @dispatches k hjob =>
    by_cases hj : j = k
    · subst hj
      have hlive : s.live j := live_of_getElem? hjob (.inl (.inl rfl))
      have hdone : ¬ (s.moveTo j .done).live j := by
        rw [live_moveTo_self hjob]
        decide
      exact credit_spends hlive hdone (fun h => h) (count_dispatched _ _)
    · refine credit_le (live_moveTo_of_ne hj _).mp (fun h => h) ?_
      rw [count_dispatched, if_neg (Ne.symm hj)]
      exact Nat.le_refl _
  | @owes k hjob =>
    by_cases hj : j = k
    · subst hj
      have hlive : s.live j := live_of_getElem? hjob (.inl (.inr rfl))
      have hdone : ¬ (s.moveTo j .recheck).live j := by
        rw [live_moveTo_self hjob]
        decide
      show (if (s.moveTo j .recheck).live j then 1 else 0) + (if some j = some j then 1 else 0) +
        s.dispatches.count j + 0 ≤ s.credit j
      rw [SingleShot.credit, if_pos hlive, if_neg hdone, if_pos rfl]
      omega
    · refine credit_le (live_moveTo_of_ne hj _).mp (fun h => ?_) (Nat.le_refl _)
      exact absurd (Option.some.inj h).symm hj
  | delivers howed => exact credit_delivers howed id
  | deliversOwn hjob howed =>
    refine credit_delivers howed ?_
    exact live_of_moveTo hjob fun hlive => absurd hlive (by decide)
  | @launches i k hget =>
    have hcount := count_eraseIdx hget j
    have hone : [Event.launched k].count (.launched j) = if k = j then 1 else 0 := by
      rw [List.count_singleton]
      simp
    show (if s.live j then 1 else 0) + (if s.wakeOwed = some j then 1 else 0) +
      (s.dispatches.eraseIdx i).count j + [Event.launched k].count (.launched j) ≤ s.credit j
    rw [hone, SingleShot.credit]
    omega

/-- Only an `arm` makes a coroutine, and no coroutine goes back to its delay. -/
theorem Moves.jobs (h : Moves s events s') :
    (events = [.armed s.jobs.length] ∧ s'.jobs.length = s.jobs.length + 1) ∨
      (∀ k, .armed k ∉ events) ∧ s'.jobs.length = s.jobs.length := by
  cases h with
  | arms => exact .inl ⟨rfl, List.length_append⟩
  | takes => exact .inr ⟨by simp, length_reset s⟩
  | elapses | cancels | delivers | launches => exact .inr ⟨by simp, rfl⟩
  | fires | findsOffline | dispatches | owes | rechecks | deliversOwn =>
    exact .inr ⟨by simp, length_moveTo s _ _⟩

theorem Base.armed_move (h : Base log s) (hmove : Moves s events s') (k : Nat) :
    .armed k ∈ log ++ events ↔ k < s'.jobs.length := by
  rw [List.mem_append, h.armed]
  rcases hmove.jobs with ⟨rfl, hlength⟩ | ⟨hnot, hlength⟩
  · rw [hlength, List.mem_singleton, Event.armed.injEq]
    omega
  · rw [hlength, or_iff_left (hnot k)]

theorem Base.known_move (h : Base log s) (hmove : Moves s events s') (k : Nat)
    (hk : k ∈ s'.dispatches ∨ s'.wakeOwed = some k ∨ .launched k ∈ log ++ events) :
    k < s'.jobs.length := by
  have hlength : s.jobs.length ≤ s'.jobs.length := by
    rcases hmove.jobs with ⟨-, hlength⟩ | ⟨-, hlength⟩ <;> omega
  refine Nat.lt_of_lt_of_le ?_ hlength
  rw [List.mem_append] at hk
  have hold := h.known k
  cases hmove with
  | elapses | fires | findsOffline | rechecks =>
    rcases hk with hk | hk | hk | hk
    · exact hold (.inl hk)
    · exact hold (.inr (.inl hk))
    · exact hold (.inr (.inr hk))
    · cases hk
  | arms | cancels =>
    rcases hk with hk | hk | hk | hk
    · exact hold (.inl hk)
    · exact hold (.inr (.inl hk))
    · exact hold (.inr (.inr hk))
    · simp at hk
  | takes =>
    rcases hk with hk | hk | hk | hk
    · exact hold (.inl hk)
    · cases hk
    · exact hold (.inr (.inr hk))
    · cases hk
  | @dispatches j hjob =>
    rcases hk with hk | hk | hk | hk
    · rcases List.mem_append.mp hk with hk | hk
      · exact hold (.inl hk)
      · obtain rfl := List.mem_singleton.mp hk
        exact (List.getElem?_eq_some_iff.mp hjob).1
    · exact hold (.inr (.inl hk))
    · exact hold (.inr (.inr hk))
    · cases hk
  | @owes j hjob =>
    rcases hk with hk | hk | hk | hk
    · exact hold (.inl hk)
    · cases hk
      exact (List.getElem?_eq_some_iff.mp hjob).1
    · exact hold (.inr (.inr hk))
    · cases hk
  | @delivers j howed | @deliversOwn _ j _ howed =>
    rcases hk with hk | hk | hk | hk
    · rcases List.mem_append.mp hk with hk | hk
      · exact hold (.inl hk)
      · obtain rfl := List.mem_singleton.mp hk
        exact hold (.inr (.inl howed))
    · cases hk
    · exact hold (.inr (.inr hk))
    · cases hk
  | launches hget =>
    rcases hk with hk | hk | hk | hk
    · exact hold (.inl (List.mem_of_mem_eraseIdx hk))
    · exact hold (.inr (.inl hk))
    · exact hold (.inr (.inr hk))
    · cases List.mem_singleton.mp hk
      exact hold (.inl (List.mem_of_getElem? hget))

theorem Base.delaying_move (h : Base log s) (hmove : Moves s events s') (k : Nat) (due : Int)
    (hk : s'.jobs[k]? = some (.delaying due)) : s'.waiting = some k ∧ s'.holder = none := by
  have hmoved {j : Nat} {phase phase' : JobPhase} (hjob : s.jobs[j]? = some phase)
      (hphase : phase' ≠ .delaying due)
      (hk : (s.moveTo j phase').jobs[k]? = some (.delaying due)) :
      s.waiting = some k ∧ s.holder = none := by
    by_cases hne : k = j
    · subst hne
      rw [getElem?_moveTo_self hjob] at hk
      exact absurd (Option.some.inj hk) hphase
    · rw [getElem?_moveTo_of_ne hne] at hk
      exact h.delaying k due hk
  cases hmove with
  | elapses | delivers | launches => exact h.delaying k due hk
  | takes => exact absurd hk h.not_delaying_reset
  | arms hholder =>
    rcases Nat.lt_or_ge k s.jobs.length with hlt | hge
    · change (s.jobs ++ _)[k]? = _ at hk
      rw [List.getElem?_append_left hlt] at hk
      rw [(h.delaying k due hk).2] at hholder
      cases hholder
    · have hlt := (List.getElem?_eq_some_iff.mp hk).1
      rw [List.length_append, List.length_singleton] at hlt
      obtain rfl : k = s.jobs.length := by omega
      exact ⟨rfl, rfl⟩
  | cancels => exact ⟨(h.delaying k due hk).1, rfl⟩
  | fires hjob | findsOffline hjob | dispatches hjob | owes hjob | deliversOwn hjob =>
    exact hmoved hjob (by simp) hk
  | rechecks hjob hphase hphase' =>
    refine hmoved hjob ?_ hk
    rcases hphase' with rfl | rfl <;> simp

/-- Nothing is under way for an arm that is still to come. -/
theorem credit_of_unknown
    (h : ∀ k, k ∈ s.dispatches ∨ s.wakeOwed = some k ∨ .launched k ∈ log → k < s.jobs.length)
    (hk : s.jobs.length ≤ k) : s.credit k = 0 ∧ log.count (.launched k) = 0 := by
  have hnot (hmem : k ∈ s.dispatches ∨ s.wakeOwed = some k ∨ .launched k ∈ log) : False :=
    absurd (h k hmem) (Nat.not_lt.mpr hk)
  have hlive : ¬ s.live k := by
    rintro ⟨phase, hphase, -⟩
    rw [List.getElem?_eq_none hk] at hphase
    cases hphase
  refine ⟨?_, List.count_eq_zero.mpr fun hmem => hnot (.inr (.inr hmem))⟩
  rw [credit, if_neg hlive, if_neg fun howed => hnot (.inr (.inl howed)),
    List.count_eq_zero.mpr fun hmem => hnot (.inl hmem)]

theorem Base.credit_move (h : Base log s) (hmove : Moves s events s') (k : Nat) :
    s'.credit k + (log ++ events).count (.launched k) ≤ 1 := by
  rcases Nat.lt_or_ge k s.jobs.length with hlt | hge
  · have hle := hmove.credit hlt
    have hold := h.credit k
    rw [List.count_append]
    omega
  · rcases hmove.jobs with ⟨rfl, -⟩ | ⟨-, hlength⟩
    · -- the coroutine may be the new one
      obtain ⟨hcredit, hcount⟩ := credit_of_unknown h.known hge
      rw [List.count_append, hcount]
      cases hmove with
      | @arms due hholder =>
        have hrest : (if s.wakeOwed = some k then 1 else 0) + s.dispatches.count k = 0 := by
          rw [SingleShot.credit] at hcredit
          omega
        have hnone : [Event.armed s.jobs.length].count (.launched k) = 0 := by simp
        show (if SingleShot.live _ k then 1 else 0) + (if s.wakeOwed = some k then 1 else 0) +
          s.dispatches.count k + (0 + [Event.armed s.jobs.length].count (.launched k)) ≤ 1
        rw [hnone, Nat.add_assoc (ite _ _ _), hrest]
        split <;> decide
    · obtain ⟨hcredit, hcount⟩ :=
        credit_of_unknown (h.known_move hmove) (hlength ▸ hge)
      rw [hcredit, hcount]
      exact Nat.zero_le 1

theorem Base.move (h : Base log s) (hmove : Moves s events s') : Base (log ++ events) s' where
  armed := h.armed_move hmove
  delaying := h.delaying_move hmove
  known := h.known_move hmove
  credit := h.credit_move hmove

theorem base_initial (now : Int) (offline : Bool) : Base [] (initial now offline) where
  armed k := by simp [initial]
  delaying k due h := by cases h
  known k h := by
    rcases h with h | h | h <;> cases h
  credit k := by
    have hlive : ¬ (initial now offline).live k := by
      rintro ⟨phase, hphase, -⟩
      cases hphase
    rw [SingleShot.credit, if_neg hlive]
    exact Nat.zero_le 1

/-! ## 2. Arms that were replaced -/

theorem Superseded.append (h : Superseded log k) (events : List Event) :
    Superseded (log ++ events) k := by
  obtain ⟨a, b, rfl, event, hmem, hreplaces⟩ := h
  refine ⟨a, b ++ events, by simp, event, List.mem_append_left _ hmem, hreplaces⟩

theorem superseded_of_mem {event : Event} (h : .armed k ∈ log) (hreplaces : event.replaces = true) :
    Superseded (log ++ [event]) k := by
  obtain ⟨a, b, rfl⟩ := List.append_of_mem h
  refine ⟨a, b ++ [event], by simp, event, ?_, hreplaces⟩
  exact List.mem_append_right b List.mem_cons_self

/-- An event that replaces nothing. -/
theorem superseded_snoc_iff {event : Event} (hreplaces : event.replaces = false) :
    Superseded (log ++ [event]) k ↔ Superseded log k := by
  refine ⟨?_, fun h => h.append _⟩
  rintro ⟨a, b, hlog, event', hmem, hevent'⟩
  rcases Blocks.split_opened hlog with ⟨rfl, -, -⟩ | ⟨b', hlog', rfl⟩
  · cases hreplaces
  · rcases List.mem_append.mp hmem with hmem | hmem
    · exact ⟨a, b', hlog', event', hmem, hevent'⟩
    · rw [List.mem_singleton.mp hmem, hreplaces] at hevent'
      cases hevent'

theorem not_superseded_armed (h : .armed k ∉ log) : ¬ Superseded (log ++ [Event.armed k]) k := by
  rintro ⟨a, b, hlog, event, hmem, -⟩
  rcases Blocks.split_opened hlog with ⟨-, -, rfl⟩ | ⟨b', rfl, -⟩
  · cases hmem
  · exact h (List.mem_append_right a List.mem_cons_self)

theorem credit_pos_iff :
    0 < s.credit k ↔ s.live k ∨ s.wakeOwed = some k ∨ k ∈ s.dispatches := by
  constructor
  · intro hpos
    by_contra hnone
    obtain ⟨hlive, howed, hmem⟩ : ¬ s.live k ∧ s.wakeOwed ≠ some k ∧ k ∉ s.dispatches := by
      simpa only [not_or] using hnone
    rw [credit, if_neg hlive, if_neg howed, List.count_eq_zero.mpr hmem] at hpos
    exact Nat.lt_irrefl 0 hpos
  · rintro (hlive | howed | hmem)
    · rw [credit, if_pos hlive]
      omega
    · rw [credit, if_pos howed]
      omega
    · exact Nat.add_pos_right _ (List.count_pos_iff.mpr hmem)

/-- Nothing is under way for an arm that was superseded. -/
structure Current (log : List Event) (s : SingleShot) : Prop where
  base : Base log s
  underWay : ∀ k, 0 < s.credit k → ¬ Superseded log k
  launched : ∀ a k b, log = a ++ .launched k :: b → ¬ Superseded a k

theorem Current.silent (h : Current log s) : Silent (s, log) :=
  ⟨h.launched, fun k hk => h.underWay k (credit_pos_iff.mpr (.inr (.inl hk)))⟩

/-- Nothing is under way at all once nothing fires and the lock is held. -/
theorem Base.credit_idle (h : Base log s) (hsettled : s.Settled) (howed : s.wakeOwed = none)
    (hholder : s.holder.isSome = true) : ¬ 0 < s.credit k := by
  rw [credit_pos_iff, howed, hsettled.2]
  rintro (⟨phase, hphase, hfiring | ⟨due, rfl⟩⟩ | hk | hk)
  · exact hsettled.1 phase (List.mem_of_getElem? hphase) hfiring
  · rw [(h.delaying k due hphase).2] at hholder
    cases hholder
  · cases hk
  · cases hk

/-- A step in which neither `arm` nor `cancel` returns. -/
theorem Moves.quiet (h : Moves s events s') (hquiet : ∀ event ∈ events, event.replaces = false) :
    s'.jobs.length = s.jobs.length ∧
      (events = [] ∨ ∃ k, events = [.launched k] ∧ 0 < s.credit k) := by
  cases h with
  | arms => cases hquiet _ List.mem_cons_self
  | cancels => cases hquiet _ List.mem_cons_self
  | takes => exact ⟨length_reset s, .inl rfl⟩
  | elapses | delivers => exact ⟨rfl, .inl rfl⟩
  | fires | findsOffline | dispatches | owes | rechecks | deliversOwn =>
    exact ⟨length_moveTo s _ _, .inl rfl⟩
  | launches hget =>
    exact ⟨rfl, .inr ⟨_, rfl, credit_pos_iff.mpr (.inr (.inr (List.mem_of_getElem? hget)))⟩⟩

theorem Current.quiet (h : Current log s) (hmove : Moves s events s')
    (hquiet : ∀ event ∈ events, event.replaces = false) : Current (log ++ events) s' := by
  obtain ⟨hlength, hevents⟩ := hmove.quiet hquiet
  have hsame (k : Nat) : Superseded (log ++ events) k ↔ Superseded log k := by
    rcases hevents with rfl | ⟨j, rfl, -⟩
    · rw [List.append_nil]
    · exact superseded_snoc_iff rfl
  refine ⟨h.base.move hmove, fun k hcredit => ?_, fun a k b hlog => ?_⟩
  · rw [hsame]
    refine h.underWay k ?_
    have hk : k < s'.jobs.length := by
      refine Nat.lt_of_not_le fun hge => ?_
      rw [(credit_of_unknown (h.base.known_move hmove) hge).1] at hcredit
      exact Nat.lt_irrefl 0 hcredit
    have hle := hmove.credit (hlength ▸ hk)
    omega
  · rcases hevents with rfl | ⟨j, rfl, hj⟩
    · rw [List.append_nil] at hlog
      exact h.launched a k b hlog
    · rcases Blocks.split_opened hlog with ⟨heq, rfl, -⟩ | ⟨b', hlog', -⟩
      · cases heq
        exact h.underWay k hj
      · exact h.launched a k b' hlog'

theorem Current.replaces (h : Current log s) (hmove : Moves s events s') {event : Event}
    (hmem : event ∈ events) (hreplaces : event.replaces = true)
    (hidle : s.Settled ∧ s.wakeOwed = none) : Current (log ++ events) s' := by
  have hlaunched {event : Event} (hreplaces : event.replaces = true) (a : List Event) (k : Nat)
      (b : List Event) (hlog : log ++ [event] = a ++ .launched k :: b) : ¬ Superseded a k := by
    rcases Blocks.split_opened hlog with ⟨rfl, -, -⟩ | ⟨b', hlog', -⟩
    · cases hreplaces
    · exact h.launched a k b' hlog'
  have hbase := h.base.move hmove
  cases hmove with
  | @arms due hholder =>
    refine ⟨hbase, fun k hcredit => ?_, hlaunched rfl⟩
    rcases Nat.lt_or_ge k s.jobs.length with hlt | hge
    · have hmoves : Moves s [.armed s.jobs.length] { s with
          holder := none
          waiting := some s.jobs.length
          jobs := s.jobs ++ [.delaying due] } := .arms hholder
      have hle := hmoves.credit hlt
      exact absurd (Nat.lt_of_lt_of_le hcredit (Nat.le_trans (Nat.le_add_right _ _) hle))
        (h.base.credit_idle hidle.1 hidle.2 hholder)
    · have hk : k < s.jobs.length + 1 := by
        refine Nat.lt_of_not_le fun hge' => ?_
        have hknown := hbase.known
        rw [(credit_of_unknown hknown (by simpa using hge')).1] at hcredit
        exact Nat.lt_irrefl 0 hcredit
      obtain rfl : k = s.jobs.length := by omega
      refine not_superseded_armed fun hmem => ?_
      exact Nat.lt_irrefl _ ((h.base.armed _).mp hmem)
  | cancels hholder =>
    refine ⟨hbase, fun k hcredit => ?_, hlaunched rfl⟩
    exact absurd hcredit (h.base.credit_idle hidle.1 hidle.2 hholder)
  | launches =>
    cases List.mem_singleton.mp hmem
    cases hreplaces
  | elapses | takes | fires | findsOffline | dispatches | owes | rechecks | delivers
  | deliversOwn => cases hmem

/-- Something of an arm that was superseded comes to a flush or to a wake. -/
def Stale (p : SingleShot × List Event) : Prop :=
  ∃ k, Superseded p.2 k ∧ ((∃ phase, p.1.jobs[k]? = some phase ∧ Firing phase) ∨
    k ∈ p.1.dispatches)

theorem Settled.not_stale (h : s.Settled) : ¬ Stale (s, log) := by
  rintro ⟨k, -, ⟨phase, hphase, hfiring⟩ | hmem⟩
  · exact h.1 phase (List.mem_of_getElem? hphase) hfiring
  · change k ∈ s.dispatches at hmem
    rw [h.2] at hmem
    cases hmem

/-- A coroutine that fires goes on to its flush or to its wake. -/
theorem Moves.firing (h : Moves s events s') {phase : JobPhase} (hjob : s.jobs[k]? = some phase)
    (hfiring : Firing phase) :
    (∃ phase', s'.jobs[k]? = some phase' ∧ Firing phase') ∨ k ∈ s'.dispatches ∨
      s'.wakeOwed = some k := by
  have hmoved {j : Nat} {phase₀ phase' : JobPhase} (hj : s.jobs[j]? = some phase₀)
      (hnot : ¬ Firing phase₀ ∨ Firing phase') :
      ∃ phase'', (s.moveTo j phase').jobs[k]? = some phase'' ∧ Firing phase'' := by
    by_cases hne : k = j
    · subst hne
      obtain rfl := Option.some.inj (hjob.symm.trans hj)
      exact ⟨phase', getElem?_moveTo_self hj _, hnot.resolve_left (not_not_intro hfiring)⟩
    · exact ⟨phase, (getElem?_moveTo_of_ne hne _).trans hjob, hfiring⟩
  cases h with
  | elapses | cancels | delivers | launches => exact .inl ⟨phase, hjob, hfiring⟩
  | takes =>
    refine .inl ⟨phase, ?_, hfiring⟩
    show s.reset.jobs[k]? = some phase
    unfold reset
    split
    · exact hjob
    · change (s.jobs.modify _ cancelJob)[k]? = some phase
      rw [List.getElem?_modify, hjob]
      rcases hfiring with rfl | rfl <;> simp [cancelJob]
  | arms =>
    refine .inl ⟨phase, ?_, hfiring⟩
    show (s.jobs ++ _)[k]? = some phase
    rw [List.getElem?_append_left (List.getElem?_eq_some_iff.mp hjob).1, hjob]
  | fires hj => exact .inl (hmoved hj (.inl (by rintro (h | h) <;> cases h)))
  | findsOffline hj => exact .inl (hmoved hj (.inr (.inr rfl)))
  | rechecks hj hphase =>
    refine .inl (hmoved hj (.inl ?_))
    rcases hphase with rfl | rfl <;> decide
  | deliversOwn hj => exact .inl (hmoved hj (.inl (by decide)))
  | @dispatches j hj =>
    by_cases hne : k = j
    · subst hne
      exact .inr (.inl (List.mem_append_right _ List.mem_cons_self))
    · exact .inl ⟨phase, (getElem?_moveTo_of_ne hne _).trans hjob, hfiring⟩
  | @owes j hj =>
    by_cases hne : k = j
    · subst hne
      exact .inr (.inr rfl)
    · exact .inl ⟨phase, (getElem?_moveTo_of_ne hne _).trans hjob, hfiring⟩

/-- A flush that is to be launched is launched, or still to be. -/
theorem Moves.dispatched (h : Moves s events s') (hk : k ∈ s.dispatches) :
    k ∈ s'.dispatches ∨ events = [.launched k] := by
  cases h with
  | elapses | arms | cancels | fires | findsOffline | owes | rechecks => exact .inl hk
  | takes =>
    refine .inl ?_
    show k ∈ s.reset.dispatches
    exact hk
  | dispatches | delivers | deliversOwn => exact .inl (List.mem_append_left _ hk)
  | @launches i j hget =>
    obtain ⟨hi, rfl⟩ := List.getElem?_eq_some_iff.mp hget
    rcases List.mem_cons.mp ((List.getElem_cons_eraseIdx_perm hi).mem_iff.mpr hk) with rfl | hmem
    · exact .inr rfl
    · exact .inl hmem

theorem Moves.stale (h : Moves s events s') (hstale : Stale (s, log))
    (hsilent : Silent (s', log ++ events)) : Stale (s', log ++ events) := by
  obtain ⟨k, hsuperseded, hway⟩ := hstale
  refine ⟨k, hsuperseded.append events, ?_⟩
  rcases hway with ⟨phase, hjob, hfiring⟩ | hmem
  · rcases h.firing hjob hfiring with hfires | hmem | howed
    · exact .inl hfires
    · exact .inr hmem
    · exact absurd (hsuperseded.append events) (hsilent.2 k howed)
  · rcases h.dispatched hmem with hmem' | rfl
    · exact .inr hmem'
    · exact absurd hsuperseded (hsilent.1 log k [] rfl)

theorem leave_of_replaces {l : Label} {event : Event} (hmem : event ∈ s.observed l)
    (hreplaces : event.replaces = true) : l = .leave := by
  cases l with
  | leave => rfl
  | launch i =>
    simp only [observed] at hmem
    split at hmem
    · cases List.mem_singleton.mp hmem
      cases hreplaces
    · cases hmem
  | tick | connectivity | arm | cancel | resume | advance | networkAvailable => cases hmem

/-- `arm` and `cancel` return to the timer they have left behind. -/
theorem leave_step (h : s.step .leave = some s') :
    (∃ event, s.observed .leave = [event] ∧ event.replaces = true) ∧
      s'.wakeOwed = s.wakeOwed := by
  simp only [step] at h
  split at h
  · cases h
  · rename_i hholder
    cases h
    refine ⟨⟨.armed s.jobs.length, ?_, rfl⟩, rfl⟩
    simp only [observed, hholder]
  · rename_i hholder
    cases h
    refine ⟨⟨.cancelled, ?_, rfl⟩, rfl⟩
    simp only [observed, hholder]

theorem Current.step {l : Label} (h : Current log s) (hC : s.ReplacesIdle l)
    (hstep : s.step l = some s') : Current (log ++ s.observed l) s' := by
  by_cases hreturns : ∃ event ∈ s.observed l, event.replaces = true
  · obtain ⟨event, hmem, hreplaces⟩ := hreturns
    obtain rfl := leave_of_replaces hmem hreplaces
    exact h.replaces (moves_step hstep) hmem hreplaces hC
  · refine h.quiet (moves_step hstep) fun event hmem => ?_
    exact Bool.eq_false_iff.mpr fun hreplaces => hreturns ⟨event, hmem, hreplaces⟩

/-- What is under way when `arm` or `cancel` returns is of an earlier arm. -/
theorem Base.stale_of_leave (h : Base log s) (hC : ¬ (s.Settled ∧ s.wakeOwed = none))
    (hstep : s.step .leave = some s') (hsilent : Silent (s', log ++ s.observed .leave)) :
    Stale (s', log ++ s.observed .leave) := by
  obtain ⟨⟨event, hevent, hreplaces⟩, howed⟩ := leave_step hstep
  have hmove := moves_step hstep
  rw [hevent] at hsilent hmove ⊢
  have hsuperseded {k : Nat} (hk : k < s.jobs.length) : Superseded (log ++ [event]) k :=
    superseded_of_mem ((h.armed k).mpr hk) hreplaces
  have hnone : s.wakeOwed = none := by
    refine Option.eq_none_iff_forall_ne_some.mpr fun k hk => ?_
    exact hsilent.2 k (howed.trans hk) (hsuperseded (h.known k (.inr (.inl hk))))
  by_cases hjobs : ∃ phase ∈ s.jobs, Firing phase
  · obtain ⟨phase, hmem, hfiring⟩ := hjobs
    obtain ⟨k, hlt, rfl⟩ := List.mem_iff_getElem.mp hmem
    have hjob : s.jobs[k]? = some s.jobs[k] := List.getElem?_eq_getElem hlt
    refine ⟨k, hsuperseded hlt, ?_⟩
    rcases hmove.firing hjob hfiring with hfires | hk | hk
    · exact .inl hfires
    · exact .inr hk
    · rw [howed, hnone] at hk
      cases hk
  · have hdispatches : s.dispatches ≠ [] := by
      intro hnil
      exact hC ⟨⟨fun phase hmem hfiring => hjobs ⟨phase, hmem, hfiring⟩, hnil⟩, hnone⟩
    obtain ⟨k, hk⟩ := List.exists_mem_of_ne_nil _ hdispatches
    refine ⟨k, hsuperseded (h.known k (.inl hk)), .inr ?_⟩
    rcases hmove.dispatched hk with hmem | heq
    · exact hmem
    · cases List.singleton_inj.mp heq
      cases hreplaces

theorem not_superseded_nil : ¬ Superseded [] k := by
  rintro ⟨a, b, hlog, -⟩
  simp at hlog

theorem current_initial (now : Int) (offline : Bool) : Current [] (initial now offline) where
  base := base_initial now offline
  underWay k _ := not_superseded_nil
  launched a k b hlog := by simp at hlog

/-- An arm launches at most one flush. An arm that was replaced does nothing any more in
the runs in which `arm` and `cancel` return when nothing of an earlier arm is under way, and
in no other run that has come to its end. -/
theorem replaced_arm_silent_iff (now : Int) (offline : Bool) (ls : List Label) (s : SingleShot)
    (log : List Event)
    (hrun : StepSystem.exec (StepSystem.recorded step observed) (initial now offline, []) ls =
      some (s, log)) :
    (∀ k, log.count (.launched k) ≤ 1) ∧
      (StepSystem.Meets step ReplacesIdle (initial now offline) ls →
        StepSystem.Always (StepSystem.recorded step observed) Silent (initial now offline, [])
          ls) ∧
      (s.Settled →
        (StepSystem.Always (StepSystem.recorded step observed) Silent (initial now offline, [])
          ls ↔ StepSystem.Meets step ReplacesIdle (initial now offline) ls)) := by
  have hcount : Base log s := by
    refine StepSystem.exec_invariant (I := fun p => Base p.2 p.1) ?_ (base_initial now offline) hrun
    intro p l p' h hs
    obtain ⟨hstep, hlog⟩ := StepSystem.recorded_eq_some.mp hs
    rw [hlog]
    exact h.move (moves_step hstep)
  have hkeeps {p p' : SingleShot × List Event} {l : Label} (h : Current p.2 p.1) (_ : True)
      (hC : p.1.ReplacesIdle l) (hs : StepSystem.recorded step observed p l = some p') :
      Current p'.2 p'.1 := by
    obtain ⟨hstep, hlog⟩ := StepSystem.recorded_eq_some.mp hs
    rw [hlog]
    exact h.step hC hstep
  have hlost {p p' : SingleShot × List Event} {l : Label} (h : Current p.2 p.1) (_ : True)
      (hC : ¬ p.1.ReplacesIdle l) (hs : StepSystem.recorded step observed p l = some p')
      (hsilent : Silent p') : Stale p' := by
    obtain ⟨s', log'⟩ := p'
    obtain ⟨hstep, rfl⟩ := StepSystem.recorded_eq_some.mp hs
    cases l with
    | leave => exact h.base.stale_of_leave hC hstep hsilent
    | tick | connectivity | arm | cancel | resume | advance | networkAvailable | launch =>
      exact absurd trivial hC
  have hstale {p p' : SingleShot × List Event} {l : Label} (h : Stale p) (_ : True)
      (hs : StepSystem.recorded step observed p l = some p') (hsilent : Silent p') :
      Stale p' := by
    obtain ⟨s', log'⟩ := p'
    obtain ⟨hstep, rfl⟩ := StepSystem.recorded_eq_some.mp hs
    exact (moves_step hstep).stale h hsilent
  have hall : StepSystem.Meets (StepSystem.recorded step observed) (fun _ _ => True)
      (initial now offline, []) ls := StepSystem.meets_of_forall fun _ _ => trivial
  refine ⟨fun k => Nat.le_trans (Nat.le_add_left _ _) (hcount.credit k), fun hmeets => ?_,
    fun hsettled => ?_⟩
  · exact StepSystem.Meets.always hkeeps Current.silent (current_initial now offline) hall
      (hmeets.recorded observed [])
  · rw [← StepSystem.meets_recorded_iff observed []]
    exact StepSystem.always_iff_meets_of_lost hkeeps Current.silent hlost hstale
      (current_initial now offline) hall hrun fun h => absurd h hsettled.not_stale

/-- The first arm is replaced while it waits, and the second comes to its flush. -/
theorem replaced_arm_silent_of_waiting :
    let ls : List Label := [.arm 10, .leave, .arm 5, .leave, .tick 5, .resume 1, .advance 1,
      .launch 0]
    let log : List Event := [.armed 0, .armed 1, .launched 1]
    StepSystem.Always (StepSystem.recorded step observed) Silent (initial 0 false, []) ls ∧
      log.count (.launched 1) ≤ 1 := by
  have hrun : StepSystem.exec (StepSystem.recorded step observed) (initial 0 false, [])
      [.arm 10, .leave, .arm 5, .leave, .tick 5, .resume 1, .advance 1, .launch 0] =
        some (⟨5, false, none, some 1, none, [.cancelled, .done], []⟩,
          [.armed 0, .armed 1, .launched 1]) := by decide
  obtain ⟨hcount, -, hiff⟩ := replaced_arm_silent_iff _ _ _ _ _ hrun
  exact ⟨(hiff (by decide)).mpr (by decide), hcount 1⟩

/-- A coroutine that has gone on from its delay launches a flush behind a `cancel`, or
leaves a wake behind it when it is offline. -/
theorem replaced_arm_flushes :
    (∃ s, StepSystem.exec (StepSystem.recorded step observed) (initial 0 false, [])
      [.arm 0, .leave, .resume 0, .cancel, .leave, .advance 0, .launch 0] =
        some (s, [.armed 0, .cancelled, .launched 0]) ∧
      ¬ Silent (s, [.armed 0, .cancelled, .launched 0])) ∧
    ∃ s, StepSystem.exec (StepSystem.recorded step observed) (initial 0 true, [])
      [.arm 0, .leave, .resume 0, .cancel, .leave, .advance 0, .advance 0, .advance 0] =
        some (s, [.armed 0, .cancelled]) ∧ s.wakeOwed = some 0 ∧
      ¬ Silent (s, [.armed 0, .cancelled]) := by
  have harmed : Event.armed 0 ∈ [Event.armed 0] := List.mem_cons_self
  have hsuperseded : Superseded ([.armed 0] ++ [.cancelled]) 0 := superseded_of_mem harmed rfl
  refine ⟨⟨⟨0, false, none, none, none, [.done], []⟩, by decide, fun h => ?_⟩,
    ⟨⟨0, true, none, none, some 0, [.done], []⟩, by decide, rfl, fun h => ?_⟩⟩
  · exact h.1 [.armed 0, .cancelled] 0 [] rfl hsuperseded
  · exact h.2 0 rfl hsuperseded

end SingleShot

end SyncProvider.Android
