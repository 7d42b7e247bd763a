import SyncProvider.Android.Lifecycle
import SyncProvider.Lib.Clearing

/-!
# Android: the wakes behind a pause or the last detach

`pause` cancels the retry timer and the retry kick, the last `detachEngine` the timer.
An `arm` that has found the engine running awaits the store and acts on the timer and
on WorkManager afterwards, whatever has happened meanwhile. `armForResume` never asks
whether an engine is attached.

Results:
1. `advance_turn` : what a call sets, and what it is bound to cancel.
2. `phase_paused`, `phase_detached` : what the calls that begin later do not set.
3. `silent_of_covered` : nothing is set in the end when whatever an arm in progress sets is
   still to be cancelled by another call in progress.
4. `arm_undoes_pause` : an arm that sets both behind the calls.
-/

namespace SyncProvider.Android

/-- The two ways to be woken. -/
inductive WakeMechanism where
  | timer | kick
  deriving DecidableEq

namespace CallTask

/-- The call is bound to cancel it. -/
def Owes (k : CallTask) (w : WakeMechanism) : Prop :=
  match k with
  | .pause | .pausePersist | .pauseTimer => True
  | .pauseKick => w = .kick
  | .configure options => options.strategy = .manual ∧ w = .kick
  | .configureKick isManual => isManual = true ∧ w = .kick
  | .detachWatch | .detachCancel _ | .detachField | .detachTimer | .halt _ (.done true)
  | .decided _ none => w = .timer
  | _ => False

/-- The call is about to set it. -/
def Sets (k : CallTask) (ok : Bool) (w : WakeMechanism) : Prop :=
  match k with
  | .timer _ _ => w = .timer
  | .kick _ _ (.done (some _)) => ok = true ∧ w = .kick
  | _ => False

theorem not_owes_of_isDone {k : CallTask} {w : WakeMechanism} (h : k.isDone = true) :
    ¬ k.Owes w := by
  cases k with
  | done => exact not_false
  | _ => cases h

end CallTask

/-- The mechanism is set. -/
def Shared.Set (s : Shared) : WakeMechanism → Prop
  | .timer => s.retryTimer.waiting ≠ none
  | .kick => s.kick ≠ none

namespace Lifecycle

/-- The mechanism is set. -/
def Set (s : Lifecycle) (w : WakeMechanism) : Prop := s.shared.Set w

/-- One of the first `n` calls is bound to cancel it. -/
def Owed (n : Nat) (s : Lifecycle) (w : WakeMechanism) : Prop :=
  ∃ v < n, ∃ k, s.tasks[v]? = some k ∧ k.Owes w

/-- This step sets it. -/
def Sets (s : Lifecycle) (l : Label) (w : WakeMechanism) : Prop :=
  ∃ u ok k, l = .advance u ok ∧ s.tasks[u]? = some k ∧ k.Sets ok w

/-! ## 1. What a call does to the wakes -/

variable {s s' : Lifecycle} {l : Label} {u : Nat} {ok : Bool} {k k' : CallTask}
  {shared shared' : Shared} {w : WakeMechanism}

theorem set_cancelTimer (h : Shared.Set { shared with retryTimer := .cancel } w) :
    shared.Set w ∧ w ≠ .timer := by
  cases w with
  | timer => exact absurd rfl h
  | kick => exact ⟨h, by simp⟩

/-- A turn that sets nothing and goes on owing what it owes. -/
theorem turn_quiet (hset : ∀ w, shared'.Set w → shared.Set w) (howes : ∀ w, k.Owes w → k'.Owes w) :
    Clearing.Turn shared.Set shared'.Set (k.Sets ok) k.Owes k'.Owes :=
  ⟨fun w h => .inl (hset w h), fun w h _ => howes w h⟩

/-- A turn that cancels the timer. -/
theorem turn_cancelTimer (howes : ∀ w, k.Owes w → w ≠ .timer → k'.Owes w) :
    Clearing.Turn shared.Set (Shared.Set { shared with retryTimer := .cancel }) (k.Sets ok)
      k.Owes k'.Owes :=
  ⟨fun _ h => .inl (set_cancelTimer h).1, fun w h hset => howes w h (set_cancelTimer hset).2⟩

theorem advance_turn (h : advance u ok shared k = some (shared', k')) :
    Clearing.Turn shared.Set shared'.Set (k.Sets ok) k.Owes k'.Owes := by
  cases k with
  | pause | pausePersist =>
    cases h
    exact turn_quiet (fun w => by cases w <;> exact id) fun _ _ => trivial
  | pauseTimer =>
    cases h
    refine turn_cancelTimer fun w _ hw => ?_
    cases w with
    | timer => exact absurd rfl hw
    | kick => rfl
  | pauseKick =>
    cases h
    refine ⟨fun w hset => .inl ?_, ?_⟩
    · cases w with
      | timer => exact hset
      | kick => exact absurd rfl hset
    · rintro w rfl hset
      exact absurd rfl hset
  | configure options =>
    cases h
    refine turn_quiet (fun w => by cases w <;> exact id) fun w howes => ⟨?_, howes.2⟩
    exact beq_iff_eq.mpr howes.1
  | configureKick isManual =>
    cases isManual with
    | false =>
      cases h
      exact turn_quiet (fun _ => id) fun w howes => absurd howes.1 Bool.false_ne_true
    | true =>
      cases h
      refine ⟨fun w hset => .inl ?_, ?_⟩
      · cases w with
        | timer => exact hset
        | kick => exact absurd rfl hset
      · rintro w ⟨-, rfl⟩ hset
        exact absurd rfl hset
  | detachTimer =>
    cases h
    exact turn_cancelTimer fun w h hw => absurd h hw
  | detachWatch | detachField =>
    cases h
    exact turn_quiet (fun w => by cases w <;> exact id) fun _ => id
  | detachCancel job =>
    cases job <;> cases h <;> exact turn_quiet (fun w => by cases w <;> exact id) fun _ => id
  | halt caller reads =>
    rcases reads with (_ | _) | next
    · cases h
      exact turn_quiet (fun _ => id) fun _ => False.elim
    · cases h
      exact turn_cancelTimer fun w h hw => absurd h hw
    · cases h
      exact turn_quiet (fun _ => id) fun _ => False.elim
  | decided caller deadline =>
    cases deadline with
    | none =>
      cases h
      exact turn_cancelTimer fun w h hw => absurd h hw
    | some deadline =>
      cases h
      exact turn_quiet (fun _ => id) fun _ => False.elim
  | timer caller delayMs =>
    cases h
    refine ⟨fun w hset => ?_, fun _ => False.elim⟩
    cases w with
    | timer => exact .inr rfl
    | kick => exact .inl hset
  | kick caller delayMs reads =>
    rcases reads with (_ | constraints) | next
    · cases h
      exact turn_quiet (fun _ => id) fun _ => False.elim
    · cases ok with
      | false =>
        cases h
        exact turn_quiet (fun _ => id) fun _ => False.elim
      | true =>
        cases h
        refine ⟨fun w hset => ?_, fun _ => False.elim⟩
        cases w with
        | timer => exact .inl hset
        | kick => exact .inr ⟨rfl, rfl⟩
    · cases h
      exact turn_quiet (fun _ => id) fun _ => False.elim
  | recovery =>
    cases ok <;> cases h <;> exact turn_quiet (fun w => by cases w <;> exact id) fun _ => False.elim
  | read caller =>
    cases ok <;> cases h <;> exact turn_quiet (fun _ => id) fun _ => False.elim
  | readKick =>
    simp only [advance] at h
    split at h
    · split at h <;> cases h <;> exact turn_quiet (fun _ => id) fun _ => False.elim
    · cases h
      exact turn_quiet (fun _ => id) fun _ => False.elim
  | resume | resumePersist | attach | attachPersist | attachCount | attachLaunch | attachField
  | attachRecovery | detach | live =>
    cases h
    exact turn_quiet (fun w => by cases w <;> exact id) fun _ => False.elim
  | done => cases h

/-- What stands in the end was there, or a call has set it, and who is bound to cancel it
stays so. -/
theorem rules (n : Nat) : Clearing.Rules step Set (Owed n) Sets where
  up_cases := by
    intro s l s' w h hset
    cases step_cases h with
    | call => exact .inl hset
    | advance hk hstep =>
      exact ((advance_turn hstep).up_cases w hset).imp_right fun hsets => ⟨_, _, _, rfl, hk, hsets⟩
    | outside _ _ houtside =>
      left
      cases w with
      | timer =>
        rcases houtside.waiting with hsame | hnone
        · exact fun hnone => hset (hsame.trans hnone)
        · exact absurd hnone hset
      | kick =>
        rcases houtside.kick with hsame | hnone
        · exact fun hnone => hset (hsame.trans hnone)
        · exact absurd hnone hset
  owed_kept := by
    rintro s l s' w h ⟨v, hv, x, hx, howes⟩ hset
    cases step_cases h with
    | call => exact ⟨v, hv, x, List.getElem?_append_left (List.getElem?_eq_some_iff.mp hx).1 ▸ hx,
        howes⟩
    | @advance u ok k k' shared hk hstep =>
      have hmoved : _ ∨ _ ∧ (s.tasks.set u k' ++ spawned s.tasks k)[v]? = some x :=
        TaskPool.getElem?_step hk hx
      rcases hmoved with ⟨rfl, rfl, hx'⟩ | ⟨-, hx'⟩
      · exact ⟨v, hv, _, hx', (advance_turn hstep).owes_kept w howes hset⟩
      · exact ⟨v, hv, x, hx', howes⟩
    | outside _ _ houtside =>
      rw [Owed, houtside.tasks]
      exact ⟨v, hv, x, hx, howes⟩

/-! ## 2. The calls that begin later -/

/-- Nobody clears the pause flag, or nobody counts an engine, which is `Barred`, so `Holds`
goes on, and the calls that begin later stay `Tame`. -/
structure Phase (Holds : Shared → Prop) (Barred Tame : CallTask → Prop) : Prop where
  holds_kept : ∀ {u ok shared k shared' k'}, advance u ok shared k = some (shared', k') →
    ¬ Barred k → Holds shared → Holds shared'
  holds_outside : ∀ {s s'}, Outside s s' → Holds s.shared → Holds s'.shared
  barred_before : ∀ {u ok shared k shared' k'}, advance u ok shared k = some (shared', k') →
    Barred k' → Barred k
  barred_recovery : ¬ Barred .recovery
  tame_kept : ∀ {u ok shared k shared' k'}, advance u ok shared k = some (shared', k') →
    Holds shared → Tame k → Tame k'
  tame_call : ∀ entry : EntryPoint, Tame entry.task
  tame_recovery : Tame .recovery

/-- The phase has begun, and the calls from the `n`-th on have begun in it. -/
structure InPhase (n : Nat) (Holds : Shared → Prop) (Barred Tame : CallTask → Prop)
    (s : Lifecycle) : Prop where
  holds : Holds s.shared
  barred : ∀ k ∈ s.tasks, ¬ Barred k
  tame : ∀ v k, n ≤ v → s.tasks[v]? = some k → Tame k

variable {n : Nat} {ls : List Label} {Holds : Shared → Prop} {Barred Tame : CallTask → Prop}

theorem inPhase_step (hphase : Phase Holds Barred Tame) (h : s.step l = some s')
    (hl : ∀ entry, l = .call entry → ¬ Barred entry.task) (hs : InPhase n Holds Barred Tame s) :
    InPhase n Holds Barred Tame s' := by
  cases step_cases h with
  | call entry =>
    refine ⟨hs.holds, TaskPool.forall_spawn hs.barred (hl entry rfl), fun v k hv hk => ?_⟩
    rcases TaskPool.of_getElem?_spawn hk with hk | rfl
    · exact hs.tame v k hv hk
    · exact hphase.tame_call entry
  | advance hk hstep =>
    have hmem := List.mem_of_getElem? hk
    refine ⟨hphase.holds_kept hstep (hs.barred _ hmem) hs.holds, fun x hx => ?_,
      fun v x hv hx => ?_⟩
    · rcases List.mem_append.mp hx with hx | hx
      · rcases List.mem_or_eq_of_mem_set hx with hx | rfl
        · exact hs.barred x hx
        · exact fun hbarred => hs.barred _ hmem (hphase.barred_before hstep hbarred)
      · rw [mem_spawned hx]
        exact hphase.barred_recovery
    · rcases TaskPool.of_getElem?_step hx with hx | ⟨rfl, rfl⟩ | hx
      · exact hs.tame v x hv hx
      · exact hphase.tame_kept hstep hs.holds (hs.tame v _ hv hk)
      · rw [mem_spawned hx]
        exact hphase.tame_recovery
  | outside _ _ houtside =>
    refine ⟨hphase.holds_outside houtside hs.holds, ?_, ?_⟩
    · rw [houtside.tasks]
      exact hs.barred
    · rw [houtside.tasks]
      exact hs.tame

end Lifecycle

namespace CallTask

/-- The call is about to clear the pause flag. -/
def Clears : CallTask → Prop
  | .resume | .attach => True
  | _ => False

/-- The call is going to count an engine. -/
def Counts : CallTask → Prop
  | .attach | .attachPersist | .attachCount => True
  | _ => False

/-- The call has not got past `isHalted`. -/
def HeldBack : CallTask → Prop
  | .halt _ reads => reads = Shared.isHalted ∨ reads = .done true
  | .read _ | .decided _ (some _) | .live _ _ | .timer _ _ | .readKick | .kick _ _ _ => False
  | _ => True

/-- The call is not about to set the timer, unless it is `armForResume`. -/
def Grounded : CallTask → Prop
  | .timer caller _ => caller = .resume
  | _ => True

theorem not_sets_of_heldBack {k : CallTask} {ok : Bool} {w : WakeMechanism} (h : k.HeldBack) :
    ¬ k.Sets ok w := by
  intro hsets
  cases k with
  | timer | kick => exact h
  | _ => exact hsets

end CallTask

namespace Lifecycle

variable {s s' : Lifecycle} {l : Label} {ls : List Label} {n u : Nat} {ok : Bool}
  {k k' : CallTask} {shared shared' : Shared} {w : WakeMechanism}

theorem advance_heldBack (h : advance u ok shared k = some (shared', k'))
    (hpaused : shared.pausedFlag = true) (hk : k.HeldBack) : k'.HeldBack := by
  by_cases hhalt : ∃ caller reads, k = .halt caller reads
  · obtain ⟨caller, reads, rfl⟩ := hhalt
    rcases hk with rfl | rfl
    · -- the first read finds the flag set
      cases h
      right
      change (if shared.pausedFlag = true then pure true else _) = _
      rw [if_pos hpaused]
      rfl
    · cases h
      exact trivial
  · revert h
    fun_cases advance u ok shared k <;> intro h <;> cases h
    all_goals first
      | exact trivial
      | exact .inl rfl
      | exact hk.elim
      | exact absurd ⟨_, _, rfl⟩ hhalt
      | (split <;> exact trivial)

/-- While the flag is set, whoever asks finds the wakes halted. -/
theorem phase_paused :
    Phase (fun shared => shared.pausedFlag = true) CallTask.Clears CallTask.HeldBack where
  holds_kept := by
    intro u ok shared k shared' k' h hbarred hpaused
    revert h
    fun_cases advance u ok shared k <;> intro h <;> cases h
    all_goals first
      | exact hpaused
      | exact rfl
      | exact absurd trivial hbarred
      | (split <;> exact hpaused)
  holds_outside houtside hpaused := houtside.pausedFlag.trans hpaused
  barred_before := by
    intro u ok shared k shared' k' h hbarred
    revert h
    fun_cases advance u ok shared k <;> intro h <;> cases h
    all_goals first
      | exact hbarred.elim
      | (split at hbarred <;> exact hbarred.elim)
  barred_recovery := not_false
  tame_kept := advance_heldBack
  tame_call entry := by
    cases entry <;> first | exact trivial | exact .inl rfl
  tame_recovery := trivial

/-- With no engine attached only `armForResume` sets the timer. -/
theorem phase_detached :
    Phase (fun shared => shared.attachedEngines ≤ 0) CallTask.Counts CallTask.Grounded where
  holds_kept := by
    intro u ok shared k shared' k' h hbarred hnone
    revert h
    fun_cases advance u ok shared k <;> intro h <;> cases h
    all_goals first
      | exact hnone
      | exact absurd trivial hbarred
      | exact Int.le_trans (Int.sub_le_self _ Int.one_nonneg) hnone
      | (split <;> exact hnone)
  holds_outside houtside hnone := houtside.attachedEngines ▸ hnone
  barred_before := by
    intro u ok shared k shared' k' h hbarred
    revert h
    fun_cases advance u ok shared k <;> intro h <;> cases h
    all_goals first
      | exact trivial
      | exact hbarred.elim
      | (split at hbarred <;> exact hbarred.elim)
  barred_recovery := not_false
  tame_kept := by
    intro u ok shared k shared' k' h hnone hk
    by_cases hlive : ∃ caller delayMs, k = .live caller delayMs
    · obtain ⟨caller, delayMs, rfl⟩ := hlive
      cases h
      rw [if_neg (Int.not_lt.mpr hnone)]
      exact trivial
    · revert h
      fun_cases advance u ok shared k <;> intro h <;> cases h
      all_goals first
        | exact trivial
        | exact absurd ⟨_, _, rfl⟩ hlive
        | (split <;> first | exact trivial | assumption)
  tame_call entry := by
    cases entry <;> exact trivial
  tame_recovery := trivial

/-! ## 3. When the wakes are silent -/

/-- A call that sets it does so only while one of the first `n` calls is bound to cancel
it. Here only the first `n` calls matter, and later ones that are `Free`. -/
def Covered (n : Nat) (Free : CallTask → Prop) (w : WakeMechanism) (s : Lifecycle) (l : Label) :
    Prop :=
  ∀ u ok k, l = .advance u ok → s.tasks[u]? = some k → u < n ∨ Free k → k.Sets ok w → s.Owed n w

theorem not_set_of_covered {Holds : Shared → Prop} {Barred Tame Free : CallTask → Prop}
    (hphase : Phase Holds Barred Tame)
    (hfree : ∀ {k ok}, Tame k → k.Sets ok w → Free k) (hs : InPhase n Holds Barred Tame s)
    (howed : s.Owed n w) (hls : ∀ l ∈ ls, ∀ entry, l = .call entry → ¬ Barred entry.task)
    (hC : StepSystem.Meets step (Covered n Free w) s ls)
    (hrun : StepSystem.exec step s ls = some s')
    (hdone : ∀ v < n, ∀ k, s'.tasks[v]? = some k → k.isDone = true) : ¬ s'.Set w := by
  have hlast : InPhase n Holds Barred Tame s' ∧ (s'.Set w → s'.Owed n w) := by
    refine StepSystem.exec_invariant_of_meets
      (I := fun s => InPhase n Holds Barred Tame s ∧ (s.Set w → s.Owed n w))
      (fun {s l s'} hI hl h => ⟨inPhase_step hphase h hl.1 hI.1, ?_⟩) ⟨hs, fun _ => howed⟩
      ((StepSystem.meets_of_forall hls).and hC) hrun
    refine Clearing.owed_step (rules n) h ?_ hI.2
    rintro ⟨u, ok, k, rfl, hk, hsets⟩
    refine hl.2 u ok k rfl hk ?_ hsets
    exact (Nat.lt_or_ge u n).imp_right fun hlater => hfree (hI.1.tame u k hlater hk) hsets
  intro hset
  obtain ⟨v, hv, k, hk, howes⟩ := hlast.2 hset
  exact CallTask.not_owes_of_isDone (hdone v hv k hk) howes

theorem owed_of_mem (hmem : k ∈ s.tasks) (howes : k.Owes w) : s.Owed s.tasks.length w := by
  obtain ⟨v, hv⟩ := List.mem_iff_getElem?.mp hmem
  exact ⟨v, (List.getElem?_eq_some_iff.mp hv).1, k, hv, howes⟩

/-- `pause` has set the flag, and nobody is about to clear it. -/
structure PauseBegun (s : Lifecycle) : Prop where
  pause : CallTask.pausePersist ∈ s.tasks
  pausedFlag : s.shared.pausedFlag = true
  clears : ∀ k ∈ s.tasks, ¬ k.Clears

/-- A detach has found itself the last, and nobody is going to count an engine. -/
structure LastDetach (s : Lifecycle) : Prop where
  detach : CallTask.detachWatch ∈ s.tasks
  attachedEngines : s.shared.attachedEngines ≤ 0
  counts : ∀ k ∈ s.tasks, ¬ k.Counts

theorem inPhase_start {Holds : Shared → Prop} {Barred Tame : CallTask → Prop}
    (hholds : Holds s.shared) (hbarred : ∀ k ∈ s.tasks, ¬ Barred k) :
    InPhase s.tasks.length Holds Barred Tame s where
  holds := hholds
  barred := hbarred
  tame _ _ hv hk := absurd (List.getElem?_eq_some_iff.mp hk).1 (Nat.not_lt.mpr hv)

/-- In any run up to a state in which the calls that were in progress have finished. Calls
may begin meanwhile, other than `resume` and `attachEngine` behind `pause`, and other than
`attachEngine` behind the last detach. -/
theorem silent_of_covered (hrun : StepSystem.exec step s ls = some s')
    (hdone : ∀ v < s.tasks.length, ∀ k, s'.tasks[v]? = some k → k.isDone = true) :
    (s.PauseBegun → (∀ l ∈ ls, l ≠ .call .resume ∧ l ≠ .call .attachEngine) →
      (∀ w, StepSystem.Meets step (Covered s.tasks.length (fun _ => False) w) s ls) →
      s'.shared.retryTimer.waiting = none ∧ s'.shared.kick = none) ∧
    (s.LastDetach → (∀ l ∈ ls, l ≠ .call .attachEngine) →
      StepSystem.Meets step
        (Covered s.tasks.length (fun k => k.caller? = some .resume) .timer) s ls →
      s'.shared.retryTimer.waiting = none) := by
  constructor
  · rintro ⟨hpause, hpaused, hclears⟩ hls hC
    have hbarred (l : Label) (hl : l ∈ ls) (entry : EntryPoint) (heq : l = .call entry) :
        ¬ entry.task.Clears := by
      subst heq
      cases entry with
      | resume => exact absurd rfl (hls _ hl).1
      | attachEngine => exact absurd rfl (hls _ hl).2
      | _ => exact not_false
    have hsilent (w : WakeMechanism) : ¬ s'.Set w :=
      not_set_of_covered phase_paused (CallTask.not_sets_of_heldBack · · |>.elim)
        (inPhase_start hpaused hclears) (owed_of_mem hpause trivial) hbarred (hC w) hrun hdone
    exact ⟨not_not.mp (hsilent .timer), not_not.mp (hsilent .kick)⟩
  · rintro ⟨hdetach, hnone, hcounts⟩ hls hC
    have hbarred (l : Label) (hl : l ∈ ls) (entry : EntryPoint) (heq : l = .call entry) :
        ¬ entry.task.Counts := by
      subst heq
      cases entry with
      | attachEngine => exact absurd rfl (hls _ hl)
      | _ => exact not_false
    have hsilent : ¬ s'.Set .timer := by
      refine not_set_of_covered phase_detached (fun {k ok} hk hsets => ?_)
        (inPhase_start hnone hcounts) (owed_of_mem hdetach rfl) hbarred hC hrun hdone
      cases k with
      | timer caller delayMs => exact congrArg some hk
      | kick caller delayMs reads =>
        rcases reads with (_ | constraints) | next
        · exact hsets.elim
        · cases hsets.2
        · exact hsets.elim
      | _ => exact hsets.elim
    exact not_not.mp hsilent

section Sample

theorem covered_of_owed {Free : CallTask → Prop} (howed : s.Owed n w) :
    Covered n Free w s (.advance u ok) :=
  fun _ _ _ _ _ _ _ => howed

theorem covered_of_not_sets {Free : CallTask → Prop}
    (h : ∀ k, s.tasks[u]? = some k → ¬ k.Sets ok w) : Covered n Free w s (.advance u ok) := by
  rintro _ _ k ⟨⟩ hk - hsets
  exact absurd hsets (h k hk)

theorem covered_call {Free : CallTask → Prop} (entry : EntryPoint) :
    Covered n Free w s (.call entry) := by
  rintro _ _ _ ⟨⟩

/-- An arm is about to enqueue the kick while `pause` has yet to cancel it. -/
def pausing : Lifecycle :=
  { sampleLifecycle
      [.pausePersist, .kick (.cycle 0 none) 1000 (.done (some ⟨.CONNECTED, false, false⟩))] with
    shared := { (sampleLifecycle []).shared with pausedFlag := true } }

/-- The arm goes on, then `pause`. Meanwhile another cycle ends, whose arm is held back. -/
def pausingRun : List Label :=
  [.advance 1 true, .call (.onCycleFinished 1 none)] ++ steps 0 3 ++ steps 2 2

theorem covered_pausingRun (w : WakeMechanism) :
    StepSystem.Meets step (Covered 2 (fun _ => False) w) pausing pausingRun := by
  refine .cons rfl (covered_of_owed ⟨0, by decide, .pausePersist, rfl, trivial⟩)
    (.cons rfl (covered_call _) (.cons rfl ?_ (.cons rfl ?_ (.cons rfl ?_ (.cons rfl ?_
    (.cons rfl ?_ trivial))))))
  all_goals exact covered_of_not_sets fun k hk hsets => by cases hk; exact hsets

theorem silent_of_early_arm :
    ∃ s', StepSystem.exec step pausing pausingRun = some s' ∧
      s'.shared.retryTimer.waiting = none ∧ s'.shared.kick = none := by
  obtain ⟨s', hrun, hfinished⟩ : ∃ s', StepSystem.exec step pausing pausingRun = some s' ∧
    s'.finished = true := ⟨_, rfl, rfl⟩
  refine ⟨s', hrun, (silent_of_covered hrun ?_).1 ⟨List.mem_cons_self, rfl, ?_⟩ ?_
    covered_pausingRun⟩
  · exact fun v _ k hk => List.all_eq_true.mp hfinished k (List.mem_of_getElem? hk)
  · simp [pausing, sampleLifecycle, CallTask.Clears]
  · simp [pausingRun, steps]

/-! ## 4. Arms behind the calls -/

/-- A cycle has ended. Its arm found the engine running and attached and is about to set
the timer when the call runs from its first step to its last. -/
def behindRun (entry : EntryPoint) (n : Nat) : List Label :=
  .call (.onCycleFinished 0 none) :: steps 0 7 ++ .call entry :: steps 1 n ++ steps 0 11

/-- Behind `pause` the timer counts down and the kick is enqueued, behind the last detach
the timer counts down. -/
theorem arm_undoes_pause :
    (StepSystem.exec step (sampleLifecycle []) (behindRun .pause 4)).map (fun s =>
        (s.finished, s.shared.pausedFlag, s.shared.retryTimer.waiting, s.shared.kick.isSome)) =
      some (true, true, some 1000, true) ∧
    (StepSystem.exec step (sampleLifecycle []) (behindRun .detachEngine 5)).map (fun s =>
        (s.finished, s.shared.attachedEngines, s.shared.retryTimer.waiting)) =
      some (true, 0, some 1000) := by
  constructor <;> rfl

end Sample

end Lifecycle

end SyncProvider.Android
