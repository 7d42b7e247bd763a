import SyncProvider.Android.Lifecycle
import SyncProvider.Lib.OrderedWrites

/-!
# Android: the pause flag and the timer of overlapping calls

`pause`, `resume` and `attachEngine` write the flag in memory and then the one on disk,
and cancel or arm the retry timer afterwards, with nothing that keeps two calls apart.

Results:
1. `settled_of_meets` : when the two flags are the same in the end.
2. `advance_timer` : who arms the timer, and who stops it.
3. `timerUp_of_meets` : when the timer is armed in the end.
4. `agrees_of_meets` : both, over any run of the calls.
-/

namespace SyncProvider.Android

/-! ## 1. The two flags -/

/-- The value that the call has written to memory and is about to write to disk. -/
def CallTask.carries : CallTask → Option Bool
  | .pausePersist => some true
  | .resumePersist | .attachPersist => some false
  | _ => none

theorem CallTask.carries_of_isDone {k : CallTask} (h : k.isDone = true) : k.carries = none := by
  cases k with
  | done => rfl
  | _ => cases h

namespace Lifecycle

variable {s s' : Lifecycle} {l : Label} {ls : List Label} {u : Nat} {ok : Bool} {k k' : CallTask}
  {shared shared' : Shared}

/-- The flags agree, or a call is still to persist the one in memory. -/
def FlagSettled (s : Lifecycle) : Prop :=
  OrderedWrites.Settled s.shared.pausedFlag s.shared.persistedPaused CallTask.carries s.tasks

/-- A call that persists a flag persists the one in memory, or leaves a call behind that
is still to do so. -/
def FlagLasts (s : Lifecycle) (l : Label) : Prop :=
  ∀ u ok, l = .advance u ok →
    OrderedWrites.Lasts s.shared.pausedFlag CallTask.carries s.tasks u

theorem advance_turn_flag (h : advance u ok shared k = some (shared', k')) :
    OrderedWrites.Turn shared.pausedFlag shared.persistedPaused k.carries shared'.pausedFlag
      shared'.persistedPaused k'.carries := by
  cases k with
  | pause | resume | attach =>
    cases h
    exact .inl ⟨rfl, rfl⟩
  | pausePersist | resumePersist | attachPersist =>
    cases h
    exact .inr (.inl ⟨rfl, rfl, rfl⟩)
  | attachCount | detach | live =>
    cases h
    refine .inr (.inr ⟨rfl, rfl, ?_⟩)
    split <;> rfl
  | detachCancel job => cases job <;> cases h <;> exact .inr (.inr ⟨rfl, rfl, rfl⟩)
  | configureKick isManual => cases isManual <;> cases h <;> exact .inr (.inr ⟨rfl, rfl, rfl⟩)
  | recovery => cases ok <;> cases h <;> exact .inr (.inr ⟨rfl, rfl, rfl⟩)
  | halt caller reads =>
    rcases reads with (_ | _) | next <;> cases h <;> exact .inr (.inr ⟨rfl, rfl, rfl⟩)
  | read caller =>
    cases ok <;> cases h
    · refine .inr (.inr ⟨rfl, rfl, ?_⟩)
      split <;> rfl
    · exact .inr (.inr ⟨rfl, rfl, rfl⟩)
  | decided caller deadline =>
    cases deadline <;> cases h
    · exact .inr (.inr ⟨rfl, rfl, rfl⟩)
    · refine .inr (.inr ⟨rfl, rfl, ?_⟩)
      split <;> rfl
  | timer caller delayMs =>
    cases h
    refine .inr (.inr ⟨rfl, rfl, ?_⟩)
    split <;> rfl
  | readKick =>
    simp only [advance] at h
    split at h
    · split at h <;> cases h <;> exact .inr (.inr ⟨rfl, rfl, rfl⟩)
    · cases h
      exact .inr (.inr ⟨rfl, rfl, rfl⟩)
  | kick caller delayMs reads =>
    rcases reads with (_ | constraints) | next
    · cases h
      exact .inr (.inr ⟨rfl, rfl, rfl⟩)
    · cases ok <;> cases h <;> exact .inr (.inr ⟨rfl, rfl, rfl⟩)
    · cases h
      exact .inr (.inr ⟨rfl, rfl, rfl⟩)
  | pauseTimer | pauseKick | attachLaunch | attachField | attachRecovery | detachWatch
  | detachField | detachTimer | configure =>
    cases h
    exact .inr (.inr ⟨rfl, rfl, rfl⟩)
  | done => cases h

theorem flagSettled_step (h : s.step l = some s') (hlasts : FlagLasts s l) (hs : s.FlagSettled) :
    s'.FlagSettled := by
  cases step_cases h with
  | call entry => exact hs.append
  | advance hk hstep =>
    exact OrderedWrites.settled_step hk (advance_turn_flag hstep) (hlasts _ _ rfl) hs
  | outside _ _ houtside =>
    rw [FlagSettled, houtside.pausedFlag, houtside.persistedPaused, houtside.tasks]
    exact hs

theorem settled_of_meets (hs : s.FlagSettled) (hC : StepSystem.Meets step FlagLasts s ls)
    (hrun : StepSystem.exec step s ls = some s') : s'.FlagSettled :=
  StepSystem.exec_invariant_of_meets (fun hI hlasts h => flagSettled_step h hlasts hI) hs hC hrun

/-! ## 2. Who arms the timer -/

end Lifecycle

namespace Shared

/-- `isWakeHalted` is false. -/
def Running (s : Shared) : Prop :=
  s.pausedFlag = false ∧ s.options.strategy ≠ .manual ∧ s.credentials ≠ .UNAVAILABLE

/-- A row waits for its retry, in a process that wakes by the timer. -/
def Waits (s : Shared) : Prop :=
  s.pausedFlag = false ∧ s.options.strategy ≠ .manual ∧ 0 < s.attachedEngines ∧
    SyncItemDao.nextRetryDeadline s.table ≠ none

theorem Waits.running {s : Shared} (h : s.Waits) (hcredentials : s.credentials ≠ .UNAVAILABLE) :
    s.Running :=
  ⟨h.1, h.2.1, hcredentials⟩

end Shared

/-- The reads that are left of `isHalted` find the engine running as long as it is. -/
def FindsRunning : Reads Shared Bool → Prop := Reads.Ends Shared.Running (· = false)

theorem findsRunning_isHalted : FindsRunning Shared.isHalted := by
  rintro s₁ ⟨hpaused, -, -⟩
  change FindsRunning (if s₁.pausedFlag = true then pure true else _)
  rw [hpaused, if_neg Bool.false_ne_true]
  rintro s₂ ⟨-, hstrategy, -⟩
  change FindsRunning (if (s₂.options.strategy == .manual) = true then pure true else _)
  rw [beq_false_of_ne hstrategy, if_neg Bool.false_ne_true]
  rintro s₃ ⟨-, -, hcredentials⟩
  exact beq_false_of_ne hcredentials

namespace CallTask

/-- The call is going to arm the timer, unless the wakes are halted. -/
def Arms : CallTask → Prop
  | .resume | .resumePersist | .attach | .attachPersist | .attachCount | .attachLaunch
  | .attachField | .attachRecovery | .configure _ | .configureKick _ | .recovery | .read _
  | .decided _ (some _) | .live _ _ | .timer _ _ => True
  | .halt _ reads => FindsRunning reads
  | _ => False

/-- The call cancels the timer. -/
def Cancels : CallTask → Prop
  | .pauseTimer | .detachTimer | .halt _ (.done true) | .decided _ none => True
  | _ => False

/-- The call gives up, as its read of the store fails. -/
def GivesUp (ok : Bool) : CallTask → Prop
  | .read caller => ok = false ∧ caller ≠ .recovery
  | _ => False

/-- The call asks for the default headers, which cannot be read: the wakes are halted. -/
def TurnsBack (shared : Shared) : CallTask → Prop
  | .halt _ (.get next) =>
    FindsRunning (.get next) ∧ shared.credentials = .UNAVAILABLE ∧ ¬ FindsRunning (next shared)
  | _ => False

theorem not_arms_of_isDone {k : CallTask} (h : k.isDone = true) : ¬ k.Arms := by
  cases k with
  | done => exact not_false
  | _ => cases h

theorem arms_wake (caller : WakeCaller) : (wake caller).Arms := findsRunning_isHalted

end CallTask

namespace Lifecycle

/-- Some call is going to arm the timer, or it counts down. -/
def TimerUp (s : Lifecycle) : Prop :=
  s.shared.Waits → s.shared.retryTimer.waiting ≠ none ∨ ∃ k ∈ s.tasks, k.Arms

/-- The call leaves the timer to others: it gives up, it finds the default headers
unreadable, or the recovery it schedules is dropped for one under way. -/
def Leaves (s : Lifecycle) (ok : Bool) (k : CallTask) : Prop :=
  k.GivesUp ok ∨ k.TurnsBack s.shared ∨
    k = .attachRecovery ∧ s.tasks.any CallTask.isRecovery = true

/-- A call that cancels the timer leaves another one behind that is going to arm it, and so
does one that leaves it to others while it does not count down. -/
def TimerLasts (s : Lifecycle) (l : Label) : Prop :=
  ∀ u ok k, l = .advance u ok → s.tasks[u]? = some k → s.shared.Waits →
    (k.Cancels → TaskPool.Other s.tasks u CallTask.Arms) ∧
    (s.Leaves ok k →
      s.shared.retryTimer.waiting ≠ none ∨ TaskPool.Other s.tasks u CallTask.Arms)

variable {s s' : Lifecycle} {l : Label} {ls : List Label} {u : Nat} {ok : Bool} {k k' : CallTask}
  {shared shared' : Shared}

theorem nextPendingDeadline_ne_none {t : SyncItems} (h : SyncItemDao.nextRetryDeadline t ≠ none) :
    SyncItemDao.nextPendingDeadline t ≠ none := by
  obtain ⟨m, hm⟩ := Option.ne_none_iff_exists'.mp h
  obtain ⟨r, hr, hp, -⟩ := KeyedTable.exists_of_minWhere hm
  simp only [Bool.and_eq_true] at hp
  obtain ⟨m', hm', -⟩ := KeyedTable.exists_minWhere_le (p := fun r => r.status == .PENDING)
    (f := (·.nextRetryAt)) hr hp.1
  exact Option.ne_none_iff_exists'.mpr ⟨m', hm'⟩

theorem deadline_ne_none {t : SyncItems} (h : SyncItemDao.nextRetryDeadline t ≠ none)
    (caller : WakeCaller) : caller.deadline t ≠ none := by
  cases caller with
  | resume => exact nextPendingDeadline_ne_none h
  | _ => exact h

/-- What a call does to the timer while a row waits. -/
inductive TimerTurn (ok : Bool) (shared : Shared) (k : CallTask) (shared' : Shared)
    (k' : CallTask) : Prop where
  | arms (harms : k'.Arms)
  | armed (hup : shared'.retryTimer.waiting ≠ none)
  | cancels (hwaits : shared.Waits) (hcancels : k.Cancels)
  | leaves (hwaits : shared.Waits)
      (hleaves : k.GivesUp ok ∨ k.TurnsBack shared ∨ k = .attachRecovery)
      (hsame : shared'.retryTimer.waiting = shared.retryTimer.waiting)
  | idle (hwaits : shared.Waits) (hnot : ¬ k.Arms)
      (hsame : shared'.retryTimer.waiting = shared.retryTimer.waiting)

theorem advance_timer (h : advance u ok shared k = some (shared', k')) (hwaits : shared'.Waits) :
    TimerTurn ok shared k shared' k' := by
  cases k with
  | pause =>
    cases h
    exact absurd hwaits.1 Bool.false_ne_true.symm
  | resumePersist =>
    cases h
    exact .arms (CallTask.arms_wake _)
  | resume | attach | attachPersist | attachLaunch | attachField | configure =>
    cases h
    exact .arms trivial
  | attachCount =>
    cases h
    refine .arms ?_
    split <;> exact trivial
  | attachRecovery =>
    cases h
    exact .leaves hwaits (.inr (.inr rfl)) rfl
  | pauseTimer | detachTimer =>
    cases h
    exact .cancels hwaits trivial
  | pausePersist | pauseKick | detachWatch | detachField =>
    cases h
    exact .idle hwaits not_false rfl
  | detachCancel job =>
    cases job <;> cases h <;> exact .idle hwaits not_false rfl
  | detach =>
    cases h
    obtain ⟨hpaused, hstrategy, hattached, hrow⟩ := hwaits
    have hbefore : shared.Waits := ⟨hpaused, hstrategy, by dsimp only at hattached; omega, hrow⟩
    exact .idle hbefore not_false rfl
  | configureKick isManual =>
    cases h
    exact .arms (CallTask.arms_wake _)
  | recovery =>
    cases ok <;> cases h
    · exact .arms trivial
    · exact .arms (CallTask.arms_wake _)
  | halt caller reads =>
    rcases reads with (_ | _) | next <;> cases h
    · exact .arms trivial
    · exact .cancels hwaits trivial
    · by_cases harms : FindsRunning (.get next)
      · by_cases hnext : FindsRunning (next shared)
        · exact .arms hnext
        · have hcredentials : shared.credentials = .UNAVAILABLE := by
            by_contra hreadable
            exact hnext (harms shared (hwaits.running hreadable))
          exact .leaves hwaits (.inr (.inl ⟨harms, hcredentials, hnext⟩)) rfl
      · exact .idle hwaits harms rfl
  | read caller =>
    cases ok <;> cases h
    · by_cases hcaller : caller = .recovery
      · rw [if_pos hcaller]
        exact .arms trivial
      · exact .leaves hwaits (.inl ⟨rfl, hcaller⟩) rfl
    · obtain ⟨deadline, hdeadline⟩ :=
        Option.ne_none_iff_exists'.mp (deadline_ne_none hwaits.2.2.2 caller)
      rw [hdeadline]
      exact .arms trivial
  | decided caller deadline =>
    cases deadline <;> cases h
    · exact .cancels hwaits trivial
    · refine .arms ?_
      split <;> exact trivial
  | live caller delayMs =>
    cases h
    rw [if_pos hwaits.2.2.1]
    exact .arms trivial
  | timer caller delayMs =>
    cases h
    exact .armed (Option.some_ne_none _)
  | readKick =>
    simp only [advance] at h
    split at h
    · split at h <;> cases h <;> exact .idle hwaits not_false rfl
    · cases h
      exact .idle hwaits not_false rfl
  | kick caller delayMs reads =>
    rcases reads with (_ | constraints) | next
    · cases h
      exact .idle hwaits not_false rfl
    · cases ok <;> cases h <;> exact .idle hwaits not_false rfl
    · cases h
      exact .idle hwaits not_false rfl
  | done => cases h

/-! ## 3. When the timer is armed in the end -/

/-- The steps of the calls, and of what takes no part in them. Where the default headers
can be read back after all, the strategy is the one that was stored with them. -/
def OfCalls (s : Lifecycle) : Label → Prop
  | .recoverSecret options _ => options.strategy = s.shared.options.strategy
  | .store _ | .fire => False
  | _ => True

theorem timerUp_advance (hk : s.tasks[u]? = some k)
    (hstep : advance u ok s.shared k = some (shared', k')) (hlasts : TimerLasts s (.advance u ok))
    (hs : s.TimerUp) : TimerUp ⟨shared', s.tasks.set u k' ++ spawned s.tasks k⟩ := by
  intro hwaits
  cases advance_timer hstep hwaits with
  | arms harms => exact .inr ⟨k', List.mem_append_left _ (TaskPool.mem_set_self hk), harms⟩
  | armed hup => exact .inl hup
  | cancels hbefore hcancels =>
    exact .inr (((hlasts u ok k rfl hk hbefore).1 hcancels).exists_step hk)
  | leaves hbefore hleaves hsame =>
    by_cases hs' : s.Leaves ok k
    · rcases (hlasts u ok k rfl hk hbefore).2 hs' with hup | hother
      · exact .inl fun hnone => hup (hsame.symm.trans hnone)
      · exact .inr (hother.exists_step hk)
    · -- no recovery is under way, so this one is not dropped
      obtain ⟨hgives, hrest⟩ := not_or.mp hs'
      obtain ⟨hturns, hrecovery⟩ := not_or.mp hrest
      obtain rfl := (hleaves.resolve_left hgives).resolve_left hturns
      have hnone : ¬ s.tasks.any CallTask.isRecovery = true := fun hany => hrecovery ⟨rfl, hany⟩
      refine .inr ⟨.recovery, List.mem_append_right _ ?_, trivial⟩
      rw [spawned, if_neg hnone]
      exact List.mem_singleton_self _
  | idle hbefore hnot hsame =>
    rcases hs hbefore with hup | hex
    · exact .inl fun hnone => hup (hsame.symm.trans hnone)
    · rcases TaskPool.self_or_other hk hex with hself | hother
      · exact absurd hself hnot
      · exact .inr (hother.exists_step hk)

theorem timerUp_step (h : s.step l = some s') (hl : OfCalls s l) (hlasts : TimerLasts s l)
    (hs : s.TimerUp) : s'.TimerUp := by
  cases l with
  | call entry =>
    cases h
    intro hwaits
    exact (hs hwaits).imp_right fun ⟨k, hk, harms⟩ => ⟨k, List.mem_append_left _ hk, harms⟩
  | advance u ok =>
    cases step_cases h with
    | advance hk hstep => exact timerUp_advance hk hstep hlasts hs
    | outside hcall hadvance houtside => exact absurd rfl (hadvance u ok)
  | recoverSecret options credentials =>
    simp only [step, Option.ite_none_right_eq_some] at h
    obtain ⟨-, h⟩ := h
    cases h
    rintro ⟨hpaused, hstrategy, hattached, hrow⟩
    exact hs ⟨hpaused, fun hmanual => hstrategy (hl.trans hmanual), hattached, hrow⟩
  | store | fire => exact absurd hl not_false
  | prefs | tick =>
    cases h
    exact hs
  | work =>
    simp only [step, Option.map_eq_some_iff] at h
    obtain ⟨_, -, rfl⟩ := h
    exact hs

theorem timerUp_of_meets (hs : s.TimerUp) (hls : StepSystem.Meets step OfCalls s ls)
    (hC : StepSystem.Meets step TimerLasts s ls) (hrun : StepSystem.exec step s ls = some s') :
    s'.TimerUp :=
  StepSystem.exec_invariant_of_meets (fun hI hC h => timerUp_step h hC.1 hC.2 hI) hs
    (hls.and hC) hrun

/-! ## 4. What the calls agree on -/

/-- The flags are the same. If they are off, the timer is armed for the row that waits. -/
structure Agrees (s : Lifecycle) : Prop where
  flags : s.shared.persistedPaused = s.shared.pausedFlag
  timer : s.shared.pausedFlag = false → s.shared.persistedPaused = false →
    (∃ r ∈ s.shared.table.rows, r.AwaitsRetry) → 0 < s.shared.attachedEngines →
    s.shared.options.strategy ≠ .manual → s.shared.retryTimer.waiting ≠ none

/-- A step after which nothing is left undone, of the flags and of the timer. -/
def Keeps (s : Lifecycle) (l : Label) : Prop := FlagLasts s l ∧ TimerLasts s l

/-- In any run of the calls, from any calls in progress to a state in which all have
finished. -/
theorem agrees_of_meets (hs : s.Agrees) (hls : StepSystem.Meets step OfCalls s ls)
    (hC : StepSystem.Meets step Keeps s ls) (hrun : StepSystem.exec step s ls = some s')
    (hdone : ∀ k ∈ s'.tasks, k.isDone = true) : s'.Agrees where
  flags := by
    have hsettled : s'.FlagSettled :=
      settled_of_meets (.inl hs.flags.symm) (hC.mono fun _ _ h => h.1) hrun
    exact (hsettled.eq fun k hk => CallTask.carries_of_isDone (hdone k hk)).symm
  timer := by
    rintro hpaused - ⟨r, hr, hwaits⟩ hattached hstrategy
    have hup : s.TimerUp := by
      rintro ⟨hoff, hauto, hlive, hrow⟩
      obtain ⟨m, hm⟩ := Option.ne_none_iff_exists'.mp hrow
      obtain ⟨r, hr, hp, -⟩ := KeyedTable.exists_of_minWhere hm
      simp only [Bool.and_eq_true, beq_iff_eq, decide_eq_true_eq] at hp
      exact .inl (hs.timer hoff (hs.flags.trans hoff) ⟨r, hr, hp⟩ hlive hauto)
    obtain ⟨m, hm, -⟩ := SyncItemDao.exists_nextRetryDeadline_le hr hwaits.1 hwaits.2
    have hrow : SyncItemDao.nextRetryDeadline s'.shared.table ≠ none :=
      Option.ne_none_iff_exists'.mpr ⟨m, hm⟩
    rcases timerUp_of_meets hup hls (hC.mono fun _ _ h => h.2) hrun
      ⟨hpaused, hstrategy, hattached, hrow⟩ with harmed | ⟨k, hk, harms⟩
    · exact harmed
    · exact absurd harms (CallTask.not_arms_of_isDone (hdone k hk))

section Sample

/-- The call neither persists a flag nor stops the timer. -/
def idles (ok : Bool) : CallTask → Bool
  | .pausePersist | .resumePersist | .attachPersist | .pauseTimer | .detachTimer
  | .halt _ (.done true) | .decided _ none | .attachRecovery => false
  | .read _ => ok
  | _ => true

theorem carries_of_idles (h : idles ok k = true) : k.carries = none := by
  cases k with
  | pausePersist | resumePersist | attachPersist => cases h
  | _ => rfl

theorem not_cancels_of_idles (h : idles ok k = true) : ¬ k.Cancels := by
  intro hcancels
  cases k with
  | pauseTimer | detachTimer => cases h
  | halt caller reads => rcases reads with (_ | _) | next <;> first | exact hcancels | cases h
  | decided caller deadline => cases deadline <;> first | exact hcancels | cases h
  | _ => exact hcancels

theorem not_leaves_of_idles (htrusted : s.shared.credentials = .TRUSTED)
    (h : idles ok k = true) : ¬ s.Leaves ok k := by
  rintro (hgives | hturns | ⟨rfl, -⟩)
  · cases k with
    | read caller => exact Bool.false_ne_true (hgives.1.symm.trans h)
    | _ => cases hgives
  · unfold CallTask.TurnsBack at hturns
    split at hturns
    · rw [htrusted] at hturns
      cases hturns.2.1
    · exact hturns
  · cases h

theorem keeps_of_idles (hk : s.tasks[u]? = some k) (htrusted : s.shared.credentials = .TRUSTED)
    (h : idles ok k = true) : s.Keeps (.advance u ok) := by
  constructor
  · rintro _ _ ⟨⟩ k' v hk' hcarries
    obtain rfl := Option.some.inj (hk'.symm.trans hk)
    rw [carries_of_idles h] at hcarries
    cases hcarries
  · rintro _ _ k' ⟨⟩ hk' -
    obtain rfl := Option.some.inj (hk'.symm.trans hk)
    exact ⟨fun hcancels => absurd hcancels (not_cancels_of_idles h),
      fun hleaves => absurd hleaves (not_leaves_of_idles htrusted h)⟩

theorem keeps_call (entry : EntryPoint) : s.Keeps (.call entry) :=
  ⟨fun _ _ h => (by cases h), fun _ _ _ h => (by cases h)⟩

/-- The engine is attached and runs, and the timer is armed for the row. -/
def armedLifecycle : Lifecycle :=
  { sampleLifecycle [] with shared := { (sampleLifecycle []).shared with
      retryTimer := .arm 0 1000 } }

theorem agrees_armedLifecycle : armedLifecycle.Agrees where
  flags := rfl
  timer := by
    intros
    exact Option.some_ne_none _

/-- `resume` clears the flag in memory between the two writes of `pause`, persists it
once `pause` has returned, and arms. -/
def settledRun : List Label :=
  [.call .pause, .call .resume, .advance 0 true, .advance 1 true] ++ steps 0 3 ++ steps 1 8 ++
    [.advance 1 false]

theorem ofCalls_settledRun : StepSystem.Meets step OfCalls armedLifecycle settledRun := by
  have h : ∀ l ∈ settledRun, ∀ s, OfCalls s l := by simp [settledRun, steps, OfCalls]
  exact (StepSystem.meets_of_forall h).mono fun _ _ h => h _

theorem keeps_settledRun : StepSystem.Meets step Keeps armedLifecycle settledRun := by
  refine .cons rfl (keeps_call _) (.cons rfl (keeps_call _) (.cons rfl (keeps_of_idles rfl rfl rfl)
    (.cons rfl (keeps_of_idles rfl rfl rfl) (.cons rfl ⟨?persist, ?idle⟩
    (.cons rfl ⟨?idle', ?cancel⟩ (.cons rfl (keeps_of_idles rfl rfl rfl)
    (.cons rfl ⟨?last, ?idle''⟩ ?rest)))))))
  case persist =>
    rintro _ _ ⟨⟩ k v ⟨⟩ ⟨⟩
    exact .inr ⟨1, by decide, .resumePersist, rfl, rfl⟩
  case cancel =>
    rintro _ _ k ⟨⟩ ⟨⟩ -
    exact ⟨fun _ => ⟨1, by decide, .resumePersist, rfl, trivial⟩,
      fun h => by rcases h with h | h | ⟨h, -⟩ <;> cases h⟩
  case last =>
    rintro _ _ ⟨⟩ k v ⟨⟩ ⟨⟩
    exact .inl rfl
  case rest =>
    iterate 8 refine .cons rfl (keeps_of_idles rfl rfl rfl) ?_
    trivial
  case idle' => rintro _ _ ⟨⟩ k v ⟨⟩ ⟨⟩
  all_goals
    rintro _ _ k ⟨⟩ ⟨⟩ -
    exact ⟨False.elim, fun h => by rcases h with h | h | ⟨h, -⟩ <;> cases h⟩

/-! ## 5. Calls that overtake one another -/

/-- `resume` runs between the two writes of `pause`. -/
def splitRun : List Label :=
  [.call .pause, .call .resume] ++ steps 0 1 ++ steps 1 20 ++ steps 0 3

/-- `resume` runs once `pause` has written both flags. -/
def disarmedRun : List Label :=
  [.call .pause, .call .resume] ++ steps 0 2 ++ steps 1 20 ++ steps 0 2

/-- Whether all calls have finished, the two flags, and when the timer is due. -/
def outcome (s : Lifecycle) : Bool × Bool × Bool × Option Int :=
  (s.finished, s.shared.pausedFlag, s.shared.persistedPaused, s.shared.retryTimer.waiting)

example : (StepSystem.exec step armedLifecycle splitRun).map outcome =
    some (true, false, true, none) := rfl

example : (StepSystem.exec step armedLifecycle disarmedRun).map outcome =
    some (true, false, false, none) := rfl

end Sample

end Lifecycle

end SyncProvider.Android
