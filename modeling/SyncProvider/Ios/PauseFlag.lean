import SyncProvider.Ios.Lifecycle
import SyncProvider.Lib.OrderedWrites

/-!
# iOS: the pause flag and the timer of overlapping calls

`pause` and `resume` write the flag on disk and then that of the dispatcher, as
`attachHybrid` does, and disarm or re-arm the timer afterwards. The ticket keeps two
re-arms apart, but nothing keeps apart the writes of two calls, nor a disarm and the
write that made it wrong.

Results:
1. `settled_of_meets` : when the two flags are the same in the end.
2. `timerUp_of_meets` : when the timer is armed in the end.
3. `agrees_of_meets` : both, over any run of the calls.
-/

namespace SyncProvider.Ios

/-! ## 1. The two flags -/

/-- The value that the call has written to disk and is about to write to memory. -/
def CallTask.carries : CallTask → Option Bool
  | .pauseHooks => some true
  | .resumeHooks | .attachHooks => some false
  | _ => none

theorem CallTask.carries_of_isDone {k : CallTask} (h : k.isDone = true) : k.carries = none := by
  cases k with
  | done => rfl
  | _ => cases h

namespace Lifecycle

variable {s s' : Lifecycle} {l : Label} {ls : List Label} {u : Nat} {ok : Bool} {k k' : CallTask}
  {shared shared' : Shared}

/-- The flags agree, or a call is still to write the one on disk to memory. -/
def FlagSettled (s : Lifecycle) : Prop :=
  OrderedWrites.Settled s.shared.persistedPaused s.shared.paused CallTask.carries s.tasks

/-- A call that writes the flag in memory writes the one on disk, or leaves a call behind
that is still to do so. -/
def FlagLasts (s : Lifecycle) (l : Label) : Prop :=
  ∀ u ok, l = .advance u ok →
    OrderedWrites.Lasts s.shared.persistedPaused CallTask.carries s.tasks u

theorem advance_turn_flag (h : advance ok shared k = some (shared', k')) :
    OrderedWrites.Turn shared.persistedPaused shared.paused k.carries shared'.persistedPaused
      shared'.paused k'.carries := by
  revert h
  fun_cases advance ok shared k <;> intro h <;> cases h
  all_goals first
    | exact .inr (.inr ⟨rfl, rfl, rfl⟩)
    | exact .inl ⟨rfl, rfl⟩
    | exact .inr (.inl ⟨rfl, rfl, rfl⟩)
    | exact .inr (.inr ⟨rfl, rfl, by split <;> rfl⟩)

theorem flagSettled_step (h : s.step l = some s') (hlasts : FlagLasts s l) (hs : s.FlagSettled) :
    s'.FlagSettled := by
  cases step_cases h with
  | call entry => exact hs.append
  | advance hk hstep =>
    exact OrderedWrites.settled_step hk (advance_turn_flag hstep) (hlasts _ _ rfl) hs
  | outside _ _ houtside =>
    rw [FlagSettled, houtside.persistedPaused, houtside.paused, houtside.tasks]
    exact hs

theorem settled_of_meets (hs : s.FlagSettled) (hC : StepSystem.Meets step FlagLasts s ls)
    (hrun : StepSystem.exec step s ls = some s') : s'.FlagSettled :=
  StepSystem.exec_invariant_of_meets (fun hI hlasts h => flagSettled_step h hlasts hI) hs hC hrun

end Lifecycle

/-! ## 2. Who arms the timer -/

/-- A row waits for its retry, in a process that wakes by the timer. -/
def Shared.Waits (s : Shared) : Prop :=
  s.paused = false ∧ s.isManual = false ∧ 0 < s.attachedHybrids ∧
    SyncItemDao.earliestRetryAt s.store ≠ none

namespace CallTask

/-- The call is going to draw a ticket. -/
def Rearms : CallTask → Prop
  | .resume | .resumeHooks | .configure _ | .attach | .attachPersist | .attachHooks
  | .attachWake | .startup _ | .rearm _ => True
  | _ => False

/-- The call of `attachHybrid` has counted the hybrid, and launch recovery may hold up its
re-arm. -/
def Attaches : CallTask → Prop
  | .attachPersist | .attachHooks | .attachWake | .startup _ => True
  | _ => False

/-- The ticket that the call holds. -/
def ticket? : CallTask → Option Nat
  | .ticketed _ ticket _ _ | .asked _ ticket _ _ _ | .decided _ ticket _ _ => some ticket
  | _ => none

/-- The call is not going to cancel the timer. -/
def Wants : CallTask → Prop
  | .ticketed _ _ canArm _ => canArm = true
  | .asked _ _ canArm _ isPaused => canArm = true ∧ isPaused = false
  | .decided _ _ _ wakeAt => wakeAt ≠ none
  | _ => True

theorem not_rearms_of_isDone {k : CallTask} (h : k.isDone = true) : ¬ k.Rearms := by
  cases k with
  | done => exact not_false
  | _ => cases h

theorem ticket?_of_isDone {k : CallTask} (h : k.isDone = true) : k.ticket? = none := by
  cases k with
  | done => rfl
  | _ => cases h

theorem rearms_of_attaches {k : CallTask} (h : k.Attaches) : k.Rearms := by
  cases k with
  | attachPersist | attachHooks | attachWake | startup => trivial
  | _ => exact absurd h not_false

/-- The call disarms the timer. -/
def Disarms : CallTask → Prop
  | .pauseDisarm | .detachDisarm => True
  | _ => False

/-- The call holds the newest ticket and gives up, as its read of the store throws. -/
def GivesUp (ok : Bool) (newest : Nat) : CallTask → Prop
  | .asked _ ticket canArm _ isPaused =>
    ok = false ∧ ticket = newest ∧ canArm = true ∧ isPaused = false
  | _ => False

end CallTask

namespace Lifecycle

/-- A call that disarms the timer leaves another one behind that is going to draw a
ticket, and so does one that gives up with the newest ticket while the timer is not armed. -/
def TimerLasts (s : Lifecycle) (l : Label) : Prop :=
  ∀ u ok k, l = .advance u ok → s.tasks[u]? = some k → s.shared.Waits →
    (k.Disarms → TaskPool.Other s.tasks u CallTask.Rearms) ∧
    (k.GivesUp ok s.shared.rearmTicket →
      s.shared.retryTimer ≠ none ∨ TaskPool.Other s.tasks u CallTask.Rearms)

/-- Whoever holds the newest ticket is not going to cancel the timer, and the timer is
armed or somebody holds it. -/
def Wanted (shared : Shared) (tasks : List CallTask) : Prop :=
  (∀ k ∈ tasks, k.ticket? = some shared.rearmTicket → k.Wants) ∧
    (shared.retryTimer ≠ none ∨ ∃ k ∈ tasks, k.ticket? = some shared.rearmTicket)

/-- What the calls keep as long as a row waits. -/
structure TimerUp (s : Lifecycle) : Prop where
  tickets : ∀ k ∈ s.tasks, ∀ ticket, k.ticket? = some ticket → ticket ≤ s.shared.rearmTicket
  recovering : s.shared.recovering = true → 0 < s.shared.attachedHybrids →
    ∃ k ∈ s.tasks, k.Attaches
  up : s.shared.Waits → (∃ k ∈ s.tasks, k.Rearms) ∨ Wanted s.shared s.tasks

variable {s s' : Lifecycle} {l : Label} {ls : List Label} {u : Nat} {ok : Bool} {k k' : CallTask}
  {shared shared' : Shared}

/-- What a call does to the timer and the ticket while a row waits. -/
inductive TimerTurn (ok : Bool) (shared : Shared) (k : CallTask) (shared' : Shared)
    (k' : CallTask) : Prop where
  | rearms (hrearms : k'.Rearms ∨ k = .attachWake)
  | disarms (hwaits : shared.Waits) (hdisarms : k.Disarms)
  | draws (hticket : shared'.rearmTicket = shared.rearmTicket + 1)
      (hdrawn : k'.ticket? = some shared'.rearmTicket) (hwants : k'.Wants)
  | arms (hwaits : shared.Waits) (hrearms : ¬ k.Rearms)
      (hticket : shared'.rearmTicket = shared.rearmTicket) (hup : shared'.retryTimer ≠ none)
      (hdone : k'.ticket? = none)
  | drops (hwaits : shared.Waits) (hnewest : k.ticket? = some shared.rearmTicket)
      (hrearms : ¬ k.Rearms) (hwants : ¬ k.Wants)
  | givesUp (hwaits : shared.Waits) (hrearms : ¬ k.Rearms) (hshared : shared' = shared)
      (hgives : k.GivesUp ok shared.rearmTicket) (hdone : k'.ticket? = none)
  | idle (hwaits : shared.Waits) (hrearms : ¬ k.Rearms)
      (hticket : shared'.rearmTicket = shared.rearmTicket)
      (htimer : shared'.retryTimer = shared.retryTimer)
      (hheld : k'.ticket? = k.ticket? ∧ (k.Wants → k'.Wants) ∨
        k.ticket? ≠ some shared.rearmTicket ∧ k'.ticket? = none)

theorem earliest_ne_none {store : StoredItems} (h : SyncItemDao.earliestRetryAt store ≠ none)
    (scope : RetryWakeScope) : SyncEngine.earliest scope store ≠ none := by
  cases scope with
  | attempted => exact h
  | allPending =>
    obtain ⟨m, hm⟩ := Option.ne_none_iff_exists'.mp h
    obtain ⟨r, hr, hp, -⟩ := KeyedTable.exists_of_minWhere hm
    simp only [Bool.and_eq_true] at hp
    obtain ⟨m', hm', -⟩ := KeyedTable.exists_minWhere_le (p := fun r => r.status == .PENDING)
      (f := (·.nextRetryAt)) hr hp.1
    exact Option.ne_none_iff_exists'.mpr ⟨m', hm'⟩

theorem advance_timer (h : advance ok shared k = some (shared', k')) (hwaits : shared'.Waits) :
    TimerTurn ok shared k shared' k' := by
  cases k with
  | pause =>
    cases h
    exact .idle hwaits not_false rfl rfl (.inl ⟨rfl, id⟩)
  | pauseHooks =>
    cases h
    exact absurd hwaits.1 Bool.false_ne_true.symm
  | pauseDisarm | detachDisarm =>
    cases h
    exact .disarms hwaits trivial
  | resume | resumeHooks | configure | attach | attachPersist | attachHooks =>
    cases h
    exact .rearms (.inl trivial)
  | attachWake =>
    cases h
    exact .rearms (.inr rfl)
  | startup u =>
    simp only [advance, Option.ite_none_left_eq_some] at h
    obtain ⟨-, h⟩ := h
    cases h
    exact .rearms (.inl trivial)
  | detach =>
    cases h
    obtain ⟨hpaused, hmanual, hattached, hrow⟩ := hwaits
    have hbefore : shared.Waits := ⟨hpaused, hmanual, by dsimp only at hattached; omega, hrow⟩
    refine .idle hbefore not_false rfl rfl (.inl ⟨?_, fun _ => ?_⟩) <;> split <;> trivial
  | rearm caller =>
    cases h
    obtain ⟨-, hmanual, hattached, -⟩ := hwaits
    refine .draws rfl rfl ?_
    dsimp only at hmanual hattached
    simp [CallTask.Wants, hmanual, hattached]
  | ticketed caller ticket canArm holdUntil =>
    cases h
    exact .idle hwaits not_false rfl rfl (.inl ⟨rfl, fun hcan => ⟨hcan, hwaits.1⟩⟩)
  | asked caller ticket canArm holdUntil isPaused =>
    simp only [advance] at h
    split at h
    · next hcan =>
      simp only [Bool.and_eq_true, Bool.not_eq_true'] at hcan
      cases ok <;> cases h
      · by_cases hnewest : ticket = shared.rearmTicket
        · exact .givesUp hwaits not_false rfl ⟨rfl, hnewest, hcan⟩ rfl
        · exact .idle hwaits not_false rfl rfl
            (.inr ⟨fun heq => hnewest (Option.some.inj heq), rfl⟩)
      · exact .idle hwaits not_false rfl rfl
          (.inl ⟨rfl, fun _ => earliest_ne_none hwaits.2.2.2 _⟩)
    · next hcan =>
      cases h
      refine .idle hwaits not_false rfl rfl (.inl ⟨rfl, fun hwants => absurd ?_ hcan⟩)
      simp [hwants.1, hwants.2]
  | decided caller ticket holdUntil wakeAt =>
    simp only [advance] at h
    split at h
    · next hnewest =>
      cases wakeAt <;> cases h
      · exact .drops hwaits (congrArg some hnewest) not_false (fun hwants => hwants rfl)
      · exact .arms hwaits not_false rfl (Option.some_ne_none _) rfl
    · next hnewest =>
      cases h
      exact .idle hwaits not_false rfl rfl
        (.inr ⟨fun heq => hnewest (Option.some.inj heq), rfl⟩)
  | done => cases h

theorem advance_ticket (h : advance ok shared k = some (shared', k')) :
    shared.rearmTicket ≤ shared'.rearmTicket ∧
      ∀ ticket, k'.ticket? = some ticket →
        k.ticket? = some ticket ∨ ticket = shared'.rearmTicket := by
  revert h
  fun_cases advance ok shared k <;> intro h <;> cases h
  all_goals first
    | exact ⟨Nat.le_refl _, fun _ => .inl⟩
    | exact ⟨Nat.le_refl _, fun _ h => by cases h⟩
    | exact ⟨Nat.le_succ _, fun _ h => .inr (Option.some.inj h).symm⟩
    | exact ⟨Nat.le_succ _, fun _ h => by cases h⟩
    | exact ⟨Nat.le_refl _, fun _ h => by split at h <;> cases h⟩

theorem advance_recovering (h : advance ok shared k = some (shared', k'))
    (hrecovering : shared'.recovering = true) (hattached : 0 < shared'.attachedHybrids) :
    k'.Attaches ∨ k = .attachWake ∨
      shared.recovering = true ∧ 0 < shared.attachedHybrids ∧ ¬ k.Attaches := by
  revert h
  fun_cases advance ok shared k <;> intro h <;> cases h
  all_goals first
    | exact .inl trivial
    | exact .inr (.inl rfl)
    | exact .inr (.inr ⟨hrecovering, hattached, not_false⟩)
    | exact absurd hrecovering ‹_›
    | exact .inr (.inr ⟨hrecovering, Nat.lt_of_lt_of_le hattached (Nat.sub_le _ _), not_false⟩)

theorem startup_mem (hk : k = .attachWake) :
    CallTask.startup u ∈ s.tasks.set u k' ++ spawned u k := by
  subst hk
  exact List.mem_append_right _ (List.mem_singleton_self _)

theorem self_mem (hk : s.tasks[u]? = some k) : k' ∈ s.tasks.set u k' ++ spawned u k :=
  List.mem_append_left _ (TaskPool.mem_set_self hk)

/-- A task other than `u` that is going to draw a ticket. -/
theorem other_rearms (hk : s.tasks[u]? = some k) (hnot : ¬ k.Rearms)
    (h : ∃ x ∈ s.tasks, x.Rearms) : TaskPool.Other s.tasks u CallTask.Rearms :=
  (TaskPool.self_or_other hk h).resolve_left hnot

theorem wants_advance {newest : Nat} (hself : k'.ticket? = some newest → k'.Wants)
    (h : ∀ x ∈ s.tasks, x.ticket? = some newest → x.Wants) :
    ∀ x ∈ s.tasks.set u k' ++ spawned u k, x.ticket? = some newest → x.Wants := by
  intro x hx hticket
  rcases mem_advance hx with hx | rfl | rfl
  · exact h x hx hticket
  · exact hself hticket
  · cases hticket

theorem up_advance (hk : s.tasks[u]? = some k)
    (hstep : advance ok s.shared k = some (shared', k')) (hlasts : TimerLasts s (.advance u ok))
    (hs : s.TimerUp) (hwaits : shared'.Waits) :
    (∃ x ∈ s.tasks.set u k' ++ spawned u k, x.Rearms) ∨
      Wanted shared' (s.tasks.set u k' ++ spawned u k) := by
  cases advance_timer hstep hwaits with
  | rearms hrearms =>
    rcases hrearms with hrearms | hwake
    · exact .inl ⟨k', self_mem hk, hrearms⟩
    · exact .inl ⟨_, startup_mem hwake, trivial⟩
  | disarms hbefore hdisarms =>
    exact .inl (((hlasts u ok k rfl hk hbefore).1 hdisarms).exists_step hk)
  | draws hticket hdrawn hwants =>
    refine .inr ⟨wants_advance (fun _ => hwants) fun x hx hnewest => ?_,
      .inr ⟨k', self_mem hk, hdrawn⟩⟩
    have hle := hs.tickets x hx _ hnewest
    omega
  | arms hbefore hrearms hticket hup hdone =>
    rcases hs.up hbefore with hex | ⟨hwants, -⟩
    · exact .inl ((other_rearms hk hrearms hex).exists_step hk)
    · refine .inr ⟨wants_advance (fun h => ?_) (hticket ▸ hwants), .inl hup⟩
      rw [hdone] at h
      cases h
  | drops hbefore hnewest hrearms hnot =>
    rcases hs.up hbefore with hex | ⟨hwants, -⟩
    · exact .inl ((other_rearms hk hrearms hex).exists_step hk)
    · exact absurd (hwants k (List.mem_of_getElem? hk) hnewest) hnot
  | givesUp hbefore hrearms hshared hgives hdone =>
    subst hshared
    have hself (h : k'.ticket? = some s.shared.rearmTicket) : k'.Wants := by
      rw [hdone] at h
      cases h
    rcases (hlasts u ok k rfl hk hbefore).2 hgives with hup | hother
    · rcases hs.up hbefore with hex | ⟨hwants, -⟩
      · exact .inl ((other_rearms hk hrearms hex).exists_step hk)
      · exact .inr ⟨wants_advance hself hwants, .inl hup⟩
    · exact .inl (hother.exists_step hk)
  | idle hbefore hrearms hticket htimer hheld =>
    rcases hs.up hbefore with hex | ⟨hwants, hup⟩
    · exact .inl ((other_rearms hk hrearms hex).exists_step hk)
    · rw [← hticket] at hwants hup
      have hself (h : k'.ticket? = some shared'.rearmTicket) : k'.Wants := by
        rcases hheld with ⟨hsame, hkept⟩ | ⟨-, hdone⟩
        · exact hkept (hwants k (List.mem_of_getElem? hk) (hsame.symm.trans h))
        · rw [hdone] at h
          cases h
      refine .inr ⟨wants_advance hself hwants, ?_⟩
      rcases hup with hup | hex
      · exact .inl fun hnone => hup (htimer.symm.trans hnone)
      · right
        rcases TaskPool.self_or_other hk hex with hnewest | hother
        · rcases hheld with ⟨hsame, -⟩ | ⟨hstale, -⟩
          · exact ⟨k', self_mem hk, hsame.trans hnewest⟩
          · exact absurd (hticket ▸ hnewest) hstale
        · exact hother.exists_step hk

theorem timerUp_advance (hk : s.tasks[u]? = some k)
    (hstep : advance ok s.shared k = some (shared', k')) (hlasts : TimerLasts s (.advance u ok))
    (hs : s.TimerUp) : TimerUp ⟨shared', s.tasks.set u k' ++ spawned u k⟩ where
  tickets := by
    obtain ⟨hle, hticket⟩ := advance_ticket hstep
    intro x hx ticket hheld
    rcases mem_advance hx with hx | rfl | rfl
    · exact Nat.le_trans (hs.tickets x hx ticket hheld) hle
    · rcases hticket ticket hheld with hbefore | rfl
      · exact Nat.le_trans (hs.tickets k (List.mem_of_getElem? hk) ticket hbefore) hle
      · exact Nat.le_refl _
    · cases hheld
  recovering := by
    intro hrecovering hattached
    rcases advance_recovering hstep hrecovering hattached with hself | hwake | ⟨hr, ha, hnot⟩
    · exact ⟨k', self_mem hk, hself⟩
    · exact ⟨_, startup_mem hwake, trivial⟩
    · have hother := (TaskPool.self_or_other hk (hs.recovering hr ha)).resolve_left hnot
      exact hother.exists_step hk
  up := up_advance hk hstep hlasts hs

/-- The steps of the calls, and of what takes no part in them. -/
def OfCalls : Label → Prop
  | .store _ | .fire => False
  | _ => True

theorem TimerUp.append (hs : s.TimerUp) (hk : k.ticket? = none) :
    TimerUp { s with tasks := s.tasks ++ [k] } where
  tickets := by
    refine TaskPool.forall_spawn hs.tickets fun ticket hheld => ?_
    rw [hk] at hheld
    cases hheld
  recovering hrecovering hattached :=
    TaskPool.exists_spawn (hs.recovering hrecovering hattached)
  up hwaits := by
    rcases hs.up hwaits with hex | ⟨hwants, hup⟩
    · exact .inl (TaskPool.exists_spawn hex)
    · refine .inr ⟨TaskPool.forall_spawn hwants fun hheld => ?_,
        hup.imp_right TaskPool.exists_spawn⟩
      rw [hk] at hheld
      cases hheld

theorem timerUp_step (h : s.step l = some s') (hl : OfCalls l) (hlasts : TimerLasts s l)
    (hs : s.TimerUp) : s'.TimerUp := by
  cases l with
  | call entry =>
    cases h
    exact hs.append (by cases entry <;> rfl)
  | advance u ok =>
    cases step_cases h with
    | advance hk hstep => exact timerUp_advance hk hstep hlasts hs
    | outside hcall hadvance houtside => exact absurd rfl (hadvance u ok)
  | recover ok =>
    simp only [step, Option.ite_none_right_eq_some] at h
    obtain ⟨hrecovering, h⟩ := h
    cases h
    refine ⟨hs.tickets, fun h => absurd h Bool.false_ne_true, fun hwaits => .inl ?_⟩
    -- whoever has attached is still to re-arm
    obtain ⟨k, hk, hattaches⟩ := hs.recovering hrecovering hwaits.2.2.1
    exact ⟨k, hk, CallTask.rearms_of_attaches hattaches⟩
  | store | fire => exact absurd hl not_false
  | tick =>
    cases h
    exact ⟨hs.tickets, hs.recovering, hs.up⟩

theorem timerUp_of_meets (hs : s.TimerUp) (hls : ∀ l ∈ ls, OfCalls l)
    (hC : StepSystem.Meets step TimerLasts s ls) (hrun : StepSystem.exec step s ls = some s') :
    s'.TimerUp :=
  StepSystem.exec_invariant_of_meets (fun hI hC h => timerUp_step h hC.1 hC.2 hI) hs
    ((StepSystem.meets_of_forall hls).and hC) hrun

/-! ## 3. What the calls agree on -/

/-- The flags are the same. If they are off, the timer is armed for the row that waits. -/
structure Agrees (s : Lifecycle) : Prop where
  flags : s.shared.persistedPaused = s.shared.paused
  timer : s.shared.paused = false → s.shared.persistedPaused = false →
    (∃ r ∈ s.shared.store.rows, r.AwaitsRetry) → 0 < s.shared.attachedHybrids →
    s.shared.isManual = false → s.shared.retryTimer ≠ none

/-- A step after which nothing is left undone, of the flags and of the timer. -/
def Keeps (s : Lifecycle) (l : Label) : Prop := FlagLasts s l ∧ TimerLasts s l

theorem earliestRetryAt_ne_none {store : StoredItems} :
    SyncItemDao.earliestRetryAt store ≠ none ↔ ∃ r ∈ store.rows, r.AwaitsRetry := by
  constructor
  · intro h
    obtain ⟨m, hm⟩ := Option.ne_none_iff_exists'.mp h
    obtain ⟨r, hr, hwaits, -⟩ := SyncItemDao.exists_of_earliestRetryAt hm
    exact ⟨r, hr, hwaits⟩
  · rintro ⟨r, hr, hstatus, hretry⟩
    obtain ⟨m, hm, -⟩ := KeyedTable.exists_minWhere_le
      (p := fun r : StoredSyncItem => r.status == .PENDING && 0 < r.nextRetryAt)
      (f := (·.nextRetryAt)) hr (by simp [hstatus, hretry])
    exact Option.ne_none_iff_exists'.mpr ⟨m, hm⟩

theorem timerUp_of_quiet (hquiet : ∀ k ∈ s.tasks, k.isDone = true) (hs : s.Agrees)
    (hlaunch : s.shared.recovering = true → s.shared.attachedHybrids = 0) : s.TimerUp where
  tickets := by
    intro k hk ticket hheld
    rw [CallTask.ticket?_of_isDone (hquiet k hk)] at hheld
    cases hheld
  recovering hrecovering hattached := by
    rw [hlaunch hrecovering] at hattached
    exact absurd hattached (Nat.lt_irrefl 0)
  up := by
    rintro ⟨hpaused, hmanual, hattached, hrow⟩
    refine .inr ⟨fun k hk hheld => ?_, .inl ?_⟩
    · rw [CallTask.ticket?_of_isDone (hquiet k hk)] at hheld
      cases hheld
    · exact hs.timer hpaused (hs.flags.trans hpaused) (earliestRetryAt_ne_none.mp hrow) hattached
        hmanual

/-- In any run of the calls, from a state in which none is in progress to one in which
all have finished. -/
theorem agrees_of_meets (hquiet : ∀ k ∈ s.tasks, k.isDone = true) (hs : s.Agrees)
    (hlaunch : s.shared.recovering = true → s.shared.attachedHybrids = 0)
    (hls : ∀ l ∈ ls, OfCalls l) (hC : StepSystem.Meets step Keeps s ls)
    (hrun : StepSystem.exec step s ls = some s') (hdone : ∀ k ∈ s'.tasks, k.isDone = true) :
    s'.Agrees where
  flags := by
    have hsettled : s'.FlagSettled :=
      settled_of_meets (.inl hs.flags) (hC.mono fun _ _ h => h.1) hrun
    exact hsettled.eq fun k hk => CallTask.carries_of_isDone (hdone k hk)
  timer := by
    rintro hpaused - hrow hattached hmanual
    have hup : s'.TimerUp :=
      timerUp_of_meets (timerUp_of_quiet hquiet hs hlaunch) hls (hC.mono fun _ _ h => h.2) hrun
    rcases hup.up ⟨hpaused, hmanual, hattached, earliestRetryAt_ne_none.mpr hrow⟩ with
      ⟨k, hk, hrearms⟩ | ⟨-, harmed | ⟨k, hk, hheld⟩⟩
    · exact absurd hrearms (CallTask.not_rearms_of_isDone (hdone k hk))
    · exact harmed
    · rw [CallTask.ticket?_of_isDone (hdone k hk)] at hheld
      cases hheld

section Sample

/-- The call neither writes the flag in memory nor stops the timer. -/
def idles (ok : Bool) : CallTask → Bool
  | .pauseHooks | .resumeHooks | .attachHooks | .pauseDisarm | .detachDisarm => false
  | .asked _ _ _ _ _ => ok
  | _ => true

theorem keeps_of_idles (hk : s.tasks[u]? = some k) (h : idles ok k = true) :
    s.Keeps (.advance u ok) := by
  constructor
  · rintro _ _ ⟨⟩ k' v hk' hcarries
    obtain rfl := Option.some.inj (hk'.symm.trans hk)
    cases k' with
    | pauseHooks | resumeHooks | attachHooks => cases h
    | _ => cases hcarries
  · rintro _ _ k' ⟨⟩ hk' -
    obtain rfl := Option.some.inj (hk'.symm.trans hk)
    refine ⟨fun hdisarms => ?_, fun hgives => ?_⟩
    · cases k' with
      | pauseDisarm | detachDisarm => cases h
      | _ => exact absurd hdisarms not_false
    · cases k' with
      | asked => exact absurd (hgives.1.symm.trans h) Bool.false_ne_true
      | _ => exact absurd hgives not_false

theorem keeps_call (entry : EntryPoint) : s.Keeps (.call entry) :=
  ⟨fun _ _ h => (by cases h), fun _ _ _ h => (by cases h)⟩

/-- A hybrid is attached, the engine runs, and the timer is armed for the row. -/
def armedLifecycle : Lifecycle :=
  { launched with shared := { launched.shared with
      attachedHybrids := 1
      retryTimer := some 1000 } }

theorem agrees_armedLifecycle : armedLifecycle.Agrees where
  flags := rfl
  timer := by
    intros
    exact Option.some_ne_none _

/-- `resume` writes both flags before `pause` disarms, and re-arms once `pause` has
returned. -/
def settledRun : List Label :=
  [.call .pause, .call .resume, .advance 0 true, .advance 1 true, .advance 0 true,
    .advance 1 true, .advance 0 true] ++ steps 1 4

theorem ofCalls_settledRun : ∀ l ∈ settledRun, OfCalls l := by
  simp [settledRun, steps, OfCalls]

theorem keeps_settledRun : StepSystem.Meets step Keeps armedLifecycle settledRun := by
  refine .cons rfl (keeps_call _) (.cons rfl (keeps_call _) (.cons rfl (keeps_of_idles rfl rfl)
    (.cons rfl (keeps_of_idles rfl rfl) (.cons rfl ⟨?pause, ?idle⟩ (.cons rfl ⟨?resume, ?idle'⟩
    (.cons rfl ⟨?idle'', ?disarm⟩ ?rest))))))
  case pause =>
    rintro _ _ ⟨⟩ k v ⟨⟩ ⟨⟩
    exact .inr ⟨1, by decide, .resumeHooks, rfl, rfl⟩
  case resume =>
    rintro _ _ ⟨⟩ k v ⟨⟩ ⟨⟩
    exact .inl rfl
  case disarm =>
    rintro _ _ k ⟨⟩ ⟨⟩ -
    exact ⟨fun _ => ⟨1, by decide, .rearm .resume, rfl, trivial⟩, False.elim⟩
  case rest =>
    iterate 4 refine .cons rfl (keeps_of_idles rfl rfl) ?_
    trivial
  case idle'' => rintro _ _ ⟨⟩ k v ⟨⟩ ⟨⟩
  all_goals
    rintro _ _ k ⟨⟩ ⟨⟩ -
    exact ⟨False.elim, False.elim⟩

/-! ## 4. Calls that overtake one another -/

/-- `resume` runs between the two writes of `pause`. -/
def splitRun : List Label :=
  [.call .pause, .call .resume] ++ steps 0 1 ++ steps 1 6 ++ steps 0 2

/-- `resume` runs once `pause` has written both flags. -/
def disarmedRun : List Label :=
  [.call .pause, .call .resume] ++ steps 0 2 ++ steps 1 6 ++ steps 0 1

/-- Whether all calls have finished, the two flags, and when the timer is due. -/
def outcome (s : Lifecycle) : Bool × Bool × Bool × Option Int :=
  (s.finished, s.shared.paused, s.shared.persistedPaused, s.shared.retryTimer)

end Sample

end Lifecycle

end SyncProvider.Ios
