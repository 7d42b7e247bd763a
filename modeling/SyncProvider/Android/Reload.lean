import SyncProvider.Android.Lifecycle

/-!
# Android: an attach behind the last detach

A detach that takes the count to zero cancels the connectivity watch and the retry timer
afterwards. An attach that raises the count in between launches a watch of its own, and
its recovery re-arms the timer.

Results:
1. `named_step` : a watch is not in the field before its attach has stored it.
2. `spared_step` : who is still to cancel what, as long as an engine is attached.
3. `engine_spared_of_meets` : when the live engine keeps its watch and its timer.
-/

namespace SyncProvider.Android

/-- What has become of the latest attach that found no engine attached. -/
inductive AttachStage where
  | raised
  /-- It has scheduled the recovery. -/
  | scheduled
  /-- A recovery has re-armed the timer since. -/
  | rearmed
  /-- A detach has cancelled the timer since. -/
  | disarmed
  deriving DecidableEq

/-- The latest attach that found no engine attached, by its task. -/
abbrev FirstAttach := Option (Nat × AttachStage)

namespace CallTask

/-- The attach has not stored its watch in the field, if it is to launch one. -/
def BeforeField : CallTask → Prop
  | .attach | .attachPersist | .attachCount | .attachLaunch | .attachField => True
  | _ => False

/-- The detach was the last one and has not cancelled the timer. -/
def Cleans : CallTask → Prop
  | .detachWatch | .detachCancel _ | .detachField | .detachTimer => True
  | _ => False

end CallTask

namespace Lifecycle

/-- What a step means for the latest first attach. -/
def observe (s : Lifecycle) (l : Label) (first : FirstAttach) : FirstAttach :=
  match l with
  | .advance u _ =>
    match s.tasks[u]? with
    | some .attachCount => if s.shared.attachedEngines = 0 then some (u, .raised) else first
    | some .attachRecovery => if first = some (u, .raised) then some (u, .scheduled) else first
    | some (.timer .recovery _) =>
      first.map fun (v, stage) => (v, if stage = .scheduled then .rearmed else stage)
    | some .detachTimer =>
      first.map fun (v, stage) => (v, if stage = .rearmed then .disarmed else stage)
    | _ => first
  | _ => first

/-- No detach is still to read the field when the first attach stores its watch there, and
none is still to cancel the timer when it is re-armed on behalf of that attach. -/
def Spares (p : Lifecycle × FirstAttach) (l : Label) : Prop :=
  ∀ u ok k, l = .advance u ok → p.1.tasks[u]? = some k → 0 < p.1.shared.attachedEngines →
    (k = .attachField → CallTask.detachWatch ∉ p.1.tasks) ∧
    (∀ delayMs v, k = .timer .recovery delayMs → p.2 = some (v, .scheduled) →
      ∀ x ∈ p.1.tasks, ¬ x.Cleans)

variable {s s' : Lifecycle} {l : Label} {ls : List Label} {u : Nat} {ok : Bool} {k k' : CallTask}
  {shared shared' : Shared} {first : FirstAttach} {v : Nat} {stage : AttachStage}

/-! ## 1. The names of the watches -/

/-- The field, or a detach that has read it, holds the watch of task `job`. -/
def Held (s : Lifecycle) (job : Nat) : Prop :=
  s.shared.connectivityWatch = some job ∨ CallTask.detachCancel (some job) ∈ s.tasks

/-- The watches that are held have been stored by their attach. -/
def Named (s : Lifecycle) : Prop :=
  ∀ job, s.Held job → ∃ k, s.tasks[job]? = some k ∧ ¬ k.BeforeField

theorem advance_beforeField (h : advance u ok shared k = some (shared', k'))
    (hbefore : k'.BeforeField) : k.BeforeField := by
  revert h
  fun_cases advance u ok shared k <;> intro h <;> cases h
  all_goals first
    | trivial
    | exact hbefore.elim
    | (split at hbefore <;> exact hbefore.elim)

theorem advance_field (h : advance u ok shared k = some (shared', k')) :
    (shared'.connectivityWatch = shared.connectivityWatch ∨ shared'.connectivityWatch = none ∨
      shared'.connectivityWatch = some u ∧ ¬ k'.BeforeField) ∧
      ∀ job, k' = .detachCancel (some job) →
        k = .detachWatch ∧ shared.connectivityWatch = some job := by
  revert h
  fun_cases advance u ok shared k <;> intro h <;> cases h
  all_goals first
    | exact ⟨.inl rfl, fun _ h => by cases h⟩
    | exact ⟨.inl rfl, fun _ h => ⟨rfl, CallTask.detachCancel.inj h⟩⟩
    | exact ⟨.inr (.inl rfl), fun _ h => by cases h⟩
    | exact ⟨.inr (.inr ⟨rfl, not_false⟩), fun _ h => by cases h⟩
    | exact ⟨.inl rfl, fun _ h => by split at h <;> cases h⟩
    | exact ⟨.inl (by split <;> rfl), fun _ h => by cases h⟩

theorem named_advance (hk : s.tasks[u]? = some k)
    (hstep : advance u ok s.shared k = some (shared', k')) (hs : s.Named) :
    Named ⟨shared', s.tasks.set u k' ++ spawned s.tasks k⟩ := by
  obtain ⟨hfield, hcancel⟩ := advance_field hstep
  -- a watch that is held already
  have hkept {job : Nat} (h : s.Held job) :
      ∃ x, (s.tasks.set u k' ++ spawned s.tasks k)[job]? = some x ∧ ¬ x.BeforeField := by
    obtain ⟨x, hx, hstored⟩ := hs job h
    have hmoved : _ ∧ _ ∧ (s.tasks.set u k' ++ spawned s.tasks k)[job]? = some k' ∨ _ ∧
        (s.tasks.set u k' ++ spawned s.tasks k)[job]? = some x := TaskPool.getElem?_step hk hx
    rcases hmoved with ⟨-, rfl, hx'⟩ | ⟨-, hx'⟩
    · exact ⟨k', hx', fun hbefore => hstored (advance_beforeField hstep hbefore)⟩
    · exact ⟨x, hx', hstored⟩
  rintro job (hheld | hheld)
  · rcases hfield with hsame | hnone | ⟨hself, hstored⟩
    · exact hkept (.inl (hsame.symm.trans hheld))
    · exact absurd (hnone.symm.trans hheld) (by simp)
    · obtain rfl : u = job := Option.some.inj (hself.symm.trans hheld)
      exact ⟨k', TaskPool.getElem?_step_self hk, hstored⟩
  · rcases List.mem_append.mp hheld with hmem | hmem
    · rcases List.mem_or_eq_of_mem_set hmem with hmem | heq
      · exact hkept (.inr hmem)
      · exact hkept (.inl (hcancel job heq.symm).2)
    · cases mem_spawned hmem

/-! ## 2. What the detaches leave -/

/-- No detach is going to take from the live engine what the first attach, task `u`, has
set up for it. -/
structure Spared (s : Lifecycle) (u : Nat) (stage : AttachStage) : Prop where
  watch : s.tasks[u]? = some .attachLaunch ∨ s.shared.watches u = true
  unread : s.tasks[u]? = some .attachLaunch ∨ s.tasks[u]? = some .attachField ∨
    CallTask.detachWatch ∉ s.tasks
  uncancelled : CallTask.detachCancel (some u) ∉ s.tasks
  armed : stage ≠ .disarmed
  clean : stage = .rearmed → ∀ x ∈ s.tasks, ¬ x.Cleans

theorem advance_attached (h : advance u ok shared k = some (shared', k'))
    (hlive : 0 < shared'.attachedEngines) :
    k = .attachCount ∧ shared.attachedEngines = 0 ∧ k' = .attachLaunch ∨
      0 < shared.attachedEngines := by
  by_cases hcount : k = .attachCount
  · subst hcount
    cases h
    rcases Int.lt_or_eq_of_le (Int.lt_add_one_iff.mp hlive) with hpos | hzero
    · exact .inr hpos
    · exact .inl ⟨rfl, hzero.symm, if_pos hzero.symm⟩
  by_cases hdetach : k = .detach
  · subst hdetach
    cases h
    dsimp only at hlive
    exact .inr (by omega)
  · revert h
    fun_cases advance u ok shared k <;> intro h <;> cases h
    all_goals first
      | exact .inr hlive
      | exact absurd rfl hcount
      | exact absurd rfl hdetach
      | exact .inr (by split at hlive <;> exact hlive)

/-- Only a detach that takes the count to zero comes to clean up. -/
theorem advance_cleans (h : advance u ok shared k = some (shared', k'))
    (hlive : 0 < shared'.attachedEngines) (hcleans : k'.Cleans) :
    k.Cleans ∧ k' ≠ .detachWatch := by
  by_cases hdetach : k = .detach
  · subst hdetach
    cases h
    dsimp only at hlive
    rw [if_neg (by omega)] at hcleans
    exact hcleans.elim
  · revert h
    fun_cases advance u ok shared k <;> intro h <;> cases h
    all_goals first
      | exact hcleans.elim
      | exact ⟨trivial, by simp⟩
      | exact absurd rfl hdetach
      | (split at hcleans <;> exact hcleans.elim)

theorem advance_watches (h : advance u ok shared k = some (shared', k')) (job : Nat) :
    shared'.watches job = shared.watches job ∨ shared'.watches job = true ∨
      k = .detachCancel (some job) := by
  have hupdate (job' : Nat) (active : Bool) : job = job' ∨
      Function.update shared.watches job' active job = shared.watches job :=
    (eq_or_ne job job').imp_right fun hjob => Function.update_of_ne hjob ..
  revert h
  fun_cases advance u ok shared k <;> intro h <;> cases h
  all_goals first
    | exact .inl rfl
    | exact .inl (by split <;> rfl)
    | skip
  · rcases hupdate u true with rfl | hsame
    · exact .inr (.inl (Function.update_self ..))
    · exact .inl hsame
  · rename_i job'
    rcases hupdate job' false with rfl | hsame
    · exact .inr (.inr rfl)
    · exact .inl hsame

theorem observe_spared (hk : s.tasks[v]? = some k) (hattached : 0 < s.shared.attachedEngines)
    (hspares : Spares (s, some (u, stage)) (.advance v ok)) (hs : s.Spared u stage) :
    ∃ stage', observe s (.advance v ok) (some (u, stage)) = some (u, stage') ∧
      stage' ≠ .disarmed ∧ (stage' = .rearmed → ∀ x ∈ s.tasks, ¬ x.Cleans) := by
  have hcond := hspares v ok k rfl hk hattached
  simp only [observe, hk]
  cases k with
  | attachCount =>
    simp only [if_neg (Int.ne_of_gt hattached)]
    exact ⟨stage, rfl, hs.armed, hs.clean⟩
  | attachRecovery =>
    by_cases hraised : some (u, stage) = some (v, AttachStage.raised)
    · obtain ⟨rfl, -⟩ := Prod.mk.inj (Option.some.inj hraised)
      exact ⟨.scheduled, if_pos hraised, by simp, by simp⟩
    · exact ⟨stage, if_neg hraised, hs.armed, hs.clean⟩
  | timer caller delayMs =>
    cases caller with
    | recovery =>
      by_cases hscheduled : stage = .scheduled
      · subst hscheduled
        exact ⟨.rearmed, rfl, by simp, fun _ => hcond.2 delayMs u rfl rfl⟩
      · exact ⟨stage, by simp [hscheduled], hs.armed, hs.clean⟩
    | _ => exact ⟨stage, rfl, hs.armed, hs.clean⟩
  | detachTimer =>
    have hrearmed : stage ≠ .rearmed := fun heq =>
      hs.clean heq _ (List.mem_of_getElem? hk) trivial
    exact ⟨stage, by simp [hrearmed], hs.armed, hs.clean⟩
  | _ => exact ⟨stage, rfl, hs.armed, hs.clean⟩

theorem mem_advance {x : CallTask} (hx : x ∈ s.tasks.set v k' ++ spawned s.tasks k) :
    x ∈ s.tasks ∨ x = k' ∨ x = .recovery := by
  rcases List.mem_append.mp hx with hx | hx
  · exact (List.mem_or_eq_of_mem_set hx).imp_right .inl
  · exact .inr (.inr (mem_spawned hx))

/-- A step that leaves an engine attached, other than that of a first attach. -/
theorem spared_advance (hk : s.tasks[v]? = some k)
    (hstep : advance v ok s.shared k = some (shared', k')) (hlive : 0 < shared'.attachedEngines)
    (hattached : 0 < s.shared.attachedEngines) (hnamed : s.Named)
    (hspares : Spares (s, some (u, stage)) (.advance v ok)) (hs : s.Spared u stage) :
    ∃ stage', observe s (.advance v ok) (some (u, stage)) = some (u, stage') ∧
      Spared ⟨shared', s.tasks.set v k' ++ spawned s.tasks k⟩ u stage' := by
  obtain ⟨stage', hobserve, harmed, hclean⟩ := observe_spared hk hattached hspares hs
  have hcleans {x : CallTask} (hx : x ∈ s.tasks.set v k' ++ spawned s.tasks k) (h : x.Cleans) :
      x ∈ s.tasks ∨ k.Cleans ∧ x ≠ .detachWatch ∧ x = k' := by
    rcases mem_advance hx with hx | rfl | rfl
    · exact .inl hx
    · obtain ⟨hbefore, hne⟩ := advance_cleans hstep hlive h
      exact .inr ⟨hbefore, hne, rfl⟩
    · exact h.elim
  have hwatch (h : CallTask.detachWatch ∉ s.tasks) :
      CallTask.detachWatch ∉ s.tasks.set v k' ++ spawned s.tasks k := by
    intro hmem
    rcases hcleans hmem trivial with hmem | ⟨-, hne, -⟩
    · exact h hmem
    · exact hne rfl
  have hmoved {x : CallTask} (hx : s.tasks[u]? = some x) :
      u = v ∧ x = k ∧ (s.tasks.set v k' ++ spawned s.tasks k)[u]? = some k' ∨
        (s.tasks.set v k' ++ spawned s.tasks k)[u]? = some x :=
    (TaskPool.getElem?_step hk hx).imp_right (·.2)
  refine ⟨stage', hobserve, ?watch, ?unread, ?uncancelled, harmed, ?clean⟩
  case watch =>
    rcases hs.watch with hlaunch | hactive
    · rcases hmoved hlaunch with ⟨rfl, rfl, -⟩ | hlaunch'
      · cases hstep
        exact .inr (Function.update_self ..)
      · exact .inl hlaunch'
    · rcases advance_watches hstep u with hsame | hactive' | rfl
      · exact .inr (hsame.trans hactive)
      · exact .inr hactive'
      · exact absurd (List.mem_of_getElem? hk) hs.uncancelled
  case unread =>
    rcases hs.unread with hlaunch | hstore | hunread
    · rcases hmoved hlaunch with ⟨rfl, rfl, hself⟩ | hlaunch'
      · cases hstep
        exact .inr (.inl hself)
      · exact .inl hlaunch'
    · rcases hmoved hstore with ⟨rfl, rfl, -⟩ | hstore'
      · exact .inr (.inr (hwatch ((hspares _ _ _ rfl hk hattached).1 rfl)))
      · exact .inr (.inl hstore')
    · exact .inr (.inr (hwatch hunread))
  case uncancelled =>
    intro hmem
    rcases mem_advance hmem with hmem | heq | heq
    · exact hs.uncancelled hmem
    · obtain ⟨rfl, hfield⟩ := (advance_field hstep).2 u heq.symm
      obtain ⟨x, hx, hstored⟩ := hnamed u (.inl hfield)
      rcases hs.unread with hlaunch | hstore | hunread
      · obtain rfl := Option.some.inj (hx.symm.trans hlaunch)
        exact hstored trivial
      · obtain rfl := Option.some.inj (hx.symm.trans hstore)
        exact hstored trivial
      · exact hunread (List.mem_of_getElem? hk)
    · cases heq
  case clean =>
    intro hrearmed x hx h
    rcases hcleans hx h with hx | ⟨hbefore, -⟩
    · exact hclean hrearmed x hx h
    · exact hclean hrearmed k (List.mem_of_getElem? hk) hbefore

/-- What holds in every state of a run that spares the live engine. -/
structure Reloads (p : Lifecycle × FirstAttach) : Prop where
  named : p.1.Named
  spared : 0 < p.1.shared.attachedEngines → ∃ u stage, p.2 = some (u, stage) ∧ p.1.Spared u stage

/-- The first attach has just counted its engine. -/
theorem spared_raise (hk : s.tasks[v]? = some .attachCount) (hnamed : s.Named) :
    Spared ⟨shared', s.tasks.set v .attachLaunch ++ spawned s.tasks .attachCount⟩ v .raised := by
  have hself : (s.tasks.set v .attachLaunch ++ spawned s.tasks .attachCount)[v]? =
      some .attachLaunch := TaskPool.getElem?_step_self hk
  refine ⟨.inl hself, .inl hself, fun hmem => ?_, by simp, by simp⟩
  rcases mem_advance hmem with hmem | heq | heq
  · obtain ⟨x, hx, hstored⟩ := hnamed v (.inr hmem)
    obtain rfl := Option.some.inj (hx.symm.trans hk)
    exact hstored trivial
  · cases heq
  · cases heq

theorem reloads_advance (hk : s.tasks[v]? = some k)
    (hstep : advance v ok s.shared k = some (shared', k'))
    (hspares : Spares (s, first) (.advance v ok)) (hs : Reloads (s, first)) :
    Reloads (⟨shared', s.tasks.set v k' ++ spawned s.tasks k⟩,
      observe s (.advance v ok) first) where
  named := named_advance hk hstep hs.named
  spared hlive := by
    rcases advance_attached hstep hlive with ⟨rfl, hzero, rfl⟩ | hattached
    · refine ⟨v, .raised, ?_, spared_raise hk hs.named⟩
      simp [observe, hk, hzero]
    · obtain ⟨u, stage, rfl, hspared⟩ := hs.spared hattached
      obtain ⟨stage', hobserve, hspared'⟩ :=
        spared_advance hk hstep hlive hattached hs.named hspares hspared
      exact ⟨u, stage', hobserve, hspared'⟩

theorem Reloads.of_tasks (hs : Reloads (s, first)) (htasks : s'.tasks = s.tasks)
    (hattached : s'.shared.attachedEngines = s.shared.attachedEngines)
    (hfield : s'.shared.connectivityWatch = s.shared.connectivityWatch)
    (hwatches : s'.shared.watches = s.shared.watches) : Reloads (s', first) where
  named := by
    intro job hheld
    rw [htasks]
    exact hs.named job (by rwa [Held, hfield, htasks] at hheld)
  spared hlive := by
    obtain ⟨u, stage, hfirst, hspared⟩ := hs.spared (hattached ▸ hlive)
    obtain ⟨hwatch, hunread, huncancelled, harmed, hclean⟩ := hspared
    refine ⟨u, stage, hfirst, ?_, ?_, ?_, harmed, ?_⟩
    · rwa [htasks, hwatches]
    · rwa [htasks]
    · rwa [htasks]
    · rwa [htasks]

theorem not_cleans_entry (entry : EntryPoint) : ¬ entry.task.Cleans := by
  cases entry <;> exact not_false

theorem reloads_call (hs : Reloads (s, first)) (entry : EntryPoint) :
    Reloads ({ s with tasks := s.tasks ++ [entry.task] }, first) := by
  have hmem {x : CallTask} (hx : x ∈ s.tasks ++ [entry.task]) (h : x.Cleans) : x ∈ s.tasks := by
    rcases List.mem_append.mp hx with hx | hx
    · exact hx
    · obtain rfl := List.mem_singleton.mp hx
      exact absurd h (not_cleans_entry entry)
  have hkept {job : Nat} {x : CallTask} (hx : s.tasks[job]? = some x) :
      (s.tasks ++ [entry.task])[job]? = some x := by
    rw [List.getElem?_append_left (List.getElem?_eq_some_iff.mp hx).1, hx]
  constructor
  · rintro job hheld
    obtain ⟨x, hx, hstored⟩ := hs.named job (hheld.imp_right fun h => hmem h trivial)
    exact ⟨x, hkept hx, hstored⟩
  · intro hlive
    obtain ⟨u, stage, hfirst, hspared⟩ := hs.spared hlive
    obtain ⟨hwatch, hunread, huncancelled, harmed, hclean⟩ := hspared
    refine ⟨u, stage, hfirst, hwatch.imp_left hkept, ?_, fun h => huncancelled (hmem h trivial),
      harmed, fun hrearmed x hx h => hclean hrearmed x (hmem hx h) h⟩
    exact hunread.imp hkept (.imp hkept fun hnot h => hnot (hmem h trivial))

theorem spared_step {p q : Lifecycle × FirstAttach}
    (h : StepSystem.ghost step observe p l = some q) (hspares : Spares p l) (hp : Reloads p) :
    Reloads q := by
  obtain ⟨s, first⟩ := p
  obtain ⟨s', first'⟩ := q
  obtain ⟨hstep, hobserve⟩ := StepSystem.ghost_eq_some.mp h
  change first' = observe s l first at hobserve
  subst hobserve
  cases step_cases hstep with
  | call entry => exact reloads_call hp entry
  | advance hk hadvance => exact reloads_advance hk hadvance hspares hp
  | outside hcall hadvance houtside =>
    have hsame : observe s l first = first := by
      cases l with
      | advance u ok => exact absurd rfl (hadvance u ok)
      | _ => rfl
    rw [hsame]
    exact hp.of_tasks houtside.tasks houtside.attachedEngines houtside.connectivityWatch
      houtside.watches

/-! ## 3. The live engine -/

/-- A process no engine has been attached to. -/
structure Launch (s : Lifecycle) : Prop where
  attachedEngines : s.shared.attachedEngines = 0
  connectivityWatch : s.shared.connectivityWatch = none
  tasks : s.tasks = []

theorem reloads_of_launch (hlaunch : s.Launch) : Reloads (s, none) where
  named := by
    rintro job (hheld | hheld)
    · rw [hlaunch.connectivityWatch] at hheld
      cases hheld
    · rw [hlaunch.tasks] at hheld
      cases hheld
  spared hlive := absurd hlaunch.attachedEngines (Int.ne_of_gt hlive)

/-- In any run of the process up to a state in which no call is in progress and an engine
is attached, the latest first attach has its watch, and no detach has cancelled what was
re-armed for it. -/
theorem engine_spared_of_meets (hlaunch : s.Launch)
    (hC : StepSystem.Meets (StepSystem.ghost step observe) Spares (s, none) ls)
    (hrun : StepSystem.exec step s ls = some s') (hdone : ∀ k ∈ s'.tasks, k.isDone = true)
    (hlive : 0 < s'.shared.attachedEngines) :
    ∃ u stage, StepSystem.exec (StepSystem.ghost step observe) (s, none) ls =
        some (s', some (u, stage)) ∧
      s'.shared.watches u = true ∧ stage ≠ .disarmed := by
  obtain ⟨first, hghost⟩ := StepSystem.exec_ghost_of_exec observe none hrun
  have hreloads : Reloads (s', first) :=
    StepSystem.exec_invariant_of_meets (fun hI hC h => spared_step h hC hI)
      (reloads_of_launch hlaunch) hC hghost
  obtain ⟨u, stage, rfl, hspared⟩ := hreloads.spared hlive
  refine ⟨u, stage, hghost, hspared.watch.resolve_left fun hlaunch => ?_, hspared.armed⟩
  exact Bool.false_ne_true (hdone _ (List.mem_of_getElem? hlaunch))

section Sample

/-- What `Spares` asks for, computed. -/
def spares (p : Lifecycle × FirstAttach) : Label → Bool
  | .advance u _ =>
    match p.1.tasks[u]? with
    | some .attachField => p.1.tasks.all fun
      | .detachWatch => false
      | _ => true
    | some (.timer .recovery _) => p.1.tasks.all fun
      | .detachWatch | .detachCancel _ | .detachField | .detachTimer => false
      | _ => true
    | _ => true
  | _ => true

theorem spares_of_eq_true {p : Lifecycle × FirstAttach} (h : spares p l = true) : Spares p l := by
  rintro u ok k rfl hk -
  simp only [spares, hk] at h
  refine ⟨?_, ?_⟩
  · rintro rfl hmem
    exact Bool.false_ne_true (List.all_eq_true.mp h _ hmem)
  · rintro delayMs v rfl - x hx hcleans
    have hnot := List.all_eq_true.mp h x hx
    cases x with
    | detachWatch | detachCancel | detachField | detachTimer => cases hnot
    | _ => exact hcleans

/-- The process has started, and the row waits. -/
def launched : Lifecycle :=
  { sampleLifecycle [] with shared := { (sampleLifecycle []).shared with attachedEngines := 0 } }

theorem launch_launched : launched.Launch := ⟨rfl, rfl, rfl⟩

/-- An engine is attached, and its recovery arms the timer. Then a reload begins: the
detach is task 2, the attach task 3, and its recovery task 4. -/
def reloading : List Label :=
  .call .attachEngine :: steps 0 6 ++ steps 1 19 ++ [.call .detachEngine, .call .attachEngine]

/-- The detach has read the field before the attach stores its watch there, and cancels the
timer before the recovery arms it. -/
def sparingRun : List Label :=
  reloading ++ steps 2 2 ++ steps 3 4 ++ steps 2 1 ++ steps 3 1 ++ steps 2 2 ++ steps 3 1 ++
    steps 4 19

theorem spares_sparingRun :
    StepSystem.Meets (StepSystem.ghost step observe) Spares (launched, none) sparingRun :=
  StepSystem.Meets.mono (C := fun p l => spares p l = true) (fun _ _ => spares_of_eq_true)
    (by decide)

/-! ## 4. A detach that cleans up late -/

/-- The detach has taken the count to zero. It cleans up once the attach and its recovery
have finished. -/
def disarmingRun : List Label :=
  reloading ++ steps 2 1 ++ steps 3 6 ++ steps 4 19 ++ steps 2 4

/-- Whether all calls have finished, the count, the latest first attach, whether its watch
is active, and when the timer is due. -/
def reloaded (p : Lifecycle × FirstAttach) : Bool × Int × FirstAttach × Bool × Option Int :=
  (p.1.finished, p.1.shared.attachedEngines, p.2,
    (p.2.map fun first => p.1.shared.watches first.1).getD false,
    p.1.shared.retryTimer.waiting)

end Sample

end Lifecycle

end SyncProvider.Android
