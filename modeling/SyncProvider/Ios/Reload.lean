import SyncProvider.Ios.Lifecycle

/-!
# iOS: an attach behind the last detach

A detach that takes the count to zero disarms the timer under the lock, but in a second
critical section. An attach that raises the count in between re-arms the timer.

Results:
1. `spared_step` : who is still to disarm, as long as a hybrid is attached.
2. `hybrid_spared_of_meets` : when the live engine keeps its timer.
-/

namespace SyncProvider.Ios

/-- What has become of the latest attach that found no hybrid attached. -/
inductive AttachStage where
  | raised
  /-- The task it has started has re-armed the timer. -/
  | rearmed
  /-- A detach has disarmed the timer since. -/
  | disarmed
  deriving DecidableEq

/-- The latest attach that found no hybrid attached, by its task. -/
abbrev FirstAttach := Option (Nat × AttachStage)

namespace Lifecycle

/-- What a step means for the latest first attach. -/
def observe (s : Lifecycle) (l : Label) (first : FirstAttach) : FirstAttach :=
  match l with
  | .advance u _ =>
    match s.tasks[u]? with
    | some .attach => if s.shared.attachedHybrids = 0 then some (u, .raised) else first
    | some (.decided (.attach v) ticket _ (some _)) =>
      if ticket = s.shared.rearmTicket ∧ first = some (v, .raised) then some (v, .rearmed)
      else first
    | some .detachDisarm =>
      first.map fun (v, stage) => (v, if stage = .rearmed then .disarmed else stage)
    | _ => first
  | _ => first

/-- No detach is still to disarm the timer when it is re-armed on behalf of the latest first
attach. -/
def Spares (p : Lifecycle × FirstAttach) (l : Label) : Prop :=
  ∀ u ok v holdUntil wakeAt, l = .advance u ok →
    p.1.tasks[u]? = some (.decided (.attach v) p.1.shared.rearmTicket holdUntil (some wakeAt)) →
    0 < p.1.shared.attachedHybrids → p.2 = some (v, .raised) → CallTask.detachDisarm ∉ p.1.tasks

variable {s s' : Lifecycle} {l : Label} {ls : List Label} {v : Nat} {ok : Bool} {k k' : CallTask}
  {shared shared' : Shared} {first : FirstAttach}

/-! ## 1. What the detaches leave -/

/-- There is a latest first attach, and no detach is going to disarm what was re-armed
for it. -/
structure Spared (p : Lifecycle × FirstAttach) (u : Nat) (stage : AttachStage) : Prop where
  first : p.2 = some (u, stage)
  armed : stage ≠ .disarmed
  clean : stage = .rearmed → CallTask.detachDisarm ∉ p.1.tasks

/-- What holds in every state of a run that spares the live engine. -/
def Reloads (p : Lifecycle × FirstAttach) : Prop :=
  0 < p.1.shared.attachedHybrids → ∃ u stage, Spared p u stage

theorem advance_attached (h : advance ok shared k = some (shared', k'))
    (hlive : 0 < shared'.attachedHybrids) :
    k = .attach ∧ shared.attachedHybrids = 0 ∨ 0 < shared.attachedHybrids := by
  by_cases hattach : k = .attach
  · exact (Nat.eq_zero_or_pos _).imp_left fun hzero => ⟨hattach, hzero⟩
  · revert h
    fun_cases advance ok shared k <;> intro h <;> cases h
    all_goals first
      | exact .inr hlive
      | exact absurd rfl hattach
      | exact .inr (Nat.lt_of_lt_of_le hlive (Nat.sub_le _ _))

/-- Only a detach that takes the count to zero comes to disarm. -/
theorem not_mem_advance (h : advance ok s.shared k = some (shared', k'))
    (hlive : 0 < shared'.attachedHybrids) (hnot : CallTask.detachDisarm ∉ s.tasks) :
    CallTask.detachDisarm ∉ s.tasks.set v k' ++ spawned v k := by
  have hself : k' ≠ .detachDisarm := by
    rintro rfl
    by_cases hdetach : k = .detach
    · subst hdetach
      simp only [advance, Option.some.injEq, Prod.mk.injEq] at h
      obtain ⟨rfl, hk'⟩ := h
      rw [if_neg (Nat.ne_of_gt hlive)] at hk'
      cases hk'
    · revert h
      fun_cases advance ok s.shared k <;> intro h
      all_goals first
        | exact absurd rfl hdetach
        | cases h
  intro hmem
  rcases mem_advance hmem with hmem | heq | heq
  · exact hnot hmem
  · exact hself heq.symm
  · cases heq

theorem observe_spared {u : Nat} {stage : AttachStage} (hk : s.tasks[v]? = some k)
    (hattached : 0 < s.shared.attachedHybrids) (hspares : Spares (s, first) (.advance v ok))
    (hs : Spared (s, first) u stage) :
    ∃ stage', observe s (.advance v ok) first = some (u, stage') ∧ stage' ≠ .disarmed ∧
      (stage' = .rearmed → CallTask.detachDisarm ∉ s.tasks) := by
  obtain ⟨rfl, harmed, hclean⟩ := hs
  simp only [observe, hk]
  cases k with
  | attach =>
    simp only [if_neg (Nat.ne_of_gt hattached)]
    exact ⟨stage, rfl, harmed, hclean⟩
  | decided caller ticket holdUntil wakeAt =>
    cases caller with
    | attach w =>
      cases wakeAt with
      | none => exact ⟨stage, rfl, harmed, hclean⟩
      | some wakeAt =>
        by_cases hrearms : ticket = s.shared.rearmTicket ∧ some (u, stage) = some (w, .raised)
        · obtain ⟨rfl, hraised⟩ := hrearms
          obtain ⟨rfl, rfl⟩ := Prod.mk.inj (Option.some.inj hraised)
          exact ⟨.rearmed, if_pos ⟨rfl, rfl⟩, by simp,
            fun _ => hspares _ _ _ _ _ rfl hk hattached rfl⟩
        · exact ⟨stage, if_neg hrearms, harmed, hclean⟩
    | _ => exact ⟨stage, rfl, harmed, hclean⟩
  | detachDisarm =>
    have hrearmed : stage ≠ .rearmed := fun heq => hclean heq (List.mem_of_getElem? hk)
    exact ⟨stage, by simp [hrearmed], harmed, hclean⟩
  | _ => exact ⟨stage, rfl, harmed, hclean⟩

theorem reloads_advance (hk : s.tasks[v]? = some k)
    (hstep : advance ok s.shared k = some (shared', k'))
    (hspares : Spares (s, first) (.advance v ok)) (hs : Reloads (s, first)) :
    Reloads (⟨shared', s.tasks.set v k' ++ spawned v k⟩, observe s (.advance v ok) first) := by
  intro hlive
  rcases advance_attached hstep hlive with ⟨rfl, hzero⟩ | hattached
  · exact ⟨v, .raised, by simp [observe, hk, hzero], by simp, by simp⟩
  · obtain ⟨u, stage, hspared⟩ := hs hattached
    obtain ⟨stage', hobserve, harmed, hclean⟩ := observe_spared hk hattached hspares hspared
    exact ⟨u, stage', hobserve, harmed,
      fun hrearmed => not_mem_advance hstep hlive (hclean hrearmed)⟩

theorem spared_step {p q : Lifecycle × FirstAttach}
    (h : StepSystem.ghost step observe p l = some q) (hspares : Spares p l) (hp : Reloads p) :
    Reloads q := by
  obtain ⟨s, first⟩ := p
  obtain ⟨s', first'⟩ := q
  obtain ⟨hstep, hobserve⟩ := StepSystem.ghost_eq_some.mp h
  change first' = observe s l first at hobserve
  subst hobserve
  cases step_cases hstep with
  | call entry =>
    intro hlive
    obtain ⟨u, stage, hfirst, harmed, hclean⟩ := hp hlive
    refine ⟨u, stage, hfirst, harmed, fun hrearmed hmem => ?_⟩
    rcases List.mem_append.mp hmem with hmem | hmem
    · exact hclean hrearmed hmem
    · have heq := List.mem_singleton.mp hmem
      cases entry <;> cases heq
  | advance hk hadvance => exact reloads_advance hk hadvance hspares hp
  | outside hcall hadvance houtside =>
    have hsame : observe s l first = first := by
      cases l with
      | advance u ok => exact absurd rfl (hadvance u ok)
      | _ => rfl
    rw [hsame]
    intro hlive
    obtain ⟨u, stage, hfirst, harmed, hclean⟩ := hp (houtside.attachedHybrids ▸ hlive)
    exact ⟨u, stage, hfirst, harmed, fun hrearmed => houtside.tasks ▸ hclean hrearmed⟩

/-! ## 2. The live engine -/

/-- In any run of the engine, from no hybrid to one that is attached, no detach has disarmed
what was re-armed for the latest first attach. -/
theorem hybrid_spared_of_meets (hlaunch : s.shared.attachedHybrids = 0)
    (hC : StepSystem.Meets (StepSystem.ghost step observe) Spares (s, none) ls)
    (hrun : StepSystem.exec step s ls = some s') (hlive : 0 < s'.shared.attachedHybrids) :
    ∃ u stage, StepSystem.exec (StepSystem.ghost step observe) (s, none) ls =
        some (s', some (u, stage)) ∧ stage ≠ .disarmed := by
  obtain ⟨first, hghost⟩ := StepSystem.exec_ghost_of_exec observe none hrun
  have hreloads : Reloads (s', first) :=
    StepSystem.exec_invariant_of_meets (fun hI hC h => spared_step h hC hI)
      (fun hpos => absurd hlaunch (Nat.ne_of_gt hpos)) hC hghost
  obtain ⟨u, stage, hfirst, harmed, -⟩ := hreloads hlive
  change first = some (u, stage) at hfirst
  exact ⟨u, stage, hfirst ▸ hghost, harmed⟩

section Sample

/-- What `Spares` asks for, computed. -/
def spares (p : Lifecycle × FirstAttach) : Label → Bool
  | .advance u _ =>
    match p.1.tasks[u]? with
    | some (.decided (.attach _) _ _ (some _)) => p.1.tasks.all fun
      | .detachDisarm => false
      | _ => true
    | _ => true
  | _ => true

theorem spares_of_eq_true {p : Lifecycle × FirstAttach} (h : spares p l = true) : Spares p l := by
  rintro u ok v holdUntil wakeAt rfl hk - - hmem
  simp only [spares, hk] at h
  exact Bool.false_ne_true (List.all_eq_true.mp h _ hmem)

/-- A hybrid is attached, and its task arms the timer. Then a reload begins: the detach is
task 2, the attach task 3, and its re-arm task 4. -/
def reloading : List Label :=
  .call .attachHybrid :: steps 0 4 ++ steps 1 5 ++ [.call .detachHybrid, .call .attachHybrid]

/-- The detach disarms the timer before the attach re-arms it. -/
def sparingRun : List Label :=
  reloading ++ steps 2 1 ++ steps 3 4 ++ steps 4 1 ++ steps 2 1 ++ steps 4 4

theorem spares_sparingRun :
    StepSystem.Meets (StepSystem.ghost step observe) Spares (launched, none) sparingRun :=
  StepSystem.Meets.mono (C := fun p l => spares p l = true) (fun _ _ => spares_of_eq_true)
    (by decide)

/-! ## 3. A detach that disarms late -/

/-- The detach has taken the count to zero. It disarms once the attach has re-armed. -/
def disarmingRun : List Label :=
  reloading ++ steps 2 1 ++ steps 3 4 ++ steps 4 5 ++ steps 2 1

/-- Whether all calls have finished, the count, the latest first attach, and when the timer
is due. -/
def reloaded (p : Lifecycle × FirstAttach) : Bool × Nat × FirstAttach × Option Int :=
  (p.1.finished, p.1.shared.attachedHybrids, p.2, p.1.shared.retryTimer)

end Sample

end Lifecycle

end SyncProvider.Ios
