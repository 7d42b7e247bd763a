import Mathlib.Data.List.Basic

/-!
# Runs of a labelled step function

A system is a partial step function `step : σ → ℓ → Option σ`: the label says
what happens, `none` says that it cannot happen in this state. Every
interleaving of the parties of a system is a list of labels, so a property of
all interleavings is a property of all label lists.

Contents:
1. `exec` and how runs compose.
2. `exec_invariant`: what every step keeps, every run keeps.
3. `Meets`: runs whose steps all satisfy a condition on the state before the
   step, and `exec_invariant_of_meets`.
4. `Visits`: runs that pass through a state with a property, and the rule
   `invariant_or_visits`.
5. `exec_erase`: a run and the same run without some of its labels.
6. `recorded`: a system with a history variable, and `meets_iff_recorded`. `ghost` is the same
   for a variable of any type.
7. `Always`: runs all of whose states have a property, and `always_iff_meets`.
   `last_iff_meets` is about the last state alone.
8. `Recovered`: runs in which a step that does not meet a condition is made good later, and
   `last_iff_recovered`.
-/

namespace StepSystem

variable {σ τ ℓ : Type*}

/-! ## 1. Runs -/

/-- Run the labels in order. `none` when one of them is not enabled. -/
def exec (step : σ → ℓ → Option σ) : σ → List ℓ → Option σ
  | s, [] => some s
  | s, l :: ls => (step s l).bind fun s' => exec step s' ls

@[simp] theorem exec_nil (step : σ → ℓ → Option σ) (s : σ) : exec step s [] = some s := rfl

theorem exec_cons (step : σ → ℓ → Option σ) (s : σ) (l : ℓ) (ls : List ℓ) :
    exec step s (l :: ls) = (step s l).bind fun s' => exec step s' ls := rfl

theorem exec_cons_eq_some {step : σ → ℓ → Option σ} {s s' : σ} {l : ℓ} {ls : List ℓ} :
    exec step s (l :: ls) = some s' ↔ ∃ m, step s l = some m ∧ exec step m ls = some s' := by
  rw [exec_cons, Option.bind_eq_some_iff]

theorem exec_append (step : σ → ℓ → Option σ) (s : σ) (ls ls' : List ℓ) :
    exec step s (ls ++ ls') = (exec step s ls).bind fun m => exec step m ls' := by
  induction ls generalizing s with
  | nil => rfl
  | cons l ls ih =>
    rw [List.cons_append, exec_cons, exec_cons, Option.bind_assoc]
    exact Option.bind_congr fun m _ => ih m

theorem exec_append_eq_some {step : σ → ℓ → Option σ} {s s' : σ} {ls ls' : List ℓ} :
    exec step s (ls ++ ls') = some s' ↔
      ∃ m, exec step s ls = some m ∧ exec step m ls' = some s' := by
  rw [exec_append, Option.bind_eq_some_iff]

/-- The states a system reaches from its initial states. -/
def Reachable (init : σ → Prop) (step : σ → ℓ → Option σ) (s : σ) : Prop :=
  ∃ s₀ ls, init s₀ ∧ exec step s₀ ls = some s

theorem Reachable.step {init : σ → Prop} {step : σ → ℓ → Option σ} {s s' : σ} {l : ℓ}
    (h : Reachable init step s) (hs : step s l = some s') : Reachable init step s' := by
  obtain ⟨s₀, ls, h0, he⟩ := h
  refine ⟨s₀, ls ++ [l], h0, exec_append_eq_some.mpr ⟨s, he, ?_⟩⟩
  exact exec_cons_eq_some.mpr ⟨s', hs, rfl⟩

/-! ## 2. Invariants -/

/-- What every step keeps, every run keeps. -/
theorem exec_invariant {step : σ → ℓ → Option σ} {I : σ → Prop}
    (hstep : ∀ {s l s'}, I s → step s l = some s' → I s') {s s' : σ} {ls : List ℓ}
    (h0 : I s) (h : exec step s ls = some s') : I s' := by
  induction ls generalizing s with
  | nil =>
    cases h
    exact h0
  | cons l ls ih =>
    obtain ⟨m, hm, hrest⟩ := exec_cons_eq_some.mp h
    exact ih (hstep h0 hm) hrest

theorem Reachable.invariant {init : σ → Prop} {step : σ → ℓ → Option σ} {I : σ → Prop}
    (hinit : ∀ {s}, init s → I s) (hstep : ∀ {s l s'}, I s → step s l = some s' → I s')
    {s : σ} (h : Reachable init step s) : I s := by
  obtain ⟨s₀, ls, h0, he⟩ := h
  exact exec_invariant hstep (hinit h0) he

/-! ## 3. Runs whose steps meet a condition -/

/-- Every step of the run `ls` from `s` satisfies `C`, a condition on the state
before the step and on the label. -/
def Meets (step : σ → ℓ → Option σ) (C : σ → ℓ → Prop) : σ → List ℓ → Prop
  | _, [] => True
  | s, l :: ls => C s l ∧ ∀ s', step s l = some s' → Meets step C s' ls

theorem Meets.cons {step : σ → ℓ → Option σ} {C : σ → ℓ → Prop} {s m : σ} {l : ℓ} {ls : List ℓ}
    (hs : step s l = some m) (hl : C s l) (h : Meets step C m ls) : Meets step C s (l :: ls) := by
  refine ⟨hl, fun s' hs' => ?_⟩
  obtain rfl : m = s' := Option.some.inj (hs.symm.trans hs')
  exact h

theorem meets_cons_of_step {step : σ → ℓ → Option σ} {C : σ → ℓ → Prop} {s m : σ} {l : ℓ}
    {ls : List ℓ} (hs : step s l = some m) :
    Meets step C s (l :: ls) ↔ C s l ∧ Meets step C m ls := by
  refine ⟨fun h => ⟨h.1, h.2 m hs⟩, fun h => .cons hs h.1 h.2⟩

instance decidableMeets (step : σ → ℓ → Option σ) (C : σ → ℓ → Prop)
    [∀ s l, Decidable (C s l)] : ∀ s ls, Decidable (Meets step C s ls)
  | _, [] => .isTrue trivial
  | s, l :: ls =>
    match hs : step s l with
    | none => decidable_of_iff (C s l) ⟨fun h => ⟨h, by simp [hs]⟩, fun h => h.1⟩
    | some m =>
      have := decidableMeets step C m ls
      decidable_of_iff (C s l ∧ Meets step C m ls) (meets_cons_of_step hs).symm

/-- A condition on the labels alone. -/
theorem meets_of_forall {step : σ → ℓ → Option σ} {D : ℓ → Prop} {s : σ} {ls : List ℓ}
    (hD : ∀ l ∈ ls, D l) : Meets step (fun _ l => D l) s ls := by
  induction ls generalizing s with
  | nil => trivial
  | cons l ls ih =>
    obtain ⟨hl, hls⟩ := List.forall_mem_cons.mp hD
    exact ⟨hl, fun s' _ => ih hls⟩

theorem forall_of_meets {step : σ → ℓ → Option σ} {D : ℓ → Prop} {s s' : σ} {ls : List ℓ}
    (h : Meets step (fun _ l => D l) s ls) (hrun : exec step s ls = some s') : ∀ l ∈ ls, D l := by
  induction ls generalizing s with
  | nil => exact fun l hl => absurd hl List.not_mem_nil
  | cons l ls ih =>
    obtain ⟨m, hm, hrest⟩ := exec_cons_eq_some.mp hrun
    exact List.forall_mem_cons.mpr ⟨h.1, ih (h.2 m hm) hrest⟩

theorem Meets.mono {step : σ → ℓ → Option σ} {C D : σ → ℓ → Prop} {s : σ} {ls : List ℓ}
    (hCD : ∀ s l, C s l → D s l) (h : Meets step C s ls) : Meets step D s ls := by
  induction ls generalizing s with
  | nil => trivial
  | cons l ls ih => exact ⟨hCD s l h.1, fun s' hs' => ih (h.2 s' hs')⟩

theorem Meets.and {step : σ → ℓ → Option σ} {C D : σ → ℓ → Prop} {s : σ} {ls : List ℓ}
    (hC : Meets step C s ls) (hD : Meets step D s ls) :
    Meets step (fun s l => C s l ∧ D s l) s ls := by
  induction ls generalizing s with
  | nil => trivial
  | cons l ls ih => exact ⟨⟨hC.1, hD.1⟩, fun s' hs' => ih (hC.2 s' hs') (hD.2 s' hs')⟩

/-- In states that satisfy an invariant every step is a `C` step. -/
theorem meets_of_invariant {step : σ → ℓ → Option σ} {C : σ → ℓ → Prop} {I : σ → Prop}
    (hstep : ∀ {s l s'}, I s → step s l = some s' → I s') (hC : ∀ {s}, I s → ∀ l, C s l) {s : σ}
    {ls : List ℓ} (h0 : I s) : Meets step C s ls := by
  induction ls generalizing s with
  | nil => trivial
  | cons l ls ih => exact ⟨hC h0 l, fun s' hs' => ih (hstep h0 hs')⟩

/-- Every step of the run, with the run that comes before it. -/
theorem meets_iff_forall_prefix {step : σ → ℓ → Option σ} {C : σ → ℓ → Prop} {s : σ}
    {ls : List ℓ} : Meets step C s ls ↔
      ∀ pre l post m, ls = pre ++ l :: post → exec step s pre = some m → C m l := by
  induction ls generalizing s with
  | nil =>
    refine ⟨fun _ pre l post m hls => ?_, fun _ => trivial⟩
    cases pre <;> cases hls
  | cons l ls ih =>
    constructor
    · rintro ⟨hl, hls⟩ pre l' post m heq hm
      cases pre with
      | nil =>
        cases heq
        cases hm
        exact hl
      | cons x pre =>
        cases heq
        obtain ⟨m', hm', hrest⟩ := exec_cons_eq_some.mp hm
        exact ih.mp (hls m' hm') pre l' post m rfl hrest
    · intro h
      refine ⟨h [] l ls s rfl rfl, fun s' hs' => ih.mpr fun pre l' post m heq hm => ?_⟩
      exact h (l :: pre) l' post m (by rw [heq]; rfl) (exec_cons_eq_some.mpr ⟨s', hs', hm⟩)

/-- What every step that satisfies `C` keeps, every run of such steps keeps. -/
theorem exec_invariant_of_meets {step : σ → ℓ → Option σ} {C : σ → ℓ → Prop} {I : σ → Prop}
    (hstep : ∀ {s l s'}, I s → C s l → step s l = some s' → I s') {s s' : σ} {ls : List ℓ}
    (h0 : I s) (hC : Meets step C s ls) (h : exec step s ls = some s') : I s' := by
  induction ls generalizing s with
  | nil =>
    cases h
    exact h0
  | cons l ls ih =>
    obtain ⟨m, hm, hrest⟩ := exec_cons_eq_some.mp h
    exact ih (hstep h0 hC.1 hm) (hC.2 m hm) hrest

/-- Two conditions that agree where `I` holds are met by the same runs. `D` is what
all steps of the run are known to satisfy. -/
theorem meets_congr {step : σ → ℓ → Option σ} {C C' D : σ → ℓ → Prop} {I : σ → Prop}
    (hstep : ∀ {s l s'}, I s → D s l → step s l = some s' → I s')
    (hC : ∀ {s l}, I s → (C s l ↔ C' s l)) {s : σ} {ls : List ℓ} (h0 : I s)
    (hD : Meets step D s ls) : Meets step C s ls ↔ Meets step C' s ls := by
  induction ls generalizing s with
  | nil => exact Iff.rfl
  | cons l ls ih =>
    refine and_congr (hC h0) (forall_congr' fun s' => ?_)
    have hrest (hs : step s l = some s') : Meets step C s' ls ↔ Meets step C' s' ls :=
      ih (hstep h0 hD.1 hs) (hD.2 s' hs)
    exact ⟨fun h hs => (hrest hs).mp (h hs), fun h hs => (hrest hs).mpr (h hs)⟩

/-- The same when only the steps that satisfy `C'` keep `I`. -/
theorem meets_congr_of_meets {step : σ → ℓ → Option σ} {C C' : σ → ℓ → Prop} {I : σ → Prop}
    (hstep : ∀ {s l s'}, I s → C' s l → step s l = some s' → I s')
    (hC : ∀ {s l}, I s → (C s l ↔ C' s l)) {s : σ} {ls : List ℓ} (h0 : I s) :
    Meets step C s ls ↔ Meets step C' s ls := by
  induction ls generalizing s with
  | nil => exact Iff.rfl
  | cons l ls ih =>
    constructor
    · intro h
      have hl : C' s l := (hC h0).mp h.1
      exact ⟨hl, fun s' hs => (ih (hstep h0 hl hs)).mp (h.2 s' hs)⟩
    · intro h
      exact ⟨(hC h0).mpr h.1, fun s' hs => (ih (hstep h0 h.1 hs)).mpr (h.2 s' hs)⟩

/-! ## 4. Runs that pass through a state -/

/-- Some state of the run `ls` from `s`, its first and its last included, has
the property `Q`. -/
def Visits (step : σ → ℓ → Option σ) (Q : σ → Prop) (s : σ) (ls : List ℓ) : Prop :=
  ∃ pre post m, ls = pre ++ post ∧ exec step s pre = some m ∧ Q m

theorem Visits.here {step : σ → ℓ → Option σ} {Q : σ → Prop} {s : σ} {ls : List ℓ} (h : Q s) :
    Visits step Q s ls :=
  ⟨[], ls, s, rfl, rfl, h⟩

theorem Visits.later {step : σ → ℓ → Option σ} {Q : σ → Prop} {s s' : σ} {l : ℓ} {ls : List ℓ}
    (hs : step s l = some s') (h : Visits step Q s' ls) : Visits step Q s (l :: ls) := by
  obtain ⟨pre, post, m, rfl, he, hm⟩ := h
  exact ⟨l :: pre, post, m, rfl, exec_cons_eq_some.mpr ⟨s', hs, he⟩, hm⟩

theorem visits_nil {step : σ → ℓ → Option σ} {Q : σ → Prop} {s : σ} :
    Visits step Q s [] ↔ Q s := by
  refine ⟨?_, .here⟩
  rintro ⟨pre, post, m, hls, he, hm⟩
  obtain ⟨rfl, -⟩ := List.append_eq_nil_iff.mp hls.symm
  cases he
  exact hm

theorem visits_cons {step : σ → ℓ → Option σ} {Q : σ → Prop} {s : σ} {l : ℓ} {ls : List ℓ} :
    Visits step Q s (l :: ls) ↔ Q s ∨ ∃ m, step s l = some m ∧ Visits step Q m ls := by
  constructor
  · rintro ⟨pre, post, m, hls, he, hm⟩
    cases pre with
    | nil =>
      cases he
      exact .inl hm
    | cons l' pre =>
      obtain ⟨rfl, rfl⟩ := List.cons.inj hls
      obtain ⟨m', hm', he⟩ := exec_cons_eq_some.mp he
      exact .inr ⟨m', hm', pre, post, m, rfl, he, hm⟩
  · rintro (h | ⟨m, hs, h⟩)
    · exact .here h
    · exact .later hs h

instance decidableVisits (step : σ → ℓ → Option σ) (Q : σ → Prop) [DecidablePred Q] :
    ∀ s ls, Decidable (Visits step Q s ls)
  | s, [] => decidable_of_iff (Q s) visits_nil.symm
  | s, l :: ls =>
    match hs : step s l with
    | none => decidable_of_iff (Q s) (by simp [visits_cons, hs])
    | some m =>
      have := decidableVisits step Q m ls
      decidable_of_iff (Q s ∨ Visits step Q m ls) (by simp [visits_cons, hs])

/-- A run of `C` steps keeps `I` until it passes through a `Q` state, when each
step that does not lead to a `Q` state keeps `I`. -/
theorem invariant_or_visits {step : σ → ℓ → Option σ} {C : σ → ℓ → Prop} {I Q : σ → Prop}
    (hstep : ∀ {s l s'}, I s → C s l → step s l = some s' → ¬ Q s' → I s')
    {s s' : σ} {ls : List ℓ} (h0 : I s) (hC : Meets step C s ls)
    (h : exec step s ls = some s') : I s' ∨ Visits step Q s ls := by
  induction ls generalizing s with
  | nil =>
    cases h
    exact .inl h0
  | cons l ls ih =>
    obtain ⟨m, hm, hrest⟩ := exec_cons_eq_some.mp h
    by_cases hQ : Q m
    · exact .inr (.later hm (.here hQ))
    · rcases ih (hstep h0 hC.1 hm hQ) (hC.2 m hm) hrest with hI | hV
      · exact .inl hI
      · exact .inr (.later hm hV)

/-! ## 5. Leaving labels out of a run -/

/-- The run without the labels that `keep` rejects, when a relation `R` ties the
two runs: a kept label is matched by the same label, a dropped one by nothing. -/
theorem exec_erase {step : σ → ℓ → Option σ} {step' : τ → ℓ → Option τ} {keep : ℓ → Bool}
    {C : σ → ℓ → Prop} {R : σ → τ → Prop}
    (hkeep : ∀ {s t l s'}, R s t → C s l → keep l = true → step s l = some s' →
      ∃ t', step' t l = some t' ∧ R s' t')
    (hdrop : ∀ {s t l s'}, R s t → C s l → keep l = false → step s l = some s' → R s' t)
    {s s' : σ} {t : τ} {ls : List ℓ} (h0 : R s t) (hC : Meets step C s ls)
    (h : exec step s ls = some s') :
    ∃ t', exec step' t (ls.filter keep) = some t' ∧ R s' t' := by
  induction ls generalizing s t with
  | nil =>
    cases h
    exact ⟨t, rfl, h0⟩
  | cons l ls ih =>
    obtain ⟨m, hm, hrest⟩ := exec_cons_eq_some.mp h
    cases hk : keep l with
    | false =>
      rw [List.filter_cons_of_neg (by simp [hk])]
      exact ih (hdrop h0 hC.1 hk hm) (hC.2 m hm) hrest
    | true =>
      rw [List.filter_cons_of_pos hk]
      obtain ⟨t₁, ht₁, hR⟩ := hkeep h0 hC.1 hk hm
      obtain ⟨t', ht', hR'⟩ := ih hR (hC.2 m hm) hrest
      exact ⟨t', exec_cons_eq_some.mpr ⟨t₁, ht₁, ht'⟩, hR'⟩

/-! ## 6. History variables -/

section History

variable {α : Type*}

/-- The system with a history variable: `obs` says what a step adds to it. -/
def recorded (step : σ → ℓ → Option σ) (obs : σ → ℓ → List α) (p : σ × List α) (l : ℓ) :
    Option (σ × List α) :=
  (step p.1 l).map fun s' => (s', p.2 ++ obs p.1 l)

theorem recorded_eq_some {step : σ → ℓ → Option σ} {obs : σ → ℓ → List α} {p q : σ × List α}
    {l : ℓ} : recorded step obs p l = some q ↔ step p.1 l = some q.1 ∧ q.2 = p.2 ++ obs p.1 l := by
  obtain ⟨s', h'⟩ := q
  unfold recorded
  rw [Option.map_eq_some_iff]
  constructor
  · rintro ⟨s'', hs, heq⟩
    cases heq
    exact ⟨hs, rfl⟩
  · rintro ⟨hs, rfl⟩
    exact ⟨s', hs, rfl⟩

/-- The history takes no part in the run. -/
theorem exec_recorded_of_exec {step : σ → ℓ → Option σ} (obs : σ → ℓ → List α) {s s' : σ}
    {ls : List ℓ} (log : List α) (h : exec step s ls = some s') :
    ∃ log', exec (recorded step obs) (s, log) ls = some (s', log') := by
  induction ls generalizing s log with
  | nil =>
    cases h
    exact ⟨log, rfl⟩
  | cons l ls ih =>
    obtain ⟨m, hm, hrest⟩ := exec_cons_eq_some.mp h
    obtain ⟨log', hlog⟩ := ih (log ++ obs s l) hrest
    exact ⟨log', exec_cons_eq_some.mpr ⟨_, recorded_eq_some.mpr ⟨hm, rfl⟩, hlog⟩⟩

/-- Nor in what the steps satisfy. -/
theorem Meets.recorded {step : σ → ℓ → Option σ} {C : σ → ℓ → Prop} (obs : σ → ℓ → List α) {s : σ}
    {ls : List ℓ} (h : Meets step C s ls) (log : List α) :
    Meets (recorded step obs) (fun p l => C p.1 l) (s, log) ls := by
  induction ls generalizing s log with
  | nil => trivial
  | cons l ls ih =>
    refine ⟨h.1, fun p hp => ?_⟩
    obtain ⟨m, log'⟩ := p
    exact ih (h.2 m (recorded_eq_some.mp hp).1) log'

theorem meets_recorded_iff {step : σ → ℓ → Option σ} {C : σ → ℓ → Prop} (obs : σ → ℓ → List α)
    {s : σ} (log : List α) {ls : List ℓ} :
    Meets (recorded step obs) (fun p l => C p.1 l) (s, log) ls ↔ Meets step C s ls := by
  refine ⟨fun h => ?_, fun h => h.recorded obs log⟩
  induction ls generalizing s log with
  | nil => trivial
  | cons l ls ih =>
    refine ⟨h.1, fun m hm => ?_⟩
    exact ih (log ++ obs s l) (h.2 (m, log ++ obs s l) (recorded_eq_some.mpr ⟨hm, rfl⟩))

theorem recorded_subset {step : σ → ℓ → Option σ} {obs : σ → ℓ → List α} {p q : σ × List α}
    {ls : List ℓ} (h : exec (recorded step obs) p ls = some q) : p.2 ⊆ q.2 := by
  refine exec_invariant (I := fun r => p.2 ⊆ r.2) ?_ (List.Subset.refl _) h
  intro r l r' hr hs
  rw [(recorded_eq_some.mp hs).2]
  exact List.Subset.trans hr (List.subset_append_left _ _)

/-- When the `C` steps are those that add only what satisfies `P`, the runs of
`C` steps are those whose history satisfies `P`. -/
theorem meets_iff_recorded {step : σ → ℓ → Option σ} {obs : σ → ℓ → List α}
    {C : σ → ℓ → Prop} {P : α → Prop} (hobs : ∀ s l, C s l ↔ ∀ a ∈ obs s l, P a) {s s' : σ}
    {ls : List ℓ} {log log' : List α} (hlog : ∀ a ∈ log, P a)
    (h : exec (recorded step obs) (s, log) ls = some (s', log')) :
    Meets step C s ls ↔ ∀ a ∈ log', P a := by
  induction ls generalizing s log with
  | nil =>
    cases h
    exact ⟨fun _ => hlog, fun _ => trivial⟩
  | cons l ls ih =>
    obtain ⟨⟨m, log₁⟩, hm, hrest⟩ := exec_cons_eq_some.mp h
    obtain ⟨hstep, hlog₁⟩ := recorded_eq_some.mp hm
    change log₁ = log ++ obs s l at hlog₁
    subst hlog₁
    have happend (hC : C s l) : ∀ a ∈ log ++ obs s l, P a :=
      List.forall_mem_append.mpr ⟨hlog, (hobs s l).mp hC⟩
    rw [meets_cons_of_step hstep]
    constructor
    · rintro ⟨hC, hmeets⟩
      exact (ih (happend hC) hrest).mp hmeets
    · intro hP
      have hC : C s l := (hobs s l).mpr fun a ha =>
        hP a (recorded_subset hrest (List.mem_append_right _ ha))
      exact ⟨hC, (ih (happend hC) hrest).mpr hP⟩

/-- The system with a variable that takes no part in it: `obs` says how a step changes it. -/
def ghost (step : σ → ℓ → Option σ) (obs : σ → ℓ → α → α) (p : σ × α) (l : ℓ) : Option (σ × α) :=
  (step p.1 l).map fun s' => (s', obs p.1 l p.2)

theorem ghost_eq_some {step : σ → ℓ → Option σ} {obs : σ → ℓ → α → α} {p q : σ × α} {l : ℓ} :
    ghost step obs p l = some q ↔ step p.1 l = some q.1 ∧ q.2 = obs p.1 l p.2 := by
  obtain ⟨s', a'⟩ := q
  unfold ghost
  rw [Option.map_eq_some_iff]
  constructor
  · rintro ⟨s'', hs, heq⟩
    cases heq
    exact ⟨hs, rfl⟩
  · rintro ⟨hs, rfl⟩
    exact ⟨s', hs, rfl⟩

theorem exec_ghost_of_exec {step : σ → ℓ → Option σ} (obs : σ → ℓ → α → α) {s s' : σ} {ls : List ℓ}
    (a : α) (h : exec step s ls = some s') :
    ∃ a', exec (ghost step obs) (s, a) ls = some (s', a') := by
  induction ls generalizing s a with
  | nil =>
    cases h
    exact ⟨a, rfl⟩
  | cons l ls ih =>
    obtain ⟨m, hm, hrest⟩ := exec_cons_eq_some.mp h
    obtain ⟨a', ha'⟩ := ih (obs s l a) hrest
    exact ⟨a', exec_cons_eq_some.mpr ⟨_, ghost_eq_some.mpr ⟨hm, rfl⟩, ha'⟩⟩

theorem meets_ghost_iff {step : σ → ℓ → Option σ} {C : σ → ℓ → Prop} (obs : σ → ℓ → α → α)
    {s : σ} (a : α) {ls : List ℓ} :
    Meets (ghost step obs) (fun p l => C p.1 l) (s, a) ls ↔ Meets step C s ls := by
  induction ls generalizing s a with
  | nil => exact Iff.rfl
  | cons l ls ih =>
    refine and_congr_right fun _ => ⟨fun h m hm => ?_, fun h p hp => ?_⟩
    · exact (ih (obs s l a)).mp (h (m, obs s l a) (ghost_eq_some.mpr ⟨hm, rfl⟩))
    · obtain ⟨hm, hobs⟩ := ghost_eq_some.mp hp
      exact (ih p.2).mpr (h p.1 hm)

end History

/-! ## 7. Runs all of whose states have a property -/

/-- Every state of the run `ls` from `s`, its first and its last included, has
the property `Q`. -/
def Always (step : σ → ℓ → Option σ) (Q : σ → Prop) : σ → List ℓ → Prop
  | s, [] => Q s
  | s, l :: ls => Q s ∧ ∀ s', step s l = some s' → Always step Q s' ls

theorem Always.here {step : σ → ℓ → Option σ} {Q : σ → Prop} {s : σ} {ls : List ℓ}
    (h : Always step Q s ls) : Q s := by
  cases ls with
  | nil => exact h
  | cons l ls => exact h.1

/-- When `I` survives the `C` steps and implies `Q`, a run of `C` steps goes through
`Q` states. -/
theorem Meets.always {step : σ → ℓ → Option σ} {C D : σ → ℓ → Prop} {I Q : σ → Prop}
    (hstep : ∀ {s l s'}, I s → D s l → C s l → step s l = some s' → I s')
    (hI : ∀ {s}, I s → Q s) {s : σ} {ls : List ℓ} (h0 : I s) (hD : Meets step D s ls)
    (h : Meets step C s ls) : Always step Q s ls := by
  induction ls generalizing s with
  | nil => exact hI h0
  | cons l ls ih =>
    refine ⟨hI h0, fun m hm => ?_⟩
    exact ih (hstep h0 hD.1 h.1 hm) (hD.2 m hm) (h.2 m hm)

/-- When `I` survives the `C` steps and implies `Q`, and a step into a `Q` state
is a `C` step, then the runs through `Q` states are the runs of `C` steps. `D` is
what all steps of the run are known to satisfy. -/
theorem always_iff_meets {step : σ → ℓ → Option σ} {C D : σ → ℓ → Prop} {I Q : σ → Prop}
    (hstep : ∀ {s l s'}, I s → D s l → C s l → step s l = some s' → I s')
    (hI : ∀ {s}, I s → Q s) (hQ : ∀ {s l s'}, I s → D s l → step s l = some s' → Q s' → C s l)
    {s s' : σ} {ls : List ℓ} (h0 : I s) (hD : Meets step D s ls) (h : exec step s ls = some s') :
    Always step Q s ls ↔ Meets step C s ls := by
  refine ⟨fun hall => ?_, Meets.always hstep hI h0 hD⟩
  induction ls generalizing s with
  | nil => trivial
  | cons l ls ih =>
    obtain ⟨m, hm, hrest⟩ := exec_cons_eq_some.mp h
    have hC : C s l := hQ h0 hD.1 hm (hall.2 m hm).here
    exact .cons hm hC (ih (hstep h0 hD.1 hC hm) (hD.2 m hm) hrest (hall.2 m hm))

theorem Always.last {step : σ → ℓ → Option σ} {Q : σ → Prop} {s s' : σ} {ls : List ℓ}
    (hall : Always step Q s ls) (h : exec step s ls = some s') : Q s' := by
  induction ls generalizing s with
  | nil =>
    cases h
    exact hall
  | cons l ls ih =>
    obtain ⟨m, hm, hrest⟩ := exec_cons_eq_some.mp h
    exact ih (hall.2 m hm) hrest

/-- What survives the steps into `Q` states survives the runs through them. -/
theorem Always.exec_invariant {step : σ → ℓ → Option σ} {D : σ → ℓ → Prop} {J Q : σ → Prop}
    (hJ : ∀ {s l s'}, J s → D s l → step s l = some s' → Q s' → J s') {s s' : σ} {ls : List ℓ}
    (h0 : J s) (hD : Meets step D s ls) (hall : Always step Q s ls)
    (h : exec step s ls = some s') : J s' := by
  induction ls generalizing s with
  | nil =>
    cases h
    exact h0
  | cons l ls ih =>
    obtain ⟨m, hm, hrest⟩ := exec_cons_eq_some.mp h
    have htail : Always step Q m ls := hall.2 m hm
    exact ih (hJ h0 hD.1 hm htail.here) (hD.2 m hm) htail hrest

/-- When `I` survives the `C` steps and implies `Q`, and any other step into a `Q` state
leads to `J`, which no step into a `Q` state leaves and which the last state of the run
does not have together with `Q`, then the runs through `Q` states are the runs of `C`
steps. -/
theorem always_iff_meets_of_lost {step : σ → ℓ → Option σ} {C D : σ → ℓ → Prop} {I J Q : σ → Prop}
    (hstep : ∀ {s l s'}, I s → D s l → C s l → step s l = some s' → I s')
    (hI : ∀ {s}, I s → Q s)
    (hlost : ∀ {s l s'}, I s → D s l → ¬C s l → step s l = some s' → Q s' → J s')
    (hJ : ∀ {s l s'}, J s → D s l → step s l = some s' → Q s' → J s')
    {s s' : σ} {ls : List ℓ} (h0 : I s) (hD : Meets step D s ls) (h : exec step s ls = some s')
    (hend : J s' → ¬Q s') : Always step Q s ls ↔ Meets step C s ls := by
  refine ⟨fun hall => ?_, Meets.always hstep hI h0 hD⟩
  induction ls generalizing s with
  | nil => trivial
  | cons l ls ih =>
    obtain ⟨m, hm, hrest⟩ := exec_cons_eq_some.mp h
    have hDm : Meets step D m ls := hD.2 m hm
    have htail : Always step Q m ls := hall.2 m hm
    have hC : C s l := by
      by_contra hC
      have hlast : J s' := Always.exec_invariant hJ (hlost h0 hD.1 hC hm htail.here) hDm htail hrest
      exact hend hlast (htail.last hrest)
    exact .cons hm hC (ih (hstep h0 hD.1 hC hm) hDm hrest htail)

/-- When `I` survives the `C` steps, and any other step leads to `J`, which no step
leaves, then a run ends well exactly when all its steps are `C` steps. `Q` is what
sets the two kinds of ends apart. -/
theorem last_iff_meets {step : σ → ℓ → Option σ} {C : σ → ℓ → Prop} {I J Q : σ → Prop}
    (hstep : ∀ {s l s'}, I s → C s l → step s l = some s' → I s')
    (hlost : ∀ {s l s'}, I s → ¬C s l → step s l = some s' → J s')
    (hJ : ∀ {s l s'}, J s → step s l = some s' → J s') {s s' : σ} {ls : List ℓ} (h0 : I s)
    (h : exec step s ls = some s') (hQ : I s' → Q s') (hend : J s' → ¬Q s') :
    Q s' ↔ Meets step C s ls := by
  induction ls generalizing s with
  | nil =>
    cases h
    exact ⟨fun _ => trivial, fun _ => hQ h0⟩
  | cons l ls ih =>
    obtain ⟨m, hm, hrest⟩ := exec_cons_eq_some.mp h
    constructor
    · intro hlast
      have hC : C s l := by
        by_contra hC
        exact hend (exec_invariant hJ (hlost h0 hC hm) hrest) hlast
      exact .cons hm hC ((ih (hstep h0 hC hm) hrest).mp hlast)
    · intro hmeets
      exact (ih (hstep h0 hmeets.1 hm) hrest).mpr (hmeets.2 m hm)

/-! ## 8. Steps that are made good later -/

/-- Every step of the run `ls` from `s` satisfies `C`, or a label of `R` comes after it. -/
def Recovered (step : σ → ℓ → Option σ) (R : ℓ → Prop) (C : σ → ℓ → Prop) : σ → List ℓ → Prop
  | _, [] => True
  | s, l :: ls =>
    (C s l ∨ ∃ r ∈ ls, R r) ∧ ∀ s', step s l = some s' → Recovered step R C s' ls

theorem recovered_cons_of_step {step : σ → ℓ → Option σ} {R : ℓ → Prop} {C : σ → ℓ → Prop}
    {s m : σ} {l : ℓ} {ls : List ℓ} (hs : step s l = some m) :
    Recovered step R C s (l :: ls) ↔
      (C s l ∨ ∃ r ∈ ls, R r) ∧ Recovered step R C m ls := by
  refine ⟨fun h => ⟨h.1, h.2 m hs⟩, fun h => ⟨h.1, fun s' hs' => ?_⟩⟩
  obtain rfl : m = s' := Option.some.inj (hs.symm.trans hs')
  exact h.2

instance decidableRecovered (step : σ → ℓ → Option σ) (R : ℓ → Prop) [DecidablePred R]
    (C : σ → ℓ → Prop) [∀ s l, Decidable (C s l)] : ∀ s ls, Decidable (Recovered step R C s ls)
  | _, [] => .isTrue trivial
  | s, l :: ls =>
    match hs : step s l with
    | none =>
      decidable_of_iff (C s l ∨ ∃ r ∈ ls, R r) ⟨fun h => ⟨h, by simp [hs]⟩, fun h => h.1⟩
    | some m =>
      have := decidableRecovered step R C m ls
      decidable_of_iff ((C s l ∨ ∃ r ∈ ls, R r) ∧ Recovered step R C m ls)
        (recovered_cons_of_step hs).symm

section

variable {step : σ → ℓ → Option σ} {R : ℓ → Prop} {C : σ → ℓ → Prop} {I J Q : σ → Prop}

/-- When `I` survives the `C` steps, any other step leads to `J`, which only the steps of `R`
leave, and those lead to `I`, then a run ends well exactly when every step that is not a `C`
step is made good later. `Q` is what sets the two kinds of ends apart. -/
theorem last_iff_recovered (hstep : ∀ {s l s'}, I s → C s l → step s l = some s' → I s')
    (hlost : ∀ {s l s'}, I s → ¬C s l → step s l = some s' → J s')
    (hJ : ∀ {s l s'}, J s → ¬R l → step s l = some s' → J s')
    (hreset : ∀ {s l s'}, J s → R l → step s l = some s' → I s') (hRC : ∀ {s l}, R l → C s l)
    {s s' : σ} {ls : List ℓ} (h : exec step s ls = some s') (hQ : I s' → Q s')
    (hend : J s' → ¬Q s') :
    (I s → (Q s' ↔ Recovered step R C s ls)) ∧
      (J s → (Q s' ↔ (∃ r ∈ ls, R r) ∧ Recovered step R C s ls)) := by
  induction ls generalizing s with
  | nil =>
    cases h
    refine ⟨fun hI => ⟨fun _ => trivial, fun _ => hQ hI⟩, fun hJ => ⟨fun hq => ?_, ?_⟩⟩
    · exact absurd hq (hend hJ)
    · rintro ⟨⟨r, hr, -⟩, -⟩
      exact absurd hr List.not_mem_nil
  | cons l ls ih =>
    obtain ⟨m, hm, hrest⟩ := exec_cons_eq_some.mp h
    obtain ⟨ihI, ihJ⟩ := ih hrest
    rw [recovered_cons_of_step hm]
    constructor
    · intro hI
      by_cases hC : C s l
      · rw [ihI (hstep hI hC hm)]
        exact ⟨fun hrec => ⟨.inl hC, hrec⟩, fun hrec => hrec.2⟩
      · rw [ihJ (hlost hI hC hm), or_iff_right hC]
    · intro hj
      by_cases hR : R l
      · rw [ihI (hreset hj hR hm)]
        exact ⟨fun hrec => ⟨⟨l, List.mem_cons_self, hR⟩, .inl (hRC hR), hrec⟩,
          fun hrec => hrec.2.2⟩
      · have hlater : (∃ r ∈ l :: ls, R r) ↔ ∃ r ∈ ls, R r := by
          rw [List.exists_mem_cons_iff, or_iff_right hR]
        rw [ihJ (hJ hj hR hm), hlater]
        exact ⟨fun hrec => ⟨hrec.1, .inr hrec.1, hrec.2⟩, fun hrec => ⟨hrec.1, hrec.2.2⟩⟩

end

end StepSystem
