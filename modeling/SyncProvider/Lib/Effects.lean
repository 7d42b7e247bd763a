import SyncProvider.Lib.StepSystem

/-!
# Effects and their cleanups

A component runs an effect, and calls the cleanup of that run before it runs the effect
again, or when it goes away. What a run has begun goes on behind its cleanup. The runs
share a state.

Contents:
1. The steps.
2. `Inv` : an invariant of the shared state, one of each run, and one of any two runs.
   `Sound` is what the operations have to keep, and `Inv.step` is the rule.
3. `Owned` : what the shared state has given out belongs to a run.
4. `last_iff_allowed` : runs that end well exactly when their operations meet a condition.
-/

namespace Effects

variable {π ρ σ α : Type*}

/-! ## 1. The steps -/

/-- The operations. `setup` makes no run when it leaves nothing to clean up. -/
structure Effect (π ρ σ α : Type*) where
  setup : π → σ → σ × Option ρ
  advance : α → ρ → σ → Option (ρ × σ)
  cleanup : ρ → σ → ρ × σ

/-- The runs so far, and the one whose cleanup is to come. -/
structure Component (ρ σ : Type*) where
  runs : List ρ
  current : Option Nat
  shared : σ
  deriving DecidableEq

def initial (shared : σ) : Component ρ σ where
  runs := []
  current := none
  shared := shared

inductive Label (π α : Type*) where
  | setup (input : π)
  | advance (k : Nat) (a : α)
  | cleanup
  deriving DecidableEq

def step (e : Effect π ρ σ α) (s : Component ρ σ) : Label π α → Option (Component ρ σ)
  | .setup input =>
    if s.current = none then
      match e.setup input s.shared with
      | (shared, none) => some { s with shared := shared }
      | (shared, some run) => some ⟨s.runs ++ [run], some s.runs.length, shared⟩
    else none
  | .advance k a =>
    s.runs[k]?.bind fun run =>
      (e.advance a run s.shared).map fun p => ⟨s.runs.set k p.1, s.current, p.2⟩
  | .cleanup =>
    s.current.bind fun k =>
      s.runs[k]?.map fun run =>
        ⟨s.runs.set k (e.cleanup run s.shared).1, none, (e.cleanup run s.shared).2⟩

/-- What a step can do. -/
inductive Moves (e : Effect π ρ σ α) (s : Component ρ σ) : Label π α → Component ρ σ → Prop where
  | skips {input : π} {shared : σ} (hcurrent : s.current = none)
    (h : e.setup input s.shared = (shared, none)) :
    Moves e s (.setup input) { s with shared := shared }
  | begins {input : π} {run : ρ} {shared : σ} (hcurrent : s.current = none)
    (h : e.setup input s.shared = (shared, some run)) :
    Moves e s (.setup input) ⟨s.runs ++ [run], some s.runs.length, shared⟩
  | advances {k : Nat} {a : α} {run run' : ρ} {shared : σ} (hrun : s.runs[k]? = some run)
    (h : e.advance a run s.shared = some (run', shared)) :
    Moves e s (.advance k a) ⟨s.runs.set k run', s.current, shared⟩
  | cleans {k : Nat} {run run' : ρ} {shared : σ} (hcurrent : s.current = some k)
    (hrun : s.runs[k]? = some run) (h : e.cleanup run s.shared = (run', shared)) :
    Moves e s .cleanup ⟨s.runs.set k run', none, shared⟩

variable {e : Effect π ρ σ α} {s s' : Component ρ σ} {l : Label π α}

theorem moves_step (h : step e s l = some s') : Moves e s l s' := by
  cases l with
  | setup input =>
    simp only [step] at h
    split at h
    · rename_i hcurrent
      split at h
      · rename_i hsetup
        cases h
        exact .skips hcurrent hsetup
      · rename_i hsetup
        cases h
        exact .begins hcurrent hsetup
    · cases h
  | advance k a =>
    obtain ⟨run, hrun, h⟩ := Option.bind_eq_some_iff.mp h
    obtain ⟨⟨run', shared⟩, hadvance, rfl⟩ := Option.map_eq_some_iff.mp h
    exact .advances hrun hadvance
  | cleanup =>
    obtain ⟨k, hcurrent, h⟩ := Option.bind_eq_some_iff.mp h
    obtain ⟨run, hrun, rfl⟩ := Option.map_eq_some_iff.mp h
    exact .cleans hcurrent hrun rfl

/-! ## 2. Invariants -/

/-- A condition on the operations, asked of the run and of whether its cleanup is still
to come. It is on `advance` for `some`, and on `cleanup` for `none`. -/
def Allowed (C : Bool → Option α → ρ → Prop) (s : Component ρ σ) : Label π α → Prop
  | .setup _ => True
  | .advance k a => ∀ run, s.runs[k]? = some run → C (s.current == some k) (some a) run
  | .cleanup => ∀ k run, s.current = some k → s.runs[k]? = some run → C true none run

theorem allowed_true (s : Component ρ σ) (l : Label π α) : Allowed (fun _ _ _ => True) s l := by
  cases l with
  | setup => trivial
  | advance => exact fun _ _ => trivial
  | cleanup => exact fun _ _ _ _ => trivial

section

variable (e) (C : Bool → Option α → ρ → Prop) (G : Bool → σ → Prop) (P : Bool → ρ → σ → Prop)
  (R : ρ → ρ → Prop)

/-- `G` holds of the shared state, and says whether a cleanup is to come. `P` holds of each
run, and says whether its own is. `R` holds of any two runs. -/
structure Inv (s : Component ρ σ) : Prop where
  current : ∀ k, s.current = some k → k < s.runs.length
  shared : G s.current.isSome s.shared
  each : ∀ (k : Nat) (run : ρ), s.runs[k]? = some run → P (s.current == some k) run s.shared
  apart : ∀ (j k : Nat) (run run' : ρ), j ≠ k → s.runs[j]? = some run → s.runs[k]? = some run' →
    R run run'

/-- The operations that meet the condition keep `G`, the `P` of their own run and, with `R`,
the `P` of every other one. -/
structure Sound : Prop where
  symm : ∀ run other, R run other → R other run
  setup : ∀ input shared shared' new, G false shared → e.setup input shared = (shared', new) →
    G new.isSome shared' ∧ (∀ other, P false other shared → P false other shared') ∧
      ∀ run ∈ new, P true run shared' ∧ ∀ other, P false other shared → R other run
  advance : ∀ a b c run run' shared shared', (b = true → c = true) → G c shared →
    P b run shared → C b (some a) run → e.advance a run shared = some (run', shared') →
    G c shared' ∧ P b run' shared' ∧
      ∀ b' other, (b = true → b' = false) → P b' other shared → R run other →
        P b' other shared' ∧ R run' other
  cleanup : ∀ run run' shared shared', G true shared → P true run shared → C true none run →
    e.cleanup run shared = (run', shared') → G false shared' ∧ P false run' shared' ∧
      ∀ other, P false other shared → R run other → P false other shared' ∧ R run' other

end

variable {C : Bool → Option α → ρ → Prop} {G : Bool → σ → Prop} {P P' : Bool → ρ → σ → Prop}
  {R : ρ → ρ → Prop} {L : ρ → σ → Prop}

theorem inv_initial {shared : σ} (h : G false shared) :
    Inv G P R (initial shared : Component ρ σ) where
  current k hk := by cases hk
  shared := h
  each k run hrun := by simp [initial] at hrun
  apart j k run run' _ hrun := by simp [initial] at hrun

/-- A run of the list is the one that has changed, or was there before. -/
theorem getElem?_set_cases {runs : List ρ} {k j : Nat} {run' other : ρ}
    (h : (runs.set k run')[j]? = some other) :
    (j = k ∧ other = run') ∨ j ≠ k ∧ runs[j]? = some other := by
  rw [List.getElem?_set] at h
  split at h
  · rename_i hk
    split at h
    · exact .inl ⟨hk.symm, (Option.some.inj h).symm⟩
    · cases h
  · rename_i hk
    exact .inr ⟨Ne.symm hk, h⟩

theorem getElem?_snoc_cases {runs : List ρ} {j : Nat} {run other : ρ}
    (h : (runs ++ [run])[j]? = some other) :
    (j = runs.length ∧ other = run) ∨ j < runs.length ∧ runs[j]? = some other := by
  rw [List.getElem?_append] at h
  split at h
  · exact .inr ⟨‹_›, h⟩
  · rename_i hge
    obtain ⟨hzero, rfl⟩ := List.getElem?_eq_some_iff.mp h
    rw [List.length_singleton] at hzero
    have hj : j = runs.length := by omega
    exact .inl ⟨hj, by simp⟩

/-- One run changes, and the others keep what holds of them. -/
theorem Inv.set {k : Nat} {run' : ρ} {shared : σ} {current : Option Nat} (h : Inv G P R s)
    (hsymm : ∀ run other, R run other → R other run)
    (hcurrent : ∀ j, current = some j → s.current = some j)
    (hG : G current.isSome shared) (hP : P (current == some k) run' shared)
    (hother : ∀ j other, j ≠ k → s.runs[j]? = some other →
      P (current == some j) other shared ∧ R run' other) :
    Inv G P R ⟨s.runs.set k run', current, shared⟩ where
  current j hj := by
    rw [List.length_set]
    exact h.current j (hcurrent j hj)
  shared := hG
  each j other hget := by
    rcases getElem?_set_cases hget with ⟨rfl, rfl⟩ | ⟨hne, hold⟩
    · exact hP
    · exact (hother j other hne hold).1
  apart i j r r' hne hr hr' := by
    rcases getElem?_set_cases hr with ⟨rfl, rfl⟩ | ⟨hi, hold⟩
    · rcases getElem?_set_cases hr' with ⟨rfl, -⟩ | ⟨hj, hold'⟩
      · exact absurd rfl hne
      · exact (hother j r' hj hold').2
    · rcases getElem?_set_cases hr' with ⟨rfl, rfl⟩ | ⟨hj, hold'⟩
      · exact hsymm _ _ (hother i r hi hold).2
      · exact h.apart i j r r' hne hold hold'

/-- Before a `setup` there is no current run. -/
theorem Inv.false_of_none {k : Nat} {run : ρ} (h : Inv G P R s) (hcurrent : s.current = none)
    (hrun : s.runs[k]? = some run) : P false run s.shared := by
  have hP := h.each k run hrun
  rw [hcurrent] at hP
  exact hP

theorem Inv.step (h : Inv G P R s) (hsound : Sound e C G P R) (hC : Allowed C s l)
    (hs : step e s l = some s') : Inv G P R s' := by
  cases moves_step hs with
  | @skips input shared hcurrent hsetup =>
    have hG := h.shared
    rw [hcurrent] at hG
    obtain ⟨hG', hother, -⟩ := hsound.setup input s.shared shared none hG hsetup
    refine ⟨h.current, ?_, fun k run hrun => ?_, h.apart⟩
    · show G s.current.isSome shared
      rw [hcurrent]
      exact hG'
    · show P (s.current == some k) run shared
      rw [hcurrent]
      exact hother run (h.false_of_none hcurrent hrun)
  | @begins input run shared hcurrent hsetup =>
    have hG := h.shared
    rw [hcurrent] at hG
    obtain ⟨hG', hother, hnew⟩ := hsound.setup input s.shared shared (some run) hG hsetup
    obtain ⟨hP, hR⟩ := hnew run rfl
    refine ⟨fun k hk => ?_, hG', fun k r hr => ?_, fun i j r r' hne hr hr' => ?_⟩
    · cases hk
      simp
    · rcases getElem?_snoc_cases hr with ⟨rfl, rfl⟩ | ⟨hlt, hold⟩
      · show P (some s.runs.length == some s.runs.length) r shared
        rw [beq_self_eq_true]
        exact hP
      · have hne : (some s.runs.length == some k) = false := by
          refine beq_eq_false_iff_ne.mpr fun heq => ?_
          exact Nat.ne_of_gt hlt (Option.some.inj heq)
        show P (some s.runs.length == some k) r shared
        rw [hne]
        exact hother r (h.false_of_none hcurrent hold)
    · rcases getElem?_snoc_cases hr with ⟨rfl, rfl⟩ | ⟨hi, hold⟩
      · rcases getElem?_snoc_cases hr' with ⟨rfl, -⟩ | ⟨hj, hold'⟩
        · exact absurd rfl hne
        · exact hsound.symm _ _ (hR r' (h.false_of_none hcurrent hold'))
      · rcases getElem?_snoc_cases hr' with ⟨rfl, rfl⟩ | ⟨hj, hold'⟩
        · exact hR r (h.false_of_none hcurrent hold)
        · exact h.apart i j r r' hne hold hold'
  | @advances k a run run' shared hrun hadvance =>
    have hsome (hcurrent : (s.current == some k) = true) : s.current.isSome = true := by
      rw [beq_iff_eq.mp hcurrent]
      rfl
    obtain ⟨hG, hP, hother⟩ := hsound.advance a _ _ run run' s.shared shared hsome h.shared
      (h.each k run hrun) (hC run hrun) hadvance
    refine h.set hsound.symm (fun j hj => hj) hG hP fun j other hne hold => ?_
    refine hother _ other (fun hcurrent => ?_) (h.each j other hold)
      (h.apart k j run other hne.symm hrun hold)
    rw [beq_iff_eq.mp hcurrent]
    exact beq_eq_false_iff_ne.mpr fun heq => hne (Option.some.inj heq).symm
  | @cleans k run run' shared hcurrent hrun hcleanup =>
    have hG := h.shared
    have hP := h.each k run hrun
    rw [hcurrent] at hG hP
    rw [beq_self_eq_true] at hP
    obtain ⟨hG', hP', hother⟩ :=
      hsound.cleanup run run' s.shared shared hG hP (hC k run hcurrent hrun) hcleanup
    refine h.set hsound.symm (fun j hj => by cases hj) hG' hP' fun j other hne hold => ?_
    have hfalse := h.each j other hold
    rw [hcurrent, beq_eq_false_iff_ne.mpr fun heq => hne (Option.some.inj heq).symm] at hfalse
    exact hother other hfalse (h.apart k j run other hne.symm hrun hold)

/-! ## 3. What the runs have been given -/

variable {τ : Type*} {own : ρ → τ → Prop} {given : σ → τ → Prop}

/-- What has been given out belongs to one of the runs. -/
def Owned (own : ρ → τ → Prop) (given : σ → τ → Prop) (s : Component ρ σ) : Prop :=
  ∀ x, given s.shared x → ∃ (k : Nat) (run : ρ), s.runs[k]? = some run ∧ own run x

/-- A run keeps what it has, and what an operation gives out is given to its run. -/
structure Grants (e : Effect π ρ σ α) (P : Bool → ρ → σ → Prop) (own : ρ → τ → Prop)
    (given : σ → τ → Prop) : Prop where
  setup : ∀ input shared shared' new x, e.setup input shared = (shared', new) →
    given shared' x → given shared x
  advance : ∀ a b run run' shared shared' x, P b run shared →
    e.advance a run shared = some (run', shared') →
    (own run x → own run' x) ∧ (given shared' x → given shared x ∨ own run' x)
  cleanup : ∀ run run' shared shared' x, P true run shared →
    e.cleanup run shared = (run', shared') →
    (own run x → own run' x) ∧ (given shared' x → given shared x ∨ own run' x)

theorem Owned.set {k : Nat} {run run' : ρ} {shared : σ} (h : Owned own given s)
    (hrun : s.runs[k]? = some run)
    (hgrants : ∀ x, (own run x → own run' x) ∧ (given shared x → given s.shared x ∨ own run' x))
    (current : Option Nat) : Owned own given ⟨s.runs.set k run', current, shared⟩ := by
  have hself : (s.runs.set k run')[k]? = some run' :=
    List.getElem?_set_self (List.getElem?_eq_some_iff.mp hrun).1
  intro x hx
  rcases (hgrants x).2 hx with hold | hown
  · obtain ⟨j, other, hother, hown⟩ := h x hold
    by_cases hj : k = j
    · subst hj
      obtain rfl := Option.some.inj (hrun.symm.trans hother)
      exact ⟨k, run', hself, (hgrants x).1 hown⟩
    · exact ⟨j, other, (List.getElem?_set_ne hj).trans hother, hown⟩
  · exact ⟨k, run', hself, hown⟩

theorem Owned.step (h : Owned own given s) (hinv : Inv G P R s) (hgrants : Grants e P own given)
    (hs : Effects.step e s l = some s') : Owned own given s' := by
  cases moves_step hs with
  | skips _ hsetup =>
    intro x hx
    exact h x (hgrants.setup _ _ _ _ x hsetup hx)
  | begins _ hsetup =>
    intro x hx
    obtain ⟨k, run, hrun, hown⟩ := h x (hgrants.setup _ _ _ _ x hsetup hx)
    refine ⟨k, run, ?_, hown⟩
    show (s.runs ++ _)[k]? = some run
    rw [List.getElem?_append_left (List.getElem?_eq_some_iff.mp hrun).1, hrun]
  | @advances k a run run' shared hrun hadvance =>
    refine h.set hrun (fun x => ?_) s.current
    exact hgrants.advance a _ run run' _ _ x (hinv.each k run hrun) hadvance
  | @cleans k run run' shared hcurrent hrun hcleanup =>
    have hP := hinv.each k run hrun
    rw [hcurrent, beq_self_eq_true] at hP
    exact h.set hrun (fun x => hgrants.cleanup run run' _ _ x hP hcleanup) none

theorem owned_of_exec {shared : σ} {ls : List (Label π α)}
    (hsound : Sound e (fun _ _ _ => True) G P R) (hgrants : Grants e P own given)
    (hG : G false shared) (hnone : ∀ x, ¬ given shared x)
    (h : StepSystem.exec (step e) (initial shared) ls = some s) :
    Inv G P R s ∧ Owned own given s := by
  refine StepSystem.exec_invariant (I := fun s => Inv G P R s ∧ Owned own given s) ?_
    ⟨inv_initial hG, fun x hx => absurd hx (hnone x)⟩ h
  intro s l s' hI hs
  exact ⟨hI.1.step hsound (allowed_true s l) hs, hI.2.step hI.1 hgrants hs⟩

/-! ## 4. Runs that end well -/

/-- `L` holds of a run whose cleanup is not to come any more. -/
def Lost (L : ρ → σ → Prop) (s : Component ρ σ) : Prop :=
  ∃ (k : Nat) (run : ρ), s.runs[k]? = some run ∧ s.current ≠ some k ∧ L run s.shared

section

variable (e) (C : Bool → Option α → ρ → Prop) (G₀ : Bool → σ → Prop) (P₀ P : Bool → ρ → σ → Prop)
  (R : ρ → ρ → Prop) (L : ρ → σ → Prop)

/-- An operation that does not meet the condition loses its run, and no operation of any
run gets it back. -/
structure Losing : Prop where
  advance : ∀ a b run run' shared shared', P b run shared → ¬ C b (some a) run →
    e.advance a run shared = some (run', shared') → b = false ∧ L run' shared'
  cleanup : ∀ run run' shared shared', P true run shared → ¬ C true none run →
    e.cleanup run shared = (run', shared') → L run' shared'
  setup : ∀ input shared shared' new lost, e.setup input shared = (shared', new) →
    L lost shared → L lost shared'
  own : ∀ a c run run' shared shared', G₀ c shared → P₀ false run shared → L run shared →
    e.advance a run shared = some (run', shared') → L run' shared'
  other : ∀ a b run run' shared shared' lost, P₀ b run shared → P₀ false lost shared →
    R run lost → L lost shared → e.advance a run shared = some (run', shared') → L lost shared'
  cleanupOther : ∀ run run' shared shared' lost, P₀ true run shared → P₀ false lost shared →
    R run lost → L lost shared → e.cleanup run shared = (run', shared') → L lost shared'

end

variable {G₀ : Bool → σ → Prop} {P₀ : Bool → ρ → σ → Prop}

theorem Inv.lost_step (h : Inv G₀ P₀ R s) (hlosing : Losing e C G₀ P₀ P R L) (hlost : Lost L s)
    (hs : Effects.step e s l = some s') : Lost L s' := by
  obtain ⟨k, lost, hk, hcurrent, hL⟩ := hlost
  have hP : P₀ false lost s.shared := by
    have hP := h.each k lost hk
    rwa [beq_eq_false_iff_ne.mpr hcurrent] at hP
  have hlt : k < s.runs.length := (List.getElem?_eq_some_iff.mp hk).1
  cases moves_step hs with
  | skips _ hsetup => exact ⟨k, lost, hk, hcurrent, hlosing.setup _ _ _ _ lost hsetup hL⟩
  | begins _ hsetup =>
    refine ⟨k, lost, ?_, ?_, hlosing.setup _ _ _ _ lost hsetup hL⟩
    · rw [List.getElem?_append_left hlt]
      exact hk
    · intro heq
      exact Nat.ne_of_gt hlt (Option.some.inj heq)
  | @advances j a run run' shared hrun hadvance =>
    by_cases hj : j = k
    · subst hj
      obtain rfl := Option.some.inj (hrun.symm.trans hk)
      refine ⟨j, run', List.getElem?_set_self hlt, hcurrent, ?_⟩
      exact hlosing.own a _ run run' _ _ h.shared hP hL hadvance
    · refine ⟨k, lost, (List.getElem?_set_ne hj).trans hk, hcurrent, ?_⟩
      exact hlosing.other a _ run run' _ _ lost (h.each j run hrun) hP
        (h.apart j k run lost hj hrun hk) hL hadvance
  | @cleans j run run' shared hj hrun hcleanup =>
    have hne : j ≠ k := by
      rintro rfl
      exact hcurrent hj
    have hP' := h.each j run hrun
    rw [hj, beq_self_eq_true] at hP'
    refine ⟨k, lost, (List.getElem?_set_ne hne).trans hk, (fun heq => by cases heq), ?_⟩
    exact hlosing.cleanupOther run run' _ _ lost hP' hP (h.apart j k run lost hne hrun hk) hL
      hcleanup

theorem Inv.loses (h : Inv G P R s) (hlosing : Losing e C G₀ P₀ P R L) (hC : ¬ Allowed C s l)
    (hs : Effects.step e s l = some s') : Lost L s' := by
  cases moves_step hs with
  | skips | begins => exact absurd trivial hC
  | @advances k a run run' shared hrun hadvance =>
    have hnot : ¬ C (s.current == some k) (some a) run := by
      intro hyes
      refine hC fun run₀ hrun₀ => ?_
      obtain rfl := Option.some.inj (hrun.symm.trans hrun₀)
      exact hyes
    obtain ⟨hcurrent, hL⟩ :=
      hlosing.advance a _ run run' _ _ (h.each k run hrun) hnot hadvance
    have hlt : k < s.runs.length := (List.getElem?_eq_some_iff.mp hrun).1
    exact ⟨k, run', List.getElem?_set_self hlt, beq_eq_false_iff_ne.mp hcurrent, hL⟩
  | @cleans k run run' shared hcurrent hrun hcleanup =>
    have hnot : ¬ C true none run := by
      intro hyes
      refine hC fun k₀ run₀ hk₀ hrun₀ => ?_
      obtain rfl := Option.some.inj (hcurrent.symm.trans hk₀)
      obtain rfl := Option.some.inj (hrun.symm.trans hrun₀)
      exact hyes
    have hP := h.each k run hrun
    rw [hcurrent, beq_self_eq_true] at hP
    have hlt : k < s.runs.length := (List.getElem?_eq_some_iff.mp hrun).1
    exact ⟨k, run', List.getElem?_set_self hlt, (fun heq => by cases heq),
      hlosing.cleanup run run' _ _ hP hnot hcleanup⟩

/-- A run of the component ends well exactly when all its operations meet the condition.
`Q` is what sets the ends apart. -/
theorem last_iff_allowed (hbase : Sound e (fun _ _ _ => True) G₀ P₀ R) (hsound : Sound e C G P R)
    (hlosing : Losing e C G₀ P₀ P R L) {shared : σ} {ls : List (Label π α)} (h₀ : G₀ false shared)
    (h : G false shared) (hrun : StepSystem.exec (step e) (initial shared) ls = some s)
    {Q : Component ρ σ → Prop} (hQ : Inv G P R s → Q s)
    (hend : Inv G₀ P₀ R s → Lost L s → ¬ Q s) :
    Q s ↔ StepSystem.Meets (step e) (Allowed C) (initial shared) ls := by
  have hkeeps {s s' : Component ρ σ} {l : Label π α} (hI : Inv G₀ P₀ R s ∧ Inv G P R s)
      (hC : Allowed C s l) (hs : step e s l = some s') : Inv G₀ P₀ R s' ∧ Inv G P R s' :=
    ⟨hI.1.step hbase (allowed_true s l) hs, hI.2.step hsound hC hs⟩
  have hloses {s s' : Component ρ σ} {l : Label π α} (hI : Inv G₀ P₀ R s ∧ Inv G P R s)
      (hC : ¬ Allowed C s l) (hs : step e s l = some s') : Inv G₀ P₀ R s' ∧ Lost L s' :=
    ⟨hI.1.step hbase (allowed_true s l) hs, hI.2.loses hlosing hC hs⟩
  have hstays {s s' : Component ρ σ} {l : Label π α} (hJ : Inv G₀ P₀ R s ∧ Lost L s)
      (hs : step e s l = some s') : Inv G₀ P₀ R s' ∧ Lost L s' :=
    ⟨hJ.1.step hbase (allowed_true s l) hs, hJ.1.lost_step hlosing hJ.2 hs⟩
  exact StepSystem.last_iff_meets hkeeps hloses hstays ⟨inv_initial h₀, inv_initial h⟩ hrun
    (fun hI => hQ hI.2) fun hJ => hend hJ.1 hJ.2

end Effects
