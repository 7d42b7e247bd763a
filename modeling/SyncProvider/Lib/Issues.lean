import SyncProvider.Lib.StepSystem
import Mathlib.Order.Basic

/-!
# Generators whose values must increase

A generator moves on with every call and issues a value. When a call that meets `C`
is one whose value lies above all that were issued, the values increase over exactly
those runs whose calls all meet `C`.

Results:
1. `increasing_iff` : when the values of a run increase.
-/

namespace Issues

variable {σ ℓ α : Type*}

/-- The generator as a system. -/
def step (next : σ → ℓ → σ × α) (s : σ) (l : ℓ) : Option σ := some (next s l).1

/-- The values it issues over the calls. -/
def issued (next : σ → ℓ → σ × α) : σ → List ℓ → List α
  | _, [] => []
  | s, l :: ls => (next s l).2 :: issued next (next s l).1 ls

variable [Preorder α] {next : σ → ℓ → σ × α} {C : σ → ℓ → Prop} {A : σ → List ℓ → Prop}
  {Above : σ → α → Prop}

/-- `A` tells the runs that are considered, and `Above s` the values above all that
were issued when the generator is in state `s`. -/
structure Rules (next : σ → ℓ → σ × α) (C : σ → ℓ → Prop) (A : σ → List ℓ → Prop)
    (Above : σ → α → Prop) : Prop where
  rest : ∀ {s l ls}, A s (l :: ls) → C s l → A (next s l).1 ls
  above_iff : ∀ {s l ls}, A s (l :: ls) → (C s l ↔ Above s (next s l).2)
  above_next : ∀ {s l ls}, A s (l :: ls) → C s l →
    ∀ a, Above (next s l).1 a ↔ (next s l).2 < a
  upward : ∀ {s a b}, Above s a → a < b → Above s b

/-- All values lie above the earlier ones exactly when all calls meet `C`. -/
theorem above_increasing_iff (hR : Rules next C A Above) {s : σ} {ls : List ℓ} (hA : A s ls) :
    ((∀ a ∈ issued next s ls, Above s a) ∧ (issued next s ls).Pairwise (· < ·)) ↔
      StepSystem.Meets (step next) C s ls := by
  induction ls generalizing s with
  | nil => exact iff_of_true ⟨by simp [issued], .nil⟩ trivial
  | cons l ls ih =>
    rw [issued, List.forall_mem_cons, List.pairwise_cons,
      StepSystem.meets_cons_of_step (show step next s l = some (next s l).1 from rfl)]
    have hlater (hC : C s l) := ih (hR.rest hA hC)
    constructor
    · rintro ⟨⟨habove, -⟩, hbelow, hpairwise⟩
      have hC : C s l := (hR.above_iff hA).mpr habove
      refine ⟨hC, (hlater hC).mp ⟨fun a ha => ?_, hpairwise⟩⟩
      exact (hR.above_next hA hC a).mpr (hbelow a ha)
    · rintro ⟨hC, hmeets⟩
      obtain ⟨hall, hpairwise⟩ := (hlater hC).mpr hmeets
      have habove : Above s (next s l).2 := (hR.above_iff hA).mp hC
      have hbelow : ∀ a ∈ issued next (next s l).1 ls, (next s l).2 < a :=
        fun a ha => (hR.above_next hA hC a).mp (hall a ha)
      exact ⟨⟨habove, fun a ha => hR.upward habove (hbelow a ha)⟩, hbelow, hpairwise⟩

/-- From a state whose calls all meet `C`, the values increase exactly when all calls
of the run meet `C`. -/
theorem increasing_iff (hR : Rules next C A Above) {s : σ} {ls : List ℓ} (hA : A s ls)
    (hfirst : ∀ l, C s l) :
    (issued next s ls).Pairwise (· < ·) ↔ StepSystem.Meets (step next) C s ls := by
  cases ls with
  | nil => exact iff_of_true .nil trivial
  | cons l ls =>
    have hC : C s l := hfirst l
    rw [issued, List.pairwise_cons,
      StepSystem.meets_cons_of_step (show step next s l = some (next s l).1 from rfl),
      ← above_increasing_iff hR (hR.rest hA hC)]
    simp only [hR.above_next hA hC, hC, true_and]

end Issues
