import Mathlib.Tactic.TypeStar

/-!
# Programs that read a state one access at a time

Between two accesses somebody else may write the state, so a program can see a
mixture of several states. `run` is its value when the state stays.

Results:
1. `run_bind`, `run_bindT` : the value of a program part by part.
2. `Ends.bind` : what a program ends with, whatever states of a kind it reads.
-/

universe u v

/-- A program that reads states of type `σ` and ends with a value. -/
inductive Reads (σ : Type u) (α : Type v) where
  | done (a : α)
  | get (next : σ → Reads σ α)

namespace Reads

variable {σ : Type u} {α β : Type v}

def bind : Reads σ α → (α → Reads σ β) → Reads σ β
  | done a, f => f a
  | get next, f => get fun s => (next s).bind f

instance : Monad (Reads σ) where
  pure := done
  bind := bind

/-- One access. -/
def read (f : σ → α) : Reads σ α := get fun s => done (f s)

/-- The program after its next access, in state `s`. -/
def access (s : σ) : Reads σ α → Reads σ α
  | done a => done a
  | get next => next s

/-- The value when every access is in state `s`. -/
def run (s : σ) : Reads σ α → α
  | done a => a
  | get next => (next s).run s

/-! ## 1. The value of a program -/

variable {s : σ}

@[simp] theorem run_pure (a : α) : run s (pure a) = a := rfl

@[simp] theorem run_read (f : σ → α) : run s (read f) = f s := rfl

@[simp] theorem run_bind (p : Reads σ α) (f : α → Reads σ β) :
    run s (p >>= f) = run s (f (run s p)) := by
  induction p with
  | done a => rfl
  | get next ih => exact ih s

/-! A program that can fail. -/

@[simp] theorem run_bindT (p : OptionT (Reads σ) α) (f : α → OptionT (Reads σ) β) :
    run s (p >>= f).run = (run s p.run).bind fun a => run s (f a).run := by
  show run s (p.run >>= _) = _
  rw [run_bind]
  cases run s p.run <;> rfl

@[simp] theorem run_pureT (a : α) : run s (pure a : OptionT (Reads σ) α).run = some a := rfl

@[simp] theorem run_liftT (p : Reads σ α) : run s (OptionT.lift p).run = some (run s p) := by
  show run s (p >>= fun a => pure (some a)) = _
  rw [run_bind]
  rfl

/-! ## 2. Programs that read states of a kind -/

section Ends

variable {I : σ → Prop} {P : α → Prop} {Q : β → Prop}

/-- As long as it reads states with `I`, the program ends with a value with `P`. -/
def Ends (I : σ → Prop) (P : α → Prop) : Reads σ α → Prop
  | done a => P a
  | get next => ∀ s, I s → Ends I P (next s)

theorem Ends.bind {p : Reads σ α} {f : α → Reads σ β} (hp : Ends I P p)
    (hf : ∀ a, P a → Ends I Q (f a)) : Ends I Q (p >>= f) := by
  induction p with
  | done a => exact hf a hp
  | get next ih => exact fun s hs => ih s (hp s hs)

/-- What is read does not matter. -/
theorem ends_read_bind {f : σ → α} {g : α → Reads σ β} (h : ∀ a, Ends I Q (g a)) :
    Ends I Q (read f >>= g) :=
  fun s _ => h (f s)

end Ends

end Reads
