import SyncProvider.Lib.StepSystem
import Mathlib.Logic.Function.Basic

/-!
# What a broadcast is for

There is a channel from each source to each listener. What a source says goes into the
channels of the listeners that are registered then, and comes out of each in the order in
which it went in, once. Listeners come and go, and the sources do not wait for each other.

A system carries out this model through a map of its states (`Carries`). Then of each channel
it is known at any time what has come out and what is still to come (`heard_waiting`), and a
listener that stays away hears no more than what was on its way to it (`heard_of_away`).
-/

/-- A channel for each listener and source. -/
structure Channels (κ τ ε : Type*) where
  registered : List κ
  /-- What has gone in and not come out, the oldest first. -/
  waiting : κ → τ → List ε
  heard : κ → τ → List ε

namespace Channels

open StepSystem (exec recorded recorded_eq_some exec_cons_eq_some)

variable {κ τ ε σ ℓ : Type*} [DecidableEq κ] [DecidableEq τ]

/-- What goes into a channel when a source says something. -/
def due (c : Channels κ τ ε) (k : κ) (t : τ) (said : Option (τ × ε)) : List ε :=
  if k ∈ c.registered then ((said.filter fun x => x.1 = t).map Prod.snd).toList else []

@[simp] theorem due_none (c : Channels κ τ ε) (k : κ) (t : τ) : c.due k t none = [] := by
  unfold due
  split <;> rfl

theorem due_some (c : Channels κ τ ε) (k : κ) (t s : τ) (e : ε) :
    c.due k t (some (s, e)) = if s = t ∧ k ∈ c.registered then [e] else [] := by
  unfold due
  by_cases hs : s = t
  · by_cases hk : k ∈ c.registered <;> simp [hs, hk, Option.filter]
  · by_cases hk : k ∈ c.registered <;> simp [hs, hk, Option.filter]

theorem due_of_notMem {c : Channels κ τ ε} {k : κ} (h : k ∉ c.registered) (t : τ)
    (said : Option (τ × ε)) : c.due k t said = [] := if_neg h

/-- What one step may do to the channels. -/
def Passes (c : Channels κ τ ε) (said : Option (τ × ε)) (c' : Channels κ τ ε) : Prop :=
  ∀ k t, ∃ out, c'.heard k t = c.heard k t ++ out ∧
    out ++ c'.waiting k t = c.waiting k t ++ c.due k t said

/-! ## Systems that carry out the model -/

/-- The system `step` carries what its labels say through the channels of its states. -/
structure Carries (step : σ → ℓ → Option σ) (I : σ → Prop) (abs : σ → Channels κ τ ε)
    (said : ℓ → Option (τ × ε)) : Prop where
  inv : ∀ {s l s'}, I s → step s l = some s' → I s'
  passes : ∀ {s l s'}, I s → step s l = some s' → (abs s).Passes (said l) (abs s')

variable {step : σ → ℓ → Option σ} {I : σ → Prop} {abs : σ → Channels κ τ ε}
  {said : ℓ → Option (τ × ε)} {s s' : σ} {ls : List ℓ} {k : κ} {t : τ}

/-- What goes into one channel of the system. -/
def entering (abs : σ → Channels κ τ ε) (said : ℓ → Option (τ × ε)) (k : κ) (t : τ) (s : σ)
    (l : ℓ) : List ε := (abs s).due k t (said l)

/-- What has come out of a channel, and then what is in it, is what went in. -/
theorem Carries.heard_waiting (hC : Carries step I abs said) (hI : I s) {log log' : List ε}
    (hrun : exec (recorded step (entering abs said k t)) (s, log) ls = some (s', log'))
    (hlog : (abs s).heard k t ++ (abs s).waiting k t = log) :
    (abs s').heard k t ++ (abs s').waiting k t = log' := by
  induction ls generalizing s log with
  | nil =>
    cases hrun
    exact hlog
  | cons l ls ih =>
    obtain ⟨⟨m, log₁⟩, hm, hrest⟩ := exec_cons_eq_some.mp hrun
    obtain ⟨hstep, rfl⟩ := recorded_eq_some.mp hm
    obtain ⟨out, hheard, hwaiting⟩ := hC.passes hI hstep k t
    refine ih (hC.inv hI hstep) hrest ?_
    rw [hheard, List.append_assoc, hwaiting, ← List.append_assoc, hlog]
    rfl

/-- A listener that stays away hears what was on its way, in order, and nothing else. -/
theorem Carries.heard_of_away (hC : Carries step I abs said) (hI : I s)
    (haway : ∀ {s}, I s → k ∉ (abs s).registered) (hrun : exec step s ls = some s') (t : τ) :
    (abs s').heard k t ++ (abs s').waiting k t = (abs s).heard k t ++ (abs s).waiting k t := by
  induction ls generalizing s with
  | nil =>
    cases hrun
    rfl
  | cons l ls ih =>
    obtain ⟨m, hstep, hrest⟩ := exec_cons_eq_some.mp hrun
    obtain ⟨out, hheard, hwaiting⟩ := hC.passes hI hstep k t
    rw [ih (hC.inv hI hstep) hrest, hheard, List.append_assoc, hwaiting, due_of_notMem (haway hI),
      List.append_nil]

end Channels
