import SyncProvider.Lib.Effects
import Mathlib

/-!
# What the runs of an effect have in them

A run may have things under way that can still come to something. A weight counts them, and
when no operation adds to it, no more comes out of all runs together than is in them
(`weight_exec`). What a run keeps in its own steps it keeps behind its cleanup, whatever the
other runs do (`behind_cleanup`).
-/

namespace Effects

open StepSystem (exec exec_cons_eq_some)

variable {π ρ σ α : Type*} {e : Effect π ρ σ α} {s s' : Component ρ σ} {l : Label π α}
  {ls : List (Label π α)}

/-! ## 1. Weights -/

/-- The weight of all runs together. -/
def weight (w : ρ → Nat) (s : Component ρ σ) : Nat := (s.runs.map w).sum

theorem weight_add (w w' : ρ → Nat) (s : Component ρ σ) :
    weight (fun run => w run + w' run) s = weight w s + weight w' s := List.sum_map_add

theorem sum_map_set_le {w : ρ → Nat} {runs : List ρ} {k : Nat} {run run' : ρ}
    (hrun : runs[k]? = some run) (hle : w run' ≤ w run) :
    ((runs.set k run').map w).sum ≤ (runs.map w).sum := by
  induction runs generalizing k with
  | nil => cases hrun
  | cons other runs ih =>
    cases k with
    | zero =>
      obtain rfl := Option.some.inj hrun
      rw [List.set_cons_zero, List.map_cons, List.map_cons, List.sum_cons, List.sum_cons]
      exact Nat.add_le_add_right hle _
    | succ k =>
      rw [List.set_cons_succ, List.map_cons, List.map_cons, List.sum_cons, List.sum_cons]
      exact Nat.add_le_add_left (ih hrun) _

/-- The operations that are in `A` add nothing to the weight. -/
structure Spends (e : Effect π ρ σ α) (w : ρ → Nat) (A : α → Prop) : Prop where
  setup : ∀ input shared run, (e.setup input shared).2 = some run → w run = 0
  advance : ∀ a run shared run' shared', A a → e.advance a run shared = some (run', shared') →
    w run' ≤ w run
  cleanup : ∀ run shared, w (e.cleanup run shared).1 ≤ w run

/-- The operation of a step, if it has one, is in `A`. -/
def Within (A : α → Prop) : Label π α → Prop
  | .advance _ a => A a
  | .setup _ | .cleanup => True

theorem weight_step {w : ρ → Nat} {A : α → Prop} (hS : Spends e w A) (hl : Within A l)
    (h : step e s l = some s') : weight w s' ≤ weight w s := by
  cases moves_step h with
  | skips => exact Nat.le_refl _
  | begins hcurrent hsetup =>
    have hnone := hS.setup _ _ _ (congrArg Prod.snd hsetup)
    rw [weight, List.map_append, List.sum_append, List.map_singleton, List.sum_singleton, hnone]
    exact Nat.le_refl _
  | advances hrun hadvance => exact sum_map_set_le hrun (hS.advance _ _ _ _ _ hl hadvance)
  | @cleans k run run' shared hcurrent hrun hcleanup =>
    refine sum_map_set_le hrun ?_
    rw [show run' = (e.cleanup run s.shared).1 by rw [hcleanup]]
    exact hS.cleanup run s.shared

theorem weight_exec {w : ρ → Nat} {A : α → Prop} (hS : Spends e w A)
    (hls : ∀ l ∈ ls, Within A l) (h : exec (step e) s ls = some s') :
    weight w s' ≤ weight w s := by
  induction ls generalizing s with
  | nil =>
    cases h
    exact Nat.le_refl _
  | cons l ls ih =>
    obtain ⟨m, hm, hrest⟩ := exec_cons_eq_some.mp h
    exact Nat.le_trans (ih (fun l' hl' => hls l' (List.mem_cons_of_mem l hl')) hrest)
      (weight_step hS (hls l List.mem_cons_self) hm)

/-! ## 2. Behind the cleanup -/

/-- A run whose cleanup is not to come. -/
structure Behind (P : ρ → Prop) (k : Nat) (s : Component ρ σ) : Prop where
  current : s.current ≠ some k
  run : ∃ run, s.runs[k]? = some run ∧ P run

theorem behind_step {P : ρ → Prop} {k : Nat} (hB : Behind P k s)
    (hP : ∀ a run shared run' shared', P run → e.advance a run shared = some (run', shared') →
      P run') (h : step e s l = some s') : Behind P k s' := by
  obtain ⟨hcurrent, run, hrun, hrunP⟩ := hB
  have hlt : k < s.runs.length := (List.getElem?_eq_some_iff.mp hrun).1
  cases moves_step h with
  | skips => exact ⟨hcurrent, run, hrun, hrunP⟩
  | begins hnone hsetup =>
    refine ⟨fun heq => ?_, run, ?_, hrunP⟩
    · exact absurd (Option.some.inj heq) (Nat.ne_of_gt hlt)
    · rwa [List.getElem?_append_left hlt]
  | @advances j a other other' shared hother hadvance =>
    by_cases hj : j = k
    · subst hj
      obtain rfl := Option.some.inj (hother.symm.trans hrun)
      exact ⟨hcurrent, other', List.getElem?_set_self hlt, hP _ _ _ _ _ hrunP hadvance⟩
    · exact ⟨hcurrent, run, (List.getElem?_set_ne hj).trans hrun, hrunP⟩
  | @cleans j other other' shared hj hother hcleanup =>
    have hne : j ≠ k := fun heq => hcurrent (heq ▸ hj)
    exact ⟨nofun, run, (List.getElem?_set_ne hne).trans hrun, hrunP⟩

/-- What a run keeps in its own steps it keeps behind its cleanup. -/
theorem behind_cleanup {P : ρ → Prop} {k : Nat} (hB : Behind P k s)
    (hP : ∀ a run shared run' shared', P run → e.advance a run shared = some (run', shared') →
      P run') (h : exec (step e) s ls = some s') : Behind P k s' :=
  StepSystem.exec_invariant (fun hB hstep => behind_step hB hP hstep) hB h

end Effects
