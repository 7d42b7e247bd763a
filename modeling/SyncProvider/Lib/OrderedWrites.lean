import SyncProvider.Lib.TaskPool

/-!
# Two cells written one after the other

Calls that overlap write a value to a first cell and then the same value to a second
one. The steps of different calls interleave, so the cells can end up apart.

Contents:
1. `Settled` : the cells agree, or a call between its two writes still carries what the
   first cell holds.
2. `settled_step` : a step keeps this when a second write leaves such a call behind, or
   writes what the first cell holds.
-/

namespace OrderedWrites

variable {α τ : Type*}

/-- The cells agree, or a call that carries what the first cell holds has yet to write
the second. -/
def Settled (first second : α) (carries : τ → Option α) (pool : List τ) : Prop :=
  first = second ∨ ∃ k ∈ pool, carries k = some first

/-- One step of a call: it writes the first cell, the second, or neither. -/
def Turn (first second : α) (carried : Option α) (first' second' : α) (carried' : Option α) :
    Prop :=
  second' = second ∧ carried' = some first' ∨
    first' = first ∧ carried = some second' ∧ carried' = none ∨
    first' = first ∧ second' = second ∧ carried' = carried

/-- If the call at position `u` writes the second cell now, it writes what the first holds,
or another call is still to write that. -/
def Lasts (first : α) (carries : τ → Option α) (pool : List τ) (u : ℕ) : Prop :=
  ∀ k v, pool[u]? = some k → carries k = some v →
    v = first ∨ TaskPool.Other pool u fun x => carries x = some first

variable {first second first' second' : α} {carries : τ → Option α} {pool new : List τ} {u : ℕ}
  {k k' : τ}

theorem settled_step (hk : pool[u]? = some k)
    (hturn : Turn first second (carries k) first' second' (carries k'))
    (hlasts : Lasts first carries pool u) (h : Settled first second carries pool) :
    Settled first' second' carries (pool.set u k' ++ new) := by
  rcases hturn with ⟨rfl, hcarried⟩ | ⟨rfl, hcarried, -⟩ | ⟨rfl, rfl, hcarried⟩
  · exact .inr ⟨k', List.mem_append_left _ (TaskPool.mem_set_self hk), hcarried⟩
  · rcases hlasts k second' hk hcarried with rfl | hother
    · exact .inl rfl
    · exact .inr (hother.exists_step hk)
  · refine h.imp_right fun hex => ?_
    rcases TaskPool.self_or_other hk hex with hself | hother
    · exact ⟨k', List.mem_append_left _ (TaskPool.mem_set_self hk), hcarried.trans hself⟩
    · exact hother.exists_step hk

theorem Settled.append (h : Settled first second carries pool) :
    Settled first second carries (pool ++ new) :=
  h.imp_right fun ⟨k, hk, hcarries⟩ => ⟨k, List.mem_append_left _ hk, hcarries⟩

/-- Once no call is between its writes. -/
theorem Settled.eq (h : Settled first second carries pool)
    (hnone : ∀ k ∈ pool, carries k = none) : first = second := by
  rcases h with heq | ⟨k, hk, hcarries⟩
  · exact heq
  · rw [hnone k hk] at hcarries
    cases hcarries

end OrderedWrites
