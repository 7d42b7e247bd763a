import Mathlib.Data.List.Basic

/-!
# The blocks of a log

A log in which an event opens a block, and the next such event closes it and opens
another. The last block is still open.

Results:
1. `split_append`, `split_opened` : the events of a log that has grown.
2. `last_unique` : the open block is unique.
3. `Each.snoc_of_ne`, `Each.snoc` : the closed blocks, as the log grows.
-/

namespace Blocks

variable {α : Type*} {sep : α} {P : List α → List α → Prop}

/-! ## 1. A log that has grown -/

/-- An event that is not among the last ones was there before. -/
theorem split_append {log events a b : List α} {x : α} (h : log ++ events = a ++ x :: b)
    (hx : x ∉ events) : ∃ b', log = a ++ x :: b' ∧ b = b' ++ events := by
  rcases List.append_eq_append_iff.mp h with ⟨t, -, ht⟩ | ⟨t, rfl, ht⟩
  · refine absurd ?_ hx
    rw [ht]
    exact List.mem_append_right t List.mem_cons_self
  · cases t with
    | nil =>
      refine absurd ?_ hx
      rw [List.nil_append] at ht
      rw [← ht]
      exact List.mem_cons_self
    | cons y t =>
      obtain ⟨rfl, hb⟩ := List.cons.inj ht
      exact ⟨t, rfl, hb⟩

/-- An event is the last one, or it was there before. -/
theorem split_opened {log a b : List α} {x y : α} (h : log ++ [y] = a ++ x :: b) :
    (y = x ∧ log = a ∧ b = []) ∨ ∃ b', log = a ++ x :: b' ∧ b = b' ++ [y] := by
  rcases List.eq_nil_or_concat b with rfl | ⟨b', z, rfl⟩
  · obtain ⟨hlog, hy⟩ := List.append_inj' h rfl
    exact .inl ⟨(List.cons.inj hy).1, hlog, rfl⟩
  · right
    have hconcat : log ++ [y] = (a ++ x :: b') ++ [z] := by
      rw [h, List.concat_eq_append]
      simp
    obtain ⟨hlog, hy⟩ := List.append_inj' hconcat rfl
    obtain ⟨rfl, -⟩ := List.cons.inj hy
    exact ⟨b', hlog, by rw [List.concat_eq_append]⟩

/-! ## 2. The open block -/

/-- The log ends in the open block `b`, after `a`. -/
structure Last (sep : α) (log a b : List α) : Prop where
  eq : log = a ++ sep :: b
  notMem : sep ∉ b

theorem Last.append {log a b events : List α} (h : Last sep log a b) (hnot : sep ∉ events) :
    Last sep (log ++ events) a (b ++ events) := by
  refine ⟨by rw [h.eq, List.append_assoc, List.cons_append], ?_⟩
  rw [List.mem_append, not_or]
  exact ⟨h.notMem, hnot⟩

theorem last_opened (log : List α) : Last sep (log ++ [sep]) log [] := ⟨rfl, List.not_mem_nil⟩

/-- What is left of a split inside an open block. -/
theorem suffix_of_split {t b b' : List α} (h : sep :: b = t ++ sep :: b') (hnot : sep ∉ b) :
    t = [] ∧ b = b' := by
  cases t with
  | nil => exact ⟨rfl, (List.cons.inj h).2⟩
  | cons x t =>
    have hb : b = t ++ sep :: b' := (List.cons.inj h).2
    refine absurd ?_ hnot
    rw [hb]
    exact List.mem_append_right _ List.mem_cons_self

theorem last_unique {log a a' b b' : List α} (h : Last sep log a b) (h' : Last sep log a' b') :
    a = a' ∧ b = b' := by
  have heq : a ++ sep :: b = a' ++ sep :: b' := h.eq.symm.trans h'.eq
  rcases List.append_eq_append_iff.mp heq with ⟨t, rfl, ht⟩ | ⟨t, rfl, ht⟩
  · obtain ⟨rfl, rfl⟩ := suffix_of_split ht h.notMem
    exact ⟨(List.append_nil a).symm, rfl⟩
  · obtain ⟨rfl, rfl⟩ := suffix_of_split ht h'.notMem
    exact ⟨List.append_nil a', rfl⟩

/-- An event that opens no block is the last of the open one. -/
theorem last_snoc_of_ne {log a b : List α} {x : α} (h : Last sep (log ++ [x]) a b) (hx : x ≠ sep) :
    ∃ b', b = b' ++ [x] ∧ Last sep log a b' := by
  rcases split_opened h.eq with ⟨hsep, -, -⟩ | ⟨b', hlog, rfl⟩
  · exact absurd hsep hx
  · have hnot := h.notMem
    rw [List.mem_append, not_or] at hnot
    exact ⟨b', rfl, hlog, hnot.1⟩

/-! ## 3. The closed blocks -/

/-- `P` holds of each closed block `b` and the log `a` before it. -/
def Each (sep : α) (P : List α → List α → Prop) (log : List α) : Prop :=
  ∀ a b c, log = a ++ sep :: b ++ sep :: c → sep ∉ b → P a b

theorem Each.of_append {log events : List α} (h : Each sep P (log ++ events)) : Each sep P log := by
  intro a b c heq hnot
  refine h a b (c ++ events) ?_ hnot
  rw [heq]
  simp

theorem Each.snoc_of_ne {log : List α} {x : α} (h : Each sep P log) (hx : x ≠ sep) :
    Each sep P (log ++ [x]) := by
  intro a b c heq hnot
  rcases split_opened heq with ⟨hsep, -, -⟩ | ⟨c', hlog, -⟩
  · exact absurd hsep hx
  · exact h a b c' hlog hnot

theorem Each.snoc {log : List α} (h : Each sep P log) (hlast : ∀ a b, Last sep log a b → P a b) :
    Each sep P (log ++ [sep]) := by
  intro a b c heq hnot
  rcases split_opened heq with ⟨-, hlog, -⟩ | ⟨c', hlog, -⟩
  · exact hlast a b ⟨hlog, hnot⟩
  · exact h a b c' hlog hnot

/-- The open block grows before it is closed. -/
theorem Each.extend {log : List α} {x : α} (h : Each sep P (log ++ [sep])) (hx : x ≠ sep)
    (hmono : ∀ a b, P a b → P a (b ++ [x])) : Each sep P (log ++ [x] ++ [sep]) := by
  refine (h.of_append.snoc_of_ne hx).snoc ?_
  intro a b hlast
  obtain ⟨b', rfl, hlast'⟩ := last_snoc_of_ne hlast hx
  refine hmono a b' (h a b' [] ?_ hlast'.notMem)
  rw [hlast'.eq]

theorem each_nil : Each sep P [] := by
  intro a b c heq _
  simp at heq

end Blocks
