import SyncProvider.Lib.KeyedTable
import SyncProvider.Lib.OrderBy
import Mathlib.Data.List.Forall2
import Mathlib.Data.List.Perm.Basic
import Mathlib.Data.Option.Basic

/-!
# One table stored as another

The rows of a table are stored as rows of another type, one by one and in the same order.
`R a b` says that `a` is how `b` is stored, and `code` is how keys are stored. A statement on
the stored rows then does what the statement on the rows does, when its condition and its
change agree on any two related rows.

A sort of the stored rows may do what it likes with rows that are equal in its order. What
it does some sort of the rows does as well, so the two runs are related by what their sorts
do.

Results:
1. `OrderBy.exists_related` : a sort of the rows that does what a sort of the stored rows does.
2. `updateWhere`, `deleteWhere`, `insert`, `insertAll` : the statements that write.
3. `countWhere_eq`, `minWhere_eq`, `find?` : the statements that read.
4. `exists_runStatements_related` : statements one after the other.
-/

variable {α β κ κ' : Type*}

namespace Option.Rel

variable {γ δ : Type*} {R : α → β → Prop} {S : γ → δ → Prop} {x : Option α} {y : Option β}

theorem bind {f : α → Option γ} {g : β → Option δ} (h : Option.Rel R x y)
    (hfg : ∀ a b, R a b → Option.Rel S (f a) (g b)) : Option.Rel S (x.bind f) (y.bind g) := by
  cases h with
  | none => exact .none
  | some h => exact hfg _ _ h

end Option.Rel

namespace List.Forall₂

variable {R : α → β → Prop} {l : List α} {m : List β}

theorem filter {p : α → Bool} {q : β → Bool} (h : Forall₂ R l m)
    (hpq : ∀ a b, R a b → p a = q b) : Forall₂ R (l.filter p) (m.filter q) :=
  rel_filter (fun a b hab => Bool.eq_iff_iff.mp (hpq a b hab)) h

theorem map_eq {γ : Type*} {f : α → γ} {g : β → γ} (h : Forall₂ R l m)
    (hfg : ∀ a b, R a b → f a = g b) : l.map f = m.map g := by
  have hmap : Forall₂ Eq (l.map f) (m.map g) := rel_map hfg h
  rwa [forall₂_eq_eq_eq] at hmap

/-- Rows in order are stored as rows in order. -/
theorem pairwise {le : α → α → Prop} {le' : β → β → Prop} (h : Forall₂ R l m)
    (hle : ∀ a b a' b', R a b → R a' b' → le a a' → le' b b') (hl : l.Pairwise le) :
    m.Pairwise le' := by
  obtain ⟨hlength, hpairs⟩ := forall₂_iff_zip.mp h
  rw [← map_fst_zip hlength.le, pairwise_map] at hl
  rw [← map_snd_zip hlength.ge, pairwise_map]
  exact hl.imp_of_mem fun hp hq => hle _ _ _ _ (hpairs hp) (hpairs hq)

theorem find? {p : α → Bool} {q : β → Bool} (h : Forall₂ R l m)
    (hpq : ∀ a b, R a b → p a = q b) : Option.Rel R (l.find? p) (m.find? q) := by
  induction h with
  | nil => exact .none
  | @cons a b l m hab _ ih =>
    rw [find?_cons, find?_cons, hpq a b hab]
    split
    · exact .some hab
    · exact ih

theorem any_eq {p : α → Bool} {q : β → Bool} (h : Forall₂ R l m)
    (hpq : ∀ a b, R a b → p a = q b) : l.any p = m.any q := by
  induction h with
  | nil => rfl
  | cons hab _ ih => rw [any_cons, any_cons, hpq _ _ hab, ih]

/-- Rows that are read one by one, none of which fails. -/
theorem mapM {γ : Type*} {S : γ → β → Prop} {f : α → Option γ} (h : Forall₂ R l m)
    (hf : ∀ a b, R a b → ∃ c, f a = some c ∧ S c b) :
    ∃ cs, l.mapM f = some cs ∧ Forall₂ S cs m := by
  induction h with
  | nil => exact ⟨[], rfl, .nil⟩
  | @cons a b l m hab _ ih =>
    obtain ⟨c, hc, hcb⟩ := hf a b hab
    obtain ⟨cs, hcs, hall⟩ := ih
    exact ⟨c :: cs, by rw [mapM_cons, hc, hcs]; rfl, .cons hcb hall⟩

end List.Forall₂

/-! ## 1. Sorts -/

namespace OrderBy

/-- Whatever a sort does with rows that are equal in its order, some sort of the rows that
they store does with these. -/
theorem exists_related {R : α → β → Prop} {le : α → α → Prop} {le' : β → β → Prop}
    [DecidableRel le'] [Std.Total le'] [IsTrans β le'] (o : OrderBy le) {l : List α} {m : List β}
    (h : List.Forall₂ R l m) (hle : ∀ a b a' b', R a b → R a' b' → le a a' → le' b b') :
    ∃ o' : OrderBy le', List.Forall₂ R (o.sort l) (o'.sort m) := by
  obtain ⟨m', hm', hperm⟩ := List.perm_comp_forall₂ (o.perm l) h
  obtain ⟨o', ho'⟩ := (stable le').exists_sort_eq hperm (hm'.pairwise hle (o.sorted l))
  exact ⟨o', ho' ▸ hm'⟩

end OrderBy

/-! ## 2. Tables -/

namespace KeyedTable

variable {key : α → κ} {key' : β → κ'} {code : κ' → κ} {R : α → β → Prop}

/-- The table `t` is how `u` is stored. -/
def Stores (R : α → β → Prop) (t : KeyedTable key) (u : KeyedTable key') : Prop :=
  List.Forall₂ R t.rows u.rows

namespace Stores

variable {t : KeyedTable key} {u : KeyedTable key'}

theorem empty : Stores R (KeyedTable.empty : KeyedTable key) (KeyedTable.empty : KeyedTable key') :=
  List.Forall₂.nil

theorem keys_eq (hkey : ∀ a b, R a b → key a = code (key' b)) (h : Stores R t u) :
    t.keys = u.keys.map code := by
  rw [keys, keys, List.map_map]
  exact h.map_eq hkey

theorem updateWhere {p : α → Bool} {q : β → Bool} {f : α → α} {g : β → β}
    {hf : ∀ a, key (f a) = key a} {hg : ∀ b, key' (g b) = key' b} (h : Stores R t u)
    (hpq : ∀ a b, R a b → p a = q b) (hfg : ∀ a b, R a b → R (f a) (g b)) :
    Stores R (t.updateWhere p f hf) (u.updateWhere q g hg) := by
  refine List.rel_map (fun a b hab => ?_) h
  rw [hpq a b hab]
  split
  · exact hfg a b hab
  · exact hab

theorem deleteWhere {p : α → Bool} {q : β → Bool} (h : Stores R t u)
    (hpq : ∀ a b, R a b → p a = q b) : Stores R (t.deleteWhere p) (u.deleteWhere q) :=
  h.filter fun a b hab => by rw [hpq a b hab]

theorem countWhere_eq {p : α → Bool} {q : β → Bool} (h : Stores R t u)
    (hpq : ∀ a b, R a b → p a = q b) : t.countWhere p = u.countWhere q := by
  rw [countWhere, countWhere, List.countP_eq_length_filter, List.countP_eq_length_filter,
    (h.filter hpq).length_eq]

theorem minWhere_eq {γ : Type*} [Min γ] {p : α → Bool} {q : β → Bool} {f : α → γ} {g : β → γ}
    (h : Stores R t u) (hpq : ∀ a b, R a b → p a = q b) (hfg : ∀ a b, R a b → f a = g b) :
    t.minWhere p f = u.minWhere q g := by
  unfold minWhere
  rw [(h.filter hpq).map_eq hfg]

section Keyed

variable [DecidableEq κ] [DecidableEq κ']

theorem find? (hcode : Function.Injective code) (hkey : ∀ a b, R a b → key a = code (key' b))
    (h : Stores R t u) (k : κ') : Option.Rel R (t.find? (code k)) (u.find? k) :=
  List.Forall₂.find? h fun a b hab => by simp [hkey a b hab, hcode.eq_iff]

theorem insert (hcode : Function.Injective code) (hkey : ∀ a b, R a b → key a = code (key' b))
    (h : Stores R t u) {a : α} {b : β} (hab : R a b) :
    Option.Rel (Stores R) (t.insert a) (u.insert b) := by
  have hmem : key a ∈ t.keys ↔ key' b ∈ u.keys := by
    rw [hkey a b hab, h.keys_eq hkey, List.mem_map_of_injective hcode]
  unfold KeyedTable.insert
  by_cases hb : key' b ∈ u.keys
  · rw [dif_pos hb, dif_pos (hmem.mpr hb)]
    exact .none
  · rw [dif_neg hb, dif_neg (mt hmem.mp hb)]
    exact .some (List.rel_append h (.cons hab .nil))

theorem insertAll (hcode : Function.Injective code)
    (hkey : ∀ a b, R a b → key a = code (key' b)) (h : Stores R t u) {as : List α} {bs : List β}
    (hab : List.Forall₂ R as bs) :
    Option.Rel (Stores R) (t.insertAll as) (u.insertAll bs) := by
  induction hab generalizing t u with
  | nil => exact .some h
  | cons hab _ ih => exact (h.insert hcode hkey hab).bind fun _ _ h => ih h

end Keyed

end Stores

end KeyedTable

/-! ## 3. Runs of statements -/

/-- What a statement comes back with, for rows of type `ρ`. -/
inductive TableAnswer (ρ : Type*) where
  /-- It threw, and changed nothing. -/
  | thrown
  | done
  | number (n : ℤ)
  | flag (b : Bool)
  | time (at? : Option ℤ)
  | rows (rows : List ρ)
  | row (row : Option ρ)

/-- The answers differ in their rows only, and these are related. -/
inductive TableAnswer.Rel (R : α → β → Prop) : TableAnswer α → TableAnswer β → Prop where
  | thrown : Rel R .thrown .thrown
  | done : Rel R .done .done
  | number (n : ℤ) : Rel R (.number n) (.number n)
  | flag (b : Bool) : Rel R (.flag b) (.flag b)
  | time (at? : Option ℤ) : Rel R (.time at?) (.time at?)
  | rows {as : List α} {bs : List β} (h : List.Forall₂ R as bs) : Rel R (.rows as) (.rows bs)
  | row {a : Option α} {b : Option β} (h : Option.Rel R a b) : Rel R (.row a) (.row b)

theorem TableAnswer.Rel.mono {R S : α → β → Prop} (hRS : ∀ a b, R a b → S a b)
    {x : TableAnswer α} {y : TableAnswer β} (h : TableAnswer.Rel R x y) :
    TableAnswer.Rel S x y := by
  cases h with
  | thrown => exact .thrown
  | done => exact .done
  | number n => exact .number n
  | flag b => exact .flag b
  | time at? => exact .time at?
  | rows h => exact .rows (h.imp hRS)
  | row h =>
    cases h with
    | none => exact .row .none
    | some h => exact .row (.some (hRS _ _ h))

/-- The table after an insert, or the one before it. -/
def inserted {τ ρ : Type*} (t : τ) : Option τ → τ × TableAnswer ρ
  | some t' => (t', .done)
  | none => (t, .thrown)

/-- An insert on both sides, or on neither. -/
theorem inserted_related {τ υ : Type*} {I : τ → υ → Prop} {R : α → β → Prop} {t : τ} {u : υ}
    (h : I t u) {t' : Option τ} {u' : Option υ} (h' : Option.Rel I t' u') :
    I (inserted (ρ := α) t t').1 (inserted (ρ := β) u u').1 ∧
      TableAnswer.Rel R (inserted t t').2 (inserted u u').2 := by
  cases h' with
  | none => exact ⟨h, .thrown⟩
  | some h' => exact ⟨h', .done⟩

section Runs

variable {τ υ σ : Type*}

/-- Statements one after the other, with their answers. -/
def runStatements (run : τ → σ → τ × TableAnswer α) : τ → List σ → τ × List (TableAnswer α)
  | t, [] => (t, [])
  | t, s :: statements =>
    let rest := runStatements run (run t s).1 statements
    (rest.1, (run t s).2 :: rest.2)

/-- For each statement on the stored rows one on the rows that does the same and answers
alike: then there are such statements for a whole run. -/
theorem exists_runStatements_related {σ' : Type*} {P : σ → σ' → Prop} {I : τ → υ → Prop}
    {R : α → β → Prop} {run : τ → σ → τ × TableAnswer α} {run' : υ → σ' → υ × TableAnswer β}
    (hstep : ∀ t u s, I t u → ∃ s', P s s' ∧ I (run t s).1 (run' u s').1 ∧
      TableAnswer.Rel R (run t s).2 (run' u s').2)
    {t : τ} {u : υ} (h : I t u) (statements : List σ) :
    ∃ statements', List.Forall₂ P statements statements' ∧
      I (runStatements run t statements).1 (runStatements run' u statements').1 ∧
      List.Forall₂ (TableAnswer.Rel R) (runStatements run t statements).2
        (runStatements run' u statements').2 := by
  induction statements generalizing t u with
  | nil => exact ⟨[], .nil, h, .nil⟩
  | cons s statements ih =>
    obtain ⟨s', hs', hnext, hanswer⟩ := hstep t u s h
    obtain ⟨statements', hstatements, hlast, hanswers⟩ := ih hnext
    exact ⟨s' :: statements', .cons hs' hstatements, hlast, .cons hanswer hanswers⟩

end Runs
