import Mathlib.Data.List.Sort
import Mathlib.Data.List.Nodup
import Mathlib.Data.List.Pairwise

/-!
# Sorting by a key only

`ORDER BY` and a sort that need not be stable promise a permutation in order and
nothing about rows that are equal in that order. `OrderBy le` is any such sort.
A result that holds for every one of them depends on the keys alone.

Contents:
1. `exists_sort_eq`, `head?_sort`: what a sort makes of the rows.
2. `first`: the rows a `LIMIT` keeps, and which rows it leaves out.
3. `sort_eq_map`: two sorts agree when no two rows are equal in the order.
4. `sort_keepsGroups`, `groupsAscend_of_reversed`: every sort keeps the rows of
   each group in the order in which they came exactly when the groups ascend.
-/

variable {ρ ρ' γ : Type*}

/-- A sort that orders by `le` only. -/
structure OrderBy (le : ρ → ρ → Prop) where
  sort : List ρ → List ρ
  perm : ∀ rows, (sort rows).Perm rows
  sorted : ∀ rows, (sort rows).Pairwise le

namespace OrderBy

variable {le : ρ → ρ → Prop} {le' : ρ' → ρ' → Prop}

section Total

variable (le) [DecidableRel le] [Std.Total le] [IsTrans ρ le]

/-- Equal rows stay as they came. -/
def stable : OrderBy le where
  sort := List.insertionSort le
  perm := List.perm_insertionSort le
  sorted := List.pairwise_insertionSort le

/-- Equal rows are turned round. -/
def reversed : OrderBy le where
  sort rows := rows.reverse.insertionSort le
  perm rows := (List.perm_insertionSort le _).trans rows.reverse_perm
  sorted _ := List.pairwise_insertionSort le _

end Total

/-! ## 1. The sorted rows -/

theorem mem_sort (o : OrderBy le) {rows : List ρ} {r : ρ} : r ∈ o.sort rows ↔ r ∈ rows :=
  (o.perm rows).mem_iff

theorem length_sort (o : OrderBy le) (rows : List ρ) : (o.sort rows).length = rows.length :=
  (o.perm rows).length_eq

instance total_of_value (f : ρ → ℤ) : Std.Total fun a b : ρ => f a ≤ f b :=
  ⟨fun a b => Int.le_total (f a) (f b)⟩

instance trans_of_value (f : ρ → ℤ) : IsTrans ρ fun a b => f a ≤ f b :=
  ⟨fun _ _ _ => Int.le_trans⟩

/-- Any list of the rows in order is what some sort makes of them. -/
theorem exists_sort_eq (o : OrderBy le) {rows result : List ρ} (hperm : result.Perm rows)
    (hsorted : result.Pairwise le) : ∃ o' : OrderBy le, o'.sort rows = result := by
  classical
  refine ⟨⟨Function.update o.sort rows result, fun other => ?_, fun other => ?_⟩,
    Function.update_self ..⟩
  · by_cases h : other = rows
    · rw [h, Function.update_self]
      exact hperm
    · rw [Function.update_of_ne h]
      exact o.perm other
  · by_cases h : other = rows
    · rw [h, Function.update_self]
      exact hsorted
    · rw [Function.update_of_ne h]
      exact o.sorted other

/-- The first of the rows by a value has the least one, whatever the sort. -/
theorem head?_sort (f : ρ → ℤ) (o : OrderBy fun a b : ρ => f a ≤ f b) (rows : List ρ) :
    (o.sort rows).head?.map f = (rows.map f).min? := by
  have hperm := o.perm rows
  have hsorted := o.sorted rows
  cases hsort : o.sort rows with
  | nil =>
    rw [hsort] at hperm
    rw [hperm.nil_eq.symm]
    rfl
  | cons a rest =>
    rw [hsort] at hperm hsorted
    symm
    rw [List.head?_cons, Option.map_some, List.min?_eq_some_iff]
    refine ⟨List.mem_map_of_mem (hperm.mem_iff.mp List.mem_cons_self), fun n hn => ?_⟩
    obtain ⟨b, hb, rfl⟩ := List.mem_map.mp hn
    rcases List.mem_cons.mp (hperm.mem_iff.mpr hb) with rfl | hrest
    · exact Int.le_refl _
    · exact (List.pairwise_cons.mp hsorted).1 b hrest

/-! ## 2. A limit -/

/-- `ORDER BY … LIMIT n`. -/
def first (o : OrderBy le) (n : Nat) (rows : List ρ) : List ρ := (o.sort rows).take n

theorem sorted_first (o : OrderBy le) (n : Nat) (rows : List ρ) :
    (o.first n rows).Pairwise le :=
  (o.sorted rows).sublist (List.take_sublist _ _)

theorem length_first (o : OrderBy le) (n : Nat) (rows : List ρ) :
    (o.first n rows).length = min n rows.length := by
  rw [first, List.length_take, length_sort]

/-- A row that a limit leaves out comes before none that it keeps. -/
theorem le_of_left_out {o : OrderBy le} {n : Nat} {rows : List ρ} {r x : ρ} (hr : r ∈ rows)
    (hout : r ∉ o.first n rows) (hx : x ∈ o.first n rows) : le x r := by
  have hall : r ∈ (o.sort rows).take n ++ (o.sort rows).drop n := by
    rw [List.take_append_drop]
    exact o.mem_sort.mpr hr
  have hrest : r ∈ (o.sort rows).drop n := (List.mem_append.mp hall).resolve_left hout
  exact (o.sorted rows).rel_of_mem_take_of_mem_drop hx hrest

/-! ## 3. Two sorts -/

/-- No two rows are equal in the order. -/
def Distinct (le : ρ → ρ → Prop) (rows : List ρ) : Prop :=
  ∀ a ∈ rows, ∀ b ∈ rows, le a b → le b a → a = b

/-- A sort of the images is the image of a sort, whatever the two sorts do with
equal rows, when there are none. -/
theorem sort_eq_map {o : OrderBy le} {o' : OrderBy le'} {f : ρ → ρ'} {rows : List ρ}
    {rows' : List ρ'} (hperm : rows'.Perm (rows.map f))
    (hle : ∀ a ∈ rows, ∀ b ∈ rows, le a b → le' (f a) (f b)) (hdistinct : Distinct le' rows') :
    o'.sort rows' = (o.sort rows).map f := by
  have hsorted : ((o.sort rows).map f).Pairwise le' := by
    rw [List.pairwise_map]
    exact (o.sorted rows).imp_of_mem fun ha hb hab =>
      hle _ (o.mem_sort.mp ha) _ (o.mem_sort.mp hb) hab
  have himage : ((o.sort rows).map f).Perm rows' := ((o.perm rows).map f).trans hperm.symm
  refine List.Perm.eq_of_pairwise ?_ (o'.sorted rows') hsorted ((o'.perm rows').trans himage.symm)
  intro a b ha hb hab hba
  exact hdistinct a (o'.mem_sort.mp ha) b (himage.mem_iff.mp hb) hab hba

theorem first_eq_map {o : OrderBy le} {o' : OrderBy le'} {f : ρ → ρ'} {rows : List ρ}
    {rows' : List ρ'} (n : Nat) (hperm : rows'.Perm (rows.map f))
    (hle : ∀ a ∈ rows, ∀ b ∈ rows, le a b → le' (f a) (f b)) (hdistinct : Distinct le' rows') :
    o'.first n rows' = (o.first n rows).map f := by
  rw [first, first, sort_eq_map hperm hle hdistinct, List.map_take]

/-! ## 4. Groups -/

section Groups

variable {κ : Type*} [DecidableEq γ] {key : ρ → κ} {group : ρ → γ}

/-- `result` has the rows of each group in the order in which their keys arrived. -/
def KeepsGroups (key : ρ → κ) (group : ρ → γ) (arrived : List κ) (result : List ρ) : Prop :=
  ∀ g, ((result.filter fun r => group r = g).map key).Sublist arrived

theorem KeepsGroups.sublist {arrived : List κ} {result result' : List ρ}
    (h : KeepsGroups key group arrived result) (hsub : result'.Sublist result) :
    KeepsGroups key group arrived result' :=
  fun g => ((hsub.filter _).map key).trans (h g)

/-- Within a group, what came later is greater. -/
def GroupsAscend (le : ρ → ρ → Prop) (group : ρ → γ) (rows : List ρ) : Prop :=
  rows.Pairwise fun a b => group a = group b → ¬ le b a

/-- Rows that ascend are equal in the order only to themselves. -/
theorem distinct_of_ascending {rows : List ρ} (h : rows.Pairwise fun a b => ¬ le b a) :
    Distinct le rows := by
  intro a ha b hb hab hba
  by_contra hne
  have : Std.Symm fun a b : ρ => ¬ (le a b ∧ le b a) := ⟨fun _ _ hn hc => hn hc.symm⟩
  have hnot : rows.Pairwise fun a b : ρ => ¬ (le a b ∧ le b a) :=
    h.imp fun hba hboth => hba hboth.2
  exact hnot.forall ha hb hne ⟨hab, hba⟩

theorem GroupsAscend.filter {rows : List ρ} (h : GroupsAscend le group rows) (g : γ) :
    (rows.filter fun r => group r = g).Pairwise fun a b => ¬ le b a := by
  refine (List.Pairwise.filter _ h).imp_of_mem fun {a b} ha hb hab => ?_
  have hga : group a = g := by simpa using (List.mem_filter.mp ha).2
  have hgb : group b = g := by simpa using (List.mem_filter.mp hb).2
  exact hab (hga.trans hgb.symm)

/-- Every sort keeps the groups of rows that ascend. -/
theorem sort_keepsGroups [Std.Total le] (o : OrderBy le) {rows : List ρ} {arrived : List κ}
    (harrived : (rows.map key).Sublist arrived) (h : GroupsAscend le group rows) :
    KeepsGroups key group arrived (o.sort rows) := by
  intro g
  have hperm : ((o.sort rows).filter fun r => group r = g).Perm
      (rows.filter fun r => group r = g) := (o.perm rows).filter _
  have hle : (rows.filter fun r => group r = g).Pairwise le :=
    (h.filter g).imp fun hba => (Std.Total.total _ _).resolve_right hba
  have heq : (o.sort rows).filter (fun r => group r = g) = rows.filter fun r => group r = g := by
    refine List.Perm.eq_of_pairwise ?_ (List.Pairwise.filter _ (o.sorted rows)) hle hperm
    intro a b ha hb hab hba
    exact distinct_of_ascending (h.filter g) a (hperm.mem_iff.mp ha) b hb hab hba
  rw [heq]
  exact (List.filter_sublist.map key).trans harrived

/-- Two elements of a list without duplicates stand in one order only. -/
theorem not_both_sublists {arrived : List κ} {a b : κ} (hnodup : arrived.Nodup)
    (hab : [a, b].Sublist arrived) : ¬ [b, a].Sublist arrived := by
  induction arrived with
  | nil => cases hab
  | cons x arrived ih =>
    obtain ⟨hx, hnodup⟩ := List.nodup_cons.mp hnodup
    intro hba
    cases hab with
    | cons _ hab =>
      cases hba with
      | cons _ hba => exact ih hnodup hab hba
      | cons_cons _ hba => exact hx (hab.subset (by simp))
    | cons_cons _ hab =>
      cases hba with
      | cons _ hba => exact hx (hba.subset (by simp))
      | cons_cons _ hba => exact hx (hab.subset (by simp))

/-- A sort that turns equal rows round shows every group that does not ascend. -/
theorem groupsAscend_of_reversed [DecidableRel le] [Std.Total le] [IsTrans ρ le] {rows : List ρ}
    (hnodup : (rows.map key).Nodup)
    (h : KeepsGroups key group (rows.map key) ((reversed le).sort rows)) :
    GroupsAscend le group rows := by
  rw [GroupsAscend, List.pairwise_iff_forall_sublist]
  intro a b hab hgroup hba
  have hrev : [b, a].Sublist rows.reverse := by simpa using List.reverse_sublist.mpr hab
  have hsorted : [b, a].Sublist ((reversed le).sort rows) :=
    List.sublist_insertionSort (by simpa using hba) hrev
  have hfilter : [b, a].Sublist (((reversed le).sort rows).filter fun r => group r = group b) := by
    simpa [hgroup] using hsorted.filter fun r => group r = group b
  exact not_both_sublists hnodup (hab.map key) ((hfilter.map key).trans (h _))

end Groups

end OrderBy
