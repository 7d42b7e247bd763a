import Mathlib.Data.List.Perm.Basic
import Mathlib.Data.List.Nodup

/-!
# Fields whose names are compared up to a normal form

A list of named values. To set a field removes every value under the same name
and adds the new one behind the others. Two names are the same when `norm` makes
them so, as header names are that differ in their case only.

Contents:
1. `value_setAll`: after any writes, a field has the value of the last write to
   it, and the value from before when there was none.
2. `nodup_setAll`: no name occurs twice.
3. `value_perm_iff`, `value_layers_perm_iff`: when the order of the writes makes
   no difference.
-/

namespace Fields

variable {κ μ ν : Type*} [DecidableEq μ] (norm : κ → μ)

/-- Set one field. -/
def set (fields : List (κ × ν)) (write : κ × ν) : List (κ × ν) :=
  fields.filter (fun f => norm f.1 != norm write.1) ++ [write]

def setAll (fields writes : List (κ × ν)) : List (κ × ν) := writes.foldl (set norm) fields

/-- The value of a field. -/
def value (fields : List (κ × ν)) (name : κ) : Option ν :=
  (fields.find? fun f => norm f.1 == norm name).map (·.2)

/-- The value of the last write to a field. -/
def lastWrite (writes : List (κ × ν)) (name : κ) : Option ν := value norm writes.reverse name

variable {norm}

@[simp] theorem value_nil (name : κ) : value norm ([] : List (κ × ν)) name = none := rfl

theorem value_append (fields fields' : List (κ × ν)) (name : κ) :
    value norm (fields ++ fields') name =
      (value norm fields name).or (value norm fields' name) := by
  unfold value
  rw [List.find?_append]
  cases List.find? (fun f => norm f.1 == norm name) fields <;> rfl

theorem value_singleton (write : κ × ν) (name : κ) :
    value norm [write] name = if norm write.1 = norm name then some write.2 else none := by
  by_cases h : norm write.1 = norm name <;> simp [value, h]

theorem value_eq_none_iff {fields : List (κ × ν)} {name : κ} :
    value norm fields name = none ↔ ∀ f ∈ fields, norm f.1 ≠ norm name := by
  simp [value]

theorem mem_of_value {fields : List (κ × ν)} {name : κ} {v : ν}
    (h : value norm fields name = some v) : ∃ f ∈ fields, norm f.1 = norm name ∧ f.2 = v := by
  obtain ⟨f, hf, rfl⟩ := Option.map_eq_some_iff.mp h
  exact ⟨f, List.mem_of_find?_eq_some hf, by simpa using List.find?_some hf, rfl⟩

/-! ## 1. The value of a field -/

theorem value_filter_of_ne {fields : List (κ × ν)} {name name' : κ} (h : norm name' ≠ norm name) :
    value norm (fields.filter fun f => norm f.1 != norm name') name = value norm fields name := by
  induction fields with
  | nil => rfl
  | cons f fields ih =>
    by_cases hf : norm f.1 = norm name'
    · -- the field that goes is not the one asked for
      have hne : (norm f.1 == norm name) = false := by rw [hf]; exact beq_eq_false_iff_ne.mpr h
      rw [List.filter_cons_of_neg (by simp [hf]), ih]
      simp only [value, List.find?_cons, hne]
    · rw [List.filter_cons_of_pos (by simp [hf])]
      simp only [value] at ih ⊢
      simp only [List.find?_cons]
      split
      · rfl
      · exact ih

theorem value_set (fields : List (κ × ν)) (write : κ × ν) (name : κ) :
    value norm (set norm fields write) name =
      if norm write.1 = norm name then some write.2 else value norm fields name := by
  rw [set, value_append, value_singleton]
  by_cases h : norm write.1 = norm name
  · have hgone : value norm (fields.filter fun f => norm f.1 != norm write.1) name = none := by
      refine value_eq_none_iff.mpr fun f hf => ?_
      rw [← h]
      simpa using (List.mem_filter.mp hf).2
    rw [hgone, if_pos h, if_pos h, Option.none_or]
  · rw [value_filter_of_ne h, if_neg h, if_neg h, Option.or_none]

theorem value_setAll (fields writes : List (κ × ν)) (name : κ) :
    value norm (setAll norm fields writes) name =
      (lastWrite norm writes name).or (value norm fields name) := by
  induction writes generalizing fields with
  | nil => rfl
  | cons write writes ih =>
    change value norm (setAll norm (set norm fields write) writes) name = _
    rw [ih, value_set, lastWrite, lastWrite, List.reverse_cons, value_append, value_singleton,
      Option.or_assoc]
    split <;> rfl

theorem lastWrite_eq_none_iff {writes : List (κ × ν)} {name : κ} :
    lastWrite norm writes name = none ↔ ∀ f ∈ writes, norm f.1 ≠ norm name := by
  rw [lastWrite, value_eq_none_iff]
  simp

theorem mem_of_lastWrite {writes : List (κ × ν)} {name : κ} {v : ν}
    (h : lastWrite norm writes name = some v) :
    ∃ f ∈ writes, norm f.1 = norm name ∧ f.2 = v := by
  obtain ⟨f, hf, hname, hv⟩ := mem_of_value h
  exact ⟨f, List.mem_reverse.mp hf, hname, hv⟩

/-- The last write of all decides. -/
theorem lastWrite_append_singleton (writes : List (κ × ν)) (write : κ × ν) {name : κ}
    (h : norm write.1 = norm name) : lastWrite norm (writes ++ [write]) name = some write.2 := by
  simp [lastWrite, value, h]

/-! ## 2. One value a name -/

theorem nodup_set {fields : List (κ × ν)} (h : (fields.map fun f => norm f.1).Nodup)
    (write : κ × ν) : ((set norm fields write).map fun f => norm f.1).Nodup := by
  rw [set, List.map_append, List.map_singleton]
  refine List.Nodup.append (h.sublist (List.filter_sublist.map _)) (List.nodup_singleton _) ?_
  intro k hk hwrite
  obtain ⟨f, hf, rfl⟩ := List.mem_map.mp hk
  have hne := (List.mem_filter.mp hf).2
  rw [List.mem_singleton.mp hwrite] at hne
  simp at hne

theorem nodup_setAll {fields : List (κ × ν)} (h : (fields.map fun f => norm f.1).Nodup)
    (writes : List (κ × ν)) : ((setAll norm fields writes).map fun f => norm f.1).Nodup := by
  induction writes generalizing fields with
  | nil => exact h
  | cons write writes ih => exact ih (nodup_set h write)

/-! ## 3. The order of the writes -/

/-- The writes to this field all write one value. -/
def Agree (norm : κ → μ) (writes : List (κ × ν)) (name : κ) : Prop :=
  ∀ f ∈ writes, ∀ g ∈ writes, norm f.1 = norm name → norm g.1 = norm name → f.2 = g.2

/-- Some order of the writes has any one of them as its last. -/
theorem exists_perm_last {writes : List (κ × ν)} {f : κ × ν} (hf : f ∈ writes) :
    ∃ writes', (writes' ++ [f]).Perm writes := by
  obtain ⟨before, after, rfl⟩ := List.append_of_mem hf
  refine ⟨before ++ after, ?_⟩
  rw [List.append_assoc]
  exact (List.perm_append_singleton f after).append_left before

theorem value_perm_iff {writes : List (κ × ν)} {name : κ} :
    (∀ writes' : List (κ × ν), writes'.Perm writes →
      lastWrite norm writes' name = lastWrite norm writes name) ↔ Agree norm writes name := by
  constructor
  · intro h f hf g hg hfn hgn
    obtain ⟨fs, hfs⟩ := exists_perm_last hf
    obtain ⟨gs, hgs⟩ := exists_perm_last hg
    have := (h _ hfs).trans (h _ hgs).symm
    rw [lastWrite_append_singleton fs f hfn, lastWrite_append_singleton gs g hgn] at this
    exact Option.some.inj this
  · intro h writes' hperm
    cases hv : lastWrite norm writes name with
    | none =>
      rw [lastWrite_eq_none_iff] at hv ⊢
      exact fun f hf => hv f (hperm.mem_iff.mp hf)
    | some v =>
      obtain ⟨f, hf, hfn, rfl⟩ := mem_of_lastWrite hv
      cases hv' : lastWrite norm writes' name with
      | none => exact absurd hfn (lastWrite_eq_none_iff.mp hv' f (hperm.mem_iff.mpr hf))
      | some v' =>
        obtain ⟨g, hg, hgn, rfl⟩ := mem_of_lastWrite hv'
        rw [h g (hperm.mem_iff.mp hg) f hf hgn hfn]

/-- Two layers of writes, the upper one over the lower one: the order within the
layers makes no difference to a field exactly when the upper layer agrees on it
and, where it leaves the field alone, the lower one does. -/
theorem value_layers_perm_iff {lower upper : List (κ × ν)} {name : κ} :
    (∀ lower' upper' : List (κ × ν), lower'.Perm lower → upper'.Perm upper →
      (lastWrite norm upper' name).or (lastWrite norm lower' name) =
        (lastWrite norm upper name).or (lastWrite norm lower name)) ↔
      Agree norm upper name ∧ ((∀ f ∈ upper, norm f.1 ≠ norm name) → Agree norm lower name) := by
  constructor
  · intro h
    refine ⟨value_perm_iff.mp fun upper' hupper => ?_, fun hnone => value_perm_iff.mp
      fun lower' hlower => ?_⟩
    · have := h lower upper' (List.Perm.refl _) hupper
      cases hv : lastWrite norm upper name with
      | none =>
        rw [lastWrite_eq_none_iff] at hv ⊢
        exact fun f hf => hv f (hupper.mem_iff.mp hf)
      | some v =>
        obtain ⟨f, hf, hfn, rfl⟩ := mem_of_lastWrite hv
        cases hv' : lastWrite norm upper' name with
        | none => exact absurd hfn (lastWrite_eq_none_iff.mp hv' f (hupper.mem_iff.mpr hf))
        | some v' => rwa [hv, hv', Option.some_or, Option.some_or] at this
    · have := h lower' upper hlower (List.Perm.refl _)
      rwa [lastWrite_eq_none_iff.mpr hnone, Option.none_or, Option.none_or] at this
  · rintro ⟨hupper, hlower⟩ lower' upper' hl hu
    rw [value_perm_iff.mpr hupper upper' hu]
    cases hv : lastWrite norm upper name with
    | some v => rfl
    | none =>
      rw [Option.none_or, Option.none_or]
      exact value_perm_iff.mpr (hlower (lastWrite_eq_none_iff.mp hv)) lower' hl

end Fields
