import Mathlib.Data.List.Nodup

/-!
# Tables with a primary key

A table is a list of rows whose keys are pairwise distinct. The distinctness
is a field, so no operation can produce two rows with one key, and no later
proof has to establish it again. Operations are the statements a store runs:
insert with abort on conflict, update where, delete where, select by key.

The rows keep their insertion order. A statement with an `ORDER BY` sorts them.
-/

/-- Rows of type `ρ` whose keys `key r` are pairwise distinct. -/
@[ext] structure KeyedTable {ρ κ : Type*} (key : ρ → κ) where
  rows : List ρ
  nodup : (rows.map key).Nodup

namespace KeyedTable

variable {ρ κ : Type*} {key : ρ → κ}

/-- The keys of the rows, in row order. -/
def keys (t : KeyedTable key) : List κ := t.rows.map key

/-- The table without rows. -/
def empty : KeyedTable key := ⟨[], List.nodup_nil⟩

@[simp] theorem rows_empty : (empty : KeyedTable key).rows = [] := rfl

theorem mem_keys {t : KeyedTable key} {k : κ} : k ∈ t.keys ↔ ∃ r ∈ t.rows, key r = k :=
  List.mem_map

theorem key_mem_keys {t : KeyedTable key} {r : ρ} (h : r ∈ t.rows) : key r ∈ t.keys :=
  List.mem_map_of_mem h

/-- Two rows with one key are the same row. -/
theorem eq_of_key_eq {t : KeyedTable key} {r r' : ρ} (h : r ∈ t.rows) (h' : r' ∈ t.rows)
    (hk : key r = key r') : r = r' :=
  List.inj_on_of_nodup_map t.nodup h h' hk

/-! ## Update -/

/-- `UPDATE … SET f WHERE p`, for an `f` that does not touch the key. -/
def updateWhere (p : ρ → Bool) (f : ρ → ρ) (hf : ∀ r, key (f r) = key r) (t : KeyedTable key) :
    KeyedTable key where
  rows := t.rows.map fun r => if p r then f r else r
  nodup := by
    have hkey : (key ∘ fun r => if p r then f r else r) = key := by
      funext r
      by_cases hp : p r
      · simp [hp, hf]
      · simp [hp]
    rw [List.map_map, hkey]
    exact t.nodup

theorem rows_updateWhere (p : ρ → Bool) (f : ρ → ρ) (hf : ∀ r, key (f r) = key r)
    (t : KeyedTable key) :
    (t.updateWhere p f hf).rows = t.rows.map fun r => if p r then f r else r := rfl

theorem mem_updateWhere {p : ρ → Bool} {f : ρ → ρ} {hf : ∀ r, key (f r) = key r}
    {t : KeyedTable key} {r : ρ} :
    r ∈ (t.updateWhere p f hf).rows ↔ ∃ r₀ ∈ t.rows, (if p r₀ then f r₀ else r₀) = r := by
  rw [rows_updateWhere, List.mem_map]

/-- An update leaves alone what its function does not touch. -/
theorem map_rows_updateWhere {α : Type*} {g : ρ → α} {p : ρ → Bool} {f : ρ → ρ}
    {hf : ∀ r, key (f r) = key r} (hg : ∀ r, g (f r) = g r) (t : KeyedTable key) :
    (t.updateWhere p f hf).rows.map g = t.rows.map g := by
  rw [rows_updateWhere, List.map_map]
  refine List.map_congr_left fun r _ => ?_
  by_cases hp : p r
  · simp [hp, hg]
  · simp [hp]

@[simp] theorem keys_updateWhere (p : ρ → Bool) (f : ρ → ρ) (hf : ∀ r, key (f r) = key r)
    (t : KeyedTable key) : (t.updateWhere p f hf).keys = t.keys :=
  map_rows_updateWhere hf t

/-- The number of rows an update or a delete with the condition `p` touches. -/
def countWhere (p : ρ → Bool) (t : KeyedTable key) : Nat := t.rows.countP p

/-! ## Delete -/

/-- `DELETE … WHERE p`. -/
def deleteWhere (p : ρ → Bool) (t : KeyedTable key) : KeyedTable key where
  rows := t.rows.filter fun r => !p r
  nodup := t.nodup.sublist (List.filter_sublist.map key)

@[simp] theorem mem_deleteWhere {p : ρ → Bool} {t : KeyedTable key} {r : ρ} :
    r ∈ (t.deleteWhere p).rows ↔ r ∈ t.rows ∧ p r = false := by
  simp [deleteWhere]

theorem keys_deleteWhere_subset (p : ρ → Bool) (t : KeyedTable key) :
    (t.deleteWhere p).keys ⊆ t.keys := by
  intro k hk
  obtain ⟨r, hr, rfl⟩ := mem_keys.mp hk
  exact key_mem_keys (mem_deleteWhere.mp hr).1

/-- An update does not keep its rows from being deleted. -/
theorem deleteWhere_updateWhere {p : ρ → Bool} {f : ρ → ρ} {hf : ∀ r, key (f r) = key r}
    (hp : ∀ r, p (f r) = p r) (t : KeyedTable key) :
    (t.updateWhere p f hf).deleteWhere p = t.deleteWhere p := by
  ext1
  show ((t.rows.map fun r => if p r then f r else r).filter fun r => !p r) =
    t.rows.filter fun r => !p r
  induction t.rows with
  | nil => rfl
  | cons r rows ih =>
    cases hr : p r with
    | true => simp [hr, hp, ih]
    | false => simp [hr, ih]

/-! ## Insert and select -/

section Keyed

variable [DecidableEq κ]

/-- `INSERT` with abort on conflict: `none` when the key is taken. -/
def insert (r : ρ) (t : KeyedTable key) : Option (KeyedTable key) :=
  if h : key r ∈ t.keys then none
  else some
    { rows := t.rows ++ [r]
      nodup := by
        rw [List.map_append, List.map_singleton]
        exact List.nodup_append.mpr ⟨t.nodup, List.nodup_singleton _,
          fun k hk k' hk' hkk => h (List.mem_singleton.mp hk' ▸ hkk ▸ hk)⟩ }

/-- Insert every row or none of them. -/
def insertAll : List ρ → KeyedTable key → Option (KeyedTable key)
  | [], t => some t
  | r :: rs, t => (t.insert r).bind (insertAll rs)

theorem rows_insert {r : ρ} {t t' : KeyedTable key} (h : t.insert r = some t') :
    t'.rows = t.rows ++ [r] := by
  unfold insert at h
  split at h
  · cases h
  · cases h
    rfl

theorem rows_insertAll {rs : List ρ} {t t' : KeyedTable key} (h : t.insertAll rs = some t') :
    t'.rows = t.rows ++ rs := by
  induction rs generalizing t with
  | nil =>
    cases h
    simp
  | cons r rs ih =>
    obtain ⟨m, hm, hrest⟩ := Option.bind_eq_some_iff.mp h
    rw [ih hrest, rows_insert hm, List.append_assoc, List.singleton_append]

theorem keys_insertAll {rs : List ρ} {t t' : KeyedTable key} (h : t.insertAll rs = some t') :
    t'.keys = t.keys ++ rs.map key := by
  unfold keys
  rw [rows_insertAll h, List.map_append]

/-- Rows whose keys are new and pairwise distinct can be inserted. -/
theorem exists_insertAll {rs : List ρ} {t : KeyedTable key} (h : (t.keys ++ rs.map key).Nodup) :
    ∃ t', t.insertAll rs = some t' := by
  induction rs generalizing t with
  | nil => exact ⟨t, rfl⟩
  | cons r rs ih =>
    have hnew : key r ∉ t.keys := fun hr =>
      (List.nodup_append.mp h).2.2 _ hr _ (List.mem_map_of_mem List.mem_cons_self) rfl
    obtain ⟨m, hm⟩ : ∃ m, t.insert r = some m := by
      simp only [insert, dif_neg hnew]
      exact ⟨_, rfl⟩
    have hkeys : m.keys = t.keys ++ [key r] := by
      rw [keys, rows_insert hm, List.map_append]
      rfl
    obtain ⟨t', ht'⟩ := ih (t := m) (by simpa [hkeys] using h)
    exact ⟨t', Option.bind_eq_some_iff.mpr ⟨m, hm, ht'⟩⟩

/-- `SELECT … WHERE key = k LIMIT 1`. -/
def find? (k : κ) (t : KeyedTable key) : Option ρ := t.rows.find? fun r => key r = k

theorem find?_eq_some {k : κ} {t : KeyedTable key} {r : ρ} :
    t.find? k = some r ↔ r ∈ t.rows ∧ key r = k := by
  constructor
  · intro h
    exact ⟨List.mem_of_find?_eq_some h, by simpa using List.find?_some h⟩
  · rintro ⟨hr, hk⟩
    cases hf : t.find? k with
    | none => exact absurd hk (by simpa using List.find?_eq_none.mp hf r hr)
    | some r' =>
      have hr' : r' ∈ t.rows := List.mem_of_find?_eq_some hf
      have hk' : key r' = k := by simpa using List.find?_some hf
      rw [eq_of_key_eq hr' hr (hk'.trans hk.symm)]

theorem find?_eq_none {k : κ} {t : KeyedTable key} : t.find? k = none ↔ k ∉ t.keys := by
  rw [mem_keys]
  simp [find?]

end Keyed

/-! ## Aggregates -/

/-- `SELECT MIN(f) WHERE p`: `none` when no row qualifies. -/
def minWhere {α : Type*} [Min α] (p : ρ → Bool) (f : ρ → α) (t : KeyedTable key) : Option α :=
  ((t.rows.filter p).map f).min?

theorem exists_minWhere_le {α : Type*} [Min α] [LE α] [Std.IsLinearOrder α]
    [Std.LawfulOrderMin α] {p : ρ → Bool} {f : ρ → α} {t : KeyedTable key} {r : ρ}
    (hr : r ∈ t.rows) (hp : p r = true) : ∃ m, t.minWhere p f = some m ∧ m ≤ f r := by
  have hmem : f r ∈ (t.rows.filter p).map f :=
    List.mem_map_of_mem (List.mem_filter.mpr ⟨hr, hp⟩)
  obtain ⟨m, hm⟩ := Option.isSome_iff_exists.mp (List.isSome_min?_of_mem hmem)
  exact ⟨m, hm, (List.min?_eq_some_iff.mp hm).2 _ hmem⟩

/-- The minimum is the value of a row. -/
theorem exists_of_minWhere {α : Type*} [Min α] [LE α] [Std.IsLinearOrder α]
    [Std.LawfulOrderMin α] {p : ρ → Bool} {f : ρ → α} {t : KeyedTable key} {m : α}
    (h : t.minWhere p f = some m) : ∃ r ∈ t.rows, p r = true ∧ f r = m := by
  obtain ⟨r, hr, hm⟩ := List.mem_map.mp (List.min?_eq_some_iff.mp h).1
  obtain ⟨hrows, hp⟩ := List.mem_filter.mp hr
  exact ⟨r, hrows, hp, hm⟩

end KeyedTable
