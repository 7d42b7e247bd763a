import Mathlib.Data.List.Basic

/-!
# Pools of concurrent tasks

The tasks of a process are a list. A step of the task at a position replaces it
by what it has become, a new task is appended, and a task that is over stays
where it is. These are the rules for what such a step does to the pool.
-/

namespace TaskPool

variable {τ : Type*} {pool : List τ} {u : ℕ} {k k' : τ}

/-- The task that takes a step is in the pool as what it has become. -/
theorem mem_set_self (h : pool[u]? = some k) : k' ∈ pool.set u k' := by
  obtain ⟨hu, -⟩ := List.getElem?_eq_some_iff.mp h
  exact List.mem_set hu k'

/-- What all tasks satisfy, they still do when the new task does. -/
theorem forall_set {P : τ → Prop} (hall : ∀ x ∈ pool, P x) (hk' : P k') :
    ∀ x ∈ pool.set u k', P x := by
  intro x hx
  rcases List.mem_or_eq_of_mem_set hx with hx | rfl
  · exact hall x hx
  · exact hk'

/-- A task other than the one that takes the step stays. -/
theorem mem_set_of_ne {x : τ} (h : pool[u]? = some k) (hx : x ∈ pool) (hne : x ≠ k) :
    x ∈ pool.set u k' := by
  obtain ⟨v, hv⟩ := List.mem_iff_getElem?.mp hx
  have huv : u ≠ v := by
    rintro rfl
    exact hne (Option.some.inj (hv.symm.trans h))
  refine List.mem_iff_getElem?.mpr ⟨v, ?_⟩
  rw [List.getElem?_set_ne huv, hv]

/-- What some task satisfies, some task still does when the step keeps it. -/
theorem exists_set {P : τ → Prop} (h : pool[u]? = some k) (hex : ∃ x ∈ pool, P x)
    (hkeep : P k → P k') : ∃ x ∈ pool.set u k', P x := by
  obtain ⟨x, hx, hPx⟩ := hex
  by_cases hxk : x = k
  · subst hxk
    exact ⟨k', mem_set_self h, hkeep hPx⟩
  · exact ⟨x, mem_set_of_ne h hx hxk, hPx⟩

theorem forall_spawn {P : τ → Prop} (hall : ∀ x ∈ pool, P x) (hk' : P k') :
    ∀ x ∈ pool ++ [k'], P x := by
  intro x hx
  rcases List.mem_append.mp hx with hx | hx
  · exact hall x hx
  · obtain rfl := List.mem_singleton.mp hx
    exact hk'

theorem exists_spawn {P : τ → Prop} (hex : ∃ x ∈ pool, P x) : ∃ x ∈ pool ++ [k'], P x := by
  obtain ⟨x, hx, hPx⟩ := hex
  exact ⟨x, List.mem_append_left _ hx, hPx⟩

/-- The task at a position was there, or it is the one that takes the step. -/
theorem of_getElem?_set {v : ℕ} {x : τ} (hv : (pool.set u k')[v]? = some x) :
    pool[v]? = some x ∨ v = u ∧ x = k' := by
  by_cases huv : u = v
  · subst huv
    rw [List.getElem?_set_self'] at hv
    obtain ⟨-, -, rfl⟩ := Option.map_eq_some_iff.mp hv
    exact .inr ⟨rfl, rfl⟩
  · rw [List.getElem?_set_ne huv] at hv
    exact .inl hv

/-- The task at a position was there, or it is the new one. -/
theorem of_getElem?_spawn {v : ℕ} {x : τ} (hv : (pool ++ [k'])[v]? = some x) :
    pool[v]? = some x ∨ x = k' := by
  rw [List.getElem?_append] at hv
  split at hv
  · exact .inl hv
  · exact .inr (List.mem_singleton.mp (List.mem_of_getElem? hv))

/-- After a step that also starts the tasks `new`, the others are where they were. -/
theorem getElem?_step {new : List τ} {v : ℕ} {x : τ} (hk : pool[u]? = some k)
    (hx : pool[v]? = some x) :
    v = u ∧ x = k ∧ (pool.set u k' ++ new)[v]? = some k' ∨
      v ≠ u ∧ (pool.set u k' ++ new)[v]? = some x := by
  have hlt : v < (pool.set u k').length := by
    rw [List.length_set]
    exact (List.getElem?_eq_some_iff.mp hx).1
  rw [List.getElem?_append_left hlt]
  by_cases huv : v = u
  · subst huv
    rw [List.length_set] at hlt
    exact .inl ⟨rfl, Option.some.inj (hx.symm.trans hk), List.getElem?_set_self hlt⟩
  · refine .inr ⟨huv, ?_⟩
    rw [List.getElem?_set_ne (Ne.symm huv), hx]

/-- The task that takes a step is where it was. -/
theorem getElem?_step_self {new : List τ} (hk : pool[u]? = some k) :
    (pool.set u k' ++ new)[u]? = some k' := by
  rcases getElem?_step hk hk with ⟨-, -, hself⟩ | ⟨hne, -⟩
  · exact hself
  · exact absurd rfl hne

/-- Afterwards a task was there, or is the one that took the step, or a new one. -/
theorem of_getElem?_step {new : List τ} {v : ℕ} {x : τ}
    (hv : (pool.set u k' ++ new)[v]? = some x) :
    pool[v]? = some x ∨ v = u ∧ x = k' ∨ x ∈ new := by
  rw [List.getElem?_append] at hv
  split at hv
  · exact (of_getElem?_set hv).imp_right .inl
  · exact .inr (.inr (List.mem_of_getElem? hv))

/-- Some task other than the one at position `u`. -/
def Other (pool : List τ) (u : ℕ) (P : τ → Prop) : Prop := ∃ v ≠ u, ∃ x, pool[v]? = some x ∧ P x

theorem Other.exists_step {P : τ → Prop} {new : List τ} (h : Other pool u P)
    (hk : pool[u]? = some k) : ∃ x ∈ pool.set u k' ++ new, P x := by
  obtain ⟨v, hv, x, hx, hPx⟩ := h
  rcases getElem?_step hk hx with ⟨hvu, -⟩ | ⟨-, hx'⟩
  · exact absurd hvu hv
  · exact ⟨x, List.mem_of_getElem? hx', hPx⟩

theorem self_or_other {P : τ → Prop} (hk : pool[u]? = some k) (hex : ∃ x ∈ pool, P x) :
    P k ∨ Other pool u P := by
  obtain ⟨x, hx, hPx⟩ := hex
  obtain ⟨v, hv⟩ := List.mem_iff_getElem?.mp hx
  by_cases huv : v = u
  · subst huv
    obtain rfl : x = k := Option.some.inj (hv.symm.trans hk)
    exact .inl hPx
  · exact .inr ⟨v, huv, x, hv, hPx⟩

theorem mem_spawn_self : k' ∈ pool ++ [k'] := List.mem_append_right _ (List.mem_singleton_self _)

end TaskPool
