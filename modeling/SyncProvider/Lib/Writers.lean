import Mathlib.Data.List.Nodup
import Mathlib.Data.List.Induction
import Mathlib.Tactic.TypeStar

/-!
# Calls that write several stores

A call writes a number of stores, one after the other, and calls may overlap. The
history lists each write with its call. A store shows the value of its last
writer, so the stores come from one call when they have one last writer.

Results:
1. `Holds.write` : a store shows the value of its last writer.
2. `whole_iff` : the stores have one last writer exactly when nobody writes a
   store after the call in question did.
3. `lastWriter_sections` : they have one when the calls do not overlap.
-/

namespace Writers

variable {κ ρ σ : Type*} [DecidableEq ρ]

/-- The call that wrote the store last. -/
def lastWriter (r : ρ) (log : List (κ × ρ)) : Option κ :=
  log.foldl (fun w p => if p.2 = r then some p.1 else w) none

/-- Each store shows the value of its last writer. `From k r s` says that store
`r` of state `s` has the value of call `k`. -/
def Holds (From : κ → ρ → σ → Prop) (s : σ) (log : List (κ × ρ)) : Prop :=
  ∀ r k, lastWriter r log = some k → From k r s

/-- All stores have one last writer. -/
def Whole (log : List (κ × ρ)) : Prop := ∃ k, ∀ r, lastWriter r log = some k

section Basic

variable {r r' : ρ} {k : κ} {log log' : List (κ × ρ)}

@[simp] theorem lastWriter_nil : lastWriter r ([] : List (κ × ρ)) = none := rfl

@[simp] theorem lastWriter_snoc :
    lastWriter r (log ++ [(k, r')]) = if r' = r then some k else lastWriter r log := by
  simp [lastWriter]

/-- The writers before `log'` count for the stores it leaves alone. -/
theorem lastWriter_append :
    lastWriter r (log ++ log') = (lastWriter r log').or (lastWriter r log) := by
  induction log' using List.reverseRecOn with
  | nil => simp
  | append_singleton log' p ih =>
    obtain ⟨k, r'⟩ := p
    rw [← List.append_assoc, lastWriter_snoc, lastWriter_snoc, ih]
    split <;> rfl

theorem lastWriter_eq_none_iff : lastWriter r log = none ↔ ∀ k, (k, r) ∉ log := by
  induction log using List.reverseRecOn with
  | nil => simp
  | append_singleton log p ih =>
    obtain ⟨k, r'⟩ := p
    rw [lastWriter_snoc]
    split
    · rename_i hr
      subst hr
      simp only [reduceCtorEq, false_iff, not_forall, not_not]
      exact ⟨k, List.mem_append_right _ List.mem_cons_self⟩
    · rename_i hr
      rw [ih]
      refine forall_congr' fun k' => not_congr ?_
      simp [Ne.symm hr]

/-- The last writer is the one after which nobody wrote. -/
theorem lastWriter_eq_some_iff : lastWriter r log = some k ↔
    ∃ pre post, log = pre ++ (k, r) :: post ∧ ∀ k', (k', r) ∉ post := by
  constructor
  · intro h
    induction log using List.reverseRecOn with
    | nil => cases h
    | append_singleton log p ih =>
      obtain ⟨k', r'⟩ := p
      rw [lastWriter_snoc] at h
      split at h
      · rename_i hr
        cases h
        exact ⟨log, [], by rw [hr], by simp⟩
      · rename_i hr
        obtain ⟨pre, post, rfl, hpost⟩ := ih h
        refine ⟨pre, post ++ [(k', r')], by simp, fun m hm => ?_⟩
        rcases List.mem_append.mp hm with hm | hm
        · exact hpost m hm
        · obtain ⟨-, heq⟩ := Prod.mk.inj (List.mem_singleton.mp hm)
          exact hr heq.symm
  · rintro ⟨pre, post, rfl, hpost⟩
    rw [List.append_cons, lastWriter_append, lastWriter_eq_none_iff.mpr hpost, lastWriter_snoc,
      if_pos rfl]
    rfl

theorem mem_of_lastWriter (h : lastWriter r log = some k) : (k, r) ∈ log := by
  obtain ⟨pre, post, rfl, -⟩ := lastWriter_eq_some_iff.mp h
  exact List.mem_append_right _ List.mem_cons_self

end Basic

/-! ## 1. The stores show their last writers -/

section Holding

variable {From : κ → ρ → σ → Prop} {s s' : σ} {log : List (κ × ρ)} {k : κ} {r : ρ}

theorem Holds.nil : Holds From s [] := by
  intro r k h
  cases h

/-- The call writes its value, and the other stores stay. -/
theorem Holds.write (h : Holds From s log) (hself : From k r s')
    (hother : ∀ k' r', r' ≠ r → From k' r' s → From k' r' s') :
    Holds From s' (log ++ [(k, r)]) := by
  intro r' k' hlast
  rw [lastWriter_snoc] at hlast
  split at hlast
  · rename_i hr
    cases hlast
    exact hr ▸ hself
  · rename_i hr
    exact hother k' r' (Ne.symm hr) (h r' k' hlast)

end Holding

/-! ## 2. One last writer -/

/-- Call `k` was the last one at store `r₀` and wrote every store, once: the stores
have one last writer exactly when nobody writes a store after `k` did. -/
theorem whole_iff {r₀ : ρ} {k : κ} {log : List (κ × ρ)} (h : lastWriter r₀ log = some k)
    (hnodup : log.Nodup) (hall : ∀ r, (k, r) ∈ log) :
    Whole log ↔ ∀ r pre post, log = pre ++ (k, r) :: post → ∀ k', (k', r) ∉ post := by
  constructor
  · rintro ⟨m, hm⟩ r pre post hsplit
    obtain rfl : m = k := Option.some.inj ((hm r₀).symm.trans h)
    obtain ⟨pre', post', hsplit', hpost⟩ := lastWriter_eq_some_iff.mp (hm r)
    -- the write stands at one place of the history
    have hone := List.nodup_middle.mp (hsplit ▸ hnodup)
    have hfresh := (List.nodup_cons.mp hone).1
    have hpre : (m, r) ∉ pre := fun hm' => hfresh (List.mem_append_left _ hm')
    have hpost' : (m, r) ∉ post := fun hm' => hfresh (List.mem_append_right _ hm')
    have hsame := hsplit.symm.trans hsplit'
    obtain ⟨-, -, rfl⟩ := (List.append_cons_inj_of_notMem hpre hpost').mp hsame
    exact hpost
  · intro hlate
    refine ⟨k, fun r => lastWriter_eq_some_iff.mpr ?_⟩
    obtain ⟨pre, post, hsplit⟩ := List.append_of_mem (hall r)
    exact ⟨pre, post, hsplit, hlate r pre post hsplit⟩

/-- The writes of calls that do not overlap. -/
def sections (stores : List ρ) (calls : List κ) : List (κ × ρ) :=
  calls.flatMap fun k => stores.map fun r => (k, r)

omit [DecidableEq ρ] in
theorem sections_snoc {stores : List ρ} {calls : List κ} {k : κ} :
    sections stores (calls ++ [k]) = sections stores calls ++ stores.map fun r => (k, r) := by
  simp [sections]

theorem lastWriter_sections {stores : List ρ} {calls : List κ} {k : κ} {r : ρ}
    (hr : r ∈ stores) : lastWriter r (sections stores (calls ++ [k])) = some k := by
  have hown : lastWriter r (stores.map fun r => (k, r)) = some k := by
    cases hlast : lastWriter r (stores.map fun r => (k, r)) with
    | none => exact absurd (List.mem_map.mpr ⟨r, hr, rfl⟩) (lastWriter_eq_none_iff.mp hlast k)
    | some m =>
      obtain ⟨r', -, heq⟩ := List.mem_map.mp (mem_of_lastWriter hlast)
      cases heq
      rfl
  rw [sections_snoc, lastWriter_append, hown]
  rfl

end Writers
