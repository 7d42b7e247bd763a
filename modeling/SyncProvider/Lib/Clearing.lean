import SyncProvider.Lib.StepSystem
import SyncProvider.Lib.TaskPool

/-!
# What calls under way are still to clear

Some steps put things up (a timer, a request to an outside scheduler), and calls take
them down again. A call that is going to take a thing down *owes* it. A thing that
stands while nobody owes it stays: it has come after the last call that would have
taken it down.

Results:
1. `owed_iff_meets` : what stands at the end is owed exactly when things are put up only
   while they are owed. `down_iff_meets` : then nothing stands once nobody owes anything.
2. `rules_of_turns`, `strictRules_of_turns` : the rules for a pool of tasks, from what a
   single task does.
-/

namespace Clearing

variable {σ ℓ κ : Type*}

/-- `up` says what stands, `owed` what a call under way is going to take down, `puts`
what a step puts up. -/
structure Rules (step : σ → ℓ → Option σ) (up owed : σ → κ → Prop) (puts : σ → ℓ → κ → Prop) :
    Prop where
  up_cases : ∀ {s l s' k}, step s l = some s' → up s' k → up s k ∨ puts s l k
  /-- A call that no longer owes a thing has taken it down. -/
  owed_kept : ∀ {s l s' k}, step s l = some s' → owed s k → up s' k → owed s' k

/-- Besides, only who owes a thing takes it down, and nobody comes to owe a thing. -/
structure StrictRules (step : σ → ℓ → Option σ) (up owed : σ → κ → Prop)
    (puts : σ → ℓ → κ → Prop) : Prop extends Rules step up owed puts where
  up_of_puts : ∀ {s l s' k}, step s l = some s' → puts s l k → up s' k
  up_kept : ∀ {s l s' k}, step s l = some s' → up s k → ¬ owed s k → up s' k
  owed_before : ∀ {s l s' k}, step s l = some s' → owed s' k → owed s k

variable {step : σ → ℓ → Option σ} {up owed : σ → κ → Prop} {puts : σ → ℓ → κ → Prop} {s s' : σ}
  {l : ℓ} {ls : List ℓ}

theorem owed_step (h : Rules step up owed puts) {k : κ} (hs : step s l = some s')
    (hputs : puts s l k → owed s k) (howed : up s k → owed s k) (hup : up s' k) : owed s' k := by
  rcases h.up_cases hs hup with hstood | hput
  · exact h.owed_kept hs (howed hstood) hup
  · exact h.owed_kept hs (hputs hput) hup

/-- What stands while nobody owes it stays. -/
theorem stranded_step (h : StrictRules step up owed puts) (hs : step s l = some s')
    (hstranded : ∃ k, up s k ∧ ¬ owed s k) : ∃ k, up s' k ∧ ¬ owed s' k := by
  obtain ⟨k, hup, howed⟩ := hstranded
  exact ⟨k, h.up_kept hs hup howed, fun ho => howed (h.owed_before hs ho)⟩

theorem owed_iff_meets (h : StrictRules step up owed puts) (hall : ∀ k, up s k → owed s k)
    (hrun : StepSystem.exec step s ls = some s') :
    (∀ k, up s' k → owed s' k) ↔
      StepSystem.Meets step (fun s l => ∀ k, puts s l k → owed s k) s ls := by
  refine StepSystem.last_iff_meets (I := fun s => ∀ k, up s k → owed s k)
    (J := fun s => ∃ k, up s k ∧ ¬ owed s k) (Q := fun s => ∀ k, up s k → owed s k)
    (fun hI hC hs k => owed_step h.toRules hs (hC k) (hI k)) ?_
    (fun hJ hs => stranded_step h hs hJ) hall hrun id ?_
  · intro s l s' _ hC hs
    obtain ⟨k, hput, howed⟩ : ∃ k, puts s l k ∧ ¬ owed s k := by
      simpa only [not_forall, exists_prop] using hC
    exact ⟨k, h.up_of_puts hs hput, fun ho => howed (h.owed_before hs ho)⟩
  · rintro ⟨k, hup, howed⟩ hend
    exact howed (hend k hup)

/-- Once nobody owes anything, nothing stands exactly when that was so. -/
theorem down_iff_meets (h : StrictRules step up owed puts) (hall : ∀ k, owed s k)
    (hrun : StepSystem.exec step s ls = some s') (hnone : ∀ k, ¬ owed s' k) :
    (∀ k, ¬ up s' k) ↔ StepSystem.Meets step (fun s l => ∀ k, puts s l k → owed s k) s ls := by
  have hend : (∀ k, ¬ up s' k) ↔ ∀ k, up s' k → owed s' k :=
    forall_congr' fun k => ⟨fun hdown hup => absurd hup hdown, fun howed hup => hnone k (howed hup)⟩
  exact hend.trans (owed_iff_meets h (fun k _ => hall k) hrun)

/-! ## Pools of tasks -/

/-- One task goes on: what stands before and after, what it puts up, and what it owes
before and after. -/
structure Turn (up up' puts owes owes' : κ → Prop) : Prop where
  up_cases : ∀ k, up' k → up k ∨ puts k
  owes_kept : ∀ k, owes k → up' k → owes' k

structure StrictTurn (up up' puts owes owes' : κ → Prop) : Prop
    extends Turn up up' puts owes owes' where
  up_of_puts : ∀ k, puts k → up' k
  up_kept : ∀ k, up k → ¬ owes k → up' k
  owes_before : ∀ k, owes' k → owes k

namespace StrictTurn

variable {up up' puts owes owes' : κ → Prop}

/-- A turn that neither puts up nor takes down. -/
theorem idle (hup : ∀ k, up' k ↔ up k) (hputs : ∀ k, ¬ puts k) (howes : ∀ k, owes' k ↔ owes k) :
    StrictTurn up up' puts owes owes' where
  up_cases k h := .inl ((hup k).mp h)
  owes_kept k h _ := (howes k).mpr h
  up_of_puts k h := absurd h (hputs k)
  up_kept k h _ := (hup k).mpr h
  owes_before k := (howes k).mp

/-- A turn that takes down what it owes. -/
theorem take {x : κ} (hup : ∀ k, up' k ↔ up k ∧ k ≠ x) (hputs : ∀ k, ¬ puts k) (hx : owes x)
    (howes : ∀ k, owes' k ↔ owes k ∧ k ≠ x) : StrictTurn up up' puts owes owes' where
  up_cases k h := .inl ((hup k).mp h).1
  owes_kept k h h' := (howes k).mpr ⟨h, ((hup k).mp h').2⟩
  up_of_puts k h := absurd h (hputs k)
  up_kept k h hnot := (hup k).mpr ⟨h, fun hk => hnot (hk ▸ hx)⟩
  owes_before k h := ((howes k).mp h).1

/-- A turn of a task that puts up and owes nothing. -/
theorem put (hup : ∀ k, up' k ↔ up k ∨ puts k) (howes : ∀ k, ¬ owes k) (howes' : ∀ k, ¬ owes' k) :
    StrictTurn up up' puts owes owes' where
  up_cases k := (hup k).mp
  owes_kept k h := absurd h (howes k)
  up_of_puts k h := (hup k).mpr (.inr h)
  up_kept k h _ := (hup k).mpr (.inl h)
  owes_before k h := absurd h (howes' k)

end StrictTurn

section Pool

variable {τ : Type*} {tasks : σ → List τ} {who : ℓ → ℕ} {owes : τ → κ → Prop}
  {put : ℓ → τ → κ → Prop}

/-- Some task owes it. -/
def OwedBy (tasks : σ → List τ) (owes : τ → κ → Prop) (s : σ) (k : κ) : Prop :=
  ∃ x ∈ tasks s, owes x k

/-- The task that goes on puts it up. -/
def PutBy (tasks : σ → List τ) (who : ℓ → ℕ) (put : ℓ → τ → κ → Prop) (s : σ) (l : ℓ) (k : κ) :
    Prop :=
  ∃ x, (tasks s)[who l]? = some x ∧ put l x k

theorem rules_of_turns
    (h : ∀ {s l s'}, step s l = some s' → ∃ x x', (tasks s)[who l]? = some x ∧
      tasks s' = (tasks s).set (who l) x' ∧ Turn (up s) (up s') (put l x) (owes x) (owes x')) :
    Rules step up (OwedBy tasks owes) (PutBy tasks who put) where
  up_cases := by
    intro s l s' k hs hup
    obtain ⟨x, x', hx, -, hturn⟩ := h hs
    exact (hturn.up_cases k hup).imp_right fun hput => ⟨x, hx, hput⟩
  owed_kept := by
    intro s l s' k hs howed hup
    obtain ⟨x, x', hx, htasks, hturn⟩ := h hs
    rw [OwedBy, htasks]
    exact TaskPool.exists_set hx howed fun hox => hturn.owes_kept k hox hup

theorem strictRules_of_turns
    (h : ∀ {s l s'}, step s l = some s' → ∃ x x', (tasks s)[who l]? = some x ∧
      tasks s' = (tasks s).set (who l) x' ∧
      StrictTurn (up s) (up s') (put l x) (owes x) (owes x')) :
    StrictRules step up (OwedBy tasks owes) (PutBy tasks who put) where
  toRules := rules_of_turns fun hs => by
    obtain ⟨x, x', hx, htasks, hturn⟩ := h hs
    exact ⟨x, x', hx, htasks, hturn.toTurn⟩
  up_of_puts := by
    rintro s l s' k hs ⟨y, hy, hput⟩
    obtain ⟨x, x', hx, -, hturn⟩ := h hs
    obtain rfl := Option.some.inj (hy.symm.trans hx)
    exact hturn.up_of_puts k hput
  up_kept := by
    intro s l s' k hs hup howed
    obtain ⟨x, x', hx, -, hturn⟩ := h hs
    exact hturn.up_kept k hup fun hox => howed ⟨x, List.mem_of_getElem? hx, hox⟩
  owed_before := by
    rintro s l s' k hs ⟨y, hy, hoy⟩
    obtain ⟨x, x', hx, htasks, hturn⟩ := h hs
    rw [htasks] at hy
    rcases List.mem_or_eq_of_mem_set hy with hy | rfl
    · exact ⟨y, hy, hoy⟩
    · exact ⟨x, List.mem_of_getElem? hx, hturn.owes_before k hoy⟩

end Pool

end Clearing
