import SyncProvider.Lib.StepSystem
import Mathlib.Data.Set.Basic
import Mathlib.Data.List.Count

/-!
# What a store-and-forward queue is for

Items enter a store once. A worker takes items out of the store into memory
(it *holds* them) and sends what it holds. The two places are separate, so an
item can leave the store and still be held.

`Step` says what one step of such a queue may do, whatever the queue looks
like: only new items enter the store, only stored items become held, and only
held items are sent. The consequence is `Gone.step`: an item that is neither
stored nor held stays so and is never sent again. A concrete system refines
this model through a map of its states (`Refines`), and its runs inherit the
consequence (`Gone.never_sent`).
-/

/-- The part of a store-and-forward queue that decides what can still be sent. -/
structure Outbox (α : Type*) where
  /-- Every item that ever entered. -/
  issued : Set α
  /-- The items in the store. -/
  stored : Set α
  /-- The items a worker took and has not sent. -/
  held : Set α
  /-- What was sent, in order. -/
  sent : List α

namespace Outbox

variable {α σ ℓ : Type*}

/-- What one step may do. -/
structure Step (q q' : Outbox α) : Prop where
  issued_mono : q.issued ⊆ q'.issued
  stored_new : q'.stored ⊆ q.stored ∪ (q'.issued \ q.issued)
  held_stored : q'.held ⊆ q.held ∪ q.stored
  sent_held : q'.sent = q.sent ∨ ∃ x ∈ q.held, q'.sent = q.sent ++ [x]

/-- The item entered once, and is neither in the store nor with a worker. -/
def Gone (q : Outbox α) (x : α) : Prop := x ∈ q.issued ∧ x ∉ q.stored ∧ x ∉ q.held

/-- An item that is gone stays gone. -/
theorem Gone.step {q q' : Outbox α} {x : α} (hg : q.Gone x) (h : Step q q') : q'.Gone x := by
  obtain ⟨hi, hs, hh⟩ := hg
  refine ⟨h.issued_mono hi, fun hx => ?_, fun hx => ?_⟩
  · rcases h.stored_new hx with hx | hx
    · exact hs hx
    · exact hx.2 hi
  · rcases h.held_stored hx with hx | hx
    · exact hh hx
    · exact hs hx

/-- No step sends an item that is gone. -/
theorem Gone.count_sent [DecidableEq α] {q q' : Outbox α} {x : α} (hg : q.Gone x)
    (h : Step q q') : q'.sent.count x = q.sent.count x := by
  rcases h.sent_held with hs | ⟨y, hy, hs⟩
  · rw [hs]
  · have hne : y ≠ x := fun hyx => hg.2.2 (hyx ▸ hy)
    rw [hs, List.count_append, List.count_singleton, if_neg (by simpa using hne), Nat.add_zero]

/-! ## Systems that refine the model -/

/-- The system `step` refines the model through `abs` while its states satisfy
`I`: each of its steps is a step of the model. -/
structure Refines (step : σ → ℓ → Option σ) (I : σ → Prop) (abs : σ → Outbox α) : Prop where
  inv : ∀ {s l s'}, I s → step s l = some s' → I s'
  sim : ∀ {s l s'}, I s → step s l = some s' → Step (abs s) (abs s')

/-- Once an item is gone, no later run sends it. -/
theorem Gone.never_sent [DecidableEq α] {step : σ → ℓ → Option σ} {I : σ → Prop}
    {abs : σ → Outbox α} (hR : Refines step I abs) {s s' : σ} {x : α} (hI : I s)
    (hg : (abs s).Gone x) {ls : List ℓ} (he : StepSystem.exec step s ls = some s') :
    (abs s').sent.count x = (abs s).sent.count x := by
  induction ls generalizing s with
  | nil =>
    cases he
    rfl
  | cons l ls ih =>
    obtain ⟨m, hm, hrest⟩ := StepSystem.exec_cons_eq_some.mp he
    have hstep := hR.sim hI hm
    rw [ih (hR.inv hI hm) (hg.step hstep) hrest, hg.count_sent hstep]

end Outbox
