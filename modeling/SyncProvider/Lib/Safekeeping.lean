import SyncProvider.Lib.StepSystem

/-!
# What a store lets go

A store keeps what it is given until the delivery is confirmed, or until someone takes it
back. The confirmation and the deletion are steps of their own, and anything may happen
between them, so a key whose delivery is confirmed may still be kept.

Results:
1. `Safekeeping.accounted` : a key is kept, or its departure is on record.
2. `Safekeeping.delivered_sent` : what is delivered was sent.
-/

/-- How a key leaves the store. -/
inductive Departure (κ : Type*) where
  | delivered (k : κ)
  | removed (k : κ)
  deriving DecidableEq

open StepSystem (exec recorded recorded_eq_some exec_invariant)

/-- What a system tells about its keys, and what its steps may do to them. -/
structure Safekeeping {σ ℓ : Type*} (step : σ → ℓ → Option σ) (κ : Type*) where
  issued : σ → List κ
  kept : σ → List κ
  sent : σ → List κ
  /-- Sent, and not answered yet. -/
  outstanding : σ → κ → Prop
  /-- Delivered, and the row is still to go. -/
  confirmed : σ → κ → Prop
  delivers : σ → ℓ → List κ
  removes : σ → ℓ → List κ
  /-- The facts of a system that the steps rely on. -/
  Sound : σ → Prop
  sound : ∀ {s s' l}, Sound s → step s l = some s' → Sound s'
  keeps : ∀ {s s' l}, Sound s → step s l = some s' → ∀ k ∈ issued s',
    k ∈ kept s' ∨ (k ∈ issued s ∧ k ∉ kept s) ∨ confirmed s k ∨ k ∈ removes s l
  confirms : ∀ {s s' l}, step s l = some s' → ∀ k, confirmed s' k →
    confirmed s k ∨ k ∈ delivers s l
  sends : ∀ {s s' l}, step s l = some s' → ∀ k, outstanding s' k →
    outstanding s k ∨ k ∈ sent s'
  sent_mono : ∀ {s s' l}, step s l = some s' → sent s ⊆ sent s'
  delivers_outstanding : ∀ {s l}, ∀ k ∈ delivers s l, outstanding s k

namespace Safekeeping

variable {σ ℓ κ : Type*} {step : σ → ℓ → Option σ}

/-- What leaves, or is known to be about to leave, by a step. -/
def departures (C : Safekeeping step κ) (s : σ) (l : ℓ) : List (Departure κ) :=
  (C.delivers s l).map .delivered ++ (C.removes s l).map .removed

/-- Everything is kept, and nothing is under way. -/
structure Starts (C : Safekeeping step κ) (s : σ) : Prop where
  sound : C.Sound s
  kept : ∀ k ∈ C.issued s, k ∈ C.kept s
  confirmed : ∀ k, ¬ C.confirmed s k
  outstanding : ∀ k, ¬ C.outstanding s k

/-- The record of the departures covers what is gone. -/
structure Covers (C : Safekeeping step κ) (p : σ × List (Departure κ)) : Prop where
  sound : C.Sound p.1
  kept : ∀ k ∈ C.issued p.1, k ∈ C.kept p.1 ∨ .delivered k ∈ p.2 ∨ .removed k ∈ p.2
  confirmed : ∀ k, C.confirmed p.1 k → .delivered k ∈ p.2
  outstanding : ∀ k, C.outstanding p.1 k → k ∈ C.sent p.1
  sent : ∀ k, .delivered k ∈ p.2 → k ∈ C.sent p.1

variable {C : Safekeeping step κ}

theorem mem_departures_delivered {s : σ} {l : ℓ} {k : κ} :
    .delivered k ∈ C.departures s l ↔ k ∈ C.delivers s l := by
  simp [departures]

theorem mem_departures_removed {s : σ} {l : ℓ} {k : κ} :
    .removed k ∈ C.departures s l ↔ k ∈ C.removes s l := by
  simp [departures]

theorem Starts.covers {s : σ} (h : C.Starts s) : C.Covers (s, []) where
  sound := h.sound
  kept k hk := .inl (h.kept k hk)
  confirmed k hk := absurd hk (h.confirmed k)
  outstanding k hk := absurd hk (h.outstanding k)
  sent _ hk := absurd hk List.not_mem_nil

theorem Covers.extend {p p' : σ × List (Departure κ)} {l : ℓ} (hC : C.Covers p)
    (h : recorded step C.departures p l = some p') : C.Covers p' := by
  obtain ⟨s, gone⟩ := p
  obtain ⟨s', gone'⟩ := p'
  obtain ⟨hstep, rfl⟩ := recorded_eq_some.mp h
  have hold {d : Departure κ} (hd : d ∈ gone) : d ∈ gone ++ C.departures s l :=
    List.mem_append_left _ hd
  refine ⟨C.sound hC.sound hstep, fun k hk => ?_, fun k hk => ?_, fun k hk => ?_, fun k hk => ?_⟩
  · rcases C.keeps hC.sound hstep k hk with hkept | ⟨hissued, hgone⟩ | hconfirmed | hremoved
    · exact .inl hkept
    · rcases hC.kept k hissued with hkept | hdelivered | hremoved
      · exact absurd hkept hgone
      · exact .inr (.inl (hold hdelivered))
      · exact .inr (.inr (hold hremoved))
    · exact .inr (.inl (hold (hC.confirmed k hconfirmed)))
    · exact .inr (.inr (List.mem_append_right _ (mem_departures_removed.mpr hremoved)))
  · rcases C.confirms hstep k hk with hconfirmed | hdelivers
    · exact hold (hC.confirmed k hconfirmed)
    · exact List.mem_append_right _ (mem_departures_delivered.mpr hdelivers)
  · rcases C.sends hstep k hk with houtstanding | hsent
    · exact C.sent_mono hstep (hC.outstanding k houtstanding)
    · exact hsent
  · rcases List.mem_append.mp hk with hk | hk
    · exact C.sent_mono hstep (hC.sent k hk)
    · have houtstanding := C.delivers_outstanding k (mem_departures_delivered.mp hk)
      exact C.sent_mono hstep (hC.outstanding k houtstanding)

theorem covers_of_exec {s₀ : σ} {p : σ × List (Departure κ)} {ls : List ℓ} (h0 : C.Starts s₀)
    (hrun : exec (recorded step C.departures) (s₀, []) ls = some p) : C.Covers p :=
  exec_invariant (I := C.Covers) Covers.extend h0.covers hrun

/-- After any run, a key that was ever issued is in the store, or the run has delivered it or
removed it. -/
theorem accounted {s₀ s : σ} {gone : List (Departure κ)} {ls : List ℓ} (h0 : C.Starts s₀)
    (hrun : exec (recorded step C.departures) (s₀, []) ls = some (s, gone)) :
    ∀ k ∈ C.issued s, k ∈ C.kept s ∨ .delivered k ∈ gone ∨ .removed k ∈ gone :=
  (covers_of_exec h0 hrun).kept

/-- A delivery answers a request of the run. -/
theorem delivered_sent {s₀ s : σ} {gone : List (Departure κ)} {ls : List ℓ} (h0 : C.Starts s₀)
    (hrun : exec (recorded step C.departures) (s₀, []) ls = some (s, gone)) {k : κ}
    (hk : .delivered k ∈ gone) : k ∈ C.sent s :=
  (covers_of_exec h0 hrun).sent k hk

end Safekeeping
