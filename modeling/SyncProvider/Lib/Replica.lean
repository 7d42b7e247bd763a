import SyncProvider.Lib.StepSystem

/-!
# A copy that is read again

A source, and a copy of it that is kept up by notices and by reads. A change of the source
sends a notice, and the notices come in order: each starts another read, or brings the value
itself. A read takes the value at some moment, and writes it into the copy later. Reads
overtake each other.

A value may be absent. A read of it writes nothing, and no change leads to it.

Contents:
1. What can happen to a copy.
2. `Inv` and `Lost` : the copy will be right, or will stay wrong.
3. `View` : a system that keeps a copy, and `View.last_iff`.
-/

namespace Replication

variable {V σ ℓ : Type*}

/-! ## 1. The copy -/

inductive Notice (V : Type*) where
  | reread
  | write (v : V)
  deriving DecidableEq

/-- A read is `none` until it has taken its value. -/
structure Replica (V : Type*) where
  source : V
  copy : V
  notices : List (Notice V)
  reads : List (Option V)

inductive Label (V : Type*) where
  | change (v : V) (notice : Notice V)
  | deliver
  | sample (k : Nat)
  | land (k : Nat)
  deriving DecidableEq

/-- What a read leaves in the copy. -/
def land (absent : V → Bool) (copy v : V) : V := if absent v then copy else v

/-- What can happen. -/
inductive Moves (absent : V → Bool) (r : Replica V) : Label V → Replica V → Prop where
  | changes {v : V} {notice : Notice V} (habsent : absent v = true → v = r.source)
    (hnotice : notice = .reread ∨ notice = .write v) :
    Moves absent r (.change v notice) { r with source := v, notices := r.notices ++ [notice] }
  | rereads {rest : List (Notice V)} (hnotices : r.notices = .reread :: rest) :
    Moves absent r .deliver { r with notices := rest, reads := r.reads ++ [none] }
  | writes {v : V} {rest : List (Notice V)} (hnotices : r.notices = .write v :: rest) :
    Moves absent r .deliver { r with notices := rest, copy := v }
  | samples {k : Nat} (hread : r.reads[k]? = some none) :
    Moves absent r (.sample k) { r with reads := r.reads.set k (some r.source) }
  | lands {k : Nat} {v : V} (hread : r.reads[k]? = some (some v)) :
    Moves absent r (.land k)
      { r with copy := land absent r.copy v, reads := r.reads.eraseIdx k }

/-- A read brings what the source is now, or something else is to come: a notice, or a read
that has yet to take its value or has taken what the source is now. -/
def Timely (absent : V → Bool) (r : Replica V) : Label V → Prop
  | .land k => ∀ x ∈ r.reads[k]?, ∀ v ∈ x, land absent r.copy v = r.source ∨ r.notices ≠ [] ∨
      ∃ other ∈ r.reads.eraseIdx k, other = none ∨ other = some r.source
  | .change _ _ | .deliver | .sample _ => True

instance [DecidableEq V] (absent : V → Bool) (r : Replica V) (l : Label V) :
    Decidable (Timely absent r l) :=
  match l with
  | .land k =>
    have (v : V) : Decidable (land absent r.copy v = r.source ∨ r.notices ≠ [] ∨
        ∃ other ∈ r.reads.eraseIdx k, other = none ∨ other = some r.source) := inferInstance
    inferInstanceAs (Decidable (∀ x ∈ r.reads[k]?, ∀ v ∈ x, _))
  | .change _ _ | .deliver | .sample _ => .isTrue trivial

theorem moves_sample {absent : V → Bool} {r r' : Replica V} {k : Nat}
    (hread : r.reads[k]? = some none) (hsource : r'.source = r.source) (hcopy : r'.copy = r.copy)
    (hnotices : r'.notices = r.notices) (hreads : r'.reads = r.reads.set k (some r.source)) :
    Moves absent r (.sample k) r' := by
  obtain ⟨source, copy, notices, reads⟩ := r'
  subst hsource hcopy hnotices hreads
  exact .samples hread

theorem moves_land {absent : V → Bool} {r r' : Replica V} {k : Nat} {v : V}
    (hread : r.reads[k]? = some (some v)) (hsource : r'.source = r.source)
    (hcopy : r'.copy = land absent r.copy v) (hnotices : r'.notices = r.notices)
    (hreads : r'.reads = r.reads.eraseIdx k) : Moves absent r (.land k) r' := by
  obtain ⟨source, copy, notices, reads⟩ := r'
  subst hsource hcopy hnotices hreads
  exact .lands hread

def Settled (r : Replica V) : Prop := r.notices = [] ∧ r.reads = []

/-! ## 2. Copies that will be right -/

variable {absent : V → Bool} {r r' : Replica V} {l : Label V}

/-- The copy is right, or something that is to come will make it right. -/
structure Inv (absent : V → Bool) (r : Replica V) : Prop where
  latest : ∀ notice, r.notices.getLast? = some notice → notice = .reread ∨ notice = .write r.source
  untouched : absent r.source = true → r.copy = r.source ∧
    (∀ notice ∈ r.notices, notice = .reread ∨ notice = .write r.source) ∧
    ∀ v, some v ∈ r.reads → v = r.source
  way : r.copy = r.source ∨ r.notices ≠ [] ∨ ∃ x ∈ r.reads, x = none ∨ x = some r.source

/-- The copy is wrong, and nothing that is to come will make it right. -/
structure Lost (absent : V → Bool) (r : Replica V) : Prop where
  present : absent r.source = false
  wrong : r.copy ≠ r.source
  notices : r.notices = []
  stale : ∀ x ∈ r.reads, ∃ v, x = some v ∧ v ≠ r.source

theorem land_self {c v : V} (h : absent v = true → c = v) : land absent c v = v := by
  unfold land
  split
  · exact h ‹_›
  · rfl

theorem Inv.changes {v : V} {notice : Notice V} (hnotice : notice = .reread ∨ notice = .write v)
    (huntouched : absent v = true → r.copy = v ∧
      (∀ n ∈ r.notices, n = .reread ∨ n = .write v) ∧ ∀ x, some x ∈ r.reads → x = v) :
    Inv absent { r with source := v, notices := r.notices ++ [notice] } where
  latest n hn := by
    rw [List.getLast?_concat] at hn
    cases hn
    exact hnotice
  untouched habsent := by
    obtain ⟨hcopy, hnotices, hreads⟩ := huntouched habsent
    refine ⟨hcopy, fun n hn => ?_, hreads⟩
    rcases List.mem_append.mp hn with hn | hn
    · exact hnotices n hn
    · rw [List.mem_singleton.mp hn]
      exact hnotice
  way := .inr (.inl (List.append_ne_nil_of_right_ne_nil _ (List.cons_ne_nil _ _)))

/-- A notice that is not the last leaves the last. -/
theorem Inv.latest_tail {n : Notice V} {rest : List (Notice V)} (h : Inv absent r)
    (hnotices : r.notices = n :: rest) (notice : Notice V) (hn : rest.getLast? = some notice) :
    notice = .reread ∨ notice = .write r.source := by
  refine h.latest notice ?_
  rw [hnotices, List.getLast?_cons, hn]
  rfl

theorem Inv.rereads {rest : List (Notice V)} (h : Inv absent r)
    (hnotices : r.notices = .reread :: rest) :
    Inv absent { r with notices := rest, reads := r.reads ++ [none] } where
  latest := h.latest_tail hnotices
  untouched habsent := by
    obtain ⟨hcopy, hall, hreads⟩ := h.untouched habsent
    refine ⟨hcopy, fun n hn => ?_, fun v hv => ?_⟩
    · refine hall n ?_
      rw [hnotices]
      exact List.mem_cons_of_mem _ hn
    · rcases List.mem_append.mp hv with hv | hv
      · exact hreads v hv
      · cases List.mem_singleton.mp hv
  way := .inr (.inr ⟨none, List.mem_append_right _ List.mem_cons_self, .inl rfl⟩)

theorem Inv.writes {v : V} {rest : List (Notice V)} (h : Inv absent r)
    (hnotices : r.notices = .write v :: rest) :
    Inv absent { r with notices := rest, copy := v } where
  latest := h.latest_tail hnotices
  untouched habsent := by
    obtain ⟨-, hall, hreads⟩ := h.untouched habsent
    rw [hnotices] at hall
    refine ⟨?_, fun n hn => hall n (List.mem_cons_of_mem _ hn), hreads⟩
    rcases hall _ List.mem_cons_self with heq | heq <;> cases heq
    rfl
  way := by
    cases rest with
    | nil =>
      have hlast := h.latest (.write v)
      rw [hnotices] at hlast
      rcases hlast rfl with heq | heq <;> cases heq
      exact .inl rfl
    | cons n rest => exact .inr (.inl (List.cons_ne_nil _ _))

theorem Inv.samples {k : Nat} (h : Inv absent r) (hread : r.reads[k]? = some none) :
    Inv absent { r with reads := r.reads.set k (some r.source) } where
  latest := h.latest
  untouched habsent := by
    obtain ⟨hcopy, hall, hreads⟩ := h.untouched habsent
    refine ⟨hcopy, hall, fun v hv => ?_⟩
    rcases List.mem_or_eq_of_mem_set hv with hv | hv
    · exact hreads v hv
    · exact Option.some.inj hv
  way := by
    refine .inr (.inr ⟨some r.source, ?_, .inr rfl⟩)
    exact List.mem_set (List.getElem?_eq_some_iff.mp hread).1 _

theorem Inv.lands {k : Nat} {v : V} (h : Inv absent r) (hread : r.reads[k]? = some (some v))
    (htimely : Timely absent r (.land k)) :
    Inv absent { r with copy := land absent r.copy v, reads := r.reads.eraseIdx k } where
  latest := h.latest
  untouched habsent := by
    obtain ⟨hcopy, hall, hreads⟩ := h.untouched habsent
    obtain rfl := hreads v (List.mem_of_getElem? hread)
    refine ⟨land_self fun _ => hcopy, hall, fun x hx => hreads x (List.mem_of_mem_eraseIdx hx)⟩
  way := by
    rcases htimely (some v) hread v rfl with hcopy | hnotices | hother
    · exact .inl hcopy
    · exact .inr (.inl hnotices)
    · exact .inr (.inr hother)

theorem Inv.move (h : Inv absent r) (htimely : Timely absent r l) (hmove : Moves absent r l r') :
    Inv absent r' := by
  cases hmove with
  | changes habsent hnotice =>
    refine Inv.changes hnotice fun hv => ?_
    obtain rfl := habsent hv
    exact h.untouched hv
  | rereads hnotices => exact h.rereads hnotices
  | writes hnotices => exact h.writes hnotices
  | samples hread => exact h.samples hread
  | lands hread => exact h.lands hread htimely

/-- A read that brings an old value is the last word. -/
theorem Inv.lost (h : Inv absent r) (htimely : ¬ Timely absent r l) (hmove : Moves absent r l r') :
    Lost absent r' := by
  cases hmove with
  | changes | rereads | writes | samples => exact absurd trivial htimely
  | @lands k v hread =>
    have hnot : ¬ (land absent r.copy v = r.source ∨ r.notices ≠ [] ∨
        ∃ other ∈ r.reads.eraseIdx k, other = none ∨ other = some r.source) := by
      intro hyes
      refine htimely fun x hx v' hv' => ?_
      cases hread.symm.trans hx
      cases hv'
      exact hyes
    rw [not_or, not_or, not_not] at hnot
    obtain ⟨hwrong, hnotices, hnone⟩ := hnot
    refine ⟨Bool.eq_false_iff.mpr fun habsent => ?_, hwrong, hnotices, fun x hx => ?_⟩
    · obtain ⟨hcopy, -, hreads⟩ := h.untouched habsent
      obtain rfl := hreads v (List.mem_of_getElem? hread)
      exact hwrong (land_self fun _ => hcopy)
    · cases x with
      | none => exact absurd ⟨none, hx, .inl rfl⟩ hnone
      | some v' =>
        refine ⟨v', rfl, ?_⟩
        rintro rfl
        exact hnone ⟨_, hx, .inr rfl⟩

/-- Only a change of the source makes it good. -/
theorem Lost.move (h : Lost absent r) (hmove : Moves absent r l r')
    (hchange : ∀ v notice, l ≠ .change v notice) : Lost absent r' := by
  cases hmove with
  | changes => exact absurd rfl (hchange _ _)
  | rereads hnotices | writes hnotices =>
    rw [h.notices] at hnotices
    cases hnotices
  | samples hread =>
    obtain ⟨v, heq, -⟩ := h.stale none (List.mem_of_getElem? hread)
    cases heq
  | @lands k v hread =>
    obtain ⟨v', heq, hstale⟩ := h.stale (some v) (List.mem_of_getElem? hread)
    cases heq
    refine ⟨h.present, ?_, h.notices, fun x hx => h.stale x (List.mem_of_mem_eraseIdx hx)⟩
    show land absent r.copy v ≠ r.source
    unfold land
    split
    · exact h.wrong
    · exact hstale

theorem Lost.changes (h : Lost absent r) {v : V} {notice : Notice V}
    (hmove : Moves absent r (.change v notice) r') : Inv absent r' := by
  cases hmove with
  | changes habsent hnotice =>
    refine Inv.changes hnotice fun hv => ?_
    rw [habsent hv, h.present] at hv
    cases hv

theorem Inv.settled (h : Inv absent r) (hsettled : Settled r) : r.copy = r.source := by
  rcases h.way with hcopy | hnotices | ⟨x, hx, -⟩
  · exact hcopy
  · exact absurd hsettled.1 hnotices
  · rw [hsettled.2] at hx
    cases hx

/-! ## 3. Systems that keep a copy -/

/-- What a system keeps of a copy, and what its steps do to it. `refreshes` says which labels
change the source. -/
structure View (σ ℓ V : Type*) where
  absent : V → Bool
  view : σ → Replica V
  label : σ → ℓ → Option (Label V)
  refreshes : ℓ → Bool

namespace View

variable {w : View σ ℓ V} {step : σ → ℓ → Option σ}

/-- Every step of the system is one of the copy, or leaves it as it is. -/
structure Simulates (w : View σ ℓ V) (step : σ → ℓ → Option σ) : Prop where
  moves : ∀ s l s' l', step s l = some s' → w.label s l = some l' →
    Moves w.absent (w.view s) l' (w.view s')
  stays : ∀ s l s', step s l = some s' → w.label s l = none → w.view s' = w.view s
  refreshes : ∀ s l, w.refreshes l = true ↔ ∃ v notice, w.label s l = some (.change v notice)

def Timely (w : View σ ℓ V) (s : σ) (l : ℓ) : Prop :=
  ∀ l' ∈ w.label s l, Replication.Timely w.absent (w.view s) l'

instance [DecidableEq V] (w : View σ ℓ V) (s : σ) (l : ℓ) : Decidable (w.Timely s l) :=
  inferInstanceAs (Decidable (∀ l' ∈ w.label s l, _))

/-- The reads of the run are timely, or the source changes later. -/
def Converges (w : View σ ℓ V) (step : σ → ℓ → Option σ) (s : σ) (ls : List ℓ) : Prop :=
  StepSystem.Recovered step (fun l => w.refreshes l = true) w.Timely s ls

instance [DecidableEq V] (w : View σ ℓ V) (step : σ → ℓ → Option σ) (s : σ) (ls : List ℓ) :
    Decidable (w.Converges step s ls) :=
  inferInstanceAs (Decidable (StepSystem.Recovered _ _ _ _ _))

/-- When nothing is to come any more, the copy is right exactly when every read was timely or
the source changed later. -/
theorem last_iff (hw : w.Simulates step) {s s' : σ} {ls : List ℓ}
    (h0 : Inv w.absent (w.view s)) (h : StepSystem.exec step s ls = some s')
    (hsettled : Settled (w.view s')) :
    (w.view s').copy = (w.view s').source ↔ w.Converges step s ls := by
  refine (StepSystem.last_iff_recovered (I := fun s => Inv w.absent (w.view s))
    (J := fun s => Lost w.absent (w.view s)) (Q := fun s => (w.view s).copy = (w.view s).source)
    ?_ ?_ ?_ ?_ ?_ h (fun hI => hI.settled hsettled) (fun hJ => hJ.wrong)).1 h0
  · intro s l s' hI hC hs
    cases hl : w.label s l with
    | none =>
      rw [hw.stays s l s' hs hl]
      exact hI
    | some l' => exact hI.move (hC l' hl) (hw.moves s l s' l' hs hl)
  · intro s l s' hI hC hs
    cases hl : w.label s l with
    | none => exact absurd (fun l' hl' => by rw [hl] at hl'; cases hl') hC
    | some l' =>
      refine hI.lost (fun htimely => hC fun l'' hl'' => ?_) (hw.moves s l s' l' hs hl)
      cases hl.symm.trans hl''
      exact htimely
  · intro s l s' hJ hR hs
    cases hl : w.label s l with
    | none =>
      rw [hw.stays s l s' hs hl]
      exact hJ
    | some l' =>
      refine hJ.move (hw.moves s l s' l' hs hl) fun v notice heq => ?_
      exact hR ((hw.refreshes s l).mpr ⟨v, notice, hl.trans (congrArg some heq)⟩)
  · intro s l s' hJ hR hs
    obtain ⟨v, notice, hl⟩ := (hw.refreshes s l).mp hR
    exact hJ.changes (hw.moves s l s' _ hs hl)
  · intro s l hR l' hl'
    obtain ⟨v, notice, hl⟩ := (hw.refreshes s l).mp hR
    cases hl.symm.trans hl'
    trivial

end View

end Replication
