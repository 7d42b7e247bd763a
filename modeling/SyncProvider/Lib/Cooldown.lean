import SyncProvider.Lib.StepSystem
import Mathlib.Data.Set.Basic
import Mathlib.Order.Basic

/-!
# A queue whose items wait for a deadline

Each stored item has a deadline. A worker selects items whose deadline is not
after the time it reads, and keeps that time with what it selected. From its
selection it starts attempts and records outcomes. The outcome of an attempt is
a new deadline, or it is final.

`Step` says what one step of such a queue may do, whatever the queue looks
like. A concrete system refines this model through a map of its states and the
events of its steps (`Refines`), and the histories of its runs inherit the
consequences:
1. `Refines.respects` : no attempt starts from a selection that read a time
   before the deadline in force.
2. `Refines.respectsAll` : when no outcome sets a deadline before the time its
   selection read, not before any earlier deadline either.
3. `Step.lowered` : only a recorded outcome lowers a deadline.

`Guards` is what all three come to for a system that starts attempts.
-/

namespace Cooldown

variable {ι τ σ ℓ : Type*}

/-! ## 1. The model -/

inductive Event (ι τ : Type*) where
  /-- The outcome of an attempt was recorded, with the deadline of the next one. -/
  | recorded (id : ι) (deadline : Option τ)
  /-- An attempt started, from a selection that read this time. -/
  | started (id : ι) (time : τ)
  deriving DecidableEq

structure Queue (ι τ : Type*) where
  /-- Every id that ever entered. -/
  issued : Set ι
  /-- The deadline of a stored item. -/
  deadline : ι → Option τ
  /-- The items that may be selected again. -/
  live : Set ι
  /-- What is selected and not recorded, with the time of its selection. -/
  hand : Set (ι × τ)

section Model

variable [LE τ]

/-- What one step may do. -/
structure Step (q q' : Queue ι τ) (evs : List (Event ι τ)) : Prop where
  issued : q.issued ⊆ q'.issued
  deadline : ∀ id d, q'.deadline id = some d →
    q.deadline id = some d ∨ id ∉ q.issued ∨ ∃ d', evs = [.recorded id d']
  live : ∀ id ∈ q'.live, id ∈ q.live ∨ id ∉ q.issued
  hand : ∀ id k, (id, k) ∈ q'.hand →
    (id, k) ∈ q.hand ∨ id ∈ q.live ∧ ∃ d, q.deadline id = some d ∧ d ≤ k
  events : evs = [] ∨ (∃ id k, evs = [.started id k] ∧ (id, k) ∈ q.hand) ∨
    ∃ id d, evs = [.recorded id d] ∧ id ∈ q.issued ∧ (∀ k, (id, k) ∉ q'.hand) ∧
      (∀ e, d = some e → ∀ e', q'.deadline id = some e' → e = e') ∧
      (d = none → id ∉ q'.live)

/-- The recorded deadline is not before the time the selection read. -/
def Forward (q : Queue ι τ) (evs : List (Event ι τ)) : Prop :=
  ∀ id d, .recorded id (some d) ∈ evs → ∃ k, (id, k) ∈ q.hand ∧ k ≤ d

end Model

/-- The deadline in force: the one the last outcome of the item set. -/
def current [DecidableEq ι] (id : ι) (log : List (Event ι τ)) : Option τ :=
  log.foldl (fun d => fun
    | .recorded id' d' => if id' = id then d' else d
    | .started _ _ => d) none

section Current

variable [DecidableEq ι] {id : ι} {log : List (Event ι τ)}

@[simp] theorem current_started (id' : ι) (k : τ) :
    current id (log ++ [Event.started id' k]) = current id log := by
  simp [current]

@[simp] theorem current_recorded (id' : ι) (d : Option τ) :
    current id (log ++ [Event.recorded id' d]) = if id' = id then d else current id log := by
  simp [current]

end Current

/-- Each attempt starts from a selection not before the deadline in force. -/
def Respects [DecidableEq ι] [LE τ] (log : List (Event ι τ)) : Prop :=
  ∀ pre post id k, log = pre ++ .started id k :: post → ∀ d, current id pre = some d → d ≤ k

/-- And not before any earlier deadline of the item. -/
def RespectsAll [LE τ] (log : List (Event ι τ)) : Prop :=
  ∀ pre post id k, log = pre ++ .started id k :: post →
    ∀ d, .recorded id (some d) ∈ pre → d ≤ k

def Event.started? : Event ι τ → Option ι
  | .recorded _ _ => none
  | .started id _ => some id

/-- The attempts of a history, in order. -/
def attempts (log : List (Event ι τ)) : List ι := log.filterMap Event.started?

@[simp] theorem attempts_nil : attempts ([] : List (Event ι τ)) = [] := rfl

@[simp] theorem attempts_recorded (id : ι) (d : Option τ) :
    attempts [.recorded id d] = [] := rfl

@[simp] theorem attempts_started (id : ι) (k : τ) : attempts [.started id k] = [id] := rfl

@[simp] theorem attempts_append (log log' : List (Event ι τ)) :
    attempts (log ++ log') = attempts log ++ attempts log' := List.filterMap_append

/-! ## 2. Histories -/

/-- An event of a history is one of its last event or of those before. -/
theorem event_of_snoc {log pre post : List (Event ι τ)} {ev x : Event ι τ}
    (h : log ++ [ev] = pre ++ x :: post) :
    (pre = log ∧ x = ev) ∨ ∃ post', log = pre ++ x :: post' := by
  rcases List.eq_nil_or_concat post with rfl | ⟨post', y, rfl⟩
  · have hlast := List.append_inj' h rfl
    refine .inl ⟨hlast.1.symm, ?_⟩
    simpa using hlast.2.symm
  · have h : log ++ [ev] = (pre ++ x :: post') ++ [y] := by simpa using h
    exact .inr ⟨post', (List.append_inj' h rfl).1⟩

section History

variable [DecidableEq ι] [Preorder τ] {q q' : Queue ι τ} {log evs : List (Event ι τ)}

/-- The queue agrees with the deadlines in force. -/
structure Keeps (q : Queue ι τ) (log : List (Event ι τ)) : Prop where
  issued : ∀ id d, current id log = some d → id ∈ q.issued
  deadline : ∀ id d e, current id log = some d → q.deadline id = some e → d ≤ e
  hand : ∀ id d k, current id log = some d → (id, k) ∈ q.hand → d ≤ k
  respects : Respects log

theorem Keeps.step (hK : Keeps q log) (h : Step q q' evs) : Keeps q' (log ++ evs) := by
  -- a selection that is new reads the deadline in force
  have hselected {id : ι} {d k : τ} (hd : current id log = some d) (hk : (id, k) ∈ q'.hand) :
      d ≤ k := by
    rcases h.hand id k hk with hold | ⟨-, e, he, hle⟩
    · exact hK.hand id d k hd hold
    · exact (hK.deadline id d e hd he).trans hle
  have hstored {id : ι} {d e : τ} (hd : current id log = some d)
      (hother : ∀ d', evs ≠ [.recorded id d']) (he : q'.deadline id = some e) : d ≤ e := by
    rcases h.deadline id e he with hold | hnew | ⟨d', hd'⟩
    · exact hK.deadline id d e hd hold
    · exact absurd (hK.issued id d hd) hnew
    · exact absurd hd' (hother d')
  rcases h.events with rfl | ⟨id₀, k₀, rfl, hhand⟩ | ⟨id₀, d₀, rfl, hissued, hgone, hset, hfinal⟩
  · rw [List.append_nil]
    exact ⟨fun id d hd => h.issued (hK.issued id d hd), fun id d e hd => hstored hd (by simp),
      fun id d k hd => hselected hd, hK.respects⟩
  · refine ⟨fun id d hd => ?_, fun id d e hd => ?_, fun id d k hd => ?_, ?_⟩
    · rw [current_started] at hd
      exact h.issued (hK.issued id d hd)
    · rw [current_started] at hd
      exact hstored hd (by simp)
    · rw [current_started] at hd
      exact hselected hd
    · intro pre post id k hsplit d hd
      rcases event_of_snoc hsplit with ⟨rfl, heq⟩ | ⟨post', hsplit⟩
      · cases heq
        exact hK.hand id₀ d k₀ hd hhand
      · exact hK.respects pre post' id k hsplit d hd
  · refine ⟨fun id d hd => ?_, fun id d e hd he => ?_, fun id d k hd hk => ?_, ?_⟩
    · rw [current_recorded] at hd
      split at hd
      · rename_i hid
        exact hid ▸ h.issued hissued
      · exact h.issued (hK.issued id d hd)
    · rw [current_recorded] at hd
      split at hd
      · rename_i hid
        subst hid
        exact (hset d hd e he).le
      · rename_i hid
        exact hstored hd (by simp [hid]) he
    · rw [current_recorded] at hd
      split at hd
      · rename_i hid
        subst hid
        exact absurd hk (hgone k)
      · exact hselected hd hk
    · intro pre post id k hsplit d hd
      rcases event_of_snoc hsplit with ⟨-, heq⟩ | ⟨post', hsplit⟩
      · cases heq
      · exact hK.respects pre post' id k hsplit d hd

omit [DecidableEq ι] in
theorem Step.lowered {id : ι} {d d' : τ} (h : Step q q' evs) (hstored : id ∈ q.issued)
    (hd : q.deadline id = some d) (hd' : q'.deadline id = some d') (hlt : d' < d) :
    ∃ e, evs = [.recorded id e] := by
  rcases h.deadline id d' hd' with hsame | hnew | hrecorded
  · rw [hd] at hsame
    cases hsame
    exact absurd hlt (lt_irrefl d)
  · exact absurd hstored hnew
  · exact hrecorded

omit [DecidableEq ι] in
/-- The queue agrees with every deadline there was. -/
structure KeepsAll (q : Queue ι τ) (log : List (Event ι τ)) : Prop where
  issued : ∀ id d, .recorded id (some d) ∈ log → id ∈ q.issued
  deadline : ∀ id d e, .recorded id (some d) ∈ log → id ∈ q.live → q.deadline id = some e → d ≤ e
  hand : ∀ id d k, .recorded id (some d) ∈ log → (id, k) ∈ q.hand → d ≤ k
  respects : RespectsAll log

omit [DecidableEq ι] in
theorem KeepsAll.step (hK : KeepsAll q log) (hforward : Forward q evs) (h : Step q q' evs) :
    KeepsAll q' (log ++ evs) := by
  have hselected {id : ι} {d k : τ} (hd : .recorded id (some d) ∈ log) (hk : (id, k) ∈ q'.hand) :
      d ≤ k := by
    rcases h.hand id k hk with hold | ⟨hlive, e, he, hle⟩
    · exact hK.hand id d k hd hold
    · exact (hK.deadline id d e hd hlive he).trans hle
  have hstored {id : ι} {d e : τ} (hd : .recorded id (some d) ∈ log)
      (hother : ∀ d', evs ≠ [.recorded id d']) (hlive : id ∈ q'.live)
      (he : q'.deadline id = some e) : d ≤ e := by
    have hissued := hK.issued id d hd
    rcases h.live id hlive with hlive | hnew
    · rcases h.deadline id e he with hold | hnew | ⟨d', hd'⟩
      · exact hK.deadline id d e hd hlive hold
      · exact absurd hissued hnew
      · exact absurd hd' (hother d')
    · exact absurd hissued hnew
  rcases h.events with rfl | ⟨id₀, k₀, rfl, hhand⟩ | ⟨id₀, d₀, rfl, hissued, hgone, hset, hfinal⟩
  · rw [List.append_nil]
    exact ⟨fun id d hd => h.issued (hK.issued id d hd), fun id d e hd => hstored hd (by simp),
      fun id d k hd => hselected hd, hK.respects⟩
  · have hold {id : ι} {d : τ} (hd : .recorded id (some d) ∈ log ++ [Event.started id₀ k₀]) :
        .recorded id (some d) ∈ log := by simpa using hd
    refine ⟨fun id d hd => h.issued (hK.issued id d (hold hd)),
      fun id d e hd => hstored (hold hd) (by simp), fun id d k hd => hselected (hold hd), ?_⟩
    intro pre post id k hsplit d hd
    rcases event_of_snoc hsplit with ⟨rfl, heq⟩ | ⟨post', hsplit⟩
    · cases heq
      exact hK.hand id₀ d k₀ hd hhand
    · exact hK.respects pre post' id k hsplit d hd
  · have hcases {id : ι} {d : τ} (hd : .recorded id (some d) ∈ log ++ [Event.recorded id₀ d₀]) :
        id = id₀ ∧ some d = d₀ ∨ .recorded id (some d) ∈ log := by
      simpa [or_comm] using hd
    -- the new deadline is not before the old ones of its item
    have hraised {d e : τ} (hd : .recorded id₀ (some d) ∈ log) (he : d₀ = some e) : d ≤ e := by
      obtain ⟨k, hk, hle⟩ := hforward id₀ e (by rw [he]; exact List.mem_cons_self)
      exact (hK.hand id₀ d k hd hk).trans hle
    refine ⟨fun id d hd => ?_, fun id d e hd hlive he => ?_, fun id d k hd hk => ?_, ?_⟩
    · rcases hcases hd with ⟨rfl, -⟩ | hd
      · exact h.issued hissued
      · exact h.issued (hK.issued id d hd)
    · by_cases hid : id = id₀
      · subst hid
        cases hd₀ : d₀ with
        | none => exact absurd hlive (hfinal hd₀)
        | some e₀ =>
          obtain rfl : e₀ = e := hset e₀ hd₀ e he
          rcases hcases hd with ⟨-, heq⟩ | hd
          · rw [hd₀] at heq
            cases heq
            exact le_refl _
          · exact hraised hd hd₀
      · rcases hcases hd with ⟨heq, -⟩ | hd
        · exact absurd heq hid
        · exact hstored hd (by simp [Ne.symm hid]) hlive he
    · rcases hcases hd with ⟨rfl, -⟩ | hd
      · exact absurd hk (hgone k)
      · exact hselected hd hk
    · intro pre post id k hsplit d hd
      rcases event_of_snoc hsplit with ⟨-, heq⟩ | ⟨post', hsplit⟩
      · cases heq
      · exact hK.respects pre post' id k hsplit d hd

end History

/-! ## 3. Systems that refine the model -/

section Refinement

variable [Preorder τ]

/-- The system `step` refines the model through `abs` while its states satisfy
`I`. Its steps show the events `obs`. -/
structure Refines (step : σ → ℓ → Option σ) (obs : σ → ℓ → List (Event ι τ)) (I : σ → Prop)
    (abs : σ → Queue ι τ) : Prop where
  inv : ∀ {s l s'}, I s → step s l = some s' → I s'
  stored : ∀ {s id d}, I s → (abs s).deadline id = some d → id ∈ (abs s).issued
  sim : ∀ {s l s'}, I s → step s l = some s' → Step (abs s) (abs s') (obs s l)

variable {step : σ → ℓ → Option σ} {obs : σ → ℓ → List (Event ι τ)} {I : σ → Prop}
  {abs : σ → Queue ι τ} {s s' : σ} {ls : List ℓ} {log : List (Event ι τ)}

theorem Refines.respects [DecidableEq ι] (hR : Refines step obs I abs) (hI : I s)
    (h : StepSystem.exec (StepSystem.recorded step obs) (s, []) ls = some (s', log)) :
    Respects log := by
  let J (p : σ × List (Event ι τ)) : Prop := I p.1 ∧ Keeps (abs p.1) p.2
  have hJ : ∀ {p l p'}, J p → StepSystem.recorded step obs p l = some p' → J p' := by
    rintro ⟨s, log⟩ l ⟨s', log'⟩ ⟨hs, hK⟩ hp
    obtain ⟨hstep, rfl⟩ := StepSystem.recorded_eq_some.mp hp
    exact ⟨hR.inv hs hstep, hK.step (hR.sim hs hstep)⟩
  have hstart : J (s, []) :=
    ⟨hI, by simp [current], by simp [current], by simp [current], by simp [Respects]⟩
  exact (StepSystem.exec_invariant hJ hstart h).2.respects

theorem Refines.respectsAll (hR : Refines step obs I abs) (hI : I s)
    (hforward : StepSystem.Meets step (fun s l => I s → Forward (abs s) (obs s l)) s ls)
    (h : StepSystem.exec (StepSystem.recorded step obs) (s, []) ls = some (s', log)) :
    RespectsAll log := by
  let J (p : σ × List (Event ι τ)) : Prop := I p.1 ∧ KeepsAll (abs p.1) p.2
  have hJ : ∀ {p l p'}, J p → (I p.1 → Forward (abs p.1) (obs p.1 l)) →
      StepSystem.recorded step obs p l = some p' → J p' := by
    rintro ⟨s, log⟩ l ⟨s', log'⟩ ⟨hs, hK⟩ hl hp
    obtain ⟨hstep, rfl⟩ := StepSystem.recorded_eq_some.mp hp
    exact ⟨hR.inv hs hstep, hK.step (hl hs) (hR.sim hs hstep)⟩
  have hstart : J (s, []) := ⟨hI, by simp, by simp, by simp, by simp [RespectsAll]⟩
  exact (StepSystem.exec_invariant_of_meets hJ hstart (hforward.recorded obs []) h).2.respects

/-- What a system that waits for its deadlines keeps, in every run from a state
that satisfies `init`. The history `obs` shows the attempts that `sent` counts. -/
structure Guards [DecidableEq ι] (step : σ → ℓ → Option σ) (obs : σ → ℓ → List (Event ι τ))
    (abs : σ → Queue ι τ) (sent : σ → List ι) (ordered : σ → ℓ → Prop) (init : σ → Prop) :
    Prop where
  shown : ∀ {s ls s' log}, init s →
    StepSystem.exec (StepSystem.recorded step obs) (s, []) ls = some (s', log) →
    sent s' = sent s ++ attempts log
  respects : ∀ {s ls s' log}, init s →
    StepSystem.exec (StepSystem.recorded step obs) (s, []) ls = some (s', log) → Respects log
  respectsAll : ∀ {s ls s' log}, init s → StepSystem.Meets step ordered s ls →
    StepSystem.exec (StepSystem.recorded step obs) (s, []) ls = some (s', log) → RespectsAll log
  lowered : ∀ {s ls s' l s'' id d d'}, init s → StepSystem.exec step s ls = some s' →
    step s' l = some s'' → (abs s').deadline id = some d → (abs s'').deadline id = some d' →
    d' < d → ∃ e, obs s' l = [.recorded id e]

theorem Refines.guards [DecidableEq ι] {sent : σ → List ι} {ordered : σ → ℓ → Prop}
    {init : σ → Prop} (hR : Refines step obs I abs) (hinit : ∀ {s}, init s → I s)
    (hsent : ∀ {s l s'}, step s l = some s' → sent s' = sent s ++ attempts (obs s l))
    (hforward : ∀ {s l}, ordered s l → Forward (abs s) (obs s l)) :
    Guards step obs abs sent ordered init where
  shown := by
    intro s ls s' log _ h
    let J (p : σ × List (Event ι τ)) : Prop := sent p.1 = sent s ++ attempts p.2
    have hJ : ∀ {p l p'}, J p → StepSystem.recorded step obs p l = some p' → J p' := by
      rintro ⟨s₁, log₁⟩ l ⟨s₂, log₂⟩ (hlog : sent s₁ = _) hp
      obtain ⟨hstep, rfl⟩ := StepSystem.recorded_eq_some.mp hp
      show sent s₂ = sent s ++ attempts (log₁ ++ obs s₁ l)
      rw [hsent hstep, hlog, attempts_append, List.append_assoc]
    have hstart : J (s, []) := (List.append_nil _).symm
    exact StepSystem.exec_invariant hJ hstart h
  respects hs h := hR.respects (hinit hs) h
  respectsAll hs hordered h :=
    hR.respectsAll (hinit hs) (hordered.mono fun _ _ hl _ => hforward hl) h
  lowered := by
    intro s ls s' l s'' id d d' hs hrun hstep hd hd' hlt
    have hI : I s' := StepSystem.exec_invariant hR.inv (hinit hs) hrun
    exact (hR.sim hI hstep).lowered (hR.stored hI hd) hd hd' hlt

end Refinement

end Cooldown
