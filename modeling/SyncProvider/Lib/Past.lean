import SyncProvider.Lib.StepSystem

/-!
# Runs and their past

What a state holds may come from any earlier step of the run. An invariant that says so
speaks about the labels that led to the state.

Results:
1. `exec_past_invariant` : what every step keeps, with the past it extends, every run keeps.
2. `Visits.append`, `visits_last` : the states a longer run passes through.
-/

namespace StepSystem

variable {σ ℓ : Type*} {step : σ → ℓ → Option σ}

theorem exec_snoc_eq_some {s s' m : σ} {l : ℓ} {past : List ℓ} (hpast : exec step s past = some m)
    (hs : step m l = some s') : exec step s (past ++ [l]) = some s' :=
  exec_append_eq_some.mpr ⟨m, hpast, exec_cons_eq_some.mpr ⟨s', hs, rfl⟩⟩

/-- The invariant `P past s` of the run `past` that has led to `s`. -/
theorem exec_past_invariant {P : List ℓ → σ → Prop} {s₀ s : σ} {ls : List ℓ} (h0 : P [] s₀)
    (hstep : ∀ {past s l s'}, exec step s₀ past = some s → P past s → step s l = some s' →
      P (past ++ [l]) s')
    (h : exec step s₀ ls = some s) : P ls s := by
  have from_past {past rest : List ℓ} {m : σ} (hpast : exec step s₀ past = some m) (hP : P past m)
      (hrest : exec step m rest = some s) : P (past ++ rest) s := by
    induction rest generalizing past m with
    | nil =>
      cases hrest
      rwa [List.append_nil]
    | cons l rest ih =>
      obtain ⟨m', hm', hrest⟩ := exec_cons_eq_some.mp hrest
      have hmore := ih (exec_snoc_eq_some hpast hm') (hstep hpast hP hm') hrest
      rwa [List.append_assoc, List.singleton_append] at hmore
  have hall : P ([] ++ ls) s := from_past rfl h0 h
  exact hall

/-- A longer run passes through the same states. -/
theorem Visits.append {Q : σ → Prop} {s : σ} {ls : List ℓ} (h : Visits step Q s ls)
    (more : List ℓ) : Visits step Q s (ls ++ more) := by
  obtain ⟨pre, post, m, rfl, he, hm⟩ := h
  exact ⟨pre, post ++ more, m, List.append_assoc _ _ _, he, hm⟩

/-- A run passes through its last state. -/
theorem visits_last {Q : σ → Prop} {s s' : σ} {ls : List ℓ} (h : exec step s ls = some s')
    (hQ : Q s') : Visits step Q s ls :=
  ⟨ls, [], s', (List.append_nil ls).symm, h, hQ⟩

theorem Visits.mono {Q Q' : σ → Prop} {s : σ} {ls : List ℓ} (hQ : ∀ m, Q m → Q' m)
    (h : Visits step Q s ls) : Visits step Q' s ls := by
  obtain ⟨pre, post, m, hls, he, hm⟩ := h
  exact ⟨pre, post, m, hls, he, hQ m hm⟩

/-- A run with a history variable is a run without it. -/
theorem exec_of_recorded {α : Type*} {obs : σ → ℓ → List α} {p q : σ × List α} {ls : List ℓ}
    (h : exec (recorded step obs) p ls = some q) : exec step p.1 ls = some q.1 := by
  induction ls generalizing p with
  | nil =>
    cases h
    rfl
  | cons l ls ih =>
    obtain ⟨m, hm, hrest⟩ := exec_cons_eq_some.mp h
    exact exec_cons_eq_some.mpr ⟨m.1, (recorded_eq_some.mp hm).1, ih hrest⟩

end StepSystem
