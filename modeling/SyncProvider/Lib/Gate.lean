import SyncProvider.Lib.StepSystem
import Mathlib.Logic.Function.Basic

/-!
# A cap that is checked before an insert

Callers fill a store in three steps: read its size, compare the reading with
the cap, insert. Some requests are answered before the reading. Nothing ties the
steps together, so other callers insert and remove in between. `Gate` is the
store with its check, `Gate.step` the interleavings of any number of callers.

Results:
1. `step_cases` : what a step can be.
2. `meets_capKept_of_alone` : where no insert comes between the reading of a call
   and its insert, every insert ends within the cap, whatever is removed meanwhile.
3. `Lowered.exec` : the same calls in the same order under another cap.
4. `alone_of_meets_capKept` : an order of calls that keeps every cap is one where
   no insert comes between the reading of a call and its insert.
-/

/-- A store with a measured size, a check and its operations. -/
structure Gate (σ ρ δ ε : Type*) where
  size : σ → Nat
  weight : ρ → Nat
  /-- The answer to a request that is not worth a reading. -/
  early : ρ → Option ε
  /-- The answer to a request that is refused, given the size read and the cap. -/
  refusal : ρ → Nat → Int → Option ε
  insert : ρ → σ → Option σ
  remove : δ → σ → σ
  size_insert : ∀ {r s s'}, insert r s = some s' → size s' = size s + weight r
  size_remove : ∀ x s, size (remove x s) ≤ size s

namespace Gate

inductive Call (ρ ε : Type*) where
  | idle
  | entered (r : ρ)
  | counted (r : ρ) (seen : Nat)
  /-- The check let the call through at this cap. -/
  | passed (r : ρ) (seen : Nat) (cap : Int)
  | answered (e : ε)
  | accepted (r : ρ) (cap : Int)

structure State (σ ρ ε : Type*) where
  store : σ
  cap : Int
  calls : Nat → Call ρ ε

inductive Label (ρ δ : Type*) where
  | enter (t : Nat) (r : ρ)
  | count (t : Nat)
  | check (t : Nat)
  | commit (t : Nat)
  | remove (x : δ)
  | setCap (cap : Int)

variable {σ ρ δ ε : Type*}

/-- No call has begun. -/
def opened (store : σ) (cap : Int) : State σ ρ ε := ⟨store, cap, fun _ => .idle⟩

def State.setCall (s : State σ ρ ε) (t : Nat) (call : Call ρ ε) : State σ ρ ε :=
  { s with calls := Function.update s.calls t call }

@[simp] theorem State.setCall_self (s : State σ ρ ε) (t : Nat) (call : Call ρ ε) :
    (s.setCall t call).calls t = call :=
  Function.update_self ..

theorem State.setCall_of_ne {s : State σ ρ ε} {t u : Nat} {call : Call ρ ε} (h : u ≠ t) :
    (s.setCall t call).calls u = s.calls u :=
  Function.update_of_ne h ..

/-- A step of a call. -/
def Label.IsCall : Label ρ δ → Prop
  | .remove _ | .setCap _ => False
  | _ => True

def Label.isCommit : Label ρ δ → Bool
  | .commit _ => true
  | _ => false

section Step

variable (G : Gate σ ρ δ ε)

def step (s : State σ ρ ε) : Label ρ δ → Option (State σ ρ ε)
  | .enter t r =>
    match s.calls t with
    | .idle =>
      some (s.setCall t (match G.early r with
        | some e => .answered e
        | none => .entered r))
    | _ => none
  | .count t =>
    match s.calls t with
    | .entered r => some (s.setCall t (.counted r (G.size s.store)))
    | _ => none
  | .check t =>
    match s.calls t with
    | .counted r seen =>
      some (s.setCall t (match G.refusal r seen s.cap with
        | some e => .answered e
        | none => .passed r seen s.cap))
    | _ => none
  | .commit t =>
    match s.calls t with
    | .passed r _ cap =>
      (G.insert r s.store).map fun store => { s with store := store }.setCall t (.accepted r cap)
    | _ => none
  | .remove x => some { s with store := G.remove x s.store }
  | .setCap cap => some { s with cap := cap }

/-- The call that inserts ends within the cap that it was checked against. -/
def CapKept (s : State σ ρ ε) (l : Label ρ δ) : Prop :=
  ∀ t r seen cap s', l = .commit t → s.calls t = .passed r seen cap → G.step s l = some s' →
    (G.size s'.store : Int) ≤ cap

/-- What the call that inserts has read leaves room for its request under this cap. -/
def Fits (cap : Int) (s : State σ ρ ε) (l : Label ρ δ) : Prop :=
  ∀ t r seen cap', l = .commit t → s.calls t = .passed r seen cap' →
    (seen : Int) + G.weight r ≤ cap

/-- It leaves room under the cap that the call was checked against. -/
def FitsChecked (s : State σ ρ ε) (l : Label ρ δ) : Prop :=
  ∀ t r seen cap s', l = .commit t → s.calls t = .passed r seen cap → G.step s l = some s' →
    (seen : Int) + G.weight r ≤ cap

end Step

/-- No insert comes between the reading of a call and its insert. -/
def Alone (ls : List (Label ρ δ)) : Prop :=
  ∀ pre t mid post, ls = pre ++ .count t :: (mid ++ .commit t :: post) → ∀ u, .commit u ∉ mid

variable {G : Gate σ ρ δ ε} {s s' : State σ ρ ε} {l : Label ρ δ} {ls : List (Label ρ δ)}

/-! ## 1. What a step can be -/

inductive Moves (G : Gate σ ρ δ ε) (s : State σ ρ ε) : Label ρ δ → State σ ρ ε → Prop where
  | early {t : Nat} {r : ρ} {e : ε} (hidle : s.calls t = .idle) (he : G.early r = some e) :
      Moves G s (.enter t r) (s.setCall t (.answered e))
  | enter {t : Nat} {r : ρ} (hidle : s.calls t = .idle) (hr : G.early r = none) :
      Moves G s (.enter t r) (s.setCall t (.entered r))
  | count {t : Nat} {r : ρ} (hentered : s.calls t = .entered r) :
      Moves G s (.count t) (s.setCall t (.counted r (G.size s.store)))
  | refuse {t : Nat} {r : ρ} {seen : Nat} {e : ε} (hcounted : s.calls t = .counted r seen)
      (he : G.refusal r seen s.cap = some e) : Moves G s (.check t) (s.setCall t (.answered e))
  | pass {t : Nat} {r : ρ} {seen : Nat} (hcounted : s.calls t = .counted r seen)
      (hnone : G.refusal r seen s.cap = none) :
      Moves G s (.check t) (s.setCall t (.passed r seen s.cap))
  | commit {t : Nat} {r : ρ} {seen : Nat} {cap : Int} {store : σ}
      (hpassed : s.calls t = .passed r seen cap) (hinsert : G.insert r s.store = some store) :
      Moves G s (.commit t) ({ s with store := store }.setCall t (.accepted r cap))
  | remove (x : δ) : Moves G s (.remove x) { s with store := G.remove x s.store }
  | setCap (cap : Int) : Moves G s (.setCap cap) { s with cap := cap }

theorem step_cases (h : G.step s l = some s') : Moves G s l s' := by
  cases l with
  | enter t r =>
    simp only [step] at h
    split at h <;> cases h
    rename_i hidle
    split
    · rename_i e he
      exact .early hidle he
    · rename_i hr
      exact .enter hidle hr
  | count t =>
    simp only [step] at h
    split at h <;> cases h
    rename_i r hentered
    exact .count hentered
  | check t =>
    simp only [step] at h
    split at h <;> cases h
    rename_i r seen hcounted
    split
    · rename_i e he
      exact .refuse hcounted he
    · rename_i hnone
      exact .pass hcounted hnone
  | commit t =>
    simp only [step] at h
    split at h
    · rename_i r seen cap hpassed
      obtain ⟨store, hinsert, rfl⟩ := Option.map_eq_some_iff.mp h
      exact .commit hpassed hinsert
    · cases h
  | remove x =>
    cases h
    exact .remove x
  | setCap cap =>
    cases h
    exact .setCap cap

/-- What holds of every call still does when it holds of the one that is set. -/
theorem forall_setCall {P : Call ρ ε → Prop} (hall : ∀ t, P (s.calls t)) {t : Nat}
    {call : Call ρ ε} (hcall : P call) : ∀ u, P ((s.setCall t call).calls u) :=
  (Function.forall_update_iff s.calls fun _ => P).mpr ⟨hcall, fun u _ => hall u⟩

/-- Only an insert makes the store grow. -/
theorem size_step_le (h : G.step s l = some s') (hl : ∀ t, l ≠ .commit t) :
    G.size s'.store ≤ G.size s.store := by
  cases step_cases h with
  | commit => exact absurd rfl (hl _)
  | remove x => exact G.size_remove x s.store
  | early | enter | count | refuse | pass | setCap => exact Nat.le_refl _

theorem size_exec_le (h : StepSystem.exec G.step s ls = some s') (hls : ∀ t, .commit t ∉ ls) :
    G.size s'.store ≤ G.size s.store := by
  have hmeets : StepSystem.Meets G.step (fun _ l => ∀ t, l ≠ .commit t) s ls :=
    StepSystem.meets_of_forall fun l hl t ht => hls t (ht ▸ hl)
  exact StepSystem.exec_invariant_of_meets (I := fun m => G.size m.store ≤ G.size s.store)
    (fun hle hl hm => Nat.le_trans (size_step_le hm hl) hle) (Nat.le_refl _) hmeets h

/-! ## 2. Calls that are alone -/

/-- A single call is alone. -/
theorem alone_of_countP (h : ls.countP Label.isCommit ≤ 1) : Alone ls := by
  rintro pre t mid post rfl u hu
  have hmid : 0 < mid.countP Label.isCommit := List.countP_pos_iff.mpr ⟨_, hu, rfl⟩
  simp only [List.countP_append, List.countP_cons, Label.isCommit, if_true] at h
  omega

/-- A call that goes on was not answered early, and one that passed the check did so
with its reading. -/
def Call.Sound (G : Gate σ ρ δ ε) : Call ρ ε → Prop
  | .entered r | .counted r _ => G.early r = none
  | .passed r seen cap => G.early r = none ∧ G.refusal r seen cap = none
  | _ => True

def Sound (G : Gate σ ρ δ ε) (s : State σ ρ ε) : Prop := ∀ t, (s.calls t).Sound G

theorem Sound.step (hS : Sound G s) (h : G.step s l = some s') : Sound G s' := by
  cases step_cases h with
  | early | refuse => exact forall_setCall hS trivial
  | enter hidle hr => exact forall_setCall hS hr
  | @count t r hentered =>
    have hsound := hS t
    rw [hentered] at hsound
    exact forall_setCall hS hsound
  | @pass t r seen hcounted hnone =>
    have hsound := hS t
    rw [hcounted] at hsound
    exact forall_setCall hS ⟨hsound, hnone⟩
  | commit => exact forall_setCall hS trivial
  | remove | setCap => exact hS

theorem sound_opened (store : σ) (cap : Int) : Sound G (opened store cap) := fun _ => trivial

/-- The call goes on with its reading. -/
def Call.hasRead : Call ρ ε → Bool
  | .counted _ _ | .passed _ _ _ => true
  | _ => false

/-- The call has read `seen` for the request `r`, if it still goes on. -/
def Call.HasRead (r : ρ) (seen : Nat) : Call ρ ε → Prop
  | .idle | .entered _ => False
  | .counted r' seen' | .passed r' seen' _ => r' = r ∧ seen' = seen
  | _ => True

theorem hasRead_step {t : Nat} (hunread : (s.calls t).hasRead = false)
    (h : G.step s l = some s') (hl : l ≠ .count t) : (s'.calls t).hasRead = false := by
  cases step_cases h with
  | @early u | @enter u | @refuse u | @commit u =>
    by_cases hu : t = u
    · subst hu
      rw [State.setCall_self]
      rfl
    · rw [State.setCall_of_ne hu]
      exact hunread
  | @count u =>
    have hu : t ≠ u := by
      rintro rfl
      exact hl rfl
    rw [State.setCall_of_ne hu]
    exact hunread
  | @pass u r seen hcounted =>
    have hu : t ≠ u := by
      rintro rfl
      rw [hcounted] at hunread
      cases hunread
    rw [State.setCall_of_ne hu]
    exact hunread
  | remove | setCap => exact hunread

/-- A reading is made once. -/
theorem Call.HasRead.step {t : Nat} {r : ρ} {seen : Nat} (hR : (s.calls t).HasRead r seen)
    (h : G.step s l = some s') : (s'.calls t).HasRead r seen := by
  cases step_cases h with
  | @early u _ _ hcall | @enter u _ hcall | @count u _ hcall =>
    have hu : t ≠ u := by
      rintro rfl
      rw [hcall] at hR
      exact hR
    rw [State.setCall_of_ne hu]
    exact hR
  | @refuse u | @commit u =>
    by_cases hu : t = u
    · subst hu
      rw [State.setCall_self]
      trivial
    · rw [State.setCall_of_ne hu]
      exact hR
  | @pass u r' seen' hcounted =>
    by_cases hu : t = u
    · subst hu
      rw [hcounted] at hR
      rw [State.setCall_self]
      exact hR
    · rw [State.setCall_of_ne hu]
      exact hR
  | remove | setCap => exact hR

/-- A call that reads, and then passes the check, has read what there was. -/
theorem seen_of_count {t : Nat} {r : ρ} {seen : Nat} {cap : Int} {m : State σ ρ ε}
    (hm : G.step s (.count t) = some m) (h : StepSystem.exec G.step m ls = some s')
    (hpassed : s'.calls t = .passed r seen cap) : seen = G.size s.store := by
  cases step_cases hm with
  | @count _ r₀ hentered =>
    have hread : (s'.calls t).HasRead r₀ (G.size s.store) := by
      refine StepSystem.exec_invariant
        (I := fun m : State σ ρ ε => (m.calls t).HasRead r₀ (G.size s.store))
        Call.HasRead.step ?_ h
      rw [State.setCall_self]
      exact ⟨rfl, rfl⟩
    rw [hpassed] at hread
    exact hread.2

/-- A call that has passed the check made its reading at some point of the run. -/
theorem exists_count {t : Nat} {r : ρ} {seen : Nat} {cap : Int}
    (hunread : (s.calls t).hasRead = false) (h : StepSystem.exec G.step s ls = some s')
    (hpassed : s'.calls t = .passed r seen cap) :
    ∃ pre mid m, ls = pre ++ .count t :: mid ∧ StepSystem.exec G.step m mid = some s' ∧
      G.size m.store = seen := by
  induction ls generalizing s with
  | nil =>
    cases h
    rw [hpassed] at hunread
    cases hunread
  | cons l ls ih =>
    obtain ⟨m, hm, hrest⟩ := StepSystem.exec_cons_eq_some.mp h
    by_cases hl : l = .count t
    · subst hl
      have hseen : seen = G.size s.store := seen_of_count hm hrest hpassed
      refine ⟨[], ls, m, rfl, hrest, ?_⟩
      cases step_cases hm with
      | count => exact hseen.symm
    · obtain ⟨pre, mid, m', rfl, hrun, hsize⟩ := ih (hasRead_step hunread hm hl) hrest
      exact ⟨l :: pre, mid, m', rfl, hrun, hsize⟩

/-- When the calls are alone and each finds the room it takes, the cap is kept in every
run, with whatever is removed and however the cap changes. -/
theorem meets_capKept_of_alone {store : σ} {cap : Int} (hls : Alone ls)
    (hfits : StepSystem.Meets G.step G.FitsChecked (opened store cap) ls) :
    StepSystem.Meets G.step G.CapKept (opened store cap) ls := by
  refine StepSystem.meets_iff_forall_prefix.mpr fun pre l post m hpre hm => ?_
  rintro t r seen c s' rfl hpassed hs
  have hroom : (seen : Int) + G.weight r ≤ c :=
    StepSystem.meets_iff_forall_prefix.mp hfits pre _ post m hpre hm t r seen c s' rfl hpassed hs
  obtain ⟨before, mid, m', rfl, hrun, hseen⟩ := exists_count rfl hm hpassed
  have hgrown : G.size m.store ≤ G.size m'.store :=
    size_exec_le hrun (hls before t mid post (by rw [hpre]; simp))
  cases step_cases hs with
  | @commit _ _ _ _ store' hpassed' hinsert =>
    rw [hpassed] at hpassed'
    cases hpassed'
    have hsize := G.size_insert hinsert
    show (G.size store' : Int) ≤ c
    omega

/-! ## 3. The same order under another cap -/

/-- The sizes read are behind the size now, and the checks were against the cap. -/
def Call.Steady (size : Nat) (cap : Int) : Call ρ ε → Prop
  | .counted _ seen => seen ≤ size
  | .passed _ seen c => seen ≤ size ∧ c = cap
  | _ => True

def Steady (G : Gate σ ρ δ ε) (s : State σ ρ ε) : Prop :=
  ∀ t, (s.calls t).Steady (G.size s.store) s.cap

theorem Call.Steady.mono {size size' : Nat} {cap : Int} {call : Call ρ ε}
    (h : call.Steady size cap) (hsize : size ≤ size') : call.Steady size' cap := by
  cases call with
  | counted r seen => exact Nat.le_trans h hsize
  | passed r seen c => exact ⟨Nat.le_trans h.1 hsize, h.2⟩
  | _ => trivial

theorem steady_opened (store : σ) (cap : Int) : Steady G (opened store cap) := fun _ => trivial

theorem Steady.step (hS : Steady G s) (hl : l.IsCall) (h : G.step s l = some s') :
    Steady G s' := by
  cases step_cases h with
  | early | enter | refuse => exact forall_setCall hS trivial
  | count => exact forall_setCall hS (Nat.le_refl _)
  | @pass t r seen hcounted =>
    have hsteady := hS t
    rw [hcounted] at hsteady
    exact forall_setCall hS ⟨hsteady, rfl⟩
  | @commit t r seen cap store hpassed hinsert =>
    have hsize := G.size_insert hinsert
    have hle : G.size s.store ≤ G.size store := by omega
    exact forall_setCall (fun t => (hS t).mono hle) trivial
  | remove | setCap => exact absurd hl not_false

theorem cap_step (hl : l.IsCall) (h : G.step s l = some s') : s'.cap = s.cap := by
  cases step_cases h with
  | early | enter | count | refuse | pass | commit => rfl
  | remove | setCap => exact absurd hl not_false

theorem cap_exec (hls : ∀ l ∈ ls, l.IsCall) (h : StepSystem.exec G.step s ls = some s') :
    s'.cap = s.cap :=
  StepSystem.exec_invariant_of_meets (I := fun m => m.cap = s.cap)
    (fun hcap hl hm => (cap_step hl hm).trans hcap) rfl (StepSystem.meets_of_forall hls) h

/-- Calls only make the store grow. -/
theorem size_le_step (hl : l.IsCall) (h : G.step s l = some s') :
    G.size s.store ≤ G.size s'.store := by
  cases step_cases h with
  | @commit t r seen cap store hpassed hinsert =>
    have hsize := G.size_insert hinsert
    show G.size s.store ≤ G.size store
    omega
  | early | enter | count | refuse | pass => exact Nat.le_refl _
  | remove | setCap => exact absurd hl not_false

theorem size_le_exec (hls : ∀ l ∈ ls, l.IsCall) (h : StepSystem.exec G.step s ls = some s') :
    G.size s.store ≤ G.size s'.store :=
  StepSystem.exec_invariant_of_meets (I := fun m => G.size s.store ≤ G.size m.store)
    (fun hle hl hm => Nat.le_trans hle (size_le_step hl hm)) (Nat.le_refl _)
    (StepSystem.meets_of_forall hls) h

/-- A cap that holds what there is in the end is one that every insert fits under. -/
theorem meets_fits {cap : Int} (hS : Steady G s) (hls : ∀ l ∈ ls, l.IsCall)
    (h : StepSystem.exec G.step s ls = some s') (hsize : (G.size s'.store : Int) ≤ cap) :
    StepSystem.Meets G.step (G.Fits cap) s ls := by
  induction ls generalizing s with
  | nil => trivial
  | cons l ls ih =>
    obtain ⟨m, hm, hrest⟩ := StepSystem.exec_cons_eq_some.mp h
    obtain ⟨hl, htail⟩ := List.forall_mem_cons.mp hls
    refine .cons hm ?_ (ih (hS.step hl hm) htail hrest)
    rintro t r seen c rfl hpassed
    have hsteady := hS t
    rw [hpassed] at hsteady
    cases step_cases hm with
    | @commit _ _ _ _ store hpassed' hinsert =>
      rw [hpassed] at hpassed'
      cases hpassed'
      have hinserted := G.size_insert hinsert
      have hend : G.size store ≤ G.size s'.store := size_le_exec htail hrest
      have hseen := hsteady.1
      omega

/-- Where the call stands under the cap `cap`: where it stood, as long as it goes on, and
past its check if it fits. -/
def Call.Lowered (G : Gate σ ρ δ ε) (cap : Int) : Call ρ ε → Call ρ ε → Prop
  | .passed r seen _, call => (seen : Int) + G.weight r ≤ cap → call = .passed r seen cap
  | .answered _, _ | .accepted _ _, _ => True
  | call, call' => call' = call

structure Lowered (G : Gate σ ρ δ ε) (c : Int) (m n : State σ ρ ε) : Prop where
  store : n.store = m.store
  cap : n.cap = c
  calls : ∀ t, (m.calls t).Lowered G c (n.calls t)

theorem lowered_opened (store : σ) (cap c : Int) :
    Lowered G c (opened store cap) (opened store c) :=
  ⟨rfl, rfl, fun _ => rfl⟩

section Lowered

variable {c : Int} {m m' n : State σ ρ ε}

theorem Lowered.setCall (hL : Lowered G c m n) {t : Nat} {call call' : Call ρ ε}
    (hcall : call.Lowered G c call') : Lowered G c (m.setCall t call) (n.setCall t call') := by
  refine ⟨hL.store, hL.cap, fun u => ?_⟩
  by_cases hu : u = t
  · subst hu
    rw [State.setCall_self, State.setCall_self]
    exact hcall
  · rw [State.setCall_of_ne hu, State.setCall_of_ne hu]
    exact hL.calls u

/-- Under a cap that every insert fits under, the calls take the same steps. -/
theorem Lowered.step
    (hcheck : ∀ r (seen : Nat), (seen : Int) + G.weight r ≤ c → G.refusal r seen c = none)
    (hL : Lowered G c m n) (hl : l.IsCall) (hfits : G.Fits c m l) (h : G.step m l = some m') :
    ∃ n', G.step n l = some n' ∧ Lowered G c m' n' := by
  cases step_cases h with
  | @early t r e hidle he =>
    have hn := hL.calls t
    rw [hidle] at hn
    refine ⟨n.setCall t (.answered e), ?_, hL.setCall trivial⟩
    simp only [Gate.step, show n.calls t = .idle from hn, he]
  | @enter t r hidle hr =>
    have hn := hL.calls t
    rw [hidle] at hn
    refine ⟨n.setCall t (.entered r), ?_, hL.setCall rfl⟩
    simp only [Gate.step, show n.calls t = .idle from hn, hr]
  | @count t r hentered =>
    have hn := hL.calls t
    rw [hentered] at hn
    refine ⟨n.setCall t (.counted r (G.size m.store)), ?_, hL.setCall rfl⟩
    simp only [Gate.step, show n.calls t = .entered r from hn, hL.store]
  | @refuse t r seen e hcounted he =>
    have hn := hL.calls t
    rw [hcounted] at hn
    refine ⟨n.setCall t (match G.refusal r seen n.cap with
      | some e => .answered e
      | none => .passed r seen n.cap), ?_, hL.setCall trivial⟩
    simp only [Gate.step, show n.calls t = .counted r seen from hn]
  | @pass t r seen hcounted hnone =>
    have hn := hL.calls t
    rw [hcounted] at hn
    refine ⟨n.setCall t (match G.refusal r seen n.cap with
      | some e => .answered e
      | none => .passed r seen n.cap), ?_, hL.setCall fun hroom => ?_⟩
    · simp only [Gate.step, show n.calls t = .counted r seen from hn]
    · rw [hL.cap, hcheck r seen hroom]
  | @commit t r seen cap store hpassed hinsert =>
    have hn := hL.calls t
    rw [hpassed] at hn
    have hn : n.calls t = .passed r seen c := hn (hfits t r seen cap rfl hpassed)
    have hL' : Lowered G c { m with store := store } { n with store := store } :=
      ⟨rfl, hL.cap, hL.calls⟩
    have haccepted : Call.Lowered G c (.accepted r cap) (.accepted r c : Call ρ ε) := trivial
    refine ⟨{ n with store := store }.setCall t (.accepted r c), ?_, hL'.setCall haccepted⟩
    simp only [Gate.step, hn, hL.store, hinsert, Option.map_some]
  | remove | setCap => exact absurd hl not_false

theorem Lowered.exec
    (hcheck : ∀ r (seen : Nat), (seen : Int) + G.weight r ≤ c → G.refusal r seen c = none)
    (hL : Lowered G c m n) (hls : ∀ l ∈ ls, l.IsCall)
    (hfits : StepSystem.Meets G.step (G.Fits c) m ls)
    (h : StepSystem.exec G.step m ls = some m') :
    ∃ n', StepSystem.exec G.step n ls = some n' ∧ Lowered G c m' n' := by
  -- no label is left out
  have hall := @StepSystem.exec_erase _ _ _ G.step G.step (fun _ => true) _ (Lowered G c)
    (fun hL hC _ hm => hL.step hcheck hC.1 hC.2 hm) (fun _ _ hdrop => nomatch hdrop) m m' n ls hL
    ((StepSystem.meets_of_forall hls).and hfits) h
  rwa [List.filter_eq_self.mpr fun _ _ => rfl] at hall

end Lowered

/-! ## 4. Orders that keep every cap -/

/-- An insert of something makes the store grow. -/
theorem size_lt_exec {t : Nat} (hS : Sound G s) (hweight : ∀ r, G.early r = none → 0 < G.weight r)
    (hls : ∀ l ∈ ls, l.IsCall) (ht : .commit t ∈ ls) (h : StepSystem.exec G.step s ls = some s') :
    G.size s.store < G.size s'.store := by
  induction ls generalizing s with
  | nil => cases ht
  | cons l ls ih =>
    obtain ⟨m, hm, hrest⟩ := StepSystem.exec_cons_eq_some.mp h
    obtain ⟨hl, htail⟩ := List.forall_mem_cons.mp hls
    have hhead : G.size s.store ≤ G.size m.store := size_le_step hl hm
    have hend : G.size m.store ≤ G.size s'.store := size_le_exec htail hrest
    rcases List.mem_cons.mp ht with rfl | ht
    · cases step_cases hm with
      | @commit _ r seen cap store hpassed hinsert =>
        have hsound := hS t
        rw [hpassed] at hsound
        have hpositive := hweight r hsound.1
        have hsize := G.size_insert hinsert
        have hend : G.size store ≤ G.size s'.store := hend
        omega
    · exact Nat.lt_of_le_of_lt hhead (ih (hS.step hm) htail ht hrest)

/-- An order of calls that keeps every cap of `caps` is one in which they are alone. With
one insert too many, the cap just below what there is afterwards would let all of its
calls pass as well. -/
theorem alone_of_meets_capKept (caps : Int → Prop) {store : σ} {cap : Int}
    (hweight : ∀ r, G.early r = none → 0 < G.weight r)
    (hcheck : ∀ r (seen : Nat) c, caps c → (seen : Int) + G.weight r ≤ c →
      G.refusal r seen c = none)
    (hlower : ∀ c, c ≤ cap → (G.size store : Int) < c → caps c)
    (hls : ∀ l ∈ ls, l.IsCall) (hcap : caps cap)
    (h : StepSystem.exec G.step (opened store cap) ls = some s')
    (hkept : ∀ c, caps c → StepSystem.Meets G.step G.CapKept (opened store c) ls) : Alone ls := by
  rintro pre t mid post rfl u hu
  obtain ⟨s₀, hs₀, h⟩ := StepSystem.exec_append_eq_some.mp h
  obtain ⟨s₁, hs₁, h⟩ := StepSystem.exec_cons_eq_some.mp h
  obtain ⟨s₂, hs₂, h⟩ := StepSystem.exec_append_eq_some.mp h
  obtain ⟨s₃, hs₃, -⟩ := StepSystem.exec_cons_eq_some.mp h
  have hbefore : ∀ l ∈ pre ++ .count t :: mid, l.IsCall := fun l hl =>
    hls l (by simp only [List.mem_append, List.mem_cons] at hl ⊢; tauto)
  have hmid : ∀ l ∈ mid, l.IsCall := fun l hl =>
    hbefore l (List.mem_append_right _ (List.mem_cons_of_mem _ hl))
  have hrun : StepSystem.exec G.step (opened store cap) (pre ++ .count t :: mid) = some s₂ :=
    StepSystem.exec_append_eq_some.mpr
      ⟨s₀, hs₀, StepSystem.exec_cons_eq_some.mpr ⟨s₁, hs₁, hs₂⟩⟩
  have hsound : Sound G s₂ := StepSystem.exec_invariant Sound.step (sound_opened store cap) hrun
  have hsteady : Steady G s₂ :=
    StepSystem.exec_invariant_of_meets (fun hI hl hs => hI.step hl hs) (steady_opened store cap)
      (StepSystem.meets_of_forall hbefore) hrun
  have hcapped : s₂.cap = cap := cap_exec hbefore hrun
  have hstored : G.size s₁.store = G.size s₀.store := by
    cases step_cases hs₁ with
    | count => rfl
  have hsound₁ : Sound G s₁ :=
    (StepSystem.exec_invariant Sound.step (sound_opened store cap) hs₀).step hs₁
  have hgrown : G.size s₁.store < G.size s₂.store := size_lt_exec hsound₁ hweight hmid hu hs₂
  cases step_cases hs₃ with
  | @commit _ r seen cap' store' hpassed hinsert =>
    have hsize := G.size_insert hinsert
    have hs := hsound t
    have hst := hsteady t
    have hseen : seen = G.size s₀.store := seen_of_count hs₁ hs₂ hpassed
    rw [hpassed] at hs hst
    obtain rfl : cap' = cap := hst.2.trans hcapped
    have hpositive : 0 < G.weight r := hweight r hs.1
    have hstart : G.size store ≤ G.size s₀.store :=
      size_le_exec (fun l hl => hbefore l (List.mem_append_left _ hl)) hs₀
    have heq : pre ++ .count t :: (mid ++ .commit t :: post) =
        (pre ++ .count t :: mid) ++ .commit t :: post := by simp
    have hle : (G.size store' : Int) ≤ cap' :=
      StepSystem.meets_iff_forall_prefix.mp (hkept cap' hcap) _ _ post s₂ heq hrun t r seen cap' _
        rfl hpassed hs₃
    -- the cap just below what there is afterwards
    let c : Int := (G.size store' : Int) - 1
    have hroom : (seen : Int) + G.weight r ≤ c := by omega
    have hc : caps c := hlower c (by omega) (by omega)
    obtain ⟨n, hn, hL⟩ := (lowered_opened store cap' c).exec
      (fun r seen hfits => hcheck r seen c hc hfits) hbefore
      (meets_fits (steady_opened store cap') hbefore hrun (by omega)) hrun
    have hnpassed : n.calls t = .passed r seen c := by
      have hcall := hL.calls t
      rw [hpassed] at hcall
      exact hcall hroom
    have hstep : G.step n (.commit t) =
        some ({ n with store := store' }.setCall t (.accepted r c)) := by
      simp only [Gate.step, hnpassed, hL.store, hinsert, Option.map_some]
    have hover : (G.size store' : Int) ≤ c :=
      StepSystem.meets_iff_forall_prefix.mp (hkept c hc) _ _ post n heq hn t r seen c _ rfl
        hnpassed hstep
    omega

end Gate
