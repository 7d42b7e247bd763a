import SyncProvider.Ios.Wire

/-!
# iOS: whose completion a dispatch returns with

A background upload carries the id of its item, and the delegate hands its
completion to whoever has registered for that id. The session outlives the
process, so the uploads are numbered here over all processes: each dispatch
waits for the upload it has created.

Results:
1. `Numbered.step` : each handler is that of the one upload of this process.
2. `own_outcomes_iff` : when every dispatch returns with its own upload.
-/

namespace SyncProvider.Ios

namespace Wire

/-! ## The model -/

/-- The numbers of the uploads, in the order of their creation. -/
structure Numbers where
  next : Nat
  /-- The numbers of `Wire.tasks`. -/
  tasks : List Nat
  /-- The numbers of `Wire.leftover`. -/
  leftover : List Nat
  /-- The task that a flush call has created last. -/
  created : Nat → Option Nat

namespace Numbers

/-- The first process that is looked at, with the uploads it has found. -/
def launch (leftover : List String) : Numbers where
  next := leftover.length
  tasks := []
  leftover := List.range leftover.length
  created _ := none

/-- The numbers of the uploads among these requests. -/
def ofUploads (tasks : List URLSessionTask) (numbers : List Nat) : List Nat :=
  ((tasks.zip numbers).filter (·.1.background)).map (·.2)

def after (n : Numbers) (s : Wire) : Label → Numbers
  | .engine (.kill _ _) =>
    { n with
      tasks := []
      leftover := n.leftover ++ ofUploads s.tasks n.tasks
      created := fun _ => none }
  | .engine _ => n
  | .send t _ =>
    { n with
      next := n.next + 1
      tasks := n.tasks ++ [n.next]
      created := Function.update n.created t (some n.next) }
  | .complete i _ _ => { n with tasks := n.tasks.eraseIdx i }
  | .completeLeftover i _ _ => { n with leftover := n.leftover.eraseIdx i }

end Numbers

/-- The install with its uploads numbered. -/
def numbered (scheme : String → Option String) (p : Wire × Numbers) (l : Label) :
    Option (Wire × Numbers) :=
  (p.1.step scheme l).map fun s => (s, p.2.after p.1 l)

/-- When `dispatchOnBackground` returns in this step: the upload it has created,
and the one it returns with. -/
def returned (p : Wire × Numbers) : Label → Option (Option Nat × Option Nat)
  | .complete i _ _ =>
    p.1.tasks[i]?.bind fun task =>
      if task.background then
        (p.1.completions task.itemId).map fun t => (p.2.created t, p.2.tasks[i]?)
      else none
  | .completeLeftover i _ _ =>
    (p.1.leftover[i]?.bind p.1.completions).map fun t => (p.2.created t, p.2.leftover[i]?)
  | .engine _ | .send _ _ => none

/-- The dispatch that returns in this step, if one does, returns with the
completion of its own upload. -/
def OwnOutcome (p : Wire × Numbers) (l : Label) : Prop :=
  ∀ own completed, returned p l = some (own, completed) → own.isSome = true ∧ own = completed

/-! ## 1. One upload at a time -/

/-- The request that is out, if any, is the one its call has created, and no
upload of an earlier process. -/
structure Numbered (p : Wire × Numbers) : Prop where
  served : Served p.1
  out : p.1.tasks = [] ∧ p.2.tasks = [] ∨ ∃ task k, p.1.tasks = [task] ∧ p.2.tasks = [k] ∧
    p.2.created task.call = some k ∧ k < p.2.next ∧ k ∉ p.2.leftover
  leftover : ∀ k ∈ p.2.leftover, k < p.2.next

variable {scheme : String → Option String} {s s' : Wire} {n n' : Numbers} {l : Label}

theorem Numbered.kill (hN : Numbered (s, n)) (hS : Served s') (htasks : s'.tasks = []) :
    Numbered (s', { n with
      tasks := []
      leftover := n.leftover ++ Numbers.ofUploads s.tasks n.tasks
      created := fun _ => none }) where
  served := hS
  out := .inl ⟨htasks, rfl⟩
  leftover k hk := by
    rcases List.mem_append.mp hk with hk | hk
    · exact hN.leftover k hk
    · rcases hN.out with ⟨hnone, -⟩ | ⟨task, k', htask, hk', -, hlt, -⟩
      · rw [Numbers.ofUploads, show s.tasks = [] from hnone] at hk
        cases hk
      · rw [Numbers.ofUploads, show s.tasks = [task] from htask, show n.tasks = [k'] from hk'] at hk
        obtain ⟨q, hq, rfl⟩ := List.mem_map.mp hk
        obtain rfl := List.mem_singleton.mp (List.mem_filter.mp hq).1
        exact hlt

theorem Numbered.send (hN : Numbered (s, n)) {t : Nat} {background : Bool}
    (hS : Served s') (hstep : s.step scheme (.send t background) = some s') :
    Numbered (s', n.after s (.send t background)) := by
  obtain ⟨itemId, hnext, h⟩ := Option.bind_eq_some_iff.mp hstep
  obtain ⟨e, he, rfl⟩ := Option.map_eq_some_iff.mp h
  -- the new request is the only one
  have hnone : s.tasks = [] := by
    have hsingle := hS.single
    rw [List.length_append, List.length_singleton] at hsingle
    exact List.length_eq_zero_iff.mp (by omega)
  have hnumbers : n.tasks = [] := by
    rcases hN.out with ⟨-, hn⟩ | ⟨task, k, htask, -⟩
    · exact hn
    · rw [show s.tasks = [task] from htask] at hnone
      cases hnone
  refine ⟨hS, .inr ⟨⟨itemId, t, background⟩, n.next, ?_, ?_, ?_, Nat.lt_succ_self _, ?_⟩, ?_⟩
  · rw [hnone]
    rfl
  · show n.tasks ++ [n.next] = [n.next]
    rw [hnumbers]
    rfl
  · exact Function.update_self ..
  · exact fun hk => absurd (hN.leftover _ hk) (Nat.lt_irrefl _)
  · exact fun k hk => Nat.lt_succ_of_lt (hN.leftover k hk)

/-- The request that was out is gone. -/
theorem Numbered.complete (hN : Numbered (s, n)) {i : Nat} {statusCode : Option Int}
    {error : Option TransportError} (hS : Served s')
    (hstep : s.step scheme (.complete i statusCode error) = some s') :
    Numbered (s', { n with tasks := n.tasks.eraseIdx i }) := by
  obtain ⟨task, hi, h⟩ := Option.bind_eq_some_iff.mp hstep
  obtain ⟨rfl, htasks⟩ := hN.served.eq_singleton hi
  have hgone : s'.tasks = s.tasks.eraseIdx 0 := by
    have hresume {r r' : Wire} {t : Nat} (h : resume scheme r t statusCode error = some r') :
        r'.tasks = r.tasks := by
      obtain ⟨e, -, rfl⟩ := Option.map_eq_some_iff.mp h
      rfl
    dsimp only at h
    split at h
    · unfold didComplete at h
      split at h
      · exact hresume h
      · cases h
        rfl
    · exact hresume h
  refine ⟨hS, .inl ⟨?_, ?_⟩, hN.leftover⟩
  · rw [hgone, htasks]
    rfl
  · rcases hN.out with ⟨hnone, -⟩ | ⟨task', k, -, hk, -⟩
    · rw [show s.tasks = [] from hnone] at htasks
      cases htasks
    · rw [show n.tasks = [k] from hk]
      rfl

theorem Numbered.step {p p' : Wire × Numbers} (hN : Numbered p) (hl : p.1.Unmixed l)
    (h : numbered scheme p l = some p') : Numbered p' := by
  obtain ⟨s, n⟩ := p
  obtain ⟨s', hstep, rfl⟩ := Option.map_eq_some_iff.mp h
  have hS : Served s' := hN.served.step hl hstep
  cases l with
  | engine l =>
    obtain ⟨-, h⟩ := Option.ite_none_left_eq_some.mp hstep
    obtain ⟨e, he, rfl⟩ := Option.map_eq_some_iff.mp h
    cases l with
    | kill config paused => exact hN.kill hS rfl
    | _ => exact ⟨hS, hN.out, hN.leftover⟩
  | send t background => exact hN.send hS hstep
  | complete i statusCode error => exact hN.complete hS hstep
  | completeLeftover i statusCode error =>
    obtain ⟨itemId, hi, h⟩ := Option.bind_eq_some_iff.mp hstep
    -- no handler, so nothing but the upload is gone
    have hnone : s.completions itemId = none := by simpa [Unmixed, hi] using hl
    simp only [didComplete, hnone] at h
    cases h
    have hsub : n.leftover.eraseIdx i ⊆ n.leftover := List.eraseIdx_subset
    refine ⟨hS, ?_, fun k hk => hN.leftover k (hsub hk)⟩
    refine hN.out.imp_right ?_
    rintro ⟨task, k, htask, hk, hcreated, hlt, hfresh⟩
    exact ⟨task, k, htask, hk, hcreated, hlt, fun hmem => hfresh (hsub hmem)⟩

/-! ## 2. Whose completion it is -/

/-- A handler is that of the request that is out. -/
theorem Numbered.created_of_handler {p : Wire × Numbers} (hN : Numbered p) {id : String} {t : Nat}
    (ht : p.1.completions id = some t) :
    ∃ k, p.1.tasks = [⟨id, t, true⟩] ∧ p.2.tasks = [k] ∧ p.2.created t = some k ∧
      k ∉ p.2.leftover := by
  have hmem := hN.served.handlers id t ht
  rcases hN.out with ⟨hnone, -⟩ | ⟨task, k, htask, hk, hcreated, -, hfresh⟩
  · rw [hnone] at hmem
    cases hmem
  · rw [htask, List.mem_singleton] at hmem
    subst hmem
    exact ⟨k, htask, hk, hcreated, hfresh⟩

theorem ownOutcome_iff {p : Wire × Numbers} (hN : Numbered p) :
    OwnOutcome p l ↔ p.1.Unmixed l := by
  cases l with
  | engine | send => exact ⟨fun _ => trivial, by rintro - _ _ ⟨⟩⟩
  | complete i statusCode error =>
    refine ⟨fun _ => trivial, fun _ own completed h => ?_⟩
    obtain ⟨task, hi, h⟩ := Option.bind_eq_some_iff.mp h
    obtain ⟨hbackground, h⟩ := Option.ite_none_right_eq_some.mp h
    obtain ⟨t, ht, heq⟩ := Option.map_eq_some_iff.mp h
    obtain ⟨k, -, hk, hcreated, -⟩ := hN.created_of_handler ht
    obtain ⟨rfl, -⟩ := hN.served.eq_singleton hi
    rw [hcreated, hk] at heq
    cases heq
    exact ⟨rfl, rfl⟩
  | completeLeftover i statusCode error =>
    constructor
    · intro hown
      show (p.1.leftover[i]?.bind p.1.completions) = none
      refine Option.eq_none_iff_forall_ne_some.mpr fun t ht => ?_
      obtain ⟨id, -, hid⟩ := Option.bind_eq_some_iff.mp ht
      obtain ⟨k, -, -, hcreated, hfresh⟩ := hN.created_of_handler hid
      obtain ⟨-, heq⟩ := hown (p.2.created t) p.2.leftover[i]?
        (Option.map_eq_some_iff.mpr ⟨t, ht, rfl⟩)
      exact hfresh (List.mem_of_getElem? (heq.symm.trans hcreated))
    · intro hunmixed own completed h
      obtain ⟨t, ht, -⟩ := Option.map_eq_some_iff.mp h
      rw [show _ = none from hunmixed] at ht
      cases ht

theorem Launched.numbered (h : Launched s) : Numbered (s, .launch s.leftover) where
  served := h.served
  out := .inl ⟨h.tasks, rfl⟩
  leftover _ hk := List.mem_range.mp hk

/-- In every run of an install, over any number of processes and in any order of
the completions: each dispatch on the background session returns with the
completion of the upload it has created, exactly when no upload of an earlier
process completes while a handler is registered for its item. -/
theorem own_outcomes_iff (h : Launched s) (ls : List Label) :
    StepSystem.Meets (numbered scheme) OwnOutcome (s, .launch s.leftover) ls ↔
      StepSystem.Meets (numbered scheme) (fun p l => p.1.Unmixed l) (s, .launch s.leftover) ls :=
  StepSystem.meets_congr_of_meets (I := Numbered) (fun hN hl hs => hN.step hl hs) ownOutcome_iff
    h.numbered

section Sample

/-- The upload of the dead process is answered first, and the new dispatch, which
waits for upload 1, returns with the answer to upload 0. -/
theorem leftover_outcome_goes_to_new_dispatch :
    ∃ p, StepSystem.exec (numbered Engine.https) (firstLaunch, .launch []) relaunchRun = some p ∧
      returned p (.completeLeftover 0 (some 500) none) = some (some 1, some 0) := by
  have htrace : (StepSystem.exec (numbered Engine.https) (firstLaunch, .launch [])
      relaunchRun).map (fun p => returned p (.completeLeftover 0 (some 500) none)) =
        some (some (some 1, some 0)) := by
    decide +kernel
  exact Option.map_eq_some_iff.mp htrace

/-- It is answered after that dispatch has returned. -/
theorem own_outcomes_when_dropped :
    StepSystem.Meets (numbered Engine.https) OwnOutcome (firstLaunch, .launch []) droppedRun :=
  (own_outcomes_iff firstLaunch_launched droppedRun).mpr (by decide +kernel)

end Sample

end Wire

end SyncProvider.Ios
