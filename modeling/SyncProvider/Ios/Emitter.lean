import SyncProvider.Lib.Broadcast

/-!
# iOS: who hears an event

`emit` takes the listeners under the lock, and calls them on the main thread: at once when it
is there, and in a block of the main queue when it is not. Listeners come and go in between.
Each belongs to an instance of `HybridSyncProvider`. There is one for each JS runtime, and its
`deinit` removes the listeners that were added through it.

Results:
1. `step_carries`, `hears_in_order` : what a listener hears of a thread.
2. `owned_step` : each instance has its listeners in hand until they are removed.
   `stays_until_removed`, `reload_silences` : when a listener leaves, and what it hears then.
-/

namespace SyncProvider.Ios

open StepSystem (exec recorded exec_cons_eq_some exec_invariant)

/-! ## The model -/

def kSyncEventChannel : String := "sync-event"

inductive Thread where
  | main
  | background (n : Nat)
  deriving DecidableEq

/-- A call of `emit`, with the callbacks of its snapshot that are still to be called. A callback
goes by the id of its subscription. -/
structure Invocation (ε : Type) where
  thread : Thread
  payload : ε
  callbacks : List String

/-- What a call of `emit` has for a listener. -/
def Invocation.share {ε : Type} (call : Invocation ε) (id : String) (thread : Thread) : List ε :=
  if call.thread = thread ∧ id ∈ call.callbacks then [call.payload] else []

/-- An instance of `HybridSyncProvider`. -/
structure Hybrid where
  listenerIds : List String
  /-- Tasks of `addListener` that have not noted their id. They keep the instance alive. -/
  adding : List String
  /-- Tasks of `removeListener` that have not called the emitter. -/
  removing : List String
  /-- What its `deinit` has still to remove. -/
  leaving : Option (List String)
  /-- Every id that `addListener` has got for it. -/
  given : List String

/-- The ids that a task or the `deinit` of the instance will still come to. -/
def Hybrid.tracked (hybrid : Hybrid) : List String :=
  match hybrid.leaving with
  | none => hybrid.adding ++ hybrid.listenerIds ++ hybrid.removing
  | some ids => ids

/-- The emitter, the main queue and the instances. `ε` stands for `SyncEventPayload`. -/
structure Emitter (ε : Type) where
  /-- `listeners[kSyncEventChannel]`. No other channel ever has a bucket. -/
  listeners : List String
  /-- Every UUID so far. -/
  issued : List String
  hybrids : Nat → Option Hybrid
  /-- Calls on other threads that have their snapshot. -/
  emits : Nat → Option (Invocation ε)
  mainQueue : List (Invocation ε)
  /-- What the main thread is calling. -/
  running : Option (Invocation ε)
  /-- The calls of callbacks so far. -/
  called : List (String × Thread × ε)

namespace Emitter

variable {ε : Type}

inductive Label (ε : Type) where
  | attach (h : Nat)
  | addListener (h : Nat) (event id : String)
  | noteId (h : Nat) (id : String)
  | dropId (h : Nat) (event id : String)
  | removeListener (h : Nat) (id : String)
  | deinit (h : Nat)
  /-- `deinit` removes one of its listeners. -/
  | forget (h : Nat) (id : String)
  | emit (thread : Thread) (payload : ε)
  /-- `DispatchQueue.main.async`. -/
  | async (n : Nat)
  | runBlock
  /-- The main thread calls the next of the snapshot's values, which have no order. -/
  | call (id : String)

/-- `bucket.removeValue(forKey: id)`. -/
def without (ids : List String) (id : String) : List String := ids.filter fun x => x ≠ id

def setHybrid (s : Emitter ε) (h : Nat) (hybrid : Hybrid) : Emitter ε :=
  { s with hybrids := Function.update s.hybrids h (some hybrid) }

def step (s : Emitter ε) : Label ε → Option (Emitter ε)
  | .attach h =>
    if (s.hybrids h).isSome then none else some (s.setHybrid h ⟨[], [], [], none, []⟩)
  | .addListener h event id =>
    (s.hybrids h).bind fun hybrid =>
      if hybrid.leaving.isSome then none
      -- an unknown channel throws
      else if event ≠ kSyncEventChannel then some s
      else if id ∈ s.issued then none
      else
        some { s.setHybrid h { hybrid with
            adding := hybrid.adding ++ [id]
            given := hybrid.given ++ [id] } with
          listeners := s.listeners ++ [id]
          issued := s.issued ++ [id] }
  | .noteId h id =>
    (s.hybrids h).bind fun hybrid =>
      if id ∈ hybrid.adding then
        some (s.setHybrid h { hybrid with
          adding := hybrid.adding.erase id
          listenerIds := hybrid.listenerIds.insert id })
      else none
  | .dropId h event id =>
    (s.hybrids h).bind fun hybrid =>
      if hybrid.leaving.isSome then none
      else if event ≠ kSyncEventChannel then some s
      else
        some (s.setHybrid h { hybrid with
          listenerIds := without hybrid.listenerIds id
          removing := hybrid.removing ++ [id] })
  | .removeListener h id =>
    (s.hybrids h).bind fun hybrid =>
      if id ∈ hybrid.removing then
        some { s.setHybrid h { hybrid with removing := hybrid.removing.erase id } with
          listeners := without s.listeners id }
      else none
  | .deinit h =>
    (s.hybrids h).bind fun hybrid =>
      if hybrid.leaving.isNone ∧ hybrid.adding = [] ∧ hybrid.removing = [] then
        some (s.setHybrid h { hybrid with leaving := some hybrid.listenerIds })
      else none
  | .forget h id =>
    (s.hybrids h).bind fun hybrid =>
      hybrid.leaving.bind fun ids =>
        if id ∈ ids then
          some { s.setHybrid h { hybrid with leaving := some (ids.erase id) } with
            listeners := without s.listeners id }
        else none
  | .emit .main payload =>
    if s.running.isSome then none
    else if s.listeners = [] then some s
    else some { s with running := some ⟨.main, payload, s.listeners⟩ }
  | .emit (.background n) payload =>
    if (s.emits n).isSome then none
    else if s.listeners = [] then some s
    else some { s with
      emits := Function.update s.emits n (some ⟨.background n, payload, s.listeners⟩) }
  | .async n =>
    (s.emits n).map fun call =>
      { s with mainQueue := s.mainQueue ++ [call], emits := Function.update s.emits n none }
  | .runBlock =>
    match s.running, s.mainQueue with
    | none, call :: rest => some { s with running := some call, mainQueue := rest }
    | _, _ => none
  | .call id =>
    s.running.bind fun call =>
      if id ∈ call.callbacks then
        some { s with
          called := s.called ++ [(id, call.thread, call.payload)]
          running := if without call.callbacks id = [] then none
            else some { call with callbacks := without call.callbacks id } }
      else none

/-- The process has started. -/
def launch : Emitter ε where
  listeners := []
  issued := []
  hybrids _ := none
  emits _ := none
  mainQueue := []
  running := none
  called := []

abbrev Reachable : Emitter ε → Prop := StepSystem.Reachable (· = launch) step

/-! ## What is claimed -/

/-- What a listener has heard of a thread. -/
def heard (s : Emitter ε) (id : String) (thread : Thread) : List ε :=
  (s.called.filter fun x => x.1 = id ∧ x.2.1 = thread).map fun x => x.2.2

/-- The call that a thread has in hand. -/
def held (s : Emitter ε) : Thread → Option (Invocation ε)
  | .main => none
  | .background n => s.emits n

/-- What is on its way to a listener: from what the main thread is calling to what the thread
has in hand. -/
def waiting (s : Emitter ε) (id : String) (thread : Thread) : List ε :=
  (s.running.toList ++ s.mainQueue ++ (s.held thread).toList).flatMap (·.share id thread)

def channels (s : Emitter ε) : Channels String Thread ε where
  registered := s.listeners
  waiting := s.waiting
  heard := s.heard

def said : Label ε → Option (Thread × ε)
  | .emit thread payload => some (thread, payload)
  | _ => none

/-- What a thread emits in a step while the listener is registered. -/
def emittedFor (id : String) (thread : Thread) : Emitter ε → Label ε → List ε :=
  Channels.entering channels said id thread

/-- No call of `emit` is under way. -/
def Quiet (s : Emitter ε) : Prop :=
  s.running = none ∧ s.mainQueue = [] ∧ ∀ n, s.emits n = none

/-! ## 1. The channels -/

/-- What a step can do. -/
inductive Moves (s : Emitter ε) : Label ε → Emitter ε → Prop where
  | idles {l : Label ε} (h : said l = none ∨ s.listeners = []) : Moves s l s
  | attaches {h : Nat} (hh : s.hybrids h = none) :
    Moves s (.attach h) (s.setHybrid h ⟨[], [], [], none, []⟩)
  | adds {h : Nat} {hybrid : Hybrid} {event id : String} (hh : s.hybrids h = some hybrid)
    (halive : hybrid.leaving = none) (hid : id ∉ s.issued) :
    Moves s (.addListener h event id)
      { s.setHybrid h { hybrid with
          adding := hybrid.adding ++ [id]
          given := hybrid.given ++ [id] } with
        listeners := s.listeners ++ [id]
        issued := s.issued ++ [id] }
  | notes {h : Nat} {hybrid : Hybrid} {id : String} (hh : s.hybrids h = some hybrid)
    (hid : id ∈ hybrid.adding) :
    Moves s (.noteId h id) (s.setHybrid h { hybrid with
      adding := hybrid.adding.erase id
      listenerIds := hybrid.listenerIds.insert id })
  | drops {h : Nat} {hybrid : Hybrid} {event id : String} (hh : s.hybrids h = some hybrid)
    (halive : hybrid.leaving = none) :
    Moves s (.dropId h event id) (s.setHybrid h { hybrid with
      listenerIds := without hybrid.listenerIds id
      removing := hybrid.removing ++ [id] })
  | removes {h : Nat} {hybrid : Hybrid} {id : String} (hh : s.hybrids h = some hybrid)
    (hid : id ∈ hybrid.removing) :
    Moves s (.removeListener h id)
      { s.setHybrid h { hybrid with removing := hybrid.removing.erase id } with
        listeners := without s.listeners id }
  | leaves {h : Nat} {hybrid : Hybrid} (hh : s.hybrids h = some hybrid)
    (halive : hybrid.leaving = none) (hadding : hybrid.adding = [])
    (hremoving : hybrid.removing = []) :
    Moves s (.deinit h) (s.setHybrid h { hybrid with leaving := some hybrid.listenerIds })
  | forgets {h : Nat} {hybrid : Hybrid} {ids : List String} {id : String}
    (hh : s.hybrids h = some hybrid) (hleaving : hybrid.leaving = some ids) (hid : id ∈ ids) :
    Moves s (.forget h id)
      { s.setHybrid h { hybrid with leaving := some (ids.erase id) } with
        listeners := without s.listeners id }
  | emitsHere {payload : ε} (hrunning : s.running = none) :
    Moves s (.emit .main payload) { s with running := some ⟨.main, payload, s.listeners⟩ }
  | emits {n : Nat} {payload : ε} (hnone : s.emits n = none) :
    Moves s (.emit (.background n) payload) { s with
      emits := Function.update s.emits n (some ⟨.background n, payload, s.listeners⟩) }
  | asyncs {n : Nat} {call : Invocation ε} (hcall : s.emits n = some call) :
    Moves s (.async n)
      { s with mainQueue := s.mainQueue ++ [call], emits := Function.update s.emits n none }
  | runs {call : Invocation ε} {rest : List (Invocation ε)} (hrunning : s.running = none)
    (hqueue : s.mainQueue = call :: rest) :
    Moves s .runBlock { s with running := some call, mainQueue := rest }
  | calls {call : Invocation ε} {id : String} {next : Option (Invocation ε)}
    (hrunning : s.running = some call) (hid : id ∈ call.callbacks)
    (hnext : next = (if without call.callbacks id = [] then none
      else some { call with callbacks := without call.callbacks id })) :
    Moves s (.call id)
      { s with called := s.called ++ [(id, call.thread, call.payload)], running := next }

variable {s s' : Emitter ε} {l : Label ε} {ls : List (Label ε)} {id : String} {thread : Thread}

theorem moves_step (h : s.step l = some s') : Moves s l s' := by
  cases l with
  | attach h =>
    obtain ⟨hh, h⟩ := Option.ite_none_left_eq_some.mp h
    cases h
    exact .attaches (by simpa using hh)
  | addListener h event id =>
    obtain ⟨hybrid, hh, h⟩ := Option.bind_eq_some_iff.mp h
    split at h
    · cases h
    · split at h
      · cases h
        exact .idles (.inl rfl)
      · split at h
        · cases h
        · cases h
          exact .adds hh (by simpa using ‹¬ hybrid.leaving.isSome = true›) ‹_›
  | noteId h id =>
    obtain ⟨hybrid, hh, h⟩ := Option.bind_eq_some_iff.mp h
    obtain ⟨hid, h⟩ := Option.ite_none_right_eq_some.mp h
    cases h
    exact .notes hh hid
  | dropId h event id =>
    obtain ⟨hybrid, hh, h⟩ := Option.bind_eq_some_iff.mp h
    split at h
    · cases h
    · split at h
      · cases h
        exact .idles (.inl rfl)
      · cases h
        exact .drops hh (by simpa using ‹¬ hybrid.leaving.isSome = true›)
  | removeListener h id =>
    obtain ⟨hybrid, hh, h⟩ := Option.bind_eq_some_iff.mp h
    obtain ⟨hid, h⟩ := Option.ite_none_right_eq_some.mp h
    cases h
    exact .removes hh hid
  | deinit h =>
    obtain ⟨hybrid, hh, h⟩ := Option.bind_eq_some_iff.mp h
    obtain ⟨⟨halive, hadding, hremoving⟩, h⟩ := Option.ite_none_right_eq_some.mp h
    cases h
    exact .leaves hh (Option.isNone_iff_eq_none.mp halive) hadding hremoving
  | forget h id =>
    obtain ⟨hybrid, hh, h⟩ := Option.bind_eq_some_iff.mp h
    obtain ⟨ids, hleaving, h⟩ := Option.bind_eq_some_iff.mp h
    obtain ⟨hid, h⟩ := Option.ite_none_right_eq_some.mp h
    cases h
    exact .forgets hh hleaving hid
  | emit thread payload =>
    cases thread with
    | main =>
      simp only [step] at h
      split at h
      · cases h
      · split at h
        · cases h
          exact .idles (.inr ‹_›)
        · cases h
          exact .emitsHere (by simpa using ‹¬ s.running.isSome = true›)
    | background n =>
      simp only [step] at h
      split at h
      · cases h
      · split at h
        · cases h
          exact .idles (.inr ‹_›)
        · cases h
          exact .emits (by simpa using ‹¬ (s.emits n).isSome = true›)
  | async n =>
    obtain ⟨call, hcall, rfl⟩ := Option.map_eq_some_iff.mp h
    exact .asyncs hcall
  | runBlock =>
    simp only [step] at h
    split at h
    · cases h
      exact .runs ‹_› ‹_›
    · cases h
  | call id =>
    obtain ⟨call, hrunning, h⟩ := Option.bind_eq_some_iff.mp h
    obtain ⟨hid, h⟩ := Option.ite_none_right_eq_some.mp h
    cases h
    exact .calls hrunning hid rfl

/-- The main thread calls without a block of the queue, and a background thread has its own
call in hand. -/
structure Inv (s : Emitter ε) : Prop where
  queue : ∀ call ∈ s.mainQueue, call.thread ≠ .main
  emits : ∀ n call, s.emits n = some call → call.thread = .background n

theorem inv_step (hI : Inv s) (h : s.step l = some s') : Inv s' := by
  cases moves_step h with
  | @emits n payload hnone =>
    refine ⟨hI.queue, fun m call hcall => ?_⟩
    by_cases hm : m = n
    · subst hm
      cases (Function.update_self ..).symm.trans hcall
      rfl
    · exact hI.emits m call ((Function.update_of_ne hm _ _).symm.trans hcall)
  | @asyncs n call hcall =>
    refine ⟨fun other hother => ?_, fun m other hother => ?_⟩
    · rcases List.mem_append.mp hother with hother | hother
      · exact hI.queue other hother
      · obtain rfl := List.mem_singleton.mp hother
        rw [hI.emits n other hcall]
        rintro ⟨⟩
    · by_cases hm : m = n
      · subst hm
        cases (Function.update_self ..).symm.trans hother
      · exact hI.emits m other ((Function.update_of_ne hm _ _).symm.trans hother)
  | @runs call rest hrunning hqueue =>
    exact ⟨fun other hother => hI.queue other (hqueue ▸ List.mem_cons_of_mem call hother),
      hI.emits⟩
  | idles | attaches | adds | notes | drops | removes | leaves | forgets | emitsHere | calls =>
    exact ⟨hI.queue, hI.emits⟩

theorem share_of_ne {call : Invocation ε} (h : call.thread ≠ thread) (id : String) :
    call.share id thread = [] := if_neg fun hand => h hand.1

/-- A snapshot has the event for the listeners that are registered. -/
theorem share_snapshot (s : Emitter ε) (here : Thread) (payload : ε) (id : String)
    (thread : Thread) : Invocation.share ⟨here, payload, s.listeners⟩ id thread =
      s.channels.due id thread (some (here, payload)) := by
  rw [Channels.due_some]
  rfl

/-- What is left of a call for one listener, when another has been called. -/
theorem share_without (call : Invocation ε) (id k : String) (thread : Thread) :
    ((if without call.callbacks id = [] then none
        else some { call with callbacks := without call.callbacks id } :
        Option (Invocation ε)).toList.flatMap fun call => call.share k thread) =
      if k = id then [] else call.share k thread := by
  have hmem : k ∈ without call.callbacks id ↔ k ∈ call.callbacks ∧ k ≠ id := by
    simp [without]
  split
  · rename_i hnone
    rw [hnone] at hmem
    by_cases hk : k = id
    · simp [hk]
    · simp only [List.not_mem_nil, false_iff, not_and, not_not] at hmem
      rw [if_neg hk, Invocation.share, if_neg fun hand => hk (hmem hand.2)]
      rfl
  · rw [Option.toList_some, List.flatMap_singleton]
    simp only [Invocation.share, hmem]
    by_cases hk : k = id <;> simp [hk]

theorem heard_called (s : Emitter ε) (call : Invocation ε) (id k : String) (thread : Thread)
    (next : Option (Invocation ε)) (hid : id ∈ call.callbacks) :
    heard { s with
        called := s.called ++ [(id, call.thread, call.payload)], running := next } k thread =
      s.heard k thread ++ if k = id then call.share k thread else [] := by
  simp only [heard, List.filter_append, List.map_append]
  by_cases hk : k = id
  · subst hk
    by_cases hthread : call.thread = thread <;> simp [Invocation.share, hthread, hid]
  · simp [hk, Ne.symm hk]

theorem flatMap_share_main (hI : Inv s) (id : String) :
    s.mainQueue.flatMap (·.share id .main) = [] := by
  rw [List.flatMap_eq_nil_iff]
  exact fun call hcall => share_of_ne (hI.queue call hcall) id

theorem waiting_of_quiet (h : s.Quiet) (id : String) (thread : Thread) :
    s.waiting id thread = [] := by
  obtain ⟨hrunning, hqueue, hemits⟩ := h
  have hheld : s.held thread = none := by
    cases thread with
    | main => rfl
    | background n => exact hemits n
  rw [waiting, hrunning, hqueue, hheld]
  rfl

/-- A step passes on to a listener what a thread emitted first, and takes in what it emits. -/
theorem passes_step (hI : Inv s) (h : s.step l = some s') :
    s.channels.Passes (said l) s'.channels := by
  have hkeep (hheard : s'.heard = s.heard) (hwaiting : ∀ id thread,
      s'.waiting id thread = s.waiting id thread ++ s.channels.due id thread (said l)) :
      s.channels.Passes (said l) s'.channels :=
    fun id thread =>
      ⟨[], (congrFun₂ hheard id thread).trans (List.append_nil _).symm, hwaiting id thread⟩
  have hquiet (hsaid : said l = none) (hheard : s'.heard = s.heard)
      (hwaiting : ∀ id thread, s'.waiting id thread = s.waiting id thread) :
      s.channels.Passes (said l) s'.channels := by
    refine hkeep hheard fun id thread => ?_
    rw [hsaid, Channels.due_none, List.append_nil]
    exact hwaiting id thread
  cases moves_step h with
  | idles hl =>
    rcases hl with hl | hl
    · exact hquiet hl rfl fun _ _ => rfl
    · refine hkeep rfl fun id thread => ?_
      rw [Channels.due_of_notMem (by simp [channels, hl]), List.append_nil]
  | attaches | adds | notes | drops | removes | leaves | forgets =>
    exact hquiet rfl rfl fun _ _ => rfl
  | @emitsHere payload hrunning =>
    refine hkeep rfl fun id thread => ?_
    rw [said, ← share_snapshot]
    simp only [waiting, hrunning, List.flatMap_append, Option.toList_some, Option.toList_none,
      List.flatMap_singleton, List.nil_append, List.append_assoc]
    by_cases hthread : thread = .main
    · subst hthread
      rw [flatMap_share_main hI]
      exact List.append_nil _
    · rw [share_of_ne (Ne.symm hthread), List.nil_append, List.append_nil]
      rfl
  | @emits n payload hnone =>
    refine hkeep rfl fun id thread => ?_
    rw [said, ← share_snapshot]
    simp only [waiting, List.flatMap_append, List.append_assoc]
    refine congrArg (_ ++ ·) (congrArg (_ ++ ·) ?_)
    by_cases hthread : thread = .background n
    · subst hthread
      simp [held, hnone]
    · rw [share_of_ne (Ne.symm hthread), List.append_nil]
      cases thread with
      | main => rfl
      | background m =>
        have hm : m ≠ n := fun hm => hthread (hm ▸ rfl)
        simp only [held, Function.update_of_ne hm]
  | @asyncs n call hcall =>
    refine hquiet rfl rfl fun id thread => ?_
    simp only [waiting, List.flatMap_append, List.append_assoc]
    refine congrArg (_ ++ ·) (congrArg (_ ++ ·) ?_)
    by_cases hthread : thread = .background n
    · subst hthread
      simp [held, hcall]
    · have hcall' : call.thread ≠ thread := hI.emits n call hcall ▸ Ne.symm hthread
      rw [List.flatMap_singleton, share_of_ne hcall', List.nil_append]
      cases thread with
      | main => rfl
      | background m =>
        have hm : m ≠ n := fun hm => hthread (hm ▸ rfl)
        simp only [held, Function.update_of_ne hm]
  | @runs call rest hrunning hqueue =>
    refine hquiet rfl rfl fun id thread => ?_
    simp only [waiting, hrunning, hqueue]
    rfl
  | @calls call id next hrunning hid hnext =>
    intro k thread
    refine ⟨_, heard_called s call id k thread next hid, ?_⟩
    have hnext' : next.toList.flatMap (·.share k thread) =
        if k = id then [] else call.share k thread := hnext ▸ share_without call id k thread
    rw [show said (.call id) = none from rfl, Channels.due_none, List.append_nil]
    simp only [channels, waiting, hrunning, List.append_assoc, List.flatMap_append, hnext',
      Option.toList_some, List.flatMap_singleton]
    rw [← List.append_assoc]
    refine congrArg₂ (· ++ ·) ?_ rfl
    by_cases hk : k = id <;> simp [hk]

theorem step_carries : Channels.Carries (@step ε) Inv channels said where
  inv := inv_step
  passes := passes_step

theorem inv_launch : Inv (@launch ε) where
  queue := nofun
  emits := nofun

/-- Whatever the threads do, and whoever comes and goes: what a listener has heard of a thread,
and then what is on its way, is what the thread has emitted while the listener was registered,
each event once and in order. -/
theorem hears_in_order {log : List ε} (id : String) (thread : Thread)
    (hrun : exec (recorded step (emittedFor id thread)) (launch, []) ls = some (s, log)) :
    s.heard id thread ++ s.waiting id thread = log ∧
      (s.Quiet → s.heard id thread = log) := by
  have hlaunch : (@launch ε).waiting id thread = [] :=
    waiting_of_quiet ⟨rfl, rfl, fun _ => rfl⟩ id thread
  have hall : s.heard id thread ++ s.waiting id thread = log :=
    step_carries.heard_waiting inv_launch hrun hlaunch
  refine ⟨hall, fun hquiet => ?_⟩
  rwa [waiting_of_quiet hquiet, List.append_nil] at hall

/-! ## 2. Whose listeners are left -/

/-- What an instance knows of its listeners. -/
structure Tracks (listeners issued : List String) (hybrid : Hybrid) : Prop where
  issued : hybrid.given ⊆ issued
  /-- Each of its listeners is still in its hand. -/
  tracked : ∀ id ∈ hybrid.given, id ∈ listeners → id ∈ hybrid.tracked
  adding : hybrid.adding ⊆ hybrid.given
  listenerIds : hybrid.listenerIds ⊆ hybrid.given
  leaving : ∀ ids, hybrid.leaving = some ids → ids ⊆ hybrid.given

theorem mem_without {ids : List String} {id k : String} :
    k ∈ without ids id ↔ k ∈ ids ∧ k ≠ id := by
  simp [without]

namespace Tracks

variable {listeners issued : List String} {hybrid : Hybrid}

theorem mono {listeners' issued' : List String} (hT : Tracks listeners issued hybrid)
    (hissued : issued ⊆ issued') (hlisteners : ∀ id ∈ hybrid.given, id ∈ listeners' →
      id ∈ listeners) : Tracks listeners' issued' hybrid where
  issued := List.Subset.trans hT.issued hissued
  tracked id hid hin := hT.tracked id hid (hlisteners id hid hin)
  adding := hT.adding
  listenerIds := hT.listenerIds
  leaving := hT.leaving

theorem add (hT : Tracks listeners issued hybrid) (halive : hybrid.leaving = none) (id : String) :
    Tracks (listeners ++ [id]) (issued ++ [id])
      { hybrid with adding := hybrid.adding ++ [id], given := hybrid.given ++ [id] } where
  issued := List.append_subset.mpr ⟨List.subset_append_of_subset_left _ hT.issued,
    List.subset_append_right _ _⟩
  tracked k hk hin := by
    have hold := hT.tracked k
    simp only [Hybrid.tracked, halive, List.mem_append, List.mem_singleton] at hold hk hin ⊢
    tauto
  adding := List.append_subset.mpr ⟨List.subset_append_of_subset_left _ hT.adding,
    List.subset_append_right _ _⟩
  listenerIds := List.subset_append_of_subset_left _ hT.listenerIds
  leaving ids hids := by
    rw [halive] at hids
    cases hids

theorem note (hT : Tracks listeners issued hybrid) {id : String} (hid : id ∈ hybrid.adding) :
    Tracks listeners issued { hybrid with
      adding := hybrid.adding.erase id
      listenerIds := hybrid.listenerIds.insert id } where
  issued := hT.issued
  tracked k hk hin := by
    have hold := hT.tracked k hk hin
    unfold Hybrid.tracked at hold ⊢
    cases hleaving : hybrid.leaving with
    | some ids =>
      rw [hleaving] at hold
      exact hold
    | none =>
      rw [hleaving] at hold
      simp only [List.mem_append, List.mem_insert_iff] at hold ⊢
      by_cases hkid : k = id
      · exact .inl (.inr (.inl hkid))
      · rw [List.mem_erase_of_ne hkid]
        tauto
  adding := List.Subset.trans List.erase_subset hT.adding
  listenerIds k hk := by
    rcases List.mem_insert_iff.mp hk with rfl | hk
    · exact hT.adding hid
    · exact hT.listenerIds hk
  leaving := hT.leaving

theorem drop (hT : Tracks listeners issued hybrid) (halive : hybrid.leaving = none) (id : String) :
    Tracks listeners issued { hybrid with
      listenerIds := without hybrid.listenerIds id
      removing := hybrid.removing ++ [id] } where
  issued := hT.issued
  tracked k hk hin := by
    have hold := hT.tracked k hk hin
    simp only [Hybrid.tracked, halive, List.mem_append, mem_without, List.mem_singleton] at hold ⊢
    tauto
  adding := hT.adding
  listenerIds k hk := hT.listenerIds (mem_without.mp hk).1
  leaving := hT.leaving

theorem remove (hT : Tracks listeners issued hybrid) (id : String) :
    Tracks (without listeners id) issued
      { hybrid with removing := hybrid.removing.erase id } where
  issued := hT.issued
  tracked k hk hin := by
    obtain ⟨hin, hkid⟩ := mem_without.mp hin
    have hold := hT.tracked k hk hin
    unfold Hybrid.tracked at hold ⊢
    cases hleaving : hybrid.leaving with
    | some ids =>
      rw [hleaving] at hold
      exact hold
    | none =>
      rw [hleaving] at hold
      simpa only [List.mem_append, List.mem_erase_of_ne hkid] using hold
  adding := hT.adding
  listenerIds := hT.listenerIds
  leaving := hT.leaving

/-- Its `deinit` has no task beside it. -/
theorem leave (hT : Tracks listeners issued hybrid) (halive : hybrid.leaving = none)
    (hadding : hybrid.adding = []) (hremoving : hybrid.removing = []) :
    Tracks listeners issued { hybrid with leaving := some hybrid.listenerIds } where
  issued := hT.issued
  tracked k hk hin := by
    have hold := hT.tracked k hk hin
    simpa only [Hybrid.tracked, halive, hadding, hremoving, List.nil_append, List.append_nil]
      using hold
  adding := hT.adding
  listenerIds := hT.listenerIds
  leaving _ hids := Option.some.inj hids ▸ hT.listenerIds

theorem forget (hT : Tracks listeners issued hybrid) {ids : List String}
    (hleaving : hybrid.leaving = some ids) (id : String) :
    Tracks (without listeners id) issued { hybrid with leaving := some (ids.erase id) } where
  issued := hT.issued
  tracked k hk hin := by
    obtain ⟨hin, hkid⟩ := mem_without.mp hin
    have hold := hT.tracked k hk hin
    simp only [Hybrid.tracked, hleaving] at hold ⊢
    exact (List.mem_erase_of_ne hkid).mpr hold
  adding := hT.adding
  listenerIds := hT.listenerIds
  leaving _ hids :=
    Option.some.inj hids ▸ List.Subset.trans List.erase_subset (hT.leaving ids hleaving)

end Tracks

structure Owned (s : Emitter ε) : Prop where
  listeners : s.listeners ⊆ s.issued
  tracks : ∀ h hybrid, s.hybrids h = some hybrid → Tracks s.listeners s.issued hybrid
  apart : ∀ g h other hybrid, g ≠ h → s.hybrids g = some other → s.hybrids h = some hybrid →
    ∀ id ∈ other.given, id ∉ hybrid.given

theorem setHybrid_cases {h g : Nat} {hybrid other : Hybrid}
    (hg : (s.setHybrid h hybrid).hybrids g = some other) :
    g = h ∧ other = hybrid ∨ g ≠ h ∧ s.hybrids g = some other := by
  by_cases hgh : g = h
  · subst hgh
    exact .inl ⟨rfl, Option.some.inj (hg.symm.trans (Function.update_self ..))⟩
  · exact .inr ⟨hgh, (Function.update_of_ne hgh _ _).symm.trans hg⟩

/-- One instance takes a step, and the others are as they were. -/
theorem Owned.set {h : Nat} {hybrid' : Hybrid} (hO : Owned s)
    (hhybrids : s'.hybrids = (s.setHybrid h hybrid').hybrids) (hissued : s.issued ⊆ s'.issued)
    (hlisteners : s'.listeners ⊆ s'.issued)
    (hothers : ∀ id ∈ s.issued, id ∈ s'.listeners → id ∈ s.listeners)
    (hself : Tracks s'.listeners s'.issued hybrid')
    (hapart : ∀ g other, g ≠ h → s.hybrids g = some other → ∀ id ∈ other.given,
      id ∉ hybrid'.given) : Owned s' where
  listeners := hlisteners
  tracks g other hg := by
    rcases setHybrid_cases (hhybrids ▸ hg) with ⟨-, rfl⟩ | ⟨-, hold⟩
    · exact hself
    · have hT := hO.tracks g other hold
      exact hT.mono hissued fun id hid => hothers id (hT.issued hid)
  apart g k other hybrid hne hg hk id hid hid' := by
    rcases setHybrid_cases (hhybrids ▸ hg) with ⟨hgh, rfl⟩ | ⟨hgh, hold⟩
    · rcases setHybrid_cases (hhybrids ▸ hk) with ⟨hkh, -⟩ | ⟨hkh, hold'⟩
      · exact hne (hgh.trans hkh.symm)
      · exact hapart k hybrid hkh hold' id hid' hid
    · rcases setHybrid_cases (hhybrids ▸ hk) with ⟨hkh, rfl⟩ | ⟨hkh, hold'⟩
      · exact hapart g other hgh hold id hid hid'
      · exact hO.apart g k other hybrid hne hold hold' id hid hid'

/-- Nothing new is given to it. -/
theorem Owned.set_same {h : Nat} {hybrid hybrid' : Hybrid} (hO : Owned s)
    (hh : s.hybrids h = some hybrid) (hhybrids : s'.hybrids = (s.setHybrid h hybrid').hybrids)
    (hgiven : hybrid'.given = hybrid.given) (hissued : s'.issued = s.issued)
    (hlisteners : s'.listeners ⊆ s.listeners) (hself : Tracks s'.listeners s'.issued hybrid') :
    Owned s' := by
  refine hO.set hhybrids (fun id hid => hissued ▸ hid)
    (fun id hid => hissued ▸ hO.listeners (hlisteners hid)) (fun id _ hin => hlisteners hin)
    hself ?_
  intro g other hne hg
  rw [hgiven]
  exact hO.apart g h other hybrid hne hg hh

theorem owned_step (hO : Owned s) (hstep : s.step l = some s') : Owned s' := by
  have hless (id : String) : without s.listeners id ⊆ s.listeners :=
    fun k hk => (mem_without.mp hk).1
  cases moves_step hstep with
  | idles | emitsHere | emits | asyncs | runs | calls => exact ⟨hO.listeners, hO.tracks, hO.apart⟩
  | @attaches h hh =>
    exact hO.set rfl (List.Subset.refl _) hO.listeners (fun _ _ hin => hin)
      ⟨nofun, nofun, nofun, nofun, nofun⟩ fun _ _ _ _ _ _ => List.not_mem_nil
  | @adds h hybrid event id hh halive hid =>
    refine hO.set rfl (List.subset_append_left _ _) ?_ (fun k hk hin => ?_)
      ((hO.tracks h hybrid hh).add halive id) fun g other hne hg k hk hin => ?_
    · exact List.append_subset.mpr
        ⟨List.subset_append_of_subset_left _ hO.listeners, List.subset_append_right _ _⟩
    · rcases List.mem_append.mp hin with hin | hin
      · exact hin
      · exact absurd (List.mem_singleton.mp hin ▸ hk) hid
    · rcases List.mem_append.mp hin with hin | hin
      · exact hO.apart g h other hybrid hne hg hh k hk hin
      · exact hid (List.mem_singleton.mp hin ▸ (hO.tracks g other hg).issued hk)
  | @notes h hybrid id hh hid =>
    exact hO.set_same hh rfl rfl rfl (List.Subset.refl _) ((hO.tracks h hybrid hh).note hid)
  | @drops h hybrid event id hh halive =>
    exact hO.set_same hh rfl rfl rfl (List.Subset.refl _) ((hO.tracks h hybrid hh).drop halive id)
  | @removes h hybrid id hh hid =>
    exact hO.set_same hh rfl rfl rfl (hless id) ((hO.tracks h hybrid hh).remove id)
  | @leaves h hybrid hh halive hadding hremoving =>
    exact hO.set_same hh rfl rfl rfl (List.Subset.refl _)
      ((hO.tracks h hybrid hh).leave halive hadding hremoving)
  | @forgets h hybrid ids id hh hleaving hid =>
    exact hO.set_same hh rfl rfl rfl (hless id) ((hO.tracks h hybrid hh).forget hleaving id)

theorem owned_launch : Owned (@launch ε) where
  listeners := nofun
  tracks := nofun
  apart := nofun

/-- An instance keeps what it was given, and does nothing any more when its `deinit` is over. -/
structure Later (hybrid hybrid' : Hybrid) : Prop where
  given : hybrid.given ⊆ hybrid'.given
  gone : hybrid.leaving = some [] → hybrid'.leaving = some []

theorem Later.refl (hybrid : Hybrid) : Later hybrid hybrid :=
  ⟨List.Subset.refl _, id⟩

theorem later_of_alive {hybrid hybrid' : Hybrid} (halive : hybrid.leaving = none)
    (hgiven : hybrid.given ⊆ hybrid'.given) : Later hybrid hybrid' :=
  ⟨hgiven, fun hgone => absurd (halive.symm.trans hgone) nofun⟩

theorem later_setHybrid {h g : Nat} {hybrid other other' : Hybrid} (hh : s.hybrids h = some hybrid)
    (hg : s.hybrids g = some other) (hlater : Later other other') :
    ∃ hybrid', (s.setHybrid g other').hybrids h = some hybrid' ∧ Later hybrid hybrid' := by
  by_cases hgh : h = g
  · subst hgh
    cases hh.symm.trans hg
    exact ⟨other', Function.update_self .., hlater⟩
  · exact ⟨hybrid, (Function.update_of_ne hgh _ _).trans hh, .refl hybrid⟩

theorem hybrid_step {h : Nat} {hybrid : Hybrid} (hh : s.hybrids h = some hybrid)
    (hstep : s.step l = some s') :
    ∃ hybrid', s'.hybrids h = some hybrid' ∧ Later hybrid hybrid' := by
  cases moves_step hstep with
  | idles | emitsHere | emits | asyncs | runs | calls => exact ⟨hybrid, hh, .refl hybrid⟩
  | @attaches g hg =>
    have hgh : h ≠ g := by
      rintro rfl
      cases hh.symm.trans hg
    exact ⟨hybrid, (Function.update_of_ne hgh _ _).trans hh, .refl hybrid⟩
  | adds hg halive =>
    exact later_setHybrid hh hg (later_of_alive halive (List.subset_append_left _ _))
  | drops hg halive | leaves hg halive =>
    exact later_setHybrid hh hg (later_of_alive halive (List.Subset.refl _))
  | notes hg hid | removes hg hid =>
    exact later_setHybrid hh hg ⟨List.Subset.refl _, id⟩
  | @forgets g other ids id hg hleaving hid =>
    refine later_setHybrid hh hg ⟨List.Subset.refl _, fun hgone => ?_⟩
    cases hleaving.symm.trans hgone
    cases hid

/-- A listener leaves by a call of `removeListener` with its id, or with its own instance. -/
theorem leaves_step {h : Nat} {hybrid : Hybrid} (hO : Owned s) (hh : s.hybrids h = some hybrid)
    (hid : id ∈ hybrid.given) (hin : id ∈ s.listeners) (hstep : s.step l = some s') :
    id ∈ s'.listeners ∨ (∃ g, l = .removeListener g id) ∨ l = .forget h id := by
  cases moves_step hstep with
  | idles | emitsHere | emits | asyncs | runs | calls | attaches | notes | drops | leaves =>
    exact .inl hin
  | adds => exact .inl (List.mem_append_left _ hin)
  | @removes g other k hg hk =>
    by_cases hkid : id = k
    · exact .inr (.inl ⟨g, hkid ▸ rfl⟩)
    · exact .inl (mem_without.mpr ⟨hin, hkid⟩)
  | @forgets g other ids k hg hleaving hk =>
    by_cases hkid : id = k
    · subst hkid
      have hother : id ∈ other.given := (hO.tracks g other hg).leaving ids hleaving hk
      have hgh : g = h := by
        by_contra hne
        exact hO.apart g h other hybrid hne hg hh id hother hid
      exact .inr (.inr (hgh ▸ rfl))
    · exact .inl (mem_without.mpr ⟨hin, hkid⟩)

theorem reachable_owned (h : Reachable s) : Owned s :=
  h.invariant (fun hs => hs ▸ owned_launch) fun hO hstep => owned_step hO hstep

theorem reachable_inv (h : Reachable s) : Inv s :=
  h.invariant (fun hs => hs ▸ inv_launch) fun hI hstep => inv_step hI hstep

/-- A listener is registered until `removeListener` is called with its id, or the `deinit` of its
own instance comes to it. -/
theorem stays_until_removed {h : Nat} {hybrid : Hybrid} (hreach : Reachable s)
    (hh : s.hybrids h = some hybrid) (hid : id ∈ hybrid.given) (hin : id ∈ s.listeners)
    (hrun : exec step s ls = some s') :
    id ∈ s'.listeners ∨ (∃ g, .removeListener g id ∈ ls) ∨ .forget h id ∈ ls := by
  have hO := reachable_owned hreach
  clear hreach
  induction ls generalizing s hybrid with
  | nil =>
    cases hrun
    exact .inl hin
  | cons l ls ih =>
    obtain ⟨m, hstep, hrest⟩ := exec_cons_eq_some.mp hrun
    rcases leaves_step hO hh hid hin hstep with hin | ⟨g, rfl⟩ | rfl
    · obtain ⟨hybrid', hh', hlater⟩ := hybrid_step hh hstep
      refine (ih hh' (hlater.given hid) hin hrest (owned_step hO hstep)).imp_right ?_
      exact Or.imp (fun ⟨g, hg⟩ => ⟨g, List.mem_cons_of_mem _ hg⟩) (List.mem_cons_of_mem _)
    · exact .inr (.inl ⟨g, List.mem_cons_self⟩)
    · exact .inr (.inr List.mem_cons_self)

/-- The instance is gone, and `id` was given to it. -/
structure Left (h : Nat) (id : String) (s : Emitter ε) : Prop where
  inv : Inv s
  owned : Owned s
  gone : ∃ hybrid, s.hybrids h = some hybrid ∧ hybrid.leaving = some [] ∧ id ∈ hybrid.given

theorem Left.notMem {h : Nat} (hL : Left h id s) : id ∉ s.listeners := by
  obtain ⟨hybrid, hh, hleaving, hid⟩ := hL.gone
  intro hin
  have htracked := (hL.owned.tracks h hybrid hh).tracked id hid hin
  rw [Hybrid.tracked, hleaving] at htracked
  cases htracked

theorem left_carries (h : Nat) (id : String) :
    Channels.Carries (@step ε) (Left h id) channels said where
  inv {s l s'} hL hstep := by
    obtain ⟨hybrid, hh, hleaving, hid⟩ := hL.gone
    obtain ⟨hybrid', hh', hlater⟩ := hybrid_step hh hstep
    exact ⟨inv_step hL.inv hstep, owned_step hL.owned hstep, hybrid', hh', hlater.gone hleaving,
      hlater.given hid⟩
  passes hL hstep := passes_step hL.inv hstep

/-- When the `deinit` of an instance is over, none of its listeners is registered again. What
they hear then was emitted before, by calls of `emit` that had their snapshot. -/
theorem reload_silences {h : Nat} {hybrid : Hybrid} (hreach : Reachable s)
    (hh : s.hybrids h = some hybrid) (hgone : hybrid.leaving = some [])
    (hrun : exec step s ls = some s') :
    ∀ id ∈ hybrid.given, id ∉ s'.listeners ∧ ∀ thread,
      s'.heard id thread ++ s'.waiting id thread = s.heard id thread ++ s.waiting id thread := by
  intro id hid
  have hL : Left h id s :=
    ⟨reachable_inv hreach, reachable_owned hreach, hybrid, hh, hgone, hid⟩
  have hL' : Left h id s' := exec_invariant (left_carries h id).inv hL hrun
  exact ⟨hL'.notMem,
    fun thread => (left_carries h id).heard_of_away hL (fun hL => hL.notMem) hrun thread⟩

section Sample

/-- A listener, with an event from a background thread that an event of the main thread
overtakes. -/
def overtakingRun : List (Label Nat) :=
  [.attach 0, .addListener 0 "sync-event" "A", .noteId 0 "A", .emit (.background 1) 7,
    .emit .main 8, .async 1, .call "A", .runBlock, .call "A", .emit (.background 1) 9]

theorem hears_in_order_of_overtaking :
    ∃ s log, exec (recorded step (emittedFor "A" (.background 1))) (launch, []) overtakingRun =
        some (s, log) ∧
      s.called.map (fun x => x.2.2) = [8, 7] ∧ log = [7, 9] ∧
      s.heard "A" (.background 1) ++ s.waiting "A" (.background 1) = [7, 9] := by
  obtain ⟨s, log, hrun, hcalled, hlog⟩ :
      ∃ s log, exec (recorded step (emittedFor "A" (.background 1))) (launch, []) overtakingRun =
          some (s, log) ∧
        s.called.map (fun x => x.2.2) = [8, 7] ∧ log = [7, 9] := ⟨_, _, rfl, rfl, rfl⟩
  exact ⟨s, log, hrun, hcalled, hlog, hlog ▸ (hears_in_order "A" (.background 1) hrun).1⟩

/-- A second instance has a listener too, and the `deinit` of the first comes in between. -/
def reloadRun : List (Label Nat) :=
  [.attach 0, .addListener 0 "sync-event" "A", .noteId 0 "A", .emit (.background 1) 7,
    .attach 1, .addListener 1 "sync-event" "B", .deinit 0, .forget 0 "A"]

def afterReload : List (Label Nat) :=
  [.async 1, .emit (.background 2) 8, .async 2, .runBlock, .call "A", .runBlock, .call "B"]

theorem stays_until_removed_of_reload :
    ∃ s s' hybrid, exec step (@launch Nat) (reloadRun.take 6) = some s ∧
      s.hybrids 1 = some hybrid ∧ exec step s (reloadRun.drop 6) = some s' ∧
      ("B" ∈ s'.listeners ∨ (∃ g, .removeListener g "B" ∈ reloadRun.drop 6) ∨
        .forget 1 "B" ∈ reloadRun.drop 6) := by
  obtain ⟨s, s', hybrid, hs, hh, hid, hin, hs'⟩ :
      ∃ s s' hybrid, exec step (@launch Nat) (reloadRun.take 6) = some s ∧
        s.hybrids 1 = some hybrid ∧ "B" ∈ hybrid.given ∧ "B" ∈ s.listeners ∧
        exec step s (reloadRun.drop 6) = some s' :=
    ⟨_, _, _, rfl, rfl, List.mem_singleton_self _, List.mem_cons_of_mem _ List.mem_cons_self, rfl⟩
  exact ⟨s, s', hybrid, hs, hh, hs', stays_until_removed ⟨launch, _, rfl, hs⟩ hh hid hin hs'⟩

theorem reload_silences_of_held_event :
    ∃ s s' hybrid, exec step (@launch Nat) reloadRun = some s ∧ s.hybrids 0 = some hybrid ∧
      hybrid.given = ["A"] ∧ exec step s afterReload = some s' ∧
      s'.called = [("A", .background 1, 7), ("B", .background 2, 8)] ∧ "A" ∉ s'.listeners := by
  obtain ⟨s, s', hybrid, hs, hh, hgone, hgiven, hs', hcalled⟩ :
      ∃ s s' hybrid, exec step (@launch Nat) reloadRun = some s ∧ s.hybrids 0 = some hybrid ∧
        hybrid.leaving = some [] ∧ hybrid.given = ["A"] ∧ exec step s afterReload = some s' ∧
        s'.called = [("A", .background 1, 7), ("B", .background 2, 8)] :=
    ⟨_, _, _, rfl, rfl, rfl, rfl, rfl, rfl⟩
  have hsilent := reload_silences ⟨launch, _, rfl, hs⟩ hh hgone hs' "A"
    (hgiven ▸ List.mem_singleton_self _)
  exact ⟨s, s', hybrid, hs, hh, hgiven, hs', hcalled, hsilent.1⟩

end Sample

end Emitter

end SyncProvider.Ios
