import SyncProvider.Ios.Bracket

/-!
# iOS: the requests that are out

A foreground request belongs to the `await` that started it. A background upload
belongs to the session of the app, and outlives the process. Its completion
finds the dispatch that waits for it in `BackgroundURLSessionDelegate`, under
the id of its item, whichever process started the upload.

Results:
1. `Wire.Served.step` : each request that is out has a dispatch that waits for it.
2. `cycles_never_overlap` : one cycle at a time, and one request per item at a
   time as long as no upload of an earlier process completes a new dispatch.
3. `leftover_completes_dispatch` : a run in which one does.
-/

namespace SyncProvider.Ios

/-! ## The model -/

/-- A request of this process that has not come to its end. -/
structure URLSessionTask where
  /-- `taskDescription` -/
  itemId : String
  /-- The flush call that started it. -/
  call : Nat
  background : Bool
  deriving DecidableEq

/-- The engine with its two sessions and the delegate of the background one. -/
structure Wire where
  engine : Engine
  tasks : List URLSessionTask
  /-- The items whose upload an earlier process has left in the session. -/
  leftover : List String
  /-- The flush call behind the handler of `registerCompletion`, by item id. -/
  completions : String → Option Nat

namespace Wire

inductive Label where
  /-- A step that neither starts nor ends a request. -/
  | engine (l : Ios.Label)
  | send (t : Nat) (background : Bool)
  /-- Request number `i` of this process comes to its end. -/
  | complete (i : Nat) (statusCode : Option Int) (error : Option TransportError)
  /-- An upload of an earlier process does. -/
  | completeLeftover (i : Nat) (statusCode : Option Int) (error : Option TransportError)
  deriving DecidableEq

/-- The step starts a request or ends one. -/
def onWire : Ios.Label → Bool
  | .cycle _ .send | .cycle _ (.answer _ _) => true
  | _ => false

/-- The item whose request call `t` is about to start. -/
def nextRequest (e : Engine) (t : Nat) : Option String :=
  (e.flushes t).bind fun c =>
    match c.phase with
    | .prepared item _ _ _ _ => some item.id
    | _ => none

/-- The `await` of call `t` returns. -/
def resume (scheme : String → Option String) (s : Wire) (t : Nat) (statusCode : Option Int)
    (error : Option TransportError) : Option Wire :=
  (s.engine.step scheme (.cycle t (.answer statusCode error))).map fun e =>
    { s with engine := e }

/-- `urlSession(_:task:didCompleteWithError:)`. Without a handler the outcome is
dropped. -/
def didComplete (scheme : String → Option String) (s : Wire) (itemId : String)
    (statusCode : Option Int) (error : Option TransportError) : Option Wire :=
  match s.completions itemId with
  | some t =>
    resume scheme { s with completions := Function.update s.completions itemId none } t statusCode
      error
  | none => some s

/-- What becomes of the requests when the engine steps to `e`. The uploads go on
when the process dies. -/
def after (s : Wire) (e : Engine) : Ios.Label → Wire
  | .kill _ _ =>
    { engine := e
      tasks := []
      leftover := s.leftover ++ (s.tasks.filter (·.background)).map (·.itemId)
      completions := fun _ => none }
  | _ => { s with engine := e }

def step (scheme : String → Option String) (s : Wire) : Label → Option Wire
  | .engine l => if onWire l then none else (s.engine.step scheme l).map fun e => s.after e l
  | .send t background =>
    (nextRequest s.engine t).bind fun itemId =>
      (s.engine.step scheme (.cycle t .send)).map fun e =>
        { s with
          engine := e
          tasks := s.tasks ++ [⟨itemId, t, background⟩]
          completions :=
            if background then Function.update s.completions itemId (some t) else s.completions }
  | .complete i statusCode error =>
    s.tasks[i]?.bind fun task =>
      let s := { s with tasks := s.tasks.eraseIdx i }
      if task.background then didComplete scheme s task.itemId statusCode error
      else resume scheme s task.call statusCode error
  | .completeLeftover i statusCode error =>
    s.leftover[i]?.bind fun itemId =>
      didComplete scheme { s with leftover := s.leftover.eraseIdx i } itemId statusCode error

/-- A process that has just been launched, on whatever uploads the last one left. -/
structure Launched (s : Wire) : Prop where
  boot : s.engine.Boot
  tasks : s.tasks = []
  completions : ∀ id, s.completions id = none

/-- No upload of an earlier process completes a dispatch of this one. -/
def Unmixed (s : Wire) : Label → Prop
  | .completeLeftover i _ _ => (s.leftover[i]?.bind s.completions) = none
  | _ => True

instance decidableUnmixed (s : Wire) : (l : Label) → Decidable (s.Unmixed l)
  | .completeLeftover i _ _ =>
    inferInstanceAs (Decidable ((s.leftover[i]?.bind s.completions) = none))
  | .engine _ | .send _ _ | .complete _ _ _ => isTrue trivial

end Wire

/-! ## 1. Who waits for a request -/

theorem Cycle.step_send {scheme : String → Option String} {config : DispatcherConfig}
    {paused : Bool} {w w' : World} {c c' : Cycle}
    (h : c.step scheme config paused w .send = some (w', c')) :
    ∃ item before rest sentWith request, c.phase = .prepared item before rest sentWith request ∧
      c' = { c with phase := .onWire item rest sentWith } := by
  cases Cycle.step_cases h with
  | send hphase => exact ⟨_, _, _, _, _, hphase, rfl⟩

/-- A dispatch that waits can only be answered. -/
theorem Cycle.step_onWire {scheme : String → Option String} {config : DispatcherConfig}
    {paused : Bool} {w w' : World} {c c' : Cycle} {ev : CycleEvent} {item : StoredSyncItem}
    {rest : List StoredSyncItem} {sentWith : DispatcherConfig}
    (hphase : c.phase = .onWire item rest sentWith)
    (h : c.step scheme config paused w ev = some (w', c')) :
    ∃ statusCode error, ev = .answer statusCode error := by
  cases Cycle.step_cases h with
  | answer => exact ⟨_, _, rfl⟩
  | fail hstorage =>
    rw [hphase] at hstorage
    cases hstorage
  | fetchNone hp | fetch hp | leave hp | take hp | markInFlight hp | prepare hp | rejectUrl hp
  | send hp | sendFails hp | succeed hp | failItem hp | remove hp | record hp | summarize hp
  | finish hp =>
    rw [hphase] at hp
    cases hp

namespace Wire

/-- The dispatch of call `t` waits for the request of this item. -/
def Awaits (e : Engine) (t : Nat) (itemId : String) : Prop :=
  ∃ c item rest sentWith, e.flushes t = some c ∧ c.phase = .onWire item rest sentWith ∧
    item.id = itemId

/-- Each request that is out has a dispatch that waits for it, and each handler
a background upload. -/
structure Served (s : Wire) : Prop where
  one : s.engine.OneCycle
  single : s.tasks.length ≤ 1
  awaited : ∀ task ∈ s.tasks, Awaits s.engine task.call task.itemId
  registered : ∀ task ∈ s.tasks, task.background = true →
    s.completions task.itemId = some task.call
  handlers : ∀ id t, s.completions id = some t → ⟨id, t, true⟩ ∈ s.tasks

variable {scheme : String → Option String} {s s' : Wire} {e e' : Engine}

/-- A step that ends no request leaves the dispatch waiting. -/
theorem Awaits.step {t : Nat} {itemId : String} {l : Ios.Label} (hA : Awaits e t itemId)
    (hl : onWire l = false) (hkill : l.isKill = false) (h : e.step scheme l = some e') :
    Awaits e' t itemId := by
  obtain ⟨c, item, rest, sentWith, hc, hphase, hid⟩ := hA
  rcases Engine.step_kinds h with hapart | ⟨u, recovered, nowMs, -, hnone, rfl⟩ |
    ⟨u, ev, d, d', rfl, hcycle⟩ | ⟨config, paused, rfl⟩
  · exact ⟨c, item, rest, sentWith, hapart.flushes ▸ hc, hphase, hid⟩
  · have hu : t ≠ u := by
      rintro rfl
      rw [hc] at hnone
      cases hnone
    refine ⟨c, item, rest, sentWith, ?_, hphase, hid⟩
    obtain ⟨config, -, heq | ⟨-, heq⟩⟩ := e.flush_cases u recovered nowMs <;> rw [heq]
    · exact hc
    · exact (Function.update_of_ne hu _ _).trans hc
  · by_cases hu : t = u
    · subst hu
      obtain rfl : c = d := Option.some.inj (hc.symm.trans hcycle.before)
      obtain ⟨statusCode, error, rfl⟩ := Cycle.step_onWire hphase hcycle.step
      cases hl
    · exact ⟨c, item, rest, sentWith, (hcycle.flushes_of_ne hu).trans hc, hphase, hid⟩
  · cases hkill

theorem Awaits.active {t : Nat} {itemId : String} (hA : Awaits e t itemId) :
    ∃ c, e.flushes t = some c ∧ c.active = true := by
  obtain ⟨c, item, rest, sentWith, hc, hphase, -⟩ := hA
  exact ⟨c, hc, by rw [Cycle.active, hphase]⟩

namespace Served

/-- The one request that is out. -/
theorem eq_singleton (hS : Served s) {i : Nat} {task : URLSessionTask}
    (h : s.tasks[i]? = some task) : i = 0 ∧ s.tasks = [task] := by
  have hsingle := hS.single
  cases htasks : s.tasks with
  | nil =>
    rw [htasks] at h
    cases h
  | cons x xs =>
    rw [htasks] at h hsingle
    have hxs : xs = [] := by
      rw [List.length_cons] at hsingle
      exact List.length_eq_zero_iff.mp (by omega)
    subst hxs
    cases i with
    | zero =>
      cases h
      exact ⟨rfl, rfl⟩
    | succ i => cases h

/-- A step of the engine that neither starts nor ends a request. -/
theorem engine (hS : Served s) {l : Ios.Label} (hl : onWire l = false) (hkill : l.isKill = false)
    {e : Engine} (h : s.engine.step scheme l = some e) : Served { s with engine := e } where
  one := hS.one.step h
  single := hS.single
  awaited task htask := (hS.awaited task htask).step hl hkill h
  registered := hS.registered
  handlers := hS.handlers

/-- The process dies, and nobody waits any more. -/
theorem kill (hS : Served s) {config : DispatcherConfig} {paused : Bool} {e : Engine}
    (h : s.engine.step scheme (.kill config paused) = some e) (leftover : List String) :
    Served
      { engine := e, tasks := [], leftover := leftover, completions := fun _ => none } where
  one := hS.one.step h
  single := Nat.zero_le 1
  awaited := by simp
  registered := by simp
  handlers := by simp

/-- A request starts when none is out. -/
theorem send (hS : Served s) {t : Nat} {itemId : String} {background : Bool} {e : Engine}
    (hnext : nextRequest s.engine t = some itemId)
    (h : s.engine.step scheme (.cycle t .send) = some e) :
    Served { s with
      engine := e
      tasks := s.tasks ++ [⟨itemId, t, background⟩]
      completions :=
        if background then Function.update s.completions itemId (some t) else s.completions } := by
  obtain ⟨c, c', hcycle⟩ := Engine.step_cycle h
  obtain ⟨item, before, rest, sentWith, request, hphase, rfl⟩ := Cycle.step_send hcycle.step
  have hid : item.id = itemId := by
    simpa [nextRequest, hcycle.before, hphase] using hnext
  -- whoever waits for a request is in the one active cycle, and that one does not wait
  have hnone : s.tasks = [] := by
    refine List.eq_nil_iff_forall_not_mem.mpr fun task htask => ?_
    obtain ⟨d, x, xs, sentWith', hd, hdphase, -⟩ := hS.awaited task htask
    have ht : task.call = t := hS.one.unique _ d t c hd hcycle.before
      (by rw [Cycle.active, hdphase]) (by rw [Cycle.active, hphase])
    rw [ht] at hd
    obtain rfl : d = c := Option.some.inj (hd.symm.trans hcycle.before)
    rw [hphase] at hdphase
    cases hdphase
  have hhandlers (id : String) : s.completions id = none := by
    cases hc : s.completions id with
    | none => rfl
    | some u =>
      have := hS.handlers id u hc
      rw [hnone] at this
      cases this
  have hawaits : Awaits e t itemId :=
    ⟨_, item, rest, sentWith, by rw [hcycle.flushes, Function.update_self], rfl, hid⟩
  rw [hnone]
  refine ⟨hS.one.step h, Nat.le_refl 1, ?_, ?_, ?_⟩
  · intro task htask
    rw [List.nil_append, List.mem_singleton] at htask
    rw [htask]
    exact hawaits
  · intro task htask hbackground
    rw [List.nil_append, List.mem_singleton] at htask
    subst htask
    change background = true at hbackground
    subst hbackground
    simp
  · intro id u hu
    cases background with
    | false =>
      rw [if_neg (by simp), hhandlers id] at hu
      cases hu
    | true =>
      by_cases hi : id = itemId
      · subst hi
        simp only [if_true, Function.update_self, Option.some.injEq] at hu
        subst hu
        simp
      · simp only [if_true, Function.update_of_ne hi, hhandlers id] at hu
        cases hu

/-- The request that was out is answered to the dispatch that waits for it. -/
theorem answer (hS : Served s) {i : Nat} {task : URLSessionTask} {statusCode : Option Int}
    {error : Option TransportError} (hi : s.tasks[i]? = some task)
    (h : (if task.background then
      didComplete scheme { s with tasks := s.tasks.eraseIdx i } task.itemId statusCode error
      else resume scheme { s with tasks := s.tasks.eraseIdx i } task.call statusCode error) =
        some s') : Served s' := by
  obtain ⟨rfl, htasks⟩ := hS.eq_singleton hi
  have hmem : task ∈ s.tasks := List.mem_of_getElem? hi
  have hhandler {id : String} {u : Nat} (hu : s.completions id = some u) :
      task = ⟨id, u, true⟩ := by
    have := hS.handlers id u hu
    rw [htasks, List.mem_singleton] at this
    exact this.symm
  have hempty : s.tasks.eraseIdx 0 = [] := by rw [htasks]; rfl
  rw [hempty] at h
  have close {e : Engine} {completions : String → Option Nat}
      (hone : e.OneCycle) (hnone : ∀ id, completions id = none) :
      Served { s with engine := e, tasks := [], completions := completions } :=
    ⟨hone, Nat.zero_le 1, by simp, by simp, fun id u hu => by
      change completions id = some u at hu
      rw [hnone id] at hu
      cases hu⟩
  cases hbackground : task.background with
  | false =>
    rw [hbackground, if_neg (by simp)] at h
    obtain ⟨e, he, rfl⟩ := Option.map_eq_some_iff.mp h
    refine close (hS.one.step he) fun id => ?_
    cases hc : s.completions id with
    | none => rfl
    | some u =>
      rw [hhandler hc] at hbackground
      cases hbackground
  | true =>
    rw [hbackground, if_pos rfl] at h
    have hregistered := hS.registered task hmem hbackground
    simp only [didComplete, hregistered] at h
    obtain ⟨e, he, rfl⟩ := Option.map_eq_some_iff.mp h
    refine close (hS.one.step he) fun id => ?_
    change Function.update s.completions task.itemId none id = none
    by_cases hid : id = task.itemId
    · rw [hid, Function.update_self]
    · rw [Function.update_of_ne hid]
      cases hc : s.completions id with
      | none => rfl
      | some u =>
        have := hhandler hc
        exact absurd (by rw [this]) hid

theorem step {l : Label} (hS : Served s) (hl : s.Unmixed l) (h : s.step scheme l = some s') :
    Served s' := by
  cases l with
  | engine l =>
    simp only [Wire.step, Option.ite_none_left_eq_some, Bool.not_eq_true] at h
    obtain ⟨hwire, h⟩ := h
    obtain ⟨e, he, rfl⟩ := Option.map_eq_some_iff.mp h
    cases hkill : l.isKill with
    | true =>
      cases l with
      | kill config paused => exact hS.kill he _
      | _ => cases hkill
    | false =>
      have hafter : s.after e l = { s with engine := e } := by
        cases l with
        | kill config paused => cases hkill
        | _ => rfl
      rw [hafter]
      exact hS.engine hwire hkill he
  | send t background =>
    obtain ⟨itemId, hnext, h⟩ := Option.bind_eq_some_iff.mp h
    obtain ⟨e, he, rfl⟩ := Option.map_eq_some_iff.mp h
    exact hS.send hnext he
  | complete i statusCode error =>
    obtain ⟨task, hi, h⟩ := Option.bind_eq_some_iff.mp h
    exact hS.answer hi h
  | completeLeftover i statusCode error =>
    obtain ⟨itemId, hi, h⟩ := Option.bind_eq_some_iff.mp h
    -- no handler, so the outcome is dropped
    have hnone : s.completions itemId = none := by simpa [Unmixed, hi] using hl
    simp only [didComplete, hnone] at h
    cases h
    exact ⟨hS.one, hS.single, hS.awaited, hS.registered, hS.handlers⟩

end Served

/-! ## 2. Cycles and requests -/

/-- The engine does what it does without the sessions. -/
theorem engine_step {l : Label} (h : s.step scheme l = some s') :
    s'.engine = s.engine ∨ ∃ l', s.engine.step scheme l' = some s'.engine := by
  have resumes {r : Wire} {t : Nat} {statusCode : Option Int} {error : Option TransportError}
      (h : resume scheme r t statusCode error = some s') (hr : r.engine = s.engine) :
      s'.engine = s.engine ∨ ∃ l', s.engine.step scheme l' = some s'.engine := by
    obtain ⟨e, he, rfl⟩ := Option.map_eq_some_iff.mp h
    exact .inr ⟨_, hr ▸ he⟩
  have completes {r : Wire} {itemId : String} {statusCode : Option Int}
      {error : Option TransportError}
      (h : didComplete scheme r itemId statusCode error = some s') (hr : r.engine = s.engine) :
      s'.engine = s.engine ∨ ∃ l', s.engine.step scheme l' = some s'.engine := by
    unfold didComplete at h
    split at h
    · exact resumes h hr
    · cases h
      exact .inl hr
  cases l with
  | engine l =>
    simp only [step, Option.ite_none_left_eq_some] at h
    obtain ⟨-, h⟩ := h
    obtain ⟨e, he, rfl⟩ := Option.map_eq_some_iff.mp h
    refine .inr ⟨l, he.trans ?_⟩
    cases l <;> rfl
  | send t background =>
    obtain ⟨itemId, -, h⟩ := Option.bind_eq_some_iff.mp h
    obtain ⟨e, he, rfl⟩ := Option.map_eq_some_iff.mp h
    exact .inr ⟨_, he⟩
  | complete i statusCode error =>
    obtain ⟨task, -, h⟩ := Option.bind_eq_some_iff.mp h
    dsimp only at h
    split at h
    · exact completes h rfl
    · exact resumes h rfl
  | completeLeftover i statusCode error =>
    obtain ⟨itemId, -, h⟩ := Option.bind_eq_some_iff.mp h
    exact completes h rfl

theorem Launched.served (h : Launched s) : Served s where
  one := h.boot.oneCycle
  single := by
    rw [h.tasks]
    exact Nat.zero_le 1
  awaited := by simp [h.tasks]
  registered := by simp [h.tasks]
  handlers id t ht := by
    rw [h.completions] at ht
    cases ht

/-- In every run of an install, whatever calls come in at the `await`s and
whatever throws: at most one cycle is active. And when no upload that an earlier
process left in the session completes a dispatch of its item in this one, then
of each item at most one request of this process is out. -/
theorem cycles_never_overlap {s₀ : Wire} {ls : List Label} (h : Launched s₀)
    (hrun : StepSystem.exec (step scheme) s₀ ls = some s) :
    (∀ t u c d, s.engine.flushes t = some c → s.engine.flushes u = some d → c.active = true →
      d.active = true → t = u) ∧
    (StepSystem.Meets (step scheme) Unmixed s₀ ls →
      ∀ id, (s.tasks.filter (·.itemId == id)).length ≤ 1) := by
  have hone : s.engine.OneCycle := by
    refine StepSystem.exec_invariant (I := fun s => s.engine.OneCycle) ?_ h.boot.oneCycle hrun
    intro s l s' hO hs
    rcases engine_step hs with heq | ⟨l', hl'⟩
    · rw [heq]
      exact hO
    · exact hO.step hl'
  refine ⟨fun t u c d hc hd hca hda => hone.unique t c u d hc hd hca hda, fun hmeets id => ?_⟩
  have hserved : Served s :=
    StepSystem.exec_invariant_of_meets (fun hS hl hs => hS.step hl hs) h.served hmeets hrun
  exact (List.length_filter_le _ _).trans hserved.single

section Sample

/-! ## 3. An upload of an earlier process -/

/-- The first launch, with nothing in the session. -/
def firstLaunch : Wire where
  engine := Engine.firstLaunch
  tasks := []
  leftover := []
  completions _ := none

theorem firstLaunch_launched : Launched firstLaunch :=
  ⟨Engine.firstLaunch_boot, rfl, fun _ => rfl⟩

/-- Flush call `t` takes up its one item in the background. -/
def uploadRun (t : Nat) (nowMs : Int) : List Label :=
  [.engine (.flush t none nowMs), .engine (.cycle t (.fetch nowMs)), .engine (.cycle t .next),
    .engine (.cycle t (.markInFlight nowMs)), .engine (.cycle t .prepare), .send t true]

/-- The answer is recorded, and the cycle ends. -/
def recordRun (t : Nat) (nowMs : Int) : List Label :=
  [.engine (.cycle t (.settle 0)), .engine (.cycle t (.write nowMs)), .engine (.cycle t .next),
    .engine (.cycle t (.summarize nowMs)), .engine (.cycle t .finish)]

/-- The process dies during an upload. The next one uploads the item again. -/
def relaunchRun : List Label :=
  .engine (.enqueue [SyncQueueStorage.sampleItem "A"]) :: uploadRun 0 2000 ++
    [.engine (.kill sampleConfig false), .engine .recover] ++ uploadRun 0 3000

/-- The old upload is answered first. Its 500 ends the new dispatch, and the
next cycle starts another request while the second one is out. -/
theorem leftover_completes_dispatch :
    ∃ s, StepSystem.exec (step Engine.https) firstLaunch
        (relaunchRun ++ .completeLeftover 0 (some 500) none :: recordRun 0 3100 ++
          uploadRun 1 6000) = some s ∧
      s.tasks = [⟨"A", 0, true⟩, ⟨"A", 1, true⟩] := by
  have htrace : (StepSystem.exec (step Engine.https) firstLaunch
      (relaunchRun ++ .completeLeftover 0 (some 500) none :: recordRun 0 3100 ++
        uploadRun 1 6000)).map (·.tasks) = some [⟨"A", 0, true⟩, ⟨"A", 1, true⟩] := by
    decide +kernel
  exact Option.map_eq_some_iff.mp htrace

/-- The old upload is answered between two dispatches, and nothing happens. -/
def droppedRun : List Label :=
  relaunchRun ++ .complete 0 (some 500) none :: recordRun 0 3100 ++
    .completeLeftover 0 (some 500) none :: uploadRun 1 6000

theorem cycles_never_overlap_when_dropped :
    ∃ s, StepSystem.exec (step Engine.https) firstLaunch droppedRun = some s ∧
      s.tasks = [⟨"A", 1, true⟩] ∧ (s.tasks.filter (·.itemId == "A")).length ≤ 1 := by
  have htrace : (StepSystem.exec (step Engine.https) firstLaunch droppedRun).map (·.tasks) =
      some [⟨"A", 1, true⟩] := by
    decide +kernel
  obtain ⟨s, hrun, htasks⟩ := Option.map_eq_some_iff.mp htrace
  exact ⟨s, hrun, htasks,
    (cycles_never_overlap firstLaunch_launched hrun).2 (by decide +kernel) "A"⟩

end Sample

end Wire

end SyncProvider.Ios
