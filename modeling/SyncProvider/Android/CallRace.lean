import SyncProvider.Android.Bracket

/-!
# Android: the call and its two timeouts

`runOnce` runs the blocking `call.execute()` inside `withTimeoutOrNull` and gives the
call a timeout of the same length. The coroutine timeout cannot interrupt the call. It
only decides what becomes of the value the call returns: once it has fired the value
is dropped, a response included, and the attempt counts as timed out.

Results:
1. `step_engine` : the process with the race refines the dispatcher.
2. `dispatch_kept`, `requested_kept` : what the others do to an attempt.
3. `response_decides_iff` : a response decides the outcome exactly when the coroutine
   timeout has not fired by the time the block completes.
4. `late_timeout_sends_again` : a delivered item that is sent again.
-/

namespace SyncProvider.Android

/-! ## The model -/

/-- What `call.execute()` comes to. -/
inductive Execution where
  | response (code : Int)
  | socketTimeout (message : Option String)
  | ioException (message : Option String)
  | otherException (message : Option String) (className : String)
  deriving DecidableEq

def Execution.result : Execution → CallResult
  | .response code => .response code
  | .socketTimeout message => .socketTimeout message
  | .ioException message => .ioException message
  | .otherException message className => .otherException message className

/-- The block of `withTimeoutOrNull`. -/
structure TimedBlock where
  /-- The coroutine timeout has fired. -/
  timeoutFired : Bool
  /-- The call timeout of the HTTP client has fired. -/
  callTimeoutFired : Bool
  executed : Option Execution
  deriving DecidableEq

inductive BlockEvent where
  | timeout
  | callTimeout
  | execute (r : Execution)
  deriving DecidableEq

namespace TimedBlock

def start : TimedBlock where
  timeoutFired := false
  callTimeoutFired := false
  executed := none

/-- Either timeout fires at most once. The call timeout makes `execute` throw as a rule,
but a response that is there already is still returned. -/
def step (b : TimedBlock) : BlockEvent → Option TimedBlock
  | .timeout => if b.timeoutFired then none else some { b with timeoutFired := true }
  | .callTimeout =>
    if b.callTimeoutFired || b.executed.isSome then none
    else some { b with callTimeoutFired := true }
  | .execute r => if b.executed.isSome then none else some { b with executed := some r }

/-- What `withTimeoutOrNull` makes of the block that completes. -/
def yields (b : TimedBlock) : Option CallResult :=
  b.executed.map fun r => if b.timeoutFired then .timedOut else r.result

end TimedBlock

/-- The dispatcher with the block of each attempt, by caller and place in the batch. -/
structure CallProcess where
  engine : Engine
  blocks : Nat → Nat → TimedBlock

/-- The end of an HTTP call, except for what is thrown outside of the block. -/
def Label.isAnswer : Label → Bool
  | .cycle _ (.dispatch _ (.respond (.thrown _ _))) => false
  | .cycle _ (.dispatch _ (.respond _)) => true
  | _ => false

namespace CallProcess

inductive Label where
  | engine (l : Android.Label)
  | block (t i : Nat) (ev : BlockEvent)
  | complete (t i : Nat)
  deriving DecidableEq

def setBlock (p : CallProcess) (t i : Nat) (b : TimedBlock) : CallProcess :=
  { p with blocks := Function.update p.blocks t (Function.update (p.blocks t) i b) }

/-- A request that goes out enters its block. -/
def enter (p : CallProcess) : Android.Label → CallProcess
  | .cycle t (.dispatch i .send) => p.setBlock t i .start
  | _ => p

/-- The attempt is in its block. -/
def inBlock (p : CallProcess) (t i : Nat) : Bool :=
  ((p.engine.calls t).dispatches[i]?.map Dispatch.onWire).getD false

def step (accepts : HttpRequest → Bool) (p : CallProcess) : Label → Option CallProcess
  | .engine l =>
    if l.isAnswer then none
    else (p.engine.step accepts l).map fun e => { p.enter l with engine := e }
  | .block t i ev =>
    if p.inBlock t i then ((p.blocks t i).step ev).map (p.setBlock t i) else none
  | .complete t i =>
    (p.blocks t i).yields.bind fun r =>
      (p.engine.step accepts (.cycle t (.dispatch i (.respond r)))).map fun e =>
        { p with engine := e }

abbrev Reachable (accepts : HttpRequest → Bool) (p : CallProcess) : Prop :=
  StepSystem.Reachable (fun p => Engine.Boot p.engine) (step accepts) p

/-- The attempt of a dispatch moves by itself. -/
def Label.isOwn (t i : Nat) : Label → Bool
  | .engine (.cycle u (.dispatch j _)) => u == t && j == i
  | .complete u j => u == t && j == i
  | _ => false

/-! ## 1. The dispatcher underneath -/

variable {accepts : HttpRequest → Bool} {p p' : CallProcess}

@[simp] theorem engine_setBlock (p : CallProcess) (t i : Nat) (b : TimedBlock) :
    (p.setBlock t i b).engine = p.engine := rfl

/-- A step is one of the dispatcher, or leaves it alone. -/
theorem step_engine {l : Label} (h : p.step accepts l = some p') :
    p'.engine = p.engine ∨ ∃ l', p.engine.step accepts l' = some p'.engine ∧
      ∀ t i, l.isOwn t i = false → ∀ dev, l' ≠ .cycle t (.dispatch i dev) := by
  cases l with
  | engine l =>
    simp only [step, Option.ite_none_left_eq_some, Option.map_eq_some_iff] at h
    obtain ⟨-, e, he, rfl⟩ := h
    refine .inr ⟨l, he, fun t i hown dev heq => ?_⟩
    subst heq
    simp [Label.isOwn] at hown
  | block t i ev =>
    simp only [step, Option.ite_none_right_eq_some, Option.map_eq_some_iff] at h
    obtain ⟨-, b, -, rfl⟩ := h
    exact .inl rfl
  | complete t i =>
    simp only [step, Option.bind_eq_some_iff, Option.map_eq_some_iff] at h
    obtain ⟨r, -, e, he, rfl⟩ := h
    refine .inr ⟨_, he, fun u j hown dev heq => ?_⟩
    cases heq
    simp [Label.isOwn] at hown

theorem inv_step {l : Label} (hI : p.engine.Inv) (h : p.step accepts l = some p') :
    p'.engine.Inv := by
  rcases step_engine h with heq | ⟨l', hl', -⟩
  · rwa [heq]
  · exact hI.step hl'

theorem Reachable.inv (h : Reachable accepts p) : p.engine.Inv :=
  h.invariant Engine.Boot.inv inv_step

/-- The process refines the queue that the dispatcher refines. -/
theorem refines (accepts : HttpRequest → Bool) :
    Outbox.Refines (step accepts) (fun p => p.engine.Inv) fun p => p.engine.outbox where
  inv := inv_step
  sim _ h := by
    rcases step_engine h with heq | ⟨l', hl', -⟩
    · rw [heq]
      exact ⟨subset_rfl, fun _ => .inl, fun _ => .inl, .inl rfl⟩
    · exact Engine.outbox_step hl'

end CallProcess

/-! ## 2. An attempt beside the others -/

variable {accepts : HttpRequest → Bool} {d : Dispatch} {i : Nat}

/-- While the probe runs, the rest of the batch waits. -/
def Cycle.OneProbe (c : Cycle) : Prop :=
  ∀ ds, c.phase = .dispatching true ds → ∀ d ∈ ds.tail, d.state = .queued

namespace Cycle

variable {live : SyncOptions} {cancelled : Bool} {w w' : World} {c c' : Cycle} {ev : CycleEvent}

theorem oneProbe_step (hO : c.OneProbe) (h : c.step accepts live cancelled w ev = some (w', c')) :
    c'.OneProbe := by
  obtain ⟨phase, rfl, hmoves⟩ := step_moves h
  intro ds hphase
  cases hmoves with
  | resumeClaimed =>
    injection hphase with _ hds
    subst hds
    intro d hd
    obtain ⟨row, -, rfl⟩ := List.mem_map.mp (List.mem_of_mem_tail hd)
    rfl
  | dispatch hbefore hstart hi hstep =>
    injection hphase with hprobing hds
    subst hds hprobing
    exact tail_queued_set (hO _ hbefore) hstart hi hstep
  | throw _ hthrown | raise _ hthrown =>
    have hnone := dispatches_thrown hthrown
    rw [dispatches_of_phase hphase] at hnone
    simp [hnone]
  | _ => cases hphase

/-- A cycle with a dispatch under way dispatches its batch. -/
theorem dispatching_of_busy (hd : d ∈ c.dispatches) (hbusy : d.atRest = false) :
    ∃ probing ds, c.phase = .dispatching probing ds := by
  unfold dispatches at hd
  split at hd
  · obtain ⟨row, -, rfl⟩ := List.mem_map.mp hd
    cases hbusy
  · exact ⟨_, _, ‹_›⟩
  · cases hd

/-- While the probe runs, only the probe can be under way. -/
theorem zero_of_busy {ds : List Dispatch} (hqueued : ∀ d ∈ ds.tail, d.state = .queued)
    (hd : ds[i]? = some d) (hbusy : d.atRest = false) : i = 0 := by
  cases i with
  | zero => rfl
  | succ i =>
    have htail : d ∈ ds.tail := by
      rw [← List.getElem?_tail] at hd
      exact List.mem_of_getElem? hd
    rw [Dispatch.atRest, hqueued d htail] at hbusy
    cases hbusy

/-- The other steps of a cycle wait for a dispatch that is under way. -/
theorem dispatch_kept (hO : c.OneProbe) (hd : c.dispatches[i]? = some d) (hbusy : d.atRest = false)
    (hev : ∀ dev, ev ≠ .dispatch i dev)
    (h : c.step accepts live cancelled w ev = some (w', c')) :
    c'.dispatches[i]? = some d ∧ c'.options = c.options ∧ c'.credentials = c.credentials := by
  obtain ⟨probing, ds, hphase⟩ := dispatching_of_busy (List.mem_of_getElem? hd) hbusy
  rw [dispatches_of_phase hphase] at hd
  obtain ⟨phase, rfl, hmoves⟩ := Cycle.step_moves h
  refine ⟨?_, rfl, rfl⟩
  cases hmoves with
  | @dispatch _ _ j dev _ _ _ hbefore =>
    obtain ⟨rfl, rfl⟩ := CyclePhase.dispatching.inj (hphase.symm.trans hbefore)
    have hij : j ≠ i := by
      rintro rfl
      exact hev dev rfl
    exact (List.getElem?_set_ne hij).trans hd
  | probeRejected hbefore hhead =>
    obtain ⟨rfl, rfl⟩ := CyclePhase.dispatching.inj (hphase.symm.trans hbefore)
    obtain rfl := zero_of_busy (hO ds hphase) hd hbusy
    rw [List.head?_eq_getElem?, hd] at hhead
    rw [Dispatch.atRest_of_outcome hhead] at hbusy
    cases hbusy
  | probePassed hbefore =>
    obtain ⟨rfl, rfl⟩ := CyclePhase.dispatching.inj (hphase.symm.trans hbefore)
    exact hd
  | join hbefore _ houtcomes =>
    obtain ⟨rfl, rfl⟩ := CyclePhase.dispatching.inj (hphase.symm.trans hbefore)
    obtain ⟨outcome, houtcome⟩ := Dispatch.outcome_of_mapM houtcomes (List.mem_of_getElem? hd)
    rw [Dispatch.atRest_of_outcome houtcome] at hbusy
    cases hbusy
  | throw _ hthrown | raise _ hthrown =>
    cases thrown_spec hthrown with
    | dispatching hbefore hrest =>
      obtain ⟨rfl, rfl⟩ := CyclePhase.dispatching.inj (hphase.symm.trans hbefore)
      rw [hrest d (List.mem_of_getElem? hd)] at hbusy
      cases hbusy
    | _ hbefore => cases hphase.symm.trans hbefore
  | _ hbefore => cases hphase.symm.trans hbefore

end Cycle

namespace Engine

variable {e e' : Engine} {t : Nat} {c : Cycle} {l : Label}

/-- At most the probe of a cycle is under way while it probes. -/
def OneProbe (e : Engine) : Prop := ∀ t c, (e.calls t).state = .cycle c → c.OneProbe

theorem OneProbe.step (hO : OneProbe e) (h : e.step accepts l = some e') : OneProbe e' := by
  intro u c' hc'
  by_cases hl : ∃ t ev, l = .cycle t ev
  · obtain ⟨t, ev, rfl⟩ := hl
    obtain ⟨c, w, c'', hc, hstep, rfl⟩ := step_cycle h
    by_cases hu : u = t
    · subst hu
      simp only [setState, setCall, Function.update_self] at hc'
      cases hc'
      exact Cycle.oneProbe_step (hO u c hc) hstep
    · simp only [setState, setCall, Function.update_of_ne hu] at hc'
      exact hO u c' hc'
  · obtain ⟨-, -, hcycles⟩ := step_outside (fun t ev heq => hl ⟨t, ev, heq⟩) h
    rcases hcycles u c' hc' with hc | hnil
    · exact hO u c' hc
    · intro ds hphase
      rw [Cycle.dispatches_of_phase hphase] at hnil
      simp [hnil]

/-- A dispatch under way stays where it is while it makes no step of its own. -/
theorem dispatch_kept (hE : Exclusive e) (hO : c.OneProbe) (hc : (e.calls t).state = .cycle c)
    (hd : c.dispatches[i]? = some d) (hbusy : d.atRest = false)
    (hl : ∀ dev, l ≠ .cycle t (.dispatch i dev)) (h : e.step accepts l = some e') :
    ∃ c', (e'.calls t).state = .cycle c' ∧ c'.dispatches[i]? = some d ∧
      c'.options = c.options ∧ c'.credentials = c.credentials := by
  by_cases hcycle : ∃ ev, l = .cycle t ev
  · obtain ⟨ev, rfl⟩ := hcycle
    simp only [step, hc, Option.map_eq_some_iff] at h
    obtain ⟨⟨w, c'⟩, hstep, rfl⟩ := h
    refine ⟨c', by simp [setState, setCall], ?_⟩
    exact Cycle.dispatch_kept hO hd hbusy (fun dev heq => hl dev (by rw [heq])) hstep
  · by_cases hunlock : l = .unlock t
    · subst hunlock
      simp only [step, hc, Option.ite_none_right_eq_some] at h
      simp [Cycle.dispatches, h.1] at hd
    · have hbeside := step_beside hE hc (fun ev heq => hcycle ⟨ev, heq⟩) hunlock h
      exact ⟨c, hbeside.state, hd, rfl, rfl⟩

/-- A dispatch makes a step of its own. -/
theorem dispatch_moves {dev : DispatchEvent} (hc : (e.calls t).state = .cycle c)
    (hd : c.dispatches[i]? = some d)
    (h : e.step accepts (.cycle t (.dispatch i dev)) = some e') :
    ∃ c' w d', (e'.calls t).state = .cycle c' ∧ c'.dispatches[i]? = some d' ∧
      c'.options = c.options ∧ c'.credentials = c.credentials ∧ e'.world = w ∧
      Dispatch.Moves accepts e.options c.options c.credentials e.world d dev w d' := by
  obtain ⟨c₀, w, c', hc₀, hstep, rfl⟩ := step_cycle h
  obtain rfl := cycle_unique hc hc₀
  obtain ⟨phase, rfl, hmoves⟩ := Cycle.step_moves hstep
  cases hmoves with
  | @dispatch probing ds _ _ _ d' _ hphase _ hi hx =>
    rw [Cycle.dispatches_of_phase hphase, hi] at hd
    cases hd
    obtain ⟨hlt, -⟩ := List.getElem?_eq_some_iff.mp hi
    refine ⟨{ c with phase := .dispatching probing (ds.set i d') }, w, d', ?_,
      List.getElem?_set_self hlt, rfl, rfl, rfl, Dispatch.step_moves hx⟩
    simp only [setState, setCall, Function.update_self]

/-- While an attempt is out, nobody else sends its item. -/
theorem requested_kept (hI : Inv e) (hd : (e.calls t).dispatches[i]? = some d)
    (hsent : d.unsent = false) (h : e.step accepts l = some e') :
    e'.requested d.entity.id = e.requested d.entity.id := by
  rcases step_cases h with hout | ⟨u, c, c', hcycle⟩
  · rw [requested, hout.requests, requested]
  · rcases hcycle.spec.requests with hsame | ⟨id, hid, request, hnew⟩
    · rw [requested, hsame, requested]
    · have hne : id ≠ d.entity.id := by
        rintro rfl
        rw [← hcycle.unsent, Call.unsent, List.mem_map] at hid
        obtain ⟨d', hd', hid'⟩ := hid
        obtain ⟨hmem, hunsent⟩ := List.mem_filter.mp hd'
        obtain ⟨j, hj⟩ := List.mem_iff_getElem?.mp hmem
        obtain ⟨rfl, rfl⟩ := hI.dispatch_unique hj hd hid'
        obtain rfl : d' = d := Option.some.inj (hj.symm.trans hd)
        rw [hsent] at hunsent
        cases hunsent
      rw [requested, hnew, List.map_append, List.map_singleton, List.count_append,
        List.count_singleton, if_neg (by simpa using hne), Nat.add_zero, requested]

end Engine

namespace CallProcess

variable {p p' : CallProcess} {t : Nat} {options : SyncOptions} {credentials : CredentialPolicy}

theorem oneProbe_step {l : Label} (hO : p.engine.OneProbe) (h : p.step accepts l = some p') :
    p'.engine.OneProbe := by
  rcases step_engine h with heq | ⟨l', hl', -⟩
  · rwa [heq]
  · exact hO.step hl'

theorem Reachable.oneProbe (h : Reachable accepts p) : p.engine.OneProbe := by
  refine h.invariant (fun hboot u c hc => ?_) oneProbe_step
  rw [hboot.calls u] at hc
  cases hc

/-- Caller `t` has this dispatch in place `i` of a batch with these settings. -/
def Carries (t i : Nat) (options : SyncOptions) (credentials : CredentialPolicy) (d : Dispatch)
    (p : CallProcess) : Prop :=
  ∃ c, (p.engine.calls t).state = .cycle c ∧ c.dispatches[i]? = some d ∧
    c.options = options ∧ c.credentials = credentials

theorem carries_step {l : Label} (hI : p.engine.Inv) (hO : p.engine.OneProbe)
    (hbusy : d.atRest = false) (hsent : d.unsent = false)
    (hcarries : p.Carries t i options credentials d) (hown : l.isOwn t i = false)
    (h : p.step accepts l = some p') :
    p'.Carries t i options credentials d ∧
      p'.engine.requested d.entity.id = p.engine.requested d.entity.id := by
  rcases step_engine h with heq | ⟨l', hl', hother⟩
  · rw [Carries, heq]
    exact ⟨hcarries, rfl⟩
  · obtain ⟨c, hc, hd, rfl, rfl⟩ := hcarries
    have hd' : (p.engine.calls t).dispatches[i]? = some d := by
      rwa [Call.dispatches, hc]
    exact ⟨Engine.dispatch_kept hI.exclusive (hO t c hc) hc hd hbusy (hother t i hown) hl',
      Engine.requested_kept hI hd' hsent hl'⟩

/-- While the attempt makes no step of its own, nothing becomes of it. -/
theorem carries_run {ls : List Label} (hI : p.engine.Inv) (hO : p.engine.OneProbe)
    (hbusy : d.atRest = false) (hsent : d.unsent = false)
    (hcarries : p.Carries t i options credentials d) (hown : ∀ l ∈ ls, l.isOwn t i = false)
    (h : StepSystem.exec (step accepts) p ls = some p') :
    p'.Carries t i options credentials d ∧
      p'.engine.requested d.entity.id = p.engine.requested d.entity.id := by
  induction ls generalizing p with
  | nil =>
    cases h
    exact ⟨hcarries, rfl⟩
  | cons l ls ih =>
    obtain ⟨hl, hls⟩ := List.forall_mem_cons.mp hown
    obtain ⟨m, hm, hrest⟩ := StepSystem.exec_cons_eq_some.mp h
    obtain ⟨hcarries', hrequested⟩ := carries_step hI hO hbusy hsent hcarries hl hm
    obtain ⟨hend, htotal⟩ := ih (inv_step hI hm) (oneProbe_step hO hm) hcarries' hls hrest
    exact ⟨hend, htotal.trans hrequested⟩

end CallProcess

/-! ## 3. When a response decides -/

theorem statusCode_settle_classifyStatus (options : SyncOptions) (credentials : CredentialPolicy)
    (entity : SyncItemEntity) (startedAt finishedAt : Int) (sample : ℚ) (code : Int)
    (policy : RetryPolicy) :
    (settle options credentials entity startedAt finishedAt sample
      (classifyStatus code policy)).event.statusCode = some code := by
  have failure (f : AttemptFailure) (hf : f.statusCode = some code) :
      (settle options credentials entity startedAt finishedAt sample
        (.failure f)).event.statusCode = some code := by
    simp only [settle]
    split
    · exact hf
    · split
      · exact hf
      · exact hf
  unfold classifyStatus
  split
  · rfl
  · split
    · exact failure _ rfl
    · split
      · exact failure _ rfl
      · split
        · exact failure _ rfl
        · exact failure _ rfl

theorem statusCode_settle_timedOut (options : SyncOptions) (credentials : CredentialPolicy)
    (entity : SyncItemEntity) (startedAt finishedAt : Int) (sample : ℚ) (policy : RetryPolicy)
    (timeoutMs : Int) :
    (settle options credentials entity startedAt finishedAt sample
      (classify policy timeoutMs .timedOut)).event.statusCode = none := by
  simp only [classify, settle]
  split
  · rfl
  · split
    · rfl
    · rfl

namespace CallProcess

variable {p p₁ p₂ p₃ : CallProcess} {t : Nat} {c : Cycle} {entity : SyncItemEntity}
  {code startedAt now : Int} {sample : ℚ}

/-- The attempt is settled by a response with this status, which arrived at `p`. -/
structure DecidedBy (accepts : HttpRequest → Bool) (t i : Nat) (entity : SyncItemEntity)
    (code : Int) (s : Settlement) (p p₂ p₃ : CallProcess) : Prop where
  write : p₃.engine.world = p₂.engine.world.write s.write
  state : (p₃.engine.calls t).dispatches[i]? = some ⟨entity, .settled s.event s.outcome⟩
  succeeded : 200 ≤ code ∧ code ≤ 299 →
    entity.id ∈ p₃.engine.world.succeeded ∧ entity.id ∉ p₃.engine.world.table.keys ∧
      ∀ ls p', StepSystem.exec (step accepts) p₃ ls = some p' →
        p'.engine.requested entity.id = p.engine.requested entity.id

/-- The block of the attempt completes. -/
theorem complete_spec {r : CallResult} (hc : (p.engine.calls t).state = .cycle c)
    (hd : c.dispatches[i]? = some ⟨entity, .requesting startedAt⟩)
    (hyields : (p.blocks t i).yields = some r) (h : p.step accepts (.complete t i) = some p₁) :
    p₁.Carries t i c.options c.credentials ⟨entity, .attempted startedAt
        (classify p.engine.options.retryPolicy (requestTimeout c.options) r)⟩ ∧
      p₁.engine.requested entity.id = p.engine.requested entity.id := by
  simp only [step, hyields, Option.bind_some, Option.map_eq_some_iff] at h
  obtain ⟨e, he, rfl⟩ := h
  obtain ⟨c', w, d', hc', hd', hoptions, hcredentials, hworld, hmoves⟩ :=
    Engine.dispatch_moves hc hd he
  cases hmoves
  refine ⟨⟨c', hc', hd', hoptions, hcredentials⟩, ?_⟩
  rw [Engine.requested, hworld, Engine.requested]

/-- The attempt is settled. -/
theorem settle_spec {options : SyncOptions} {credentials : CredentialPolicy}
    {result : AttemptResult}
    (hcarries : p₂.Carries t i options credentials ⟨entity, .attempted startedAt result⟩)
    (h : p₂.step accepts (.engine (.cycle t (.dispatch i (.settle now sample)))) = some p₃) :
    p₃.engine.world = p₂.engine.world.write
        (settle options credentials entity startedAt now sample result).write ∧
      (p₃.engine.calls t).dispatches[i]? = some ⟨entity, .settled
        (settle options credentials entity startedAt now sample result).event
        (settle options credentials entity startedAt now sample result).outcome⟩ := by
  obtain ⟨c, hc, hd, rfl, rfl⟩ := hcarries
  simp only [step, Option.ite_none_left_eq_some, Option.map_eq_some_iff] at h
  obtain ⟨-, e, he, rfl⟩ := h
  obtain ⟨c', w, d', hc', hd', -, -, hworld, hmoves⟩ := Engine.dispatch_moves hc hd he
  cases hmoves
  refine ⟨hworld, ?_⟩
  rw [Call.dispatches, hc']
  exact hd'

/-- A response has arrived and the block completes, then the attempt is settled, whatever
the others do in between. -/
theorem response_decides_iff {between : List Label} (hreach : Reachable accepts p)
    (hc : (p.engine.calls t).state = .cycle c)
    (hd : c.dispatches[i]? = some ⟨entity, .requesting startedAt⟩)
    (hresponse : (p.blocks t i).executed = some (.response code))
    (hcomplete : p.step accepts (.complete t i) = some p₁)
    (hown : ∀ l ∈ between, l.isOwn t i = false)
    (hbetween : StepSystem.exec (step accepts) p₁ between = some p₂)
    (hsettle : p₂.step accepts (.engine (.cycle t (.dispatch i (.settle now sample)))) = some p₃) :
    DecidedBy accepts t i entity code
        (settle c.options c.credentials entity startedAt now sample
          (classifyStatus code p.engine.options.retryPolicy)) p p₂ p₃ ↔
      (p.blocks t i).timeoutFired = false := by
  cases hfired : (p.blocks t i).timeoutFired with
  | true =>
    have hyields : (p.blocks t i).yields = some .timedOut := by
      rw [TimedBlock.yields, hresponse, hfired]
      rfl
    obtain ⟨hcarries, -⟩ := complete_spec hc hd hyields hcomplete
    obtain ⟨hcarries₂, -⟩ := carries_run (inv_step hreach.inv hcomplete)
      (oneProbe_step hreach.oneProbe hcomplete) rfl rfl hcarries hown hbetween
    obtain ⟨-, hstate⟩ := settle_spec hcarries₂ hsettle
    refine ⟨fun hdecided => ?_, fun h => absurd h (by simp)⟩
    -- the event of a response carries its status, that of a timeout carries none
    have hsame := congrArg Dispatch.state (Option.some.inj (hdecided.state.symm.trans hstate))
    injection hsame with hevent
    have hstatus := congrArg SyncEvent.statusCode hevent
    rw [statusCode_settle_classifyStatus, statusCode_settle_timedOut] at hstatus
    cases hstatus
  | false =>
    have hyields : (p.blocks t i).yields = some (.response code) := by
      rw [TimedBlock.yields, hresponse, hfired]
      rfl
    obtain ⟨hcarries, hrequested⟩ := complete_spec hc hd hyields hcomplete
    obtain ⟨hcarries₂, hrequested₂⟩ := carries_run (inv_step hreach.inv hcomplete)
      (oneProbe_step hreach.oneProbe hcomplete) rfl rfl hcarries hown hbetween
    obtain ⟨hworld, hstate⟩ := settle_spec hcarries₂ hsettle
    refine ⟨fun _ => rfl, fun _ => ⟨hworld, hstate, fun hok => ?_⟩⟩
    have hwrite : p₃.engine.world = p₂.engine.world.write (.markSucceeded entity.id) := by
      rw [hworld, classify, classifyStatus, if_pos hok]
      rfl
    have hsucceeded : entity.id ∈ p₃.engine.world.succeeded := by
      rw [hwrite]
      exact List.mem_append_right _ (List.mem_singleton_self _)
    have hI₂ : p₂.engine.Inv := StepSystem.exec_invariant inv_step
      (inv_step hreach.inv hcomplete) hbetween
    have hI₃ : p₃.engine.Inv := inv_step hI₂ hsettle
    have hgone := hI₃.succeeded_gone entity.id hsucceeded
    refine ⟨hsucceeded, hgone.2.1, fun ls p' hrun => ?_⟩
    have hsettled : p₃.engine.requested entity.id = p₂.engine.requested entity.id := by
      rw [Engine.requested, hwrite, World.requests_write, Engine.requested]
    calc p'.engine.requested entity.id
        = p₃.engine.requested entity.id := hgone.never_sent (refines accepts) hI₃ hrun
      _ = p₂.engine.requested entity.id := hsettled
      _ = p₁.engine.requested entity.id := hrequested₂
      _ = p.engine.requested entity.id := hrequested

section Sample

def coldProcess : CallProcess where
  engine := Engine.coldStart .TRUSTED
  blocks _ _ := .start

/-- The request of the only item goes out, and a response with this status comes back. -/
def answeredRun (code : Int) : List Label :=
  (Engine.claimRun [SyncQueueStorage.sampleItem "A"]).map .engine ++
    [.engine (.cycle 0 (.dispatch 0 (.start 2001))), .engine (.cycle 0 (.dispatch 0 .send)),
      .block 0 0 (.execute (.response code))]

def settledRun : List Label := [.complete 0 0, .engine (.cycle 0 (.dispatch 0 (.settle 2100 0)))]

/-- The rest of the cycle. -/
def finishRun : List Label :=
  [.cycle 0 (.dispatch 0 .emit), .cycle 0 .join, .cycle 0 (.record 2200), .cycle 0 .resume,
    .cycle 0 .emitTerminal, .cycle 0 .resume, .cycle 0 .finish, .unlock 0].map .engine

/-- A later cycle, up to its request. -/
def nextRun : List Label :=
  [.call 0 .flush, .lock 0, .checkPaused 0, .readCredentials 0, .begin 0 100000,
    .cycle 0 .emitStarted, .cycle 0 .claim, .cycle 0 .resume,
    .cycle 0 (.dispatch 0 (.start 100001)), .cycle 0 (.dispatch 0 .send)].map .engine

/-- Nothing has timed out when the 200 is returned. -/
theorem response_decides_in_time :
    ∃ p p₁ p₂, StepSystem.exec (step fun _ => true) coldProcess (answeredRun 200) = some p ∧
      p.step (fun _ => true) (.complete 0 0) = some p₁ ∧
      p₁.step (fun _ => true) (.engine (.cycle 0 (.dispatch 0 (.settle 2100 0)))) = some p₂ ∧
      "A" ∈ p₂.engine.world.succeeded := by
  obtain ⟨p, p₁, p₂, c, entity, hp, hc, hd, hresponse, hfired, hcomplete, hsettle, hid⟩ :
      ∃ p p₁ p₂ c entity,
        StepSystem.exec (step fun _ => true) coldProcess (answeredRun 200) = some p ∧
        (p.engine.calls 0).state = .cycle c ∧
        c.dispatches[0]? = some ⟨entity, .requesting 2001⟩ ∧
        (p.blocks 0 0).executed = some (.response 200) ∧ (p.blocks 0 0).timeoutFired = false ∧
        p.step (fun _ => true) (.complete 0 0) = some p₁ ∧
        p₁.step (fun _ => true) (.engine (.cycle 0 (.dispatch 0 (.settle 2100 0)))) = some p₂ ∧
        entity.id = "A" :=
    ⟨_, _, _, _, _, rfl, rfl, rfl, rfl, rfl, rfl, rfl, rfl⟩
  have hdecided := (response_decides_iff ⟨_, _, Engine.coldStart_boot .TRUSTED, hp⟩ hc hd hresponse
    hcomplete (List.forall_mem_nil _) (StepSystem.exec_nil _ p₁) hsettle).mpr hfired
  exact ⟨p, p₁, p₂, hp, hcomplete, hsettle, hid ▸ (hdecided.succeeded (by decide)).1⟩

/-- The 200 is returned, then the coroutine timeout fires before the block completes. -/
def lateRun : List Label := answeredRun 200 ++ [.block 0 0 .timeout]

/-- The attempt is recorded as a timeout, and the next cycle sends the delivered item
again. -/
theorem late_timeout_sends_again :
    (StepSystem.exec (step fun _ => true) coldProcess lateRun).map (fun p =>
        ((p.blocks 0 0).executed, p.engine.requested "A")) =
      some (some (.response 200), 1) ∧
    (StepSystem.exec (step fun _ => true) coldProcess
        (lateRun ++ settledRun ++ finishRun ++ nextRun)).map (fun p =>
          (p.engine.world.table.rows.map (·.lastErrorCode), p.engine.world.succeeded,
            p.engine.requested "A")) =
      some ([some .TIMEOUT], [], 2) := by
  constructor <;> decide +kernel

end Sample

end CallProcess

end SyncProvider.Android
