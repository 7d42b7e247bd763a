import SyncProvider.Ios.Ledger
import Mathlib.Data.List.TakeWhile

/-!
# iOS: the bracket of a cycle

Listeners track a cycle from `SYNC_STARTED` to its terminal event, and the retry
scheduler waits for its `onCycleFinished`. Every storage operation in between
may throw, and other calls come in at each `await`.

Results:
1. `Cycle.bracketed_step` : what one step of a cycle does to its bracket.
2. `Serial.step` : the hold and the flag of the actor belong to one cycle.
3. `Brackets.step` : the bracket of the active cycle is open.
4. `cycle_bracketed` : a cycle that is over has one terminal event and one call
   of `onCycleFinished`, and a flush that starts none changes nothing.
-/

namespace SyncProvider.Ios

/-! ## Events and marks -/

namespace SyncEvent

def started : SyncEvent where
  type := "SYNC_STARTED"

def isTerminal (event : SyncEvent) : Bool :=
  event.type == "SYNC_SUCCEEDED" || event.type == "SYNC_FAILED"

/-- The event begins or ends a bracket. -/
def isBracket (event : SyncEvent) : Bool := event.type == "SYNC_STARTED" || event.isTerminal

end SyncEvent

/-- `before`, a `SYNC_STARTED`, and no other end of a bracket since. -/
def Opened (before events : List SyncEvent) : Prop :=
  ∃ mid, events = before ++ .started :: mid ∧ ∀ x ∈ mid, x.isBracket = false

/-- The events up to the next `SYNC_STARTED`. -/
def untilStarted (events : List SyncEvent) : List SyncEvent :=
  events.takeWhile fun event => event.type != "SYNC_STARTED"

/-- After `before` comes a `SYNC_STARTED`, and up to the next one `terminal` is
the only terminal event. -/
def ClosedBy (before : List SyncEvent) (terminal : SyncEvent) (events : List SyncEvent) : Prop :=
  ∃ rest, events = before ++ .started :: rest ∧
    (untilStarted rest).filter (·.isTerminal) = [terminal]

/-- The log gains at most one event, a terminal one only in an open bracket. -/
def Emits (w w' : World) : Prop :=
  w'.events = w.events ∨ ∃ event, w'.events = w.events ++ [event] ∧
    (event.isTerminal = false ∨ ∃ before, Opened before w.events)

/-- Without a `SYNC_STARTED` an event joins the ones before it, behind one it
does not. -/
theorem untilStarted_append (events : List SyncEvent) (event : SyncEvent) :
    untilStarted (events ++ [event]) =
      if SyncEvent.started.type ∈ events.map (·.type) then untilStarted events
      else events ++ untilStarted [event] := by
  induction events with
  | nil => rfl
  | cons x events ih =>
    unfold untilStarted at ih ⊢
    by_cases hx : x.type = "SYNC_STARTED"
    · simp [SyncEvent.started, hx]
    · have hne : ¬ SyncEvent.started.type = x.type := fun h => hx h.symm
      have hpass : (x.type != "SYNC_STARTED") = true := by simpa using hx
      simp only [List.cons_append, List.takeWhile_cons, hpass, if_true, ih, List.map_cons,
        List.mem_cons, hne, false_or]
      split <;> rfl

theorem Opened.emit {before events : List SyncEvent} {event : SyncEvent}
    (h : Opened before events) (hevent : event.isBracket = false) :
    Opened before (events ++ [event]) := by
  obtain ⟨mid, rfl, hmid⟩ := h
  refine ⟨mid ++ [event], by simp, fun x hx => ?_⟩
  rcases List.mem_append.mp hx with hx | hx
  · exact hmid x hx
  · rw [List.mem_singleton.mp hx]
    exact hevent

/-- Nothing has ended the open bracket yet. -/
theorem untilStarted_of_open {mid : List SyncEvent} (hmid : ∀ x ∈ mid, x.isBracket = false) :
    untilStarted mid = mid ∧ mid.filter (·.isTerminal) = [] := by
  have hnone : ∀ x ∈ mid, (x.type == "SYNC_STARTED") = false ∧ x.isTerminal = false := by
    intro x hx
    have := hmid x hx
    unfold SyncEvent.isBracket at this
    exact Bool.or_eq_false_iff.mp this
  refine ⟨List.takeWhile_eq_self_iff.mpr fun x hx => ?_, List.filter_eq_nil_iff.mpr fun x hx => ?_⟩
  · rw [bne, (hnone x hx).1]
    rfl
  · rw [(hnone x hx).2]
    exact Bool.false_ne_true

theorem Opened.close {before events : List SyncEvent} (h : Opened before events)
    {terminal : SyncEvent} (hterminal : terminal.isTerminal = true) :
    ClosedBy before terminal (events ++ [terminal]) := by
  obtain ⟨mid, rfl, hmid⟩ := h
  obtain ⟨huntil, hfilter⟩ := untilStarted_of_open hmid
  have hmem : SyncEvent.started.type ∉ mid.map (·.type) := by
    rintro hstarted
    obtain ⟨x, hx, hxtype⟩ := List.mem_map.mp hstarted
    have := hmid x hx
    simp [SyncEvent.isBracket, hxtype, SyncEvent.started] at this
  have htype : terminal.type ≠ "SYNC_STARTED" := by
    intro htype
    simp [SyncEvent.isTerminal, htype] at hterminal
  refine ⟨mid ++ [terminal], by simp, ?_⟩
  rw [untilStarted_append, if_neg hmem, List.filter_append, hfilter, untilStarted,
    List.takeWhile_cons_of_pos (by simpa using htype), List.takeWhile_nil,
    List.filter_cons_of_pos hterminal]
  rfl

/-- A bracket that is closed stays closed: a later terminal event belongs to a
later `SYNC_STARTED`. -/
theorem ClosedBy.emit {before : List SyncEvent} {terminal : SyncEvent} {w w' : World}
    (h : ClosedBy before terminal w.events) (hemits : Emits w w') :
    ClosedBy before terminal w'.events := by
  obtain ⟨rest, hevents, hrest⟩ := h
  rcases hemits with heq | ⟨event, heq, hevent⟩
  · exact ⟨rest, heq.trans hevents, hrest⟩
  refine ⟨rest ++ [event], by rw [heq, hevents]; simp, ?_⟩
  rw [untilStarted_append]
  split
  · exact hrest
  rename_i hnone
  -- no `SYNC_STARTED` follows, so the bracket that is open would be this one
  have huntil : untilStarted rest = rest := by
    refine List.takeWhile_eq_self_iff.mpr fun x hx => ?_
    have htype : x.type ≠ "SYNC_STARTED" := fun htype =>
      hnone (List.mem_map.mpr ⟨x, hx, htype⟩)
    simpa using htype
  have hnot : ¬ ∃ opened, Opened opened w.events := by
    rintro ⟨opened, mid, hmid, hopen⟩
    have hbracket : SyncEvent.started.isBracket = true := rfl
    rw [hevents] at hmid
    rcases List.append_eq_append_iff.mp hmid with ⟨between, -, h⟩ | ⟨between, -, h⟩
    · cases between with
      | nil =>
        obtain rfl : rest = mid := (List.cons.inj h).2
        rw [huntil, (untilStarted_of_open hopen).2] at hrest
        cases hrest
      | cons x between =>
        obtain rfl := (List.cons.inj h).2
        exact hnone (by simp)
    · cases between with
      | nil =>
        obtain rfl : mid = rest := (List.cons.inj h).2
        rw [huntil, (untilStarted_of_open hopen).2] at hrest
        cases hrest
      | cons x between =>
        obtain rfl := (List.cons.inj h).2
        rw [hopen _ (by simp)] at hbracket
        cases hbracket
  have hevent : event.isTerminal = false := hevent.resolve_right hnot
  rw [huntil] at hrest
  rw [List.filter_append, hrest, untilStarted, List.takeWhile_cons, List.takeWhile_nil]
  split
  · rw [List.filter_cons_of_neg (by simp [hevent])]
    rfl
  · rfl

/-- What a cycle owes its listeners and its caller. -/
inductive Mark where
  /-- An item was marked `FAILED`. -/
  | failed
  /-- A storage operation threw out of `runCycle`. -/
  | threw
  /-- A credential was rejected, and its item waits until then. -/
  | held (until_ : Int)
  /-- `onCycleFinished` was called. -/
  | called (notBefore : Option Int)
  deriving DecidableEq

/-- The holds the cycle recorded. -/
def holds (marks : List Mark) : List Int :=
  marks.filterMap fun
    | .held until_ => some until_
    | _ => none

/-- The arguments the cycle called `onCycleFinished` with. -/
def finishCalls (marks : List Mark) : List (Option Int) :=
  marks.filterMap fun
    | .called notBefore => some notBefore
    | _ => none

@[simp] theorem holds_append (marks marks' : List Mark) :
    holds (marks ++ marks') = holds marks ++ holds marks' :=
  List.filterMap_append

@[simp] theorem finishCalls_append (marks marks' : List Mark) :
    finishCalls (marks ++ marks') = finishCalls marks ++ finishCalls marks' :=
  List.filterMap_append

namespace Cycle

/-- What the step of a cycle leaves as marks. -/
def marks (c : Cycle) (ev : CycleEvent) : List Mark :=
  match ev, c.phase with
  | .write nowMs, .recording _ _ record =>
    match record.write with
    | .markFailed _ => [.failed]
    | .markPendingForRetry _ _ => []
    | .markCredentialRejected _ retryDelayMs _ =>
      [.held (SyncItemDao.heldUntil retryDelayMs nowMs)]
  | .fail _, _ => [.threw]
  | .finish, .finishing notBefore => [.called notBefore]
  | _, _ => []

/-! ## 1. What a step does to the bracket -/

/-- A cycle whose bracket is open. -/
structure Running (before : List SyncEvent) (w : World) (c : Cycle) (ms : List Mark) : Prop where
  opened : Opened before w.events
  holds : holds ms = w.credentialHeldUntil.toList
  unheld : c.phase ≠ .summarizing false → w.credentialHeldUntil = none
  calls : finishCalls ms = []
  threw : .threw ∉ ms
  failed : .failed ∈ ms → c.failedIds ≠ []
  unfailed : (∃ limit, c.phase = .fetching limit) ∨ c.phase = .summarizing true → .failed ∉ ms
  record : ∀ item rest record, c.phase = .recording item rest record →
    record.event.isBracket = false

/-- A cycle whose bracket is closed, with the hold its `finishCycle` took. -/
structure Ended (before : List SyncEvent) (w : World) (notBefore : Option Int) (ms : List Mark) :
    Prop where
  closed : ∃ terminal, ClosedBy before terminal w.events ∧ terminal.isTerminal = true ∧
    (.failed ∈ ms ∨ .threw ∈ ms → terminal.type = "SYNC_FAILED")
  holds : Ios.holds ms = notBefore.toList

/-- The bracket of a cycle, by its phase. -/
def Bracketed (before : List SyncEvent) (w : World) (c : Cycle) (ms : List Mark) : Prop :=
  match c.phase with
  | .finishing notBefore => Ended before w notBefore ms ∧ finishCalls ms = []
  | .finished => ∃ notBefore, Ended before w notBefore ms ∧ finishCalls ms = [notBefore]
  | _ => Running before w c ms

end Cycle

theorem recordFailureOutcome_event (config sentWith : DispatcherConfig) (item : StoredSyncItem)
    (outcome : ItemDispatchOutcome) (sample : ℚ) :
    (recordFailureOutcome config sentWith item outcome sample).event.isBracket = false := by
  unfold recordFailureOutcome
  dsimp only
  split
  · rfl
  · split <;> rfl

namespace Cycle

variable {before : List SyncEvent} {w w' : World} {c c' : Cycle} {ms : List Mark}

/-- A step that marks nothing and emits at most an event about an item. -/
theorem Running.move (hR : Running before w c ms) (hphase : c.phase ≠ .summarizing false)
    (hevents : w'.events = w.events ∨ ∃ x, x.isBracket = false ∧ w'.events = w.events ++ [x])
    (hheld : w'.credentialHeldUntil = w.credentialHeldUntil)
    (hfailed : c'.failedIds = c.failedIds)
    (hempty : (∃ limit, c'.phase = .fetching limit) ∨ c'.phase = .summarizing true →
      (∃ limit, c.phase = .fetching limit) ∨ c.phase = .summarizing true)
    (hrecord : ∀ item rest record, c'.phase = .recording item rest record →
      record.event.isBracket = false) : Running before w' c' (ms ++ []) := by
  rw [List.append_nil]
  refine ⟨?_, hheld ▸ hR.holds, fun _ => hheld.trans (hR.unheld hphase), hR.calls, hR.threw,
    hfailed ▸ hR.failed, fun h => hR.unfailed (hempty h), hrecord⟩
  rcases hevents with hevents | ⟨x, hx, hevents⟩
  · rw [hevents]
    exact hR.opened
  · rw [hevents]
    exact hR.opened.emit hx

/-- The terminal event of a cycle. -/
theorem Running.finish (hR : Running before w c ms) {terminal : SyncEvent} {ms' : List Mark}
    (hevents : w'.events = w.events ++ [terminal]) (hterminal : terminal.isTerminal = true)
    (hms : ∀ m, m ∈ ms' → m = .threw)
    (hfailed : .failed ∈ ms ∨ .threw ∈ ms' → terminal.type = "SYNC_FAILED") :
    Ended before w' w.credentialHeldUntil (ms ++ ms') ∧ finishCalls (ms ++ ms') = [] := by
  have hholds : Ios.holds ms' = [] := by
    refine List.filterMap_eq_nil_iff.mpr fun m hm => ?_
    rw [hms m hm]
  have hcalls : finishCalls ms' = [] := by
    refine List.filterMap_eq_nil_iff.mpr fun m hm => ?_
    rw [hms m hm]
  refine ⟨⟨⟨terminal, hevents ▸ hR.opened.close hterminal, hterminal, fun h => hfailed ?_⟩, ?_⟩, ?_⟩
  · simp only [List.mem_append] at h
    rcases h with (h | h) | (h | h)
    · exact .inl h
    · cases hms _ h
    · exact absurd h hR.threw
    · exact .inr h
  · rw [holds_append, hholds, List.append_nil, hR.holds]
  · rw [finishCalls_append, hcalls, hR.calls]
    rfl

/-- The write of a failed dispatch. -/
theorem Running.writeFailure {item : StoredSyncItem} {rest : List StoredSyncItem}
    {record : FailureRecord} (hR : Running before w c ms)
    (hphase : c.phase = .recording item rest record) (nowMs : Int) :
    Running before (Cycle.writeFailure w c item rest record nowMs).1
      (Cycle.writeFailure w c item rest record nowMs).2 (ms ++ c.marks (.write nowMs)) := by
  have hevent := hR.record item rest record hphase
  have hunheld : w.credentialHeldUntil = none := hR.unheld (by simp [hphase])
  have hholds : Ios.holds ms = [] := by simp [hR.holds, hunheld]
  unfold Cycle.writeFailure marks
  rw [hphase]
  dsimp only
  cases record.write with
  | markFailed errorCode =>
    refine ⟨hR.opened.emit hevent, ?_, fun _ => hunheld, ?_, ?_, fun _ => ?_, ?_, ?_⟩
    · rw [holds_append, hholds]
      show [] = w.credentialHeldUntil.toList
      rw [hunheld]
      rfl
    · rw [finishCalls_append, hR.calls]
      rfl
    · simp [hR.threw]
    · simp
    · simp
    · simp
  | markPendingForRetry errorCode retryDelayMs =>
    refine hR.move (by simp [hphase]) (.inr ⟨record.event, hevent, rfl⟩) rfl rfl ?_ ?_
    · simp
    · simp
  | markCredentialRejected errorCode retryDelayMs attempts =>
    refine ⟨hR.opened.emit hevent, ?_, fun h => absurd rfl h, ?_, ?_, ?_, ?_, ?_⟩
    · rw [holds_append, hholds]
      rfl
    · rw [finishCalls_append, hR.calls]
      rfl
    · simp [hR.threw]
    · simpa using hR.failed
    · simp
    · simp

/-- The bracket of a cycle that is active is open. -/
theorem bracketed_of_active (hc : c.active = true) :
    Bracketed before w c ms ↔ Running before w c ms := by
  unfold Bracketed
  unfold active at hc
  cases hphase : c.phase with
  | finishing notBefore | finished =>
    rw [hphase] at hc
    cases hc
  | _ => exact Iff.rfl

theorem active_of_inStorage (h : inStorage c.phase = true) : c.active = true := by
  unfold inStorage at h
  unfold active
  cases hphase : c.phase with
  | finishing notBefore | finished =>
    rw [hphase] at h
    cases h
  | _ => rfl

theorem active_writeFailure (w : World) (c : Cycle) (item : StoredSyncItem)
    (rest : List StoredSyncItem) (record : FailureRecord) (nowMs : Int) :
    (Cycle.writeFailure w c item rest record nowMs).2.active = true := by
  unfold Cycle.writeFailure
  cases record.write <;> rfl

theorem terminalEvent_isTerminal (c : Cycle) (nothingPending : Bool) :
    (c.terminalEvent nothingPending).isTerminal = true := by
  unfold terminalEvent
  split
  · rfl
  · split <;> rfl

theorem bracketed_step {scheme : String → Option String} {config : DispatcherConfig}
    {paused : Bool} {ev : CycleEvent} (hB : Bracketed before w c ms)
    (h : c.step scheme config paused w ev = some (w', c')) :
    Bracketed before w' c' (ms ++ c.marks ev) := by
  unfold Bracketed at hB
  have hmarks {p : CyclePhase} (hphase : c.phase = p)
      (hev : marks { c with phase := p } ev = []) : c.marks ev = [] := by
    rw [← hev, ← hphase]
  cases Cycle.step_cases h with
  | fetchNone hphase hnone =>
    rw [hphase] at hB
    rw [hmarks hphase rfl]
    exact hB.move (by simp [hphase]) (.inl rfl) rfl rfl (fun _ => .inl ⟨_, hphase⟩) (by simp)
  | fetch hphase hpending hsome | leave hphase hleave | take hphase hpaused
  | markInFlight hphase | prepare hphase hurl | rejectUrl hphase hurl | send hphase
  | sendFails hphase | answer hphase =>
    rw [hphase] at hB
    rw [hmarks hphase rfl]
    exact hB.move (by simp [hphase]) (.inl rfl) rfl rfl (by simp) (by simp)
  | succeed hphase hok =>
    rw [hphase] at hB
    rw [hmarks hphase rfl]
    exact hB.move (by simp [hphase]) (.inr ⟨c.progressEvent, rfl, rfl⟩) rfl rfl (by simp) (by simp)
  | failItem hphase hok =>
    rw [hphase] at hB
    rw [hmarks hphase rfl]
    refine hB.move (by simp [hphase]) (.inr ⟨c.progressEvent, rfl, rfl⟩) rfl rfl (by simp) ?_
    rintro _ _ _ ⟨⟩
    exact recordFailureOutcome_event ..
  | @remove item rest statusCode nowMs hphase =>
    rw [hphase] at hB
    rw [hmarks hphase rfl]
    exact hB.move (by simp [hphase]) (.inr ⟨succeededEvent item statusCode, rfl, rfl⟩) rfl rfl
      (by simp) (by simp)
  | @record item rest record nowMs hphase =>
    rw [hphase] at hB
    exact (bracketed_of_active (active_writeFailure ..)).mpr (Running.writeFailure hB hphase nowMs)
  | @summarize nothingPending nowMs hphase =>
    rw [hphase] at hB
    rw [hmarks hphase rfl]
    have hthrew : ∀ m, m ∈ ([] : List Mark) → m = .threw := by simp
    refine Running.finish hB rfl (terminalEvent_isTerminal ..) hthrew fun hfailed => ?_
    have hfailed : .failed ∈ ms := by simpa using hfailed
    -- a cycle that found nothing has no failed item
    have hsome : nothingPending = false := by
      cases nothingPending with
      | true => exact absurd hfailed (hB.unfailed (.inr hphase))
      | false => rfl
    simp [terminalEvent, hsome, hB.failed hfailed]
  | fail hstorage =>
    have hR := (bracketed_of_active (active_of_inStorage hstorage)).mp hB
    have hthrew : ∀ m, m ∈ [Mark.threw] → m = .threw := by simp
    exact Running.finish hR rfl rfl hthrew fun _ => rfl
  | @finish notBefore hphase =>
    rw [hphase] at hB
    obtain ⟨⟨⟨terminal, hclosed, hterminal, hfailed⟩, hholds⟩, hcalls⟩ := hB
    have hmark : c.marks .finish = [.called notBefore] := by
      simp only [marks, hphase]
    rw [hmark]
    refine ⟨notBefore, ⟨⟨terminal, hclosed, hterminal, ?_⟩, ?_⟩, ?_⟩
    · simpa using hfailed
    · rw [holds_append, hholds]
      exact List.append_nil _
    · rw [finishCalls_append, hcalls]
      rfl

/-- Other cycles and callers only add events to a bracket that is closed. -/
theorem Bracketed.congr (hB : Bracketed before w c ms)
    (hactive : c.active = true →
      w'.events = w.events ∧ w'.credentialHeldUntil = w.credentialHeldUntil)
    (hended : Emits w w') : Bracketed before w' c ms := by
  cases hc : c.active with
  | true =>
    obtain ⟨hevents, hheld⟩ := hactive hc
    rw [bracketed_of_active hc] at hB ⊢
    exact ⟨hevents ▸ hB.opened, hheld ▸ hB.holds, hheld ▸ hB.unheld, hB.calls, hB.threw,
      hB.failed, hB.unfailed, hB.record⟩
  | false =>
    have keep {notBefore : Option Int} (h : Ended before w notBefore ms) :
        Ended before w' notBefore ms := by
      obtain ⟨⟨terminal, hclosed, hterminal⟩, hholds⟩ := h
      exact ⟨⟨terminal, hclosed.emit hended, hterminal⟩, hholds⟩
    unfold active at hc
    unfold Bracketed at hB ⊢
    cases hphase : c.phase with
    | finishing notBefore =>
      rw [hphase] at hB
      exact ⟨keep hB.1, hB.2⟩
    | finished =>
      rw [hphase] at hB
      obtain ⟨notBefore, hE, hcalls⟩ := hB
      exact ⟨notBefore, keep hE, hcalls⟩
    | _ =>
      rw [hphase] at hc
      cases hc

/-- An active cycle has an open bracket, and one that has ended emits nothing. -/
theorem step_emits {scheme : String → Option String} {config : DispatcherConfig} {paused : Bool}
    {ev : CycleEvent} (h : c.step scheme config paused w ev = some (w', c'))
    (hopened : c.active = true → ∃ before, Opened before w.events) : Emits w w' := by
  have emit {event : SyncEvent} (hc : c.active = true) (heq : w'.events = w.events ++ [event]) :
      Emits w w' := .inr ⟨event, heq, .inr (hopened hc)⟩
  cases Cycle.step_cases h with
  | @record item rest record nowMs hphase =>
    have heq : (Cycle.writeFailure w c item rest record nowMs).1.events =
        w.events ++ [record.event] := by
      unfold Cycle.writeFailure
      cases record.write <;> rfl
    exact emit (by rw [active, hphase]) heq
  | succeed hphase | failItem hphase | remove hphase | summarize hphase =>
    exact emit (by rw [active, hphase]) rfl
  | fail hstorage => exact emit (active_of_inStorage hstorage) rfl
  | fetchNone | fetch | leave | take | markInFlight | prepare | rejectUrl | send | sendFails
  | answer | finish => exact .inl rfl

/-- The step that ends a cycle resets the actor and leaves the rows alone. -/
structure Ending (w : World) (c : Cycle) (ev : CycleEvent) (w' : World) (c' : Cycle) : Prop where
  store : w'.store = w.store
  isCycleRunning : w'.isCycleRunning = false
  credentialHeldUntil : w'.credentialHeldUntil = none
  phase : c'.phase = .finishing w.credentialHeldUntil
  exit : (∃ nothingPending, c.phase = .summarizing nothingPending) ∨
    inStorage c.phase = true ∧ ∃ code, ev = .fail code

theorem step_ending {scheme : String → Option String} {config : DispatcherConfig} {paused : Bool}
    {ev : CycleEvent} (h : c.step scheme config paused w ev = some (w', c'))
    (hc : c.active = true) (hc' : c'.active = false) : Ending w c ev w' c' := by
  cases Cycle.step_cases h with
  | @record item rest record nowMs hphase =>
    rw [active_writeFailure] at hc'
    cases hc'
  | summarize hphase => exact ⟨rfl, rfl, rfl, rfl, .inl ⟨_, hphase⟩⟩
  | fail hstorage => exact ⟨rfl, rfl, rfl, rfl, .inr ⟨hstorage, _, rfl⟩⟩
  | finish hphase =>
    rw [active, hphase] at hc
    cases hc
  | fetchNone | fetch | leave | take | markInFlight | prepare | rejectUrl | send | sendFails
  | answer | succeed | failItem | remove => cases hc'

end Cycle

/-! ## 2. The state of the actor -/

def Label.isKill : Label → Bool
  | .kill _ _ => true
  | _ => false

namespace Engine

variable {scheme : String → Option String} {e e' : Engine}

/-- The flag is set by the one active cycle, and the hold is its own. -/
structure Serial (e : Engine) : Prop where
  one : OneCycle e
  active : e.world.isCycleRunning = true → ∃ t c, e.flushes t = some c ∧ c.active = true
  unheld : e.world.isCycleRunning = false → e.world.credentialHeldUntil = none

theorem Serial.flush (hS : Serial e) (t : Nat) (recovered : Option StringMap) (nowMs : Int) :
    Serial (e.flush t recovered nowMs) := by
  have hone := hS.one.flush t recovered nowMs
  obtain ⟨config, -, h | ⟨hidle, h⟩⟩ := e.flush_cases t recovered nowMs <;> rw [h] at hone ⊢
  · exact ⟨hone, hS.active, hS.unheld⟩
  · refine ⟨hone, fun _ => ⟨t, Cycle.start nowMs (max config.batchSize 1), ?_, rfl⟩, ?_⟩
    · exact Function.update_self ..
    · rintro ⟨⟩

theorem Serial.inCycle {t : Nat} {ev : CycleEvent} {c c' : Cycle} (hS : Serial e)
    (h : InCycle scheme e e' t ev c c') : Serial e' := by
  have hone := hS.one.inCycle h
  have hself : e'.flushes t = some c' := by
    rw [h.flushes, Function.update_self]
  cases hc' : c'.active with
  | true =>
    refine ⟨hone, fun _ => ⟨t, c', hself, hc'⟩, fun hidle => ?_⟩
    rw [hone.running t c' hself hc'] at hidle
    cases hidle
  | false =>
    cases hc : c.active with
    | true =>
      have hending := Cycle.step_ending h.step hc hc'
      refine ⟨hone, fun hr => ?_, fun _ => hending.credentialHeldUntil⟩
      rw [hending.isCycleRunning] at hr
      cases hr
    | false =>
      obtain ⟨notBefore, hw⟩ := Cycle.step_ended h.step hc
      refine ⟨hone, ?_, ?_⟩
      · rw [hw]
        intro hr
        obtain ⟨u, d, hd, hda⟩ := hS.active hr
        have hu : u ≠ t := by
          rintro rfl
          rw [h.before] at hd
          cases hd
          rw [hc] at hda
          cases hda
        exact ⟨u, d, (h.flushes_of_ne hu).trans hd, hda⟩
      · rw [hw]
        exact hS.unheld

theorem Serial.step {l : Label} (hS : Serial e) (h : e.step scheme l = some e') : Serial e' := by
  have hone := hS.one.step h
  rcases step_kinds h with h | ⟨t, recovered, nowMs, -, -, rfl⟩ | ⟨t, ev, c, c', -, h⟩ |
    ⟨config, paused, rfl⟩
  · refine ⟨hone, ?_, ?_⟩
    · rw [h.isCycleRunning, h.flushes]
      exact hS.active
    · rw [h.isCycleRunning, h.credentialHeldUntil]
      exact hS.unheld
  · exact hS.flush t recovered nowMs
  · exact hS.inCycle h
  · cases h
    exact ⟨hone, by rintro ⟨⟩, fun _ => rfl⟩

/-! ## 3. The open bracket -/

/-- The bracket of every active cycle is open. -/
def Brackets (e : Engine) : Prop :=
  ∀ t c, e.flushes t = some c → c.active = true → ∃ before ms, c.Running before e.world ms

theorem Brackets.opened (hB : Brackets e) {t : Nat} {c : Cycle} (hc : e.flushes t = some c)
    (hactive : c.active = true) : ∃ before, Opened before e.world.events := by
  obtain ⟨before, ms, hR⟩ := hB t c hc hactive
  exact ⟨before, hR.opened⟩

/-- A cycle that starts opens its bracket. -/
theorem Serial.running_start (hS : Serial e) (hidle : e.world.isCycleRunning = false)
    (nowMs limit : Int) (isCycleRunning : Bool) :
    (Cycle.start nowMs limit).Running e.world.events
      ({ e.world with isCycleRunning := isCycleRunning }.emit .started) [] := by
  have hunheld := hS.unheld hidle
  refine ⟨⟨[], rfl, by simp⟩, ?_, fun _ => hunheld, rfl, by simp, by simp, by simp,
    by rintro _ _ _ ⟨⟩⟩
  show [] = e.world.credentialHeldUntil.toList
  rw [hunheld]
  rfl

theorem Brackets.flush (hB : Brackets e) (hS : Serial e) (t : Nat) (recovered : Option StringMap)
    (nowMs : Int) : Brackets (e.flush t recovered nowMs) := by
  obtain ⟨config, -, h | ⟨hidle, h⟩⟩ := e.flush_cases t recovered nowMs <;> rw [h]
  · exact hB
  · intro u d hd hactive
    rcases flushes_setCycle hd with ⟨-, rfl⟩ | ⟨-, hd⟩
    · exact ⟨_, [], hS.running_start hidle nowMs _ true⟩
    · rw [hS.one.idle hidle hd] at hactive
      cases hactive

theorem Brackets.inCycle {t : Nat} {ev : CycleEvent} {c c' : Cycle} (hB : Brackets e)
    (hS : Serial e) (h : InCycle scheme e e' t ev c c') : Brackets e' := by
  intro u d hd hactive
  rw [h.flushes] at hd
  rcases flushes_setCycle hd with ⟨-, rfl⟩ | ⟨hne, hd⟩
  · obtain ⟨hc, -⟩ := Cycle.step_active h.step hactive
    obtain ⟨before, ms, hR⟩ := hB t c h.before hc
    exact ⟨before, _, (Cycle.bracketed_of_active hactive).mp
      (Cycle.bracketed_step ((Cycle.bracketed_of_active hc).mpr hR) h.step)⟩
  · -- next to the active cycle of `u`, the one that steps has ended
    obtain ⟨notBefore, hw⟩ :=
      Cycle.step_ended h.step (hS.one.ended hne h.before hd hactive)
    obtain ⟨before, ms, hR⟩ := hB u d hd hactive
    refine ⟨before, ms, ?_⟩
    rw [hw]
    exact ⟨hR.opened, hR.holds, hR.unheld, hR.calls, hR.threw, hR.failed, hR.unfailed, hR.record⟩

theorem Brackets.step {l : Label} (hB : Brackets e) (hS : Serial e)
    (h : e.step scheme l = some e') : Brackets e' := by
  rcases step_kinds h with hA | ⟨t, recovered, nowMs, -, -, rfl⟩ | ⟨t, ev, c, c', -, h⟩ |
    ⟨config, paused, rfl⟩
  · intro t c hc hactive
    rw [hA.flushes] at hc
    obtain ⟨before, ms, hR⟩ := hB t c hc hactive
    exact ⟨before, ms, hA.events ▸ hR.opened, hA.credentialHeldUntil ▸ hR.holds,
      hA.credentialHeldUntil ▸ hR.unheld, hR.calls, hR.threw, hR.failed, hR.unfailed, hR.record⟩
  · exact hB.flush hS t recovered nowMs
  · exact hB.inCycle hS h
  · cases h
    rintro t c ⟨⟩

/-- The cycle of a flush call steps by itself only. -/
theorem flushes_of_other {l : Label} {t : Nat} {c : Cycle} (h : e.step scheme l = some e')
    (hl : ∀ ev, l ≠ .cycle t ev) (hkill : l.isKill = false) (hc : e.flushes t = some c) :
    e'.flushes t = some c := by
  rcases step_kinds h with hapart | ⟨u, recovered, nowMs, -, hnone, rfl⟩ |
    ⟨u, ev, d, d', rfl, hcycle⟩ | ⟨config, paused, rfl⟩
  · exact hapart.flushes ▸ hc
  · have hu : t ≠ u := by
      rintro rfl
      rw [hc] at hnone
      cases hnone
    obtain ⟨config, -, heq | ⟨-, heq⟩⟩ := e.flush_cases u recovered nowMs <;> rw [heq]
    · exact hc
    · exact (Function.update_of_ne hu _ _).trans hc
  · have hu : t ≠ u := by
      rintro rfl
      exact hl ev rfl
    exact (hcycle.flushes_of_ne hu).trans hc
  · cases hkill

/-! ## 4. The bracket over a run -/

/-- The marks the cycle of flush call `t` leaves in a step. -/
def marks (t : Nat) (e : Engine) : Label → List Mark
  | .cycle u ev =>
    if u = t then
      match e.flushes t with
      | some c => c.marks ev
      | none => []
    else []
  | _ => []

theorem marks_of_ne {t : Nat} {l : Label} (hl : ∀ ev, l ≠ .cycle t ev) : marks t e l = [] := by
  unfold marks
  split
  · rename_i u ev
    exact if_neg fun hu => hl ev (by rw [hu])
  · rfl

/-- The bracket of flush call `t`, with the marks it left. -/
structure Follows (before : List SyncEvent) (t : Nat) (p : Engine × List Mark) : Prop where
  serial : Serial p.1
  brackets : Brackets p.1
  cycle : ∃ c, p.1.flushes t = some c ∧ c.Bracketed before p.1.world p.2

theorem Follows.step {before : List SyncEvent} {t : Nat} {p p' : Engine × List Mark} {l : Label}
    (hF : Follows before t p) (hl : l.isKill = false)
    (h : StepSystem.recorded (Engine.step scheme) (marks t) p l = some p') :
    Follows before t p' := by
  obtain ⟨e, ms⟩ := p
  obtain ⟨e', ms'⟩ := p'
  obtain ⟨hstep, rfl⟩ := StepSystem.recorded_eq_some.mp h
  have hserial : Serial e' := hF.serial.step hstep
  have hbrackets : Brackets e' := hF.brackets.step hF.serial hstep
  obtain ⟨c, hc, hB⟩ := hF.cycle
  refine ⟨hserial, hbrackets, ?_⟩
  rcases step_kinds hstep with hA | ⟨u, recovered, nowMs, rfl, hnone, rfl⟩ |
    ⟨u, ev, d, d', rfl, hC⟩ | ⟨config, paused, rfl⟩
  · refine ⟨c, hA.flushes ▸ hc, ?_⟩
    rw [marks_of_ne (hA.label t), List.append_nil]
    exact hB.congr (fun _ => ⟨hA.events, hA.credentialHeldUntil⟩) (.inl hA.events)
  · have hu : t ≠ u := by
      rintro rfl
      rw [hc] at hnone
      cases hnone
    show ∃ c', (e.flush u recovered nowMs).flushes t = some c' ∧ _
    have hmarks : marks t e (.flush u recovered nowMs) = [] := marks_of_ne (by simp)
    rw [hmarks, List.append_nil]
    obtain ⟨config, -, heq | ⟨hidle, heq⟩⟩ := e.flush_cases u recovered nowMs <;> rw [heq]
    · exact ⟨c, hc, hB⟩
    · -- a cycle starts only when this one is over
      refine ⟨c, (Function.update_of_ne hu _ _).trans hc,
        hB.congr (fun hca => ?_) (.inr ⟨.started, rfl, .inl rfl⟩)⟩
      rw [hF.serial.one.idle hidle hc] at hca
      cases hca
  · by_cases hu : u = t
    · subst hu
      obtain rfl : c = d := Option.some.inj (hc.symm.trans hC.before)
      refine ⟨d', by rw [hC.flushes, Function.update_self], ?_⟩
      have hmarks : marks u e (.cycle u ev) = c.marks ev := by
        have hc : e.flushes u = some c := hc
        simp only [marks, if_true, hc]
      rw [hmarks]
      exact Cycle.bracketed_step hB hC.step
    · refine ⟨c, (hC.flushes_of_ne (Ne.symm hu)).trans hc, ?_⟩
      rw [marks_of_ne (by simp [hu]), List.append_nil]
      refine hB.congr (fun hca => ?_) (Cycle.step_emits hC.step (hF.brackets.opened hC.before))
      -- next to this active cycle, the other one has ended
      obtain ⟨notBefore, hw⟩ :=
        Cycle.step_ended hC.step (hF.serial.one.ended (Ne.symm hu) hC.before hc hca)
      show e'.world.events = _ ∧ e'.world.credentialHeldUntil = _
      rw [hw]
      exact ⟨rfl, rfl⟩
  · cases hl

theorem Boot.serial {e : Engine} (h : Boot e) (hheld : e.world.credentialHeldUntil = none) :
    Serial e := by
  refine ⟨h.oneCycle, fun hr => ?_, fun _ => hheld⟩
  rw [h.isCycleRunning] at hr
  cases hr

theorem Boot.brackets {e : Engine} (h : Boot e) : Brackets e := by
  intro t c hc
  rw [h.flushes] at hc
  cases hc

/-- In every run of an install, for a call of `flush`. If it is paused, has no
credentials or finds a cycle running, it changes neither the events nor the
store. If it starts a cycle, then once the call is over, however it ended and
whatever other calls did meanwhile: between its `SYNC_STARTED` and the next one
there is exactly one terminal event, a `SYNC_FAILED` when an item was marked
`FAILED` or the cycle threw; `onCycleFinished` was called once, with the hold the
cycle recorded, if any; and the flag and the hold of the actor are those of
another cycle, if set. -/
theorem cycle_bracketed {e₀ e e₁ : Engine} {ls₀ : List Label} {t : Nat}
    {recovered : Option StringMap} {nowMs : Int} (h : Boot e₀)
    (hheld : e₀.world.credentialHeldUntil = none)
    (h₀ : StepSystem.exec (step scheme) e₀ ls₀ = some e)
    (hflush : e.step scheme (.flush t recovered nowMs) = some e₁) :
    (e.paused = true ∨ restoreCredentialsIfNeeded e.config recovered = none ∨
        e.world.isCycleRunning = true →
      e₁.world = e.world ∧ e₁.flushes = e.flushes) ∧
    ∀ c ls ms e₂ c₂, e₁.flushes t = some c → (∀ l ∈ ls, l.isKill = false) →
      StepSystem.exec (StepSystem.recorded (step scheme) (marks t)) (e₁, []) ls = some (e₂, ms) →
      e₂.flushes t = some c₂ → c₂.phase = .finished →
      (∃ terminal, ClosedBy e.world.events terminal e₂.world.events ∧
        terminal.isTerminal = true ∧
        (.failed ∈ ms ∨ .threw ∈ ms → terminal.type = "SYNC_FAILED")) ∧
      (∃ notBefore, finishCalls ms = [notBefore] ∧ holds ms = notBefore.toList) ∧
      (e₂.world.isCycleRunning = true ∨ e₂.world.credentialHeldUntil ≠ none →
        ∃ u d, u ≠ t ∧ e₂.flushes u = some d ∧ d.active = true) := by
  obtain ⟨hserial, hbrackets⟩ : Serial e ∧ Brackets e :=
    StepSystem.exec_invariant (I := fun e => Serial e ∧ Brackets e)
      (fun hI hs => ⟨hI.1.step hs, hI.2.step hI.1 hs⟩) ⟨h.serial hheld, h.brackets⟩ h₀
  have hserial₁ : Serial e₁ := hserial.step hflush
  have hbrackets₁ : Brackets e₁ := hbrackets.step hserial hflush
  simp only [step, Option.ite_none_right_eq_some] at hflush
  obtain ⟨hnone, hflush⟩ := hflush
  have hnone : e.flushes t = none := by simpa using hnone
  cases hflush
  refine ⟨fun hskip => ?_, fun c ls ms e₂ c₂ hc hkill hrun hc₂ hfinished => ?_⟩
  · unfold flush
    rcases hskip with hpaused | hcredentials | hrunning
    · rw [if_pos hpaused]
      exact ⟨rfl, rfl⟩
    · rw [hcredentials]
      split <;> exact ⟨rfl, rfl⟩
    · simp only [hrunning, if_true]
      split
      · exact ⟨rfl, rfl⟩
      · split <;> exact ⟨rfl, rfl⟩
  · -- the bracket of the new cycle is open, and no mark is left yet
    have hstart : Follows e.world.events t (e.flush t recovered nowMs, []) := by
      refine ⟨hserial₁, hbrackets₁, c, hc, ?_⟩
      obtain ⟨config, -, heq | ⟨hidle, heq⟩⟩ := e.flush_cases t recovered nowMs
      · rw [heq] at hc
        exact absurd hnone (by rw [hc]; simp)
      · rw [heq] at hc ⊢
        rcases flushes_setCycle hc with ⟨-, rfl⟩ | ⟨hne, -⟩
        · exact (Cycle.bracketed_of_active rfl).mpr (hserial.running_start hidle nowMs _ true)
        · exact absurd rfl hne
    have hend : Follows e.world.events t (e₂, ms) :=
      StepSystem.exec_invariant_of_meets (fun hF hl hs => hF.step hl hs) hstart
        (StepSystem.meets_of_forall hkill) hrun
    obtain ⟨c', hc', hB⟩ := hend.cycle
    obtain rfl : c₂ = c' := Option.some.inj (hc₂.symm.trans hc')
    unfold Cycle.Bracketed at hB
    rw [hfinished] at hB
    obtain ⟨notBefore, hE, hcalls⟩ := hB
    refine ⟨hE.closed, ⟨notBefore, hcalls, hE.holds⟩, fun hset => ?_⟩
    have hrunning : e₂.world.isCycleRunning = true := by
      rcases hset with hset | hset
      · exact hset
      · cases hr : e₂.world.isCycleRunning with
        | true => rfl
        | false => exact absurd (hend.serial.unheld hr) hset
    obtain ⟨u, d, hd, hda⟩ := hend.serial.active hrunning
    refine ⟨u, d, ?_, hd, hda⟩
    rintro rfl
    rw [hc₂] at hd
    cases hd
    rw [Cycle.active, hfinished] at hda
    cases hda

section Sample

/-- The store throws at the claim of the only item. -/
theorem cycle_bracketed_when_claim_throws :
    ∃ e e₁ e₂, StepSystem.exec (step https) firstLaunch
        [.enqueue [SyncQueueStorage.sampleItem "A"]] = some e ∧
      e.step https (.flush 0 none 2000) = some e₁ ∧
      StepSystem.exec (StepSystem.recorded (step https) (marks 0)) (e₁, [])
        [.cycle 0 (.fetch 2000), .cycle 0 .next, .cycle 0 (.fail .NATIVE_MODULE_UNAVAILABLE),
          .cycle 0 .finish] = some (e₂, [.threw, .called none]) ∧
      ∃ terminal, ClosedBy e.world.events terminal e₂.world.events ∧
        terminal.type = "SYNC_FAILED" := by
  obtain ⟨e, e₁, e₂, c, c₂, he, hflush, hrun, hc, hc₂, hfinished⟩ : ∃ e e₁ e₂ c c₂,
      StepSystem.exec (step https) firstLaunch
        [.enqueue [SyncQueueStorage.sampleItem "A"]] = some e ∧
      e.step https (.flush 0 none 2000) = some e₁ ∧
      StepSystem.exec (StepSystem.recorded (step https) (marks 0)) (e₁, [])
        [.cycle 0 (.fetch 2000), .cycle 0 .next, .cycle 0 (.fail .NATIVE_MODULE_UNAVAILABLE),
          .cycle 0 .finish] = some (e₂, [.threw, .called none]) ∧
      e₁.flushes 0 = some c ∧ e₂.flushes 0 = some c₂ ∧ c₂.phase = .finished :=
    ⟨_, _, _, _, _, rfl, rfl, rfl, rfl, rfl, rfl⟩
  obtain ⟨⟨terminal, hclosed, -, hfailed⟩, -⟩ :=
    (cycle_bracketed firstLaunch_boot rfl he hflush).2 c _ _ e₂ c₂ hc (by decide) hrun hc₂ hfinished
  exact ⟨e, e₁, e₂, he, hflush, hrun, terminal, hclosed, hfailed (.inr (by decide))⟩

end Sample

end Engine

end SyncProvider.Ios
