import SyncProvider.Ios.InFlight

/-!
# iOS: the account of a cycle

A cycle counts what it dispatches in local variables, writes each outcome to the
store and tells the listeners. The three are kept by different statements of one
loop, which ends with the batch, at a pause, or with a rejected credential. Here
they are compared with a log of what was dispatched and what became of it.

Results:
1. `Cycle.Tally.step` : the counters.
2. `Shelf.step` : the rows.
3. `Reports.step` : the events.
4. `cycle_accounts` : the result of a cycle that ends without a storage error
   agrees with the rows and the events.
-/

namespace SyncProvider.Ios

/-! ## The log of a cycle -/

/-- What has become of an item that was dispatched. -/
inductive Fate where
  | deleted
  | failed
  /-- Back in the queue until then, with its attempt counted. -/
  | retrying (nextRetryAt : Int)
  /-- Back in the queue until then, its credential was rejected. -/
  | rejected (nextRetryAt : Int)
  deriving DecidableEq

namespace Fate

def eventType : Fate → String
  | .deleted => "ITEM_SUCCEEDED"
  | .failed => "ITEM_FAILED"
  | .retrying _ | .rejected _ => "ITEM_RETRYING"

/-- The row of `item`, as it was fetched, after this fate. -/
def Holds (t : StoredItems) (item : StoredSyncItem) : Fate → Prop
  | .deleted => item.id ∉ t.keys
  | .failed => ∃ r ∈ t.rows, r.id = item.id ∧ r.status = .FAILED ∧ r.attempts = item.attempts + 1
  | .retrying nextRetryAt => ∃ r ∈ t.rows, r.id = item.id ∧ r.status = .PENDING ∧
    r.attempts = item.attempts + 1 ∧ r.nextRetryAt = nextRetryAt
  | .rejected nextRetryAt => ∃ r ∈ t.rows, r.id = item.id ∧ r.status = .PENDING ∧
    r.attempts = item.attempts ∧ r.nextRetryAt = nextRetryAt

end Fate

/-- The fate a write comes to, when it runs at this moment. -/
def FailureWrite.fate (nowMs : Int) : FailureWrite → Fate
  | .markFailed _ => .failed
  | .markPendingForRetry _ retryDelayMs => .retrying (nowMs + max 0 retryDelayMs)
  | .markCredentialRejected _ retryDelayMs _ => .rejected (SyncItemDao.heldUntil retryDelayMs nowMs)

inductive Entry where
  | dispatched (item : StoredSyncItem)
  | settled (item : StoredSyncItem) (fate : Fate)
  deriving DecidableEq

/-- The items dispatched so far, in order. -/
def dispatched (log : List Entry) : List StoredSyncItem :=
  log.filterMap fun
    | .dispatched item => some item
    | _ => none

/-- The items whose outcome was written so far, in order. -/
def fates (log : List Entry) : List (StoredSyncItem × Fate) :=
  log.filterMap fun
    | .settled item fate => some (item, fate)
    | _ => none

@[simp] theorem dispatched_append (log log' : List Entry) :
    dispatched (log ++ log') = dispatched log ++ dispatched log' :=
  List.filterMap_append

@[simp] theorem fates_append (log log' : List Entry) :
    fates (log ++ log') = fates log ++ fates log' :=
  List.filterMap_append

@[simp] theorem dispatched_nil : dispatched [] = [] := rfl

@[simp] theorem dispatched_dispatched (item : StoredSyncItem) :
    dispatched [.dispatched item] = [item] := rfl

@[simp] theorem dispatched_settled (item : StoredSyncItem) (fate : Fate) :
    dispatched [.settled item fate] = [] := rfl

@[simp] theorem fates_nil : fates [] = [] := rfl

@[simp] theorem fates_dispatched (item : StoredSyncItem) : fates [.dispatched item] = [] := rfl

@[simp] theorem fates_settled (item : StoredSyncItem) (fate : Fate) :
    fates [.settled item fate] = [(item, fate)] := rfl

/-- The ids with this fate. -/
def idsWith (fate : Fate) (fs : List (StoredSyncItem × Fate)) : List String :=
  (fs.filter (·.2 = fate)).map (·.1.id)

@[simp] theorem idsWith_append (fate : Fate) (fs fs' : List (StoredSyncItem × Fate)) :
    idsWith fate (fs ++ fs') = idsWith fate fs ++ idsWith fate fs' := by
  simp [idsWith]

/-- What a step adds to the log. -/
def Cycle.entries (_ : World) (c : Cycle) (ev : CycleEvent) : List Entry :=
  match ev, c.phase with
  | .markInFlight _, .claiming item _ => [.dispatched item]
  | .write _, .removing item _ _ => [.settled item .deleted]
  | .write nowMs, .recording item _ record => [.settled item (record.write.fate nowMs)]
  | _, _ => []

/-- The event and the message of a record are those of its write. -/
structure FailureRecord.Fits (record : FailureRecord) (item : StoredSyncItem) : Prop where
  itemId : record.event.itemId = some item.id
  type : ∀ nowMs, record.event.type = (record.write.fate nowMs).eventType
  message : ∀ code, record.write = .markFailed code → record.message.isSome = true
  attempts : ∀ code retryDelayMs attempts,
    record.write = .markCredentialRejected code retryDelayMs attempts → attempts = item.attempts

theorem fits_recordFailureOutcome (config sentWith : DispatcherConfig) (item : StoredSyncItem)
    (outcome : ItemDispatchOutcome) (sample : ℚ) :
    (recordFailureOutcome config sentWith item outcome sample).Fits item := by
  unfold recordFailureOutcome
  dsimp only
  split
  · exact ⟨rfl, fun _ => rfl, by rintro _ ⟨⟩, by rintro _ _ _ ⟨⟩; rfl⟩
  · split
    · exact ⟨rfl, fun _ => rfl, by rintro _ ⟨⟩, by rintro _ _ _ ⟨⟩⟩
    · exact ⟨rfl, fun _ => rfl, fun _ _ => rfl, by rintro _ _ _ ⟨⟩⟩

/-! ## 1. The counters -/

namespace Cycle

/-- The counters of a cycle over `batch`, compared with its log. -/
structure Tally (batch : List StoredSyncItem) (c : Cycle) (log : List Entry) : Prop where
  ahead : dispatched log ++ c.phase.hand.ahead <+: batch
  marked : (fates log).map (·.1) ++ c.phase.hand.marked.toList = dispatched log
  attempted : c.attempted = (dispatched log).length +
    match c.phase with
    | .claiming _ _ => 1
    | _ => 0
  succeeded : c.succeededIds = idsWith .deleted (fates log) ++
    match c.phase with
    | .removing item _ _ => [item.id]
    | _ => []
  failed : c.failedIds = idsWith .failed (fates log)
  firstError : c.firstError.isSome = true ↔ c.failedIds ≠ []
  record : ∀ item rest record, c.phase = .recording item rest record → record.Fits item

variable {scheme : String → Option String} {config : DispatcherConfig} {paused : Bool}
  {w w' : World} {c c' : Cycle} {ev : CycleEvent} {batch : List StoredSyncItem}
  {log : List Entry}

/-- The write of a failed dispatch. -/
theorem Tally.writeFailure {item : StoredSyncItem} {rest : List StoredSyncItem}
    {record : FailureRecord} (hT : Tally batch c log)
    (hphase : c.phase = .recording item rest record) (nowMs : Int) :
    Tally batch (Cycle.writeFailure w c item rest record nowMs).2
      (log ++ c.entries w (.write nowMs)) := by
  obtain ⟨hahead, hmarked, hattempted, hsucceeded, hfailed, hfirst, hrecord⟩ := hT
  have hfits := hrecord item rest record hphase
  have hentries : c.entries w (.write nowMs) = [.settled item (record.write.fate nowMs)] := by
    simp only [entries, hphase]
  rw [hphase] at hahead hmarked hattempted hsucceeded
  rw [hentries]
  unfold Cycle.writeFailure
  cases hwrite : record.write with
  | markFailed code =>
    refine ⟨by simpa [CyclePhase.hand, Hand.empty] using hahead,
      by simpa [CyclePhase.hand, Hand.empty] using hmarked,
      by simpa using hattempted, ?_, ?_, ?_, by rintro _ _ _ ⟨⟩⟩
    · simpa [idsWith, FailureWrite.fate] using hsucceeded
    · simpa [idsWith, FailureWrite.fate] using hfailed
    · have := hfits.message code hwrite
      cases hfirstError : c.firstError <;> simp [this]
  | markPendingForRetry code retryDelayMs =>
    refine ⟨by simpa [CyclePhase.hand, Hand.empty] using hahead,
      by simpa [CyclePhase.hand, Hand.empty] using hmarked,
      by simpa using hattempted, ?_, ?_, hfirst, by rintro _ _ _ ⟨⟩⟩
    · simpa [idsWith, FailureWrite.fate] using hsucceeded
    · simpa [idsWith, FailureWrite.fate] using hfailed
  | markCredentialRejected code retryDelayMs attempts =>
    refine ⟨?_, by simpa [CyclePhase.hand, Hand.empty] using hmarked,
      by simpa using hattempted, ?_, ?_, hfirst, by rintro _ _ _ ⟨⟩⟩
    · have hdone : dispatched log <+: batch := (List.prefix_append _ _).trans hahead
      simpa [CyclePhase.hand, Hand.empty] using hdone
    · simpa [idsWith, FailureWrite.fate] using hsucceeded
    · simpa [idsWith, FailureWrite.fate] using hfailed

/-- A step that logs nothing and counts nothing. -/
theorem Tally.move (hT : Tally batch c log) (hnone : c.entries w ev = [])
    (hahead : c'.phase.hand.ahead <+: c.phase.hand.ahead)
    (hmarked : c'.phase.hand.marked = c.phase.hand.marked)
    (hattempted : c'.attempted = (dispatched log).length +
      match c'.phase with
      | .claiming _ _ => 1
      | _ => 0)
    (hsucceeded : c'.succeededIds = idsWith .deleted (fates log) ++
      match c'.phase with
      | .removing item _ _ => [item.id]
      | _ => [])
    (hfailed : c'.failedIds = c.failedIds ∧ c'.firstError = c.firstError)
    (hrecord : ∀ item rest record, c'.phase = .recording item rest record → record.Fits item) :
    Tally batch c' (log ++ c.entries w ev) := by
  rw [hnone, List.append_nil]
  refine ⟨((List.prefix_append_right_inj _).mpr hahead).trans hT.ahead, ?_, hattempted, hsucceeded,
    hfailed.1.trans hT.failed, ?_, hrecord⟩
  · rw [hmarked]
    exact hT.marked
  · rw [hfailed.1, hfailed.2]
    exact hT.firstError

theorem Tally.step (hT : Tally batch c log) (hfetching : ∀ limit, c.phase ≠ .fetching limit)
    (hfail : ∀ code, ev ≠ .fail code) (h : c.step scheme config paused w ev = some (w', c')) :
    Tally batch c' (log ++ c.entries w ev) := by
  have hattempted := hT.attempted
  have hsucceeded := hT.succeeded
  cases step_cases h with
  | fetchNone hphase | fetch hphase => exact absurd hphase (hfetching _)
  | fail => exact absurd rfl (hfail _)
  | take hphase =>
    rw [hphase] at hattempted hsucceeded
    refine hT.move rfl ?_ ?_ (congrArg (· + 1) hattempted) hsucceeded ⟨rfl, rfl⟩
      (by rintro _ _ _ ⟨⟩)
    · rw [hphase]
      exact List.prefix_refl _
    · rw [hphase]
      rfl
  | @markInFlight item rest nowMs hphase =>
    have hentries : c.entries w (.markInFlight nowMs) = [.dispatched item] := by
      simp only [entries, hphase]
    obtain ⟨hahead, hmarked, -, -, hfailed, hfirst, -⟩ := hT
    rw [hphase] at hahead hmarked hattempted hsucceeded
    rw [hentries]
    refine ⟨by simpa [CyclePhase.hand, Hand.empty] using hahead, ?_, ?_, by simpa using hsucceeded,
      by simpa using hfailed, hfirst, by rintro _ _ _ ⟨⟩⟩
    · have hall : (fates log).map (·.1) = dispatched log := by
        simpa [CyclePhase.hand, Hand.empty] using hmarked
      simp [CyclePhase.hand, hall]
    · simpa using hattempted
  | @succeed item rest sentWith outcome sample hphase hok =>
    rw [hphase] at hattempted hsucceeded
    refine hT.move rfl ?_ ?_ hattempted ?_ ⟨rfl, rfl⟩ (by rintro _ _ _ ⟨⟩)
    · rw [hphase]
      exact List.prefix_refl _
    · rw [hphase]
      rfl
    · rw [List.append_nil] at hsucceeded
      exact congrArg (· ++ [item.id]) hsucceeded
  | failItem hphase hok =>
    rw [hphase] at hattempted hsucceeded
    refine hT.move rfl ?_ ?_ hattempted hsucceeded ⟨rfl, rfl⟩ ?_
    · rw [hphase]
      exact List.prefix_refl _
    · rw [hphase]
      rfl
    · rintro _ _ _ ⟨⟩
      exact fits_recordFailureOutcome ..
  | @remove item rest statusCode nowMs hphase =>
    have hentries : c.entries w (.write nowMs) = [.settled item .deleted] := by
      simp only [entries, hphase]
    obtain ⟨hahead, hmarked, -, -, hfailed, hfirst, -⟩ := hT
    rw [hphase] at hahead hmarked hattempted hsucceeded
    rw [hentries]
    refine ⟨by simpa [CyclePhase.hand, Hand.empty] using hahead,
      by simpa [CyclePhase.hand, Hand.empty] using hmarked, by simpa using hattempted, ?_, ?_,
      hfirst, by rintro _ _ _ ⟨⟩⟩
    · simpa [idsWith] using hsucceeded
    · simpa [idsWith] using hfailed
  | record hphase => exact hT.writeFailure hphase _
  | leave hphase | prepare hphase | rejectUrl hphase | send hphase | sendFails hphase
  | answer hphase | summarize hphase | finish hphase =>
    rw [hphase] at hattempted hsucceeded
    refine hT.move rfl ?_ ?_ hattempted hsucceeded ⟨rfl, rfl⟩ (by rintro _ _ _ ⟨⟩)
    · rw [hphase]
      first
        | exact List.prefix_refl _
        | exact List.nil_prefix
    · rw [hphase]
      rfl

/-- No step leads back to the fetch. -/
theorem step_not_fetching (h : c.step scheme config paused w ev = some (w', c')) (limit : Int) :
    c'.phase ≠ .fetching limit := by
  cases step_cases h with
  | @record item rest record nowMs hphase =>
    rcases phase_writeFailure w c item rest record nowMs with hphase' | hphase' <;>
      rw [hphase'] <;> rintro ⟨⟩
  | fetchNone | fetch | leave | take | markInFlight | prepare | rejectUrl | send | sendFails
  | answer | succeed | failItem | remove | summarize | fail | finish => rintro ⟨⟩

/-- The fetch of a batch. -/
theorem step_fetch {limit nowMs : Int} (hphase : c.phase = .fetching limit)
    (h : c.step scheme config paused w (.fetch nowMs) = some (w', c')) :
    w' = w ∧ ∃ total phase, c' = { c with total := total, phase := phase } ∧
      (phase = .looping (SyncItemDao.fetchPending nowMs limit w.store) ∨
        phase = .summarizing true ∧ SyncItemDao.fetchPending nowMs limit w.store = []) := by
  cases step_cases h with
  | fetchNone hp hnone =>
    rw [hphase] at hp
    cases hp
    exact ⟨rfl, _, _, rfl, .inr ⟨rfl, hnone⟩⟩
  | fetch hp hpending hsome =>
    rw [hphase] at hp
    cases hp
    rw [hpending]
    exact ⟨rfl, _, _, rfl, .inl rfl⟩

/-- The result of a cycle. -/
theorem step_summarize {nowMs : Int}
    (h : c.step scheme config paused w (.summarize nowMs) = some (w', c')) :
    ∃ nothingPending, c.phase = .summarizing nothingPending ∧ w'.store = w.store ∧
      w'.lastResult = some (c.result nowMs) ∧ w'.results = w.results ++ [c.result nowMs] ∧
      w'.events = w.events ++ [c.terminalEvent nothingPending] := by
  cases step_cases h with
  | summarize hphase => exact ⟨_, hphase, rfl, rfl, rfl, rfl⟩

/-- The counters of a cycle that has just fetched its batch. -/
theorem tally_of_fetch {startedAt limit : Int} {total : Nat} {phase : CyclePhase}
    (hphase : phase = .looping batch ∨ phase = .summarizing true ∧ batch = []) :
    Tally batch { start startedAt limit with total := total, phase := phase } [] := by
  rcases hphase with rfl | ⟨rfl, rfl⟩
  · exact ⟨List.prefix_refl _, rfl, rfl, rfl, rfl, by simp [start], by rintro _ _ _ ⟨⟩⟩
  · exact ⟨List.prefix_refl _, rfl, rfl, rfl, rfl, by simp [start], by rintro _ _ _ ⟨⟩⟩

end Cycle

/-! ## 2. The rows -/

namespace SyncItemDao

/-- The two stores differ in the row of this id at most. -/
def SameBut (id : String) (t t' : StoredItems) : Prop :=
  ∀ r : StoredSyncItem, r.id ≠ id → (r ∈ t'.rows ↔ r ∈ t.rows)

theorem sameBut_updateById (id : String) (f : StoredSyncItem → StoredSyncItem)
    (hf : ∀ r, (f r).id = r.id) (t : StoredItems) : SameBut id t (updateById id f hf t) := by
  intro r hr
  constructor
  · intro h
    rcases updateById_cases h with ⟨h, -⟩ | ⟨r₀, -, hid, rfl⟩
    · exact h
    · exact absurd ((hf r₀).trans hid) hr
  · intro h
    exact mem_updateById.mpr ⟨r, h, if_neg hr⟩

theorem sameBut_markInFlight (id : String) (nowMs : Int) (t : StoredItems) :
    SameBut id t (markInFlight id nowMs t) :=
  sameBut_updateById id _ _ t

theorem sameBut_markFailed (id : String) (errorCode : SyncErrorCode) (t : StoredItems) :
    SameBut id t (markFailed id errorCode t) :=
  sameBut_updateById id _ _ t

theorem sameBut_markPendingForRetry (id : String) (errorCode : Option SyncErrorCode)
    (retryDelayMs nowMs : Int) (t : StoredItems) :
    SameBut id t (markPendingForRetry id errorCode retryDelayMs nowMs t) :=
  sameBut_updateById id _ _ t

theorem sameBut_markCredentialRejected (id : String) (errorCode : Option SyncErrorCode)
    (retryDelayMs attempts nowMs : Int) (t : StoredItems) :
    SameBut id t (markCredentialRejected id errorCode retryDelayMs attempts nowMs t) :=
  sameBut_updateById id _ _ t

theorem mem_markFailed {id : String} {errorCode : SyncErrorCode} {t : StoredItems}
    {r : StoredSyncItem} (hr : r ∈ t.rows) (hid : r.id = id) :
    { r with status := .FAILED, lastErrorCode := some errorCode } ∈
      (markFailed id errorCode t).rows := by
  rw [markFailed]
  exact mem_updateById.mpr ⟨r, hr, if_pos hid⟩

theorem mem_markPendingForRetry {id : String} {errorCode : Option SyncErrorCode}
    {retryDelayMs nowMs : Int} {t : StoredItems} {r : StoredSyncItem} (hr : r ∈ t.rows)
    (hid : r.id = id) :
    { r with
      status := .PENDING
      lastErrorCode := errorCode
      lastAttemptAt := some nowMs
      nextRetryAt := nowMs + max 0 retryDelayMs } ∈
      (markPendingForRetry id errorCode retryDelayMs nowMs t).rows := by
  rw [markPendingForRetry]
  exact mem_updateById.mpr ⟨r, hr, if_pos hid⟩

theorem mem_markCredentialRejected {id : String} {errorCode : Option SyncErrorCode}
    {retryDelayMs attempts nowMs : Int} {t : StoredItems} {r : StoredSyncItem} (hr : r ∈ t.rows)
    (hid : r.id = id) :
    { r with
      status := .PENDING
      attempts := attempts
      lastErrorCode := errorCode
      lastAttemptAt := some nowMs
      nextRetryAt := heldUntil retryDelayMs nowMs } ∈
      (markCredentialRejected id errorCode retryDelayMs attempts nowMs t).rows := by
  rw [markCredentialRejected]
  exact mem_updateById.mpr ⟨r, hr, if_pos hid⟩

theorem sameBut_delete (id : String) (t : StoredItems) : SameBut id t (delete id t).1 := by
  intro r hr
  rw [delete, KeyedTable.mem_deleteWhere]
  simp [hr]

theorem SameBut.mem_keys {id id' : String} {t t' : StoredItems} (h : SameBut id t t')
    (hne : id' ≠ id) : id' ∈ t'.keys ↔ id' ∈ t.keys := by
  simp only [KeyedTable.mem_keys]
  constructor
  · rintro ⟨r, hr, rfl⟩
    exact ⟨r, (h r hne).mp hr, rfl⟩
  · rintro ⟨r, hr, rfl⟩
    exact ⟨r, (h r hne).mpr hr, rfl⟩

end SyncItemDao

open SyncItemDao (SameBut)

theorem Fate.Holds.of_sameBut {id : String} {t t' : StoredItems} {item : StoredSyncItem}
    {fate : Fate} (h : fate.Holds t item) (hne : item.id ≠ id) (hs : SameBut id t t') :
    fate.Holds t' item := by
  cases fate with
  | deleted => exact fun hmem => h ((hs.mem_keys hne).mp hmem)
  | failed =>
    obtain ⟨r, hr, hid, hrest⟩ := h
    exact ⟨r, (hs r (hid ▸ hne)).mpr hr, hid, hrest⟩
  | retrying | rejected =>
    obtain ⟨r, hr, hid, hrest⟩ := h
    exact ⟨r, (hs r (hid ▸ hne)).mpr hr, hid, hrest⟩

/-- What a failed dispatch leaves of its row. -/
theorem Cycle.holds_writeFailure {w : World} {c : Cycle} {item : StoredSyncItem}
    {rest : List StoredSyncItem} {record : FailureRecord} (hfits : record.Fits item)
    (hrow : ∃ r ∈ w.store.rows, r.id = item.id ∧ r.attempts = item.attempts + 1) (nowMs : Int) :
    (record.write.fate nowMs).Holds
        (Cycle.writeFailure w c item rest record nowMs).1.store item ∧
      SameBut item.id w.store (Cycle.writeFailure w c item rest record nowMs).1.store := by
  obtain ⟨r, hr, hid, hattempts⟩ := hrow
  unfold Cycle.writeFailure
  cases hwrite : record.write with
  | markFailed code =>
    refine ⟨?_, SyncItemDao.sameBut_markFailed _ _ _⟩
    exact ⟨_, SyncItemDao.mem_markFailed hr hid, hid, rfl, hattempts⟩
  | markPendingForRetry code retryDelayMs =>
    refine ⟨?_, SyncItemDao.sameBut_markPendingForRetry _ _ _ _ _⟩
    exact ⟨_, SyncItemDao.mem_markPendingForRetry hr hid, hid, rfl, hattempts, rfl⟩
  | markCredentialRejected code retryDelayMs attempts =>
    refine ⟨?_, SyncItemDao.sameBut_markCredentialRejected _ _ _ _ _ _⟩
    exact ⟨_, SyncItemDao.mem_markCredentialRejected hr hid, hid, rfl,
      hfits.attempts _ _ _ hwrite, rfl⟩

/-- The row is as it was. Launch recovery, when it runs meanwhile, may have put
it back. -/
def Kept (recovered : Prop) (t : StoredItems) (r : StoredSyncItem) : Prop :=
  r ∈ t.rows ∨ recovered ∧ r.status = .IN_FLIGHT ∧ { r with status := .PENDING } ∈ t.rows

theorem Kept.of_sameBut {recovered : Prop} {id : String} {t t' : StoredItems} {r : StoredSyncItem}
    (h : Kept recovered t r) (hne : r.id ≠ id) (hs : SameBut id t t') : Kept recovered t' r := by
  rcases h with h | ⟨hrecovered, hstatus, h⟩
  · exact .inl ((hs r hne).mpr h)
  · exact .inr ⟨hrecovered, hstatus, (hs { r with status := .PENDING } hne).mpr h⟩

/-- The rows, compared with those from before the cycle and with its log. -/
structure Shelf (recovered : Prop) (start : List StoredSyncItem) (t : StoredItems)
    (marked : Option StoredSyncItem) (log : List Entry) : Prop where
  fates : ∀ q ∈ fates log, q.2.Holds t q.1
  marked : ∀ x, marked = some x → ∃ r ∈ t.rows, r.id = x.id ∧ r.attempts = x.attempts + 1
  others : ∀ r ∈ start, (∀ x ∈ dispatched log, x.id ≠ r.id) → Kept recovered t r

namespace Shelf

variable {recovered : Prop} {start batch : List StoredSyncItem} {t t' : StoredItems}
  {log : List Entry} {scheme : String → Option String} {config : DispatcherConfig}
  {paused : Bool} {w w' : World} {c c' : Cycle} {ev : CycleEvent}

/-- The outcome of the item under dispatch is written. -/
theorem settle {item : StoredSyncItem} {fate : Fate} (hS : Shelf recovered start t (some item) log)
    (hlog : (Ios.fates log).map (·.1) ++ [item] = dispatched log)
    (hnodup : ((dispatched log).map (·.id)).Nodup) (hs : SameBut item.id t t')
    (hfate : fate.Holds t' item) :
    Shelf recovered start t' none (log ++ [.settled item fate]) := by
  rw [← hlog, List.map_append, List.nodup_append] at hnodup
  refine ⟨fun q hq => ?_, by rintro _ ⟨⟩, fun r hr hfresh => ?_⟩
  · simp only [fates_append, fates_settled, List.mem_append, List.mem_singleton] at hq
    rcases hq with hq | rfl
    · refine (hS.fates q hq).of_sameBut ?_ hs
      exact hnodup.2.2 q.1.id (List.mem_map_of_mem (List.mem_map_of_mem hq)) item.id
        (List.mem_singleton.mpr rfl)
    · exact hfate
  · simp only [dispatched_append, dispatched_settled, List.append_nil] at hfresh
    have hitem : item ∈ dispatched log := by
      rw [← hlog]
      exact List.mem_append_right _ (List.mem_singleton.mpr rfl)
    exact (hS.others r hr hfresh).of_sameBut (Ne.symm (hfresh item hitem)) hs

/-- The next item of the batch is claimed. -/
theorem claim {item : StoredSyncItem} (hS : Shelf recovered start t none log)
    (hitem : item ∈ start) (hpending : item.status = .PENDING)
    (hfresh : ∀ x ∈ dispatched log, x.id ≠ item.id)
    (hlog : ∀ q ∈ Ios.fates log, q.1 ∈ dispatched log) (nowMs : Int) :
    Shelf recovered start (SyncItemDao.markInFlight item.id nowMs t) (some item)
      (log ++ [.dispatched item]) := by
  have hs : SameBut item.id t (SyncItemDao.markInFlight item.id nowMs t) :=
    SyncItemDao.sameBut_markInFlight _ _ _
  refine ⟨fun q hq => ?_, ?_, fun r hr hnew => ?_⟩
  · simp only [fates_append, fates_dispatched, List.append_nil] at hq
    exact (hS.fates q hq).of_sameBut (hfresh q.1 (hlog q hq)) hs
  · rintro x ⟨⟩
    rcases hS.others item hitem hfresh with hrow | ⟨-, hstatus, -⟩
    · exact ⟨_, SyncItemDao.mem_markInFlight.mpr ⟨item, hrow, if_pos rfl⟩, rfl, rfl⟩
    · rw [hpending] at hstatus
      cases hstatus
  · simp only [dispatched_append, dispatched_dispatched, List.mem_append,
      List.mem_singleton] at hnew
    have hkept := hS.others r hr fun x hx => hnew x (.inl hx)
    exact hkept.of_sameBut (Ne.symm (hnew item (.inr rfl))) hs

/-- A step that leaves the rows alone. -/
theorem move {marked marked' : Option StoredSyncItem} (hS : Shelf recovered start t marked log)
    (hmarked : ∀ x, marked' = some x → marked = some x) : Shelf recovered start t marked' log :=
  ⟨hS.fates, fun x hx => hS.marked x (hmarked x hx), hS.others⟩

theorem step (hS : Shelf recovered start w.store c.phase.hand.marked log)
    (hT : Cycle.Tally batch c log) (hbatch : ∀ x ∈ batch, x ∈ start ∧ x.status = .PENDING)
    (hnodup : (batch.map (·.id)).Nodup) (h : c.step scheme config paused w ev = some (w', c')) :
    Shelf recovered start w'.store c'.phase.hand.marked (log ++ c.entries w ev) := by
  have hdispatched : dispatched log <+: batch := (List.prefix_append _ _).trans hT.ahead
  have hdistinct : ((dispatched log).map (·.id)).Nodup :=
    hnodup.sublist (hdispatched.sublist.map _)
  have quiet (hnone : c.entries w ev = []) (hstore : w'.store = w.store)
      (hmarked : ∀ x, c'.phase.hand.marked = some x → c.phase.hand.marked = some x) :
      Shelf recovered start w'.store c'.phase.hand.marked (log ++ c.entries w ev) := by
    rw [hnone, List.append_nil, hstore]
    exact hS.move hmarked
  cases Cycle.step_cases h with
  | @markInFlight item rest nowMs hphase =>
    have hentries : c.entries w (.markInFlight nowMs) = [.dispatched item] := by
      simp only [Cycle.entries, hphase]
    have hahead : dispatched log ++ item :: rest <+: batch := by
      have := hT.ahead
      rwa [hphase] at this
    have hlog : (Ios.fates log).map (·.1) = dispatched log := by
      have := hT.marked
      rw [hphase] at this
      simpa [CyclePhase.hand, Hand.empty] using this
    have hitem : item ∈ batch := hahead.subset (List.mem_append_right _ List.mem_cons_self)
    rw [hphase] at hS
    rw [hentries]
    refine hS.claim (hbatch item hitem).1 (hbatch item hitem).2 (fun x hx hid => ?_)
      (fun q hq => hlog ▸ List.mem_map_of_mem hq) nowMs
    -- the batch has no item twice
    have hsub := hnodup.sublist (hahead.sublist.map _)
    rw [List.map_append, List.nodup_append] at hsub
    exact hsub.2.2 x.id (List.mem_map_of_mem hx) item.id List.mem_cons_self hid
  | @remove item rest statusCode nowMs hphase =>
    have hentries : c.entries w (.write nowMs) = [.settled item .deleted] := by
      simp only [Cycle.entries, hphase]
    have hlog := hT.marked
    rw [hphase] at hS hlog
    rw [hentries]
    exact hS.settle hlog hdistinct (SyncItemDao.sameBut_delete _ _)
      fun hmem => (SyncItemDao.mem_delete.mp hmem).2 rfl
  | @record item rest record nowMs hphase =>
    have hentries : c.entries w (.write nowMs) = [.settled item (record.write.fate nowMs)] := by
      simp only [Cycle.entries, hphase]
    have hlog := hT.marked
    have hfits := hT.record item rest record hphase
    rw [hphase] at hS hlog
    rw [hentries]
    obtain ⟨hholds, hsame⟩ :=
      Cycle.holds_writeFailure hfits (hS.marked item rfl) nowMs
    refine (hS.settle hlog hdistinct hsame hholds).move fun x hx => ?_
    rcases Cycle.phase_writeFailure w c item rest record nowMs with hphase' | hphase' <;>
      rw [hphase'] at hx <;> cases hx
  | fetchNone | fetch | leave | take | summarize | fail | finish =>
    exact quiet rfl rfl (by rintro _ ⟨⟩)
  | prepare hphase | rejectUrl hphase | send hphase | sendFails hphase | answer hphase
  | succeed hphase | failItem hphase =>
    refine quiet rfl rfl fun x hx => ?_
    rw [hphase]
    exact hx

/-- Others add rows, and launch recovery puts rows back. -/
theorem beside {marked : Option StoredSyncItem} (hS : Shelf recovered start t marked log)
    (hkeep : ∀ r ∈ t.rows, Kept recovered t' r)
    (hkeys : ∀ q ∈ Ios.fates log, q.1.id ∈ t'.keys → q.1.id ∈ t.keys) :
    Shelf recovered start t' marked log := by
  have hsettled {r : StoredSyncItem} (hr : r ∈ t.rows) (hs : r.status ≠ .IN_FLIGHT) :
      r ∈ t'.rows := by
    rcases hkeep r hr with hr | ⟨-, hstatus, -⟩
    · exact hr
    · exact absurd hstatus hs
  refine ⟨fun q hq => ?_, fun x hx => ?_, fun r hr hfresh => ?_⟩
  · have hholds := hS.fates q hq
    cases hfate : q.2 with
    | deleted =>
      rw [hfate] at hholds
      exact fun hmem => hholds (hkeys q hq hmem)
    | failed =>
      rw [hfate] at hholds
      obtain ⟨r, hr, hid, hs, hrest⟩ := hholds
      exact ⟨r, hsettled hr (by simp [hs]), hid, hs, hrest⟩
    | retrying nextRetryAt | rejected nextRetryAt =>
      rw [hfate] at hholds
      obtain ⟨r, hr, hid, hs, hrest⟩ := hholds
      exact ⟨r, hsettled hr (by simp [hs]), hid, hs, hrest⟩
  · obtain ⟨r, hr, hid, hattempts⟩ := hS.marked x hx
    rcases hkeep r hr with hr | ⟨-, -, hr⟩
    · exact ⟨r, hr, hid, hattempts⟩
    · exact ⟨_, hr, hid, hattempts⟩
  · rcases hS.others r hr hfresh with hr | ⟨hrecovered, hstatus, hr⟩
    · exact hkeep r hr
    · exact .inr ⟨hrecovered, hstatus, hsettled hr (by simp)⟩

end Shelf

/-! ## 3. The events -/

/-- The types of the events about an item. -/
def itemEvents (id : String) (events : List SyncEvent) : List String :=
  (events.filter (·.itemId = some id)).map (·.type)

theorem Cycle.itemId_terminalEvent (c : Cycle) (nothingPending : Bool) :
    (c.terminalEvent nothingPending).itemId = none := by
  unfold Cycle.terminalEvent
  split
  · rfl
  · split <;> rfl

theorem itemEvents_append (id : String) (events events' : List SyncEvent) :
    itemEvents id (events ++ events') = itemEvents id events ++ itemEvents id events' := by
  simp [itemEvents]

theorem itemEvents_terminal (id : String) (c : Cycle) (nothingPending : Bool) :
    itemEvents id [c.terminalEvent nothingPending] = [] := by
  simp [itemEvents, Cycle.itemId_terminalEvent]

/-- The events since the cycle has fetched its batch: of each item, those that
its fate in the log calls for. -/
def Reports (before events : List SyncEvent) (log : List Entry) : Prop :=
  ∃ mid, events = before ++ mid ∧
    ∀ id, itemEvents id mid = ((fates log).filter (·.1.id = id)).map (·.2.eventType)

namespace Reports

variable {before events : List SyncEvent} {log : List Entry} {scheme : String → Option String}
  {config : DispatcherConfig} {paused : Bool} {w w' : World} {c c' : Cycle} {ev : CycleEvent}

/-- An event about no item. -/
theorem emit (hR : Reports before events log) {event : SyncEvent} (hevent : event.itemId = none) :
    Reports before (events ++ [event]) log := by
  obtain ⟨mid, rfl, hmid⟩ := hR
  refine ⟨mid ++ [event], List.append_assoc .., fun id => ?_⟩
  rw [← hmid id]
  simp [itemEvents, hevent]

/-- The event of an outcome. -/
theorem settle (hR : Reports before events log) {event : SyncEvent} {item : StoredSyncItem}
    {fate : Fate} (hevent : event.itemId = some item.id) (htype : event.type = fate.eventType) :
    Reports before (events ++ [event]) (log ++ [.settled item fate]) := by
  obtain ⟨mid, rfl, hmid⟩ := hR
  refine ⟨mid ++ [event], List.append_assoc .., fun id => ?_⟩
  have hpast := hmid id
  by_cases hid : item.id = id
  · simp_all [itemEvents]
  · simp_all [itemEvents]

theorem step {batch : List StoredSyncItem} (hR : Reports before w.events log)
    (hT : Cycle.Tally batch c log) (h : c.step scheme config paused w ev = some (w', c')) :
    Reports before w'.events (log ++ c.entries w ev) := by
  have hquiet (hnone : c.entries w ev = []) (hsame : Reports before w'.events log) :
      Reports before w'.events (log ++ c.entries w ev) := by
    rwa [hnone, List.append_nil]
  cases Cycle.step_cases h with
  | @markInFlight item rest nowMs hphase =>
    have hentries : c.entries w (.markInFlight nowMs) = [.dispatched item] := by
      simp only [Cycle.entries, hphase]
    rw [hentries]
    obtain ⟨mid, hevents, hmid⟩ := hR
    exact ⟨mid, hevents, by simpa using hmid⟩
  | @remove item rest statusCode nowMs hphase =>
    have hentries : c.entries w (.write nowMs) = [.settled item .deleted] := by
      simp only [Cycle.entries, hphase]
    rw [hentries]
    exact hR.settle rfl rfl
  | @record item rest record nowMs hphase =>
    have hentries : c.entries w (.write nowMs) = [.settled item (record.write.fate nowMs)] := by
      simp only [Cycle.entries, hphase]
    have hfits := hT.record item rest record hphase
    have hevents : (Cycle.writeFailure w c item rest record nowMs).1.events =
        w.events ++ [record.event] := by
      unfold Cycle.writeFailure
      cases record.write <;> rfl
    rw [hentries, hevents]
    exact hR.settle hfits.itemId (hfits.type nowMs)
  | succeed | failItem | fail => exact hquiet rfl (hR.emit rfl)
  | summarize => exact hquiet rfl (hR.emit (Cycle.itemId_terminalEvent _ _))
  | fetchNone | fetch | leave | take | prepare | rejectUrl | send | sendFails | answer | finish =>
    exact hquiet rfl hR

end Reports

/-! ## 4. A cycle from its fetch to its result -/

/-- No row is removed, no operation of the cycle of call `t` throws, and the
process lives on. -/
def Label.clean (t : Nat) : Label → Bool
  | .remove _ | .kill _ _ => false
  | .cycle u (.fail _) => u != t
  | _ => true

/-- An item has one fate. -/
theorem Fate.Holds.unique {t : StoredItems} {item : StoredSyncItem} {fate fate' : Fate}
    (h : fate.Holds t item) (h' : fate'.Holds t item) : fate = fate' := by
  have hgone {r : StoredSyncItem} {p : Prop} (hr : r ∈ t.rows) (hid : r.id = item.id)
      (hnot : item.id ∉ t.keys) : p :=
    absurd (hid ▸ KeyedTable.key_mem_keys hr) hnot
  cases fate with
  | deleted =>
    cases fate' with
    | deleted => rfl
    | failed | retrying | rejected =>
      obtain ⟨r, hr, hid, -⟩ := h'
      exact hgone hr hid h
  | failed | retrying | rejected =>
    obtain ⟨r, hr, hid, hrest⟩ := h
    cases fate' with
    | deleted => exact hgone hr hid h'
    | failed | retrying | rejected =>
      obtain ⟨r', hr', hid', hrest'⟩ := h'
      obtain rfl : r = r' := KeyedTable.eq_of_key_eq hr hr' (hid.trans hid'.symm)
      grind

/-- Of distinct items, one has this id. -/
theorem filter_id_eq_singleton {fs : List (StoredSyncItem × Fate)}
    (hnodup : (fs.map (·.1.id)).Nodup) {q : StoredSyncItem × Fate} (hq : q ∈ fs) :
    fs.filter (·.1.id = q.1.id) = [q] := by
  induction fs with
  | nil => cases hq
  | cons p fs ih =>
    rw [List.map_cons, List.nodup_cons] at hnodup
    rcases List.mem_cons.mp hq with rfl | hq
    · have hrest : fs.filter (fun p => p.1.id = q.1.id) = [] := by
        refine List.filter_eq_nil_iff.mpr fun p hp hid => hnodup.1 ?_
        rw [← of_decide_eq_true hid]
        exact List.mem_map_of_mem hp
      rw [List.filter_cons_of_pos (by simp), hrest]
    · have hne : p.1.id ≠ q.1.id := fun hid =>
        hnodup.1 (hid ▸ List.mem_map_of_mem (f := fun p => p.1.id) hq)
      rw [List.filter_cons_of_neg (by simpa using hne)]
      exact ih hnodup.2 hq

/-- The result of a cycle over `batch`, compared with its log, the rows and the
events. -/
structure Account (recovered : Prop) (before after : World) (batch : List StoredSyncItem)
    (log : List Entry) (result : StoredSyncResult) : Prop where
  dispatched : dispatched log <+: batch
  settled : (fates log).map (·.1) = Ios.dispatched log
  attempted : result.itemsAttempted = (Ios.dispatched log).length
  succeeded : result.itemsSucceeded = (idsWith .deleted (fates log)).length
  failed : result.itemsFailed = (idsWith .failed (fates log)).length
  errorMessage : result.errorMessage.isSome = true ↔ 0 < result.itemsFailed
  rows : ∀ q ∈ fates log, ∀ fate, Fate.Holds after.store q.1 fate ↔ fate = q.2
  events : ∃ mid, after.events = before.events ++ mid ∧
    ∀ q ∈ fates log, itemEvents q.1.id mid = [q.2.eventType]
  others : ∀ r ∈ before.store.rows, (∀ x ∈ Ios.dispatched log, x.id ≠ r.id) →
    Kept recovered after.store r

namespace Engine

variable {scheme : String → Option String} {e e' : Engine} {l : Label} {t : Nat} {c : Cycle}

/-- Beside an active cycle, no row is changed but by launch recovery. -/
theorem kept_of_other (hO : OneCycle e) (hc : e.flushes t = some c) (hca : c.active = true)
    (hl : ∀ ev, l ≠ .cycle t ev) (hclean : l.clean t = true) (h : e.step scheme l = some e')
    {r : StoredSyncItem} (hr : r ∈ e.world.store.rows) :
    Kept (l = .recover) e'.world.store r := by
  cases l with
  | enqueue items =>
    obtain ⟨store, -, hrows, rfl⟩ := Engine.step_enqueue h
    left
    show r ∈ store.rows
    rw [hrows]
    exact List.mem_append_left _ hr
  | remove call | kill config paused => cases hclean
  | updateConfig config | setPaused paused =>
    cases h
    exact .inl hr
  | flush u recovered nowMs =>
    obtain ⟨-, h⟩ := Option.ite_none_right_eq_some.mp h
    cases h
    left
    obtain ⟨config, -, heq | ⟨-, heq⟩⟩ := e.flush_cases u recovered nowMs <;> rwa [heq]
  | cycle u ev =>
    obtain ⟨d, d', hcycle⟩ := step_cycle h
    have hu : u ≠ t := by
      rintro rfl
      exact hl ev rfl
    obtain ⟨notBefore, hw⟩ :=
      Cycle.step_ended hcycle.step (hO.ended (Ne.symm hu) hcycle.before hc hca)
    rw [hw]
    exact .inl hr
  | recover =>
    obtain ⟨-, h⟩ := Option.ite_none_right_eq_some.mp h
    cases h
    by_cases hs : r.status = .IN_FLIGHT
    · exact .inr ⟨rfl, hs, SyncItemDao.mem_resetInFlightToPending.mpr ⟨r, hr, if_pos hs⟩⟩
    · exact .inl (SyncItemDao.mem_resetInFlightToPending.mpr ⟨r, hr, if_neg hs⟩)

/-- Nor does anyone else emit an event. -/
theorem events_of_other (hO : OneCycle e) (hc : e.flushes t = some c) (hca : c.active = true)
    (hl : ∀ ev, l ≠ .cycle t ev) (h : e.step scheme l = some e') :
    e'.world.events = e.world.events := by
  rcases step_kinds h with hA | ⟨u, recovered, nowMs, -, -, rfl⟩ | ⟨u, ev, d, d', rfl, hcycle⟩ |
    ⟨config, paused, rfl⟩
  · exact hA.events
  · obtain ⟨config, -, heq | ⟨hidle, -⟩⟩ := e.flush_cases u recovered nowMs
    · rw [heq]
    · rw [hO.running t c hc hca] at hidle
      cases hidle
  · have hu : u ≠ t := by
      rintro rfl
      exact hl ev rfl
    obtain ⟨notBefore, hw⟩ :=
      Cycle.step_ended hcycle.step (hO.ended (Ne.symm hu) hcycle.before hc hca)
    rw [hw]
  · cases h
    rfl

/-- The cycle of call `t` over `batch`, fetched in the state `e₁`, with its log. -/
structure Audited (recovered : Prop) (e₁ : Engine) (batch : List StoredSyncItem) (t : Nat)
    (p : Engine × List Entry) : Prop where
  custody : Custody p.1
  issued : ∀ x ∈ batch, x.id ∈ p.1.world.issued
  cycle : ∃ c, p.1.flushes t = some c ∧ (∀ limit, c.phase ≠ .fetching limit) ∧
    c.Tally batch p.2 ∧
    (c.active = true → Shelf recovered e₁.world.store.rows p.1.world.store c.phase.hand.marked p.2 ∧
      Reports e₁.world.events p.1.world.events p.2)

theorem Audited.step {recovered : Prop} {e₁ : Engine} {batch : List StoredSyncItem}
    {p p' : Engine × List Entry} (hA : Audited recovered e₁ batch t p)
    (hbatch : ∀ x ∈ batch, x ∈ e₁.world.store.rows ∧ x.status = .PENDING)
    (hnodup : (batch.map (·.id)).Nodup)
    (hl : l.clean t = true ∧ (l = .recover → recovered))
    (h : StepSystem.recorded (Engine.step scheme) (observed Cycle.entries t) p l = some p') :
    Audited recovered e₁ batch t p' := by
  obtain ⟨e, log⟩ := p
  obtain ⟨e', log'⟩ := p'
  obtain ⟨hstep, rfl⟩ := StepSystem.recorded_eq_some.mp h
  have hcustody : Custody e' := hA.custody.step hstep
  have hissued : ∀ x ∈ batch, x.id ∈ e'.world.issued :=
    fun x hx => (outbox_step hstep).issued_mono (hA.issued x hx)
  obtain ⟨c, hc, hfetching, hT, haudit⟩ := hA.cycle
  refine ⟨hcustody, hissued, ?_⟩
  by_cases hcycle : ∃ ev, l = .cycle t ev
  · obtain ⟨ev, rfl⟩ := hcycle
    obtain ⟨d, c', hin⟩ := step_cycle hstep
    obtain rfl : c = d := Option.some.inj (hc.symm.trans hin.before)
    have hfail : ∀ code, ev ≠ .fail code := by
      rintro code rfl
      simp [Label.clean] at hl
    show ∃ d, e'.flushes t = some d ∧ _
    simp only [observed_of_cycle hc]
    refine ⟨c', by rw [hin.flushes, Function.update_self],
      Cycle.step_not_fetching hin.step, hT.step hfetching hfail hin.step, fun hca' => ?_⟩
    obtain ⟨hS, hR⟩ := haudit (Cycle.step_active hin.step hca').1
    exact ⟨hS.step hT hbatch hnodup hin.step, hR.step hT hin.step⟩
  · have hother : ∀ ev, l ≠ .cycle t ev := fun ev heq => hcycle ⟨ev, heq⟩
    have hkill : l.isKill = false := by
      cases l with
      | kill config paused => exact absurd hl.1 (by simp [Label.clean])
      | _ => rfl
    show ∃ d, e'.flushes t = some d ∧ _
    simp only [observed_of_other hother, List.append_nil]
    refine ⟨c, flushes_of_other hstep hother hkill hc, hfetching, hT, fun hca => ?_⟩
    obtain ⟨hS, hR⟩ := haudit hca
    refine ⟨hS.beside (fun r hr => ?_) fun q hq hmem => ?_, ?_⟩
    · refine (kept_of_other hA.custody.one hc hca hother hl.1 hstep hr).imp_right ?_
      rintro ⟨hrecover, hrest⟩
      exact ⟨hl.2 hrecover, hrest⟩
    · -- an id of the batch does not come back
      have hq' : q.1 ∈ dispatched log := by
        rw [← hT.marked]
        exact List.mem_append_left _ (List.mem_map_of_mem hq)
      have hknown := hA.issued q.1 (((List.prefix_append _ _).trans hT.ahead).subset hq')
      rcases (outbox_step hstep).stored_new hmem with hmem | ⟨-, hnew⟩
      · exact hmem
      · exact absurd hknown hnew
    · rw [events_of_other hA.custody.one hc hca hother hstep]
      exact hR

/-- A cycle that has not fetched yet is as it started. -/
theorem Reachable.eq_start {limit : Int} (h : Reachable scheme e) (hc : e.flushes t = some c)
    (hphase : c.phase = .fetching limit) : c = Cycle.start c.startedAt limit := by
  let I (e : Engine) : Prop := ∀ t c limit, e.flushes t = some c → c.phase = .fetching limit →
    c = Cycle.start c.startedAt limit
  have hI : I e := by
    refine h.invariant (I := I) (fun h0 t c limit hc => ?_) (fun {e₀ l e'} hI hs => ?_)
    · rw [h0.flushes] at hc
      cases hc
    · intro t c limit hc hphase
      rcases step_kinds hs with hA | ⟨u, recovered, nowMs, -, -, rfl⟩ | ⟨u, ev, d, d', -, hin⟩ |
        ⟨config, paused, rfl⟩
      · exact hI t c limit (hA.flushes ▸ hc) hphase
      · obtain ⟨config, -, heq | ⟨-, heq⟩⟩ := e₀.flush_cases u recovered nowMs <;> rw [heq] at hc
        · exact hI t c limit hc hphase
        · rcases flushes_setCycle hc with ⟨-, rfl⟩ | ⟨-, hc⟩
          · cases hphase
            rfl
          · exact hI t c limit hc hphase
      · rcases flushes_setCycle (hin.flushes ▸ hc) with ⟨-, rfl⟩ | ⟨-, hc⟩
        · exact absurd hphase (Cycle.step_not_fetching hin.step limit)
        · exact hI t c limit hc hphase
      · cases hs
        cases hc
  exact hI t c limit hc hphase

/-- The account of a cycle that has just fetched its batch. -/
theorem audited_of_fetch {recovered : Prop} {e₁ e₂ : Engine} {limit nowMs : Int}
    (h : Reachable scheme e₁) (hc : e₁.flushes t = some c) (hphase : c.phase = .fetching limit)
    (hfetch : e₁.step scheme (.cycle t (.fetch nowMs)) = some e₂) :
    Audited recovered e₁ (SyncItemDao.fetchPending nowMs limit e₁.world.store) t (e₂, []) := by
  have hcustody : Custody e₁ := h.invariant (fun h0 => Boot.custody h0) Custody.step
  have hstart := h.eq_start hc hphase
  obtain ⟨d, c', hin⟩ := step_cycle hfetch
  obtain rfl : c = d := Option.some.inj (hc.symm.trans hin.before)
  have hnotfetching := Cycle.step_not_fetching hin.step
  obtain ⟨hworld, total, phase, rfl, hlooping⟩ := Cycle.step_fetch hphase hin.step
  have hmarked : phase.hand.marked = none := by
    rcases hlooping with rfl | ⟨rfl, -⟩ <;> rfl
  have hself : e₂.flushes t = some { c with total := total, phase := phase } := by
    rw [hin.flushes, Function.update_self]
  refine ⟨hcustody.step hfetch, fun x hx => ?_, _, hself, hnotfetching, ?_, fun _ => ⟨?_, ?_⟩⟩
  · show x.id ∈ e₂.world.issued
    rw [hworld]
    exact hcustody.issued _ (KeyedTable.key_mem_keys (SyncItemDao.fetchPending_subset hx).1)
  · rw [hstart]
    exact Cycle.tally_of_fetch hlooping
  · show Shelf recovered e₁.world.store.rows e₂.world.store phase.hand.marked []
    rw [hworld, hmarked]
    exact ⟨by simp, by simp, fun r hr _ => .inl hr⟩
  · show Reports e₁.world.events e₂.world.events []
    rw [hworld]
    exact ⟨[], by simp, fun _ => rfl⟩

/-- In every run of an install, whatever calls come in at the `await`s, for a
cycle from its fetch to its result, of which no storage operation throws and
beside which no row is removed: the items it dispatched are a prefix of the batch
and counted; each is deleted, `FAILED`, or `PENDING` until the moment its outcome
was written with, and one event says which; the result counts the deleted and the
failed ones, and has an error message when some failed; the cycle changes no other
row, and nobody does but launch recovery. -/
theorem cycle_accounts {e₁ e₂ e₃ e₄ : Engine} {limit nowMs finishedAt : Int} {ls : List Label}
    {log : List Entry} (h : Reachable scheme e₁) (hc : e₁.flushes t = some c)
    (hphase : c.phase = .fetching limit)
    (hfetch : e₁.step scheme (.cycle t (.fetch nowMs)) = some e₂)
    (hclean : ∀ l ∈ ls, l.clean t = true)
    (hrun : StepSystem.exec (StepSystem.recorded (step scheme) (observed Cycle.entries t)) (e₂, [])
      ls = some (e₃, log))
    (hend : e₃.step scheme (.cycle t (.summarize finishedAt)) = some e₄) :
    ∃ result, e₄.world.lastResult = some result ∧
      e₄.world.results = e₃.world.results ++ [result] ∧
      Account (.recover ∈ ls) e₁.world e₄.world
        (SyncItemDao.fetchPending nowMs limit e₁.world.store) log result := by
  have hbatch : ∀ x ∈ SyncItemDao.fetchPending nowMs limit e₁.world.store,
      x ∈ e₁.world.store.rows ∧ x.status = .PENDING := by
    intro x hx
    obtain ⟨hrow, hstatus, -⟩ := SyncItemDao.fetchPending_subset hx
    exact ⟨hrow, hstatus⟩
  have hnodup := SyncItemDao.fetchPending_nodup nowMs limit e₁.world.store
  have hmeets : StepSystem.Meets (StepSystem.recorded (step scheme) (observed Cycle.entries t))
      (fun _ l => l.clean t = true ∧ (l = .recover → .recover ∈ ls)) (e₂, []) ls :=
    StepSystem.meets_of_forall fun l hl => ⟨hclean l hl, fun heq => heq ▸ hl⟩
  have haudited : Audited (.recover ∈ ls) e₁ (SyncItemDao.fetchPending nowMs limit e₁.world.store) t
      (e₃, log) :=
    StepSystem.exec_invariant_of_meets (fun hA hl hs => hA.step hbatch hnodup hl hs)
      (audited_of_fetch h hc hphase hfetch) hmeets hrun
  obtain ⟨d, hd, -, hT, haudit⟩ := haudited.cycle
  obtain ⟨d', c', hin⟩ := step_cycle hend
  obtain rfl : d = d' := Option.some.inj (hd.symm.trans hin.before)
  obtain ⟨nothingPending, hsummarizing, hresult⟩ := Cycle.step_summarize hin.step
  obtain ⟨hS, hR⟩ := haudit (by rw [Cycle.active, hsummarizing])
  obtain ⟨hstore, hlast, hresults, hevents⟩ := hresult
  have hattempted := hT.attempted
  have hsucceeded := hT.succeeded
  have hsettled := hT.marked
  rw [hsummarizing] at hattempted hsucceeded hsettled
  refine ⟨d.result finishedAt, hlast, hresults, ?_⟩
  have hdispatched : dispatched log <+: SyncItemDao.fetchPending nowMs limit e₁.world.store :=
    (List.prefix_append _ _).trans hT.ahead
  have hall : (fates log).map (·.1) = dispatched log := by
    simpa [CyclePhase.hand, Hand.empty] using hsettled
  have hdistinct : ((fates log).map (·.1.id)).Nodup := by
    have := hnodup.sublist (hdispatched.sublist.map _)
    rw [← hall, List.map_map] at this
    exact this
  refine ⟨hdispatched, hall, hattempted, ?_, ?_, ?_, fun q hq fate => ?_, ?_, ?_⟩
  · exact congrArg List.length (hsucceeded.trans (List.append_nil _))
  · exact congrArg List.length hT.failed
  · rw [show (d.result finishedAt).errorMessage = d.firstError from rfl, hT.firstError,
      show (d.result finishedAt).itemsFailed = d.failedIds.length from rfl, List.length_pos_iff]
  · rw [hstore]
    constructor
    · intro hholds
      exact hholds.unique (hS.fates q hq)
    · rintro rfl
      exact hS.fates q hq
  · obtain ⟨mid, hmid, hreports⟩ := hR
    refine ⟨mid ++ [d.terminalEvent nothingPending], ?_, fun q hq => ?_⟩
    · rw [hevents, hmid, List.append_assoc]
    · have hone : (fates log).filter (·.1.id = q.1.id) = [q] := filter_id_eq_singleton hdistinct hq
      rw [itemEvents_append, hreports, hone, itemEvents_terminal, List.append_nil]
      rfl
  · rw [hstore]
    exact hS.others

section Sample

/-- Two items, a 200 for the first and a 400 for the second. -/
def mixedRun : List Label :=
  sendRun ++ answerRun 200 ++ sendRun ++ answerRun 400 ++ [.cycle 0 .next]

theorem cycle_accounts_when_mixed :
    ∃ e₃ e₄ log result,
      StepSystem.exec (step https) firstLaunch
        (fetchRun [SyncQueueStorage.sampleItem "A", SyncQueueStorage.sampleItem "B"] ++ mixedRun) =
          some e₃ ∧
      e₃.step https (.cycle 0 (.summarize 2200)) = some e₄ ∧ e₄.world.lastResult = some result ∧
      (fates log).map (fun q => (q.1.id, q.2)) = [("A", .deleted), ("B", .failed)] ∧
      result.itemsAttempted = 2 ∧ result.itemsSucceeded = 1 ∧ result.itemsFailed = 1 ∧
      result.errorMessage.isSome = true := by
  obtain ⟨e₁, e₂, e₃, e₄, c, log, h₁, hc, hphase, hfetch, hrun, hall, hend, hfates⟩ :
      ∃ e₁ e₂ e₃ e₄ c log,
        StepSystem.exec (step https) firstLaunch
          [.enqueue [SyncQueueStorage.sampleItem "A", SyncQueueStorage.sampleItem "B"],
            .flush 0 none 2000] = some e₁ ∧
        e₁.flushes 0 = some c ∧ c.phase = .fetching 25 ∧
        e₁.step https (.cycle 0 (.fetch 2000)) = some e₂ ∧
        StepSystem.exec (StepSystem.recorded (step https) (observed Cycle.entries 0)) (e₂, [])
          mixedRun = some (e₃, log) ∧
        StepSystem.exec (step https) firstLaunch
          (fetchRun [SyncQueueStorage.sampleItem "A", SyncQueueStorage.sampleItem "B"] ++
            mixedRun) = some e₃ ∧
        e₃.step https (.cycle 0 (.summarize 2200)) = some e₄ ∧
        (fates log).map (fun q => (q.1.id, q.2)) = [("A", .deleted), ("B", .failed)] :=
    ⟨_, _, _, _, _, _, rfl, rfl, rfl, rfl, rfl, rfl, rfl, rfl⟩
  obtain ⟨result, hlast, -, haccount⟩ :=
    cycle_accounts ⟨firstLaunch, _, firstLaunch_boot, h₁⟩ hc hphase hfetch (by decide) hrun hend
  have hids (fate : Fate) : idsWith fate (fates log) =
      (((fates log).map (fun q => (q.1.id, q.2))).filter (·.2 = fate)).map (·.1) := by
    simp [idsWith, List.filter_map, Function.comp_def]
  have hlength : (dispatched log).length = 2 := by
    have := congrArg List.length hfates
    rwa [← haccount.settled, List.length_map, ← List.length_map (fun q => (q.1.id, q.2))]
  have hsucceeded := haccount.succeeded
  have hfailed := haccount.failed
  rw [hids, hfates] at hsucceeded hfailed
  have hone : result.itemsFailed = 1 := hfailed
  exact ⟨e₃, e₄, log, result, hall, hend, hlast, hfates, haccount.attempted.trans hlength,
    hsucceeded, hone, haccount.errorMessage.mpr (by rw [hone]; decide)⟩

end Sample

end Engine

end SyncProvider.Ios
