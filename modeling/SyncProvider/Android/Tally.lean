import SyncProvider.Android.InFlight

/-!
# Android: the account of a cycle

The outcomes of a batch come from concurrent dispatches, each of which ends in
one of the exits of `dispatchItem`, and from the probe. `buildResult` counts them.
Here the result is compared with the rows the cycle leaves and with the events it
emits. One thing is not as the batch alone suggests: the release of a rejected
batch resets rows by their status, so it also puts back rows that were in flight
before the cycle began.

Results:
1. `Dispatch.booked_step` : one row, its write and its event.
2. `Aside.step_dispatch`, `Aside.claim`, `Aside.release` : the other rows.
3. `Books.cycle_step` : the account, after each step of a cycle.
4. `batch_accounts` : the account of a cycle that is not interrupted.
-/

namespace SyncProvider.Android

/-! ## 1. A row, its write and its event -/

/-- The types of the events about this item, in order. -/
def itemEvents (id : String) (events : List SyncEvent) : List SyncEventType :=
  (events.filter (·.itemId = some id)).map (·.type)

@[simp] theorem itemEvents_append (id : String) (events events' : List SyncEvent) :
    itemEvents id (events ++ events') = itemEvents id events ++ itemEvents id events' := by
  simp [itemEvents]

theorem itemEvents_of_ne {id : String} {event : SyncEvent} (h : event.itemId ≠ some id) :
    itemEvents id [event] = [] := by
  simp [itemEvents, h]

theorem itemEvents_self {id : String} {event : SyncEvent} (h : event.itemId = some id) :
    itemEvents id [event] = [event.type] := by
  simp [itemEvents, h]

def ItemOutcome.itemId : ItemOutcome → String
  | .succeeded itemId _ | .rescheduled itemId | .credentialRejected itemId _
  | .failed itemId _ _ => itemId

theorem Exit.outcome_itemId {entity : SyncItemEntity} {s : Settlement} (h : Exit entity s) :
    s.outcome.itemId = entity.id := by
  cases h <;> rfl

theorem Exit.event_itemId {entity : SyncItemEntity} {s : Settlement} (h : Exit entity s) :
    s.event.itemId = some entity.id := by
  cases h <;> rfl

/-- The row a write is about is as the write left it. -/
def StoreWrite.Holds (t : SyncItems) : StoreWrite → Prop
  | .markSucceeded id => id ∉ t.keys
  | .markRetry id attempts _ _ nextRetryAt => ∃ r ∈ t.rows, r.id = id ∧ r.status = .PENDING ∧
    r.attempts = attempts ∧ r.nextRetryAt = nextRetryAt
  | .markFailed id attempts _ _ => ∃ r ∈ t.rows, r.id = id ∧ r.status = .FAILED ∧
    r.attempts = attempts

theorem StoreWrite.holds_run {s : StoreWrite} {t : SyncItems} (h : s.id ∈ t.keys) :
    s.Holds (s.run t) := by
  obtain ⟨r, hr, hid⟩ := KeyedTable.mem_keys.mp h
  have hself : (r.id == s.id) = true := by simpa using hid
  cases s with
  | markSucceeded id => exact fun hmem => (SyncItemDao.mem_deleteById.mp hmem).2 rfl
  | markRetry id attempts lastAttemptAt code nextRetryAt =>
    exact ⟨_, SyncItemDao.mem_updateStatus.mpr ⟨r, hr, if_pos hself⟩, hid, rfl, rfl, rfl⟩
  | markFailed id attempts lastAttemptAt code =>
    exact ⟨_, SyncItemDao.mem_updateStatus.mpr ⟨r, hr, if_pos hself⟩, hid, rfl, rfl⟩

/-- The row stays, or stays away. -/
theorem StoreWrite.Holds.congr {s : StoreWrite} {t t' : SyncItems} (h : s.Holds t)
    (hkept : ∀ r ∈ t.rows, r.id = s.id → r ∈ t'.rows) (hgone : s.id ∉ t.keys → s.id ∉ t'.keys) :
    s.Holds t' := by
  cases s with
  | markSucceeded id => exact hgone h
  | markRetry | markFailed =>
    obtain ⟨r, hr, hid, hrest⟩ := h
    exact ⟨r, hkept r hr hid, hid, hrest⟩

/-- A row that is not in flight survives a reset. -/
theorem SyncItemDao.mem_resetInFlight_of_ne {t : SyncItems} {r : SyncItemEntity} (hr : r ∈ t.rows)
    (hstatus : r.status ≠ .IN_FLIGHT) : r ∈ (resetInFlight t).rows :=
  KeyedTable.mem_updateWhere.mpr ⟨r, hr, if_neg (by simpa using hstatus)⟩

theorem StoreWrite.Holds.resetInFlight {s : StoreWrite} {t : SyncItems} (h : s.Holds t) :
    s.Holds (SyncItemDao.resetInFlight t) := by
  cases s with
  | markSucceeded id =>
    unfold Holds
    rw [SyncItemDao.keys_resetInFlight]
    exact h
  | markRetry | markFailed =>
    obtain ⟨r, hr, hid, hstatus, hrest⟩ := h
    refine ⟨r, SyncItemDao.mem_resetInFlight_of_ne hr ?_, hid, hstatus, hrest⟩
    rw [hstatus]
    decide

/-- The row is in flight, and nothing was said about it. -/
structure Untold (t : SyncItems) (events : List SyncEvent) (row : SyncItemEntity) : Prop where
  inFlight : { row with status := .IN_FLIGHT } ∈ t.rows
  events : itemEvents row.id events = []

/-- The settlement of the row was written and logged, and the row is as it says. -/
structure Written (t : SyncItems) (log : List Deed) (row : SyncItemEntity) (s : Settlement) :
    Prop where
  exit : Exit row s
  logged : .settled row s ∈ log
  holds : s.write.Holds t

theorem Written.congr {t t' : SyncItems} {log log' : List Deed} {row : SyncItemEntity}
    {s : Settlement} (h : Written t log row s)
    (hkept : ∀ r ∈ t.rows, r.id = row.id → r ∈ t'.rows) (hgone : row.id ∉ t.keys → row.id ∉ t'.keys)
    (hlog : log ⊆ log') : Written t' log' row s := by
  rw [← h.exit.write_id] at hkept hgone
  exact ⟨h.exit, hlog h.logged, h.holds.congr hkept hgone⟩

namespace Dispatch

variable {accepts : HttpRequest → Bool} {live options : SyncOptions}
  {credentials : CredentialPolicy} {w w' : World} {d d' : Dispatch} {ev : DispatchEvent}
  {events events' : List SyncEvent} {log log' : List Deed}

/-- What is known about a claimed row, by the state of its dispatch. -/
def Booked (t : SyncItems) (events : List SyncEvent) (log : List Deed) (d : Dispatch) : Prop :=
  match d.state with
  | .settled event outcome => itemEvents d.entity.id events = [] ∧
    ∃ s, Written t log d.entity s ∧ s.event = event ∧ s.outcome = outcome
  | .done outcome => ∃ s, Written t log d.entity s ∧
    itemEvents d.entity.id events = [s.event.type] ∧ s.outcome = outcome
  | _ => Untold t events d.entity

/-- Steps that concern other rows. -/
theorem Booked.congr {t t' : SyncItems} (h : d.Booked t events log)
    (hkept : ∀ r ∈ t.rows, r.id = d.entity.id → r ∈ t'.rows)
    (hgone : d.entity.id ∉ t.keys → d.entity.id ∉ t'.keys)
    (hevents : itemEvents d.entity.id events' = itemEvents d.entity.id events)
    (hlog : log ⊆ log') : d.Booked t' events' log' := by
  unfold Booked at h ⊢
  cases hstate : d.state with
  | settled event outcome =>
    rw [hstate] at h
    obtain ⟨hnone, s, hwritten, hrest⟩ := h
    exact ⟨hevents.trans hnone, s, hwritten.congr hkept hgone hlog, hrest⟩
  | done outcome =>
    rw [hstate] at h
    obtain ⟨s, hwritten, hone, hrest⟩ := h
    exact ⟨s, hwritten.congr hkept hgone hlog, hevents.trans hone, hrest⟩
  | queued | started startedAt | requesting startedAt | attempted startedAt result =>
    rw [hstate] at h
    exact ⟨hkept _ h.inFlight rfl, hevents.trans h.events⟩

/-- The outcome of a row in flight is written. -/
theorem booked_write {s : Settlement} {state : DispatchState}
    (h : Untold w.table events d.entity) (hexit : Exit d.entity s)
    (hstate : state = .settled s.event s.outcome) :
    Booked (w.write s.write).table events (log ++ [.settled d.entity s])
      { d with state := state } := by
  subst hstate
  refine ⟨h.events, s, ⟨hexit, by simp, StoreWrite.holds_run ?_⟩, rfl, rfl⟩
  rw [hexit.write_id]
  exact KeyedTable.mem_keys.mpr ⟨_, h.inFlight, rfl⟩

theorem booked_step (hB : d.Booked w.table events log) (hev : ∀ message, ev ≠ .crash message)
    (h : d.step accepts live options credentials w ev = some (w', d')) :
    ∃ new, w'.events = w.events ++ new ∧
      (∀ id, id ≠ d.entity.id → itemEvents id new = []) ∧
      d'.Booked w'.table (events ++ new) (log ++ d.deeds options credentials ev) := by
  have quiet {d₁ : Dispatch} (hB' : d₁.Booked w.table events log) :
      ∃ new, w.events = w.events ++ new ∧ (∀ id, id ≠ d.entity.id → itemEvents id new = []) ∧
        d₁.Booked w.table (events ++ new) (log ++ []) :=
    ⟨[], by simp, fun id hne => rfl, by simpa using hB'⟩
  cases step_moves h with
  | start | unbuilt | send | respond => exact quiet hB
  | @refuse entity =>
    refine ⟨[], by simp [World.write], fun id hne => rfl, ?_⟩
    rw [List.append_nil]
    exact booked_write (d := ⟨entity, .queued⟩) hB (.refused _) rfl
  | @settle entity =>
    refine ⟨[], by simp [World.write], fun id hne => rfl, ?_⟩
    rw [List.append_nil]
    exact booked_write (d := ⟨entity, .queued⟩) hB (exit_settle ..) rfl
  | @emit entity =>
    obtain ⟨hnone, s, hwritten, rfl, rfl⟩ := hB
    have hitem : s.event.itemId = some entity.id := hwritten.exit.event_itemId
    refine ⟨[s.event], rfl, fun id hne => itemEvents_of_ne ?_, s, ?_, ?_, rfl⟩
    · rw [hitem]
      simpa using Ne.symm hne
    · exact hwritten.congr (fun r hr _ => hr) id (List.subset_append_left _ _)
    · rw [itemEvents_append, hnone, itemEvents_self hitem, List.nil_append]
  | crash => exact absurd rfl (hev _)

end Dispatch

/-! ## 2. The other rows -/

/-- The row is as it was, or was in flight and put back. -/
def Survives (released : Prop) (r r' : SyncItemEntity) : Prop :=
  r' = r ∨ released ∧ r.status = .IN_FLIGHT ∧ r' = { r with status := .PENDING }

/-- The rows that were not claimed are those from before the cycle, and new ones. -/
structure Aside (before : World) (t : SyncItems) (log : List Deed) : Prop where
  kept : ∀ r ∈ before.table.rows, r.id ∉ claimedIds log →
    ∃ r' ∈ t.rows, Survives (.released ∈ log) r r'
  origin : ∀ r' ∈ t.rows, r'.id ∉ claimedIds log →
    (∃ r ∈ before.table.rows, Survives (.released ∈ log) r r') ∨
      ∃ item : SyncQueueStorage.NewItem, r' = item.entity ∧ item.id ∉ before.issued

namespace Survives

variable {released released' : Prop} {r r' : SyncItemEntity}

theorem id_eq (h : Survives released r r') : r'.id = r.id := by
  rcases h with rfl | ⟨-, -, rfl⟩ <;> rfl

theorem mono (h : Survives released r r') (himp : released → released') :
    Survives released' r r' :=
  h.imp_right fun ⟨hreleased, hrest⟩ => ⟨himp hreleased, hrest⟩

/-- A reset puts back a row that is still in flight. -/
theorem reset (h : Survives released r r') (hstatus : r'.status = .IN_FLIGHT) :
    Survives True r { r' with status := .PENDING } := by
  rcases h with rfl | ⟨-, -, rfl⟩
  · exact .inr ⟨trivial, hstatus, rfl⟩
  · cases hstatus

end Survives

namespace Aside

variable {before w w' : World} {t t' : SyncItems} {log log' : List Deed}

theorem refl (before : World) : Aside before before.table [] :=
  ⟨fun r hr _ => ⟨r, hr, .inl rfl⟩, fun r hr _ => .inl ⟨r, hr, .inl rfl⟩⟩

/-- The rows that are not claimed stay, and new ones enter. -/
theorem congr (hA : Aside before t log) (hclaims : claimedIds log ⊆ claimedIds log')
    (hreleased : .released ∈ log → .released ∈ log')
    (hkept : ∀ r ∈ t.rows, r.id ∉ claimedIds log' → r ∈ t'.rows)
    (hold : ∀ r ∈ t'.rows, r.id ∉ claimedIds log' → r ∈ t.rows ∨
      ∃ item : SyncQueueStorage.NewItem, r = item.entity ∧ item.id ∉ before.issued) :
    Aside before t' log' := by
  refine ⟨fun r hr hid => ?_, fun r' hr' hid => ?_⟩
  · obtain ⟨r', hr', hsurvives⟩ := hA.kept r hr fun hmem => hid (hclaims hmem)
    exact ⟨r', hkept r' hr' (hsurvives.id_eq ▸ hid), hsurvives.mono hreleased⟩
  · rcases hold r' hr' hid with hr' | hnew
    · rcases hA.origin r' hr' fun hmem => hid (hclaims hmem) with ⟨r, hr, hsurvives⟩ | hnew
      · exact .inl ⟨r, hr, hsurvives.mono hreleased⟩
      · exact .inr hnew
    · exact .inr hnew

/-- The release of a batch. -/
theorem release (hA : Aside before t log) (hclaims : claimedIds log' = claimedIds log)
    (hreleased : .released ∈ log') : Aside before (SyncItemDao.resetInFlight t) log' := by
  refine ⟨fun r hr hid => ?_, fun r' hr' hid => ?_⟩
  · rw [hclaims] at hid
    obtain ⟨r', hr', hsurvives⟩ := hA.kept r hr hid
    by_cases hstatus : r'.status = .IN_FLIGHT
    · refine ⟨_, KeyedTable.mem_updateWhere.mpr ⟨r', hr', if_pos (by simpa using hstatus)⟩, ?_⟩
      exact (hsurvives.reset hstatus).mono fun _ => hreleased
    · exact ⟨r', SyncItemDao.mem_resetInFlight_of_ne hr' hstatus,
        hsurvives.mono fun _ => hreleased⟩
  · rw [hclaims] at hid
    obtain ⟨r₀, hr₀, rfl⟩ := KeyedTable.mem_updateWhere.mp hr'
    by_cases hstatus : (r₀.status == .IN_FLIGHT) = true
    · rw [if_pos hstatus] at hid ⊢
      rcases hA.origin r₀ hr₀ hid with ⟨r, hr, hsurvives⟩ | ⟨item, rfl, -⟩
      · refine .inl ⟨r, hr, ?_⟩
        exact (hsurvives.reset (by simpa using hstatus)).mono fun _ => hreleased
      · -- a new row is not in flight
        cases hstatus
    · rw [if_neg hstatus] at hid ⊢
      rcases hA.origin r₀ hr₀ hid with ⟨r, hr, hsurvives⟩ | hnew
      · exact .inl ⟨r, hr, hsurvives.mono fun _ => hreleased⟩
      · exact .inr hnew

end Aside

/-! ## 3. The account of a cycle -/

/-- What became of a claimed row, and whether one of the outcomes says so. -/
inductive Entered (t : SyncItems) (events : List SyncEvent) (log : List Deed)
    (outcomes : List ItemOutcome) (row : SyncItemEntity) : Prop where
  | settled (s : Settlement) (hwritten : Written t log row s)
      (hevents : itemEvents row.id events = [s.event.type]) (houtcome : s.outcome ∈ outcomes)
  | released (hreleased : .released ∈ log) (hrow : { row with status := .PENDING } ∈ t.rows)
      (hevents : itemEvents row.id events = [])
      (hnone : ∀ outcome ∈ outcomes, outcome.itemId ≠ row.id)

/-- The outcomes are those of the rows that were claimed and not released. -/
structure Counted (t : SyncItems) (events : List SyncEvent) (log : List Deed)
    (outcomes : List ItemOutcome) : Prop where
  nodup : (outcomes.map (·.itemId)).Nodup
  claimed : ∀ outcome ∈ outcomes, outcome.itemId ∈ claimedIds log
  rows : ∀ row ∈ batch log, Entered t events log outcomes row

namespace Counted

variable {t t' : SyncItems} {events events' : List SyncEvent} {log log' : List Deed}
  {outcomes : List ItemOutcome}

/-- Nothing more is written or said about the batch. -/
theorem congr (hC : Counted t events log outcomes) (hbatch : batch log' = batch log)
    (hlog : log ⊆ log') (hevents : ∀ id, itemEvents id events' = itemEvents id events)
    (hkept : ∀ r ∈ t.rows, r.id ∈ claimedIds log → r ∈ t'.rows)
    (hgone : ∀ id ∈ claimedIds log, id ∉ t.keys → id ∉ t'.keys) :
    Counted t' events' log' outcomes := by
  refine ⟨hC.nodup, fun outcome houtcome => ?_, fun row hrow => ?_⟩
  · unfold claimedIds
    rw [hbatch]
    exact hC.claimed outcome houtcome
  · rw [hbatch] at hrow
    have hid : row.id ∈ claimedIds log := List.mem_map_of_mem hrow
    cases hC.rows row hrow with
    | settled s hwritten hone houtcome =>
      refine .settled s (hwritten.congr (fun r hr heq => hkept r hr ?_) (hgone _ hid) hlog)
        ((hevents _).trans hone) houtcome
      rwa [heq]
    | released hreleased hpending hnothing hnone =>
      exact .released (hlog hreleased) (hkept _ hpending hid) ((hevents _).trans hnothing) hnone

/-- All dispatches are done. -/
theorem of_join {ds : List Dispatch} (hbatch : batch log = ds.map (·.entity))
    (hN : (claimedIds log).Nodup) (hbooked : ∀ d ∈ ds, d.Booked t events log)
    (h : ds.mapM Dispatch.outcome? = some outcomes) : Counted t events log outcomes := by
  have hdone {d : Dispatch} {outcome : ItemOutcome} (hd : d ∈ ds)
      (houtcome : d.outcome? = some outcome) : ∃ s, Written t log d.entity s ∧
        itemEvents d.entity.id events = [s.event.type] ∧ s.outcome = outcome := by
    have := hbooked d hd
    rwa [Dispatch.Booked, Dispatch.done_of_outcome houtcome] at this
  have hids : outcomes.map (·.itemId) = claimedIds log := by
    refine List.map_injective_iff.mpr (Option.some_injective _) ?_
    calc (outcomes.map (·.itemId)).map some
        = (ds.map Dispatch.outcome?).map (Option.map (·.itemId)) := by
          rw [Dispatch.map_outcome_of_mapM h, List.map_map, List.map_map]
          rfl
      _ = ds.map fun d => some d.entity.id := by
          rw [List.map_map]
          refine List.map_congr_left fun d hd => ?_
          obtain ⟨outcome, houtcome⟩ := Dispatch.outcome_of_mapM h hd
          obtain ⟨s, hwritten, -, rfl⟩ := hdone hd houtcome
          rw [Function.comp_apply, houtcome, Option.map_some, hwritten.exit.outcome_itemId]
      _ = (claimedIds log).map some := by
          rw [claimedIds, hbatch, List.map_map, List.map_map]
          rfl
  refine ⟨hids ▸ hN, fun outcome houtcome => ?_, fun row hrow => ?_⟩
  · rw [← hids]
    exact List.mem_map_of_mem houtcome
  · rw [hbatch] at hrow
    obtain ⟨d, hd, rfl⟩ := List.mem_map.mp hrow
    obtain ⟨outcome, houtcome⟩ := Dispatch.outcome_of_mapM h hd
    obtain ⟨s, hwritten, hone, rfl⟩ := hdone hd houtcome
    have hmem : some s.outcome ∈ outcomes.map some := by
      rw [← Dispatch.map_outcome_of_mapM h, ← houtcome]
      exact List.mem_map_of_mem hd
    refine .settled s hwritten hone ?_
    simpa using hmem

/-- The probe was rejected, and the rest of the batch is released. -/
theorem of_release {probe : SyncItemEntity} {rest : List SyncItemEntity} {s : Settlement}
    (hbatch : batch log = probe :: rest) (hN : (claimedIds log).Nodup)
    (hwritten : Written t log probe s) (hone : itemEvents probe.id events = [s.event.type])
    (hrest : ∀ row ∈ rest, Untold t events row) :
    Counted (SyncItemDao.resetInFlight t) events (log ++ [.released]) [s.outcome] := by
  have hprobe : s.outcome.itemId = probe.id := hwritten.exit.outcome_itemId
  have hbatch' : batch (log ++ [.released]) = probe :: rest := by
    rw [batch_append, hbatch]
    exact List.append_nil _
  refine ⟨List.nodup_singleton _, fun outcome houtcome => ?_, fun row hrow => ?_⟩
  · obtain rfl := List.mem_singleton.mp houtcome
    rw [hprobe, claimedIds, hbatch']
    exact List.mem_cons_self
  · rw [hbatch', List.mem_cons] at hrow
    rcases hrow with rfl | hrow
    · refine .settled s ⟨hwritten.exit, ?_, hwritten.holds.resetInFlight⟩ hone
        (List.mem_singleton_self _)
      exact List.mem_append_left _ hwritten.logged
    · have huntold := hrest row hrow
      refine .released (List.mem_append_right _ (List.mem_singleton_self _))
        (SyncItemDao.mem_resetInFlight (.inl rfl) huntold.inFlight) huntold.events
        fun outcome houtcome heq => ?_
      obtain rfl := List.mem_singleton.mp houtcome
      -- the probe is another row
      rw [claimedIds, hbatch, List.map_cons, List.nodup_cons] at hN
      refine hN.1 ?_
      rw [← hprobe, heq]
      exact List.mem_map_of_mem hrow

end Counted

/-- What is known about the batch, by the phase of a cycle that is not
interrupted. -/
def Cycle.Ledger (t : SyncItems) (c : Cycle) (events : List SyncEvent) (log : List Deed) : Prop :=
  match c.phase with
  | .starting | .claiming => log = [] ∧ ∀ id, itemEvents id events = []
  | .claimed rows => batch log = rows ∧ reports log = [] ∧ ∀ row ∈ rows, Untold t events row
  | .dispatching probing ds => batch log = ds.map (·.entity) ∧ reports log = [] ∧
    (∀ d ∈ ds, d.Booked t events log) ∧ (probing = true → ∀ d ∈ ds.tail, d.state = .queued)
  | .releasing first => reports log = [] ∧ ∃ probe rest s, batch log = probe :: rest ∧
    s.outcome = first ∧ Written t log probe s ∧ itemEvents probe.id events = [s.event.type] ∧
    ∀ row ∈ rest, Untold t events row
  | .recording outcomes => reports log = [] ∧ Counted t events log outcomes
  | .aborting _ _ _ | .failing _ _ => False
  | _ => ∃ outcomes now, reports log = [buildResult c.startedAt now outcomes] ∧
    Counted t events log outcomes

/-- The cycle, compared with its log, the rows and the events since `before`. -/
structure Books (before : World) (w : World) (c : Cycle) (log : List Deed) : Prop where
  issued_mono : before.issued ⊆ w.issued
  issued : ∀ id ∈ claimedIds log, id ∈ w.issued
  nodup : (claimedIds log).Nodup
  aside : Aside before w.table log
  ledger : ∃ events, w.events = before.events ++ events ∧ c.Ledger w.table events log

namespace Books

variable {accepts : HttpRequest → Bool} {live : SyncOptions} {cancelled : Bool}
  {before w w' : World} {c c' : Cycle} {ev : CycleEvent} {log : List Deed}

/-- Rows of other items enter. -/
theorem beside (hB : Books before w c log) {items : List SyncQueueStorage.NewItem}
    (hrows : w'.table.rows = w.table.rows ++ items.map SyncQueueStorage.NewItem.entity)
    (hnew : ∀ item ∈ items, item.id ∉ w.issued) (hissued : w.issued ⊆ w'.issued)
    (hevents : w'.events = w.events) : Books before w' c log := by
  have hkept {r : SyncItemEntity} (hr : r ∈ w.table.rows) : r ∈ w'.table.rows := by
    rw [hrows]
    exact List.mem_append_left _ hr
  have hgone {id : String} (hid : id ∈ claimedIds log) (hnot : id ∉ w.table.keys) :
      id ∉ w'.table.keys := by
    intro hmem
    obtain ⟨r, hr, rfl⟩ := KeyedTable.mem_keys.mp hmem
    rw [hrows, List.mem_append] at hr
    rcases hr with hr | hr
    · exact hnot (KeyedTable.key_mem_keys hr)
    · obtain ⟨item, hitem, rfl⟩ := List.mem_map.mp hr
      exact hnew item hitem (hB.issued _ hid)
  refine ⟨fun id hid => hissued (hB.issued_mono hid), fun id hid => hissued (hB.issued id hid),
    hB.nodup, ?_, ?_⟩
  · refine hB.aside.congr (List.Subset.refl _) id (fun r hr _ => hkept hr) fun r hr _ => ?_
    rw [hrows, List.mem_append] at hr
    refine hr.imp_right fun hr => ?_
    obtain ⟨item, hitem, rfl⟩ := List.mem_map.mp hr
    exact ⟨item, rfl, fun hold => hnew item hitem (hB.issued_mono hold)⟩
  · obtain ⟨events, hsince, hledger⟩ := hB.ledger
    refine ⟨events, hevents.trans hsince, ?_⟩
    have huntold {row : SyncItemEntity} (h : Untold w.table events row) :
        Untold w'.table events row :=
      ⟨hkept h.inFlight, h.events⟩
    have hcounted {outcomes : List ItemOutcome} (h : Counted w.table events log outcomes) :
        Counted w'.table events log outcomes :=
      h.congr rfl (List.Subset.refl _) (fun _ => rfl) (fun r hr _ => hkept hr) fun id => hgone
    unfold Cycle.Ledger at hledger ⊢
    cases hphase : c.phase with
    | starting | claiming =>
      rw [hphase] at hledger
      exact hledger
    | claimed rows =>
      rw [hphase] at hledger
      obtain ⟨hbatch, hnone, hrest⟩ := hledger
      exact ⟨hbatch, hnone, fun row hrow => huntold (hrest row hrow)⟩
    | dispatching probing ds =>
      rw [hphase] at hledger
      obtain ⟨hbatch, hnone, hbooked, hqueued⟩ := hledger
      refine ⟨hbatch, hnone, fun d hd => ?_, hqueued⟩
      have hid : d.entity.id ∈ claimedIds log := by
        rw [claimedIds, hbatch]
        exact List.mem_map_of_mem (List.mem_map_of_mem hd)
      exact (hbooked d hd).congr (fun r hr _ => hkept hr) (hgone hid) rfl (List.Subset.refl _)
    | releasing first =>
      rw [hphase] at hledger
      obtain ⟨hnone, probe, rest, s, hbatch, hfirst, hwritten, hone, hrest⟩ := hledger
      have hid : probe.id ∈ claimedIds log := by
        rw [claimedIds, hbatch]
        exact List.mem_cons_self
      exact ⟨hnone, probe, rest, s, hbatch, hfirst,
        hwritten.congr (fun r hr _ => hkept hr) (hgone hid) (List.Subset.refl _), hone,
        fun row hrow => huntold (hrest row hrow)⟩
    | recording outcomes =>
      rw [hphase] at hledger
      exact hledger.imp_right hcounted
    | aborting cause terminalEventSent notBefore | failing cause notBefore =>
      rw [hphase] at hledger
      exact hledger
    | recorded result notBefore | reporting result notBefore | reported notBefore
    | finishing notBefore | finished =>
      rw [hphase] at hledger
      obtain ⟨outcomes, now, hreports, h⟩ := hledger
      exact ⟨outcomes, now, hreports, hcounted h⟩

/-- A step that changes no row. -/
theorem move (hB : Books before w c log) (htable : w'.table = w.table)
    (hissued : w'.issued = w.issued) {new : List Deed} (hbatch : batch new = [])
    (hledger : ∃ events, w'.events = before.events ++ events ∧
      c'.Ledger w.table events (log ++ new)) : Books before w' c' (log ++ new) := by
  have hsame : claimedIds (log ++ new) = claimedIds log := by
    rw [claimedIds, batch_append, hbatch, List.append_nil, claimedIds]
  refine ⟨hissued ▸ hB.issued_mono, fun id hid => hissued ▸ hB.issued id (hsame ▸ hid),
    hsame ▸ hB.nodup, ?_, ?_⟩
  · rw [htable]
    refine hB.aside.congr (hsame ▸ List.Subset.refl _) (List.mem_append_left _)
      (fun r hr _ => hr) fun r hr _ => .inl hr
  · rwa [htable]

/-- The claim of the batch. -/
theorem claim (hB : Books before w c log) (hphase : c.phase = .claiming)
    (hissued : ∀ id ∈ w.table.keys, id ∈ w.issued) :
    Books before
      { w with
        table := (SyncItemDao.claimPending c.startedAt (Cycle.batchSize c.options) w.table).1 }
      { c with
        phase :=
          .claimed (SyncItemDao.claimPending c.startedAt (Cycle.batchSize c.options) w.table).2 }
      (log ++ c.deeds w .claim) := by
  obtain ⟨events, hsince, hledger⟩ := hB.ledger
  rw [Cycle.Ledger, hphase] at hledger
  obtain ⟨hlog, hnothing⟩ := hledger
  subst hlog
  have hbatch : batch ([] ++ c.deeds w .claim) =
      (SyncItemDao.claimPending c.startedAt (Cycle.batchSize c.options) w.table).2 :=
    List.append_nil _
  have hclaims : claimedIds ([] ++ c.deeds w .claim) =
      (SyncItemDao.claimPending c.startedAt (Cycle.batchSize c.options) w.table).2.map (·.id) := by
    rw [claimedIds, hbatch]
  refine ⟨hB.issued_mono, fun id hid => ?_, ?_, ?_, events, hsince, hbatch, rfl, fun row hrow => ?_⟩
  · rw [hclaims] at hid
    obtain ⟨row, hrow, rfl⟩ := List.mem_map.mp hid
    exact hissued row.id (KeyedTable.key_mem_keys (SyncItemDao.selectClaimable_subset hrow).1)
  · rw [hclaims]
    exact SyncItemDao.selectClaimable_nodup ..
  · refine hB.aside.congr (List.nil_subset _) (by simp) (fun r hr hid => ?_) fun r hr hid => ?_
    · rw [hclaims] at hid
      exact (SyncItemDao.mem_claimPending_iff_of_notMem hid).mpr hr
    · rw [hclaims] at hid
      exact .inl ((SyncItemDao.mem_claimPending_iff_of_notMem hid).mp hr)
  · exact ⟨SyncItemDao.mem_claimPending hrow, hnothing row.id⟩

/-- The dispatch of one row. -/
theorem dispatch_step (hB : Books before w c log) {probing : Bool} {ds : List Dispatch} {i : Nat}
    {dev : DispatchEvent} {d d' : Dispatch} (hphase : c.phase = .dispatching probing ds)
    (hstart : dev.isStart = true → Cycle.mayStart probing cancelled i = true) (hi : ds[i]? = some d)
    (hev : ∀ message, dev ≠ .crash message)
    (hstep : d.step accepts live c.options c.credentials w dev = some (w', d')) :
    Books before w' { c with phase := .dispatching probing (ds.set i d') }
      (log ++ d.deeds c.options c.credentials dev) := by
  obtain ⟨events, hsince, hledger⟩ := hB.ledger
  rw [Cycle.Ledger, hphase] at hledger
  obtain ⟨hbatch, hnone, hbooked, hqueued⟩ := hledger
  obtain ⟨hentity, hkept, hold⟩ := Dispatch.step_frame hstep
  have hmem : d ∈ ds := List.mem_of_getElem? hi
  have hkinds : batch (d.deeds c.options c.credentials dev) = [] ∧
      reports (d.deeds c.options c.credentials dev) = [] ∧
      .released ∉ d.deeds c.options c.credentials dev := by
    unfold Dispatch.deeds
    split <;> exact ⟨rfl, rfl, by simp⟩
  have hbatch' : batch (log ++ d.deeds c.options c.credentials dev) = batch log := by
    rw [batch_append, hkinds.1, List.append_nil]
  have hids : (ds.map (·.entity.id)).Nodup := by
    have := hB.nodup
    rw [claimedIds, hbatch, List.map_map] at this
    exact this
  have hclaimed : d.entity.id ∈ claimedIds log := by
    rw [claimedIds, hbatch]
    exact List.mem_map_of_mem (List.mem_map_of_mem hmem)
  have hissued : w'.issued = w.issued := (Dispatch.step_spec hstep).issued
  obtain ⟨new, hnew, hothers, hbooked'⟩ := Dispatch.booked_step (hbooked d hmem) hev hstep
  refine ⟨hissued ▸ hB.issued_mono, fun id hid => ?_, ?_, ?_, events ++ new, ?_, ?_, ?_,
    fun x hx => ?_, fun hprobing => ?_⟩
  · rw [claimedIds, hbatch'] at hid
    exact hissued ▸ hB.issued id hid
  · rw [claimedIds, hbatch']
    exact hB.nodup
  · -- a row that is not claimed is of another item
    have hne {r : SyncItemEntity}
        (hid : r.id ∉ claimedIds (log ++ d.deeds c.options c.credentials dev)) :
        r.id ≠ d.entity.id := by
      rw [claimedIds, hbatch'] at hid
      rintro heq
      exact hid (heq ▸ hclaimed)
    refine hB.aside.congr ?_ (List.mem_append_left _) (fun r hr hid => hkept r hr (hne hid))
      fun r hr hid => .inl (hold r hr (hne hid))
    rw [claimedIds, claimedIds, hbatch']
    exact List.Subset.refl _
  · rw [hnew, hsince, List.append_assoc]
  · rw [hbatch', hbatch, Cycle.map_entity_set hi hentity]
  · rw [reports_append, hnone, hkinds.2.1, List.append_nil]
  · rcases Cycle.mem_set_cases hids hi hx with rfl | ⟨hx, hne⟩
    · exact hbooked'
    · refine (hbooked x hx).congr (fun r hr heq => hkept r hr (heq ▸ hne)) (fun hnot hin => ?_) ?_
        (List.subset_append_left _ _)
      · obtain ⟨r, hr, heq⟩ := KeyedTable.mem_keys.mp hin
        exact hnot (heq ▸ KeyedTable.key_mem_keys (hold r hr (heq ▸ hne)))
      · rw [itemEvents_append, hothers _ hne, List.append_nil]
  · subst hprobing
    exact tail_queued_set (hqueued rfl) hstart hi hstep

/-- The report of a cycle. -/
theorem record {outcomes : List ItemOutcome} {now : Int} (hB : Books before w c log)
    (hphase : c.phase = .recording outcomes) :
    Books before { w with results := w.results ++ [Cycle.buildResult c.startedAt now outcomes] }
      { c with
        phase := .recorded (Cycle.buildResult c.startedAt now outcomes) (Cycle.holdOf outcomes) }
      (log ++ c.deeds w (.record now)) := by
  have hdeeds : c.deeds w (.record now) =
      [.reported (Cycle.buildResult c.startedAt now outcomes)] := by
    simp only [Cycle.deeds, hphase]
  obtain ⟨events, hsince, hledger⟩ := hB.ledger
  rw [Cycle.Ledger, hphase] at hledger
  obtain ⟨hnone, hcounted⟩ := hledger
  have hnew : batch [.reported (Cycle.buildResult c.startedAt now outcomes)] = [] := rfl
  rw [hdeeds]
  refine hB.move ?_ ?_ hnew ⟨events, ?_, outcomes, now, ?_, ?_⟩
  · rfl
  · rfl
  · exact hsince
  · rw [reports_append, hnone]
    rfl
  · refine hcounted.congr ?_ (List.subset_append_left _ _) (fun id => rfl) (fun r hr _ => hr)
      fun id _ hnot => hnot
    rw [batch_append]
    exact List.append_nil _

/-- The release of the batch after its probe. -/
theorem release {first : ItemOutcome} (hB : Books before w c log)
    (hphase : c.phase = .releasing first) :
    Books before w.resetInFlight { c with phase := .recording [first] }
      (log ++ c.deeds w .release) := by
  obtain ⟨events, hsince, hledger⟩ := hB.ledger
  rw [Cycle.Ledger, hphase] at hledger
  obtain ⟨hnone, probe, rest, s, hbatch, rfl, hwritten, hone, hrest⟩ := hledger
  have hdeeds : c.deeds w .release = [.released] := rfl
  have hclaims : claimedIds (log ++ [.released]) = claimedIds log := by
    rw [claimedIds, batch_append]
    exact congrArg (List.map SyncItemEntity.id) (List.append_nil _)
  rw [hdeeds]
  refine ⟨hB.issued_mono, fun id hid => hB.issued id (hclaims ▸ hid), hclaims ▸ hB.nodup, ?_,
    events, hsince, ?_, .of_release hbatch hB.nodup hwritten hone hrest⟩
  · exact hB.aside.release hclaims (List.mem_append_right _ (List.mem_singleton_self _))
  · rw [reports_append, hnone]
    rfl

/-- A step of a cycle whose storage works and which is not cancelled. -/
theorem cycle_step (hB : Books before w c log) (hissued : ∀ id ∈ w.table.keys, id ∈ w.issued)
    (hthrow : ev ≠ .throw) (hraise : ∀ code, ev ≠ .raise code)
    (hcrash : ∀ i message, ev ≠ .dispatch i (.crash message))
    (h : c.step accepts live cancelled w ev = some (w', c')) :
    Books before w' c' (log ++ c.deeds w ev) := by
  obtain ⟨phase, rfl, hmoves⟩ := Cycle.step_moves h
  obtain ⟨events, hsince, hledger⟩ := hB.ledger
  unfold Cycle.Ledger at hledger
  -- a step that logs nothing and changes no row
  have quiet (hnone : c.deeds w ev = []) (htable : w'.table = w.table)
      (hissued : w'.issued = w.issued) (hledger : ∃ events, w'.events = before.events ++ events ∧
        Cycle.Ledger w.table { c with phase := phase } events log) :
      Books before w' { c with phase := phase } (log ++ c.deeds w ev) := by
    rw [hnone]
    refine hB.move htable hissued rfl ?_
    rwa [List.append_nil]
  cases hmoves with
  | claim hphase => exact hB.claim hphase hissued
  | @dispatch probing ds i dev d d' w' hphase hstart hi hstep =>
    have hdeeds : c.deeds w (.dispatch i dev) = d.deeds c.options c.credentials dev := by
      simp only [Cycle.deeds, hphase, hi]
    rw [hdeeds]
    refine hB.dispatch_step hphase hstart hi (fun message heq => ?_) hstep
    exact hcrash i message (by rw [heq])
  | record hphase => exact hB.record hphase
  | release hphase => exact hB.release hphase
  | emitStarted hphase =>
    rw [hphase] at hledger
    refine quiet rfl rfl rfl ⟨events ++ [{ type := .SYNC_STARTED }], ?_, hledger.1, fun id => ?_⟩
    · rw [← List.append_assoc, ← hsince]
      rfl
    · rw [itemEvents_append, hledger.2 id]
      rfl
  | resumeEmpty hphase =>
    rw [hphase] at hledger
    obtain ⟨hbatch, hnone, -⟩ := hledger
    refine quiet rfl rfl rfl ⟨events, hsince, hnone, List.nodup_nil, by simp, fun row hrow => ?_⟩
    rw [hbatch] at hrow
    cases hrow
  | @resumeClaimed rows hphase hsome =>
    rw [hphase] at hledger
    obtain ⟨hbatch, hnone, huntold⟩ := hledger
    refine quiet rfl rfl rfl ⟨events, hsince, ?_, hnone, fun d hd => ?_, fun _ d hd => ?_⟩
    · rw [hbatch, List.map_map]
      exact (List.map_id rows).symm
    · obtain ⟨row, hrow, rfl⟩ := List.mem_map.mp hd
      exact huntold row hrow
    · obtain ⟨row, -, rfl⟩ := List.mem_map.mp (List.mem_of_mem_tail hd)
      rfl
  | @probeRejected ds id nextRetryAt hphase hhead =>
    rw [hphase] at hledger
    obtain ⟨hbatch, hnone, hbooked, hqueued⟩ := hledger
    cases ds with
    | nil => cases hhead
    | cons d ds =>
      have hdone := hbooked d List.mem_cons_self
      rw [Dispatch.Booked, Dispatch.done_of_outcome hhead] at hdone
      obtain ⟨s, hwritten, hone, hfirst⟩ := hdone
      refine quiet rfl rfl rfl ⟨events, hsince, hnone, d.entity, ds.map Dispatch.entity, s, hbatch,
        hfirst, hwritten, hone, fun row hrow => ?_⟩
      obtain ⟨x, hx, rfl⟩ := List.mem_map.mp hrow
      have hxB := hbooked x (List.mem_cons_of_mem _ hx)
      rwa [Dispatch.Booked, hqueued rfl x hx] at hxB
  | @probePassed ds outcome hphase hhead hpassed =>
    rw [hphase] at hledger
    obtain ⟨hbatch, hnone, hbooked, -⟩ := hledger
    exact quiet rfl rfl rfl ⟨events, hsince, hbatch, hnone, hbooked, by simp⟩
  | join hphase hlive houtcomes =>
    rw [hphase] at hledger
    obtain ⟨hbatch, hnone, hbooked, -⟩ := hledger
    exact quiet rfl rfl rfl ⟨events, hsince, hnone, .of_join hbatch hB.nodup hbooked houtcomes⟩
  | @emitTerminal result notBefore hphase =>
    rw [hphase] at hledger
    obtain ⟨outcomes, now, hreports, hcounted⟩ := hledger
    refine quiet rfl rfl rfl
      ⟨events ++ [Cycle.terminalEvent result], ?_, outcomes, now, hreports, ?_⟩
    · rw [← List.append_assoc, ← hsince]
      rfl
    · refine hcounted.congr rfl (List.Subset.refl _) (fun id => ?_) (fun r hr _ => hr)
        fun id _ hnot => hnot
      rw [itemEvents_append, itemEvents_of_ne (by simp [Cycle.terminalEvent]), List.append_nil]
  | resumeRecorded hphase | resumeReported hphase | finish hphase =>
    rw [hphase] at hledger
    exact quiet rfl rfl rfl ⟨events, hsince, hledger⟩
  | throw => exact absurd rfl hthrow
  | raise => exact absurd rfl (hraise _)
  | abort hphase | abortReported hphase | emitFailed hphase =>
    rw [hphase] at hledger
    exact hledger.elim

end Books

/-! ## 4. The end of a cycle -/

/-- The classes of the rows of a batch: where the row is in the end, whether the
result lists it, and what was said about it. -/
inductive Class (t : SyncItems) (events : List SyncEvent) (log : List Deed) (result : SyncResult)
    (row : SyncItemEntity) : Prop where
  | deleted (hrow : row.id ∉ t.keys) (hsucceeded : row.id ∈ result.succeededIds)
      (hfailed : row.id ∉ result.failedIds) (hevents : itemEvents row.id events = [.ITEM_SUCCEEDED])
  | failed (hrow : ∃ r ∈ t.rows, r.id = row.id ∧ r.status = .FAILED)
      (hsucceeded : row.id ∉ result.succeededIds) (hfailed : row.id ∈ result.failedIds)
      (hevents : itemEvents row.id events = [.ITEM_FAILED])
  /-- The cooldown is the one that its settlement set. -/
  | waits (s : Settlement) (attempts lastAttemptAt : Int) (code : SyncErrorCode)
      (nextRetryAt : Int) (hset : .settled row s ∈ log)
      (hwrite : s.write = .markRetry row.id attempts lastAttemptAt code nextRetryAt)
      (hrow : ∃ r ∈ t.rows, r.id = row.id ∧ r.status = .PENDING ∧ r.nextRetryAt = nextRetryAt)
      (hsucceeded : row.id ∉ result.succeededIds) (hfailed : row.id ∉ result.failedIds)
      (hevents : itemEvents row.id events = [.ITEM_RETRYING])
  | released (hreleased : .released ∈ log) (hrow : { row with status := .PENDING } ∈ t.rows)
      (hsucceeded : row.id ∉ result.succeededIds) (hfailed : row.id ∉ result.failedIds)
      (hevents : itemEvents row.id events = [])

/-- The result of a cycle, compared with its log, the rows and the events. -/
structure Accounts (before : World) (t : SyncItems) (events : List SyncEvent) (log : List Deed)
    (result : SyncResult) : Prop where
  nodup : (claimedIds log).Nodup
  rows : ∀ row ∈ batch log, Class t events log result row
  succeeded_iff : ∀ id, id ∈ result.succeededIds ↔ id ∈ claimedIds log ∧ id ∉ t.keys
  failed_iff : ∀ id, id ∈ result.failedIds ↔
    id ∈ claimedIds log ∧ ∃ r ∈ t.rows, r.id = id ∧ r.status = .FAILED
  distinct : (result.succeededIds ++ result.failedIds).Nodup
  successCount : result.successCount = result.succeededIds.length
  failureCount : result.failureCount = result.failedIds.length
  errors : ∀ id ∈ result.failedIds, ∃ text, (id, text) ∈ result.errors
  others : Aside before t log

theorem mem_succeededIds {startedAt finishedAt : Int} {outcomes : List ItemOutcome} {id : String} :
    id ∈ (Cycle.buildResult startedAt finishedAt outcomes).succeededIds ↔
      ∃ statusCode, .succeeded id statusCode ∈ outcomes := by
  simp only [Cycle.buildResult, List.mem_filterMap]
  constructor
  · rintro ⟨outcome, houtcome, heq⟩
    cases outcome <;> cases heq
    exact ⟨_, houtcome⟩
  · rintro ⟨statusCode, h⟩
    exact ⟨_, h, rfl⟩

theorem exists_error {startedAt finishedAt : Int} {outcomes : List ItemOutcome} {id : String}
    (h : id ∈ (Cycle.buildResult startedAt finishedAt outcomes).failedIds) :
    ∃ text, (id, text) ∈ (Cycle.buildResult startedAt finishedAt outcomes).errors := by
  obtain ⟨q, hq, rfl⟩ := List.mem_map.mp h
  exact ⟨q.2, hq⟩

theorem filterMap_sublist_map {α β : Type} {f : α → Option β} {g : α → β}
    (h : ∀ a b, f a = some b → b = g a) (xs : List α) :
    (xs.filterMap f).Sublist (xs.map g) := by
  induction xs with
  | nil => exact .slnil
  | cons x xs ih =>
    rw [List.map_cons]
    cases hx : f x with
    | none =>
      rw [List.filterMap_cons_none hx]
      exact ih.cons _
    | some b =>
      rw [List.filterMap_cons_some hx, h x b hx]
      exact ih.cons_cons _

namespace Counted

variable {t : SyncItems} {events : List SyncEvent} {log : List Deed} {outcomes : List ItemOutcome}
  {startedAt finishedAt : Int} {row : SyncItemEntity} {s : Settlement}

/-- The lists of the result are made of distinct ids. -/
theorem distinct (hC : Counted t events log outcomes) :
    ((Cycle.buildResult startedAt finishedAt outcomes).succeededIds ++
      (Cycle.buildResult startedAt finishedAt outcomes).failedIds).Nodup := by
  refine List.nodup_append.mpr ⟨?_, ?_, fun id hid id' hid' heq => ?_⟩
  · refine hC.nodup.sublist (filterMap_sublist_map (fun outcome id h => ?_) outcomes)
    cases outcome <;> cases h
    rfl
  · dsimp only [Cycle.buildResult]
    rw [List.map_filterMap]
    refine hC.nodup.sublist (filterMap_sublist_map (fun outcome id h => ?_) outcomes)
    cases outcome <;> cases h
    rfl
  · subst heq
    obtain ⟨statusCode, h⟩ := mem_succeededIds.mp hid
    obtain ⟨code, message, h'⟩ := mem_failedIds.mp hid'
    cases List.inj_on_of_nodup_map hC.nodup h h' rfl

/-- A row that was settled is listed as its outcome says. -/
theorem succeeded_iff (hC : Counted t events log outcomes) (startedAt finishedAt : Int)
    (hexit : Exit row s) (hs : s.outcome ∈ outcomes) :
    row.id ∈ (Cycle.buildResult startedAt finishedAt outcomes).succeededIds ↔
      ∃ statusCode, s.outcome = .succeeded row.id statusCode := by
  rw [mem_succeededIds]
  refine exists_congr fun statusCode => ⟨fun h => ?_, fun h => h ▸ hs⟩
  exact List.inj_on_of_nodup_map hC.nodup hs h hexit.outcome_itemId

theorem failed_iff (hC : Counted t events log outcomes) (startedAt finishedAt : Int)
    (hexit : Exit row s) (hs : s.outcome ∈ outcomes) :
    row.id ∈ (Cycle.buildResult startedAt finishedAt outcomes).failedIds ↔
      ∃ code message, s.outcome = .failed row.id code message := by
  rw [mem_failedIds]
  refine exists_congr fun code => exists_congr fun message => ⟨fun h => ?_, fun h => h ▸ hs⟩
  exact List.inj_on_of_nodup_map hC.nodup hs h hexit.outcome_itemId

/-- A claimed row is in one of the classes. -/
theorem class_of_mem (hC : Counted t events log outcomes) (hrow : row ∈ batch log) :
    Class t events log (Cycle.buildResult startedAt finishedAt outcomes) row := by
  cases hC.rows row hrow with
  | released hreleased hpending hnothing hnone =>
    refine .released hreleased hpending (fun h => ?_) (fun h => ?_) hnothing
    · obtain ⟨statusCode, h⟩ := mem_succeededIds.mp h
      exact hnone _ h rfl
    · obtain ⟨code, message, h⟩ := mem_failedIds.mp h
      exact hnone _ h rfl
  | settled s hwritten hone houtcome =>
    obtain ⟨hexit, hlogged, hholds⟩ := hwritten
    have hsucceeded := hC.succeeded_iff startedAt finishedAt hexit houtcome
    have hfailed := hC.failed_iff startedAt finishedAt hexit houtcome
    cases hexit with
    | refused | failed =>
      obtain ⟨r, hr, hid, hstatus, -⟩ := hholds
      refine .failed ⟨r, hr, hid, hstatus⟩ (fun h => ?_) (hfailed.mpr ⟨_, _, rfl⟩) hone
      obtain ⟨statusCode, heq⟩ := hsucceeded.mp h
      cases heq
    | succeeded =>
      refine .deleted hholds (hsucceeded.mpr ⟨_, rfl⟩) (fun h => ?_) hone
      obtain ⟨code, message, heq⟩ := hfailed.mp h
      cases heq
    | held | rescheduled =>
      obtain ⟨r, hr, hid, hstatus, -, hnext⟩ := hholds
      refine .waits _ _ _ _ _ hlogged rfl ⟨r, hr, hid, hstatus, hnext⟩ (fun h => ?_) (fun h => ?_)
        hone
      · obtain ⟨statusCode, heq⟩ := hsucceeded.mp h
        cases heq
      · obtain ⟨code, message, heq⟩ := hfailed.mp h
        cases heq

/-- The account of a cycle that has reported. -/
theorem accounts {before : World} (hC : Counted t events log outcomes)
    (hN : (claimedIds log).Nodup) (hA : Aside before t log) :
    Accounts before t events log (Cycle.buildResult startedAt finishedAt outcomes) := by
  have hclass {id : String} (hid : id ∈ claimedIds log) : ∃ row, row.id = id ∧
      Class t events log (Cycle.buildResult startedAt finishedAt outcomes) row := by
    obtain ⟨row, hrow, hid⟩ := List.mem_map.mp hid
    exact ⟨row, hid, hC.class_of_mem hrow⟩
  have hkey {r row : SyncItemEntity} {p : Prop} (hr : r ∈ t.rows) (hid : r.id = row.id)
      (hgone : row.id ∉ t.keys) : p :=
    absurd (hid ▸ KeyedTable.key_mem_keys hr) hgone
  refine ⟨hN, fun row hrow => hC.class_of_mem hrow, fun id => ⟨fun h => ?_, fun h => ?_⟩,
    fun id => ⟨fun h => ?_, fun h => ?_⟩, hC.distinct, rfl, ?_, fun id => exists_error, hA⟩
  · obtain ⟨statusCode, houtcome⟩ := mem_succeededIds.mp h
    have hid := hC.claimed _ houtcome
    obtain ⟨row, rfl, hrow⟩ := hclass hid
    cases hrow with
    | deleted hgone => exact ⟨hid, hgone⟩
    | failed _ hnot | waits _ _ _ _ _ _ _ _ hnot | released _ _ hnot => exact absurd h hnot
  · obtain ⟨row, rfl, hrow⟩ := hclass h.1
    cases hrow with
    | deleted _ hsucceeded => exact hsucceeded
    | failed hrow | waits _ _ _ _ _ _ _ hrow =>
      obtain ⟨r, hr, hid, -⟩ := hrow
      exact hkey hr hid h.2
    | released _ hrow => exact hkey hrow rfl h.2
  · obtain ⟨code, message, houtcome⟩ := mem_failedIds.mp h
    have hid := hC.claimed _ houtcome
    obtain ⟨row, rfl, hrow⟩ := hclass hid
    cases hrow with
    | failed hrow => exact ⟨hid, hrow⟩
    | deleted _ _ hnot | waits _ _ _ _ _ _ _ _ _ hnot | released _ _ _ hnot => exact absurd h hnot
  · obtain ⟨hid, r, hr, hrid, hstatus⟩ := h
    obtain ⟨row, rfl, hrow⟩ := hclass hid
    have hsame {r' : SyncItemEntity} (hr' : r' ∈ t.rows) (hid' : r'.id = row.id) : r' = r :=
      KeyedTable.eq_of_key_eq hr' hr (hid'.trans hrid.symm)
    cases hrow with
    | failed _ _ hfailed => exact hfailed
    | deleted hgone => exact hkey hr hrid hgone
    | waits _ _ _ _ _ _ _ hrow =>
      obtain ⟨r', hr', hid', hpending, -⟩ := hrow
      rw [hsame hr' hid', hstatus] at hpending
      cases hpending
    | released _ hrow =>
      rw [← hsame hrow rfl] at hstatus
      cases hstatus
  · exact (List.length_map _).symm

end Counted

namespace Engine

variable {accepts : HttpRequest → Bool} {e e' : Engine} {t : Nat} {l : Label}

/-- The cycle of caller `t`, with its log. -/
structure Audited (before : World) (t : Nat) (p : Engine × List Deed) : Prop where
  inv : Inv p.1
  cycle : ∃ c, (p.1.calls t).state = .cycle c ∧ Books before p.1.world c p.2

theorem Audited.step {before : World} {p p' : Engine × List Deed} (hA : Audited before t p)
    (hl : Steady t l ∧ l ≠ .cycle t .throw)
    (h : StepSystem.recorded (Engine.step accepts) (deeds t) p l = some p') :
    Audited before t p' := by
  obtain ⟨e, log⟩ := p
  obtain ⟨e', log'⟩ := p'
  obtain ⟨hstep, rfl⟩ := StepSystem.recorded_eq_some.mp h
  have hstep : e.step accepts l = some e' := hstep
  obtain ⟨hI, c, hc, hbooks⟩ := hA
  have hI : Inv e := hI
  have hc : (e.calls t).state = .cycle c := hc
  refine ⟨hI.step hstep, ?_⟩
  by_cases hcycle : ∃ ev, l = .cycle t ev
  · obtain ⟨ev, rfl⟩ := hcycle
    obtain ⟨d, w, c', hd, hcstep, rfl⟩ := step_cycle hstep
    obtain rfl := cycle_unique hc hd
    refine ⟨c', state_setState e t _, ?_⟩
    show Books before w c' (log ++ deeds t e (.cycle t ev))
    rw [deeds_of_cycle hc]
    refine hbooks.cycle_step hI.keys_issued ?_ ?_ ?_ hcstep
    · rintro rfl
      exact hl.2 rfl
    · rintro code rfl
      exact hl.1 rfl
    · rintro i message rfl
      exact hl.1 rfl
  · have hother : ∀ ev, l ≠ .cycle t ev := fun ev heq => hcycle ⟨ev, heq⟩
    have hunlock : l ≠ .unlock t := by
      rintro rfl
      exact hl.1 rfl
    have hbeside := step_beside hI.exclusive hc hother hunlock hstep
    obtain ⟨items, hrows, hnew⟩ := rows_steady hI.exclusive hc hl.1 hbeside.label hstep
    refine ⟨c, hbeside.state, ?_⟩
    show Books before e'.world c (log ++ deeds t e l)
    rw [deeds_of_other hbeside.label, List.append_nil]
    exact hbooks.beside hrows hnew (outbox_step hstep).issued_mono hbeside.events

/-- For every cycle, in any process, beside any other calls, for every batch and
every combination of outcomes, when no storage operation of it throws, no
cancellation strikes it and no row is removed: the claimed rows are those that
were deleted, exactly the ones reported as succeeded, those that failed, exactly
the ones reported as failed, each with an error, those that wait until a moment
the cycle has set, and those released after a rejected credential, which are as
they were. One event says which, and none for a released row. All other rows are
as they were, but a release also puts back the rows that were in flight before. -/
theorem batch_accounts {e₀ e₁ e₂ : Engine} {ls₀ ls : List Label} {now : Int} {c : Cycle}
    {log : List Deed} (h : Boot e₀) (h₀ : StepSystem.exec (step accepts) e₀ ls₀ = some e)
    (hbegin : e.step accepts (.begin t now) = some e₁) (hsteady : ∀ l ∈ ls, Steady t l)
    (hlive : .cycle t .throw ∉ ls)
    (hrun : StepSystem.exec (StepSystem.recorded (step accepts) (deeds t)) (e₁, []) ls =
      some (e₂, log))
    (hc : (e₂.calls t).state = .cycle c) (hfinished : c.phase = .finished) :
    ∃ result events, reports log = [result] ∧ e₂.world.events = e₁.world.events ++ events ∧
      Accounts e₁.world e₂.world.table events log result := by
  have hI : Inv e := StepSystem.exec_invariant (fun hI hs => hI.step hs) h.inv h₀
  have hstart : Audited e₁.world t (e₁, []) := by
    refine ⟨hI.step hbegin, ?_⟩
    simp only [step] at hbegin
    split at hbegin <;> cases hbegin
    exact ⟨_, state_setState e t _, List.Subset.refl _, fun id hid => absurd hid List.not_mem_nil,
      List.nodup_nil, .refl _, [], (List.append_nil _).symm, rfl, fun id => rfl⟩
  have hmeets : StepSystem.Meets (StepSystem.recorded (step accepts) (deeds t))
      (fun _ l => Steady t l ∧ l ≠ .cycle t .throw) (e₁, []) ls :=
    StepSystem.meets_of_forall fun l hl => ⟨hsteady l hl, fun heq => hlive (heq ▸ hl)⟩
  obtain ⟨-, d, hd, hbooks⟩ :=
    StepSystem.exec_invariant_of_meets (fun hA hl hs => hA.step hl hs) hstart hmeets hrun
  obtain rfl := cycle_unique hc hd
  obtain ⟨events, hsince, hledger⟩ := hbooks.ledger
  rw [Cycle.Ledger, hfinished] at hledger
  obtain ⟨outcomes, finishedAt, hreports, hcounted⟩ := hledger
  exact ⟨_, events, hreports, hsince, hcounted.accounts hbooks.nodup hbooks.aside⟩

section Sample

/-- A process whose last one ended while the row B was in flight. -/
def afterDeath : Engine :=
  { coldStart .PERSISTED with
    world :=
      { (coldStart .PERSISTED).world with
        table :=
          { rows := [{ (SyncQueueStorage.sampleItem "B").entity with status := .IN_FLIGHT }]
            nodup := List.nodup_singleton _ }
        issued := ["B"] } }

theorem afterDeath_boot : Boot afterDeath :=
  ⟨rfl, rfl, rfl, rfl, fun _ => rfl⟩

/-- Three requests: one is delivered, one fails for good, one is to be repeated. -/
def threeWayRun : List Label :=
  batchRun ++ exchangeRun 0 (.response 200) ++ exchangeRun 1 (.response 400) ++
    exchangeRun 2 (.response 503) ++ [.cycle 0 .join] ++ reportRun

/-- The cycle claims A, whose credential is rejected, and puts B back. -/
theorem release_changes_other_row :
    Boot afterDeath ∧ ∃ e e₁ e₂ log c, StepSystem.exec (step fun _ => true) afterDeath
        (admitRun [SyncQueueStorage.sampleItem "A"]) = some e ∧
      e.step (fun _ => true) (.begin 0 2000) = some e₁ ∧
      (∀ l ∈ rejectedProbeRun, Steady 0 l) ∧ .cycle 0 .throw ∉ rejectedProbeRun ∧
      StepSystem.exec (StepSystem.recorded (step fun _ => true) (deeds 0)) (e₁, [])
        rejectedProbeRun = some (e₂, log) ∧
      (e₂.calls 0).state = .cycle c ∧ c.phase = .finished ∧ claimedIds log = ["A"] ∧
      e₁.world.table.rows.map (fun r => (r.id, r.status)) = [("B", .IN_FLIGHT), ("A", .PENDING)] ∧
      e₂.world.table.rows.map (fun r => (r.id, r.status)) = [("B", .PENDING), ("A", .PENDING)] := by
  obtain ⟨e, e₁, he, he₁, hrows, htrace⟩ : ∃ e e₁,
      StepSystem.exec (step fun _ => true) afterDeath
        (admitRun [SyncQueueStorage.sampleItem "A"]) = some e ∧
      e.step (fun _ => true) (.begin 0 2000) = some e₁ ∧
      e₁.world.table.rows.map (fun r => (r.id, r.status)) = [("B", .IN_FLIGHT), ("A", .PENDING)] ∧
      (StepSystem.exec (StepSystem.recorded (step fun _ => true) (deeds 0)) (e₁, [])
        rejectedProbeRun).map (fun p => (p.1.isFinished, claimedIds p.2,
          p.1.world.table.rows.map (fun r => (r.id, r.status)))) =
        some (true, ["A"], [("B", .PENDING), ("A", .PENDING)]) :=
    ⟨_, _, rfl, rfl, rfl, by decide +kernel⟩
  obtain ⟨⟨e₂, log⟩, hrun, hseen⟩ := Option.map_eq_some_iff.mp htrace
  simp only [Prod.mk.injEq] at hseen
  obtain ⟨hfinished, hclaimed, hrows'⟩ := hseen
  obtain ⟨c, hc, hphase⟩ := exists_finished hfinished
  exact ⟨afterDeath_boot, e, e₁, e₂, log, c, he, he₁, by decide, by decide, hrun, hc, hphase,
    hclaimed, hrows, hrows'⟩

theorem batch_accounts_three_ways :
    ∃ e₁ e₂ log result events,
      StepSystem.exec (StepSystem.recorded (step fun _ => true) (deeds 0)) (e₁, [])
        threeWayRun = some (e₂, log) ∧
      claimedIds log = ["A", "B", "C"] ∧ reports log = [result] ∧ result.succeededIds = ["A"] ∧
      result.failedIds = ["B"] ∧ Accounts e₁.world e₂.world.table events log result := by
  obtain ⟨e, e₁, he, he₁, htrace⟩ : ∃ e e₁,
      StepSystem.exec (step fun _ => true) (coldStart .TRUSTED)
        (admitRun [SyncQueueStorage.sampleItem "A", SyncQueueStorage.sampleItem "B",
          SyncQueueStorage.sampleItem "C"]) = some e ∧
      e.step (fun _ => true) (.begin 0 2000) = some e₁ ∧
      (StepSystem.exec (StepSystem.recorded (step fun _ => true) (deeds 0)) (e₁, [])
        threeWayRun).map (fun p => (p.1.isFinished, claimedIds p.2,
          (reports p.2).map (·.succeededIds), (reports p.2).map (·.failedIds))) =
        some (true, ["A", "B", "C"], [["A"]], [["B"]]) :=
    ⟨_, _, rfl, rfl, by decide +kernel⟩
  obtain ⟨⟨e₂, log⟩, hrun, hseen⟩ := Option.map_eq_some_iff.mp htrace
  simp only [Prod.mk.injEq] at hseen
  obtain ⟨hfinished, hclaimed, hsucceeded, hfailed⟩ := hseen
  obtain ⟨c, hc, hphase⟩ := exists_finished hfinished
  obtain ⟨result, events, hreports, -, haccounts⟩ :=
    batch_accounts (coldStart_boot .TRUSTED) he he₁ (by decide) (by decide) hrun hc hphase
  rw [hreports] at hsucceeded hfailed
  exact ⟨e₁, e₂, log, result, events, hrun, hclaimed, hreports, List.singleton_inj.mp hsucceeded,
    List.singleton_inj.mp hfailed, haccounts⟩

end Sample

end Engine

end SyncProvider.Android
