import SyncProvider.Ios.Dispatcher
import SyncProvider.Ios.Selection

/-!
# iOS: first in, first out

Here too `createdAt` is a reading of the wall clock in milliseconds and the only
trace of the order in which items were enqueued. The stored items have no other.

Results:
1. `arrivals_exec` : what a run of the engine does to what was fixed at an enqueue.
2. `fifo_iff` : for which readings the queue is first in, first out.
-/

namespace SyncProvider.Ios

open SyncQueueStorage (NewItem RemoveCall)

/-! ## The model -/

/-- What of a stored item is fixed when it is enqueued. -/
structure Arrival where
  id : String
  priority : String
  createdAt : Int

def StoredSyncItem.arrival (r : StoredSyncItem) : Arrival where
  id := r.id
  priority := r.priority
  createdAt := r.createdAt

def arrivals (t : StoredItems) : List Arrival := t.rows.map (·.arrival)

/-- The items a step enqueues. -/
def Label.enqueued : Label → List NewItem
  | .enqueue items => items
  | _ => []

/-- The items a run enqueues, in order. -/
def enqueuedBy (ls : List Label) : List NewItem := ls.flatMap Label.enqueued

/-- The clock does not go back from one item to the next, and goes on between any
two of one priority. -/
def Ascending (items : List NewItem) : Prop :=
  items.Pairwise fun a b =>
    a.nowMs ≤ b.nowMs ∧ (a.stored.priority = b.stored.priority → a.nowMs < b.nowMs)

/-- The queue shows the items in the order in which they were enqueued, whatever
the sorts do with rows that are equal in their order. -/
structure Fifo (items : List NewItem) (t : StoredItems) : Prop where
  createdAt : (items.map NewItem.stored).Pairwise fun a b => a.createdAt ≤ b.createdAt
  fetchQueued : ∀ orderBy, OrderBy.KeepsGroups StoredSyncItem.id StoredSyncItem.priority
    (items.map NewItem.id) (SyncItemDao.fetchQueuedBy orderBy t)
  fetchPending : ∀ orderBy nowMs limit, OrderBy.KeepsGroups StoredSyncItem.id
    StoredSyncItem.priority (items.map NewItem.id)
    (SyncItemDao.fetchPendingBy orderBy nowMs limit t)

/-! ## 1. What is fixed at an enqueue -/

theorem arrivals_updateById {id : String} {f : StoredSyncItem → StoredSyncItem}
    {hf : ∀ r, (f r).id = r.id} (harrival : ∀ r, (f r).arrival = r.arrival) (t : StoredItems) :
    arrivals (SyncItemDao.updateById id f hf t) = arrivals t := by
  unfold arrivals SyncItemDao.updateById
  exact KeyedTable.map_rows_updateWhere harrival t

theorem arrivals_markInFlight (id : String) (nowMs : Int) (t : StoredItems) :
    arrivals (SyncItemDao.markInFlight id nowMs t) = arrivals t := by
  unfold SyncItemDao.markInFlight
  refine arrivals_updateById ?_ t
  exact fun _ => rfl

theorem arrivals_markFailed (id : String) (errorCode : SyncErrorCode) (t : StoredItems) :
    arrivals (SyncItemDao.markFailed id errorCode t) = arrivals t := by
  unfold SyncItemDao.markFailed
  refine arrivals_updateById ?_ t
  exact fun _ => rfl

theorem arrivals_markPendingForRetry (id : String) (errorCode : Option SyncErrorCode)
    (retryDelayMs nowMs : Int) (t : StoredItems) :
    arrivals (SyncItemDao.markPendingForRetry id errorCode retryDelayMs nowMs t) =
      arrivals t := by
  unfold SyncItemDao.markPendingForRetry
  refine arrivals_updateById ?_ t
  exact fun _ => rfl

theorem arrivals_markCredentialRejected (id : String) (errorCode : Option SyncErrorCode)
    (retryDelayMs attempts nowMs : Int) (t : StoredItems) :
    arrivals (SyncItemDao.markCredentialRejected id errorCode retryDelayMs attempts nowMs t) =
      arrivals t := by
  unfold SyncItemDao.markCredentialRejected
  refine arrivals_updateById ?_ t
  exact fun _ => rfl

theorem arrivals_resetInFlightToPending (t : StoredItems) :
    arrivals (SyncItemDao.resetInFlightToPending t) = arrivals t := by
  unfold arrivals SyncItemDao.resetInFlightToPending
  refine KeyedTable.map_rows_updateWhere ?_ t
  exact fun _ => rfl

theorem arrivals_delete (id : String) (t : StoredItems) :
    (arrivals (SyncItemDao.delete id t).1).Sublist (arrivals t) :=
  List.filter_sublist.map _

theorem arrivals_run (call : RemoveCall) (t : StoredItems) :
    (arrivals (SyncQueueStorage.run call t)).Sublist (arrivals t) := by
  cases call with
  | remove id => exact arrivals_delete id t
  | clear => exact List.nil_sublist _

theorem Cycle.arrivals_writeFailure (w : World) (c : Cycle) (item : StoredSyncItem)
    (rest : List StoredSyncItem) (record : FailureRecord) (nowMs : Int) :
    arrivals (Cycle.writeFailure w c item rest record nowMs).1.store = arrivals w.store := by
  unfold writeFailure
  split
  · exact arrivals_markFailed ..
  · exact arrivals_markPendingForRetry ..
  · exact arrivals_markCredentialRejected ..

variable {scheme : String → Option String}

theorem Cycle.arrivals_step {config : DispatcherConfig} {paused : Bool} {w w' : World}
    {c c' : Cycle} {ev : CycleEvent} (h : c.step scheme config paused w ev = some (w', c')) :
    (arrivals w'.store).Sublist (arrivals w.store) := by
  cases Cycle.step_cases h with
  | markInFlight hphase =>
    show (arrivals (SyncItemDao.markInFlight _ _ w.store)).Sublist _
    rw [arrivals_markInFlight]
  | remove hphase => exact arrivals_delete _ w.store
  | record hphase => rw [Cycle.arrivals_writeFailure]
  | fetchNone | fetch | leave | take | prepare | rejectUrl | send | sendFails | answer | succeed
  | failItem | summarize | fail | finish => exact List.Sublist.refl _

namespace Engine

/-- A step adds what it enqueues at the end, and takes nothing but rows away. -/
theorem arrivals_step {e e' : Engine} {l : Label} (h : e.step scheme l = some e') :
    (arrivals e'.world.store).Sublist
      (arrivals e.world.store ++ l.enqueued.map (·.stored.arrival)) := by
  cases l with
  | enqueue items =>
    obtain ⟨store, -, hrows, rfl⟩ := Engine.step_enqueue h
    rw [arrivals, hrows, List.map_append, List.map_map]
    exact List.Sublist.refl _
  | remove call =>
    cases h
    simpa only [Label.enqueued, List.map_nil, List.append_nil] using arrivals_run call _
  | flush t recovered nowMs =>
    simp only [step, Option.ite_none_right_eq_some] at h
    obtain ⟨-, h⟩ := h
    cases h
    obtain ⟨config, -, hflush | ⟨-, hflush⟩⟩ := e.flush_cases t recovered nowMs
    all_goals
      rw [hflush]
      simp [Label.enqueued, setCycle, World.emit]
  | cycle t ev =>
    obtain ⟨c, c', hcycle⟩ := step_cycle h
    simpa only [Label.enqueued, List.map_nil, List.append_nil] using
      Cycle.arrivals_step hcycle.step
  | recover =>
    simp only [step, Option.ite_none_right_eq_some] at h
    obtain ⟨-, h⟩ := h
    cases h
    simp only [Label.enqueued, List.map_nil, List.append_nil]
    rw [arrivals_resetInFlightToPending]
  | updateConfig | setPaused | kill =>
    cases h
    simp [Label.enqueued]

/-- What is in the store after a run was there before or was enqueued by it, and
stands in the order in which it was enqueued. -/
theorem arrivals_exec {e e' : Engine} {ls : List Label}
    (h : StepSystem.exec (step scheme) e ls = some e') :
    (arrivals e'.world.store).Sublist
      (arrivals e.world.store ++ (enqueuedBy ls).map (·.stored.arrival)) := by
  induction ls generalizing e with
  | nil =>
    cases h
    simp [enqueuedBy]
  | cons l ls ih =>
    obtain ⟨m, hm, hrest⟩ := StepSystem.exec_cons_eq_some.mp h
    have hsplit : enqueuedBy (l :: ls) = l.enqueued ++ enqueuedBy ls := rfl
    rw [hsplit, List.map_append, ← List.append_assoc]
    exact (ih hrest).trans ((arrivals_step hm).append_right _)

end Engine

/-! ## 2. When the queue is first in, first out -/

variable {items : List NewItem} {t : StoredItems}

/-- The store holds some of the items, in the order in which they came. -/
def Holds (items : List NewItem) (t : StoredItems) : Prop :=
  (arrivals t).Sublist (items.map (·.stored.arrival))

theorem Holds.ids (h : Holds items t) {rows : List StoredSyncItem} (hrows : rows.Sublist t.rows) :
    (rows.map (·.id)).Sublist (items.map (·.id)) := by
  have hids : (t.rows.map (·.id)).Sublist (items.map (·.id)) := by
    have := List.Sublist.map Arrival.id h
    simpa [arrivals, Function.comp_def, StoredSyncItem.arrival, NewItem.stored,
      SyncQueueStorage.build] using this
  exact (hrows.map _).trans hids

/-- Rows that came at ascending times ascend within their priority. -/
theorem Holds.groupsAscend (h : Holds items t) (hasc : Ascending items)
    {rows : List StoredSyncItem} (hrows : rows.Sublist t.rows) :
    OrderBy.GroupsAscend SyncItemDao.DispatchedBefore StoredSyncItem.priority rows := by
  have hitems : (items.map (·.stored.arrival)).Pairwise fun x y =>
      x.priority = y.priority → x.createdAt < y.createdAt := by
    rw [List.pairwise_map]
    exact hasc.imp fun hab => hab.2
  have ht := hitems.sublist h
  rw [arrivals, List.pairwise_map] at ht
  refine (ht.sublist hrows).imp fun {a b} hab hpriority => ?_
  have hlt := hab hpriority
  unfold SyncItemDao.DispatchedBefore
  rw [hpriority]
  simp only [StoredSyncItem.arrival] at hlt
  omega

theorem Holds.fifo (h : Holds items t) (hasc : Ascending items) : Fifo items t where
  createdAt := by
    rw [List.pairwise_map]
    exact hasc.imp fun hab => hab.1
  fetchQueued orderBy :=
    orderBy.sort_keepsGroups (h.ids List.filter_sublist) (h.groupsAscend hasc List.filter_sublist)
  fetchPending orderBy nowMs limit := by
    have hsub : (t.rows.filter (SyncItemDao.eligible nowMs)).Sublist t.rows := List.filter_sublist
    have hsort := orderBy.sort_keepsGroups (h.ids hsub) (h.groupsAscend hasc hsub)
    exact hsort.sublist (SyncItemDao.fetchPendingBy_sublist orderBy nowMs limit t)

/-- A queue that holds all of the items, each of them waiting, shows their order. -/
theorem Fifo.ascending (hids : (items.map (·.id)).Nodup)
    (hrows : t.rows = items.map NewItem.stored) (h : Fifo items t) : Ascending items := by
  have hall : t.rows.filter (fun r => r.status == .PENDING) = items.map NewItem.stored := by
    rw [hrows, List.filter_eq_self]
    intro r hr
    obtain ⟨item, -, rfl⟩ := List.mem_map.mp hr
    rfl
  have hkeys : (items.map NewItem.stored).map (·.id) = items.map (·.id) := by
    rw [List.map_map]
    rfl
  have hkeeps := h.fetchQueued (.reversed _)
  simp only [SyncItemDao.fetchQueuedBy, hall] at hkeeps
  have hgroups := OrderBy.groupsAscend_of_reversed (by rwa [hkeys]) (by rwa [hkeys])
  have hle := h.createdAt
  rw [OrderBy.GroupsAscend, List.pairwise_map] at hgroups
  rw [List.pairwise_map] at hle
  refine (hle.and hgroups).imp fun {a b} hab => ⟨hab.1, fun hpriority => ?_⟩
  have hnot := hab.2 hpriority
  unfold SyncItemDao.DispatchedBefore at hnot
  rw [hpriority] at hnot
  have hnow : a.stored.createdAt = a.nowMs ∧ b.stored.createdAt = b.nowMs := ⟨rfl, rfl⟩
  omega

namespace Engine

/-- The first launch starts on an empty queue and enqueues these items, in any
number of calls and between any other steps. -/
def Receives (scheme : String → Option String) (items : List NewItem) (e : Engine) : Prop :=
  ∃ e₀ ls, Boot e₀ ∧ e₀.world.store = .empty ∧ enqueuedBy ls = items ∧
    StepSystem.exec (step scheme) e₀ ls = some e

theorem Receives.holds {e : Engine} (h : Receives scheme items e) : Holds items e.world.store := by
  obtain ⟨e₀, ls, -, hempty, rfl, hrun⟩ := h
  have harrivals := arrivals_exec hrun
  rwa [hempty] at harrivals

/-- One call that enqueues them all. -/
theorem exists_receives (scheme : String → Option String) (hids : (items.map (·.id)).Nodup) :
    ∃ e, Receives scheme items e ∧ e.world.store.rows = items.map NewItem.stored := by
  have hkeys : (items.map NewItem.stored).map (·.id) = items.map (·.id) := by
    rw [List.map_map]
    rfl
  obtain ⟨store, hins⟩ : ∃ store : StoredItems,
      SyncItemDao.insertBatch (items.map NewItem.stored) .empty = some store :=
    KeyedTable.exists_insertAll (by rw [hkeys]; exact hids)
  have hrows : store.rows = items.map NewItem.stored := by
    rw [KeyedTable.rows_insertAll hins]
    rfl
  obtain ⟨e, he, hstore⟩ : ∃ e, firstLaunch.step scheme (.enqueue items) = some e ∧
      e.world.store = store := by
    have hnew : (items.all fun item => !firstLaunch.world.issued.contains item.id) = true := by
      simp [firstLaunch]
    unfold step
    simp only [if_pos hnew]
    change ∃ e, (SyncItemDao.insertBatch _ .empty).map _ = some e ∧ _
    rw [hins]
    exact ⟨_, rfl, rfl⟩
  refine ⟨e, ⟨_, [.enqueue items], firstLaunch_boot, rfl, ?_, ?_⟩, ?_⟩
  · simp [enqueuedBy, Label.enqueued]
  · exact StepSystem.exec_cons_eq_some.mpr ⟨e, he, rfl⟩
  · rw [hstore, hrows]

end Engine

/-- The queue is first in, first out in every run that enqueues these items
exactly when the clock went on between any two of one priority, and never back. -/
theorem fifo_iff (scheme : String → Option String) (hids : (items.map (·.id)).Nodup) :
    (∀ e, Engine.Receives scheme items e → Fifo items e.world.store) ↔ Ascending items := by
  constructor
  · intro h
    obtain ⟨e, he, hrows⟩ := Engine.exists_receives scheme hids
    exact (h e he).ascending hids hrows
  · intro hasc e he
    exact he.holds.fifo hasc

end SyncProvider.Ios
