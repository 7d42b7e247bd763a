import SyncProvider.Android.Dispatcher
import SyncProvider.Android.Selection

/-!
# Android: first in, first out

The queue has no sequence number. What was enqueued first is told by `createdAt`,
a reading of the wall clock in milliseconds, and rows of one priority with the
same reading come in any order. So the order of a batch, and of any two calls
within a millisecond, is up to the sort, and after the clock was set back it is
the wrong one.

Results:
1. `arrivals_exec` : what a run of the engine does to what was fixed at an enqueue.
2. `fifo_iff` : for which readings the queue is first in, first out.
-/

namespace SyncProvider.Android

open SyncQueueStorage (NewItem RemoveCall)

/-! ## The model -/

/-- What of a row is fixed when it is enqueued. -/
structure Arrival where
  id : String
  priority : SyncPriority
  priorityWeight : Int
  createdAt : Int

def SyncItemEntity.arrival (r : SyncItemEntity) : Arrival where
  id := r.id
  priority := r.priority
  priorityWeight := r.priorityWeight
  createdAt := r.createdAt

def arrivals (t : SyncItems) : List Arrival := t.rows.map (·.arrival)

/-- The items a step enqueues. -/
def Label.enqueued : Label → List NewItem
  | .enqueue items => items
  | _ => []

/-- The items a run enqueues, in order. -/
def enqueuedBy (ls : List Label) : List NewItem := ls.flatMap Label.enqueued

/-- The clock does not go back from one item to the next, and goes on between any
two of one priority. -/
def Ascending (items : List NewItem) : Prop :=
  items.Pairwise fun a b =>
    a.now ≤ b.now ∧ (a.entity.priority = b.entity.priority → a.now < b.now)

/-- The queue shows the items in the order in which they were enqueued, whatever
the queries do with rows that are equal in their order. -/
structure Fifo (items : List NewItem) (t : SyncItems) : Prop where
  createdAt : (items.map NewItem.entity).Pairwise fun a b => a.createdAt ≤ b.createdAt
  getPending : ∀ orderBy, OrderBy.KeepsGroups SyncItemEntity.id SyncItemEntity.priority
    (items.map NewItem.id) (SyncItemDao.findByStatusesBy orderBy .PENDING t)
  claimPending : ∀ orderBy now limit, OrderBy.KeepsGroups SyncItemEntity.id SyncItemEntity.priority
    (items.map NewItem.id) (SyncItemDao.claimPendingBy orderBy now limit t).2

/-! ## 1. What is fixed at an enqueue -/

theorem arrivals_claimPending (now limit : Int) (t : SyncItems) :
    arrivals (SyncItemDao.claimPending now limit t).1 = arrivals t := by
  rw [← SyncItemDao.claimPendingBy_stable, arrivals, SyncItemDao.rows_claimPendingBy,
    List.map_map]
  refine List.map_congr_left fun r _ => ?_
  simp only [Function.comp_apply, SyncItemDao.claimedIn]
  split <;> rfl

theorem arrivals_resetInFlight (t : SyncItems) :
    arrivals (SyncItemDao.resetInFlight t) = arrivals t := by
  unfold arrivals SyncItemDao.resetInFlight
  refine KeyedTable.map_rows_updateWhere ?_ t
  exact fun _ => rfl

theorem arrivals_updateStatus (id : String) (status : ItemStatus) (attempts : Int)
    (lastAttemptAt : Option Int) (lastErrorCode : Option SyncErrorCode) (nextRetryAt : Int)
    (t : SyncItems) :
    arrivals (SyncItemDao.updateStatus id status attempts lastAttemptAt lastErrorCode nextRetryAt
      t) = arrivals t := by
  unfold arrivals SyncItemDao.updateStatus
  refine KeyedTable.map_rows_updateWhere ?_ t
  exact fun _ => rfl

theorem arrivals_deleteById (id : String) (t : SyncItems) :
    (arrivals (SyncItemDao.deleteById id t).1).Sublist (arrivals t) :=
  List.filter_sublist.map _

theorem arrivals_write (w : World) (s : StoreWrite) :
    (arrivals (w.write s).table).Sublist (arrivals w.table) := by
  cases s with
  | markSucceeded id => exact arrivals_deleteById id w.table
  | markRetry | markFailed =>
    simp only [World.write, StoreWrite.run]
    rw [arrivals_updateStatus]

theorem arrivals_remove (call : RemoveCall) (t : SyncItems) :
    (arrivals (SyncQueueStorage.remove call t)).Sublist (arrivals t) := by
  cases call with
  | removeItem id => exact arrivals_deleteById id t
  | clear => exact List.nil_sublist _

variable {accepts : HttpRequest → Bool}

theorem Dispatch.arrivals_step {live options : SyncOptions} {credentials : CredentialPolicy}
    {w w' : World} {d d' : Dispatch} {ev : DispatchEvent}
    (h : d.step accepts live options credentials w ev = some (w', d')) :
    (arrivals w'.table).Sublist (arrivals w.table) := by
  cases Dispatch.step_moves h with
  | refuse | settle => exact arrivals_write _ _
  | start | unbuilt | send | respond | emit | crash => exact List.Sublist.refl _

theorem Cycle.arrivals_step {live : SyncOptions} {cancelled : Bool} {w w' : World} {c c' : Cycle}
    {ev : CycleEvent} (h : c.step accepts live cancelled w ev = some (w', c')) :
    (arrivals w'.table).Sublist (arrivals w.table) := by
  have hreset (cause : AbortCause) :
      (arrivals (if cause = .cancelled then w.resetInFlight else w).table).Sublist
        (arrivals w.table) := by
    split
    · exact (arrivals_resetInFlight w.table) ▸ List.Sublist.refl _
    · exact List.Sublist.refl _
  obtain ⟨phase, -, hmoves⟩ := Cycle.step_moves h
  cases hmoves with
  | claim => exact (arrivals_claimPending _ _ w.table) ▸ List.Sublist.refl _
  | dispatch hphase hstart hi hstep => exact Dispatch.arrivals_step hstep
  | release => exact (arrivals_resetInFlight w.table) ▸ List.Sublist.refl _
  | abortReported => exact hreset _
  | abort => exact hreset _
  | emitStarted | resumeEmpty | resumeClaimed | probeRejected | probePassed | join | record
  | resumeRecorded | emitTerminal | resumeReported | throw | raise | emitFailed | finish =>
    exact List.Sublist.refl _

namespace Engine

/-- A step adds what it enqueues at the end, and takes nothing but rows away. -/
theorem arrivals_step {e e' : Engine} {l : Label} (h : e.step accepts l = some e') :
    (arrivals e'.world.table).Sublist
      (arrivals e.world.table ++ l.enqueued.map (·.entity.arrival)) := by
  cases l with
  | enqueue items =>
    obtain ⟨table, -, hrows, rfl⟩ := Engine.step_enqueue h
    rw [arrivals, hrows, List.map_append, List.map_map]
    exact List.Sublist.refl _
  | remove call =>
    cases h
    simpa only [Label.enqueued, List.map_nil, List.append_nil] using arrivals_remove call _
  | reset t =>
    simp only [step] at h
    split at h <;> cases h
    simp only [Label.enqueued, List.map_nil, List.append_nil, World.resetInFlight]
    rw [arrivals_resetInFlight]
  | cycle t ev =>
    simp only [step] at h
    split at h
    · obtain ⟨⟨w, c'⟩, hstep, rfl⟩ := Option.map_eq_some_iff.mp h
      simpa only [Label.enqueued, List.map_nil, List.append_nil] using Cycle.arrivals_step hstep
    · cases h
  | configure | setPaused | cancel =>
    cases h
    simp [Label.enqueued, setCall]
  | call | lock | checkPaused | readCredentials | begin =>
    simp only [step] at h
    split at h <;> cases h
    simp [Label.enqueued, setCall, setState]
  | giveUp t =>
    simp only [step, Option.ite_none_right_eq_some] at h
    obtain ⟨-, h⟩ := h
    split at h <;> cases h
    all_goals simp [Label.enqueued, setCall, setState]
  | unlock t =>
    simp only [step] at h
    split at h
    · cases h
      simp [Label.enqueued, setCall]
    · split at h <;> cases h
      simp [Label.enqueued, setCall]
    · cases h

/-- What is in the table after a run was there before or was enqueued by it, and
stands in the order in which it was enqueued. -/
theorem arrivals_exec {e e' : Engine} {ls : List Label}
    (h : StepSystem.exec (step accepts) e ls = some e') :
    (arrivals e'.world.table).Sublist
      (arrivals e.world.table ++ (enqueuedBy ls).map (·.entity.arrival)) := by
  induction ls generalizing e with
  | nil =>
    cases h
    simp [enqueuedBy]
  | cons l ls ih =>
    obtain ⟨m, hm, hrest⟩ := StepSystem.exec_cons_eq_some.mp h
    have hsplit : enqueuedBy (l :: ls) = l.enqueued ++ enqueuedBy ls := rfl
    rw [hsplit, List.map_append, ← List.append_assoc]
    exact (ih hrest).trans ((arrivals_step hm).append_right _)

end Engine

/-! ## 2. When the queue is first in, first out -/

variable {items : List NewItem} {t : SyncItems}

/-- The table holds some of the items, in the order in which they came. -/
def Holds (items : List NewItem) (t : SyncItems) : Prop :=
  (arrivals t).Sublist (items.map (·.entity.arrival))

theorem Holds.ids (h : Holds items t) {rows : List SyncItemEntity} (hrows : rows.Sublist t.rows) :
    (rows.map (·.id)).Sublist (items.map (·.id)) := by
  have hids : (t.rows.map (·.id)).Sublist (items.map (·.id)) := by
    have := List.Sublist.map Arrival.id h
    simpa [arrivals, Function.comp_def, SyncItemEntity.arrival, NewItem.entity,
      SyncQueueStorage.toEntity] using this
  exact (hrows.map _).trans hids

/-- Rows that came at ascending times ascend within their priority. -/
theorem Holds.groupsAscend (h : Holds items t) (hasc : Ascending items)
    {rows : List SyncItemEntity} (hrows : rows.Sublist t.rows) :
    OrderBy.GroupsAscend SyncItemEntity.DispatchedBefore SyncItemEntity.priority rows := by
  have hitems : (items.map (·.entity.arrival)).Pairwise fun x y => x.priority = y.priority →
      x.priorityWeight = y.priorityWeight ∧ x.createdAt < y.createdAt := by
    rw [List.pairwise_map]
    refine hasc.imp fun {a b} hab hpriority => ⟨?_, hab.2 hpriority⟩
    exact congrArg SyncItemEntity.weightOf hpriority
  have ht := hitems.sublist h
  rw [arrivals, List.pairwise_map] at ht
  refine (ht.sublist hrows).imp fun {a b} hab hpriority => ?_
  obtain ⟨hweight, hlt⟩ := hab hpriority
  unfold SyncItemEntity.DispatchedBefore
  simp only [SyncItemEntity.arrival] at hweight hlt
  omega

theorem Holds.fifo (h : Holds items t) (hasc : Ascending items) : Fifo items t where
  createdAt := by
    rw [List.pairwise_map]
    exact hasc.imp fun hab => hab.1
  getPending orderBy :=
    orderBy.sort_keepsGroups (h.ids List.filter_sublist) (h.groupsAscend hasc List.filter_sublist)
  claimPending orderBy now limit := by
    have hsub : (t.rows.filter (SyncItemEntity.eligible now)).Sublist t.rows :=
      List.filter_sublist
    have hsort := orderBy.sort_keepsGroups (h.ids hsub) (h.groupsAscend hasc hsub)
    exact hsort.sublist (SyncItemDao.limited_sublist _ _)

/-- A queue that holds all of the items, each of them waiting, shows their order. -/
theorem Fifo.ascending (hids : (items.map (·.id)).Nodup) (hrows : t.rows = items.map NewItem.entity)
    (h : Fifo items t) : Ascending items := by
  have hall : t.rows.filter (fun r => r.status == .PENDING) = items.map NewItem.entity := by
    rw [hrows, List.filter_eq_self]
    intro r hr
    obtain ⟨item, -, rfl⟩ := List.mem_map.mp hr
    rfl
  have hkeys : (items.map NewItem.entity).map (·.id) = items.map (·.id) := by
    rw [List.map_map]
    rfl
  have hkeeps := h.getPending (.reversed _)
  simp only [SyncItemDao.findByStatusesBy, hall] at hkeeps
  have hgroups := OrderBy.groupsAscend_of_reversed (by rwa [hkeys]) (by rwa [hkeys])
  have hle := h.createdAt
  rw [OrderBy.GroupsAscend, List.pairwise_map] at hgroups
  rw [List.pairwise_map] at hle
  refine (hle.and hgroups).imp fun {a b} hab => ⟨hab.1, fun hpriority => ?_⟩
  have hnot := hab.2 hpriority
  have hweight : a.entity.priorityWeight = b.entity.priorityWeight :=
    congrArg SyncItemEntity.weightOf hpriority
  unfold SyncItemEntity.DispatchedBefore at hnot
  have hnow : a.entity.createdAt = a.now ∧ b.entity.createdAt = b.now := ⟨rfl, rfl⟩
  omega

namespace Engine

/-- The process starts on an empty queue and enqueues these items, in any number
of calls and between any other steps. -/
def Receives (accepts : HttpRequest → Bool) (items : List NewItem) (e : Engine) : Prop :=
  ∃ e₀ ls, Boot e₀ ∧ e₀.world.table = .empty ∧ enqueuedBy ls = items ∧
    StepSystem.exec (step accepts) e₀ ls = some e

theorem Receives.holds {e : Engine} (h : Receives accepts items e) :
    Holds items e.world.table := by
  obtain ⟨e₀, ls, -, hempty, rfl, hrun⟩ := h
  have harrivals := arrivals_exec hrun
  rwa [hempty] at harrivals

/-- One call that enqueues them all. -/
theorem exists_receives (accepts : HttpRequest → Bool) (hids : (items.map (·.id)).Nodup) :
    ∃ e, Receives accepts items e ∧ e.world.table.rows = items.map NewItem.entity := by
  have hkeys : (items.map NewItem.entity).map (·.id) = items.map (·.id) := by
    rw [List.map_map]
    rfl
  obtain ⟨table, hins⟩ : ∃ table : SyncItems,
      SyncItemDao.insertBatch (items.map NewItem.entity) .empty = some table :=
    KeyedTable.exists_insertAll (by rw [hkeys]; exact hids)
  have hrows : table.rows = items.map NewItem.entity := by
    rw [KeyedTable.rows_insertAll hins]
    rfl
  obtain ⟨e, he, htable⟩ : ∃ e, (coldStart .TRUSTED).step accepts (.enqueue items) = some e ∧
      e.world.table = table := by
    have hnew : (items.all fun item => !(coldStart .TRUSTED).world.issued.contains item.id) =
        true := by simp [coldStart]
    unfold step
    simp only [if_pos hnew]
    change ∃ e, (SyncItemDao.insertBatch _ .empty).map _ = some e ∧ _
    rw [hins]
    exact ⟨_, rfl, rfl⟩
  refine ⟨e, ⟨_, [.enqueue items], coldStart_boot .TRUSTED, rfl, ?_, ?_⟩, ?_⟩
  · simp [enqueuedBy, Label.enqueued]
  · exact StepSystem.exec_cons_eq_some.mpr ⟨e, he, rfl⟩
  · rw [htable, hrows]

end Engine

/-- The queue is first in, first out in every run that enqueues these items
exactly when the clock went on between any two of one priority, and never back. -/
theorem fifo_iff (accepts : HttpRequest → Bool) (hids : (items.map (·.id)).Nodup) :
    (∀ e, Engine.Receives accepts items e → Fifo items e.world.table) ↔ Ascending items := by
  constructor
  · intro h
    obtain ⟨e, he, hrows⟩ := Engine.exists_receives accepts hids
    exact (h e he).ascending hids hrows
  · intro hasc e he
    exact he.holds.fifo hasc

end SyncProvider.Android
