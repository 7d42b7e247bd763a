import SyncProvider.Spec
import SyncProvider.Lib.KeyedTable
import Mathlib.Data.List.Sort

/-!
# iOS: the stored items and `SyncItemDao`

`StoredSyncItem` is one row, `SyncItemDao` the operations on the store. Each of
them runs in one background task and is saved at its end, so each is atomic.
An operation that looks a row up by id does nothing when the row is gone.
-/

namespace SyncProvider.Ios

/-- A queued item as it is stored. -/
structure StoredSyncItem where
  id : String
  method : String
  url : String
  headers : Option StringMap
  body : Option String
  contentType : Option String
  priority : String
  createdAt : Int
  attempts : Int
  lastAttemptAt : Option Int
  nextRetryAt : Int
  lastErrorCode : Option SyncErrorCode
  status : ItemStatus
  metadata : Option StringMap
  deriving DecidableEq

/-- The store, with the uniqueness constraint on `id`. -/
abbrev StoredItems := KeyedTable StoredSyncItem.id

namespace SyncItemDao

def priorityRank (raw : String) : Nat :=
  if raw = "HIGH" then 0 else if raw = "NORMAL" then 1 else if raw = "LOW" then 2 else 3

/-- Not after, in the dispatch order: priority first, then oldest first. -/
def DispatchedBefore (a b : StoredSyncItem) : Prop :=
  priorityRank a.priority < priorityRank b.priority ∨
    priorityRank a.priority = priorityRank b.priority ∧ a.createdAt ≤ b.createdAt

instance : DecidableRel DispatchedBefore := fun a b => by
  unfold DispatchedBefore
  infer_instance

def insertBatch (items : List StoredSyncItem) (t : StoredItems) : Option StoredItems :=
  t.insertAll items

/-- The number of `PENDING` rows, cooling ones included. -/
def countPending (t : StoredItems) : Nat := t.countWhere fun r => r.status == .PENDING

/-- The dispatchable rows in dispatch order. A limit of 0 means no limit. -/
def fetchPending (nowMs limit : Int) (t : StoredItems) : List StoredSyncItem :=
  let sorted := (t.rows.filter fun r => r.status == .PENDING && r.nextRetryAt ≤ nowMs).insertionSort
    DispatchedBefore
  if limit > 0 then sorted.take limit.toNat else sorted

/-- `MIN(nextRetryAt)` over the `PENDING` rows that have been attempted. -/
def earliestRetryAt (t : StoredItems) : Option Int :=
  t.minWhere (fun r => r.status == .PENDING && 0 < r.nextRetryAt) (·.nextRetryAt)

/-- `MIN(nextRetryAt)` over all `PENDING` rows. -/
def earliestPendingAt (t : StoredItems) : Option Int :=
  t.minWhere (fun r => r.status == .PENDING) (·.nextRetryAt)

/-- Change the row with this id, when there is one. -/
def updateById (id : String) (f : StoredSyncItem → StoredSyncItem) (hf : ∀ r, (f r).id = r.id)
    (t : StoredItems) : StoredItems :=
  t.updateWhere (fun r => r.id == id) f hf

/-- Claim an item for dispatch and count the attempt. -/
def markInFlight (id : String) (nowMs : Int) (t : StoredItems) : StoredItems :=
  updateById id (fun r => { r with
    status := .IN_FLIGHT
    attempts := r.attempts + 1
    lastAttemptAt := some nowMs }) (fun _ => rfl) t

def markFailed (id : String) (errorCode : SyncErrorCode) (t : StoredItems) : StoredItems :=
  updateById id (fun r => { r with
    status := .FAILED
    lastErrorCode := some errorCode }) (fun _ => rfl) t

/-- Back to `PENDING` behind a cooldown. `attempts` is left as it is. -/
def markPendingForRetry (id : String) (errorCode : Option SyncErrorCode) (retryDelayMs nowMs : Int)
    (t : StoredItems) : StoredItems :=
  updateById id (fun r => { r with
    status := .PENDING
    lastErrorCode := errorCode
    lastAttemptAt := some nowMs
    nextRetryAt := nowMs + max 0 retryDelayMs }) (fun _ => rfl) t

/-- When the hold of a rejected credential ends. -/
def heldUntil (retryDelayMs nowMs : Int) : Int := nowMs + max 0 retryDelayMs

/-- Back to `PENDING` behind a hold, with the attempt refunded. -/
def markCredentialRejected (id : String) (errorCode : Option SyncErrorCode)
    (retryDelayMs attempts nowMs : Int) (t : StoredItems) : StoredItems :=
  updateById id (fun r => { r with
    status := .PENDING
    attempts := attempts
    lastErrorCode := errorCode
    lastAttemptAt := some nowMs
    nextRetryAt := heldUntil retryDelayMs nowMs }) (fun _ => rfl) t

/-- Every `IN_FLIGHT` row back to `PENDING`. Only the status changes. -/
def resetInFlightToPending (t : StoredItems) : StoredItems :=
  t.updateWhere (fun r => r.status == .IN_FLIGHT) (fun r => { r with status := .PENDING })
    fun _ => rfl

/-- The store without the row, and whether there was one. -/
def delete (id : String) (t : StoredItems) : StoredItems × Bool :=
  (t.deleteWhere fun r => r.id == id, t.rows.any fun r => r.id == id)

def clear (_ : StoredItems) : StoredItems := .empty

/-! ## What the operations do to the ids -/

theorem keys_updateById (id : String) (f : StoredSyncItem → StoredSyncItem)
    (hf : ∀ r, (f r).id = r.id) (t : StoredItems) : (updateById id f hf t).keys = t.keys :=
  KeyedTable.keys_updateWhere ..

@[simp] theorem keys_markInFlight (id : String) (nowMs : Int) (t : StoredItems) :
    (markInFlight id nowMs t).keys = t.keys := by
  rw [markInFlight, keys_updateById]

@[simp] theorem keys_markFailed (id : String) (errorCode : SyncErrorCode) (t : StoredItems) :
    (markFailed id errorCode t).keys = t.keys := by
  rw [markFailed, keys_updateById]

@[simp] theorem keys_markPendingForRetry (id : String) (errorCode : Option SyncErrorCode)
    (retryDelayMs nowMs : Int) (t : StoredItems) :
    (markPendingForRetry id errorCode retryDelayMs nowMs t).keys = t.keys := by
  rw [markPendingForRetry, keys_updateById]

@[simp] theorem keys_markCredentialRejected (id : String) (errorCode : Option SyncErrorCode)
    (retryDelayMs attempts nowMs : Int) (t : StoredItems) :
    (markCredentialRejected id errorCode retryDelayMs attempts nowMs t).keys = t.keys := by
  rw [markCredentialRejected, keys_updateById]

@[simp] theorem keys_resetInFlightToPending (t : StoredItems) :
    (resetInFlightToPending t).keys = t.keys :=
  KeyedTable.keys_updateWhere ..

theorem mem_delete {id x : String} {t : StoredItems} :
    x ∈ (delete id t).1.keys ↔ x ∈ t.keys ∧ x ≠ id := by
  simp only [KeyedTable.mem_keys, delete, KeyedTable.mem_deleteWhere, beq_eq_false_iff_ne]
  constructor
  · rintro ⟨r, ⟨hr, hne⟩, rfl⟩
    exact ⟨⟨r, hr, rfl⟩, hne⟩
  · rintro ⟨⟨r, hr, rfl⟩, hne⟩
    exact ⟨r, ⟨hr, hne⟩, rfl⟩

/-- A delete reports a row exactly when the id was in the store. -/
theorem delete_eq_true {id : String} {t : StoredItems} : (delete id t).2 = true ↔ id ∈ t.keys := by
  simp only [delete, List.any_eq_true, beq_iff_eq, KeyedTable.mem_keys]

/-! ## What the operations do to the rows -/

theorem mem_updateById {id : String} {f : StoredSyncItem → StoredSyncItem}
    {hf : ∀ r, (f r).id = r.id} {t : StoredItems} {r : StoredSyncItem} :
    r ∈ (updateById id f hf t).rows ↔ ∃ r₀ ∈ t.rows, (if r₀.id = id then f r₀ else r₀) = r := by
  simp [updateById, KeyedTable.mem_updateWhere]

theorem mem_markInFlight {id : String} {nowMs : Int} {t : StoredItems} {r : StoredSyncItem} :
    r ∈ (markInFlight id nowMs t).rows ↔ ∃ r₀ ∈ t.rows,
      (if r₀.id = id then
        { r₀ with status := .IN_FLIGHT, attempts := r₀.attempts + 1, lastAttemptAt := some nowMs }
      else r₀) = r := by
  rw [markInFlight]
  exact mem_updateById

/-- A row after an update is another row as it was, or the row itself changed. -/
theorem updateById_cases {id : String} {f : StoredSyncItem → StoredSyncItem}
    {hf : ∀ r, (f r).id = r.id} {t : StoredItems} {r : StoredSyncItem}
    (h : r ∈ (updateById id f hf t).rows) :
    r ∈ t.rows ∧ r.id ≠ id ∨ ∃ r₀ ∈ t.rows, r₀.id = id ∧ f r₀ = r := by
  obtain ⟨r₀, hr₀, rfl⟩ := mem_updateById.mp h
  by_cases hid : r₀.id = id
  · rw [if_pos hid]
    exact .inr ⟨r₀, hr₀, hid, rfl⟩
  · rw [if_neg hid]
    exact .inl ⟨hr₀, hid⟩

theorem markFailed_cases {id : String} {errorCode : SyncErrorCode} {t : StoredItems}
    {r : StoredSyncItem} (h : r ∈ (markFailed id errorCode t).rows) :
    r ∈ t.rows ∧ r.id ≠ id ∨ ∃ r₀ ∈ t.rows, r₀.id = id ∧
      { r₀ with status := .FAILED, lastErrorCode := some errorCode } = r := by
  rw [markFailed] at h
  exact updateById_cases h

theorem markPendingForRetry_cases {id : String} {errorCode : Option SyncErrorCode}
    {retryDelayMs nowMs : Int} {t : StoredItems} {r : StoredSyncItem}
    (h : r ∈ (markPendingForRetry id errorCode retryDelayMs nowMs t).rows) :
    r ∈ t.rows ∧ r.id ≠ id ∨ ∃ r₀ ∈ t.rows, r₀.id = id ∧
      { r₀ with
        status := .PENDING
        lastErrorCode := errorCode
        lastAttemptAt := some nowMs
        nextRetryAt := nowMs + max 0 retryDelayMs } = r := by
  rw [markPendingForRetry] at h
  exact updateById_cases h

theorem markCredentialRejected_cases {id : String} {errorCode : Option SyncErrorCode}
    {retryDelayMs attempts nowMs : Int} {t : StoredItems} {r : StoredSyncItem}
    (h : r ∈ (markCredentialRejected id errorCode retryDelayMs attempts nowMs t).rows) :
    r ∈ t.rows ∧ r.id ≠ id ∨ ∃ r₀ ∈ t.rows, r₀.id = id ∧
      { r₀ with
        status := .PENDING
        attempts := attempts
        lastErrorCode := errorCode
        lastAttemptAt := some nowMs
        nextRetryAt := heldUntil retryDelayMs nowMs } = r := by
  rw [markCredentialRejected] at h
  exact updateById_cases h

theorem mem_resetInFlightToPending {t : StoredItems} {r : StoredSyncItem} :
    r ∈ (resetInFlightToPending t).rows ↔ ∃ r₀ ∈ t.rows,
      (if r₀.status = .IN_FLIGHT then { r₀ with status := .PENDING } else r₀) = r := by
  simp [resetInFlightToPending, KeyedTable.mem_updateWhere]

/-- A row after launch recovery was there and not in flight, or was in flight. -/
theorem resetInFlightToPending_cases {t : StoredItems} {r : StoredSyncItem}
    (h : r ∈ (resetInFlightToPending t).rows) :
    r ∈ t.rows ∧ r.status ≠ .IN_FLIGHT ∨
      ∃ r₀ ∈ t.rows, r₀.status = .IN_FLIGHT ∧ { r₀ with status := .PENDING } = r := by
  obtain ⟨r₀, hr₀, rfl⟩ := mem_resetInFlightToPending.mp h
  by_cases hs : r₀.status = .IN_FLIGHT
  · rw [if_pos hs]
    exact .inr ⟨r₀, hr₀, hs, rfl⟩
  · rw [if_neg hs]
    exact .inl ⟨hr₀, hs⟩

/-! ## What a cycle fetches -/

theorem fetchPending_subset {nowMs limit : Int} {t : StoredItems} {r : StoredSyncItem}
    (h : r ∈ fetchPending nowMs limit t) :
    r ∈ t.rows ∧ r.status = .PENDING ∧ r.nextRetryAt ≤ nowMs := by
  have hmem : r ∈ (t.rows.filter fun r =>
      r.status == .PENDING && r.nextRetryAt ≤ nowMs).insertionSort DispatchedBefore := by
    unfold fetchPending at h
    split at h
    · exact List.mem_of_mem_take h
    · exact h
  rw [List.mem_insertionSort, List.mem_filter] at hmem
  simpa using hmem

theorem fetchPending_nodup (nowMs limit : Int) (t : StoredItems) :
    ((fetchPending nowMs limit t).map (·.id)).Nodup := by
  have hsort : (((t.rows.filter fun r =>
      r.status == .PENDING && r.nextRetryAt ≤ nowMs).insertionSort DispatchedBefore).map
        (·.id)).Nodup :=
    ((List.perm_insertionSort _ _).map _).nodup_iff.mpr
      (t.nodup.sublist (List.filter_sublist.map _))
  unfold fetchPending
  split
  · exact hsort.sublist ((List.take_sublist _ _).map _)
  · exact hsort

/-! ## What the wake queries see -/

theorem exists_earliestRetryAt_le {t : StoredItems} {r : StoredSyncItem} (hr : r ∈ t.rows)
    (hs : r.status = .PENDING) (hpos : 0 < r.nextRetryAt) :
    ∃ m, earliestRetryAt t = some m ∧ m ≤ r.nextRetryAt :=
  KeyedTable.exists_minWhere_le hr (by simp [hs, hpos])

theorem exists_earliestPendingAt_le {t : StoredItems} {r : StoredSyncItem} (hr : r ∈ t.rows)
    (hs : r.status = .PENDING) : ∃ m, earliestPendingAt t = some m ∧ m ≤ r.nextRetryAt :=
  KeyedTable.exists_minWhere_le hr (by simp [hs])

end SyncItemDao

end SyncProvider.Ios
