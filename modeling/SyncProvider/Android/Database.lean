import SyncProvider.Android.Options
import SyncProvider.Lib.KeyedTable
import Mathlib.Data.List.Sort

/-!
# Android: the `sync_items` table and its DAO

`SyncItemEntity` is one row, `SyncItemDao` the statements that run on the
table. Room runs each of them atomically: a single statement, or a
`@Transaction`. The JSON columns `headers` and `metadata` hold the decoded map.
-/

namespace SyncProvider.Android

/-- Persisted representation of a queued HTTP request. -/
structure SyncItemEntity where
  id : String
  method : HttpMethod
  url : String
  headers : Option StringMap
  body : Option String
  contentType : Option String
  priority : SyncPriority
  priorityWeight : Int
  createdAt : Int
  attempts : Int
  lastAttemptAt : Option Int
  lastErrorCode : Option SyncErrorCode
  status : ItemStatus
  metadata : Option StringMap
  nextRetryAt : Int
  deriving DecidableEq

namespace SyncItemEntity

def weightOf : SyncPriority → Int
  | .HIGH => 0
  | .NORMAL => 1
  | .LOW => 2

/-- `ORDER BY priorityWeight ASC, createdAt ASC`. -/
def DispatchedBefore (a b : SyncItemEntity) : Prop :=
  a.priorityWeight < b.priorityWeight ∨
    a.priorityWeight = b.priorityWeight ∧ a.createdAt ≤ b.createdAt

instance : DecidableRel DispatchedBefore := fun a b => by
  unfold DispatchedBefore
  infer_instance

end SyncItemEntity

/-- The `sync_items` table, with `id` as its primary key. -/
abbrev SyncItems := KeyedTable SyncItemEntity.id

/-- `list.chunked(size)`, with the number of chunks still allowed. -/
def chunkedAux {α : Type} (size : Nat) : Nat → List α → List (List α)
  | 0, _ => []
  | _ + 1, [] => []
  | n + 1, xs => xs.take size :: chunkedAux size n (xs.drop size)

/-- `list.chunked(size)`: consecutive pieces of at most `size` elements. -/
def chunked {α : Type} (size : Nat) (xs : List α) : List (List α) := chunkedAux size xs.length xs

namespace SyncItemDao

def insert (item : SyncItemEntity) (t : SyncItems) : Option SyncItems := t.insert item

def insertBatch (items : List SyncItemEntity) (t : SyncItems) : Option SyncItems :=
  t.insertAll items

/-- The table without the row, and the number of rows deleted. -/
def deleteById (id : String) (t : SyncItems) : SyncItems × Nat :=
  (t.deleteWhere fun r => r.id == id, t.countWhere fun r => r.id == id)

def clear (_ : SyncItems) : SyncItems := .empty

def count (t : SyncItems) : Nat := t.rows.length

/-- Eligible `PENDING` rows in dispatch order, at most `limit` of them. SQLite
reads a negative limit as no limit. -/
def selectClaimable (now limit : Int) (t : SyncItems) : List SyncItemEntity :=
  let rows := (t.rows.filter fun r => r.status == .PENDING && r.nextRetryAt ≤ now).insertionSort
    SyncItemEntity.DispatchedBefore
  if limit < 0 then rows else rows.take limit.toNat

/-- Bulk flip the given rows to `IN_FLIGHT`. -/
def markInFlight (ids : List String) (t : SyncItems) : SyncItems :=
  t.updateWhere (fun r => ids.contains r.id) (fun r => { r with status := .IN_FLIGHT })
    fun _ => rfl

def MAX_IDS_PER_STATEMENT : Nat := 500

/-- Claim the next `limit` eligible rows. The returned rows still carry their
status from before the claim. -/
def claimPending (now limit : Int) (t : SyncItems) : SyncItems × List SyncItemEntity :=
  let rows := selectClaimable now limit t
  ((chunked MAX_IDS_PER_STATEMENT (rows.map (·.id))).foldl (fun t ids => markInFlight ids t) t,
    rows)

def updateStatus (id : String) (status : ItemStatus) (attempts : Int)
    (lastAttemptAt : Option Int) (lastErrorCode : Option SyncErrorCode) (nextRetryAt : Int)
    (t : SyncItems) : SyncItems :=
  t.updateWhere (fun r => r.id == id)
    (fun r => { r with
      status := status
      attempts := attempts
      lastAttemptAt := lastAttemptAt
      lastErrorCode := lastErrorCode
      nextRetryAt := nextRetryAt })
    fun _ => rfl

/-- Reset every `IN_FLIGHT` row to `PENDING`. -/
def resetInFlight (t : SyncItems) : SyncItems :=
  t.updateWhere (fun r => r.status == .IN_FLIGHT) (fun r => { r with status := .PENDING })
    fun _ => rfl

/-- Earliest retry deadline among `PENDING` rows that were already attempted.
Never-attempted rows (`nextRetryAt = 0`) stay out. -/
def nextRetryDeadline (t : SyncItems) : Option Int :=
  t.minWhere (fun r => r.status == .PENDING && 0 < r.nextRetryAt) (·.nextRetryAt)

/-- Earliest deadline among all `PENDING` rows. -/
def nextPendingDeadline (t : SyncItems) : Option Int :=
  t.minWhere (fun r => r.status == .PENDING) (·.nextRetryAt)

theorem exists_nextRetryDeadline_le {t : SyncItems} {r : SyncItemEntity} (hr : r ∈ t.rows)
    (hs : r.status = .PENDING) (hn : 0 < r.nextRetryAt) :
    ∃ m, nextRetryDeadline t = some m ∧ m ≤ r.nextRetryAt :=
  KeyedTable.exists_minWhere_le hr (by simp [hs, hn])

/-- A table whose cooling rows were all in `t` has no earlier deadline. -/
theorem exists_nextRetryDeadline_of_subset {t t' : SyncItems} {m : Int}
    (hrows : ∀ r ∈ t'.rows, r.status = .PENDING → 0 < r.nextRetryAt → r ∈ t.rows)
    (h : nextRetryDeadline t' = some m) : ∃ m₀, nextRetryDeadline t = some m₀ ∧ m₀ ≤ m := by
  obtain ⟨r, hr, hp, rfl⟩ := KeyedTable.exists_of_minWhere h
  obtain ⟨hs, hn⟩ : r.status = .PENDING ∧ 0 < r.nextRetryAt := by simpa using hp
  exact exists_nextRetryDeadline_le (hrows r hr hs hn) hs hn

/-! ## What the statements do to the ids -/

@[simp] theorem keys_markInFlight (ids : List String) (t : SyncItems) :
    (markInFlight ids t).keys = t.keys :=
  KeyedTable.keys_updateWhere ..

@[simp] theorem keys_updateStatus (id : String) (status : ItemStatus) (attempts : Int)
    (lastAttemptAt : Option Int) (lastErrorCode : Option SyncErrorCode) (nextRetryAt : Int)
    (t : SyncItems) :
    (updateStatus id status attempts lastAttemptAt lastErrorCode nextRetryAt t).keys = t.keys :=
  KeyedTable.keys_updateWhere ..

@[simp] theorem keys_resetInFlight (t : SyncItems) : (resetInFlight t).keys = t.keys :=
  KeyedTable.keys_updateWhere ..

theorem keys_foldl_markInFlight (chunks : List (List String)) (t : SyncItems) :
    (chunks.foldl (fun t ids => markInFlight ids t) t).keys = t.keys := by
  induction chunks generalizing t with
  | nil => rfl
  | cons ids chunks ih => rw [List.foldl_cons, ih, keys_markInFlight]

@[simp] theorem keys_claimPending (now limit : Int) (t : SyncItems) :
    (claimPending now limit t).1.keys = t.keys :=
  keys_foldl_markInFlight _ t

theorem mem_deleteById {id x : String} {t : SyncItems} :
    x ∈ (deleteById id t).1.keys ↔ x ∈ t.keys ∧ x ≠ id := by
  simp only [KeyedTable.mem_keys, deleteById, KeyedTable.mem_deleteWhere, beq_eq_false_iff_ne]
  constructor
  · rintro ⟨r, ⟨hr, hne⟩, rfl⟩
    exact ⟨⟨r, hr, rfl⟩, hne⟩
  · rintro ⟨⟨r, hr, rfl⟩, hne⟩
    exact ⟨r, ⟨hr, hne⟩, rfl⟩

/-- A delete reports a row exactly when the id was in the table. -/
theorem deleteById_pos {id : String} {t : SyncItems} : 0 < (deleteById id t).2 ↔ id ∈ t.keys := by
  simp only [deleteById, KeyedTable.countWhere, List.countP_pos_iff, beq_iff_eq,
    KeyedTable.mem_keys]

theorem mem_updateStatus {id : String} {status : ItemStatus} {attempts : Int}
    {lastAttemptAt : Option Int} {lastErrorCode : Option SyncErrorCode} {nextRetryAt : Int}
    {t : SyncItems} {r : SyncItemEntity} :
    r ∈ (updateStatus id status attempts lastAttemptAt lastErrorCode nextRetryAt t).rows ↔
      ∃ r₀ ∈ t.rows, (if r₀.id == id then
        { r₀ with
          status := status
          attempts := attempts
          lastAttemptAt := lastAttemptAt
          lastErrorCode := lastErrorCode
          nextRetryAt := nextRetryAt }
        else r₀) = r :=
  KeyedTable.mem_updateWhere

/-! ## What a claim and a reset leave alone -/

/-- The row is a row of the table, up to its status. -/
def StatusOf (r : SyncItemEntity) (t : SyncItems) : Prop :=
  ∃ r₀ ∈ t.rows, r = { r₀ with status := r.status }

theorem StatusOf.of_mem {r : SyncItemEntity} {t : SyncItems} (h : r ∈ t.rows) : StatusOf r t :=
  ⟨r, h, rfl⟩

theorem statusOf_markInFlight {ids : List String} {t : SyncItems} {r : SyncItemEntity}
    (h : r ∈ (markInFlight ids t).rows) : StatusOf r t := by
  obtain ⟨r₀, hr₀, rfl⟩ := KeyedTable.mem_updateWhere.mp h
  refine ⟨r₀, hr₀, ?_⟩
  split <;> rfl

/-- A reset changes the status of rows in flight only. -/
theorem resetInFlight_cases {t : SyncItems} {r : SyncItemEntity}
    (h : r ∈ (resetInFlight t).rows) :
    ∃ r₀ ∈ t.rows, r = { r₀ with status := r.status } ∧
      (r₀.status = .FAILED → r.status = .FAILED) := by
  obtain ⟨r₀, hr₀, rfl⟩ := KeyedTable.mem_updateWhere.mp h
  refine ⟨r₀, hr₀, ?_, fun hfailed => ?_⟩
  · split <;> rfl
  · simp [hfailed]

theorem statusOf_resetInFlight {t : SyncItems} {r : SyncItemEntity}
    (h : r ∈ (resetInFlight t).rows) : StatusOf r t := by
  obtain ⟨r₀, hr₀, heq, -⟩ := resetInFlight_cases h
  exact ⟨r₀, hr₀, heq⟩

theorem statusOf_foldl_markInFlight {chunks : List (List String)} {t : SyncItems}
    {r : SyncItemEntity} (h : r ∈ (chunks.foldl (fun t ids => markInFlight ids t) t).rows) :
    StatusOf r t := by
  induction chunks generalizing t with
  | nil => exact .of_mem h
  | cons ids chunks ih =>
    obtain ⟨r₁, hr₁, heq⟩ := ih h
    obtain ⟨r₀, hr₀, heq₀⟩ := statusOf_markInFlight hr₁
    refine ⟨r₀, hr₀, ?_⟩
    rw [heq, heq₀]

theorem statusOf_claimPending {now limit : Int} {t : SyncItems} {r : SyncItemEntity}
    (h : r ∈ (claimPending now limit t).1.rows) : StatusOf r t :=
  statusOf_foldl_markInFlight h

/-! ## What a claim selects -/

theorem selectClaimable_subset {now limit : Int} {t : SyncItems} {r : SyncItemEntity}
    (h : r ∈ selectClaimable now limit t) :
    r ∈ t.rows ∧ r.status = .PENDING ∧ r.nextRetryAt ≤ now := by
  have hmem : r ∈ (t.rows.filter fun r => r.status == .PENDING && r.nextRetryAt ≤ now).insertionSort
      SyncItemEntity.DispatchedBefore := by
    unfold selectClaimable at h
    split at h
    · exact h
    · exact List.mem_of_mem_take h
  rw [List.mem_insertionSort, List.mem_filter] at hmem
  simpa using hmem

theorem selectClaimable_nodup (now limit : Int) (t : SyncItems) :
    ((selectClaimable now limit t).map (·.id)).Nodup := by
  have hsort : (((t.rows.filter fun r => r.status == .PENDING && r.nextRetryAt ≤ now).insertionSort
      SyncItemEntity.DispatchedBefore).map (·.id)).Nodup :=
    ((List.perm_insertionSort _ _).map _).nodup_iff.mpr
      (t.nodup.sublist (List.filter_sublist.map _))
  unfold selectClaimable
  split
  · exact hsort
  · exact hsort.sublist ((List.take_sublist _ _).map _)

/-! ## Which rows a claim changes -/

theorem mem_chunkedAux {α : Type} {size n : Nat} {xs chunk : List α} {x : α}
    (h : chunk ∈ chunkedAux size n xs) (hx : x ∈ chunk) : x ∈ xs := by
  induction n generalizing xs with
  | zero => cases h
  | succ n ih =>
    cases xs with
    | nil => cases h
    | cons y ys =>
      rcases List.mem_cons.mp h with rfl | h
      · exact List.mem_of_mem_take hx
      · exact List.mem_of_mem_drop (ih h)

theorem foldl_markInFlight_cases {chunks : List (List String)} {t : SyncItems}
    {r : SyncItemEntity} (h : r ∈ (chunks.foldl (fun t ids => markInFlight ids t) t).rows) :
    r ∈ t.rows ∨ ∃ ids ∈ chunks, r.id ∈ ids := by
  induction chunks generalizing t with
  | nil => exact .inl h
  | cons ids chunks ih =>
    rcases ih h with hr | ⟨ids', hids', hr⟩
    · obtain ⟨r₀, hr₀, rfl⟩ := KeyedTable.mem_updateWhere.mp hr
      by_cases hin : ids.contains r₀.id = true
      · rw [if_pos hin]
        exact .inr ⟨ids, List.mem_cons_self, by simpa using hin⟩
      · rw [if_neg hin]
        exact .inl hr₀
    · exact .inr ⟨ids', List.mem_cons_of_mem _ hids', hr⟩

theorem mem_foldl_markInFlight_of_notMem {chunks : List (List String)} {t : SyncItems}
    {r : SyncItemEntity} (hr : r ∈ t.rows) (hid : ∀ ids ∈ chunks, r.id ∉ ids) :
    r ∈ (chunks.foldl (fun t ids => markInFlight ids t) t).rows := by
  induction chunks generalizing t with
  | nil => exact hr
  | cons ids chunks ih =>
    have hnot : r.id ∉ ids := hid ids List.mem_cons_self
    refine ih (KeyedTable.mem_updateWhere.mpr ⟨r, hr, if_neg (by simpa using hnot)⟩) ?_
    exact fun ids' hids' => hid ids' (List.mem_cons_of_mem _ hids')

/-- A claim leaves the rows alone that it does not hand out. -/
theorem mem_claimPending_iff_of_notMem {now limit : Int} {t : SyncItems} {r : SyncItemEntity}
    (h : r.id ∉ (claimPending now limit t).2.map (·.id)) :
    r ∈ (claimPending now limit t).1.rows ↔ r ∈ t.rows := by
  constructor
  · intro hr
    rcases foldl_markInFlight_cases hr with hr | ⟨ids, hids, hid⟩
    · exact hr
    · exact absurd (mem_chunkedAux hids hid) h
  · intro hr
    exact mem_foldl_markInFlight_of_notMem hr fun ids hids hid => h (mem_chunkedAux hids hid)

/-- A claim changes the status of rows that wait only. -/
theorem claimPending_cases {now limit : Int} {t : SyncItems} {r : SyncItemEntity}
    (h : r ∈ (claimPending now limit t).1.rows) :
    ∃ r₀ ∈ t.rows, r = { r₀ with status := r.status } ∧
      (r₀.status = .FAILED → r.status = .FAILED) := by
  obtain ⟨r₀, hr₀, heq⟩ := statusOf_claimPending h
  refine ⟨r₀, hr₀, heq, fun hfailed => ?_⟩
  rcases foldl_markInFlight_cases h with hr | ⟨ids, hids, hid⟩
  · have hsame : r = r₀ := KeyedTable.eq_of_key_eq hr hr₀ (by rw [heq])
    rw [hsame, hfailed]
  · obtain ⟨x, hx, hxid⟩ := List.mem_map.mp (mem_chunkedAux hids hid)
    obtain ⟨hx, hstatus, -⟩ := selectClaimable_subset hx
    have hsame : x = r₀ := KeyedTable.eq_of_key_eq hx hr₀ (by
      show x.id = r₀.id
      rw [hxid, heq])
    rw [hsame, hfailed] at hstatus
    cases hstatus

/-! ## Where a row is after a claim and a reset -/

theorem exists_mem_chunkedAux {α : Type} {size n : Nat} {xs : List α} {x : α} (hsize : 0 < size)
    (hn : xs.length ≤ n) (hx : x ∈ xs) : ∃ chunk ∈ chunkedAux size n xs, x ∈ chunk := by
  induction n generalizing xs with
  | zero =>
    rw [List.length_eq_zero_iff.mp (Nat.le_zero.mp hn)] at hx
    cases hx
  | succ n ih =>
    cases xs with
    | nil => cases hx
    | cons y ys =>
      rw [← List.take_append_drop size (y :: ys), List.mem_append] at hx
      rcases hx with hx | hx
      · exact ⟨_, List.mem_cons_self, hx⟩
      · have hshort : ((y :: ys).drop size).length ≤ n := by
          rw [List.length_drop, List.length_cons]
          rw [List.length_cons] at hn
          omega
        obtain ⟨chunk, hchunk, hin⟩ := ih hshort hx
        exact ⟨chunk, List.mem_cons_of_mem _ hchunk, hin⟩

/-- A row in flight stays in flight, whatever is marked after it. -/
theorem mem_foldl_markInFlight {chunks : List (List String)} {t : SyncItems} {r : SyncItemEntity}
    (h : { r with status := .IN_FLIGHT } ∈ t.rows ∨
      r ∈ t.rows ∧ ∃ ids ∈ chunks, r.id ∈ ids) :
    { r with status := .IN_FLIGHT } ∈
      (chunks.foldl (fun t ids => markInFlight ids t) t).rows := by
  induction chunks generalizing t with
  | nil =>
    rcases h with h | ⟨-, ids, hids, -⟩
    · exact h
    · cases hids
  | cons ids chunks ih =>
    refine ih ?_
    rcases h with h | ⟨h, ids', hids', hid⟩
    · refine .inl (KeyedTable.mem_updateWhere.mpr ⟨_, h, ?_⟩)
      split <;> rfl
    · by_cases hin : r.id ∈ ids
      · exact .inl (KeyedTable.mem_updateWhere.mpr ⟨r, h, if_pos (by simpa using hin)⟩)
      · have hkept : r ∈ (markInFlight ids t).rows :=
          KeyedTable.mem_updateWhere.mpr ⟨r, h, if_neg (by simpa using hin)⟩
        refine .inr ⟨hkept, ids', ?_, hid⟩
        rcases List.mem_cons.mp hids' with rfl | hids'
        · exact absurd hid hin
        · exact hids'

/-- A claimed row is in flight. -/
theorem mem_claimPending {now limit : Int} {t : SyncItems} {r : SyncItemEntity}
    (h : r ∈ (claimPending now limit t).2) :
    { r with status := .IN_FLIGHT } ∈ (claimPending now limit t).1.rows := by
  refine mem_foldl_markInFlight (.inr ⟨(selectClaimable_subset h).1, ?_⟩)
  exact exists_mem_chunkedAux (by decide) le_rfl (List.mem_map.mpr ⟨r, h, rfl⟩)

/-- A row that waits is one that was in flight or waited. -/
theorem mem_resetInFlight {t : SyncItems} {r : SyncItemEntity} {status : ItemStatus}
    (hstatus : status = .IN_FLIGHT ∨ status = .PENDING)
    (h : { r with status := status } ∈ t.rows) :
    { r with status := .PENDING } ∈ (resetInFlight t).rows := by
  refine KeyedTable.mem_updateWhere.mpr ⟨_, h, ?_⟩
  rcases hstatus with rfl | rfl
  · rfl
  · rfl

end SyncItemDao

end SyncProvider.Android
