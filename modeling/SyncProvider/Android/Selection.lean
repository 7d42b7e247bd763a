import SyncProvider.Android.Database
import SyncProvider.Lib.OrderBy

/-!
# Android: the queries with an `ORDER BY`

`ORDER BY priorityWeight, createdAt` says nothing about rows that agree in both.
Here the order of such rows is a parameter, and the queries of the DAO are the
ones whose sort leaves them as they are in the table.

Results:
1. `rows_claimPendingBy` : what a claim does to the table, however many ids it has.
2. `left_out_not_before` : which rows a claim leaves out.
-/

namespace SyncProvider.Android

namespace SyncItemEntity

instance : Std.Total DispatchedBefore := ⟨fun a b => by unfold DispatchedBefore; omega⟩

instance : IsTrans SyncItemEntity DispatchedBefore :=
  ⟨fun a b c hab hbc => by unfold DispatchedBefore at *; omega⟩

/-- The sort of a query. -/
abbrev RowOrder := OrderBy DispatchedBefore

def eligible (now : Int) (r : SyncItemEntity) : Bool := r.status == .PENDING && r.nextRetryAt ≤ now

theorem eligible_iff {now : Int} {r : SyncItemEntity} :
    r.eligible now = true ↔ r.status = .PENDING ∧ r.nextRetryAt ≤ now := by
  simp [eligible]

/-- Strictly, in the dispatch order. -/
def StrictlyBefore (a b : SyncItemEntity) : Prop :=
  a.priorityWeight < b.priorityWeight ∨
    a.priorityWeight = b.priorityWeight ∧ a.createdAt < b.createdAt

theorem DispatchedBefore.not_strictlyBefore {a b : SyncItemEntity} (h : DispatchedBefore a b) :
    ¬ StrictlyBefore b a := by
  unfold DispatchedBefore at h
  unfold StrictlyBefore
  omega

end SyncItemEntity

namespace SyncItemDao

open SyncItemEntity (RowOrder DispatchedBefore StrictlyBefore eligible)

/-- `LIMIT`. SQLite reads a negative one as none. -/
def limited (limit : Int) (rows : List SyncItemEntity) : List SyncItemEntity :=
  if limit < 0 then rows else rows.take limit.toNat

def selectClaimableBy (orderBy : RowOrder) (now limit : Int) (t : SyncItems) :
    List SyncItemEntity :=
  limited limit (orderBy.sort (t.rows.filter (eligible now)))

/-- Flip the ids to `IN_FLIGHT`, one statement for each 500 of them. -/
def markAllInFlight (ids : List String) (t : SyncItems) : SyncItems :=
  (chunked MAX_IDS_PER_STATEMENT ids).foldl (fun t ids => markInFlight ids t) t

def claimPendingBy (orderBy : RowOrder) (now limit : Int) (t : SyncItems) :
    SyncItems × List SyncItemEntity :=
  let rows := selectClaimableBy orderBy now limit t
  (markAllInFlight (rows.map (·.id)) t, rows)

/-- `findByStatusesLimit`, for the one status it is asked for. -/
def findByStatusesLimitBy (orderBy : RowOrder) (status : ItemStatus) (limit : Int)
    (t : SyncItems) : List SyncItemEntity :=
  limited limit (orderBy.sort (t.rows.filter fun r => r.status == status))

def findByStatusesBy (orderBy : RowOrder) (status : ItemStatus) (t : SyncItems) :
    List SyncItemEntity :=
  orderBy.sort (t.rows.filter fun r => r.status == status)

theorem claimPendingBy_stable (now limit : Int) (t : SyncItems) :
    claimPendingBy (.stable DispatchedBefore) now limit t = claimPending now limit t := rfl

/-! ## 1. What a claim does to the table -/

theorem flatten_chunkedAux {α : Type} {size n : Nat} {xs : List α} (hsize : 0 < size)
    (hn : xs.length ≤ n) : (chunkedAux size n xs).flatten = xs := by
  induction n generalizing xs with
  | zero => rw [List.length_eq_zero_iff.mp (Nat.le_zero.mp hn), chunkedAux, List.flatten_nil]
  | succ n ih =>
    cases xs with
    | nil => rfl
    | cons y ys =>
      have hshort : ((y :: ys).drop size).length ≤ n := by
        rw [List.length_drop, List.length_cons]
        rw [List.length_cons] at hn
        omega
      show ((y :: ys).take size :: chunkedAux size n ((y :: ys).drop size)).flatten = y :: ys
      rw [List.flatten_cons, ih hshort, List.take_append_drop]

theorem flatten_chunked {α : Type} {size : Nat} (hsize : 0 < size) (xs : List α) :
    (chunked size xs).flatten = xs :=
  flatten_chunkedAux hsize le_rfl

/-- The row after a claim that hands out these ids. -/
def claimedIn (ids : List String) (r : SyncItemEntity) : SyncItemEntity :=
  if r.id ∈ ids then { r with status := .IN_FLIGHT } else r

@[simp] theorem claimedIn_id (ids : List String) (r : SyncItemEntity) :
    (claimedIn ids r).id = r.id := by
  unfold claimedIn
  split <;> rfl

theorem claimedIn_append (ids ids' : List String) (r : SyncItemEntity) :
    claimedIn ids' (claimedIn ids r) = claimedIn (ids ++ ids') r := by
  simp only [claimedIn, List.mem_append]
  split <;> split <;> simp_all

theorem rows_markInFlight (ids : List String) (t : SyncItems) :
    (markInFlight ids t).rows = t.rows.map (claimedIn ids) := by
  rw [markInFlight, KeyedTable.rows_updateWhere]
  exact List.map_congr_left fun r _ => by simp [claimedIn]

theorem rows_foldl_markInFlight (chunks : List (List String)) (t : SyncItems) :
    (chunks.foldl (fun t ids => markInFlight ids t) t).rows =
      t.rows.map (claimedIn chunks.flatten) := by
  induction chunks generalizing t with
  | nil =>
    have hid : claimedIn [] = id := by
      funext r
      simp [claimedIn]
    simp [hid]
  | cons ids chunks ih =>
    rw [List.foldl_cons, ih, rows_markInFlight, List.map_map, List.flatten_cons]
    exact List.map_congr_left fun r _ => claimedIn_append ids chunks.flatten r

/-- The claimed rows are in flight, and nothing else has changed. -/
theorem rows_claimPendingBy (orderBy : RowOrder) (now limit : Int) (t : SyncItems) :
    (claimPendingBy orderBy now limit t).1.rows =
      t.rows.map (claimedIn ((claimPendingBy orderBy now limit t).2.map (·.id))) := by
  simp only [claimPendingBy, markAllInFlight]
  rw [rows_foldl_markInFlight, flatten_chunked (by decide)]

/-! ## 2. What a claim hands out -/

variable {orderBy : RowOrder} {now limit : Int} {t : SyncItems}

/-- With a limit of at least 0 the claim is the first rows in the order. -/
theorem claimPendingBy_snd (hlimit : 0 ≤ limit) :
    (claimPendingBy orderBy now limit t).2 =
      orderBy.first limit.toNat (t.rows.filter (eligible now)) := by
  simp only [claimPendingBy, selectClaimableBy, limited]
  rw [if_neg (by omega)]
  rfl

theorem limited_sublist (limit : Int) (rows : List SyncItemEntity) :
    (limited limit rows).Sublist rows := by
  unfold limited
  split
  · exact List.Sublist.refl _
  · exact List.take_sublist _ _

theorem selectClaimableBy_subset {r : SyncItemEntity}
    (h : r ∈ selectClaimableBy orderBy now limit t) : r ∈ t.rows ∧ r.eligible now = true :=
  List.mem_filter.mp (orderBy.mem_sort.mp ((limited_sublist _ _).subset h))

theorem selectClaimableBy_nodup :
    ((selectClaimableBy orderBy now limit t).map (·.id)).Nodup := by
  have hrows : ((t.rows.filter (eligible now)).map (·.id)).Nodup :=
    t.nodup.sublist (List.filter_sublist.map _)
  have hsort : ((orderBy.sort (t.rows.filter (eligible now))).map (·.id)).Nodup :=
    ((orderBy.perm _).map _).nodup_iff.mpr hrows
  exact hsort.sublist ((limited_sublist _ _).map _)

/-- A row that is eligible and left out is not strictly before a claimed one. -/
theorem left_out_not_before (hlimit : 0 ≤ limit) {r x : SyncItemEntity} (hr : r ∈ t.rows)
    (heligible : r.eligible now = true) (hout : r ∉ (claimPendingBy orderBy now limit t).2)
    (hx : x ∈ (claimPendingBy orderBy now limit t).2) : ¬ StrictlyBefore r x := by
  rw [claimPendingBy_snd hlimit] at hout hx
  have hle := OrderBy.le_of_left_out (List.mem_filter.mpr ⟨hr, heligible⟩) hout hx
  exact hle.not_strictlyBefore

end SyncItemDao

end SyncProvider.Android
