import SyncProvider.Android.Selection
import SyncProvider.Ios.Selection

/-!
# What a cycle selects, on both platforms

Android orders by a numeric column and marks what it selects in the same
transaction, iOS ranks the name of the priority. Neither order says anything about
two rows of one priority with the same creation time, so what the two engines
select is compared where there are none.

Results:
1. `claim_selects_first` : what Android claims, and that iOS selects the same rows.
-/

namespace SyncProvider

/-- The row as iOS stores it. It has no column for the weight. -/
def stored (r : Android.SyncItemEntity) : Ios.StoredSyncItem where
  id := r.id
  method := r.method.name
  url := r.url
  headers := r.headers
  body := r.body
  contentType := r.contentType
  priority := r.priority.name
  createdAt := r.createdAt
  attempts := r.attempts
  lastAttemptAt := r.lastAttemptAt
  nextRetryAt := r.nextRetryAt
  lastErrorCode := r.lastErrorCode
  status := r.status
  metadata := r.metadata

/-- The same rows, in any order. The weight on Android is that of the priority. -/
structure SameRows (t : Android.SyncItems) (t' : Ios.StoredItems) : Prop where
  weights : ∀ r ∈ t.rows, r.priorityWeight = Android.SyncItemEntity.weightOf r.priority
  perm : t'.rows.Perm (t.rows.map stored)

/-- No two rows of one priority have the same creation time. -/
def DistinctStamps (t : Android.SyncItems) : Prop :=
  ∀ a ∈ t.rows, ∀ b ∈ t.rows, a.priority = b.priority → a.createdAt = b.createdAt → a = b

instance (t : Android.SyncItems) : Decidable (DistinctStamps t) :=
  inferInstanceAs (Decidable (∀ a ∈ t.rows, ∀ b ∈ t.rows, a.priority = b.priority →
    a.createdAt = b.createdAt → a = b))

/-! ## The two orders -/

theorem priorityRank_name (p : SyncPriority) :
    (Ios.SyncItemDao.priorityRank p.name : Int) = Android.SyncItemEntity.weightOf p := by
  cases p <;> decide

theorem weightOf_injective {p q : SyncPriority}
    (h : Android.SyncItemEntity.weightOf p = Android.SyncItemEntity.weightOf q) : p = q := by
  cases p <;> cases q <;> first | rfl | cases h

variable {t : Android.SyncItems} {t' : Ios.StoredItems}

theorem SameRows.dispatchedBefore (h : SameRows t t') {a b : Android.SyncItemEntity}
    (ha : a ∈ t.rows) (hb : b ∈ t.rows) :
    Ios.SyncItemDao.DispatchedBefore (stored a) (stored b) ↔
      Android.SyncItemEntity.DispatchedBefore a b := by
  have hra := priorityRank_name a.priority
  have hrb := priorityRank_name b.priority
  unfold Ios.SyncItemDao.DispatchedBefore Android.SyncItemEntity.DispatchedBefore
  rw [h.weights a ha, h.weights b hb]
  simp only [stored]
  omega

theorem SameRows.eligible (h : SameRows t t') (now : Int) :
    (t'.rows.filter (Ios.SyncItemDao.eligible now)).Perm
      ((t.rows.filter (Android.SyncItemEntity.eligible now)).map stored) := by
  have hfilter := h.perm.filter (Ios.SyncItemDao.eligible now)
  rwa [List.filter_map] at hfilter

/-- Without two equal stamps, no two rows on iOS are equal in its order. -/
theorem SameRows.distinct (h : SameRows t t') (hstamps : DistinctStamps t) :
    OrderBy.Distinct Ios.SyncItemDao.DispatchedBefore t'.rows := by
  intro a ha b hb hab hba
  obtain ⟨r, hr, rfl⟩ := List.mem_map.mp (h.perm.mem_iff.mp ha)
  obtain ⟨x, hx, rfl⟩ := List.mem_map.mp (h.perm.mem_iff.mp hb)
  have hle := (h.dispatchedBefore hr hx).mp hab
  have hge := (h.dispatchedBefore hx hr).mp hba
  unfold Android.SyncItemEntity.DispatchedBefore at hle hge
  have hweight : Android.SyncItemEntity.weightOf r.priority =
      Android.SyncItemEntity.weightOf x.priority := by
    rw [← h.weights r hr, ← h.weights x hx]
    omega
  rw [hstamps r hr x hx (weightOf_injective hweight) (by omega)]

theorem fetchPending_eq_map {orderBy : Android.SyncItemEntity.RowOrder}
    {orderBy' : Ios.SyncItemDao.RowOrder} {now limit : Int} (hlimit : 1 ≤ limit)
    (h : SameRows t t') (hstamps : DistinctStamps t) :
    Ios.SyncItemDao.fetchPendingBy orderBy' now limit t' =
      (Android.SyncItemDao.claimPendingBy orderBy now limit t).2.map stored := by
  rw [Ios.SyncItemDao.fetchPendingBy_eq_first hlimit,
    Android.SyncItemDao.claimPendingBy_snd (by omega)]
  refine OrderBy.first_eq_map _ (h.eligible now) ?_ ?_
  · intro a ha b hb hab
    exact (h.dispatchedBefore (List.mem_of_mem_filter ha) (List.mem_of_mem_filter hb)).mpr hab
  · intro a ha b hb
    exact h.distinct hstamps a (List.mem_of_mem_filter ha) b (List.mem_of_mem_filter hb)

/-! ## 1. What is selected -/

/-- What Android claims is sorted, is eligible, is as much as there is up to the
limit, and leaves out nothing that comes strictly before it. -/
structure SelectsFirst (now limit : Int) (t : Android.SyncItems)
    (claimed : List Android.SyncItemEntity) : Prop where
  sorted : claimed.Pairwise Android.SyncItemEntity.DispatchedBefore
  length : (claimed.length : Int) =
    min limit (t.rows.countP (Android.SyncItemEntity.eligible now))
  nodup : (claimed.map (·.id)).Nodup
  eligible : ∀ r ∈ claimed, r ∈ t.rows ∧ r.status = .PENDING ∧ r.nextRetryAt ≤ now
  leftOut : ∀ r ∈ t.rows, r.status = .PENDING → r.nextRetryAt ≤ now → r ∉ claimed →
    ∀ x ∈ claimed, ¬ Android.SyncItemEntity.StrictlyBefore r x

theorem selectsFirst_claimPending {orderBy : Android.SyncItemEntity.RowOrder} {now limit : Int}
    (hlimit : 1 ≤ limit) (t : Android.SyncItems) :
    SelectsFirst now limit t (Android.SyncItemDao.claimPendingBy orderBy now limit t).2 where
  sorted := by
    rw [Android.SyncItemDao.claimPendingBy_snd (by omega)]
    exact orderBy.sorted_first _ _
  length := by
    rw [Android.SyncItemDao.claimPendingBy_snd (by omega), OrderBy.length_first,
      List.countP_eq_length_filter]
    omega
  nodup := Android.SyncItemDao.selectClaimableBy_nodup
  eligible r hr := by
    obtain ⟨hmem, heligible⟩ := Android.SyncItemDao.selectClaimableBy_subset hr
    exact ⟨hmem, Android.SyncItemEntity.eligible_iff.mp heligible⟩
  leftOut r hr hstatus hretry hout x hx :=
    Android.SyncItemDao.left_out_not_before (by omega) hr
      (Android.SyncItemEntity.eligible_iff.mpr ⟨hstatus, hretry⟩) hout hx

/-- For every table, clock and limit of at least 1, and whatever the two stores do
with rows that are equal in their order: Android claims the first eligible rows
and flips their status, and iOS selects the same rows when no two of one priority
have the same creation time. -/
theorem claim_selects_first (orderBy : Android.SyncItemEntity.RowOrder)
    (orderBy' : Ios.SyncItemDao.RowOrder) (t : Android.SyncItems) (now : Int) {limit : Int}
    (hlimit : 1 ≤ limit) :
    SelectsFirst now limit t (Android.SyncItemDao.claimPendingBy orderBy now limit t).2 ∧
    (Android.SyncItemDao.claimPendingBy orderBy now limit t).1.rows = t.rows.map (fun r =>
      if r.id ∈ (Android.SyncItemDao.claimPendingBy orderBy now limit t).2.map (·.id) then
        { r with status := .IN_FLIGHT }
      else r) ∧
    ∀ t' : Ios.StoredItems, SameRows t t' → DistinctStamps t →
      Ios.SyncItemDao.fetchPendingBy orderBy' now limit t' =
        (Android.SyncItemDao.claimPendingBy orderBy now limit t).2.map stored := by
  refine ⟨selectsFirst_claimPending hlimit t, ?_, fun t' hsame hstamps => ?_⟩
  · exact Android.SyncItemDao.rows_claimPendingBy orderBy now limit t
  · exact fetchPending_eq_map hlimit hsame hstamps

section Sample

def sampleRow (id : String) (priority : SyncPriority) (createdAt : Int) :
    Android.SyncItemEntity where
  id := id
  method := .POST
  url := "https://api.example.com/orders"
  headers := none
  body := none
  contentType := none
  priority := priority
  priorityWeight := Android.SyncItemEntity.weightOf priority
  createdAt := createdAt
  attempts := 0
  lastAttemptAt := none
  lastErrorCode := none
  status := .PENDING
  metadata := none
  nextRetryAt := 0

def sampleRows : List Android.SyncItemEntity :=
  [sampleRow "A" .LOW 1000, sampleRow "B" .HIGH 2000, sampleRow "C" .NORMAL 1000]

/-- The iOS store has the same rows in another order. -/
theorem claim_selects_first_two :
    ∃ (t : Android.SyncItems) (t' : Ios.StoredItems), t.rows = sampleRows ∧ SameRows t t' ∧
      SelectsFirst 5000 2 t
        (Android.SyncItemDao.claimPendingBy (.stable _) 5000 2 t).2 ∧
      (Ios.SyncItemDao.fetchPendingBy (.reversed _) 5000 2 t').map (·.id) = ["B", "C"] := by
  have hsame : SameRows ⟨sampleRows, by decide⟩ ⟨sampleRows.reverse.map stored, by decide⟩ :=
    ⟨by decide, sampleRows.reverse_perm.map stored⟩
  obtain ⟨hfirst, -, hios⟩ := claim_selects_first (.stable _) (.reversed _)
    ⟨sampleRows, by decide⟩ 5000 (show (1 : Int) ≤ 2 by decide)
  refine ⟨_, _, rfl, hsame, hfirst, ?_⟩
  rw [hios _ hsame (by decide)]
  decide

end Sample

end SyncProvider
