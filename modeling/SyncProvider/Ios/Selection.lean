import SyncProvider.Ios.Database
import SyncProvider.Lib.OrderBy

/-!
# iOS: the fetches that sort

`sorted(by:)` need not be stable, and it compares ranks and creation times only.
Here the order of the rows that agree in both is a parameter, and the fetches of
the DAO are the ones whose sort leaves them as they are in the store.
-/

namespace SyncProvider.Ios

namespace SyncItemDao

instance : Std.Total DispatchedBefore := ⟨fun a b => by unfold DispatchedBefore; omega⟩

instance : IsTrans StoredSyncItem DispatchedBefore :=
  ⟨fun a b c hab hbc => by unfold DispatchedBefore at *; omega⟩

/-- The sort of a fetch. -/
abbrev RowOrder := OrderBy DispatchedBefore

def eligible (nowMs : Int) (r : StoredSyncItem) : Bool :=
  r.status == .PENDING && r.nextRetryAt ≤ nowMs

def fetchPendingBy (orderBy : RowOrder) (nowMs limit : Int) (t : StoredItems) :
    List StoredSyncItem :=
  let sorted := orderBy.sort (t.rows.filter (eligible nowMs))
  if limit > 0 then sorted.take limit.toNat else sorted

/-- Every `PENDING` row, cooling or not. -/
def fetchQueuedBy (orderBy : RowOrder) (t : StoredItems) : List StoredSyncItem :=
  orderBy.sort (t.rows.filter fun r => r.status == .PENDING)

theorem fetchPendingBy_stable (nowMs limit : Int) (t : StoredItems) :
    fetchPendingBy (.stable DispatchedBefore) nowMs limit t = fetchPending nowMs limit t := rfl

theorem fetchPendingBy_eq_first {orderBy : RowOrder} {nowMs limit : Int} (hlimit : 1 ≤ limit)
    (t : StoredItems) :
    fetchPendingBy orderBy nowMs limit t =
      orderBy.first limit.toNat (t.rows.filter (eligible nowMs)) := by
  simp only [fetchPendingBy]
  rw [if_pos (by omega)]
  rfl

theorem fetchPendingBy_sublist (orderBy : RowOrder) (nowMs limit : Int) (t : StoredItems) :
    (fetchPendingBy orderBy nowMs limit t).Sublist
      (orderBy.sort (t.rows.filter (eligible nowMs))) := by
  simp only [fetchPendingBy]
  split
  · exact List.take_sublist _ _
  · exact List.Sublist.refl _

end SyncItemDao

end SyncProvider.Ios
