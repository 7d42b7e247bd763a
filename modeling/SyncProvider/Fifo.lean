import SyncProvider.Android.Fifo
import SyncProvider.Ios.Fifo

/-!
# First in, first out

`createdAt` is documented as monotonic with respect to enqueue order. Both engines
take it from the wall clock and have nothing else to order by.

Results:
1. `fifo_iff_clock_ascends` : for which readings each queue is first in, first out.
2. `clock_set_back_turns_queue_round` : two calls, with the clock set back between
   them.
-/

namespace SyncProvider

/-- On each platform, for any items with distinct ids: in every run that enqueues
them, and whatever the sorts do with equal keys, `createdAt` is non-decreasing and
the queue shows the items of each priority in the order of their enqueue, exactly
when the clock did not go back from any item to the next and went on between any
two of one priority. -/
theorem fifo_iff_clock_ascends (accepts : Android.HttpRequest → Bool)
    (items : List Android.SyncQueueStorage.NewItem) (scheme : String → Option String)
    (items' : List Ios.SyncQueueStorage.NewItem) :
    ((items.map (·.id)).Nodup →
      ((∀ e, Android.Engine.Receives accepts items e → Android.Fifo items e.world.table) ↔
        Android.Ascending items)) ∧
    ((items'.map (·.id)).Nodup →
      ((∀ e, Ios.Engine.Receives scheme items' e → Ios.Fifo items' e.world.store) ↔
        Ios.Ascending items')) :=
  ⟨Android.fifo_iff accepts, Ios.fifo_iff scheme⟩

section Sample

/-- Two items of one priority, enqueued at these times. -/
def androidItems (first second : Int) : List Android.SyncQueueStorage.NewItem :=
  [{ Android.SyncQueueStorage.sampleItem "A" with now := first },
    { Android.SyncQueueStorage.sampleItem "B" with now := second }]

def iosItems (first second : Int) : List Ios.SyncQueueStorage.NewItem :=
  [{ Ios.SyncQueueStorage.sampleItem "A" with nowMs := first },
    { Ios.SyncQueueStorage.sampleItem "B" with nowMs := second }]

/-- The clock goes on by a millisecond. -/
theorem fifo_when_clock_goes_on :
    (∀ e, Android.Engine.Receives (fun _ => true) (androidItems 1000 1001) e →
      Android.Fifo (androidItems 1000 1001) e.world.table) ∧
    ∀ e, Ios.Engine.Receives Ios.Engine.https (iosItems 1000 1001) e →
      Ios.Fifo (iosItems 1000 1001) e.world.store := by
  obtain ⟨handroid, hios⟩ := fifo_iff_clock_ascends (fun _ => true) (androidItems 1000 1001)
    Ios.Engine.https (iosItems 1000 1001)
  constructor
  · refine (handroid (by decide)).mpr ?_
    simp [Android.Ascending, androidItems]
  · refine (hios (by decide)).mpr ?_
    simp [Ios.Ascending, iosItems]

/-! ## 2. A clock that was set back -/

/-- The second item is enqueued half a second before the first one, by the clock.
Both queues show it first. -/
theorem clock_set_back_turns_queue_round :
    (∃ e, Android.Engine.Receives (fun _ => true) (androidItems 1000 500) e ∧
      ¬ Android.Fifo (androidItems 1000 500) e.world.table ∧
      (Android.SyncItemDao.findByStatusesBy (.stable _) .PENDING e.world.table).map (·.id) =
        ["B", "A"]) ∧
    ∃ e, Ios.Engine.Receives Ios.Engine.https (iosItems 1000 500) e ∧
      ¬ Ios.Fifo (iosItems 1000 500) e.world.store ∧
      (Ios.SyncItemDao.fetchQueuedBy (.stable _) e.world.store).map (·.id) = ["B", "A"] := by
  constructor
  · obtain ⟨e, he, hrows⟩ := Android.Engine.exists_receives (fun _ => true)
      (show ((androidItems 1000 500).map (·.id)).Nodup by decide)
    refine ⟨e, he, fun hfifo => ?_, ?_⟩
    · have hle := hfifo.createdAt
      revert hle
      decide
    · rw [Android.SyncItemDao.findByStatusesBy, hrows]
      decide
  · obtain ⟨e, he, hrows⟩ := Ios.Engine.exists_receives Ios.Engine.https
      (show ((iosItems 1000 500).map (·.id)).Nodup by decide)
    refine ⟨e, he, fun hfifo => ?_, ?_⟩
    · have hle := hfifo.createdAt
      revert hle
      decide
    · rw [Ios.SyncItemDao.fetchQueuedBy, hrows]
      decide

end Sample

end SyncProvider
