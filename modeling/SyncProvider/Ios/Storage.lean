import SyncProvider.Ios.Database
import SyncProvider.Lib.Gate

/-!
# iOS: `SyncQueueStorage` and its cap

`SyncQueueStorage` is an actor, but an actor lets other calls in at every
`await`, and `enqueue` has one before its check and one after it. So the
storage is a `Gate`: any number of calls interleave between count and insert.
The cap is on the `PENDING` rows.

Results:
1. `within_capacity_iff_alone` : the orders of calls that keep every capacity are
   those in which no other call commits between the count of a call and its insert.
2. `interleaved_enqueues_exceed_capacity` : two interleaved calls go past it.
-/

namespace SyncProvider.Ios

/-! ## The input -/

structure SyncItemInputData where
  method : String
  url : String
  headers : Option StringMap
  body : Option String
  contentType : Option String
  priority : String
  metadata : Option StringMap
  deriving DecidableEq

structure SyncProviderError where
  code : SyncErrorCode
  message : String
  deriving DecidableEq

def SyncProviderError.queueFull (limit : Int) : SyncProviderError where
  code := .QUEUE_FULL
  message := "Queue is full (limit " ++ toString limit ++ " items)"

namespace SyncQueueStorage

/-- The row of a new item. `id` is the generated ulid, `nowMs` the clock. -/
def build (input : SyncItemInputData) (id : String) (nowMs : Int) : StoredSyncItem where
  id := id
  method := input.method
  url := input.url
  headers := input.headers
  body := input.body
  contentType := input.contentType
  priority := input.priority
  createdAt := nowMs
  attempts := 0
  lastAttemptAt := none
  nextRetryAt := 0
  lastErrorCode := none
  status := .PENDING
  metadata := input.metadata

/-- An input with the id and the creation time its row will get. -/
structure NewItem where
  input : SyncItemInputData
  id : String
  nowMs : Int
  deriving DecidableEq

def NewItem.stored (item : NewItem) : StoredSyncItem := build item.input item.id item.nowMs

/-! ## The calls -/

inductive EnqueueCall where
  | enqueue (item : NewItem)
  | enqueueBatch (items : List NewItem)
  deriving DecidableEq

def EnqueueCall.items : EnqueueCall → List NewItem
  | .enqueue item => [item]
  | .enqueueBatch items => items

inductive RemoveCall where
  | remove (id : String)
  | clear
  deriving DecidableEq

/-- What a call that inserts nothing comes back with. -/
abbrev Answer := Except SyncProviderError (List String)

/-- An empty batch is done before the count. -/
def beforeCount : EnqueueCall → Option Answer
  | .enqueueBatch [] => some (.ok [])
  | _ => none

/-- The `guard` of the two calls, on the count and the capacity of that moment. -/
def refusal (call : EnqueueCall) (currentCount : Nat) (capacity : Int) : Option Answer :=
  match call with
  | .enqueue _ =>
    if (currentCount : Int) < capacity then none else some (.error (.queueFull capacity))
  | .enqueueBatch items =>
    if (currentCount : Int) + items.length ≤ capacity then none
    else some (.error (.queueFull capacity))

def run : RemoveCall → StoredItems → StoredItems
  | .remove id, t => (SyncItemDao.delete id t).1
  | .clear, t => SyncItemDao.clear t

/-- A new row is `PENDING`, so each one counts. -/
theorem countPending_insertBatch {items : List NewItem} {t t' : StoredItems}
    (h : SyncItemDao.insertBatch (items.map NewItem.stored) t = some t') :
    SyncItemDao.countPending t' = SyncItemDao.countPending t + items.length := by
  have hnew : (items.map NewItem.stored).countP (fun r => r.status == .PENDING) =
      items.length := by
    rw [List.countP_map, List.countP_eq_length]
    exact fun _ _ => rfl
  unfold SyncItemDao.countPending KeyedTable.countWhere
  rw [KeyedTable.rows_insertAll h, List.countP_append, hnew]

theorem countPending_run_le (call : RemoveCall) (t : StoredItems) :
    SyncItemDao.countPending (run call t) ≤ SyncItemDao.countPending t := by
  cases call with
  | remove id => exact List.filter_sublist.countP_le
  | clear => exact Nat.zero_le _

/-- The storage as a gate on the `PENDING` rows. -/
def gate : Gate StoredItems EnqueueCall RemoveCall Answer where
  size := SyncItemDao.countPending
  weight call := call.items.length
  early := beforeCount
  refusal := refusal
  insert call := SyncItemDao.insertBatch (call.items.map NewItem.stored)
  remove := run
  size_insert := countPending_insertBatch
  size_remove := countPending_run_le

/-! ## 1. When the cap holds -/

/-- The `guard` lets through what fits. -/
theorem refusal_eq_none_iff {call : EnqueueCall} {currentCount : Nat} {capacity : Int} :
    refusal call currentCount capacity = none ↔
      (currentCount : Int) + call.items.length ≤ capacity := by
  cases call with
  | enqueue item =>
    simp only [refusal, EnqueueCall.items, List.length_singleton]
    split <;> simp <;> omega
  | enqueueBatch items =>
    simp only [refusal, EnqueueCall.items]
    split <;> simp_all

/-- A call that counts has rows to insert. -/
theorem length_pos_of_beforeCount {call : EnqueueCall} (h : beforeCount call = none) :
    0 < call.items.length := by
  cases call with
  | enqueue item => exact Nat.one_pos
  | enqueueBatch items =>
    cases items with
    | nil => cases h
    | cons item items => exact Nat.succ_pos _

/-- For an order of steps, from any queue. If no other call commits between the count of a
call and its insert, then right after each commit the `PENDING` rows are within the
capacity that the call checked, whatever is removed meanwhile and at every capacity. And
an order of `enqueue` and `enqueueBatch` calls that can run keeps every capacity only so. -/
theorem within_capacity_iff_alone (store : StoredItems)
    (ls : List (Gate.Label EnqueueCall RemoveCall)) :
    (Gate.Alone ls → ∀ capacity,
      StepSystem.Meets gate.step gate.CapKept (Gate.opened store capacity) ls) ∧
    ∀ capacity s, (∀ l ∈ ls, l.IsCall) →
      StepSystem.exec gate.step (Gate.opened store capacity) ls = some s →
      ((∀ capacity, StepSystem.Meets gate.step gate.CapKept (Gate.opened store capacity) ls) ↔
        Gate.Alone ls) := by
  have halone (halone : Gate.Alone ls) (capacity : Int) :
      StepSystem.Meets gate.step gate.CapKept (Gate.opened store capacity) ls := by
    refine Gate.meets_capKept_of_alone halone ?_
    refine StepSystem.meets_of_invariant (I := Gate.Sound gate) Gate.Sound.step
      (fun hS l => ?_) (Gate.sound_opened store capacity)
    rintro t call seen cap s' rfl hpassed -
    have hsound := hS t
    rw [hpassed] at hsound
    exact refusal_eq_none_iff.mp hsound.2
  refine ⟨halone, fun capacity s hcalls hrun => ⟨fun hkept => ?_, halone⟩⟩
  exact Gate.alone_of_meets_capKept (fun _ => True)
    (fun call => length_pos_of_beforeCount) (fun call seen c _ => refusal_eq_none_iff.mpr)
    (fun _ _ _ => trivial) hcalls trivial hrun fun c _ => hkept c

/-! ## 2. Two calls past the cap -/

section Interleaved

def sampleItem (id : String) : NewItem where
  input :=
    { method := "POST"
      url := "https://api.example.com/orders"
      headers := none
      body := some "{}"
      contentType := none
      priority := "NORMAL"
      metadata := none }
  id := id
  nowMs := 1000

def emptyQueue (capacity : Int) : Gate.State StoredItems EnqueueCall Answer :=
  Gate.opened .empty capacity

/-- The second call enters the actor while the first awaits its count. -/
def interleavedCalls : List (Gate.Label EnqueueCall RemoveCall) :=
  [.enter 0 (.enqueue (sampleItem "A")), .count 0,
    .enter 1 (.enqueueBatch [sampleItem "B", sampleItem "C"]), .count 1, .check 0, .check 1,
    .commit 0]

/-- The second call commits two rows next to the first call's row, under the
capacity 2. -/
theorem interleaved_enqueues_exceed_capacity :
    ∃ s s' call seen, StepSystem.exec gate.step (emptyQueue 2) interleavedCalls = some s ∧
      s.calls 1 = .passed call seen 2 ∧ gate.step s (.commit 1) = some s' ∧
      ¬ (SyncItemDao.countPending s'.store : Int) ≤ 2 :=
  ⟨_, _, _, _, rfl, rfl, rfl, by decide⟩

def soleCall : List (Gate.Label EnqueueCall RemoveCall) :=
  [.enter 0 (.enqueue (sampleItem "A")), .count 0, .check 0, .commit 0]

/-- One call by itself keeps it. -/
theorem single_enqueue_within_capacity :
    (∃ s, StepSystem.exec gate.step (emptyQueue 1) soleCall = some s ∧
      SyncItemDao.countPending s.store = 1) ∧
    ∀ capacity, StepSystem.Meets gate.step gate.CapKept (emptyQueue capacity) soleCall := by
  obtain ⟨s, hrun, hcount⟩ : ∃ s, StepSystem.exec gate.step (emptyQueue 1) soleCall = some s ∧
      SyncItemDao.countPending s.store = 1 := ⟨_, rfl, rfl⟩
  have hcalls : ∀ l ∈ soleCall, l.IsCall := by simp [soleCall, Gate.Label.IsCall]
  have hiff := (within_capacity_iff_alone .empty soleCall).2 1 s hcalls hrun
  exact ⟨⟨s, hrun, hcount⟩, hiff.mpr (Gate.alone_of_countP (by decide))⟩

end Interleaved

end SyncQueueStorage

end SyncProvider.Ios
