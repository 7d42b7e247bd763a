import SyncProvider.Android.Database
import SyncProvider.Lib.Gate

/-!
# Android: `SyncQueueStorage` and its cap

`enqueue` and `enqueueBatch` validate, count the rows, compare the count with
`maxQueueSize` and insert. The four are separate calls on `Dispatchers.IO` with
no transaction around them, so the storage is a `Gate`: any number of calls
interleave, and rows leave the table between them.

Results:
1. `within_maxQueueSize_iff_alone` : the orders of calls that keep every cap are
   those in which no other call commits between the count of a call and its insert,
   and no call adds past 32 bits.
2. `concurrent_enqueues_exceed_cap` : two concurrent calls go past the cap.
-/

namespace SyncProvider.Android

/-! ## The input -/

structure SyncItemInput where
  method : HttpMethod
  url : String
  headers : Option StringMap
  body : Option String
  contentType : Option String
  priority : Option SyncPriority
  metadata : Option StringMap
  deriving DecidableEq

/-- `Char.isWhitespace()`: the separators of Unicode and the white control
characters. -/
def isWhitespace (c : Char) : Bool :=
  let n := c.toNat
  (9 ≤ n && n ≤ 13) || (28 ≤ n && n ≤ 32) || n == 0xA0 || n == 0x1680 ||
    (0x2000 ≤ n && n ≤ 0x200A) || n == 0x2028 || n == 0x2029 || n == 0x202F || n == 0x205F ||
    n == 0x3000

def isBlank (s : String) : Bool := s.toList.all isWhitespace

/-- `UrlValidator.isValid`. `scheme` is the scheme the HTTP client's parser
finds, `none` when it rejects the url. -/
def UrlValidator.isValid (scheme : String → Option String) (url : String) : Bool :=
  if isBlank url then false
  else match scheme url with
    | none => false
    | some s => s == "http" || s == "https"

structure SyncException where
  code : SyncErrorCode
  message : String
  deriving DecidableEq

namespace SyncQueueStorage

/-- The error of `validate`, if it throws. -/
def validate (scheme : String → Option String) (input : SyncItemInput) : Option SyncException :=
  if isBlank input.url || !UrlValidator.isValid scheme input.url then
    some ⟨.INVALID_URL,
      "Item url is not a valid absolute http(s) URL: '" ++ input.url ++ "'."⟩
  else none

/-- The row of a new item. `id` is the generated ulid, `now` the clock. -/
def toEntity (input : SyncItemInput) (id : String) (now : Int) : SyncItemEntity :=
  let priority := input.priority.getD .NORMAL
  { id := id
    method := input.method
    url := input.url
    headers := input.headers
    body := input.body
    contentType := input.contentType
    priority := priority
    priorityWeight := SyncItemEntity.weightOf priority
    createdAt := now
    attempts := 0
    lastAttemptAt := none
    lastErrorCode := none
    status := .PENDING
    metadata := input.metadata
    nextRetryAt := 0 }

/-! ## The calls -/

/-- An input with the id and the creation time its row will get. -/
structure NewItem where
  input : SyncItemInput
  id : String
  now : Int
  deriving DecidableEq

def NewItem.entity (item : NewItem) : SyncItemEntity := toEntity item.input item.id item.now

inductive EnqueueCall where
  | enqueue (item : NewItem)
  | enqueueBatch (items : List NewItem)
  deriving DecidableEq

def EnqueueCall.items : EnqueueCall → List NewItem
  | .enqueue item => [item]
  | .enqueueBatch items => items

/-- The calls that take rows away, the dispatcher's own deletes included. -/
inductive RemoveCall where
  | removeItem (id : String)
  | clear
  deriving DecidableEq

/-- What a call that inserts nothing comes back with. -/
abbrev Answer := Except SyncException (List String)

/-- The part of a call before its count. An empty batch is done, an invalid
input throws. -/
def beforeCount (scheme : String → Option String) : EnqueueCall → Option Answer
  | .enqueue item => (validate scheme item.input).map .error
  | .enqueueBatch [] => some (.ok [])
  | .enqueueBatch items => (items.findSome? fun item => validate scheme item.input).map .error

/-- The comparison of `current`, the rows counted, with `maxQueueSize`. -/
def refusal (call : EnqueueCall) (current : Nat) (maxQueueSize : Int) : Option Answer :=
  match call with
  | .enqueue _ =>
    if (current : Int) ≥ maxQueueSize then
      some (.error ⟨.QUEUE_FULL, "Queue is full (size=" ++ toString current ++ ", max=" ++
        toString maxQueueSize ++ ")."⟩)
    else none
  | .enqueueBatch items =>
    if wrap32 ((current : Int) + items.length) > maxQueueSize then
      some (.error ⟨.QUEUE_FULL, "Queue would exceed cap (size=" ++ toString current ++
        ", incoming=" ++ toString items.length ++ ", max=" ++ toString maxQueueSize ++ ")."⟩)
    else none

def remove : RemoveCall → SyncItems → SyncItems
  | .removeItem id, t => (SyncItemDao.deleteById id t).1
  | .clear, t => SyncItemDao.clear t

theorem count_insertBatch {items : List SyncItemEntity} {t t' : SyncItems}
    (h : SyncItemDao.insertBatch items t = some t') :
    SyncItemDao.count t' = SyncItemDao.count t + items.length := by
  unfold SyncItemDao.count
  rw [KeyedTable.rows_insertAll h, List.length_append]

theorem count_remove_le (call : RemoveCall) (t : SyncItems) :
    SyncItemDao.count (remove call t) ≤ SyncItemDao.count t := by
  cases call with
  | removeItem id => exact List.length_filter_le _ _
  | clear => exact Nat.zero_le _

/-- The storage as a gate: `count` is the size, a call weighs its rows. -/
def gate (scheme : String → Option String) : Gate SyncItems EnqueueCall RemoveCall Answer where
  size := SyncItemDao.count
  weight call := call.items.length
  early := beforeCount scheme
  refusal := refusal
  insert call := SyncItemDao.insertBatch (call.items.map NewItem.entity)
  remove := remove
  size_insert h := by
    rw [count_insertBatch h, List.length_map]
  size_remove := count_remove_le

/-! ## 1. When the cap holds -/

/-- The check lets through what fits, as long as its addition does not overflow. -/
theorem refusal_eq_none_iff {call : EnqueueCall} {current : Nat} {maxQueueSize : Int}
    (hfits : (current : Int) + call.items.length < 2 ^ 31) :
    refusal call current maxQueueSize = none ↔
      (current : Int) + call.items.length ≤ maxQueueSize := by
  cases call with
  | enqueue item =>
    simp only [refusal, EnqueueCall.items, List.length_singleton]
    split <;> simp <;> omega
  | enqueueBatch items =>
    simp only [EnqueueCall.items] at hfits ⊢
    rw [refusal, wrap32_eq_self (by omega) hfits]
    split <;> simp <;> omega

/-- A call that counts has rows to insert. -/
theorem length_pos_of_beforeCount {scheme : String → Option String} {call : EnqueueCall}
    (h : beforeCount scheme call = none) : 0 < call.items.length := by
  cases call with
  | enqueue item => exact Nat.one_pos
  | enqueueBatch items =>
    cases items with
    | nil => cases h
    | cons item items => exact Nat.succ_pos _

/-- A cap that the options allow, with the table at or below it. -/
def Allowed (table : SyncItems) (maxQueueSize : Int) : Prop :=
  1 ≤ maxQueueSize ∧ maxQueueSize < 2 ^ 31 ∧ (SyncItemDao.count table : Int) ≤ maxQueueSize

/-- The rows that the call has counted and its own are no more than an `Int` holds. -/
def FitsInt (scheme : String → Option String) (s : Gate.State SyncItems EnqueueCall Answer)
    (l : Gate.Label EnqueueCall RemoveCall) : Prop :=
  ∀ t call seen cap s', l = .commit t → s.calls t = .passed call seen cap →
    (gate scheme).step s l = some s' → (seen : Int) + call.items.length < 2 ^ 31

section Order

variable {scheme : String → Option String} {table : SyncItems}
  {ls : List (Gate.Label EnqueueCall RemoveCall)} {maxQueueSize : Int}

/-- Calls that are alone keep the cap, unless an addition overflows. -/
theorem meets_capKept_of_alone (halone : Gate.Alone ls)
    (hfits : StepSystem.Meets (gate scheme).step (FitsInt scheme)
      (Gate.opened table maxQueueSize) ls) :
    StepSystem.Meets (gate scheme).step (gate scheme).CapKept
      (Gate.opened table maxQueueSize) ls := by
  refine Gate.meets_capKept_of_alone halone ?_
  have hsound : StepSystem.Meets (gate scheme).step (fun s _ => Gate.Sound (gate scheme) s)
      (Gate.opened table maxQueueSize) ls :=
    StepSystem.meets_of_invariant (I := Gate.Sound (gate scheme)) Gate.Sound.step
      (fun hS _ => hS) (Gate.sound_opened table maxQueueSize)
  refine (hsound.and hfits).mono fun s l h => ?_
  rintro t call seen cap s' rfl hpassed hs
  have hcall := h.1 t
  rw [hpassed] at hcall
  exact (refusal_eq_none_iff (h.2 t call seen cap s' rfl hpassed hs)).mp hcall.2

/-- Under a cap that is kept no addition has overflowed. -/
theorem meets_fitsInt_of_capKept (hcalls : ∀ l ∈ ls, l.IsCall) (hcap : maxQueueSize < 2 ^ 31)
    (hkept : StepSystem.Meets (gate scheme).step (gate scheme).CapKept
      (Gate.opened table maxQueueSize) ls) :
    StepSystem.Meets (gate scheme).step (FitsInt scheme) (Gate.opened table maxQueueSize) ls := by
  refine StepSystem.meets_iff_forall_prefix.mpr fun pre l post m hls hm => ?_
  rintro t call seen cap s' rfl hpassed hs
  have hpre : ∀ l ∈ pre, l.IsCall := fun l hl => hcalls l (hls ▸ List.mem_append_left _ hl)
  have hsteady : Gate.Steady (gate scheme) m :=
    StepSystem.exec_invariant_of_meets (fun hI hl hs => hI.step hl hs)
      (Gate.steady_opened table maxQueueSize) (StepSystem.meets_of_forall hpre) hm
  have hcall := hsteady t
  rw [hpassed] at hcall
  have hcapped : cap = maxQueueSize := hcall.2.trans (Gate.cap_exec hpre hm)
  have hle : (SyncItemDao.count s'.store : Int) ≤ cap :=
    StepSystem.meets_iff_forall_prefix.mp hkept pre _ post m hls hm t call seen cap s' rfl hpassed
      hs
  have hseen : seen ≤ SyncItemDao.count m.store := hcall.1
  cases Gate.step_cases hs with
  | @commit _ _ _ _ store hpassed' hinsert =>
    rw [hpassed] at hpassed'
    cases hpassed'
    have hsize : SyncItemDao.count store = SyncItemDao.count m.store + call.items.length :=
      (gate scheme).size_insert hinsert
    have hle : (SyncItemDao.count store : Int) ≤ cap := hle
    omega

end Order

/-- For an order of steps, from any table. If no other call commits between the count of a
call and its insert, and no addition overflows, then right after each commit the rows are
within the cap that the call checked, whatever is removed meanwhile. And an order of
`enqueue` and `enqueueBatch` calls that can run keeps every cap at or above the table only
so. -/
theorem within_maxQueueSize_iff_alone (scheme : String → Option String) (table : SyncItems)
    (ls : List (Gate.Label EnqueueCall RemoveCall)) :
    (Gate.Alone ls → ∀ maxQueueSize,
      StepSystem.Meets (gate scheme).step (FitsInt scheme) (Gate.opened table maxQueueSize) ls →
      StepSystem.Meets (gate scheme).step (gate scheme).CapKept
        (Gate.opened table maxQueueSize) ls) ∧
    ∀ maxQueueSize s, Allowed table maxQueueSize → (∀ l ∈ ls, l.IsCall) →
      StepSystem.exec (gate scheme).step (Gate.opened table maxQueueSize) ls = some s →
      ((∀ maxQueueSize, Allowed table maxQueueSize →
          StepSystem.Meets (gate scheme).step (gate scheme).CapKept
            (Gate.opened table maxQueueSize) ls) ↔
        Gate.Alone ls ∧ ∀ maxQueueSize, Allowed table maxQueueSize →
          StepSystem.Meets (gate scheme).step (FitsInt scheme)
            (Gate.opened table maxQueueSize) ls) := by
  refine ⟨fun halone _ => meets_capKept_of_alone halone, fun cap s hcap hcalls hrun => ?_⟩
  constructor
  · intro hkept
    refine ⟨?_, fun cap hcap => meets_fitsInt_of_capKept hcalls hcap.2.1 (hkept cap hcap)⟩
    refine Gate.alone_of_meets_capKept (Allowed table)
      (fun call => length_pos_of_beforeCount) (fun call seen c hc hfits => ?_)
      (fun c hc hstart => ?_) hcalls hcap hrun hkept
    · have hc := hc.2.1
      exact (refusal_eq_none_iff (Int.lt_of_le_of_lt hfits hc)).mpr hfits
    · have hc' := hcap.2.1
      have hstart : (SyncItemDao.count table : Int) < c := hstart
      exact ⟨by omega, by omega, by omega⟩
  · rintro ⟨halone, hfits⟩ cap hcap
    exact meets_capKept_of_alone halone (hfits cap hcap)

/-! ## 2. Two calls past the cap -/

section Concurrent

/-- A parser that finds `https`, as the real one does in the sample's url. -/
def https (_ : String) : Option String := some "https"

def sampleItem (id : String) : NewItem where
  input :=
    { method := .POST
      url := "https://api.example.com/orders"
      headers := none
      body := some "{}"
      contentType := none
      priority := none
      metadata := none }
  id := id
  now := 1000

def emptyQueue (maxQueueSize : Int) : Gate.State SyncItems EnqueueCall Answer :=
  Gate.opened .empty maxQueueSize

/-- Both calls count before either inserts. -/
def overlappingCalls : List (Gate.Label EnqueueCall RemoveCall) :=
  [.enter 0 (.enqueue (sampleItem "A")), .enter 1 (.enqueue (sampleItem "B")), .count 0, .count 1,
    .check 0, .check 1, .commit 0]

/-- The second call commits a second row under the cap 1. -/
theorem concurrent_enqueues_exceed_cap :
    ∃ s s' call seen, StepSystem.exec (gate https).step (emptyQueue 1) overlappingCalls = some s ∧
      s.calls 1 = .passed call seen 1 ∧ (gate https).step s (.commit 1) = some s' ∧
      ¬ (SyncItemDao.count s'.store : Int) ≤ 1 :=
  ⟨_, _, _, _, rfl, rfl, rfl, by decide⟩

def soleCall : List (Gate.Label EnqueueCall RemoveCall) :=
  [.enter 0 (.enqueue (sampleItem "A")), .count 0, .check 0, .commit 0]

theorem fitsInt_soleCall (maxQueueSize : Int) :
    StepSystem.Meets (gate https).step (FitsInt https) (emptyQueue maxQueueSize) soleCall := by
  refine .cons rfl (by rintro _ _ _ _ _ ⟨⟩) (.cons rfl (by rintro _ _ _ _ _ ⟨⟩)
    ⟨by rintro _ _ _ _ _ ⟨⟩, fun s hs => ⟨?_, fun _ _ => trivial⟩⟩)
  rintro t call seen cap s' ⟨⟩ hpassed -
  cases Gate.step_cases hs with
  | refuse => cases hpassed
  | pass hcounted =>
    cases hcounted
    cases hpassed
    show (0 : Int) + 1 < 2 ^ 31
    decide

/-- One call by itself keeps it. -/
theorem single_enqueue_within_cap :
    (∃ s, StepSystem.exec (gate https).step (emptyQueue 1) soleCall = some s ∧
      SyncItemDao.count s.store = 1) ∧
    ∀ maxQueueSize, Allowed .empty maxQueueSize →
      StepSystem.Meets (gate https).step (gate https).CapKept (emptyQueue maxQueueSize)
        soleCall := by
  obtain ⟨s, hrun, hcount⟩ : ∃ s,
      StepSystem.exec (gate https).step (emptyQueue 1) soleCall = some s ∧
        SyncItemDao.count s.store = 1 := ⟨_, rfl, rfl⟩
  have hcalls : ∀ l ∈ soleCall, l.IsCall := by simp [soleCall, Gate.Label.IsCall]
  have hallowed : Allowed .empty 1 := ⟨by decide, by decide, by decide⟩
  have hiff := (within_maxQueueSize_iff_alone https .empty soleCall).2 1 s hallowed hcalls hrun
  exact ⟨⟨s, hrun, hcount⟩,
    hiff.mpr ⟨Gate.alone_of_countP (by decide), fun cap _ => fitsInt_soleCall cap⟩⟩

end Concurrent

end SyncQueueStorage

end SyncProvider.Android
