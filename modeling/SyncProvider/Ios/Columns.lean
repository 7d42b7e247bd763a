import SyncProvider.Ios.Storage
import SyncProvider.Ios.Selection
import SyncProvider.Lib.Double
import SyncProvider.Lib.RowRefinement

/-!
# iOS: the attributes of `SyncItemEntity`

A managed object has texts for its status and its error code, JSON data for its headers and
metadata, and a 0 where a row was never attempted. What is fetched is materialized before it
is sorted, so one object whose data does not parse fails the whole fetch. The rows of
`StoredItems` hold the values instead, and here the objects store those rows: an operation
does the same to both, answers alike, and no fetch fails.

`JSONSerialization` is a parameter, and so are the orders of the fetches: what a fetch without
sort descriptors answers with, and what each sort does with objects and items that are equal
in it. The operations on the rows are those of `StoredItems` whose sorts do the same. Every
insert has an id of its own, as ulids have: the merge of two objects with one id is left out,
and is none of the answers below.

Results:
1. `insertItem_eq` : the object of a new item.
2. `materialize_eq`, `Stands.translate` : what is fetched, and what JS is given of it.
3. `StoresItems.run` : one operation.
4. `attributes_refine_rows` : any sequence of operations.
-/

namespace SyncProvider.Ios.Raw

/-! ## The items -/

/-- The raw values are the stored texts. -/
def rawValue : ItemStatus → String
  | .PENDING => "PENDING"
  | .IN_FLIGHT => "IN_FLIGHT"
  | .FAILED => "FAILED"

/-- A `[String: String]`, in iteration order. -/
structure Dictionary where
  entries : StringMap
  nodup : (entries.map Prod.fst).Nodup

/-- `JSONSerialization`, for data of type `δ`. -/
structure JSONSerialization (δ : Type) where
  /-- `data(withJSONObject:)`, none when it throws. -/
  data : Dictionary → Option δ
  isEmpty : δ → Bool
  /-- `jsonObject(with:)` and the cast, none when it throws. -/
  jsonObject : δ → Option (Option Dictionary)

/-- The data of a dictionary reads as the dictionary, in any order. -/
structure JSONSerialization.Faithful {δ : Type} (j : JSONSerialization δ) : Prop where
  jsonObject_data : ∀ d, ∃ x d', j.data d = some x ∧ j.isEmpty x = false ∧
    j.jsonObject x = some (some d') ∧ d'.entries.Perm d.entries

structure SyncItemInputData where
  method : String
  url : String
  headers : Option Dictionary
  body : Option String
  contentType : Option String
  priority : String
  metadata : Option Dictionary

structure StoredSyncItem where
  id : String
  method : String
  url : String
  headers : Option Dictionary
  body : Option String
  contentType : Option String
  priority : String
  createdAt : Int
  attempts : Int
  lastAttemptAt : Option Int
  nextRetryAt : Int
  lastErrorCode : Option String
  status : String
  metadata : Option Dictionary

/-- The managed object. -/
structure SyncItemEntity (δ : Type) where
  id : Option String
  method : Option String
  url : Option String
  headersJSON : Option δ
  body : Option String
  contentType : Option String
  priority : Option String
  createdAt : Int
  attempts : Int
  lastAttemptAt : Int
  nextRetryAt : Int
  lastErrorCode : Option String
  status : Option String
  metadataJSON : Option δ

/-- An item as JS is given it. -/
structure SyncItem where
  id : String
  method : HttpMethod
  url : String
  headers : Option Dictionary
  body : Option String
  contentType : Option String
  priority : Option SyncPriority
  createdAt : Double
  attempts : Double
  nextRetryAt : Double
  metadata : Option Dictionary

/-- `HttpMethod(fromString:)`. -/
def methodOf (name : String) : Option HttpMethod :=
  [HttpMethod.GET, .POST, .PUT, .PATCH, .DELETE].find? fun method => method.name = name

/-- `SyncPriority(fromString:)`. -/
def priorityOf (name : String) : Option SyncPriority :=
  [SyncPriority.HIGH, .NORMAL, .LOW].find? fun priority => priority.name = name

/-- `translate(stored:)`. -/
def translate (stored : StoredSyncItem) : SyncItem where
  id := stored.id
  method := (methodOf stored.method).getD .POST
  url := stored.url
  headers := stored.headers
  body := stored.body
  contentType := stored.contentType
  priority := priorityOf stored.priority
  createdAt := .ofInt stored.createdAt
  attempts := .ofInt stored.attempts
  nextRetryAt := .ofInt stored.nextRetryAt
  metadata := stored.metadata

/-- An input, its ulid and the clock. -/
structure NewItem where
  input : SyncItemInputData
  id : String
  nowMs : Int

/-- `build(from:)`. -/
def NewItem.build (item : NewItem) : StoredSyncItem where
  id := item.id
  method := item.input.method
  url := item.input.url
  headers := item.input.headers
  body := item.input.body
  contentType := item.input.contentType
  priority := item.input.priority
  createdAt := item.nowMs
  attempts := 0
  lastAttemptAt := none
  nextRetryAt := 0
  lastErrorCode := none
  status := rawValue .PENDING
  metadata := item.input.metadata

/-- The item of `StoredItems`. -/
def NewItem.decoded (item : NewItem) : SyncQueueStorage.NewItem where
  input :=
    { method := item.input.method
      url := item.input.url
      headers := item.input.headers.map Dictionary.entries
      body := item.input.body
      contentType := item.input.contentType
      priority := item.input.priority
      metadata := item.input.metadata.map Dictionary.entries }
  id := item.id
  nowMs := item.nowMs

/-! ## `SyncItemDao` -/

/-- The store of managed objects. -/
abbrev Objects (δ : Type) := KeyedTable (SyncItemEntity.id (δ := δ))

/-- The operations, with the readings of the clock. -/
inductive Operation where
  | insert (item : NewItem)
  | insertBatch (items : List NewItem)
  | countPending
  | fetchPending (nowMs limit : Int)
  | fetchQueued
  | fetchAll
  | earliestRetryAt
  | earliestPendingAt
  | find (id : String)
  | markInFlight (id : String) (nowMs : Int)
  | markFailed (id : String) (errorCode : SyncErrorCode)
  | markPendingForRetry (id : String) (errorCode : Option SyncErrorCode) (retryDelayMs nowMs : Int)
  | markCredentialRejected (id : String) (errorCode : Option SyncErrorCode)
    (retryDelayMs attempts nowMs : Int)
  | resetInFlightToPending
  | delete (id : String)
  | clear

/-- The ids that an operation inserts. -/
def Operation.ids : Operation → List String
  | .insert item => [item.id]
  | .insertBatch items => items.map NewItem.id
  | _ => []

namespace SyncItemDao

section Json

variable {δ : Type} (j : JSONSerialization δ)

/-- None when it throws. -/
def encodeJSON : Option Dictionary → Option (Option δ)
  | none => some none
  | some d => if d.entries.isEmpty then some none else (j.data d).map some

/-- None when it throws. -/
def decodeJSON : Option δ → Option (Option Dictionary)
  | none => some none
  | some x => if j.isEmpty x then some none else j.jsonObject x

/-- The attributes of an item, with its JSON. -/
def entityOf (item : StoredSyncItem) (headersJSON metadataJSON : Option δ) : SyncItemEntity δ where
  id := some item.id
  method := some item.method
  url := some item.url
  headersJSON := headersJSON
  body := item.body
  contentType := item.contentType
  priority := some item.priority
  createdAt := item.createdAt
  attempts := item.attempts
  lastAttemptAt := item.lastAttemptAt.getD 0
  nextRetryAt := item.nextRetryAt
  lastErrorCode := item.lastErrorCode
  status := some item.status
  metadataJSON := metadataJSON

/-- None when it throws. -/
def insertItem (item : StoredSyncItem) : Option (SyncItemEntity δ) :=
  (encodeJSON j item.headers).bind fun headersJSON =>
    (encodeJSON j item.metadata).map (entityOf item headersJSON)

/-- The item of an object, with its dictionaries. -/
def itemOf (entity : SyncItemEntity δ) (headers metadata : Option Dictionary) :
    StoredSyncItem where
  id := entity.id.getD ""
  method := entity.method.getD "POST"
  url := entity.url.getD ""
  headers := headers
  body := entity.body
  contentType := entity.contentType
  priority := entity.priority.getD "NORMAL"
  createdAt := entity.createdAt
  attempts := entity.attempts
  lastAttemptAt := if entity.lastAttemptAt = 0 then none else some entity.lastAttemptAt
  nextRetryAt := entity.nextRetryAt
  lastErrorCode := entity.lastErrorCode
  status := entity.status.getD (rawValue .PENDING)
  metadata := metadata

/-- None when it throws. -/
def materialize (entity : SyncItemEntity δ) : Option StoredSyncItem :=
  (decodeJSON j entity.headersJSON).bind fun headers =>
    (decodeJSON j entity.metadataJSON).map (itemOf entity headers)

end Json

variable {δ : Type}

def isDispatchedBefore (lhs rhs : StoredSyncItem) : Bool :=
  let lp := SyncItemDao.priorityRank lhs.priority
  let rp := SyncItemDao.priorityRank rhs.priority
  if lp ≠ rp then lp < rp else lhs.createdAt < rhs.createdAt

theorem isDispatchedBefore_eq_false_iff {a b : StoredSyncItem} :
    isDispatchedBefore b a = false ↔
      SyncItemDao.priorityRank a.priority < SyncItemDao.priorityRank b.priority ∨
        SyncItemDao.priorityRank a.priority = SyncItemDao.priorityRank b.priority ∧
          a.createdAt ≤ b.createdAt := by
  unfold isDispatchedBefore
  dsimp only
  split <;> rw [decide_eq_false_iff_not] <;> omega

/-- The orders of one operation. -/
structure Orders (δ : Type) where
  /-- A fetch without sort descriptors. -/
  store : OrderBy fun _ _ : SyncItemEntity δ => True
  createdAt : OrderBy fun a b : SyncItemEntity δ => a.createdAt ≤ b.createdAt
  nextRetryAt : OrderBy fun a b : SyncItemEntity δ => a.nextRetryAt ≤ b.nextRetryAt
  /-- `sorted(by: isDispatchedBefore)`. -/
  dispatch : OrderBy fun a b : StoredSyncItem => isDispatchedBefore b a = false

def hasStatus (status : ItemStatus) (entity : SyncItemEntity δ) : Bool :=
  entity.status == some (rawValue status)

/-- The answer of a fetch, which throws when an object does. -/
def answer : Option (List StoredSyncItem) → TableAnswer StoredSyncItem
  | some items => .rows items
  | none => .thrown

/-- Change the object with this id, when there is one. -/
def updateById (id : String) (f : SyncItemEntity δ → SyncItemEntity δ)
    (hf : ∀ r, (f r).id = r.id) (t : Objects δ) : Objects δ :=
  t.updateWhere (fun r => r.id == some id) f hf

section Run

variable (j : JSONSerialization δ)

def fetchPending (orders : Orders δ) (nowMs limit : Int) (t : Objects δ) :
    Option (List StoredSyncItem) :=
  ((orders.createdAt.sort (t.rows.filter fun r =>
    hasStatus .PENDING r && r.nextRetryAt ≤ nowMs)).mapM (materialize j)).map fun items =>
      if limit > 0 then (orders.dispatch.sort items).take limit.toNat
      else orders.dispatch.sort items

def fetchQueued (orders : Orders δ) (t : Objects δ) : Option (List StoredSyncItem) :=
  ((orders.store.sort (t.rows.filter (hasStatus .PENDING))).mapM (materialize j)).map
    orders.dispatch.sort

def fetchAll (orders : Orders δ) (t : Objects δ) : Option (List StoredSyncItem) :=
  (orders.createdAt.sort t.rows).mapM (materialize j)

/-- The first of the objects by `nextRetryAt`. -/
def firstRetryAt (orders : Orders δ) (p : SyncItemEntity δ → Bool) (t : Objects δ) : Option Int :=
  (orders.nextRetryAt.sort (t.rows.filter p)).head?.map (·.nextRetryAt)

def earliestRetryAt (orders : Orders δ) (t : Objects δ) : Option Int :=
  firstRetryAt orders (fun r => hasStatus .PENDING r && 0 < r.nextRetryAt) t

def earliestPendingAt (orders : Orders δ) (t : Objects δ) : Option Int :=
  firstRetryAt orders (hasStatus .PENDING) t

def find (id : String) (t : Objects δ) : TableAnswer StoredSyncItem :=
  match t.find? (some id) with
  | none => .row none
  | some entity =>
    match materialize j entity with
    | some item => .row (some item)
    | none => .thrown

/-- One operation on the objects. -/
def run (orders : Orders δ) (t : Objects δ) :
    Operation → Objects δ × TableAnswer StoredSyncItem
  | .insert item => inserted t ((insertItem j item.build).bind t.insert)
  | .insertBatch items =>
    inserted t (((items.map NewItem.build).mapM (insertItem j)).bind fun entities =>
      t.insertAll entities)
  | .countPending => (t, .number (t.countWhere (hasStatus .PENDING)))
  | .fetchPending nowMs limit => (t, answer (fetchPending j orders nowMs limit t))
  | .fetchQueued => (t, answer (fetchQueued j orders t))
  | .fetchAll => (t, answer (fetchAll j orders t))
  | .earliestRetryAt => (t, .time (earliestRetryAt orders t))
  | .earliestPendingAt => (t, .time (earliestPendingAt orders t))
  | .find id => (t, find j id t)
  | .markInFlight id nowMs =>
    (updateById id (fun r => { r with
      status := some (rawValue .IN_FLIGHT)
      attempts := r.attempts + 1
      lastAttemptAt := nowMs }) (fun _ => rfl) t, .done)
  | .markFailed id errorCode =>
    (updateById id (fun r => { r with
      status := some (rawValue .FAILED)
      lastErrorCode := some errorCode.name }) (fun _ => rfl) t, .done)
  | .markPendingForRetry id errorCode retryDelayMs nowMs =>
    (updateById id (fun r => { r with
      status := some (rawValue .PENDING)
      lastErrorCode := errorCode.map SyncErrorCode.name
      lastAttemptAt := nowMs
      nextRetryAt := nowMs + max 0 retryDelayMs }) (fun _ => rfl) t, .done)
  | .markCredentialRejected id errorCode retryDelayMs attempts nowMs =>
    (updateById id (fun r => { r with
      status := some (rawValue .PENDING)
      attempts := attempts
      lastErrorCode := errorCode.map SyncErrorCode.name
      lastAttemptAt := nowMs
      nextRetryAt := nowMs + max 0 retryDelayMs }) (fun _ => rfl) t,
      .time (some (nowMs + max 0 retryDelayMs)))
  | .resetInFlightToPending =>
    (t.updateWhere (hasStatus .IN_FLIGHT) (fun r => { r with status := some (rawValue .PENDING) })
      fun _ => rfl, .number (t.countWhere (hasStatus .IN_FLIGHT)))
  | .delete id =>
    (t.deleteWhere fun r => r.id == some id, .flag (t.rows.any fun r => r.id == some id))
  | .clear => (.empty, .done)

/-- Operations one after the other, each with orders of its own. -/
def runAll (t : Objects δ) (operations : List (Orders δ × Operation)) :
    Objects δ × List (TableAnswer StoredSyncItem) :=
  runStatements (fun t s => run j s.1 t s.2) t operations

end Run

end SyncItemDao

/-- The orders of one operation on the rows. -/
structure RowOrders where
  createdAt : OrderBy fun a b : Ios.StoredSyncItem => a.createdAt ≤ b.createdAt
  dispatch : Ios.SyncItemDao.RowOrder

/-- One operation on the rows of `StoredItems`. -/
def decodedRun (orders : RowOrders) (t : StoredItems) :
    Operation → StoredItems × TableAnswer Ios.StoredSyncItem
  | .insert item => inserted t (t.insert item.decoded.stored)
  | .insertBatch items =>
    inserted t (Ios.SyncItemDao.insertBatch (items.map fun item => item.decoded.stored) t)
  | .countPending => (t, .number (Ios.SyncItemDao.countPending t))
  | .fetchPending nowMs limit =>
    (t, .rows (Ios.SyncItemDao.fetchPendingBy orders.dispatch nowMs limit t))
  | .fetchQueued => (t, .rows (Ios.SyncItemDao.fetchQueuedBy orders.dispatch t))
  | .fetchAll => (t, .rows (orders.createdAt.sort t.rows))
  | .earliestRetryAt => (t, .time (Ios.SyncItemDao.earliestRetryAt t))
  | .earliestPendingAt => (t, .time (Ios.SyncItemDao.earliestPendingAt t))
  | .find id => (t, .row (t.find? id))
  | .markInFlight id nowMs => (Ios.SyncItemDao.markInFlight id nowMs t, .done)
  | .markFailed id errorCode => (Ios.SyncItemDao.markFailed id errorCode t, .done)
  | .markPendingForRetry id errorCode retryDelayMs nowMs =>
    (Ios.SyncItemDao.markPendingForRetry id errorCode retryDelayMs nowMs t, .done)
  | .markCredentialRejected id errorCode retryDelayMs attempts nowMs =>
    (Ios.SyncItemDao.markCredentialRejected id errorCode retryDelayMs attempts nowMs t,
      .time (some (Ios.SyncItemDao.heldUntil retryDelayMs nowMs)))
  | .resetInFlightToPending =>
    (Ios.SyncItemDao.resetInFlightToPending t,
      .number (t.countWhere fun r => r.status == .IN_FLIGHT))
  | .delete id => ((Ios.SyncItemDao.delete id t).1, .flag (Ios.SyncItemDao.delete id t).2)
  | .clear => (Ios.SyncItemDao.clear t, .done)

def decodedRunAll (t : StoredItems) (operations : List (RowOrders × Operation)) :
    StoredItems × List (TableAnswer Ios.StoredSyncItem) :=
  runStatements (fun t s => decodedRun s.1 t s.2) t operations

/-! ## 1. An item and its object -/

/-- The map that is shown. An empty one is not. -/
structure ShowsMap (shown : Option Dictionary) (map : Option StringMap) : Prop where
  absent : shown = none ↔ map.getD [] = []
  entries : ((shown.map Dictionary.entries).getD []).Perm (map.getD [])

section Holds

variable {δ : Type} (j : JSONSerialization δ)

/-- The data reads as the map. -/
def HoldsMap (raw : Option δ) (map : Option StringMap) : Prop :=
  ∃ shown, SyncItemDao.decodeJSON j raw = some shown ∧ ShowsMap shown map

/-- The object holds the row. -/
structure Holds (entity : SyncItemEntity δ) (row : Ios.StoredSyncItem) : Prop where
  id : entity.id = some row.id
  method : entity.method = some row.method
  url : entity.url = some row.url
  headersJSON : HoldsMap j entity.headersJSON row.headers
  body : entity.body = row.body
  contentType : entity.contentType = row.contentType
  priority : entity.priority = some row.priority
  createdAt : entity.createdAt = row.createdAt
  attempts : entity.attempts = row.attempts
  lastAttemptAt : entity.lastAttemptAt = row.lastAttemptAt.getD 0
  nextRetryAt : entity.nextRetryAt = row.nextRetryAt
  lastErrorCode : entity.lastErrorCode = row.lastErrorCode.map SyncErrorCode.name
  status : entity.status = some (rawValue row.status)
  metadataJSON : HoldsMap j entity.metadataJSON row.metadata

end Holds

variable {δ : Type} {j : JSONSerialization δ}

theorem encodeJSON_holds (hj : j.Faithful) (map : Option Dictionary) :
    ∃ raw, SyncItemDao.encodeJSON j map = some raw ∧
      HoldsMap j raw (map.map Dictionary.entries) := by
  cases map with
  | none => exact ⟨none, rfl, none, rfl, ⟨fun _ => rfl, fun _ => rfl⟩, .nil⟩
  | some d =>
    by_cases hempty : d.entries = []
    · refine ⟨none, ?_, none, rfl, ⟨fun _ => hempty, fun _ => rfl⟩, ?_⟩
      · simp [SyncItemDao.encodeJSON, hempty]
      · simp [hempty]
    · obtain ⟨x, d', hdata, hx, hobject, hperm⟩ := hj.jsonObject_data d
      refine ⟨some x, ?_, some d', ?_, ⟨nofun, fun hnil => absurd hnil hempty⟩, hperm⟩
      · simp [SyncItemDao.encodeJSON, hempty, hdata]
      · simp [SyncItemDao.decodeJSON, hx, hobject]

/-- The object of a new item. -/
theorem insertItem_eq (hj : j.Faithful) (item : NewItem) :
    ∃ entity, SyncItemDao.insertItem j item.build = some entity ∧
      Holds j entity item.decoded.stored := by
  obtain ⟨headersJSON, hencode, hheaders⟩ := encodeJSON_holds hj item.input.headers
  obtain ⟨metadataJSON, hencode', hmetadata⟩ := encodeJSON_holds hj item.input.metadata
  refine ⟨SyncItemDao.entityOf item.build headersJSON metadataJSON, ?_, ?_⟩
  · simp only [SyncItemDao.insertItem, NewItem.build, hencode, hencode', Option.bind_some,
      Option.map_some]
  · constructor
    case headersJSON => exact hheaders
    case metadataJSON => exact hmetadata
    all_goals rfl

/-! ## 2. An object as it is fetched -/

/-- What was fetched stands for the row. A time of 0 is none. -/
structure Stands (item : StoredSyncItem) (row : Ios.StoredSyncItem) : Prop where
  id : item.id = row.id
  method : item.method = row.method
  url : item.url = row.url
  headers : ShowsMap item.headers row.headers
  body : item.body = row.body
  contentType : item.contentType = row.contentType
  priority : item.priority = row.priority
  createdAt : item.createdAt = row.createdAt
  attempts : item.attempts = row.attempts
  lastAttemptAt : item.lastAttemptAt = row.lastAttemptAt.filter (· ≠ 0)
  nextRetryAt : item.nextRetryAt = row.nextRetryAt
  lastErrorCode : item.lastErrorCode = row.lastErrorCode.map SyncErrorCode.name
  status : item.status = rawValue row.status
  metadata : ShowsMap item.metadata row.metadata

/-- No object that was inserted fails. -/
theorem materialize_eq {entity : SyncItemEntity δ} {row : Ios.StoredSyncItem}
    (h : Holds j entity row) :
    ∃ item, SyncItemDao.materialize j entity = some item ∧ Stands item row := by
  obtain ⟨headers, hdecode, hheaders⟩ := h.headersJSON
  obtain ⟨metadata, hdecode', hmetadata⟩ := h.metadataJSON
  refine ⟨SyncItemDao.itemOf entity headers metadata, ?_, ?_⟩
  · rw [SyncItemDao.materialize, hdecode, hdecode', Option.bind_some, Option.map_some]
  · constructor
    case id => rw [SyncItemDao.itemOf, h.id, Option.getD_some]
    case method => rw [SyncItemDao.itemOf, h.method, Option.getD_some]
    case url => rw [SyncItemDao.itemOf, h.url, Option.getD_some]
    case headers => exact hheaders
    case body => exact h.body
    case contentType => exact h.contentType
    case priority => rw [SyncItemDao.itemOf, h.priority, Option.getD_some]
    case createdAt => exact h.createdAt
    case attempts => exact h.attempts
    case lastAttemptAt =>
      rw [SyncItemDao.itemOf, h.lastAttemptAt]
      cases row.lastAttemptAt with
      | none => rfl
      | some n => by_cases hn : n = 0 <;> simp [hn, Option.filter]
    case nextRetryAt => exact h.nextRetryAt
    case lastErrorCode => exact h.lastErrorCode
    case status => rw [SyncItemDao.itemOf, h.status, Option.getD_some]
    case metadata => exact hmetadata

/-- The item that JS is given of a row. -/
structure Shows (item : SyncItem) (row : Ios.StoredSyncItem) : Prop where
  id : item.id = row.id
  method : item.method = (methodOf row.method).getD .POST
  url : item.url = row.url
  headers : ShowsMap item.headers row.headers
  body : item.body = row.body
  contentType : item.contentType = row.contentType
  priority : item.priority = priorityOf row.priority
  createdAt : item.createdAt = .ofInt row.createdAt
  attempts : item.attempts = .ofInt row.attempts
  nextRetryAt : item.nextRetryAt = .ofInt row.nextRetryAt
  metadata : ShowsMap item.metadata row.metadata

theorem Stands.translate {item : StoredSyncItem} {row : Ios.StoredSyncItem} (h : Stands item row) :
    Shows (translate item) row where
  id := h.id
  method := by rw [Raw.translate, h.method]
  url := h.url
  headers := h.headers
  body := h.body
  contentType := h.contentType
  priority := congrArg priorityOf h.priority
  createdAt := congrArg Double.ofInt h.createdAt
  attempts := congrArg Double.ofInt h.attempts
  nextRetryAt := congrArg Double.ofInt h.nextRetryAt
  metadata := h.metadata

/-! ## 3. The operations -/

theorem rawValue_injective : Function.Injective rawValue := by
  have hall : ∀ a b, rawValue a = rawValue b → a = b := by
    intro a b
    cases a <;> cases b <;> decide
  exact hall

theorem Holds.hasStatus {entity : SyncItemEntity δ} {row : Ios.StoredSyncItem}
    (h : Holds j entity row) (status : ItemStatus) :
    SyncItemDao.hasStatus status entity = (row.status == status) := by
  rw [SyncItemDao.hasStatus, h.status, Bool.eq_iff_iff, beq_iff_eq, beq_iff_eq,
    Option.some_inj, rawValue_injective.eq_iff]

/-- The comparison of the source, turned round. -/
theorem Stands.dispatchedBefore_iff {a b : StoredSyncItem} {r s : Ios.StoredSyncItem}
    (ha : Stands a r) (hb : Stands b s) :
    SyncItemDao.isDispatchedBefore b a = false ↔ Ios.SyncItemDao.DispatchedBefore r s := by
  rw [SyncItemDao.isDispatchedBefore_eq_false_iff, ha.priority, hb.priority, ha.createdAt,
    hb.createdAt]
  rfl

/-- The objects store the rows. -/
abbrev StoresItems (j : JSONSerialization δ) (t : Objects δ) (u : StoredItems) : Prop :=
  KeyedTable.Stores (Holds j) t u

namespace StoresItems

variable {t : Objects δ} {u : StoredItems}

theorem key_eq : ∀ entity row, Holds j entity row → entity.id = some row.id := fun _ _ h => h.id

/-- Objects are materialized one by one. -/
theorem materialized {entities : List (SyncItemEntity δ)} {rows : List Ios.StoredSyncItem}
    (h : List.Forall₂ (Holds j) entities rows) :
    ∃ items, entities.mapM (SyncItemDao.materialize j) = some items ∧
      List.Forall₂ Stands items rows :=
  h.mapM fun _ _ hrow => materialize_eq hrow

/-- What a fetch finds, in whatever order, and sorts: some sort of the rows does the same. -/
theorem exists_sorted (orders : SyncItemDao.Orders δ)
    {entities found : List (SyncItemEntity δ)} {rows : List Ios.StoredSyncItem}
    (hfound : found.Perm entities) (h : List.Forall₂ (Holds j) entities rows) :
    ∃ (orderBy : Ios.SyncItemDao.RowOrder) (items : List StoredSyncItem),
      found.mapM (SyncItemDao.materialize j) = some items ∧
        List.Forall₂ Stands (orders.dispatch.sort items) (orderBy.sort rows) := by
  obtain ⟨rows', hrows', hperm⟩ := List.perm_comp_forall₂ hfound h
  obtain ⟨items, hitems, hstands⟩ := materialized hrows'
  obtain ⟨orderBy, hsorted⟩ := orders.dispatch.exists_related hstands fun _ _ _ _ ha hb =>
    (ha.dispatchedBefore_iff hb).mp
  obtain ⟨orderBy', hsame⟩ :=
    orderBy.exists_sort_eq ((orderBy.perm rows').trans hperm) (orderBy.sorted rows')
  exact ⟨orderBy', items, hitems, hsame ▸ hsorted⟩

theorem exists_fetchPending (h : StoresItems j t u) (orders : SyncItemDao.Orders δ)
    (nowMs limit : Int) : ∃ (orderBy : Ios.SyncItemDao.RowOrder) (items : List StoredSyncItem),
      SyncItemDao.fetchPending j orders nowMs limit t = some items ∧
        List.Forall₂ Stands items (Ios.SyncItemDao.fetchPendingBy orderBy nowMs limit u) := by
  have hpending : List.Forall₂ (Holds j)
      (t.rows.filter fun r => SyncItemDao.hasStatus .PENDING r && r.nextRetryAt ≤ nowMs)
      (u.rows.filter (Ios.SyncItemDao.eligible nowMs)) :=
    h.filter fun entity row hrow => congrArg₂ (· && ·) (hrow.hasStatus .PENDING)
      (congrArg (fun n : Int => decide (n ≤ nowMs)) hrow.nextRetryAt)
  obtain ⟨orderBy, items, hitems, hsorted⟩ :=
    exists_sorted orders (orders.createdAt.perm _) hpending
  refine ⟨orderBy, _, by rw [SyncItemDao.fetchPending, hitems, Option.map_some], ?_⟩
  unfold Ios.SyncItemDao.fetchPendingBy
  dsimp only
  split
  · exact List.forall₂_take _ hsorted
  · exact hsorted

theorem exists_fetchQueued (h : StoresItems j t u) (orders : SyncItemDao.Orders δ) :
    ∃ (orderBy : Ios.SyncItemDao.RowOrder) (items : List StoredSyncItem),
      SyncItemDao.fetchQueued j orders t = some items ∧
        List.Forall₂ Stands items (Ios.SyncItemDao.fetchQueuedBy orderBy u) := by
  obtain ⟨orderBy, items, hitems, hsorted⟩ := exists_sorted orders (orders.store.perm _)
    (List.Forall₂.filter h fun entity row hrow => hrow.hasStatus .PENDING)
  exact ⟨orderBy, _, by rw [SyncItemDao.fetchQueued, hitems, Option.map_some], hsorted⟩

theorem exists_fetchAll (h : StoresItems j t u) (orders : SyncItemDao.Orders δ) :
    ∃ (createdAt : OrderBy fun a b : Ios.StoredSyncItem => a.createdAt ≤ b.createdAt)
      (items : List StoredSyncItem), SyncItemDao.fetchAll j orders t = some items ∧
        List.Forall₂ Stands items (createdAt.sort u.rows) := by
  obtain ⟨createdAt, hrows⟩ := orders.createdAt.exists_related h
    fun _ _ _ _ ha hb hle => ha.createdAt ▸ hb.createdAt ▸ hle
  obtain ⟨items, hitems, hstands⟩ := materialized hrows
  exact ⟨createdAt, items, hitems, hstands⟩

/-- The least of the sorted times. -/
theorem earliest (h : StoresItems j t u) (orders : SyncItemDao.Orders δ)
    {p : SyncItemEntity δ → Bool} {q : Ios.StoredSyncItem → Bool}
    (hpq : ∀ entity row, Holds j entity row → p entity = q row) :
    SyncItemDao.firstRetryAt orders p t = u.minWhere q (·.nextRetryAt) := by
  rw [SyncItemDao.firstRetryAt, OrderBy.head?_sort]
  exact KeyedTable.Stores.minWhere_eq h hpq fun _ _ hrow => hrow.nextRetryAt

theorem id_beq (id : String) : ∀ entity row, Holds j entity row →
    (entity.id == some id) = (row.id == id) := by
  intro entity row hrow
  rw [hrow.id, Bool.eq_iff_iff, beq_iff_eq, beq_iff_eq, Option.some_inj]

theorem updateById (h : StoresItems j t u) (id : String) {f : SyncItemEntity δ → SyncItemEntity δ}
    {g : Ios.StoredSyncItem → Ios.StoredSyncItem} (hf : ∀ r, (f r).id = r.id)
    (hg : ∀ r, (g r).id = r.id)
    (hfg : ∀ entity row, Holds j entity row → Holds j (f entity) (g row)) :
    StoresItems j (SyncItemDao.updateById id f hf t) (Ios.SyncItemDao.updateById id g hg u) :=
  h.updateWhere (id_beq id) hfg

theorem resetInFlight (h : StoresItems j t u) :
    StoresItems j
      (t.updateWhere (SyncItemDao.hasStatus .IN_FLIGHT)
        (fun r => { r with status := some (rawValue .PENDING) }) fun _ => rfl)
      (Ios.SyncItemDao.resetInFlightToPending u) :=
  h.updateWhere (fun _ _ hrow => hrow.hasStatus .IN_FLIGHT) fun _ _ hrow =>
    { hrow with status := rfl }

/-- One operation does the same to both, and answers alike. -/
theorem run (hj : j.Faithful) (h : StoresItems j t u) (orders : SyncItemDao.Orders δ)
    (operation : Operation) : ∃ orders' : RowOrders,
      StoresItems j (SyncItemDao.run j orders t operation).1 (decodedRun orders' u operation).1 ∧
        TableAnswer.Rel Stands (SyncItemDao.run j orders t operation).2
          (decodedRun orders' u operation).2 := by
  -- what does not sort, whatever the orders
  have hany : RowOrders := ⟨.stable _, .stable _⟩
  cases operation with
  | insert item =>
    obtain ⟨entity, hentity, hrow⟩ := insertItem_eq hj item
    have hinsert := KeyedTable.Stores.insert (Option.some_injective _) key_eq h hrow
    simp only [SyncItemDao.run, hentity, Option.bind_some]
    exact ⟨hany, inserted_related h hinsert⟩
  | insertBatch items =>
    have hitems : List.Forall₂ (fun item row => ∃ entity,
        SyncItemDao.insertItem j item = some entity ∧ Holds j entity row)
        (items.map NewItem.build) (items.map fun item => item.decoded.stored) := by
      rw [List.forall₂_map_left_iff, List.forall₂_map_right_iff, List.forall₂_same]
      exact fun item _ => insertItem_eq hj item
    obtain ⟨entities, hentities, hrows⟩ := hitems.mapM fun _ _ hitem => hitem
    have hinsert := KeyedTable.Stores.insertAll (Option.some_injective _) key_eq h hrows
    simp only [SyncItemDao.run, hentities, Option.bind_some]
    exact ⟨hany, inserted_related h hinsert⟩
  | countPending =>
    refine ⟨hany, h, ?_⟩
    simp only [SyncItemDao.run, decodedRun, Ios.SyncItemDao.countPending,
      h.countWhere_eq fun _ _ hrow => hrow.hasStatus .PENDING]
    exact .number _
  | fetchPending nowMs limit =>
    obtain ⟨orderBy, items, hitems, hstands⟩ := h.exists_fetchPending orders nowMs limit
    refine ⟨⟨.stable _, orderBy⟩, ?_⟩
    simp only [SyncItemDao.run, hitems]
    exact ⟨h, .rows hstands⟩
  | fetchQueued =>
    obtain ⟨orderBy, items, hitems, hstands⟩ := h.exists_fetchQueued orders
    refine ⟨⟨.stable _, orderBy⟩, ?_⟩
    simp only [SyncItemDao.run, hitems]
    exact ⟨h, .rows hstands⟩
  | fetchAll =>
    obtain ⟨createdAt, items, hitems, hstands⟩ := h.exists_fetchAll orders
    refine ⟨⟨createdAt, .stable _⟩, ?_⟩
    simp only [SyncItemDao.run, hitems]
    exact ⟨h, .rows hstands⟩
  | earliestRetryAt =>
    refine ⟨hany, h, ?_⟩
    simp only [SyncItemDao.run, decodedRun, SyncItemDao.earliestRetryAt,
      Ios.SyncItemDao.earliestRetryAt, h.earliest orders fun _ _ hrow => congrArg₂ (· && ·)
        (hrow.hasStatus .PENDING) (congrArg (fun n : Int => decide (0 < n)) hrow.nextRetryAt)]
    exact .time _
  | earliestPendingAt =>
    refine ⟨hany, h, ?_⟩
    simp only [SyncItemDao.run, decodedRun, SyncItemDao.earliestPendingAt,
      Ios.SyncItemDao.earliestPendingAt, h.earliest orders fun _ _ hrow => hrow.hasStatus .PENDING]
    exact .time _
  | find id =>
    refine ⟨hany, h, ?_⟩
    have hfind := KeyedTable.Stores.find? (Option.some_injective _) key_eq h id
    simp only [SyncItemDao.run, decodedRun, SyncItemDao.find]
    generalize t.find? (some id) = entity? at hfind ⊢
    generalize u.find? id = row? at hfind ⊢
    cases hfind with
    | none => exact .row .none
    | some hrow =>
      obtain ⟨item, hitem, hstands⟩ := materialize_eq hrow
      simp only [hitem]
      exact .row (.some hstands)
  | markInFlight id nowMs =>
    refine ⟨hany, h.updateById id (by simp) (by simp) fun entity row hrow => ?_, .done⟩
    exact { hrow with
      status := rfl
      attempts := congrArg (· + 1) hrow.attempts
      lastAttemptAt := rfl }
  | markFailed id errorCode =>
    refine ⟨hany, h.updateById id (by simp) (by simp) fun entity row hrow => ?_, .done⟩
    exact { hrow with status := rfl, lastErrorCode := rfl }
  | markPendingForRetry id errorCode retryDelayMs nowMs =>
    refine ⟨hany, h.updateById id (by simp) (by simp) fun entity row hrow => ?_, .done⟩
    exact { hrow with
      status := rfl
      lastErrorCode := rfl
      lastAttemptAt := rfl
      nextRetryAt := rfl }
  | markCredentialRejected id errorCode retryDelayMs attempts nowMs =>
    refine ⟨hany, h.updateById id (by simp) (by simp) fun entity row hrow => ?_, .time _⟩
    exact { hrow with
      status := rfl
      attempts := rfl
      lastErrorCode := rfl
      lastAttemptAt := rfl
      nextRetryAt := rfl }
  | resetInFlightToPending =>
    refine ⟨hany, h.resetInFlight, ?_⟩
    simp only [SyncItemDao.run, decodedRun,
      h.countWhere_eq fun _ _ hrow => hrow.hasStatus .IN_FLIGHT]
    exact .number _
  | delete id =>
    refine ⟨hany, h.deleteWhere (id_beq id), ?_⟩
    simp only [SyncItemDao.run, decodedRun, Ios.SyncItemDao.delete,
      List.Forall₂.any_eq h (id_beq id)]
    exact .flag _
  | clear => exact ⟨hany, .empty, .done⟩

end StoresItems

/-! ## 4. Nothing throws -/

theorem keys_decodedRun (orders : RowOrders) (u : StoredItems) (operation : Operation) :
    (decodedRun orders u operation).1.keys ⊆ u.keys ++ operation.ids := by
  have hsame : ∀ u' : StoredItems, u'.keys = u.keys → u'.keys ⊆ u.keys ++ operation.ids := by
    intro u' heq
    rw [heq]
    exact List.subset_append_left _ _
  cases operation with
  | insert item =>
    cases hinsert : u.insert item.decoded.stored with
    | none =>
      rw [decodedRun, hinsert]
      exact hsame u rfl
    | some u' =>
      have hkeys : u'.keys = u.keys ++ [item.id] := by
        rw [KeyedTable.keys, KeyedTable.rows_insert hinsert, List.map_append]
        rfl
      rw [decodedRun, hinsert]
      exact fun k hk => hkeys ▸ hk
  | insertBatch items =>
    cases hinsert : Ios.SyncItemDao.insertBatch (items.map fun item => item.decoded.stored) u with
    | none =>
      rw [decodedRun, hinsert]
      exact hsame u rfl
    | some u' =>
      rw [decodedRun, hinsert]
      have hkeys := KeyedTable.keys_insertAll hinsert
      rw [List.map_map] at hkeys
      exact fun k hk => hkeys ▸ hk
  | markInFlight id nowMs => exact hsame _ (Ios.SyncItemDao.keys_markInFlight ..)
  | markFailed id errorCode => exact hsame _ (Ios.SyncItemDao.keys_markFailed ..)
  | markPendingForRetry id errorCode retryDelayMs nowMs =>
    exact hsame _ (Ios.SyncItemDao.keys_markPendingForRetry ..)
  | markCredentialRejected id errorCode retryDelayMs attempts nowMs =>
    exact hsame _ (Ios.SyncItemDao.keys_markCredentialRejected ..)
  | resetInFlightToPending => exact hsame _ (Ios.SyncItemDao.keys_resetInFlightToPending _)
  | delete id => exact fun x hx => List.mem_append_left _ (Ios.SyncItemDao.mem_delete.mp hx).1
  | clear => exact List.nil_subset _
  | _ => exact hsame u rfl

/-- With new ids nothing throws. -/
theorem decodedRun_ne_thrown (orders : RowOrders) {u : StoredItems} {operation : Operation}
    (h : (u.keys ++ operation.ids).Nodup) : (decodedRun orders u operation).2 ≠ .thrown := by
  cases operation with
  | insert item =>
    obtain ⟨u', hall⟩ : ∃ u', KeyedTable.insertAll [item.decoded.stored] u = some u' :=
      KeyedTable.exists_insertAll h
    obtain ⟨u'', hinsert, -⟩ := Option.bind_eq_some_iff.mp hall
    rw [decodedRun, hinsert]
    exact nofun
  | insertBatch items =>
    have hkeys : (items.map fun item => item.decoded.stored).map Ios.StoredSyncItem.id =
        items.map NewItem.id := by
      rw [List.map_map]
      rfl
    obtain ⟨u', hinsert⟩ : ∃ u',
        KeyedTable.insertAll (items.map fun item => item.decoded.stored) u = some u' :=
      KeyedTable.exists_insertAll (by rw [hkeys]; exact h)
    rw [decodedRun, Ios.SyncItemDao.insertBatch, hinsert]
    exact nofun
  | _ => exact nofun

theorem thrown_notMem {u : StoredItems} {operations : List (RowOrders × Operation)}
    (h : (u.keys ++ (operations.map Prod.snd).flatMap Operation.ids).Nodup) :
    TableAnswer.thrown ∉ (decodedRunAll u operations).2 := by
  induction operations generalizing u with
  | nil => exact nofun
  | cons operation operations ih =>
    rw [List.map_cons, List.flatMap_cons, ← List.append_assoc, List.nodup_append] at h
    obtain ⟨hhere, hrest, hdisjoint⟩ := h
    rw [decodedRunAll, runStatements, List.mem_cons, not_or]
    refine ⟨(decodedRun_ne_thrown operation.1 hhere).symm, ih ?_⟩
    rw [List.nodup_append]
    refine ⟨(decodedRun operation.1 u operation.2).1.nodup, hrest, fun k hk => ?_⟩
    exact hdisjoint k (keys_decodedRun operation.1 u operation.2 hk)

theorem thrown_mem_iff {R : StoredSyncItem → Ios.StoredSyncItem → Prop}
    {as : List (TableAnswer StoredSyncItem)} {bs : List (TableAnswer Ios.StoredSyncItem)}
    (h : List.Forall₂ (TableAnswer.Rel R) as bs) :
    TableAnswer.thrown ∈ as ↔ TableAnswer.thrown ∈ bs := by
  induction h with
  | nil => simp
  | cons hab _ ih => cases hab <;> simp [ih]

/-- Whatever operations run one after the other on an empty store, when no id is inserted
twice, and whatever their fetches and sorts do with what is equal in their orders: none of
them throws; and the same operations on the rows of `StoredItems`, with orders of the rows,
leave rows that the objects hold and answer alike, and JS is given each item of an answer
with the values that its row has. -/
theorem attributes_refine_rows (hj : j.Faithful)
    (operations : List (SyncItemDao.Orders δ × Operation))
    (hids : ((operations.map Prod.snd).flatMap Operation.ids).Nodup) :
    .thrown ∉ (SyncItemDao.runAll j .empty operations).2 ∧
      ∃ decoded : List (RowOrders × Operation),
        decoded.map Prod.snd = operations.map Prod.snd ∧
        StoresItems j (SyncItemDao.runAll j .empty operations).1
          (decodedRunAll .empty decoded).1 ∧
        List.Forall₂
          (TableAnswer.Rel fun item row => Stands item row ∧ Shows (translate item) row)
          (SyncItemDao.runAll j .empty operations).2 (decodedRunAll .empty decoded).2 := by
  have hstep (t : Objects δ) (u : StoredItems) (s : SyncItemDao.Orders δ × Operation)
      (h : StoresItems j t u) : ∃ s' : RowOrders × Operation, s.2 = s'.2 ∧
        StoresItems j (SyncItemDao.run j s.1 t s.2).1 (decodedRun s'.1 u s'.2).1 ∧
        TableAnswer.Rel Stands (SyncItemDao.run j s.1 t s.2).2 (decodedRun s'.1 u s'.2).2 := by
    obtain ⟨orders', hrun⟩ := h.run hj s.1 s.2
    exact ⟨(orders', s.2), rfl, hrun⟩
  obtain ⟨decoded, hsame, hstores, hanswers⟩ :=
    exists_runStatements_related hstep .empty operations
  have hdecoded : decoded.map Prod.snd = operations.map Prod.snd :=
    (hsame.map_eq fun _ _ h => h).symm
  refine ⟨?_, decoded, hdecoded, hstores,
    hanswers.imp fun a b hab => hab.mono fun item row h => ⟨h, h.translate⟩⟩
  rw [SyncItemDao.runAll, thrown_mem_iff hanswers]
  exact thrown_notMem (hdecoded ▸ hids)

section Sample

/-- The data is the dictionary itself. -/
def plainJson : JSONSerialization Dictionary where
  data := some
  isEmpty _ := false
  jsonObject d := some (some d)

theorem plainJson_faithful : plainJson.Faithful := ⟨fun d => ⟨d, d, rfl, rfl, rfl, .refl _⟩⟩

def tenantHeaders : Dictionary := ⟨[("X-Tenant", "42")], List.nodup_singleton _⟩

def samplePatch (id priority : String) : NewItem :=
  ⟨⟨"PATCH", "https://a.test/b", some tenantHeaders, none, none, priority,
      some ⟨[], List.nodup_nil⟩⟩,
    id, 5⟩

instance : Std.Total fun a b : StoredSyncItem => SyncItemDao.isDispatchedBefore b a = false :=
  ⟨fun a b => by simp only [SyncItemDao.isDispatchedBefore_eq_false_iff]; omega⟩

instance : IsTrans StoredSyncItem fun a b => SyncItemDao.isDispatchedBefore b a = false :=
  ⟨fun a b c => by simp only [SyncItemDao.isDispatchedBefore_eq_false_iff]; omega⟩

/-- Every sort leaves what is equal in it as it was. -/
def plainOrders : SyncItemDao.Orders Dictionary where
  store := ⟨id, fun _ => .refl _, fun _ => List.pairwise_of_forall fun _ _ => trivial⟩
  createdAt := .stable _
  nextRetryAt := .stable _
  dispatch := .stable _

/-- A retry, with a fetch before and after its deadline. -/
def retryOperations : List (SyncItemDao.Orders Dictionary × Operation) :=
  [Operation.insertBatch [samplePatch "02" "LOW", samplePatch "01" "HIGH"], .markInFlight "01" 6,
    .markPendingForRetry "01" (some .SERVER_ERROR) 3 6, .fetchPending 8 0, .fetchPending 9 1,
    .earliestRetryAt].map fun operation => (plainOrders, operation)

theorem attributes_refine_rows_of_retry :
    ∃ item row, (SyncItemDao.runAll plainJson .empty retryOperations).2 =
        [.done, .done, .done,
          .rows [{ (samplePatch "02" "LOW").build with metadata := none }], .rows [item],
          .time (some 9)] ∧
      item.id = "01" ∧ item.lastAttemptAt = some 6 ∧ item.metadata = none ∧
      row.attempts = 1 ∧ Shows (translate item) row := by
  obtain ⟨item, hitem, hid, hlastAttemptAt, hmetadata, hattempts⟩ : ∃ item,
      (SyncItemDao.runAll plainJson .empty retryOperations).2 =
        [.done, .done, .done,
          .rows [{ (samplePatch "02" "LOW").build with metadata := none }], .rows [item],
          .time (some 9)] ∧
      item.id = "01" ∧ item.lastAttemptAt = some 6 ∧ item.metadata = none ∧ item.attempts = 1 :=
    ⟨_, rfl, rfl, rfl, rfl, rfl⟩
  obtain ⟨-, decoded, -, -, hanswers⟩ :=
    attributes_refine_rows plainJson_faithful retryOperations (by decide)
  rw [hitem] at hanswers
  simp only [List.forall₂_cons_left_iff] at hanswers
  obtain ⟨_, _, -, ⟨_, _, -, ⟨_, _, -, ⟨_, _, -, ⟨_, _, hfetched, -⟩, -⟩, -⟩, -⟩, -⟩ := hanswers
  cases hfetched with
  | rows hfetched =>
    obtain ⟨row, -, ⟨hstands, hshows⟩, -⟩ := List.forall₂_cons_left_iff.mp hfetched
    exact ⟨item, row, hitem, hid, hlastAttemptAt, hmetadata,
      hstands.attempts.symm.trans hattempts, hshows⟩

end Sample

end SyncProvider.Ios.Raw
