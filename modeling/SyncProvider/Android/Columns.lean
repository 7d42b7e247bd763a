import SyncProvider.Android.ConfigCodec
import SyncProvider.Android.Selection
import SyncProvider.Android.Storage
import SyncProvider.Lib.RowRefinement

/-!
# Android: the columns of `sync_items`

A row of the database has texts for its method, priority, status and error code, and JSON
texts for its headers and metadata. The statements compare and write these texts. The rows
of `SyncItems` hold the values instead, and here the table of texts stores that table: a
statement does the same to both, and answers alike.

`String.uppercase` is a parameter, and so is what each statement does with rows that are
equal in its `ORDER BY`, which depends on the index the database walks. The statements on
the rows are those of `SyncItems` whose sorts do the same.

Results:
1. `holds_toEntity` : a new row of texts holds the row.
2. `Holds.toSyncItem` : what JS is given of a row.
3. `columns_refine_rows` : any sequence of statements.
-/

namespace SyncProvider.Android.Raw

/-! ## The rows -/

/-- The names are the stored texts. -/
def statusName : ItemStatus → String
  | .PENDING => "PENDING"
  | .IN_FLIGHT => "IN_FLIGHT"
  | .FAILED => "FAILED"

/-- A row as the database has it. -/
structure SyncItemEntity where
  id : String
  method : String
  url : String
  headers : Option String
  body : Option String
  contentType : Option String
  priority : String
  priorityWeight : Int
  createdAt : Int
  attempts : Int
  lastAttemptAt : Option Int
  lastErrorCode : Option String
  status : String
  metadata : Option String
  nextRetryAt : Int
  deriving DecidableEq

structure SyncItemInput where
  method : HttpMethod
  url : String
  headers : Option HeaderMap
  body : Option String
  contentType : Option String
  priority : Option SyncPriority
  metadata : Option HeaderMap
  deriving DecidableEq

/-- An item as JS is given it. -/
structure SyncItem where
  id : String
  method : HttpMethod
  url : String
  headers : Option HeaderMap
  body : Option String
  contentType : Option String
  priority : SyncPriority
  createdAt : Double
  attempts : Double
  nextRetryAt : Double
  metadata : Option HeaderMap
  deriving DecidableEq

/-- Capital letters stay as they are. -/
def KeepsCapitals (uppercase : String → String) : Prop :=
  ∀ s, s.toList.all Char.isUpper = true → uppercase s = s

namespace SyncItemEntity

/-- Any other name has the weight of `NORMAL`. -/
def weightOf (uppercase : String → String) (priority : String) : Int :=
  if uppercase priority = "HIGH" then 0 else if uppercase priority = "LOW" then 2 else 1

/-- `ORDER BY priorityWeight ASC, createdAt ASC`. -/
def DispatchedBefore (a b : SyncItemEntity) : Prop :=
  a.priorityWeight < b.priorityWeight ∨
    a.priorityWeight = b.priorityWeight ∧ a.createdAt ≤ b.createdAt

/-- The `ORDER BY` of a statement. -/
abbrev RowOrder := OrderBy DispatchedBefore

end SyncItemEntity

/-! ## `SyncQueueStorage` -/

namespace SyncQueueStorage

def toEntity (p : Platform) (uppercase : String → String) (input : SyncItemInput) (id : String)
    (now : Int) : SyncItemEntity :=
  let priority := (input.priority.getD .NORMAL).name
  { id := id
    method := input.method.name
    url := input.url
    headers := JsonMap.encode p input.headers
    body := input.body
    contentType := input.contentType
    priority := priority
    priorityWeight := SyncItemEntity.weightOf uppercase priority
    createdAt := now
    attempts := 0
    lastAttemptAt := none
    lastErrorCode := none
    status := statusName .PENDING
    metadata := JsonMap.encode p input.metadata
    nextRetryAt := 0 }

/-- `HttpMethod.valueOf`, none when there is no such method. -/
def methodOf (name : String) : Option HttpMethod :=
  [HttpMethod.GET, .POST, .PUT, .PATCH, .DELETE].find? fun method => method.name = name

/-- `SyncPriority.valueOf`. -/
def priorityOf (name : String) : Option SyncPriority :=
  [SyncPriority.HIGH, .NORMAL, .LOW].find? fun priority => priority.name = name

def parseMethod (uppercase : String → String) (name : String) : HttpMethod :=
  (methodOf (uppercase name)).getD .GET

def parsePriority (uppercase : String → String) (name : String) : SyncPriority :=
  (priorityOf (uppercase name)).getD .NORMAL

def toSyncItem (p : Platform) (uppercase : String → String) (entity : SyncItemEntity) :
    SyncItem where
  id := entity.id
  method := parseMethod uppercase entity.method
  url := entity.url
  headers := entity.headers.bind (JsonMap.decode p)
  body := entity.body
  contentType := entity.contentType
  priority := parsePriority uppercase entity.priority
  createdAt := .ofInt entity.createdAt
  attempts := .ofInt entity.attempts
  nextRetryAt := .ofInt entity.nextRetryAt
  metadata := entity.metadata.bind (JsonMap.decode p)

end SyncQueueStorage

/-- An input, its ulid and the clock. -/
structure NewItem where
  input : SyncItemInput
  id : String
  now : Int
  deriving DecidableEq

/-- The item of `SyncItems`. -/
def NewItem.decoded (item : NewItem) : SyncQueueStorage.NewItem where
  input :=
    { method := item.input.method
      url := item.input.url
      headers := item.input.headers.map HeaderMap.entries
      body := item.input.body
      contentType := item.input.contentType
      priority := item.input.priority
      metadata := item.input.metadata.map HeaderMap.entries }
  id := item.id
  now := item.now

/-! ## `SyncItemDao` -/

/-- The `sync_items` table of the database. -/
abbrev SyncItems := KeyedTable SyncItemEntity.id

/-- The statements, with what the storage passes to them. -/
inductive Statement where
  | insert (item : NewItem)
  | insertBatch (items : List NewItem)
  | deleteById (id : String)
  | clear
  | count
  | countByStatus (status : ItemStatus)
  | findByStatuses (statuses : List ItemStatus)
  | findByStatusesLimit (statuses : List ItemStatus) (limit : Int)
  | claimPending (now limit : Int)
  | nextRetryDeadline
  | nextPendingDeadline
  | observeAll
  | findById (id : String)
  | updateStatus (id : String) (status : ItemStatus) (attempts : Int) (lastAttemptAt : Option Int)
    (lastErrorCode : Option SyncErrorCode) (nextRetryAt : Int)
  | resetInFlight

namespace SyncItemDao

/-- `LIMIT`. SQLite reads a negative one as none. -/
def limited (limit : Int) (rows : List SyncItemEntity) : List SyncItemEntity :=
  if limit < 0 then rows else rows.take limit.toNat

def findByStatuses (orderBy : SyncItemEntity.RowOrder) (statuses : List String) (t : SyncItems) :
    List SyncItemEntity :=
  orderBy.sort (t.rows.filter fun r => statuses.contains r.status)

def selectClaimable (orderBy : SyncItemEntity.RowOrder) (now limit : Int) (t : SyncItems) :
    List SyncItemEntity :=
  limited limit (orderBy.sort (t.rows.filter fun r =>
    r.status == statusName .PENDING && r.nextRetryAt ≤ now))

def markInFlight (ids : List String) (t : SyncItems) : SyncItems :=
  t.updateWhere (fun r => ids.contains r.id) (fun r => { r with status := statusName .IN_FLIGHT })
    fun _ => rfl

def claimPending (orderBy : SyncItemEntity.RowOrder) (now limit : Int) (t : SyncItems) :
    SyncItems × List SyncItemEntity :=
  let rows := selectClaimable orderBy now limit t
  ((chunked SyncItemDao.MAX_IDS_PER_STATEMENT (rows.map (·.id))).foldl
    (fun t ids => markInFlight ids t) t, rows)

def updateStatus (id status : String) (attempts : Int) (lastAttemptAt : Option Int)
    (lastErrorCode : Option String) (nextRetryAt : Int) (t : SyncItems) : SyncItems :=
  t.updateWhere (fun r => r.id == id)
    (fun r => { r with
      status := status
      attempts := attempts
      lastAttemptAt := lastAttemptAt
      lastErrorCode := lastErrorCode
      nextRetryAt := nextRetryAt })
    fun _ => rfl

def resetInFlight (t : SyncItems) : SyncItems :=
  t.updateWhere (fun r => r.status == statusName .IN_FLIGHT)
    (fun r => { r with status := statusName .PENDING }) fun _ => rfl

section Run

variable (p : Platform) (uppercase : String → String)

/-- The row that the storage makes of an item. -/
def entityOf (item : NewItem) : SyncItemEntity :=
  SyncQueueStorage.toEntity p uppercase item.input item.id item.now

/-- One statement on the texts. -/
def run (orderBy : SyncItemEntity.RowOrder) (t : SyncItems) :
    Statement → SyncItems × TableAnswer SyncItemEntity
  | .insert item => inserted t (t.insert (entityOf p uppercase item))
  | .insertBatch items => inserted t (t.insertAll (items.map (entityOf p uppercase)))
  | .deleteById id =>
    (t.deleteWhere fun r => r.id == id, .number (t.countWhere fun r => r.id == id))
  | .clear => (.empty, .done)
  | .count => (t, .number t.rows.length)
  | .countByStatus status => (t, .number (t.countWhere fun r => r.status == statusName status))
  | .findByStatuses statuses =>
    (t, .rows (findByStatuses orderBy (statuses.map statusName) t))
  | .findByStatusesLimit statuses limit =>
    (t, .rows (limited limit (findByStatuses orderBy (statuses.map statusName) t)))
  | .claimPending now limit =>
    ((claimPending orderBy now limit t).1, .rows (claimPending orderBy now limit t).2)
  | .nextRetryDeadline =>
    (t, .time (t.minWhere (fun r => r.status == statusName .PENDING && 0 < r.nextRetryAt)
      (·.nextRetryAt)))
  | .nextPendingDeadline =>
    (t, .time (t.minWhere (fun r => r.status == statusName .PENDING) (·.nextRetryAt)))
  | .observeAll => (t, .rows (orderBy.sort t.rows))
  | .findById id => (t, .row (t.find? id))
  | .updateStatus id status attempts lastAttemptAt lastErrorCode nextRetryAt =>
    (updateStatus id (statusName status) attempts lastAttemptAt
      (lastErrorCode.map SyncErrorCode.name) nextRetryAt t,
      .number (t.countWhere fun r => r.id == id))
  | .resetInFlight =>
    (resetInFlight t, .number (t.countWhere fun r => r.status == statusName .IN_FLIGHT))

/-- Statements one after the other, each with an order of its own. -/
def runAll (t : SyncItems) (statements : List (SyncItemEntity.RowOrder × Statement)) :
    SyncItems × List (TableAnswer SyncItemEntity) :=
  runStatements (fun t s => run p uppercase s.1 t s.2) t statements

end Run

end SyncItemDao

/-- One statement on the rows of `SyncItems`. -/
def decodedRun (orderBy : Android.SyncItemEntity.RowOrder) (t : Android.SyncItems) : Statement →
    Android.SyncItems × TableAnswer Android.SyncItemEntity
  | .insert item => inserted t (Android.SyncItemDao.insert item.decoded.entity t)
  | .insertBatch items =>
    inserted t (Android.SyncItemDao.insertBatch (items.map fun item => item.decoded.entity) t)
  | .deleteById id =>
    ((Android.SyncItemDao.deleteById id t).1, .number (Android.SyncItemDao.deleteById id t).2)
  | .clear => (Android.SyncItemDao.clear t, .done)
  | .count => (t, .number (Android.SyncItemDao.count t))
  | .countByStatus status => (t, .number (t.countWhere fun r => r.status == status))
  | .findByStatuses statuses =>
    (t, .rows (orderBy.sort (t.rows.filter fun r => statuses.contains r.status)))
  | .findByStatusesLimit statuses limit =>
    (t, .rows (Android.SyncItemDao.limited limit
      (orderBy.sort (t.rows.filter fun r => statuses.contains r.status))))
  | .claimPending now limit =>
    ((Android.SyncItemDao.claimPendingBy orderBy now limit t).1,
      .rows (Android.SyncItemDao.claimPendingBy orderBy now limit t).2)
  | .nextRetryDeadline => (t, .time (Android.SyncItemDao.nextRetryDeadline t))
  | .nextPendingDeadline => (t, .time (Android.SyncItemDao.nextPendingDeadline t))
  | .observeAll => (t, .rows (orderBy.sort t.rows))
  | .findById id => (t, .row (t.find? id))
  | .updateStatus id status attempts lastAttemptAt lastErrorCode nextRetryAt =>
    (Android.SyncItemDao.updateStatus id status attempts lastAttemptAt lastErrorCode nextRetryAt t,
      .number (t.countWhere fun r => r.id == id))
  | .resetInFlight =>
    (Android.SyncItemDao.resetInFlight t, .number (t.countWhere fun r => r.status == .IN_FLIGHT))

def decodedRunAll (t : Android.SyncItems)
    (statements : List (Android.SyncItemEntity.RowOrder × Statement)) :
    Android.SyncItems × List (TableAnswer Android.SyncItemEntity) :=
  runStatements (fun t s => decodedRun s.1 t s.2) t statements

/-! ## 1. A row and its texts -/

/-- The text holds the map. An empty map is stored as no text. -/
structure HoldsMap (p : Platform) (raw : Option String) (map : Option StringMap) : Prop where
  absent : raw = none ↔ map.getD [] = []
  entries : (((raw.bind (JsonMap.decode p)).map HeaderMap.entries).getD []).Perm (map.getD [])

/-- The texts hold the row. -/
structure Holds (p : Platform) (raw : SyncItemEntity) (row : Android.SyncItemEntity) : Prop where
  id : raw.id = row.id
  method : raw.method = row.method.name
  url : raw.url = row.url
  headers : HoldsMap p raw.headers row.headers
  body : raw.body = row.body
  contentType : raw.contentType = row.contentType
  priority : raw.priority = row.priority.name
  priorityWeight : raw.priorityWeight = row.priorityWeight
  createdAt : raw.createdAt = row.createdAt
  attempts : raw.attempts = row.attempts
  lastAttemptAt : raw.lastAttemptAt = row.lastAttemptAt
  lastErrorCode : raw.lastErrorCode = row.lastErrorCode.map SyncErrorCode.name
  status : raw.status = statusName row.status
  metadata : HoldsMap p raw.metadata row.metadata
  nextRetryAt : raw.nextRetryAt = row.nextRetryAt

variable {p : Platform} {uppercase : String → String}

theorem holdsMap_encode (hp : p.Faithful) (map : Option HeaderMap) :
    HoldsMap p (JsonMap.encode p map) (map.map HeaderMap.entries) := by
  refine ⟨JsonMap.encode_eq_none_iff, ?_⟩
  cases hencode : JsonMap.encode p map with
  | none =>
    rw [JsonMap.encode_eq_none_iff.mp hencode]
    exact .nil
  | some raw =>
    obtain ⟨headers, hdecode, hperm⟩ := JsonMap.decode_encode hp hencode
    rw [Option.bind_some, hdecode]
    exact hperm

theorem KeepsCapitals.method (h : KeepsCapitals uppercase) (method : HttpMethod) :
    uppercase method.name = method.name := by
  refine h _ ?_
  cases method <;> rfl

theorem KeepsCapitals.priority (h : KeepsCapitals uppercase) (priority : SyncPriority) :
    uppercase priority.name = priority.name := by
  refine h _ ?_
  cases priority <;> rfl

theorem weightOf_name (h : KeepsCapitals uppercase) (priority : SyncPriority) :
    SyncItemEntity.weightOf uppercase priority.name = Android.SyncItemEntity.weightOf priority := by
  unfold SyncItemEntity.weightOf
  rw [h.priority]
  cases priority <;> rfl

theorem parseMethod_name (h : KeepsCapitals uppercase) (method : HttpMethod) :
    SyncQueueStorage.parseMethod uppercase method.name = method := by
  unfold SyncQueueStorage.parseMethod
  rw [h.method]
  cases method <;> rfl

theorem parsePriority_name (h : KeepsCapitals uppercase) (priority : SyncPriority) :
    SyncQueueStorage.parsePriority uppercase priority.name = priority := by
  unfold SyncQueueStorage.parsePriority
  rw [h.priority]
  cases priority <;> rfl

/-- The row of a new item. -/
theorem holds_toEntity (hp : p.Faithful) (hup : KeepsCapitals uppercase) (item : NewItem) :
    Holds p (SyncItemDao.entityOf p uppercase item) item.decoded.entity where
  id := rfl
  method := rfl
  url := rfl
  headers := holdsMap_encode hp _
  body := rfl
  contentType := rfl
  priority := rfl
  priorityWeight := weightOf_name hup _
  createdAt := rfl
  attempts := rfl
  lastAttemptAt := rfl
  lastErrorCode := rfl
  status := rfl
  metadata := holdsMap_encode hp _
  nextRetryAt := rfl

/-! ## 2. A row as JS sees it -/

/-- The map that is shown. An empty one is not. -/
structure ShowsMap (shown : Option HeaderMap) (map : Option StringMap) : Prop where
  absent : shown = none ↔ map.getD [] = []
  entries : ((shown.map HeaderMap.entries).getD []).Perm (map.getD [])

structure Shows (item : SyncItem) (row : Android.SyncItemEntity) : Prop where
  id : item.id = row.id
  method : item.method = row.method
  url : item.url = row.url
  headers : ShowsMap item.headers row.headers
  body : item.body = row.body
  contentType : item.contentType = row.contentType
  priority : item.priority = row.priority
  createdAt : item.createdAt = .ofInt row.createdAt
  attempts : item.attempts = .ofInt row.attempts
  nextRetryAt : item.nextRetryAt = .ofInt row.nextRetryAt
  metadata : ShowsMap item.metadata row.metadata

theorem HoldsMap.shows {raw : Option String} {map : Option StringMap} (h : HoldsMap p raw map) :
    ShowsMap (raw.bind (JsonMap.decode p)) map := by
  refine ⟨?_, h.entries⟩
  constructor
  · intro hnone
    have hperm := h.entries
    rw [hnone] at hperm
    exact hperm.nil_eq.symm
  · intro hempty
    rw [h.absent.mpr hempty]
    rfl

theorem Holds.toSyncItem (hup : KeepsCapitals uppercase) {raw : SyncItemEntity}
    {row : Android.SyncItemEntity} (h : Holds p raw row) :
    Shows (SyncQueueStorage.toSyncItem p uppercase raw) row where
  id := h.id
  method := by
    rw [SyncQueueStorage.toSyncItem, h.method]
    exact parseMethod_name hup _
  url := h.url
  headers := h.headers.shows
  body := h.body
  contentType := h.contentType
  priority := by
    rw [SyncQueueStorage.toSyncItem, h.priority]
    exact parsePriority_name hup _
  createdAt := congrArg Double.ofInt h.createdAt
  attempts := congrArg Double.ofInt h.attempts
  nextRetryAt := congrArg Double.ofInt h.nextRetryAt
  metadata := h.metadata.shows

/-! ## 3. The statements -/

theorem statusName_injective : Function.Injective statusName := by
  have hall : ∀ a b, statusName a = statusName b → a = b := by
    intro a b
    cases a <;> cases b <;> decide
  exact hall

namespace Holds

variable {raw raw' : SyncItemEntity} {row row' : Android.SyncItemEntity}

theorem status_beq (h : Holds p raw row) (status : ItemStatus) :
    (raw.status == statusName status) = (row.status == status) := by
  rw [h.status, Bool.eq_iff_iff, beq_iff_eq, beq_iff_eq, statusName_injective.eq_iff]

theorem status_contains (h : Holds p raw row) (statuses : List ItemStatus) :
    (statuses.map statusName).contains raw.status = statuses.contains row.status := by
  rw [h.status, Bool.eq_iff_iff, List.contains_iff_mem, List.contains_iff_mem,
    List.mem_map_of_injective statusName_injective]

theorem dispatchedBefore_iff (h : Holds p raw row) (h' : Holds p raw' row') :
    SyncItemEntity.DispatchedBefore raw raw' ↔
      Android.SyncItemEntity.DispatchedBefore row row' := by
  unfold SyncItemEntity.DispatchedBefore Android.SyncItemEntity.DispatchedBefore
  rw [h.priorityWeight, h'.priorityWeight, h.createdAt, h'.createdAt]

/-- A new status, and nothing else. -/
theorem withStatus (h : Holds p raw row) (status : ItemStatus) :
    Holds p { raw with status := statusName status } { row with status := status } :=
  { h with status := rfl }

end Holds

/-- The table of texts stores the table of rows. -/
abbrev StoresItems (p : Platform) (t : SyncItems) (u : Android.SyncItems) : Prop :=
  KeyedTable.Stores (Holds p) t u

namespace StoresItems

variable {t : SyncItems} {u : Android.SyncItems}

theorem key_eq : ∀ raw row, Holds p raw row → raw.id = id row.id := fun _ _ h => h.id

/-- The sort of the rows that does what the sort of the texts does. -/
theorem exists_ordered (orderBy : SyncItemEntity.RowOrder) {rs : List SyncItemEntity}
    {ss : List Android.SyncItemEntity} (h : List.Forall₂ (Holds p) rs ss) :
    ∃ orderBy' : Android.SyncItemEntity.RowOrder,
      List.Forall₂ (Holds p) (orderBy.sort rs) (orderBy'.sort ss) :=
  orderBy.exists_related h fun _ _ _ _ h h' => (h.dispatchedBefore_iff h').mp

theorem limited {rs : List SyncItemEntity} {ss : List Android.SyncItemEntity}
    (h : List.Forall₂ (Holds p) rs ss) (limit : Int) :
    List.Forall₂ (Holds p) (SyncItemDao.limited limit rs)
      (Android.SyncItemDao.limited limit ss) := by
  unfold SyncItemDao.limited Android.SyncItemDao.limited
  split
  · exact h
  · exact List.forall₂_take _ h

theorem withStatusWhere (h : StoresItems p t u) {b : SyncItemEntity → Bool}
    {c : Android.SyncItemEntity → Bool} (hbc : ∀ raw row, Holds p raw row → b raw = c row)
    (status : ItemStatus) :
    StoresItems p (t.updateWhere b (fun r => { r with status := statusName status }) fun _ => rfl)
      (u.updateWhere c (fun r => { r with status := status }) fun _ => rfl) :=
  h.updateWhere hbc fun _ _ hrow => hrow.withStatus status

theorem markInFlight (h : StoresItems p t u) (ids : List String) :
    StoresItems p (SyncItemDao.markInFlight ids t) (Android.SyncItemDao.markInFlight ids u) :=
  h.withStatusWhere (fun _ _ hrow => by rw [hrow.id]) .IN_FLIGHT

theorem markAllInFlight (h : StoresItems p t u) (chunks : List (List String)) :
    StoresItems p (chunks.foldl (fun t ids => SyncItemDao.markInFlight ids t) t)
      (chunks.foldl (fun u ids => Android.SyncItemDao.markInFlight ids u) u) := by
  induction chunks generalizing t u with
  | nil => exact h
  | cons ids chunks ih => exact ih (h.markInFlight ids)

theorem exists_selectClaimable (h : StoresItems p t u) (orderBy : SyncItemEntity.RowOrder)
    (now limit : Int) : ∃ orderBy' : Android.SyncItemEntity.RowOrder,
      List.Forall₂ (Holds p) (SyncItemDao.selectClaimable orderBy now limit t)
        (Android.SyncItemDao.selectClaimableBy orderBy' now limit u) := by
  have hclaimable : List.Forall₂ (Holds p)
      (t.rows.filter fun r => r.status == statusName .PENDING && r.nextRetryAt ≤ now)
      (u.rows.filter (Android.SyncItemEntity.eligible now)) := by
    refine List.Forall₂.filter h fun raw row hrow => ?_
    rw [hrow.status_beq, hrow.nextRetryAt]
    rfl
  obtain ⟨orderBy', hordered⟩ := exists_ordered orderBy hclaimable
  exact ⟨orderBy', limited hordered limit⟩

/-- A claim of the same rows marks the same rows. -/
theorem claimPending (h : StoresItems p t u) {orderBy : SyncItemEntity.RowOrder}
    {orderBy' : Android.SyncItemEntity.RowOrder} {now limit : Int}
    (hselected : List.Forall₂ (Holds p) (SyncItemDao.selectClaimable orderBy now limit t)
      (Android.SyncItemDao.selectClaimableBy orderBy' now limit u)) :
    StoresItems p (SyncItemDao.claimPending orderBy now limit t).1
      (Android.SyncItemDao.claimPendingBy orderBy' now limit u).1 := by
  have hids := hselected.map_eq fun raw row hrow => hrow.id
  unfold SyncItemDao.claimPending Android.SyncItemDao.claimPendingBy
    Android.SyncItemDao.markAllInFlight
  simp only [hids]
  exact h.markAllInFlight _

theorem updateStatus (h : StoresItems p t u) (id : String) (status : ItemStatus) (attempts : Int)
    (lastAttemptAt : Option Int) (lastErrorCode : Option SyncErrorCode) (nextRetryAt : Int) :
    StoresItems p
      (SyncItemDao.updateStatus id (statusName status) attempts lastAttemptAt
        (lastErrorCode.map SyncErrorCode.name) nextRetryAt t)
      (Android.SyncItemDao.updateStatus id status attempts lastAttemptAt lastErrorCode nextRetryAt
        u) := by
  refine h.updateWhere (fun raw row hrow => by rw [hrow.id]) fun raw row hrow => ?_
  exact { hrow with
    status := rfl
    attempts := rfl
    lastAttemptAt := rfl
    lastErrorCode := rfl
    nextRetryAt := rfl }

/-- One statement does the same to both tables, and answers alike. -/
theorem run (hp : p.Faithful) (hup : KeepsCapitals uppercase) (h : StoresItems p t u)
    (orderBy : SyncItemEntity.RowOrder) (statement : Statement) :
    ∃ orderBy' : Android.SyncItemEntity.RowOrder,
      StoresItems p (SyncItemDao.run p uppercase orderBy t statement).1
          (decodedRun orderBy' u statement).1 ∧
        TableAnswer.Rel (Holds p) (SyncItemDao.run p uppercase orderBy t statement).2
          (decodedRun orderBy' u statement).2 := by
  have hid : ∀ id : String, ∀ raw row, Holds p raw row → (raw.id == id) = (row.id == id) :=
    fun id raw row hrow => by rw [hrow.id]
  have hstatus : ∀ status, ∀ raw row, Holds p raw row →
      (raw.status == statusName status) = (row.status == status) :=
    fun status raw row hrow => hrow.status_beq status
  have hfound (statuses : List ItemStatus) : ∃ orderBy' : Android.SyncItemEntity.RowOrder,
      List.Forall₂ (Holds p) (SyncItemDao.findByStatuses orderBy (statuses.map statusName) t)
        (orderBy'.sort (u.rows.filter fun r => statuses.contains r.status)) :=
    exists_ordered orderBy
      (List.Forall₂.filter h fun raw row hrow => hrow.status_contains statuses)
  -- what does not sort, whatever the order
  have hany : Android.SyncItemEntity.RowOrder := .stable _
  cases statement with
  | insert item =>
    exact ⟨hany, inserted_related h (KeyedTable.Stores.insert Function.injective_id key_eq h
      (holds_toEntity hp hup item))⟩
  | insertBatch items =>
    have hitems : List.Forall₂ (Holds p) (items.map (SyncItemDao.entityOf p uppercase))
        (items.map fun item => item.decoded.entity) := by
      rw [List.forall₂_map_left_iff, List.forall₂_map_right_iff, List.forall₂_same]
      exact fun item _ => holds_toEntity hp hup item
    exact ⟨hany,
      inserted_related h (KeyedTable.Stores.insertAll Function.injective_id key_eq h hitems)⟩
  | deleteById id =>
    refine ⟨hany, h.deleteWhere (hid id), ?_⟩
    simp only [SyncItemDao.run, decodedRun, Android.SyncItemDao.deleteById,
      h.countWhere_eq (hid id)]
    exact .number _
  | clear => exact ⟨hany, .empty, .done⟩
  | count =>
    refine ⟨hany, h, ?_⟩
    simp only [SyncItemDao.run, decodedRun, Android.SyncItemDao.count, List.Forall₂.length_eq h]
    exact .number _
  | countByStatus status =>
    refine ⟨hany, h, ?_⟩
    simp only [SyncItemDao.run, decodedRun, h.countWhere_eq (hstatus status)]
    exact .number _
  | findByStatuses statuses =>
    obtain ⟨orderBy', hrows⟩ := hfound statuses
    exact ⟨orderBy', h, .rows hrows⟩
  | findByStatusesLimit statuses limit =>
    obtain ⟨orderBy', hrows⟩ := hfound statuses
    exact ⟨orderBy', h, .rows (limited hrows limit)⟩
  | claimPending now limit =>
    obtain ⟨orderBy', hselected⟩ := h.exists_selectClaimable orderBy now limit
    exact ⟨orderBy', h.claimPending hselected, .rows hselected⟩
  | nextRetryDeadline =>
    refine ⟨hany, h, ?_⟩
    have heq := h.minWhere_eq (f := fun r => r.nextRetryAt) (g := fun r => r.nextRetryAt)
      (fun raw row hrow => congrArg₂ (· && ·) (hrow.status_beq .PENDING)
        (congrArg (fun n : Int => decide (0 < n)) hrow.nextRetryAt))
      (fun raw row hrow => hrow.nextRetryAt)
    simp only [SyncItemDao.run, decodedRun, Android.SyncItemDao.nextRetryDeadline, heq]
    exact .time _
  | nextPendingDeadline =>
    refine ⟨hany, h, ?_⟩
    have heq := h.minWhere_eq (f := fun r => r.nextRetryAt) (g := fun r => r.nextRetryAt)
      (hstatus .PENDING) (fun raw row hrow => hrow.nextRetryAt)
    simp only [SyncItemDao.run, decodedRun, Android.SyncItemDao.nextPendingDeadline, heq]
    exact .time _
  | observeAll =>
    obtain ⟨orderBy', hrows⟩ := exists_ordered orderBy h
    exact ⟨orderBy', h, .rows hrows⟩
  | findById id =>
    exact ⟨hany, h, .row (KeyedTable.Stores.find? Function.injective_id key_eq h id)⟩
  | updateStatus id status attempts lastAttemptAt lastErrorCode nextRetryAt =>
    refine ⟨hany, h.updateStatus id status attempts lastAttemptAt lastErrorCode nextRetryAt, ?_⟩
    simp only [SyncItemDao.run, decodedRun, h.countWhere_eq (hid id)]
    exact .number _
  | resetInFlight =>
    refine ⟨hany, h.withStatusWhere (hstatus .IN_FLIGHT) .PENDING, ?_⟩
    simp only [SyncItemDao.run, decodedRun, h.countWhere_eq (hstatus .IN_FLIGHT)]
    exact .number _

end StoresItems

/-- Whatever statements run one after the other on an empty database, and whatever each does
with rows that are equal in its order: the same statements on the rows of `SyncItems`, with
orders of the rows, leave rows that the texts hold and answer alike, and JS is given each row
of an answer with the values it has there. -/
theorem columns_refine_rows (hp : p.Faithful) (hup : KeepsCapitals uppercase)
    (statements : List (SyncItemEntity.RowOrder × Statement)) :
    ∃ decoded : List (Android.SyncItemEntity.RowOrder × Statement),
      decoded.map Prod.snd = statements.map Prod.snd ∧
      StoresItems p (SyncItemDao.runAll p uppercase .empty statements).1
        (decodedRunAll .empty decoded).1 ∧
      List.Forall₂
        (TableAnswer.Rel fun entity row => Holds p entity row ∧
          Shows (SyncQueueStorage.toSyncItem p uppercase entity) row)
        (SyncItemDao.runAll p uppercase .empty statements).2 (decodedRunAll .empty decoded).2 := by
  have hstep (t : SyncItems) (u : Android.SyncItems) (s : SyncItemEntity.RowOrder × Statement)
      (h : StoresItems p t u) : ∃ s' : Android.SyncItemEntity.RowOrder × Statement, s.2 = s'.2 ∧
        StoresItems p (SyncItemDao.run p uppercase s.1 t s.2).1 (decodedRun s'.1 u s'.2).1 ∧
        TableAnswer.Rel (Holds p) (SyncItemDao.run p uppercase s.1 t s.2).2
          (decodedRun s'.1 u s'.2).2 := by
    obtain ⟨orderBy', hrun⟩ := h.run hp hup s.1 s.2
    exact ⟨(orderBy', s.2), rfl, hrun⟩
  obtain ⟨decoded, hsame, hstores, hanswers⟩ :=
    exists_runStatements_related hstep .empty statements
  refine ⟨decoded, (hsame.map_eq fun _ _ h => h).symm, hstores,
    hanswers.imp fun a b hab => hab.mono fun entity row h => ⟨h, ?_⟩⟩
  exact h.toSyncItem hup

section Sample

def toUpper (s : String) : String := String.ofList (s.toList.map Char.toUpper)

theorem keepsCapitals_toUpper : KeepsCapitals toUpper := by
  intro s hs
  have hmap : s.toList.map Char.toUpper = s.toList := by
    conv_rhs => rw [← List.map_id s.toList]
    refine List.map_congr_left fun c hc => ?_
    have hupper := List.all_eq_true.mp hs c hc
    change decide ('A'.val ≤ c.val ∧ c.val ≤ 'Z'.val) = true at hupper
    rw [decide_eq_true_eq] at hupper
    have hlower : ¬ (c.val ≥ 'a'.val ∧ c.val ≤ 'z'.val) := by
      simp only [UInt32.le_iff_toNat_le, ge_iff_le] at hupper ⊢
      have hz : 'Z'.val.toNat = 90 := rfl
      have ha : 'a'.val.toNat = 97 := rfl
      omega
    exact dif_neg hlower
  rw [toUpper, hmap, String.ofList_toList]

def samplePatch (id : String) : NewItem :=
  ⟨⟨.PATCH, "https://a.test/b", some tenantHeaders, none, none, some .LOW, some ⟨[], .nil⟩⟩, id,
    5⟩

instance : DecidableRel SyncItemEntity.DispatchedBefore := fun a b => by
  unfold SyncItemEntity.DispatchedBefore
  infer_instance

instance : Std.Total SyncItemEntity.DispatchedBefore :=
  ⟨fun a b => by unfold SyncItemEntity.DispatchedBefore; omega⟩

instance : IsTrans SyncItemEntity SyncItemEntity.DispatchedBefore :=
  ⟨fun a b c hab hbc => by unfold SyncItemEntity.DispatchedBefore at *; omega⟩

/-- A retry, and a claim before and after its deadline. The two rows are equal in their order,
and the database has the later one first. -/
def retryStatements : List (SyncItemEntity.RowOrder × Statement) :=
  [Statement.insertBatch [samplePatch "01", samplePatch "02"], .insert (samplePatch "01"),
    .claimPending 5 1, .updateStatus "02" .PENDING 1 (some 5) (some .SERVER_ERROR) 9,
    .claimPending 8 10, .claimPending 9 10].map fun statement => (.reversed _, statement)

theorem columns_refine_rows_of_retry :
    ∃ entity row,
      (SyncItemDao.runAll samplePlatform toUpper .empty retryStatements).2 =
        [.done, .thrown, .rows [SyncItemDao.entityOf samplePlatform toUpper (samplePatch "02")],
          .number 1, .rows [SyncItemDao.entityOf samplePlatform toUpper (samplePatch "01")],
          .rows [entity]] ∧
      entity.headers = some tenantJson ∧ entity.metadata = none ∧ row.id = "02" ∧
      row.attempts = 1 ∧ Shows (SyncQueueStorage.toSyncItem samplePlatform toUpper entity) row := by
  obtain ⟨entity, hentity, hheaders, hmetadata, hid, hattempts⟩ : ∃ entity,
      (SyncItemDao.runAll samplePlatform toUpper .empty retryStatements).2 =
        [.done, .thrown, .rows [SyncItemDao.entityOf samplePlatform toUpper (samplePatch "02")],
          .number 1, .rows [SyncItemDao.entityOf samplePlatform toUpper (samplePatch "01")],
          .rows [entity]] ∧
      entity.headers = some tenantJson ∧ entity.metadata = none ∧ entity.id = "02" ∧
      entity.attempts = 1 := ⟨_, rfl, rfl, rfl, rfl, rfl⟩
  obtain ⟨decoded, -, -, hanswers⟩ := columns_refine_rows samplePlatform_faithful
    keepsCapitals_toUpper retryStatements
  rw [hentity] at hanswers
  simp only [List.forall₂_cons_left_iff] at hanswers
  obtain ⟨_, _, -, ⟨_, _, -, ⟨_, _, -, ⟨_, _, -, ⟨_, _, -, ⟨_, _, hlast, -⟩, -⟩, -⟩, -⟩, -⟩, -⟩ :=
    hanswers
  cases hlast with
  | rows hclaimed =>
    obtain ⟨row, -, ⟨hholds, hshows⟩, -⟩ := List.forall₂_cons_left_iff.mp hclaimed
    exact ⟨entity, row, hentity, hheaders, hmetadata, hholds.id.symm.trans hid,
      hholds.attempts.symm.trans hattempts, hshows⟩

end Sample

end SyncProvider.Android.Raw
