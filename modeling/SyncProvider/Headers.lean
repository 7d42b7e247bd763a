import SyncProvider.Android.Dispatch
import SyncProvider.Ios.Dispatch
import SyncProvider.Lib.Fields

/-!
# The header fields of a request

Both dispatchers set the default headers first and the headers of the item over
them, field by field and in whatever order the two maps are walked. On iOS the
content type of the item becomes a field too, unless one of the maps names it.
On Android it becomes the media type of the body, which the HTTP client writes
over the field of that name.

Results:
1. `Android.sentValue_buildRequest`, `Ios.headerValue_buildRequest` : the value
   of each field.
2. `headers_agree_iff` : when the two platforms send the same value.
3. `Ios.headers_order_free_iff` : when the order of the two maps makes no
   difference.
-/

namespace SyncProvider

/-- The value of a header field, in any case. -/
def headerValue (headers : StringMap) (field : String) : Option String :=
  Fields.value String.toLower headers field

/-- The fields after the two passes of the builders. -/
def merged (defaults headers : StringMap) : StringMap :=
  Fields.setAll String.toLower (Fields.setAll String.toLower [] defaults) headers

/-- What the maps say about a field: the item first, then the defaults. -/
def layered (defaults headers : StringMap) (field : String) : Option String :=
  (Fields.lastWrite String.toLower headers field).or
    (Fields.lastWrite String.toLower defaults field)

theorem headerValue_congr (headers : StringMap) {field field' : String}
    (h : field.toLower = field'.toLower) :
    headerValue headers field = headerValue headers field' := by
  simp only [headerValue, Fields.value, h]

theorem headerValue_merged (defaults headers : StringMap) (field : String) :
    headerValue (merged defaults headers) field = layered defaults headers field := by
  rw [headerValue, merged, Fields.value_setAll, Fields.value_setAll, Fields.value_nil,
    Option.or_none]
  rfl

theorem layered_eq_none_iff {defaults headers : StringMap} {field : String} :
    layered defaults headers field = none ↔
      ∀ h ∈ defaults ++ headers, h.1.toLower ≠ field.toLower := by
  rw [layered, Option.or_eq_none_iff, Fields.lastWrite_eq_none_iff, Fields.lastWrite_eq_none_iff,
    List.forall_mem_append, and_comm]

/-- Whether a field is named does not depend on the order. -/
theorem layered_eq_none_iff_of_perm {defaults defaults' headers headers' : StringMap}
    (hd : defaults'.Perm defaults) (hh : headers'.Perm headers) (field : String) :
    layered defaults' headers' field = none ↔ layered defaults headers field = none := by
  rw [layered_eq_none_iff, layered_eq_none_iff]
  exact forall_congr' fun h => by rw [(hd.append hh).mem_iff]

theorem nodup_merged (defaults headers : StringMap) :
    ((merged defaults headers).map fun f => f.1.toLower).Nodup := by
  have hnone : (([] : StringMap).map fun f => f.1.toLower).Nodup := List.nodup_nil
  exact Fields.nodup_setAll (Fields.nodup_setAll hnone defaults) headers

/-! ## 1. The value of each field -/

/-- No field is sent twice, and each has the value of the item, or else of the
defaults. -/
theorem Android.headerValue_buildRequest {accepts : HttpRequest → Bool} {entity : SyncItemEntity}
    {defaultHeaders : Option StringMap} {request : HttpRequest}
    (h : buildRequest accepts entity defaultHeaders = some request) :
    (request.headers.map fun f => f.1.toLower).Nodup ∧
      ∀ field, headerValue request.headers field =
        layered (defaultHeaders.getD []) (entity.headers.getD []) field := by
  unfold buildRequest at h
  dsimp only at h
  rw [Option.ite_none_right_eq_some] at h
  obtain ⟨-, h⟩ := h
  cases h
  exact ⟨nodup_merged _ _, headerValue_merged _ _⟩

/-- The media type of the body, when the client can read it as one. `parses`
stands for `toMediaTypeOrNull`. -/
def Android.HttpRequest.mediaType (parses : String → Bool) (request : HttpRequest) :
    Option String :=
  (request.body.map (·.1)).filter parses

/-- The value the client sends for a field that is not its own to set, such as
`Content-Length`: it writes the media type of the body over `Content-Type`. -/
def Android.sentValue (parses : String → Bool) (request : HttpRequest) (field : String) :
    Option String :=
  if field.toLower = "Content-Type".toLower then
    (request.mediaType parses).or (headerValue request.headers field)
  else headerValue request.headers field

/-- The media type an item is sent with: its content type, or JSON for any body. -/
def Android.bodyType (parses : String → Bool) (entity : SyncItemEntity) : Option String :=
  if entity.method = .GET ∨ entity.method = .DELETE then none
  else (some (entity.contentType.getD "application/json")).filter parses

theorem Android.bodyType_eq_some {parses : String → Bool} {entity : SyncItemEntity}
    {mediaType : String} (h : bodyType parses entity = some mediaType) :
    entity.contentType.getD "application/json" = mediaType := by
  unfold bodyType at h
  split at h
  · cases h
  · exact Option.some.inj (Option.filter_eq_some_iff.mp h).1

theorem Android.mediaType_buildRequest {accepts : HttpRequest → Bool} {entity : SyncItemEntity}
    {defaultHeaders : Option StringMap} {request : HttpRequest}
    (h : buildRequest accepts entity defaultHeaders = some request) (parses : String → Bool) :
    request.mediaType parses = bodyType parses entity := by
  unfold buildRequest at h
  dsimp only at h
  rw [Option.ite_none_right_eq_some] at h
  obtain ⟨-, h⟩ := h
  cases h
  unfold HttpRequest.mediaType bodyType
  cases entity.method <;> rfl

/-- Each field has the value of the item, or else of the defaults, and the
content type is that of the body first. -/
theorem Android.sentValue_buildRequest {accepts : HttpRequest → Bool} {entity : SyncItemEntity}
    {defaultHeaders : Option StringMap} {request : HttpRequest}
    (h : buildRequest accepts entity defaultHeaders = some request) (parses : String → Bool)
    (field : String) :
    sentValue parses request field =
      if field.toLower = "Content-Type".toLower then
        (bodyType parses entity).or
          (layered (defaultHeaders.getD []) (entity.headers.getD []) field)
      else layered (defaultHeaders.getD []) (entity.headers.getD []) field := by
  rw [sentValue, mediaType_buildRequest h, (headerValue_buildRequest h).2]

theorem Ios.hasHeader_eq (headers : StringMap) (field : String) :
    hasHeader headers field = (headerValue headers field).isSome := by
  rw [Bool.eq_iff_iff, ← not_iff_not, Bool.not_eq_true, Bool.not_eq_true,
    Option.isSome_eq_false_iff, Option.isNone_iff_eq_none, headerValue, Fields.value_eq_none_iff]
  simp [hasHeader]

/-- The content type becomes a field when the maps do not name it. -/
theorem Ios.headers_buildRequest (config : DispatcherConfig) (item : StoredSyncItem) :
    (buildRequest config item).headers = merged config.defaultHeaders (item.headers.getD []) ∧
        (item.contentType = none ∨
          (layered config.defaultHeaders (item.headers.getD []) "Content-Type").isSome = true) ∨
      ∃ contentType, item.contentType = some contentType ∧
        layered config.defaultHeaders (item.headers.getD []) "Content-Type" = none ∧
        (buildRequest config item).headers =
          Fields.set String.toLower (merged config.defaultHeaders (item.headers.getD []))
            ("Content-Type", contentType) := by
  have hnamed : hasHeader (merged config.defaultHeaders (item.headers.getD [])) "Content-Type" =
      (layered config.defaultHeaders (item.headers.getD []) "Content-Type").isSome := by
    rw [hasHeader_eq, headerValue_merged]
  unfold buildRequest
  dsimp only
  cases hct : item.contentType with
  | none => exact .inl ⟨rfl, .inl rfl⟩
  | some contentType =>
    cases hsome : (layered config.defaultHeaders (item.headers.getD []) "Content-Type").isSome with
    | true => exact .inl ⟨if_pos (hnamed.trans hsome), .inr rfl⟩
    | false =>
      refine .inr ⟨contentType, rfl, by simpa using hsome, if_neg ?_⟩
      rw [Bool.not_eq_true]
      exact hnamed.trans hsome

/-- What the content type of the item adds to a field. -/
def Ios.contentTypeOf (item : Ios.StoredSyncItem) (field : String) : Option String :=
  if field.toLower = "Content-Type".toLower then item.contentType else none

/-- No field is sent twice, and each has the value of the item, or else of the
defaults, or else of the content type. -/
theorem Ios.headerValue_buildRequest (config : DispatcherConfig) (item : StoredSyncItem) :
    ((buildRequest config item).headers.map fun f => f.1.toLower).Nodup ∧
      ∀ field, headerValue (buildRequest config item).headers field =
        (layered config.defaultHeaders (item.headers.getD []) field).or
          (contentTypeOf item field) := by
  have hmerged := headerValue_merged config.defaultHeaders (item.headers.getD [])
  have hnodup := nodup_merged config.defaultHeaders (item.headers.getD [])
  have hsame {field : String} (hfield : field.toLower = "Content-Type".toLower) :
      layered config.defaultHeaders (item.headers.getD []) field =
        layered config.defaultHeaders (item.headers.getD []) "Content-Type" := by
    rw [← hmerged, ← hmerged, headerValue_congr _ hfield]
  rcases headers_buildRequest config item with ⟨heq, hct⟩ | ⟨contentType, hct, hnone, heq⟩
  · refine ⟨heq ▸ hnodup, fun field => ?_⟩
    rw [heq, hmerged, contentTypeOf]
    by_cases hfield : field.toLower = "Content-Type".toLower
    · rw [if_pos hfield, hsame hfield]
      rcases hct with hct | hsome
      · rw [hct, Option.or_none]
      · rw [Option.or_of_isSome hsome]
    · rw [if_neg hfield, Option.or_none]
  · refine ⟨heq ▸ Fields.nodup_set hnodup _, fun field => ?_⟩
    rw [heq, headerValue, Fields.value_set, contentTypeOf]
    by_cases hfield : field.toLower = "Content-Type".toLower
    · rw [if_pos hfield, if_pos hfield.symm, hsame hfield, hnone, hct, Option.none_or]
    · rw [if_neg hfield, if_neg (Ne.symm hfield), Option.or_none]
      exact hmerged field

/-! ## 2. The two platforms -/

/-- The two rows have the headers and the content type of one input. -/
structure SameHeaders (entity : Android.SyncItemEntity) (item : Ios.StoredSyncItem) : Prop where
  headers : entity.headers.getD [] = item.headers.getD []
  contentType : entity.contentType = item.contentType

/-- One input under one set of default headers: the platforms send the same
value for every field but the content type. They do for the content type exactly
when what the maps name is the media type of the Android body, or they name none
and the item does; and for an Android request without one when the maps name a
content type, or the item has none. -/
theorem headers_agree_iff {accepts : Android.HttpRequest → Bool} {entity : Android.SyncItemEntity}
    {defaultHeaders : Option StringMap} {request : Android.HttpRequest}
    {config : Ios.DispatcherConfig} {item : Ios.StoredSyncItem}
    (hbuild : Android.buildRequest accepts entity defaultHeaders = some request)
    (hdefaults : defaultHeaders.getD [] = config.defaultHeaders)
    (hsame : SameHeaders entity item) (parses : String → Bool) (field : String) :
    Android.sentValue parses request field =
        headerValue (Ios.buildRequest config item).headers field ↔
      field.toLower ≠ "Content-Type".toLower ∨
      (∃ mediaType, Android.bodyType parses entity = some mediaType ∧
        (layered config.defaultHeaders (item.headers.getD []) field = some mediaType ∨
          layered config.defaultHeaders (item.headers.getD []) field = none ∧
            item.contentType ≠ none)) ∨
      Android.bodyType parses entity = none ∧
        (layered config.defaultHeaders (item.headers.getD []) field ≠ none ∨
          item.contentType = none) := by
  rw [Android.sentValue_buildRequest hbuild, (Ios.headerValue_buildRequest config item).2,
    hdefaults, hsame.headers, Ios.contentTypeOf]
  by_cases hfield : field.toLower = "Content-Type".toLower
  · rw [if_pos hfield, if_pos hfield]
    cases htype : Android.bodyType parses entity with
    | none =>
      -- no media type: the maps, and on iOS then the content type
      cases layered config.defaultHeaders (item.headers.getD []) field with
      | none => simp [hfield, eq_comm]
      | some value => simp
    | some mediaType =>
      have hct : item.contentType.getD "application/json" = mediaType :=
        hsame.contentType ▸ Android.bodyType_eq_some htype
      cases layered config.defaultHeaders (item.headers.getD []) field with
      | none =>
        cases hitem : item.contentType with
        | none => simp [hfield]
        | some contentType =>
          rw [hitem] at hct
          simp [← hct]
      | some value => simp [hfield, eq_comm]
  · simp [hfield]

section Sample

/-- Default headers with a content type of their own. -/
def typedDefaults : StringMap := [("Content-Type", "application/json")]

def typedEntity : Android.SyncItemEntity where
  id := "A"
  method := .POST
  url := "https://api.example.com/orders"
  headers := none
  body := some "{}"
  contentType := some "text/csv"
  priority := .NORMAL
  priorityWeight := 1
  createdAt := 1000
  attempts := 0
  lastAttemptAt := none
  lastErrorCode := none
  status := .PENDING
  metadata := none
  nextRetryAt := 0

def typedRequest : Android.HttpRequest where
  url := "https://api.example.com/orders"
  method := .POST
  headers := typedDefaults
  body := some ("text/csv", "{}")

def typedConfig : Ios.DispatcherConfig :=
  { Ios.sampleConfig with defaultHeaders := typedDefaults }

def typedStored : Ios.StoredSyncItem :=
  { Ios.sampleStored "A" 0 with contentType := some "text/csv" }

/-- Android sends the content type of the item, iOS the one of the defaults. Without
the defaults both send the one of the item. -/
theorem headers_differ_on_conflict :
    Android.sentValue (fun _ => true) typedRequest "Content-Type" ≠
        headerValue (Ios.buildRequest typedConfig typedStored).headers "Content-Type" ∧
      Android.sentValue (fun _ => true) { typedRequest with headers := [] } "Content-Type" =
        headerValue (Ios.buildRequest Ios.sampleConfig typedStored).headers "Content-Type" := by
  have hbuild : Android.buildRequest (fun _ => true) typedEntity (some typedDefaults) =
      some typedRequest := rfl
  have hbuild' : Android.buildRequest (fun _ => true) typedEntity none =
      some { typedRequest with headers := [] } := rfl
  have hsame : SameHeaders typedEntity typedStored := ⟨rfl, rfl⟩
  have htype : Android.bodyType (fun _ => true) typedEntity = some "text/csv" := rfl
  constructor
  · rw [Ne, headers_agree_iff hbuild rfl hsame]
    rintro (hfield | ⟨mediaType, hmediaType, hvalue | ⟨hvalue, -⟩⟩ | ⟨hnone, -⟩)
    · exact hfield rfl
    · rw [Option.some.inj (htype.symm.trans hmediaType).symm] at hvalue
      revert hvalue
      decide +kernel
    · revert hvalue
      decide +kernel
    · rw [htype] at hnone
      cases hnone
  · refine (headers_agree_iff hbuild' rfl hsame _ _).mpr (.inr (.inl ⟨"text/csv", htype, .inr ?_⟩))
    decide +kernel

end Sample

/-! ## 3. The order of the maps -/

/-- A request of an item does not depend on the order of the default headers and
of the headers of the item exactly when no map gives one field two values,
default headers that the item overrides apart. -/
theorem Ios.headers_order_free_iff (config : DispatcherConfig) (item : StoredSyncItem) :
    (∀ (defaults : StringMap) (headers : Option StringMap), defaults.Perm config.defaultHeaders →
      (headers.getD []).Perm (item.headers.getD []) → ∀ field,
        headerValue (buildRequest { config with defaultHeaders := defaults }
            { item with headers := headers }).headers field =
          headerValue (buildRequest config item).headers field) ↔
      ∀ field, Fields.Agree String.toLower (item.headers.getD []) field ∧
        ((∀ h ∈ item.headers.getD [], h.1.toLower ≠ field.toLower) →
          Fields.Agree String.toLower config.defaultHeaders field) := by
  simp only [← Fields.value_layers_perm_iff, (headerValue_buildRequest _ _).2]
  constructor
  · intro h field defaults headers hd hh
    have hvalue : (layered defaults headers field).or (contentTypeOf item field) =
        (layered config.defaultHeaders (item.headers.getD []) field).or
          (contentTypeOf item field) := h defaults (some headers) hd hh field
    have hnone := layered_eq_none_iff_of_perm hd hh field
    change layered defaults headers field =
      layered config.defaultHeaders (item.headers.getD []) field
    -- the content type comes in where both orders leave the field alone
    cases hv : layered config.defaultHeaders (item.headers.getD []) field with
    | none => exact hnone.mpr hv
    | some v =>
      cases hv' : layered defaults headers field with
      | none =>
        rw [hnone.mp hv'] at hv
        cases hv
      | some v' => rwa [hv, hv', Option.some_or, Option.some_or] at hvalue
  · intro h defaults headers hd hh field
    change ((layered defaults (headers.getD []) field).or (contentTypeOf item field)) = _
    rw [show layered defaults (headers.getD []) field =
      layered config.defaultHeaders (item.headers.getD []) field from h field _ _ hd hh]

end SyncProvider
