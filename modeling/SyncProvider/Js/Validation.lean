import SyncProvider.Js.Value
import Mathlib.Data.List.Forall2

/-!
# JS: the checks of an input

`collectIssuesWithCode` inspects whatever it is given and lists every violation. A
value that it found wrong is recorded for the method, the priority and the content
type only. The message of a thrown error may hold the URL, the public reason does not.

Results:
1. `collectSyncItemIssues_eq` : the issues of two inputs of one class.
2. `enqueueBatch_eq` : what a batch does, by its issues.
3. `issues_hide_payload` : batches that differ in their payload.
-/

namespace SyncProvider.Js

variable {ν : Type}

/-! ## The errors -/

/-- A public issue. An absent property is `none`. -/
structure ValidationIssue (ν : Type) where
  field : JsString
  reason : JsString
  value : Option (JsValue ν) := none
  itemIndex : Option ℕ := none

structure SyncError (ν : Type) where
  code : SyncErrorCode
  message : JsString
  validationErrors : Option (List (ValidationIssue ν)) := none

/-- The internal issue. -/
structure CollectedIssue (ν : Type) where
  code : SyncErrorCode
  field : JsString
  reason : JsString
  value : JsValue ν := .undefined
  message : Option JsString := none

def toPublicIssue (issue : CollectedIssue ν) : ValidationIssue ν where
  field := issue.field
  reason := issue.reason
  value := if issue.value.isUndefined then none else some issue.value

/-! ## The checks -/

def ALLOWED_METHODS : List JsString :=
  [HttpMethod.GET, .POST, .PUT, .PATCH, .DELETE].map fun method => utf16 method.name

def ALLOWED_PRIORITIES : List JsString :=
  [SyncPriority.HIGH, .NORMAL, .LOW].map fun priority => utf16 priority.name

/-- `[...allowed].join(', ')`. -/
def joined (allowed : List JsString) : JsString := (utf16 ", ").intercalate allowed

/-- What `\s` matches. -/
def isWhitespace (u : UInt16) : Bool :=
  (0x09 ≤ u && u ≤ 0x0D) || u == 0x20 || u == 0xA0 || u == 0x1680 ||
    (0x2000 ≤ u && u ≤ 0x200A) || u == 0x2028 || u == 0x2029 || u == 0x202F || u == 0x205F ||
    u == 0x3000 || u == 0xFEFF

/-- A small letter of the pattern under the flag `i`, or another character of it. -/
def matchesChar (c : Char) (u : UInt16) : Bool :=
  u.toNat == c.toNat || (c.isLower && u.toNat + 32 == c.toNat)

/-- What is left of a text that starts with these characters. -/
def dropLiteral : List Char → JsString → Option JsString
  | [], s => some s
  | c :: cs, u :: s => if matchesChar c u then dropLiteral cs s else none
  | _ :: _, [] => none

/-- `:\/\/[^\s]+$` -/
def absoluteRest (s : JsString) : Bool :=
  match dropLiteral "://".toList s with
  | some rest => rest != [] && rest.all fun u => !isWhitespace u
  | none => false

/-- `/^https?:\/\/[^\s]+$/i` -/
def absoluteUrl (s : JsString) : Bool :=
  match dropLiteral "http".toList s with
  | some rest => absoluteRest rest || (dropLiteral "s".toList rest).any absoluteRest
  | none => false

/-- `method` and `priority`: one of a list of names. -/
def nameIssue (field : String) (allowed : List JsString) (value : JsValue ν) :
    CollectedIssue ν where
  code := .INVALID_PAYLOAD
  field := utf16 field
  reason := utf16 ("SyncItemInput." ++ field ++ " must be one of ") ++ joined allowed ++ utf16 "."
  value := value

def methodIssues (method : JsValue ν) : List (CollectedIssue ν) :=
  match method with
  | .string s =>
    if ALLOWED_METHODS.contains s then [] else [nameIssue "method" ALLOWED_METHODS method]
  | _ => [nameIssue "method" ALLOWED_METHODS method]

def urlIssues (url : JsValue ν) : List (CollectedIssue ν) :=
  match url with
  | .string s =>
    if s.length = 0 then
      [{ code := .INVALID_URL, field := utf16 "url",
         reason := utf16 "SyncItemInput.url must be a non-empty string." }]
    else if absoluteUrl s then []
    else
      [{ code := .INVALID_URL, field := utf16 "url",
         reason := utf16 "SyncItemInput.url must be an absolute http(s) URL.",
         message := some (utf16 "SyncItemInput.url must be an absolute http(s) URL (got: \"" ++
           s ++ utf16 "\").") }]
  | _ =>
    [{ code := .INVALID_URL, field := utf16 "url",
       reason := utf16 "SyncItemInput.url must be a non-empty string." }]

def bodyIssues (body : JsValue ν) : List (CollectedIssue ν) :=
  if !body.isUndefined && body.typeOf != .string then
    [{ code := .INVALID_PAYLOAD, field := utf16 "body",
       reason := utf16 ("SyncItemInput.body must be a string when supplied. " ++
         "Stringify objects on the JS side first.") }]
  else []

def contentTypeIssues (contentType : JsValue ν) : List (CollectedIssue ν) :=
  if !contentType.isUndefined && contentType.typeOf != .string then
    [{ code := .INVALID_PAYLOAD, field := utf16 "contentType",
       reason := utf16 "SyncItemInput.contentType must be a string when supplied.",
       value := contentType }]
  else []

/-- `ALLOWED_PRIORITIES.has(priority)`, which compares with `===`. -/
def priorityIssues (priority : JsValue ν) : List (CollectedIssue ν) :=
  match priority with
  | .undefined => []
  | .string s =>
    if ALLOWED_PRIORITIES.contains s then []
    else [nameIssue "priority" ALLOWED_PRIORITIES priority]
  | _ => [nameIssue "priority" ALLOWED_PRIORITIES priority]

/-- An entry of a map that must be a string. -/
def entryIssues (field : String) (map : JsValue ν) (key : JsString) : List (CollectedIssue ν) :=
  if (map.get key).typeOf != .string then
    [{ code := .INVALID_PAYLOAD, field := utf16 (field ++ ".") ++ key,
       reason := utf16 ("SyncItemInput." ++ field ++ "[\"") ++ key ++
         utf16 "\"] must be a string." }]
  else []

/-- `headers` and `metadata`. -/
def mapIssues (field : String) (map : JsValue ν) : List (CollectedIssue ν) :=
  if map.isUndefined then []
  else if !map.isObject then
    [{ code := .INVALID_PAYLOAD, field := utf16 field,
       reason := utf16 ("SyncItemInput." ++ field ++
         " must be an object of string→string entries.") }]
  else map.keys.flatMap (entryIssues field map)

def headersIssues (headers : JsValue ν) : List (CollectedIssue ν) := mapIssues "headers" headers

def metadataIssues (metadata : JsValue ν) : List (CollectedIssue ν) :=
  mapIssues "metadata" metadata

def collectIssuesWithCode (input : JsValue ν) : List (CollectedIssue ν) :=
  if !input.isObject then
    [{ code := .INVALID_PAYLOAD, field := utf16 "input",
       reason := utf16 "SyncItemInput must be a non-null object." }]
  else
    methodIssues (input.get (utf16 "method")) ++ urlIssues (input.get (utf16 "url")) ++
      bodyIssues (input.get (utf16 "body")) ++
      contentTypeIssues (input.get (utf16 "contentType")) ++
      priorityIssues (input.get (utf16 "priority")) ++
      headersIssues (input.get (utf16 "headers")) ++
      metadataIssues (input.get (utf16 "metadata"))

def collectSyncItemIssues (input : JsValue ν) : List (ValidationIssue ν) :=
  (collectIssuesWithCode input).map toPublicIssue

def validateSyncItem (input : JsValue ν) : Except (SyncError ν) Unit :=
  match collectIssuesWithCode input with
  | [] => .ok ()
  | first :: rest => .error
    { code := first.code
      message := first.message.getD first.reason
      validationErrors := some ((first :: rest).map toPublicIssue) }

/-! ## The batch -/

/-- What a native call can reject with. -/
inductive Thrown (ν : Type) where
  | syncError (e : SyncError ν)
  /-- Any other `Error`. -/
  | error (message : JsString)
  | other

def wrapNativeError (err : Thrown ν) (fallbackCode : SyncErrorCode) : SyncError ν :=
  match err with
  | .syncError e => e
  | .error (u :: us) => { code := fallbackCode, message := u :: us }
  | _ =>
    { code := fallbackCode
      message := utf16 ("Native call failed with code " ++ fallbackCode.name ++ ".") }

/-- The `enqueueBatch` of the native module, while there is one. -/
abbrev NativeBatch (ν : Type) := Option (JsValue ν → Except (Thrown ν) (List JsString))

/-- `nativeOrThrow` and the native call. -/
def callNative (native : NativeBatch ν) (items : JsValue ν) :
    Except (SyncError ν) (List JsString) :=
  match native with
  | none => .error
    { code := .NATIVE_MODULE_UNAVAILABLE
      message := utf16 ("react-native-sync-provider native module is not available. " ++
        "Make sure the package is installed, autolinked, and the app was " ++
        "rebuilt after install. On web/SSR this is expected.") }
  | some call =>
    match call items with
    | .ok ids => .ok ids
    | .error err => .error (wrapNativeError err .INVALID_PAYLOAD)

/-- The issues of all items, each with the index of its item. -/
def batchIssues (items : List (JsValue ν)) : List (ValidationIssue ν) :=
  items.zipIdx.flatMap fun (item, index) =>
    (collectSyncItemIssues item).map fun issue => { issue with itemIndex := some index }

def batchError (allIssues : List (ValidationIssue ν)) : SyncError ν where
  code := .INVALID_PAYLOAD
  message :=
    let itemCount := (allIssues.map ValidationIssue.itemIndex).dedup.length
    utf16 (s!"enqueueBatch validation failed: {allIssues.length} issue(s) " ++
      s!"across {itemCount} item(s).")
  validationErrors := some allIssues

def enqueueBatch (native : NativeBatch ν) (items : JsValue ν) :
    Except (SyncError ν) (List JsString) :=
  match items with
  | .array elements =>
    let allIssues := batchIssues elements
    if 0 < allIssues.length then .error (batchError allIssues) else callNative native items
  | _ => .error
    { code := .INVALID_PAYLOAD
      message := utf16 "enqueueBatch(items) requires an array of SyncItemInput." }

/-! ## 1. Inputs of one class -/

/-- The two values of `url` differ in their text at most, and pass the same checks. -/
structure SameUrl (url url' : JsValue ν) : Prop where
  typeOf : url.typeOf = url'.typeOf
  empty : ∀ s s', url = .string s → url' = .string s' → (s.length = 0 ↔ s'.length = 0)
  absolute : ∀ s s', url = .string s → url' = .string s' → absoluteUrl s = absoluteUrl s'

/-- The two maps have the same keys, in the same order, with values of the same types. -/
structure SameMap (map map' : JsValue ν) : Prop where
  typeOf : map.typeOf = map'.typeOf
  isObject : map.isObject = map'.isObject
  keys : map.keys = map'.keys
  values : ∀ key ∈ map.keys, (map.get key).typeOf = (map'.get key).typeOf

/-- The two inputs differ in the contents of `url`, `body`, header values and metadata
values at most, and in properties that nothing checks. -/
structure SameClass (input input' : JsValue ν) : Prop where
  isObject : input.isObject = input'.isObject
  method : input.get (utf16 "method") = input'.get (utf16 "method")
  url : SameUrl (input.get (utf16 "url")) (input'.get (utf16 "url"))
  body : (input.get (utf16 "body")).typeOf = (input'.get (utf16 "body")).typeOf
  contentType : input.get (utf16 "contentType") = input'.get (utf16 "contentType")
  priority : input.get (utf16 "priority") = input'.get (utf16 "priority")
  headers : SameMap (input.get (utf16 "headers")) (input'.get (utf16 "headers"))
  metadata : SameMap (input.get (utf16 "metadata")) (input'.get (utf16 "metadata"))

theorem isUndefined_eq_of_typeOf_eq {v v' : JsValue ν} (h : v.typeOf = v'.typeOf) :
    v.isUndefined = v'.isUndefined := by
  rw [Bool.eq_iff_iff, JsValue.isUndefined_iff, JsValue.isUndefined_iff, h]

/-- The message with the URL in it does not reach the public issue. -/
theorem SameUrl.publicIssues {url url' : JsValue ν} (h : SameUrl url url') :
    (urlIssues url).map toPublicIssue = (urlIssues url').map toPublicIssue := by
  obtain ⟨htypeOf, hempty, habsolute⟩ := h
  cases url with
  | string s =>
    cases url' with
    | string s' =>
      have he : (s.length = 0) = (s'.length = 0) := propext (hempty s s' rfl rfl)
      have ha : absoluteUrl s = absoluteUrl s' := habsolute s s' rfl rfl
      simp only [urlIssues, he, ha]
      split
      · rfl
      · split
        · rfl
        · rfl
    | _ => cases htypeOf
  | _ =>
    cases url' with
    | string s' => cases htypeOf
    | _ => rfl

theorem bodyIssues_eq {body body' : JsValue ν} (h : body.typeOf = body'.typeOf) :
    bodyIssues body = bodyIssues body' := by
  unfold bodyIssues
  rw [isUndefined_eq_of_typeOf_eq h, h]

theorem SameMap.issues {map map' : JsValue ν} (field : String) (h : SameMap map map') :
    mapIssues field map = mapIssues field map' := by
  have hentries : map.keys.flatMap (entryIssues field map) =
      map'.keys.flatMap (entryIssues field map') := by
    rw [← h.keys]
    refine List.flatMap_congr fun key hkey => ?_
    unfold entryIssues
    rw [h.values key hkey]
  unfold mapIssues
  rw [isUndefined_eq_of_typeOf_eq h.typeOf, h.isObject, hentries]

/-- The public issues do not depend on the payload. -/
theorem collectSyncItemIssues_eq {input input' : JsValue ν} (h : SameClass input input') :
    collectSyncItemIssues input = collectSyncItemIssues input' := by
  unfold collectSyncItemIssues collectIssuesWithCode headersIssues metadataIssues
  rw [h.isObject]
  split
  · rfl
  · simp only [List.map_append]
    rw [h.method, h.url.publicIssues, bodyIssues_eq h.body, h.contentType, h.priority,
      h.headers.issues, h.metadata.issues]

/-! ## 2. What a batch throws -/

theorem batchIssues_eq {items items' : List (JsValue ν)}
    (h : items.map collectSyncItemIssues = items'.map collectSyncItemIssues) :
    batchIssues items = batchIssues items' := by
  have hmap : ∀ l : List (JsValue ν), batchIssues l =
      (l.map collectSyncItemIssues).zipIdx.flatMap fun (issues, index) =>
        issues.map fun issue => { issue with itemIndex := some index } := by
    intro l
    rw [List.zipIdx_map, List.flatMap_map]
    rfl
  rw [hmap, hmap, h]

/-- With an issue the batch is rejected, without one it goes to the native module. -/
theorem enqueueBatch_eq (native : NativeBatch ν) (elements : List (JsValue ν)) :
    enqueueBatch native (.array elements) =
      if batchIssues elements = [] then callNative native (.array elements)
      else .error (batchError (batchIssues elements)) := by
  by_cases hnil : batchIssues elements = []
  · have hlength : ¬ 0 < (batchIssues elements).length := by simp [hnil]
    rw [if_pos hnil]
    exact if_neg hlength
  · rw [if_neg hnil]
    exact if_pos (List.length_pos_iff.mpr hnil)

/-- What the native call throws lists no issues, unless native code threw it so. -/
theorem callNative_error {native : NativeBatch ν} {items : JsValue ν} {e : SyncError ν}
    (h : callNative native items = .error e) :
    e.validationErrors = none ∨
      ∃ call, native = some call ∧ call items = .error (.syncError e) := by
  cases native with
  | none =>
    cases h
    exact .inl rfl
  | some call =>
    simp only [callNative] at h
    split at h
    · cases h
    · rename_i err hcall
      cases h
      cases err with
      | syncError e => exact .inr ⟨call, rfl, hcall⟩
      | error message => cases message <;> exact .inl rfl
      | other => exact .inl rfl

/-! ## 3. The payload stays out -/

/-- Two batches of one length whose items differ in their payload only: the issues are
the same, item by item. Either both batches are rejected with the same error, or what
either of them throws is no validation error. -/
theorem issues_hide_payload {items items' : List (JsValue ν)}
    (h : List.Forall₂ SameClass items items') :
    items.map collectSyncItemIssues = items'.map collectSyncItemIssues ∧
      ∀ native : NativeBatch ν,
        (∃ e, e.validationErrors.isSome ∧ enqueueBatch native (.array items) = .error e ∧
          enqueueBatch native (.array items') = .error e) ∨
        ∀ v ∈ [JsValue.array items, JsValue.array items'], ∀ e,
          enqueueBatch native v = .error e → e.validationErrors = none ∨
            ∃ call, native = some call ∧ call v = .error (.syncError e) := by
  have hissues : items.map collectSyncItemIssues = items'.map collectSyncItemIssues := by
    induction h with
    | nil => rfl
    | cons hitem _ ih => rw [List.map_cons, List.map_cons, collectSyncItemIssues_eq hitem, ih]
  refine ⟨hissues, fun native => ?_⟩
  have hbatch := batchIssues_eq hissues
  by_cases hnil : batchIssues items = []
  · right
    intro v hv e herror
    have hnil' : batchIssues items' = [] := hbatch ▸ hnil
    rcases List.mem_pair.mp hv with rfl | rfl
    · rw [enqueueBatch_eq, if_pos hnil] at herror
      exact callNative_error herror
    · rw [enqueueBatch_eq, if_pos hnil'] at herror
      exact callNative_error herror
  · left
    refine ⟨batchError (batchIssues items), rfl, ?_, ?_⟩
    · rw [enqueueBatch_eq, if_neg hnil]
    · rw [enqueueBatch_eq, hbatch, if_neg (hbatch ▸ hnil)]

section Sample

/-- A `POST` to a URL without a scheme, with a header that is an object. -/
def leaky (url token : String) : JsValue ℕ :=
  .object [(utf16 "method", .string (utf16 "POST")), (utf16 "url", .string (utf16 url)),
    (utf16 "headers", .object [(utf16 "Authorization",
      .object [(utf16 "token", .string (utf16 token))])])]

theorem issues_hide_tokens :
    (List.map collectSyncItemIssues [leaky "ftp://a.test?token=1" "x", .undefined]) =
      List.map collectSyncItemIssues [leaky "/b" "yz", .undefined] := by
  have hleaky : SameClass (leaky "ftp://a.test?token=1" "x") (leaky "/b" "yz") := by
    refine ⟨rfl, rfl, ⟨rfl, ?_, ?_⟩, rfl, rfl, rfl, ⟨rfl, rfl, rfl, ?_⟩, ⟨rfl, rfl, rfl, ?_⟩⟩
    · rintro s s' hs hs'
      cases hs
      cases hs'
      decide
    · rintro s s' hs hs'
      cases hs
      cases hs'
      decide
    · intro key hkey
      cases List.mem_singleton.mp hkey
      rfl
    · intro key hkey
      cases hkey
  have hundefined : SameClass (.undefined : JsValue ℕ) .undefined :=
    ⟨rfl, rfl, ⟨rfl, fun _ _ h _ => (by cases h), fun _ _ h _ => (by cases h)⟩, rfl, rfl, rfl,
      ⟨rfl, rfl, rfl, fun _ _ => rfl⟩, ⟨rfl, rfl, rfl, fun _ _ => rfl⟩⟩
  exact (issues_hide_payload (.cons hleaky (.cons hundefined .nil))).1

end Sample

end SyncProvider.Js
