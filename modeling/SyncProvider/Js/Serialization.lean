import SyncProvider.Js.Validation
import SyncProvider.Lib.Json

/-!
# JS: an item as text

`serializeSyncItem` is `JSON.stringify`. `deserializeSyncItem` parses, checks the
fields, and fills in the two that older texts do not have. A property that is undefined
is not in the text, and a negative zero comes back as zero, which it equals.

Properties come in the order objects have them. No value here has a `toJSON` method.

Results:
1. `parse_itemText` : an object of plain values comes back.
2. `deserializeSyncItem_eq` : what an item is read back as.
3. `serialize_round_trip` : the round trip, and the texts without the two fields.
-/

namespace SyncProvider.Js

variable {ν : Type}

/-! ## `JSON` -/

/-- Numbers and their texts. -/
structure JsNumbers (ν : Type) where
  /-- `Number::toString`. -/
  toText : ν → JsString
  /-- The value of a number token. -/
  ofText : JsString → ν
  isFinite : ν → Bool
  /-- `===`, for which the two zeros are equal. -/
  strictEq : ν → ν → Prop
  zero : ν

/-- A finite number is printed as a token that reads as the number. -/
structure JsNumbers.Lawful (N : JsNumbers ν) : Prop where
  isNumber_toText : ∀ x, N.isFinite x = true → Json.isNumber (N.toText x) = true
  isFinite_ofText_toText : ∀ x, N.isFinite x = true → N.isFinite (N.ofText (N.toText x)) = true
  strictEq_ofText_toText : ∀ x, N.isFinite x = true → N.strictEq (N.ofText (N.toText x)) x
  isFinite_zero : N.isFinite N.zero = true

namespace JSON

variable (N : JsNumbers ν)

/-- The numbers that have a text. -/
abbrev Finite (N : JsNumbers ν) := { x : ν // N.isFinite x = true }

mutual

/-- What is serialized of a value, if anything. The outer option is none when it
throws. -/
def toJson : JsValue ν → Option (Option (Json (Finite N)))
  | .undefined | .symbol | .function => some none
  | .null => some (some .null)
  | .boolean b => some (some (.bool b))
  | .number x => some (some (if h : N.isFinite x = true then .number ⟨x, h⟩ else .null))
  | .bigint _ => none
  | .string s => some (some (.string s))
  | .object entries => (toMembers entries).map fun members => some (.object members)
  | .array elements => (toElements elements).map fun elements => some (.array elements)

def toMembers : List (JsString × JsValue ν) → Option (List (JsString × Json (Finite N)))
  | [] => some []
  | (key, v) :: entries =>
    (toJson v).bind fun j => (toMembers entries).map fun members =>
      match j with
      | some j => (key, j) :: members
      | none => members

def toElements : List (JsValue ν) → Option (List (Json (Finite N)))
  | [] => some []
  | v :: vs =>
    (toJson v).bind fun j => (toElements vs).map fun elements => j.getD .null :: elements

end

/-- `JSON.stringify`, with the results of `toJson`. -/
def stringify (v : JsValue ν) : Option (Option JsString) :=
  (toJson N v).map fun j => j.map (Json.print fun x => N.toText x.1)

mutual

/-- The value of a parsed text. A key that is repeated has its last value. -/
def ofJson : Json ν → JsValue ν
  | .null => .null
  | .bool b => .boolean b
  | .number x => .number x
  | .string s => .string s
  | .array elements => .array (ofElements elements)
  | .object members => .object (copied (ofMembers members))

def ofElements : List (Json ν) → List (JsValue ν)
  | [] => []
  | e :: es => ofJson e :: ofElements es

def ofMembers : List (JsString × Json ν) → List (JsString × JsValue ν)
  | [] => []
  | (key, e) :: es => (key, ofJson e) :: ofMembers es

end

/-- `JSON.parse`, none when it throws. -/
def parse (s : JsString) : Option (JsValue ν) := (Json.parse N.ofText s).map ofJson

end JSON

/-! ## The two functions -/

def syncError (message : String) : SyncError ν where
  code := .INVALID_PAYLOAD
  message := utf16 message

def serializeSyncItem (N : JsNumbers ν) (item : JsValue ν) :
    Except (SyncError ν) (Option JsString) :=
  match JSON.stringify N item with
  | some text => .ok text
  | none => .error (syncError "Failed to serialize SyncItem to JSON.")

/-- `typeof v !== 'string' || v.length === 0` -/
def isMissingText : JsValue ν → Bool
  | .string s => s.length == 0
  | _ => true

/-- `v ?? fallback` -/
def nullish (v fallback : JsValue ν) : JsValue ν :=
  match v with
  | .undefined | .null => fallback
  | v => v

def deserializeSyncItem (N : JsNumbers ν) (json : JsString) : Except (SyncError ν) (JsValue ν) :=
  match JSON.parse N json with
  | none => .error (syncError "Failed to parse SyncItem JSON.")
  | some candidate =>
    let attempts := candidate.get (utf16 "attempts")
    let nextRetryAt := candidate.get (utf16 "nextRetryAt")
    if !candidate.isObject then
      .error (syncError "Parsed SyncItem must be a non-null object.")
    else if isMissingText (candidate.get (utf16 "id")) then
      .error (syncError "Deserialized SyncItem is missing a non-empty `id`.")
    else if (candidate.get (utf16 "createdAt")).typeOf != .number then
      .error (syncError "Deserialized SyncItem is missing a numeric `createdAt`.")
    else if !attempts.isUndefined && attempts.typeOf != .number then
      .error (syncError
        "Deserialized SyncItem `attempts` must be a number when present.")
    else if !nextRetryAt.isUndefined && nextRetryAt.typeOf != .number then
      .error (syncError
        "Deserialized SyncItem `nextRetryAt` must be a number when present.")
    else
      match validateSyncItem candidate with
      | .error e => .error e
      | .ok () =>
        let item := copied candidate.entries
        let item := setProperty item (utf16 "attempts") (nullish attempts (.number N.zero))
        .ok (.object (setProperty item (utf16 "nextRetryAt")
          (nullish nextRetryAt (.number N.zero))))

/-! ## 1. Objects of plain values -/

variable {N : JsNumbers ν}

/-- A value, after its text is read. -/
def reread (N : JsNumbers ν) : JsValue ν → JsValue ν
  | .number x => .number (N.ofText (N.toText x))
  | v => v

/-- The values of an item. -/
inductive Plain (N : JsNumbers ν) : JsValue ν → Prop where
  | undefined : Plain N .undefined
  | string (s : JsString) : Plain N (.string s)
  | number {x : ν} (hfinite : N.isFinite x = true) : Plain N (.number x)
  /-- A map of strings to strings. -/
  | map {entries : List (JsString × JsValue ν)} (hordered : KeysOrdered entries)
    (hstrings : ∀ entry ∈ entries, ∃ s, entry.2 = .string s) : Plain N (.object entries)

/-- The properties that are in the text. -/
def kept (N : JsNumbers ν) (entries : List (JsString × JsValue ν)) :
    List (JsString × JsValue ν) :=
  (entries.filter fun entry => !entry.2.isUndefined).map fun entry => (entry.1, reread N entry.2)

/-- The number of a text. -/
def reparsed (N : JsNumbers ν) (x : JSON.Finite N) : ν := N.ofText (N.toText x.1)

namespace JSON

theorem toMembers_strings {entries : List (JsString × JsValue ν)}
    (h : ∀ entry ∈ entries, ∃ s, entry.2 = .string s) :
    ∃ members, toMembers N entries = some members ∧
      ofMembers (Json.mapMembers (reparsed N) members) = entries := by
  induction entries with
  | nil => exact ⟨[], by rw [toMembers], rfl⟩
  | cons entry entries ih =>
    obtain ⟨key, v⟩ := entry
    obtain ⟨members, hmembers, hback⟩ :=
      ih fun entry hentry => h entry (List.mem_cons_of_mem _ hentry)
    obtain ⟨s, hs⟩ := h (key, v) List.mem_cons_self
    simp only at hs
    subst hs
    refine ⟨(key, .string s) :: members, ?_, ?_⟩
    · rw [toMembers, toJson, Option.bind_some, hmembers]
      rfl
    · rw [Json.mapMembers, ofMembers, hback]
      rfl

theorem toJson_plain {v : JsValue ν} (h : Plain N v) (hdefined : v.isUndefined = false) :
    ∃ j, toJson N v = some (some j) ∧ ofJson (Json.map (reparsed N) j) = reread N v := by
  cases h with
  | undefined => cases hdefined
  | string s => exact ⟨.string s, by rw [toJson], rfl⟩
  | @number x hfinite => exact ⟨.number ⟨x, hfinite⟩, by rw [toJson, dif_pos hfinite], rfl⟩
  | @map entries hordered hstrings =>
    obtain ⟨members, hmembers, hback⟩ := toMembers_strings (N := N) hstrings
    refine ⟨.object members, by rw [toJson, hmembers, Option.map_some], ?_⟩
    rw [Json.map, ofJson, hback, copied_eq hordered]
    rfl

theorem toMembers_plain {entries : List (JsString × JsValue ν)}
    (h : ∀ entry ∈ entries, Plain N entry.2) :
    ∃ members, toMembers N entries = some members ∧
      ofMembers (Json.mapMembers (reparsed N) members) = kept N entries := by
  induction entries with
  | nil => exact ⟨[], by rw [toMembers], rfl⟩
  | cons entry entries ih =>
    obtain ⟨key, v⟩ := entry
    obtain ⟨members, hmembers, hback⟩ :=
      ih fun entry hentry => h entry (List.mem_cons_of_mem _ hentry)
    have hplain : Plain N v := h (key, v) List.mem_cons_self
    cases hundefined : v.isUndefined with
    | true =>
      have hnone : toJson N v = some none := by
        cases v <;> first | rfl | cases hundefined
      refine ⟨members, ?_, ?_⟩
      · rw [toMembers, hnone, Option.bind_some, hmembers]
        rfl
      · simp only [kept, List.filter_cons, hundefined, Bool.not_true, Bool.false_eq_true, if_false]
        exact hback
    | false =>
      obtain ⟨j, hj, hjback⟩ := toJson_plain hplain hundefined
      refine ⟨(key, j) :: members, ?_, ?_⟩
      · rw [toMembers, hj, Option.bind_some, hmembers]
        rfl
      · rw [Json.mapMembers, ofMembers, hjback, hback]
        simp only [kept, List.filter_cons, hundefined, Bool.not_false, if_true, List.map_cons]

end JSON

theorem KeysOrdered.filter {entries : List (JsString × JsValue ν)} (h : KeysOrdered entries)
    (q : JsString × JsValue ν → Bool) : KeysOrdered (entries.filter q) :=
  ⟨h.nodup.sublist (List.filter_sublist.map _), h.pairwise.sublist List.filter_sublist⟩

theorem KeysOrdered.kept {entries : List (JsString × JsValue ν)} (h : KeysOrdered entries) :
    KeysOrdered (kept N entries) := by
  have hfilter := h.filter fun entry => !entry.2.isUndefined
  refine ⟨?_, ?_⟩
  · rw [Js.kept, List.map_map]
    exact hfilter.nodup
  · rw [Js.kept, List.pairwise_map]
    exact hfilter.pairwise

/-- The text of an object with these members. -/
def itemText (N : JsNumbers ν) (members : List (JsString × Json (JSON.Finite N))) : JsString :=
  Json.print (fun x => N.toText x.1) (.object members)

/-- An object of plain values, in the order objects have, comes back. -/
theorem parse_itemText (hN : N.Lawful) {entries : List (JsString × JsValue ν)}
    {members : List (JsString × Json (JSON.Finite N))} (hordered : KeysOrdered entries)
    (hback : JSON.ofMembers (Json.mapMembers (reparsed N) members) = kept N entries) :
    JSON.parse N (itemText N members) = some (.object (kept N entries)) := by
  have hnumber : ∀ x : JSON.Finite N, Json.isNumber (N.toText x.1) = true :=
    fun x => hN.isNumber_toText x.1 x.2
  have hprint := Json.parse_print N.ofText hnumber (.object members)
  rw [JSON.parse, itemText, hprint, Option.map_some, Json.map, JSON.ofJson]
  change some (JsValue.object (copied
    (JSON.ofMembers (Json.mapMembers (reparsed N) members)))) = _
  rw [hback, copied_eq hordered.kept]

/-! ## 2. The fields of an item -/

theorem property_kept {entries : List (JsString × JsValue ν)}
    (hnodup : (entries.map Prod.fst).Nodup) (key : JsString) :
    property (kept N entries) key = reread N (property entries key) := by
  induction entries with
  | nil => rfl
  | cons entry entries ih =>
    obtain ⟨key', v⟩ := entry
    rw [List.map_cons, List.nodup_cons] at hnodup
    have hrest := ih hnodup.2
    rw [property_cons]
    cases hundefined : v.isUndefined with
    | true =>
      have hv : v = .undefined := by cases v <;> first | rfl | cases hundefined
      have hkept : kept N ((key', v) :: entries) = kept N entries := by
        simp only [kept, List.filter_cons, hundefined, Bool.not_true, Bool.false_eq_true, if_false]
      rw [hkept, hrest]
      by_cases hkey : key' = key
      · rw [if_pos hkey, property_of_notMem (hkey ▸ hnodup.1), hv]
      · rw [if_neg hkey]
    | false =>
      have hkept : kept N ((key', v) :: entries) = (key', reread N v) :: kept N entries := by
        simp only [kept, List.filter_cons, hundefined, Bool.not_false, if_true, List.map_cons]
      rw [hkept, property_cons, hrest]
      by_cases hkey : key' = key
      · rw [if_pos hkey, if_pos hkey]
      · rw [if_neg hkey, if_neg hkey]

/-- The fields that `validateSyncItem` reads. -/
def checkedFields : List JsString :=
  ["method", "url", "body", "contentType", "priority", "headers", "metadata"].map utf16

def fieldNames : List JsString :=
  ["id", "createdAt", "attempts", "nextRetryAt"].map utf16 ++ checkedFields

theorem validateSyncItem_congr {entries entries' : List (JsString × JsValue ν)}
    (h : ∀ key ∈ checkedFields, property entries key = property entries' key) :
    validateSyncItem (.object entries) = validateSyncItem (.object entries') := by
  have hget : ∀ key ∈ checkedFields,
      (JsValue.object entries).get key = (JsValue.object entries').get key := h
  simp only [checkedFields, List.map_cons, List.map_nil, List.forall_mem_cons] at hget
  obtain ⟨hmethod, hurl, hbody, hcontentType, hpriority, hheaders, hmetadata, -⟩ := hget
  have hissues : collectIssuesWithCode (.object entries) =
      collectIssuesWithCode (.object entries') := by
    unfold collectIssuesWithCode
    rw [hmethod, hurl, hbody, hcontentType, hpriority, hheaders, hmetadata]
    rfl
  rw [validateSyncItem, validateSyncItem, hissues]

/-- A text, or nothing. -/
def IsText (v : JsValue ν) : Prop := v = .undefined ∨ ∃ s, v = .string s

theorem isText_of_method {v : JsValue ν} (h : methodIssues v = []) : IsText v := by
  cases v with
  | string s => exact .inr ⟨s, rfl⟩
  | _ => cases h

theorem isText_of_url {v : JsValue ν} (h : urlIssues v = []) : IsText v := by
  cases v with
  | string s => exact .inr ⟨s, rfl⟩
  | _ => cases h

theorem isText_of_body {v : JsValue ν} (h : bodyIssues v = []) : IsText v := by
  cases v with
  | undefined => exact .inl rfl
  | string s => exact .inr ⟨s, rfl⟩
  | _ => cases h

theorem isText_of_contentType {v : JsValue ν} (h : contentTypeIssues v = []) : IsText v := by
  cases v with
  | undefined => exact .inl rfl
  | string s => exact .inr ⟨s, rfl⟩
  | _ => cases h

theorem isText_of_priority {v : JsValue ν} (h : priorityIssues v = []) : IsText v := by
  cases v with
  | undefined => exact .inl rfl
  | string s => exact .inr ⟨s, rfl⟩
  | _ => cases h

/-- In an item that is accepted these fields are texts. -/
theorem isText_of_accepted {item : JsValue ν} (h : validateSyncItem item = .ok ()) :
    ∀ key ∈ ["method", "url", "body", "contentType", "priority"].map utf16,
      IsText (item.get key) := by
  have hissues : collectIssuesWithCode item = [] := by
    unfold validateSyncItem at h
    split at h
    · assumption
    · cases h
  unfold collectIssuesWithCode at hissues
  split at hissues
  · cases hissues
  · simp only [List.append_eq_nil_iff] at hissues
    obtain ⟨⟨⟨⟨⟨⟨hmethod, hurl⟩, hbody⟩, hcontentType⟩, hpriority⟩, -⟩, -⟩ := hissues
    simp only [List.map_cons, List.map_nil, List.forall_mem_cons]
    exact ⟨isText_of_method hmethod, isText_of_url hurl, isText_of_body hbody,
      isText_of_contentType hcontentType, isText_of_priority hpriority, fun _ h => by cases h⟩

/-- A map of strings to strings, or nothing. -/
def IsStringMap (v : JsValue ν) : Prop :=
  v = .undefined ∨ ∃ entries, v = .object entries ∧ KeysOrdered entries ∧
    ∀ entry ∈ entries, ∃ s, entry.2 = .string s

/-- A finite number, or nothing. -/
def IsCount (N : JsNumbers ν) (v : JsValue ν) : Prop :=
  v = .undefined ∨ ∃ x, N.isFinite x = true ∧ v = .number x

/-- An item, or one of an older text. -/
structure ItemShape (N : JsNumbers ν) (entries : List (JsString × JsValue ν)) : Prop where
  ordered : KeysOrdered entries
  known : ∀ entry ∈ entries, entry.1 ∈ fieldNames
  id : ∃ s, s ≠ [] ∧ property entries (utf16 "id") = .string s
  createdAt : ∃ x, N.isFinite x = true ∧ property entries (utf16 "createdAt") = .number x
  attempts : IsCount N (property entries (utf16 "attempts"))
  nextRetryAt : IsCount N (property entries (utf16 "nextRetryAt"))
  headers : IsStringMap (property entries (utf16 "headers"))
  metadata : IsStringMap (property entries (utf16 "metadata"))
  accepted : validateSyncItem (.object entries) = .ok ()

theorem IsText.plain {v : JsValue ν} (h : IsText v) : Plain N v := by
  rcases h with rfl | ⟨s, rfl⟩
  · exact .undefined
  · exact .string s

theorem IsCount.plain {v : JsValue ν} (h : IsCount N v) : Plain N v := by
  rcases h with rfl | ⟨x, hfinite, rfl⟩
  · exact .undefined
  · exact .number hfinite

theorem IsStringMap.plain {v : JsValue ν} (h : IsStringMap v) : Plain N v := by
  rcases h with rfl | ⟨entries, rfl, hordered, hstrings⟩
  · exact .undefined
  · exact .map hordered hstrings

theorem IsText.reread_eq {v : JsValue ν} (h : IsText v) : reread N v = v := by
  rcases h with rfl | ⟨s, rfl⟩ <;> rfl

theorem IsStringMap.reread_eq {v : JsValue ν} (h : IsStringMap v) : reread N v = v := by
  rcases h with rfl | ⟨entries, rfl, -, -⟩ <;> rfl

theorem IsCount.reread (hN : N.Lawful) {v : JsValue ν} (h : IsCount N v) :
    IsCount N (reread N v) := by
  rcases h with rfl | ⟨x, hfinite, rfl⟩
  · exact .inl rfl
  · exact .inr ⟨_, hN.isFinite_ofText_toText x hfinite, rfl⟩

namespace ItemShape

variable {entries : List (JsString × JsValue ν)}

theorem plain_property (h : ItemShape N entries) {key : JsString} (hkey : key ∈ fieldNames) :
    Plain N (property entries key) := by
  have htexts := isText_of_accepted h.accepted
  simp only [List.map_cons, List.map_nil, List.forall_mem_cons] at htexts
  obtain ⟨hmethod, hurl, hbody, hcontentType, hpriority, -⟩ := htexts
  obtain ⟨s, -, hid⟩ := h.id
  obtain ⟨x, hfinite, hcreatedAt⟩ := h.createdAt
  have hall : ∀ key ∈ fieldNames, Plain N (property entries key) := by
    simp only [fieldNames, checkedFields, List.map_cons, List.map_nil, List.cons_append,
      List.nil_append, List.forall_mem_cons]
    exact ⟨hid ▸ .string s, hcreatedAt ▸ .number hfinite, h.attempts.plain, h.nextRetryAt.plain,
      hmethod.plain, hurl.plain, hbody.plain, hcontentType.plain, hpriority.plain,
      h.headers.plain, h.metadata.plain, fun _ h => by cases h⟩
  exact hall key hkey

theorem plain (h : ItemShape N entries) : ∀ entry ∈ entries, Plain N entry.2 := by
  intro entry hentry
  rw [← property_of_mem h.ordered.nodup hentry]
  exact h.plain_property (h.known entry hentry)

/-- Reading a text changes numbers only, and those are not checked. -/
theorem property_kept_checked (h : ItemShape N entries) {key : JsString}
    (hkey : key ∈ checkedFields) : property (kept N entries) key = property entries key := by
  have htexts := isText_of_accepted h.accepted
  simp only [List.map_cons, List.map_nil, List.forall_mem_cons] at htexts
  obtain ⟨hmethod, hurl, hbody, hcontentType, hpriority, -⟩ := htexts
  have hall : ∀ key ∈ checkedFields, reread N (property entries key) = property entries key := by
    simp only [checkedFields, List.map_cons, List.map_nil, List.forall_mem_cons]
    exact ⟨hmethod.reread_eq, hurl.reread_eq, hbody.reread_eq, hcontentType.reread_eq,
      hpriority.reread_eq, h.headers.reread_eq, h.metadata.reread_eq, fun _ h => by cases h⟩
  rw [property_kept h.ordered.nodup, hall key hkey]

theorem accepted_kept (h : ItemShape N entries) :
    validateSyncItem (.object (kept N entries)) = .ok () := by
  rw [← h.accepted]
  exact validateSyncItem_congr fun key hkey => h.property_kept_checked hkey

end ItemShape

/-- What `deserializeSyncItem` returns for these properties. -/
def filled (N : JsNumbers ν) (entries : List (JsString × JsValue ν)) :
    List (JsString × JsValue ν) :=
  setProperty
    (setProperty entries (utf16 "attempts")
      (nullish (property entries (utf16 "attempts")) (.number N.zero)))
    (utf16 "nextRetryAt") (nullish (property entries (utf16 "nextRetryAt")) (.number N.zero))

theorem IsCount.accepted {v : JsValue ν} (h : IsCount N v) :
    (!v.isUndefined && v.typeOf != .number) = false := by
  rcases h with rfl | ⟨x, -, rfl⟩ <;> rfl

theorem deserializeSyncItem_eq (hN : N.Lawful) {entries : List (JsString × JsValue ν)}
    (h : ItemShape N entries) {text : JsString}
    (hparse : JSON.parse N text = some (.object (kept N entries))) :
    deserializeSyncItem N text = .ok (.object (filled N (kept N entries))) := by
  have hget : ∀ key, (JsValue.object (kept N entries)).get key =
      reread N (property entries key) := property_kept h.ordered.nodup
  have hid : isMissingText ((JsValue.object (kept N entries)).get (utf16 "id")) = false := by
    obtain ⟨s, hs, hid⟩ := h.id
    rw [hget, hid]
    cases s with
    | nil => exact absurd rfl hs
    | cons u s => rfl
  have hcreatedAt : (((JsValue.object (kept N entries)).get (utf16 "createdAt")).typeOf !=
      .number) = false := by
    obtain ⟨x, -, hx⟩ := h.createdAt
    rw [hget, hx]
    rfl
  have hattempts := (h.attempts.reread hN).accepted
  have hnextRetryAt := (h.nextRetryAt.reread hN).accepted
  rw [← hget] at hattempts hnextRetryAt
  have hobject : (JsValue.object (kept N entries)).isObject = true := rfl
  unfold deserializeSyncItem
  rw [hparse]
  simp only [hobject, hid, hcreatedAt, hattempts, hnextRetryAt, h.accepted_kept, Bool.not_true,
    Bool.false_eq_true, if_false]
  have hcopied : copied (JsValue.object (kept N entries)).entries = kept N entries :=
    copied_eq h.ordered.kept
  rw [hcopied]
  rfl

theorem property_filled (entries : List (JsString × JsValue ν)) (key : JsString) :
    property (filled N entries) key =
      if key = utf16 "attempts" ∨ key = utf16 "nextRetryAt" then
        nullish (property entries key) (.number N.zero)
      else property entries key := by
  unfold filled
  rw [property_setProperty, property_setProperty]
  by_cases hnext : key = utf16 "nextRetryAt"
  · simp [hnext]
  · by_cases hattempts : key = utf16 "attempts"
    · have hne : ¬ utf16 "attempts" = utf16 "nextRetryAt" := by decide
      simp [hattempts, hne]
    · simp [hnext, hattempts]

theorem keys_setProperty (entries : List (JsString × JsValue ν)) (key : JsString)
    (v : JsValue ν) : ∀ entry ∈ setProperty entries key v,
      entry.1 = key ∨ entry.1 ∈ entries.map Prod.fst := by
  intro entry hentry
  unfold setProperty at hentry
  split at hentry
  · obtain ⟨entry', hentry', rfl⟩ := List.mem_map.mp hentry
    split
    · exact .inl rfl
    · exact .inr (List.mem_map_of_mem hentry')
  · split at hentry
    · rcases List.mem_append.mp hentry with hentry | hentry
      · exact .inr (List.mem_map_of_mem hentry)
      · exact .inl (congrArg Prod.fst (List.mem_singleton.mp hentry))
    · rcases List.mem_append.mp hentry with hentry | hentry
      · exact .inr (List.mem_map_of_mem ((List.takeWhile_prefix _).subset hentry))
      · rcases List.mem_cons.mp hentry with rfl | hentry
        · exact .inl rfl
        · exact .inr (List.mem_map_of_mem ((List.dropWhile_suffix _).subset hentry))

theorem IsCount.nullish (hN : N.Lawful) {v : JsValue ν} (h : IsCount N v) :
    IsCount N (nullish v (.number N.zero)) := by
  rcases h with rfl | ⟨x, hfinite, rfl⟩
  · exact .inr ⟨N.zero, hN.isFinite_zero, rfl⟩
  · exact .inr ⟨x, hfinite, rfl⟩

theorem known_kept {entries : List (JsString × JsValue ν)}
    (h : ∀ entry ∈ entries, entry.1 ∈ fieldNames) :
    ∀ entry ∈ kept N entries, entry.1 ∈ fieldNames := by
  intro entry hentry
  obtain ⟨entry', hentry', rfl⟩ := List.mem_map.mp hentry
  exact h entry' (List.mem_of_mem_filter hentry')

/-- What is read back is an item. -/
theorem ItemShape.filled_kept (hN : N.Lawful) {entries : List (JsString × JsValue ν)}
    (h : ItemShape N entries) : ItemShape N (filled N (kept N entries)) := by
  have hkept : ∀ key, property (kept N entries) key = reread N (property entries key) :=
    property_kept h.ordered.nodup
  have hother : ∀ key, key ≠ utf16 "attempts" → key ≠ utf16 "nextRetryAt" →
      property (filled N (kept N entries)) key = reread N (property entries key) := by
    intro key hattempts hnext
    rw [property_filled, if_neg (by simp [hattempts, hnext]), hkept]
  constructor
  · exact (h.ordered.kept.setProperty (by decide) _).setProperty (by decide) _
  · intro entry hentry
    rcases keys_setProperty _ _ _ entry hentry with hkey | hkey
    · rw [hkey]
      decide
    · obtain ⟨entry', hentry', hkey⟩ := List.mem_map.mp hkey
      rw [← hkey]
      rcases keys_setProperty _ _ _ entry' hentry' with hkey' | hkey'
      · rw [hkey']
        decide
      · obtain ⟨entry'', hentry'', hkey''⟩ := List.mem_map.mp hkey'
        rw [← hkey'']
        exact known_kept h.known entry'' hentry''
  · obtain ⟨s, hs, hid⟩ := h.id
    exact ⟨s, hs, by rw [hother _ (by decide) (by decide), hid]; rfl⟩
  · obtain ⟨x, hfinite, hx⟩ := h.createdAt
    refine ⟨_, hN.isFinite_ofText_toText x hfinite, ?_⟩
    rw [hother _ (by decide) (by decide), hx]
    rfl
  · rw [property_filled, if_pos (.inl rfl), hkept]
    exact (h.attempts.reread hN).nullish hN
  · rw [property_filled, if_pos (.inr rfl), hkept]
    exact (h.nextRetryAt.reread hN).nullish hN
  · rw [hother _ (by decide) (by decide), h.headers.reread_eq]
    exact h.headers
  · rw [hother _ (by decide) (by decide), h.metadata.reread_eq]
    exact h.metadata
  · rw [← h.accepted_kept]
    refine validateSyncItem_congr fun key hkey => ?_
    have hne : ∀ key ∈ checkedFields, key ≠ utf16 "attempts" ∧ key ≠ utf16 "nextRetryAt" := by
      decide
    rw [hother key (hne key hkey).1 (hne key hkey).2, hkept]

/-! ## 3. The round trip -/

/-- Without the members of these keys. -/
def without {α : Type} (removed : List JsString) (l : List (JsString × α)) :
    List (JsString × α) :=
  l.filter fun entry => !removed.contains entry.1

/-- The same value, where numbers are compared with `===`. -/
def SameValue (N : JsNumbers ν) (v w : JsValue ν) : Prop :=
  v = w ∨ ∃ x y, v = .number x ∧ w = .number y ∧ N.strictEq x y

theorem Plain.sameValue_reread (hN : N.Lawful) {v : JsValue ν} (h : Plain N v) :
    SameValue N (reread N v) v := by
  cases h with
  | undefined => exact .inl rfl
  | string s => exact .inl rfl
  | @number x hfinite => exact .inr ⟨_, x, rfl, rfl, hN.strictEq_ofText_toText x hfinite⟩
  | map => exact .inl rfl

theorem property_without (removed : List JsString) (entries : List (JsString × JsValue ν))
    (key : JsString) :
    property (without removed entries) key =
      if key ∈ removed then .undefined else property entries key := by
  induction entries with
  | nil => simp [without]
  | cons entry entries ih =>
    rw [property_cons]
    unfold without at ih ⊢
    by_cases hentry : entry.1 ∈ removed
    · have hdrop : (!removed.contains entry.1) = false := by simp [hentry]
      simp only [List.filter_cons, hdrop, Bool.false_eq_true, if_false, ih]
      by_cases hkey : entry.1 = key
      · rw [if_pos (hkey ▸ hentry), if_pos (hkey ▸ hentry)]
      · rw [if_neg hkey]
    · have hkeep : (!removed.contains entry.1) = true := by simp [hentry]
      simp only [List.filter_cons, hkeep, if_true, property_cons, ih]
      by_cases hkey : entry.1 = key
      · rw [if_pos hkey, if_pos hkey, if_neg (hkey ▸ hentry)]
      · rw [if_neg hkey, if_neg hkey]

theorem ofMembers_without (removed : List JsString)
    (members : List (JsString × Json (JSON.Finite N))) :
    JSON.ofMembers (Json.mapMembers (reparsed N) (without removed members)) =
      without removed (JSON.ofMembers (Json.mapMembers (reparsed N) members)) := by
  induction members with
  | nil => rfl
  | cons member members ih =>
    obtain ⟨key, j⟩ := member
    unfold without at ih ⊢
    rw [Json.mapMembers, JSON.ofMembers, List.filter_cons, List.filter_cons]
    split
    · rw [Json.mapMembers, JSON.ofMembers, ih]
    · exact ih

theorem kept_without (removed : List JsString) (entries : List (JsString × JsValue ν)) :
    kept N (without removed entries) = without removed (kept N entries) := by
  unfold kept without
  rw [List.filter_map, List.filter_filter, List.filter_filter]
  congr 1
  refine List.filter_congr fun entry _ => ?_
  exact Bool.and_comm _ _

/-- An item stays one without the fields that older texts do not have. -/
theorem ItemShape.without {entries : List (JsString × JsValue ν)} (h : ItemShape N entries)
    {removed : List JsString}
    (hremoved : ∀ key ∈ removed, key = utf16 "attempts" ∨ key = utf16 "nextRetryAt") :
    ItemShape N (without removed entries) := by
  have hother : ∀ key, key ≠ utf16 "attempts" → key ≠ utf16 "nextRetryAt" →
      property (Js.without removed entries) key = property entries key := by
    intro key hattempts hnext
    have hnot : key ∉ removed := by
      intro hmem
      rcases hremoved key hmem with hkey | hkey
      · exact hattempts hkey
      · exact hnext hkey
    rw [property_without, if_neg hnot]
  have hcount : ∀ key, IsCount N (property entries key) →
      IsCount N (property (Js.without removed entries) key) := by
    intro key hkey
    rw [property_without]
    split
    · exact .inl rfl
    · exact hkey
  constructor
  · exact h.ordered.filter _
  · intro entry hentry
    exact h.known entry (List.mem_of_mem_filter hentry)
  · rw [hother _ (by decide) (by decide)]
    exact h.id
  · rw [hother _ (by decide) (by decide)]
    exact h.createdAt
  · exact hcount _ h.attempts
  · exact hcount _ h.nextRetryAt
  · rw [hother _ (by decide) (by decide)]
    exact h.headers
  · rw [hother _ (by decide) (by decide)]
    exact h.metadata
  · rw [← h.accepted]
    have hne : ∀ key ∈ checkedFields, key ≠ utf16 "attempts" ∧ key ≠ utf16 "nextRetryAt" := by
      decide
    exact validateSyncItem_congr fun key hkey => hother key (hne key hkey).1 (hne key hkey).2

theorem sameValue_filled (hN : N.Lawful) {entries : List (JsString × JsValue ν)}
    (h : ItemShape N entries) {key : JsString} (hkey : property entries key ≠ .undefined ∨
      key ≠ utf16 "attempts" ∧ key ≠ utf16 "nextRetryAt") :
    SameValue N (property (filled N (kept N entries)) key) (property entries key) := by
  have hplain : Plain N (property entries key) := by
    by_cases hmem : key ∈ entries.map Prod.fst
    · obtain ⟨entry, hentry, rfl⟩ := List.mem_map.mp hmem
      exact h.plain_property (h.known entry hentry)
    · rw [property_of_notMem hmem]
      exact .undefined
  have hsame := hplain.sameValue_reread hN
  rw [property_filled, property_kept h.ordered.nodup]
  split
  · rename_i hcount
    have hdefined : property entries key ≠ .undefined := by
      rcases hkey with hdefined | hne
      · exact hdefined
      · rcases hcount with hcount | hcount
        · exact absurd hcount hne.1
        · exact absurd hcount hne.2
    have hnullish : nullish (reread N (property entries key)) (.number N.zero) =
        reread N (property entries key) := by
      generalize property entries key = v at hplain hdefined ⊢
      cases hplain with
      | undefined => exact absurd rfl hdefined
      | _ => rfl
    rw [hnullish]
    exact hsame
  · exact hsame

theorem serializeSyncItem_eq {entries : List (JsString × JsValue ν)}
    (h : ItemShape N entries) :
    ∃ members, serializeSyncItem N (.object entries) = .ok (some (itemText N members)) ∧
      JSON.ofMembers (Json.mapMembers (reparsed N) members) = kept N entries := by
  obtain ⟨members, hmembers, hback⟩ := JSON.toMembers_plain h.plain
  refine ⟨members, ?_, hback⟩
  have hstringify : JSON.stringify N (.object entries) = some (some (itemText N members)) := by
    rw [JSON.stringify, JSON.toJson, hmembers]
    rfl
  rw [serializeSyncItem, hstringify]

/-- For every item that `validateSyncItem` accepts, with an id, finite numbers and maps
of strings: its text is read back as the item. The text without `attempts` or
`nextRetryAt` is read back with zero in their place. And what is read back has a text
that is read back as the same item. -/
theorem serialize_round_trip (hN : N.Lawful) {entries : List (JsString × JsValue ν)}
    (h : ItemShape N entries) (hattempts : property entries (utf16 "attempts") ≠ .undefined)
    (hnextRetryAt : property entries (utf16 "nextRetryAt") ≠ .undefined) :
    ∃ members, serializeSyncItem N (.object entries) = .ok (some (itemText N members)) ∧
      (∃ item, deserializeSyncItem N (itemText N members) = .ok item ∧
        ∀ key, SameValue N (item.get key) (property entries key)) ∧
      ∀ removed, (∀ key ∈ removed, key = utf16 "attempts" ∨ key = utf16 "nextRetryAt") →
        ∃ item, deserializeSyncItem N (itemText N (without removed members)) = .ok item ∧
          (∀ key, if key ∈ removed then item.get key = .number N.zero
            else SameValue N (item.get key) (property entries key)) ∧
          ∃ text item', serializeSyncItem N item = .ok (some text) ∧
            deserializeSyncItem N text = .ok item' ∧
            ∀ key, SameValue N (item'.get key) (item.get key) := by
  obtain ⟨members, hserialize, hback⟩ := serializeSyncItem_eq h
  have hdefined : ∀ key, property entries key ≠ .undefined ∨
      key ≠ utf16 "attempts" ∧ key ≠ utf16 "nextRetryAt" := by
    intro key
    by_cases hkey : key = utf16 "attempts"
    · exact .inl (hkey ▸ hattempts)
    · by_cases hkey' : key = utf16 "nextRetryAt"
      · exact .inl (hkey' ▸ hnextRetryAt)
      · exact .inr ⟨hkey, hkey'⟩
  refine ⟨members, hserialize, ?_, fun removed hremoved => ?_⟩
  · exact ⟨_, deserializeSyncItem_eq hN h (parse_itemText hN h.ordered hback),
      fun key => sameValue_filled hN h (hdefined key)⟩
  · have hwithout := h.without hremoved
    have hback' : JSON.ofMembers (Json.mapMembers (reparsed N) (without removed members)) =
        kept N (without removed entries) := by
      rw [ofMembers_without, hback, kept_without]
    have hfilled := hwithout.filled_kept hN
    obtain ⟨members', hserialize', hback''⟩ := serializeSyncItem_eq hfilled
    refine ⟨_, deserializeSyncItem_eq hN hwithout (parse_itemText hN hwithout.ordered hback'), ?_,
      itemText N members', _, hserialize',
      deserializeSyncItem_eq hN hfilled (parse_itemText hN hfilled.ordered hback''), ?_⟩
    · intro key
      have hproperty := property_without removed entries key
      split
      · rename_i hmem
        rw [if_pos hmem] at hproperty
        change property (filled N (kept N (without removed entries))) key = _
        rw [property_filled, if_pos (hremoved key hmem), property_kept hwithout.ordered.nodup,
          hproperty]
        rfl
      · rename_i hmem
        rw [if_neg hmem] at hproperty
        rw [← hproperty]
        exact sameValue_filled hN hwithout (hproperty.symm ▸ hdefined key)
    · intro key
      refine sameValue_filled hN hfilled ?_
      by_cases hkey : key = utf16 "attempts" ∨ key = utf16 "nextRetryAt"
      · left
        rw [property_filled, if_pos hkey]
        intro hundefined
        unfold nullish at hundefined
        split at hundefined
        · cases hundefined
        · cases hundefined
        · rename_i hnot _
          exact hnot hundefined
      · exact .inr (not_or.mp hkey)

section Sample

/-- The numbers of one digit. -/
def digitNumbers : JsNumbers (Fin 10) where
  toText x := [(0x30 + x.val).toUInt16]
  ofText s := Fin.ofNat 10 ((s.headD 0x30).toNat - 0x30)
  isFinite _ := true
  strictEq x y := x = y
  zero := 0

theorem digitNumbers_lawful : digitNumbers.Lawful := by
  constructor
  · intro x _
    revert x
    decide
  · intro x _
    rfl
  · have hall : ∀ x : Fin 10, digitNumbers.ofText (digitNumbers.toText x) = x := by decide
    exact fun x _ => hall x
  · rfl

def unusualHeaders : List (JsString × JsValue (Fin 10)) :=
  [(utf16 "1", .string (utf16 "é\n")), (utf16 "__proto__", .string [0xD83D, 0x22, 0xDE00])]

/-- A header named `__proto__`, lone surrogates, and an undefined field. -/
def unusualItem : List (JsString × JsValue (Fin 10)) :=
  [(utf16 "id", .string (utf16 "A")), (utf16 "method", .string (utf16 "POST")),
    (utf16 "url", .string (utf16 "https://a.test/b")), (utf16 "headers", .object unusualHeaders),
    (utf16 "body", .undefined), (utf16 "createdAt", .number 7), (utf16 "attempts", .number 2),
    (utf16 "nextRetryAt", .number 0)]

theorem unusualItem_shape : ItemShape digitNumbers unusualItem := by
  constructor
  · exact .of_tail (by decide) (by decide)
  · decide
  · exact ⟨utf16 "A", by decide, rfl⟩
  · exact ⟨7, rfl, rfl⟩
  · exact .inr ⟨2, rfl, rfl⟩
  · exact .inr ⟨0, rfl, rfl⟩
  · refine .inr ⟨unusualHeaders, rfl, .of_tail (by decide) (by decide), ?_⟩
    intro entry hentry
    rcases List.mem_pair.mp hentry with rfl | rfl
    · exact ⟨_, rfl⟩
    · exact ⟨_, rfl⟩
  · exact .inl rfl
  · rfl

theorem unusual_item_round_trip :
    ∃ text item, serializeSyncItem digitNumbers (.object unusualItem) = .ok (some text) ∧
      deserializeSyncItem digitNumbers text = .ok item ∧
      SameValue digitNumbers (item.get (utf16 "headers")) (.object unusualHeaders) := by
  obtain ⟨members, hserialize, ⟨item, hitem, hsame⟩, -⟩ :=
    serialize_round_trip digitNumbers_lawful unusualItem_shape (fun h => by cases h)
      (fun h => by cases h)
  exact ⟨_, item, hserialize, hitem, hsame (utf16 "headers")⟩

end Sample

end SyncProvider.Js
