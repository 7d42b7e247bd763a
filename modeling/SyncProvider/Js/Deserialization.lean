import SyncProvider.Js.Serialization
import SyncProvider.Lib.Radix

/-!
# JS: a text as an item

`deserializeSyncItem` takes any text. What it does not look at may be nested and may hold
any value that JSON has; a number token that is too large is read as an infinity, which has
no text of its own. A list of texts passes for a map.

Results:
1. `KeysOrdered.set`, `keysOrdered_copied` : the order of an object that is built key by key.
2. `parse_stringify` : what was parsed has a text, and is read back from it.
3. `deserializeSyncItem_eq_ok_iff` : which texts are accepted, and as what.
4. `accepted_item_comes_back_iff` : when an item that was accepted is accepted again.
-/

namespace SyncProvider.Js

variable {ν : Type}

/-! ## 1. The order of keys -/

/-- The digits of a key that is an index. -/
def digitsOf (key : JsString) : List ℕ := key.map fun u => u.toNat - 0x30

theorem foldl_digits (key : JsString) :
    key.foldl (fun n u => 10 * n + (u.toNat - 0x30)) 0 = Radix.value 10 (digitsOf key) := by
  induction key using List.reverseRecOn with
  | nil => rfl
  | append_singleton key u ih =>
    rw [List.foldl_append, List.foldl_cons, List.foldl_nil, ih, digitsOf, digitsOf, List.map_append,
      List.map_singleton, Radix.value_snoc, mul_comm]

/-- Digits, without a zero in front of others. -/
structure IsIndex (key : JsString) (n : ℕ) : Prop where
  nonempty : key ≠ []
  digits : ∀ u ∈ key, 0x30 ≤ u.toNat ∧ u.toNat ≤ 0x39
  leads : key.length = 1 ∨ key.head? ≠ some 0x30
  value : n = Radix.value 10 (digitsOf key)

theorem isIndex_of_arrayIndex? {key : JsString} {n : ℕ} (h : arrayIndex? key = some n) :
    IsIndex key n := by
  unfold arrayIndex? at h
  split at h
  · rename_i hkey
    simp only [Bool.and_eq_true, Bool.or_eq_true, bne_iff_ne, ne_eq, List.all_eq_true,
      decide_eq_true_eq, beq_iff_eq] at hkey
    obtain ⟨⟨hnonempty, hdigits⟩, hleads⟩ := hkey
    simp only at h
    split at h
    · cases h
      refine ⟨hnonempty, fun u hu => ?_, hleads, foldl_digits key⟩
      obtain ⟨hlow, hhigh⟩ := hdigits u hu
      exact ⟨UInt16.le_iff_toNat_le.mp hlow, UInt16.le_iff_toNat_le.mp hhigh⟩
    · cases h
  · cases h

namespace IsIndex

variable {key key' : JsString} {n : ℕ}

theorem digit_lt (h : IsIndex key n) : ∀ d ∈ digitsOf key, d < 10 := by
  intro d hd
  obtain ⟨u, hu, rfl⟩ := List.mem_map.mp hd
  have hdigit := h.digits u hu
  omega

theorem value_lt (h : IsIndex key n) : n < 10 ^ key.length := by
  have hlt := Radix.value_lt (by decide : 1 < 10) h.digit_lt
  rwa [digitsOf, List.length_map, ← digitsOf, ← h.value] at hlt

/-- The first of several digits is not zero. -/
theorem le_value (h : IsIndex key n) (hlength : key.length ≠ 1) : 10 ^ (key.length - 1) ≤ n := by
  cases key with
  | nil => exact absurd rfl h.nonempty
  | cons u key =>
    have hu := h.digits u List.mem_cons_self
    have hzero : u ≠ 0x30 := by
      intro heq
      exact (h.leads.resolve_left hlength) (congrArg some heq)
    have hne : u.toNat ≠ 0x30 := fun heq => hzero (UInt16.toNat_inj.mp heq)
    have hpos : 1 ≤ u.toNat - 0x30 := by omega
    rw [h.value, digitsOf, List.map_cons, Radix.value_cons, List.length_map, List.length_cons,
      Nat.add_sub_cancel]
    calc 10 ^ key.length ≤ (u.toNat - 0x30) * 10 ^ key.length := Nat.le_mul_of_pos_left _ hpos
      _ ≤ _ := Nat.le_add_right _ _

theorem length_le (h : IsIndex key n) (h' : IsIndex key' n) : key.length ≤ key'.length := by
  by_contra hlt
  have hpos := List.length_pos_iff.mpr h'.nonempty
  have hle := h.le_value (by omega)
  have hpow : 10 ^ key'.length ≤ 10 ^ (key.length - 1) :=
    Nat.pow_le_pow_right (by decide) (by omega)
  exact absurd h'.value_lt (Nat.not_lt.mpr (hpow.trans hle))

/-- Two keys are not one index. -/
theorem unique (h : IsIndex key n) (h' : IsIndex key' n) : key = key' := by
  have hlength : key.length = key'.length := Nat.le_antisymm (h.length_le h') (h'.length_le h)
  have hdigits : digitsOf key = digitsOf key' := by
    have hback := Radix.digits_value h.digit_lt
    have hback' := Radix.digits_value h'.digit_lt
    have hlengths : (digitsOf key).length = (digitsOf key').length := by
      rw [digitsOf, digitsOf, List.length_map, List.length_map, hlength]
    rw [← hback, ← hback', ← h.value, ← h'.value, hlengths]
  refine List.ext_getElem hlength fun i hi hi' => ?_
  have hunit : key[i].toNat - 0x30 = key'[i].toNat - 0x30 := by
    have hget := congrArg (fun ds => ds[i]?) hdigits
    simpa [digitsOf, hi, hi'] using hget
  have hlow := (h.digits _ (List.getElem_mem hi)).1
  have hlow' := (h'.digits _ (List.getElem_mem hi')).1
  exact UInt16.toNat_inj.mp (by omega)

end IsIndex

/-- The order is one of the keys. -/
theorem KeysOrdered.of_keys {μ : Type} {entries : List (JsString × JsValue ν)}
    {entries' : List (JsString × JsValue μ)} (h : KeysOrdered entries)
    (hkeys : entries'.map Prod.fst = entries.map Prod.fst) : KeysOrdered entries' := by
  refine ⟨hkeys ▸ h.nodup, ?_⟩
  have hpairwise : (entries.map Prod.fst).Pairwise Precedes := List.pairwise_map.mpr h.pairwise
  rw [← hkeys] at hpairwise
  exact List.pairwise_map.mp hpairwise

/-- Behind the first that is no smaller index there is none. -/
theorem not_indexBelow_of_mem_dropWhile {entries : List (JsString × JsValue ν)}
    (h : KeysOrdered entries) {n : ℕ} {entry : JsString × JsValue ν}
    (hentry : entry ∈ entries.dropWhile (indexBelow n)) : indexBelow n entry = false := by
  have hpairwise := h.pairwise.sublist (List.dropWhile_sublist (indexBelow n))
  cases hdrop : entries.dropWhile (indexBelow n) with
  | nil =>
    rw [hdrop] at hentry
    cases hentry
  | cons first rest =>
    have hfirst : indexBelow n first = false := by
      have hhead := List.head?_dropWhile_not (indexBelow n) entries
      rw [hdrop] at hhead
      exact hhead
    rw [hdrop] at hentry hpairwise
    rcases List.mem_cons.mp hentry with rfl | hrest
    · exact hfirst
    · have hprecedes := (List.pairwise_cons.mp hpairwise).1 entry hrest
      unfold Precedes at hprecedes
      unfold indexBelow at hfirst ⊢
      cases hindex : arrayIndex? entry.1 with
      | none => rfl
      | some m =>
        rw [hindex] at hprecedes
        cases hindex' : arrayIndex? first.1 with
        | none =>
          rw [hindex'] at hprecedes
          exact hprecedes.elim
        | some m' =>
          rw [hindex'] at hprecedes hfirst
          simp only [Option.any_some, decide_eq_false_iff_not] at hfirst ⊢
          simp only at hprecedes
          omega

/-- A new index comes in between the smaller ones and the rest. -/
theorem KeysOrdered.inserted {entries : List (JsString × JsValue ν)} (h : KeysOrdered entries)
    {key : JsString} {n : ℕ} (hindex : arrayIndex? key = some n)
    (hnew : key ∉ entries.map Prod.fst) (v : JsValue ν) :
    KeysOrdered (entries.takeWhile (indexBelow n) ++
      (key, v) :: entries.dropWhile (indexBelow n)) := by
  have hsplit : entries.takeWhile (indexBelow n) ++ entries.dropWhile (indexBelow n) = entries :=
    List.takeWhile_append_dropWhile
  constructor
  · rw [List.map_append, List.map_cons, List.nodup_middle, ← List.map_append, hsplit]
    exact List.nodup_cons.mpr ⟨hnew, h.nodup⟩
  · have hpairwise := h.pairwise
    rw [← hsplit, List.pairwise_append] at hpairwise
    refine List.pairwise_append.mpr ⟨hpairwise.1, List.pairwise_cons.mpr ⟨?_, hpairwise.2.1⟩, ?_⟩
    · intro entry hentry
      have hbelow := not_indexBelow_of_mem_dropWhile h hentry
      unfold Precedes
      unfold indexBelow at hbelow
      rw [hindex]
      cases hindex' : arrayIndex? entry.1 with
      | none => trivial
      | some m =>
        rw [hindex'] at hbelow
        simp only [Option.any_some, decide_eq_false_iff_not, not_lt] at hbelow
        refine lt_of_le_of_ne hbelow ?_
        rintro rfl
        have heq := (isIndex_of_arrayIndex? hindex).unique (isIndex_of_arrayIndex? hindex')
        exact hnew (heq ▸ List.mem_map_of_mem ((List.dropWhile_sublist _).subset hentry))
    · intro entry hentry entry' hentry'
      rcases List.mem_cons.mp hentry' with rfl | hentry'
      · have hbelow := List.mem_takeWhile_imp hentry
        unfold indexBelow at hbelow
        unfold Precedes
        simp only [hindex]
        cases hindex' : arrayIndex? entry.1 with
        | none =>
          rw [hindex'] at hbelow
          cases hbelow
        | some m =>
          rw [hindex'] at hbelow
          exact of_decide_eq_true hbelow
      · exact hpairwise.2.2 entry hentry entry' hentry'

theorem KeysOrdered.set {entries : List (JsString × JsValue ν)} (h : KeysOrdered entries)
    (key : JsString) (v : JsValue ν) : KeysOrdered (Js.setProperty entries key v) := by
  by_cases hmem : key ∈ entries.map Prod.fst
  · have hany : entries.any (fun entry => entry.1 == key) = true := by
      obtain ⟨entry, hentry, heq⟩ := List.mem_map.mp hmem
      exact List.any_eq_true.mpr ⟨entry, hentry, beq_iff_eq.mpr heq⟩
    rw [Js.setProperty, if_pos hany]
    refine h.of_keys ?_
    rw [List.map_map]
    refine List.map_congr_left fun entry _ => ?_
    by_cases heq : entry.1 = key
    · simp [heq]
    · simp [heq]
  · cases hindex : arrayIndex? key with
    | none => exact h.setProperty hindex v
    | some n =>
      have hany : ¬ entries.any (fun entry => entry.1 == key) = true := by
        intro hany
        obtain ⟨entry, hentry, heq⟩ := List.any_eq_true.mp hany
        exact hmem (eq_of_beq heq ▸ List.mem_map_of_mem hentry)
      rw [Js.setProperty, if_neg hany, hindex]
      exact h.inserted hindex hmem v

/-- Whatever an object is built from, its keys are in order. -/
theorem keysOrdered_copied (entries : List (JsString × JsValue ν)) :
    KeysOrdered (copied entries) := by
  have hfold : ∀ done : List (JsString × JsValue ν), KeysOrdered done →
      KeysOrdered (entries.foldl (fun copy entry => setProperty copy entry.1 entry.2) done) := by
    induction entries with
    | nil => exact fun done hdone => hdone
    | cons entry entries ih => exact fun done hdone => ih _ (hdone.set entry.1 entry.2)
  exact hfold [] ⟨List.nodup_nil, .nil⟩

/-! ## 2. What was parsed has a text -/

/-- The values that `JSON.parse` returns. -/
inductive Parsed : JsValue ν → Prop where
  | null : Parsed .null
  | boolean (b : Bool) : Parsed (.boolean b)
  | number (x : ν) : Parsed (.number x)
  | string (s : JsString) : Parsed (.string s)
  | array {elements : List (JsValue ν)} (helements : ∀ v ∈ elements, Parsed v) :
    Parsed (.array elements)
  | object {entries : List (JsString × JsValue ν)} (hordered : KeysOrdered entries)
    (hentries : ∀ entry ∈ entries, Parsed entry.2) : Parsed (.object entries)

/-- What is set comes from what is set or was there. -/
theorem mem_setProperty {entries : List (JsString × JsValue ν)} {key : JsString} {v : JsValue ν}
    {entry : JsString × JsValue ν} (h : entry ∈ setProperty entries key v) :
    entry = (key, v) ∨ entry ∈ entries := by
  unfold setProperty at h
  split at h
  · obtain ⟨entry', hentry', rfl⟩ := List.mem_map.mp h
    split
    · exact .inl rfl
    · exact .inr hentry'
  · split at h
    · rcases List.mem_append.mp h with h | h
      · exact .inr h
      · exact .inl (List.mem_singleton.mp h)
    · rcases List.mem_append.mp h with h | h
      · exact .inr ((List.takeWhile_sublist _).subset h)
      · rcases List.mem_cons.mp h with h | h
        · exact .inl h
        · exact .inr ((List.dropWhile_sublist _).subset h)

theorem mem_copied {entries : List (JsString × JsValue ν)} {entry : JsString × JsValue ν}
    (h : entry ∈ copied entries) : entry ∈ entries := by
  have hfold : ∀ done : List (JsString × JsValue ν),
      entry ∈ entries.foldl (fun copy entry => setProperty copy entry.1 entry.2) done →
        entry ∈ done ∨ entry ∈ entries := by
    clear h
    induction entries with
    | nil => exact fun done h => .inl h
    | cons first entries ih =>
      intro done h
      rcases ih _ h with h | h
      · rcases mem_setProperty h with rfl | h
        · exact .inr List.mem_cons_self
        · exact .inl h
      · exact .inr (List.mem_cons_of_mem _ h)
  exact (hfold [] h).resolve_left List.not_mem_nil

theorem Parsed.setProperty {entries : List (JsString × JsValue ν)} (h : Parsed (.object entries))
    (key : JsString) {v : JsValue ν} (hv : Parsed v) :
    Parsed (.object (Js.setProperty entries key v)) := by
  cases h with
  | object hordered hentries =>
    refine .object (hordered.set key v) fun entry hentry => ?_
    rcases mem_setProperty hentry with rfl | hentry
    · exact hv
    · exact hentries entry hentry

namespace JSON

mutual

theorem parsed_ofJson : ∀ j : Json ν, Parsed (ofJson j)
  | .null => by rw [ofJson]; exact .null
  | .bool b => by rw [ofJson]; exact .boolean b
  | .number x => by rw [ofJson]; exact .number x
  | .string s => by rw [ofJson]; exact .string s
  | .array elements => by rw [ofJson]; exact .array (parsed_ofElements elements)
  | .object members => by
    rw [ofJson]
    exact .object (keysOrdered_copied _) fun entry hentry =>
      parsed_ofMembers members entry (mem_copied hentry)

theorem parsed_ofElements : ∀ (elements : List (Json ν)), ∀ v ∈ ofElements elements, Parsed v
  | [], v, hv => by cases hv
  | j :: elements, v, hv => by
    rw [ofElements] at hv
    rcases List.mem_cons.mp hv with rfl | hv
    · exact parsed_ofJson j
    · exact parsed_ofElements elements v hv

theorem parsed_ofMembers : ∀ (members : List (JsString × Json ν)),
    ∀ entry ∈ ofMembers members, Parsed entry.2
  | [], entry, hentry => by cases hentry
  | (key, j) :: members, entry, hentry => by
    rw [ofMembers] at hentry
    rcases List.mem_cons.mp hentry with rfl | hentry
    · exact parsed_ofJson j
    · exact parsed_ofMembers members entry hentry

end

end JSON

variable {N : JsNumbers ν}

theorem parsed_parse {text : JsString} {v : JsValue ν} (h : JSON.parse N text = some v) :
    Parsed v := by
  obtain ⟨j, -, rfl⟩ := Option.map_eq_some_iff.mp h
  exact JSON.parsed_ofJson j

section Reparse

variable (N : JsNumbers ν)

mutual

/-- A value, after its text is read: infinities become null, the other numbers are read from
their texts. -/
def reparse : JsValue ν → JsValue ν
  | .number x => if N.isFinite x = true then .number (N.ofText (N.toText x)) else .null
  | .object entries => .object (reparseEntries entries)
  | .array elements => .array (reparseElements elements)
  | .undefined => .undefined
  | .null => .null
  | .boolean b => .boolean b
  | .bigint n => .bigint n
  | .string s => .string s
  | .symbol => .symbol
  | .function => .function

def reparseEntries : List (JsString × JsValue ν) → List (JsString × JsValue ν)
  | [] => []
  | (key, v) :: entries => (key, reparse v) :: reparseEntries entries

def reparseElements : List (JsValue ν) → List (JsValue ν)
  | [] => []
  | v :: vs => reparse v :: reparseElements vs

end

end Reparse

theorem reparseEntries_eq (entries : List (JsString × JsValue ν)) :
    reparseEntries N entries = entries.map fun entry => (entry.1, reparse N entry.2) := by
  induction entries with
  | nil => rw [reparseEntries, List.map_nil]
  | cons entry entries ih => rw [reparseEntries, ih, List.map_cons]

theorem keys_reparseEntries (entries : List (JsString × JsValue ν)) :
    (reparseEntries N entries).map Prod.fst = entries.map Prod.fst := by
  rw [reparseEntries_eq, List.map_map]
  rfl

theorem property_reparseEntries (entries : List (JsString × JsValue ν)) (key : JsString) :
    property (reparseEntries N entries) key = reparse N (property entries key) := by
  induction entries with
  | nil => rw [reparseEntries, property_nil, reparse]
  | cons entry entries ih =>
    rw [reparseEntries, property_cons, property_cons, ih]
    split
    · rfl
    · rfl

namespace JSON

/-- Each member has a text, since none is undefined. -/
theorem toMembers_parsed {entries : List (JsString × JsValue ν)}
    (h : ∀ entry ∈ entries, ∃ j, toJson N entry.2 = some (some j) ∧
      ofJson (Json.map (reparsed N) j) = reparse N entry.2) :
    ∃ members, toMembers N entries = some members ∧
      ofMembers (Json.mapMembers (reparsed N) members) = reparseEntries N entries := by
  induction entries with
  | nil => exact ⟨[], by rw [toMembers], by rw [reparseEntries]; rfl⟩
  | cons entry entries ih =>
    obtain ⟨key, v⟩ := entry
    obtain ⟨members, hmembers, hback⟩ :=
      ih fun entry hentry => h entry (List.mem_cons_of_mem _ hentry)
    obtain ⟨j, hj, hjback⟩ := h (key, v) List.mem_cons_self
    refine ⟨(key, j) :: members, ?_, ?_⟩
    · rw [toMembers, hj, Option.bind_some, hmembers]
      rfl
    · rw [Json.mapMembers, ofMembers, hback, hjback, reparseEntries]

theorem toElements_parsed {elements : List (JsValue ν)}
    (h : ∀ v ∈ elements, ∃ j, toJson N v = some (some j) ∧
      ofJson (Json.map (reparsed N) j) = reparse N v) :
    ∃ js, toElements N elements = some js ∧
      ofElements (Json.mapElements (reparsed N) js) = reparseElements N elements := by
  induction elements with
  | nil => exact ⟨[], by rw [toElements], by rw [reparseElements]; rfl⟩
  | cons v elements ih =>
    obtain ⟨js, hjs, hback⟩ := ih fun v hv => h v (List.mem_cons_of_mem _ hv)
    obtain ⟨j, hj, hjback⟩ := h v List.mem_cons_self
    refine ⟨j :: js, ?_, ?_⟩
    · rw [toElements, hj, Option.bind_some, hjs]
      rfl
    · rw [Json.mapElements, ofElements, hback, hjback, reparseElements]

theorem toJson_parsed {v : JsValue ν} (h : Parsed v) :
    ∃ j, toJson N v = some (some j) ∧ ofJson (Json.map (reparsed N) j) = reparse N v := by
  induction h with
  | null => exact ⟨.null, by rw [toJson], by rw [reparse]; rfl⟩
  | boolean b => exact ⟨.bool b, by rw [toJson], by rw [reparse]; rfl⟩
  | number x =>
    rw [toJson, reparse]
    split
    · exact ⟨_, rfl, rfl⟩
    · exact ⟨_, rfl, rfl⟩
  | string s => exact ⟨.string s, by rw [toJson], by rw [reparse]; rfl⟩
  | array helements ih =>
    obtain ⟨js, hjs, hback⟩ := toElements_parsed ih
    refine ⟨.array js, by rw [toJson, hjs, Option.map_some], ?_⟩
    rw [Json.map, ofJson, hback, reparse]
  | @object entries hordered hentries ih =>
    obtain ⟨members, hmembers, hback⟩ := toMembers_parsed ih
    refine ⟨.object members, by rw [toJson, hmembers, Option.map_some], ?_⟩
    have hordered' := hordered.of_keys (keys_reparseEntries (N := N) entries)
    rw [Json.map, ofJson, hback, copied_eq hordered', reparse]

end JSON

/-- What was parsed has a text, and that text is parsed. -/
theorem parse_stringify (hN : N.Lawful) {v : JsValue ν} (h : Parsed v) :
    ∃ text, JSON.stringify N v = some (some text) ∧ JSON.parse N text = some (reparse N v) := by
  obtain ⟨j, hj, hback⟩ := JSON.toJson_parsed (N := N) h
  have hprint := Json.parse_print N.ofText (fun x : JSON.Finite N => hN.isNumber_toText x.1 x.2) j
  refine ⟨Json.print (fun x => N.toText x.1) j, by rw [JSON.stringify, hj]; rfl, ?_⟩
  rw [JSON.parse, hprint, Option.map_some]
  exact congrArg some hback

/-! ## 3. The texts that are accepted -/

/-- The properties of an object that is accepted as an item. -/
structure Acceptable (entries : List (JsString × JsValue ν)) : Prop where
  id : ∃ s, s ≠ [] ∧ property entries (utf16 "id") = .string s
  createdAt : ∃ x, property entries (utf16 "createdAt") = .number x
  attempts : property entries (utf16 "attempts") = .undefined ∨
    ∃ x, property entries (utf16 "attempts") = .number x
  nextRetryAt : property entries (utf16 "nextRetryAt") = .undefined ∨
    ∃ x, property entries (utf16 "nextRetryAt") = .number x
  accepted : validateSyncItem (.object entries) = .ok ()

theorem isMissingText_eq_false_iff {v : JsValue ν} :
    isMissingText v = false ↔ ∃ s, s ≠ [] ∧ v = .string s := by
  cases v with
  | string s => cases s <;> simp [isMissingText]
  | _ => simp [isMissingText]

theorem typeOf_eq_number_iff {v : JsValue ν} : v.typeOf = .number ↔ ∃ x, v = .number x := by
  cases v <;> simp [JsValue.typeOf]

theorem notNumber_eq_false_iff {v : JsValue ν} :
    (!v.isUndefined && v.typeOf != .number) = false ↔ v = .undefined ∨ ∃ x, v = .number x := by
  cases v <;> simp [JsValue.isUndefined, JsValue.typeOf]

/-- The indices of an array are no names. -/
theorem utf16_toString_ne_id (i : ℕ) : utf16 (toString i) ≠ utf16 "id" := by
  have hdigits : ∀ c ∈ (toString i).toList, c.isDigit = true := by
    intro c hc
    rw [Nat.toString_eq_repr, Nat.toList_repr] at hc
    exact Nat.isDigit_of_mem_toDigits (by decide) (by decide) hc
  unfold utf16
  cases htext : (toString i).toList with
  | nil => decide
  | cons c cs =>
    have hc := hdigits c (htext ▸ List.mem_cons_self)
    have hbounds : 48 ≤ c.toNat ∧ c.toNat ≤ 57 := by
      simpa [Char.isDigit, UInt32.le_iff_toNat_le] using hc
    have hunits : utf16Units c = [c.toNat.toUInt16] := if_pos (by omega)
    rw [List.flatMap_cons, hunits]
    intro heq
    have hhead : c.toNat.toUInt16 = 0x69 := (List.cons.inj heq).1
    have hnat : c.toNat.toUInt16.toNat = c.toNat := by
      rw [UInt16.toNat_ofNat']
      omega
    have hvalue : c.toNat = 0x69 := hnat.symm.trans (congrArg UInt16.toNat hhead)
    omega

theorem get_id_array (elements : List (JsValue ν)) :
    (JsValue.array elements).get (utf16 "id") = .undefined := by
  refine property_of_notMem fun hmem => ?_
  obtain ⟨entry, hentry, hkey⟩ := List.mem_map.mp hmem
  obtain ⟨⟨v, i⟩, -, rfl⟩ := List.mem_map.mp hentry
  exact utf16_toString_ne_id i hkey

/-- Exactly these texts are accepted, as the parsed object with the two fields filled in. -/
theorem deserializeSyncItem_eq_ok_iff {text : JsString} {item : JsValue ν} :
    deserializeSyncItem N text = .ok item ↔
      ∃ entries, JSON.parse N text = some (.object entries) ∧ Acceptable entries ∧
        item = .object (filled N entries) := by
  constructor
  · intro h
    unfold deserializeSyncItem at h
    split at h
    · cases h
    · rename_i candidate hparse
      simp only at h
      split at h
      · cases h
      rename_i hobject
      split at h
      · cases h
      rename_i hid
      split at h
      · cases h
      rename_i hcreatedAt
      split at h
      · cases h
      rename_i hattempts
      split at h
      · cases h
      rename_i hnextRetryAt
      split at h
      · cases h
      rename_i hvalid
      cases h
      rw [Bool.not_eq_true] at hid hcreatedAt hattempts hnextRetryAt
      cases candidate with
      | object entries =>
        have hparsed := parsed_parse hparse
        cases hparsed with
        | object hordered hentries =>
          refine ⟨entries, hparse, ⟨isMissingText_eq_false_iff.mp hid, ?_,
            notNumber_eq_false_iff.mp hattempts, notNumber_eq_false_iff.mp hnextRetryAt, hvalid⟩,
            ?_⟩
          · exact typeOf_eq_number_iff.mp (bne_eq_false_iff_eq.mp hcreatedAt)
          · rw [JsValue.entries, copied_eq hordered]
            rfl
      | array elements =>
        rw [get_id_array] at hid
        cases hid
      | _ => exact absurd rfl hobject
  · rintro ⟨entries, hparse, haccepted, rfl⟩
    have hparsed := parsed_parse hparse
    have hid := isMissingText_eq_false_iff.mpr haccepted.id
    have hcreatedAt := bne_eq_false_iff_eq.mpr (typeOf_eq_number_iff.mpr haccepted.createdAt)
    have hattempts := notNumber_eq_false_iff.mpr haccepted.attempts
    have hnextRetryAt := notNumber_eq_false_iff.mpr haccepted.nextRetryAt
    have hobject : (JsValue.object entries).isObject = true := rfl
    have hget : ∀ key, (JsValue.object entries).get key = property entries key := fun _ => rfl
    cases hparsed with
    | object hordered hentries =>
      have hcopied : copied (JsValue.object entries).entries = entries := copied_eq hordered
      unfold deserializeSyncItem
      rw [hparse]
      simp only [hobject, hget, hid, hcreatedAt, hattempts, hnextRetryAt, haccepted.accepted,
        Bool.not_true, Bool.false_eq_true, if_false, hcopied]
      rfl

/-! ## 4. An item that comes back -/

theorem validateSyncItem_eq_ok_iff {input : JsValue ν} :
    validateSyncItem input = .ok () ↔ collectIssuesWithCode input = [] := by
  unfold validateSyncItem
  cases collectIssuesWithCode input with
  | nil => exact ⟨fun _ => rfl, fun _ => rfl⟩
  | cons issue issues => exact ⟨nofun, nofun⟩

theorem reparse_of_isText {v : JsValue ν} (h : IsText v) : reparse N v = v := by
  rcases h with rfl | ⟨s, rfl⟩
  · rw [reparse]
  · rw [reparse]

theorem reparseElements_eq (elements : List (JsValue ν)) :
    reparseElements N elements = elements.map (reparse N) := by
  induction elements with
  | nil => rw [reparseElements, List.map_nil]
  | cons v elements ih => rw [reparseElements, ih, List.map_cons]

theorem isObject_reparse (v : JsValue ν) : (reparse N v).isObject = v.isObject := by
  cases v with
  | number x =>
    rw [reparse]
    split
    · rfl
    · rfl
  | object entries => rw [reparse]; rfl
  | array elements => rw [reparse]; rfl
  | _ => rw [reparse]

theorem entries_of_not_isObject {v : JsValue ν} (h : v.isObject = false) : v.entries = [] := by
  cases v with
  | object entries => cases h
  | array elements => cases h
  | _ => rfl

theorem entries_reparse (v : JsValue ν) : (reparse N v).entries = reparseEntries N v.entries := by
  cases hobject : v.isObject with
  | false =>
    rw [entries_of_not_isObject hobject, reparseEntries,
      entries_of_not_isObject ((isObject_reparse v).trans hobject)]
  | true =>
    cases v with
    | object entries => rw [reparse]; rfl
    | array elements =>
      rw [reparse, JsValue.entries, JsValue.entries, reparseElements_eq, reparseEntries_eq,
        List.zipIdx_map, List.map_map, List.map_map]
      rfl
    | _ => cases hobject

theorem get_reparse (v : JsValue ν) (key : JsString) :
    (reparse N v).get key = reparse N (v.get key) := by
  rw [JsValue.get, entries_reparse, property_reparseEntries]
  rfl

theorem keys_reparse (v : JsValue ν) : (reparse N v).keys = v.keys := by
  rw [JsValue.keys, entries_reparse, keys_reparseEntries]
  rfl

/-- A map of texts, or a list of them, passes again. -/
theorem mapIssues_reparse {field : String} {v : JsValue ν} (h : mapIssues field v = []) :
    mapIssues field (reparse N v) = [] := by
  unfold mapIssues at h
  split at h
  · rename_i hundefined
    have hv : v = .undefined := by cases v <;> first | rfl | cases hundefined
    rw [hv, reparse]
    rfl
  · rename_i hdefined
    split at h
    · cases h
    · rename_i hobject
      have hobject' : (reparse N v).isObject = true := by
        rw [isObject_reparse]
        simpa using hobject
      have hdefined' : (reparse N v).isUndefined = false := by
        cases hv : reparse N v with
        | undefined =>
          rw [hv] at hobject'
          cases hobject'
        | _ => rfl
      unfold mapIssues
      simp only [hdefined', hobject', Bool.not_true, Bool.false_eq_true, if_false]
      rw [List.flatMap_eq_nil_iff] at h ⊢
      intro key hkey
      have hentry := h key (keys_reparse (N := N) v ▸ hkey)
      unfold entryIssues at hentry ⊢
      split at hentry
      · cases hentry
      · rename_i hstring
        have htext : IsText (v.get key) := by
          cases hget : v.get key with
          | string s => exact .inr ⟨s, rfl⟩
          | _ => exact absurd (by rw [hget]; rfl) hstring
        rw [get_reparse, reparse_of_isText htext]
        exact if_neg hstring

/-- Reading it from its text changes nothing that is checked. -/
theorem validateSyncItem_reparse {entries : List (JsString × JsValue ν)}
    (h : validateSyncItem (.object entries) = .ok ()) :
    validateSyncItem (.object (reparseEntries N entries)) = .ok () := by
  have htexts := isText_of_accepted h
  simp only [List.map_cons, List.map_nil, List.forall_mem_cons] at htexts
  obtain ⟨hmethod, hurl, hbody, hcontentType, hpriority, -⟩ := htexts
  have hget : ∀ key, (JsValue.object (reparseEntries N entries)).get key =
      reparse N ((JsValue.object entries).get key) := property_reparseEntries entries
  rw [validateSyncItem_eq_ok_iff] at h ⊢
  unfold collectIssuesWithCode at h ⊢
  have hobject (entries : List (JsString × JsValue ν)) :
      (JsValue.object entries).isObject = true := rfl
  simp only [hobject, Bool.not_true, Bool.false_eq_true, if_false, List.append_eq_nil_iff,
    headersIssues, metadataIssues] at h ⊢
  obtain ⟨⟨⟨⟨⟨⟨hm, hu⟩, hb⟩, hc⟩, hp⟩, hheaders⟩, hmetadata⟩ := h
  simp only [hget, reparse_of_isText hmethod, reparse_of_isText hurl, reparse_of_isText hbody,
    reparse_of_isText hcontentType, reparse_of_isText hpriority]
  exact ⟨⟨⟨⟨⟨⟨hm, hu⟩, hb⟩, hc⟩, hp⟩, mapIssues_reparse hheaders⟩, mapIssues_reparse hmetadata⟩

/-- A property that is set to what it is. -/
theorem setProperty_property {entries : List (JsString × JsValue ν)}
    (hnodup : (entries.map Prod.fst).Nodup) {key : JsString}
    (hdefined : property entries key ≠ .undefined) :
    setProperty entries key (property entries key) = entries := by
  have hmem : key ∈ entries.map Prod.fst := by
    by_contra hnot
    exact hdefined (property_of_notMem hnot)
  have hany : entries.any (fun entry => entry.1 == key) = true := by
    obtain ⟨entry, hentry, heq⟩ := List.mem_map.mp hmem
    exact List.any_eq_true.mpr ⟨entry, hentry, beq_iff_eq.mpr heq⟩
  rw [setProperty, if_pos hany]
  conv_rhs => rw [← List.map_id entries]
  refine List.map_congr_left fun entry hentry => ?_
  split
  · rename_i heq
    rw [← eq_of_beq heq, property_of_mem hnodup hentry]
    rfl
  · rfl

theorem nullish_number (x : ν) (fallback : JsValue ν) : nullish (.number x) fallback = .number x :=
  rfl

theorem filled_eq_self {entries : List (JsString × JsValue ν)}
    (hnodup : (entries.map Prod.fst).Nodup)
    (hattempts : ∃ x, property entries (utf16 "attempts") = .number x)
    (hnextRetryAt : ∃ x, property entries (utf16 "nextRetryAt") = .number x) :
    filled N entries = entries := by
  obtain ⟨x, hx⟩ := hattempts
  obtain ⟨y, hy⟩ := hnextRetryAt
  have hset := setProperty_property hnodup (hx ▸ by simp : property entries (utf16 "attempts") ≠ _)
  have hset' :=
    setProperty_property hnodup (hy ▸ by simp : property entries (utf16 "nextRetryAt") ≠ _)
  rw [hx] at hset
  rw [hy] at hset'
  rw [filled, hx, hy, nullish_number, nullish_number, hset, hset']

/-- The fields that hold numbers. -/
def numberFields : List JsString := ["createdAt", "attempts", "nextRetryAt"].map utf16

/-- The three numbers have texts. -/
def Finite (N : JsNumbers ν) (item : JsValue ν) : Prop :=
  ∀ key ∈ numberFields, ∃ x, N.isFinite x = true ∧ item.get key = .number x

theorem reparse_number_iff {x : ν} : (∃ y, reparse N (.number x) = .number y) ↔
    N.isFinite x = true := by
  rw [reparse]
  split
  · rename_i h
    exact ⟨fun _ => h, fun _ => ⟨_, rfl⟩⟩
  · rename_i h
    exact ⟨nofun, fun hx => absurd hx h⟩

namespace Acceptable

variable {entries : List (JsString × JsValue ν)}

theorem accepted_filled (h : Acceptable entries) :
    validateSyncItem (.object (filled N entries)) = .ok () := by
  rw [← h.accepted]
  refine validateSyncItem_congr fun key hkey => ?_
  have hne : ∀ key ∈ checkedFields, ¬ (key = utf16 "attempts" ∨ key = utf16 "nextRetryAt") := by
    decide
  rw [property_filled, if_neg (hne key hkey)]

theorem numbers_filled (h : Acceptable entries) :
    ∀ key ∈ numberFields, ∃ x, property (filled N entries) key = .number x := by
  have hnullish : ∀ v : JsValue ν, (v = .undefined ∨ ∃ x, v = .number x) →
      ∃ x, nullish v (.number N.zero) = .number x := by
    rintro v (rfl | ⟨x, rfl⟩)
    · exact ⟨_, rfl⟩
    · exact ⟨_, rfl⟩
  simp only [numberFields, List.map_cons, List.map_nil, List.forall_mem_cons, property_filled]
  refine ⟨?_, ?_, ?_, fun _ h => by cases h⟩
  · rw [if_neg (by decide)]
    exact h.createdAt
  · rw [if_pos (by decide)]
    exact hnullish _ h.attempts
  · rw [if_pos (by decide)]
    exact hnullish _ h.nextRetryAt

theorem parsed_filled (h : Acceptable entries) (hparsed : Parsed (.object entries)) :
    Parsed (.object (filled N entries)) := by
  have hnullish : ∀ v : JsValue ν, (v = .undefined ∨ ∃ x, v = .number x) →
      Parsed (nullish v (.number N.zero)) := by
    rintro v (rfl | ⟨x, rfl⟩)
    · exact .number _
    · exact .number _
  exact (hparsed.setProperty _ (hnullish _ h.attempts)).setProperty _ (hnullish _ h.nextRetryAt)

theorem id_filled (h : Acceptable entries) :
    ∃ s, s ≠ [] ∧ property (filled N entries) (utf16 "id") = .string s := by
  rw [property_filled, if_neg (by decide)]
  exact h.id

/-- Of the three numbers each has to be finite for its text to be a number. -/
theorem reparse_filled_iff (h : Acceptable entries) :
    Acceptable (reparseEntries N (filled N entries)) ↔ Finite N (.object (filled N entries)) := by
  have hnumbers := h.numbers_filled (N := N)
  have hfinite : ∀ key ∈ numberFields,
      ((∃ y, property (reparseEntries N (filled N entries)) key = .number y) ↔
        ∃ x, N.isFinite x = true ∧ property (filled N entries) key = .number x) := by
    intro key hkey
    obtain ⟨x, hx⟩ := hnumbers key hkey
    rw [property_reparseEntries, hx, reparse_number_iff]
    constructor
    · exact fun hx => ⟨x, hx, rfl⟩
    · rintro ⟨y, hy, heq⟩
      cases heq
      exact hy
  have hdefined : ∀ key ∈ numberFields,
      property (reparseEntries N (filled N entries)) key ≠ .undefined := by
    intro key hkey
    obtain ⟨x, hx⟩ := hnumbers key hkey
    rw [property_reparseEntries, hx, reparse]
    split
    · exact fun heq => by cases heq
    · exact fun heq => by cases heq
  constructor
  · intro haccepted key hkey
    refine (hfinite key hkey).mp ?_
    have hall : ∀ key ∈ numberFields,
        ∃ y, property (reparseEntries N (filled N entries)) key = .number y := by
      simp only [numberFields, List.map_cons, List.map_nil, List.forall_mem_cons] at hdefined ⊢
      obtain ⟨-, hattempts, hnextRetryAt, -⟩ := hdefined
      exact ⟨haccepted.createdAt, haccepted.attempts.resolve_left hattempts,
        haccepted.nextRetryAt.resolve_left hnextRetryAt, fun _ h => by cases h⟩
    exact hall key hkey
  · intro hall
    have hback : ∀ key ∈ numberFields,
        ∃ y, property (reparseEntries N (filled N entries)) key = .number y :=
      fun key hkey => (hfinite key hkey).mpr (hall key hkey)
    simp only [numberFields, List.map_cons, List.map_nil, List.forall_mem_cons] at hback
    obtain ⟨hcreatedAt, hattempts, hnextRetryAt, -⟩ := hback
    refine ⟨?_, hcreatedAt, .inr hattempts, .inr hnextRetryAt,
      validateSyncItem_reparse h.accepted_filled⟩
    obtain ⟨s, hs, hid⟩ := h.id_filled (N := N)
    exact ⟨s, hs, by rw [property_reparseEntries, hid, reparse]⟩

end Acceptable

/-- For every text that is accepted: the item passes the checks, has an id, and has its
three numbers. It has a text, and that text is accepted exactly when the three numbers are
finite, as the item itself, read from its text. -/
theorem accepted_item_comes_back_iff (hN : N.Lawful) {text : JsString} {item : JsValue ν}
    (h : deserializeSyncItem N text = .ok item) :
    validateSyncItem item = .ok () ∧ (∃ s, s ≠ [] ∧ item.get (utf16 "id") = .string s) ∧
      (∀ key ∈ numberFields, ∃ x, item.get key = .number x) ∧
      ∃ text', serializeSyncItem N item = .ok (some text') ∧
        ∀ item', deserializeSyncItem N text' = .ok item' ↔
          item' = reparse N item ∧ Finite N item := by
  obtain ⟨entries, hparse, haccepted, rfl⟩ := deserializeSyncItem_eq_ok_iff.mp h
  have hparsed := haccepted.parsed_filled (N := N) (parsed_parse hparse)
  obtain ⟨text', hstringify, hparse'⟩ := parse_stringify hN hparsed
  refine ⟨haccepted.accepted_filled, haccepted.id_filled, haccepted.numbers_filled, text', ?_, ?_⟩
  · rw [serializeSyncItem, hstringify]
  · intro item'
    rw [reparse] at hparse' ⊢
    rw [deserializeSyncItem_eq_ok_iff, ← haccepted.reparse_filled_iff]
    have hfilled : Acceptable (reparseEntries N (filled N entries)) →
        filled N (reparseEntries N (filled N entries)) = reparseEntries N (filled N entries) := by
      intro hagain
      have hfinite := haccepted.reparse_filled_iff.mp hagain
      have hnumber : ∀ key ∈ numberFields,
          ∃ y, property (reparseEntries N (filled N entries)) key = .number y := by
        intro key hkey
        obtain ⟨x, hx, heq⟩ := hfinite key hkey
        have hget : property (filled N entries) key = .number x := heq
        rw [property_reparseEntries, hget]
        exact reparse_number_iff.mpr hx
      have hnodup : ((reparseEntries N (filled N entries)).map Prod.fst).Nodup := by
        rw [keys_reparseEntries]
        cases hparsed with
        | object hordered hentries => exact hordered.nodup
      exact filled_eq_self hnodup (hnumber _ (by decide)) (hnumber _ (by decide))
    constructor
    · rintro ⟨entries', hentries', hagain, rfl⟩
      rw [hparse'] at hentries'
      cases hentries'
      exact ⟨by rw [hfilled hagain], hagain⟩
    · rintro ⟨rfl, hagain⟩
      exact ⟨_, hparse', hagain, by rw [hfilled hagain]⟩

section Sample

/-- The numbers of one digit. Any longer token is too large. -/
def cappedNumbers : JsNumbers (Option (Fin 10)) where
  toText x := (x.map fun d => [(0x30 + d.val).toUInt16]).getD (utf16 "Infinity")
  ofText s :=
    if s.length = 1 then
      some ⟨((s.headD 0x30).toNat - 0x30) % 10, Nat.mod_lt _ (Nat.succ_pos 9)⟩
    else none
  isFinite x := x.isSome
  strictEq x y := x = y
  zero := some ⟨0, Nat.succ_pos 9⟩

theorem cappedNumbers_lawful : cappedNumbers.Lawful := by
  constructor
  · decide
  · decide
  · intro x hx
    revert x
    change ∀ x : Option (Fin 10), x.isSome = true →
      cappedNumbers.ofText (cappedNumbers.toText x) = x
    decide
  · rfl

/-- The tokens 7 and 77. -/
def token (large : Bool) : JsString := if large then [0x37, 0x37] else [0x37]

/-- A list for headers, a nested field that nothing looks at, and no attempts. -/
def oddText (large : Bool) : JsString :=
  Json.print token (.object
    [(utf16 "id", .string (utf16 "A")), (utf16 "method", .string (utf16 "GET")),
      (utf16 "url", .string (utf16 "http://a")), (utf16 "headers", .array [.string (utf16 "b")]),
      (utf16 "x", .object [(utf16 "7", .array [.number true])]),
      (utf16 "createdAt", .number large)])

def oddEntries (large : Bool) : List (JsString × JsValue (Option (Fin 10))) :=
  [(utf16 "id", .string (utf16 "A")), (utf16 "method", .string (utf16 "GET")),
    (utf16 "url", .string (utf16 "http://a")), (utf16 "headers", .array [.string (utf16 "b")]),
    (utf16 "x", .object [(utf16 "7", .array [.number none])]),
    (utf16 "createdAt", .number (cappedNumbers.ofText (token large)))]

theorem deserializeSyncItem_oddText (large : Bool) :
    deserializeSyncItem cappedNumbers (oddText large) =
      .ok (.object (filled cappedNumbers (oddEntries large))) := by
  have hparse : JSON.parse cappedNumbers (oddText large) = some (.object (oddEntries large)) := by
    rw [JSON.parse, oddText, Json.parse_print cappedNumbers.ofText (by decide)]
    cases large with
    | false => rfl
    | true => rfl
  refine deserializeSyncItem_eq_ok_iff.mpr ⟨_, hparse, ⟨?_, ?_, .inl rfl, .inl rfl, rfl⟩, rfl⟩
  · exact ⟨utf16 "A", by decide, rfl⟩
  · exact ⟨_, rfl⟩

/-- With the number 7 it comes back, and with 77, which is too large, it does not. -/
theorem accepted_item_comes_back_when_finite :
    (∃ item text', deserializeSyncItem cappedNumbers (oddText false) = .ok item ∧
      serializeSyncItem cappedNumbers item = .ok (some text') ∧
      deserializeSyncItem cappedNumbers text' = .ok (reparse cappedNumbers item)) ∧
    ∃ item text', deserializeSyncItem cappedNumbers (oddText true) = .ok item ∧
      serializeSyncItem cappedNumbers item = .ok (some text') ∧
      ∀ item', deserializeSyncItem cappedNumbers text' ≠ .ok item' := by
  have hsmall := deserializeSyncItem_oddText false
  have hlarge := deserializeSyncItem_oddText true
  obtain ⟨-, -, -, text', htext, hback⟩ := accepted_item_comes_back_iff cappedNumbers_lawful hsmall
  obtain ⟨-, -, -, text'', htext', hback'⟩ :=
    accepted_item_comes_back_iff cappedNumbers_lawful hlarge
  refine ⟨⟨_, text', hsmall, htext, (hback _).mpr ⟨rfl, ?_⟩⟩, _, text'', hlarge, htext', ?_⟩
  · simp only [Finite, numberFields, List.map_cons, List.map_nil, List.forall_mem_cons]
    exact ⟨⟨some 7, rfl, rfl⟩, ⟨some 0, rfl, rfl⟩, ⟨some 0, rfl, rfl⟩, nofun⟩
  · intro item' hitem'
    obtain ⟨x, hx, hget⟩ := ((hback' item').mp hitem').2 (utf16 "createdAt") (by decide)
    have hinfinite : property (filled cappedNumbers (oddEntries true)) (utf16 "createdAt") =
        .number none := rfl
    cases hinfinite.symm.trans hget
    cases hx

end Sample

end SyncProvider.Js
