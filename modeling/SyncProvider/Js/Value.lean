import SyncProvider.Spec
import Mathlib.Algebra.Group.Nat.Defs
import Mathlib.Data.List.Nodup
import Mathlib.Data.List.TakeWhile

/-!
# JS: values

What the facade inspects of an argument whose type nothing has checked. Texts are
sequences of UTF-16 units. The type of numbers is a parameter.

Properties are data properties of the object itself. The arrays inside an argument
have no holes.

Results:
1. `property_setProperty` : a property after one is set.
2. `copied_eq` : the copy of an object has its properties in its order.
-/

namespace SyncProvider.Js

/-- A string: its UTF-16 units. -/
abbrev JsString := List UInt16

/-- The units of a character. -/
def utf16Units (c : Char) : JsString :=
  if c.toNat < 0x10000 then [c.toNat.toUInt16]
  else
    let v := c.toNat - 0x10000
    [(0xD800 + v / 0x400).toUInt16, (0xDC00 + v % 0x400).toUInt16]

def utf16 (s : String) : JsString := s.toList.flatMap utf16Units

/-- The results of `typeof`. -/
inductive JsType where
  | undefined | object | boolean | number | bigint | string | symbol | function
  deriving DecidableEq

inductive JsValue (ν : Type) where
  | undefined
  | null
  | boolean (b : Bool)
  | number (x : ν)
  | bigint (n : Int)
  | string (s : JsString)
  | symbol
  | function
  /-- The enumerable properties, in the order of `Object.keys`. -/
  | object (entries : List (JsString × JsValue ν))
  | array (elements : List (JsValue ν))

variable {ν : Type}

/-- A property of an object, undefined when it is absent. -/
def property (entries : List (JsString × JsValue ν)) (key : JsString) : JsValue ν :=
  ((entries.find? fun entry => entry.1 == key).map Prod.snd).getD .undefined

namespace JsValue

def typeOf : JsValue ν → JsType
  | undefined => .undefined
  | null | object _ | array _ => .object
  | boolean _ => .boolean
  | number _ => .number
  | bigint _ => .bigint
  | string _ => .string
  | symbol => .symbol
  | function => .function

/-- `typeof v === 'object'` and not null. -/
def isObject : JsValue ν → Bool
  | object _ | array _ => true
  | _ => false

def isUndefined : JsValue ν → Bool
  | undefined => true
  | _ => false

/-- The properties of an object. Those of an array are its indices. -/
def entries : JsValue ν → List (JsString × JsValue ν)
  | object entries => entries
  | array elements => elements.zipIdx.map fun (v, i) => (utf16 (toString i), v)
  | _ => []

/-- `Object.keys`, of an object. -/
def keys (v : JsValue ν) : List JsString := v.entries.map Prod.fst

/-- `v[key]`, of an object. -/
def get (v : JsValue ν) (key : JsString) : JsValue ν := property v.entries key

theorem isUndefined_iff {v : JsValue ν} : v.isUndefined = true ↔ v.typeOf = .undefined := by
  cases v <;> simp [isUndefined, typeOf]

end JsValue

/-! ## Properties that are set -/

/-- The number a key is, if it is an array index. -/
def arrayIndex? (key : JsString) : Option ℕ :=
  if key != [] && key.all (fun u => 0x30 ≤ u && u ≤ 0x39) &&
      (key.length == 1 || key.head? != some 0x30) then
    let n := key.foldl (fun n u => 10 * n + (u.toNat - 0x30)) 0
    if n < 2 ^ 32 - 1 then some n else none
  else none

/-- The property is an array index below `n`. -/
def indexBelow (n : ℕ) (entry : JsString × JsValue ν) : Bool :=
  (arrayIndex? entry.1).any fun m => m < n

/-- `CreateDataProperty`. The array indices come first, in ascending order, and the other
keys in the order in which they were set. -/
def setProperty (entries : List (JsString × JsValue ν)) (key : JsString) (v : JsValue ν) :
    List (JsString × JsValue ν) :=
  if entries.any fun entry => entry.1 == key then
    entries.map fun entry => if entry.1 == key then (key, v) else entry
  else
    match arrayIndex? key with
    | none => entries ++ [(key, v)]
    | some n => entries.takeWhile (indexBelow n) ++ (key, v) :: entries.dropWhile (indexBelow n)

/-- The properties of another object, set one after the other. -/
def copied (entries : List (JsString × JsValue ν)) : List (JsString × JsValue ν) :=
  entries.foldl (fun copy entry => setProperty copy entry.1 entry.2) []

/-- A key that was set first comes first. -/
def Precedes (key key' : JsString) : Prop :=
  match arrayIndex? key, arrayIndex? key' with
  | some m, some n => m < n
  | none, some _ => False
  | _, none => True

/-- The order in which any object has its properties. -/
structure KeysOrdered (entries : List (JsString × JsValue ν)) : Prop where
  nodup : (entries.map Prod.fst).Nodup
  pairwise : entries.Pairwise fun entry entry' => Precedes entry.1 entry'.1

/-! ## 1. Single properties -/

@[simp] theorem property_nil (key : JsString) : property ([] : List (JsString × JsValue ν)) key =
    .undefined := rfl

theorem property_cons (entry : JsString × JsValue ν) (entries : List (JsString × JsValue ν))
    (key : JsString) :
    property (entry :: entries) key =
      if entry.1 = key then entry.2 else property entries key := by
  unfold property
  rw [List.find?_cons]
  by_cases h : entry.1 = key
  · simp [h]
  · simp [h, beq_false_of_ne h]

theorem property_of_notMem {entries : List (JsString × JsValue ν)} {key : JsString}
    (h : key ∉ entries.map Prod.fst) : property entries key = .undefined := by
  induction entries with
  | nil => rfl
  | cons entry entries ih =>
    rw [List.map_cons, List.mem_cons, not_or] at h
    rw [property_cons, if_neg (Ne.symm h.1), ih h.2]

theorem property_of_mem {entries : List (JsString × JsValue ν)} {entry : JsString × JsValue ν}
    (hnodup : (entries.map Prod.fst).Nodup) (h : entry ∈ entries) :
    property entries entry.1 = entry.2 := by
  induction entries with
  | nil => cases h
  | cons entry' entries ih =>
    rw [List.map_cons, List.nodup_cons] at hnodup
    rw [property_cons]
    rcases List.mem_cons.mp h with rfl | h
    · rw [if_pos rfl]
    · have hne : entry'.1 ≠ entry.1 := by
        intro heq
        exact hnodup.1 (heq ▸ List.mem_map_of_mem h)
      rw [if_neg hne, ih hnodup.2 h]

theorem property_append (entries entries' : List (JsString × JsValue ν)) (key : JsString) :
    property (entries ++ entries') key =
      if key ∈ entries.map Prod.fst then property entries key else property entries' key := by
  induction entries with
  | nil => rfl
  | cons entry entries ih =>
    rw [List.cons_append, property_cons, property_cons, ih, List.map_cons]
    by_cases h : entry.1 = key
    · rw [if_pos h, if_pos h, if_pos (List.mem_cons.mpr (.inl h.symm))]
    · rw [if_neg h, if_neg h]
      by_cases hmem : key ∈ entries.map Prod.fst
      · rw [if_pos hmem, if_pos (List.mem_cons_of_mem _ hmem)]
      · have hmem' : key ∉ entry.1 :: entries.map Prod.fst := by
          rw [List.mem_cons, not_or]
          exact ⟨Ne.symm h, hmem⟩
        rw [if_neg hmem, if_neg hmem']

/-- A property whose value is replaced. -/
theorem property_replaced_self {entries : List (JsString × JsValue ν)} {key : JsString}
    (h : key ∈ entries.map Prod.fst) (v : JsValue ν) :
    property (entries.map fun entry => if entry.1 == key then (key, v) else entry) key = v := by
  induction entries with
  | nil => cases h
  | cons entry entries ih =>
    rw [List.map_cons, property_cons]
    by_cases hentry : entry.1 = key
    · simp [hentry]
    · rw [List.map_cons] at h
      have hmem := (List.mem_cons.mp h).resolve_left (Ne.symm hentry)
      rw [ih hmem]
      simp [hentry]

theorem property_replaced_of_ne {key key' : JsString} (h : key' ≠ key)
    (entries : List (JsString × JsValue ν)) (v : JsValue ν) :
    property (entries.map fun entry => if entry.1 == key then (key, v) else entry) key' =
      property entries key' := by
  induction entries with
  | nil => rfl
  | cons entry entries ih =>
    rw [List.map_cons, property_cons, property_cons, ih]
    by_cases hentry : entry.1 = key
    · simp [hentry, h.symm]
    · simp [hentry]

/-- A property that comes in somewhere. -/
theorem property_inserted {entries entries' : List (JsString × JsValue ν)} {key : JsString}
    (h : key ∉ (entries ++ entries').map Prod.fst) (v : JsValue ν) (key' : JsString) :
    property (entries ++ (key, v) :: entries') key' =
      if key' = key then v else property (entries ++ entries') key' := by
  rw [List.map_append, List.mem_append, not_or] at h
  rw [property_append, property_append, property_cons]
  by_cases hkey : key' = key
  · rw [hkey, if_neg h.1, if_pos rfl, if_pos rfl]
  · rw [if_neg hkey, if_neg (Ne.symm hkey)]

theorem property_setProperty (entries : List (JsString × JsValue ν)) (key : JsString)
    (v : JsValue ν) (key' : JsString) :
    property (setProperty entries key v) key' =
      if key' = key then v else property entries key' := by
  unfold setProperty
  split
  · rename_i hany
    have hmem : key ∈ entries.map Prod.fst := by
      obtain ⟨entry, hentry, heq⟩ := List.any_eq_true.mp hany
      exact List.mem_map.mpr ⟨entry, hentry, eq_of_beq heq⟩
    by_cases hkey : key' = key
    · rw [if_pos hkey, hkey, property_replaced_self hmem]
    · rw [if_neg hkey, property_replaced_of_ne hkey]
  · rename_i hany
    have hnot : key ∉ entries.map Prod.fst := by
      intro hmem
      obtain ⟨entry, hentry, rfl⟩ := List.mem_map.mp hmem
      exact hany (List.any_eq_true.mpr ⟨entry, hentry, beq_self_eq_true _⟩)
    split
    · have hsplit : (entries ++ []).map Prod.fst = entries.map Prod.fst := by rw [List.append_nil]
      rw [property_inserted (hsplit ▸ hnot), List.append_nil]
    · rename_i n _
      have hsplit : entries.takeWhile (indexBelow n) ++ entries.dropWhile (indexBelow n) =
          entries := List.takeWhile_append_dropWhile
      rw [property_inserted (hsplit.symm ▸ hnot), hsplit]

/-! ## 2. The order -/

/-- What comes last is set last. -/
theorem setProperty_of_last {entries : List (JsString × JsValue ν)} {key : JsString}
    (hnew : key ∉ entries.map Prod.fst) (hlast : ∀ entry ∈ entries, Precedes entry.1 key)
    (v : JsValue ν) : setProperty entries key v = entries ++ [(key, v)] := by
  have hany : entries.any (fun entry => entry.1 == key) = false := by
    rw [List.any_eq_false]
    intro entry hentry heq
    exact hnew (eq_of_beq heq ▸ List.mem_map_of_mem hentry)
  rw [setProperty, hany]
  simp only [Bool.false_eq_true, if_false]
  cases hindex : arrayIndex? key with
  | none => rfl
  | some n =>
    have hbelow : ∀ entry ∈ entries, indexBelow n entry = true := by
      intro entry hentry
      have hprecedes := hlast entry hentry
      unfold Precedes at hprecedes
      rw [hindex] at hprecedes
      cases hentryIndex : arrayIndex? entry.1 with
      | none =>
        rw [hentryIndex] at hprecedes
        exact hprecedes.elim
      | some m =>
        rw [hentryIndex] at hprecedes
        simp only [indexBelow, hentryIndex, Option.any_some, decide_eq_true_eq]
        exact hprecedes
    have htake := List.takeWhile_eq_self_iff.mpr hbelow
    have hdrop := List.dropWhile_eq_nil_iff.mpr hbelow
    simp only [htake, hdrop]

theorem precedes_of_none (key : JsString) {key' : JsString} (h : arrayIndex? key' = none) :
    Precedes key key' := by
  unfold Precedes
  rw [h]
  cases arrayIndex? key <;> trivial

/-- Different keys, of which the first may be an index. -/
theorem KeysOrdered.of_tail {entries : List (JsString × JsValue ν)}
    (hnodup : (entries.map Prod.fst).Nodup)
    (h : ∀ entry ∈ entries.tail, arrayIndex? entry.1 = none) : KeysOrdered entries := by
  refine ⟨hnodup, ?_⟩
  cases entries with
  | nil => exact .nil
  | cons entry entries =>
    refine List.pairwise_cons.mpr ⟨fun entry' hentry' => precedes_of_none _ (h entry' hentry'), ?_⟩
    exact List.pairwise_of_forall_mem_list fun _ _ entry' hentry' =>
      precedes_of_none _ (h entry' hentry')

theorem foldl_setProperty {entries done : List (JsString × JsValue ν)}
    (h : KeysOrdered (done ++ entries)) :
    entries.foldl (fun copy entry => setProperty copy entry.1 entry.2) done = done ++ entries := by
  induction entries generalizing done with
  | nil => rw [List.foldl_nil, List.append_nil]
  | cons entry entries ih =>
    have hnew : entry.1 ∉ done.map Prod.fst := by
      have hnodup := h.nodup
      rw [List.map_append, List.nodup_append] at hnodup
      intro hmem
      exact hnodup.2.2 _ hmem _ List.mem_cons_self rfl
    have hlast : ∀ entry' ∈ done, Precedes entry'.1 entry.1 := by
      intro entry' hentry'
      exact (List.pairwise_append.mp h.pairwise).2.2 entry' hentry' entry List.mem_cons_self
    have hsplit : done ++ entry :: entries = (done ++ [entry]) ++ entries := by simp
    rw [List.foldl_cons, setProperty_of_last hnew hlast, ih (hsplit ▸ h), ← hsplit]

theorem copied_eq {entries : List (JsString × JsValue ν)} (h : KeysOrdered entries) :
    copied entries = entries := by
  rw [copied, foldl_setProperty (by exact h), List.nil_append]

/-- A property that is no index is set last, or where it was. -/
theorem KeysOrdered.setProperty {entries : List (JsString × JsValue ν)} (h : KeysOrdered entries)
    {key : JsString} (hkey : arrayIndex? key = none) (v : JsValue ν) :
    KeysOrdered (setProperty entries key v) := by
  by_cases hmem : key ∈ entries.map Prod.fst
  · have hany : entries.any (fun entry => entry.1 == key) = true := by
      obtain ⟨entry, hentry, heq⟩ := List.mem_map.mp hmem
      exact List.any_eq_true.mpr ⟨entry, hentry, beq_iff_eq.mpr heq⟩
    have hfst : ∀ entry : JsString × JsValue ν,
        (if entry.1 == key then (key, v) else entry).1 = entry.1 := by
      intro entry
      by_cases heq : entry.1 = key
      · simp [heq]
      · simp [heq]
    rw [Js.setProperty, if_pos hany]
    refine ⟨?_, ?_⟩
    · rw [List.map_map]
      have hkeys : (Prod.fst ∘ fun entry : JsString × JsValue ν =>
          if entry.1 == key then (key, v) else entry) = Prod.fst := funext hfst
      rw [hkeys]
      exact h.nodup
    · rw [List.pairwise_map]
      simp only [hfst]
      exact h.pairwise
  · have hprecedes : ∀ entry : JsString × JsValue ν, Precedes entry.1 key :=
      fun entry => precedes_of_none entry.1 hkey
    rw [setProperty_of_last hmem fun entry _ => hprecedes entry]
    refine ⟨?_, ?_⟩
    · rw [List.map_append, List.nodup_append]
      refine ⟨h.nodup, List.nodup_singleton _, ?_⟩
      intro key' hkey' key'' hkey''
      rw [List.map_singleton, List.mem_singleton] at hkey''
      rw [hkey'']
      intro heq
      have hkeyeq : key' = key := heq
      exact hmem (hkeyeq ▸ hkey')
    · rw [List.pairwise_append]
      refine ⟨h.pairwise, List.pairwise_singleton _ _, ?_⟩
      intro entry _ entry' hentry'
      rw [List.mem_singleton.mp hentry']
      exact hprecedes entry

end SyncProvider.Js
