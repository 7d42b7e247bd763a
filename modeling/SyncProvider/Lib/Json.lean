import Mathlib.Data.List.Forall2
import Mathlib.Tactic.Common

/-!
# JSON texts

The text of a value and the parser, over UTF-16 units. A text without spaces is
printed; the parser takes any text of the grammar. How numbers are written and read is
a parameter: a printed number must be a number token, and nothing else is asked of it.

An object keeps the members of its text, in order and with duplicates.

Results:
1. `readString_quote` : strings come back, lone surrogates too.
2. `value_print` : a printed value is parsed, whatever comes after it.
3. `parse_print` : the round trip.
-/

/-- A text: its UTF-16 units. -/
abbrev JsonText := List UInt16

inductive Json (ν : Type) where
  | null
  | bool (b : Bool)
  | number (x : ν)
  | string (s : JsonText)
  | array (elements : List (Json ν))
  | object (members : List (JsonText × Json ν))

namespace Json

variable {ν ν' : Type}

/-- The units of an ASCII text. -/
def units (s : String) : JsonText := s.toList.map fun c => c.toNat.toUInt16

/-! ## Printing -/

def isHigh (u : UInt16) : Bool := 0xD800 ≤ u && u ≤ 0xDBFF

def isLow (u : UInt16) : Bool := 0xDC00 ≤ u && u ≤ 0xDFFF

/-- A digit in base 16, in lower case. -/
def hexDigit (n : ℕ) : UInt16 := (if n < 10 then 0x30 + n else 0x57 + n).toUInt16

def unicodeEscape (u : UInt16) : JsonText :=
  [0x5C, 0x75, hexDigit (u.toNat / 4096), hexDigit (u.toNat / 256 % 16),
    hexDigit (u.toNat / 16 % 16), hexDigit (u.toNat % 16)]

/-- The letter of an escape of two characters. -/
def shortEscape (u : UInt16) : Option UInt16 :=
  if u = 0x08 then some 0x62
  else if u = 0x09 then some 0x74
  else if u = 0x0A then some 0x6E
  else if u = 0x0C then some 0x66
  else if u = 0x0D then some 0x72
  else if u = 0x22 then some 0x22
  else if u = 0x5C then some 0x5C
  else none

/-- A unit that is no part of a surrogate pair. -/
def quoteUnit (u : UInt16) : JsonText :=
  match shortEscape u with
  | some e => [0x5C, e]
  | none => if u < 0x20 || isHigh u || isLow u then unicodeEscape u else [u]

def quoteUnits : JsonText → JsonText
  | [] => []
  | [u] => quoteUnit u
  | u :: v :: s =>
    if isHigh u && isLow v then u :: v :: quoteUnits s else quoteUnit u ++ quoteUnits (v :: s)

def quote (s : JsonText) : JsonText := 0x22 :: (quoteUnits s ++ [0x22])

section Print

variable (toText : ν → JsonText)

mutual

def print : Json ν → JsonText
  | null => units "null"
  | bool b => units (if b then "true" else "false")
  | number x => toText x
  | string s => quote s
  | array elements => 0x5B :: (printElements elements ++ [0x5D])
  | object members => 0x7B :: (printMembers members ++ [0x7D])

def printElements : List (Json ν) → JsonText
  | [] => []
  | e :: es => print e ++ if es.isEmpty then [] else 0x2C :: printElements es

def printMembers : List (JsonText × Json ν) → JsonText
  | [] => []
  | (key, e) :: es =>
    quote key ++ 0x3A :: (print e ++ if es.isEmpty then [] else 0x2C :: printMembers es)

end

end Print

/-! ## Parsing -/

def isSpace (u : UInt16) : Bool := u == 0x20 || u == 0x0A || u == 0x0D || u == 0x09

/-- The text after spaces and this unit. -/
def expect (u : UInt16) (s : JsonText) : Option JsonText :=
  match s.dropWhile isSpace with
  | [] => none
  | v :: s => if v = u then some s else none

def isDigit (u : UInt16) : Bool := 0x30 ≤ u && u ≤ 0x39

def hexValue (u : UInt16) : Option ℕ :=
  if isDigit u then some (u.toNat - 0x30)
  else if 0x61 ≤ u && u ≤ 0x66 then some (u.toNat - 0x57)
  else if 0x41 ≤ u && u ≤ 0x46 then some (u.toNat - 0x37)
  else none

def hexUnit (a b c d : UInt16) : Option UInt16 := do
  let a ← hexValue a
  let b ← hexValue b
  let c ← hexValue c
  let d ← hexValue d
  return (4096 * a + 256 * b + 16 * c + d).toUInt16

/-- The unit that a letter after a backslash stands for. -/
def escaped (u : UInt16) : Option UInt16 :=
  if u = 0x22 || u = 0x5C || u = 0x2F then some u
  else if u = 0x62 then some 0x08
  else if u = 0x66 then some 0x0C
  else if u = 0x6E then some 0x0A
  else if u = 0x72 then some 0x0D
  else if u = 0x74 then some 0x09
  else none

/-- A string after its opening quote, and what comes after it. -/
def readString : JsonText → Option (JsonText × JsonText)
  | [] => none
  | u :: s =>
    if u = 0x22 then some ([], s)
    else if u = 0x5C then
      match s with
      | [] => none
      | e :: s =>
        if e = 0x75 then
          match s with
          | a :: b :: c :: d :: s =>
            (hexUnit a b c d).bind fun u => (readString s).map fun p => (u :: p.1, p.2)
          | _ => none
        else (escaped e).bind fun u => (readString s).map fun p => (u :: p.1, p.2)
    else if u < 0x20 then none
    else (readString s).map fun p => (u :: p.1, p.2)

/-- A unit of a number token. -/
def isNumberUnit (u : UInt16) : Bool :=
  isDigit u || u == 0x2B || u == 0x2D || u == 0x2E || u == 0x45 || u == 0x65

/-- An exponent, or the end. -/
def isExponent (s : JsonText) : Bool :=
  match s with
  | [] => true
  | e :: s =>
    let digits := match s with
      | [] => []
      | sign :: rest => if sign = 0x2B || sign = 0x2D then rest else s
    (e == 0x65 || e == 0x45) && digits != [] && digits.all isDigit

/-- A fraction, if any, and an exponent. -/
def isFraction (s : JsonText) : Bool :=
  match s with
  | 0x2E :: d :: s => isDigit d && isExponent (s.dropWhile isDigit)
  | _ => isExponent s

/-- The grammar of numbers. -/
def isNumber (s : JsonText) : Bool :=
  let digits := match s with
    | [] => []
    | sign :: rest => if sign = 0x2D then rest else s
  s.all isNumberUnit &&
    match digits with
    | [] => false
    | d :: rest => isDigit d && isFraction (if d = 0x30 then rest else rest.dropWhile isDigit)

def dropText : JsonText → JsonText → Option JsonText
  | [], s => some s
  | c :: cs, u :: s => if c = u then dropText cs s else none
  | _ :: _, [] => none

section Parse

variable (ofText : JsonText → ν)

/-- A literal name or a number. -/
def atom (s : JsonText) : Option (Json ν × JsonText) :=
  match dropText (units "null") s with
  | some s => some (null, s)
  | none =>
    match dropText (units "true") s with
    | some s => some (bool true, s)
    | none =>
      match dropText (units "false") s with
      | some s => some (bool false, s)
      | none =>
        let token := s.takeWhile isNumberUnit
        if isNumber token then some (number (ofText token), s.dropWhile isNumberUnit) else none

mutual

/-- A value, and what comes after it. -/
def value : ℕ → JsonText → Option (Json ν × JsonText)
  | 0, _ => none
  | fuel + 1, s =>
    match expect 0x7B s with
    | some s =>
      match expect 0x7D s with
      | some s => some (object [], s)
      | none => (members fuel s).map fun p => (object p.1, p.2)
    | none =>
      match expect 0x5B s with
      | some s =>
        match expect 0x5D s with
        | some s => some (array [], s)
        | none => (elements fuel s).map fun p => (array p.1, p.2)
      | none =>
        match expect 0x22 s with
        | some s => (readString s).map fun p => (string p.1, p.2)
        | none => atom ofText (s.dropWhile isSpace)

/-- One element or more, up to the bracket. -/
def elements : ℕ → JsonText → Option (List (Json ν) × JsonText)
  | 0, _ => none
  | fuel + 1, s =>
    (value fuel s).bind fun p =>
      match expect 0x2C p.2 with
      | some s => (elements fuel s).map fun q => (p.1 :: q.1, q.2)
      | none => (expect 0x5D p.2).map fun s => ([p.1], s)

/-- One member or more, up to the brace. -/
def members : ℕ → JsonText → Option (List (JsonText × Json ν) × JsonText)
  | 0, _ => none
  | fuel + 1, s =>
    ((expect 0x22 s).bind readString).bind fun key =>
      ((expect 0x3A key.2).bind (value fuel)).bind fun p =>
        match expect 0x2C p.2 with
        | some s => (members fuel s).map fun q => ((key.1, p.1) :: q.1, q.2)
        | none => (expect 0x7D p.2).map fun s => ([(key.1, p.1)], s)

end

/-- The value of a text. -/
def parse (s : JsonText) : Option (Json ν) :=
  match value ofText (s.length + 1) s with
  | some (j, rest) => if (rest.dropWhile isSpace).isEmpty then some j else none
  | none => none

end Parse

/-! ## Numbers replaced -/

section Map

variable (f : ν → ν')

mutual

def map : Json ν → Json ν'
  | null => null
  | bool b => bool b
  | number x => number (f x)
  | string s => string s
  | array elements => array (mapElements elements)
  | object members => object (mapMembers members)

def mapElements : List (Json ν) → List (Json ν')
  | [] => []
  | e :: es => map e :: mapElements es

def mapMembers : List (JsonText × Json ν) → List (JsonText × Json ν')
  | [] => []
  | (key, e) :: es => (key, map e) :: mapMembers es

end

end Map

/-! ## 1. Strings -/

theorem hexValue_hexDigit {n : ℕ} (h : n < 16) : hexValue (hexDigit n) = some n := by
  have hall : ∀ n < 16, hexValue (hexDigit n) = some n := by decide
  exact hall n h

theorem hexUnit_hexDigits (u : UInt16) :
    hexUnit (hexDigit (u.toNat / 4096)) (hexDigit (u.toNat / 256 % 16))
      (hexDigit (u.toNat / 16 % 16)) (hexDigit (u.toNat % 16)) = some u := by
  have hu : u.toNat < 65536 := u.toNat_lt
  have hsum : 4096 * (u.toNat / 4096) + 256 * (u.toNat / 256 % 16) + 16 * (u.toNat / 16 % 16) +
      u.toNat % 16 = u.toNat := by omega
  simp only [hexUnit, hexValue_hexDigit (show u.toNat / 4096 < 16 by omega),
    hexValue_hexDigit (show u.toNat / 256 % 16 < 16 by omega),
    hexValue_hexDigit (show u.toNat / 16 % 16 < 16 by omega),
    hexValue_hexDigit (show u.toNat % 16 < 16 by omega), Option.bind_eq_bind, Option.bind_some,
    hsum]
  exact congrArg some UInt16.ofNat_toNat

theorem escaped_shortEscape {u e : UInt16} (h : shortEscape u = some e) :
    e ≠ 0x75 ∧ escaped e = some u := by
  unfold shortEscape at h
  split_ifs at h with h1 h2 h3 h4 h5 h6 h7 <;> cases h <;> subst u <;> decide

theorem plain_of_shortEscape {u : UInt16} (h : shortEscape u = none) : u ≠ 0x22 ∧ u ≠ 0x5C := by
  constructor
  · rintro rfl
    cases h
  · rintro rfl
    cases h

theorem readString_plain {u : UInt16} (hquote : u ≠ 0x22) (hslash : u ≠ 0x5C) (hctl : ¬ u < 0x20)
    (s : JsonText) : readString (u :: s) = (readString s).map fun p => (u :: p.1, p.2) := by
  rw [readString.eq_def]
  simp only [if_neg hquote, if_neg hslash, if_neg hctl]

theorem readString_end (s : JsonText) : readString (0x22 :: s) = some ([], s) := by
  rw [readString.eq_def]
  simp only [if_true]

theorem readString_unicodeEscape (u : UInt16) (s : JsonText) :
    readString (unicodeEscape u ++ s) = (readString s).map fun p => (u :: p.1, p.2) := by
  have hquote : ¬ (0x5C : UInt16) = 0x22 := by decide
  simp only [unicodeEscape, List.cons_append, List.nil_append]
  rw [readString.eq_def]
  simp only [if_neg hquote, if_true, hexUnit_hexDigits, Option.bind_some]

theorem readString_quoteUnit (u : UInt16) (s : JsonText) :
    readString (quoteUnit u ++ s) = (readString s).map fun p => (u :: p.1, p.2) := by
  unfold quoteUnit
  split
  · rename_i e hescape
    obtain ⟨he, hescaped⟩ := escaped_shortEscape hescape
    have hquote : ¬ (0x5C : UInt16) = 0x22 := by decide
    simp only [List.cons_append, List.nil_append]
    rw [readString.eq_def]
    simp only [if_neg hquote, if_true, if_neg he, hescaped, Option.bind_some]
  · rename_i hescape
    obtain ⟨hquote, hslash⟩ := plain_of_shortEscape hescape
    split
    · exact readString_unicodeEscape u s
    · rename_i hplain
      simp only [Bool.or_eq_true, decide_eq_true_eq, not_or] at hplain
      exact readString_plain hquote hslash hplain.1.1 s

/-- A surrogate stands for itself. -/
theorem readString_surrogate {u : UInt16} (h : 0xD800 ≤ u) (s : JsonText) :
    readString (u :: s) = (readString s).map fun p => (u :: p.1, p.2) := by
  apply readString_plain
  · rintro rfl
    exact absurd h (by decide)
  · rintro rfl
    exact absurd h (by decide)
  · intro hctl
    exact absurd (UInt16.lt_of_le_of_lt h hctl) (by decide)

theorem readString_quoteUnits (s rest : JsonText) :
    readString (quoteUnits s ++ 0x22 :: rest) = some (s, rest) := by
  induction s using quoteUnits.induct with
  | case1 => exact readString_end rest
  | case2 u =>
    rw [quoteUnits, readString_quoteUnit, readString_end]
    rfl
  | case3 u v s hpair ih =>
    obtain ⟨hhigh, hlow⟩ := Bool.and_eq_true_iff.mp hpair
    have hu : 0xD800 ≤ u := of_decide_eq_true (Bool.and_eq_true_iff.mp hhigh).1
    have hv : 0xD800 ≤ v :=
      UInt16.le_trans (by decide) (of_decide_eq_true (Bool.and_eq_true_iff.mp hlow).1)
    rw [quoteUnits, if_pos hpair, List.cons_append, List.cons_append, readString_surrogate hu,
      readString_surrogate hv, ih]
    rfl
  | case4 u v s hpair ih =>
    rw [quoteUnits, if_neg hpair, List.append_assoc, readString_quoteUnit, ih]
    rfl

theorem readString_quote (s rest : JsonText) :
    (expect 0x22 (quote s ++ rest)).bind readString = some (s, rest) := by
  have hexpect : expect 0x22 (quote s ++ rest) = some (quoteUnits s ++ 0x22 :: rest) := by
    simp [expect, quote, isSpace]
  rw [hexpect]
  exact readString_quoteUnits s rest

/-! ## 2. A printed value -/

theorem expect_self {u : UInt16} (hu : isSpace u = false) (s : JsonText) :
    expect u (u :: s) = some s := by
  simp [expect, hu]

theorem expect_of_ne {u v : UInt16} (hv : isSpace v = false) (h : v ≠ u) (s : JsonText) :
    expect u (v :: s) = none := by
  simp [expect, hv, h]

theorem isNumberUnit_of_mem {s : JsonText} (h : isNumber s = true) {u : UInt16} (hu : u ∈ s) :
    isNumberUnit u = true := by
  simp only [isNumber, Bool.and_eq_true] at h
  exact List.all_eq_true.mp h.1 u hu

theorem isNumber_ne_nil {s : JsonText} (h : isNumber s = true) : s ≠ [] := by
  rintro rfl
  cases h

/-- A unit of a number is none of these. -/
theorem ne_of_isNumberUnit {u v : UInt16} (hu : isNumberUnit u = true)
    (hv : isNumberUnit v = false) : u ≠ v := by
  rintro rfl
  rw [hu] at hv
  cases hv

theorem isSpace_of_isNumberUnit {u : UInt16} (hu : isNumberUnit u = true) : isSpace u = false := by
  have hspaces : ([0x20, 0x0A, 0x0D, 0x09] : List UInt16).all (!isNumberUnit ·) = true := by decide
  have hne : ∀ v ∈ ([0x20, 0x0A, 0x0D, 0x09] : List UInt16), (u == v) = false := by
    intro v hv
    have hother : isNumberUnit v = false := by simpa using List.all_eq_true.mp hspaces v hv
    exact beq_false_of_ne (ne_of_isNumberUnit hu hother)
  simp only [List.forall_mem_cons] at hne
  obtain ⟨h1, h2, h3, h4, -⟩ := hne
  simp only [isSpace, h1, h2, h3, h4, Bool.or_false]

/-- What comes after a value: no more of a number. -/
def Ends (s : JsonText) : Prop := ∀ u ∈ s.head?, isNumberUnit u = false

theorem Ends.nil : Ends [] := by
  intro u hu
  cases hu

theorem Ends.cons {u : UInt16} (hu : isNumberUnit u = false) (s : JsonText) : Ends (u :: s) := by
  intro v hv
  cases hv
  exact hu

theorem atom_number {ofText : JsonText → ν} {token rest : JsonText} (h : isNumber token = true)
    (hrest : Ends rest) :
    atom ofText (token ++ rest) = some (number (ofText token), rest) := by
  have htake : (token ++ rest).takeWhile isNumberUnit = token := by
    rw [List.takeWhile_append_of_pos fun u hu => isNumberUnit_of_mem h hu]
    cases rest with
    | nil => simp
    | cons u rest => simp [hrest u rfl]
  have hdrop : (token ++ rest).dropWhile isNumberUnit = rest := by
    rw [List.dropWhile_append_of_pos fun u hu => isNumberUnit_of_mem h hu]
    cases rest with
    | nil => simp
    | cons u rest => simp [hrest u rfl]
  cases htoken : token with
  | nil => exact absurd htoken (isNumber_ne_nil h)
  | cons u us =>
    have hu : isNumberUnit u = true := isNumberUnit_of_mem h (htoken ▸ List.mem_cons_self)
    have hname : ∀ c cs, isNumberUnit c = false →
        dropText (c :: cs) (u :: (us ++ rest)) = none := by
      intro c cs hc
      rw [dropText, if_neg (ne_of_isNumberUnit hu hc).symm]
    have hnull : units "null" = [0x6E, 0x75, 0x6C, 0x6C] := by decide
    have htrue : units "true" = [0x74, 0x72, 0x75, 0x65] := by decide
    have hfalse : units "false" = [0x66, 0x61, 0x6C, 0x73, 0x65] := by decide
    rw [← htoken, atom, htake, hdrop, if_pos h, htoken, List.cons_append, hnull, htrue, hfalse,
      hname 0x6E _ (by decide), hname 0x74 _ (by decide), hname 0x66 _ (by decide)]

section Print

variable {toText : ν → JsonText}

/-- A printed value starts with something, and with no bracket that closes. -/
theorem print_cons (hnumber : ∀ x, isNumber (toText x) = true) (j : Json ν) :
    ∃ u s, print toText j = u :: s ∧ isSpace u = false ∧ u ≠ 0x5D ∧ u ≠ 0x7D := by
  cases j with
  | null => exact ⟨0x6E, units "ull", rfl, rfl, by decide, by decide⟩
  | bool b =>
    cases b with
    | false => exact ⟨0x66, units "alse", rfl, rfl, by decide, by decide⟩
    | true => exact ⟨0x74, units "rue", rfl, rfl, by decide, by decide⟩
  | number x =>
    cases htext : toText x with
    | nil => exact absurd htext (isNumber_ne_nil (hnumber x))
    | cons u s =>
      have hu : isNumberUnit u = true :=
        isNumberUnit_of_mem (hnumber x) (htext ▸ List.mem_cons_self)
      refine ⟨u, s, by rw [print, htext], isSpace_of_isNumberUnit hu, ?_, ?_⟩
      · exact ne_of_isNumberUnit hu (by decide)
      · exact ne_of_isNumberUnit hu (by decide)
  | string s => exact ⟨0x22, _, by rw [print, quote], rfl, by decide, by decide⟩
  | array elements => exact ⟨0x5B, _, by rw [print], rfl, by decide, by decide⟩
  | object members => exact ⟨0x7B, _, by rw [print], rfl, by decide, by decide⟩

theorem length_print_pos (hnumber : ∀ x, isNumber (toText x) = true) (j : Json ν) :
    0 < (print toText j).length := by
  obtain ⟨u, s, h, -⟩ := print_cons hnumber j
  rw [h]
  exact Nat.succ_pos _

/-- A printed list does not look like an empty one. -/
theorem expect_printElements (hnumber : ∀ x, isNumber (toText x) = true) (e : Json ν)
    (es : List (Json ν)) (s : JsonText) :
    expect 0x5D (printElements toText (e :: es) ++ s) = none := by
  obtain ⟨u, t, h, hspace, hne, -⟩ := print_cons hnumber e
  rw [printElements, h]
  exact expect_of_ne hspace hne _

theorem expect_printMembers (m : JsonText × Json ν)
    (ms : List (JsonText × Json ν)) (s : JsonText) :
    expect 0x7D (printMembers toText (m :: ms) ++ s) = none := by
  obtain ⟨key, e⟩ := m
  rw [printMembers, quote]
  exact expect_of_ne rfl (by decide) _

variable (ofText : JsonText → ν')

theorem value_literal {fuel : ℕ} {name : String} {j : Json ν'} {rest : JsonText}
    (h : atom ofText (units name ++ rest) = some (j, rest))
    (hhead : ∃ u s, units name = u :: s ∧ isSpace u = false ∧ u ≠ 0x7B ∧ u ≠ 0x5B ∧ u ≠ 0x22) :
    value ofText (fuel + 1) (units name ++ rest) = some (j, rest) := by
  obtain ⟨u, s, hunits, hspace, hbrace, hbracket, hquote⟩ := hhead
  rw [hunits, List.cons_append] at h ⊢
  have hdrop : (u :: (s ++ rest)).dropWhile isSpace = u :: (s ++ rest) := by simp [hspace]
  rw [value, expect_of_ne hspace hbrace, expect_of_ne hspace hbracket, expect_of_ne hspace hquote,
    hdrop]
  exact h

mutual

/-- The fuel bounds the length of the text. -/
theorem value_print (hnumber : ∀ x, isNumber (toText x) = true) (j : Json ν) (fuel : ℕ)
    {rest : JsonText} (hfuel : (print toText j).length ≤ fuel) (hrest : Ends rest) :
    value ofText fuel (print toText j ++ rest) =
      some (map (fun x => ofText (toText x)) j, rest) := by
  cases fuel with
  | zero => exact absurd hfuel (Nat.not_le.mpr (length_print_pos hnumber j))
  | succ fuel =>
    match j with
    | null => exact value_literal ofText rfl ⟨_, _, rfl, rfl, by decide, by decide, by decide⟩
    | bool true => exact value_literal ofText rfl ⟨_, _, rfl, rfl, by decide, by decide, by decide⟩
    | bool false =>
      exact value_literal ofText rfl ⟨_, _, rfl, rfl, by decide, by decide, by decide⟩
    | number x =>
      obtain ⟨u, s, htext, hspace, -, -⟩ := print_cons hnumber (number x)
      rw [print] at htext
      have hu : isNumberUnit u = true :=
        isNumberUnit_of_mem (hnumber x) (htext ▸ List.mem_cons_self)
      have hdrop : (toText x ++ rest).dropWhile isSpace = toText x ++ rest := by
        simp [htext, hspace]
      have hexpect : ∀ v, isNumberUnit v = false → expect v (toText x ++ rest) = none := by
        intro v hv
        rw [htext]
        exact expect_of_ne hspace (ne_of_isNumberUnit hu hv) _
      rw [print, value, hexpect 0x7B (by decide), hexpect 0x5B (by decide),
        hexpect 0x22 (by decide), hdrop]
      exact atom_number (hnumber x) hrest
    | string s =>
      have hstring := readString_quote s rest
      have hbrace : expect 0x7B (quote s ++ rest) = none := expect_of_ne rfl (by decide) _
      have hbracket : expect 0x5B (quote s ++ rest) = none := expect_of_ne rfl (by decide) _
      obtain ⟨t, ht, hread⟩ := Option.bind_eq_some_iff.mp hstring
      simp only [print, value, hbrace, hbracket, ht, hread, Option.map_some, map]
    | array [] =>
      have hbrace : expect 0x7B (0x5B :: 0x5D :: rest) = none := expect_of_ne rfl (by decide) _
      have hopen : expect 0x5B (0x5B :: 0x5D :: rest) = some (0x5D :: rest) := expect_self rfl _
      have hclose : expect 0x5D (0x5D :: rest) = some rest := expect_self rfl _
      simp only [print, printElements, List.nil_append, List.cons_append, value, hbrace, hopen,
        hclose, map, mapElements]
    | array (e :: es) =>
      rw [print, List.length_cons, List.length_append] at hfuel
      have helements := elements_print hnumber e es fuel (Nat.le_of_succ_le_succ hfuel) hrest
      have hclose := expect_printElements hnumber e es (0x5D :: rest)
      rw [print, List.cons_append, List.append_assoc, List.singleton_append, value,
        expect_of_ne rfl (by decide), expect_self rfl]
      simp only [hclose, helements, Option.map_some, map]
    | object [] =>
      have hopen : expect 0x7B (0x7B :: 0x7D :: rest) = some (0x7D :: rest) := expect_self rfl _
      have hclose : expect 0x7D (0x7D :: rest) = some rest := expect_self rfl _
      simp only [print, printMembers, List.nil_append, List.cons_append, value, hopen, hclose, map,
        mapMembers]
    | object (m :: ms) =>
      rw [print, List.length_cons, List.length_append] at hfuel
      have hmembers := members_print hnumber m ms fuel (Nat.le_of_succ_le_succ hfuel) hrest
      have hclose : expect 0x7D (printMembers toText (m :: ms) ++ 0x7D :: rest) = none :=
        expect_printMembers m ms _
      rw [print, List.cons_append, List.append_assoc, List.singleton_append, value,
        expect_self rfl]
      simp only [hclose, hmembers, Option.map_some, map]
termination_by fuel

theorem elements_print (hnumber : ∀ x, isNumber (toText x) = true) (e : Json ν) (es : List (Json ν))
    (fuel : ℕ) {rest : JsonText} (hfuel : (printElements toText (e :: es)).length + 1 ≤ fuel)
    (hrest : Ends rest) :
    elements ofText fuel (printElements toText (e :: es) ++ 0x5D :: rest) =
      some (mapElements (fun x => ofText (toText x)) (e :: es), rest) := by
  cases fuel with
  | zero => exact absurd hfuel (Nat.not_succ_le_zero _)
  | succ fuel =>
    have hlength := Nat.le_of_succ_le_succ hfuel
    match es with
    | [] =>
      simp only [printElements, List.isEmpty_nil, if_true, List.append_nil] at hlength ⊢
      have hvalue := value_print hnumber e fuel hlength
        (Ends.cons (by decide : isNumberUnit 0x5D = false) rest)
      have hcomma : expect 0x2C (0x5D :: rest) = none := expect_of_ne rfl (by decide) _
      have hclose : expect 0x5D (0x5D :: rest) = some rest := expect_self rfl _
      simp only [elements, hvalue, Option.bind_some, hcomma, hclose, Option.map_some, mapElements]
    | e' :: es =>
      rw [printElements] at hlength ⊢
      simp only [List.isEmpty_cons, Bool.false_eq_true, if_false, List.append_assoc,
        List.cons_append, List.length_append, List.length_cons] at hlength ⊢
      have hvalue := value_print hnumber e fuel (by omega)
        (Ends.cons (by decide : isNumberUnit 0x2C = false)
          (printElements toText (e' :: es) ++ 0x5D :: rest))
      have hpos := length_print_pos hnumber e
      have helements := elements_print hnumber e' es fuel (by omega) hrest
      have hcomma : expect 0x2C (0x2C :: (printElements toText (e' :: es) ++ 0x5D :: rest)) =
          some (printElements toText (e' :: es) ++ 0x5D :: rest) := expect_self rfl _
      simp only [elements, hvalue, Option.bind_some, hcomma, helements, Option.map_some]
      rfl
termination_by fuel

theorem members_print (hnumber : ∀ x, isNumber (toText x) = true) (m : JsonText × Json ν)
    (ms : List (JsonText × Json ν)) (fuel : ℕ) {rest : JsonText}
    (hfuel : (printMembers toText (m :: ms)).length + 1 ≤ fuel)
    (hrest : Ends rest) :
    members ofText fuel (printMembers toText (m :: ms) ++ 0x7D :: rest) =
      some (mapMembers (fun x => ofText (toText x)) (m :: ms), rest) := by
  cases fuel with
  | zero => exact absurd hfuel (Nat.not_succ_le_zero _)
  | succ fuel =>
    have hlength := Nat.le_of_succ_le_succ hfuel
    match m, ms with
    | (key, e), [] =>
      simp only [printMembers, List.isEmpty_nil, if_true, List.append_nil, List.append_assoc,
        List.cons_append, List.length_append, List.length_cons] at hlength ⊢
      have hvalue := value_print hnumber e fuel (by omega)
        (Ends.cons (by decide : isNumberUnit 0x7D = false) rest)
      have hkey := readString_quote key (0x3A :: (print toText e ++ 0x7D :: rest))
      have hcolon : expect 0x3A (0x3A :: (print toText e ++ 0x7D :: rest)) =
          some (print toText e ++ 0x7D :: rest) := expect_self rfl _
      have hcomma : expect 0x2C (0x7D :: rest) = none := expect_of_ne rfl (by decide) _
      have hclose : expect 0x7D (0x7D :: rest) = some rest := expect_self rfl _
      simp only [members, hkey, hcolon, hvalue, Option.bind_some, hcomma, hclose, Option.map_some,
        mapMembers]
    | (key, e), m' :: ms =>
      rw [printMembers] at hlength ⊢
      simp only [List.isEmpty_cons, Bool.false_eq_true, if_false, List.append_assoc,
        List.cons_append, List.length_append, List.length_cons] at hlength ⊢
      have hvalue := value_print hnumber e fuel (by omega)
        (Ends.cons (by decide : isNumberUnit 0x2C = false)
          (printMembers toText (m' :: ms) ++ 0x7D :: rest))
      have hmembers := members_print hnumber m' ms fuel (by omega) hrest
      have hkey := readString_quote key (0x3A :: (print toText e ++
        0x2C :: (printMembers toText (m' :: ms) ++ 0x7D :: rest)))
      have hcolon : expect 0x3A (0x3A :: (print toText e ++
          0x2C :: (printMembers toText (m' :: ms) ++ 0x7D :: rest))) =
          some (print toText e ++ 0x2C :: (printMembers toText (m' :: ms) ++ 0x7D :: rest)) :=
        expect_self rfl _
      have hcomma : expect 0x2C (0x2C :: (printMembers toText (m' :: ms) ++ 0x7D :: rest)) =
          some (printMembers toText (m' :: ms) ++ 0x7D :: rest) := expect_self rfl _
      simp only [members, hkey, hcolon, hvalue, Option.bind_some, hcomma, hmembers,
        Option.map_some]
      rfl
termination_by fuel

end

/-! ## 3. The round trip -/

/-- A printed value is parsed. Its numbers are read from their texts. -/
theorem parse_print (hnumber : ∀ x, isNumber (toText x) = true) (j : Json ν) :
    parse ofText (print toText j) = some (map (fun x => ofText (toText x)) j) := by
  have hvalue := value_print ofText hnumber j _ (Nat.le_succ _) Ends.nil
  rw [List.append_nil] at hvalue
  rw [parse, hvalue]
  rfl

end Print

end Json
