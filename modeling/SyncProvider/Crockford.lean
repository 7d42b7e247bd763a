import SyncProvider.Lib.Radix
import Mathlib.Data.List.GetD

/-!
# The text of a ULID

A ULID is a timestamp of 48 bits and ten random bytes, in 26 characters of Crockford
base 32. The alphabet is in ASCII order, so the texts are ordered as the timestamps,
and within a timestamp as the random bytes.

Results:
1. `text_lt_iff`, `text_inj` : the order of texts, and what a text says.
-/

namespace SyncProvider

/-- The random part: ten bytes, most significant first. -/
structure Entropy where
  bytes : List (BitVec 8)
  length_bytes : bytes.length = 10
  deriving DecidableEq

namespace Entropy

theorem length_zeros : (List.replicate 10 (0 : BitVec 8)).length = 10 := rfl

/-- As a number of 80 bits. -/
def value (e : Entropy) : ℕ := Radix.value 256 (e.bytes.map BitVec.toNat)

theorem lt_of_mem_bytes (e : Entropy) {d : ℕ} (hd : d ∈ e.bytes.map BitVec.toNat) : d < 256 := by
  obtain ⟨b, -, rfl⟩ := List.mem_map.mp hd
  exact b.isLt

theorem value_lt (e : Entropy) : e.value < 2 ^ 80 := by
  have hlt := Radix.value_lt (by norm_num) fun _ => e.lt_of_mem_bytes
  rw [List.length_map, e.length_bytes] at hlt
  exact hlt.trans_eq (by norm_num)

/-- The bytes are the digits of the number. -/
theorem digits_value (e : Entropy) : Radix.digits 256 10 e.value = e.bytes.map BitVec.toNat := by
  have heq := Radix.digits_value fun _ => e.lt_of_mem_bytes
  rw [List.length_map, e.length_bytes] at heq
  exact heq

theorem bytes_eq_of_value {e e' : Entropy} (h : e.value = e'.value) : e.bytes = e'.bytes := by
  have hmap : e.bytes.map BitVec.toNat = e'.bytes.map BitVec.toNat := by
    rw [← e.digits_value, ← e'.digits_value, h]
  exact List.map_injective_iff.mpr (fun _ _ => BitVec.eq_of_toNat_eq) hmap

end Entropy

/-- What an increment of the random part does: the bytes, least significant first, go
up by one, or all of them wrap around and it reports so. -/
structure Incremented (bs : List (BitVec 8)) (result : List (BitVec 8) × Bool) : Prop where
  length : result.1.length = bs.length
  kept : result.2 = false → Nat.ofDigits 256 (result.1.map BitVec.toNat) =
    Nat.ofDigits 256 (bs.map BitVec.toNat) + 1
  wrapped : result.2 = true ↔ ∀ b ∈ bs, b = 0xFF

theorem incremented_nil : Incremented [] ([], true) := ⟨rfl, by simp, by simp⟩

/-- The last byte does not wrap around. -/
theorem Incremented.stop {b : BitVec 8} (hb : b ≠ 0xFF) (bs : List (BitVec 8)) :
    Incremented (b :: bs) ((b + 1) :: bs, false) := by
  have hnext : (b + 1).toNat = b.toNat + 1 := by bv_omega
  refine ⟨rfl, fun _ => ?_, iff_of_false (by simp) fun hall => hb (hall b List.mem_cons_self)⟩
  simp only [List.map_cons, Nat.ofDigits_cons, hnext]
  omega

/-- It does, and the carry goes on. -/
theorem Incremented.carry {bs : List (BitVec 8)} {result : List (BitVec 8) × Bool}
    (h : Incremented bs result) : Incremented (0xFF :: bs) (0 :: result.1, result.2) := by
  refine ⟨by simp [h.length], fun hkept => ?_, ?_⟩
  · simp only [List.map_cons, Nat.ofDigits_cons, h.kept hkept]
    show 0 + 256 * _ = 255 + 256 * _ + 1
    ring
  · rw [show ((0 :: result.1, result.2) : List (BitVec 8) × Bool).2 = result.2 from rfl, h.wrapped]
    simp

/-- The random part after an increment that does not wrap around. -/
theorem Incremented.value {e e' : Entropy}
    (h : Incremented e.bytes.reverse (e'.bytes.reverse, false)) :
    e'.value = e.value + 1 := by
  have hkept := h.kept rfl
  rw [List.map_reverse, List.map_reverse] at hkept
  exact hkept

/-- Ten bytes that wrap around are the largest there are. -/
theorem Entropy.le_of_wrapped {e e' : Entropy} (h : ∀ b ∈ e.bytes, b = 0xFF) :
      e'.value ≤ e.value := by
  have hbytes : e.bytes = List.replicate 10 0xFF :=
    List.eq_replicate_iff.mpr ⟨e.length_bytes, h⟩
  have hvalue : e.value = 2 ^ 80 - 1 := by
    unfold Entropy.value
    rw [hbytes]
    rfl
  have := e'.value_lt
  omega

/-! ## 1. Texts -/

/-- The symbols in ASCII order. -/
def Ascends (alphabet : List Char) : Prop :=
  alphabet.length = 32 ∧ alphabet.Pairwise (· < ·)

/-- The 26 symbols of a timestamp and a random part. -/
def text (alphabet : List Char) (ts : ℕ) (e : Entropy) : String :=
  String.ofList ((Radix.digits 32 10 ts ++ Radix.digits 32 16 e.value).map (alphabet.getD · '0'))

theorem text_lt_iff {alphabet : List Char} (h : Ascends alphabet) {ts ts' : ℕ} {e e' : Entropy}
    (hts : ts < 2 ^ 48) (hts' : ts' < 2 ^ 48) :
    text alphabet ts e < text alphabet ts' e' ↔ ts < ts' ∨ ts = ts' ∧ e.value < e'.value := by
  have hsymbol : ∀ d < 32, ∀ d' < 32, d < d' → alphabet.getD d '0' < alphabet.getD d' '0' := by
    intro d hd d' hd' hlt
    have hlength : alphabet.length = 32 := h.1
    rw [List.getD_eq_getElem _ _ (by omega), List.getD_eq_getElem _ _ (by omega)]
    exact List.pairwise_iff_getElem.mp h.2 d d' _ _ hlt
  have hdigits (n : ℕ) (e : Entropy) :
      ∀ d ∈ Radix.digits 32 10 n ++ Radix.digits 32 16 e.value, d < 32 := by
    intro d hd
    rcases List.mem_append.mp hd with hd | hd
    · exact Radix.digits_lt (by norm_num) hd
    · exact Radix.digits_lt (by norm_num) hd
  have hvalue {n : ℕ} (hn : n < 2 ^ 48) (e : Entropy) :
      Radix.value 32 (Radix.digits 32 10 n ++ Radix.digits 32 16 e.value) =
        n * 2 ^ 80 + e.value := by
    have hsmall : n < 32 ^ 10 := hn.trans (by norm_num)
    have hlow : e.value < 32 ^ 16 := e.value_lt.trans_eq (by norm_num)
    rw [Radix.value_append, Radix.value_digits hsmall, Radix.value_digits hlow,
      Radix.length_digits]
    norm_num
  have he := e.value_lt
  have he' := e'.value_lt
  unfold text
  rw [String.lt_iff_toList_lt, String.toList_ofList, String.toList_ofList,
    Radix.map_lt_map_iff hsymbol (by norm_num) (hdigits ts e) (hdigits ts' e') (by simp),
    hvalue hts, hvalue hts']
  omega

/-- A text has one timestamp and one random part. -/
theorem text_inj {alphabet : List Char} (h : Ascends alphabet) {ts ts' : ℕ} {e e' : Entropy}
    (hts : ts < 2 ^ 48) (hts' : ts' < 2 ^ 48) (heq : text alphabet ts e = text alphabet ts' e') :
    ts = ts' ∧ e.bytes = e'.bytes := by
  have hle : ¬ (ts < ts' ∨ ts = ts' ∧ e.value < e'.value) := by
    rw [← text_lt_iff h hts hts', heq]
    exact lt_irrefl _
  have hge : ¬ (ts' < ts ∨ ts' = ts ∧ e'.value < e.value) := by
    rw [← text_lt_iff h hts' hts, heq]
    exact lt_irrefl _
  obtain rfl : ts = ts' := by omega
  refine ⟨rfl, Entropy.bytes_eq_of_value ?_⟩
  omega

theorem length_text (alphabet : List Char) (ts : ℕ) (e : Entropy) :
    (text alphabet ts e).length = 26 := by
  unfold text
  rw [String.length_ofList, List.length_map, List.length_append, Radix.length_digits,
    Radix.length_digits]

/-- A text is ASCII when its alphabet is. -/
theorem ascii_text {alphabet : List Char} (hascii : alphabet.all (fun c => c.toNat < 0x80) = true)
    {ts : ℕ} {e : Entropy} {c : Char} (hc : c ∈ (text alphabet ts e).toList) :
    c.toNat < 0x80 := by
  unfold text at hc
  rw [String.toList_ofList] at hc
  obtain ⟨d, -, rfl⟩ := List.mem_map.mp hc
  rcases lt_or_ge d alphabet.length with hd | hd
  · rw [List.getD_eq_getElem _ _ hd]
    exact of_decide_eq_true (List.all_eq_true.mp hascii _ (List.getElem_mem hd))
  · rw [List.getD_eq_default _ _ hd]
    decide

end SyncProvider
