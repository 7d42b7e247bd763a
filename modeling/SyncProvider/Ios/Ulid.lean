import SyncProvider.Crockford
import SyncProvider.Lib.Issues

/-!
# iOS: `ULID`

The timestamp of an id is the clock or the last timestamp, whichever is later, so the
clock may go back. When the random bytes of the last id wrap around, new ones are
drawn and the timestamp stays.

Results:
1. `bitSlice_eq`, `encode_eq` : the id is the text of the timestamp and the random part.
2. `rules` : when a call goes beyond the ids before it.
-/

namespace SyncProvider.Ios.ULID

/-! ## The model -/

def crockfordAlphabet : List Char := "0123456789ABCDEFGHJKMNPQRSTVWXYZ".toList

structure State where
  lastTimestampMs : ℕ
  lastRandom : Entropy

/-- A call with the clock it reads, and what the random source returns to it. -/
structure Call where
  nowMs : ℕ
  random : Entropy

/-- The static fields at launch. -/
def initial : State := ⟨0, ⟨List.replicate 10 0, Entropy.length_zeros⟩⟩

/-- The loop of `incrementRandom` over the bytes from the last one on, and whether it
runs through. -/
def incrementLoop : List (BitVec 8) → List (BitVec 8) × Bool
  | [] => ([], true)
  | b :: bs =>
    if b = 0xFF then
      let result := incrementLoop bs
      (0 :: result.1, result.2)
    else ((b + 1) :: bs, false)

theorem incremented_loop (bs : List (BitVec 8)) : Incremented bs (incrementLoop bs) := by
  induction bs with
  | nil => exact incremented_nil
  | cons b bs ih =>
    simp only [incrementLoop]
    split
    · rename_i hb
      subst hb
      exact ih.carry
    · exact .stop ‹_› bs

/-- Once all bytes overflowed: new ones. -/
def incrementRandom (e random : Entropy) : Entropy :=
  match h : incrementLoop e.bytes.reverse with
  | (bytes, false) => ⟨bytes.reverse, by
      have hlength := (incremented_loop e.bytes.reverse).length
      rw [h, List.length_reverse, e.length_bytes] at hlength
      rw [List.length_reverse, hlength]⟩
  | (_, true) => random

/-- The loop of `bitSlice`, with the bits that are left. -/
def bitSliceLoop (bytes : List (BitVec 8)) (startBit : ℕ) : ℕ → ℕ → BitVec 64 → BitVec 64
  | 0, _, result => result
  | n + 1, i, result =>
    let bitIndex := startBit + i
    match bytes[bitIndex / 8]? with
    | none => result
    | some byte =>
      let bit := (byte >>> (7 - bitIndex % 8)) &&& 0x01
      bitSliceLoop bytes startBit n (i + 1) ((result <<< 1) ||| bit.setWidth 64)

/-- `length` bits from a big-endian byte buffer. -/
def bitSlice (bytes : List (BitVec 8)) (startBit length : ℕ) : BitVec 64 :=
  bitSliceLoop bytes startBit length 0 0

/-- The loop over the timestamp, the last symbol first. -/
def encodeTimestamp : ℕ → BitVec 64 → List Char
  | 0, _ => []
  | k + 1, ts => encodeTimestamp k (ts >>> 5) ++ [crockfordAlphabet.getD (ts &&& 0x1F).toNat '0']

def encode (timestampMs : ℕ) (random : Entropy) : String :=
  let tsChars := encodeTimestamp 10 (BitVec.ofNat 64 timestampMs &&& 0x0000FFFFFFFFFFFF)
  let randomChars := (List.range 16).map fun i =>
    crockfordAlphabet.getD (bitSlice random.bytes (i * 5) 5 &&& 0x1F).toNat '0'
  String.ofList (tsChars ++ randomChars)

def generate (s : State) (call : Call) : State × String :=
  let timestampMs := max call.nowMs s.lastTimestampMs
  let random :=
    if timestampMs = s.lastTimestampMs then incrementRandom s.lastRandom call.random
    else call.random
  (⟨timestampMs, random⟩, encode timestampMs random)

/-- The bytes of the last id wrap around. -/
def Overflows (s : State) (call : Call) : Prop :=
  call.nowMs ≤ s.lastTimestampMs ∧ ∀ b ∈ s.lastRandom.bytes, b = 0xFF

instance decidableOverflows (s : State) (call : Call) : Decidable (Overflows s call) :=
  inferInstanceAs (Decidable (_ ∧ _))

/-- All timestamps have 48 bits. -/
def Bounded (s : State) (calls : List Call) : Prop :=
  s.lastTimestampMs < 2 ^ 48 ∧ ∀ call ∈ calls, call.nowMs < 2 ^ 48

/-! ## 1. The text of an id -/

theorem ascends_crockfordAlphabet : Ascends crockfordAlphabet := ⟨rfl, by decide⟩

theorem encodeTimestamp_eq (k : ℕ) (ts : BitVec 64) :
    encodeTimestamp k ts = (Radix.digits 32 k ts.toNat).map (crockfordAlphabet.getD · '0') := by
  induction k generalizing ts with
  | zero => rfl
  | succ k ih =>
    have hshift : (ts >>> 5).toNat = ts.toNat / 32 := by
      rw [BitVec.toNat_ushiftRight, Nat.shiftRight_eq_div_pow]
    have hmask : (ts &&& 0x1F).toNat = ts.toNat % 32 := by
      rw [BitVec.toNat_and]
      exact Nat.and_two_pow_sub_one_eq_mod ts.toNat 5
    rw [encodeTimestamp, ih, hshift, hmask, Radix.digits, List.map_append]
    rfl

/-- A byte is eight bits of the number. -/
theorem toNat_byte (e : Entropy) {k : ℕ} {byte : BitVec 8} (h : e.bytes[k]? = some byte) :
    k < 10 ∧ byte.toNat = e.value / 2 ^ (8 * (9 - k)) % 2 ^ 8 := by
  obtain ⟨hk, hbyte⟩ := List.getElem?_eq_some_iff.mp h
  rw [e.length_bytes] at hk
  have hdigits := e.digits_value
  rw [Radix.digits_eq_map] at hdigits
  have hget := congrArg (·[k]?) hdigits
  simp only [List.getElem?_map, List.getElem?_range hk, h, Option.map_some,
    Option.some.injEq] at hget
  refine ⟨hk, ?_⟩
  rw [← hget, pow_mul]
  rfl

/-- A bit of a byte is a bit of the number. -/
theorem toNat_bit (e : Entropy) {j : ℕ} {byte : BitVec 8} (h : e.bytes[j / 8]? = some byte) :
    ((byte >>> (7 - j % 8)) &&& 0x01).toNat = e.value / 2 ^ (79 - j) % 2 := by
  obtain ⟨hk, hbyte⟩ := toNat_byte e h
  have hmask : ((byte >>> (7 - j % 8)) &&& 0x01).toNat = byte.toNat / 2 ^ (7 - j % 8) % 2 := by
    rw [BitVec.toNat_and, BitVec.toNat_ushiftRight, Nat.shiftRight_eq_div_pow]
    exact Nat.and_two_pow_sub_one_eq_mod _ 1
  have hexp : 79 - j = 8 * (9 - j / 8) + (7 - j % 8) := by omega
  have hlt : 7 - j % 8 < 8 := by omega
  rw [hmask, hbyte, ← Nat.toNat_testBit, ← Nat.toNat_testBit, hexp, Nat.testBit_mod_two_pow]
  simp [hlt, Nat.testBit_div_two_pow, add_comm]

/-- After `i` bits, the loop holds the number down to the last of them. -/
theorem toNat_bitSliceLoop (e : Entropy) {startBit : ℕ} (n : ℕ) {i : ℕ} {result : BitVec 64}
    (hbits : i + n ≤ 5) (hend : startBit + i + n ≤ 80)
    (hresult : result.toNat = e.value / 2 ^ (80 - startBit - i) % 2 ^ i) :
    (bitSliceLoop e.bytes startBit n i result).toNat =
      e.value / 2 ^ (80 - startBit - i - n) % 2 ^ (i + n) := by
  induction n generalizing i result with
  | zero => exact hresult
  | succ n ih =>
    have hindex : (startBit + i) / 8 < e.bytes.length := by
      rw [e.length_bytes]
      omega
    have hbit := toNat_bit e (List.getElem?_eq_getElem hindex)
    have hsmall : result.toNat < 2 ^ 5 := by
      rw [hresult]
      exact (Nat.mod_lt _ (by positivity)).trans_le (Nat.pow_le_pow_right (by norm_num) (by omega))
    simp only [bitSliceLoop, List.getElem?_eq_getElem hindex]
    generalize (e.bytes[(startBit + i) / 8] >>> (7 - (startBit + i) % 8)) &&& 0x01 = bit at hbit ⊢
    have hone : bit.toNat < 2 ^ 1 := by
      rw [hbit]
      exact Nat.mod_lt _ (by norm_num)
    have hjoin : ((result <<< 1) ||| bit.setWidth 64).toNat = result.toNat * 2 + bit.toNat := by
      have hwidth : (bit.setWidth 64).toNat = bit.toNat := by
        rw [BitVec.toNat_setWidth]
        exact Nat.mod_eq_of_lt (by omega)
      rw [BitVec.toNat_or, BitVec.toNat_shiftLeft, hwidth, Nat.mod_eq_of_lt (by
        rw [Nat.shiftLeft_eq]
        omega), ← Nat.shiftLeft_add_eq_or_of_lt hone, Nat.shiftLeft_eq]
    have hnext : ((result <<< 1) ||| bit.setWidth 64).toNat =
        e.value / 2 ^ (80 - startBit - (i + 1)) % 2 ^ (i + 1) := by
      have hexp : 80 - startBit - i = (80 - startBit - (i + 1)) + 1 := by omega
      have hexp' : 79 - (startBit + i) = 80 - startBit - (i + 1) := by omega
      rw [hjoin, hresult, hbit, hexp, hexp', Nat.pow_succ 2 (80 - startBit - (i + 1)),
        ← Nat.div_div_eq_div_mul]
      generalize e.value / 2 ^ (80 - startBit - (i + 1)) = x
      rw [Nat.pow_succ, mul_comm (2 ^ i) 2, Nat.mod_mul, add_comm, mul_comm 2]
    have hshift : 80 - startBit - (i + 1) - n = 80 - startBit - i - (n + 1) := by omega
    have hwidth : i + 1 + n = i + (n + 1) := by omega
    rw [ih (by omega) (by omega) hnext, hshift, hwidth]

/-- Five bits are a digit of the number. -/
theorem bitSlice_eq (e : Entropy) {i : ℕ} (hi : i < 16) :
    (bitSlice e.bytes (i * 5) 5 &&& 0x1F).toNat = e.value / 32 ^ (16 - 1 - i) % 32 := by
  have hslice : (bitSlice e.bytes (i * 5) 5).toNat =
      e.value / 2 ^ (80 - i * 5 - 0 - 5) % 2 ^ (0 + 5) :=
    toNat_bitSliceLoop e 5 (by norm_num) (by omega) (by simp [Nat.mod_one])
  have hmask : (bitSlice e.bytes (i * 5) 5 &&& 0x1F).toNat =
      (bitSlice e.bytes (i * 5) 5).toNat % 32 := by
    rw [BitVec.toNat_and]
    exact Nat.and_two_pow_sub_one_eq_mod _ 5
  have hexp : 80 - i * 5 - 0 - 5 = 5 * (16 - 1 - i) := by omega
  rw [hmask, hslice, hexp, pow_mul]
  exact Nat.mod_mod _ _

theorem encode_eq {ts : ℕ} (hts : ts < 2 ^ 48) (e : Entropy) :
    encode ts e = text crockfordAlphabet ts e := by
  have hmask : (BitVec.ofNat 64 ts &&& 0x0000FFFFFFFFFFFF).toNat = ts := by
    rw [BitVec.toNat_and, BitVec.toNat_ofNat, Nat.mod_eq_of_lt (hts.trans (by norm_num))]
    exact (Nat.and_two_pow_sub_one_eq_mod ts 48).trans (Nat.mod_eq_of_lt hts)
  have hrandom : ((List.range 16).map fun i =>
      crockfordAlphabet.getD (bitSlice e.bytes (i * 5) 5 &&& 0x1F).toNat '0') =
      (Radix.digits 32 16 e.value).map (crockfordAlphabet.getD · '0') := by
    rw [Radix.digits_eq_map, List.map_map]
    refine List.map_congr_left fun i hi => ?_
    rw [bitSlice_eq e (List.mem_range.mp hi)]
    rfl
  simp only [encode, text]
  rw [encodeTimestamp_eq, hmask, hrandom, List.map_append]

/-! ## 2. A call and the ids before it -/

theorem not_overflows_initial (call : Call) : ¬ Overflows initial call := by
  rintro ⟨-, hall⟩
  exact absurd (hall 0 (by decide)) (by decide)

theorem incrementRandom_cases (e random : Entropy) :
    ((incrementRandom e random).value = e.value + 1 ∧ ¬ ∀ b ∈ e.bytes, b = 0xFF) ∨
    incrementRandom e random = random ∧ ∀ b ∈ e.bytes, b = 0xFF := by
  have hloop := incremented_loop e.bytes.reverse
  unfold incrementRandom
  split
  · rename_i bytes h
    rw [h] at hloop
    refine .inl ⟨Incremented.value (by simpa using hloop), fun hall => ?_⟩
    have hwrapped := hloop.wrapped.mpr fun b hb => hall b (List.mem_reverse.mp hb)
    cases hwrapped
  · rename_i h
    rw [h] at hloop
    exact .inr ⟨rfl, fun b hb => hloop.wrapped.mp rfl b (List.mem_reverse.mpr hb)⟩

/-- The random part of an id, in the three cases. -/
theorem lastRandom_cases (s : State) (call : Call) :
    s.lastTimestampMs < call.nowMs ∧ (generate s call).1.lastRandom = call.random ∨
    call.nowMs ≤ s.lastTimestampMs ∧ ¬ Overflows s call ∧
      (generate s call).1.lastRandom.value = s.lastRandom.value + 1 ∨
    Overflows s call ∧ (generate s call).1.lastRandom = call.random := by
  rcases Nat.lt_or_ge s.lastTimestampMs call.nowMs with hlt | hle
  · have hnew : max call.nowMs s.lastTimestampMs ≠ s.lastTimestampMs := by omega
    exact .inl ⟨hlt, if_neg hnew⟩
  · right
    have hsame : max call.nowMs s.lastTimestampMs = s.lastTimestampMs := max_eq_right hle
    have hrandom : (generate s call).1.lastRandom = incrementRandom s.lastRandom call.random :=
      if_pos hsame
    rw [hrandom]
    rcases incrementRandom_cases s.lastRandom call.random with ⟨hvalue, hnot⟩ | ⟨heq, hall⟩
    · exact .inl ⟨hle, fun hover => hnot hover.2, hvalue⟩
    · exact .inr ⟨⟨hle, hall⟩, heq⟩

/-- The id lies above the last one. -/
def Above (s : State) (id : String) : Prop :=
  text crockfordAlphabet s.lastTimestampMs s.lastRandom < id

theorem rules : Issues.Rules generate (fun s call => ¬ Overflows s call) Bounded Above where
  rest := by
    rintro s call calls ⟨hlast, hbounds⟩ -
    obtain ⟨hnow, hbounds⟩ := List.forall_mem_cons.mp hbounds
    exact ⟨max_lt hnow hlast, hbounds⟩
  above_iff := by
    rintro s call calls ⟨hlast, hbounds⟩
    have hnow : call.nowMs < 2 ^ 48 := hbounds call List.mem_cons_self
    have hts : max call.nowMs s.lastTimestampMs < 2 ^ 48 := max_lt hnow hlast
    have hid : (generate s call).2 =
        text crockfordAlphabet (max call.nowMs s.lastTimestampMs)
          (generate s call).1.lastRandom := encode_eq hts _
    unfold Above
    rw [hid, text_lt_iff ascends_crockfordAlphabet hlast hts]
    rcases lastRandom_cases s call with ⟨hlt, -⟩ | ⟨hle, hnot, hvalue⟩ | ⟨hover, hrandom⟩
    · exact iff_of_true (fun hover => absurd hover.1 (not_le.mpr hlt)) (.inl (by omega))
    · exact iff_of_true hnot (.inr ⟨by omega, by omega⟩)
    · -- no random part lies above ten bytes that wrap around
      have hmax : call.random.value ≤ s.lastRandom.value := Entropy.le_of_wrapped hover.2
      have hle := hover.1
      rw [hrandom]
      exact iff_of_false (fun hnot => hnot hover) (by omega)
  above_next := by
    rintro s call calls ⟨hlast, hbounds⟩ - id
    have hnow : call.nowMs < 2 ^ 48 := hbounds call List.mem_cons_self
    have hts : max call.nowMs s.lastTimestampMs < 2 ^ 48 := max_lt hnow hlast
    have hid : (generate s call).2 =
        text crockfordAlphabet (max call.nowMs s.lastTimestampMs)
          (generate s call).1.lastRandom := encode_eq hts _
    rw [hid]
    rfl
  upward := fun habove hlt => habove.trans hlt

end SyncProvider.Ios.ULID
