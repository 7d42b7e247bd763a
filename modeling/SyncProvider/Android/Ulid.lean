import SyncProvider.Crockford
import SyncProvider.Lib.Issues

/-!
# Android: `Ulid`

Within a millisecond the random bytes of the last id go up by one. When they wrap
around, `incrementRandom` draws new ones and moves the last timestamp on, but the id
is written with the timestamp of the call.

Results:
1. `generate_eq` : the id is the text of the timestamp and the random part.
2. `rules` : when a call goes beyond the ids before it.
-/

namespace SyncProvider.Android.Ulid

/-! ## The model -/

def ALPHABET : List Char := "0123456789ABCDEFGHJKMNPQRSTVWXYZ".toList

/-- The fields of the object. -/
structure State where
  lastTimestamp : Int
  lastRandom : Entropy

/-- A call with the time it is given, and what the random source returns to it. -/
structure Call where
  timestampMs : Int
  random : Entropy

/-- The object when it is loaded. -/
def initial : State := ⟨-1, ⟨List.replicate 10 0, Entropy.length_zeros⟩⟩

/-- A loop that writes five bits of `v` at a time, the last symbol first. -/
def encodeGroups : Nat → BitVec 64 → List Char
  | 0, _ => []
  | k + 1, v => encodeGroups k (v >>> 5) ++ [ALPHABET.getD (v &&& 0x1F).toNat '0']

def encodeTimestamp (ts : Int) : List Char := encodeGroups 10 (BitVec.ofInt 64 ts)

/-- Five bytes as a `Long`. A byte is signed, so its sign bits are masked. -/
def half (bytes : List (BitVec 8)) (i : Nat) : BitVec 64 :=
  let byte (j : Nat) : BitVec 64 := (bytes.getD (i + j) 0).signExtend 64 &&& 0xFF
  ((byte 0 <<< 32) ||| (byte 1 <<< 24) ||| (byte 2 <<< 16) ||| (byte 3 <<< 8)) ||| byte 4

def encodeRandom (e : Entropy) : List Char :=
  encodeGroups 8 (half e.bytes 0) ++ encodeGroups 8 (half e.bytes 5)

/-- The `buildString` at the end of `generate`. -/
def encode (ts : Int) (e : Entropy) : String :=
  String.ofList (encodeTimestamp ts ++ encodeRandom e)

/-- The loop of `incrementRandom` over the bytes from the last one on, and whether it
runs through. -/
def incrementLoop : List (BitVec 8) → List (BitVec 8) × Bool
  | [] => ([], true)
  | b :: bs =>
    let updated := b + 1
    if updated ≠ 0 then (updated :: bs, false)
    else
      let result := incrementLoop bs
      (updated :: result.1, result.2)

theorem incremented_loop (bs : List (BitVec 8)) : Incremented bs (incrementLoop bs) := by
  induction bs with
  | nil => exact incremented_nil
  | cons b bs ih =>
    simp only [incrementLoop]
    split
    · rename_i hb
      exact .stop (by rintro rfl; exact hb rfl) bs
    · rename_i hb
      obtain rfl : b = 0xFF := by
        have hzero : b + 1 = 0 := not_not.mp hb
        bv_omega
      exact ih.carry

/-- After an overflow: new random bytes, and a timestamp one millisecond on. -/
def incrementRandom (s : State) (random : Entropy) : State :=
  match h : incrementLoop s.lastRandom.bytes.reverse with
  | (bytes, false) => { s with lastRandom := ⟨bytes.reverse, by
      have hlength := (incremented_loop s.lastRandom.bytes.reverse).length
      rw [h, List.length_reverse, s.lastRandom.length_bytes] at hlength
      rw [List.length_reverse, hlength]⟩ }
  | (_, true) => ⟨s.lastTimestamp + 1, random⟩

def generate (s : State) (call : Call) : State × String :=
  let ts := max call.timestampMs 0
  let s' := if ts = s.lastTimestamp then incrementRandom s call.random else ⟨ts, call.random⟩
  (s', String.ofList (encodeTimestamp ts ++ encodeRandom s'.lastRandom))

/-- The bytes of the last id wrap around. -/
def Overflows (s : State) (call : Call) : Prop :=
  max call.timestampMs 0 = s.lastTimestamp ∧ ∀ b ∈ s.lastRandom.bytes, b = 0xFF

instance decidableOverflows (s : State) (call : Call) : Decidable (Overflows s call) :=
  inferInstanceAs (Decidable (_ ∧ _))

/-- The calls come in the order of their timestamps, which have 48 bits. -/
def Ordered (s : State) (calls : List Call) : Prop :=
  s.lastTimestamp < 2 ^ 48 ∧ -1 ≤ s.lastTimestamp ∧
    (∀ call ∈ calls, s.lastTimestamp ≤ max call.timestampMs 0 ∧ call.timestampMs < 2 ^ 48) ∧
    calls.Pairwise fun call call' => call.timestampMs ≤ call'.timestampMs

/-! ## 1. The text of an id -/

theorem ascends_ALPHABET : Ascends ALPHABET := ⟨rfl, by decide⟩

theorem encodeGroups_eq (k : Nat) (v : BitVec 64) :
    encodeGroups k v = (Radix.digits 32 k v.toNat).map (ALPHABET.getD · '0') := by
  induction k generalizing v with
  | zero => rfl
  | succ k ih =>
    have hshift : (v >>> 5).toNat = v.toNat / 32 := by
      rw [BitVec.toNat_ushiftRight, Nat.shiftRight_eq_div_pow]
    have hmask : (v &&& 0x1F).toNat = v.toNat % 32 := by
      rw [BitVec.toNat_and]
      exact Nat.and_two_pow_sub_one_eq_mod v.toNat 5
    rw [encodeGroups, ih, hshift, hmask, Radix.digits, List.map_append]
    rfl

theorem encodeTimestamp_eq {ts : Int} (h : 0 ≤ ts) (hlt : ts < 2 ^ 48) :
    encodeTimestamp ts = (Radix.digits 32 10 ts.toNat).map (ALPHABET.getD · '0') := by
  have hnat : (BitVec.ofInt 64 ts).toNat = ts.toNat := by
    rw [BitVec.toNat_ofInt]
    congr 1
    omega
  rw [encodeTimestamp, encodeGroups_eq, hnat]

/-- The mask takes the sign bits of a byte away. -/
theorem toNat_masked (b : BitVec 8) : (b.signExtend 64 &&& 0xFF).toNat = b.toNat := by
  revert b
  decide +kernel

/-- The next byte of a `Long` that is put together. -/
theorem or_byte {x b : Nat} (hb : b < 2 ^ 8) (k : Nat) :
    x <<< (k + 8) ||| b <<< k = (x * 256 + b) <<< k := by
  have hjoin : x <<< 8 ||| b = x * 256 + b := by
    rw [← Nat.shiftLeft_add_eq_or_of_lt hb, Nat.shiftLeft_eq]
  rw [Nat.add_comm, Nat.shiftLeft_add, ← Nat.shiftLeft_or_distrib, hjoin]

theorem toNat_half (bytes : List (BitVec 8)) (i : Nat) :
    (half bytes i).toNat = Radix.value 256
      (((List.range 5).map fun j => bytes.getD (i + j) 0).map BitVec.toNat) := by
  generalize hbyte : (fun j => bytes.getD (i + j) 0) = byte
  have hget (j : Nat) : bytes.getD (i + j) 0 = byte j := congrFun hbyte j
  have hlt (j : Nat) : (byte j).toNat < 2 ^ 8 := (byte j).isLt
  -- no byte is shifted out
  have hshift (j : Nat) {k : Nat} (hk : k ≤ 32) :
      (((byte j).signExtend 64 &&& 0xFF) <<< k).toNat = (byte j).toNat <<< k := by
    rw [BitVec.toNat_shiftLeft, toNat_masked]
    refine Nat.mod_eq_of_lt ?_
    rw [Nat.shiftLeft_eq]
    calc (byte j).toNat * 2 ^ k < 2 ^ 8 * 2 ^ k :=
          Nat.mul_lt_mul_of_pos_right (hlt j) (by positivity)
      _ ≤ 2 ^ 8 * 2 ^ 32 := Nat.mul_le_mul_left _ (Nat.pow_le_pow_right (by norm_num) hk)
      _ ≤ 2 ^ 64 := by norm_num
  have hvalue : (half bytes i).toNat =
      ((((byte 0).toNat <<< 32 ||| (byte 1).toNat <<< 24) ||| (byte 2).toNat <<< 16) |||
        (byte 3).toNat <<< 8) ||| (byte 4).toNat <<< 0 := by
    simp only [half, hget, BitVec.toNat_or]
    rw [hshift 0 (by norm_num), hshift 1 (by norm_num), hshift 2 (by norm_num),
      hshift 3 (by norm_num), toNat_masked, Nat.shiftLeft_zero]
  rw [hvalue, or_byte (hlt 1) 24, or_byte (hlt 2) 16, or_byte (hlt 3) 8, or_byte (hlt 4) 0]
  simp only [List.range, List.range.loop, List.map_cons, List.map_nil, Radix.value_cons,
    Radix.value_nil, List.length_cons, List.length_nil, Nat.shiftLeft_zero]
  ring

theorem encodeRandom_eq (e : Entropy) :
    encodeRandom e = (Radix.digits 32 16 e.value).map (ALPHABET.getD · '0') := by
  obtain ⟨bytes, hlength⟩ := e
  have hsplit : bytes = (List.range 5).map (fun j => bytes.getD (0 + j) 0) ++
      (List.range 5).map fun j => bytes.getD (5 + j) 0 := by
    match bytes, hlength with
    | [_, _, _, _, _, _, _, _, _, _], _ => rfl
  have hvalue : Entropy.value ⟨bytes, hlength⟩ =
      (half bytes 0).toNat * 2 ^ 40 + (half bytes 5).toNat := by
    have hparts := congrArg (fun l => Radix.value 256 (l.map BitVec.toNat)) hsplit
    simp only [List.map_append, Radix.value_append, List.length_map, List.length_range] at hparts
    rw [toNat_half, toNat_half]
    exact hparts.trans (by norm_num)
  have hlow : (half bytes 5).toNat < 32 ^ 8 := by
    rw [toNat_half]
    have hbyte : ∀ d ∈ ((List.range 5).map fun j => bytes.getD (5 + j) 0).map BitVec.toNat,
        d < 256 := by
      intro d hd
      obtain ⟨b, -, rfl⟩ := List.mem_map.mp hd
      exact b.isLt
    have hlt := Radix.value_lt (by norm_num) hbyte
    simp only [List.length_map, List.length_range] at hlt
    exact hlt.trans_eq (by norm_num)
  have hpow : (2 : ℕ) ^ 40 = 32 ^ 8 := by norm_num
  unfold encodeRandom
  rw [encodeGroups_eq, encodeGroups_eq, hvalue, hpow, Radix.digits_append (by norm_num) hlow 8,
    List.map_append]

theorem encode_eq {ts : ℕ} (hts : ts < 2 ^ 48) (e : Entropy) :
    encode ts e = text ALPHABET ts e := by
  unfold encode text
  rw [encodeTimestamp_eq (Int.natCast_nonneg ts) (by exact_mod_cast hts), encodeRandom_eq,
    List.map_append, Int.toNat_natCast]

theorem generate_eq (s : State) {call : Call} (hlt : call.timestampMs < 2 ^ 48) :
    (generate s call).2 =
      text ALPHABET (max call.timestampMs 0).toNat (generate s call).1.lastRandom := by
  have hts : max call.timestampMs 0 < 2 ^ 48 := max_lt hlt (by norm_num)
  simp only [generate, text]
  rw [encodeTimestamp_eq (le_max_right _ _) hts, encodeRandom_eq, List.map_append]

/-! ## 2. A call and the ids before it -/

theorem not_overflows_initial (call : Call) : ¬ Overflows initial call := by
  rintro ⟨hts, -⟩
  have hzero : 0 ≤ max call.timestampMs 0 := le_max_right _ _
  rw [hts] at hzero
  exact absurd hzero (by decide)

/-- The object after a call, in the three cases. -/
inductive Generates (s : State) (call : Call) : State → Prop where
  | fresh (hnew : max call.timestampMs 0 ≠ s.lastTimestamp) :
    Generates s call ⟨max call.timestampMs 0, call.random⟩
  | next (hsame : max call.timestampMs 0 = s.lastTimestamp) {e : Entropy}
    (hnot : ¬ Overflows s call) (hvalue : e.value = s.lastRandom.value + 1) :
    Generates s call { s with lastRandom := e }
  | overflow (hover : Overflows s call) : Generates s call ⟨s.lastTimestamp + 1, call.random⟩

theorem incrementRandom_cases (s : State) (random : Entropy) :
    (∃ e, incrementRandom s random = { s with lastRandom := e } ∧
      e.value = s.lastRandom.value + 1 ∧ ¬ ∀ b ∈ s.lastRandom.bytes, b = 0xFF) ∨
    incrementRandom s random = ⟨s.lastTimestamp + 1, random⟩ ∧
      ∀ b ∈ s.lastRandom.bytes, b = 0xFF := by
  have hloop := incremented_loop s.lastRandom.bytes.reverse
  unfold incrementRandom
  split
  · rename_i bytes h
    rw [h] at hloop
    refine .inl ⟨_, rfl, Incremented.value (by simpa using hloop), fun hall => ?_⟩
    have hwrapped := hloop.wrapped.mpr fun b hb => hall b (List.mem_reverse.mp hb)
    cases hwrapped
  · rename_i h
    rw [h] at hloop
    exact .inr ⟨rfl, fun b hb => hloop.wrapped.mp rfl b (List.mem_reverse.mpr hb)⟩

theorem generates (s : State) (call : Call) : Generates s call (generate s call).1 := by
  unfold generate
  dsimp only
  split
  · rename_i hsame
    rcases incrementRandom_cases s call.random with ⟨e, heq, hvalue, hnot⟩ | ⟨heq, hall⟩
    · rw [heq]
      exact .next hsame (fun hover => hnot hover.2) hvalue
    · rw [heq]
      exact .overflow ⟨hsame, hall⟩
  · rename_i hnew
    exact .fresh hnew

theorem lastTimestamp_generate {s : State} {call : Call} (hnot : ¬ Overflows s call) :
    (generate s call).1.lastTimestamp = max call.timestampMs 0 := by
  have hcases := generates s call
  generalize (generate s call).1 = s' at hcases ⊢
  cases hcases with
  | fresh hnew => rfl
  | next hsame => exact hsame.symm
  | overflow hover => exact absurd hover hnot

/-- The id lies above the last one. -/
def Above (s : State) (id : String) : Prop :=
  s.lastTimestamp = -1 ∨ text ALPHABET s.lastTimestamp.toNat s.lastRandom < id

theorem rules : Issues.Rules generate (fun s call => ¬ Overflows s call) Ordered Above where
  rest := by
    rintro s call calls ⟨-, hlow, hbounds, hsorted⟩ hnot
    obtain ⟨⟨hle, hlt⟩, hbounds⟩ := List.forall_mem_cons.mp hbounds
    obtain ⟨hfirst, hsorted⟩ := List.pairwise_cons.mp hsorted
    have hts : (generate s call).1.lastTimestamp = max call.timestampMs 0 :=
      lastTimestamp_generate hnot
    refine ⟨?_, ?_, fun call' hcall' => ⟨?_, (hbounds call' hcall').2⟩, hsorted⟩
    · rw [hts]
      exact max_lt hlt (by norm_num)
    · rw [hts]
      omega
    · rw [hts]
      exact max_le_max_right 0 (hfirst call' hcall')
  above_iff := by
    rintro s call calls ⟨hlast, hlow, hbounds, -⟩
    obtain ⟨⟨hle, hlt⟩, -⟩ := List.forall_mem_cons.mp hbounds
    have hnat : s.lastTimestamp.toNat < 2 ^ 48 := by omega
    have hnat' : (max call.timestampMs 0).toNat < 2 ^ 48 := by omega
    unfold Above
    rw [generate_eq s hlt, text_lt_iff ascends_ALPHABET hnat hnat']
    have hcases := generates s call
    generalize (generate s call).1 = s' at hcases ⊢
    cases hcases with
    | fresh hnew => exact iff_of_true (fun hover => hnew hover.1) (by omega)
    | @next hsame e hnot hvalue =>
      have hgreater : s.lastRandom.value < e.value := by omega
      exact iff_of_true hnot (.inr (.inr ⟨by omega, hgreater⟩))
    | overflow hover =>
      -- no random part lies above ten bytes that wrap around
      have hmax : call.random.value ≤ s.lastRandom.value := Entropy.le_of_wrapped hover.2
      have hsame := hover.1
      refine iff_of_false (fun hnot => hnot hover) ?_
      rintro (hfirst | hlt | ⟨-, hgreater⟩)
      · omega
      · omega
      · exact absurd hgreater (not_lt.mpr hmax)
  above_next := by
    rintro s call calls ⟨-, -, hbounds, -⟩ hnot id
    obtain ⟨⟨hle, hlt⟩, -⟩ := List.forall_mem_cons.mp hbounds
    rw [generate_eq s hlt]
    have hts : (generate s call).1.lastTimestamp = max call.timestampMs 0 :=
      lastTimestamp_generate hnot
    unfold Above
    rw [hts, or_iff_right (by omega)]
  upward := by
    rintro s id id' (hfirst | habove) hlt
    · exact .inl hfirst
    · exact .inr (habove.trans hlt)

end SyncProvider.Android.Ulid
