import Mathlib.Algebra.Order.Floor.Defs
import Mathlib.Data.Int.Log
import Mathlib.Data.Rat.Floor
import Mathlib.Tactic.Linarith
import Mathlib.Tactic.Positivity

/-!
# Doubles as rationals

A `Double` is a rational, an infinity, NaN or negative zero. Arithmetic is
exact, except that a result of magnitude `2 ^ 1024` or more is an infinity, as it
is in IEEE 754. `toNearest` rounds a result to the nearest value of 53 significant
digits: a program whose results depend on it applies it after each operation, and
one that is meant for exact numbers does not.

Negative zero is a value of its own, because it is a distinct bit pattern, but
arithmetic and comparison treat it as zero: `norm` removes it first.
-/

/-- An IEEE 754 binary64 value, its finite part any rational. -/
inductive Double where
  | nan
  | inf (neg : Bool)
  | negZero
  | fin (q : ℚ)
  deriving DecidableEq

namespace Double

/-- The value arithmetic sees: negative zero counts as zero. -/
def norm : Double → Double
  | negZero => fin 0
  | x => x

@[simp] theorem norm_nan : norm nan = nan := rfl
@[simp] theorem norm_inf (s : Bool) : norm (inf s) = inf s := rfl
@[simp] theorem norm_fin (q : ℚ) : norm (fin q) = fin q := rfl

/-- A finite result, or the infinity it overflows to. -/
def ofRat (q : ℚ) : Double :=
  if (2 : ℚ) ^ 1024 ≤ q then inf false else if q ≤ -(2 : ℚ) ^ 1024 then inf true else fin q

/-- The double of an integer. -/
def ofInt (n : Int) : Double := ofRat n

def isNaN : Double → Bool
  | nan => true
  | _ => false

def isInfinite : Double → Bool
  | inf _ => true
  | _ => false

def isFinite (x : Double) : Bool := !x.isNaN && !x.isInfinite

/-! ## Comparison -/

/-- `x < y`. A comparison with NaN is false. -/
def lt (x y : Double) : Bool :=
  match x.norm, y.norm with
  | fin a, fin b => a < b
  | fin _, inf s => !s
  | inf s, fin _ => s
  | inf s, inf s' => s && !s'
  | _, _ => false

/-- The smaller value, NaN when either one is. -/
def min (x y : Double) : Double :=
  if x.isNaN || y.isNaN then nan else if y.lt x then y else x

/-- `x` unless it is less than `bound`. Keeps NaN. -/
def coerceAtLeast (x bound : Double) : Double := if x.lt bound then bound else x

/-! ## Arithmetic -/

def add (x y : Double) : Double :=
  match x.norm, y.norm with
  | fin a, fin b => ofRat (a + b)
  | fin _, inf s => inf s
  | inf s, fin _ => inf s
  | inf s, inf s' => if s = s' then inf s else nan
  | _, _ => nan

/-- Multiplication. Zero times an infinity is NaN. -/
def mul (x y : Double) : Double :=
  match x.norm, y.norm with
  | fin a, fin b => ofRat (a * b)
  | fin a, inf s => if a = 0 then nan else inf (s != decide (a < 0))
  | inf s, fin b => if b = 0 then nan else inf (s != decide (b < 0))
  | inf s, inf s' => inf (s != s')
  | _, _ => nan

/-- `2.0` to the power of a natural number. -/
def pow2 (n : Nat) : Double := if 1024 ≤ n then inf false else fin (2 ^ n)

/-! ## Conversion to integers -/

/-- A rational cut towards zero. -/
def truncRat (q : ℚ) : Int := q.num.tdiv q.den

/-- Conversion to an integer type with the range `lo … hi`: cut towards zero,
saturating, and zero for NaN. -/
def truncSat (lo hi : Int) : Double → Int
  | nan => 0
  | negZero => 0
  | inf true => lo
  | inf false => hi
  | fin q => max lo (Min.min hi (truncRat q))

theorem truncSat_le {lo hi : Int} (hlo : lo ≤ 0) (hhi : 0 ≤ hi) (x : Double) :
    x.truncSat lo hi ≤ hi := by
  unfold truncSat
  split <;> omega

/-- Saturating conversion to a 32-bit integer. -/
def toInt32 : Double → Int := truncSat (-2 ^ 31) (2 ^ 31 - 1)

/-- Saturating conversion to a 64-bit integer. -/
def toInt64 : Double → Int := truncSat (-2 ^ 63) (2 ^ 63 - 1)

/-- A rational rounded to the nearest integer, halves away from zero. -/
def roundRat (q : ℚ) : Int := if q < 0 then -⌊-q + 1 / 2⌋ else ⌊q + 1 / 2⌋

/-- The nearest integer of a finite value, zero for the others. -/
def round : Double → Int
  | fin q => roundRat q
  | _ => 0

/-! ## Non-negative values -/

theorem ofRat_of_lt {q : ℚ} (h0 : 0 ≤ q) (h : q < 2 ^ 1024) : ofRat q = fin q := by
  have hneg : ¬ q ≤ -(2 : ℚ) ^ 1024 := by
    intro hle
    have hlt : q < 0 := hle.trans_lt (neg_lt_zero.mpr (by positivity))
    exact absurd h0 (not_le.mpr hlt)
  unfold ofRat
  rw [if_neg (not_le.mpr h), if_neg hneg]

theorem ofRat_of_le {q : ℚ} (h : (2 : ℚ) ^ 1024 ≤ q) : ofRat q = inf false := if_pos h

theorem add_ofRat {a b : ℚ} (ha : 0 ≤ a) (hb : 0 ≤ b) :
    (ofRat a).add (ofRat b) = ofRat (a + b) := by
  rcases lt_or_ge a (2 ^ 1024) with ha' | ha'
  · rw [ofRat_of_lt ha ha']
    rcases lt_or_ge b (2 ^ 1024) with hb' | hb'
    · rw [ofRat_of_lt hb hb']
      rfl
    · rw [ofRat_of_le hb', ofRat_of_le (hb'.trans (le_add_of_nonneg_left ha))]
      rfl
  · rw [ofRat_of_le ha', ofRat_of_le (ha'.trans (le_add_of_nonneg_right hb))]
    rcases lt_or_ge b (2 ^ 1024) with hb' | hb'
    · rw [ofRat_of_lt hb hb']
      rfl
    · rw [ofRat_of_le hb']
      rfl

theorem isInfinite_ofRat {a : ℚ} (ha : 0 ≤ a) :
    (ofRat a).isInfinite = true ↔ (2 : ℚ) ^ 1024 ≤ a := by
  rcases lt_or_ge a (2 ^ 1024) with h | h
  · rw [ofRat_of_lt ha h]
    simpa [isInfinite] using h
  · rw [ofRat_of_le h]
    simpa [isInfinite] using h

theorem pow2_eq (n : ℕ) : pow2 n = ofRat (2 ^ n) := by
  unfold pow2
  split
  · rename_i h
    exact (ofRat_of_le (pow_le_pow_right₀ (by norm_num) h)).symm
  · rename_i h
    exact (ofRat_of_lt (by positivity) (pow_lt_pow_right₀ (by norm_num) (not_le.mp h))).symm

/-- A positive factor times a non-negative value. -/
theorem mul_ofRat {b c : ℚ} (hb : 0 < b) (hc : 0 ≤ c) :
    (fin b).mul (ofRat c) = if c < 2 ^ 1024 then ofRat (b * c) else inf false := by
  split
  · rename_i h
    rw [ofRat_of_lt hc h]
    rfl
  · rename_i h
    rw [ofRat_of_le (not_lt.mp h)]
    simp [mul, hb.ne', hb.le]

theorem inf_mul_fin {f : ℚ} (hf : 0 < f) (neg : Bool) : (inf neg).mul (fin f) = inf neg := by
  unfold mul
  show (if f = 0 then nan else inf (neg != decide (f < 0))) = inf neg
  rw [if_neg hf.ne', decide_eq_false (not_lt.mpr hf.le)]
  simp

theorem inf_mul_ofRat {c : ℚ} (hc : 0 < c) (neg : Bool) : (inf neg).mul (ofRat c) = inf neg := by
  rcases lt_or_ge c (2 ^ 1024) with h | h
  · rw [ofRat_of_lt hc.le h, inf_mul_fin hc]
  · rw [ofRat_of_le h]
    cases neg <;> rfl

/-- Zero times a value that saturates is NaN once it is infinite. -/
theorem zero_mul_ofRat {x : Double} {c : ℚ} (hx : x.norm = fin 0) (hc : 0 ≤ c) :
    x.mul (ofRat c) = if c < 2 ^ 1024 then fin 0 else nan := by
  rcases lt_or_ge c (2 ^ 1024) with h | h
  · rw [if_pos h, ofRat_of_lt hc h]
    unfold mul
    rw [hx]
    show ofRat (0 * c) = fin 0
    rw [zero_mul]
    exact ofRat_of_lt le_rfl (by positivity)
  · rw [if_neg (not_lt.mpr h), ofRat_of_le h]
    unfold mul
    rw [hx]
    rfl

/-! ## Lower bounds -/

/-- `x ≥ q`. False for NaN. -/
def ge (x : Double) (q : ℚ) : Bool :=
  match x.norm with
  | fin a => q ≤ a
  | inf neg => !neg
  | _ => false

@[simp] theorem ge_fin (a q : ℚ) : (fin a).ge q = decide (q ≤ a) := rfl
@[simp] theorem ge_inf (neg : Bool) (q : ℚ) : (inf neg).ge q = !neg := rfl
@[simp] theorem ge_nan (q : ℚ) : nan.ge q = false := rfl
@[simp] theorem ge_negZero (q : ℚ) : negZero.ge q = decide (q ≤ 0) := rfl

theorem ge_ofRat {a q : ℚ} (ha : 0 ≤ a) (hq : q ≤ 2 ^ 1024) :
    (ofRat a).ge q = decide (q ≤ a) := by
  rcases lt_or_ge a (2 ^ 1024) with ha' | ha'
  · rw [ofRat_of_lt ha ha', ge_fin]
  · rw [ofRat_of_le ha', ge_inf]
    simpa using hq.trans ha'

theorem ge_min (x y : Double) (q : ℚ) : (x.min y).ge q = (x.ge q && y.ge q) := by
  rcases x with _ | (_ | _) | _ | a <;> rcases y with _ | (_ | _) | _ | b <;>
    simp [min, isNaN, lt, norm] <;> grind [ge_fin, ge_negZero]

theorem ge_coerceAtLeast (x b : Double) (q : ℚ) :
    (x.coerceAtLeast b).ge q = (x.ge q || !x.isNaN && b.ge q) := by
  rcases x with _ | (_ | _) | _ | a <;> rcases b with _ | (_ | _) | _ | b <;>
    simp [coerceAtLeast, isNaN, lt, norm] <;> grind [ge_fin, ge_negZero]

theorem truncRat_of_nonneg {q : ℚ} (h : 0 ≤ q) : truncRat q = ⌊q⌋ := by
  unfold truncRat
  rw [Rat.floor_def', Int.tdiv_eq_ediv_of_nonneg (Rat.num_nonneg.mpr h)]

theorem truncRat_nonpos {q : ℚ} (h : q < 0) : truncRat q ≤ 0 := by
  have hneg : 0 ≤ (-q.num).tdiv q.den :=
    Int.tdiv_nonneg (neg_nonneg.mpr (Rat.num_nonpos.mpr h.le)) (Int.natCast_nonneg _)
  rw [Int.neg_tdiv] at hneg
  unfold truncRat
  omega

theorem truncRat_neg (q : ℚ) : truncRat (-q) = -truncRat q := by
  unfold truncRat
  rw [Rat.num_neg_eq_neg_num, Rat.den_neg_eq_den, Int.neg_tdiv]

theorem truncRat_lt_iff {q : ℚ} {n : Int} (hn : 0 < n) : truncRat q < n ↔ q < n := by
  rcases lt_or_ge q 0 with hq | hq
  · have hpos : (0 : ℚ) < n := by exact_mod_cast hn
    exact ⟨fun _ => hq.trans hpos, fun _ => (truncRat_nonpos hq).trans_lt hn⟩
  · rw [truncRat_of_nonneg hq, Int.floor_lt]

theorem lt_truncRat_iff {q : ℚ} {n : Int} (hn : n < 0) : n < truncRat q ↔ (n : ℚ) < q := by
  have hneg := truncRat_lt_iff (q := -q) (neg_pos.mpr hn)
  rw [truncRat_neg] at hneg
  rw [← neg_lt_neg_iff, hneg, Int.cast_neg, neg_lt_neg_iff]

theorem le_toInt64_iff {x : Double} {n : Int} (h0 : 0 < n) (h : n < 2 ^ 63) :
    n ≤ x.toInt64 ↔ x.ge n = true := by
  unfold toInt64 truncSat
  rcases x with _ | (_ | _) | _ | q
  · simp only [ge_nan]
    grind
  · simp only [ge_inf]
    grind
  · simp only [ge_inf]
    grind
  · simp only [ge_negZero, decide_eq_true_eq]
    have : ¬ ((n : ℚ) ≤ 0) := by
      exact_mod_cast not_le.mpr h0
    grind
  · simp only [ge_fin, decide_eq_true_eq]
    have hq : n ≤ truncRat q ↔ (n : ℚ) ≤ q := by
      rcases lt_or_ge q 0 with hq | hq
      · have hn : ¬ ((n : ℚ) ≤ q) := by
          have : (0 : ℚ) < n := by exact_mod_cast h0
          exact not_le.mpr (hq.trans this)
        have := truncRat_nonpos hq
        simp only [hn, iff_false]
        omega
      · rw [truncRat_of_nonneg hq, Int.le_floor]
    rw [← hq]
    omega

/-- Not below zero, or NaN. -/
def NonNeg (x : Double) : Prop := x.isNaN = true ∨ x.ge 0 = true

theorem nonNeg_ofRat {q : ℚ} (h : 0 ≤ q) : (ofRat q).NonNeg := by
  rcases lt_or_ge q (2 ^ 1024) with hq | hq
  · rw [ofRat_of_lt h hq]
    exact .inr (by simpa using h)
  · rw [ofRat_of_le hq]
    exact .inr rfl

theorem NonNeg.norm_cases {x : Double} (h : x.NonNeg) :
    x.norm = nan ∨ x.norm = inf false ∨ ∃ a, 0 ≤ a ∧ x.norm = fin a := by
  rcases x with _ | (_ | _) | _ | a
  · exact .inl rfl
  · exact .inr (.inl rfl)
  · rcases h with h | h <;> cases h
  · exact .inr (.inr ⟨0, le_rfl, rfl⟩)
  · exact .inr (.inr ⟨a, by simpa [NonNeg, isNaN] using h, rfl⟩)

theorem NonNeg.mul {x y : Double} (hx : x.NonNeg) (hy : y.NonNeg) : (x.mul y).NonNeg := by
  have hinf {a : ℚ} (ha : 0 ≤ a) :
      (if a = 0 then nan else inf (false != decide (a < 0))).NonNeg := by
    split
    · exact .inl rfl
    · rw [decide_eq_false (not_lt.mpr ha)]
      exact .inr rfl
  unfold Double.mul
  rcases hx.norm_cases with hx | hx | ⟨a, ha, hx⟩ <;>
    rcases hy.norm_cases with hy | hy | ⟨b, hb, hy⟩ <;> rw [hx, hy]
  · exact .inl rfl
  · exact .inl rfl
  · exact .inl rfl
  · exact .inl rfl
  · exact .inr rfl
  · exact hinf hb
  · exact .inl rfl
  · exact hinf ha
  · exact nonNeg_ofRat (mul_nonneg ha hb)

theorem NonNeg.min {x y : Double} (hx : x.NonNeg) (hy : x.isNaN = false → y.NonNeg) :
    (x.min y).NonNeg := by
  unfold NonNeg at hx hy ⊢
  rw [ge_min, Bool.and_eq_true]
  unfold Double.min
  cases hxn : x.isNaN with
  | true => exact .inl rfl
  | false =>
    cases hyn : y.isNaN with
    | true => exact .inl rfl
    | false => exact .inr ⟨by simpa [hxn] using hx, by simpa [hyn] using hy hxn⟩

theorem NonNeg.coerceAtLeast {b : Double} (hb : b.ge 0 = true) (x : Double) :
    (x.coerceAtLeast b).NonNeg := by
  unfold NonNeg
  rw [ge_coerceAtLeast, hb]
  cases x with
  | nan => exact .inl rfl
  | inf neg | negZero | fin q => exact .inr (by simp [isNaN])

theorem toInt64_nonneg {x : Double} (h : x.NonNeg) : 0 ≤ x.toInt64 := by
  unfold toInt64 truncSat
  rcases x with _ | (_ | _) | _ | q
  · exact le_rfl
  · decide
  · rcases h with h | h <;> cases h
  · exact le_rfl
  · have hq : 0 ≤ q := by simpa [NonNeg, isNaN] using h
    show 0 ≤ max (-2 ^ 63) (Min.min (2 ^ 63 - 1) (truncRat q))
    rw [truncRat_of_nonneg hq]
    have := Int.floor_nonneg.mpr hq
    omega

/-! ## Saturated values -/

/-- The double stands for `q`: it is `q`, or infinite because `q` is huge. -/
def Covers (x : Double) (q : ℚ) : Prop := x = fin q ∨ x = inf false ∧ 2 ^ 1000 ≤ q

theorem covers_ofRat {q : ℚ} (h : 0 ≤ q) : (ofRat q).Covers q := by
  rcases lt_or_ge q (2 ^ 1024) with hq | hq
  · exact .inl (ofRat_of_lt h hq)
  · exact .inr ⟨ofRat_of_le hq, (pow_le_pow_right₀ (by norm_num) (by norm_num)).trans hq⟩

theorem covers_mul_fin {p f : ℚ} (hp : 0 ≤ p) (hf : 1 / 2 ≤ f) :
    ((ofRat p).mul (fin f)).Covers (p * f) := by
  have hf0 : 0 < f := lt_of_lt_of_le (by norm_num) hf
  rcases lt_or_ge p (2 ^ 1024) with h | h
  · rw [ofRat_of_lt hp h]
    exact covers_ofRat (mul_nonneg hp hf0.le)
  · rw [ofRat_of_le h, inf_mul_fin hf0]
    refine .inr ⟨rfl, ?_⟩
    have hsplit : (1024 : ℕ) = 1000 + 24 := by norm_num
    rw [hsplit, pow_add] at h
    calc (2 : ℚ) ^ 1000 ≤ 2 ^ 1000 * 2 ^ 24 * (1 / 2) := by
          rw [mul_assoc]
          exact le_mul_of_one_le_right (by positivity) (by norm_num)
      _ ≤ p * f := mul_le_mul h hf (by norm_num) hp

theorem Covers.isNaN {x : Double} {q : ℚ} (h : x.Covers q) : x.isNaN = false := by
  rcases h with rfl | ⟨rfl, -⟩ <;> rfl

theorem Covers.min_self {x : Double} {q : ℚ} (h : x.Covers q) : x.min x = x := by
  unfold Double.min
  rw [h.isNaN]
  simp

theorem fin_min_fin (a b : ℚ) : (fin a).min (fin b) = fin (Min.min a b) := by
  simp only [Double.min, Double.isNaN, lt, norm, Bool.or_self, Bool.false_eq_true, if_false,
    decide_eq_true_eq]
  split
  · rename_i hlt
    rw [min_eq_right hlt.le]
  · rename_i hle
    rw [min_eq_left (not_lt.mp hle)]

/-- Under a cap that is not huge, it is the value that counts. -/
theorem Covers.min_fin {x : Double} {q m : ℚ} (h : x.Covers q) (hm : m ≤ 2 ^ 1000) :
    x.min (fin m) = fin (Min.min q m) := by
  rcases h with rfl | ⟨rfl, hq⟩
  · exact fin_min_fin q m
  · rw [min_eq_right (hm.trans hq)]
    rfl

/-- Under such a cap, another one may saturate. -/
theorem Covers.min_min_fin {x y : Double} {q c m : ℚ} (hx : x.Covers q) (hy : y.Covers c)
    (hm : m ≤ 2 ^ 1000) : (x.min y).min (fin m) = fin (Min.min (Min.min q c) m) := by
  rcases hx with rfl | ⟨rfl, hq⟩
  · rcases hy with rfl | ⟨rfl, hc⟩
    · rw [fin_min_fin, fin_min_fin]
    · have hmin : (fin q).min (inf false) = fin q := rfl
      rw [hmin, fin_min_fin, min_assoc, min_eq_right (hm.trans hc)]
  · rcases hy with rfl | ⟨rfl, hc⟩
    · have hmin : (inf false).min (fin c) = fin c := rfl
      rw [hmin, fin_min_fin, min_comm q, min_assoc, min_eq_right (hm.trans hq)]
    · have hmin : ((inf false).min (inf false)).min (fin m) = fin m := rfl
      rw [hmin, min_eq_right (hm.trans (le_min hq hc))]

/-! ## Rounding -/

/-- The nearest integer, the even one of two that are equally near. -/
def roundEven (q : ℚ) : Int :=
  if q - ⌊q⌋ < 1 / 2 ∨ q - ⌊q⌋ = 1 / 2 ∧ ⌊q⌋ % 2 = 0 then ⌊q⌋ else ⌊q⌋ + 1

/-- The exponent of the last of 53 significant digits, and no less than that of
the smallest subnormal. -/
def lastExponent (q : ℚ) : Int := max (Int.log 2 |q| - 52) (-1074)

/-- The nearest value of 53 significant binary digits, the even one of two. -/
def nearest (q : ℚ) : ℚ := roundEven (q / 2 ^ lastExponent q) * 2 ^ lastExponent q

example : nearest (2 ^ 53 + 1) = 2 ^ 53 ∧ nearest (2 ^ 53 + 3) = 2 ^ 53 + 4 := by decide +kernel

/-- The result of an operation, rounded as IEEE 754 does by default. -/
def toNearest : Double → Double
  | fin q => ofRat (nearest q)
  | x => x

theorem le_roundEven {n : Int} {q : ℚ} (h : (n : ℚ) ≤ q) : n ≤ roundEven q := by
  have := Int.le_floor.mpr h
  unfold roundEven
  split <;> omega

theorem roundEven_le {n : Int} {q : ℚ} (h : q ≤ n) : roundEven q ≤ n := by
  have hfloor : ⌊q⌋ ≤ n := by exact_mod_cast (Int.floor_le q).trans h
  unfold roundEven
  split
  · exact hfloor
  · rename_i hup
    have hne : ⌊q⌋ ≠ n := by
      rintro rfl
      have : q - ⌊q⌋ ≤ 0 := by linarith
      exact hup (.inl (by linarith))
    omega

/-- A power of two above the last digit is a whole number of last digits. -/
theorem zpow_eq_mul {e k : Int} (h : e ≤ k) :
    (2 : ℚ) ^ k = ((2 ^ (k - e).toNat : Int) : ℚ) * 2 ^ e := by
  have hsplit : k = ((k - e).toNat : Int) + e := by omega
  conv_lhs => rw [hsplit]
  rw [zpow_add₀ (by norm_num), zpow_natCast]
  push_cast
  rfl

theorem lastExponent_le {q : ℚ} {k : Int} (hk : -1074 ≤ k) (h0 : 0 < q) (h : q ≤ 2 ^ k) :
    lastExponent q ≤ k := by
  have hlt : q < ((2 : ℕ) : ℚ) ^ (k + 1) :=
    h.trans_lt (zpow_lt_zpow_right₀ (by norm_num) (by omega))
  have hlog := (Int.lt_zpow_iff_log_lt (by norm_num) h0).mp hlt
  unfold lastExponent
  rw [abs_of_pos h0]
  omega

/-- Rounding does not cross a power of two, from below. -/
theorem nearest_le_zpow {q : ℚ} {k : Int} (hk : -1074 ≤ k) (h0 : 0 < q) (h : q ≤ 2 ^ k) :
    nearest q ≤ 2 ^ k := by
  have he := lastExponent_le hk h0 h
  have hpos : (0 : ℚ) < 2 ^ lastExponent q := zpow_pos (by norm_num) _
  unfold nearest
  rw [zpow_eq_mul he] at h ⊢
  refine mul_le_mul_of_nonneg_right ?_ hpos.le
  exact_mod_cast roundEven_le ((div_le_iff₀ hpos).mpr h)

/-- Nor from above. -/
theorem zpow_le_nearest {q : ℚ} {k : Int} (hk : -1074 ≤ k) (h : 2 ^ k ≤ q) :
    2 ^ k ≤ nearest q := by
  have h0 : 0 < q := (zpow_pos (by norm_num) k).trans_le h
  have hlog : k ≤ Int.log 2 q := (Int.zpow_le_iff_le_log (by norm_num) h0).mp h
  have hpow : (2 : ℚ) ^ Int.log 2 q ≤ q := Int.zpow_log_le_self (b := 2) (by norm_num) h0
  have he : lastExponent q ≤ Int.log 2 q := by
    unfold lastExponent
    rw [abs_of_pos h0]
    omega
  have hpos : (0 : ℚ) < 2 ^ lastExponent q := zpow_pos (by norm_num) _
  calc (2 : ℚ) ^ k ≤ 2 ^ Int.log 2 q := zpow_le_zpow_right₀ (by norm_num) hlog
    _ ≤ nearest q := by
      unfold nearest
      rw [zpow_eq_mul he] at hpow ⊢
      refine mul_le_mul_of_nonneg_right ?_ hpos.le
      exact_mod_cast le_roundEven ((le_div_iff₀ hpos).mpr hpow)

@[simp] theorem nearest_zero : nearest 0 = 0 := by
  simp [nearest, roundEven]

theorem nearest_nonneg {q : ℚ} (h : 0 ≤ q) : 0 ≤ nearest q := by
  have hpos : (0 : ℚ) < 2 ^ lastExponent q := zpow_pos (by norm_num) _
  have hround : 0 ≤ roundEven (q / 2 ^ lastExponent q) :=
    le_roundEven (by exact_mod_cast div_nonneg h hpos.le)
  exact mul_nonneg (by exact_mod_cast hround) hpos.le

@[simp] theorem toNearest_nan : toNearest nan = nan := rfl
@[simp] theorem toNearest_inf (neg : Bool) : toNearest (inf neg) = inf neg := rfl

/-- A value that overflows does so before or after it is rounded. -/
theorem toNearest_ofRat {q : ℚ} (h : 0 ≤ q) : toNearest (ofRat q) = ofRat (nearest q) := by
  rcases lt_or_ge q (2 ^ 1024) with hq | hq
  · rw [ofRat_of_lt h hq]
    rfl
  · have hround : (2 : ℚ) ^ 1024 ≤ nearest q := by
      exact_mod_cast zpow_le_nearest (k := 1024) (by norm_num) (by exact_mod_cast hq)
    rw [ofRat_of_le hq, ofRat_of_le hround]
    rfl

theorem NonNeg.toNearest {x : Double} (h : x.NonNeg) : x.toNearest.NonNeg := by
  rcases x with _ | (_ | _) | _ | q
  · exact h
  · exact h
  · exact h
  · exact h
  · exact nonNeg_ofRat (nearest_nonneg (by simpa [NonNeg, isNaN] using h))

end Double

/-! ## Fixed-width integers -/

/-- A 32-bit two's complement result. -/
def wrap32 (n : Int) : Int := n.bmod (2 ^ 32)

/-- A 64-bit two's complement result. -/
def wrap64 (n : Int) : Int := n.bmod (2 ^ 64)

theorem wrap32_eq_self {n : Int} (hlo : -2 ^ 31 ≤ n) (hhi : n < 2 ^ 31) : wrap32 n = n := by
  unfold wrap32
  rw [Int.bmod_eq_of_le] <;> omega
