import SyncProvider.Android.Cooldown
import SyncProvider.Ios.Options
import SyncProvider.Js.RetryBackoff

/-!
# Agreement of the three retry evaluators

JS and iOS round a delay to the nearest millisecond, Android cuts it off. JS and
iOS take a cap of zero for no cap, Android takes the base delay instead, and
raises any cap to the base delay. iOS bounds its result by `2 ^ 53 - 1`, and JS
has no value for zero times an infinite curve. All of this is about exact numbers:
no result is rounded to a double.

Results:
1. `Ios.RetryPolicyEvaluator.rawDelay_eq`, `Android.RetryPolicyEvaluator.rawDelay_eq` :
   the delay follows the curve.
2. `computeNextDelayMs_eq_iff`, `nextDelayMs_eq`, `computeDelayMs_eq_floor` : what
   the three return, over the exact delay.
3. `agree_iff` : when the three return the same number.
4. `jitter_splits` : a jittered delay that one platform cuts off.
-/

namespace SyncProvider

open Backoff

/-! ## 1. The curve -/

namespace Ios.RetryPolicyEvaluator

theorem fibonacci_eq {n : Int} (hn : 1 ≤ n) : fibonacci n = .ofRat (Nat.fib n.toNat) := by
  have hloop : fibonacciLoop (n - 2).toNat (.fin 1) (.fin 1) = .ofRat (Nat.fib n.toNat) := by
    refine fibonacci_of_loop fibonacciLoop (fun m => rfl) (fun k m => ?_) hn
    have hpass : fibonacciLoop (k + 1) (.ofRat (Nat.fib m)) (.ofRat (Nat.fib (m + 1))) =
        if (Double.ofRat (Nat.fib (m + 2))).isInfinite then .ofRat (Nat.fib (m + 2))
        else fibonacciLoop k (.ofRat (Nat.fib (m + 1))) (.ofRat (Nat.fib (m + 2))) := by
      rw [← add_fib]
      rfl
    rw [hpass]
    by_cases hinf : (Double.ofRat (Nat.fib (m + 2))).isInfinite = true
    · exact .inr ⟨m + 2, le_rfl, hinf, if_pos hinf⟩
    · exact .inl (if_neg hinf)
  unfold fibonacci
  rw [if_neg (by omega), ← hloop]
  split
  · have hpasses : (n - 2).toNat = 0 := by omega
    rw [hpasses]
    rfl
  · rfl

/-- The delay of a policy before any cap, exact. A negative base delay counts as zero. -/
def exactDelay (attempt : Int) (policy : RetryPolicyValue) (sample : ℚ) : ℚ :=
  uncappedDelay policy.backoff policy.jitter policy.baseDelayMs.toNat (max 1 attempt).toNat sample

/-- The exact delay under the cap, where anything but a positive cap stands for no cap. -/
def exactCappedDelay (attempt : Int) (policy : RetryPolicyValue) (sample : ℚ) : ℚ :=
  if 0 < policy.maxDelayMs then min (exactDelay attempt policy sample) policy.maxDelayMs
  else exactDelay attempt policy sample

variable {attempt : Int} {policy : RetryPolicyValue} {sample : ℚ}

theorem exactDelay_nonneg (h : 0 ≤ sample) : 0 ≤ exactDelay attempt policy sample := by
  have hfactor := le_jitterFactor policy.jitter h
  exact mul_nonneg (by positivity) (by linarith)

theorem exactCappedDelay_nonneg (h : 0 ≤ sample) : 0 ≤ exactCappedDelay attempt policy sample := by
  unfold exactCappedDelay
  split
  · rename_i hcap
    exact le_min (exactDelay_nonneg h) (by exact_mod_cast hcap.le)
  · exact exactDelay_nonneg h

theorem rawDelay_eq (h : 1 ≤ attempt) (base : ℕ) (policy : RetryPolicyValue) :
    rawDelay attempt base policy =
      (Double.ofRat base).mul (.ofRat (curve policy.backoff attempt.toNat)) := by
  have hbase : Double.ofInt base = .ofRat base := by
    unfold Double.ofInt
    rw [Int.cast_natCast]
  unfold rawDelay
  rw [hbase]
  cases policy.backoff with
  | linear =>
    show (Double.ofRat base).mul (.ofInt attempt) = _
    rw [ofInt_eq_curve (by omega)]
  | exponential =>
    show (Double.ofRat base).mul (.pow2 (attempt - 1).toNat) = _
    rw [pow2_eq_curve]
  | fibonacci =>
    show (Double.ofRat base).mul (fibonacci attempt) = _
    rw [fibonacci_eq h]
    rfl

/-- The curve without its NaN, which is that of a base delay of zero. -/
theorem finite_eq {n : ℕ} (hn : 0 < n) (base : ℕ) (backoff : BackoffStrategy) :
    (if ((Double.ofRat base).mul (.ofRat (curve backoff n))).isNaN then Double.fin 0
      else (Double.ofRat base).mul (.ofRat (curve backoff n))) =
      .ofRat (base * curve backoff n) := by
  have hc : (0 : ℚ) < curve backoff n := by exact_mod_cast curve_pos backoff hn
  have hcurve : (0 : ℚ) ≤ base * curve backoff n := by positivity
  rcases lt_or_ge (base : ℚ) (2 ^ 1024) with hsmall | hlarge
  · rw [Double.ofRat_of_lt (Nat.cast_nonneg base) hsmall]
    by_cases hdef : Undefined backoff base n
    · rw [mul_curve_of_undefined hdef, hdef.1, Nat.cast_zero, zero_mul]
      exact (Double.ofRat_of_lt le_rfl (by positivity)).symm
    · rw [mul_curve hn hdef, (Double.covers_ofRat hcurve).isNaN]
      rfl
  · have hone : (1 : ℚ) ≤ curve backoff n := by exact_mod_cast curve_pos backoff hn
    have hproduct : (2 : ℚ) ^ 1024 ≤ base * curve backoff n :=
      hlarge.trans (le_mul_of_one_le_right (Nat.cast_nonneg base) hone)
    rw [Double.ofRat_of_le hlarge, Double.inf_mul_ofRat hc, Double.ofRat_of_le hproduct]
    rfl

/-- What iOS returns: the exact delay under its caps, rounded. -/
theorem nextDelayMs_eq_floor (h : 0 ≤ sample) :
    nextDelayMs attempt policy sample =
      ⌊min (exactCappedDelay attempt policy sample) (2 ^ 53 - 1) + 1 / 2⌋ := by
  have hattempt : 1 ≤ max 1 attempt := le_max_left 1 attempt
  have hpos : 0 < (max 1 attempt).toNat := by omega
  have hbase : max 0 policy.baseDelayMs = (policy.baseDelayMs.toNat : Int) := by omega
  have hcurve : (0 : ℚ) ≤
      policy.baseDelayMs.toNat * curve policy.backoff (max 1 attempt).toNat := by positivity
  have hraw := covers_jittered policy.jitter hcurve h
  have hmax : (9007199254740991 : ℚ) ≤ 2 ^ 1000 :=
    calc (9007199254740991 : ℚ) ≤ 2 ^ 53 := by norm_num
      _ ≤ 2 ^ 1000 := pow_le_pow_right₀ (by norm_num) (by norm_num)
  have hnonneg : ¬ min (exactCappedDelay attempt policy sample) 9007199254740991 < 0 :=
    not_lt.mpr (le_min (exactCappedDelay_nonneg h) (by norm_num))
  unfold nextDelayMs
  simp only [hbase, rawDelay_eq hattempt, finite_eq hpos]
  generalize (if policy.jitter = true then _ else Double.ofRat _ : Double) = raw at hraw ⊢
  change raw.Covers (exactDelay attempt policy sample) at hraw
  have hclamp : raw.coerceAtLeast (.fin 0) = raw := by
    have hdelay : ¬ exactDelay attempt policy sample < 0 := not_lt.mpr (exactDelay_nonneg h)
    rcases hraw with rfl | ⟨rfl, -⟩
    · simp [Double.coerceAtLeast, Double.lt, Double.norm, hdelay]
    · rfl
  have hcapped : (raw.min (if policy.maxDelayMs > 0 then .ofInt policy.maxDelayMs else raw)).min
      maxRepresentableDelayMs =
      .fin (min (exactCappedDelay attempt policy sample) 9007199254740991) := by
    unfold exactCappedDelay
    split
    · rename_i hcap
      have hcap' : (0 : ℚ) ≤ policy.maxDelayMs := by exact_mod_cast hcap.le
      exact hraw.min_min_fin (Double.covers_ofRat hcap') hmax
    · rw [hraw.min_self]
      exact hraw.min_fin hmax
  rw [hclamp, hcapped]
  show (if min (exactCappedDelay attempt policy sample) 9007199254740991 < 0 then _
    else ⌊min (exactCappedDelay attempt policy sample) 9007199254740991 + 1 / 2⌋) = _
  rw [if_neg hnonneg]
  norm_num

end Ios.RetryPolicyEvaluator

namespace Android.RetryPolicyEvaluator

theorem fibonacci_eq {n : Int} (hn : 1 ≤ n) : fibonacci n = .ofRat (Nat.fib n.toNat) := by
  unfold fibonacci
  split
  · obtain rfl : n = 1 := by omega
    rfl
  · refine fibonacci_of_loop (fibonacciLoop id) (fun m => rfl) (fun k m => ?_) hn
    have hpass : fibonacciLoop id (k + 1) (.ofRat (Nat.fib m)) (.ofRat (Nat.fib (m + 1))) =
        if (Double.ofRat (Nat.fib (m + 1))).isInfinite then .ofRat (Nat.fib (m + 1))
        else fibonacciLoop id k (.ofRat (Nat.fib (m + 1))) (.ofRat (Nat.fib (m + 2))) := by
      rw [← add_fib]
      rfl
    rw [hpass]
    by_cases hinf : (Double.ofRat (Nat.fib (m + 1))).isInfinite = true
    · exact .inr ⟨m + 1, Nat.le_succ _, hinf, if_pos hinf⟩
    · exact .inl (if_neg hinf)

theorem rawDelay_eq {attempt : Int} (h : 1 ≤ attempt) (policy : RetryPolicy) (base : Double) :
    rawDelay attempt policy base = base.mul (.ofRat (curve policy.backoff attempt.toNat)) := by
  unfold rawDelay
  cases policy.backoff with
  | linear =>
    show base.mul (.ofInt attempt) = _
    rw [ofInt_eq_curve (by omega)]
  | exponential =>
    show base.mul (.pow2 (attempt - 1).toNat) = _
    rw [pow2_eq_curve]
  | fibonacci =>
    show base.mul (fibonacci attempt) = _
    rw [fibonacci_eq h]
    rfl

/-- The jitter of `computeDelayMs` leaves a zero alone, which is what a factor does. -/
theorem covers_spread (jitter : Bool) {p sample : ℚ} (hp : 0 ≤ p) (h : 0 ≤ sample) :
    (spread jitter sample (.ofRat p)).Covers (p * jitterFactor jitter sample) := by
  rcases hp.lt_or_eq with hpos | rfl
  · rw [spread_ofRat hpos]
    exact covers_jittered jitter hp h
  · have hzero : Double.ofRat 0 = .fin 0 := Double.ofRat_of_lt le_rfl (by positivity)
    rw [hzero, spread_zero, zero_mul]
    exact .inl rfl

end Android.RetryPolicyEvaluator

/-! ## 2. What the three return -/

/-- A retry policy of whole numbers, in the range of the 64-bit integers of iOS. -/
structure WholePolicy where
  maxAttempts : ℕ
  backoff : BackoffStrategy
  baseDelayMs : ℕ
  maxDelayMs : ℕ
  jitter : Bool
  retryOnStatusCodes : List ℕ
  baseDelayMs_lt : baseDelayMs < 2 ^ 63
  maxDelayMs_lt : maxDelayMs < 2 ^ 63

namespace WholePolicy

def toJs (p : WholePolicy) : Js.RetryPolicy where
  maxAttempts := .fin p.maxAttempts
  backoff := p.backoff
  baseDelayMs := .fin p.baseDelayMs
  maxDelayMs := .fin p.maxDelayMs
  jitter := p.jitter
  retryOnStatusCodes := p.retryOnStatusCodes.map fun code => .fin code

def toIos (p : WholePolicy) : Ios.RetryPolicyValue where
  maxAttempts := p.maxAttempts
  backoff := p.backoff
  baseDelayMs := p.baseDelayMs
  maxDelayMs := p.maxDelayMs
  jitter := p.jitter
  retryOnStatusCodes := p.retryOnStatusCodes.map fun code => code

def toAndroid (p : WholePolicy) : Android.RetryPolicy where
  maxAttempts := .fin p.maxAttempts
  backoff := p.backoff
  baseDelayMs := .fin p.baseDelayMs
  maxDelayMs := .fin p.maxDelayMs
  jitter := p.jitter
  retryOnStatusCodes := p.retryOnStatusCodes.map fun code => .fin code

/-- The exact delay before any cap. -/
def delay (p : WholePolicy) (attempt : ℕ) (sample : ℚ) : ℚ :=
  uncappedDelay p.backoff p.jitter p.baseDelayMs attempt sample

/-- The exact delay under the cap, where zero stands for no cap. -/
def cappedDelay (p : WholePolicy) (attempt : ℕ) (sample : ℚ) : ℚ :=
  if p.maxDelayMs = 0 then p.delay attempt sample
  else min (p.delay attempt sample) p.maxDelayMs

variable {p : WholePolicy} {attempt : ℕ} {sample : ℚ}

theorem delay_nonneg (h : 0 ≤ sample) : 0 ≤ p.delay attempt sample := by
  have hfactor := le_jitterFactor p.jitter h
  exact mul_nonneg (by positivity) (by linarith)

theorem cappedDelay_nonneg (h : 0 ≤ sample) : 0 ≤ p.cappedDelay attempt sample := by
  have hdelay : 0 ≤ p.delay attempt sample := delay_nonneg h
  unfold cappedDelay
  split
  · exact hdelay
  · exact le_min hdelay (by positivity)

/-- Small whole numbers are out of reach of saturation. -/
theorem natCast_le_huge {n : ℕ} (h : n < 2 ^ 63) : (n : ℚ) ≤ 2 ^ 1000 := by
  have hlt : (n : ℚ) < 2 ^ 63 := by exact_mod_cast h
  exact hlt.le.trans (pow_le_pow_right₀ (by norm_num) (by norm_num))

theorem mathMax_zero {x : Double} {q : ℚ} (hx : x.Covers q) (hq : 0 ≤ q) :
    Js.mathMax (.fin 0) x = x := by
  rcases hx with rfl | ⟨rfl, -⟩
  · rcases hq.lt_or_eq with hpos | rfl
    · simp [Js.mathMax, Double.isNaN, Double.lt, Double.norm, hpos]
    · decide +kernel
  · rfl

/-- JS without its rounding: the capped delay, or an infinite one. -/
theorem computeNextDelayMs_eq (h : 0 ≤ sample) (hattempt : 1 ≤ attempt)
    (hdef : ¬ Undefined p.backoff p.baseDelayMs attempt) :
    ∃ x : Double, x.Covers (p.cappedDelay attempt sample) ∧
      Js.RetryBackoff.computeNextDelayMs attempt p.toJs sample = Js.mathRound x := by
  have hfloor : max 1 ⌊(attempt : ℚ)⌋ = (attempt : Int) := by
    rw [Int.floor_natCast]
    omega
  have hbase : Js.mathMax (.fin 0) (.fin p.baseDelayMs) = .fin p.baseDelayMs :=
    mathMax_zero (.inl rfl) (by positivity)
  have hcurve : (0 : ℚ) ≤ p.baseDelayMs * curve p.backoff attempt := by positivity
  have hraw := covers_jittered p.jitter hcurve h
  unfold Js.RetryBackoff.computeNextDelayMs
  simp only [hfloor, toJs, hbase, Js.RetryBackoff.rawDelay_eq hattempt, mul_curve hattempt hdef]
  generalize (if p.jitter = true then _ else Double.ofRat _ : Double) = raw at hraw ⊢
  change raw.Covers (p.delay attempt sample) at hraw
  rw [mathMax_zero hraw (delay_nonneg h)]
  refine ⟨_, ?_, rfl⟩
  unfold cappedDelay
  rcases Nat.eq_zero_or_pos p.maxDelayMs with hzero | hpos
  · rw [hzero, if_pos rfl, if_neg (by decide +kernel), hraw.min_self]
    exact hraw
  · have hlt : (Double.fin 0).lt (.fin p.maxDelayMs) = true := by
      simpa [Double.lt, Double.norm] using hpos
    rw [if_neg hpos.ne', if_pos hlt, hraw.min_fin (natCast_le_huge p.maxDelayMs_lt)]
    exact .inl rfl

/-- Zero times an infinite curve stays NaN on JS. -/
theorem computeNextDelayMs_of_undefined (hattempt : 1 ≤ attempt)
    (hundef : Undefined p.backoff p.baseDelayMs attempt) :
    Js.RetryBackoff.computeNextDelayMs attempt p.toJs sample = .nan := by
  have hfloor : max 1 ⌊(attempt : ℚ)⌋ = (attempt : Int) := by
    rw [Int.floor_natCast]
    omega
  have hbase : Js.mathMax (.fin 0) (.fin p.baseDelayMs) = .fin p.baseDelayMs :=
    mathMax_zero (.inl rfl) (by positivity)
  unfold Js.RetryBackoff.computeNextDelayMs
  simp only [hfloor, toJs, hbase, Js.RetryBackoff.rawDelay_eq hattempt,
    mul_curve_of_undefined hundef]
  cases p.jitter <;> rfl

/-- What JS returns, when it is a safe integer. -/
theorem computeNextDelayMs_eq_iff (h : 0 ≤ sample) (hattempt : 1 ≤ attempt) {ms : Int}
    (hms : ms < 2 ^ 53) :
    Js.RetryBackoff.computeNextDelayMs attempt p.toJs sample = .fin ms ↔
      ¬ Undefined p.backoff p.baseDelayMs attempt ∧
        ⌊p.cappedDelay attempt sample + 1 / 2⌋ = ms := by
  by_cases hdef : Undefined p.backoff p.baseDelayMs attempt
  · rw [computeNextDelayMs_of_undefined hattempt hdef]
    simp [hdef]
  obtain ⟨x, hx | ⟨hx, hhuge⟩, heq⟩ := computeNextDelayMs_eq h hattempt hdef
  · have hneg : ¬ p.cappedDelay attempt sample < 0 := not_lt.mpr (cappedDelay_nonneg h)
    rw [heq, hx]
    simp only [Js.mathRound, hneg, false_and, if_false, Double.fin.injEq, Int.cast_inj, hdef,
      not_false_iff, true_and]
  · -- an infinite delay is no integer, and the exact one is past all safe integers
    have hfloor : (2 : Int) ^ 53 ≤ ⌊p.cappedDelay attempt sample + 1 / 2⌋ := by
      have hpow : (2 : ℚ) ^ 53 ≤ 2 ^ 1000 := pow_le_pow_right₀ (by norm_num) (by norm_num)
      have hsafe : ((2 : ℚ) ^ 53) ≤ p.cappedDelay attempt sample + 1 / 2 :=
        (hpow.trans hhuge).trans (le_add_of_nonneg_right (by norm_num))
      exact Int.le_floor.mpr (by exact_mod_cast hsafe)
    rw [heq, hx]
    constructor
    · intro hinf
      cases hinf
    · rintro ⟨-, hfl⟩
      omega

/-- An undefined delay is one of zero. -/
theorem delay_of_undefined (hundef : Undefined p.backoff p.baseDelayMs attempt) :
    p.delay attempt sample = 0 := by
  unfold delay uncappedDelay
  rw [hundef.1, Nat.cast_zero, zero_mul, zero_mul]

/-- What iOS returns. -/
theorem nextDelayMs_eq (h : 0 ≤ sample) (hattempt : 1 ≤ attempt) :
    Ios.RetryPolicyEvaluator.nextDelayMs attempt p.toIos sample =
      ⌊min (p.cappedDelay attempt sample) (2 ^ 53 - 1) + 1 / 2⌋ := by
  have hsafe : (max 1 (attempt : Int)).toNat = attempt := by omega
  have hdelay : Ios.RetryPolicyEvaluator.exactDelay attempt p.toIos sample =
      p.delay attempt sample := by
    unfold Ios.RetryPolicyEvaluator.exactDelay
    rw [hsafe]
    rfl
  have hcapped : Ios.RetryPolicyEvaluator.exactCappedDelay attempt p.toIos sample =
      p.cappedDelay attempt sample := by
    unfold Ios.RetryPolicyEvaluator.exactCappedDelay cappedDelay
    rw [hdelay]
    rcases Nat.eq_zero_or_pos p.maxDelayMs with hzero | hpos
    · rw [if_pos hzero, if_neg (by simp [toIos, hzero])]
    · rw [if_neg hpos.ne', if_pos (by simpa [toIos] using hpos)]
      rfl
  rw [Ios.RetryPolicyEvaluator.nextDelayMs_eq_floor h, hcapped]

/-- What Android returns. -/
theorem computeDelayMs_eq_floor (h : 0 ≤ sample) (hattempt : 1 ≤ attempt) :
    Android.RetryPolicyEvaluator.computeDelayMs attempt p.toAndroid sample =
      ⌊min (p.delay attempt sample) (max p.maxDelayMs p.baseDelayMs : ℕ)⌋ := by
  have hone : (1 : Int) ≤ attempt := by omega
  have hbase : (Double.fin p.baseDelayMs).coerceAtLeast (.fin 0) = .fin p.baseDelayMs := by
    have hneg : ¬ (p.baseDelayMs : ℚ) < 0 := not_lt.mpr (by positivity)
    simp [Double.coerceAtLeast, Double.lt, Double.norm, hneg]
  have hcap : (Double.fin p.maxDelayMs).coerceAtLeast (.fin p.baseDelayMs) =
      .fin (max p.maxDelayMs p.baseDelayMs : ℕ) := by
    rcases lt_or_ge p.maxDelayMs p.baseDelayMs with hlt | hge
    · simp [Double.coerceAtLeast, Double.lt, Double.norm, hlt, hlt.le]
    · simp [Double.coerceAtLeast, Double.lt, Double.norm, hge, not_lt.mpr hge]
  rw [Android.RetryPolicyEvaluator.computeDelayMs_eq hone,
    Android.RetryPolicyEvaluator.rawDelay_eq hone]
  simp only [toAndroid, hbase, hcap, Int.toNat_natCast]
  by_cases hdef : Undefined p.backoff p.baseDelayMs attempt
  · rw [mul_curve_of_undefined hdef, Android.RetryPolicyEvaluator.spread_nan,
      delay_of_undefined hdef, min_eq_left (by positivity)]
    rfl
  have hcurve : (0 : ℚ) ≤ p.baseDelayMs * curve p.backoff attempt := by positivity
  have hspread := Android.RetryPolicyEvaluator.covers_spread p.jitter hcurve h
  change (Android.RetryPolicyEvaluator.spread _ _ _).Covers (p.delay attempt sample) at hspread
  have hlt : max p.maxDelayMs p.baseDelayMs < 2 ^ 63 := max_lt p.maxDelayMs_lt p.baseDelayMs_lt
  have hnonneg : 0 ≤ min (p.delay attempt sample) (max p.maxDelayMs p.baseDelayMs : ℕ) :=
    le_min (delay_nonneg h) (by positivity)
  rw [mul_curve hattempt hdef, hspread.min_fin (natCast_le_huge hlt)]
  show max (-2 ^ 63) (min (2 ^ 63 - 1) (Double.truncRat _)) = _
  rw [Double.truncRat_of_nonneg hnonneg]
  -- a cap below `2 ^ 63` keeps the conversion from saturating
  have hfloor : ⌊min (p.delay attempt sample) (max p.maxDelayMs p.baseDelayMs : ℕ)⌋ ≤
      (max p.maxDelayMs p.baseDelayMs : ℕ) :=
    Int.floor_le_iff.mpr ((min_le_right _ _).trans_lt (by push_cast; linarith))
  have := Int.floor_nonneg.mpr hnonneg
  omega

/-! ## 3. When they agree -/

/-- All three return the same number, within a cap that is not zero. -/
def Agree (p : WholePolicy) (attempt : ℕ) (sample : ℚ) : Prop :=
  ∃ ms : Int, Js.RetryBackoff.computeNextDelayMs attempt p.toJs sample = .fin ms ∧
    Ios.RetryPolicyEvaluator.nextDelayMs attempt p.toIos sample = ms ∧
    Android.RetryPolicyEvaluator.computeDelayMs attempt p.toAndroid sample = ms ∧
    (0 < p.maxDelayMs → ms ≤ p.maxDelayMs)

/-- The delay is one that rounding, cutting off and the three caps all take to
the same number. -/
def Aligned (p : WholePolicy) (attempt : ℕ) (sample : ℚ) : Prop :=
  ¬ Undefined p.backoff p.baseDelayMs attempt ∧
    if p.maxDelayMs = 0 then
      p.delay attempt sample < 2 ^ 53 - 1 / 2 ∧
        if p.delay attempt sample ≤ p.baseDelayMs then Int.fract (p.delay attempt sample) < 1 / 2
        else p.delay attempt sample < p.baseDelayMs + 1 / 2
    else if p.delay attempt sample ≤ p.maxDelayMs then
      p.delay attempt sample < 2 ^ 53 - 1 / 2 ∧ Int.fract (p.delay attempt sample) < 1 / 2
    else
      p.maxDelayMs < 2 ^ 53 ∧
        (p.baseDelayMs ≤ p.maxDelayMs ∨ p.delay attempt sample < p.maxDelayMs + 1)

/-- Rounding and cutting off agree below the half. -/
theorem floor_add_half_iff {x : ℚ} : ⌊x + 1 / 2⌋ = ⌊x⌋ ↔ Int.fract x < 1 / 2 := by
  rw [Int.floor_eq_iff, Int.fract]
  have hle := Int.floor_le x
  constructor
  · rintro ⟨-, h⟩
    linarith
  · intro h
    exact ⟨by linarith, by linarith⟩

/-- The bound of iOS matters from half a millisecond above it. -/
theorem floor_add_half_min_iff {x : ℚ} :
    ⌊x + 1 / 2⌋ = ⌊min x (2 ^ 53 - 1) + 1 / 2⌋ ↔ x < 2 ^ 53 - 1 / 2 := by
  rcases le_or_gt x (2 ^ 53 - 1) with hle | hgt
  · rw [min_eq_left hle]
    have hlt : x < 2 ^ 53 - 1 / 2 := by linarith
    simp only [hlt]
  · have hmax : ⌊(2 : ℚ) ^ 53 - 1 + 1 / 2⌋ = 2 ^ 53 - 1 := by norm_num
    rw [min_eq_right hgt.le, hmax, Int.floor_eq_iff]
    push_cast
    constructor
    · rintro ⟨-, h⟩
      linarith
    · intro h
      exact ⟨by linarith, by linarith⟩

theorem floor_add_half_eq_natCast_iff {x : ℚ} {n : ℕ} (h : (n : ℚ) < x) :
    (n : Int) = ⌊x + 1 / 2⌋ ↔ x < n + 1 / 2 := by
  rw [eq_comm, Int.floor_eq_iff, Int.cast_natCast]
  constructor
  · rintro ⟨-, h⟩
    linarith
  · intro h
    exact ⟨by linarith, by linarith⟩

/-- Over the cap, Android is at the cap unless a larger base delay raises it. -/
theorem floor_min_max_eq_iff {x : ℚ} {m b : ℕ} (h : (m : ℚ) < x) :
    ⌊min x (max m b : ℕ)⌋ = (m : Int) ↔ b ≤ m ∨ x < m + 1 := by
  rcases le_or_gt b m with hle | hgt
  · rw [max_eq_left hle, min_eq_right h.le, Int.floor_natCast]
    simp only [hle, true_or]
  · have hb : (m : ℚ) + 1 ≤ b := by exact_mod_cast hgt
    rw [max_eq_right hgt.le, Int.floor_eq_iff, Int.cast_natCast, min_lt_iff]
    constructor
    · rintro ⟨-, hx | hbad⟩
      · exact .inr hx
      · exact absurd hb (not_le.mpr hbad)
    · rintro (hbad | hx)
      · exact absurd hbad (not_le.mpr hgt)
      · exact ⟨le_min h.le (by linarith), .inl hx⟩

theorem natCast_lt_safe_iff {m : ℕ} : (m : ℚ) < 2 ^ 53 - 1 / 2 ↔ m < 2 ^ 53 := by
  constructor
  · intro h
    have hlt : (m : ℚ) < 2 ^ 53 := h.trans (by norm_num)
    exact_mod_cast hlt
  · intro h
    have hle : (m : ℚ) + 1 ≤ 2 ^ 53 := by exact_mod_cast h
    linarith

/-- The three agree when JS stays among the safe integers and Android cuts off to
what the other two round to. -/
theorem agree_iff_floor (h : 0 ≤ sample) (hattempt : 1 ≤ attempt) :
    p.Agree attempt sample ↔
      ¬ Undefined p.backoff p.baseDelayMs attempt ∧
        p.cappedDelay attempt sample < 2 ^ 53 - 1 / 2 ∧
        ⌊min (p.delay attempt sample) (max p.maxDelayMs p.baseDelayMs : ℕ)⌋ =
          ⌊p.cappedDelay attempt sample + 1 / 2⌋ ∧
        (0 < p.maxDelayMs → ⌊p.cappedDelay attempt sample + 1 / 2⌋ ≤ p.maxDelayMs) := by
  have hsafe : ⌊min (p.cappedDelay attempt sample) (2 ^ 53 - 1) + 1 / 2⌋ < 2 ^ 53 := by
    have hlt : min (p.cappedDelay attempt sample) (2 ^ 53 - 1) + 1 / 2 < (2 : ℚ) ^ 53 :=
      (add_le_add_left (min_le_right _ _) _).trans_lt (by norm_num)
    exact Int.floor_lt.mpr (by exact_mod_cast hlt)
  unfold Agree
  rw [nextDelayMs_eq h hattempt, computeDelayMs_eq_floor h hattempt, ← floor_add_half_min_iff]
  constructor
  · rintro ⟨ms, hjs, hios, handroid, hcap⟩
    rw [← hios] at hjs handroid hcap
    rw [computeNextDelayMs_eq_iff h hattempt hsafe] at hjs
    obtain ⟨hdef, hjs⟩ := hjs
    rw [hjs]
    exact ⟨hdef, rfl, handroid, hcap⟩
  · rintro ⟨hdef, hjs, handroid, hcap⟩
    rw [hjs] at handroid hcap
    exact ⟨_, (computeNextDelayMs_eq_iff h hattempt hsafe).mpr ⟨hdef, hjs⟩, rfl, handroid, hcap⟩

/-- For every whole-number policy, attempt and jitter sample: JS, iOS and Android
return the same delay, within the cap, exactly when it is aligned. -/
theorem agree_iff (p : WholePolicy) (attempt : ℕ) (sample : ℚ) (hattempt : 1 ≤ attempt)
    (h : 0 ≤ sample) : p.Agree attempt sample ↔ p.Aligned attempt sample := by
  rw [agree_iff_floor h hattempt]
  unfold Aligned cappedDelay
  refine and_congr_right fun _ => ?_
  rcases Nat.eq_zero_or_pos p.maxDelayMs with hzero | hpos
  · -- without a cap Android is held to the base delay
    rw [if_pos hzero, if_pos hzero, hzero, Nat.zero_max]
    refine and_congr_right fun _ => ?_
    rw [and_iff_left (fun hlt => absurd hlt (lt_irrefl 0))]
    split
    · rename_i hle
      rw [min_eq_left hle, eq_comm]
      exact floor_add_half_iff
    · rename_i hgt
      rw [min_eq_right (not_le.mp hgt).le, Int.floor_natCast]
      exact floor_add_half_eq_natCast_iff (not_le.mp hgt)
  · rw [if_neg hpos.ne', if_neg hpos.ne']
    have hmax : (p.maxDelayMs : ℚ) ≤ (max p.maxDelayMs p.baseDelayMs : ℕ) := by
      exact_mod_cast le_max_left _ _
    split
    · rename_i hle
      rw [min_eq_left hle, min_eq_left (hle.trans hmax), eq_comm, floor_add_half_iff]
      refine and_congr_right fun _ => and_iff_left_of_imp fun hfract _ => ?_
      rw [floor_add_half_iff.mpr hfract]
      exact_mod_cast (Int.floor_le _).trans hle
    · rename_i hgt
      have hround : ⌊(p.maxDelayMs : ℚ) + 1 / 2⌋ = p.maxDelayMs := by
        rw [Int.floor_eq_iff, Int.cast_natCast]
        constructor <;> linarith
      rw [min_eq_right (not_le.mp hgt).le, hround, and_iff_left (fun _ => le_rfl),
        floor_min_max_eq_iff (not_le.mp hgt), natCast_lt_safe_iff]

section Sample

/-- The default policy of the library. -/
def defaultPolicy : WholePolicy where
  maxAttempts := 5
  backoff := .exponential
  baseDelayMs := 1000
  maxDelayMs := 60000
  jitter := true
  retryOnStatusCodes := [408, 425, 429, 500, 502, 503, 504]
  baseDelayMs_lt := by decide
  maxDelayMs_lt := by decide

/-- A delay over the cap is the cap, everywhere. -/
theorem agree_over_cap : defaultPolicy.Agree 7 (1 / 2) := by
  refine (agree_iff defaultPolicy 7 (1 / 2) (by decide) (by norm_num)).mpr ⟨?_, ?_⟩
  · rintro ⟨hbase, -⟩
    exact absurd hbase (by decide)
  · have hdelay : defaultPolicy.delay 7 (1 / 2) = 64000 := by decide +kernel
    rw [hdelay, if_neg (by decide), if_neg (by norm_num [defaultPolicy])]
    exact ⟨by decide, .inl (by decide)⟩

/-! ## 4. A jittered delay -/

/-- The first delay of the default policy, at a sample of 3/8: 937.5 ms. -/
theorem jitter_splits :
    Js.RetryBackoff.computeNextDelayMs 1 defaultPolicy.toJs (3 / 8) = .fin 938 ∧
    Ios.RetryPolicyEvaluator.nextDelayMs 1 defaultPolicy.toIos (3 / 8) = 938 ∧
    Android.RetryPolicyEvaluator.computeDelayMs 1 defaultPolicy.toAndroid (3 / 8) = 937 ∧
    ¬ defaultPolicy.Agree 1 (3 / 8) := by
  have hios : Ios.RetryPolicyEvaluator.nextDelayMs 1 defaultPolicy.toIos (3 / 8) = 938 := by
    decide +kernel
  have handroid :
      Android.RetryPolicyEvaluator.computeDelayMs 1 defaultPolicy.toAndroid (3 / 8) = 937 := by
    decide +kernel
  refine ⟨by decide +kernel, hios, handroid, ?_⟩
  rintro ⟨ms, -, hms, hms', -⟩
  have heq : (938 : Int) = 937 := hios.symm.trans (hms.trans (hms'.symm.trans handroid))
  exact absurd heq (by decide)

end Sample

end WholePolicy

end SyncProvider
