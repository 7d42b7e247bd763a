import SyncProvider.Ios.Conversions

/-!
# iOS: the bounds of a retry delay

`nextDelayMs` is the exact delay under two caps, rounded. So its bounds, and how it
moves with the attempt number and with the jitter sample, are those of the exact
delay. The Fibonacci loop ends with the attempt number or once a number is infinite,
whichever comes first.

Results:
1. `nextDelayMs_mono` : a later attempt waits no less.
2. `fibonacciPasses_le` : the loop stops.
3. `delay_bounded` : the bounds for every policy and attempt number.
-/

namespace SyncProvider.Ios.RetryPolicyEvaluator

open Backoff

variable {attempt : Int} {policy : RetryPolicyValue} {sample : ℚ}

/-! ## 1. The delay over the attempts and the samples -/

/-- A larger exact delay is no smaller a delay. -/
theorem nextDelayMs_le_of_exactDelay_le {attempt' : Int} {sample' : ℚ} (h : 0 ≤ sample)
    (h' : 0 ≤ sample')
    (hle : exactDelay attempt policy sample ≤ exactDelay attempt' policy sample') :
    nextDelayMs attempt policy sample ≤ nextDelayMs attempt' policy sample' := by
  have hcapped : exactCappedDelay attempt policy sample ≤
      exactCappedDelay attempt' policy sample' := by
    unfold exactCappedDelay
    split
    · exact min_le_min_right _ hle
    · exact hle
  rw [nextDelayMs_eq_floor h, nextDelayMs_eq_floor h']
  exact Int.floor_le_floor (add_le_add_left (min_le_min_right _ hcapped) _)

theorem curve_mono (backoff : BackoffStrategy) {m n : ℕ} (h : m ≤ n) :
    curve backoff m ≤ curve backoff n := by
  cases backoff with
  | linear => exact h
  | exponential => exact Nat.pow_le_pow_right Nat.two_pos (Nat.sub_le_sub_right h 1)
  | fibonacci => exact Nat.fib_mono h

theorem jitterFactor_mono (jitter : Bool) {sample' : ℚ} (h : sample ≤ sample') :
    jitterFactor jitter sample ≤ jitterFactor jitter sample' := by
  unfold jitterFactor
  split
  · linarith
  · exact le_rfl

/-- Without jitter, a later attempt waits no less. -/
theorem nextDelayMs_mono (hjitter : policy.jitter = false) {attempt' : Int} {sample' : ℚ}
    (h : 0 ≤ sample) (h' : 0 ≤ sample') (hle : attempt ≤ attempt') :
    nextDelayMs attempt policy sample ≤ nextDelayMs attempt' policy sample' := by
  refine nextDelayMs_le_of_exactDelay_le h h' ?_
  have hattempt : (max 1 attempt).toNat ≤ (max 1 attempt').toNat := by omega
  have hcurve : (curve policy.backoff (max 1 attempt).toNat : ℚ) ≤
      curve policy.backoff (max 1 attempt').toNat := by
    exact_mod_cast curve_mono policy.backoff hattempt
  unfold exactDelay uncappedDelay jitterFactor
  rw [hjitter]
  simp only [Bool.false_eq_true, if_false, mul_one]
  exact mul_le_mul_of_nonneg_left hcurve (Nat.cast_nonneg _)

/-- A larger sample waits no less. -/
theorem nextDelayMs_sample_mono {sample' : ℚ} (h : 0 ≤ sample) (hle : sample ≤ sample') :
    nextDelayMs attempt policy sample ≤ nextDelayMs attempt policy sample' := by
  refine nextDelayMs_le_of_exactDelay_le h (h.trans hle) ?_
  exact mul_le_mul_of_nonneg_left (jitterFactor_mono policy.jitter hle) (by positivity)

theorem nextDelayMs_le_cap (h : 0 ≤ sample) (hcap : 0 < policy.maxDelayMs) :
    nextDelayMs attempt policy sample ≤ policy.maxDelayMs := by
  have hexact : min (exactCappedDelay attempt policy sample) (2 ^ 53 - 1) ≤ policy.maxDelayMs := by
    unfold exactCappedDelay
    rw [if_pos hcap]
    exact (min_le_left _ _).trans (min_le_right _ _)
  rw [nextDelayMs_eq_floor h, Int.floor_le_iff]
  generalize min (exactCappedDelay attempt policy sample) (2 ^ 53 - 1) = q at hexact ⊢
  linarith

theorem nextDelayMs_le_safe (h : 0 ≤ sample) :
    nextDelayMs attempt policy sample ≤ 2 ^ 53 - 1 := by
  have hexact : min (exactCappedDelay attempt policy sample) (2 ^ 53 - 1) ≤ 2 ^ 53 - 1 :=
    min_le_right _ _
  rw [nextDelayMs_eq_floor h, Int.floor_le_iff]
  generalize min (exactCappedDelay attempt policy sample) (2 ^ 53 - 1) = q at hexact ⊢
  push_cast
  linarith

theorem nextDelayMs_nonneg (h : 0 ≤ sample) : 0 ≤ nextDelayMs attempt policy sample := by
  have hexact : 0 ≤ min (exactCappedDelay attempt policy sample) (2 ^ 53 - 1) :=
    le_min (exactCappedDelay_nonneg h) (by norm_num)
  rw [nextDelayMs_eq_floor h]
  generalize min (exactCappedDelay attempt policy sample) (2 ^ 53 - 1) = q at hexact ⊢
  exact Int.floor_nonneg.mpr (by linarith)

/-! ## 2. The Fibonacci loop -/

/-- The passes that `fibonacciLoop` takes. -/
def fibonacciPasses : Nat → Double → Double → Nat
  | 0, _, _ => 0
  | n + 1, prev, curr =>
    let next := prev.add curr
    if next.isInfinite then 1 else fibonacciPasses n curr next + 1

/-- Fibonacci number 1477 is the first that no double holds. -/
theorem isInfinite_fib : (Double.ofRat (Nat.fib 1477)).isInfinite = true := by
  have hfib : 2 ^ 1024 ≤ Nat.fib 1477 := by decide +kernel
  rw [Double.isInfinite_ofRat (Nat.cast_nonneg _)]
  exact_mod_cast hfib

theorem fibonacciPasses_le_left (n : Nat) (prev curr : Double) :
    fibonacciPasses n prev curr ≤ n := by
  induction n generalizing prev curr with
  | zero => exact le_rfl
  | succ n ih =>
    simp only [fibonacciPasses]
    split
    · exact Nat.succ_le_succ (Nat.zero_le n)
    · exact Nat.succ_le_succ (ih curr _)

/-- Wherever the loop stands, it stops at number 1477. -/
theorem fibonacciPasses_le_infinite (n : Nat) {m : ℕ} (hm : m < 1476) :
    fibonacciPasses n (.ofRat (Nat.fib m)) (.ofRat (Nat.fib (m + 1))) ≤ 1476 - m := by
  induction n generalizing m with
  | zero => exact Nat.zero_le _
  | succ n ih =>
    simp only [fibonacciPasses, add_fib]
    split
    · omega
    · rename_i hfinite
      have hnot : m + 2 ≠ 1477 := by
        intro heq
        rw [heq] at hfinite
        exact hfinite isInfinite_fib
      have hlater : fibonacciPasses n (.ofRat (Nat.fib (m + 1))) (.ofRat (Nat.fib (m + 2))) ≤
          1476 - (m + 1) := ih (by omega)
      omega

/-- The loop of `fibonacci` ends after the passes of its range, and never takes more
than 1475. -/
theorem fibonacciPasses_le (n : Int) :
    fibonacciPasses (n - 2).toNat (.fin 1) (.fin 1) ≤ min (n - 2).toNat 1475 := by
  have hone : Double.fin 1 = .ofRat (Nat.fib 1) := by decide +kernel
  have htwo : Double.fin 1 = .ofRat (Nat.fib (1 + 1)) := by decide +kernel
  have hinf := fibonacciPasses_le_infinite (n - 2).toNat (show 1 < 1476 by norm_num)
  rw [← hone, ← htwo] at hinf
  exact le_min (fibonacciPasses_le_left _ _ _) hinf

/-! ## 3. The bounds -/

/-- For every attempt number, policy and sample: the conversion does not trap and
gives a safe integer, within the cap if there is one. Without jitter it does not
fall from one attempt to a later one, with jitter it lies between the delays of the
factors 0.75 and 1.25, which are those of the samples 0 and 1. The Fibonacci loop
stops. -/
theorem delay_bounded (attempt : Int) (policy : RetryPolicyValue) {sample : ℚ}
    (h0 : 0 ≤ sample) (h1 : sample < 1) :
    (int (clamped attempt policy sample).rounded = some (nextDelayMs attempt policy sample) ∧
      0 ≤ nextDelayMs attempt policy sample ∧
      nextDelayMs attempt policy sample ≤ 2 ^ 53 - 1) ∧
    (0 < policy.maxDelayMs → nextDelayMs attempt policy sample ≤ policy.maxDelayMs) ∧
    (policy.jitter = false → ∀ attempt' sample', attempt ≤ attempt' → 0 ≤ sample' →
      nextDelayMs attempt policy sample ≤ nextDelayMs attempt' policy sample') ∧
    (policy.jitter = true →
      nextDelayMs attempt policy 0 ≤ nextDelayMs attempt policy sample ∧
      nextDelayMs attempt policy sample ≤ nextDelayMs attempt policy 1) ∧
    fibonacciPasses (max 1 attempt - 2).toNat (.fin 1) (.fin 1) ≤
      min (max 1 attempt - 2).toNat 1475 := by
  refine ⟨⟨nextDelayMs_converts attempt policy h0, nextDelayMs_nonneg h0, nextDelayMs_le_safe h0⟩,
    nextDelayMs_le_cap h0, fun hjitter attempt' sample' hle h' => ?_, fun _ => ⟨?_, ?_⟩,
    fibonacciPasses_le _⟩
  · exact nextDelayMs_mono hjitter h0 h' hle
  · exact nextDelayMs_sample_mono le_rfl h0
  · exact nextDelayMs_sample_mono h0 h1.le

/-- The largest base delay there is, without a cap, and an attempt that overflows the
curve. -/
theorem delay_bounded_at_huge_attempt :
    nextDelayMs (2 ^ 63 - 1) ⟨5, .fibonacci, 2 ^ 63 - 1, 0, true, []⟩ (1 / 2) ≤ 2 ^ 53 - 1 ∧
      fibonacciPasses ((max 1 (2 ^ 63 - 1) : Int) - 2).toNat (.fin 1) (.fin 1) ≤ 1475 := by
  have hsample : (0 : ℚ) ≤ 1 / 2 ∧ (1 / 2 : ℚ) < 1 := by norm_num
  have h := delay_bounded (2 ^ 63 - 1) ⟨5, .fibonacci, 2 ^ 63 - 1, 0, true, []⟩ hsample.1 hsample.2
  exact ⟨h.1.2.2, h.2.2.2.2.trans (min_le_right _ _)⟩

end SyncProvider.Ios.RetryPolicyEvaluator
