import SyncProvider.Spec
import SyncProvider.Lib.Double
import Mathlib.Data.Nat.Fib.Basic

/-!
# The back-off curves

What the three retry evaluators (JS, iOS, Android) compute a delay from: a curve
over the attempt number, and a jitter factor. The curves are whole numbers here.
Each platform computes them in doubles, which saturate at infinity.
-/

namespace SyncProvider.Backoff

/-- The curve at attempt `n`, in multiples of the base delay. -/
def curve : BackoffStrategy → ℕ → ℕ
  | .linear, n => n
  | .exponential, n => 2 ^ (n - 1)
  | .fibonacci, n => Nat.fib n

theorem curve_pos (backoff : BackoffStrategy) {n : ℕ} (hn : 0 < n) : 0 < curve backoff n := by
  cases backoff with
  | linear => exact hn
  | exponential => exact Nat.two_pow_pos _
  | fibonacci => exact Nat.fib_pos.mpr hn

/-- The factor that spreads a delay by a quarter to either side. -/
def jitterFactor (jitter : Bool) (sample : ℚ) : ℚ := if jitter then 3 / 4 + sample * (1 / 2) else 1

theorem le_jitterFactor (jitter : Bool) {sample : ℚ} (h : 0 ≤ sample) :
    3 / 4 ≤ jitterFactor jitter sample := by
  unfold jitterFactor
  split
  · linarith
  · norm_num

/-- The exact delay before any cap. -/
def uncappedDelay (backoff : BackoffStrategy) (jitter : Bool) (base n : ℕ) (sample : ℚ) : ℚ :=
  base * curve backoff n * jitterFactor jitter sample

/-- A product with the jitter factor, in doubles. -/
theorem covers_jittered (jitter : Bool) {p sample : ℚ} (hp : 0 ≤ p) (h : 0 ≤ sample) :
    (if jitter then (Double.ofRat p).mul (.fin (3 / 4 + sample * (1 / 2))) else .ofRat p).Covers
      (p * jitterFactor jitter sample) := by
  unfold jitterFactor
  cases jitter with
  | true => exact Double.covers_mul_fin hp (by linarith)
  | false =>
    rw [if_neg (by simp), if_neg (by simp), mul_one]
    exact Double.covers_ofRat hp

/-- A double has no value for this delay: it comes out as zero times infinity. -/
def Undefined (backoff : BackoffStrategy) (base n : ℕ) : Prop :=
  base = 0 ∧ (2 : ℚ) ^ 1024 ≤ curve backoff n

/-- A whole base delay times the curve. -/
theorem mul_curve {backoff : BackoffStrategy} {base n : ℕ} (hn : 0 < n)
    (h : ¬ Undefined backoff base n) :
    (Double.fin base).mul (.ofRat (curve backoff n)) = .ofRat (base * curve backoff n) := by
  have hc : (0 : ℚ) < curve backoff n := by exact_mod_cast curve_pos backoff hn
  rcases Nat.eq_zero_or_pos base with rfl | hbase
  · have hlt : (curve backoff n : ℚ) < 2 ^ 1024 := not_le.mp fun hle => h ⟨rfl, hle⟩
    rw [Double.zero_mul_ofRat (by simp) hc.le, if_pos hlt, Nat.cast_zero, zero_mul]
    exact (Double.ofRat_of_lt le_rfl (by positivity)).symm
  · have hone : (1 : ℚ) ≤ base := by exact_mod_cast hbase
    rw [Double.mul_ofRat (by linarith) hc.le]
    split
    · rfl
    · rename_i hge
      exact (Double.ofRat_of_le ((not_lt.mp hge).trans (le_mul_of_one_le_left hc.le hone))).symm

theorem mul_curve_of_undefined {backoff : BackoffStrategy} {base n : ℕ}
    (h : Undefined backoff base n) :
    (Double.fin base).mul (.ofRat (curve backoff n)) = .nan := by
  obtain ⟨rfl, hge⟩ := h
  have hc : (0 : ℚ) ≤ curve backoff n := by positivity
  rw [Double.zero_mul_ofRat (by simp) hc, if_neg (not_lt.mpr hge)]

/-- One step of a Fibonacci loop in doubles. -/
theorem add_fib (m : ℕ) :
    (Double.ofRat (Nat.fib m)).add (.ofRat (Nat.fib (m + 1))) = .ofRat (Nat.fib (m + 2)) := by
  rw [Double.add_ofRat (by positivity) (by positivity), Nat.fib_add_two]
  push_cast
  rfl

/-- Past infinity a Fibonacci loop stays there. -/
theorem ofRat_fib_of_le {m n : ℕ} (h : m ≤ n)
    (hm : (Double.ofRat (Nat.fib m)).isInfinite = true) :
    Double.ofRat (Nat.fib n) = Double.ofRat (Nat.fib m) := by
  rw [Double.isInfinite_ofRat (by positivity)] at hm
  have hn : (2 : ℚ) ^ 1024 ≤ Nat.fib n := hm.trans (by exact_mod_cast Nat.fib_mono h)
  rw [Double.ofRat_of_le hm, Double.ofRat_of_le hn]

/-- A loop that moves two numbers on by their sum, and may stop once they are
infinite, computes the Fibonacci numbers. -/
theorem fibonacci_of_loop (loop : ℕ → Double → Double → Double)
    (hzero : ∀ m, loop 0 (.ofRat (Nat.fib m)) (.ofRat (Nat.fib (m + 1))) =
      .ofRat (Nat.fib (m + 1)))
    (hsucc : ∀ k m,
      loop (k + 1) (.ofRat (Nat.fib m)) (.ofRat (Nat.fib (m + 1))) =
          loop k (.ofRat (Nat.fib (m + 1))) (.ofRat (Nat.fib (m + 2))) ∨
        ∃ j, j ≤ m + 2 ∧ (Double.ofRat (Nat.fib j)).isInfinite = true ∧
          loop (k + 1) (.ofRat (Nat.fib m)) (.ofRat (Nat.fib (m + 1))) = .ofRat (Nat.fib j))
    {n : Int} (hn : 1 ≤ n) :
    loop (n - 2).toNat (.fin 1) (.fin 1) = .ofRat (Nat.fib n.toNat) := by
  have hloop (k m : ℕ) : loop k (.ofRat (Nat.fib m)) (.ofRat (Nat.fib (m + 1))) =
      .ofRat (Nat.fib (m + 1 + k)) := by
    induction k generalizing m with
    | zero => exact hzero m
    | succ k ih =>
      have hindex : m + 1 + 1 + k = m + 1 + (k + 1) := by omega
      rcases hsucc k m with hnext | ⟨j, hj, hinf, hstop⟩
      · rw [hnext, ih (m + 1), hindex]
      · have hle : j ≤ m + 1 + (k + 1) := by omega
        rw [hstop, ofRat_fib_of_le hle hinf]
  have hone : Double.fin 1 = .ofRat (Nat.fib 1) := by decide +kernel
  have htwo : Double.fin 1 = .ofRat (Nat.fib (1 + 1)) := by decide +kernel
  obtain rfl | hge : n = 1 ∨ 2 ≤ n := by omega
  · have h := hzero 1
    rw [← hone, ← htwo] at h
    show loop 0 (.fin 1) (.fin 1) = .ofRat (Nat.fib 1)
    rw [← hone]
    exact h
  · have h := hloop (n - 2).toNat 1
    rw [← hone, ← htwo] at h
    rw [h]
    congr 3
    omega

/-- The attempt number itself is the linear curve. -/
theorem ofInt_eq_curve {n : Int} (hn : 0 ≤ n) :
    Double.ofInt n = .ofRat (curve .linear n.toNat) := by
  have hcast : ((n.toNat : ℕ) : ℚ) = n := by exact_mod_cast Int.toNat_of_nonneg hn
  show Double.ofRat n = .ofRat (n.toNat : ℕ)
  rw [hcast]

/-- The power of two is the exponential one. -/
theorem pow2_eq_curve (n : Int) :
    Double.pow2 (n - 1).toNat = .ofRat (curve .exponential n.toNat) := by
  have hexp : (n - 1).toNat = n.toNat - 1 := by omega
  rw [Double.pow2_eq, hexp]
  simp only [curve]
  push_cast
  rfl

end SyncProvider.Backoff
