import SyncProvider.Backoff

/-!
# JS: the retry back-off

`src/utils/retryBackoff.ts`, the evaluator of the JS-only fallback. All its
numbers are doubles, the result included.

Results:
1. `rawDelay_eq` : the delay follows the curve, up to saturation.
-/

namespace SyncProvider.Js

structure RetryPolicy where
  maxAttempts : Double
  backoff : BackoffStrategy
  baseDelayMs : Double
  maxDelayMs : Double
  jitter : Bool
  retryOnStatusCodes : List Double
  deriving DecidableEq

/-- `Math.max(x, y)`. -/
def mathMax (x y : Double) : Double :=
  if x.isNaN || y.isNaN then .nan else if x.lt y then y else x

/-- `Math.round(x)`: the nearest integer, halves up. -/
def mathRound : Double → Double
  | .fin q => if q < 0 ∧ -1 / 2 ≤ q then .negZero else .fin ⌊q + 1 / 2⌋
  | x => x

namespace RetryBackoff

/-- The loop of `fibonacci`, with the number of passes that are left. -/
def fibonacciLoop : Nat → Double → Double → Double
  | 0, _, curr => curr
  | n + 1, prev, curr => fibonacciLoop n curr (prev.add curr)

def fibonacci (n : Int) : Double :=
  if n ≤ 0 then .fin 0 else if n ≤ 2 then .fin 1
  else fibonacciLoop (n - 2).toNat (.fin 1) (.fin 1)

/-- The curve before jitter and cap. -/
def rawDelay (safeAttempt : Int) (base : Double) (policy : RetryPolicy) : Double :=
  match policy.backoff with
  | .linear => base.mul (.ofInt safeAttempt)
  | .exponential => base.mul (.pow2 (safeAttempt - 1).toNat)
  | .fibonacci => base.mul (fibonacci safeAttempt)

/-- The delay in milliseconds before the next retry. `attempt` is any finite
number, `sample` the value of `Math.random()`. -/
def computeNextDelayMs (attempt : ℚ) (policy : RetryPolicy) (sample : ℚ) : Double :=
  let safeAttempt := max 1 ⌊attempt⌋
  let base := mathMax (.fin 0) policy.baseDelayMs
  let curve := rawDelay safeAttempt base policy
  let raw := if policy.jitter then curve.mul (.fin (3 / 4 + sample * (1 / 2))) else curve
  let cap := if (Double.fin 0).lt policy.maxDelayMs then policy.maxDelayMs else raw
  mathRound ((mathMax (.fin 0) raw).min cap)

/-! ## 1. The curve -/

theorem fibonacci_eq {n : Int} (hn : 1 ≤ n) : fibonacci n = .ofRat (Nat.fib n.toNat) := by
  have hloop : fibonacciLoop (n - 2).toNat (.fin 1) (.fin 1) = .ofRat (Nat.fib n.toNat) := by
    refine Backoff.fibonacci_of_loop fibonacciLoop (fun m => rfl) (fun k m => .inl ?_) hn
    rw [← Backoff.add_fib]
    rfl
  unfold fibonacci
  rw [if_neg (by omega), ← hloop]
  split
  · have hpasses : (n - 2).toNat = 0 := by omega
    rw [hpasses]
    rfl
  · rfl

theorem rawDelay_eq {attempt : ℕ} (h : 1 ≤ attempt) (base : Double) (policy : RetryPolicy) :
    rawDelay attempt base policy = base.mul (.ofRat (Backoff.curve policy.backoff attempt)) := by
  have hone : (1 : Int) ≤ attempt := by omega
  unfold rawDelay
  cases policy.backoff with
  | linear =>
    show base.mul (.ofInt attempt) = _
    rw [Backoff.ofInt_eq_curve (by omega), Int.toNat_natCast]
  | exponential =>
    show base.mul (.pow2 ((attempt : Int) - 1).toNat) = _
    rw [Backoff.pow2_eq_curve, Int.toNat_natCast]
  | fibonacci =>
    show base.mul (fibonacci attempt) = _
    rw [fibonacci_eq hone, Int.toNat_natCast]
    rfl

end RetryBackoff

end SyncProvider.Js
