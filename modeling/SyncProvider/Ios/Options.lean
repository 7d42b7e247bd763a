import SyncProvider.Spec
import SyncProvider.Lib.Double

/-!
# iOS: the dispatcher configuration and the retry policy

`DispatcherConfig` is what the dispatcher reads, `RetryPolicyEvaluator` turns
its policy into a delay and a retry decision.
-/

namespace SyncProvider.Ios

structure RetryPolicyValue where
  maxAttempts : Int
  backoff : BackoffStrategy
  baseDelayMs : Int
  maxDelayMs : Int
  jitter : Bool
  retryOnStatusCodes : List Int
  deriving DecidableEq

/-- Where the active configuration came from. -/
inductive ConfigSource where
  | defaults
  /-- Read back from disk, so a persisted credential may be stale. -/
  | persisted
  /-- Set by `configureSync` in this process. -/
  | live
  deriving DecidableEq

structure DispatcherConfig where
  retryPolicy : RetryPolicyValue
  requestTimeoutMs : Int
  batchSize : Int
  defaultHeaders : StringMap
  source : ConfigSource
  hasDefaultHeaders : Bool
  /-- Default headers are declared but unreadable: dispatch is suspended. -/
  credentialsUnavailable : Bool
  deriving DecidableEq

namespace RetryPolicyEvaluator

/-- The loop of `fibonacci`, with the number of passes that are left. -/
def fibonacciLoop : Nat → Double → Double → Double
  | 0, _, curr => curr
  | n + 1, prev, curr =>
    let next := prev.add curr
    if next.isInfinite then next else fibonacciLoop n curr next

def fibonacci (n : Int) : Double :=
  if n ≤ 0 then .fin 0 else if n ≤ 2 then .fin 1
  else fibonacciLoop (n - 2).toNat (.fin 1) (.fin 1)

/-- Ceiling for a computed delay. -/
def maxRepresentableDelayMs : Double := .fin 9007199254740991

/-- The curve before jitter and cap. -/
def rawDelay (safeAttempt base : Int) (policy : RetryPolicyValue) : Double :=
  match policy.backoff with
  | .linear => (Double.ofInt base).mul (.ofInt safeAttempt)
  | .exponential => (Double.ofInt base).mul (.pow2 (safeAttempt - 1).toNat)
  | .fibonacci => (Double.ofInt base).mul (fibonacci safeAttempt)

/-- The delay in milliseconds before the next attempt. `sample` is the random
number in `0..<1`. -/
def nextDelayMs (attempt : Int) (policy : RetryPolicyValue) (sample : ℚ) : Int :=
  let curve := rawDelay (max 1 attempt) (max 0 policy.baseDelayMs) policy
  -- `0 * infinity` is NaN, not 0
  let finite := if curve.isNaN then .fin 0 else curve
  let raw := if policy.jitter then finite.mul (.fin (3 / 4 + sample * (1 / 2))) else finite
  let cap := if policy.maxDelayMs > 0 then .ofInt policy.maxDelayMs else raw
  (((raw.coerceAtLeast (.fin 0)).min cap).min maxRepresentableDelayMs).round

def shouldRetry (statusCode : Int) (policy : RetryPolicyValue) : Bool :=
  policy.retryOnStatusCodes.contains statusCode

end RetryPolicyEvaluator

end SyncProvider.Ios
