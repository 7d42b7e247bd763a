import SyncProvider.Spec
import SyncProvider.Lib.Double

/-!
# Android: options and the retry policy

The option records a dispatch reads, and `RetryPolicyEvaluator`, which turns a
policy into a delay, a retry decision and a budget.
-/

namespace SyncProvider.Android

structure RetryPolicy where
  maxAttempts : Double
  backoff : BackoffStrategy
  baseDelayMs : Double
  maxDelayMs : Double
  jitter : Bool
  retryOnStatusCodes : List Double
  deriving DecidableEq

structure SyncOptions where
  strategy : SyncStrategy
  retryPolicy : RetryPolicy
  batchSize : Option Double
  requestTimeoutMs : Option Double
  maxQueueSize : Option Double
  persistQueue : Option Bool
  defaultHeaders : Option StringMap
  deriving DecidableEq

/-- How far the current default headers can be trusted by a flush cycle. -/
inductive CredentialPolicy where
  | TRUSTED | PERSISTED | UNAVAILABLE
  deriving DecidableEq

/-! ## `RetryPolicyEvaluator` -/

namespace RetryPolicyEvaluator

/-! `rnd` is what a sum or a product of doubles goes through: `Double.toNearest` on the
device, nothing where a result is about exact numbers. -/

/-- The loop of `fibonacci`, with the number of passes that are left. -/
def fibonacciLoop (rnd : Double → Double) : Nat → Double → Double → Double
  | 0, _, b => b
  | n + 1, a, b => if b.isInfinite then b else fibonacciLoop rnd n b (rnd (a.add b))

def fibonacci (n : Int) (rnd : Double → Double := id) : Double :=
  if n ≤ 1 then .ofInt n else fibonacciLoop rnd (n - 2).toNat (.fin 1) (.fin 1)

/-- The back-off before jitter and cap. A power of two is exact. -/
def rawDelay (attempt : Int) (policy : RetryPolicy) (base : Double)
    (rnd : Double → Double := id) : Double :=
  match policy.backoff with
  | .linear => rnd (base.mul (.ofInt attempt))
  | .exponential => rnd (base.mul (.pow2 (attempt - 1).toNat))
  | .fibonacci => rnd (base.mul (fibonacci attempt rnd))

/-- The delay in milliseconds after attempt number `attempt`. `sample` is the
next double of the random source, in `[0, 1)`, and half of it is exact. -/
def computeDelayMs (attempt : Int) (policy : RetryPolicy) (sample : ℚ)
    (rnd : Double → Double := id) : Int :=
  if attempt < 1 then 0
  else
    let base := policy.baseDelayMs.coerceAtLeast (.fin 0)
    let cap := policy.maxDelayMs.coerceAtLeast base
    let raw := rawDelay attempt policy base rnd
    let jittered :=
      if policy.jitter && (Double.fin 0).lt raw then
        rnd (raw.mul (rnd (.fin (3 / 4 + sample * (1 / 2)))))
      else raw
    (jittered.min cap).toInt64

def shouldRetryStatus (statusCode : Option Int) (policy : RetryPolicy) : Bool :=
  match statusCode with
  | none => false
  | some code => policy.retryOnStatusCodes.any fun c => c.toInt32 == code

/-- `policy.maxAttempts.toInt().coerceAtLeast(1)`. -/
def attemptBudget (policy : RetryPolicy) : Int := max policy.maxAttempts.toInt32 1

def hasBudget (attempt : Int) (policy : RetryPolicy) : Bool := attempt < attemptBudget policy

end RetryPolicyEvaluator

end SyncProvider.Android
