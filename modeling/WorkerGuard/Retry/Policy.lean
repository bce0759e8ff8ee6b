import WorkerGuard.Failure.Classification
import WorkerGuard.Settings.Basic

/-!
# WorkerGuard.Retry.Policy

How often and after what delays a failed call is tried again.

* `Retry.Policy`: the budget.
* `nominalDelay`: the delay after an attempt, doubling from attempt to attempt up to a cap.
* `backoff?`: the same with a random part; `grown`: the bound on attempts after one that overran.

`Policy` embeds `RetryPolicy`: `ofSettings`, `retries`, `nominalDelay` and `backoff?` are
`from_settings`, `is_retryable`, `nominal_delay` and `backoff_delay`. `grown` is how `execute` goes
from one attempt timeout to the next.
-/

namespace WorkerGuard.Retry

structure Policy where
  /-- Retries after the first call. -/
  maxAttempts : UInt32
  baseDelay : Duration
  maxDelay : Duration
  /-- The largest part of a delay that is added to it at random, from 0 to 1. -/
  jitterFraction : Float
  attemptTimeout : Duration
  maxAttemptTimeout : Duration
  retryableKinds : List Failure.Kind

/-- The nearest number from 0 to 1; what is no number stays so. -/
def toUnit (x : Float) : Float := if x < 0.0 then 0.0 else if x > 1.0 then 1.0 else x

namespace Policy

def ofSettings (s : Settings.Retry) : Policy where
  maxAttempts := s.maxAttempts
  baseDelay := s.baseDelay
  maxDelay := s.maxDelay
  jitterFraction := toUnit s.jitterFraction
  attemptTimeout := s.attemptTimeout
  maxAttemptTimeout := s.maxAttemptTimeout
  retryableKinds := s.retryableKinds

/-- No policy retries a failure that cannot be mended. -/
def retries (p : Policy) (k : Failure.Kind) : Bool :=
  k.retryable?.isSome && p.retryableKinds.contains k

/-- Powers of two, of which numbers past 32 bits count as the largest one. -/
def factor (attempt : UInt32) : Nat := if attempt < 32 then Nat.pow 2 attempt.toNat else 4294967295

/-- The delay after an attempt, counted from zero. A product past the longest duration is past the
cap as well. -/
def nominalDelay (p : Policy) (attempt : UInt32) : Duration :=
  min ((p.baseDelay.times? (factor attempt)).getD p.maxDelay) p.maxDelay

/-- The delay with its random part; `none` if the product is no duration. -/
def backoff? (p : Policy) (attempt : UInt32) (jitter : Float) : Option Duration :=
  (p.nominalDelay attempt).scale? (1.0 + toUnit jitter * p.jitterFraction)

/-- Twice the bound, up to the cap. -/
def grown (p : Policy) (bound : Duration) : Duration :=
  min ((bound.times? 2).getD p.maxAttemptTimeout) p.maxAttemptTimeout

end Policy
end WorkerGuard.Retry
