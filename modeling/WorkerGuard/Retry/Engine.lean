import WorkerGuard.Breaker.Board
import WorkerGuard.Retry.Policy

/-!
# WorkerGuard.Retry.Engine

One call to a dependency with its retries.

* `tryOnce`: one attempt. The breaker is asked before and told the outcome after it.
* `execute`: attempts until one succeeds, the breaker refuses one, one fails for good, or the budget
  is spent; a delay comes before each retry.
* `GivenUp`: what is known when there is no value.

`execute`, whose loop is `attempts`, embeds `execute` of `RetryEngine`; `sampleJitter` embeds
`sample_jitter`, and `GivenUp` is `RetryFailure`.
-/

namespace WorkerGuard.Retry

open Failure

structure GivenUp where
  dependency : Dependency
  error : CallError
  classification : Classification
  /-- Attempts that were made; none if the breaker refused the first one. -/
  attempts : Nat
  /-- The delays before the retries, in order. -/
  delays : List Duration

def GivenUp.message (f : GivenUp) : String :=
  f.dependency.name ++ " failed after " ++ toString f.attempts ++ " attempt(s) [" ++
    f.classification.kind.name ++ "]: " ++ f.error.message

/-- The attempt with the number `made + 1`, for no longer than a bound; `none` if it is refused. -/
def tryOnce (b : Breaker) (bound : Duration) (made : Nat) :
    Program (Option (Except CallError Json)) := do
  if ← b.allow then
    let outcome ← Program.call (.attempt b.dependency bound)
    if made + 1 = UInt32.size then .halt .outOfRange
    else
      match outcome with
      | .returned (.ok v) =>
        b.recordSuccess
        return some (.ok v)
      | .returned (.error e) =>
        b.recordFailure
        return some (.error e)
      | .overran =>
        b.recordFailure
        return some (.error (.timeout bound))
  else return none

/-- A policy without random parts takes no sample. -/
def sampleJitter (p : Policy) : Program Float := do
  if p.jitterFraction ≤ 0.0 then return 0.0 else Program.call .jitter

/-- The delay after the attempt with this number from zero; the failure itself may ask for more. -/
def delayAfter (p : Policy) (attempt : Nat) (c : Classification) : Program Duration := do
  let jitter ← sampleJitter p
  match p.backoff? attempt.toUInt32 jitter with
  | none => .halt .outOfRange
  | some d => return match c.suggestedDelay with
    | some asked => max d asked
    | none => d

/-- The attempts from the next one on, after `made` of them; so many retries are left. -/
def attempts (b : Breaker) (p : Policy) :
    (left made : Nat) → (bound : Duration) → (delays : List Duration) →
      Program (Except GivenUp Json)
  | left, made, bound, delays => do
    match ← tryOnce b bound made with
    | none =>
      let e := CallError.circuitOpen b.dependency
      return .error ⟨b.dependency, e, classify e, made, delays⟩
    | some (.ok v) => return .ok v
    | some (.error e) =>
      let c := classify e
      let givenUp : GivenUp := ⟨b.dependency, e, c, made + 1, delays⟩
      match left with
      | 0 => return .error givenUp
      | left + 1 =>
        if c.retryable && p.retries c.kind then
          let bound := if c.kind = .timeout then p.grown bound else bound
          let delay ← delayAfter p made c
          Program.call (.sleep delay)
          attempts b p left (made + 1) bound (delays ++ [delay])
        else return .error givenUp

def execute (board : Breaker.Board) (d : Dependency) (p : Policy) :
    Program (Except GivenUp Json) := do
  let b ← board.handle d
  attempts b p p.maxAttempts.toNat 0 p.attemptTimeout []

end WorkerGuard.Retry
