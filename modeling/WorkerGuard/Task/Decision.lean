import WorkerGuard.Breaker.Circuit
import WorkerGuard.Failure.Classification
import WorkerGuard.Settings.Basic

/-!
# WorkerGuard.Task.Decision

What to do about a task after a round of calls that failed.

* `Limits`: the budget of a task; `Report`: what is known of the failed round.
* `decide`: try again, ask for a helper, give the task up with a `Reason`, or fail.

Only a failure of a retryable kind can lead to a helper, and only while the breaker is closed.

`decide` is the function of that name; `Limits`, `Report` and `Reason` are its `PolicyLimits`,
`FailureReport` and `DegradeReason`.
-/

namespace WorkerGuard.Task

open Failure

structure Limits where
  /-- Rounds that a task may run before its own budget is spent. -/
  localRounds : UInt32
  /-- A task that runs for less time may not ask for a helper. -/
  spawnAfter : Duration
  deriving DecidableEq

def Limits.ofSettings (s : Settings.Policy) : Limits := ⟨max s.localRounds 1, s.spawnAfter⟩

structure Report where
  classification : Classification
  /-- The breaker after the round. -/
  breaker : Circuit
  /-- Time since the task began. -/
  elapsed : Duration
  /-- The number of the round, from 1. -/
  round : UInt32
  deriving DecidableEq

/-- Why a task is given up. -/
inductive Reason where
  | dependencyUnavailable
  | notRetryable (kind : Kind)
  | breakerNotClosed (circuit : Circuit)
  | spawnRefused (why : String)
  | helperFailed (why : String)
  deriving DecidableEq

inductive Decision where
  | retryLocal
  | spawnHelper (kind : RetryableKind)
  | degrade (reason : Reason)
  /-- The budget is spent on a task too young for a helper. -/
  | fail
  deriving DecidableEq

namespace Reason

def ofKind : Kind → Reason
  | .dependencyUnavailable => dependencyUnavailable
  | k => notRetryable k

def message : Reason → String
  | dependencyUnavailable => "dependency unavailable"
  | notRetryable k => "non-retryable failure (" ++ k.name ++ ")"
  | breakerNotClosed c => "circuit " ++ c.name
  | spawnRefused why => "helper refused: " ++ why
  | helperFailed why => "helper failed: " ++ why

def describe : Reason → String
  | dependencyUnavailable => "DependencyUnavailable"
  | notRetryable k => "NotRetryable(" ++ k.describe ++ ")"
  | breakerNotClosed c => "BreakerNotClosed(" ++ c.describe ++ ")"
  | spawnRefused why => "SpawnRefused(" ++ Text.quoted why ++ ")"
  | helperFailed why => "HelperFailed(" ++ Text.quoted why ++ ")"

end Reason

def Report.describe (r : Report) : String :=
  "FailureReport \x7b classification: " ++ r.classification.describe ++ ", breaker: " ++
    r.breaker.describe ++ ", elapsed: " ++ r.elapsed.text ++ ", round: " ++
    toString r.round.toNat ++ " \x7d"

/-- The retryable kind of a failure that is also marked as retryable. -/
def Report.retryable? (r : Report) : Option RetryableKind :=
  if r.classification.retryable then r.classification.kind.retryable? else none

def decide (r : Report) (limits : Limits) : Decision :=
  match r.retryable? with
  | none => .degrade (.ofKind r.classification.kind)
  | some kind =>
    if r.breaker ≠ .closed then .degrade (.breakerNotClosed r.breaker)
    else if r.round < limits.localRounds then .retryLocal
    else if limits.spawnAfter ≤ r.elapsed then .spawnHelper kind
    else .fail

end WorkerGuard.Task
