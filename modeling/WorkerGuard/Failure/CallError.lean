import WorkerGuard.Failure.Kind
import WorkerGuard.Name
import WorkerGuard.Time.Duration

/-!
# WorkerGuard.Failure.CallError

How a call to a dependency can fail.

* `CallError`: the ways, with what is known in each.
* `message`: their wording.

`CallError` embeds `OperationError`.
-/

namespace WorkerGuard.Failure

inductive CallError where
  /-- The breaker refused the call. -/
  | circuitOpen (dependency : Dependency)
  /-- The call took longer than its bound. -/
  | timeout (bound : Duration)
  | rateLimited (retryAfter : Option Duration)
  /-- The dependency answered with a status code other than success. -/
  | status (code : UInt16) (body : String)
  | connection (text : String)
  | auth (text : String)
  | fatal (text : String)
  | other (text : String)
  deriving DecidableEq

def CallError.message : CallError → String
  | circuitOpen d => "circuit open for " ++ d.name
  | timeout bound => "timed out after " ++ toString bound.millis ++ "ms"
  | rateLimited (some d) => "rate limited (retry after " ++ toString d.millis ++ "ms)"
  | rateLimited none => "rate limited"
  | status code body => "status " ++ toString code.toNat ++ ": " ++ body
  | connection text => "connection error: " ++ text
  | auth text => "auth error: " ++ text
  | fatal text => "fatal: " ++ text
  | other text => text

end WorkerGuard.Failure
