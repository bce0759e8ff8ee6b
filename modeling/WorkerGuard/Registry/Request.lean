import WorkerGuard.Breaker.Row
import WorkerGuard.Override
import WorkerGuard.Worker.Record

/-!
# WorkerGuard.Registry.Request

What processes ask of the registry that they share. Each request is one atomic step.

* `Request`: workers, overrides and breaker rows.
* `Request.Answer`: the type of what comes back.
* `Registry.Error`: how a registry can fail to answer.

The requests are, in this order, the methods `insert_if_under_ceiling`, `get`, `update_heartbeat`,
`count_active`, `count_active_in_tree`, `mark_terminated`, `mark_degraded`, `select_stale_active`,
`list`, `set_override`, `clear_override` and `list_overrides` of `WorkerRegistry`, and
`load_breaker`, `swap_breaker` and `list_breakers` of `BreakerStore`.
-/

namespace WorkerGuard.Registry

inductive Request where
  /-- Registers a worker if its role and its tree are both below their ceilings. -/
  | insert (recruit : Recruit) (ceilings : Ceilings)
  | get (id : WorkerId)
  /-- Notes that an active worker is alive. -/
  | heartbeat (id : WorkerId) (time : Instant)
  /-- Active workers of a role. -/
  | countRole (role : String)
  /-- Active workers with a root. -/
  | countTree (root : WorkerId)
  /-- Ends an active worker. -/
  | terminate (id : WorkerId)
  /-- Closes an active worker as degraded. -/
  | degrade (id : WorkerId)
  /-- Active workers created before an instant, of one role or of all. -/
  | stale (before : Instant) (role : Option String)
  | list (state : Option Worker.State)
  | setOverride (override : Override)
  | clearOverride (dependency : Dependency)
  | listOverrides
  | loadBreaker (dependency : Dependency)
  /-- Replaces a row if it still is the expected one. -/
  | swapBreaker (dependency : Dependency) (expected next : Breaker.Row)
  | listBreakers
  deriving DecidableEq

namespace Request

/-- Where nothing was found or nothing changed, the answer is `none` or `false`. -/
abbrev Answer : Request → Type
  | insert .. => Option Worker
  | get _ => Option Worker
  | heartbeat .. => Bool
  | countRole _ => Nat
  | countTree _ => Nat
  | terminate _ => Bool
  | degrade _ => Bool
  | stale .. => List Worker
  | list _ => List Worker
  | setOverride _ => Unit
  | clearOverride _ => Bool
  | listOverrides => List Override
  | loadBreaker _ => Breaker.Row
  | swapBreaker .. => Bool
  | listBreakers => List (Dependency × Breaker.Row)

end Request

inductive Error where
  /-- The registry cannot be reached. -/
  | locked
  /-- A stored state is none of the known words. -/
  | unknownState (word : UnknownWord)
  /-- A stored time is no instant. -/
  | badTime (millis : Int)
  /-- The database refused the statement. -/
  | rejected
  deriving DecidableEq

/-- The wording; a database has its own for what it refuses. -/
def Error.message? : Error → Option String
  | .locked => some "database is locked"
  | .unknownState w => some ("corrupt row: " ++ w.message)
  | .badTime ms => some ("corrupt row: invalid timestamp: " ++ toString ms)
  | .rejected => none

end WorkerGuard.Registry
