import WorkerGuard.Task.Decision

/-!
# WorkerGuard.Task.Machine

The course of a task as a state machine: events come in, actions go out.

* `State`, `Event`, `Action`.
* `start`, `transition`: each state but a terminal one has one action.

An event that a state does not expect ends the task as failed.

`start` and `transition` are the functions of these names, `State` is `TaskState`, and `giveUp` is
`degrade`.
-/

namespace WorkerGuard.Task

open Failure

inductive State where
  | running (round : UInt32)
  | retryingLocal (round : UInt32)
  | awaitingSpawn
  | helperRunning (helper : WorkerId)
  | degrading (reason : Reason)
  | completed
  | degradedComplete (reason : Reason)
  | failed (error : String)
  deriving DecidableEq

inductive Event where
  | roundSucceeded
  | roundFailed (report : Report)
  | spawnGranted (helper : WorkerId)
  | spawnRefused (reason : String)
  | helperFinished (succeeded : Bool) (detail : String)
  | degradeRecorded
  | degradeFailed (error : String)
  /-- The worker is no longer active in the registry. -/
  | terminated
  deriving DecidableEq

inductive Action where
  | runRound (round : UInt32)
  /-- The kind of the failure that calls for a helper. -/
  | requestSpawn (kind : RetryableKind)
  | runHelper (helper : WorkerId)
  | writeDegrade (reason : Reason)
  deriving DecidableEq

namespace State

def isTerminal : State → Bool
  | completed | degradedComplete _ | failed _ => true
  | _ => false

def describe : State → String
  | running r => "Running \x7b round: " ++ toString r.toNat ++ " \x7d"
  | retryingLocal r => "RetryingLocal \x7b round: " ++ toString r.toNat ++ " \x7d"
  | awaitingSpawn => "AwaitingSpawn"
  | helperRunning h => "HelperRunning \x7b helper: " ++ h.describe ++ " \x7d"
  | degrading r => "Degrading \x7b reason: " ++ r.describe ++ " \x7d"
  | completed => "Completed"
  | degradedComplete r => "DegradedComplete \x7b reason: " ++ r.describe ++ " \x7d"
  | failed e => "Failed \x7b error: " ++ Text.quoted e ++ " \x7d"

end State

def Event.describe : Event → String
  | roundSucceeded => "RoundSucceeded"
  | roundFailed r => "RoundFailed(" ++ r.describe ++ ")"
  | spawnGranted h => "SpawnGranted \x7b helper: " ++ h.describe ++ " \x7d"
  | spawnRefused r => "SpawnRefused \x7b reason: " ++ Text.quoted r ++ " \x7d"
  | helperFinished ok detail =>
    "HelperFinished \x7b succeeded: " ++ toString ok ++ ", detail: " ++ Text.quoted detail ++
      " \x7d"
  | degradeRecorded => "DegradeRecorded"
  | degradeFailed e => "DegradeFailed \x7b error: " ++ Text.quoted e ++ " \x7d"
  | terminated => "Terminated"

def start : State × List Action := (.running 1, [.runRound 1])

def prunedMessage : String := "worker record no longer active (pruned)"

def invalidMessage (s : State) (e : Event) : String :=
  "Invalid state transition: " ++ s.describe ++ " cannot handle event " ++ e.describe

def exhaustedMessage (r : Report) : String :=
  r.classification.kind.name ++ " after " ++ toString r.round.toNat ++
    " round(s); local budget exhausted"

def giveUp (reason : Reason) : State × List Action := (.degrading reason, [.writeDegrade reason])

/-- After a failed round. -/
def afterFailure (r : Report) (limits : Limits) : State × List Action :=
  match decide r limits with
  | .retryLocal => (.retryingLocal (r.round + 1), [.runRound (r.round + 1)])
  | .spawnHelper kind => (.awaitingSpawn, [.requestSpawn kind])
  | .degrade reason => giveUp reason
  | .fail => (.failed (exhaustedMessage r), [])

def transition (s : State) (e : Event) (limits : Limits) : State × List Action :=
  match s, e with
  | .completed, e => (.failed (invalidMessage .completed e), [])
  | .degradedComplete r, e => (.failed (invalidMessage (.degradedComplete r) e), [])
  | .failed m, e => (.failed (invalidMessage (.failed m) e), [])
  | _, .terminated => (.failed prunedMessage, [])
  | .running _, .roundSucceeded | .retryingLocal _, .roundSucceeded => (.completed, [])
  | .running _, .roundFailed r | .retryingLocal _, .roundFailed r => afterFailure r limits
  | .awaitingSpawn, .spawnGranted helper => (.helperRunning helper, [.runHelper helper])
  | .awaitingSpawn, .spawnRefused why => giveUp (.spawnRefused why)
  | .helperRunning _, .helperFinished true _ => (.completed, [])
  | .helperRunning _, .helperFinished false detail => giveUp (.helperFailed detail)
  | .degrading reason, .degradeRecorded => (.degradedComplete reason, [])
  | .degrading reason, .degradeFailed error =>
    (.failed ("degrade write failed (" ++ reason.message ++ "): " ++ error), [])
  | s, e => (.failed (invalidMessage s e), [])

end WorkerGuard.Task
