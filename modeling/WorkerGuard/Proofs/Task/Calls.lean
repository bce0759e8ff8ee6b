import WorkerGuard.Proofs.Retry.Calls
import WorkerGuard.Proofs.Spawn.Calls
import WorkerGuard.Task.Runner

/-!
# WorkerGuard.Proofs.Task.Calls

The calls that a worker makes.

* `Call.OfRecord`: those by which it keeps its own record: heartbeats, the end of the record, what is
  written of a task that was given up, and alerts.
* `Task.asks_runRound`, `Task.asks_writeDegrade`, `Task.asks_finish`: the calls of a round, and of
  what comes after the rounds.
-/

namespace WorkerGuard

open Program

def Call.OfRecord : Call → Prop
  | .now => True
  | .registry (.heartbeat ..) => True
  | .registry (.terminate _) => True
  | .registry (.degrade _) => True
  | .appendLog _ => True
  | .readLog => True
  | .lastAlert _ => True
  | .setLastAlert .. => True
  | _ => False

theorem Call.OfRecord.only {q : Call} (h : q.OfRecord) : q.Only [.append] := by
  intro e he
  cases q with
  | registry q =>
    cases q with
    | insert r c => cases h
    | swapBreaker d expected next => cases h
    | _ => cases he
  | appendLog a => cases he; simp
  | attempt d bound => cases h
  | sleep t => cases h
  | setForced d forced => cases h
  | exchangeWord d old new => cases h
  | _ => cases he

theorem Lifecycle.asks_heartbeat (id : WorkerId) : (heartbeat id).Asks Call.OfRecord :=
  asks_bind (asks_call.2 trivial) fun _ => asks_request.2 trivial

theorem Alert.asks_check (a : Settings.Alerts) (role : String) :
    (check a role).Asks Call.OfRecord := by
  refine asks_bind (asks_call.2 trivial) fun now => ?_
  refine asks_bind (asks_call.2 trivial) fun last => ?_
  refine asks_bind (asks_call.2 trivial) fun log => ?_
  split
  · exact asks_pure _
  · dsimp only
    split
    · exact asks_pure _
    · exact asks_bind (asks_call.2 trivial) fun _ => asks_pure _

namespace Task

theorem asks_isAlive (w : Worker) : (isAlive w).Asks Call.OfRecord := by
  refine asks_bind (Lifecycle.asks_heartbeat w.id) fun a => ?_
  split <;> exact asks_pure _

/-- A round looks at the own record and calls the dependency. -/
theorem asks_runRound (s : Settings) (w : Worker) (started : Instant) (round : UInt32) (c : Course) :
    (runRound s w started round c).Asks fun q => q.OfRecord ∨ q.OfCalling w.dependency := by
  refine asks_bind ((asks_isAlive w).mono fun _ => .inl) fun alive => ?_
  split
  · refine asks_bind ((Retry.asks_execute _ _ _).mono fun _ => .inr) fun result => ?_
    split
    · exact asks_pure _
    · refine asks_bind ((Breaker.Board.asks_state _ _).mono fun q hq => .inr ?_) fun circuit => ?_
      · obtain rfl | hq := hq
        · rfl
        · exact hq.ofCalling
      · exact asks_bind (asks_call.2 (.inl trivial)) fun now => asks_pure _
  · exact asks_pure _

theorem asks_writeDegrade (task : Task) (w : Worker) (reason : Reason) :
    (writeDegrade w task reason).Asks Call.OfRecord := by
  refine asks_bind (asks_call.2 trivial) fun now => ?_
  refine asks_bind (asks_call.2 trivial) fun a => ?_
  split <;> exact asks_pure _

theorem asks_closeRecord (w : Worker) (degraded : Bool) :
    (closeRecord w degraded).Asks Call.OfRecord := by
  cases degraded
  · exact asks_bind (asks_request.2 trivial) fun _ => asks_pure _
  · exact asks_bind (asks_request.2 trivial) fun _ => asks_pure _

theorem asks_finish (s : Settings) (w : Worker) (c : Course) :
    (finish s w c).Asks Call.OfRecord := by
  unfold finish
  split
  · refine asks_bind (asks_closeRecord w false) fun _ => ?_
    split <;> exact asks_pure _
  · refine asks_bind (asks_closeRecord w true) fun _ => ?_
    exact asks_bind (Alert.asks_check _ _) fun _ => asks_pure _
  · exact asks_bind (asks_closeRecord w false) fun _ => asks_pure _
  · exact asks_pure _

end Task
end WorkerGuard
