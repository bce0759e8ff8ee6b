import WorkerGuard.Breaker.Handle
import WorkerGuard.Proofs.Program.Effect
import WorkerGuard.Proofs.Program.Path

/-!
# WorkerGuard.Proofs.Breaker.Calls

The calls that the handle on a breaker makes.

* `Call.OfBreaker d`: calls about the dependency `d` and its breaker, and readings of the clock;
  `Call.OfWord d`: those of them that need no registry.
* `Breaker.asks_transact`, `asks_allow`, `asks_recordSuccess`, `asks_recordFailure`, `asks_state`:
  a handle makes no others.
-/

namespace WorkerGuard

open Breaker Program

/-- What is written into a row is a condition. -/
def Call.OfBreaker (d : Dependency) : Call → Prop
  | .now => True
  | .registry (.loadBreaker d') => d' = d
  | .registry (.swapBreaker d' _ next) => d' = d ∧ ∃ c : Condition, next = c.toRow
  | .word d' => d' = d
  | .setWord d' _ => d' = d
  | .exchangeWord d' _ _ => d' = d
  | .forced d' => d' = d
  | _ => False

/-- What is done while the registry cannot be reached. -/
def Call.OfWord (d : Dependency) : Call → Prop
  | .now => True
  | .word d' => d' = d
  | .exchangeWord d' _ _ => d' = d
  | _ => False

theorem Call.OfWord.ofBreaker {d : Dependency} {q : Call} (h : q.OfWord d) : q.OfBreaker d := by
  cases q with
  | now => trivial
  | word d' => exact h
  | exchangeWord d' old new => exact h
  | _ => cases h

theorem Call.OfBreaker.only {d : Dependency} {q : Call} (h : q.OfBreaker d) :
    q.Only [.swap, .exchange] := by
  intro e he
  cases q with
  | registry q =>
    cases q with
    | loadBreaker d' => cases he
    | swapBreaker d' expected next => cases he; simp
    | _ => cases h
  | exchangeWord d' old new => cases he; simp
  | attempt d' bound => cases h
  | sleep t => cases h
  | setForced d' forced => cases h
  | appendLog a => cases h
  | _ => cases he

theorem Call.OfWord.only {d : Dependency} {q : Call} (h : q.OfWord d) : q.Only [.exchange] := by
  intro e he
  cases q with
  | now => cases he
  | word d' => cases he
  | exchangeWord d' old new => cases he; simp
  | _ => cases h

namespace Breaker

theorem asks_reading (d : Dependency) : reading.Asks (Call.OfWord d) :=
  asks_bind (asks_call.2 trivial) fun _ => asks_pure _

theorem asks_transactShared (d : Dependency) (step : Step) (tries : Nat) :
    (transactShared d step tries).Asks (Call.OfBreaker d) := by
  induction tries with
  | zero => exact asks_halt _
  | succ tries ih =>
    refine asks_bind (asks_request.2 rfl) fun a => ?_
    cases a with
    | error e => exact asks_pure _
    | ok row =>
      refine asks_bind ((asks_reading d).mono fun _ => Call.OfWord.ofBreaker) fun now => ?_
      split
      · exact asks_pure _
      · rename_i after _
        refine asks_bind (asks_request.2 ⟨rfl, after, rfl⟩) fun a => ?_
        split
        · exact asks_pure _
        · exact asks_pure _
        · exact ih

theorem asks_transactWord (d : Dependency) (step : Step) (tries : Nat) (word : UInt64) :
    (transactWord d step tries word).Asks (Call.OfWord d) := by
  induction tries generalizing word with
  | zero => exact asks_halt _
  | succ tries ih =>
    refine asks_bind (asks_reading d) fun now => ?_
    split
    · exact asks_pure _
    · refine asks_bind (asks_call.2 rfl) fun found => ?_
      split
      · exact asks_pure _
      · exact ih found

theorem asks_transactLocal (b : Breaker) (step : Step) :
    (b.transactLocal step).Asks (Call.OfWord b.dependency) :=
  asks_bind (asks_call.2 rfl) fun word => asks_transactWord _ _ _ word

theorem asks_transact (b : Breaker) (step : Step) :
    (b.transact step).Asks (Call.OfBreaker b.dependency) := by
  unfold transact
  split
  · refine asks_bind (asks_transactShared _ _ _) fun r => ?_
    split
    · exact asks_bind (asks_call.2 rfl) fun _ => asks_pure _
    · exact (b.asks_transactLocal step).mono fun _ => Call.OfWord.ofBreaker
  · exact (b.asks_transactLocal step).mono fun _ => Call.OfWord.ofBreaker

theorem asks_allow (b : Breaker) : b.allow.Asks (Call.OfBreaker b.dependency) := by
  refine asks_bind (asks_call.2 rfl) fun forced => ?_
  cases forced with
  | true => exact asks_pure _
  | false => exact asks_bind (b.asks_transact _) fun _ => asks_pure _

theorem asks_recordSuccess (b : Breaker) : b.recordSuccess.Asks (Call.OfBreaker b.dependency) :=
  asks_bind (b.asks_transact _) fun _ => asks_pure _

theorem asks_recordFailure (b : Breaker) : b.recordFailure.Asks (Call.OfBreaker b.dependency) :=
  asks_bind (b.asks_transact _) fun _ => asks_pure _

theorem asks_current (b : Breaker) : b.current.Asks (Call.OfBreaker b.dependency) := by
  unfold current
  split
  · refine asks_bind (asks_request.2 rfl) fun a => ?_
    split
    · exact asks_bind (asks_call.2 rfl) fun _ => asks_pure _
    · exact asks_bind (asks_call.2 rfl) fun _ => asks_pure _
  · exact asks_bind (asks_call.2 rfl) fun _ => asks_pure _

theorem asks_state (b : Breaker) : b.state.Asks (Call.OfBreaker b.dependency) := by
  refine asks_bind (asks_call.2 rfl) fun forced => ?_
  cases forced with
  | true => exact asks_pure _
  | false => exact asks_bind b.asks_current fun _ => asks_pure _

end Breaker
end WorkerGuard
