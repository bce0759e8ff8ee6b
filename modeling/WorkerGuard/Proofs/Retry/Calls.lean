import WorkerGuard.Proofs.Breaker.Calls
import WorkerGuard.Retry.Engine

/-!
# WorkerGuard.Proofs.Retry.Calls

The calls that are made for one call to a dependency with its retries.

* `Call.OfCalling d`: calls to the dependency `d`, about its breaker, and the waits in between.
* `Retry.asks_execute`: there are no others.
-/

namespace WorkerGuard

open Breaker Program

def Call.OfCalling (d : Dependency) : Call → Prop
  | .enlist d' => d' = d
  | .attempt d' _ => d' = d
  | .sleep _ => True
  | .jitter => True
  | q => q.OfBreaker d

theorem Call.OfBreaker.ofCalling {d : Dependency} {q : Call} (h : q.OfBreaker d) :
    q.OfCalling d := by
  cases q with
  | enlist d' => cases h
  | attempt d' bound => cases h
  | sleep t => cases h
  | jitter => cases h
  | _ => exact h

theorem Call.OfCalling.only {d : Dependency} {q : Call} (h : q.OfCalling d) :
    q.Only [.attempt, .sleep, .swap, .exchange] := by
  have hbreaker : q.OfBreaker d → q.Only [.attempt, .sleep, .swap, .exchange] :=
    fun hq => hq.only.mono (by simp)
  cases q with
  | enlist d' => exact nofun
  | attempt d' bound => rintro e ⟨⟩; simp
  | sleep t => rintro e ⟨⟩; simp
  | jitter => exact nofun
  | _ => exact hbreaker h

namespace Retry

theorem asks_tryOnce (b : Breaker) (bound : Duration) (made : Nat) :
    (tryOnce b bound made).Asks (Call.OfCalling b.dependency) := by
  refine asks_bind (b.asks_allow.mono fun _ => Call.OfBreaker.ofCalling) fun allowed => ?_
  split
  · refine asks_bind (asks_call.2 rfl) fun outcome => ?_
    split
    · exact asks_halt _
    · have hs := b.asks_recordSuccess.mono fun _ => Call.OfBreaker.ofCalling
      have hf := b.asks_recordFailure.mono fun _ => Call.OfBreaker.ofCalling
      split
      · exact asks_bind hs fun _ => asks_pure _
      · exact asks_bind hf fun _ => asks_pure _
      · exact asks_bind hf fun _ => asks_pure _
  · exact asks_pure _

theorem asks_delayAfter (p : Policy) (attempt : Nat) (c : Failure.Classification) :
    (delayAfter p attempt c).Asks fun q => q = .jitter := by
  refine asks_bind ?_ fun jitter => ?_
  · unfold sampleJitter
    split
    · exact asks_pure _
    · exact asks_call.2 rfl
  · split
    · exact asks_halt _
    · exact asks_pure _

theorem asks_attempts (b : Breaker) (p : Policy) (left made : Nat) (bound : Duration)
    (delays : List Duration) :
    (attempts b p left made bound delays).Asks (Call.OfCalling b.dependency) := by
  induction left generalizing made bound delays with
  | zero =>
    unfold attempts
    refine asks_bind (asks_tryOnce b bound made) fun a => ?_
    split <;> exact asks_pure _
  | succ left ih =>
    unfold attempts
    refine asks_bind (asks_tryOnce b bound made) fun a => ?_
    split
    · exact asks_pure _
    · exact asks_pure _
    · dsimp only
      split
      · have hdelay : ∀ q : Call, q = .jitter → q.OfCalling b.dependency := by
          rintro q rfl
          trivial
        refine asks_bind ((asks_delayAfter _ _ _).mono hdelay) fun delay => ?_
        exact asks_bind (asks_call.2 trivial) fun _ => ih _ _ _
      · exact asks_pure _

theorem asks_execute (board : Board) (d : Dependency) (p : Policy) :
    (execute board d p).Asks (Call.OfCalling d) :=
  ⟨rfl, fun _ => asks_attempts (board.breaker d) p _ _ _ _⟩

end Retry
end WorkerGuard
