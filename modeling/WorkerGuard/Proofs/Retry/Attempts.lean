import WorkerGuard.Proofs.Breaker.Race
import WorkerGuard.Proofs.Retry.Calls

/-!
# WorkerGuard.Proofs.Retry.Attempts

How often a call with its retries goes to the dependency, and that it comes to an end.

* `Exchange.isAttempt`: a call to a dependency.
* `execute_attempts`: there is at most one attempt more than the policy has retries.
* `excused_execute`: unless a number is out of range, only lost races keep it from its end.
-/

namespace WorkerGuard

open Breaker Failure Program

def Exchange.isAttempt : Exchange → Bool
  | ⟨.attempt .., _⟩ => true
  | _ => false

theorem Call.Only.isAttempt {es : List Effect} {e : Exchange} (h : e.call.Only es)
    (hes : .attempt ∉ es) : e.isAttempt = false := by
  obtain ⟨q, a⟩ := e
  cases q with
  | attempt d' bound => exact absurd rfl (h.not_effect hes)
  | _ => rfl

namespace Retry

variable {σ : Type} {E : Environment σ} {h h' : σ} {l : List Exchange}

section Count

theorem allow_attempts {b : Breaker} {r : Except Halt Bool} (hr : Trail E b.allow h l r h') :
    l.countP Exchange.isAttempt = 0 :=
  hr.countP_eq_zero b.asks_allow fun _ hq => hq.only.isAttempt (by decide)

theorem report_attempts {b : Breaker} {x : Program Unit} {o : Except CallError Json}
    {r : Except Halt (Option (Except CallError Json))}
    (hx : x.Asks (Call.OfBreaker b.dependency))
    (hr : Trail E (x >>= fun _ => pure (some o)) h l r h') :
    l.countP Exchange.isAttempt = 0 :=
  hr.countP_eq_zero (asks_bind hx fun _ => asks_pure _) fun _ hq => hq.only.isAttempt (by decide)

theorem tryOnce_attempts {b : Breaker} {bound : Duration} {made : Nat}
    {r : Except Halt (Option (Except CallError Json))}
    (hr : Trail E (tryOnce b bound made) h l r h') : l.countP Exchange.isAttempt ≤ 1 := by
  obtain ⟨allowed, h₁, l₁, l₂, rfl, hallow, hr⟩ | ⟨why, rfl, hallow⟩ := trail_bind hr
  · rw [List.countP_append, allow_attempts hallow, Nat.zero_add]
    split at hr
    · obtain ⟨outcome, h₂, l₃, rfl, _, hr⟩ := trail_call_bind hr
      have hafter : l₃.countP Exchange.isAttempt = 0 := by
        split at hr
        · rw [(trail_halt hr).1]
          rfl
        · split at hr
          · exact report_attempts b.asks_recordSuccess hr
          · exact report_attempts b.asks_recordFailure hr
          · exact report_attempts b.asks_recordFailure hr
      rw [List.countP_cons, hafter]
      exact Nat.le_refl _
    · rw [(trail_pure hr).1]
      exact Nat.zero_le _
  · rw [allow_attempts hallow]
    exact Nat.zero_le _

theorem delayAfter_attempts {p : Policy} {made : Nat} {c : Classification}
    {r : Except Halt Duration} (hr : Trail E (delayAfter p made c) h l r h') :
    l.countP Exchange.isAttempt = 0 := by
  refine hr.countP_eq_zero (asks_delayAfter p made c) ?_
  rintro ⟨q, a⟩ rfl
  rfl

theorem attempts_attempts {b : Breaker} {p : Policy} {left made : Nat} {bound : Duration}
    {delays : List Duration} {r : Except Halt (Except GivenUp Json)}
    (hr : Trail E (attempts b p left made bound delays) h l r h') :
    l.countP Exchange.isAttempt ≤ left + 1 := by
  induction left generalizing made bound delays h l with
  | zero =>
    unfold attempts at hr
    obtain ⟨o, h₁, l₁, l₂, rfl, htry, hr⟩ | ⟨why, rfl, htry⟩ := trail_bind hr
    · have hdone : l₂ = [] := by
        split at hr
        · exact (trail_pure hr).1
        · exact (trail_pure hr).1
        · exact (trail_pure hr).1
      rw [hdone, List.append_nil]
      exact tryOnce_attempts htry
    · exact tryOnce_attempts htry
  | succ left ih =>
    unfold attempts at hr
    obtain ⟨o, h₁, l₁, l₂, rfl, htry, hr⟩ | ⟨why, rfl, htry⟩ := trail_bind hr
    · have hfirst := tryOnce_attempts htry
      have hrest : l₂.countP Exchange.isAttempt ≤ left + 1 := by
        split at hr
        · rw [(trail_pure hr).1]
          exact Nat.zero_le _
        · rw [(trail_pure hr).1]
          exact Nat.zero_le _
        · dsimp only at hr
          split at hr
          · obtain ⟨delay, h₂, l₃, l₄, rfl, hdelay, hr⟩ | ⟨why, rfl, hdelay⟩ := trail_bind hr
            · obtain ⟨_, h₃, l₅, rfl, _, hr⟩ := trail_call_bind hr
              rw [List.countP_append, delayAfter_attempts hdelay, List.countP_cons, Nat.zero_add]
              exact ih hr
            · rw [delayAfter_attempts hdelay]
              exact Nat.zero_le _
          · rw [(trail_pure hr).1]
            exact Nat.zero_le _
      rw [List.countP_append]
      omega
    · have hfirst := tryOnce_attempts htry
      omega

/-- One call, and the retries of the policy. -/
theorem execute_attempts {board : Board} {d : Dependency} {p : Policy}
    {r : Except Halt (Except GivenUp Json)} (hr : Trail E (execute board d p) h l r h') :
    l.countP Exchange.isAttempt ≤ p.maxAttempts.toNat + 1 := by
  obtain ⟨_, h₁, l₁, rfl, _, hr⟩ := trail_call_bind hr
  rw [List.countP_cons]
  exact attempts_attempts hr

end Count

section Excused

variable {I : σ → Prop} {R : Prop} (hI : ∀ h q a h', I h → E h q a h' → I h')

/-- A random number that the surroundings can give, or the one that is taken without asking. -/
def Sampled (E : Environment σ) (x : Float) : Prop := x = 0.0 ∨ ∃ h h', E h .jitter x h'

include hI

theorem excused_tryOnce (b : Breaker) (bound : Duration) {made : Nat}
    (hmade : made + 1 = UInt32.size → R) : Excused E I b.patience R (tryOnce b bound made) := by
  refine excused_bind hI (excused_allow hI b) fun allowed => ?_
  split
  · refine excused_bind hI excused_call fun outcome => ?_
    split
    · rename_i hsize
      exact excused_halt (hmade hsize)
    · split
      · exact excused_bind hI (excused_recordSuccess hI b) fun _ => excused_pure
      · exact excused_bind hI (excused_recordFailure hI b) fun _ => excused_pure
      · exact excused_bind hI (excused_recordFailure hI b) fun _ => excused_pure
  · exact excused_pure

omit hI in
theorem excused_delayAfter {p : Policy} (n made : Nat) (c : Classification)
    (hdelay : ∀ k x, Sampled E x → p.backoff? k x = none → R) :
    Excused E I n R (delayAfter p made c) := by
  intro h l why h' hh hr
  obtain ⟨x, h₁, l₁, l₂, rfl, hjitter, hr⟩ | ⟨why', hwhy, hjitter⟩ := trail_bind hr
  · have hx : Sampled E x := by
      unfold sampleJitter at hjitter
      split at hjitter
      · exact .inl (Except.ok.inj (trail_pure hjitter).2.1)
      · obtain ⟨a, _, ha, hjitter⟩ := trail_call hjitter
        cases ha
        exact .inr ⟨_, _, hjitter⟩
    split at hr
    · rename_i hnone
      obtain ⟨_, hwhy, _⟩ := trail_halt hr
      cases hwhy
      exact .inr ⟨rfl, hdelay _ x hx hnone⟩
    · cases (trail_pure hr).2.1
  · have htotal : (sampleJitter p).Total := by
      unfold sampleJitter
      split
      · exact total_pure _
      · exact total_call _
    obtain ⟨x, hx⟩ := hjitter.ok_of_total htotal
    cases hx

theorem excused_attempts (b : Breaker) {p : Policy} {left made : Nat} (bound : Duration)
    (delays : List Duration) (hmade : UInt32.size ≤ made + left + 1 → R)
    (hdelay : ∀ k x, Sampled E x → p.backoff? k x = none → R) :
    Excused E I b.patience R (attempts b p left made bound delays) := by
  induction left generalizing made bound delays with
  | zero =>
    unfold attempts
    refine excused_bind hI (excused_tryOnce hI b bound fun hsize => hmade ?_) fun o => ?_
    · omega
    · split <;> exact excused_pure
  | succ left ih =>
    unfold attempts
    refine excused_bind hI (excused_tryOnce hI b bound fun hsize => hmade ?_) fun o => ?_
    · omega
    · split
      · exact excused_pure
      · exact excused_pure
      · dsimp only
        split
        · refine excused_bind hI (excused_delayAfter _ _ _ hdelay) fun delay => ?_
          refine excused_bind hI excused_call fun _ => ih _ _ fun hsize => hmade ?_
          omega
        · exact excused_pure

theorem excused_execute (board : Board) (d : Dependency) {p : Policy}
    (hmade : UInt32.size ≤ p.maxAttempts.toNat + 1 → R)
    (hdelay : ∀ k x, Sampled E x → p.backoff? k x = none → R) :
    Excused E I board.patience R (execute board d p) := by
  intro h l why h' hh hr
  obtain ⟨_, h₁, l₁, rfl, henlist, hr⟩ := trail_call_bind hr
  have hafter := excused_attempts hI (board.breaker d) p.attemptTimeout []
    (fun hsize => hmade (by omega)) hdelay _ _ _ _ (hI _ _ _ _ hh henlist) hr
  exact hafter.prepend [_]

end Excused
end Retry
end WorkerGuard
