import WorkerGuard.Proofs.Breaker.Garbled
import WorkerGuard.Proofs.Task.Keeping

/-!
# WorkerGuard.Proofs.Task.Garbled

What is called while the row of a breaker is not read as it is stored, and its dependency fails.

* `tryOnce_garbled`: who is let pass makes an attempt, and never gets its failure written.
* `keepsTries_garbled`: so no more than one attempt is made by all, and it is the last thing done.
-/

namespace WorkerGuard

open Breaker Program Simulation

variable {σ : Type} {E : Environment σ} {store : σ → Store} {d : Dependency}
variable {others outages : Registry.Request → Prop} {r : Breaker.Row} {b : Breaker} {h h' : σ}

/-- No attempt has been made, and the row is as it was. -/
def Untried (store : σ → Store) (d : Dependency) (r : Breaker.Row) (l : List Exchange) (h : σ) :
    Prop :=
  l.countP Exchange.isAttempt = 0 ∧ (store h).Garbled d r

variable (hE : ∀ h q a h', E h q a h' → Served others outages (store h) q a (store h'))
variable (hothers : ∀ q, others q → ¬q.Swaps d)
include hE hothers

theorem keepsCalls_garbled : KeepsCalls E (Untried store d r) Call.Idle := by
  intro q hq l h a h' ⟨hnone, hs⟩ ha
  have hattempt : (Exchange.mk q a).isAttempt = false :=
    Call.Only.isAttempt (e := ⟨q, a⟩) hq.only (by decide)
  refine ⟨?_, garbled_other hE hothers hs (hq.only.not_swaps (by decide)) ha⟩
  rw [List.countP_append, hnone, List.countP_cons, hattempt]
  rfl

variable (houtages : ∀ q, outages q → ¬q.OfRow d)
variable (hd : b.dependency = d) (hshared : b.shared = true)
include houtages hd hshared

/-- Who reports a failure does not get any further. -/
theorem reported_garbled {o : Except Failure.CallError Json} {l : List Exchange}
    {x : Except Halt (Option (Except Failure.CallError Json))} (hs : (store h).Garbled d r)
    (hr : Trail E (b.recordFailure >>= fun _ => pure (some o)) h l x h') :
    x = .error .contention ∧ l.countP Exchange.isAttempt = 0 ∧
      l.countP Exchange.isSwap = b.patience := by
  have hattempts := Retry.report_attempts b.asks_recordFailure hr
  obtain ⟨_, _, _, _, _, hreport, _⟩ | ⟨why, rfl, hreport⟩ := trail_bind hr
  · cases (recordFailure_garbled hE hothers houtages hd hshared hs hreport).1
  · obtain ⟨hwhy, hswaps⟩ := recordFailure_garbled hE hothers houtages hd hshared hs hreport
    cases hwhy
    exact ⟨rfl, hattempts, hswaps⟩

variable (hclosed : r.circuit = .closed)
variable (hfails : ∀ {bound : Duration} {h h' : σ} {a : Attempt}, E h (.attempt d bound) a h' →
  ∀ v, a ≠ .returned (.ok v))
include hclosed hfails

theorem tryOnce_garbled {bound : Duration} {l : List Exchange}
    {x : Except Halt (Option (Except Failure.CallError Json))} (hs : (store h).Garbled d r)
    (hr : Trail E (Retry.tryOnce b bound 0) h l x h') :
    (x = .error .contention ∧ l.countP Exchange.isAttempt ≤ 1 ∧
      b.patience ≤ l.countP Exchange.isSwap) ∨
        (x = .ok none ∧ l.countP Exchange.isAttempt = 0 ∧ (store h').Garbled d r ∧
          ∃ h₁, E h (.forced d) true h₁) := by
  obtain ⟨allowed, h₁, l₁, l₂, rfl, hallow, hr⟩ | ⟨why, rfl, hallow⟩ := trail_bind hr
  · have hnone := Retry.allow_attempts hallow
    obtain ⟨hs₁, ⟨hwhy, _⟩ | ⟨forced, h₂, hforced, hok⟩⟩ :=
      allow_garbled hE hothers houtages hd hshared hclosed hs hallow
    · cases hwhy
    cases hok
    cases forced with
    | true =>
      obtain ⟨rfl, rfl, rfl⟩ := trail_pure hr
      refine .inr ⟨rfl, ?_, hs₁, h₂, hd ▸ hforced⟩
      rw [List.append_nil, hnone]
    | false =>
      obtain ⟨a, h₃, l₃, rfl, hattempt, hr⟩ := trail_call_bind hr
      have hs₃ : (store h₃).Garbled d r := garbled_other hE hothers hs₁ id hattempt
      have hstuck : x = .error .contention ∧ l₃.countP Exchange.isAttempt = 0 ∧
          l₃.countP Exchange.isSwap = b.patience := by
        rw [if_neg (by decide)] at hr
        split at hr
        · exact absurd rfl (hfails (hd ▸ hattempt) _)
        · exact reported_garbled hE hothers houtages hd hshared hs₃ hr
        · exact reported_garbled hE hothers houtages hd hshared hs₃ hr
      obtain ⟨rfl, hattempts, hswaps⟩ := hstuck
      refine .inl ⟨rfl, ?_, ?_⟩
      · rw [List.countP_append, hnone, List.countP_cons, hattempts]
        exact Nat.le_refl 1
      · rw [List.countP_append, List.countP_cons, hswaps]
        exact Nat.le_add_left ..
  · obtain ⟨_, ⟨hwhy, hswaps⟩ | ⟨_, _, _, hok⟩⟩ :=
      allow_garbled hE hothers houtages hd hshared hclosed hs hallow
    · cases hwhy
      refine .inl ⟨rfl, ?_, hswaps⟩
      rw [Retry.allow_attempts hallow]
      exact Nat.zero_le _
    · cases hok

theorem keepsTries_garbled :
    Retry.KeepsTries E (Untried store d r) (fun l _ => l.countP Exchange.isAttempt ≤ 1) b := by
  intro bound made l h l' x h' ⟨hnone, hs⟩ hmade hr
  obtain rfl : made = 0 := Nat.le_zero.1 (hnone ▸ hmade)
  have hcount : (l ++ l').countP Exchange.isAttempt = l'.countP Exchange.isAttempt := by
    rw [List.countP_append, hnone, Nat.zero_add]
  obtain ⟨hwhy, hone, _⟩ | ⟨_, hzero, hs', _⟩ :=
    tryOnce_garbled hE hothers houtages hd hshared hclosed hfails hs hr
  · exact .inr ⟨hwhy, Nat.le_trans (Nat.le_of_eq hcount) hone⟩
  · exact .inl ⟨hcount.trans hzero, hs'⟩

end WorkerGuard
