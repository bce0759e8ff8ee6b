import WorkerGuard.Proofs.Breaker.Garbled
import WorkerGuard.Proofs.Program.Schedule

/-!
# WorkerGuard.Proofs.Breaker.Return

Rows that a handle finds again as it has written them, and what it does upon those that it does not.

* `transact_swaps`: another attempt to replace a row is made only if the one before was lost.
* `Breaker.EndsAtOnce`: the steps of a handle end, and each makes one such attempt at most.
* `Breaker.Spins`: the report of a failure makes one after the other until its patience ends. It does
  so on a row that is not read as it is stored (`Alone.spins`).
* `stored_row_returns`: what a registry gives back of its rows, and what follows for a handle.
-/

namespace WorkerGuard

open Breaker Program Registry Simulation

/-- The operations that may move a breaker. -/
def Breaker.Operation.Moves : Operation → Prop
  | .allow | .recordSuccess | .recordFailure => True
  | _ => False

section Swaps

variable {σ : Type} {E : Environment σ} {b : Breaker} {step : Step} {h h' : σ} {l : List Exchange}

theorem transactShared_swaps {d : Dependency} {tries : Nat}
    {r : Except Halt (Except Registry.Error Outcome)}
    (hr : Trail E (transactShared d step tries) h l r h') :
    l.countP Exchange.isSwap ≤ l.countP Exchange.isLoss + 1 := by
  induction tries generalizing h l with
  | zero =>
    obtain ⟨rfl, _, _⟩ := trail_halt hr
    exact Nat.zero_le _
  | succ tries ih =>
    obtain ⟨found, h₁, l₁, rfl, _, hr⟩ := trail_call_bind hr
    cases found with
    | error why =>
      obtain ⟨rfl, _, _⟩ := trail_pure hr
      exact Nat.zero_le _
    | ok row =>
      obtain ⟨t, h₂, l₂, rfl, _, hr⟩ := trail_call_bind hr
      dsimp only at hr
      split at hr
      · obtain ⟨rfl, _, _⟩ := trail_pure hr
        exact Nat.zero_le _
      · obtain ⟨swapped, h₃, l₃, rfl, _, hr⟩ := trail_call_bind hr
        simp only [List.countP_cons, Exchange.isSwap, Exchange.isLoss]
        split at hr
        · obtain ⟨rfl, _, _⟩ := trail_pure hr
          simp
        · obtain ⟨rfl, _, _⟩ := trail_pure hr
          simp
        · have hrest := ih hr
          simp
          omega

theorem transact_swaps {r : Except Halt Outcome} (hr : Trail E (b.transact step) h l r h') :
    l.countP Exchange.isSwap ≤ l.countP Exchange.isLoss + 1 := by
  have hlocal : ∀ {h l r h'}, Trail E (b.transactLocal step) h l r h' →
      l.countP Exchange.isSwap = 0 :=
    fun hr => hr.countP_eq_zero (b.asks_transactLocal step) fun _ he => he.only.isSwap (by decide)
  unfold transact at hr
  split at hr
  · obtain ⟨found, h₁, l₁, l₂, rfl, hfirst, hr⟩ | ⟨why, rfl, hfirst⟩ := trail_bind hr
    · have hfirst := transactShared_swaps hfirst
      have hrest : l₂.countP Exchange.isSwap = 0 := by
        split at hr
        · obtain ⟨_, h₂, l₃, rfl, _, hr⟩ := trail_call_bind hr
          obtain ⟨rfl, _, _⟩ := trail_pure hr
          rfl
        · exact hlocal hr
      rw [List.countP_append, List.countP_append]
      omega
    · exact transactShared_swaps hfirst
  · have hnone := hlocal hr
    omega

/-- An operation that may move a breaker is one step of its handle, if there is no override. -/
theorem transact_of_moves {o : Operation} (ho : o.Moves) {r : Except Halt o.Answer}
    (hr : Trail E (o.program b) h l r h') :
    (l.countP Exchange.isSwap = 0 ∧ ∃ a, r = .ok a) ∨
      ∃ h₀ l₀ r₀, (h₀ = h ∨ E h (.forced b.dependency) false h₀) ∧
        Trail E (b.transact (o.step b)) h₀ l₀ r₀ h' ∧
        l.countP Exchange.isSwap = l₀.countP Exchange.isSwap ∧
        ((∃ a, r₀ = .ok a) → ∃ a, r = .ok a) := by
  have hstep : ∀ {α : Type} {h : σ} {l : List Exchange} {r : Except Halt α} {f : Outcome → α},
      Trail E (b.transact (o.step b) >>= fun x => pure (f x)) h l r h' →
      ∃ r₀, Trail E (b.transact (o.step b)) h l r₀ h' ∧ ((∃ a, r₀ = .ok a) → ∃ a, r = .ok a) := by
    intro α h l r f hr
    obtain ⟨x, h₁, l₁, l₂, rfl, hfirst, hr⟩ | ⟨why, rfl, hfirst⟩ := trail_bind hr
    · obtain ⟨rfl, rfl, rfl⟩ := trail_pure hr
      rw [List.append_nil]
      exact ⟨_, hfirst, fun _ => ⟨_, rfl⟩⟩
    · refine ⟨_, hfirst, ?_⟩
      rintro ⟨a, ha⟩
      cases ha
  cases o with
  | allow =>
    obtain ⟨forced, h₁, l₁, rfl, hforced, hr⟩ := trail_call_bind hr
    cases forced with
    | true =>
      obtain ⟨rfl, rfl, _⟩ := trail_pure hr
      exact .inl ⟨rfl, _, rfl⟩
    | false =>
      obtain ⟨r₀, htrail, hok⟩ := hstep hr
      exact .inr ⟨h₁, l₁, r₀, .inr hforced, htrail, rfl, hok⟩
  | recordSuccess =>
    obtain ⟨r₀, htrail, hok⟩ := hstep hr
    exact .inr ⟨h, l, r₀, .inl rfl, htrail, rfl, hok⟩
  | recordFailure =>
    obtain ⟨r₀, htrail, hok⟩ := hstep hr
    exact .inr ⟨h, l, r₀, .inl rfl, htrail, rfl, hok⟩
  | _ => exact ho.elim

end Swaps

namespace Breaker

variable {σ : Type} (E : Environment σ) (b : Breaker) (h : σ)

def EndsAtOnce : Prop :=
  ∀ o : Operation, o.Moves → ∀ l r h', Trail E (o.program b) h l r h' →
    (∃ a, r = .ok a) ∧ l.countP Exchange.isSwap ≤ 1

def Spins : Prop :=
  ∀ l r h', Trail E b.recordFailure h l r h' →
    r = .error .contention ∧ l.countP Exchange.isSwap = b.patience

end Breaker

namespace Simulation

variable {d : Dependency} {others outages : Request → Prop} {h : World} {b : Breaker}
variable {r : Breaker.Row}

theorem Alone.endsAtOnce (hothers : ∀ q, others q → ¬q.Swaps b.dependency)
    (hpos : 0 < b.patience) (hrow : h.store.Candid b.dependency) :
    b.EndsAtOnce (Alone b.dependency others outages) h := by
  intro o ho l r h' hr
  obtain ⟨hnone, hok⟩ | ⟨h₀, l₀, r₀, hstart, htrail, hswaps, hok⟩ := transact_of_moves ho hr
  · exact ⟨hok, by omega⟩
  have hrow₀ : h₀.store.Candid b.dependency := by
    obtain rfl | hforced := hstart
    · exact hrow
    · refine hforced.1.keeps (fun s q hq hI => hI.answer_other (hothers q hq)) ?_ hrow
      intro q hq
      cases hq
  obtain ⟨hlost, _⟩ := Alone.transact_unraced hothers hrow₀ htrail
  have honce := transact_swaps htrail
  refine ⟨hok ?_, by omega⟩
  cases r₀ with
  | ok a => exact ⟨a, rfl⟩
  | error why =>
    have hexcused := excused_transact (I := fun _ => True) (R := False) (fun _ _ _ _ _ _ => trivial)
      b (o.step b) _ _ _ _ trivial htrail
    obtain ⟨_, hpatience⟩ | ⟨_, hfalse⟩ := hexcused
    · omega
    · exact hfalse.elim

theorem Alone.spins (hothers : ∀ q, others q → ¬q.Swaps d) (houtages : ∀ q, outages q → ¬q.OfRow d)
    (hd : b.dependency = d) (hshared : b.shared = true) (hs : h.store.Garbled d r) :
    b.Spins (Alone d others outages) h :=
  fun _ _ _ hr => recordFailure_garbled (fun _ _ _ _ ha => ha.1) hothers houtages hd hshared hs hr

/-- The row that is filed is the only one that a swap takes. It is read back unless a database has
got a stamp of 2^63 or later; such a row is read with another stamp, and a failure that is reported
upon it is never written, however often the handle tries. -/
theorem Store.stored_row_returns {s : Store} (hs : s.Used) (d : Dependency) :
    ∃ r, s.Filed d r ∧
      (∀ expected next, (s.answer (.swapBreaker d expected next)).1 = .ok (decide (expected = r))) ∧
      ((∀ expected next, (s.answer (.swapBreaker d expected next)).1 = .ok true ↔
        (s.answer (.loadBreaker d)).1 = .ok expected) ↔ s.Fits r) ∧
      (∀ expected next s', s.answer (.swapBreaker d expected next) = (.ok true, s') →
        ((s'.answer (.loadBreaker d)).1 = .ok next ↔ s'.Fits next)) ∧
      ∀ (b : Breaker) (others outages : Request → Prop) (h : World), b.dependency = d →
        (∀ q, others q → ¬q.Swaps d) → h.store = s →
        (s.Fits r → 0 < b.patience → b.EndsAtOnce (Alone d others outages) h) ∧
        (¬s.Fits r → b.shared = true → (∀ q, outages q → ¬q.OfRow d) →
          b.Spins (Alone d others outages) h) := by
  obtain ⟨r, hr⟩ := hs.filed d
  have hswap : ∀ expected next,
      (s.answer (.swapBreaker d expected next)).1 = .ok (decide (expected = r)) := by
    intro expected next
    obtain ⟨s', hs', _⟩ := hr.answer_swap expected next
    rw [hs']
  refine ⟨r, hr, hswap, ?_, ?_, ?_⟩
  · rw [← readBack_eq_iff]
    simp only [hswap, hr.answer_load, Except.ok.injEq, decide_eq_true_eq]
    constructor
    · intro h
      exact (h r .fresh).1 rfl
    · intro h expected _
      rw [h, eq_comm]
  · intro expected next s' hs'
    obtain ⟨s₁, hs₁, hfiled⟩ := hr.answer_swap expected next
    rw [hs₁, Prod.mk.injEq, Except.ok.injEq, decide_eq_true_eq] at hs'
    obtain ⟨rfl, rfl⟩ := hs'
    rw [if_pos rfl] at hfiled
    rw [hfiled.answer_load, Except.ok.injEq]
    exact readBack_eq_iff
  · rintro b others outages h rfl hothers rfl
    refine ⟨fun hfits hpos => ?_, fun hunfit hshared houtages => ?_⟩
    · exact Alone.endsAtOnce hothers hpos (hr.holds hfits).candid
    · exact Alone.spins hothers houtages rfl hshared ⟨hr, hunfit⟩

namespace Store

section Distant

def upstream : Dependency := ⟨"upstream"⟩

/-- A breaker that opened 292 million years after 1970. -/
def distant : Breaker.Row := ⟨.opened, 1, 9223372036854775808⟩

/-- A database with this row. -/
def overfull : Store := ((database .empty).answer (.swapBreaker upstream .fresh distant)).2

theorem filed_overfull : overfull.Filed upstream distant := .inl rfl

/-- The row was written, but it is not what a load gives, and what a load gives is not taken. -/
theorem distant_not_returned :
    ((database .empty).answer (.swapBreaker upstream .fresh distant)).1 = .ok true ∧
      (overfull.answer (.loadBreaker upstream)).1 = .ok ⟨.opened, 1, 0⟩ ∧
      ∀ next, (overfull.answer (.swapBreaker upstream ⟨.opened, 1, 0⟩ next)).1 = .ok false := by
  refine ⟨rfl, ?_, ?_⟩
  · rw [filed_overfull.answer_load]
    rfl
  · intro next
    obtain ⟨s', hs', _⟩ := filed_overfull.answer_swap ⟨.opened, 1, 0⟩ next
    rw [hs']
    rfl

/-- All that the handle may try is in vain. -/
theorem distant_spins :
    overfull.Used ∧ ∃ l h', Trail (Alone upstream (fun _ => False) fun _ => False)
      (Breaker.ofSettings upstream ⟨3, 30⟩ true).recordFailure ⟨overfull, 0, 0⟩ l
        (.error .contention) h' ∧ l.countP Exchange.isSwap = usualPatience := by
  have hused : overfull.Used := ⟨[.swapBreaker upstream .fresh distant], .inr rfl⟩
  obtain ⟨r, hr, _, _, _, hloop⟩ := stored_row_returns hused upstream
  obtain rfl := hr.eq filed_overfull
  have hunfit : ¬overfull.Fits distant := show ¬distant.stamp.toNat < signedLimit by decide
  obtain ⟨_, hspins⟩ := hloop (.ofSettings upstream ⟨3, 30⟩ true) (fun _ => False) (fun _ => False)
    ⟨overfull, 0, 0⟩ rfl (fun _ h => h.elim) rfl
  have htrail := trail_follow (E := Alone upstream (fun _ => False) fun _ => False)
    (alone_serve (Call.calm .epoch ⟨"worker"⟩))
    (Breaker.ofSettings upstream ⟨3, 30⟩ true).recordFailure ⟨overfull, 0, 0⟩
  obtain ⟨hend, hswaps⟩ := hspins hunfit rfl (fun _ h => h.elim) _ _ _ htrail
  rw [hend] at htrail
  exact ⟨hused, _, _, htrail, hswaps⟩

end Distant

end Store

end Simulation
end WorkerGuard
