import WorkerGuard.Proofs.Breaker.Operation
import WorkerGuard.Proofs.Registry.Filed

/-!
# WorkerGuard.Proofs.Breaker.Garbled

Rows of breakers that are not read as they are stored.

* `Exchange.isSwap`: an attempt to replace a row.
* `Store.Garbled d r`: the row of `d` is `r`, but a load gives another one. So no swap that expects
  what was loaded succeeds.
* `transactShared_garbled`: a step that would change the row loses one race after the other until its
  patience ends, by induction on the tries; one that leaves the row alone ends.
* `transact_garbled`, `allow_garbled`: a step of a handle, and who asks to pass.
-/

namespace WorkerGuard

open Breaker Program Registry Simulation

def Exchange.isSwap : Exchange → Bool
  | ⟨.registry (.swapBreaker ..), _⟩ => true
  | _ => false

theorem Call.Only.isSwap {es : List Effect} {e : Exchange} (h : e.call.Only es)
    (hes : .swap ∉ es) : e.isSwap = false := by
  obtain ⟨q, a⟩ := e
  cases q with
  | registry q =>
    cases q with
    | swapBreaker d' expected next => exact absurd rfl (h.not_effect hes)
    | _ => rfl
  | _ => rfl

/-- What a handle makes of a row whose stamp is lost. -/
def Breaker.Row.unstamped (r : Row) : Condition := .ofRow { r with stamp := 0 }

namespace Simulation

variable {d : Dependency} {others outages : Request → Prop} {r : Breaker.Row}

/-- A load gives another row than the one that is there. -/
def Store.Garbled (d : Dependency) (r : Breaker.Row) (s : Store) : Prop :=
  s.Filed d r ∧ ¬s.Fits r

theorem Store.Garbled.readBack {s : Store} (hs : s.Garbled d r) :
    s.readBack r = { r with stamp := 0 } := by
  cases s with
  | memory m => exact absurd trivial hs.2
  | database db => exact if_neg hs.2

theorem Store.Garbled.answer_other {s : Store} (hs : s.Garbled d r) {q : Request}
    (hq : ¬q.Swaps d) : (s.answer q).2.Garbled d r :=
  ⟨hs.1.answer_other hq, fun h => hs.2 ((s.fits_answer q r).1 h)⟩

theorem Store.Garbled.elsewhere {s s' : Store} (hs : s.Garbled d r)
    (hothers : ∀ q, others q → ¬q.Swaps d) (h : s.Elsewhere others s') : s'.Garbled d r :=
  h.keeps (fun _ q hq hI => hI.answer_other (hothers q hq)) hs

section Garbled

variable {σ : Type} {E : Environment σ} {store : σ → Store} {h h' : σ} {l : List Exchange}
variable (hE : ∀ h q a h', E h q a h' → Served others outages (store h) q a (store h'))
variable (hothers : ∀ q, others q → ¬q.Swaps d)
include hE hothers

theorem garbled_other {q : Call} {a : q.Answer} (hs : (store h).Garbled d r) (hq : ¬q.Swaps d)
    (ha : E h q a h') : (store h').Garbled d r := by
  refine (hE _ _ _ _ ha).keeps (fun s q hq hI => hI.answer_other (hothers q hq)) ?_ hs
  rintro q' rfl hI
  exact hI.answer_other hq

variable (houtages : ∀ q, outages q → ¬q.OfRow d)
include houtages

theorem garbled_load {a : (Call.registry (.loadBreaker d)).Answer} (hs : (store h).Garbled d r)
    (hload : E h (.registry (.loadBreaker d)) a h') :
    a = .ok { r with stamp := 0 } ∧ (store h').Garbled d r := by
  refine ⟨?_, garbled_other hE hothers hs id hload⟩
  obtain ⟨s, hanswer, _⟩ | ⟨hout, _⟩ := hE _ _ _ _ hload
  · rw [hs.1.answer_load, hs.readBack] at hanswer
    cases hanswer
    rfl
  · exact absurd rfl (houtages _ hout)

theorem garbled_swap {expected next : Breaker.Row}
    {a : (Call.registry (.swapBreaker d expected next)).Answer} (hs : (store h).Garbled d r)
    (hne : expected ≠ r) (hswap : E h (.registry (.swapBreaker d expected next)) a h') :
    a = .ok false ∧ (store h').Garbled d r := by
  obtain ⟨s, hanswer, hafter⟩ | ⟨hout, _⟩ := hE _ _ _ _ hswap
  · obtain ⟨s', hs', hfiled⟩ := hs.1.answer_swap expected next
    rw [if_neg hne] at hfiled
    have hgarbled : s'.Garbled d r := by
      refine ⟨hfiled, ?_⟩
      rw [show s' = ((store h).answer _).2 from congrArg Prod.snd hs'.symm, Store.fits_answer]
      exact hs.2
    rw [hs', decide_eq_false hne] at hanswer
    cases hanswer
    exact ⟨rfl, hgarbled.elsewhere hothers hafter⟩
  · exact absurd rfl (houtages _ hout)

/-- What was loaded is never the row that the swap compares. -/
theorem transactShared_garbled {step : Step} {tries : Nat}
    {x : Except Halt (Except Registry.Error Outcome)} (hs : (store h).Garbled d r)
    (hr : Trail E (transactShared d step tries) h l x h') :
    (store h').Garbled d r ∧ ((x = .error .contention ∧ l.countP Exchange.isSwap = tries) ∨
      ∃ now, step r.unstamped now = none ∧ x = .ok (.ok ⟨r.unstamped, none⟩)) := by
  induction tries generalizing h l with
  | zero =>
    obtain ⟨rfl, rfl, rfl⟩ := trail_halt hr
    exact ⟨hs, .inl ⟨rfl, rfl⟩⟩
  | succ tries ih =>
    obtain ⟨found, h₁, l₁, rfl, hload, hr⟩ := trail_call_bind hr
    obtain ⟨rfl, hs₁⟩ := garbled_load hE hothers houtages hs hload
    obtain ⟨t, h₂, l₂, rfl, hnow, hr⟩ := trail_call_bind hr
    have hs₂ : (store h₂).Garbled d r := garbled_other hE hothers hs₁ id hnow
    dsimp only at hr
    split at hr
    · rename_i hnone
      obtain ⟨rfl, rfl, rfl⟩ := trail_pure hr
      exact ⟨hs₂, .inr ⟨_, hnone, rfl⟩⟩
    · have hne : { r with stamp := 0 } ≠ r := by
        rw [← hs.readBack]
        exact fun heq => hs.2 (Store.readBack_eq_iff.1 heq)
      obtain ⟨swapped, h₃, l₃, rfl, hswap, hr⟩ := trail_call_bind hr
      obtain ⟨rfl, hs₃⟩ := garbled_swap hE hothers houtages hs₂ hne hswap
      obtain ⟨hs', ⟨rfl, hswaps⟩ | hends⟩ := ih hs₃ hr
      · refine ⟨hs', .inl ⟨rfl, ?_⟩⟩
        simp only [List.countP_cons, hswaps]
        rfl
      · exact ⟨hs', .inr hends⟩

variable {b : Breaker} (hd : b.dependency = d) (hshared : b.shared = true)
include hd hshared

theorem transact_garbled {step : Step} {x : Except Halt Outcome} (hs : (store h).Garbled d r)
    (hr : Trail E (b.transact step) h l x h') :
    (store h').Garbled d r ∧ ((x = .error .contention ∧ l.countP Exchange.isSwap = b.patience) ∨
      ∃ now, step r.unstamped now = none ∧ x = .ok ⟨r.unstamped, none⟩) := by
  subst hd
  unfold transact at hr
  rw [if_pos hshared] at hr
  obtain ⟨found, h₁, l₁, l₂, rfl, hloop, hr⟩ | ⟨why, rfl, hloop⟩ := trail_bind hr
  · obtain ⟨hs₁, ⟨hwhy, _⟩ | ⟨now, hnone, hok⟩⟩ :=
      transactShared_garbled hE hothers houtages hs hloop
    · cases hwhy
    · cases hok
      obtain ⟨_, h₂, l₃, rfl, hword, hr⟩ := trail_call_bind hr
      obtain ⟨rfl, rfl, rfl⟩ := trail_pure hr
      exact ⟨garbled_other hE hothers hs₁ id hword, .inr ⟨now, hnone, rfl⟩⟩
  · obtain ⟨hs', ⟨hwhy, hswaps⟩ | ⟨_, _, hok⟩⟩ :=
      transactShared_garbled hE hothers houtages hs hloop
    · cases hwhy
      exact ⟨hs', .inl ⟨rfl, hswaps⟩⟩
    · cases hok

/-- A failure that is reported is always something to write. -/
theorem recordFailure_garbled {x : Except Halt Unit} (hs : (store h).Garbled d r)
    (hr : Trail E b.recordFailure h l x h') :
    x = .error .contention ∧ l.countP Exchange.isSwap = b.patience := by
  obtain ⟨o, h₁, l₁, l₂, rfl, hstep, hr⟩ | ⟨why, rfl, hstep⟩ := trail_bind hr
  · obtain ⟨_, ⟨hwhy, _⟩ | ⟨_, hnone, _⟩⟩ :=
      transact_garbled hE hothers houtages hd hshared hs hstep
    · cases hwhy
    · cases hnone
  · obtain ⟨_, ⟨hwhy, hswaps⟩ | ⟨_, hnone, _⟩⟩ :=
      transact_garbled hE hothers houtages hd hshared hs hstep
    · cases hwhy
      exact ⟨rfl, hswaps⟩
    · cases hnone

/-- While the breaker is closed, who asks to pass writes nothing. -/
theorem allow_garbled (hclosed : r.circuit = .closed) {x : Except Halt Bool}
    (hs : (store h).Garbled d r) (hr : Trail E b.allow h l x h') :
    (store h').Garbled d r ∧ ((x = .error .contention ∧ b.patience ≤ l.countP Exchange.isSwap) ∨
      ∃ forced h₁, E h (.forced b.dependency) forced h₁ ∧ x = .ok !forced) := by
  obtain ⟨forced, h₁, l₁, rfl, hforced, hr⟩ := trail_call_bind hr
  have hs₁ : (store h₁).Garbled d r := garbled_other hE hothers hs id hforced
  cases forced with
  | true =>
    obtain ⟨rfl, rfl, rfl⟩ := trail_pure hr
    exact ⟨hs₁, .inr ⟨true, _, hforced, rfl⟩⟩
  | false =>
    obtain ⟨o, h₂, l₂, l₃, rfl, hstep, hr⟩ | ⟨why, rfl, hstep⟩ := trail_bind hr
    · obtain ⟨hs₂, ⟨hwhy, _⟩ | ⟨_, _, ho⟩⟩ :=
        transact_garbled hE hothers houtages hd hshared hs₁ hstep
      · cases hwhy
      · cases ho
        obtain ⟨rfl, rfl, rfl⟩ := trail_pure hr
        refine ⟨hs₂, .inr ⟨false, _, hforced, ?_⟩⟩
        simp [Breaker.Row.unstamped, Condition.ofRow, Condition.capped, hclosed]
    · obtain ⟨hs₂, ⟨hwhy, hswaps⟩ | ⟨_, _, ho⟩⟩ :=
        transact_garbled hE hothers houtages hd hshared hs₁ hstep
      · cases hwhy
        refine ⟨hs₂, .inl ⟨rfl, ?_⟩⟩
        rw [List.countP_cons, hswaps]
        exact Nat.le_add_right ..
      · cases ho

end Garbled
end Simulation
end WorkerGuard
