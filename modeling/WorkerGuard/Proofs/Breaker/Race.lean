import WorkerGuard.Breaker.Board
import WorkerGuard.Proofs.Program.Effect
import WorkerGuard.Proofs.Program.Trail

/-!
# WorkerGuard.Proofs.Breaker.Race

Races for the row of a breaker, and programs that halt because they lose too many of them.

* `Exchange.isLoss`: a swap or an exchange that came too late.
* `Excused E I n R x`: where the invariant `I` holds, the program `x` halts after `n` lost races at
  least, or because something is out of range, and then `R` is the case.
* `Breaker.excused_allow`, `excused_recordSuccess`, `excused_recordFailure`: the steps of a handle
  halt after as many lost races as its patience lasts.
-/

namespace WorkerGuard

open Breaker Program

/-- Somebody else had changed the row or the word. -/
def Exchange.isLoss : Exchange → Bool
  | ⟨.registry (.swapBreaker ..), .ok swapped⟩ => !swapped
  | ⟨.exchangeWord _ old _, found⟩ => found != old
  | _ => false

theorem Call.Only.isLoss {es : List Effect} {e : Exchange} (h : e.call.Only es)
    (hes : .swap ∉ es ∧ .exchange ∉ es) : e.isLoss = false := by
  obtain ⟨q, a⟩ := e
  cases q with
  | registry q =>
    cases q with
    | swapBreaker d' expected next => exact absurd rfl (h.not_effect hes.1)
    | _ => rfl
  | exchangeWord d' old new => exact absurd rfl (h.not_effect hes.2)
  | _ => rfl

variable {σ α β : Type} {E : Environment σ} {I : σ → Prop} {n : Nat} {R : Prop}

def Outraced (n : Nat) (R : Prop) (l : List Exchange) (why : Halt) : Prop :=
  (why = .contention ∧ n ≤ l.countP Exchange.isLoss) ∨ (why = .outOfRange ∧ R)

theorem Outraced.prepend {l : List Exchange} {why : Halt} (h : Outraced n R l why)
    (l' : List Exchange) : Outraced n R (l' ++ l) why := by
  obtain ⟨rfl, hn⟩ | h := h
  · refine .inl ⟨rfl, ?_⟩
    rw [List.countP_append]
    omega
  · exact .inr h

def Excused (E : Environment σ) (I : σ → Prop) (n : Nat) (R : Prop) (x : Program α) : Prop :=
  ∀ h l why h', I h → Trail E x h l (.error why) h' → Outraced n R l why

namespace Program

theorem Total.excused {x : Program α} (hx : x.Total) : Excused E I n R x := by
  intro h l why h' _ hr
  obtain ⟨a, ha⟩ := hr.ok_of_total hx
  cases ha

theorem excused_pure {a : α} : Excused E I n R (pure a) := (total_pure a).excused

theorem excused_call {q : Call} : Excused E I n R (call q) := (total_call q).excused

theorem excused_halt (hR : R) : Excused E I n R (halt .outOfRange : Program α) := by
  intro h l why h' _ hr
  obtain ⟨_, hwhy, _⟩ := trail_halt hr
  cases hwhy
  exact .inr ⟨rfl, hR⟩

/-- The second part starts where the first one ended. -/
theorem excused_bind (hI : ∀ h q a h', I h → E h q a h' → I h') {x : Program α}
    {f : α → Program β} (hx : Excused E I n R x) (hf : ∀ a, Excused E I n R (f a)) :
    Excused E I n R (x >>= f) := by
  intro h l why h' hh hr
  obtain ⟨a, h₁, l₁, l₂, rfl, hfirst, hnext⟩ | ⟨why', hwhy, hfirst⟩ := trail_bind hr
  · exact (hf a _ _ _ _ (hfirst.preserves hI hh) hnext).prepend l₁
  · cases hwhy
    exact hx _ _ _ _ hh hfirst

end Program

namespace Breaker

variable (hI : ∀ h q a h', I h → E h q a h' → I h')
include hI

theorem excused_transactShared (d : Dependency) (step : Step) (tries : Nat) :
    Excused E I tries R (transactShared d step tries) := by
  induction tries with
  | zero =>
    intro h l why h' _ hr
    obtain ⟨rfl, hwhy, _⟩ := trail_halt hr
    cases hwhy
    exact .inl ⟨rfl, Nat.zero_le _⟩
  | succ tries ih =>
    intro h l why h' hh hr
    obtain ⟨found, h₁, l₁, rfl, hload, hr⟩ := trail_call_bind hr
    split at hr
    · cases (trail_pure hr).2.1
    · obtain ⟨now, h₂, l₂, rfl, hnow, hr⟩ := trail_call_bind hr
      dsimp only at hr
      split at hr
      · cases (trail_pure hr).2.1
      · obtain ⟨swapped, h₃, l₃, rfl, hswap, hr⟩ := trail_call_bind hr
        split at hr
        · cases (trail_pure hr).2.1
        · cases (trail_pure hr).2.1
        · have hh' := hI _ _ _ _ (hI _ _ _ _ (hI _ _ _ _ hh hload) hnow) hswap
          obtain ⟨rfl, hlost⟩ | hR := ih _ _ _ _ hh' hr
          · refine .inl ⟨rfl, ?_⟩
            simp only [List.countP_cons, Exchange.isLoss]
            simp
            omega
          · exact .inr hR

theorem excused_transactWord (d : Dependency) (step : Step) (tries : Nat) (word : UInt64) :
    Excused E I tries R (transactWord d step tries word) := by
  induction tries generalizing word with
  | zero =>
    intro h l why h' _ hr
    obtain ⟨rfl, hwhy, _⟩ := trail_halt hr
    cases hwhy
    exact .inl ⟨rfl, Nat.zero_le _⟩
  | succ tries ih =>
    intro h l why h' hh hr
    obtain ⟨now, h₁, l₁, rfl, hnow, hr⟩ := trail_call_bind hr
    dsimp only at hr
    split at hr
    · cases (trail_pure hr).2.1
    · obtain ⟨found, h₂, l₂, rfl, hfound, hr⟩ := trail_call_bind hr
      split at hr
      · cases (trail_pure hr).2.1
      · rename_i hne
        obtain ⟨rfl, hlost⟩ | hR := ih found _ _ _ _ (hI _ _ _ _ (hI _ _ _ _ hh hnow) hfound) hr
        · refine .inl ⟨rfl, ?_⟩
          simp only [List.countP_cons, Exchange.isLoss]
          simp [hne]
          omega
        · exact .inr hR

theorem excused_transact (b : Breaker) (step : Step) :
    Excused E I b.patience R (b.transact step) := by
  have hlocal : Excused E I b.patience R (b.transactLocal step) :=
    excused_bind hI excused_call fun word => excused_transactWord hI _ _ _ word
  unfold transact
  split
  · refine excused_bind hI (excused_transactShared hI _ _ _) fun r => ?_
    split
    · exact excused_bind hI excused_call fun _ => excused_pure
    · exact hlocal
  · exact hlocal

theorem excused_allow (b : Breaker) : Excused E I b.patience R b.allow := by
  refine excused_bind hI excused_call fun forced => ?_
  cases forced with
  | true => exact excused_pure
  | false => exact excused_bind hI (excused_transact hI b _) fun _ => excused_pure

theorem excused_recordSuccess (b : Breaker) : Excused E I b.patience R b.recordSuccess :=
  excused_bind hI (excused_transact hI b _) fun _ => excused_pure

theorem excused_recordFailure (b : Breaker) : Excused E I b.patience R b.recordFailure :=
  excused_bind hI (excused_transact hI b _) fun _ => excused_pure

end Breaker

theorem Breaker.total_current (b : Breaker) : b.current.Total := by
  unfold current
  split
  · refine total_bind (total_call _) fun found => ?_
    split
    · exact total_bind (total_call _) fun _ => total_pure _
    · exact total_bind (total_call _) fun _ => total_pure _
  · exact total_bind (total_call _) fun _ => total_pure _

theorem Breaker.Board.total_state (b : Board) (d : Dependency) : (b.state d).Total := by
  refine total_bind (total_bind (total_call _) fun _ => total_pure _) fun handle => ?_
  refine total_bind (total_call _) fun forced => ?_
  cases forced with
  | true => exact total_pure _
  | false => exact total_bind handle.total_current fun _ => total_pure _

end WorkerGuard
