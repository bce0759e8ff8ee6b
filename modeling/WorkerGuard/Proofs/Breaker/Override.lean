import WorkerGuard.Proofs.Program.Passage
import WorkerGuard.Proofs.Simulation.Alone

/-!
# WorkerGuard.Proofs.Breaker.Override

What a handle does while an operator holds its dependency open.

* `Call.Lasts`: the calls that take their time, so that an operator may come in between.
* `Stop E d Forced`: in the environment `E`, `Forced` says when `d` is held open. It is so from one
  of these calls on, and whoever asks is told.
* `Call.Engages d`: calls that go to `d`, or register a worker for it; `Spares d Forced`: there are
  none of them while `d` is held open.
* `heeds_allow`, `heeds_state`: who is let pass is let pass before `d` is held open, and who looks
  at the breaker after that finds it opened.
* `Flagged d`: surroundings in which operators come and go; `Overseen d`: with all else in them.
-/

namespace WorkerGuard

open Breaker Program Simulation

def Call.Lasts : Call → Prop
  | .attempt .. => True
  | .sleep _ => True
  | _ => False

/-- At such a call nobody begins to hold `d` open. -/
def Call.Brief (d : Dependency) (q : Call) : Prop := ¬q.Lasts ∧ q ≠ .setForced d true

def Call.Engages (d : Dependency) : Call → Prop
  | .attempt d' _ => d' = d
  | .registry (.insert r _) => r.dependency = d
  | _ => False

section Only

variable {es : List Effect} {d : Dependency} {q : Call}

theorem Call.Only.brief (h : q.Only es) (hes : .attempt ∉ es ∧ .sleep ∉ es ∧ .force ∉ es) :
    q.Brief d := by
  cases q with
  | attempt d' bound => exact absurd rfl (h.not_effect hes.1)
  | sleep t => exact absurd rfl (h.not_effect hes.2.1)
  | setForced d' forced => exact absurd rfl (h.not_effect hes.2.2)
  | _ => exact ⟨fun h => h, nofun⟩

theorem Call.Only.not_engages (h : q.Only es) (hes : .attempt ∉ es ∧ .insert ∉ es) :
    ¬q.Engages d := by
  cases q with
  | attempt d' bound => exact absurd rfl (h.not_effect hes.1)
  | registry q =>
    cases q with
    | insert r c => exact absurd rfl (h.not_effect hes.2)
    | _ => exact fun h => h
  | _ => exact fun h => h

end Only

structure Stop {σ : Type} (E : Environment σ) (d : Dependency) (Forced : σ → Prop) : Prop where
  told : ∀ {h h' : σ} {forced : Bool}, E h (.forced d) forced h' → Forced h → forced = true
  /-- It was so before, unless the call took its time or asked for it. -/
  before : ∀ {h h' : σ} {q : Call} {a : q.Answer}, q.Brief d → E h q a h' → Forced h' → Forced h

/-- No such call while `d` is held open. -/
def Spares {σ : Type} (d : Dependency) (Forced : σ → Prop) (q : Call) (h : σ) : Prop :=
  Forced h → ¬q.Engages d

section Stop

variable {σ α : Type} {E : Environment σ} {d : Dependency} {Forced : σ → Prop} {h h' : σ}
variable {l : List Exchange}

theorem Program.Asks.spares {x : Program α} {C : Call → Prop} (hx : x.Asks C)
    (hC : ∀ q, C q → ¬q.Engages d) : x.Heeds E (Spares d Forced) (fun _ _ => True) h :=
  hx.heeds (I := fun _ => True) (fun q _ hq _ _ => hC q hq) (fun _ _ _ _ _ _ _ => trivial) trivial

variable (hs : Stop E d Forced)
include hs

theorem Stop.before_trail {x : Program α} {r : Except Halt α} (hr : Trail E x h l r h')
    (hl : ∀ e ∈ l, e.call.Brief d) (hnow : Forced h') : Forced h := by
  induction hr with
  | done => exact hnow
  | halt => exact hnow
  | ask ha _ ih =>
    rw [List.forall_mem_cons] at hl
    exact hs.before hl.1 ha (ih hl.2 hnow)

/-- Who was not held up goes on, and calls what he likes. -/
theorem Stop.heeds_of_brief {x : Program α} {C : Call → Prop} {P : Prop} (hx : x.Asks C)
    (hbrief : ∀ q, C q → q.Brief d) (hC : ∀ q, C q → q.Engages d → P) (hfree : P → ¬Forced h) :
    x.Heeds E (Spares d Forced) (fun _ h' => P → ¬Forced h') h := by
  refine hx.heeds (I := fun h' => P → ¬Forced h') ?_ ?_ hfree
  · exact fun q h hq hI hforced he => hI (hC q hq he) hforced
  · exact fun q h a h' hq hI ha hP hforced => hI hP (hs.before (hbrief q hq) ha hforced)

theorem Stop.free (ha : E h (.forced d) false h') : ¬Forced h' := by
  intro hnow
  exact Bool.false_ne_true (hs.told ha (hs.before (q := .forced d) ⟨id, nofun⟩ ha hnow))

theorem Stop.heeds_allow (b : Breaker) (h : σ) : b.allow.Heeds E (Spares d Forced)
    (fun allowed h' => allowed = true → b.dependency = d → ¬Forced h') h := by
  refine ⟨fun _ => id, fun forced h₁ hforced => ?_⟩
  cases forced with
  | true => exact nofun
  | false =>
    refine heeds_bind (x := b.transact _) (hs.heeds_of_brief (P := b.dependency = d)
      (b.asks_transact _) (fun _ hq => hq.only.brief (by decide))
      (fun _ hq he => absurd he (hq.only.not_engages (by decide))) ?_) fun o h₂ hfree => heeds_pure h₂ fun _ => hfree
    rintro rfl
    exact hs.free hforced

theorem Stop.heeds_state (board : Board) (d' : Dependency) (h : σ) :
    (board.state d').Heeds E (Spares d Forced)
      (fun circuit h' => d' = d → Forced h' → circuit = .opened) h := by
  refine ⟨fun _ => id, fun _ _ _ => ⟨fun _ => id, fun forced h₁ hforced => ?_⟩⟩
  cases forced with
  | true => exact fun _ _ => rfl
  | false =>
    refine heeds_bind (x := (board.breaker d').current) (hs.heeds_of_brief (P := d' = d)
      (board.breaker d').asks_current (fun _ hq => hq.only.brief (by decide))
      (fun _ hq he => absurd he (hq.only.not_engages (by decide))) ?_) fun c h₂ hfree =>
        heeds_pure h₂ fun hd hnow => absurd hnow (hfree hd)
    rintro rfl
    exact hs.free hforced

/-- Nothing but the override is looked at. -/
theorem Stop.trail_allow {b : Breaker} (hb : b.dependency = d) (hnow : Forced h)
    {r : Except Halt Bool} (hr : Trail E b.allow h l r h') :
    r = .ok false ∧ l = [⟨.forced d, true⟩] ∧ E h (.forced d) true h' := by
  subst hb
  obtain ⟨forced, h₁, l₁, rfl, hforced, hr⟩ := trail_call_bind hr
  obtain rfl := hs.told hforced hnow
  obtain ⟨rfl, rfl, rfl⟩ := trail_pure hr
  exact ⟨rfl, rfl, hforced⟩

end Stop

/-- Whether the process holds `d` open. While a call takes its time, operators come and go; at any
other time they may only give `d` free. -/
def Flagged (d : Dependency) : Environment Bool
  | now, .forced d', forced, next => (d' = d → forced = now) ∧ (next = true → now = true)
  | now, .allForced, ds, next => (d ∈ ds ↔ now = true) ∧ (next = true → now = true)
  | now, .setForced d' forced, _, next => next = true → if d' = d then forced = true else now = true
  | _, .attempt .., _, _ => True
  | _, .sleep _, _, _ => True
  | now, _, _, next => next = true → now = true

/-- Others make their requests to the registry, nobody else writes the word of `d`, and operators
have their say. -/
def Overseen (d : Dependency) (others outages : Registry.Request → Prop) :
    Environment (World × Bool) :=
  fun h q a h' => Alone d others outages h.1 q a h'.1 ∧ Flagged d h.2 q a h'.2

theorem overseen_stop (d : Dependency) (others outages : Registry.Request → Prop) :
    Stop (Overseen d others outages) d fun h => h.2 = true := by
  constructor
  · intro h h' forced ha hnow
    exact (ha.2.1 rfl).trans hnow
  · rintro h h' q a ⟨hlasts, hset⟩ ⟨_, ha⟩ hnext
    cases q with
    | forced d' => exact ha.2 hnext
    | allForced => exact ha.2 hnext
    | setForced d' forced =>
      have hforced := ha hnext
      split at hforced
      · rename_i hd
        exact absurd (by rw [hd, hforced]) hset
      · exact hforced
    | attempt d' bound => exact absurd trivial hlasts
    | sleep t => exact absurd trivial hlasts
    | _ => exact ha hnext

end WorkerGuard
