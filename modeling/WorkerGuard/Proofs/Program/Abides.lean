import WorkerGuard.Proofs.Program.Schedule

/-!
# WorkerGuard.Proofs.Program.Abides

Programs that build on what they were told.

* `Program.Abides A P R x`: if all answers on the way are as `A` says, then the program `x` makes only
  calls as `P` says, and ends with a value as `R` says.
* `abides_pure`, `abides_halt`, `abides_call`, `abides_bind`: its rules.
* `Lasting A`: what a registry answers is true of it, and remains true of it.
* `Schedule.abiding_invariant`: what the calls of programs preserve that were told nothing but the
  truth.
  `Schedule.store_invariant`: what all calls preserve.
-/

namespace WorkerGuard

open Simulation

namespace Program

variable {α β : Type} {A : Exchange → Prop} {P : Call → Prop} {R : α → Prop} {S : β → Prop}

def Abides (A : Exchange → Prop) (P : Call → Prop) (R : α → Prop) : Program α → Prop
  | done a => R a
  | halt _ => True
  | ask q next => P q ∧ ∀ a, A ⟨q, a⟩ → (next a).Abides A P R

theorem abides_pure {a : α} (h : R a) : (pure a : Program α).Abides A P R := h

theorem abides_halt (why : Halt) : (halt why : Program α).Abides A P R := trivial

theorem abides_call {q : Call} {R : q.Answer → Prop} (hq : P q) (hR : ∀ a, A ⟨q, a⟩ → R a) :
    (call q).Abides A P R := ⟨hq, hR⟩

theorem abides_bind {x : Program α} {f : α → Program β} (hx : x.Abides A P R)
    (hf : ∀ a, R a → (f a).Abides A P S) : (x >>= f).Abides A P S := by
  rw [bind_eq]
  induction x with
  | done a => exact hf a hx
  | halt why => trivial
  | ask q next ih => exact ⟨hx.1, fun a ha => ih a (hx.2 a ha)⟩

/-- Calls that are made in any case. -/
theorem Asks.abides {x : Program α} (hx : x.Asks P) : x.Abides A P fun _ => True := by
  induction x with
  | done a => trivial
  | halt why => trivial
  | ask q next ih => exact ⟨hx.1, fun a _ => ih a (hx.2 a)⟩

theorem Abides.asks {x : Program α} (hx : x.Abides (fun _ => True) P R) : x.Asks P := by
  induction x with
  | done a => trivial
  | halt why => trivial
  | ask q next ih => exact ⟨hx.1, fun a => ih a (hx.2 a trivial)⟩

/-- What is left of the program after some exchanges abides as well. -/
theorem Abides.path {x x' : Program α} {l : List Exchange} (hx : x.Abides A P R)
    (h : Path x l x') (hl : ∀ e ∈ l, A e) : x'.Abides A P R := by
  induction h with
  | refl => exact hx
  | ask a _ ih =>
    exact ih (hx.2 a (hl _ List.mem_cons_self)) fun e he => hl e (List.mem_cons_of_mem _ he)

end Program

open Program

/-- An exchange is judged by a registry: by the one that answered it, and by all later ones. -/
structure Lasting (A : Store → Exchange → Prop) : Prop where
  answered : ∀ (s : Store) q, A (s.answer q).2 ⟨.registry q, (s.answer q).1⟩
  outage : ∀ (s : Store) q why, A s ⟨.registry q, .error why⟩
  other : ∀ (s : Store) x, (∀ q, x.call ≠ .registry q) → A s x
  lasts : ∀ (s : Store) x q, A s x → A (s.answer q).2 x

section Schedule

variable {κ α : Type} {program : κ → Program α} {y : Schedule κ} {A : Store → Exchange → Prop}

theorem Reply.judged (hA : Lasting A) {m : ThreadStep κ} {w w' : Store × Instant} {x : Exchange}
    (h : Reply m w x w') : A w'.1 x := by
  cases h with
  | registry q => exact hA.answered _ q
  | now => exact hA.other _ _ (by simp)
  | other _ hr => exact hA.other _ _ hr
  | outage q => exact hA.outage _ q _

/-- Whatever a reply does to the registry, what was true of it remains so. -/
theorem Reply.lasts (hA : Lasting A) {m : ThreadStep κ} {w w' : Store × Instant} {x e : Exchange}
    (h : Reply m w x w') (he : A w.1 e) : A w'.1 e := by
  cases h with
  | registry q => exact hA.lasts _ _ q he
  | now => exact he
  | other => exact he
  | outage => exact he

namespace Schedule

theorem lasts_succ (hA : Lasting A) {t : Nat} {e : Exchange}
    (he : A (y.config program t).store e) : A (y.config program (t + 1)).store e := by
  obtain hs | ⟨job, hs⟩ | ⟨i, th, x, rest, world, _, _, hr, hs⟩ :=
    (y.config program t).perform_cases program t (y.steps t)
  · rw [config, hs]
    exact he
  · rw [config, hs]
    exact he
  · rw [config, hs]
    exact hr.lasts hA he

theorem lasts_le (hA : Lasting A) {u t : Nat} (hle : u ≤ t) {e : Exchange}
    (he : A (y.config program u).store e) : A (y.config program t).store e := by
  induction hle with
  | refl => exact he
  | step _ ih => exact lasts_succ hA ih

/-- All that a thread has been told is true of the registry now. -/
theorem judged_past (hA : Lasting A) {t : Nat} {th : Thread κ α}
    (hth : th ∈ (y.config program t).threads) : ∀ e ∈ th.past.map (·.2),
      A (y.config program t).store e := by
  intro e he
  obtain ⟨⟨u, e'⟩, hmem, rfl⟩ := List.mem_map.1 he
  have hu := (y.traced program t).early th hth _ hmem
  exact lasts_le hA hu (((y.traced program t).reply th hth _ hmem).judged hA)

theorem abiding_invariant {P : Store → Call → Prop} {R : α → Prop} {I : Store → Prop}
    (hA : Lasting A) (hjob : ∀ s job, (program job).Abides (A s) (P s) R)
    (hstep : ∀ s q, I s → P s (.registry q) → I (s.answer q).2) (h : I y.store) (t : Nat) :
    I (y.config program t).store := by
  induction t with
  | zero => exact h
  | succ t ih =>
    obtain hs | ⟨job, hs⟩ | ⟨i, th, x, rest, world, hi, hp, hr, hs⟩ :=
      (y.config program t).perform_cases program t (y.steps t)
    · rw [config, hs]; exact ih
    · rw [config, hs]; exact ih
    · -- The thread was told the truth of the registry as it is now, and its next call builds on that.
      have hth := List.mem_of_getElem? hi
      have hrest := (hjob (y.config program t).store th.job).path
        ((y.traced program t).path th hth) (judged_past hA hth)
      have hcall : P (y.config program t).store x.call := by
        generalize th.rest = left at hp hrest
        cases hp with
        | ask => exact hrest.1
      rw [config, hs]
      show I world.1
      generalize hm : y.steps t = m at hr
      generalize hw : (y.config program t).world = w at hr
      cases hr with
      | registry q =>
        cases hw
        exact hstep _ q ih hcall
      | now => cases hw; exact ih
      | other => cases hw; exact ih
      | outage => cases hw; exact ih

/-- What the calls of all programs preserve of the registry holds at every moment. -/
theorem store_invariant {Q : Call → Prop} {I : Store → Prop} (hasks : ∀ job, (program job).Asks Q)
    (hstep : ∀ s q, I s → Q (.registry q) → I (s.answer q).2) (h : I y.store) (t : Nat) :
    I (y.config program t).store :=
  abiding_invariant (A := fun _ _ => True)
    ⟨fun _ _ => trivial, fun _ _ _ => trivial, fun _ _ _ => trivial, fun _ _ _ _ => trivial⟩
    (fun _ job => (hasks job).abides) hstep h t

end Schedule
end Schedule
end WorkerGuard
