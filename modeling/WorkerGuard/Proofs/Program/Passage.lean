import WorkerGuard.Proofs.Program.Trail

/-!
# WorkerGuard.Proofs.Program.Passage

What a program comes to on its way, in surroundings that answer it.

* `Program.Passage E x h l y h'`: in the environment `E`, the program `x` comes from `h` by the
  exchanges `l` to `h'`, and `y` is what is left of it there.
* `Program.Trail.split`: a trail, parted at any of its exchanges.
* `Program.Heeds E P Q x h`: begun in `h`, the program `x` makes each of its calls in surroundings
  as `P` wants them, and has its value in surroundings as `Q` says.
* `heeds_pure`, `heeds_halt`, `heeds_call`, `heeds_bind`: its rules. `Asks.heeds`: calls of a sort.
-/

namespace WorkerGuard.Program

variable {σ α β : Type} {E : Environment σ} {h h' : σ} {l : List Exchange}

inductive Passage (E : Environment σ) {α : Type} :
    Program α → σ → List Exchange → Program α → σ → Prop where
  | refl {x : Program α} {h : σ} : Passage E x h [] x h
  | ask {q : Call} {next : q.Answer → Program α} {h h₁ h' : σ} {a : q.Answer}
      {l : List Exchange} {y : Program α} (ha : E h q a h₁) (hp : Passage E (next a) h₁ l y h') :
      Passage E (ask q next) h (⟨q, a⟩ :: l) y h'

/-- The program comes to the exchange, makes it, and goes on to its end. -/
theorem Trail.split {x : Program α} {r : Except Halt α} {l₁ l₂ : List Exchange} {e : Exchange}
    (hr : Trail E x h (l₁ ++ e :: l₂) r h') :
    ∃ next h₁ h₂, Passage E x h l₁ (.ask e.call next) h₁ ∧ E h₁ e.call e.answer h₂ ∧
      Trail E (next e.answer) h₂ l₂ r h' := by
  induction l₁ generalizing x h with
  | nil =>
    cases hr with
    | ask ha hr => exact ⟨_, _, _, .refl, ha, hr⟩
  | cons e' l₁ ih =>
    cases hr with
    | ask ha hr =>
      obtain ⟨next, h₁, h₂, hp, he, hrest⟩ := ih hr
      exact ⟨next, h₁, h₂, .ask ha hp, he, hrest⟩

def Heeds (E : Environment σ) (P : Call → σ → Prop) (Q : α → σ → Prop) : Program α → σ → Prop
  | done a, h => Q a h
  | halt _, _ => True
  | ask q next, h => P q h ∧ ∀ a h', E h q a h' → (next a).Heeds E P Q h'

section Heeds

variable {P : Call → σ → Prop} {Q : α → σ → Prop} {S : β → σ → Prop}

theorem heeds_pure {a : α} (h : σ) (hQ : Q a h) : (pure a : Program α).Heeds E P Q h := hQ

theorem heeds_halt (why : Halt) (h : σ) : (halt why : Program α).Heeds E P Q h := trivial

theorem heeds_call {q : Call} {Q : q.Answer → σ → Prop} (hq : P q h)
    (hQ : ∀ a h', E h q a h' → Q a h') : (call q).Heeds E P Q h := ⟨hq, hQ⟩

/-- The second part begins where the first one ended. -/
theorem heeds_bind {x : Program α} {f : α → Program β} (hx : x.Heeds E P Q h)
    (hf : ∀ a h', Q a h' → (f a).Heeds E P S h') : (x >>= f).Heeds E P S h := by
  rw [bind_eq]
  induction x generalizing h with
  | done a => exact hf a h hx
  | halt why => trivial
  | ask q next ih => exact ⟨hx.1, fun a h' ha => ih a (hx.2 a h' ha)⟩

/-- Calls of a sort that keep what they need. -/
theorem Asks.heeds {x : Program α} {C : Call → Prop} {I : σ → Prop} (hx : x.Asks C)
    (hP : ∀ q h, C q → I h → P q h) (hkeep : ∀ q h a h', C q → I h → E h q a h' → I h')
    (hI : I h) : x.Heeds E P (fun _ => I) h := by
  induction x generalizing h with
  | done a => exact hI
  | halt why => trivial
  | ask q next ih =>
    exact ⟨hP q h hx.1 hI, fun a h' ha => ih a (hx.2 a) (hkeep q h a h' hx.1 hI ha)⟩

namespace Heeds

variable {x y : Program α}

theorem mono {Q' : α → σ → Prop} (hx : x.Heeds E P Q h) (hQ : ∀ a h, Q a h → Q' a h) :
    x.Heeds E P Q' h := by
  induction x generalizing h with
  | done a => exact hQ a h hx
  | halt why => trivial
  | ask q next ih => exact ⟨hx.1, fun a h' ha => ih a (hx.2 a h' ha)⟩

/-- What is left of it on its way heeds the same. -/
theorem passage (hx : x.Heeds E P Q h) (hp : Passage E x h l y h') : y.Heeds E P Q h' := by
  induction hp with
  | refl => exact hx
  | ask ha _ ih => exact ih (hx.2 _ _ ha)

theorem trail (hx : x.Heeds E P Q h) {a : α} (hr : Trail E x h l (.ok a) h') : Q a h' := by
  generalize hr' : (Except.ok a : Except Halt α) = r at hr
  induction hr with
  | done => cases hr'; exact hx
  | halt => cases hr'
  | ask ha _ ih => exact ih (hx.2 _ _ ha) hr'

end Heeds
end Heeds
end WorkerGuard.Program
