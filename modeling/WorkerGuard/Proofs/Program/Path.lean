import WorkerGuard.Program

/-!
# WorkerGuard.Proofs.Program.Path

What a program goes through, whatever it is answered.

* `Exchange`: a call together with its answer.
* `Program.Path p l p'`: the exchanges `l` lead from `p` to `p'`. `Path.bind` joins the paths of the
  two parts of a sequence, `path_bind` splits the path of a sequence where its first part ends.
* `Program.Asks P p`: all calls on all paths through `p` satisfy `P`.
* `Program.Returns P p`: all values at the ends of such paths satisfy `P`.
-/

namespace WorkerGuard

structure Exchange where
  call : Call
  answer : call.Answer

/-- Whether the element `x` belongs to the first part or to the second. -/
theorem append_eq_append_cons {α : Type} {l l' l₁ l₂ : List α} {x : α}
    (h : l ++ l' = l₁ ++ x :: l₂) :
    (∃ l₃, l = l₁ ++ x :: l₃ ∧ l₂ = l₃ ++ l') ∨ ∃ l₃, l₁ = l ++ l₃ ∧ l' = l₃ ++ x :: l₂ := by
  obtain ⟨l₃, rfl, rfl⟩ | ⟨l₃, rfl, hx⟩ := List.append_eq_append_iff.1 h
  · exact .inr ⟨l₃, rfl, rfl⟩
  · cases l₃ with
    | nil => exact .inr ⟨[], by simp, hx.symm⟩
    | cons y l₃ =>
      cases hx
      exact .inl ⟨l₃, rfl, rfl⟩

namespace Program

variable {α β : Type}

theorem bind_eq (p : Program α) (f : α → Program β) : (p >>= f) = p.bind f := rfl

inductive Path : Program α → List Exchange → Program α → Prop where
  | refl {p : Program α} : Path p [] p
  | ask {q : Call} {next : q.Answer → Program α} (a : q.Answer) {l : List Exchange}
      {p : Program α} : Path (next a) l p → Path (.ask q next) (⟨q, a⟩ :: l) p

namespace Path

theorem single {q : Call} {next : q.Answer → Program α} (a : q.Answer) :
    Path (.ask q next) [⟨q, a⟩] (next a) := .ask a .refl

theorem call {q : Call} (a : q.Answer) : Path (call q) [⟨q, a⟩] (done a) := .single a

theorem trans {p p' p'' : Program α} {l l' : List Exchange} (h : Path p l p')
    (h' : Path p' l' p'') : Path p (l ++ l') p'' := by
  induction h with
  | refl => exact h'
  | ask a _ ih => exact .ask a (ih h')

/-- Nothing follows upon the end. -/
theorem of_done {a : α} {l : List Exchange} {p : Program α} (h : Path (done a) l p) :
    l = [] ∧ p = done a := by
  cases h; exact ⟨rfl, rfl⟩

theorem of_ask {q : Call} {next : q.Answer → Program α} {l : List Exchange} {p : Program α}
    (h : Path (.ask q next) l p) :
    (l = [] ∧ p = .ask q next) ∨ ∃ a l', l = ⟨q, a⟩ :: l' ∧ Path (next a) l' p := by
  cases h with
  | refl => exact .inl ⟨rfl, rfl⟩
  | ask a h => exact .inr ⟨a, _, rfl, h⟩

/-- Through the first part of a sequence, and on in the second. -/
theorem bind {p : Program α} {f : α → Program β} {a : α} {r : Program β} {l l' : List Exchange}
    (h : Path p l (done a)) (h' : Path (f a) l' r) : Path (p >>= f) (l ++ l') r := by
  rw [bind_eq]
  generalize hq : done a = q at h
  induction h with
  | refl =>
    subst hq
    exact h'
  | ask b _ ih => exact .ask b (ih hq)

end Path

/-- A path through a sequence stays in its first part or goes through it to the second. -/
theorem path_bind {p : Program α} {f : α → Program β} {l : List Exchange} {r : Program β}
    (h : Path (p.bind f) l r) :
    (∃ p', Path p l p' ∧ r = p'.bind f) ∨
      ∃ a l₁ l₂, l = l₁ ++ l₂ ∧ Path p l₁ (done a) ∧ Path (f a) l₂ r := by
  induction p generalizing l with
  | done a => exact .inr ⟨a, [], l, rfl, .refl, h⟩
  | halt why =>
    rw [bind_halt] at h
    cases h
    exact .inl ⟨halt why, .refl, rfl⟩
  | ask q next ih =>
    rw [bind_ask] at h
    obtain ⟨rfl, rfl⟩ | ⟨a, l', rfl, ha⟩ := Path.of_ask h
    · exact .inl ⟨ask q next, .refl, rfl⟩
    · obtain ⟨p', hp, rfl⟩ | ⟨b, l₁, l₂, rfl, h₁, h₂⟩ := ih a ha
      · exact .inl ⟨p', .ask a hp, rfl⟩
      · exact .inr ⟨b, ⟨q, a⟩ :: l₁, l₂, rfl, .ask a h₁, h₂⟩

/-- A sequence that has ended went through both of its parts. -/
theorem path_bind_done {p : Program α} {f : α → Program β} {l : List Exchange} {b : β}
    (h : Path (p.bind f) l (done b)) :
    ∃ a l₁ l₂, l = l₁ ++ l₂ ∧ Path p l₁ (done a) ∧ Path (f a) l₂ (done b) := by
  obtain ⟨p', hp, hb⟩ | h := path_bind h
  · cases p' with
    | done a =>
      refine ⟨a, l, [], (List.append_nil l).symm, hp, ?_⟩
      rw [show f a = done b from hb.symm]
      exact .refl
    | halt why => cases hb
    | ask q next => cases hb
  · exact h

/-- All calls of a program, whatever is answered. -/
def Asks (P : Call → Prop) : Program α → Prop
  | done _ => True
  | halt _ => True
  | ask q next => P q ∧ ∀ a, (next a).Asks P

section Asks

variable {P Q : Call → Prop}

@[simp] theorem asks_done (a : α) : (done a).Asks P := trivial

@[simp] theorem asks_halt (why : Halt) : (halt why : Program α).Asks P := trivial

@[simp] theorem asks_ask {q : Call} {next : q.Answer → Program α} :
    (ask q next).Asks P ↔ P q ∧ ∀ a, (next a).Asks P := Iff.rfl

@[simp] theorem asks_pure (a : α) : (pure a : Program α).Asks P := trivial

@[simp] theorem asks_call {q : Call} : (call q).Asks P ↔ P q :=
  ⟨fun h => h.1, fun h => ⟨h, fun _ => trivial⟩⟩

@[simp] theorem asks_request {q : Registry.Request} : (request q).Asks P ↔ P (.registry q) :=
  asks_call

theorem Asks.bind {p : Program α} {f : α → Program β} (hp : p.Asks P)
    (hf : ∀ a, (f a).Asks P) : (p.bind f).Asks P := by
  induction p with
  | done a => exact hf a
  | halt why => trivial
  | ask q next ih => exact ⟨hp.1, fun a => ih a (hp.2 a)⟩

/-- The same for a sequence as it is written. -/
theorem asks_bind {p : Program α} {f : α → Program β} (hp : p.Asks P)
    (hf : ∀ a, (f a).Asks P) : (p >>= f).Asks P := hp.bind hf

theorem Asks.mono {p : Program α} (hp : p.Asks P) (h : ∀ q, P q → Q q) : p.Asks Q := by
  induction p with
  | done a => trivial
  | halt why => trivial
  | ask q next ih => exact ⟨h q hp.1, fun a => ih a (hp.2 a)⟩

theorem Asks.path {p p' : Program α} {l : List Exchange} (hp : p.Asks P) (h : Path p l p') :
    p'.Asks P ∧ ∀ x ∈ l, P x.call := by
  induction h with
  | refl => exact ⟨hp, by simp⟩
  | ask a _ ih =>
    obtain ⟨h₁, h₂⟩ := ih (hp.2 a)
    refine ⟨h₁, fun x hx => ?_⟩
    rcases List.mem_cons.1 hx with rfl | hx
    · exact hp.1
    · exact h₂ x hx

end Asks

/-- All values with which a program can end, whatever is answered. -/
def Returns (P : α → Prop) : Program α → Prop
  | done a => P a
  | halt _ => True
  | ask _ next => ∀ a, (next a).Returns P

section Returns

variable {P : α → Prop} {Q : β → Prop}

theorem returns_pure {a : α} (h : P a) : (pure a : Program α).Returns P := h

theorem returns_bind {p : Program α} {f : α → Program β} (hp : p.Returns P)
    (hf : ∀ a, P a → (f a).Returns Q) : (p >>= f).Returns Q := by
  induction p with
  | done a => exact hf a hp
  | halt why => trivial
  | ask q next ih => exact fun a => ih a (hp a)

theorem returns_true (p : Program α) : p.Returns fun _ => True := by
  induction p with
  | done a => trivial
  | halt why => trivial
  | ask q next ih => exact ih

/-- A sequence whose second part says enough. -/
theorem returns_of_next {p : Program α} {f : α → Program β} (hf : ∀ a, (f a).Returns Q) :
    (p >>= f).Returns Q :=
  returns_bind p.returns_true fun a _ => hf a

end Returns
end Program
end WorkerGuard
