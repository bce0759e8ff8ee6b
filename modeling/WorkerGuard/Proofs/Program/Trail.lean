import WorkerGuard.Proofs.Program.Path

/-!
# WorkerGuard.Proofs.Program.Trail

Programs that run to their end in surroundings that answer them.

* `Environment σ`: the answers that a call may get in surroundings of the type `σ`, and what becomes
  of these.
* `Program.Trail E x h l r h'`: in the environment `E`, the program `x` leads from `h` by the
  exchanges `l` to `h'`, and ends there with `r`. `trail_bind` takes a sequence apart,
  `Path.trail_bind` takes it apart at a point that is known, `Trail.bind_later` and
  `Trail.bind_earlier` by an exchange that only one of its parts makes.
* `Program.Trail.invariant`: what no call of a program destroys holds at its end.
* `Program.Keeps E J K x`: if `J` holds of the exchanges up to the program `x` and of the surroundings
  there, it holds after `x`, or `x` loses races until its patience ends and `K` holds.
* `Program.Total`: a program that never halts on its way.
* `Program.follow`: the run of a program in surroundings that know one answer to each call.
-/

namespace WorkerGuard

abbrev Environment (σ : Type) := σ → (q : Call) → q.Answer → σ → Prop

namespace Program

variable {σ α β : Type} {E : Environment σ} {h h' : σ} {l : List Exchange}

inductive Trail (E : Environment σ) {α : Type} :
    Program α → σ → List Exchange → Except Halt α → σ → Prop where
  | done {a : α} {h : σ} : Trail E (done a) h [] (.ok a) h
  | halt {why : Halt} {h : σ} : Trail E (halt why) h [] (.error why) h
  | ask {q : Call} {next : q.Answer → Program α} {h h₁ h' : σ} {a : q.Answer}
      {l : List Exchange} {r : Except Halt α} (ha : E h q a h₁) (hr : Trail E (next a) h₁ l r h') :
      Trail E (ask q next) h (⟨q, a⟩ :: l) r h'

theorem trail_pure {a : α} {r : Except Halt α} (hr : Trail E (pure a) h l r h') :
    l = [] ∧ r = .ok a ∧ h' = h := by
  cases hr; exact ⟨rfl, rfl, rfl⟩

theorem trail_halt {why : Halt} {r : Except Halt α} (hr : Trail E (halt why) h l r h') :
    l = [] ∧ r = .error why ∧ h' = h := by
  cases hr; exact ⟨rfl, rfl, rfl⟩

theorem trail_ask {q : Call} {next : q.Answer → Program α} {r : Except Halt α}
    (hr : Trail E (ask q next) h l r h') :
    ∃ a h₁ l₁, l = ⟨q, a⟩ :: l₁ ∧ E h q a h₁ ∧ Trail E (next a) h₁ l₁ r h' := by
  cases hr with
  | ask ha hr => exact ⟨_, _, _, rfl, ha, hr⟩

theorem trail_call {q : Call} {r : Except Halt q.Answer} (hr : Trail E (call q) h l r h') :
    ∃ a, l = [⟨q, a⟩] ∧ r = .ok a ∧ E h q a h' := by
  obtain ⟨a, h₁, l₁, rfl, ha, hd⟩ := trail_ask hr
  obtain ⟨rfl, rfl, rfl⟩ := trail_pure hd
  exact ⟨a, rfl, rfl, ha⟩

/-- A sequence halts in its first part, or its second part goes on where the first one ended. -/
theorem trail_bind {x : Program α} {f : α → Program β} {r : Except Halt β}
    (hr : Trail E (x >>= f) h l r h') :
    (∃ a h₁ l₁ l₂, l = l₁ ++ l₂ ∧ Trail E x h l₁ (.ok a) h₁ ∧ Trail E (f a) h₁ l₂ r h') ∨
      ∃ why, r = .error why ∧ Trail E x h l (.error why) h' := by
  rw [bind_eq] at hr
  induction x generalizing h l with
  | done a => exact .inl ⟨a, h, [], l, rfl, .done, hr⟩
  | halt why =>
    obtain ⟨rfl, rfl, rfl⟩ := trail_halt hr
    exact .inr ⟨why, rfl, .halt⟩
  | ask q next ih =>
    obtain ⟨a, h₁, l₁, rfl, ha, hnext⟩ := trail_ask hr
    obtain ⟨b, h₂, l₂, l₃, rfl, hx, hf⟩ | ⟨why, hwhy, hx⟩ := ih a hnext
    · exact .inl ⟨b, h₂, ⟨q, a⟩ :: l₂, l₃, rfl, .ask ha hx, hf⟩
    · exact .inr ⟨why, hwhy, .ask ha hx⟩

/-- A sequence that ends with a value has two parts that do. -/
theorem trail_bind_ok {x : Program α} {f : α → Program β} {b : β}
    (hr : Trail E (x >>= f) h l (.ok b) h') :
    ∃ a h₁ l₁ l₂, l = l₁ ++ l₂ ∧ Trail E x h l₁ (.ok a) h₁ ∧ Trail E (f a) h₁ l₂ (.ok b) h' := by
  obtain hok | ⟨why, hwhy, _⟩ := trail_bind hr
  · exact hok
  · cases hwhy

/-- If the first part ends with a value in any case, the second part goes on from there. -/
theorem trail_bind_of_ends {x : Program α} {f : α → Program β} {r : Except Halt β}
    {Q : Except Halt α → σ → Prop} (hx : ∀ {l r h'}, Trail E x h l r h' → Q r h')
    (hends : ∀ why h', ¬Q (.error why) h') (hr : Trail E (x >>= f) h l r h') :
    ∃ a h₁ l₁, Q (.ok a) h₁ ∧ Trail E (f a) h₁ l₁ r h' := by
  obtain ⟨a, h₁, _, l₁, _, htrail, hrest⟩ | ⟨why, _, htrail⟩ := trail_bind hr
  · exact ⟨a, h₁, l₁, hx htrail, hrest⟩
  · exact absurd (hx htrail) (hends why h')

/-- A call, and what follows upon its answer. -/
theorem trail_call_bind {q : Call} {f : q.Answer → Program β} {r : Except Halt β}
    (hr : Trail E (call q >>= f) h l r h') :
    ∃ a h₁ l₁, l = ⟨q, a⟩ :: l₁ ∧ E h q a h₁ ∧ Trail E (f a) h₁ l₁ r h' :=
  trail_ask hr

/-- A program goes one way only: exchanges that lead to the end of the first part are the beginning
of every trail that has them. -/
theorem Path.trail_bind {x : Program α} {f : α → Program β} {a : α} {l' : List Exchange}
    {r : Except Halt β} (hp : Path x l (done a)) (hr : Trail E (x >>= f) h (l ++ l') r h') :
    ∃ h₁, Trail E x h l (.ok a) h₁ ∧ Trail E (f a) h₁ l' r h' := by
  rw [bind_eq] at hr
  generalize hy : done a = y at hp
  induction hp generalizing h with
  | refl =>
    subst hy
    exact ⟨h, .done, hr⟩
  | ask b _ ih =>
    rw [bind_ask] at hr
    obtain ⟨_, h₁, l₁, hl, hb, hr⟩ := trail_ask hr
    cases hl
    obtain ⟨h₂, hx, hf⟩ := ih hr hy
    exact ⟨h₂, .ask hb hx, hf⟩

namespace Trail

variable {x : Program α} {r : Except Halt α}

theorem path {a : α} (hr : Trail E x h l (.ok a) h') : Path x l (.done a) := by
  generalize hb : (Except.ok a : Except Halt α) = r at hr
  induction hr with
  | done =>
    cases hb
    exact .refl
  | halt => cases hb
  | ask _ _ ih => exact .ask _ (ih hb)

theorem returns (hr : Trail E x h l r h') {P : α → Prop} (hx : x.Returns P) {a : α}
    (ha : r = .ok a) : P a := by
  induction hr with
  | done => cases ha; exact hx
  | halt => cases ha
  | ask _ _ ih => exact ih (hx _) ha

theorem asks (hr : Trail E x h l r h') {P : Call → Prop} (hx : x.Asks P) :
    ∀ e ∈ l, P e.call := by
  induction hr with
  | done => simp
  | halt => simp
  | ask _ _ ih =>
    intro e he
    obtain rfl | he := List.mem_cons.1 he
    · exact hx.1
    · exact ih (hx.2 _) e he

/-- No call of the program destroys it. -/
theorem invariant (hr : Trail E x h l r h') {P : Call → Prop} {I : σ → Prop} (hx : x.Asks P)
    (hstep : ∀ h q a h', P q → I h → E h q a h' → I h') (hI : I h) : I h' := by
  induction hr with
  | done => exact hI
  | halt => exact hI
  | ask ha _ ih => exact ih (hx.2 _) (hstep _ _ _ _ hx.1 hI ha)

/-- No call at all destroys it. -/
theorem preserves (hr : Trail E x h l r h') {I : σ → Prop}
    (hstep : ∀ h q a h', I h → E h q a h' → I h') (hI : I h) : I h' := by
  induction hr with
  | done => exact hI
  | halt => exact hI
  | ask ha _ ih => exact ih (hstep _ _ _ _ hI ha)

/-- An exchange that the first part of a sequence does not make belongs to the second. -/
theorem bind_later {f : α → Program β} {q : Exchange} {l₁ l₂ : List Exchange}
    {r : Except Halt β} (hr : Trail E (x >>= f) h (l₁ ++ q :: l₂) r h') {P : Call → Prop}
    (hx : x.Asks P) (hq : ¬P q.call) :
    ∃ a h₁ l₃ l₄, l₁ = l₃ ++ l₄ ∧ Trail E x h l₃ (.ok a) h₁ ∧
      Trail E (f a) h₁ (l₄ ++ q :: l₂) r h' := by
  generalize hl : l₁ ++ q :: l₂ = l at hr
  obtain ⟨a, h₁, l₃, l₄, rfl, hfirst, hr⟩ | ⟨why, rfl, hfirst⟩ := trail_bind hr
  · obtain ⟨l₅, rfl, rfl⟩ | ⟨l₅, rfl, rfl⟩ := append_eq_append_cons hl.symm
    · exact absurd (hfirst.asks hx q (by simp)) hq
    · exact ⟨a, h₁, l₃, l₅, rfl, hfirst, hr⟩
  · exact absurd (hfirst.asks hx q (by simp [← hl])) hq

/-- An exchange that the second part of a sequence does not make belongs to the first. -/
theorem bind_earlier {f : α → Program β} {q : Exchange} {l₁ l₂ : List Exchange}
    {r : Except Halt β} (hr : Trail E (x >>= f) h (l₁ ++ q :: l₂) r h') {P : Call → Prop}
    (hf : ∀ a, (f a).Asks P) (hq : ¬P q.call) :
    (∃ a h₁ l₃ l₄, l₂ = l₃ ++ l₄ ∧ Trail E x h (l₁ ++ q :: l₃) (.ok a) h₁ ∧
      Trail E (f a) h₁ l₄ r h') ∨
      ∃ why, r = .error why ∧ Trail E x h (l₁ ++ q :: l₂) (.error why) h' := by
  generalize hl : l₁ ++ q :: l₂ = l at hr
  obtain ⟨a, h₁, l₃, l₄, rfl, hfirst, hsecond⟩ | ⟨why, rfl, hfirst⟩ := trail_bind hr
  · obtain ⟨l₅, rfl, rfl⟩ | ⟨l₅, rfl, rfl⟩ := append_eq_append_cons hl.symm
    · exact .inl ⟨a, h₁, l₅, l₄, rfl, hfirst, hsecond⟩
    · exact absurd (hsecond.asks (hf a) q (by simp)) hq
  · exact .inr ⟨why, rfl, hl ▸ hfirst⟩

/-- Seen as surroundings of another type. -/
theorem map {τ : Type} {E' : Environment τ} {f : σ → τ}
    (hE : ∀ h q a h', E h q a h' → E' (f h) q a (f h')) (hr : Trail E x h l r h') :
    Trail E' x (f h) l r (f h') := by
  induction hr with
  | done => exact .done
  | halt => exact .halt
  | ask ha _ ih => exact .ask (hE _ _ _ _ ha) ih

/-- Exchanges of a sort that the program does not make. -/
theorem countP_eq_zero (hr : Trail E x h l r h') {P : Call → Prop} {p : Exchange → Bool}
    (hx : x.Asks P) (hp : ∀ e, P e.call → p e = false) : l.countP p = 0 := by
  rw [List.countP_eq_zero]
  intro e he
  rw [hp e (hr.asks hx e he)]
  exact Bool.false_ne_true

end Trail

/-- What holds of the exchanges so far holds after those of the program, too. Or the program waits
for ever for its turn to write a row, and `K` holds of what it did until then. -/
def Keeps (E : Environment σ) (J K : List Exchange → σ → Prop) (x : Program α) : Prop :=
  ∀ ⦃l h l' r h'⦄, J l h → Trail E x h l' r h' →
    J (l ++ l') h' ∨ (r = .error .contention ∧ K (l ++ l') h')

section Keeps

variable {J K : List Exchange → σ → Prop}

/-- Nothing waits for ever. -/
def Never : List Exchange → σ → Prop := fun _ _ => False

theorem Keeps.always {x : Program α} (hx : Keeps E J Never x) {l' : List Exchange}
    {r : Except Halt α} (hJ : J l h) (hr : Trail E x h l' r h') : J (l ++ l') h' :=
  (hx hJ hr).resolve_right And.right

theorem Keeps.of_ok {x : Program α} (hx : Keeps E J K x) {a : α} {l' : List Exchange} (hJ : J l h)
    (hr : Trail E x h l' (.ok a) h') : J (l ++ l') h' :=
  (hx hJ hr).resolve_right fun hK => nomatch hK.1

/-- A program halts for the reason for which its first part does. -/
theorem contention_of_error {why : Halt} (h : (.error why : Except Halt α) = .error .contention) :
    (.error why : Except Halt β) = .error .contention := by
  cases h; rfl

theorem keeps_pure (a : α) : Keeps E J K (pure a) := by
  intro l h l' r h' hJ hr
  obtain ⟨rfl, _, rfl⟩ := trail_pure hr
  rw [List.append_nil]
  exact .inl hJ

theorem keeps_bind {x : Program α} {f : α → Program β} (hx : Keeps E J K x)
    (hf : ∀ a, Keeps E J K (f a)) : Keeps E J K (x >>= f) := by
  intro l h l' r h' hJ hr
  obtain ⟨a, h₁, l₁, l₂, rfl, hfirst, hr⟩ | ⟨why, rfl, hfirst⟩ := trail_bind hr
  · rw [← List.append_assoc]
    exact hf a (hx.of_ok hJ hfirst) hr
  · exact (hx hJ hfirst).imp_right (And.imp_left contention_of_error)

/-- No call of the program destroys it. -/
theorem keeps_of_asks {x : Program α} {P : Call → Prop} (hx : x.Asks P)
    (hcall : ∀ q, P q → ∀ ⦃l h a h'⦄, J l h → E h q a h' → J (l ++ [⟨q, a⟩]) h') :
    Keeps E J K x := by
  intro l h l' r h' hJ hr
  refine .inl ?_
  induction hr generalizing l with
  | done => rwa [List.append_nil]
  | halt => rwa [List.append_nil]
  | ask ha _ ih =>
    rw [List.append_cons]
    exact ih (hx.2 _) (hcall _ hx.1 hJ ha)

end Keeps

/-- Whatever is answered, the program has a value in the end. -/
def Total : Program α → Prop
  | done _ => True
  | halt _ => False
  | ask _ next => ∀ a, (next a).Total

theorem total_pure (a : α) : (pure a : Program α).Total := trivial

theorem total_call (q : Call) : (call q).Total := fun _ => trivial

theorem total_bind {x : Program α} {f : α → Program β} (hx : x.Total) (hf : ∀ a, (f a).Total) :
    (x >>= f).Total := by
  rw [bind_eq]
  induction x with
  | done a => exact hf a
  | halt why => exact hx.elim
  | ask q next ih => exact fun a => ih a (hx a)

theorem Trail.ok_of_total {x : Program α} {r : Except Halt α} (hr : Trail E x h l r h')
    (hx : x.Total) : ∃ a, r = .ok a := by
  induction hr with
  | done => exact ⟨_, rfl⟩
  | halt => exact hx.elim
  | ask _ _ ih => exact ih (hx _)

/-- In surroundings that change as they answer. -/
def follow (answer : σ → (q : Call) → q.Answer × σ) :
    Program α → σ → List Exchange × Except Halt α × σ
  | done a, h => ([], .ok a, h)
  | halt why, h => ([], .error why, h)
  | ask q next, h =>
    let rest := (next (answer h q).1).follow answer (answer h q).2
    (⟨q, (answer h q).1⟩ :: rest.1, rest.2)

theorem trail_follow {answer : σ → (q : Call) → q.Answer × σ}
    (hE : ∀ h q, E h q (answer h q).1 (answer h q).2) (x : Program α) (h : σ) :
    Trail E x h (x.follow answer h).1 (x.follow answer h).2.1 (x.follow answer h).2.2 := by
  induction x generalizing h with
  | done a => exact .done
  | halt why => exact .halt
  | ask q next ih => exact .ask (hE h q) (ih _ _)

end Program
end WorkerGuard
