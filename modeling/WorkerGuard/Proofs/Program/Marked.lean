import WorkerGuard.Proofs.Program.Passage

/-!
# WorkerGuard.Proofs.Program.Marked

A point on the way of a program, told by the number of exchanges before it.

* `Program.Marked E P n`: the environment `E`, with a count of the calls; `P` holds from the `n`th
  call on.
* `Passage.marked`: if `P` holds at a point of a trail and nothing destroys it, the whole trail is
  one in this environment, with the mark at that point. `Marked.plain` leads back.
* `Program.pass`: the first steps of a run in surroundings that know one answer to each call.
-/

namespace WorkerGuard.Program

variable {σ α : Type} {E : Environment σ} {P : σ → Prop} {n k : Nat} {h h' : σ}
variable {x y : Program α} {l l' : List Exchange} {r : Except Halt α} {z z' : σ × Nat}

def Marked (E : Environment σ) (P : σ → Prop) (n : Nat) : Environment (σ × Nat) :=
  fun z q a z' => E z.1 q a z'.1 ∧ z'.2 = z.2 + 1 ∧ (n ≤ z'.2 → P z'.1)

theorem Marked.plain (z : σ × Nat) (q : Call) (a : q.Answer) (z' : σ × Nat)
    (ha : Marked E P n z q a z') : E z.1 q a z'.1 := ha.1

theorem Trail.marked (hkeep : ∀ h q a h', P h → E h q a h' → P h') (hr : Trail E x h l r h')
    (hP : P h) (k : Nat) : Trail (Marked E P n) x (h, k) l r (h', k + l.length) := by
  induction hr generalizing k with
  | done => exact .done
  | halt => exact .halt
  | @ask q next h h₁ h' a l r ha _ ih =>
    have hP₁ := hkeep _ _ _ _ hP ha
    have hrest := ih hP₁ (k + 1)
    rw [Nat.add_right_comm] at hrest
    have hstep : Marked E P n (h, k) q a (h₁, k + 1) := ⟨ha, rfl, fun _ => hP₁⟩
    exact .ask hstep hrest

theorem Passage.of_nil (hp : Passage E x h [] y h') : y = x ∧ h' = h := by
  cases hp
  exact ⟨rfl, rfl⟩

/-- Before the mark nothing is asked of the surroundings, and the last call reaches it. -/
theorem Passage.marked (hp : Passage E x h l y h') (hP : P h') (hk : k + l.length = n)
    (hr : Trail (Marked E P n) y (h', n) l' r z) :
    Trail (Marked E P n) x (h, k) (l ++ l') r z := by
  induction hp generalizing k with
  | refl =>
    obtain rfl : k = n := hk
    exact hr
  | @ask q next h h₁ h' a l y ha hp ih =>
    have hlength : k + 1 + l.length = n := by
      rw [← hk, List.length_cons]
      omega
    have hstep : Marked E P n (h, k) q a (h₁, k + 1) := by
      refine ⟨ha, rfl, fun hle => ?_⟩
      have hnil : l = [] := List.eq_nil_of_length_eq_zero (by omega)
      subst hnil
      rw [← hp.of_nil.2]
      exact hP
    exact .ask hstep (ih hP hlength hr)

theorem Trail.count (hr : Trail (Marked E P n) x z l r z') : z'.2 = z.2 + l.length := by
  induction hr with
  | done => rfl
  | halt => rfl
  | ask ha _ ih =>
    rw [ih, ha.2.1, List.length_cons]
    omega

def pass (answer : σ → (q : Call) → q.Answer × σ) :
    Nat → Program α → σ → List Exchange × Program α × σ
  | steps + 1, ask q next, h =>
    let rest := pass answer steps (next (answer h q).1) (answer h q).2
    (⟨q, (answer h q).1⟩ :: rest.1, rest.2)
  | _, x, h => ([], x, h)

theorem passage_pass {answer : σ → (q : Call) → q.Answer × σ}
    (hE : ∀ h q, E h q (answer h q).1 (answer h q).2) (steps : Nat) (x : Program α) (h : σ) :
    Passage E x h (pass answer steps x h).1 (pass answer steps x h).2.1
      (pass answer steps x h).2.2 := by
  induction steps generalizing x h with
  | zero => exact .refl
  | succ steps ih =>
    cases x with
    | done a => exact .refl
    | halt why => exact .refl
    | ask q next => exact .ask (hE h q) (ih _ _)

end WorkerGuard.Program
