import WorkerGuard.Proofs.Program.Trail
import WorkerGuard.Registry.Memory

/-!
# WorkerGuard.Proofs.Program.Steady

Programs that run in surroundings which know one answer to each call.

* `Program.Ends answer x h a h'`: there `x` leads from `h` to `h'` and ends with `a`. Its rules:
  `ends_pure`, `ends_call`, `ends_bind`; `Ends.unique`.
* `Memory.steady`: a registry in memory, while all else that a program is told stays as it is.
-/

namespace WorkerGuard

namespace Program

variable {σ α β : Type} {answer : σ → (q : Call) → q.Answer × σ} {h h₁ h' h'' : σ}

def Ends (answer : σ → (q : Call) → q.Answer × σ) (x : Program α) (h : σ) (a : α) (h' : σ) : Prop :=
  (x.follow answer h).2 = (.ok a, h')

theorem ends_pure (a : α) : Ends answer (pure a) h a h := rfl

theorem ends_call (q : Call) : Ends answer (call q) h (answer h q).1 (answer h q).2 := rfl

theorem ends_bind {x : Program α} {f : α → Program β} {a : α} {b : β}
    (hx : Ends answer x h a h₁) (hf : Ends answer (f a) h₁ b h') :
    Ends answer (x >>= f) h b h' := by
  rw [bind_eq]
  induction x generalizing h with
  | done a' =>
    cases hx
    exact hf
  | halt why => cases hx
  | ask q next ih => exact ih _ hx

/-- A call, and what follows upon its answer. -/
theorem ends_call_bind {q : Call} {f : q.Answer → Program β} {b : β}
    (hf : Ends answer (f (answer h q).1) (answer h q).2 b h') :
    Ends answer (call q >>= f) h b h' :=
  ends_bind (ends_call q) hf

/-- The same with an answer that is known. -/
theorem ends_call_bind_of_eq {q : Call} {f : q.Answer → Program β} {a : q.Answer} {b : β}
    (hq : answer h q = (a, h₁)) (hf : Ends answer (f a) h₁ b h') :
    Ends answer (call q >>= f) h b h' :=
  ends_call_bind (by rwa [hq])

theorem Ends.unique {x : Program α} {a b : α} (ha : Ends answer x h a h')
    (hb : Ends answer x h b h'') : a = b ∧ h' = h'' := by
  have heq := ha.symm.trans hb
  obtain ⟨hab, hh⟩ := Prod.mk.inj heq
  exact ⟨Except.ok.inj hab, hh⟩

end Program

/-- Calls other than requests to the registry have answers that are given. -/
def Registry.Memory.steady (given : (q : Call) → q.Answer) :
    Memory → (q : Call) → q.Answer × Memory
  | m, .registry q => (.ok (m.answer q).1, (m.answer q).2)
  | m, q => (given q, m)

end WorkerGuard
