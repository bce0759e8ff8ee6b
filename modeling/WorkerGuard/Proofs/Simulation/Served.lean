import WorkerGuard.Proofs.Program.Trail
import WorkerGuard.Proofs.Registry.Record
import WorkerGuard.Proofs.Simulation.Answers

/-!
# WorkerGuard.Proofs.Simulation.Served

A registry that answers the requests of a program, while others make theirs.

* `Store.Elsewhere others s s'`: between `s` and `s'` others made requests of the sort `others`.
* `Served others outages`: the environment in which each request of a program is answered by the
  registry as it is then, or is one of the `outages` and cannot be made; others come between any two
  calls. Clocks, dependencies, logs and all else answer as they like, a random number is one from 0
  to 1.
* `Served.keeps`: what neither the call nor the others destroy.
* `serve`: a run in which nobody interferes.
-/

namespace WorkerGuard.Simulation

open Program Registry

variable {others outages : Request → Prop}

namespace Store

def Elsewhere (others : Request → Prop) (s s' : Store) : Prop :=
  ∃ qs : List Request, (∀ q ∈ qs, others q) ∧ s' = s.after qs

theorem Elsewhere.refl (others : Request → Prop) (s : Store) : s.Elsewhere others s :=
  ⟨[], by simp, rfl⟩

theorem Elsewhere.keeps {s s' : Store} {I : Store → Prop} (h : s.Elsewhere others s')
    (hothers : ∀ s q, others q → I s → I (s.answer q).2) (hI : I s) : I s' := by
  obtain ⟨qs, hqs, rfl⟩ := h
  induction qs generalizing s with
  | nil => exact hI
  | cons q qs ih =>
    have hq := hothers s q (hqs q (by simp)) hI
    exact ih hq fun q' hq' => hqs q' (List.mem_cons_of_mem q hq')

end Store

def Served (others outages : Request → Prop) : Environment Store
  | s, .registry q, a, s' =>
    (∃ s₁, s.answer q = (a, s₁) ∧ s₁.Elsewhere others s') ∨
      (outages q ∧ (∃ why, a = .error why) ∧ s.Elsewhere others s')
  | s, .jitter, x, s' => (0.0 ≤ x ∧ x ≤ 1.0) ∧ s.Elsewhere others s'
  | s, _, _, s' => s.Elsewhere others s'

namespace Served

variable {s s' : Store} {I : Store → Prop}

/-- A call leaves the registry alone or makes one request; then come the others. -/
theorem store_cases {q : Call} {a : q.Answer} (h : Served others outages s q a s') :
    ∃ s₁ : Store, (s₁ = s ∨ ∃ r, q = .registry r ∧ s₁ = (s.answer r).2) ∧
      s₁.Elsewhere others s' := by
  cases q with
  | registry r =>
    obtain ⟨s₁, hs, helse⟩ | ⟨_, _, helse⟩ := h
    · exact ⟨s₁, .inr ⟨r, rfl, by rw [hs]⟩, helse⟩
    · exact ⟨s, .inl rfl, helse⟩
  | jitter => exact ⟨s, .inl rfl, h.2⟩
  | _ => exact ⟨s, .inl rfl, h⟩

theorem keeps {q : Call} {a : q.Answer} (h : Served others outages s q a s')
    (hothers : ∀ s r, others r → I s → I (s.answer r).2)
    (hown : ∀ r, q = .registry r → I s → I (s.answer r).2) (hI : I s) : I s' := by
  obtain ⟨s₁, rfl | ⟨r, hq, rfl⟩, helse⟩ := h.store_cases
  · exact helse.keeps hothers hI
  · exact helse.keeps hothers (hown r hq hI)

/-- What no request destroys. -/
theorem keeps_of_answer {q : Call} {a : q.Answer} (h : Served others outages s q a s')
    (hI : ∀ s r, I s → I (s.answer r).2) : I s → I s' :=
  h.keeps (fun s r _ => hI s r) fun r _ => hI s r

/-- An answer that is no error is the one of the registry. -/
theorem of_ok {r : Request} {a : r.Answer} (h : Served others outages s (.registry r) (.ok a) s') :
    ∃ s₁, s.answer r = (.ok a, s₁) ∧ s₁.Elsewhere others s' := by
  obtain h | ⟨_, ⟨why, hwhy⟩, _⟩ := h
  · exact h
  · cases hwhy

end Served

theorem Store.HasDepth.keep {s s' : Store} {id : WorkerId} {depth : UInt32} {q : Call}
    {a : q.Answer} (hd : s.HasDepth id depth) (h : Served others outages s q a s') :
    s'.HasDepth id depth :=
  h.keeps_of_answer (fun _ q hI => hI.answer q) hd

/-- The answers of the registry to one process alone; all else answers as in `calm`. -/
def serve (calm : (q : Call) → q.Answer) (s : Store) : (q : Call) → q.Answer × Store
  | .registry q => s.answer q
  | .jitter => (0.0, s)
  | q => (calm q, s)

theorem served_serve (calm : (q : Call) → q.Answer) (s : Store) (q : Call) :
    Served others outages s q (serve calm s q).1 (serve calm s q).2 := by
  cases q with
  | registry q => exact .inl ⟨_, rfl, .refl _ _⟩
  | jitter =>
    have hzero : (0.0 : Float) ≤ 0.0 ∧ (0.0 : Float) ≤ 1.0 := by decide +kernel
    exact ⟨hzero, .refl _ _⟩
  | _ => exact .refl _ _

end WorkerGuard.Simulation
