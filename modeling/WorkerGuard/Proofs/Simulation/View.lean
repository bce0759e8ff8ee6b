import WorkerGuard.Breaker.Board
import WorkerGuard.Proofs.Simulation.Answers

/-!
# WorkerGuard.Proofs.Simulation.View

What a process sees of the breaker of a dependency.

* `Host.condition`: what its handle reads, the row or else its word; `Host.circuit`: the position
  that it shows, opened under an override.
* `trail_state`: a look at a breaker shows this, and nobody sees anything else after it.
-/

namespace WorkerGuard.Simulation

open Breaker Program Registry

namespace Host

variable {h h' : Host} {p : Nat} {d : Dependency}

/-- A request for a row. -/
def load (h : Host) (p : Nat) (d : Dependency) : Except Registry.Error Row :=
  (h.answer p false (.registry (.loadBreaker d))).1

def condition (h : Host) (p : Nat) (d : Dependency) : Condition :=
  match h.load p d with
  | .ok row => .ofRow row
  | .error _ => decode (h.handle p d).word

def circuit (h : Host) (p : Nat) (d : Dependency) : Circuit :=
  if (h.handle p d).forced then .opened else (h.condition p d).circuit

theorem closed_of_circuit (hc : h.circuit p d = .closed) :
    (h.handle p d).forced = false ∧ (h.condition p d).circuit = .closed := by
  unfold circuit at hc
  split at hc
  · cases hc
  · rename_i hforced
    exact ⟨Bool.not_eq_true _ ▸ hforced, hc⟩

/-- The process sees the same of the breaker and of the clock. -/
structure SameView (p : Nat) (d : Dependency) (h h' : Host) : Prop where
  forced : (h'.handle p d).forced = (h.handle p d).forced
  condition : h'.condition p d = h.condition p d

theorem SameView.circuit (hv : SameView p d h h') : h'.circuit p d = h.circuit p d := by
  rw [Host.circuit, Host.circuit, hv.forced, hv.condition]

theorem SameView.trans {h'' : Host} (hv : SameView p d h h') (hv' : SameView p d h' h'') :
    SameView p d h h'' :=
  ⟨hv'.forced.trans hv.forced, hv'.condition.trans hv.condition⟩

theorem answer_load (h : Host) (p : Nat) (d : Dependency) :
    h.answer p false (.registry (.loadBreaker d)) = (h.load p d, h) := by
  have hstore : (h.store.answer (.loadBreaker d)).2 = h.store := by
    cases h.store with
    | memory m => rfl
    | database db =>
      simp only [Store.answer, Database.answer]
      split <;> rfl
  refine Prod.ext rfl ?_
  simp only [answer]
  split
  · rfl
  · simp only [registry, Trouble.answer, hstore]

theorem load_congr (ht : h'.trouble = h.trouble) (hs : h'.store = h.store) :
    h'.load p d = h.load p d := by
  simp only [load, answer, registry, ht, hs]
  split <;> rfl

/-- Time alone changes nothing of a breaker. -/
theorem Later.sameView (hl : h.Later h') : SameView p d h h' := by
  obtain ⟨clock, systemClock, rfl⟩ := hl
  refine ⟨rfl, ?_⟩
  have hload : ({ h with clock, systemClock } : Host).load p d = h.load p d := load_congr rfl rfl
  rw [condition, condition, hload]
  rfl

theorem load_setHandle (h : Host) (p : Nat) (d : Dependency) (a : Handle) :
    (h.setHandle p d a).load p d = h.load p d := load_congr rfl rfl

theorem handle_setHandle (h : Host) (p : Nat) (d : Dependency) (a : Handle) :
    (h.setHandle p d a).handle p d = if p < h.processes.size then a else {} := by
  simp only [handle, setHandle, updateProcess, process, Array.getElem?_modify, if_true]
  by_cases hp : p < h.processes.size
  · simp [hp]
  · simp [hp]

/-- A process that is not there keeps nothing. -/
theorem handle_of_size_le (hp : ¬p < h.processes.size) : h.handle p d = {} := by
  simp only [handle, process, Array.getElem?_eq_none (Nat.le_of_not_lt hp)]
  rfl

theorem sameView_enlist (h : Host) (p : Nat) (d : Dependency) :
    SameView p d h (h.setHandle p d (h.handle p d)) := by
  have hh : (h.setHandle p d (h.handle p d)).handle p d = h.handle p d := by
    rw [handle_setHandle]
    split
    · rfl
    · rename_i hp
      exact (handle_of_size_le hp).symm
  refine ⟨by rw [hh], ?_⟩
  rw [condition, condition, hh, load_setHandle]

/-- The word of a process does not matter while the row can be read. -/
theorem sameView_setWord {row : Row} (hload : h.load p d = .ok row) (w : UInt64) :
    SameView p d h (h.setHandle p d { h.handle p d with word := w }) := by
  constructor
  · rw [handle_setHandle]
    split
    · rfl
    · rename_i hp
      rw [handle_of_size_le hp]
  · simp only [condition, load_setHandle, hload]

end Host

section State

variable {p : Nat} {h h' : Host} {l : List Exchange}

theorem trail_current {b : Breaker} (hb : b.shared = true) {r : Except Halt Condition}
    (hr : Trail (Answers p) b.current h l r h') :
    r = .ok (h.condition p b.dependency) ∧ Host.SameView p b.dependency h h' := by
  unfold Breaker.current at hr
  rw [if_pos hb] at hr
  obtain ⟨a, h₁, _, rfl, ha, hr⟩ := trail_ask hr
  have heq : (a, h₁) = h.answer p false _ := ha
  rw [Host.answer_load] at heq
  cases heq
  cases hload : h.load p b.dependency with
  | ok row =>
    rw [hload] at hr
    obtain ⟨u, h₂, _, rfl, hu, hr⟩ := trail_ask hr
    obtain ⟨_, rfl, rfl⟩ := trail_pure hr
    have heq : (u, h') = h.answer p false _ := hu
    cases heq
    refine ⟨?_, Host.sameView_setWord hload _⟩
    rw [Host.condition, hload]
  | error e =>
    rw [hload] at hr
    obtain ⟨w, h₂, _, rfl, hw, hr⟩ := trail_ask hr
    obtain ⟨_, rfl, rfl⟩ := trail_pure hr
    have heq : (w, h') = h.answer p false _ := hw
    cases heq
    refine ⟨?_, ⟨rfl, rfl⟩⟩
    rw [Host.condition, hload]

theorem trail_state {b : Board} (hb : b.shared = true) {d : Dependency} {r : Except Halt Circuit}
    (hr : Trail (Answers p) (b.state d) h l r h') :
    r = .ok (h.circuit p d) ∧ Host.SameView p d h h' := by
  obtain ⟨u, h₁, _, rfl, hu, hr⟩ := trail_ask hr
  have heq : (u, h₁) = h.answer p false _ := hu
  cases heq
  have henlist := Host.sameView_enlist h p d
  generalize h.setHandle p d (h.handle p d) = h₁ at hr henlist
  obtain ⟨forced, h₂, _, rfl, hf, hr⟩ := trail_ask hr
  have heq : (forced, h₂) = h₁.answer p false _ := hf
  cases heq
  change Trail (Answers p) (if (h₁.handle p d).forced = true then done Circuit.opened
    else (b.breaker d).current.bind fun c => done c.circuit) h₁ _ r h' at hr
  have hcircuit := henlist.circuit
  cases hforced : (h₁.handle p d).forced with
  | true =>
    rw [hforced] at hr
    obtain ⟨_, rfl, rfl⟩ := trail_pure hr
    rw [Host.circuit, hforced, if_pos rfl] at hcircuit
    exact ⟨by rw [← hcircuit], henlist⟩
  | false =>
    rw [hforced] at hr
    rw [Host.circuit, hforced] at hcircuit
    obtain ⟨c, h₂, _, _, rfl, hc, hr⟩ | ⟨why, rfl, hc⟩ := trail_bind hr
    · obtain ⟨heq, hview⟩ := trail_current hb hc
      cases heq
      obtain ⟨_, rfl, rfl⟩ := trail_pure hr
      exact ⟨by rw [← hcircuit]; rfl, henlist.trans hview⟩
    · cases (trail_current hb hc).1

end State
end WorkerGuard.Simulation
