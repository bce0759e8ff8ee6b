import WorkerGuard.Proofs.Registry.Columns

/-!
# WorkerGuard.Proofs.Registry.Listing

The order in which registries list workers.

* `Worker.precedes_trans`, `Worker.precedes_total`: the order of a registry in memory is a linear
  one.
* `SameButTies`: the same workers, and the same order but among those that were created together.
* `SameButTies.of_perm`: all lists of the same workers by creation are the same in this sense.
* `Request.Agree`: two answers that say the same.
* `Database.Permits`: the answers that a database may give. It lists workers by their creation, and
  those that were created together in any order.
-/

namespace WorkerGuard

namespace Worker

theorem precedes_iff {a b : Worker} :
    a.precedes b = true ↔ a.createdAt < b.createdAt ∨
      a.createdAt = b.createdAt ∧ a.id.text ≤ b.id.text := by
  rw [precedes, Bool.or_eq_true, Bool.and_eq_true, decide_eq_true_iff, beq_iff_eq,
    decide_eq_true_iff]
  exact Iff.rfl

theorem precedes_trans (a b c : Worker) (h₁ : a.precedes b = true) (h₂ : b.precedes c = true) :
    a.precedes c = true := by
  rw [precedes_iff] at h₁ h₂ ⊢
  obtain h₁ | ⟨e₁, h₁⟩ := h₁
  · obtain h₂ | ⟨e₂, _⟩ := h₂
    · refine .inl ?_
      rw [Instant.lt_iff] at h₁ h₂ ⊢
      omega
    · exact .inl (e₂ ▸ h₁)
  · obtain h₂ | ⟨e₂, h₂⟩ := h₂
    · exact .inl (e₁ ▸ h₂)
    · exact .inr ⟨e₁.trans e₂, String.le_trans h₁ h₂⟩

theorem precedes_total (a b : Worker) : (a.precedes b || b.precedes a) = true := by
  rw [Bool.or_eq_true, precedes_iff, precedes_iff]
  by_cases h₁ : a.createdAt < b.createdAt
  · exact .inl (.inl h₁)
  by_cases h₂ : b.createdAt < a.createdAt
  · exact .inr (.inl h₂)
  have heq := Instant.le_antisymm (Instant.not_lt.1 h₂) (Instant.not_lt.1 h₁)
  obtain h | h := String.le_total a.id.text b.id.text
  · exact .inl (.inr ⟨heq, h⟩)
  · exact .inr (.inr ⟨heq.symm, h⟩)

theorem createdAt_le_of_precedes {a b : Worker} (h : a.precedes b = true) :
    a.createdAt ≤ b.createdAt := by
  obtain h | ⟨h, _⟩ := precedes_iff.1 h
  · rw [Instant.lt_iff] at h
    rw [Instant.le_iff]
    omega
  · rw [h, Instant.le_iff]
    omega

end Worker

namespace Registry

/-- The same workers, in orders that differ only among workers that were created together. -/
def SameButTies (ws ws' : List Worker) : Prop :=
  ws.Perm ws' ∧ ws.map (·.createdAt) = ws'.map (·.createdAt)

/-- Workers in the order of their creation. -/
def ByCreation (ws : List Worker) : Prop := ws.Pairwise fun a b => a.createdAt ≤ b.createdAt

/-- There is one order by creation, but for ties. -/
theorem SameButTies.of_perm {ws ws' : List Worker} (hp : ws.Perm ws') (h : ByCreation ws)
    (h' : ByCreation ws') : SameButTies ws ws' := by
  have hs : (ws.map (·.createdAt)).Pairwise (· ≤ ·) := List.pairwise_map.2 h
  have hs' : (ws'.map (·.createdAt)).Pairwise (· ≤ ·) := List.pairwise_map.2 h'
  exact ⟨hp, (hp.map _).eq_of_pairwise (fun _ _ _ _ => Instant.le_antisymm) hs hs'⟩

theorem Memory.byCreation_oldestFirst (ws : List Worker) : ByCreation (oldestFirst ws) := by
  have h := List.pairwise_mergeSort Worker.precedes_trans Worker.precedes_total ws
  exact h.imp Worker.createdAt_le_of_precedes

/-- Requests for lists of workers. -/
def Request.isListing : Request → Bool
  | .stale .. => true
  | .list _ => true
  | _ => false

/-- Two answers that say the same. -/
def Request.Agree : (q : Request) → q.Answer → q.Answer → Prop
  | .stale .., ws, ws' => SameButTies ws ws'
  | .list _, ws, ws' => SameButTies ws ws'
  | _, a, a' => a = a'

namespace Database

/-- The selected workers in some order of their creation, as far as they can be read. -/
def Lists (db : Database) (p : WorkerRow → Bool) (a : Except Error (List Worker)) : Prop :=
  ∃ es, List.Perm es (db.workers.entries.filter fun e => p e.2) ∧
    es.Pairwise (fun e e' => e.2.createdAt ≤ e'.2.createdAt) ∧ a = es.mapM fun e => e.2.read e.1

theorem lists_select (db : Database) (p : WorkerRow → Bool) : db.Lists p (db.select p) := by
  refine ⟨_, List.mergeSort_perm _ _, ?_, rfl⟩
  refine (List.pairwise_mergeSort ?_ ?_ _).imp fun h => of_decide_eq_true h
  · intro a b c hab hbc
    exact decide_eq_true (Int.le_trans (of_decide_eq_true hab) (of_decide_eq_true hbc))
  · intro a b
    rw [Bool.or_eq_true, decide_eq_true_iff, decide_eq_true_iff]
    exact Int.le_total _ _

/-- An order by one column leaves it open how rows with the same entry in it follow each other. -/
def Permits (db : Database) : (q : Request) → Except Error q.Answer → Prop
  | .stale t role, a => db.Lists (fun r =>
      r.isActive && decide (r.createdAt < t.millis) && role.all (r.role == ·)) a
  | .list state, a => db.Lists (fun r => state.all (r.state == ·.name)) a
  | q, a => a = (db.answer q).1

theorem permits_answer (db : Database) (q : Request) : db.Permits q (db.answer q).1 := by
  cases q with
  | stale t role =>
    simp only [Permits, answer]
    exact db.lists_select _
  | list state =>
    simp only [Permits, answer]
    exact db.lists_select _
  | _ => exact rfl

end Database

end Registry
end WorkerGuard
