import WorkerGuard.Proofs.Simulation.View
import WorkerGuard.Spawn

/-!
# WorkerGuard.Proofs.Spawn.Verdict

What a request for a new worker comes to on a host.

* `Spawn.refused_of_closed`: by what it can be refused while the breaker is closed, for a role that
  is configured and a parent that is registered.
* `Spawn.registered_of_granted`: a worker that was granted is registered.
-/

namespace WorkerGuard

open Program Registry Simulation

namespace Simulation

variable {p : Nat} {h h' : Host}

theorem not_answers_get_none {id : WorkerId} (hr : h.store.Registered id) :
    ¬Answers p h (.registry (.get id)) (.ok none) h' := by
  intro ha
  have heq : ((.ok none : Except Registry.Error (Option Worker)), h') =
    h.answer p false (.registry (.get id)) := ha
  simp only [Host.answer] at heq
  split at heq
  · cases heq
  · exact hr.answer_get (congrArg Prod.fst heq).symm

theorem Host.insert_eq (h : Host) (r : Recruit) (c : Ceilings) :
    (h.insert r c).1 = (h.store.answer (.insert r c)).1 ∧
      (h.insert r c).2.store = (h.store.answer (.insert r c)).2 := by
  simp only [Host.insert]
  split
  · split <;> exact ⟨rfl, rfl⟩
  · exact ⟨rfl, rfl⟩

theorem registered_of_answers {r : Recruit} {c : Ceilings} {w : Worker}
    (ha : Answers p h (.registry (.insert r c)) (.ok (some w)) h') :
    h'.store.Registered w.id := by
  have heq : ((.ok (some w) : Except Registry.Error (Option Worker)), h') =
    h.answer p false (.registry (.insert r c)) := ha
  simp only [Host.answer] at heq
  split at heq
  · cases heq
  · obtain ⟨hanswer, hstore⟩ := h.insert_eq r c
    rw [← heq] at hanswer hstore
    rw [hstore]
    exact Store.registered_of_insert hanswer.symm

end Simulation

namespace Spawn

variable {s : Settings} {q : Request} {role : Role} {p : Nat} {h h' : Host} {l : List Exchange}

theorem refused_of_enroll {id : WorkerId} {pl : Place} {why : Refusal}
    (hr : Trail (Answers p) (enroll s role id q pl) h l (.ok (.ok (.refused why))) h') :
    (∃ depth, why = .depthExceeded depth s.governor.maxDepth) ∨
      why = .ceilingReached role.name role.ceiling := by
  unfold enroll at hr
  split at hr
  · cases (trail_pure hr).2.1
    exact .inl ⟨pl.depth, rfl⟩
  · obtain ⟨now, h₁, _, _, rfl, _, hr⟩ := trail_bind_ok hr
    obtain ⟨a, h₂, _, _, rfl, _, hr⟩ := trail_bind_ok hr
    cases a with
    | error e => cases (trail_pure hr).2.1
    | ok found =>
      cases found with
      | none =>
        cases (trail_pure hr).2.1
        exact .inr rfl
      | some w => cases (trail_pure hr).2.1

/-- A parent that is registered may have ended or may be unreadable, but it is found. -/
theorem refused_of_place {id parent : WorkerId} {why : Refusal} (hp : h.store.Registered parent)
    (hr : Trail (Answers p) (place id (some parent)) h l (.ok (.ok (.error why))) h') :
    why = .parentInactive parent := by
  obtain ⟨a, h₁, _, _, rfl, ha, hr⟩ := trail_bind_ok hr
  obtain ⟨a, _, heq, ha⟩ := trail_call ha
  cases heq
  cases a with
  | error e => cases (trail_pure hr).2.1
  | ok found =>
    cases found with
    | none => exact absurd ha (not_answers_get_none hp)
    | some w =>
      simp only [] at hr
      split at hr
      · cases (trail_pure hr).2.1
        rfl
      · split at hr
        · cases (trail_halt hr).2.1
        · cases (trail_pure hr).2.1

theorem refused_of_closed {why : Refusal} (hrole : s.roleNamed q.role = some role)
    (hclosed : h.circuit p q.dependency = .closed)
    (hparent : ∀ parent, q.parent = some parent → h.store.Registered parent)
    (hr : Trail (Answers p) (request s q) h l (.ok (.ok (.refused why))) h') :
    (∃ parent, why = .parentInactive parent) ∨
      (∃ depth, why = .depthExceeded depth s.governor.maxDepth) ∨
      why = .ceilingReached role.name role.ceiling := by
  unfold request at hr
  rw [hrole] at hr
  obtain ⟨c, h₁, _, _, rfl, hc, hr⟩ := trail_bind_ok hr
  have hstore₁ := hc.meanwhile
  obtain ⟨hc, _⟩ := trail_state rfl hc
  rw [hclosed] at hc
  cases hc
  obtain ⟨id, h₂, _, _, rfl, hid, hr⟩ := trail_bind_ok hr
  have hstore₂ := hstore₁.trans hid.meanwhile
  obtain ⟨a, h₃, _, _, rfl, ha, hr⟩ := trail_bind_ok hr
  cases a with
  | error e => cases (trail_pure hr).2.1
  | ok found =>
    cases found with
    | error why' =>
      cases (trail_pure hr).2.1
      cases hq : q.parent with
      | none =>
        rw [hq] at ha
        cases (trail_pure ha).2.1
      | some parent =>
        rw [hq] at ha
        have hreg := hstore₂.registered (hparent parent hq)
        exact .inl ⟨parent, refused_of_place hreg ha⟩
    | ok pl => exact .inr (refused_of_enroll hr)

theorem registered_of_enroll {id : WorkerId} {pl : Place} {w : Worker}
    (hr : Trail (Answers p) (enroll s role id q pl) h l (.ok (.ok (.granted w))) h') :
    h'.store.Registered w.id := by
  unfold enroll at hr
  split at hr
  · cases (trail_pure hr).2.1
  · obtain ⟨now, h₁, _, _, rfl, _, hr⟩ := trail_bind_ok hr
    obtain ⟨a, h₂, _, _, rfl, ha, hr⟩ := trail_bind_ok hr
    obtain ⟨a, _, heq, ha⟩ := trail_call ha
    cases heq
    cases a with
    | error e => cases (trail_pure hr).2.1
    | ok found =>
      cases found with
      | none => cases (trail_pure hr).2.1
      | some w' =>
        obtain ⟨_, heq, rfl⟩ := trail_pure hr
        cases heq
        exact registered_of_answers ha

theorem registered_of_granted {w : Worker}
    (hr : Trail (Answers p) (request s q) h l (.ok (.ok (.granted w))) h') :
    h'.store.Registered w.id := by
  unfold request at hr
  split at hr
  · cases (trail_pure hr).2.1
  · obtain ⟨c, h₁, _, _, rfl, _, hr⟩ := trail_bind_ok hr
    split at hr
    · cases (trail_pure hr).2.1
    · obtain ⟨id, h₂, _, _, rfl, _, hr⟩ := trail_bind_ok hr
      obtain ⟨a, h₃, _, _, rfl, _, hr⟩ := trail_bind_ok hr
      split at hr
      · cases (trail_pure hr).2.1
      · cases (trail_pure hr).2.1
      · exact registered_of_enroll hr

end Spawn
end WorkerGuard
