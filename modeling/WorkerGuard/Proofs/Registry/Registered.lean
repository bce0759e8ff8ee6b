import WorkerGuard.Simulation.Trouble

/-!
# WorkerGuard.Proofs.Registry.Registered

Which workers a registry of either kind knows.

* `Store.Registered`: there is a record of a worker, whatever it says.
* `Store.Registered.answer`: it stays there whatever is requested.
* `Store.Registered.answer_get`, `Store.registered_of_insert`: it is found, and how it came there.
-/

namespace WorkerGuard

open Registry Simulation

namespace Registry

theorem Memory.contains_updateActive {m : Memory} {id : WorkerId} {f : Worker → Worker}
    {k : String} (h : m.workers.contains k = true) :
    (m.updateActive id f).2.workers.contains k = true := by
  unfold updateActive
  split
  · split
    · exact Keyed.contains_insert_of_contains h
    · exact h
  · exact h

theorem Database.contains_updateActive {db : Database} {id : WorkerId}
    {f : WorkerRow → WorkerRow} {k : String} (h : db.workers.contains k = true) :
    (db.updateActive id f).2.workers.contains k = true := by
  unfold updateActive
  split
  · split
    · exact Keyed.contains_insert_of_contains h
    · exact h
  · exact h

end Registry

namespace Simulation.Store

def Registered (id : WorkerId) : Store → Prop
  | memory m => m.workers.contains id.text = true
  | database db => db.workers.contains id.text = true

/-- No request takes a worker out of the registry. -/
theorem Registered.answer {id : WorkerId} {s : Store} (h : s.Registered id) (q : Request) :
    (s.answer q).2.Registered id := by
  cases s with
  | memory m =>
    cases q with
    | insert r c =>
      simp only [Store.answer, Memory.answer]
      split
      · exact h
      · exact Keyed.contains_insert_of_contains h
    | heartbeat i t => exact Memory.contains_updateActive h
    | terminate i => exact Memory.contains_updateActive h
    | degrade i => exact Memory.contains_updateActive h
    | swapBreaker d e n =>
      simp only [Store.answer, Memory.answer]
      split <;> exact h
    | _ => exact h
  | database db =>
    cases q with
    | insert r c =>
      simp only [Store.answer, Database.answer]
      split
      · split
        · exact h
        · exact Keyed.contains_insert_of_contains h
      · exact h
    | get i =>
      simp only [Store.answer, Database.answer]
      split <;> exact h
    | heartbeat i t => exact Database.contains_updateActive h
    | terminate i => exact Database.contains_updateActive h
    | degrade i => exact Database.contains_updateActive h
    | loadBreaker d =>
      simp only [Store.answer, Database.answer]
      split <;> exact h
    | swapBreaker d e n =>
      simp only [Store.answer, Database.answer, Database.seeded]
      split <;> split <;> exact h
    | _ => exact h

theorem Registered.answer_get {id : WorkerId} {s : Store} (h : s.Registered id) :
    (s.answer (.get id)).1 ≠ .ok none := by
  cases s with
  | memory m =>
    obtain ⟨w, hw⟩ := Option.isSome_iff_exists.1 h
    simp only [Store.answer, Memory.answer, hw]
    intro h
    cases h
  | database db =>
    obtain ⟨r, hr⟩ := Option.isSome_iff_exists.1 h
    simp only [Store.answer, Database.answer, hr]
    cases r.read id.text with
    | error e => intro h; cases h
    | ok w => intro h; cases h

theorem registered_of_insert {r : Recruit} {c : Ceilings} {s : Store} {w : Worker}
    (h : (s.answer (.insert r c)).1 = .ok (some w)) :
    (s.answer (.insert r c)).2.Registered w.id := by
  cases s with
  | memory m =>
    simp only [Store.answer, Memory.answer] at h ⊢
    split at h
    · cases h
    · rename_i hroom
      cases h
      rw [if_neg hroom]
      simp [Registered, Recruit.enrolled]
  | database db =>
    simp only [Store.answer, Database.answer] at h ⊢
    split at h
    · rename_i hroom
      split at h
      · cases h
      · rename_i hnew
        cases h
        rw [if_pos hroom, if_neg hnew]
        simp [Registered, Recruit.enrolled]
    · cases h

end Simulation.Store
end WorkerGuard
