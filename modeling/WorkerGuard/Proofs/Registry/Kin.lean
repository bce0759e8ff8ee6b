import WorkerGuard.Proofs.Registry.Record

/-!
# WorkerGuard.Proofs.Registry.Kin

Where the workers of a registry of either kind stand in their trees.

* `Kin`, `Store.kin?`: the parent, the root and the depth of a worker.
* `Store.answer_kin`: they are given to a worker as it is registered, and never change.
* `Store.kin_of_get`: who looks a worker up sees them.
* `Store.ancestor?`: so many links from a worker to its parent, and on. `Store.EndsAt`: where the last
  of these links leads to.
-/

namespace WorkerGuard

open Registry

namespace Simulation

structure Kin where
  parent : Option WorkerId
  root : WorkerId
  depth : UInt32
  deriving DecidableEq

namespace Kin

def ofWorker (w : Worker) : Kin := ⟨w.parent, w.root, w.depth⟩

def ofRow (r : WorkerRow) : Kin :=
  ⟨r.parent.map WorkerId.mk, ⟨r.root⟩, r.depth.toNat.toUInt32⟩

def ofRecruit (r : Recruit) : Kin := ⟨r.parent, r.root, r.depth⟩

theorem ofRow_ofRecruit (r : Recruit) : ofRow (.ofRecruit r) = ofRecruit r := by
  simp [ofRow, ofRecruit, WorkerRow.ofRecruit, Function.comp_def]

end Kin

namespace Store

def kin? (id : WorkerId) : Store → Option Kin
  | memory m => (m.workers.find? id.text).map .ofWorker
  | database db => (db.workers.find? id.text).map .ofRow

theorem kin?_updateActive_memory (m : Memory) (i id : WorkerId) {f : Worker → Worker}
    (hf : ∀ w, Kin.ofWorker (f w) = .ofWorker w) :
    (memory (m.updateActive i f).2).kin? id = (memory m).kin? id := by
  obtain h | ⟨w, _, hw, _, h⟩ := m.find?_updateActive i f id.text
  · exact congrArg (Option.map Kin.ofWorker) h
  · rw [kin?, kin?, h, hw, Option.map_some, Option.map_some, hf]

theorem kin?_updateActive_database (db : Database) (i id : WorkerId) {f : WorkerRow → WorkerRow}
    (hf : ∀ r, Kin.ofRow (f r) = .ofRow r) :
    (database (db.updateActive i f).2).kin? id = (database db).kin? id := by
  obtain h | ⟨r, _, hr, _, h⟩ := db.find?_updateActive i f id.text
  · exact congrArg (Option.map Kin.ofRow) h
  · rw [kin?, kin?, h, hr, Option.map_some, Option.map_some, hf]

/-- Nobody is moved to another place, and no place is given twice. -/
theorem answer_kin (s : Store) (q : Request) (id : WorkerId) :
    (s.answer q).2.kin? id = s.kin? id ∨ ∃ r c, q = .insert r c ∧ r.id = id ∧ s.kin? id = none ∧
      (s.answer q).2.kin? id = some (.ofRecruit r) := by
  cases s with
  | memory m =>
    cases q with
    | insert r c =>
      obtain h | ⟨hid, hnew, _, h⟩ := m.find?_insertion r c id.text
      · exact .inl (congrArg (Option.map Kin.ofWorker) h)
      · refine .inr ⟨r, c, rfl, WorkerId.eq_of_text hid.symm, by rw [kin?, hnew]; rfl, ?_⟩
        exact congrArg (Option.map Kin.ofWorker) h
    | heartbeat i t => exact .inl (kin?_updateActive_memory m i id fun _ => rfl)
    | terminate i => exact .inl (kin?_updateActive_memory m i id fun _ => rfl)
    | degrade i => exact .inl (kin?_updateActive_memory m i id fun _ => rfl)
    | swapBreaker d e n =>
      refine .inl ?_
      simp only [answer, Memory.answer]
      split <;> rfl
    | _ => exact .inl rfl
  | database db =>
    cases q with
    | insert r c =>
      obtain h | ⟨hid, hnew, _, h⟩ := db.find?_insertion r c id.text
      · exact .inl (congrArg (Option.map Kin.ofRow) h)
      · refine .inr ⟨r, c, rfl, WorkerId.eq_of_text hid.symm, by rw [kin?, hnew]; rfl, ?_⟩
        rw [← Kin.ofRow_ofRecruit]
        exact congrArg (Option.map Kin.ofRow) h
    | get i =>
      refine .inl ?_
      simp only [answer, Database.answer]
      split <;> rfl
    | heartbeat i t => exact .inl (kin?_updateActive_database db i id fun _ => rfl)
    | terminate i => exact .inl (kin?_updateActive_database db i id fun _ => rfl)
    | degrade i => exact .inl (kin?_updateActive_database db i id fun _ => rfl)
    | loadBreaker d =>
      refine .inl ?_
      simp only [answer, Database.answer]
      split <;> rfl
    | swapBreaker d e n =>
      refine .inl ?_
      simp only [answer, Database.answer, Database.seeded]
      split <;> split <;> rfl
    | _ => exact .inl rfl

variable {s : Store} {id : WorkerId} {k : Kin}

theorem kin_answer (h : s.kin? id = some k) (q : Request) : (s.answer q).2.kin? id = some k := by
  obtain hkept | ⟨_, _, _, _, hnew, _⟩ := s.answer_kin q id
  · exact hkept.trans h
  · rw [h] at hnew
    cases hnew

theorem kin_of_get {w : Worker} (h : (s.answer (.get id)).1 = .ok (some w)) :
    s.kin? id = some (.ofWorker w) := by
  cases s with
  | memory m =>
    simp only [answer, Memory.answer, Except.ok.injEq] at h
    rw [kin?, h]
    rfl
  | database db =>
    cases hf : db.workers.find? id.text with
    | none =>
      simp only [answer, Database.answer, hf] at h
      cases h
    | some row =>
      simp only [answer, Database.answer, hf] at h
      cases hread : row.read id.text with
      | error e => rw [hread] at h; cases h
      | ok v =>
        rw [hread] at h
        cases h
        obtain ⟨_, _, _, rfl⟩ := WorkerRow.eq_of_read hread
        rw [kin?, hf]
        rfl

/-- A worker with a place in a tree is on record with the same root. -/
theorem record_of_kin (h : s.kin? id = some k) :
    ∃ r, s.record? id = some r ∧ r.root = k.root.text := by
  cases s with
  | memory m =>
    obtain ⟨w, hw, rfl⟩ := Option.map_eq_some_iff.1 h
    exact ⟨.ofWorker w, by rw [record?, hw]; rfl, rfl⟩
  | database db =>
    obtain ⟨row, hrow, rfl⟩ := Option.map_eq_some_iff.1 h
    exact ⟨.ofRow row, by rw [record?, hrow]; rfl, rfl⟩

theorem kin_of_record {r : Record} (h : s.record? id = some r) : ∃ k, s.kin? id = some k := by
  cases s with
  | memory m =>
    obtain ⟨w, hw, _⟩ := Option.map_eq_some_iff.1 h
    exact ⟨.ofWorker w, by rw [kin?, hw]; rfl⟩
  | database db =>
    obtain ⟨row, hrow, _⟩ := Option.map_eq_some_iff.1 h
    exact ⟨.ofRow row, by rw [kin?, hrow]; rfl⟩

/-- Neither a root nor a stranger has a parent. -/
def parent? (s : Store) (id : WorkerId) : Option WorkerId := (s.kin? id).bind (·.parent)

def ancestor? (s : Store) : Nat → WorkerId → Option WorkerId
  | 0, id => some id
  | n + 1, id => (s.parent? id).bind (s.ancestor? n)

/-- The chain of parents of a worker ends there. -/
def EndsAt (s : Store) (id r : WorkerId) : Prop :=
  ∃ n, s.ancestor? n id = some r ∧ s.parent? r = none

def IsActive (s : Store) (id : WorkerId) : Prop :=
  ∃ r, s.record? id = some r ∧ r.isActive = true

end Store
end Simulation
end WorkerGuard
