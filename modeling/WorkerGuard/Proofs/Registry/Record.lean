import WorkerGuard.Proofs.Registry.Ceilings
import WorkerGuard.Proofs.Registry.Registered

/-!
# WorkerGuard.Proofs.Registry.Record

What a registry of either kind has on record of a worker, and how requests change it.

* `Record`, `Store.record?`: the role, the root, the depth and the state of a worker.
* `Store.answer_record`: all that a request can do to a record. An insertion makes one, an active
  worker can be closed, and nothing else ever changes.
* `Store.record_of_insert`, `Store.record_of_close`: what these do when they succeed.
* `Store.HasDepth`: the depth of a worker never changes.
* `Store.active_le`: if no record became active, there are no more active workers than before.
-/

namespace WorkerGuard

open Registry Simulation

theorem WorkerId.eq_of_text {a b : WorkerId} (h : a.text = b.text) : a = b := by
  cases a; cases b; exact congrArg WorkerId.mk h

theorem Keyed.nodup_filter_keys {α : Type} (t : Keyed α) (p : α → Bool) :
    ((t.entries.filter fun e => p e.2).map (·.1)).Nodup := by
  have h := t.ascending.filter fun e => p e.2
  rw [List.Nodup, List.pairwise_map]
  refine h.imp fun hlt heq => ?_
  rw [heq] at hlt
  exact String.lt_irrefl _ hlt

theorem Keyed.mem_filter_keys {α : Type} {t : Keyed α} {p : α → Bool} {k : String} :
    k ∈ (t.entries.filter fun e => p e.2).map (·.1) ↔ ∃ v, t.find? k = some v ∧ p v = true := by
  simp only [List.mem_map, List.mem_filter, Keyed.find?_eq_some_iff]
  constructor
  · rintro ⟨e, ⟨he, hp⟩, rfl⟩
    exact ⟨e.2, he, hp⟩
  · rintro ⟨v, hv, hp⟩
    exact ⟨(k, v), ⟨hv, hp⟩, rfl⟩

theorem Keyed.length_filter_keys {α : Type} (t : Keyed α) (p : α → Bool) :
    ((t.entries.filter fun e => p e.2).map (·.1)).length = (t.values.filter p).length := by
  rw [List.length_map, Keyed.values, List.filter_map, List.length_map]
  rfl

namespace Simulation

structure Record where
  role : String
  root : String
  depth : UInt32
  /-- The word that is kept for it. -/
  state : String
  deriving DecidableEq

namespace Record

def ofWorker (w : Worker) : Record := ⟨w.role, w.root.text, w.depth, w.state.name⟩

def ofRow (r : WorkerRow) : Record := ⟨r.role, r.root, r.depth.toNat.toUInt32, r.state⟩

def isActive (r : Record) : Bool := r.state == Worker.State.active.name

def closed (r : Record) (state : Worker.State) : Record := { r with state := state.name }

theorem isActive_ofWorker (w : Worker) : (ofWorker w).isActive = w.isActive := by
  cases h : w.state <;> simp [isActive, ofWorker, Worker.isActive, Worker.State.name, h]

theorem isActive_ofRow (r : WorkerRow) : (ofRow r).isActive = r.isActive := rfl

theorem isActive_closed {r : Record} {state : Worker.State} (h : state ≠ .active) :
    (r.closed state).isActive = false := by
  cases state
  · exact absurd rfl h
  · rfl
  · rfl

end Record

end Simulation

namespace Registry

theorem Memory.find?_updateActive (m : Memory) (id : WorkerId) (f : Worker → Worker) (k : String) :
    (m.updateActive id f).2.workers.find? k = m.workers.find? k ∨
      ∃ w, k = id.text ∧ m.workers.find? k = some w ∧ w.isActive = true ∧
        (m.updateActive id f).2.workers.find? k = some (f w) := by
  unfold updateActive
  split
  · rename_i w hw
    split
    · rename_i ha
      by_cases hk : k = id.text
      · subst hk
        exact .inr ⟨w, rfl, hw, ha, by simp⟩
      · exact .inl (by simp [hk])
    · exact .inl rfl
  · exact .inl rfl

theorem Database.find?_updateActive (db : Database) (id : WorkerId) (f : WorkerRow → WorkerRow)
    (k : String) :
    (db.updateActive id f).2.workers.find? k = db.workers.find? k ∨
      ∃ r, k = id.text ∧ db.workers.find? k = some r ∧ r.isActive = true ∧
        (db.updateActive id f).2.workers.find? k = some (f r) := by
  unfold updateActive
  split
  · rename_i r hr
    split
    · rename_i ha
      by_cases hk : k = id.text
      · subst hk
        exact .inr ⟨r, rfl, hr, ha, by simp⟩
      · exact .inl (by simp [hk])
    · exact .inl rfl
  · exact .inl rfl

/-- An insertion makes an entry under a name that had none, or leaves all entries as they are. -/
theorem Memory.find?_insertion (m : Memory) (r : Recruit) (c : Ceilings) (k : String) :
    (m.answer (.insert r c)).2.workers.find? k = m.workers.find? k ∨
      k = r.id.text ∧ m.workers.find? k = none ∧ (m.answer (.insert r c)).1 = some r.enrolled ∧
        (m.answer (.insert r c)).2.workers.find? k = some r.enrolled := by
  simp only [answer]
  split
  · exact .inl rfl
  · rename_i hroom
    by_cases hk : k = r.id.text
    · subst hk
      refine .inr ⟨rfl, ?_, rfl, by simp⟩
      simpa [Keyed.contains] using fun h => hroom (.inr (.inr h))
    · exact .inl (by simp [hk])

theorem Database.find?_insertion (db : Database) (r : Recruit) (c : Ceilings) (k : String) :
    (db.answer (.insert r c)).2.workers.find? k = db.workers.find? k ∨
      k = r.id.text ∧ db.workers.find? k = none ∧
        (db.answer (.insert r c)).1 = .ok (some r.enrolled) ∧
        (db.answer (.insert r c)).2.workers.find? k = some (.ofRecruit r) := by
  simp only [answer]
  split
  · split
    · exact .inl rfl
    · rename_i hold
      by_cases hk : k = r.id.text
      · subst hk
        refine .inr ⟨rfl, ?_, rfl, by simp⟩
        simpa [Keyed.contains] using hold
      · exact .inl (by simp [hk])
  · exact .inl rfl

/-- Only times and states can fail to be read; all else is in the row as it is. -/
theorem WorkerRow.eq_of_read {r : WorkerRow} {id : String} {w : Worker} (h : r.read id = .ok w) :
    ∃ createdAt lastHeartbeatAt state, w = ⟨⟨id⟩, r.role, r.parent.map WorkerId.mk, ⟨r.root⟩,
      r.depth.toNat.toUInt32, ⟨r.dependency⟩, createdAt, lastHeartbeatAt, state⟩ := by
  unfold read at h
  cases hc : instantOf r.createdAt with
  | error e => rw [hc] at h; cases h
  | ok createdAt =>
    cases hb : instantOf r.lastHeartbeatAt with
    | error e => rw [hc, hb] at h; cases h
    | ok lastHeartbeatAt =>
      cases hs : stateOf (Worker.State.ofText r.state) with
      | error e => rw [hc, hb, hs] at h; cases h
      | ok state =>
        rw [hc, hb, hs] at h
        cases h
        exact ⟨createdAt, lastHeartbeatAt, state, rfl⟩

end Registry

namespace Simulation.Store

def record? (id : WorkerId) : Store → Option Record
  | memory m => (m.workers.find? id.text).map .ofWorker
  | database db => (db.workers.find? id.text).map .ofRow

theorem registered_iff {id : WorkerId} {s : Store} :
    s.Registered id ↔ ∃ r, s.record? id = some r := by
  cases s with
  | memory m =>
    simp only [Registered, record?, Keyed.contains, Option.isSome_iff_exists, Option.map_eq_some_iff]
    constructor
    · rintro ⟨w, hw⟩
      exact ⟨_, w, hw, rfl⟩
    · rintro ⟨_, w, hw, _⟩
      exact ⟨w, hw⟩
  | database db =>
    simp only [Registered, record?, Keyed.contains, Option.isSome_iff_exists, Option.map_eq_some_iff]
    constructor
    · rintro ⟨r, hr⟩
      exact ⟨_, r, hr, rfl⟩
    · rintro ⟨_, r, hr, _⟩
      exact ⟨r, hr⟩

/-- How a request can have changed the record of a worker. -/
inductive Recorded (s : Store) (q : Request) (id : WorkerId) : Prop where
  | kept (h : (s.answer q).2.record? id = s.record? id)
  | made (r : Recruit) (c : Ceilings) (hq : q = .insert r c) (hid : r.id = id)
      (hnew : s.record? id = none) (ha : (s.answer (.insert r c)).1 = .ok (some r.enrolled))
      (h : (s.answer q).2.record? id = some (.ofWorker r.enrolled))
  | closed (r : Record) (state : Worker.State) (hstate : state ≠ .active)
      (hold : s.record? id = some r) (hactive : r.isActive = true)
      (h : (s.answer q).2.record? id = some (r.closed state))

theorem record?_updateActive_memory (m : Memory) (i id : WorkerId) (f : Worker → Worker) :
    (memory (m.updateActive i f).2).record? id = (memory m).record? id ∨
      ∃ w, (memory m).record? id = some (.ofWorker w) ∧ (Record.ofWorker w).isActive = true ∧
        (memory (m.updateActive i f).2).record? id = some (.ofWorker (f w)) := by
  obtain h | ⟨w, _, hw, ha, h⟩ := m.find?_updateActive i f id.text
  · exact .inl (by rw [record?, h, record?])
  · refine .inr ⟨w, by rw [record?, hw]; rfl, ?_, by rw [record?, h]; rfl⟩
    rw [Record.isActive_ofWorker]
    exact ha

theorem record?_updateActive_database (db : Database) (i id : WorkerId)
    (f : WorkerRow → WorkerRow) :
    (database (db.updateActive i f).2).record? id = (database db).record? id ∨
      ∃ r, (database db).record? id = some (.ofRow r) ∧ (Record.ofRow r).isActive = true ∧
        (database (db.updateActive i f).2).record? id = some (.ofRow (f r)) := by
  obtain h | ⟨r, _, hr, ha, h⟩ := db.find?_updateActive i f id.text
  · exact .inl (by rw [record?, h, record?])
  · exact .inr ⟨r, by rw [record?, hr]; rfl, ha, by rw [record?, h]; rfl⟩

/-- A heartbeat is not on record. -/
theorem Recorded.of_kept {s : Store} {q : Request} {id : WorkerId} {r : Record}
    (hold : s.record? id = some r) (h : (s.answer q).2.record? id = some r) : Recorded s q id :=
  .kept (h.trans hold.symm)

theorem memory_recorded (m : Memory) (q : Request) (id : WorkerId) :
    Recorded (memory m) q id := by
  cases q with
  | insert r c =>
    obtain h | ⟨hid, hnew, ha, h⟩ := m.find?_insertion r c id.text
    · exact .kept (congrArg (Option.map Record.ofWorker) h)
    · refine .made r c rfl (WorkerId.eq_of_text hid.symm) (by rw [record?, hnew]; rfl) ?_ ?_
      · exact congrArg Except.ok ha
      · exact congrArg (Option.map Record.ofWorker) h
  | heartbeat i t =>
    obtain h | ⟨w, hw, _, h⟩ := record?_updateActive_memory m i id
      fun w => { w with lastHeartbeatAt := t }
    · exact .kept h
    · exact .of_kept hw h
  | terminate i =>
    obtain h | ⟨w, hw, ha, h⟩ := record?_updateActive_memory m i id
      fun w => { w with state := .terminated }
    · exact .kept h
    · exact .closed _ .terminated (by decide) hw ha h
  | degrade i =>
    obtain h | ⟨w, hw, ha, h⟩ := record?_updateActive_memory m i id
      fun w => { w with state := .degraded }
    · exact .kept h
    · exact .closed _ .degraded (by decide) hw ha h
  | swapBreaker d e n =>
    refine .kept ?_
    simp only [answer, Memory.answer]
    split <;> rfl
  | _ => exact .kept rfl

theorem database_recorded (db : Database) (q : Request) (id : WorkerId) :
    Recorded (database db) q id := by
  cases q with
  | insert r c =>
    obtain h | ⟨hid, hnew, ha, h⟩ := db.find?_insertion r c id.text
    · exact .kept (congrArg (Option.map Record.ofRow) h)
    · refine .made r c rfl (WorkerId.eq_of_text hid.symm) (by rw [record?, hnew]; rfl) ha ?_
      refine (congrArg (Option.map Record.ofRow) h).trans ?_
      simp [Record.ofRow, Record.ofWorker, WorkerRow.ofRecruit, Recruit.enrolled]
  | get i =>
    refine .kept ?_
    simp only [answer, Database.answer]
    split <;> rfl
  | heartbeat i t =>
    obtain h | ⟨r, hr, _, h⟩ := record?_updateActive_database db i id
      fun r => { r with lastHeartbeatAt := t.millis }
    · exact .kept h
    · exact .of_kept hr h
  | terminate i =>
    obtain h | ⟨r, hr, ha, h⟩ := record?_updateActive_database db i id
      fun r => { r with state := Worker.State.terminated.name }
    · exact .kept h
    · exact .closed _ .terminated (by decide) hr ha h
  | degrade i =>
    obtain h | ⟨r, hr, ha, h⟩ := record?_updateActive_database db i id
      fun r => { r with state := Worker.State.degraded.name }
    · exact .kept h
    · exact .closed _ .degraded (by decide) hr ha h
  | loadBreaker d =>
    refine .kept ?_
    simp only [answer, Database.answer]
    split <;> rfl
  | swapBreaker d e n =>
    refine .kept ?_
    simp only [answer, Database.answer, Database.seeded]
    split <;> split <;> rfl
  | _ => exact .kept rfl

theorem answer_record (s : Store) (q : Request) (id : WorkerId) : Recorded s q id := by
  cases s with
  | memory m => exact memory_recorded m q id
  | database db => exact database_recorded db q id

/-- The depth of a worker is fixed once and for all. -/
def HasDepth (id : WorkerId) (depth : UInt32) (s : Store) : Prop :=
  ∃ r, s.record? id = some r ∧ r.depth = depth

theorem HasDepth.answer {id : WorkerId} {depth : UInt32} {s : Store} (h : s.HasDepth id depth)
    (q : Request) : (s.answer q).2.HasDepth id depth := by
  obtain ⟨r, hr, hd⟩ := h
  cases s.answer_record q id with
  | kept h => exact ⟨r, h.trans hr, hd⟩
  | made _ _ _ _ hnew _ _ => rw [hr] at hnew; cases hnew
  | closed r' state _ hold _ h =>
    rw [hr] at hold
    cases hold
    exact ⟨_, h, hd⟩

theorem HasDepth.registered {id : WorkerId} {depth : UInt32} {s : Store} (h : s.HasDepth id depth) :
    s.Registered id := by
  obtain ⟨r, hr, _⟩ := h
  exact registered_iff.2 ⟨r, hr⟩

/-- What is closed stays as it is. -/
theorem record_of_inactive {id : WorkerId} {s : Store} {r : Record} (hr : s.record? id = some r)
    (ha : r.isActive = false) (q : Request) : (s.answer q).2.record? id = some r := by
  cases s.answer_record q id with
  | kept h => exact h.trans hr
  | made _ _ _ _ hnew _ _ => rw [hr] at hnew; cases hnew
  | closed r' state _ hold hactive h =>
    rw [hr] at hold
    cases hold
    rw [ha] at hactive
    cases hactive

/-- Nobody is active who was not, but for who is registered. -/
theorem active_of_answer {s : Store} {q : Request} {id : WorkerId} {r : Record}
    (hr : (s.answer q).2.record? id = some r) (ha : r.isActive = true) :
    s.record? id = some r ∨ ∃ x c, q = .insert x c ∧ x.id = id ∧
      (s.answer (.insert x c)).1 = .ok (some x.enrolled) := by
  cases s.answer_record q id with
  | kept h => exact .inl (h.symm.trans hr)
  | made x c hq hid _ hanswer _ => exact .inr ⟨x, c, hq, hid, hanswer⟩
  | closed r' state hstate _ _ h =>
    rw [hr] at h
    cases h
    rw [Record.isActive_closed hstate] at ha
    cases ha

/-- A worker that is found has the depth that is on record. -/
theorem HasDepth.answer_get {id : WorkerId} {depth : UInt32} {s : Store} {w : Worker}
    (h : s.HasDepth id depth) (hw : (s.answer (.get id)).1 = .ok (some w)) : w.depth = depth := by
  obtain ⟨r, hr, hd⟩ := h
  cases s with
  | memory m =>
    simp only [Store.answer, Memory.answer, Except.ok.injEq] at hw
    rw [record?, hw] at hr
    cases hr
    exact hd
  | database db =>
    cases hf : db.workers.find? id.text with
    | none =>
      simp only [Store.answer, Database.answer, hf] at hw
      cases hw
    | some row =>
      simp only [Store.answer, Database.answer, hf] at hw
      cases hread : row.read id.text with
      | error e => rw [hread] at hw; cases hw
      | ok v =>
        rw [hread] at hw
        cases hw
        rw [record?, hf] at hr
        cases hr
        obtain ⟨_, _, _, rfl⟩ := WorkerRow.eq_of_read hread
        exact hd

/-- Who is registered by a request was not on record before. -/
theorem record_of_insert {s : Store} {r : Recruit} {c : Ceilings} {w : Worker}
    (h : (s.answer (.insert r c)).1 = .ok (some w)) :
    w = r.enrolled ∧ s.record? r.id = none ∧
      (s.answer (.insert r c)).2.record? r.id = some (.ofWorker r.enrolled) := by
  cases s with
  | memory m =>
    simp only [answer, Memory.answer] at h ⊢
    split at h
    · cases h
    · rename_i hroom
      cases h
      have hnew : m.workers.find? r.id.text = none := by
        simpa [Keyed.contains] using fun h => hroom (.inr (.inr h))
      rw [if_neg hroom]
      exact ⟨rfl, by rw [record?, hnew]; rfl, by simp [record?]⟩
  | database db =>
    simp only [answer, Database.answer] at h ⊢
    split at h
    · rename_i hroom
      split at h
      · cases h
      · rename_i hold
        cases h
        have hnew : db.workers.find? r.id.text = none := by simpa [Keyed.contains] using hold
        rw [if_pos hroom, if_neg hold]
        refine ⟨rfl, by rw [record?, hnew]; rfl, ?_⟩
        simp [record?, Record.ofRow, Record.ofWorker, WorkerRow.ofRecruit, Recruit.enrolled]
    · cases h

/-- The request that closes a record. -/
def closing (id : WorkerId) (degraded : Bool) : Request :=
  if degraded then .degrade id else .terminate id

def closedState (degraded : Bool) : Worker.State := if degraded then .degraded else .terminated

theorem closedState_ne_active (degraded : Bool) : closedState degraded ≠ .active := by
  cases degraded <;> exact nofun

theorem record_of_close {s : Store} {id : WorkerId} {r : Record} (hr : s.record? id = some r)
    (ha : r.isActive = true) (degraded : Bool) :
    (s.answer (closing id degraded)).2.record? id = some (r.closed (closedState degraded)) := by
  cases s with
  | memory m =>
    obtain ⟨w, hw, rfl⟩ := Option.map_eq_some_iff.1 hr
    rw [Record.isActive_ofWorker] at ha
    cases degraded <;>
      simp [closing, answer, Memory.answer, Memory.updateActive, hw, ha, record?,
        Record.ofWorker, Record.closed, closedState]
  | database db =>
    obtain ⟨w, hw, rfl⟩ := Option.map_eq_some_iff.1 hr
    rw [Record.isActive_ofRow] at ha
    cases degraded <;>
      simp [closing, answer, Database.answer, Database.updateActive, hw, ha, record?,
        Record.ofRow, Record.closed, closedState]

/-- Active workers are counted by their names. -/
theorem exists_names (s : Store) (p : String → String → Bool) :
    ∃ names : List String, names.Nodup ∧ names.length = s.active p ∧ ∀ k, k ∈ names ↔
      ∃ r, s.record? ⟨k⟩ = some r ∧ r.isActive = true ∧ p r.role r.root = true := by
  cases s with
  | memory m =>
    refine ⟨_, m.workers.nodup_filter_keys _, m.workers.length_filter_keys _, fun k => ?_⟩
    refine (Keyed.mem_filter_keys (p := fun w : Worker => w.isActive && p w.role w.root.text)).trans ?_
    constructor
    · rintro ⟨w, hw, h⟩
      obtain ⟨ha, hp⟩ := Bool.and_eq_true_iff.1 h
      exact ⟨.ofWorker w, by rw [record?, hw]; rfl, (Record.isActive_ofWorker w).trans ha, hp⟩
    · rintro ⟨r, hr, ha, hp⟩
      obtain ⟨w, hw, rfl⟩ := Option.map_eq_some_iff.1 hr
      rw [Record.isActive_ofWorker] at ha
      exact ⟨w, hw, Bool.and_eq_true_iff.2 ⟨ha, hp⟩⟩
  | database db =>
    refine ⟨_, db.workers.nodup_filter_keys _, db.workers.length_filter_keys _, fun k => ?_⟩
    refine (Keyed.mem_filter_keys (p := fun r : WorkerRow => r.isActive && p r.role r.root)).trans ?_
    constructor
    · rintro ⟨row, hrow, h⟩
      obtain ⟨ha, hp⟩ := Bool.and_eq_true_iff.1 h
      exact ⟨.ofRow row, by rw [record?, hrow]; rfl, ha, hp⟩
    · rintro ⟨r, hr, ha, hp⟩
      obtain ⟨row, hrow, rfl⟩ := Option.map_eq_some_iff.1 hr
      exact ⟨row, hrow, Bool.and_eq_true_iff.2 ⟨ha, hp⟩⟩

/-- What is on record as active in the end was so at the beginning. -/
theorem active_le {s s' : Store}
    (h : ∀ id r, s'.record? id = some r → r.isActive = true → s.record? id = some r)
    (p : String → String → Bool) : s'.active p ≤ s.active p := by
  obtain ⟨names, _, hlength, hmem⟩ := s.exists_names p
  obtain ⟨names', hnodup, hlength', hmem'⟩ := s'.exists_names p
  rw [← hlength, ← hlength']
  refine List.Nodup.length_le_of_subset hnodup fun k hk => ?_
  obtain ⟨r, hr, ha, hp⟩ := (hmem' k).1 hk
  exact (hmem k).2 ⟨r, h ⟨k⟩ r hr ha, ha, hp⟩

end Simulation.Store
end WorkerGuard
