import WorkerGuard.Proofs.Registry.Mirror
import WorkerGuard.Proofs.Registry.Record
import WorkerGuard.Proofs.Watch.Stops

/-!
# WorkerGuard.Proofs.Registry.Alive

Who is alive in a database, and what requests do about it.

* `Database.Alive`: a worker is on record as active. `Database.alive_insert`,
  `Database.alive_heartbeat` and `Database.alive_terminate` tell who is so afterwards.
* `Request.Written`: the request leaves no worker that cannot be read (`Database.legible_answer`).
* `Database.InOrder`: all workers and stops can be read, and the ceilings are kept. Requests whose
  times can be written keep it so (`Database.InOrder.answer`).
* `Database.InOrder.answer_stale`: nothing then spoils a list of old workers.
-/

namespace WorkerGuard

open Registry Simulation

namespace Registry

variable {db : Database} {id k : WorkerId} {f : WorkerRow → WorkerRow} {s : Settings} {q : Request}

namespace Database

def Alive (db : Database) (id : WorkerId) : Prop :=
  ∃ r, db.workers.find? id.text = some r ∧ r.isActive = true

theorem not_alive_empty (id : WorkerId) : ¬empty.Alive id := by
  rintro ⟨_, hr, _⟩
  cases hr

theorem notMem_stops_empty (d : Dependency) : d ∉ (Store.database empty).stops := by
  rw [Store.mem_stops_database]
  exact nofun

theorem updateActive_of_alive {r : WorkerRow} (hr : db.workers.find? id.text = some r)
    (ha : r.isActive = true) : db.updateActive id f =
      (true, { db with workers := db.workers.insert id.text (f r) }) := by
  simp only [updateActive, hr, ha, if_true]

theorem updateActive_of_not_alive (h : ¬db.Alive id) : db.updateActive id f = (false, db) := by
  unfold updateActive
  split
  · rename_i r hr
    rw [if_neg fun ha => h ⟨r, hr, ha⟩]
  · rfl

theorem updateActive_granted : (db.updateActive id f).1 = true ↔ db.Alive id := by
  by_cases h : db.Alive id
  · obtain ⟨r, hr, ha⟩ := h
    rw [updateActive_of_alive hr ha]
    exact iff_of_true rfl ⟨r, hr, ha⟩
  · rw [updateActive_of_not_alive h]
    exact iff_of_false Bool.false_ne_true h

/-- Who was alive still is, unless the update has closed it. -/
theorem alive_updateActive : (db.updateActive id f).2.Alive k ↔
    ∃ r, db.workers.find? k.text = some r ∧ r.isActive = true ∧
      (k = id → (f r).isActive = true) := by
  by_cases h : db.Alive id
  · obtain ⟨r, hr, ha⟩ := h
    rw [updateActive_of_alive hr ha]
    by_cases hk : k = id
    · subst hk
      simp [Alive, hr, ha]
    · have htext : k.text ≠ id.text := fun heq => hk (WorkerId.eq_of_text heq)
      simp [Alive, htext, hk]
  · rw [updateActive_of_not_alive h]
    constructor
    · rintro ⟨r, hr, ha⟩
      refine ⟨r, hr, ha, ?_⟩
      rintro rfl
      exact absurd ⟨r, hr, ha⟩ h
    · rintro ⟨r, hr, ha, _⟩
      exact ⟨r, hr, ha⟩

theorem answer_heartbeat (db : Database) (id : WorkerId) (t : Instant) :
    ∃ b, (db.answer (.heartbeat id t)).1 = .ok b ∧ (b = true ↔ db.Alive id) :=
  ⟨_, rfl, updateActive_granted⟩

theorem answer_terminate (db : Database) (id : WorkerId) :
    ∃ b, (db.answer (.terminate id)).1 = .ok b ∧ (b = true ↔ db.Alive id) :=
  ⟨_, rfl, updateActive_granted⟩

theorem alive_heartbeat {t : Instant} :
    (db.answer (.heartbeat id t)).2.Alive k ↔ db.Alive k := by
  show (db.updateActive id _).2.Alive k ↔ _
  rw [alive_updateActive]
  exact exists_congr fun r => and_congr_right fun _ => and_iff_left_of_imp fun ha _ => ha

theorem alive_terminate : (db.answer (.terminate id)).2.Alive k ↔ db.Alive k ∧ k ≠ id := by
  show (db.updateActive id _).2.Alive k ↔ _
  rw [alive_updateActive]
  constructor
  · rintro ⟨r, hr, ha, hclosed⟩
    exact ⟨⟨r, hr, ha⟩, fun heq => nomatch hclosed heq⟩
  · rintro ⟨⟨r, hr, ha⟩, hne⟩
    exact ⟨r, hr, ha, fun heq => absurd heq hne⟩

theorem Alive.registered (h : db.Alive id) : (Store.database db).Registered id := by
  obtain ⟨r, hr, _⟩ := h
  exact Option.isSome_iff_exists.2 ⟨r, hr⟩

/-- A new worker is alive, and it had been unknown. -/
theorem alive_insert {r : Recruit} {c : Ceilings} {w : Worker}
    (h : (db.answer (.insert r c)).1 = .ok (some w)) :
    w.id = r.id ∧ ¬(Store.database db).Registered r.id ∧
      ∀ k, (db.answer (.insert r c)).2.Alive k ↔ k = r.id ∨ db.Alive k := by
  simp only [answer] at h ⊢
  split at h
  · rename_i hroom
    split at h
    · cases h
    · rename_i hnew
      cases h
      rw [if_pos hroom, if_neg hnew]
      refine ⟨rfl, hnew, fun k => ?_⟩
      by_cases hk : k.text = r.id.text
      · refine iff_of_true ?_ (.inl (WorkerId.eq_of_text hk))
        exact ⟨.ofRecruit r, by rw [Keyed.find?_insert, if_pos hk], rfl⟩
      · have hne : k ≠ r.id := fun heq => hk (congrArg WorkerId.text heq)
        simp [Alive, hk, hne]
  · cases h

theorem insert_refused {r : Recruit} {c : Ceilings}
    (h : ∀ w, (db.answer (.insert r c)).1 ≠ .ok (some w)) : (db.answer (.insert r c)).2 = db := by
  simp only [answer] at h ⊢
  split
  · rename_i hroom
    split
    · rfl
    · rename_i hnew
      rw [if_pos hroom, if_neg hnew] at h
      exact absurd rfl (h _)
  · rfl

theorem mem_stops_setOverride {o : Override} {d : Dependency} :
    d ∈ (Store.database (db.answer (.setOverride o)).2).stops ↔
      d = o.dependency ∨ d ∈ (Store.database db).stops := by
  rw [Store.mem_stops_database, Store.mem_stops_database]
  show (db.overrides.insert _ _).contains _ = true ↔ _
  rw [Keyed.contains_insert, Bool.or_eq_true, decide_eq_true_iff, Dependency.mk.injEq]

theorem mem_stops_clearOverride {d e : Dependency} :
    d ∈ (Store.database (db.answer (.clearOverride e)).2).stops ↔
      d ∈ (Store.database db).stops ∧ d ≠ e := by
  rw [Store.mem_stops_database, Store.mem_stops_database]
  show (db.overrides.erase _).contains _ = true ↔ _
  rw [Keyed.contains, Keyed.find?_erase, Ne, Dependency.mk.injEq]
  by_cases hd : d.name = e.name <;> simp [hd, Keyed.contains]

end Database

theorem exists_mapM_eq_ok {α β : Type} {g : α → Except Error β} {as : List α}
    (h : ∀ a ∈ as, ∃ b, g a = .ok b) : ∃ bs, as.mapM g = .ok bs := by
  induction as with
  | nil => exact ⟨[], rfl⟩
  | cons a as ih =>
    obtain ⟨b, hb⟩ := h a (by simp)
    obtain ⟨bs, hbs⟩ := ih fun a ha => h a (by simp [ha])
    exact ⟨b :: bs, by rw [List.mapM_cons, hb, hbs]; rfl⟩

/-- What is in the columns of the row means something. -/
structure WorkerRow.Legible (r : WorkerRow) : Prop where
  created : ∃ t, Instant.ofMillis? r.createdAt = some t
  beat : ∃ t, Instant.ofMillis? r.lastHeartbeatAt = some t
  state : ∃ state : Worker.State, r.state = state.name

theorem WorkerRow.Legible.read {r : WorkerRow} (h : r.Legible) (id : String) :
    ∃ w, r.read id = .ok w := by
  obtain ⟨⟨t, ht⟩, ⟨u, hu⟩, state, hstate⟩ := h
  simp only [WorkerRow.read, instantOf, ht, hu, hstate, Worker.State.ofText_name, stateOf,
    Bind.bind, Except.bind, Pure.pure, Except.pure, Except.ok.injEq, exists_eq']

/-- Times that can be written, since they are no leap seconds. -/
def Request.Dated : Request → Prop
  | .insert r _ => r.createdAt.nanos < 1_000_000_000
  | .heartbeat _ t => t.nanos < 1_000_000_000
  | .setOverride o => o.setAt.nanos < 1_000_000_000
  | _ => True

/-- Times of workers that can be read again once they are written. Only a leap second after the
latest second of all cannot. -/
def Request.Written : Request → Prop
  | .insert r _ => ∃ t, Instant.ofMillis? r.createdAt.millis = some t
  | .heartbeat _ t => ∃ u, Instant.ofMillis? t.millis = some u
  | _ => True

theorem Request.Dated.written {q : Request} (h : q.Dated) : q.Written := by
  cases q with
  | insert r c => exact Instant.ofMillis?_millis_of_nanos_lt h
  | heartbeat id t => exact Instant.ofMillis?_millis_of_nanos_lt h
  | _ => trivial

namespace Database

structure InOrder (s : Settings) (db : Database) : Prop where
  stops : (Store.database db).Legible
  workers : db.workers.Each fun _ r => r.Legible
  ceilings : (Store.database db).WithinCeilings s

theorem inOrder_empty (s : Settings) : empty.InOrder s :=
  ⟨Store.legible_database, Keyed.each_empty, Store.withinCeilings_database s⟩

theorem each_updateActive {P : String → WorkerRow → Prop} (h : db.workers.Each P)
    (hf : ∀ k r, P k r → P k (f r)) : (db.updateActive id f).2.workers.Each P := by
  intro k r hr
  obtain hsame | ⟨r', _, hr', _, hnew⟩ := db.find?_updateActive id f k
  · exact h k r (hsame.symm.trans hr)
  · rw [hnew] at hr
    cases hr
    exact hf k r' (h k r' hr')

theorem legible_answer (h : db.workers.Each fun _ r => r.Legible) (hd : q.Written) :
    (db.answer q).2.workers.Each fun _ r => r.Legible := by
  cases q with
  | insert r c =>
    have hnew : (WorkerRow.ofRecruit r).Legible := ⟨hd, hd, .active, rfl⟩
    simp only [answer]
    split
    · split
      · exact h
      · exact h.insert hnew
    · exact h
  | heartbeat id t =>
    exact each_updateActive h fun k r hr => ⟨hr.created, hd, hr.state⟩
  | terminate id => exact each_updateActive h fun k r hr => ⟨hr.created, hr.beat, .terminated, rfl⟩
  | degrade id => exact each_updateActive h fun k r hr => ⟨hr.created, hr.beat, .degraded, rfl⟩
  | get id =>
    simp only [answer]
    split <;> exact h
  | loadBreaker d =>
    simp only [answer]
    split <;> exact h
  | swapBreaker d e n =>
    simp only [answer, seeded]
    split <;> split <;> exact h
  | _ => exact h

theorem InOrder.answer (h : db.InOrder s) (hq : q.Configured s) (hd : q.Dated) :
    (db.answer q).2.InOrder s := by
  refine ⟨h.stops.answer ?_, legible_answer h.workers hd.written, h.ceilings.answer hq⟩
  rintro o rfl
  exact Instant.ofMillis?_millis_of_nanos_lt hd

/-- Old workers are told apart by columns, and all that are found can be read. -/
theorem InOrder.answer_stale (h : db.InOrder s) (t : Instant) (role : Option String) :
    ∃ ws, db.answer (.stale t role) = (.ok ws, db) := by
  have hrows : ∀ e ∈ ((db.workers.entries.filter fun e => e.2.isActive &&
      decide (e.2.createdAt < t.millis) && role.all (e.2.role == ·)).mergeSort fun a b =>
        a.2.createdAt ≤ b.2.createdAt), ∃ w, e.2.read e.1 = .ok w := by
    intro e he
    have hmem := (List.mem_filter.1 (List.mem_mergeSort.1 he)).1
    exact (h.workers e.1 e.2 (Keyed.find?_eq_some_iff.2 hmem)).read e.1
  obtain ⟨ws, hws⟩ := exists_mapM_eq_ok hrows
  exact ⟨ws, Prod.ext hws rfl⟩

end Database
end Registry
end WorkerGuard
