import WorkerGuard.Proofs.Registry.Alive
import WorkerGuard.Proofs.Time.Age

/-!
# WorkerGuard.Proofs.Registry.Enrolled

Workers in a database that is known by the requests it has answered.

* `WorkerRow.Follows`: what may become of the row of a worker. `Database.follows_after`.
* `Database.Enrolled qs x`: among the requests `qs` to a new database, the one that registers `x`
  has succeeded. `Enrolled.row`: so there is a row of `x`, with the milliseconds of its true
  creation. `Enrolled.earlier`: who is known at some time and enrolled at last was enrolled then.
* `Database.Ended`: a worker is on record and no longer active. That is so for good.
* `Enrolled.old_of_listed`, `Enrolled.listed_or_ended`: who is on a list of old workers, by the
  milliseconds of the true creation.
-/

namespace WorkerGuard

open Registry Simulation

namespace Registry

/-- The row of a worker stays the row of the same worker, and closing it is for good. -/
structure WorkerRow.Follows (r r' : WorkerRow) : Prop where
  role : r'.role = r.role
  createdAt : r'.createdAt = r.createdAt
  closed : r.isActive = false → r'.isActive = false

namespace WorkerRow.Follows

theorem refl (r : WorkerRow) : r.Follows r := ⟨rfl, rfl, id⟩

theorem trans {r₁ r₂ r₃ : WorkerRow} (h₁ : r₁.Follows r₂) (h₂ : r₂.Follows r₃) : r₁.Follows r₃ :=
  ⟨h₂.role.trans h₁.role, h₂.createdAt.trans h₁.createdAt, fun h => h₂.closed (h₁.closed h)⟩

end WorkerRow.Follows

namespace Database

variable {db : Database} {k : String} {r : WorkerRow} {qs : List Request} {x : Recruit}

theorem follows_updateActive {id : WorkerId} {f : WorkerRow → WorkerRow}
    (hf : ∀ r : WorkerRow, r.Follows (f r)) (h : db.workers.find? k = some r) :
    ∃ r', (db.updateActive id f).2.workers.find? k = some r' ∧ r.Follows r' := by
  obtain hkept | ⟨_, _, hfound, _, hnew⟩ := db.find?_updateActive id f k
  · exact ⟨r, hkept.trans h, .refl r⟩
  · rw [h] at hfound
    cases hfound
    exact ⟨_, hnew, hf r⟩

theorem follows_answer (h : db.workers.find? k = some r) (q : Request) :
    ∃ r', (db.answer q).2.workers.find? k = some r' ∧ r.Follows r' := by
  have hsame : ∀ {db' : Database}, db'.workers = db.workers →
      ∃ r', db'.workers.find? k = some r' ∧ r.Follows r' :=
    fun heq => ⟨r, by rw [heq, h], .refl r⟩
  cases q with
  | insert x c =>
    obtain hkept | ⟨_, hnone, _⟩ := db.find?_insertion x c k
    · exact ⟨r, hkept.trans h, .refl r⟩
    · rw [h] at hnone
      cases hnone
  | heartbeat w t => exact follows_updateActive (fun r => ⟨rfl, rfl, id⟩) h
  | terminate w => exact follows_updateActive (fun r => ⟨rfl, rfl, fun _ => rfl⟩) h
  | degrade w => exact follows_updateActive (fun r => ⟨rfl, rfl, fun _ => rfl⟩) h
  | get id =>
    simp only [answer]
    split <;> exact hsame rfl
  | loadBreaker d =>
    simp only [answer]
    split <;> exact hsame rfl
  | swapBreaker d e n =>
    simp only [answer, seeded]
    split <;> split <;> exact hsame rfl
  | _ => exact hsame rfl

theorem follows_after (h : db.workers.find? k = some r) (qs : List Request) :
    ∃ r', (db.after qs).workers.find? k = some r' ∧ r.Follows r' := by
  induction qs generalizing db r with
  | nil => exact ⟨r, h, .refl r⟩
  | cons q qs ih =>
    obtain ⟨r₁, h₁, hfirst⟩ := follows_answer h q
    obtain ⟨r', h', hrest⟩ := ih h₁
    exact ⟨r', h', hfirst.trans hrest⟩

theorem after_append (db : Database) (qs rs : List Request) :
    db.after (qs ++ rs) = (db.after qs).after rs := List.foldl_append

def Enrolled (qs : List Request) (x : Recruit) : Prop :=
  ∃ before c later, qs = before ++ .insert x c :: later ∧
    ((empty.after before).answer (.insert x c)).1 = .ok (some x.enrolled)

theorem row_of_insert {c : Ceilings} (h : (db.answer (.insert x c)).1 = .ok (some x.enrolled)) :
    db.workers.find? x.id.text = none ∧
      (db.answer (.insert x c)).2.workers.find? x.id.text = some (.ofRecruit x) := by
  simp only [answer] at h ⊢
  split at h
  case isTrue hroom =>
    split at h
    case isTrue => cases h
    case isFalse hnew =>
      rw [if_pos hroom, if_neg hnew]
      exact ⟨by simpa [Keyed.contains] using hnew, by simp⟩
  case isFalse => cases h

namespace Enrolled

theorem append (h : Enrolled qs x) (rs : List Request) : Enrolled (qs ++ rs) x := by
  obtain ⟨before, c, later, rfl, hnew⟩ := h
  exact ⟨before, c, later ++ rs, by simp, hnew⟩

theorem row (h : Enrolled qs x) :
    ∃ r, (empty.after qs).workers.find? x.id.text = some r ∧ (WorkerRow.ofRecruit x).Follows r := by
  obtain ⟨before, c, later, rfl, hnew⟩ := h
  rw [after_append]
  exact follows_after (row_of_insert hnew).2 later

/-- A worker that is known cannot be registered later on. -/
theorem earlier {rs : List Request} (h : Enrolled (qs ++ rs) x)
    (hknown : (empty.after qs).workers.find? x.id.text = some r) : Enrolled qs x := by
  obtain ⟨before, c, later, heq, hnew⟩ := h
  obtain ⟨common, rfl, -⟩ | ⟨common, rfl, hrest⟩ := List.append_eq_append_iff.1 heq
  · obtain ⟨r', hr', -⟩ := follows_after hknown common
    rw [← after_append, (row_of_insert hnew).1] at hr'
    cases hr'
  · obtain ⟨rfl, -⟩ | ⟨later', rfl, -⟩ := List.cons_eq_append_iff.1 hrest
    · rw [List.append_nil, (row_of_insert hnew).1] at hknown
      cases hknown
    · exact ⟨before, c, later', rfl, hnew⟩

end Enrolled

def Ended (qs : List Request) (id : WorkerId) : Prop :=
  ∃ r, (empty.after qs).workers.find? id.text = some r ∧ r.isActive = false

theorem Ended.append {id : WorkerId} (h : Ended qs id) (rs : List Request) :
    Ended (qs ++ rs) id := by
  obtain ⟨r, hr, hclosed⟩ := h
  obtain ⟨r', hr', hfollows⟩ := follows_after hr rs
  exact ⟨r', by rw [after_append, hr'], hfollows.closed hclosed⟩

theorem Ended.not_alive {id : WorkerId} (h : Ended qs id) : ¬(empty.after qs).Alive id := by
  rintro ⟨r, hr, hactive⟩
  obtain ⟨r', hr', hclosed⟩ := h
  rw [hr] at hr'
  cases hr'
  rw [hactive] at hclosed
  cases hclosed

/-- Whoever is known is at an end after the request to end it. -/
theorem ended_terminate {id : WorkerId} (h : (empty.after qs).workers.find? id.text = some r) :
    Ended (qs ++ [.terminate id]) id := by
  obtain ⟨r', hr', -⟩ := follows_answer h (.terminate id)
  rw [Ended, after_concat]
  refine ⟨r', hr', ?_⟩
  rw [Bool.eq_false_iff]
  intro hactive
  exact (alive_terminate.1 ⟨r', hr', hactive⟩).2 rfl

theorem legible_after (h : ∀ q ∈ qs, q.Written) :
    (empty.after qs).workers.Each fun _ r => r.Legible := by
  have hrun : ∀ {db : Database}, (db.workers.Each fun _ r => r.Legible) →
      (db.after qs).workers.Each fun _ r => r.Legible := by
    induction qs with
    | nil => exact id
    | cons q qs ih =>
      rw [List.forall_mem_cons] at h
      exact fun hdb => ih h.2 (legible_answer hdb h.1)
  exact hrun Keyed.each_empty

section Lists

variable {t : Instant} {role : Option String} {ws : List Worker} {a : Except Error (List Worker)}

theorem exists_list_of_permits (h : db.workers.Each fun _ r => r.Legible)
    (ha : db.Permits (.stale t role) a) : ∃ ws, a = .ok ws := by
  obtain ⟨es, hperm, -, rfl⟩ := ha
  refine exists_mapM_eq_ok fun e he => ?_
  have hmem := (List.mem_filter.1 (hperm.mem_iff.1 he)).1
  exact (h e.1 e.2 (Keyed.find?_eq_some_iff.2 hmem)).read e.1

/-- Who is on a list of old workers has a row that says so. -/
theorem exists_row_of_permits (ha : db.Permits (.stale t role) (.ok ws)) {w : Worker}
    (hw : w ∈ ws) :
    ∃ r, db.workers.find? w.id.text = some r ∧ r.createdAt < t.millis ∧
      role.all (r.role == ·) = true ∧ w.role = r.role := by
  obtain ⟨es, hperm, -, heq⟩ := ha
  obtain ⟨e, he, hread⟩ := (mem_of_mapM heq.symm).1 w hw
  obtain ⟨hmem, hpicked⟩ := List.mem_filter.1 (hperm.mem_iff.1 he)
  obtain ⟨_, _, _, rfl⟩ := WorkerRow.eq_of_read hread
  simp only [Bool.and_eq_true, decide_eq_true_eq] at hpicked
  exact ⟨e.2, Keyed.find?_eq_some_iff.2 hmem, hpicked.1.2, hpicked.2, rfl⟩

/-- Whose row says that it is active and old is on the list. -/
theorem listed_of_permits (ha : db.Permits (.stale t role) (.ok ws)) {id : WorkerId}
    (hr : db.workers.find? id.text = some r) (hactive : r.isActive = true)
    (hold : r.createdAt < t.millis) (hrole : role.all (r.role == ·) = true) :
    ∃ w ∈ ws, w.id = id ∧ w.role = r.role := by
  obtain ⟨es, hperm, -, heq⟩ := ha
  have he : (id.text, r) ∈ es := by
    refine hperm.mem_iff.2 (List.mem_filter.2 ⟨Keyed.find?_eq_some_iff.1 hr, ?_⟩)
    simp [hactive, hold, hrole]
  obtain ⟨w, hw, hread⟩ := (mem_of_mapM heq.symm).2 _ he
  obtain ⟨_, _, _, rfl⟩ := WorkerRow.eq_of_read hread
  exact ⟨_, hw, rfl, rfl⟩

namespace Enrolled

/-- A list of old workers holds nobody who was created later, to the millisecond. -/
theorem old_of_listed (h : Enrolled qs x) (ha : (empty.after qs).Permits (.stale t role) (.ok ws))
    {w : Worker} (hw : w ∈ ws) (hid : w.id = x.id) :
    x.createdAt.millis < t.millis ∧ role.all (x.role == ·) = true ∧ w.role = x.role := by
  obtain ⟨r, hr, hfollows⟩ := h.row
  obtain ⟨r', hr', hold, hrole, hsame⟩ := exists_row_of_permits ha hw
  rw [hid, hr] at hr'
  cases hr'
  rw [hfollows.createdAt] at hold
  rw [hfollows.role] at hrole hsame
  exact ⟨hold, hrole, hsame⟩

/-- Who was created earlier, to the millisecond, is listed or has ended. -/
theorem listed_or_ended (h : Enrolled qs x) (ha : (empty.after qs).Permits (.stale t role) (.ok ws))
    (hrole : role.all (x.role == ·) = true) (hold : x.createdAt.millis < t.millis) :
    (∃ w ∈ ws, w.id = x.id ∧ w.role = x.role) ∨ Ended qs x.id := by
  obtain ⟨r, hr, hfollows⟩ := h.row
  cases hactive : r.isActive with
  | false => exact .inr ⟨r, hr, hactive⟩
  | true =>
    have hsame : r.role = x.role := hfollows.role
    have hcreated : r.createdAt = x.createdAt.millis := hfollows.createdAt
    rw [← hsame] at hrole ⊢
    rw [← hcreated] at hold
    exact .inl (listed_of_permits ha hr hactive hold hrole)

end Enrolled
end Lists
end Database
end Registry
end WorkerGuard
