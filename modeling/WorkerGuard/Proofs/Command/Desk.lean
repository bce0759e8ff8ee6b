import WorkerGuard.Proofs.Command.Process
import WorkerGuard.Proofs.Registry.Alive

/-!
# WorkerGuard.Proofs.Command.Desk

What becomes of a database that is in order when a program works on it.

* `Ended`: some workers have been ended, each of which was alive, and nothing else has happened.
* `Lifecycle.desk_sweep`, `Lifecycle.desk_pruneRole`: a prune lists those that it has ended.
* `Spawn.desk_request`: a request for a worker inserts it, or changes nothing.
* `Spawn.desk_request_of_held`: it is refused if the dependency is held open.
* `Watch.desk_trip`, `Watch.desk_reset`: the stop is there, or it is not.
-/

namespace WorkerGuard

open Program Registry Simulation

variable {α : Type} {s : Settings} {h h' : Desk} {l : List Exchange}

/-- Programs that only look leave the registry as it is. -/
theorem Program.Trail.db_eq {x : Program α} {r : Except Halt α} (hr : Trail AtDesk x h l r h')
    (hx : x.Asks Call.Looks) : h'.db = h.db := by
  refine hr.invariant (I := fun desk => desk.db = h.db) hx (fun h₁ q a h₂ hq hI ha => ?_) rfl
  rw [← hI]
  cases q with
  | registry q =>
    have hdb : h₂.db = (h₁.db.answer q).2 := (congrArg Prod.snd ha.1).symm
    rw [hdb]
    cases q with
    | get id =>
      simp only [Database.answer]
      split <;> rfl
    | loadBreaker d =>
      simp only [Database.answer]
      split <;> rfl
    | insert => exact hq.elim
    | heartbeat => exact hq.elim
    | terminate => exact hq.elim
    | degrade => exact hq.elim
    | setOverride => exact hq.elim
    | clearOverride => exact hq.elim
    | swapBreaker => exact hq.elim
    | _ => rfl
  | now => rw [ha.1]
  | forced d => rw [ha.1]
  | setForced d b => exact ha
  | _ => exact congrArg Desk.db ha

/-- These workers were alive and have been ended, and nothing else has happened. -/
structure Ended (s : Settings) (ids : List WorkerId) (db db' : Database) : Prop where
  alive : ∀ id, db'.Alive id ↔ db.Alive id ∧ id ∉ ids
  found : ∀ id ∈ ids, db.Alive id
  nodup : ids.Nodup
  registered : ∀ id, (Store.database db).Registered id → (Store.database db').Registered id
  stops : (Store.database db').stops = (Store.database db).stops
  inOrder : db'.InOrder s

namespace Ended

variable {ids ids' : List WorkerId} {db db' db'' : Database}

theorem refl (hi : db.InOrder s) : Ended s [] db db :=
  ⟨by simp, by simp, .nil, fun _ => id, rfl, hi⟩

theorem trans (h₁ : Ended s ids db db') (h₂ : Ended s ids' db' db'') :
    Ended s (ids ++ ids') db db'' where
  alive id := by rw [h₂.alive, h₁.alive, List.mem_append, not_or, and_assoc]
  found id hid := by
    obtain hid | hid := List.mem_append.1 hid
    · exact h₁.found id hid
    · exact ((h₁.alive id).1 (h₂.found id hid)).1
  nodup := by
    refine List.nodup_append.2 ⟨h₁.nodup, h₂.nodup, ?_⟩
    rintro id hid _ hid' rfl
    exact ((h₁.alive id).1 (h₂.found id hid')).2 hid
  registered id := h₂.registered id ∘ h₁.registered id
  stops := h₂.stops.trans h₁.stops
  inOrder := h₂.inOrder

/-- A request to end a worker tells whether it was alive. -/
theorem of_terminate (hi : db.InOrder s) (id : WorkerId) :
    ∃ b, (db.answer (.terminate id)).1 = .ok b ∧
      Ended s (if b then [id] else []) db (db.answer (.terminate id)).2 := by
  obtain ⟨b, hb, hiff⟩ := db.answer_terminate id
  refine ⟨b, hb, ?_, ?_, ?_, ?_, ?_, hi.answer trivial trivial⟩
  · intro k
    rw [Database.alive_terminate]
    cases b with
    | true => simp
    | false =>
      have hdead : ¬db.Alive id := fun h => Bool.false_ne_true (hiff.2 h)
      simp only [Bool.false_eq_true, if_false, List.not_mem_nil, not_false_eq_true, and_true,
        and_iff_left_iff_imp]
      rintro hk rfl
      exact hdead hk
  · cases b with
    | true => simpa using hiff.1 rfl
    | false => simp
  · cases b <;> simp
  · exact fun k hk => hk.answer (.terminate id)
  · exact Store.stops_answer (.database db) rfl

end Ended

namespace Lifecycle

variable {done : Sweep} {r : Except Halt (Except Registry.Error Sweep)}

/-- What a pass says when it has ended these workers, too. -/
def Says (ids : List WorkerId) (done : Sweep) (r : Except Halt (Except Registry.Error Sweep)) :
    Prop :=
  ∃ n, r = .ok (.ok ⟨done.terminated ++ ids, n⟩)

theorem desk_terminateAll {ws : List Worker} (hi : h.db.InOrder s)
    (hr : Trail AtDesk (terminateAll ws done) h l r h') :
    ∃ ids, Says ids done r ∧ Ended s ids h.db h'.db := by
  induction ws generalizing done h l with
  | nil =>
    obtain ⟨_, rfl, rfl⟩ := trail_pure hr
    exact ⟨[], ⟨done.skipped, by rw [List.append_nil]⟩, .refl hi⟩
  | cons w ws ih =>
    obtain ⟨a, h₁, l₁, rfl, ⟨ha, _⟩, hr⟩ := trail_call_bind hr
    obtain ⟨b, hb, hended⟩ := Ended.of_terminate hi w.id
    rw [ha] at hb hended
    subst hb
    cases b with
    | true =>
      obtain ⟨ids, ⟨n, rfl⟩, hrest⟩ := ih hended.inOrder hr
      exact ⟨w.id :: ids, ⟨n, by simp [Sweep.merge]⟩, hended.trans hrest⟩
    | false =>
      obtain ⟨ids, ⟨n, rfl⟩, hrest⟩ := ih hended.inOrder hr
      exact ⟨ids, ⟨n, by simp [Sweep.merge]⟩, hended.trans hrest⟩

theorem desk_stale {maxAge : Duration} {role : Option String}
    {r : Except Halt (Except Registry.Error (List Worker))} (hi : h.db.InOrder s)
    (hr : Trail AtDesk (stale maxAge role) h l r h') :
    ∃ ws, r = .ok (.ok ws) ∧ h'.db = h.db := by
  obtain ⟨t, _, l₁, rfl, ⟨rfl, _⟩, hask⟩ := trail_call_bind hr
  obtain ⟨a, _, rfl, ha, _⟩ := trail_call hask
  obtain ⟨ws, hws⟩ := hi.answer_stale (t.before maxAge) role
  obtain ⟨rfl, hdb⟩ := Prod.mk.inj (hws.symm.trans ha)
  exact ⟨ws, rfl, hdb.symm⟩

theorem desk_pruneRole {maxAge : Duration} {role : Option String} (hi : h.db.InOrder s)
    (hr : Trail AtDesk (pruneRole maxAge role done) h l r h') :
    ∃ ids, Says ids done r ∧ Ended s ids h.db h'.db := by
  obtain ⟨a, h₁, l₁, ⟨ws, hws, hdb⟩, hr⟩ :=
    trail_bind_of_ends (fun hstale => desk_stale hi hstale) (by simp) hr
  cases hws
  rw [← hdb] at hi ⊢
  exact desk_terminateAll hi hr

theorem desk_pruneRoles {roles : List Role} (hi : h.db.InOrder s)
    (hr : Trail AtDesk (pruneRoles roles done) h l r h') :
    ∃ ids, Says ids done r ∧ Ended s ids h.db h'.db := by
  induction roles generalizing done h l with
  | nil =>
    obtain ⟨_, rfl, rfl⟩ := trail_pure hr
    exact ⟨[], ⟨done.skipped, by rw [List.append_nil]⟩, .refl hi⟩
  | cons role roles ih =>
    obtain ⟨a, h₁, l₁, ⟨ids, ⟨n, hn⟩, hended⟩, hr⟩ :=
      trail_bind_of_ends (fun hrole => desk_pruneRole hi hrole) (by simp [Says]) hr
    cases hn
    obtain ⟨ids', ⟨n', rfl⟩, hrest⟩ := ih hended.inOrder hr
    exact ⟨ids ++ ids', ⟨n', by simp⟩, hended.trans hrest⟩

theorem desk_sweep {conf : Settings} (hi : h.db.InOrder s)
    (hr : Trail AtDesk (sweep conf) h l r h') :
    ∃ ids, Says ids .empty r ∧ Ended s ids h.db h'.db := by
  obtain ⟨a, h₁, l₁, ⟨ids, ⟨n, hn⟩, hended⟩, hr⟩ :=
    trail_bind_of_ends (fun hroles => desk_pruneRoles hi hroles) (by simp [Says]) hr
  cases hn
  obtain ⟨a, h₂, l₂, ⟨ws, hws, hdb⟩, hr⟩ :=
    trail_bind_of_ends (fun hstale => desk_stale hended.inOrder hstale) (by simp) hr
  cases hws
  obtain ⟨ids', ⟨n', rfl⟩, hrest⟩ := desk_terminateAll (hdb ▸ hended.inOrder) hr
  exact ⟨ids ++ ids', ⟨n', by simp⟩, hended.trans (hdb ▸ hrest)⟩

end Lifecycle

namespace Spawn

variable {q : Request} {r : Except Halt (Except Registry.Error Decision)}

/-- What a request for a worker does to the registry. -/
inductive Decided (s : Settings) (db db' : Database) :
    Except Halt (Except Registry.Error Decision) → Prop where
  | refused {r : Except Halt (Except Registry.Error Decision)} (hdb : db' = db)
      (hr : ∀ w, r ≠ .ok (.ok (.granted w))) : Decided s db db' r
  | granted {x : Recruit} {c : Ceilings} {w : Worker}
      (hconf : (Registry.Request.insert x c).Configured s)
      (hdated : (Registry.Request.insert x c).Dated)
      (ha : db.answer (.insert x c) = (.ok (some w), db')) :
      Decided s db db' (.ok (.ok (.granted w)))

theorem desk_enroll {role : Role} {id : WorkerId} {p : Place}
    (hrole : s.roleNamed q.role = some role) (hr : Trail AtDesk (enroll s role id q p) h l r h') :
    Decided s h.db h'.db r := by
  unfold enroll at hr
  split at hr
  · obtain ⟨_, rfl, rfl⟩ := trail_pure hr
    exact .refused rfl (by simp)
  · obtain ⟨now, _, l₁, rfl, ⟨rfl, hnow⟩, hinsert⟩ := trail_call_bind hr
    obtain ⟨a, h₂, l₂, rfl, ⟨ha, _⟩, hr⟩ := trail_call_bind hinsert
    split at hr
    · obtain ⟨_, rfl, rfl⟩ := trail_pure hr
      refine .refused ?_ (by simp)
      exact (congrArg Prod.snd ha).symm.trans (Database.insert_refused (by simp [ha]))
    · obtain ⟨_, rfl, rfl⟩ := trail_pure hr
      refine .granted ⟨role, ?_, rfl⟩ ?_ ha
      · rw [← Settings.name_of_roleNamed hrole] at hrole
        exact hrole
      · exact hnow
    · obtain ⟨_, rfl, rfl⟩ := trail_pure hr
      refine .refused ?_ (by simp)
      exact (congrArg Prod.snd ha).symm.trans (Database.insert_refused (by simp [ha]))

theorem desk_request (hr : Trail AtDesk (request s q) h l r h') : Decided s h.db h'.db r := by
  unfold request at hr
  split at hr
  · obtain ⟨_, rfl, rfl⟩ := trail_pure hr
    exact .refused rfl (by simp)
  · rename_i role hrole
    obtain ⟨circuit, h₁, l₁, l₂, rfl, hstate, hr⟩ | ⟨why, rfl, hstate⟩ := trail_bind hr
    · have hdb₁ := hstate.db_eq (Breaker.Board.looks_state _ _)
      split at hr
      · obtain ⟨_, rfl, rfl⟩ := trail_pure hr
        exact .refused hdb₁ (by simp)
      · obtain ⟨id, _, l₃, rfl, rfl, hplacing⟩ := trail_call_bind hr
        obtain ⟨found, h₃, l₄, l₅, rfl, hplace, hr⟩ | ⟨why, rfl, hplace⟩ := trail_bind hplacing
        · have hdb₃ := (hplace.db_eq (looks_place _ _)).trans hdb₁
          rw [← hdb₃]
          split at hr
          · obtain ⟨_, rfl, rfl⟩ := trail_pure hr
            exact .refused rfl (by simp)
          · obtain ⟨_, rfl, rfl⟩ := trail_pure hr
            exact .refused rfl (by simp)
          · exact desk_enroll hrole hr
        · exact .refused ((hplace.db_eq (looks_place _ _)).trans hdb₁) (by simp)
    · exact .refused (hstate.db_eq (Breaker.Board.looks_state _ _)) (by simp)

/-- Nothing but the role is looked at before. -/
theorem desk_request_of_held (hheld : h.held q.dependency = true)
    (hr : Trail AtDesk (request s q) h l r h') :
    s.roleNamed q.role = none ∧ r = .ok (.ok (.refused (.unknownRole q.role))) ∨
      r = .ok (.ok (.refused (.circuitOpen q.dependency .opened))) := by
  unfold request at hr
  split at hr
  · rename_i hrole
    obtain ⟨_, rfl, _⟩ := trail_pure hr
    exact .inl ⟨hrole, rfl⟩
  · right
    obtain ⟨_, _, l₁, rfl, rfl, hforced⟩ := trail_ask hr
    obtain ⟨forced, _, l₂, rfl, ⟨rfl, hf⟩, hrest⟩ := trail_ask hforced
    obtain rfl : forced = true := hf.trans hheld
    exact (trail_pure hrest).2.1

end Spawn

namespace Watch

/-- A dependency is stopped, and nothing else has happened. -/
theorem desk_trip {conf : Settings} {d : Dependency} {reason : Option String}
    {r : Except Halt (Except Registry.Error Unit)}
    (hr : Trail AtDesk (trip conf d reason) h l r h') :
    ∃ o : Override, r = .ok (.ok ()) ∧ o.dependency = d ∧ (Request.setOverride o).Dated ∧
      h'.db = (h.db.answer (.setOverride o)).2 := by
  obtain ⟨now, _, l₁, rfl, ⟨rfl, hnow⟩, hset⟩ := trail_call_bind hr
  obtain ⟨a, h₂, l₂, rfl, ⟨ha, _⟩, hrest⟩ := trail_call_bind hset
  obtain ⟨rfl, hdb⟩ := Prod.mk.inj ha
  obtain ⟨_, h₃, l₃, rfl, rfl, hforce⟩ := trail_ask hrest
  obtain ⟨_, h₄, l₄, rfl, hdb', hdone⟩ := trail_ask hforce
  obtain ⟨_, rfl, rfl⟩ := trail_pure hdone
  exact ⟨⟨d, reason, now⟩, rfl, rfl, hnow, hdb'.trans hdb.symm⟩

theorem desk_reset {conf : Settings} {d : Dependency} {r : Except Halt (Except Registry.Error Bool)}
    (hr : Trail AtDesk (reset conf d) h l r h') :
    ∃ b, r = .ok (.ok b) ∧ h'.db = (h.db.answer (.clearOverride d)).2 := by
  obtain ⟨a, h₂, l₂, rfl, ⟨ha, _⟩, hrest⟩ := trail_call_bind hr
  obtain ⟨rfl, hdb⟩ := Prod.mk.inj ha
  obtain ⟨_, h₃, l₃, rfl, rfl, hclear⟩ := trail_ask hrest
  obtain ⟨_, h₄, l₄, rfl, hdb', hdone⟩ := trail_ask hclear
  obtain ⟨_, rfl, rfl⟩ := trail_pure hdone
  exact ⟨_, rfl, hdb'.trans hdb.symm⟩

end Watch

theorem Lifecycle.desk_heartbeat {id : WorkerId} {r : Except Halt (Except Registry.Error Bool)}
    (hr : Trail AtDesk (heartbeat id) h l r h') :
    ∃ t, t.nanos < 1_000_000_000 ∧ r = .ok (h.db.answer (.heartbeat id t)).1 ∧
      h'.db = (h.db.answer (.heartbeat id t)).2 := by
  obtain ⟨now, _, l₁, rfl, ⟨rfl, hnow⟩, hask⟩ := trail_call_bind hr
  obtain ⟨a, _, rfl, ha, _⟩ := trail_call hask
  exact ⟨now, hnow, by rw [ha], by rw [ha]⟩

end WorkerGuard
