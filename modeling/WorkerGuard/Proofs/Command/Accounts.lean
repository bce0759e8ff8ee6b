import WorkerGuard.Proofs.Command.Desk

/-!
# WorkerGuard.Proofs.Command.Accounts

What one command does to a database, told by what is seen of it.

* `Command.Entry`: a command with what was seen of it: the worker that it hired, the workers that it
  ended, what it tripped or reset.
* `Command.Accounts`: this accounts for all that has become of the workers and of the stops.
* `Command.accounts_of_trail`: so it is with every command but those that prepare a project or watch
  it.
* `Command.heartbeat_of_trail`, `Command.spawn_of_held`, …: what is seen of a command by what it
  found.
-/

namespace WorkerGuard

open Program Registry Simulation

namespace Command

/-- A command, and what was seen of it. -/
structure Entry where
  command : Command
  run : Run

namespace Entry

/-- A new worker is told its name. -/
def Prints (e : Entry) (id : String) : Prop :=
  match e.command with
  | .spawn .. => id ∈ e.run.lines
  | _ => False

/-- How often it says that it has ended a worker. -/
def ends (e : Entry) (id : String) : Nat :=
  match e.command with
  | .terminate x => if x = id then e.run.lines.count ("Terminated " ++ id) else 0
  | .prune _ => e.run.lines.count ("Pruned " ++ id)
  | _ => 0

def Trips (e : Entry) (d : String) : Prop :=
  e.run.code = 0 ∧ ∃ reason, e.command = .trip d reason

def Resets (e : Entry) (d : String) : Prop := e.run.code = 0 ∧ e.command = .reset d

/-- Trips and resets. -/
def Switches (e : Entry) : Prop :=
  (∃ d reason, e.command = .trip d reason) ∨ ∃ d, e.command = .reset d

variable {run : Run} {id x : String} {maxAge : Option UInt64}

theorem ends_terminate : ends ⟨terminate x, run⟩ id =
    if x = id then run.lines.count ("Terminated " ++ id) else 0 := rfl

theorem ends_prune : ends ⟨prune maxAge, run⟩ id = run.lines.count ("Pruned " ++ id) := rfl

variable {e : Entry} {d : String}

theorem not_trips (h : e.Switches → e.run.code ≠ 0) : ¬e.Trips d :=
  fun ⟨hcode, reason, htrip⟩ => h (.inl ⟨d, reason, htrip⟩) hcode

theorem not_resets (h : e.Switches → e.run.code ≠ 0) : ¬e.Resets d :=
  fun ⟨hcode, hreset⟩ => h (.inr ⟨d, hreset⟩) hcode

end Entry

/-- Commands that work on a project as it is, and come to an end. -/
def Routine : Command → Prop
  | .init _ => False
  | .daemon => False
  | _ => True

/-- What was seen of a command accounts for what has become of the database. -/
structure Accounts (s : Settings) (e : Entry) (db db' : Database) : Prop where
  alive : ∀ id, db'.Alive ⟨id⟩ ↔ e.Prints id ∨ db.Alive ⟨id⟩ ∧ e.ends id = 0
  new : ∀ id, e.Prints id → ¬(Store.database db).Registered ⟨id⟩
  found : ∀ id, e.ends id = 0 ∨ e.ends id = 1 ∧ db.Alive ⟨id⟩
  registered : ∀ id, (Store.database db).Registered id → (Store.database db').Registered id
  stops : ∀ d, (⟨d⟩ ∈ (Store.database db').stops) ↔
    e.Trips d ∨ (⟨d⟩ ∈ (Store.database db).stops) ∧ ¬e.Resets d
  inOrder : db'.InOrder s

variable {s : Settings} {e : Entry} {c : Command} {db db' : Database} {h h' : Desk}
variable {l : List Exchange} {α β : Type}

/-- These workers are said to have been ended, nothing else is said, and so it is. -/
theorem accounts_of_ended (ids : List WorkerId) (hprints : ∀ id, ¬e.Prints id)
    (hends : ∀ id, e.ends id = if (⟨id⟩ ∈ ids) then 1 else 0)
    (hswitches : e.Switches → e.run.code ≠ 0) (h : Ended s ids db db') : Accounts s e db db' where
  alive id := by simp [hprints id, hends id, h.alive]
  new id hid := absurd hid (hprints id)
  found id := by
    rw [hends id]
    split
    · rename_i hid
      exact .inr ⟨rfl, h.found _ hid⟩
    · exact .inl rfl
  registered := h.registered
  stops d := by simp [Entry.not_trips hswitches, Entry.not_resets hswitches, h.stops]
  inOrder := h.inOrder

/-- Only the stops are others. -/
theorem accounts_of_switch (hprints : ∀ id, ¬e.Prints id) (hends : ∀ id, e.ends id = 0)
    (hworkers : db'.workers = db.workers)
    (hstops : ∀ d, (⟨d⟩ ∈ (Store.database db').stops) ↔
      e.Trips d ∨ (⟨d⟩ ∈ (Store.database db).stops) ∧ ¬e.Resets d)
    (hi : db'.InOrder s) : Accounts s e db db' where
  alive id := by simp [hprints id, hends id, Database.Alive, hworkers]
  new id hid := absurd hid (hprints id)
  found id := .inl (hends id)
  registered id hid := by
    unfold Store.Registered at hid ⊢
    simpa [hworkers] using hid
  stops := hstops
  inOrder := hi

@[simp] theorem Run.lines_ofEnd (a : Except Abort Unit) (lines : List String) :
    (Run.ofEnd (.ok (a, lines))).lines = lines := by
  cases a with
  | ok => rfl
  | error why => cases why <;> rfl

theorem Run.code_ofFailure {lines : List String} {f : Failure} :
    (Run.ofFailure lines f).code ≠ 0 := by
  show (1 : UInt32) ≠ 0
  decide

/-- A worker that was not active is not taken for one that was. -/
theorem inactive_ne (id : String) : id ++ " was not active" ≠ "Terminated " ++ id := by
  intro heq
  have hlength := congrArg String.length heq
  rw [String.length_append, String.length_append] at hlength
  have hleft : " was not active".length = 15 := rfl
  have hright : "Terminated ".length = 11 := rfl
  omega

/-- Nor is the summary of a prune, which begins with a number. -/
theorem summary_ne (n : Nat) (rest id : String) : toString n ++ rest ≠ "Pruned " ++ id := by
  intro heq
  have hlist := congrArg String.toList heq
  rw [String.toList_append, String.toList_append, Nat.toString_eq_repr,
    Nat.repr_eq_ofList_toDigits, String.toList_ofList] at hlist
  cases hdigits : Nat.toDigits 10 n with
  | nil => exact Nat.toDigits_ne_nil hdigits
  | cons c cs =>
    rw [hdigits] at hlist
    obtain ⟨rfl, _⟩ := List.cons.inj hlist
    have hdigit := Nat.isDigit_of_mem_toDigits (by decide) (by decide)
      (hdigits ▸ List.mem_cons_self : 'P' ∈ Nat.toDigits 10 n)
    exact absurd hdigit (by decide)

theorem count_pruned {ids : List WorkerId} (h : ids.Nodup) (k : String) :
    (ids.map fun id => "Pruned " ++ id.text).count ("Pruned " ++ k) =
      if (⟨k⟩ ∈ ids) then 1 else 0 := by
  have hinj : ∀ {a b : WorkerId}, "Pruned " ++ a.text = "Pruned " ++ b.text → a = b :=
    fun heq => WorkerId.eq_of_text ((String.append_right_inj _).1 heq)
  have hnodup : (ids.map fun id => "Pruned " ++ id.text).Nodup :=
    List.pairwise_map.2 (h.imp fun hne heq => hne (hinj heq))
  rw [hnodup.count]
  refine if_congr ⟨fun hk => ?_, fun hk => List.mem_map.2 ⟨_, hk, rfl⟩⟩ rfl rfl
  obtain ⟨id, hid, heq⟩ := List.mem_map.1 hk
  rw [← hinj (b := ⟨k⟩) heq]
  exact hid

section Shell

/-- What a command makes of what the registry has said. -/
def Shell.after (g : α → Except Abort β × List String) :
    Except Registry.Error α → Except Abort β × List String
  | .ok a => g a
  | .error e => (.error (.failure (.failed (.registry e))), [])

theorem Shell.trail_registry {prog : Program (Except Registry.Error α)} {f : α → Shell β}
    {g : α → Except Abort β × List String} {r : Except Halt (Except Abort β × List String)}
    (hf : ∀ a, (f a).run.run [] = pure (g a))
    (hr : Trail AtDesk ((registry prog >>= f).run.run []) h l r h') :
    ∃ r₀, Trail AtDesk prog h l r₀ h' ∧ r = r₀.map (after g) := by
  rw [run_registry_bind] at hr
  obtain ⟨a, h₁, l₁, l₂, rfl, hprog, hrest⟩ | ⟨why, rfl, hprog⟩ := trail_bind hr
  · have hpure : Trail AtDesk (pure (after g a)) h₁ l₂ r h' := by
      cases a with
      | ok a => exact (hf a) ▸ hrest
      | error e => exact hrest
    obtain ⟨rfl, rfl, rfl⟩ := trail_pure hpure
    exact ⟨.ok a, by rwa [List.append_nil], rfl⟩
  · exact ⟨.error why, hprog, rfl⟩

end Shell

variable {p : Project} {r : Except Halt (Except Abort Unit × List String)}

theorem heartbeat_of_trail {id : String}
    (hr : Trail AtDesk (((heartbeat id).perform p).run.run []) h l r h') :
    ∃ t, t.nanos < 1_000_000_000 ∧ h'.db = (h.db.answer (.heartbeat ⟨id⟩ t)).2 ∧
      ((Run.ofEnd r).code = 0 ↔ h.db.Alive ⟨id⟩) := by
  obtain ⟨r₀, hr₀, rfl⟩ := Shell.trail_registry
    (g := fun b => if b then (.ok (), []) else (.error (.failure (.inactive ⟨id⟩)), []))
    (fun b => by cases b <;> rfl) hr
  obtain ⟨t, ht, rfl, hdb⟩ := Lifecycle.desk_heartbeat hr₀
  obtain ⟨b, hb, hiff⟩ := h.db.answer_heartbeat ⟨id⟩ t
  refine ⟨t, ht, hdb, ?_⟩
  rw [hb, ← hiff]
  cases b with
  | true => exact iff_of_true rfl rfl
  | false => exact iff_of_false Run.code_ofFailure Bool.false_ne_true

theorem accounts_heartbeat {id : String} (hi : h.db.InOrder s)
    (hr : Trail AtDesk (((heartbeat id).perform p).run.run []) h l r h') :
    Accounts s ⟨heartbeat id, .ofEnd r⟩ h.db h'.db := by
  obtain ⟨t, ht, hdb, _⟩ := heartbeat_of_trail hr
  rw [hdb]
  refine accounts_of_ended [] (fun _ => nofun) (fun _ => rfl) (by simp [Entry.Switches]) ?_
  exact ⟨by simp [Database.alive_heartbeat], by simp, .nil, fun _ hk => hk.answer _,
    Store.stops_answer (.database h.db) rfl, hi.answer trivial ht⟩

theorem accounts_terminate {id : String} (hi : h.db.InOrder s)
    (hr : Trail AtDesk (((terminate id).perform p).run.run []) h l r h') :
    Accounts s ⟨terminate id, .ofEnd r⟩ h.db h'.db := by
  obtain ⟨r₀, hr₀, rfl⟩ := Shell.trail_registry
    (g := fun b => (.ok (), [if b then "Terminated " ++ id else id ++ " was not active"]))
    (fun b => by cases b <;> rfl) hr
  obtain ⟨a, rfl, rfl, ha, _⟩ := trail_call hr₀
  obtain ⟨b, hb, hended⟩ := Ended.of_terminate hi ⟨id⟩
  rw [ha] at hb hended
  subst hb
  refine accounts_of_ended _ (fun _ => nofun) (fun k => ?_) (by simp [Entry.Switches]) hended
  simp only [Except.map, Shell.after, Entry.ends_terminate, Run.lines_ofEnd]
  by_cases hk : id = k
  · subst hk
    cases b with
    | true => simp
    | false => simp [inactive_ne]
  · cases b <;> simp [hk, Ne.symm hk]

theorem accounts_prune {maxAge : Option UInt64} (hi : h.db.InOrder s)
    (hr : Trail AtDesk (((prune maxAge).perform p).run.run []) h l r h') :
    Accounts s ⟨prune maxAge, .ofEnd r⟩ h.db h'.db := by
  obtain ⟨r₀, hr₀, rfl⟩ := Shell.trail_registry
    (g := fun sweep => (.ok (), (sweep.terminated.map fun id => "Pruned " ++ id.text) ++
      [toString sweep.terminated.length ++ " worker(s) pruned, " ++ toString sweep.skipped ++
        " already inactive"]))
    (fun sweep => (Shell.run_forM_say_bind ..).trans rfl) hr
  have hpruned : ∃ ids, Lifecycle.Says ids .empty r₀ ∧ Ended s ids h.db h'.db := by
    cases maxAge with
    | none => exact Lifecycle.desk_sweep hi hr₀
    | some secs => exact Lifecycle.desk_pruneRole hi hr₀
  obtain ⟨ids, ⟨n, rfl⟩, hended⟩ := hpruned
  refine accounts_of_ended _ (fun _ => nofun) (fun k => ?_) (by simp [Entry.Switches]) hended
  simp only [Except.map, Shell.after, Entry.ends_prune, Run.lines_ofEnd, List.count_append]
  have hpruned := count_pruned hended.nodup k
  rw [Lifecycle.Sweep.empty, List.nil_append, hpruned, List.count_eq_zero.2 ?_, Nat.add_zero]
  rw [List.mem_singleton, String.append_assoc, String.append_assoc]
  exact fun heq => summary_ne _ _ _ heq.symm

theorem trip_of_trail {d : String} {reason : Option String}
    (hr : Trail AtDesk (((trip d reason).perform p).run.run []) h l r h') :
    (Run.ofEnd r).code = 0 ∧ ∃ o : Override, o.dependency = ⟨d⟩ ∧ (Request.setOverride o).Dated ∧
      h'.db = (h.db.answer (.setOverride o)).2 := by
  obtain ⟨r₀, hr₀, rfl⟩ := Shell.trail_registry (g := fun _ => (.ok (), [_])) (fun _ => rfl) hr
  obtain ⟨o, rfl, ho⟩ := Watch.desk_trip hr₀
  exact ⟨rfl, o, ho⟩

theorem accounts_trip {d : String} {reason : Option String} (hi : h.db.InOrder s)
    (hr : Trail AtDesk (((trip d reason).perform p).run.run []) h l r h') :
    Accounts s ⟨trip d reason, .ofEnd r⟩ h.db h'.db := by
  obtain ⟨hcode, o, ho, hdated, hdb⟩ := trip_of_trail hr
  rw [hdb]
  refine accounts_of_switch (fun _ => nofun) (fun _ => rfl) rfl (fun k => ?_)
    (hi.answer trivial hdated)
  rw [Database.mem_stops_setOverride, ho]
  simp [Entry.Trips, Entry.Resets, hcode, eq_comm]

theorem reset_of_trail {d : String}
    (hr : Trail AtDesk (((reset d).perform p).run.run []) h l r h') :
    (Run.ofEnd r).code = 0 ∧ h'.db = (h.db.answer (.clearOverride ⟨d⟩)).2 := by
  obtain ⟨r₀, hr₀, rfl⟩ := Shell.trail_registry (g := fun b => (.ok (), [if b then
      "Override on " ++ d ++ " lifted" else "No override on " ++ d]))
    (fun b => by cases b <;> rfl) hr
  obtain ⟨b, rfl, hdb⟩ := Watch.desk_reset hr₀
  exact ⟨rfl, hdb⟩

theorem accounts_reset {d : String} (hi : h.db.InOrder s)
    (hr : Trail AtDesk (((reset d).perform p).run.run []) h l r h') :
    Accounts s ⟨reset d, .ofEnd r⟩ h.db h'.db := by
  obtain ⟨hcode, hdb⟩ := reset_of_trail hr
  rw [hdb]
  refine accounts_of_switch (fun _ => nofun) (fun _ => rfl) rfl (fun k => ?_)
    (hi.answer trivial trivial)
  rw [Database.mem_stops_clearOverride]
  simp [Entry.Trips, Entry.Resets, hcode, eq_comm]

section Spawn

variable {role d : String} {parent : Option String}

/-- What is seen of a spawn. -/
def Run.ofDecision : Spawn.Decision → Except Abort Unit × List String
  | .granted w => (.ok (), [w.id.text])
  | .refused why => (.error (.failure (.refused why)), [])

theorem spawn_of_trail (hr : Trail AtDesk (((spawn role d parent).perform p).run.run []) h l r h') :
    ∃ r₀, Trail AtDesk (Spawn.request p.settings ⟨role, parent.map WorkerId.mk, ⟨d⟩⟩) h l r₀ h' ∧
      r = r₀.map (Shell.after Run.ofDecision) :=
  Shell.trail_registry (fun decision => by cases decision <;> rfl) hr

theorem lines_of_not_granted {r : Except Halt (Except Registry.Error Spawn.Decision)}
    (hr : ∀ w, r ≠ .ok (.ok (.granted w))) :
    (Run.ofEnd (r.map (Shell.after Run.ofDecision))).lines = [] := by
  cases r with
  | error why => rfl
  | ok a =>
    cases a with
    | error e => rfl
    | ok decision =>
      cases decision with
      | granted w => exact absurd rfl (hr w)
      | refused why => rfl

theorem accounts_spawn (hi : h.db.InOrder p.settings)
    (hr : Trail AtDesk (((spawn role d parent).perform p).run.run []) h l r h') :
    Accounts p.settings ⟨spawn role d parent, .ofEnd r⟩ h.db h'.db := by
  obtain ⟨r₀, hr₀, rfl⟩ := spawn_of_trail hr
  cases Spawn.desk_request hr₀ with
  | refused hdb hno =>
    rw [hdb]
    refine accounts_of_ended [] (fun id hid => ?_) (fun _ => rfl) (by simp [Entry.Switches])
      (.refl hi)
    rw [Entry.Prints, lines_of_not_granted hno] at hid
    cases hid
  | granted hconf hdated ha =>
    rename_i x c w
    obtain ⟨hid, hnew, halive⟩ := Database.alive_insert (congrArg Prod.fst ha)
    have hprints : ∀ id, Entry.Prints ⟨spawn role d parent, Run.ofEnd (Except.map
        (Shell.after Run.ofDecision) (.ok (.ok (.granted w))))⟩ id ↔ (⟨id⟩ : WorkerId) = x.id := by
      intro id
      rw [← hid]
      refine List.mem_singleton.trans ⟨?_, congrArg WorkerId.text⟩
      rintro rfl
      rfl
    have hdb : h'.db = (h.db.answer (.insert x c)).2 := (congrArg Prod.snd ha).symm
    rw [hdb]
    refine ⟨fun id => ?_, fun id hprint => ?_, fun _ => .inl rfl,
      fun _ hk => hk.answer (.insert x c), fun k => ?_, hi.answer hconf hdated⟩
    · rw [halive, hprints]
      simp only [Entry.ends, and_true]
    · rw [(hprints id).1 hprint]
      exact hnew
    · have hstops : (Store.database (h.db.answer (.insert x c)).2).stops =
          (Store.database h.db).stops :=
        Store.stops_answer (.database h.db) (q := .insert x c) rfl
      rw [hstops]
      simp [Entry.Trips, Entry.Resets]

/-- A stop is enough, and nothing but the role is looked at before. -/
theorem spawn_of_held (hheld : h.held ⟨d⟩ = true)
    (hr : Trail AtDesk (((spawn role d parent).perform p).run.run []) h l r h') :
    (Run.ofEnd r).code ≠ 0 ∧ (p.settings.roleNamed role ≠ none →
      Run.ofEnd r = .ofFailure [] (.refused (.circuitOpen ⟨d⟩ .opened))) := by
  obtain ⟨r₀, hr₀, rfl⟩ := spawn_of_trail hr
  obtain ⟨hnone, rfl⟩ | rfl := Spawn.desk_request_of_held hheld hr₀
  · exact ⟨Run.code_ofFailure, fun hrole => absurd hnone hrole⟩
  · exact ⟨Run.code_ofFailure, fun _ => rfl⟩

end Spawn

/-- One case for each command. -/
theorem accounts_of_trail (hc : c.Routine) (hi : h.db.InOrder p.settings)
    (hr : Trail AtDesk ((c.perform p).run.run []) h l r h') :
    Accounts p.settings ⟨c, .ofEnd r⟩ h.db h'.db := by
  have hlooks : ∀ {x : Shell Unit}, Shell.Asks Call.Looks x → c.perform p = x →
      Ended p.settings [] h.db h'.db := by
    rintro x hx rfl
    rw [hr.db_eq (hx [])]
    exact .refl hi
  cases c with
  | init force => exact hc.elim
  | status =>
    exact accounts_of_ended [] (fun _ => nofun) (fun _ => rfl) (by simp [Entry.Switches])
      (hlooks (Shell.looks_status _) rfl)
  | workers state json =>
    exact accounts_of_ended [] (fun _ => nofun) (fun _ => rfl) (by simp [Entry.Switches])
      (hlooks (Shell.looks_workers _ _) rfl)
  | spawn role d parent => exact accounts_spawn hi hr
  | heartbeat id => exact accounts_heartbeat hi hr
  | terminate id => exact accounts_terminate hi hr
  | prune maxAge => exact accounts_prune hi hr
  | trip d reason => exact accounts_trip hi hr
  | reset d => exact accounts_reset hi hr
  | degraded limit =>
    exact accounts_of_ended [] (fun _ => nofun) (fun _ => rfl) (by simp [Entry.Switches])
      (hlooks (Shell.looks_degraded _) rfl)
  | daemon => exact hc.elim

end Command
end WorkerGuard
