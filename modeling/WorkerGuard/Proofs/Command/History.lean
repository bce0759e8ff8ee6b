import Mathlib.Algebra.GroupWithZero.Nat
import Mathlib.Data.List.Induction
import WorkerGuard.Proofs.Command.Accounts

/-!
# WorkerGuard.Proofs.Command.History

Commands on one project, one after the other, each in a process of its own.

* `Command.history`: what they have shown, and the files that they have left.
* `Command.Lives`, `Command.Stopped`: who is alive and what is stopped, by what was seen of the
  commands so far.
* `Command.Ledger`: the database agrees. One more entry keeps this so (`Command.Ledger.concat`).
* `Command.Kept`: the next process finds such a database, or there is no way to one. No command ends
  this (`Command.Kept.next`).
* `Command.oneMachine_of_fresh`: from a folder without a registry on, the commands so far tell what
  the next one does.
-/

namespace WorkerGuard

open Program Registry Simulation

namespace Command

structure History where
  entries : List Entry
  files : Files

def History.next (root : String) (h : History) (x : Occasion × Command) : History :=
  ⟨h.entries ++ [⟨x.2, (x.2.run x.1 root h.files).1⟩], (x.2.run x.1 root h.files).2.1⟩

def history (root : String) (fs : Files) (xs : List (Occasion × Command)) : History :=
  xs.foldl (History.next root) ⟨[], fs⟩

/-- There was something of one sort, and nothing of the other sort later. -/
def Since (P Q : Entry → Prop) (es : List Entry) : Prop :=
  ∃ before e after, es = before ++ e :: after ∧ P e ∧ ∀ x ∈ after, ¬Q x

/-- Its name was printed by a spawn, and no later command has ended it. -/
def Lives (es : List Entry) (id : String) : Prop := Since (·.Prints id) (0 < ·.ends id) es

/-- The latest one of its trips and resets was a trip. -/
def Stopped (es : List Entry) (d : String) : Prop := Since (·.Trips d) (·.Resets d) es

section Since

variable {P Q : Entry → Prop} {es : List Entry} {e : Entry}

theorem not_since_nil : ¬Since P Q [] := by
  rintro ⟨before, e, after, heq, _⟩
  cases before <;> cases heq

theorem since_concat : Since P Q (es ++ [e]) ↔ P e ∨ Since P Q es ∧ ¬Q e := by
  constructor
  · rintro ⟨before, x, after, heq, hx, hafter⟩
    obtain rfl | ⟨after, y, rfl⟩ := after.eq_nil_or_concat'
    · obtain ⟨_, hlast⟩ := List.append_inj' heq rfl
      cases hlast
      exact .inl hx
    · rw [← List.cons_append, ← List.append_assoc] at heq
      obtain ⟨rfl, hlast⟩ := List.append_inj' heq rfl
      cases hlast
      exact .inr ⟨⟨before, x, after, rfl, hx, fun z hz => hafter z (by simp [hz])⟩,
        hafter e (by simp)⟩
  · rintro (he | ⟨⟨before, x, after, rfl, hx, hafter⟩, he⟩)
    · exact ⟨es, e, [], rfl, he, by simp⟩
    · refine ⟨before, x, after ++ [e], by simp, hx, fun z hz => ?_⟩
      obtain hz | hz := List.mem_append.1 hz
      · exact hafter z hz
      · rw [List.mem_singleton.1 hz]
        exact he

theorem lives_concat {id : String} :
    Lives (es ++ [e]) id ↔ e.Prints id ∨ Lives es id ∧ e.ends id = 0 := by
  rw [Lives, since_concat, Nat.pos_iff_ne_zero, not_ne_iff]
  exact Iff.rfl

theorem stopped_concat {d : String} :
    Stopped (es ++ [e]) d ↔ e.Trips d ∨ Stopped es d ∧ ¬e.Resets d := since_concat

end Since

/-- The database agrees with what was seen of the commands. -/
structure Ledger (s : Settings) (es : List Entry) (db : Database) : Prop where
  alive : ∀ id, db.Alive ⟨id⟩ ↔ Lives es id
  ended : ∀ id, (es.map (·.ends id)).sum = 0 ∨ (es.map (·.ends id)).sum = 1 ∧
    (Store.database db).Registered ⟨id⟩ ∧ ¬db.Alive ⟨id⟩
  stops : ∀ d, (⟨d⟩ ∈ (Store.database db).stops) ↔ Stopped es d
  inOrder : db.InOrder s

namespace Ledger

variable {s : Settings} {es : List Entry} {e : Entry} {db db' : Database}

theorem empty (s : Settings) : Ledger s [] .empty where
  alive _ := iff_of_false (Database.not_alive_empty _) not_since_nil
  ended _ := .inl rfl
  stops _ := iff_of_false (Database.notMem_stops_empty _) not_since_nil
  inOrder := Database.inOrder_empty s

theorem concat (h : Ledger s es db) (ht : Accounts s e db db') : Ledger s (es ++ [e]) db' where
  alive id := by rw [ht.alive, h.alive, lives_concat]
  ended id := by
    rw [List.map_append, List.sum_append, List.map_singleton, List.sum_singleton, ht.alive]
    obtain hfirst | ⟨hone, hknown, hdead⟩ := h.ended id
    · obtain hnone | ⟨hends, halive⟩ := ht.found id
      · exact .inl (by omega)
      · refine .inr ⟨by omega, ht.registered _ halive.registered, ?_⟩
        rintro (hprint | ⟨_, hzero⟩)
        · exact ht.new id hprint halive.registered
        · omega
    · obtain hnone | ⟨_, halive⟩ := ht.found id
      · refine .inr ⟨by omega, ht.registered _ hknown, ?_⟩
        rintro (hprint | ⟨halive, _⟩)
        · exact ht.new id hprint hknown
        · exact hdead halive
      · exact absurd halive hdead
  stops d := by rw [ht.stops, h.stops, stopped_concat]
  inOrder := ht.inOrder

end Ledger

/-- A command that has failed and said nothing has done nothing. -/
theorem accounts_of_failure {s : Settings} {c : Command} {db : Database} (hi : db.InOrder s)
    (f : Failure) : Accounts s ⟨c, .ofFailure [] f⟩ db db := by
  refine accounts_of_ended [] (fun id hid => ?_) (fun id => ?_) (fun _ => Run.code_ofFailure)
    (.refl hi)
  · cases c with
    | spawn => cases hid
    | _ => exact hid.elim
  · cases c with
    | terminate x => exact ite_self 0
    | _ => rfl

section Run

variable {p : Project} {o : Occasion} {fs : Files} {db : Database} {c : Command}

/-- Only a state that is none keeps a command from its settings. -/
theorem prepare_of_routine (hc : c.Routine) (root : String) (fs : Files) :
    c.prepare root fs = .ok ([], fs) ∨
      (∃ f, c.prepare root fs = .error f) ∧ ∃ state json, c = .workers (some state) json := by
  cases c with
  | init force => exact hc.elim
  | workers state json =>
    cases state with
    | none => exact .inl rfl
    | some state =>
      cases hstate : Worker.State.ofText state with
      | ok known => exact .inl (by rw [prepare, hstate])
      | error word => exact .inr ⟨⟨.unknownState word, by rw [prepare, hstate]⟩, state, json, rfl⟩
  | daemon => exact hc.elim
  | _ => exact .inl rfl

theorem run_of_prepare_error {f : Failure} {root : String} (hc : c.prepare root fs = .error f) :
    c.run o root fs = (.ofFailure [] f, fs, 0) := by
  rw [Command.run, hc]

end Run

theorem code_of_switches {p : Project} {c : Command} {h h' : Desk} {l : List Exchange}
    {r : Except Halt (Except Abort Unit × List String)}
    (hr : Trail AtDesk ((c.perform p).run.run []) h l r h') :
    Entry.Switches ⟨c, .ofEnd r⟩ → (Run.ofEnd r).code = 0 := by
  rintro (⟨d, reason, rfl⟩ | ⟨d, rfl⟩)
  · exact (trip_of_trail hr).1
  · exact (reset_of_trail hr).1

/-- What commands leave for the next one. -/
inductive Kept (p : Project) (h : History) : Prop where
  /-- A database that agrees with them, at its path since it was first opened. -/
  | found {db : Database} (ledger : Ledger p.settings h.entries db) (finds : p.Finds db h.files)
      (switched : ∀ e ∈ h.entries, e.Switches → e.run.code = 0)
      (there : h.files.find? p.databasePath = some (.database db) ∨
        h.files.find? p.databasePath = none ∧ ∀ e ∈ h.entries, e.run.code ≠ 0)
  /-- No way to a database, and nothing done. -/
  | barred (ledger : Ledger p.settings h.entries .empty) (bars : p.Barred h.files)
      (failed : ∀ e ∈ h.entries, e.run.code ≠ 0)

namespace Kept

variable {p : Project} {h : History} {o : Occasion} {c : Command}

theorem next_eq {root : String} {run : Run} {fs : Files} {n : Nat}
    (hrun : c.run o root h.files = (run, fs, n)) :
    h.next root (o, c) = ⟨h.entries ++ [⟨c, run⟩], fs⟩ := by
  rw [History.next, hrun]

theorem forall_concat {P : Entry → Prop} {es : List Entry} {e : Entry} (h : ∀ x ∈ es, P x)
    (he : P e) : ∀ x ∈ es ++ [e], P x :=
  List.forall_mem_append.2 ⟨h, List.forall_mem_singleton.2 he⟩

theorem next (hk : Kept p h) (hc : c.Routine) (ho : o.now.nanos < 1_000_000_000) :
    Kept p (h.next p.root (o, c)) := by
  obtain hprepare | ⟨⟨f, hprepare⟩, state, json, rfl⟩ := prepare_of_routine hc p.root h.files
  · cases hk with
    | found ledger finds switched there =>
      obtain ⟨l, r, desk, fs, n, htrail, hrun, hfinds, hfound⟩ :=
        run_of_finds finds ledger.inOrder.stops ho hprepare
      rw [next_eq hrun]
      exact .found (ledger.concat (accounts_of_trail hc ledger.inOrder htrail)) hfinds
        (forall_concat switched (code_of_switches htrail)) (.inl hfound)
    | barred ledger bars failed =>
      obtain ⟨e, fs, hrun, hbars⟩ := run_of_barred (o := o) bars hprepare
      rw [next_eq hrun]
      exact .barred (ledger.concat (accounts_of_failure ledger.inOrder _)) hbars
        (forall_concat failed Run.code_ofFailure)
  · rw [next_eq (run_of_prepare_error hprepare)]
    cases hk with
    | found ledger finds switched there =>
      refine .found (ledger.concat (accounts_of_failure ledger.inOrder f)) finds
        (forall_concat switched ?_) (there.imp_right fun hno => ?_)
      · rintro (⟨d, reason, heq⟩ | ⟨d, heq⟩) <;> cases heq
      · exact ⟨hno.1, forall_concat hno.2 Run.code_ofFailure⟩
    | barred ledger bars failed =>
      exact .barred (ledger.concat (accounts_of_failure ledger.inOrder f)) bars
        (forall_concat failed Run.code_ofFailure)

theorem of_fresh {fs : Files} (hs : Project.loadSettings p.root fs = .ok p.settings)
    (hfresh : fs.find? p.databasePath = none) : Kept p ⟨[], fs⟩ := by
  obtain hfinds | hbars := Project.finds_or_barred hs hfresh
  · exact .found (.empty _) hfinds (by simp) (.inr ⟨hfresh, by simp⟩)
  · exact .barred (.empty _) hbars (by simp)

theorem history {fs : Files} (hs : Project.loadSettings p.root fs = .ok p.settings)
    (hfresh : fs.find? p.databasePath = none) {xs : List (Occasion × Command)}
    (hxs : ∀ x ∈ xs, x.2.Routine ∧ x.1.now.nanos < 1_000_000_000) :
    Kept p (history p.root fs xs) := by
  induction xs using List.reverseRecOn with
  | nil => exact of_fresh hs hfresh
  | append_singleton xs x ih =>
    rw [Command.history, List.foldl_append]
    obtain ⟨hc, ho⟩ := hxs x (by simp)
    exact (ih fun y hy => hxs y (by simp [hy])).next hc ho

end Kept

/-- The commands so far tell what the next one does. -/
structure OneMachine (p : Project) (h : History) : Prop where
  /-- A worker is hired only if the dependency is not stopped. -/
  spawns : ∀ o : Occasion, o.now.nanos < 1_000_000_000 → ∀ role d parent,
    ((spawn role d parent).run o p.root h.files).1.code = 0 → ¬Stopped h.entries d
  /-- If it is stopped, this is the refusal in all roles that there are. -/
  refuses : ∀ o : Occasion, o.now.nanos < 1_000_000_000 → ∀ role d parent,
    p.settings.roleNamed role ≠ none → Stopped h.entries d →
      ((spawn role d parent).run o p.root h.files).1 =
        .ofFailure [] (.refused (.circuitOpen ⟨d⟩ .opened))
  /-- A heartbeat succeeds for those who live, and for nobody else. -/
  beats : ∀ o : Occasion, o.now.nanos < 1_000_000_000 → ∀ id,
    ((heartbeat id).run o p.root h.files).1.code = 0 ↔ Lives h.entries id
  /-- Nobody is said to have been ended twice. -/
  ends : ∀ id, (h.entries.map (·.ends id)).sum ≤ 1
  /-- The registry is where the settings say, and the ceilings are kept in it. -/
  ceilings : ∀ db, h.files.find? p.databasePath = some (.database db) →
    (Store.database db).WithinCeilings p.settings
  /-- Without a registry nothing has succeeded. With one, all trips and resets have. -/
  registry : (∀ e ∈ h.entries, e.run.code ≠ 0) ∨
    (∃ db, h.files.find? p.databasePath = some (.database db)) ∧
      ∀ e ∈ h.entries, e.Switches → e.run.code = 0

namespace Kept

variable {p : Project} {h : History} {o : Occasion} {c : Command}

theorem oneMachine (hk : Kept p h) : OneMachine p h := by
  cases hk with
  | @found db ledger finds switched there =>
    have hnext := fun {o : Occasion} ho {c : Command} (hc : c.prepare p.root h.files = _) =>
      run_of_finds (o := o) finds ledger.inOrder.stops ho hc
    have hheld : ∀ {d}, Stopped h.entries d → (Project.ready db).held ⟨d⟩ = true :=
      fun hstopped => decide_eq_true ((ledger.stops _).2 hstopped)
    refine ⟨fun o ho role d parent hcode hstopped => ?_,
      fun o ho role d parent hrole hstopped => ?_, fun o ho id => ?_, fun id => ?_,
      fun db' hdb' => ?_, ?_⟩
    · obtain ⟨l, r, desk, fs, n, htrail, hrun, _⟩ := hnext ho (c := spawn role d parent) rfl
      rw [hrun] at hcode
      exact (spawn_of_held (hheld hstopped) htrail).1 hcode
    · obtain ⟨l, r, desk, fs, n, htrail, hrun, _⟩ := hnext ho (c := spawn role d parent) rfl
      rw [hrun]
      exact (spawn_of_held (hheld hstopped) htrail).2 hrole
    · obtain ⟨l, r, desk, fs, n, htrail, hrun, _⟩ := hnext ho (c := heartbeat id) rfl
      obtain ⟨_, _, _, hcode⟩ := heartbeat_of_trail htrail
      rw [hrun]
      exact hcode.trans (ledger.alive id)
    · have hended := ledger.ended id
      omega
    · obtain hthere | ⟨hnone, _⟩ := there
      · rw [hthere] at hdb'
        cases hdb'
        exact ledger.inOrder.ceilings
      · rw [hnone] at hdb'
        cases hdb'
    · obtain hthere | ⟨_, hfailed⟩ := there
      · exact .inr ⟨⟨db, hthere⟩, switched⟩
      · exact .inl hfailed
  | barred ledger bars failed =>
    have hstopped : ∀ d, ¬Stopped h.entries d :=
      fun d hd => Database.notMem_stops_empty _ ((ledger.stops d).2 hd)
    refine ⟨fun _ _ _ d _ _ => hstopped d, fun _ _ _ d _ _ hd => absurd hd (hstopped d),
      fun o _ id => ?_, fun id => ?_, fun db hdb => absurd hdb (bars.none db), .inl failed⟩
    · obtain ⟨e, fs, hrun, _⟩ := run_of_barred (o := o) (c := heartbeat id) bars rfl
      rw [hrun]
      refine iff_of_false Run.code_ofFailure fun hlives => ?_
      exact Database.not_alive_empty _ ((ledger.alive id).2 hlives)
    · have hended := ledger.ended id
      omega

end Kept

/-- From a folder with settings and without a registry on, whatever is done there. -/
theorem oneMachine_of_fresh {p : Project} {fs : Files}
    (hs : Project.loadSettings p.root fs = .ok p.settings)
    (hfresh : fs.find? p.databasePath = none) {xs : List (Occasion × Command)}
    (hxs : ∀ x ∈ xs, x.2.Routine ∧ x.1.now.nanos < 1_000_000_000) :
    OneMachine p (history p.root fs xs) :=
  (Kept.history hs hfresh hxs).oneMachine

section Errands

def atEpoch : Occasion := ⟨.epoch, idOf⟩

/-- A worker is hired, its dependency is tripped, and it is ended. -/
def errands : List (Occasion × Command) :=
  [(atEpoch, .spawn "worker" "api" none), (atEpoch, .trip "api" none), (atEpoch, .prune (some 0))]

/-- In an empty folder, with the settings that there are without a file. -/
theorem errands_oneMachine :
    Project.loadSettings "project" {} = .ok {} ∧
      ({} : Files).find? (Project.databasePath ⟨"project", {}⟩) = none ∧
      (∀ x ∈ errands, x.2.Routine ∧ x.1.now.nanos < 1_000_000_000) ∧
      OneMachine ⟨"project", {}⟩ (history "project" {} errands) := by
  have hnothing : ∀ path, (Path.way path).isEmpty = false → ({} : Files).find? path = none := by
    intro path hway
    rw [Files.find?, hway]
    rfl
  have hs : Project.loadSettings "project" {} = .ok {} := by
    rw [Project.loadSettings, Files.read, hnothing]
    · rfl
    · rw [Project.settingsPath, Project.hidden_settings.way_join]
      simp
  have hfresh : ({} : Files).find? (Project.databasePath ⟨"project", {}⟩) = none := by
    refine hnothing _ ?_
    rw [Project.databasePath, Project.hidden_database.way_join]
    simp
  have hxs : ∀ x ∈ errands, x.2.Routine ∧ x.1.now.nanos < 1_000_000_000 := by
    simp [errands, Routine, atEpoch, Instant.epoch]
  exact ⟨hs, hfresh, hxs, oneMachine_of_fresh (p := ⟨"project", {}⟩) hs hfresh hxs⟩

end Errands

end Command
end WorkerGuard
