import WorkerGuard.Proofs.Command.Calls
import WorkerGuard.Proofs.Program.Trail
import WorkerGuard.Proofs.Project.Files
import WorkerGuard.Proofs.Watch.Converge

/-!
# WorkerGuard.Proofs.Command.Process

The process that carries out a command.

* `Host.Calm`: nothing goes wrong on a host.
* `Desk`: what the process works with: the registry, and what it holds open. `AtDesk` is how its
  calls are answered there.
* `Timed.runQuiet_eq`: a program whose calls are answered at once is done at once.
* `Command.run_of_finds`: a command that finds a database, from there to the one that it leaves.
* `Command.run_of_barred`: a command that does not find one.
-/

namespace WorkerGuard

open Program Registry

namespace Simulation

theorem Trouble.answer_none (s : Store) (q : Request) :
    ({} : Trouble).answer s q = ((s.answer q).1, {}, (s.answer q).2) := by
  cases q <;> rfl

/-- What a process works with: a registry, and what it holds open itself. -/
structure Desk where
  db : Database
  held : Dependency → Bool

def AtDesk : Environment Desk
  | h, .registry q, a, h' => h.db.answer q = (a, h'.db) ∧ h'.held = h.held
  | h, .now, t, h' => h' = h ∧ t.nanos < 1_000_000_000
  | h, .forced d, b, h' => h' = h ∧ b = h.held d
  | h, .setForced .., _, h' => h'.db = h.db
  | h, _, _, h' => h' = h

namespace Host

variable {α : Type} {h : Host} {p : Nat} {desk : Desk} {x : Program α}

/-- Nothing is made to go wrong, and the clock of the machine has no leap seconds. -/
structure Calm (h : Host) : Prop where
  trouble : h.trouble = {}
  clock : h.systemClock.nanos < 1_000_000_000

/-- The process has this to work with. -/
structure Has (h : Host) (p : Nat) (desk : Desk) : Prop where
  store : h.store = .database desk.db
  held : ∀ d, (h.handle p d).forced = desk.held d

theorem Calm.registry (hc : h.Calm) (p : Nat) (q : Request) :
    (h.answer p false (.registry q)).1 = (h.store.answer q).1 ∧
      (h.answer p false (.registry q)).2.store = (h.store.answer q).2 ∧
      (h.answer p false (.registry q)).2.trouble = {} := by
  have hcalls : h.trouble.fails q = false := by rw [hc.trouble]; rfl
  have hanswer : h.trouble.answer h.store q = ((h.store.answer q).1, {}, (h.store.answer q).2) := by
    rw [hc.trouble, Trouble.answer_none]
  simp only [answer, hcalls, Bool.and_false, Bool.false_eq_true, if_false]
  cases q with
  | insert r c =>
    simp only [insert, Host.registry, hanswer]
    split
    · split <;> exact ⟨rfl, rfl, rfl⟩
    · exact ⟨rfl, rfl, rfl⟩
  | _ => simp only [Host.registry, hanswer, and_self]

theorem Calm.answer (hc : h.Calm) (p : Nat) (q : Call) : (h.answer p false q).2.Calm := by
  refine ⟨?_, by rw [clock_answer]; exact hc.clock⟩
  cases q with
  | registry q => exact (hc.registry p q).2.2
  | exchangeWord d old new =>
    simp only [Host.answer]
    split <;> exact hc.trouble
  | appendLog a =>
    simp only [Host.answer]
    split <;> exact hc.trouble
  | _ => exact hc.trouble

/-- It does not matter what the registry holds. -/
theorem Calm.now_lt (hc : h.Calm) (p : Nat) : (h.now p).nanos < 1_000_000_000 :=
  Sound.now_lt (h := { h with store := .memory .empty }) ⟨Store.legible_memory, hc.clock⟩ p

/-- Traffic changes the registry at most, and that by requests only. -/
theorem Has.answer (hd : h.Has p desk) {q : Call} (hq : ∀ r, q ≠ .registry r)
    (ht : q.isTraffic = true) : (h.answer p false q).2.Has p desk := by
  refine ⟨?_, fun d => (h.forced_answer p ht p d).trans (hd.held d)⟩
  rw [← hd.store]
  cases q with
  | registry r => exact absurd rfl (hq r)
  | exchangeWord d old new =>
    simp only [Host.answer]
    split <;> rfl
  | appendLog a =>
    simp only [Host.answer]
    split <;> rfl
  | _ => rfl

theorem Calm.atDesk (hc : h.Calm) (hd : h.Has p desk) (q : Call) :
    ∃ desk', AtDesk desk q (h.answer p false q).1 desk' ∧ (h.answer p false q).2.Has p desk' := by
  have htraffic := fun hq ht => hd.answer (q := q) hq ht
  cases q with
  | registry q =>
    obtain ⟨hanswer, hstore, _⟩ := hc.registry p q
    rw [hd.store] at hanswer hstore
    refine ⟨⟨(desk.db.answer q).2, desk.held⟩, ⟨Prod.ext hanswer.symm rfl, rfl⟩, hstore, ?_⟩
    exact fun d => (congrArg _ (handle_congr (h.processes_registry p q) p d)).trans (hd.held d)
  | now => exact ⟨desk, ⟨rfl, hc.now_lt p⟩, hd⟩
  | forced d => exact ⟨desk, ⟨rfl, hd.held d⟩, hd⟩
  | setForced d b =>
    let h' := (h.answer p false (.setForced d b)).2
    exact ⟨⟨desk.db, fun e => (h'.handle p e).forced⟩, rfl, hd.store, fun _ => rfl⟩
  | _ => exact ⟨desk, rfl, htraffic (by simp) rfl⟩

/-- A program by the answers of a calm host is one at the desk. -/
theorem Calm.trail_serve (hc : h.Calm) (hd : h.Has p desk) (x : Program α) :
    (h.serve p x).2.Calm ∧ ∃ l desk', Trail AtDesk x desk l (h.serve p x).1 desk' ∧
      (h.serve p x).2.Has p desk' := by
  induction x generalizing h desk with
  | done a => exact ⟨hc, [], desk, .done, hd⟩
  | halt why => exact ⟨hc, [], desk, .halt, hd⟩
  | ask q next ih =>
    obtain ⟨desk₁, hanswer, hd₁⟩ := hc.atDesk hd q
    obtain ⟨hcalm, l, desk', hnext, hd'⟩ := ih _ (hc.answer p q) hd₁
    exact ⟨hcalm, _, desk', .ask hanswer hnext, hd'⟩

theorem log_answer {q : Call} (hq : q.AtOnce) (h : Host) (p : Nat) :
    (h.answer p false q).2.log = h.log := by
  cases q with
  | registry q =>
    simp only [answer]
    split
    · rfl
    · cases q with
      | insert r c =>
        simp only [insert]
        split
        · split <;> rfl
        · rfl
      | _ => rfl
  | exchangeWord d old new =>
    simp only [answer]
    split <;> rfl
  | appendLog a => cases hq
  | _ => rfl

theorem log_serve (hx : x.Asks Call.AtOnce) (h : Host) (p : Nat) : (h.serve p x).2.log = h.log := by
  induction x generalizing h with
  | done a => rfl
  | halt why => rfl
  | ask q next ih => exact (ih _ (hx.2 _) _).trans (log_answer hx.1 h p)

theorem serve_map {β : Type} (x : Program α) (f : α → β) :
    h.serve p (x >>= fun a => pure (f a)) = ((h.serve p x).1.map f, (h.serve p x).2) := by
  induction x generalizing h with
  | done a => rfl
  | halt why => rfl
  | ask q next ih => exact ih _

end Host

def Ending.ofResult {α : Type} : Except Halt α → Ending α
  | .ok a => .value a
  | .error why => .halted why

namespace Timed

variable {α : Type}

/-- `run` has no equation of its own for the calls that are no attempts. -/
theorem runQuiet_ask {q : Call} (hq : q.AtOnce) (p : Nat) (next : q.Answer → Program α) (h : Host) :
    runQuiet p (.ask q next) none h =
      match sleep (h.wait q) none h with
      | (.value (), h') =>
        runQuiet p (next (h'.answer p (h.wait q != 0) q).1) none
          (h'.answer p (h.wait q != 0) q).2
      | (.cut, h') => (.cut, h')
      | (.halted why, h') => (.halted why, h') := by
  cases q with
  | attempt d bound => cases hq
  | _ => delta runQuiet run; rfl

/-- Calls that are answered at once are not waited for. -/
theorem runQuiet_eq {h : Host} (hc : h.Calm) (p : Nat) {x : Program α} (hx : x.Asks Call.AtOnce) :
    runQuiet p x none h = (Ending.ofResult (h.serve p x).1, (h.serve p x).2) := by
  induction x generalizing h with
  | done a => rfl
  | halt why => rfl
  | ask q next ih =>
    have hwait : h.wait q = 0 := by
      cases q with
      | sleep d => cases hx.1
      | registry q =>
        cases q with
        | stale t role =>
          simp only [Host.wait]
          split
          · rfl
          · rw [hc.trouble]
        | _ => rfl
      | _ => rfl
    have hnext := ih (h.answer p false q).1 (hc.answer p q) (hx.2 _)
    have hsleep : sleep (h.wait q) none h = (.value (), h) := by rw [hwait]; rfl
    have hrun : runQuiet p (.ask q next) none h =
        runQuiet p (next (h.answer p false q).1) none (h.answer p false q).2 := by
      rw [runQuiet_ask hx.1, hsleep, hwait]
      rfl
    rw [hrun, hnext]
    rfl

end Timed
end Simulation

open Simulation

namespace Project

variable {o : Occasion} {db : Database} {α : Type}

/-- What a process has to work with when it has taken over the stops. -/
def ready (db : Database) : Desk := ⟨db, fun d => decide (d ∈ (Store.database db).stops)⟩

theorem serve_sync_host (p : Project) (fs : Files) (hl : (Store.database db).Legible)
    (ho : o.now.nanos < 1_000_000_000) :
    ∃ found h, (p.host o fs db).serve 0 (Watch.sync p.settings) = (.ok (.ok found), h) ∧
      h.Calm ∧ h.Has 0 (ready db) ∧ h.log = fs.log p.logPath := by
  have hcalm : (p.host o fs db).Calm := ⟨rfl, ho⟩
  have hhas : (p.host o fs db).Has 0 ⟨db, fun _ => false⟩ := ⟨rfl, fun _ => rfl⟩
  have hsync := Host.Sound.serve_sync (h := p.host o fs db) ⟨hl, ho⟩ rfl 0 p.settings
  have hcalm' := (hcalm.trail_serve hhas (Watch.sync p.settings)).1
  have hlog := Host.log_serve (Watch.atOnce_sync p.settings) (p.host o fs db) 0
  rw [hsync] at hcalm' hlog
  have hstore := (p.host o fs db).store_syncedTo 0 (Store.database db).stops
  have hforced := (p.host o fs db).forced_syncedTo 0 (Store.database db).stops Nat.one_pos
  refine ⟨_, _, hsync, hcalm', ⟨hstore, fun d => Bool.eq_iff_iff.2 ?_⟩, hlog⟩
  exact (hforced d).trans decide_eq_true_iff.symm

/-- What a process does once it is ready. -/
theorem run_afterSync (p : Project) (fs : Files) (hl : (Store.database db).Legible)
    (ho : o.now.nanos < 1_000_000_000) {prog : Program α} (hprog : prog.Asks Call.AtOnce) :
    ∃ l r h desk, Timed.runQuiet 0 (afterSync p.settings prog) none (p.host o fs db) =
        (Ending.ofResult (r.map .ok), h) ∧ h.store = .database desk.db ∧
      h.log = fs.log p.logPath ∧ Trail AtDesk prog (ready db) l r desk := by
  obtain ⟨found, h, hsync, hcalm, hhas, hlog⟩ := serve_sync_host p fs hl ho
  obtain ⟨_, l, desk, htrail, hhas'⟩ := hcalm.trail_serve hhas prog
  have hasks : (afterSync p.settings prog).Asks Call.AtOnce := by
    refine asks_bind (Watch.atOnce_sync _) fun a => ?_
    cases a with
    | error e => exact asks_pure _
    | ok found => exact asks_bind hprog fun _ => asks_pure _
  have hserve : (p.host o fs db).serve 0 (afterSync p.settings prog) = _ :=
    (Host.serve_bind hsync).trans (Host.serve_map prog Except.ok)
  rw [Timed.runQuiet_eq ⟨rfl, ho⟩ 0 hasks, hserve]
  exact ⟨l, _, _, desk, rfl, hhas'.store, (Host.log_serve hprog h 0).trans hlog, htrail⟩

end Project

namespace Command

variable {p : Project} {o : Occasion} {fs : Files} {db : Database} {c : Command}

/-- What can be seen of a command by how its work ends. -/
def Run.ofEnd (r : Except Halt (Except Abort Unit × List String)) : Run := .ofResult (r.map .ok) []

/-- A command that has its settings. -/
theorem run_eq (hs : Project.loadSettings p.root fs = .ok p.settings)
    (hc : c.prepare p.root fs = .ok ([], fs)) : c.run o p.root fs =
      (.ofResult (p.run o ((c.perform p).run.run []) fs).result [],
        (p.run o ((c.perform p).run.run []) fs).files,
        (p.run o ((c.perform p).run.run []) fs).named) := by
  rw [Command.run, hc]
  dsimp only
  rw [hs]

/-- The work of a command on a database that it finds, and leaves for the next one. -/
theorem run_of_finds (hf : p.Finds db fs) (hl : (Store.database db).Legible)
    (ho : o.now.nanos < 1_000_000_000) (hc : c.prepare p.root fs = .ok ([], fs)) :
    ∃ l r desk fs' n, Trail AtDesk ((c.perform p).run.run []) (Project.ready db) l r desk ∧
      c.run o p.root fs = (.ofEnd r, fs', n) ∧ p.Finds desk.db fs' ∧
      fs'.find? p.databasePath = some (.database desk.db) := by
  obtain ⟨fs₁, hopen, hopened, hsettings⟩ := hf.opened
  obtain ⟨l, r, h, desk, hrun, hstore, hlog, htrail⟩ :=
    Project.run_afterSync p fs₁ hl ho (c.atOnce_perform p [])
  have hdone : p.run o ((c.perform p).run.run []) fs =
      ⟨r.map .ok, p.putBack fs₁ h, h.granted⟩ := by
    rw [Project.run, Project.check_of_loadSettings hf.settings]
    dsimp only
    rw [hopen]
    dsimp only
    rw [hrun]
    cases r <;> rfl
  refine ⟨l, r, desk, p.putBack fs₁ h, h.granted, htrail, ?_,
    Project.finds_putBack hopened hsettings hstore hlog,
    Project.find?_putBack hopened hstore hlog⟩
  rw [run_eq hf.settings hc, hdone]
  rfl

/-- Where there is no way to the registry, a command fails, and the next one will. -/
theorem run_of_barred (hb : p.Barred fs) (hc : c.prepare p.root fs = .ok ([], fs)) :
    ∃ e fs', c.run o p.root fs = (.ofFailure [] (.opening e), fs', 0) ∧ p.Barred fs' := by
  obtain ⟨e, fs', hopen, hb'⟩ := hb.opens
  have hdone : p.run o ((c.perform p).run.run []) fs = ⟨.ok (.error e), fs', 0⟩ := by
    rw [Project.run, Project.check_of_loadSettings hb.settings]
    dsimp only
    rw [hopen]
  refine ⟨e, fs', ?_, hb'⟩
  rw [run_eq hb.settings hc, hdone]
  rfl

end Command
end WorkerGuard
