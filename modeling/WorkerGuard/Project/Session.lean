import WorkerGuard.Project.Files
import WorkerGuard.Settings.Load
import WorkerGuard.Settings.Text
import WorkerGuard.Simulation.Timeline

/-!
# WorkerGuard.Project.Session

One process after another works on a project: a folder with settings, a registry and a log.

* `Project`: the folder and its settings, with the paths of the registry and of the log.
* `Occasion`: when a process runs, and what it calls new workers.
* `Project.run`: a process opens the registry, takes over the stops that are stored there, and runs
  a program. Its memory ends with it; the files stay for the next one.

`Project.run` embeds `open` of `Runtime`; `afterSync` is the sync with which that ends.
-/

namespace WorkerGuard

open Simulation

structure Project where
  root : String
  settings : Settings

/-- The `n`-th new worker gets the `n`-th name, from 1. -/
structure Occasion where
  now : Instant
  names : Nat → WorkerId

/-- What a process left behind. -/
structure Project.Outcome (α : Type) where
  result : Except Halt (Except Error α)
  files : Files
  /-- The new workers. -/
  named : Nat

namespace Project

def settingsPath (root : String) : String := Path.join root ".tether/config.toml"

def databasePath (p : Project) : String := Path.join p.root p.settings.storage.database

def logPath (p : Project) : String := Path.join p.root p.settings.storage.degradeLog

/-- The settings in the folder, the default ones if there are none. -/
def loadSettings (root : String) (fs : Files) : Except Error Settings :=
  match fs.read (settingsPath root) with
  | .ok file => Settings.loadOrDefault file
  | .error e => .error (.file e)

/-- Writes the default settings. -/
def writeSettings (root : String) (fs : Files) : Except FileError Files :=
  fs.write (settingsPath root) (Settings.document {}).toUTF8

/-- The only process of a project. -/
def host (p : Project) (o : Occasion) (fs : Files) (db : Registry.Database) : Host where
  store := .database db
  clock := o.now.millis
  systemClock := o.now
  log := fs.log p.logPath
  logPath := p.logPath
  processes := #[{ onSystemClock := true }]
  names := o.names

/-- No program begins before the stops are known. -/
def afterSync {α : Type} (s : Settings) (prog : Program α) : Program (Except Error α) := do
  match ← Watch.sync s with
  | .error e => return .error (.registry e)
  | .ok _ => return .ok (← prog)

def putBack (p : Project) (fs : Files) (h : Host) : Files :=
  match h.store with
  | .database db => (fs.put p.databasePath (.database db)).putLog p.logPath h.log
  | .memory _ => fs

def run {α : Type} (p : Project) (o : Occasion) (prog : Program α) (fs : Files) : Outcome α :=
  match p.settings.check with
  | .error e => ⟨.ok (.error (.settings e)), fs, 0⟩
  | .ok () =>
    match fs.openDatabase p.databasePath with
    | (.error e, fs) => ⟨.ok (.error e), fs, 0⟩
    | (.ok db, fs) =>
      match Timed.runQuiet 0 (afterSync p.settings prog) none (p.host o fs db) with
      | (.value r, h) => ⟨.ok r, p.putBack fs h, h.granted⟩
      | (.halted why, h) => ⟨.error why, p.putBack fs h, h.granted⟩
      | (.cut, h) => ⟨.error .unfinished, p.putBack fs h, h.granted⟩

end Project
end WorkerGuard
