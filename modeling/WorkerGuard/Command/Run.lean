import WorkerGuard.Command.Shell
import WorkerGuard.Project.Session
import WorkerGuard.Text.Quoted

/-!
# WorkerGuard.Command.Run

Commands from the beginning to the end: the settings are loaded, the registry is opened, and then
the command does its work.

* `Command.perform`: the work of each command.
* `Command.run`: a command on the project in a folder; `Run` is what can be seen of it.

`run` embeds `main` with `open_runtime`; `prepare` has the first part of `cmd_init`, and `perform`
the sweep with which `cmd_daemon` begins.
-/

namespace WorkerGuard.Command

/-- What a command does when the registry is open. -/
def perform (p : Project) : Command → Shell Unit
  | .init _ => Shell.say ("Registry ready at " ++ Text.quotedPath p.databasePath)
  | .status => Shell.status p.settings
  | .workers state json => Shell.workers (state.bind fun s => (Worker.State.ofText s).toOption) json
  | .spawn role d parent => Shell.spawn p.settings ⟨role, parent.map WorkerId.mk, ⟨d⟩⟩
  | .heartbeat id => Shell.heartbeat ⟨id⟩
  | .terminate id => Shell.terminate ⟨id⟩
  | .prune maxAge => Shell.prune p.settings maxAge
  | .trip d reason => Shell.trip p.settings ⟨d⟩ reason
  | .reset d => Shell.reset p.settings ⟨d⟩
  | .degraded limit => Shell.degraded limit
  | .daemon => do
    let _ ← Shell.registry (Lifecycle.sweep p.settings)

/-- What can be seen of a command. -/
structure Run where
  /-- The exit code. -/
  code : UInt32
  lines : List String
  /-- What went wrong. -/
  report : Option String
  deriving DecidableEq

namespace Run

def ofFailure (lines : List String) (f : Failure) : Run := ⟨1, lines, some f.report⟩

def crashed (lines : List String) : Run := ⟨101, lines, none⟩

def ofResult : Except Halt (Except Error (Except Abort Unit × List String)) → List String → Run
  | .error _, before => crashed before
  | .ok (.error e), before => ofFailure before (.opening e)
  | .ok (.ok (.ok (), lines)), before => ⟨0, before ++ lines, none⟩
  | .ok (.ok (.error (.failure f), lines)), before => ofFailure (before ++ lines) f
  | .ok (.ok (.error .crash, lines)), before => crashed (before ++ lines)

end Run

/-- Before the settings are loaded, `init` may write them, and a state has to be one of the known
words. -/
def prepare (root : String) (c : Command) (fs : Files) : Except Failure (List String × Files) :=
  match c with
  | .init force =>
    let path := Text.quotedPath (Project.settingsPath root)
    if fs.contains (Project.settingsPath root) && !force then
      .ok (["Config already exists at " ++ path ++ " (use --force to overwrite)"], fs)
    else
      match Project.writeSettings root fs with
      | .ok fs => .ok (["Wrote default config to " ++ path], fs)
      | .error e => .error (.failed (.file e))
  | .workers (some state) _ =>
    match Worker.State.ofText state with
    | .ok _ => .ok ([], fs)
    | .error u => .error (.unknownState u)
  | _ => .ok ([], fs)

/-- Runs a command on the project in a folder. The number is that of the new workers. -/
def run (c : Command) (o : Occasion) (root : String) (fs : Files) : Run × Files × Nat :=
  match c.prepare root fs with
  | .error f => (.ofFailure [] f, fs, 0)
  | .ok (lines, fs) =>
    match Project.loadSettings root fs with
    | .error e => (.ofFailure lines (.loading e), fs, 0)
    | .ok s =>
      let p : Project := ⟨root, s⟩
      let after := p.run o ((c.perform p).run.run []) fs
      (.ofResult after.result lines, after.files, after.named)

end WorkerGuard.Command
