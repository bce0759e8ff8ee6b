import WorkerGuard.Breaker.Handle
import WorkerGuard.Keyed

/-!
# WorkerGuard.Breaker.Board

All the breakers of a process: one handle for each dependency, made at its first use.

* `Board`: the settings of the handles.
* `Board.handle`: the handle on a dependency. All who ask get the same one.
* `Board.snapshots`: all handles, after one was made for each row of the registry.

`Board` embeds `BreakerRegistry`: `settings` is `settings_for`, `handle` is `get`, `forced` is
`forced_keys`, and `state`, `forceOpen`, `clearOverride` and `snapshots` have the same names there.
-/

namespace WorkerGuard.Breaker

structure Board where
  defaults : Settings
  ofDependency : Keyed Settings
  shared : Bool
  patience : Nat := usualPatience

namespace Board

def settings (b : Board) (d : Dependency) : Settings :=
  (b.ofDependency.find? d.name).getD b.defaults

def breaker (b : Board) (d : Dependency) : Breaker :=
  .ofSettings d (b.settings d) b.shared b.patience

def handle (b : Board) (d : Dependency) : Program Breaker := do
  Program.call (.enlist d)
  return b.breaker d

def state (b : Board) (d : Dependency) : Program Circuit := do (← b.handle d).state

def forceOpen (b : Board) (d : Dependency) : Program Unit := do (← b.handle d).forceOpen

def clearOverride (b : Board) (d : Dependency) : Program Unit := do (← b.handle d).clearOverride

def forced : Program (List Dependency) := Program.call .allForced

/-- A registry that cannot be reached adds no handles. -/
def enlistRows (b : Board) : Program Unit := do
  if b.shared then
    match ← Program.request .listBreakers with
    | .ok rows => rows.forM fun r => Program.call (.enlist r.1)
    | .error _ => return ()

def snapshots (b : Board) : Program (List Snapshot) := do
  b.enlistRows
  (← Program.call .enlisted).mapM fun d => (b.breaker d).snapshot

end Board
end WorkerGuard.Breaker
