import WorkerGuard.Settings.Basic

/-!
# WorkerGuard.Watch

How emergency stops come about and reach every process.

* `trip`: the stop is stored and takes effect in this process; `reset` lifts it.
* `sync`: makes the process hold open what the registry says, and nothing else.

The programs embed `trip`, `reset` and `sync_once` of `OverrideWatcher`.
-/

namespace WorkerGuard.Watch

/-- What a pass changed in the process. -/
structure Sync where
  forced : List Dependency
  cleared : List Dependency
  deriving DecidableEq, Repr

def trip (s : Settings) (d : Dependency) (reason : Option String) :
    Program (Except Registry.Error Unit) := do
  let now ← Program.call .now
  match ← Program.request (.setOverride ⟨d, reason, now⟩) with
  | .error e => return .error e
  | .ok () =>
    (s.board true).forceOpen d
    return .ok ()

/-- Whether there was a stop to lift. -/
def reset (s : Settings) (d : Dependency) : Program (Except Registry.Error Bool) := do
  match ← Program.request (.clearOverride d) with
  | .error e => return .error e
  | .ok existed =>
    (s.board true).clearOverride d
    return .ok existed

def sync (s : Settings) : Program (Except Registry.Error Sync) := do
  match ← Program.request .listOverrides with
  | .error e => return .error e
  | .ok overrides =>
    let stored := overrides.map (·.dependency)
    let held ← Breaker.Board.forced
    let forced := stored.filter fun d => !held.contains d
    let cleared := held.filter fun d => !stored.contains d
    forced.forM (s.board true).forceOpen
    cleared.forM (s.board true).clearOverride
    return .ok ⟨forced, cleared⟩

end WorkerGuard.Watch
