import WorkerGuard.Program
import WorkerGuard.Settings.Basic

/-!
# WorkerGuard.Lifecycle

The life of workers is bounded by their age since creation. Heartbeats are noted and do not help.

* `heartbeat`: notes that a worker is alive, and tells it whether it still is.
* `prune`: terminates all workers past an age; `sweep`: past the age of their role.
* `Sweep`: what a pass did.

The programs embed `heartbeat`, `prune_stale` and `sweep` of `LifecycleManager`; `pruneRole` is its
`prune` with the `cutoff`, `terminateAll` repeats its `terminate`, and `Sweep.merge` is `merge` of
`SweepReport`.
-/

namespace WorkerGuard.Lifecycle

structure Sweep where
  /-- Workers that this pass terminated. -/
  terminated : List WorkerId
  /-- Old workers that had ended before the pass came to them. -/
  skipped : Nat
  deriving DecidableEq, Repr

namespace Sweep

def empty : Sweep := ⟨[], 0⟩

def merge (a b : Sweep) : Sweep := ⟨a.terminated ++ b.terminated, a.skipped + b.skipped⟩

end Sweep

def heartbeat (id : WorkerId) : Program (Except Registry.Error Bool) := do
  let now ← Program.call .now
  Program.request (.heartbeat id now)

/-- Terminates the workers of a list, after what was done before. -/
def terminateAll : List Worker → Sweep → Program (Except Registry.Error Sweep)
  | [], done => return .ok done
  | w :: ws, done => do
    match ← Program.request (.terminate w.id) with
    | .error e => return .error e
    | .ok true => terminateAll ws (done.merge ⟨[w.id], 0⟩)
    | .ok false => terminateAll ws (done.merge ⟨[], 1⟩)

/-- The active workers that are older than an age. -/
def stale (maxAge : Duration) (role : Option String) :
    Program (Except Registry.Error (List Worker)) := do
  let now ← Program.call .now
  Program.request (.stale (now.before maxAge) role)

def pruneRole (maxAge : Duration) (role : Option String) (done : Sweep) :
    Program (Except Registry.Error Sweep) := do
  match ← stale maxAge role with
  | .error e => return .error e
  | .ok ws => terminateAll ws done

/-- Workers of all roles by one age. -/
def prune (maxAge : Duration) : Program (Except Registry.Error Sweep) :=
  pruneRole maxAge none .empty

def pruneRoles : List Role → Sweep → Program (Except Registry.Error Sweep)
  | [], done => return .ok done
  | r :: rs, done => do
    match ← pruneRole r.maxAge (some r.name) done with
    | .error e => return .error e
    | .ok done => pruneRoles rs done

/-- Each configured role by its own age, then all other workers by the default age. -/
def sweep (s : Settings) : Program (Except Registry.Error Sweep) := do
  match ← pruneRoles s.allRoles .empty with
  | .error e => return .error e
  | .ok done =>
    match ← stale s.lifecycle.defaultMaxWorkerAge none with
    | .error e => return .error e
    | .ok ws => terminateAll (ws.filter fun w => !s.roles.contains w.role) done

end WorkerGuard.Lifecycle
