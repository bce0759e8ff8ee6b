import WorkerGuard.Keyed
import WorkerGuard.Registry.Request

/-!
# WorkerGuard.Registry.Memory

The registry of a single process: it holds its values as they are and never fails.

* `Memory`: workers, overrides and breaker rows by name.
* `Memory.answer`: one request.

`Memory.answer` embeds the methods of `MemoryRegistry`, and `oldestFirst` its `oldest_first`.
-/

namespace WorkerGuard.Registry

structure Memory where
  workers : Keyed Worker
  overrides : Keyed Override
  breakers : Keyed Breaker.Row
  deriving Inhabited

namespace Memory

def empty : Memory := ⟨.empty, .empty, .empty⟩

def activeIn (m : Memory) (p : Worker → Bool) : Nat :=
  (m.workers.values.filter fun w => w.isActive && p w).length

def activeOfRole (m : Memory) (role : String) : Nat := m.activeIn (·.role == role)

def activeInTree (m : Memory) (root : WorkerId) : Nat := m.activeIn (·.root == root)

/-- Oldest first, names break ties. -/
def oldestFirst (ws : List Worker) : List Worker := ws.mergeSort Worker.precedes

/-- Changes an active worker; the answer says whether there was one. -/
def updateActive (m : Memory) (id : WorkerId) (f : Worker → Worker) : Bool × Memory :=
  match m.workers.find? id.text with
  | some w =>
    if w.isActive then (true, { m with workers := m.workers.insert id.text (f w) })
    else (false, m)
  | none => (false, m)

/-- The row that a dependency has, written or not. -/
def row (m : Memory) (d : Dependency) : Breaker.Row := (m.breakers.find? d.name).getD .fresh

def answer (m : Memory) : (q : Request) → q.Answer × Memory
  | .insert r c =>
    if m.activeOfRole r.role ≥ c.role.toNat ∨ m.activeInTree r.root ≥ c.tree.toNat ∨
        m.workers.contains r.id.text then (none, m)
    else (some r.enrolled, { m with workers := m.workers.insert r.id.text r.enrolled })
  | .get id => (m.workers.find? id.text, m)
  | .heartbeat id t => m.updateActive id fun w => { w with lastHeartbeatAt := t }
  | .countRole role => (m.activeOfRole role, m)
  | .countTree root => (m.activeInTree root, m)
  | .terminate id => m.updateActive id fun w => { w with state := .terminated }
  | .degrade id => m.updateActive id fun w => { w with state := .degraded }
  | .stale t role =>
    (oldestFirst (m.workers.values.filter fun w =>
      w.isActive && decide (w.createdAt < t) && role.all (w.role == ·)), m)
  | .list state => (oldestFirst (m.workers.values.filter fun w => state.all (w.state == ·)), m)
  | .setOverride o => ((), { m with overrides := m.overrides.insert o.dependency.name o })
  | .clearOverride d =>
    (m.overrides.contains d.name, { m with overrides := m.overrides.erase d.name })
  | .listOverrides => (m.overrides.values, m)
  | .loadBreaker d => (m.row d, m)
  | .swapBreaker d expected next =>
    if m.row d = expected then (true, { m with breakers := m.breakers.insert d.name next })
    else (false, { m with breakers := m.breakers.insert d.name (m.row d) })
  | .listBreakers => (m.breakers.entries.map fun e => (⟨e.1⟩, e.2), m)

end Memory
end WorkerGuard.Registry
