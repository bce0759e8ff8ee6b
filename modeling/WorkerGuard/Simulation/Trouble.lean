import WorkerGuard.Registry.Database
import WorkerGuard.Registry.Memory

/-!
# WorkerGuard.Simulation.Trouble

A registry of either kind, and what can be made to go wrong with it.

* `Store`: a registry, in memory or durable.
* `Method`: the sorts of requests.
* `Trouble`: which requests fail, which rows are changed behind the back of a writer, which workers
  end just before they are terminated, and how slow scans are.
-/

namespace WorkerGuard.Simulation

open Registry

inductive Store where
  | memory (m : Memory)
  | database (db : Database)

instance : Inhabited Store := ⟨.memory .empty⟩

def Store.answer (s : Store) (q : Request) : Except Registry.Error q.Answer × Store :=
  match s with
  | .memory m => let (a, m) := m.answer q; (.ok a, .memory m)
  | .database db => let (a, db) := db.answer q; (a, .database db)

inductive Method where
  | insert
  | get
  | heartbeat
  | count
  | countTree
  | terminate
  | degrade
  | stale
  | list
  | setOverride
  | clearOverride
  | overrides
  | loadBreaker
  | swapBreaker
  | listBreakers
  deriving DecidableEq, Repr

namespace Method

def all : List Method :=
  [insert, get, heartbeat, count, countTree, terminate, degrade, stale, list, setOverride,
    clearOverride, overrides, loadBreaker, swapBreaker, listBreakers]

def name : Method → String
  | insert => "insert"
  | get => "get"
  | heartbeat => "heartbeat"
  | count => "count"
  | countTree => "count_tree"
  | terminate => "terminate"
  | degrade => "degrade"
  | stale => "stale"
  | list => "list"
  | setOverride => "set_override"
  | clearOverride => "clear_override"
  | overrides => "overrides"
  | loadBreaker => "load_breaker"
  | swapBreaker => "swap_breaker"
  | listBreakers => "list_breakers"

def words : List (String × Method) := all.map fun m => (m.name, m)

def ofRequest : Request → Method
  | .insert .. => insert
  | .get _ => get
  | .heartbeat .. => heartbeat
  | .countRole _ => count
  | .countTree _ => countTree
  | .terminate _ => terminate
  | .degrade _ => degrade
  | .stale .. => stale
  | .list _ => list
  | .setOverride _ => setOverride
  | .clearOverride _ => clearOverride
  | .listOverrides => overrides
  | .loadBreaker _ => loadBreaker
  | .swapBreaker .. => swapBreaker
  | .listBreakers => listBreakers

end Method

structure Trouble where
  /-- Requests of these sorts fail before they do anything. -/
  failing : List Method := []
  /-- Rows of a dependency that others write, one before each swap. -/
  conflicts : Keyed (List Breaker.Row) := .empty
  /-- Workers that are closed as degraded just before they are next terminated. -/
  steals : List WorkerId := []
  /-- Milliseconds that each scan for old workers takes. -/
  scanMillis : Nat := 0
  deriving Inhabited

namespace Trouble

def fails (t : Trouble) (q : Request) : Bool := t.failing.contains (.ofRequest q)

/-- Another writer puts the next of its rows in place of the one that is there. -/
def interfere (t : Trouble) (d : Dependency) (s : Store) :
    Except Registry.Error Unit × Trouble × Store :=
  match t.conflicts.find? d.name with
  | some (row :: rows) =>
    let t := { t with conflicts := t.conflicts.insert d.name rows }
    match s.answer (.loadBreaker d) with
    | (.error e, s) => (.error e, t, s)
    | (.ok found, s) =>
      match s.answer (.swapBreaker d found row) with
      | (.error e, s) => (.error e, t, s)
      | (.ok _, s) => (.ok (), t, s)
  | _ => (.ok (), t, s)

/-- A request that does not fail at once. -/
def answer (t : Trouble) (s : Store) :
    (q : Request) → Except Registry.Error q.Answer × Trouble × Store
  | .terminate id =>
    if t.steals.contains id then
      let (_, s) := s.answer (.degrade id)
      let (a, s) := s.answer (.terminate id)
      (a, { t with steals := t.steals.filter (· != id) }, s)
    else
      let (a, s) := s.answer (.terminate id)
      (a, t, s)
  | .swapBreaker d expected next =>
    match t.interfere d s with
    | (.error e, t, s) => (.error e, t, s)
    | (.ok (), t, s) =>
      let (a, s) := s.answer (.swapBreaker d expected next)
      (a, t, s)
  | q =>
    let (a, s) := s.answer q
    (a, t, s)

end Trouble
end WorkerGuard.Simulation
