import WorkerGuard.Json.Record
import WorkerGuard.Name
import WorkerGuard.Vocabulary

/-!
# WorkerGuard.Worker.Record

What is known of a worker.

* `Worker.State`: only active workers occupy a place under a ceiling.
* `Worker`: a row of the registry. A worker with a parent is a helper; `root` and `depth` follow
  from the parent.
* `Recruit`: a worker about to be registered. `Recruit.enrolled` is its first row.
* `Ceilings`: how many active workers a role and a tree may have.

`Worker` embeds `WorkerRecord`, with `age`; `Recruit` is `NewWorker`, with `into_record` as
`enrolled`, and `Ceilings` is `SpawnCeilings`.
-/

namespace WorkerGuard

inductive Worker.State where
  | active
  | degraded
  | terminated
  deriving DecidableEq, Repr, Inhabited

namespace Worker.State

def name : State → String
  | active => "active"
  | degraded => "degraded"
  | terminated => "terminated"

def words : List (String × State) := [active, degraded, terminated].map fun s => (s.name, s)

def ofText (s : String) : Except UnknownWord State := Vocabulary.workerState.lookUp words s

end Worker.State

structure Worker where
  id : WorkerId
  role : String
  parent : Option WorkerId
  root : WorkerId
  depth : UInt32
  dependency : Dependency
  createdAt : Instant
  lastHeartbeatAt : Instant
  state : Worker.State
  deriving DecidableEq

structure Recruit where
  id : WorkerId
  role : String
  parent : Option WorkerId
  root : WorkerId
  depth : UInt32
  dependency : Dependency
  createdAt : Instant
  deriving DecidableEq

structure Ceilings where
  role : UInt32
  tree : UInt32
  deriving DecidableEq, Repr

/-- A new worker is active, and its creation is its first heartbeat. -/
def Recruit.enrolled (r : Recruit) : Worker where
  id := r.id
  role := r.role
  parent := r.parent
  root := r.root
  depth := r.depth
  dependency := r.dependency
  createdAt := r.createdAt
  lastHeartbeatAt := r.createdAt
  state := .active

namespace Worker

def isActive (w : Worker) : Bool := w.state == .active

/-- The time since its creation; heartbeats do not count. -/
def age (w : Worker) (now : Instant) : Duration := now.since w.createdAt

def toJson (w : Worker) : Json :=
  .obj [("id", .str w.id.text), ("role", .str w.role),
    ("parent_id", .ofOption (fun p => .str p.text) w.parent), ("root_id", .str w.root.text),
    ("depth", .int w.depth.toNat), ("dependency", .str w.dependency.name),
    ("created_at", .str w.createdAt.stamp), ("last_heartbeat_at", .str w.lastHeartbeatAt.stamp),
    ("state", .str w.state.name)]

open Json.Record in
def read? (w : Json.Written) : Option Worker := do
  let [id, role, parent, root, depth, dependency, created, heartbeat, state] ←
    members? ["id", "role", "parent_id", "root_id", "depth", "dependency", "created_at",
      "last_heartbeat_at", "state"] w | none
  return {
    id := ⟨← required text? id⟩
    role := ← required text? role
    parent := (← optional text? parent).map WorkerId.mk
    root := ⟨← required text? root⟩
    depth := ← required word32? depth
    dependency := ⟨← required text? dependency⟩
    createdAt := ← required instant? created
    lastHeartbeatAt := ← required instant? heartbeat
    state := ← required (word? State.words) state }

/-- Creation first, names break ties. -/
def precedes (a b : Worker) : Bool :=
  a.createdAt < b.createdAt || a.createdAt == b.createdAt && decide (¬b.id.text < a.id.text)

end Worker
end WorkerGuard
