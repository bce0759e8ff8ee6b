import WorkerGuard.Keyed
import WorkerGuard.Registry.Request

/-!
# WorkerGuard.Registry.Database

The durable registry: three tables whose columns hold texts and signed 64-bit integers.

* `WorkerRow`, `BreakerRow`, `OverrideRow`: the rows. Times are whole milliseconds, states are
  texts, and anybody may have written them.
* `WorkerRow.read`, `BreakerRow.read`, `OverrideRow.read`: what a row means, if it means anything.
* `Database.answer`: one request. Conditions compare columns; only what is selected is read.

`Database.answer` embeds the methods of `TursoRegistry`. Of its helpers, `select` is
`select_workers`, `activeIn` is `count`, `updateActive` is `transition_from_active` and the update
of a heartbeat, `instantOf` is `from_millis`, and the rows are read by `parse_worker_row` and
`parse_breaker_row`.
-/

namespace WorkerGuard.Registry

structure WorkerRow where
  role : String
  parent : Option String
  root : String
  depth : Int
  dependency : String
  createdAt : Int
  lastHeartbeatAt : Int
  state : String
  deriving DecidableEq, Repr

structure BreakerRow where
  state : String
  failures : Int
  stamp : Int
  deriving DecidableEq, Repr

structure OverrideRow where
  reason : Option String
  setAt : Int
  deriving DecidableEq, Repr

structure Database where
  workers : Keyed WorkerRow
  breakers : Keyed BreakerRow
  overrides : Keyed OverrideRow
  deriving Inhabited

/-- A number below 2^64 in a signed column. -/
def signed (n : Nat) : Int := (n : Int).bmod UInt64.size

def stateOf {α : Type} : Except UnknownWord α → Except Error α
  | .ok a => .ok a
  | .error u => .error (.unknownState u)

def instantOf (millis : Int) : Except Error Instant :=
  match Instant.ofMillis? millis with
  | some t => .ok t
  | none => .error (.badTime millis)

namespace WorkerRow

def ofRecruit (r : Recruit) : WorkerRow where
  role := r.role
  parent := r.parent.map (·.text)
  root := r.root.text
  depth := r.depth.toNat
  dependency := r.dependency.name
  createdAt := r.createdAt.millis
  lastHeartbeatAt := r.createdAt.millis
  state := Worker.State.active.name

/-- A negative depth is none; of a large one the low 32 bits remain. -/
def read (id : String) (r : WorkerRow) : Except Error Worker := do
  let createdAt ← instantOf r.createdAt
  let lastHeartbeatAt ← instantOf r.lastHeartbeatAt
  let state ← stateOf (Worker.State.ofText r.state)
  return {
    id := ⟨id⟩
    role := r.role
    parent := r.parent.map WorkerId.mk
    root := ⟨r.root⟩
    depth := r.depth.toNat.toUInt32
    dependency := ⟨r.dependency⟩
    createdAt
    lastHeartbeatAt
    state }

def isActive (r : WorkerRow) : Bool := r.state == Worker.State.active.name

end WorkerRow

namespace BreakerRow

def ofRow (r : Breaker.Row) : BreakerRow :=
  ⟨r.circuit.name, r.failures.toNat, signed r.stamp.toNat⟩

/-- Numbers out of range read as the nearest one in range. -/
def read (r : BreakerRow) : Except Error Breaker.Row := do
  let circuit ← stateOf (Circuit.ofText r.state)
  return ⟨circuit, (min r.failures.toNat 4294967295).toUInt32, r.stamp.toNat.toUInt64⟩

end BreakerRow

def OverrideRow.read (dependency : String) (r : OverrideRow) : Except Error Override := do
  let setAt ← instantOf r.setAt
  return ⟨⟨dependency⟩, r.reason, setAt⟩

namespace Database

def empty : Database := ⟨.empty, .empty, .empty⟩

def activeIn (db : Database) (p : WorkerRow → Bool) : Nat :=
  (db.workers.values.filter fun r => r.isActive && p r).length

/-- The selected workers, oldest first; one that cannot be read spoils the answer. -/
def select (db : Database) (p : WorkerRow → Bool) : Except Error (List Worker) :=
  ((db.workers.entries.filter fun e => p e.2).mergeSort fun a b =>
    a.2.createdAt ≤ b.2.createdAt).mapM fun e => e.2.read e.1

def updateActive (db : Database) (id : WorkerId) (f : WorkerRow → WorkerRow) : Bool × Database :=
  match db.workers.find? id.text with
  | some r =>
    if r.isActive then (true, { db with workers := db.workers.insert id.text (f r) })
    else (false, db)
  | none => (false, db)

/-- A row that was never written is compared as a fresh one, and written for it. -/
def seeded (db : Database) (d : Dependency) (expected : Breaker.Row) : Database :=
  if expected = .fresh ∧ ¬db.breakers.contains d.name then
    { db with breakers := db.breakers.insert d.name (.ofRow .fresh) }
  else db

def answer (db : Database) : (q : Request) → Except Error q.Answer × Database
  | .insert r c =>
    if db.activeIn (·.role == r.role) < c.role.toNat ∧
        db.activeIn (·.root == r.root.text) < c.tree.toNat then
      if db.workers.contains r.id.text then (.error .rejected, db)
      else (.ok (some r.enrolled),
        { db with workers := db.workers.insert r.id.text (.ofRecruit r) })
    else (.ok none, db)
  | .get id =>
    match db.workers.find? id.text with
    | some r => ((r.read id.text).map some, db)
    | none => (.ok none, db)
  | .heartbeat id t =>
    let (found, db) := db.updateActive id fun r => { r with lastHeartbeatAt := t.millis }
    (.ok found, db)
  | .countRole role => (.ok (db.activeIn (·.role == role)), db)
  | .countTree root => (.ok (db.activeIn (·.root == root.text)), db)
  | .terminate id =>
    let (found, db) := db.updateActive id fun r =>
      { r with state := Worker.State.terminated.name }
    (.ok found, db)
  | .degrade id =>
    let (found, db) := db.updateActive id fun r => { r with state := Worker.State.degraded.name }
    (.ok found, db)
  | .stale t role =>
    (db.select fun r => r.isActive && decide (r.createdAt < t.millis) && role.all (r.role == ·), db)
  | .list state => (db.select fun r => state.all (r.state == ·.name), db)
  | .setOverride o =>
    (.ok (), { db with
      overrides := db.overrides.insert o.dependency.name ⟨o.reason, o.setAt.millis⟩ })
  | .clearOverride d =>
    (.ok (db.overrides.contains d.name), { db with overrides := db.overrides.erase d.name })
  | .listOverrides => (db.overrides.entries.mapM fun e => e.2.read e.1, db)
  | .loadBreaker d =>
    match db.breakers.find? d.name with
    | some r => (r.read, db)
    | none => (.ok .fresh, db)
  | .swapBreaker d expected next =>
    let db := db.seeded d expected
    if db.breakers.find? d.name = some (.ofRow expected) then
      (.ok true, { db with breakers := db.breakers.insert d.name (.ofRow next) })
    else (.ok false, db)
  | .listBreakers =>
    (db.breakers.entries.mapM fun e => do
      let r ← e.2.read
      return (⟨e.1⟩, r), db)

end Database
end WorkerGuard.Registry
