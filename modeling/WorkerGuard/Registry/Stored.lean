import WorkerGuard.Json.Written
import WorkerGuard.Registry.RawRow

/-!
# WorkerGuard.Registry.Stored

A database as a text: for each table its rows, for each row its columns.

* `Database.rows`: the rows of a table.
* `Database.text`: the text; `Database.ofText?` reads it, row by row.
-/

namespace WorkerGuard.Registry

def Cell.ofText? : Option String → Cell
  | some s => .text s
  | none => .null

def Cell.toJson : Cell → Json
  | null => .null
  | integer n => .int n
  | text s => .str s

def Cell.ofJson? : Json → Option Cell
  | .null => some null
  | .int n => some (integer n)
  | .str s => some (text s)
  | _ => none

def Table.all : List Table := [.workers, .breakers, .overrides]

def Table.name : Table → String
  | workers => "workers"
  | breakers => "breakers"
  | overrides => "dependency_overrides"

def WorkerRow.cells (id : String) (r : WorkerRow) : List Cell :=
  [.text id, .text r.role, .ofText? r.parent, .text r.root, .integer r.depth, .text r.dependency,
    .integer r.createdAt, .integer r.lastHeartbeatAt, .text r.state]

def BreakerRow.cells (dependency : String) (r : BreakerRow) : List Cell :=
  [.text dependency, .text r.state, .integer r.failures, .integer r.stamp]

def OverrideRow.cells (dependency : String) (r : OverrideRow) : List Cell :=
  [.text dependency, .ofText? r.reason, .integer r.setAt]

namespace Database

def cells (db : Database) : Table → List (List Cell)
  | .workers => db.workers.entries.map fun e => e.2.cells e.1
  | .breakers => db.breakers.entries.map fun e => e.2.cells e.1
  | .overrides => db.overrides.entries.map fun e => e.2.cells e.1

def rows (db : Database) (t : Table) : List (List (String × Cell)) :=
  (db.cells t).map (RawRow.columns t).zip

def text (db : Database) : String :=
  (Json.obj (Table.all.map fun t => (t.name, Json.arr ((db.rows t).map fun row =>
    Json.obj (row.map fun c => (c.1, c.2.toJson)))))).text

def addRow? (t : Table) (db : Database) : Json → Option Database
  | .obj fs => do db.put? t (← fs.mapM fun f => do return (f.1, ← Cell.ofJson? f.2))
  | _ => none

def addRows? (db : Database) (t : Table) : Option Json → Option Database
  | some (.arr rows) => rows.foldlM (addRow? t) db
  | _ => none

def ofText? (s : String) : Option Database := do
  match ← (Json.Written.read? s).bind (Json.Written.value? 4) with
  | .obj fs => Table.all.foldlM (fun db t => db.addRows? t (fs.lookup t.name)) empty
  | _ => none

end Database
end WorkerGuard.Registry
