import WorkerGuard.Registry.Database

/-!
# WorkerGuard.Registry.RawRow

Rows that are written into the tables directly, not through the registry.

* `Cell`: the content of a column.
* `Database.put?`: adds a row of cells by the rules of the tables: keys are unique, columns without
  a default have to be given, and only a few may be null.

The tables are those of `init_schema`.
-/

namespace WorkerGuard.Registry

inductive Cell where
  | null
  | integer (n : Int)
  | text (s : String)
  deriving DecidableEq, Repr

inductive Table where
  | workers
  | breakers
  | overrides
  deriving DecidableEq, Repr

namespace Cell

def text? : Cell → Option String
  | null => none
  | integer n => some (toString n)
  | text s => some s

def integer? : Cell → Option Int
  | null => none
  | integer n => if -9223372036854775808 ≤ n ∧ n ≤ 9223372036854775807 then some n else none
  | text s => s.toInt?

end Cell

namespace RawRow

/-- A column that must not be null; `default` stands for one that is not given. -/
def column {α : Type} (read : Cell → Option α) (row : List (String × Cell)) (name : String)
    (default : Option α) : Option α :=
  match row.lookup name with
  | some c => read c
  | none => default

def nullable (row : List (String × Cell)) (name : String) : Option (Option String) :=
  match row.lookup name with
  | some .null => some none
  | some c => c.text?.map some
  | none => some none

def columns : Table → List String
  | .workers => ["id", "role", "parent_id", "root_id", "depth", "dependency", "created_at",
      "last_heartbeat_at", "state"]
  | .breakers => ["dependency", "state", "failures", "stamp_ms"]
  | .overrides => ["dependency", "reason", "set_at"]

def worker? (row : List (String × Cell)) : Option (String × WorkerRow) := do
  return (← column Cell.text? row "id" none, {
    role := ← column Cell.text? row "role" none
    parent := ← nullable row "parent_id"
    root := ← column Cell.text? row "root_id" none
    depth := ← column Cell.integer? row "depth" (some 0)
    dependency := ← column Cell.text? row "dependency" none
    createdAt := ← column Cell.integer? row "created_at" none
    lastHeartbeatAt := ← column Cell.integer? row "last_heartbeat_at" none
    state := ← column Cell.text? row "state" (some "active") })

def breaker? (row : List (String × Cell)) : Option (String × BreakerRow) := do
  return (← column Cell.text? row "dependency" none, {
    state := ← column Cell.text? row "state" (some "closed")
    failures := ← column Cell.integer? row "failures" (some 0)
    stamp := ← column Cell.integer? row "stamp_ms" (some 0) })

def override? (row : List (String × Cell)) : Option (String × OverrideRow) := do
  return (← column Cell.text? row "dependency" none, {
    reason := ← nullable row "reason"
    setAt := ← column Cell.integer? row "set_at" none })

end RawRow

def Database.put? (db : Database) (table : Table) (row : List (String × Cell)) :
    Option Database := do
  if row.all fun c => (RawRow.columns table).contains c.1 then
    match table with
    | .workers =>
      return { db with workers := ← db.workers.insertNew? (← RawRow.worker? row) }
    | .breakers =>
      return { db with breakers := ← db.breakers.insertNew? (← RawRow.breaker? row) }
    | .overrides =>
      return { db with overrides := ← db.overrides.insertNew? (← RawRow.override? row) }
  else none

end WorkerGuard.Registry
