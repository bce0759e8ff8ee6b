import WorkerGuard.Json.Value

/-!
# WorkerGuard.Toml.Table

How the statements of a TOML document build up its tables.

* `Table`: a table in the making, which remembers how it came about.
* `Table.put?`: a value under a dotted key.
* `Table.open?`, `Table.extend?`: a table header, and a header of an array of tables.
* `Table.toJson`: the finished document.

A key is given a value once. A table is opened once, but may have come about before through the
header of a table inside it. A table that came about through a dotted key is extended by dotted keys
only.
-/

namespace WorkerGuard.Toml

/-- How a table came about. -/
inductive Origin where
  /-- By its own header, or as the document itself. -/
  | header
  /-- By the header of a table inside it. -/
  | passed
  /-- By a dotted key. -/
  | dotted
  deriving DecidableEq, Repr

mutual

inductive Node where
  | value (v : Json)
  | table (t : Table)
  /-- The last one is first. -/
  | tables (last : Table) (others : List Table)

inductive Table where
  | mk (origin : Origin) (entries : List (String × Node))

end

namespace Table

def origin : Table → Origin
  | mk o _ => o

def entries : Table → List (String × Node)
  | mk _ es => es

instance : Inhabited Table := ⟨mk .header []⟩

def find? (t : Table) (k : String) : Option Node := t.entries.lookup k

/-- A new key comes last. -/
def setEntry (k : String) (n : Node) : List (String × Node) → List (String × Node)
  | [] => [(k, n)]
  | e :: r => if e.1 = k then (k, n) :: r else e :: setEntry k n r

def set (t : Table) (k : String) (n : Node) : Table := mk t.origin (setEntry k n t.entries)

/-- Changes the table that a path leads to. Tables that are missing come about on the way; in an
array of tables the path goes on in the last one. A dotted key does not lead into a table that has
a header. -/
def change? (origin : Origin) (f : Table → Option Table) : List String → Table → Option Table
  | [], t => f t
  | k :: path, t =>
    match t.find? k with
    | none => (change? origin f path (mk origin [])).map fun c => t.set k (.table c)
    | some (.value _) => none
    | some (.tables last others) =>
      (change? origin f path last).map fun c => t.set k (.tables c others)
    | some (.table c) =>
      if origin = .dotted ∧ c.origin = .header then none
      else (change? origin f path c).map fun c => t.set k (.table c)

/-- A value under a key that has none, in a table of the right origin: one key alone belongs to a
table that is open, a dotted one to a table that came about so. -/
def put? (path : List String) (k : String) (v : Json) : Table → Option Table :=
  change? .dotted (fun t =>
    if (t.origin == .dotted) = path.isEmpty then none
    else if (t.find? k).isSome then none
    else some (t.set k (.value v))) path

/-- Puts a value in a table reached by a header. -/
def putUnder? (header path : List String) (k : String) (v : Json) (root : Table) : Option Table :=
  change? .passed (put? path k v) header root

def open? (path : List String) (k : String) (root : Table) : Option Table :=
  change? .passed (fun t =>
    match t.find? k with
    | none => some (t.set k (.table (mk .header [])))
    | some (.table c) =>
      if c.origin = .passed then some (t.set k (.table (mk .header c.entries))) else none
    | some _ => none) path root

def extend? (path : List String) (k : String) (root : Table) : Option Table :=
  change? .passed (fun t =>
    match t.find? k with
    | none => some (t.set k (.tables (mk .header []) []))
    | some (.tables last others) => some (t.set k (.tables (mk .header []) (last :: others)))
    | some _ => none) path root

end Table

mutual

def Node.toJson : Node → Json
  | .value v => v
  | .table t => t.toJson
  | .tables last others => .arr (reversedJson others [last.toJson])

def Table.toJson : Table → Json
  | .mk _ es => .obj (entriesJson es)

def entriesJson : List (String × Node) → List (String × Json)
  | [] => []
  | e :: r => (e.1, e.2.toJson) :: entriesJson r

def reversedJson : List Table → List Json → List Json
  | [], done => done
  | t :: r, done => reversedJson r (t.toJson :: done)

end

end WorkerGuard.Toml
