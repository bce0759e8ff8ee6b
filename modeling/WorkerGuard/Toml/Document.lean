import WorkerGuard.Toml.Scalar
import WorkerGuard.Toml.Table

/-!
# WorkerGuard.Toml.Document

TOML documents, version 1.0.

* `value?`: any value; arrays and inline tables are nested at most 79 deep.
* `Statement`: a line of a document; `statement?` reads one.
* `read?`: a whole document as one object. A time becomes an object of one field.
-/

namespace WorkerGuard.Toml

/-- Arrays, inline tables and dotted keys stay below this depth. -/
def depthLimit : Nat := 80

def isBare (c : Char) : Bool := c.isAlphanum || c == '_' || c == '-'

/-- One part of a key; it may be quoted, but not over several lines. -/
def keyPart? : Reader String := fun cs =>
  match cs with
  | '"' :: r => (basic? (r.length + 1) r).map fun (s, rest) => (String.ofList s, rest)
  | '\'' :: r => (literal? r).map fun (s, rest) => (String.ofList s, rest)
  | _ =>
    let part := cs.takeWhile isBare
    if part.isEmpty then none else some (String.ofList part, cs.dropWhile isBare)

/-- The parts of a key from the next one on, the last one apart. -/
def keyParts? : Nat → Reader (List String × String)
  | 0, _ => none
  | fuel + 1, cs => do
    let (k, r) ← keyPart? (skipSpace cs)
    match skipSpace r with
    | '.' :: r =>
      let ((path, last), rest) ← keyParts? fuel r
      return ((k :: path, last), rest)
    | r => return (([], k), r)

def key? : Reader (List String × String) := fun cs => do
  let (k, r) ← keyParts? (cs.length + 1) cs
  if k.1.length + 1 < depthLimit then return (k, r) else none

/-- Skips spaces, comments and line ends. A comment has to end its line. -/
def skipLines : Nat → List Char → List Char
  | 0, cs => cs
  | fuel + 1, cs =>
    let cs := skipSpace cs
    match newline? (skipComment cs) with
    | some r => skipLines fuel r
    | none => cs

def skipAll (cs : List Char) : List Char := skipLines cs.length cs

def isSignOrDigit (c : Char) : Bool := c == '+' || c == '-' || c.isDigit

def scalarValue? : Reader Json := fun cs =>
  match cs with
  | 't' :: 'r' :: 'u' :: 'e' :: r => some (.bool true, r)
  | 'f' :: 'a' :: 'l' :: 's' :: 'e' :: r => some (.bool false, r)
  | c :: _ =>
    if c == '"' || c == '\'' then (string? cs).map fun (s, r) => (.str s, r)
    else
      match time? cs with
      | some r => some (.obj [("time", .str (String.ofList (cs.take (cs.length - r.length))))], r)
      | none => if isSignOrDigit c || c == 'i' || c == 'n' then number? cs else none
  | [] => none

mutual

def value? : Nat → Nat → Reader Json
  | 0, _, _ => none
  | fuel + 1, depth, cs =>
    match cs with
    | '[' :: r => if depth + 1 < depthLimit then items? fuel (depth + 1) r else none
    | '\x7b' :: r =>
      if depth + 1 < depthLimit then
        match skipSpace r with
        | '\x7d' :: r => some (.obj [], r)
        | r => (pairs? fuel (depth + 1) (.mk .header []) r).map fun (t, r) => (t.toJson, r)
      else none
    | cs => scalarValue? cs

/-- An array from the next item or its end on; a comma may follow the last item. -/
def items? : Nat → Nat → Reader Json
  | 0, _, _ => none
  | fuel + 1, depth, cs =>
    match skipAll cs with
    | ']' :: r => some (.arr [], r)
    | cs =>
      match value? fuel depth cs with
      | none => none
      | some (v, r) =>
        match skipAll r with
        | ']' :: r => some (.arr [v], r)
        | ',' :: r =>
          match items? fuel depth r with
          | some (.arr vs, r) => some (.arr (v :: vs), r)
          | _ => none
        | _ => none

/-- An inline table from the next pair on; it stands on one line. -/
def pairs? : Nat → Nat → Table → Reader Table
  | 0, _, _, _ => none
  | fuel + 1, depth, t, cs =>
    match key? cs with
    | some ((path, k), '=' :: r) =>
      match value? fuel depth (skipSpace r) with
      | none => none
      | some (v, r) =>
        match t.put? path k v with
        | none => none
        | some t =>
          match skipSpace r with
          | '\x7d' :: r => some (t, r)
          | ',' :: r => pairs? fuel depth t r
          | _ => none
    | _ => none

end

inductive Statement where
  | blank
  | pair (path : List String) (key : String) (value : Json)
  | header (path : List String) (key : String)
  | arrayHeader (path : List String) (key : String)

def statement? : Reader Statement := fun cs =>
  match skipSpace cs with
  | '[' :: '[' :: r => do
    let ((path, k), r) ← key? r
    match r with
    | ']' :: ']' :: r => return (.arrayHeader path k, r)
    | _ => none
  | '[' :: r => do
    let ((path, k), r) ← key? r
    match r with
    | ']' :: r => return (.header path k, r)
    | _ => none
  | cs =>
    match skipComment cs with
    | [] => some (.blank, [])
    | rest =>
      if (newline? rest).isSome then some (.blank, rest)
      else do
        let ((path, k), r) ← key? cs
        match r with
        | '=' :: r =>
          let r := skipSpace r
          let (v, r) ← value? (2 * r.length + 1) 0 r
          return (.pair path k v, r)
        | _ => none

/-- The tables so far, and the header that new pairs belong to. -/
structure Progress where
  root : Table
  current : List String

def Progress.take? (p : Progress) : Statement → Option Progress
  | .blank => some p
  | .pair path k v => (p.root.putUnder? p.current path k v).map fun t => { p with root := t }
  | .header path k => (p.root.open? path k).map fun t => ⟨t, path ++ [k]⟩
  | .arrayHeader path k => (p.root.extend? path k).map fun t => ⟨t, path ++ [k]⟩

/-- The statements of the rest of a document, one on each line. -/
def statements? : Nat → Progress → List Char → Option Table
  | 0, _, _ => none
  | fuel + 1, p, cs => do
    let (s, r) ← statement? cs
    let p ← p.take? s
    match skipComment (skipSpace r) with
    | [] => return p.root
    | r => statements? fuel p (← newline? r)

/-- A byte order mark may stand in front. -/
def read? (s : String) : Option Json :=
  let cs := match s.toList with
    | '\ufeff' :: r => r
    | cs => cs
  (statements? (cs.length + 1) ⟨.mk .header [], []⟩ cs).map Table.toJson

end WorkerGuard.Toml
