import WorkerGuard.Json.Numeral

/-!
# WorkerGuard.Json.Written

Documents as they are written: repeated fields are still there, numbers are not yet evaluated, and
escapes in strings are not yet checked for halves of surrogate pairs.

* `Written`: the tree; `Unit16`: one character or escape of a string.
* `Written.read?`: reads a whole text.
* `Written.value?`: the document that is meant, if it is nested no deeper than a bound.
-/

namespace WorkerGuard.Json

/-- A character as it stands, or the number of a `\u` escape. -/
inductive Unit16 where
  | plain (c : Char)
  | code (n : Nat)
  deriving DecidableEq, Repr

inductive Written where
  | null
  | bool (b : Bool)
  | num (n : Numeral)
  | str (s : List Unit16)
  | arr (items : List Written)
  | obj (fields : List (List Unit16 × Written))
  deriving Inhabited

namespace Unit16

/-- The text, if every half of a surrogate pair has the other half beside it. -/
def join? : List Unit16 → Option (List Char)
  | [] => some []
  | plain c :: r => (join? r).map (c :: ·)
  | [code n] => if 0xd800 ≤ n ∧ n ≤ 0xdfff then none else some [Char.ofNat n]
  | code n :: code m :: r =>
    if 0xd800 ≤ n ∧ n ≤ 0xdbff then
      if 0xdc00 ≤ m ∧ m ≤ 0xdfff then
        (join? r).map (Char.ofNat (0x10000 + (n - 0xd800) * 0x400 + (m - 0xdc00)) :: ·)
      else none
    else if 0xdc00 ≤ n ∧ n ≤ 0xdfff then none
    else (join? (code m :: r)).map (Char.ofNat n :: ·)
  | code n :: plain c :: r =>
    if 0xd800 ≤ n ∧ n ≤ 0xdfff then none
    else (join? (plain c :: r)).map (Char.ofNat n :: ·)

def text? (s : List Unit16) : Option String := (join? s).map String.ofList

end Unit16

namespace Written

def isSpace (c : Char) : Bool := c == ' ' || c == '\t' || c == '\n' || c == '\r'

def skipSpace (s : List Char) : List Char := s.dropWhile isSpace

def hexValue? (c : Char) : Option Nat :=
  if c.isDigit then some (c.toNat - '0'.toNat)
  else if 'a' ≤ c ∧ c ≤ 'f' then some (c.toNat - 'a'.toNat + 10)
  else if 'A' ≤ c ∧ c ≤ 'F' then some (c.toNat - 'A'.toNat + 10)
  else none

def escape? : Char → Option Char
  | '"' => some '"'
  | '\\' => some '\\'
  | '/' => some '/'
  | 'b' => some '\x08'
  | 'f' => some '\x0c'
  | 'n' => some '\n'
  | 'r' => some '\r'
  | 't' => some '\t'
  | _ => none

/-- The rest of a string, after the opening quote. -/
def string? : List Char → Option (List Unit16 × List Char)
  | [] => none
  | '"' :: r => some ([], r)
  | '\\' :: 'u' :: a :: b :: c :: d :: r => do
    let n := (← hexValue? a) * 4096 + (← hexValue? b) * 256 + (← hexValue? c) * 16 + (← hexValue? d)
    let (s, rest) ← string? r
    return (.code n :: s, rest)
  | '\\' :: c :: r => do
    let e ← escape? c
    let (s, rest) ← string? r
    return (.plain e :: s, rest)
  | c :: r =>
    if c == '\\' || c.toNat < 0x20 then none
    else (string? r).map fun (s, rest) => (.plain c :: s, rest)

/-- No digit may follow a leading zero. -/
def whole? (s : List Char) : Option (List Char × List Char) :=
  match s with
  | '0' :: r => if (r.head?.any Char.isDigit) then none else some (['0'], r)
  | c :: _ => if c.isDigit then some (s.takeWhile Char.isDigit, s.dropWhile Char.isDigit) else none
  | [] => none

def fraction? (s : List Char) : Option (List Char × List Char) :=
  match s with
  | '.' :: r =>
    if r.head?.any Char.isDigit then some (r.takeWhile Char.isDigit, r.dropWhile Char.isDigit)
    else none
  | _ => some ([], s)

def exponent? (s : List Char) : Option (Option (Bool × List Char) × List Char) :=
  let digits (negative : Bool) (r : List Char) : Option (Option (Bool × List Char) × List Char) :=
    if r.head?.any Char.isDigit then
      some (some (negative, r.takeWhile Char.isDigit), r.dropWhile Char.isDigit)
    else none
  match s with
  | c :: r =>
    if c == 'e' || c == 'E' then
      match r with
      | '-' :: r => digits true r
      | '+' :: r => digits false r
      | r => digits false r
    else some (none, s)
  | [] => some (none, [])

def numeral? (s : List Char) : Option (Numeral × List Char) := do
  let (negative, s) := match s with
    | '-' :: r => (true, r)
    | s => (false, s)
  let (w, s) ← whole? s
  let (f, s) ← fraction? s
  let (e, s) ← exponent? s
  return (⟨negative, w, f, e⟩, s)

mutual

/-- A value and what follows it. -/
def value : Nat → List Char → Option (Written × List Char)
  | 0, _ => none
  | fuel + 1, s =>
    match skipSpace s with
    | 'n' :: 'u' :: 'l' :: 'l' :: r => some (.null, r)
    | 't' :: 'r' :: 'u' :: 'e' :: r => some (.bool true, r)
    | 'f' :: 'a' :: 'l' :: 's' :: 'e' :: r => some (.bool false, r)
    | '"' :: r => (string? r).map fun (s, rest) => (.str s, rest)
    | '[' :: r =>
      match skipSpace r with
      | ']' :: r => some (.arr [], r)
      | r => (items fuel r).map fun (vs, rest) => (.arr vs, rest)
    | '\x7b' :: r =>
      match skipSpace r with
      | '\x7d' :: r => some (.obj [], r)
      | r => (fields fuel r).map fun (fs, rest) => (.obj fs, rest)
    | s => (numeral? s).map fun (n, rest) => (.num n, rest)

/-- The items of an array from the next one on. -/
def items : Nat → List Char → Option (List Written × List Char)
  | 0, _ => none
  | fuel + 1, s =>
    match value fuel s with
    | none => none
    | some (v, r) =>
      match skipSpace r with
      | ']' :: r => some ([v], r)
      | ',' :: r => (items fuel r).map fun (vs, rest) => (v :: vs, rest)
      | _ => none

/-- The fields of an object from the next one on. -/
def fields : Nat → List Char → Option (List (List Unit16 × Written) × List Char)
  | 0, _ => none
  | fuel + 1, s =>
    match skipSpace s with
    | '"' :: r =>
      match string? r with
      | none => none
      | some (k, r) =>
        match skipSpace r with
        | ':' :: r =>
          match value fuel r with
          | none => none
          | some (v, r) =>
            match skipSpace r with
            | '\x7d' :: r => some ([(k, v)], r)
            | ',' :: r => (fields fuel r).map fun (fs, rest) => ((k, v) :: fs, rest)
            | _ => none
        | _ => none
    | _ => none

end

/-- Every step of the reader takes a character, so the length of the text bounds their number. -/
def readChars? (cs : List Char) : Option Written :=
  match value (2 * cs.length + 1) cs with
  | some (v, r) => if (skipSpace r).isEmpty then some v else none
  | none => none

def read? (s : String) : Option Written := readChars? s.toList

/-- Puts a field in its place in the order of names; a later one replaces an earlier one. -/
def putField (k : String) (v : Json) : List (String × Json) → List (String × Json)
  | [] => [(k, v)]
  | f :: r =>
    if k < f.1 then (k, v) :: f :: r
    else if f.1 < k then f :: putField k v r
    else (k, v) :: r

mutual

/-- The document. Arrays and objects may be nested `depth` deep. -/
def value? (depth : Nat) : Written → Option Json
  | .null => some .null
  | .bool b => some (.bool b)
  | .num n => n.value?
  | .str s => (Unit16.text? s).map .str
  | .arr vs => if depth = 0 then none else (itemValues? (depth - 1) vs).map .arr
  | .obj fs => if depth = 0 then none else (fieldValues? (depth - 1) [] fs).map .obj

def itemValues? (depth : Nat) : List Written → Option (List Json)
  | [] => some []
  | v :: r =>
    match value? depth v with
    | none => none
    | some x => (itemValues? depth r).map (x :: ·)

def fieldValues? (depth : Nat) (sofar : List (String × Json)) :
    List (List Unit16 × Written) → Option (List (String × Json))
  | [] => some sofar
  | f :: r =>
    match Unit16.text? f.1, value? depth f.2 with
    | some k, some x => fieldValues? depth (putField k x sofar) r
    | _, _ => none

end

end Written
end WorkerGuard.Json
