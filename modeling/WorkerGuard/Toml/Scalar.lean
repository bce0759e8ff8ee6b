import WorkerGuard.Json.Value
import WorkerGuard.Time.Calendar

/-!
# WorkerGuard.Toml.Scalar

The values of a TOML document that hold no others: texts, numbers, truth values and times. Every
reader takes its part from the front of a text and leaves the rest.

* `string?`: the four kinds of strings.
* `number?`: integers of 64 bits in four bases, and floating-point numbers.
* `time?`: dates and times. Only their form and range matter here.
-/

namespace WorkerGuard.Toml

abbrev Reader (α : Type) := List Char → Option (α × List Char)

def isSpace (c : Char) : Bool := c == ' ' || c == '\t'

def skipSpace (cs : List Char) : List Char := cs.dropWhile isSpace

/-- The rest after a line end. -/
def newline? : List Char → Option (List Char)
  | '\n' :: r => some r
  | '\r' :: '\n' :: r => some r
  | _ => none

/-- Characters that may stand in texts and comments: no controls but the tab. -/
def isPlain (c : Char) : Bool := c == '\t' || (0x20 ≤ c.toNat && c.toNat != 0x7f)

def skipComment : List Char → List Char
  | '#' :: r => r.dropWhile isPlain
  | cs => cs

def isHex (c : Char) : Bool := c.isDigit || ('a' ≤ c && c ≤ 'f') || ('A' ≤ c && c ≤ 'F')

def hexValue (c : Char) : Nat :=
  if c.isDigit then c.toNat - '0'.toNat
  else if 'a' ≤ c then c.toNat - 'a'.toNat + 10
  else c.toNat - 'A'.toNat + 10

/-- The character of a number in hexadecimal digits; surrogates are none. -/
def scalar? (ds : List Char) : Option Char :=
  if ds.all isHex then
    let n := ds.foldl (fun n d => 16 * n + hexValue d) 0
    if n < 0xd800 ∨ (0xe000 ≤ n ∧ n < 0x110000) then some (Char.ofNat n) else none
  else none

/-- What a backslash and the following character stand for. -/
def escape? : Char → Option Char
  | 'b' => some '\x08'
  | 't' => some '\t'
  | 'n' => some '\n'
  | 'f' => some '\x0c'
  | 'r' => some '\r'
  | '"' => some '"'
  | '\\' => some '\\'
  | _ => none

/-- An escape after its backslash. -/
def escaped? : Reader Char
  | 'u' :: r => if 4 ≤ r.length then (scalar? (r.take 4)).map (·, r.drop 4) else none
  | 'U' :: r => if 8 ≤ r.length then (scalar? (r.take 8)).map (·, r.drop 8) else none
  | c :: r => (escape? c).map (·, r)
  | [] => none

/-- Line ends and spaces after a backslash at the end of a line. -/
def skipBlankLines : Nat → List Char → List Char
  | 0, cs => cs
  | fuel + 1, cs =>
    let cs := skipSpace cs
    match newline? cs with
    | some r => skipBlankLines fuel r
    | none => cs

/-- The rest of a text between single quotes. -/
def literal? : Reader (List Char)
  | [] => none
  | c :: r =>
    if c = '\'' then some ([], r)
    else if isPlain c then (literal? r).map fun (s, rest) => (c :: s, rest)
    else none

/-- The rest of a text between double quotes. The count bounds the escapes and characters. -/
def basic? : Nat → Reader (List Char)
  | 0, _ => none
  | _, [] => none
  | fuel + 1, c :: r =>
    if c = '"' then some ([], r)
    else if c = '\\' then do
      let (x, r) ← escaped? r
      let (s, rest) ← basic? fuel r
      return (x :: s, rest)
    else if isPlain c then (basic? fuel r).map fun (s, rest) => (c :: s, rest)
    else none

/-- The rest of a text of several lines between triple single quotes. -/
def longLiteral? : Nat → Reader (List Char)
  | 0, _ => none
  | _, '\'' :: '\'' :: '\'' :: '\'' :: '\'' :: r => some (['\'', '\''], r)
  | _, '\'' :: '\'' :: '\'' :: '\'' :: r => some (['\''], r)
  | _, '\'' :: '\'' :: '\'' :: r => some ([], r)
  | fuel + 1, cs =>
    match newline? cs, cs with
    | some r, _ => (longLiteral? fuel r).map fun (s, rest) => ('\n' :: s, rest)
    | none, c :: r =>
      if isPlain c then (longLiteral? fuel r).map fun (s, rest) => (c :: s, rest) else none
    | none, [] => none

/-- The rest of a text of several lines between triple double quotes. -/
def longBasic? : Nat → Reader (List Char)
  | 0, _ => none
  | _, '"' :: '"' :: '"' :: '"' :: '"' :: r => some (['"', '"'], r)
  | _, '"' :: '"' :: '"' :: '"' :: r => some (['"'], r)
  | _, '"' :: '"' :: '"' :: r => some ([], r)
  | fuel + 1, '\\' :: r =>
    match newline? (skipSpace r) with
    | some rest => longBasic? fuel (skipBlankLines rest.length rest)
    | none => do
      let (x, r) ← escaped? r
      let (s, rest) ← longBasic? fuel r
      return (x :: s, rest)
  | fuel + 1, cs =>
    match newline? cs, cs with
    | some r, _ => (longBasic? fuel r).map fun (s, rest) => ('\n' :: s, rest)
    | none, c :: r =>
      if isPlain c then (longBasic? fuel r).map fun (s, rest) => (c :: s, rest) else none
    | none, [] => none

/-- A line end right after the opening quotes does not count. -/
def afterQuotes (cs : List Char) : List Char := (newline? cs).getD cs

def string? : Reader String := fun cs =>
  let read : Option (List Char × List Char) :=
    match cs with
    | '"' :: '"' :: '"' :: r => longBasic? (r.length + 1) (afterQuotes r)
    | '"' :: r => basic? (r.length + 1) r
    | '\'' :: '\'' :: '\'' :: r => longLiteral? (r.length + 1) (afterQuotes r)
    | '\'' :: r => literal? r
    | _ => none
  read.map fun (s, rest) => (String.ofList s, rest)

/-- Digits after the first; an underscore may stand before each. -/
def moreDigits (isDigit : Char → Bool) : List Char → List Char × List Char
  | '_' :: d :: r =>
    if isDigit d then
      let (ds, rest) := moreDigits isDigit r
      (d :: ds, rest)
    else ([], '_' :: d :: r)
  | d :: r =>
    if isDigit d then
      let (ds, rest) := moreDigits isDigit r
      (d :: ds, rest)
    else ([], d :: r)
  | [] => ([], [])

def digits? (isDigit : Char → Bool) : Reader (List Char)
  | d :: r =>
    if isDigit d then
      let (ds, rest) := moreDigits isDigit r
      some (d :: ds, rest)
    else none
  | [] => none

/-- No digit follows a leading zero. -/
def decimal? : Reader (List Char)
  | '0' :: r => some (['0'], r)
  | cs => digits? Char.isDigit cs

def sign : List Char → Bool × List Char
  | '-' :: r => (true, r)
  | '+' :: r => (false, r)
  | cs => (false, cs)

def valueIn (base : Nat) (ds : List Char) : Nat := ds.foldl (fun n d => base * n + hexValue d) 0

/-- An integer of 64 bits. -/
def integer? (n : Int) : Option Json :=
  if -9223372036854775808 ≤ n ∧ n ≤ 9223372036854775807 then some (.int n) else none

def inBase? (base : Nat) (isDigit : Char → Bool) (cs : List Char) : Option (Json × List Char) := do
  let (ds, r) ← digits? isDigit cs
  return (← integer? (valueIn base ds), r)

/-- The number `n · 10^e` rounded to the nearest; `width` digits of `n` say how large it is. -/
def decimalFloat (n width : Nat) (e : Int) : Float :=
  if n = 0 then 0
  else if (width : Int) + e > 400 then 1.0 / 0.0
  else if (width : Int) + e < -400 then 0
  else Float.ofScientific n (e < 0) e.natAbs

def exponent? : Reader Int := fun cs =>
  match cs with
  | c :: r =>
    if c == 'e' || c == 'E' then do
      let (negative, r) := sign r
      let (ds, r) ← digits? Char.isDigit r
      let k : Int := valueIn 10 ds
      return (if negative then -k else k, r)
    else some (0, cs)
  | [] => some (0, [])

/-- A number with fraction or exponent. One above the largest has no value. -/
def float? : Reader Json := fun cs => do
  let (negative, cs) := sign cs
  match cs with
  | 'i' :: 'n' :: 'f' :: r => return (.float (if negative then -(1.0 / 0.0) else 1.0 / 0.0), r)
  | 'n' :: 'a' :: 'n' :: r => return (.float (if negative then -(0.0 / 0.0) else 0.0 / 0.0), r)
  | _ =>
    let (whole, r) ← decimal? cs
    match r with
    | '.' :: r =>
      let (fraction, r) ← digits? Char.isDigit r
      let (e, r) ← exponent? r
      result negative (whole ++ fraction) (e - fraction.length) r
    | c :: _ =>
      if c == 'e' || c == 'E' then
        let (e, r) ← exponent? r
        result negative whole e r
      else none
    | [] => none
where
  result (negative : Bool) (ds : List Char) (e : Int) (r : List Char) : Option (Json × List Char) :=
    let n := valueIn 10 ds
    let x := decimalFloat n (Nat.toDigits 10 n).length e
    if negative then some (.float (-x), r) else if x.isInf then none else some (.float x, r)

def integerText? : Reader Json
  | '0' :: 'x' :: r => inBase? 16 isHex r
  | '0' :: 'o' :: r => inBase? 8 (fun c => '0' ≤ c && c ≤ '7') r
  | '0' :: 'b' :: r => inBase? 2 (fun c => c == '0' || c == '1') r
  | cs => do
    let (negative, cs) := sign cs
    let (ds, r) ← decimal? cs
    let n : Int := valueIn 10 ds
    return (← integer? (if negative then -n else n), r)

def number? : Reader Json := fun cs =>
  match float? cs with
  | some a => some a
  | none => integerText? cs

/-- A number of so many digits, within bounds. -/
def field? (width lo hi : Nat) (cs : List Char) : Option (Nat × List Char) :=
  let ds := cs.take width
  if ds.length = width ∧ ds.all Char.isDigit ∧ lo ≤ valueIn 10 ds ∧ valueIn 10 ds ≤ hi then
    some (valueIn 10 ds, cs.drop width)
  else none

def mark? (c : Char) : List Char → Option (List Char)
  | d :: r => if c = d then some r else none
  | [] => none

def date? (cs : List Char) : Option (List Char) := do
  let (y, cs) ← field? 4 0 9999 cs
  let cs ← mark? '-' cs
  let (m, cs) ← field? 2 1 12 cs
  let cs ← mark? '-' cs
  let (_, cs) ← field? 2 1 (Calendar.daysInMonth y m) cs
  return cs

/-- Hours, minutes and seconds, up to a leap second, and a fraction. -/
def clock? (cs : List Char) : Option (List Char) := do
  let (_, cs) ← field? 2 0 23 cs
  let cs ← mark? ':' cs
  let (_, cs) ← field? 2 0 59 cs
  let cs ← mark? ':' cs
  let (_, cs) ← field? 2 0 60 cs
  match cs with
  | '.' :: r => if r.head?.any Char.isDigit then return r.dropWhile Char.isDigit else none
  | _ => return cs

def offset? : List Char → Option (List Char)
  | 'Z' :: r => some r
  | 'z' :: r => some r
  | c :: r =>
    if c == '+' || c == '-' then do
      let (_, r) ← field? 2 0 23 r
      let r ← mark? ':' r
      let (_, r) ← field? 2 0 59 r
      return r
    else none
  | [] => none

/-- A date, a time of day, or both with or without an offset. -/
def time? (cs : List Char) : Option (List Char) :=
  match date? cs with
  | some r =>
    match r with
    | c :: r' =>
      if c == 'T' || c == 't' || c == ' ' then
        match clock? r' with
        | some r => some ((offset? r).getD r)
        | none => some r
      else some r
    | [] => some []
  | none => clock? cs

end WorkerGuard.Toml
