import WorkerGuard.Number.Shortest

/-!
# WorkerGuard.Json.Value

Documents: the values that tasks produce and that logs carry.

* `Json`: a document. Whole numbers and floating-point numbers are different values; an object
  keeps the order of its fields.
* `Json.text`: the document on one line, without spaces.
-/

namespace WorkerGuard

inductive Json where
  | null
  | bool (b : Bool)
  | int (n : Int)
  | float (x : Float)
  | str (s : String)
  | arr (items : List Json)
  | obj (fields : List (String × Json))
  deriving Inhabited

namespace Json

def hexDigit (n : Nat) : Char := Nat.digitChar n

/-- Quotes, backslashes and controls are escaped, everything else stands as it is. -/
def escaped (c : Char) : List Char :=
  match c with
  | '"' => ['\\', '"']
  | '\\' => ['\\', '\\']
  | '\x08' => ['\\', 'b']
  | '\t' => ['\\', 't']
  | '\n' => ['\\', 'n']
  | '\x0c' => ['\\', 'f']
  | '\r' => ['\\', 'r']
  | c =>
    if c.toNat < 0x20 then
      ['\\', 'u', '0', '0', hexDigit (c.toNat / 16), hexDigit (c.toNat % 16)]
    else [c]

def stringChars (s : String) : List Char := '"' :: s.toList.flatMap escaped ++ ['"']

mutual

def chars : Json → List Char
  | null => ['n', 'u', 'l', 'l']
  | bool true => ['t', 'r', 'u', 'e']
  | bool false => ['f', 'a', 'l', 's', 'e']
  | int n => (toString n).toList
  | float x => ((Number.text x).getD "null").toList
  | str s => stringChars s
  | arr [] => ['[', ']']
  | arr (v :: r) => '[' :: chars v ++ itemChars r
  | obj [] => ['\x7b', '\x7d']
  | obj (f :: r) => '\x7b' :: stringChars f.1 ++ ':' :: chars f.2 ++ fieldChars r

/-- The rest of an array, from the comma on. -/
def itemChars : List Json → List Char
  | [] => [']']
  | v :: r => ',' :: chars v ++ itemChars r

/-- The rest of an object, from the comma on. -/
def fieldChars : List (String × Json) → List Char
  | [] => ['\x7d']
  | f :: r => ',' :: stringChars f.1 ++ ':' :: chars f.2 ++ fieldChars r

end

def text (v : Json) : String := String.ofList v.chars

end Json
end WorkerGuard
