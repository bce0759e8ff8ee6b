import WorkerGuard.Settings.Members

/-!
# WorkerGuard.Settings.Text

Settings as a TOML document: one table for each section, in order, and one for each dependency and
role.

* `Settings.document`: the text.

`document` is what `write_default` writes.
-/

namespace WorkerGuard.Settings

def quotedChar (c : Char) : List Char :=
  match c with
  | '"' => ['\\', '"']
  | '\\' => ['\\', '\\']
  | '\x08' => ['\\', 'b']
  | '\t' => ['\\', 't']
  | '\n' => ['\\', 'n']
  | '\x0c' => ['\\', 'f']
  | '\r' => ['\\', 'r']
  | c =>
    if c.toNat < 0x20 ∨ c.toNat = 0x7f then
      let ds := Nat.toDigits 16 c.toNat
      '\\' :: 'u' :: List.replicate (4 - ds.length) '0' ++ ds
    else [c]

def quotedText (s : String) : String :=
  "\"" ++ String.ofList (s.toList.flatMap quotedChar) ++ "\""

/-- Letters, digits, hyphens and underscores need no quotes. -/
def keyText (k : String) : String :=
  if k ≠ "" ∧ k.toList.all (fun c => c.isAlphanum || c == '-' || c == '_') then k else quotedText k

/-- Two items or more stand on lines of their own. -/
def listText : List String → String
  | [] => "[]"
  | [x] => "[" ++ x ++ "]"
  | xs => "[\n" ++ String.join (xs.map fun x => "    " ++ x ++ ",\n") ++ "]"

def tableText (name : String) (entries : List (String × String)) : String :=
  "[" ++ name ++ "]\n" ++ String.join (entries.map fun e => e.1 ++ " = " ++ e.2 ++ "\n")

def scalarText : Json → String
  | .int n => toString n
  | .float x => (Number.text x).getD "nan"
  | .str s => quotedText s
  | _ => ""

def valueText : Json → String
  | .arr vs => listText (vs.map scalarText)
  | v => scalarText v

def entries (fs : List (String × Json)) : List (String × String) :=
  fs.map fun e => (e.1, valueText e.2)

def isTable : Json → Bool
  | .obj _ => true
  | _ => false

/-- The tables of a section: its own, or those in it if it holds nothing else. -/
def tables (name : String) (members : Json) : List String :=
  match members with
  | .obj (f :: fs) =>
    if (f :: fs).all (isTable ·.2) then
      (f :: fs).map fun e => match e.2 with
        | .obj es => tableText (name ++ "." ++ keyText e.1) (entries es)
        | _ => ""
    else [tableText name (entries (f :: fs))]
  | _ => [tableText name []]

def document (s : Settings) : String :=
  match s.toJson with
  | .obj sections => String.intercalate "\n" (sections.flatMap fun e => tables e.1 e.2)
  | _ => ""

end WorkerGuard.Settings
