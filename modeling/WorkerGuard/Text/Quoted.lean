import WorkerGuard.Text.Shown

/-!
# WorkerGuard.Text.Quoted

Texts between double quotes, as they stand in descriptions of values.

* `quoted`: quotes, backslashes and line breaks are escaped; hidden characters are given by number.
* `quotedPath`: the same for paths, in which single quotes are escaped too.
-/

namespace WorkerGuard.Text

def escaped (c : Char) : String :=
  match c with
  | '"' => "\\\""
  | '\\' => "\\\\"
  | '\n' => "\\n"
  | '\r' => "\\r"
  | '\t' => "\\t"
  | '\x00' => "\\0"
  | c =>
    if isHidden c then
      "\\u\x7b" ++ String.ofList (Nat.toDigits 16 c.toNat) ++ "\x7d"
    else c.toString

def quoted (s : String) : String :=
  "\"" ++ String.join (s.toList.map escaped) ++ "\""

def quotedPath (s : String) : String :=
  "\"" ++ String.join (s.toList.map fun c => if c = '\'' then "\\'" else escaped c) ++ "\""

end WorkerGuard.Text
