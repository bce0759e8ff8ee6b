/-!
# WorkerGuard.Text.Column

Columns of tables: texts filled up with spaces to a least number of characters.

* `leftAligned`, `rightAligned`: the spaces stand behind or in front.
-/

namespace WorkerGuard.Text

def fill (width : Nat) (s : String) : String := "".pushn ' ' (width - s.length)

def leftAligned (width : Nat) (s : String) : String := s ++ fill width s

def rightAligned (width : Nat) (s : String) : String := fill width s ++ s

end WorkerGuard.Text
