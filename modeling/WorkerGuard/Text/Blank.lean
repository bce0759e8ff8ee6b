import WorkerGuard.Text.Range

/-!
# WorkerGuard.Text.Blank

White space: the characters with the Unicode property of that name.

* `isBlank`: the class.
* `trimStart`: a text without its leading blanks.
-/

namespace WorkerGuard.Text

/-- The 25 white space characters. -/
def blankRanges : List (Nat × Nat) :=
  [(0x9, 0xd), (0x20, 0x20), (0x85, 0x85), (0xa0, 0xa0), (0x1680, 0x1680), (0x2000, 0x200a),
   (0x2028, 0x2029), (0x202f, 0x202f), (0x205f, 0x205f), (0x3000, 0x3000)]

def isBlank (c : Char) : Bool := inRanges blankRanges c

/-- Drops the leading blanks. -/
def trimStart (cs : List Char) : List Char := cs.dropWhile isBlank

end WorkerGuard.Text
