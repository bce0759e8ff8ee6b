/-!
# WorkerGuard.Text.LowerCase

Names compared without regard to the case of their letters.

* `lowered`: the text with `A` to `Z` made small. Of all other characters only the Kelvin sign has
  a small form among `a` to `z`, namely `k`.
-/

namespace WorkerGuard.Text

def loweredChar (c : Char) : Char := if c = '\u212a' then 'k' else c.toLower

def lowered (s : String) : String := s.map loweredChar

end WorkerGuard.Text
