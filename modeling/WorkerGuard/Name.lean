import WorkerGuard.Text.Quoted

/-!
# WorkerGuard.Name

Names of the things that are guarded and of those that are watched over.

* `Dependency`: one outside service that workers call.
* `WorkerId`: one worker. `short?` is its form for narrow tables.

`Dependency` embeds `DependencyKey`, and `short?` embeds `short` of `WorkerId`.
-/

namespace WorkerGuard

structure Dependency where
  name : String
  deriving DecidableEq, Repr, Inhabited

structure WorkerId where
  text : String
  deriving DecidableEq, Repr, Inhabited

def Dependency.describe (d : Dependency) : String := "DependencyKey(" ++ Text.quoted d.name ++ ")"

namespace WorkerId

def describe (w : WorkerId) : String := "WorkerId(" ++ Text.quoted w.text ++ ")"

/-- The longest beginning of a text of at most `n` bytes, if the bytes end a character. -/
def firstBytes? : Nat → List Char → Option (List Char)
  | 0, _ => some []
  | _, [] => some []
  | n, c :: r => if c.utf8Size ≤ n then (firstBytes? (n - c.utf8Size) r).map (c :: ·) else none

/-- The first ten bytes. There is no short form if they end within a character. -/
def short? (w : WorkerId) : Option String := (firstBytes? 10 w.text.toList).map String.ofList

end WorkerId
end WorkerGuard
