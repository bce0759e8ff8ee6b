import WorkerGuard.Text.LowerCase

/-!
# WorkerGuard.Vocabulary

The closed vocabularies of the library: values that are written as one of a few fixed words.

* `Vocabulary`: which of them a text was looked up in.
* `UnknownWord`: the refusal of a text that is none of the words.
* `lookUp`: the look-up, without regard to case.

`lookUp` is what the `from_str` of `CircuitState`, `WorkerState` and `ErrorKind` have in common.
-/

namespace WorkerGuard

inductive Vocabulary where
  | circuitState
  | workerState
  | failureKind
  deriving DecidableEq, Repr

structure UnknownWord where
  vocabulary : Vocabulary
  text : String
  deriving DecidableEq, Repr

namespace Vocabulary

def describe : Vocabulary → String
  | circuitState => "circuit state"
  | workerState => "worker state"
  | failureKind => "error kind"

/-- The value of the first word that the text spells, in any case. -/
def lookUp {α : Type} (v : Vocabulary) (words : List (String × α)) (s : String) :
    Except UnknownWord α :=
  match words.lookup (Text.lowered s) with
  | some a => .ok a
  | none => .error ⟨v, s⟩

end Vocabulary

def UnknownWord.message (u : UnknownWord) : String :=
  "Invalid " ++ u.vocabulary.describe ++ ": " ++ u.text

end WorkerGuard
