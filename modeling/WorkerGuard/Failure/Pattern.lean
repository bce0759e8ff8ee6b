import WorkerGuard.Text.Blank
import WorkerGuard.Text.WordChar

/-!
# WorkerGuard.Failure.Pattern

Patterns of text, searched for without regard to case.

* `Pattern`: characters of a class, word edges, sequences, choices and repeated classes.
* `Spans p before middle after`: the pattern matches `middle` between the two other texts.
* `ends`: where a match that starts here can end; `occursIn`: whether there is a match anywhere.

These are the regular expressions that `patterns` compiles, with `occursIn` for `matches`.
-/

namespace WorkerGuard.Failure

inductive Pattern where
  | empty
  | one (ok : Char → Bool)
  /-- One or more characters of a class. -/
  | many (ok : Char → Bool)
  /-- Between a word character and a character, or end of text, that is none. -/
  | edge
  | seq (a b : Pattern)
  | either (a b : Pattern)

namespace Pattern

/-- The two characters outside `A` to `z` that differ from a letter of that range only in case are
the long s and the Kelvin sign. -/
def sameLetter (c x : Char) : Bool :=
  x.toLower == c || c == 's' && x == '\u017f' || c == 'k' && x == '\u212a'

def letter (c : Char) : Pattern := one (sameLetter c)

def ofChars : List Char → Pattern
  | [] => empty
  | c :: r => seq (letter c) (ofChars r)

/-- The text itself, in small letters. -/
def text (s : String) : Pattern := ofChars s.toList

def optional (p : Pattern) : Pattern := either p empty

def blanks : Pattern := many Text.isBlank

/-- Some character of a class, or nothing. -/
def maybe (ok : Char → Bool) : Pattern := optional (one ok)

/-- A text that is a word of its own. -/
def wholeWord (p : Pattern) : Pattern := seq edge (seq p edge)

def all : List Pattern → Pattern
  | [] => empty
  | [p] => p
  | p :: r => seq p (all r)

/-- At least one of the patterns; of none of them there is no match. -/
def anyOf : List Pattern → Pattern
  | [] => one fun _ => false
  | [p] => p
  | p :: r => either p (anyOf r)

def isEdge (before after : Option Char) : Bool :=
  before.any Text.isWordChar != after.any Text.isWordChar

/-- The pattern matches `middle` where `before` and `after` stand around it. -/
inductive Spans : Pattern → List Char → List Char → List Char → Prop where
  | empty {u w : List Char} : Spans .empty u [] w
  | one {ok : Char → Bool} {c : Char} {u w : List Char} (h : ok c = true) :
      Spans (.one ok) u [c] w
  | last {ok : Char → Bool} {c : Char} {u w : List Char} (h : ok c = true) :
      Spans (.many ok) u [c] w
  | more {ok : Char → Bool} {c : Char} {u v w : List Char} (h : ok c = true)
      (t : Spans (.many ok) (u ++ [c]) v w) : Spans (.many ok) u (c :: v) w
  | edge {u w : List Char} (h : isEdge u.getLast? w.head? = true) : Spans .edge u [] w
  | seq {a b : Pattern} {u v v' w : List Char} (s : Spans a u v (v' ++ w))
      (t : Spans b (u ++ v) v' w) : Spans (.seq a b) u (v ++ v') w
  | left {a b : Pattern} {u v w : List Char} (s : Spans a u v w) : Spans (.either a b) u v w
  | right {a b : Pattern} {u v w : List Char} (s : Spans b u v w) : Spans (.either a b) u v w

/-- A place in a text: the character before it and the text after it. -/
abbrev Place := Option Char × List Char

def manyEnds (ok : Char → Bool) : List Char → List Place
  | [] => []
  | c :: r => if ok c then (some c, r) :: manyEnds ok r else []

def ends : Pattern → Place → List Place
  | empty, p => [p]
  | one ok, (_, c :: r) => if ok c then [(some c, r)] else []
  | one _, (_, []) => []
  | many ok, (_, r) => manyEnds ok r
  | edge, p => if isEdge p.1 p.2.head? then [p] else []
  | seq a b, p => (a.ends p).flatMap b.ends
  | either a b, p => a.ends p ++ b.ends p

def foundFrom (p : Pattern) (before : Option Char) : List Char → Bool
  | [] => !(p.ends (before, [])).isEmpty
  | c :: r => !(p.ends (before, c :: r)).isEmpty || foundFrom p (some c) r

def occursIn (p : Pattern) (s : String) : Bool := p.foundFrom none s.toList

end Pattern
end WorkerGuard.Failure
