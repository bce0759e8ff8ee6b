import WorkerGuard.Json.Value

/-!
# WorkerGuard.Json.Numeral

Numbers as they are written in a document, and the values that they stand for.

* `Numeral`: sign, digits, fraction and exponent of a written number.
* `value?`: a numeral without fraction and exponent that fits in 64 bits is a whole number. Any
  other is floating-point: its digits are taken as one whole number as long as that fits in 64 bits,
  later ones only move the point, and the result is scaled by a power of ten, at most 10^308 at a
  time. A number beyond the largest float has no value.
-/

namespace WorkerGuard.Json

structure Numeral where
  negative : Bool
  whole : List Char
  /-- Empty if there is no point. -/
  fraction : List Char
  /-- The sign is true for a negative exponent. -/
  exponent : Option (Bool × List Char)
  deriving DecidableEq, Repr

namespace Numeral

def digitValue (c : Char) : Nat := c.toNat - '0'.toNat

def largest : Nat := 18446744073709551615

/-- Takes in digits while the number fits in 64 bits; leaves the rest. -/
def takeIn (n : Nat) : List Char → Nat × List Char
  | [] => (n, [])
  | d :: r =>
    let n' := 10 * n + digitValue d
    if n' ≤ largest then takeIn n' r else (n, d :: r)

def tenTo (k : Nat) : Float := Float.ofScientific 1 false k

/-- Division by `10^k` in so many steps and a last one. -/
def scaleDownIn : Nat → Float → Nat → Float
  | 0, x, k => x / tenTo k
  | steps + 1, x, k =>
    if k ≤ 308 then x / tenTo k
    else if x == 0 then x
    else scaleDownIn steps (x / tenTo 308) (k - 308)

/-- Division by `10^k`, at most `10^308` at a time. -/
def scaleDown (x : Float) (k : Nat) : Float := scaleDownIn (k / 308) x k

/-- Multiplication by a power of ten; `none` if there is no such finite number. -/
def scaled? (n : Nat) (e : Int) : Option Float :=
  let x := n.toUInt64.toFloat
  if e < 0 then some (scaleDown x e.natAbs)
  else if e ≤ 308 then
    let y := x * tenTo e.natAbs
    if y.isInf then none else some y
  else if x == 0 then some x
  else none

/-- The largest exponent that can be written, 2^31 - 1. -/
def exponentLimit : Nat := 2147483647

def exponentValue (ds : List Char) : Nat := ds.foldl (fun n d => 10 * n + digitValue d) 0

def magnitude? (w : Numeral) : Option Float :=
  let (n, unread) := takeIn 0 w.whole
  let (n', unread') := takeIn n w.fraction
  let e : Int := Int.ofNat unread.length - Int.ofNat (w.fraction.length - unread'.length)
  match w.exponent with
  | none => scaled? n' e
  | some (negative, ds) =>
    let k := exponentValue ds
    if k ≤ exponentLimit then scaled? n' (if negative then e - k else e + k)
    else if n' ≠ 0 ∧ negative = false then none
    else some 0

/-- A minus sign before zero makes a floating-point number of it. -/
def value? (w : Numeral) : Option Json :=
  let (n, unread) := takeIn 0 w.whole
  if unread = [] ∧ w.fraction = [] ∧ w.exponent = none then
    if w.negative = false then some (.int n)
    else if 0 < n ∧ n ≤ 9223372036854775808 then some (.int (-n))
    else some (.float (-n.toUInt64.toFloat))
  else (w.magnitude?).map fun x => .float (if w.negative then -x else x)

end Numeral
end WorkerGuard.Json
