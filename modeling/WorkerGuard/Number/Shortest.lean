import WorkerGuard.Number.Parts

/-!
# WorkerGuard.Number.Shortest

The fewest decimal digits that read back to a floating-point number.

* `readsBack`: the decimals that lie in the rounding interval of the number.
* `shortest`: the first grid of decimals with such a member, and the nearest member on it.
* `text`: plain notation from 10^-5 up to 10^16, scientific notation outside.
-/

namespace WorkerGuard.Number

/-- The decimal number `digits · 10^exponent`. -/
structure Decimal where
  digits : Nat
  exponent : Int
  deriving DecidableEq

/-- The positive number `m · 2^q` as a fraction of units `10^j`. -/
def inUnits (m : Nat) (q j : Int) : Nat × Nat :=
  (m * Nat.pow 2 q.toNat * Nat.pow 10 (-j).toNat, Nat.pow 2 (-q).toNat * Nat.pow 10 j.toNat)

/-- Whether `c` units, of which the number has `num / den`, lie between the two halfway points to
its neighbours. The ends belong to the numbers with an even significand. `below` is the gap to the
lower halfway point in quarters of the unit of the last place. -/
def readsBack (m below : Nat) (num den c : Nat) : Bool :=
  let x := c * den * (4 * m)
  let lo := num * (4 * m - below)
  let hi := num * (4 * m + 2)
  if m % 2 = 0 then lo ≤ x && x ≤ hi else lo < x && x < hi

/-- The nearer of the two neighbours on the grid that read back, the even one of a tie. -/
def onGrid (m below : Nat) (q j : Int) : Option Decimal :=
  let (num, den) := inUnits m q j
  let c := num / den
  let r := num % den
  match readsBack m below num den c, readsBack m below num den (c + 1) with
  | true, true =>
    if 2 * r < den ∨ 2 * r = den ∧ c % 2 = 0 then some ⟨c, j⟩ else some ⟨c + 1, j⟩
  | true, false => some ⟨c, j⟩
  | false, true => some ⟨c + 1, j⟩
  | false, false => none

/-- The least `k` for which the number is below `10^k`. -/
def magnitude (m : Nat) (q : Int) : Int :=
  let guess := (Int.ofNat m.log2 + q) * 30103 / 100000
  let above (k : Int) : Bool := let (num, den) := inUnits m q k; num < den
  (([guess - 1, guess, guess + 1, guess + 2] : List Int).find? above).getD (guess + 3)

def stripZeros (fuel : Nat) (d : Decimal) : Decimal :=
  match fuel with
  | 0 => d
  | fuel + 1 =>
    if d.digits ≠ 0 ∧ d.digits % 10 = 0 then stripZeros fuel ⟨d.digits / 10, d.exponent + 1⟩
    else d

/-- The shortest decimal of a positive number; its exact value, should no grid of up to seventeen
digits have one. -/
def shortest (p : Parts) : Decimal :=
  let m := p.significand
  let q := p.exponent
  let below := if m = hiddenBit ∧ q ≠ -1074 then 1 else 2
  let k := magnitude m q
  let found := (List.range 17).findSome? fun n => onGrid m below q (k - Int.ofNat (n + 1))
  stripZeros 20 (found.getD ⟨m * Nat.pow 2 q.toNat * Nat.pow 5 (-q).toNat, min q 0⟩)

/-- Digits with the point where the exponent puts it. -/
def plain (ds : List Char) (exponent : Int) : List Char :=
  let point := (ds.length : Int) + exponent
  if 0 ≤ exponent then ds ++ List.replicate exponent.toNat '0' ++ ['.', '0']
  else if 0 < point then ds.take point.toNat ++ '.' :: ds.drop point.toNat
  else ['0', '.'] ++ List.replicate (-point).toNat '0' ++ ds

/-- One digit before the point; the exponent always has a sign. -/
def scientific (ds : List Char) (exponent : Int) : List Char :=
  let e := (ds.length : Int) + exponent - 1
  let mark := if e < 0 then ['e', '-'] else ['e', '+']
  match ds with
  | [d] => d :: mark ++ Nat.toDigits 10 e.natAbs
  | d :: r => d :: '.' :: r ++ mark ++ Nat.toDigits 10 e.natAbs
  | [] => []

/-- The text of a finite number. -/
def text (x : Float) : Option String :=
  (parts? x).map fun p =>
    let sign := if p.negative then "-" else ""
    if p.significand = 0 then sign ++ "0.0"
    else
      let d := shortest p
      let ds := Nat.toDigits 10 d.digits
      let e := (ds.length : Int) + d.exponent - 1
      sign ++ String.ofList
        (if -5 ≤ e ∧ e < 16 then plain ds d.exponent else scientific ds d.exponent)

end WorkerGuard.Number
