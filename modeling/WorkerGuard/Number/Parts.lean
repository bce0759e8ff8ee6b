/-!
# WorkerGuard.Number.Parts

Floating-point numbers as exact fractions.

* `parts?`: sign, significand and binary exponent of a finite number.
* `roundScaled`: `n · 2^q` to the nearest whole number, a half to the even one.
-/

namespace WorkerGuard.Number

/-- The number `± significand · 2^exponent`. -/
structure Parts where
  negative : Bool
  significand : Nat
  exponent : Int
  deriving DecidableEq

/-- The bit that stands in front of the stored ones. -/
def hiddenBit : Nat := 0x10000000000000

/-- Infinities and not-a-number have no parts. -/
def parts? (x : Float) : Option Parts :=
  let bits := x.toBits.toNat
  let negative := bits / 0x8000000000000000 == 1
  let e := bits / hiddenBit % 2048
  let m := bits % hiddenBit
  if e = 2047 then none
  else if e = 0 then some ⟨negative, m, -1074⟩
  else some ⟨negative, m + hiddenBit, Int.ofNat e - 1075⟩

/-- The whole number nearest to `n / d`, for positive `d`; a half goes to the even neighbour. -/
def roundDiv (n d : Nat) : Nat :=
  let q := n / d
  let r := n % d
  if 2 * r < d then q
  else if d < 2 * r then q + 1
  else if q % 2 = 0 then q else q + 1

def roundScaled (n : Nat) (q : Int) : Nat :=
  if 0 ≤ q then n * Nat.pow 2 q.toNat else roundDiv n (Nat.pow 2 (-q).toNat)

end WorkerGuard.Number
