import WorkerGuard.Breaker.Row

/-!
# WorkerGuard.Breaker.Condition

What a breaker makes of its row, and how one event changes it.

* `Condition`: position, failures and stamp within the range of a breaker. `Condition.ofRow` caps a
  row, `Condition.toRow` stores a condition.
* `admitStep`: a call asks to pass. Only a breaker that is not closed changes: after the cooldown it
  goes half open and the caller is its probe. A probe that never reported is replaced likewise.
* `successStep`, `failureStep`: a call reports. `none` means that nothing changes.
* `wait`: how long until `admitStep` would let a call pass.

`Condition` embeds `Packed` with its conversions from and to a `BreakerRecord`. The steps embed
`admit_step`, `success_step` and `failure_step`; the cap that `now_ms` puts on the clock is part of
them.
-/

namespace WorkerGuard.Breaker

/-- Failures are counted in 20 bits. -/
def maxFailures : Nat := 0xfffff

/-- Stamps have 42 bits. -/
def maxStamp : Nat := 0x3ffffffffff

structure Condition where
  circuit : Circuit
  failures : Nat
  stamp : Nat
  failures_le : failures ≤ maxFailures
  stamp_le : stamp ≤ maxStamp
  deriving DecidableEq

namespace Condition

/-- Larger numbers count as the largest ones. -/
def capped (circuit : Circuit) (failures stamp : Nat) : Condition :=
  ⟨circuit, min failures maxFailures, min stamp maxStamp, Nat.min_le_right _ _,
    Nat.min_le_right _ _⟩

def fresh : Condition := capped .closed 0 0

instance : Inhabited Condition := ⟨fresh⟩

def ofRow (r : Row) : Condition := capped r.circuit r.failures.toNat r.stamp.toNat

def toRow (c : Condition) : Row := ⟨c.circuit, c.failures.toUInt32, c.stamp.toUInt64⟩

/-- Milliseconds since the stamp, by a reading of the clock; none if the stamp is in the future. -/
def elapsed (c : Condition) (now : Nat) : Nat := min now maxStamp - c.stamp

def admitStep (now cooldown : Nat) (c : Condition) : Option Condition :=
  match c.circuit with
  | .closed => none
  | .opened | .halfOpen =>
    if c.elapsed now < cooldown then none else some (capped .halfOpen c.failures now)

/-- A success forgets the failures; it closes a half open breaker, but not an opened one. -/
def successStep (c : Condition) : Option Condition :=
  match c.circuit with
  | .closed => if c.failures = 0 then none else some fresh
  | .halfOpen => some fresh
  | .opened => some (capped .opened 0 c.stamp)

/-- One failure more. A closed breaker opens at the threshold, a half open one at once. -/
def failureStep (now threshold : Nat) (c : Condition) : Condition :=
  match c.circuit with
  | .closed =>
    if threshold ≤ min (c.failures + 1) maxFailures then capped .opened (c.failures + 1) now
    else capped .closed (c.failures + 1) c.stamp
  | .halfOpen => capped .opened (c.failures + 1) now
  | .opened => capped .opened (c.failures + 1) c.stamp

/-- Milliseconds until `admitStep` changes the condition; zero if calls pass now. -/
def wait (now cooldown : Nat) (c : Condition) : Nat :=
  match c.circuit with
  | .closed => 0
  | .opened | .halfOpen => cooldown - c.elapsed now

theorem ext {a b : Condition} (h₁ : a.circuit = b.circuit) (h₂ : a.failures = b.failures)
    (h₃ : a.stamp = b.stamp) : a = b := by
  cases a; cases b; simp_all

@[simp] theorem ofRow_toRow (c : Condition) : ofRow c.toRow = c := by
  have h₁ := c.failures_le
  have h₂ := c.stamp_le
  simp only [maxFailures, maxStamp] at h₁ h₂
  apply ext
  · rfl
  · show min c.failures.toUInt32.toNat maxFailures = c.failures
    rw [Nat.toUInt32, UInt32.toNat_ofNat', Nat.mod_eq_of_lt (by omega)]
    exact Nat.min_eq_left c.failures_le
  · show min c.stamp.toUInt64.toNat maxStamp = c.stamp
    rw [Nat.toUInt64, UInt64.toNat_ofNat', Nat.mod_eq_of_lt (by omega)]
    exact Nat.min_eq_left c.stamp_le

end Condition
end WorkerGuard.Breaker
