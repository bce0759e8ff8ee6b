import WorkerGuard.Time.Duration

/-!
# WorkerGuard.Time.Instant

Points in time, in UTC, to the nanosecond.

* `Instant`: a second counted from 1970 and the nanoseconds after it. A leap second belongs to the
  second before it and has nanoseconds from 10^9 on.
* `ofMillis?`, `millis`: milliseconds from 1970, rounded down.
* `since`: the time that passed between two instants, zero if it is negative.
* `before`: an instant earlier by a duration, the earliest one if there is no such instant.
-/

namespace WorkerGuard

structure Instant where
  seconds : Int
  nanos : Nat
  earliest_le : -8334601228800 ≤ seconds
  le_latest : seconds ≤ 8210266876799
  nanos_lt : nanos < 2_000_000_000
  deriving DecidableEq

namespace Instant

/-- The first of January of the year -262143. -/
def earliest : Instant := ⟨-8334601228800, 0, by decide, by decide, by decide⟩

def epoch : Instant := ⟨0, 0, by decide, by decide, by decide⟩

instance : Inhabited Instant := ⟨epoch⟩

def ofParts? (seconds : Int) (nanos : Nat) : Option Instant :=
  if h : -8334601228800 ≤ seconds ∧ seconds ≤ 8210266876799 ∧ nanos < 2_000_000_000 then
    some ⟨seconds, nanos, h.1, h.2.1, h.2.2⟩
  else none

/-- The instant so many nanoseconds from 1970. -/
def ofNanos? (n : Int) : Option Instant := ofParts? (n / 1_000_000_000) (n % 1_000_000_000).toNat

def ofMillis? (ms : Int) : Option Instant := ofParts? (ms / 1000) ((ms % 1000).toNat * 1_000_000)

/-- Milliseconds from 1970; what is below a millisecond is dropped towards the past. -/
def millis (t : Instant) : Int := t.seconds * 1000 + (t.nanos / 1_000_000 : Nat)

def le (a b : Instant) : Bool :=
  a.seconds < b.seconds || a.seconds == b.seconds && a.nanos ≤ b.nanos

def lt (a b : Instant) : Bool :=
  a.seconds < b.seconds || a.seconds == b.seconds && a.nanos < b.nanos

instance : LE Instant := ⟨fun a b => le a b⟩
instance : LT Instant := ⟨fun a b => lt a b⟩
instance (a b : Instant) : Decidable (a ≤ b) := inferInstanceAs (Decidable (le a b = true))
instance (a b : Instant) : Decidable (a < b) := inferInstanceAs (Decidable (lt a b = true))
instance : Max Instant := ⟨fun a b => if a ≤ b then b else a⟩

/-- Nanoseconds from `u` to `t`. A leap second adds to the distance only between instants of
different seconds of the day. -/
def nanosSince (t u : Instant) : Int :=
  let a := t.seconds % 86400
  let b := u.seconds % 86400
  let leap : Int :=
    if b < a then (if u.nanos ≥ 1_000_000_000 then 1 else 0)
    else if a < b then (if t.nanos ≥ 1_000_000_000 then -1 else 0)
    else 0
  (t.seconds - u.seconds + leap) * 1_000_000_000 + ((t.nanos : Int) - u.nanos)

/-- The time from `u` to `t`, zero if `t` is earlier. -/
def since (t u : Instant) : Duration :=
  (Duration.ofNanos? (t.nanosSince u).toNat).getD .zero

/-- A span longer than this many nanoseconds reaches before every instant. -/
def longestSpan : Nat := 9223372036854775807 * 1_000_000

/-- The instant `d` before `t`, or the earliest one. Less than a second does not lead out of a leap
second. -/
def before (t : Instant) (d : Duration) : Instant :=
  if d.nanos > longestSpan then earliest
  else if d.nanos < 1_000_000_000 ∧ 1_000_000_000 ≤ t.nanos then
    { t with nanos := t.nanos - d.nanos, nanos_lt := Nat.lt_of_le_of_lt (Nat.sub_le _ _) t.nanos_lt }
  else (ofNanos? (t.seconds * 1_000_000_000 + t.nanos - d.nanos)).getD earliest

theorem le_iff {a b : Instant} :
    a ≤ b ↔ a.seconds < b.seconds ∨ a.seconds = b.seconds ∧ a.nanos ≤ b.nanos := by
  show le a b = true ↔ _
  simp [le]

theorem lt_iff {a b : Instant} :
    a < b ↔ a.seconds < b.seconds ∨ a.seconds = b.seconds ∧ a.nanos < b.nanos := by
  show lt a b = true ↔ _
  simp [lt]

theorem ext {a b : Instant} (h₁ : a.seconds = b.seconds) (h₂ : a.nanos = b.nanos) : a = b := by
  cases a; cases b; simp_all

theorem not_lt {a b : Instant} : ¬a < b ↔ b ≤ a := by
  rw [lt_iff, le_iff]; omega

theorem le_refl (a : Instant) : a ≤ a := by
  rw [le_iff]; omega

theorem le_antisymm {a b : Instant} (h₁ : a ≤ b) (h₂ : b ≤ a) : a = b := by
  rw [le_iff] at h₁ h₂
  exact ext (by omega) (by omega)

theorem le_trans {a b c : Instant} (h₁ : a ≤ b) (h₂ : b ≤ c) : a ≤ c := by
  rw [le_iff] at h₁ h₂ ⊢; omega

end Instant
end WorkerGuard
