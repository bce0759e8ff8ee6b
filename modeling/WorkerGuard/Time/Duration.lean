import WorkerGuard.Number.Parts

/-!
# WorkerGuard.Time.Duration

Lengths of time: whole nanoseconds, fewer than 2^64 seconds of them.

* `Duration`: the type; `ofSeconds`, `ofMillis`, `ofParts?` build one, `seconds` and `subsecNanos`
  take it apart, `millis` drops what is below a millisecond.
* `times?`: a multiple, if it is still a duration.
* `scale?`: a product with a floating-point factor, rounded to the nearest nanosecond.
* `text`: the exact value in the largest unit that has a whole part.
-/

namespace WorkerGuard

/-- Durations stay below this many nanoseconds. -/
def Duration.limit : Nat := UInt64.size * 1_000_000_000

structure Duration where
  nanos : Nat
  nanos_lt : nanos < Duration.limit
  deriving DecidableEq

namespace Duration

instance : LE Duration := ⟨fun a b => a.nanos ≤ b.nanos⟩
instance : LT Duration := ⟨fun a b => a.nanos < b.nanos⟩
instance (a b : Duration) : Decidable (a ≤ b) := inferInstanceAs (Decidable (a.nanos ≤ b.nanos))
instance (a b : Duration) : Decidable (a < b) := inferInstanceAs (Decidable (a.nanos < b.nanos))
instance : Min Duration := ⟨fun a b => if a ≤ b then a else b⟩
instance : Max Duration := ⟨fun a b => if a ≤ b then b else a⟩

def zero : Duration := ⟨0, by decide⟩

instance : Inhabited Duration := ⟨zero⟩

def ofNanos? (n : Nat) : Option Duration :=
  if h : n < limit then some ⟨n, h⟩ else none

def ofSeconds (s : UInt64) : Duration :=
  ⟨s.toNat * 1_000_000_000, by have := s.toNat_lt; simp only [limit, UInt64.size]; omega⟩

def ofMillis (ms : UInt64) : Duration :=
  ⟨ms.toNat * 1_000_000, by have := ms.toNat_lt; simp only [limit, UInt64.size]; omega⟩

/-- Nanoseconds past a whole second carry into the seconds. -/
def ofParts? (seconds nanos : Nat) : Option Duration := ofNanos? (seconds * 1_000_000_000 + nanos)

def seconds (d : Duration) : Nat := d.nanos / 1_000_000_000

def subsecNanos (d : Duration) : Nat := d.nanos % 1_000_000_000

/-- Whole milliseconds. -/
def millis (d : Duration) : Nat := d.nanos / 1_000_000

/-- Milliseconds, a begun one counted as whole. -/
def millisUp (d : Duration) : Nat := (d.nanos + 999_999) / 1_000_000

def times? (d : Duration) (k : Nat) : Option Duration := ofNanos? (d.nanos * k)

/-- The length in seconds as a floating-point number. -/
def toFloat (d : Duration) : Float :=
  d.seconds.toUInt64.toFloat + d.subsecNanos.toUInt64.toFloat / 1e9

/-- Seconds given as a floating-point number, to the nearest nanosecond, a half to the even one.
A negative number, an infinity, not-a-number and a length past the limit are no durations. -/
def ofFloat? (x : Float) : Option Duration :=
  match Number.parts? x with
  | none => none
  | some p =>
    if p.negative && p.significand != 0 then none
    else ofNanos? (Number.roundScaled (p.significand * 1_000_000_000) p.exponent)

def scale? (d : Duration) (factor : Float) : Option Duration := ofFloat? (factor * d.toFloat)

/-- The digits after the point, without the zeros at the end. -/
def fraction (width n : Nat) : String :=
  if n = 0 then ""
  else
    let ds := (Nat.toDigits 10 n)
    let padded := List.replicate (width - ds.length) '0' ++ ds
    "." ++ String.ofList (padded.reverse.dropWhile (· == '0')).reverse

/-- The exact value, in seconds, or milli-, micro- or nanoseconds if it is below one second. -/
def text (d : Duration) : String :=
  if d.seconds > 0 then toString d.seconds ++ fraction 9 d.subsecNanos ++ "s"
  else if d.nanos ≥ 1_000_000 then
    toString (d.nanos / 1_000_000) ++ fraction 6 (d.nanos % 1_000_000) ++ "ms"
  else if d.nanos ≥ 1000 then
    toString (d.nanos / 1000) ++ fraction 3 (d.nanos % 1000) ++ "µs"
  else toString d.nanos ++ "ns"

theorem le_def {a b : Duration} : a ≤ b ↔ a.nanos ≤ b.nanos := Iff.rfl

theorem ext {a b : Duration} (h : a.nanos = b.nanos) : a = b := by
  cases a; cases b; simp_all

@[simp] theorem nanos_min (a b : Duration) : (min a b).nanos = min a.nanos b.nanos := by
  show (if a ≤ b then a else b).nanos = _
  by_cases h : a ≤ b
  · rw [if_pos h, Nat.min_eq_left h]
  · rw [if_neg h, Nat.min_eq_right (Nat.le_of_lt (Nat.lt_of_not_le h))]

@[simp] theorem nanos_ofSeconds (s : UInt64) : (ofSeconds s).nanos = s.toNat * 1_000_000_000 := rfl

@[simp] theorem nanos_ofMillis (ms : UInt64) : (ofMillis ms).nanos = ms.toNat * 1_000_000 := rfl

theorem times?_eq_some_iff {d e : Duration} {k : Nat} :
    d.times? k = some e ↔ e.nanos = d.nanos * k := by
  unfold times? ofNanos?
  constructor
  · intro h
    split at h
    · simp only [Option.some.injEq] at h; rw [← h]
    · cases h
  · intro h
    have : d.nanos * k < limit := h ▸ e.nanos_lt
    rw [dif_pos this]
    exact congrArg some (ext h.symm)

theorem times?_eq_none_iff {d : Duration} {k : Nat} :
    d.times? k = none ↔ limit ≤ d.nanos * k := by
  unfold times? ofNanos?
  split <;> simp_all

end Duration
end WorkerGuard
