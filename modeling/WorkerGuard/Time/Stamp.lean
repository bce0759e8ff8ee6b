import WorkerGuard.Text.Blank
import WorkerGuard.Time.Calendar
import WorkerGuard.Time.Instant

/-!
# WorkerGuard.Time.Stamp

Instants as text: date, `T`, time of day and offset from UTC.

* `Instant.stamp`: the text, always in UTC; the fraction has 0, 3, 6 or 9 digits, the fewest that
  are exact.
* `Instant.clockFace`: date and time of day to the second, for tables.
* `Instant.ofStamp?`: reads a text. Blanks may stand before numbers and separators, the separator
  may be a blank, the offset may be any below a day.
-/

namespace WorkerGuard

namespace Stamp

def padded (width n : Nat) : String :=
  let ds := Nat.toDigits 10 n
  String.ofList (List.replicate (width - ds.length) '0' ++ ds)

/-- Four digits; outside 0 to 9999 a sign stands in front. -/
def yearText (y : Int) : String :=
  if 0 ≤ y ∧ y ≤ 9999 then padded 4 y.toNat
  else (if y < 0 then "-" else "+") ++ padded 4 y.natAbs

structure Fields where
  date : Calendar.Date
  hour : Nat
  minute : Nat
  second : Nat
  nanos : Nat

/-- A leap second is second 60. -/
def fields (t : Instant) : Fields :=
  let sod := (t.seconds % 86400).toNat
  let leap := t.nanos ≥ 1_000_000_000
  { date := Calendar.dateOfDay (t.seconds / 86400)
    hour := sod / 3600
    minute := sod / 60 % 60
    second := sod % 60 + (if leap then 1 else 0)
    nanos := if leap then t.nanos - 1_000_000_000 else t.nanos }

def dateText (d : Calendar.Date) : String :=
  yearText d.year ++ "-" ++ padded 2 d.month ++ "-" ++ padded 2 d.day

def timeText (f : Fields) : String :=
  padded 2 f.hour ++ ":" ++ padded 2 f.minute ++ ":" ++ padded 2 f.second

def fractionText (nanos : Nat) : String :=
  if nanos = 0 then ""
  else if nanos % 1_000_000 = 0 then "." ++ padded 3 (nanos / 1_000_000)
  else if nanos % 1000 = 0 then "." ++ padded 6 (nanos / 1000)
  else "." ++ padded 9 nanos

/-- A reader takes its part from the front of a text and leaves the rest. -/
abbrev Reader (α : Type) := StateT (List Char) Option α

def skipBlanks : Reader Unit := modify Text.trimStart

def literal (c : Char) : Reader Unit := do
  match ← get with
  | x :: r => if x = c then set r else failure
  | [] => failure

def digitValue (c : Char) : Nat := c.toNat - '0'.toNat

def number (ds : List Char) : Nat := ds.foldl (fun n c => 10 * n + digitValue c) 0

/-- At least one digit, at most `width` of them. -/
def digits (width : Nat) : Reader (List Char) := do
  let s ← get
  let ds := (s.take width).takeWhile Char.isDigit
  if ds.isEmpty then failure
  set (s.drop ds.length)
  return ds

def field (width lo hi : Nat) : Reader Nat := do
  skipBlanks
  let n := number (← digits width)
  if lo ≤ n && n ≤ hi then return n else failure

/-- A signed year may have any number of digits. -/
def year : Reader Int := do
  skipBlanks
  let s ← get
  match s with
  | '-' :: r => do
    set r
    let n := number (← digits r.length)
    return -(n : Int)
  | '+' :: r => do
    set r
    return (number (← digits r.length) : Nat)
  | _ => return (number (← digits 4) : Nat)

def separator (c : Char) : Reader Unit := do
  skipBlanks
  literal c

/-- Digits after the ninth are dropped. -/
def fraction : Reader Nat := do
  match ← get with
  | '.' :: r => do
    set r
    let ds ← digits 9
    modify (·.dropWhile Char.isDigit)
    return number ds * Nat.pow 10 (9 - ds.length)
  | _ => return 0

def twoDigits (limit : Nat) : Reader Nat := do
  match ← get with
  | a :: b :: r =>
    if a.isDigit && b.isDigit && number [a, b] < limit then do
      set r
      return number [a, b]
    else failure
  | _ => failure

/-- Seconds east of UTC. -/
def offset : Reader Int := do
  let s ← get
  if (s.take 3).map Char.toLower = ['u', 't', 'c'] then do
    set (s.drop 3)
    return 0
  match s with
  | 'z' :: r | 'Z' :: r => do
    set r
    return 0
  | c :: r => do
    let east := c == '+'
    if !(east || c == '-' || c == '−') then failure
    set r
    let hours ← twoDigits 100
    modify (·.dropWhile fun c => c == ':' || Text.isBlank c)
    let minutes ← twoDigits 60
    let n : Int := hours * 3600 + minutes * 60
    if n < 86400 then return (if east then n else -n) else failure
  | [] => failure

def date : Reader Calendar.Date := do
  let y ← year
  separator '-'
  let m ← field 2 1 12
  separator '-'
  let d ← field 2 1 31
  let date : Calendar.Date := ⟨y, m, d⟩
  if Calendar.isDate date && -262143 ≤ y && y ≤ 262142 then return date else failure

def dateTimeMark : Reader Unit := do
  match ← get with
  | c :: r => if c == 't' || c == 'T' || c == ' ' then set r else failure
  | [] => failure

def instant : Reader Instant := do
  let d ← date
  dateTimeMark
  let h ← field 2 0 23
  separator ':'
  let mi ← field 2 0 59
  separator ':'
  let s ← field 2 0 60
  let n ← fraction
  skipBlanks
  let east ← offset
  skipBlanks
  let sod : Int := h * 3600 + mi * 60 + min s 59
  StateT.lift (Instant.ofParts? (Calendar.dayNumber d * 86400 + sod - east)
    (n + if s = 60 then 1_000_000_000 else 0))

end Stamp

def Instant.stamp (t : Instant) : String :=
  let f := Stamp.fields t
  Stamp.dateText f.date ++ "T" ++ Stamp.timeText f ++ Stamp.fractionText f.nanos ++ "Z"

def Instant.clockFace (t : Instant) : String :=
  let f := Stamp.fields t
  Stamp.dateText f.date ++ " " ++ Stamp.timeText f

def Instant.ofStamp? (s : String) : Option Instant :=
  match Stamp.instant.run s.toList with
  | some (t, []) => some t
  | _ => none

end WorkerGuard
