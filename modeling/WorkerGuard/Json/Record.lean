import WorkerGuard.Json.Written
import WorkerGuard.Time.Stamp

/-!
# WorkerGuard.Json.Record

Records in documents: an object with named fields, or an array of the values in the order of the
fields.

* `members?`: what a record holds under each of its names. Fields of other names are passed over
  unread; a name that occurs twice spoils the record.
* `required`, `optional`: a field that must be there, and one that may be missing or null.
* Readers of the values that fields hold.
-/

namespace WorkerGuard.Json.Record

/-- A value is read, or it is not of the kind that is read. -/
abbrev Reader (α : Type) := Written → Option α

/-- Field names have to be proper texts, also those that are passed over. -/
def named? : List (List Unit16 × Written) → Option (List (String × Written))
  | [] => some []
  | f :: r => do
    let k ← Unit16.text? f.1
    let r ← named? r
    return (k, f.2) :: r

/-- The value under a name; the inner `none` says that there is no such field. -/
def single? (fs : List (String × Written)) (name : String) : Option (Option Written) :=
  match fs.filter (·.1 == name) with
  | [] => some none
  | [f] => some (some f.2)
  | _ => none

def members? (names : List String) : Written → Option (List (Option Written))
  | .obj fs => do
    let fs ← named? fs
    names.mapM (single? fs)
  | .arr vs => if vs.length = names.length then some (vs.map some) else none
  | _ => none

/-- The same for a record that has no other fields. -/
def onlyMembers? (names : List String) (w : Written) : Option (List (Option Written)) :=
  match w with
  | .obj fs => do
    let ks ← named? fs
    if ks.all (fun f => names.contains f.1) then members? names w else none
  | _ => members? names w

def required {α : Type} (read : Reader α) (w : Option Written) : Option α := w.bind read

def optional {α : Type} (read : Reader α) : Option Written → Option (Option α)
  | none => some none
  | some .null => some none
  | some w => (read w).map some

def text? : Reader String
  | .str s => Unit16.text? s
  | _ => none

def bool? : Reader Bool
  | .bool b => some b
  | _ => none

/-- A whole number from 0 to `limit`, written without fraction and exponent. -/
def natural? (limit : Nat) : Reader Nat
  | .num n =>
    match n.value? with
    | some (.int k) => if 0 ≤ k ∧ k ≤ limit then some k.toNat else none
    | _ => none
  | _ => none

def word32? (w : Written) : Option UInt32 := (natural? 4294967295 w).map Nat.toUInt32

def word64? (w : Written) : Option UInt64 := (natural? 18446744073709551615 w).map Nat.toUInt64

def instant? (w : Written) : Option Instant := (text? w).bind Instant.ofStamp?

/-- Seconds and nanoseconds. -/
def duration? (w : Written) : Option Duration := do
  let [secs, nanos] ← onlyMembers? ["secs", "nanos"] w | none
  Duration.ofParts? (← required (natural? 18446744073709551615) secs)
    (← required (natural? 4294967295) nanos)

/-- One of a few fixed words; it may also be the name of a field that holds null. -/
def word? {α : Type} (words : List (String × α)) : Reader α
  | .str s => (Unit16.text? s).bind fun t => words.lookup t
  | .obj [(k, .null)] => (Unit16.text? k).bind fun t => words.lookup t
  | _ => none

end WorkerGuard.Json.Record

namespace WorkerGuard.Json

def ofDuration (d : Duration) : Json :=
  .obj [("secs", .int d.seconds), ("nanos", .int d.subsecNanos)]

def ofOption {α : Type} (f : α → Json) : Option α → Json
  | some a => f a
  | none => .null

end WorkerGuard.Json
