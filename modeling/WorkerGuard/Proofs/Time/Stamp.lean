import Mathlib.Algebra.Group.Nat.Defs
import WorkerGuard.Proofs.Number.Digits
import WorkerGuard.Proofs.Time.Calendar
import WorkerGuard.Time.Stamp

/-!
# WorkerGuard.Proofs.Time.Stamp

A stamp reads back as the instant that it was written for.

* `Reads r cs a rest`: the reader `r` takes `cs` from the front of a text that goes on with `rest`.
* `Spells ds n`: the digits `ds` are the number `n`.
* `Instant.Proper`: a leap second ends a minute.
* `ofStamp?_stamp`: the stamp of a proper instant is read as that instant.
-/

namespace WorkerGuard

/-- A leap second can be told from the second after it only at the end of a minute. -/
def Instant.Proper (t : Instant) : Prop := t.nanos < 1_000_000_000 ∨ t.seconds % 60 = 59

instance (t : Instant) : Decidable t.Proper := inferInstanceAs (Decidable (_ ∨ _))

namespace Stamp

section Digits

structure Spells (ds : List Char) (n : Nat) : Prop where
  digits : Number.AllDigits ds
  ne_nil : ds ≠ []
  number : number ds = n

theorem number_eq (ds : List Char) : number ds = Nat.ofDigitChars 10 ds 0 := by
  rw [Nat.ofDigitChars_eq_foldl]; rfl

theorem toList_padded (width n : Nat) :
    (padded width n).toList =
      List.replicate (width - (Nat.toDigits 10 n).length) '0' ++ Nat.toDigits 10 n := by
  simp [padded]

theorem spells_padded (width n : Nat) : Spells (padded width n).toList n := by
  rw [toList_padded]
  refine ⟨(Number.AllDigits.zeros _).append (Number.allDigits_toDigits n),
    by simp [Nat.toDigits_ne_nil], ?_⟩
  rw [number_eq, Nat.ofDigitChars_append, Nat.ofDigitChars_replicate_zero, Nat.mul_zero,
    Nat.ofDigitChars_ten_toDigits]

theorem length_padded {width n : Nat} (hw : 0 < width) (hn : n < 10 ^ width) :
    (padded width n).toList.length = width := by
  have h : (Nat.toDigits 10 n).length ≤ width := (Nat.length_toDigits_le_iff (by decide) hw).2 hn
  rw [toList_padded, List.length_append, List.length_replicate]
  omega

end Digits

/-- The reader takes `cs` and leaves `rest`. -/
def Reads {α : Type} (r : Reader α) (cs : List Char) (a : α) (rest : List Char) : Prop :=
  r.run (cs ++ rest) = some (a, rest)

section Rules

variable {α β : Type} {rest : List Char}

theorem Reads.bind {r : Reader α} {f : α → Reader β} {cs cs' : List Char} {a : α} {b : β}
    (h : Reads r cs a (cs' ++ rest)) (hf : Reads (f a) cs' b rest) :
    Reads (r >>= f) (cs ++ cs') b rest := by
  simp only [Reads, StateT.run_bind, List.append_assoc] at h hf ⊢
  rw [h]
  exact hf

/-- Nothing is taken by a reader that only looks. -/
theorem Reads.after {r : Reader α} {f : α → Reader β} {cs : List Char} {a : α} {b : β}
    (h : Reads r [] a (cs ++ rest)) (hf : Reads (f a) cs b rest) :
    Reads (r >>= f) cs b rest := by
  rw [← List.nil_append cs]
  exact h.bind hf

theorem reads_skipBlanks (h : ∀ c ∈ rest.head?, Text.isBlank c = false) :
    Reads skipBlanks [] () rest := by
  cases rest with
  | nil => rfl
  | cons c r =>
    have hc := h c rfl
    show some ((), Text.trimStart (c :: r)) = _
    rw [Text.trimStart, List.dropWhile_cons, hc]
    rfl

theorem reads_literal (c : Char) : Reads (literal c) [c] () rest := by
  simp [Reads, literal]

theorem isBlank_of_isDigit {c : Char} (h : c.isDigit = true) : Text.isBlank c = false := by
  have hrange : 48 ≤ c.toNat ∧ c.toNat ≤ 57 := by
    simpa [Char.isDigit, UInt32.le_iff_toNat_le] using h
  rw [Bool.eq_false_iff, Text.isBlank, ne_eq, Text.inRanges_iff]
  simp only [Text.blankRanges, List.mem_cons, List.not_mem_nil, or_false, exists_eq_or_imp,
    exists_eq_left]
  omega

theorem reads_digits {width n : Nat} {ds : List Char} (h : Spells ds n)
    (hwidth : ds.length = width ∨ ds.length ≤ width ∧ ∀ c ∈ rest.head?, c.isDigit = false) :
    Reads (digits width) ds ds rest := by
  have htaken : ((ds ++ rest).take width).takeWhile Char.isDigit = ds := by
    rcases hwidth with hwidth | ⟨hle, hrest⟩
    · have hall : (ds ++ []).takeWhile Char.isDigit = ds := h.digits.takeWhile (by simp)
      rw [List.append_nil] at hall
      rw [← hwidth, List.take_left, hall]
    · rw [List.take_append, List.take_of_length_le hle]
      refine h.digits.takeWhile fun c hc => hrest c ?_
      rw [List.head?_take] at hc
      split at hc
      · cases hc
      · exact hc
  have hsome : ds.isEmpty = false := List.isEmpty_eq_false_iff.2 h.ne_nil
  rw [Reads, digits]
  simp only [StateT.run_bind, StateT.run_get, pure_bind, htaken, hsome]
  simp

theorem reads_field {width lo hi n : Nat} {ds : List Char} (h : Spells ds n)
    (hlength : ds.length = width) (hlo : lo ≤ n) (hhi : n ≤ hi) :
    Reads (field width lo hi) ds n rest := by
  have hblank : ∀ c ∈ (ds ++ rest).head?, Text.isBlank c = false := by
    intro c hc
    obtain ⟨d, ds, rfl⟩ := List.exists_cons_of_ne_nil h.ne_nil
    cases hc
    exact isBlank_of_isDigit (h.digits _ (by simp))
  refine Reads.after (reads_skipBlanks hblank) ?_
  have hdigits : Reads (digits width) ds ds ([] ++ rest) := reads_digits h (.inl hlength)
  rw [← List.append_nil ds]
  refine hdigits.bind ?_
  simp [Reads, h.number, hlo, hhi]

theorem reads_padded {width lo hi n : Nat} (hw : 0 < width) (hn : n < 10 ^ width) (hlo : lo ≤ n)
    (hhi : n ≤ hi) : Reads (field width lo hi) (padded width n).toList n rest :=
  reads_field (spells_padded width n) (length_padded hw hn) hlo hhi

theorem reads_separator {c : Char} (h : Text.isBlank c = false) :
    Reads (separator c) [c] () rest :=
  Reads.after (reads_skipBlanks (by simpa using h)) (reads_literal c)

/-- A year from 0 to 9999 stands as it is, any other has a sign. -/
theorem reads_year {y : Int} (hrest : ∀ c ∈ rest.head?, c.isDigit = false) :
    Reads year (yearText y).toList y rest := by
  by_cases hy : 0 ≤ y ∧ y ≤ 9999
  · have hspells := spells_padded 4 y.toNat
    have hdigits : Reads (digits 4) (padded 4 y.toNat).toList (padded 4 y.toNat).toList rest :=
      reads_digits hspells (.inl (length_padded (by decide) (by omega)))
    have hnumber := hspells.number
    rw [yearText, if_pos hy]
    obtain ⟨d, ds, hds⟩ := List.exists_cons_of_ne_nil hspells.ne_nil
    have hd : d.isDigit = true := hspells.digits d (by simp [hds])
    rw [hds] at hdigits hnumber ⊢
    refine Reads.after (reads_skipBlanks (by simpa using isBlank_of_isDigit hd)) ?_
    have hminus : d ≠ '-' := by rintro rfl; revert hd; decide
    have hplus : d ≠ '+' := by rintro rfl; revert hd; decide
    simp only [Reads, List.cons_append] at hdigits ⊢
    simp [hdigits, hnumber, hminus, hplus]
    omega
  · have hspells := spells_padded 4 y.natAbs
    have hdigits : Reads (digits ((padded 4 y.natAbs).toList ++ rest).length)
        (padded 4 y.natAbs).toList (padded 4 y.natAbs).toList rest :=
      reads_digits hspells (.inr ⟨by simp, hrest⟩)
    simp only [Reads, List.length_append] at hdigits
    have hnumber := hspells.number
    have hneg : y < 0 → y = -(y.natAbs : Int) := by omega
    have hpos : ¬y < 0 → y = (y.natAbs : Int) := by omega
    rw [yearText, if_neg hy]
    generalize y.natAbs = n at *
    split
    · rename_i hy
      refine Reads.after (reads_skipBlanks (by simp; decide)) ?_
      simp [Reads, hdigits, hnumber, ← hneg hy]
    · rename_i hy
      refine Reads.after (reads_skipBlanks (by simp; decide)) ?_
      simp [Reads, hdigits, hnumber, ← hpos hy]

theorem reads_date {d : Calendar.Date} (hdate : Calendar.isDate d = true)
    (hyear : -262143 ≤ d.year ∧ d.year ≤ 262142) : Reads date (dateText d).toList d rest := by
  have hparts := hdate
  simp only [Calendar.isDate, Bool.and_eq_true, decide_eq_true_eq] at hparts
  obtain ⟨⟨⟨hm₀, hm₁⟩, hd₀⟩, hd₁⟩ := hparts
  have hd₃₁ : d.day ≤ 31 := Nat.le_trans hd₁ (by simp only [Calendar.daysInMonth]; grind)
  have hdash : Text.isBlank '-' = false := by decide
  simp only [dateText, String.toList_append, List.append_assoc]
  refine (reads_year (by simp)).bind ?_
  refine (reads_separator hdash).bind ?_
  refine (reads_padded (by decide) (by omega) hm₀ hm₁).bind ?_
  refine (reads_separator hdash).bind ?_
  rw [← List.append_nil (padded 2 d.day).toList]
  refine (reads_padded (by decide) (by omega) hd₀ hd₃₁).bind ?_
  simp [Reads, hdate, hyear]

theorem reads_point {width k : Nat} (hw : 0 < width) (hw₉ : width ≤ 9) (hk : k < 10 ^ width)
    (hrest : ∀ c ∈ rest.head?, c.isDigit = false) :
    Reads fraction ("." ++ padded width k).toList (k * 10 ^ (9 - width)) rest := by
  have hspells := spells_padded width k
  have hlength := length_padded hw hk
  have hdigits : Reads (digits 9) (padded width k).toList (padded width k).toList rest :=
    reads_digits hspells (.inr ⟨by omega, hrest⟩)
  have hdrop : rest.dropWhile Char.isDigit = rest := by
    cases rest with
    | nil => rfl
    | cons c r => rw [List.dropWhile_cons, hrest c rfl]; rfl
  simp only [Reads] at hdigits
  simp [Reads, fraction, hdigits, hdrop, hspells.number, hlength]

theorem reads_fraction {n : Nat} (hn : n < 1_000_000_000)
    (hrest : ∀ c ∈ rest.head?, c.isDigit = false ∧ c ≠ '.') :
    Reads fraction (fractionText n).toList n rest := by
  have hdigit : ∀ c ∈ rest.head?, c.isDigit = false := fun c hc => (hrest c hc).1
  simp only [fractionText]
  split
  · rename_i hzero
    cases rest with
    | nil => simp [Reads, fraction, hzero]
    | cons c r => simp [Reads, fraction, hzero, (hrest c rfl).2]
  · split
    · have h : Reads fraction _ (n / 1_000_000 * 10 ^ (9 - 3)) rest :=
        reads_point (by decide) (by decide) (by omega) hdigit
      have hsame : n / 1_000_000 * 10 ^ (9 - 3) = n := by omega
      rwa [hsame] at h
    · split
      · have h : Reads fraction _ (n / 1000 * 10 ^ (9 - 6)) rest :=
          reads_point (by decide) (by decide) (by omega) hdigit
        have hsame : n / 1000 * 10 ^ (9 - 6) = n := by omega
        rwa [hsame] at h
      · have h : Reads fraction _ (n * 10 ^ (9 - 9)) rest :=
          reads_point (by decide) (by decide) (by omega) hdigit
        have hsame : n * 10 ^ (9 - 9) = n := by omega
        rwa [hsame] at h

theorem reads_zulu : Reads offset ['Z'] 0 [] := rfl

theorem reads_dateTimeMark : Reads dateTimeMark ['T'] () rest := rfl

end Rules

/-- The parts that a stamp shows are those of the instant. -/
structure Fields.Shows (f : Fields) (t : Instant) : Prop where
  date : Calendar.isDate f.date = true
  year : -262143 ≤ f.date.year ∧ f.date.year ≤ 262142
  day : Calendar.dayNumber f.date = t.seconds / 86400
  hour : f.hour ≤ 23
  minute : f.minute ≤ 59
  second : f.second ≤ 60
  nanos : f.nanos < 1_000_000_000
  clock : (f.hour : Int) * 3600 + f.minute * 60 + min f.second 59 = t.seconds % 86400
  fraction : f.nanos + (if f.second = 60 then 1_000_000_000 else 0) = t.nanos

theorem fields_shows {t : Instant} (h : t.Proper) : (fields t).Shows t where
  date := Calendar.isDate_dateOfDay _
  year := Calendar.year_dateOfDay (by have := t.earliest_le; omega) (by have := t.le_latest; omega)
  day := Calendar.dayNumber_dateOfDay _
  hour := by simp only [fields]; omega
  minute := by simp only [fields]; omega
  second := by simp only [fields]; split <;> omega
  nanos := by
    have := t.nanos_lt
    simp only [fields]
    split <;> omega
  clock := by
    simp only [fields]
    rcases h with h | h
    · rw [if_neg (by simpa using h)]
      omega
    · split <;> omega
  fraction := by
    have hsecond : (fields t).second =
        (t.seconds % 86400).toNat % 60 + (if t.nanos ≥ 1_000_000_000 then 1 else 0) := rfl
    have hnanos : (fields t).nanos =
        if t.nanos ≥ 1_000_000_000 then t.nanos - 1_000_000_000 else t.nanos := rfl
    rw [hnanos]
    rcases h with h | h
    · rw [if_neg (Nat.not_le.2 h)] at hsecond ⊢
      rw [if_neg (by omega)]
      rfl
    · split at hsecond
      · rw [if_pos (by omega), if_pos (by omega)]
        omega
      · rw [if_neg (by omega), if_neg (by omega)]
        rfl

end Stamp

namespace Instant

variable {t : Instant}

theorem ofParts?_parts (t : Instant) : ofParts? t.seconds t.nanos = some t := by
  rw [ofParts?, dif_pos ⟨t.earliest_le, t.le_latest, t.nanos_lt⟩]

open Stamp in
theorem reads_stamp (h : t.Proper) : Reads Stamp.instant t.stamp.toList t [] := by
  have hf := fields_shows h
  simp only [stamp]
  generalize fields t = f at hf
  simp only [timeText, String.toList_append, List.append_assoc]
  refine (reads_date hf.date hf.year).bind ?_
  refine reads_dateTimeMark.bind ?_
  refine (reads_padded (by decide) (by have := hf.hour; omega) (by omega) hf.hour).bind ?_
  refine (reads_separator (by decide)).bind ?_
  refine (reads_padded (by decide) (by have := hf.minute; omega) (by omega) hf.minute).bind ?_
  refine (reads_separator (by decide)).bind ?_
  refine (reads_padded (by decide) (by have := hf.second; omega) (by omega) hf.second).bind ?_
  refine (reads_fraction hf.nanos (by simp)).bind ?_
  refine Reads.after (reads_skipBlanks (by simp; decide)) ?_
  rw [← List.append_nil "Z".toList]
  refine Reads.bind reads_zulu ?_
  refine Reads.after (reads_skipBlanks (by simp)) ?_
  have hseconds : t.seconds / 86400 * 86400 + t.seconds % 86400 - 0 = t.seconds := by omega
  simp only [hf.day, hf.clock, hf.fraction, hseconds, ofParts?_parts]
  rfl

/-- A stamp reads back. -/
theorem ofStamp?_stamp (h : t.Proper) : ofStamp? t.stamp = some t := by
  have hread := reads_stamp h
  simp only [Stamp.Reads, List.append_nil] at hread
  rw [ofStamp?, hread]

end Instant
end WorkerGuard
