/-!
# WorkerGuard.Text.Range

Character classes given by a table of code point ranges.

* `inRanges`: membership of a character in such a table.
-/

namespace WorkerGuard.Text

/-- A range holds both its ends. -/
def inRanges (table : List (Nat × Nat)) (c : Char) : Bool :=
  table.any fun r => r.1 ≤ c.toNat && c.toNat ≤ r.2

theorem inRanges_iff {table : List (Nat × Nat)} {c : Char} :
    inRanges table c = true ↔ ∃ r ∈ table, r.1 ≤ c.toNat ∧ c.toNat ≤ r.2 := by
  simp [inRanges]

end WorkerGuard.Text
