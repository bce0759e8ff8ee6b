import WorkerGuard.Number.Shortest

/-!
# WorkerGuard.Proofs.Number.Shortest

The shortest decimal of a positive number has a digit other than zero.

* `readsBack_zero`: zero is in the rounding interval of no positive number.
* `shortest_ne_zero`: the result.
-/

namespace WorkerGuard.Number

variable {m below c : Nat} {q j : Int} {d : Decimal}

theorem inUnits_pos (hm : m ≠ 0) (q j : Int) : 0 < (inUnits m q j).1 :=
  Nat.mul_pos (Nat.mul_pos (Nat.pos_of_ne_zero hm) (Nat.pow_pos (by decide)))
    (Nat.pow_pos (by decide))

theorem readsBack_zero {num den : Nat} (hm : m ≠ 0) (hbelow : below ≤ 2) (hnum : 0 < num) :
    readsBack m below num den 0 = false := by
  have hlo : 0 < num * (4 * m - below) := Nat.mul_pos hnum (by omega)
  simp only [readsBack, Nat.zero_mul]
  split
  · rw [decide_eq_false (Nat.not_le.2 hlo), Bool.false_and]
  · rw [decide_eq_false (Nat.not_lt_zero _), Bool.false_and]

theorem onGrid_ne_zero (hm : m ≠ 0) (hbelow : below ≤ 2) (h : onGrid m below q j = some d) :
    d.digits ≠ 0 := by
  have hnum := inUnits_pos hm q j
  simp only [onGrid] at h
  have hpos : readsBack m below (inUnits m q j).1 (inUnits m q j).2
      ((inUnits m q j).1 / (inUnits m q j).2) = true →
        (inUnits m q j).1 / (inUnits m q j).2 ≠ 0 := by
    intro hback hzero
    rw [hzero, readsBack_zero hm hbelow hnum] at hback
    cases hback
  split at h
  · rename_i hback _
    split at h
    · cases h; exact hpos hback
    · cases h; exact Nat.succ_ne_zero _
  · rename_i hback _
    cases h; exact hpos hback
  · cases h; exact Nat.succ_ne_zero _
  · cases h

theorem stripZeros_ne_zero (fuel : Nat) (h : d.digits ≠ 0) : (stripZeros fuel d).digits ≠ 0 := by
  induction fuel generalizing d with
  | zero => exact h
  | succ fuel ih =>
    rw [stripZeros]
    split
    · rename_i hlast
      exact ih (by show d.digits / 10 ≠ 0; omega)
    · exact h

theorem shortest_ne_zero {p : Parts} (h : p.significand ≠ 0) : (shortest p).digits ≠ 0 := by
  simp only [shortest]
  refine stripZeros_ne_zero _ ?_
  have hbelow : (if p.significand = hiddenBit ∧ p.exponent ≠ -1074 then 1 else 2) ≤ 2 := by
    split <;> omega
  generalize (if p.significand = hiddenBit ∧ p.exponent ≠ -1074 then 1 else 2) = below at hbelow
  cases hfound : (List.range 17).findSome? fun n =>
      onGrid p.significand below p.exponent
        (magnitude p.significand p.exponent - Int.ofNat (n + 1)) with
  | none =>
    have htwo : Nat.pow 2 p.exponent.toNat ≠ 0 := Nat.ne_of_gt (Nat.pow_pos (by decide))
    have hfive : Nat.pow 5 (-p.exponent).toNat ≠ 0 := Nat.ne_of_gt (Nat.pow_pos (by decide))
    exact Nat.mul_ne_zero (Nat.mul_ne_zero h htwo) hfive
  | some d =>
    obtain ⟨n, -, hd⟩ := List.exists_of_findSome?_eq_some hfound
    exact onGrid_ne_zero h hbelow hd

end WorkerGuard.Number
