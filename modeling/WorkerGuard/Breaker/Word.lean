import WorkerGuard.Breaker.Condition

/-!
# WorkerGuard.Breaker.Word

A row in one 64-bit word, which a process can exchange in one step.

* `encode`: two bits for the position, twenty for the failures, the rest for the stamp.
* `decode`: the condition of any word. The position that no row has reads as closed.
* `decode_encode`: nothing of a row is lost but what is out of range.

`encode`, with both saturations, and `decode` embed those of `Packed`.
-/

namespace WorkerGuard

def Circuit.code : Circuit → UInt64
  | .closed => 0
  | .opened => 1
  | .halfOpen => 2

def Circuit.ofCode (n : UInt64) : Circuit :=
  if n = 1 then .opened else if n = 2 then .halfOpen else .closed

theorem Circuit.ofCode_code (c : Circuit) : Circuit.ofCode c.code = c := by
  cases c <;> rfl

theorem Circuit.code_lt (c : Circuit) : c.code.toNat < 4 := by
  cases c <;> decide

namespace Breaker

/-- What is out of range counts as the largest number there is room for. -/
def encode (r : Row) : UInt64 :=
  (min r.stamp.toNat maxStamp).toUInt64 <<< 22 |||
    (min r.failures.toNat maxFailures).toUInt64 <<< 2 ||| r.circuit.code

def decode (word : UInt64) : Condition :=
  Condition.capped (Circuit.ofCode (word &&& 3)) ((word >>> 2) &&& 0xfffff).toNat
    (word >>> 22).toNat

/-- The three parts take up bits of their own. -/
theorem toNat_encode (r : Row) :
    (encode r).toNat = (min r.stamp.toNat maxStamp * 1048576 + min r.failures.toNat maxFailures) * 4 +
      r.circuit.code.toNat := by
  have hf := Nat.min_le_right r.failures.toNat maxFailures
  have hs := Nat.min_le_right r.stamp.toNat maxStamp
  have hc := r.circuit.code_lt
  unfold encode
  generalize min r.failures.toNat maxFailures = failures at *
  generalize min r.stamp.toNat maxStamp = stamp at *
  simp only [maxFailures, maxStamp] at hf hs
  have hstamp : (stamp.toUInt64 <<< 22).toNat = 2 ^ 22 * stamp := by
    rw [UInt64.toNat_shiftLeft, Nat.toUInt64, UInt64.toNat_ofNat',
      Nat.mod_eq_of_lt (a := stamp) (by omega)]
    show stamp <<< 22 % 2 ^ 64 = _
    rw [Nat.shiftLeft_eq, Nat.mod_eq_of_lt (by omega), Nat.mul_comm]
  have hfailures : (failures.toUInt64 <<< 2).toNat = failures * 4 := by
    rw [UInt64.toNat_shiftLeft, Nat.toUInt64, UInt64.toNat_ofNat',
      Nat.mod_eq_of_lt (a := failures) (by omega)]
    show failures <<< 2 % 2 ^ 64 = _
    rw [Nat.shiftLeft_eq, Nat.mod_eq_of_lt (by omega)]
  rw [UInt64.toNat_or, UInt64.toNat_or, hstamp, hfailures, ← Nat.two_pow_add_eq_or_of_lt (by omega)]
  have hquad : 2 ^ 22 * stamp + failures * 4 = 2 ^ 2 * (stamp * 1048576 + failures) := by
    omega
  rw [hquad, ← Nat.two_pow_add_eq_or_of_lt (by omega)]
  omega

theorem encode_and_three (r : Row) : encode r &&& 3 = r.circuit.code := by
  have hc := r.circuit.code_lt
  apply UInt64.toNat_inj.1
  rw [UInt64.toNat_and, toNat_encode]
  show _ &&& (2 ^ 2 - 1) = _
  rw [Nat.and_two_pow_sub_one_eq_mod]
  omega

/-- A row comes back as the condition that a breaker makes of it. -/
theorem decode_encode (r : Row) : decode (encode r) = .ofRow r := by
  have hf := Nat.min_le_right r.failures.toNat maxFailures
  have hs := Nat.min_le_right r.stamp.toNat maxStamp
  have hc := r.circuit.code_lt
  have h := toNat_encode r
  have hfailures : ((encode r >>> 2) &&& 0xfffff).toNat = min r.failures.toNat maxFailures := by
    rw [UInt64.toNat_and, UInt64.toNat_shiftRight, h]
    show (_ >>> 2) &&& (2 ^ 20 - 1) = _
    rw [Nat.and_two_pow_sub_one_eq_mod, Nat.shiftRight_eq_div_pow]
    simp only [maxFailures, maxStamp] at *
    omega
  have hstamp : (encode r >>> 22).toNat = min r.stamp.toNat maxStamp := by
    rw [UInt64.toNat_shiftRight, h]
    show _ >>> 22 = _
    rw [Nat.shiftRight_eq_div_pow]
    simp only [maxFailures, maxStamp] at *
    omega
  rw [decode, encode_and_three, hfailures, hstamp, Circuit.ofCode_code]
  apply Condition.ext
  · rfl
  · exact Nat.min_eq_left hf
  · exact Nat.min_eq_left hs

theorem decode_encode_toRow (c : Condition) : decode (encode c.toRow) = c := by
  rw [decode_encode, Condition.ofRow_toRow]

end Breaker
end WorkerGuard
