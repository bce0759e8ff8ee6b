import Mathlib.Algebra.Group.Nat.Defs
import WorkerGuard.Retry.Policy

/-!
# WorkerGuard.Proofs.Retry.Schedule

The delays before the retries, without their random part, in closed form.

* `Duration.nanos_min_times`: a multiple up to a cap is exact, whether it is a duration or not.
* `Policy.doubled`: the delay that doubles from attempt to attempt up to the cap, in nanoseconds.
* `factor_eq`, `nanos_nominalDelay`: the delay that is waited, whose factor stops at 2^32 - 1.
* `nominalDelay_doubles_iff`: the two agree below attempt 32, and from there on only if the cap is
  reached by then.
-/

namespace WorkerGuard

/-- What is no duration is above the cap. -/
theorem Duration.nanos_min_times (d cap : Duration) (k : Nat) :
    (min ((d.times? k).getD cap) cap).nanos = min cap.nanos (d.nanos * k) := by
  rw [Duration.nanos_min, Nat.min_comm]
  cases h : d.times? k with
  | none =>
    have hlimit := Duration.times?_eq_none_iff.1 h
    have hcap := cap.nanos_lt
    rw [Option.getD_none, Nat.min_self, Nat.min_eq_left (by omega)]
  | some product => rw [Option.getD_some, Duration.times?_eq_some_iff.1 h]

namespace Retry.Policy

variable (p : Policy) (attempt : UInt32)

def doubled : Nat := min p.maxDelay.nanos (p.baseDelay.nanos * 2 ^ attempt.toNat)

theorem two_pow_lt_iff : 2 ^ attempt.toNat < 2 ^ 32 ↔ attempt < 32 := by
  rw [Nat.pow_lt_pow_iff_right (by decide), UInt32.lt_iff_toNat_lt]
  rfl

theorem factor_eq : factor attempt = min (2 ^ attempt.toNat) 4294967295 := by
  have hpow := two_pow_lt_iff attempt
  unfold factor
  split
  case isTrue h =>
    have hlt := hpow.2 h
    show 2 ^ attempt.toNat = _
    omega
  case isFalse h =>
    have hle := mt hpow.1 h
    omega

theorem nanos_nominalDelay :
    (p.nominalDelay attempt).nanos =
      min p.maxDelay.nanos (p.baseDelay.nanos * min (2 ^ attempt.toNat) 4294967295) := by
  rw [nominalDelay, Duration.nanos_min_times, factor_eq]

/-- Two multiples up to a cap are the same only if the smaller one has reached it. -/
theorem min_mul_eq_iff {cap a m n : Nat} (hmn : m < n) :
    min cap (a * m) = min cap (a * n) ↔ a = 0 ∨ cap ≤ a * m := by
  obtain rfl | ha := Nat.eq_zero_or_pos a
  · simp
  · have hlt : a * m < a * n := Nat.mul_lt_mul_of_pos_left hmn ha
    omega

theorem nominalDelay_doubles_iff :
    (p.nominalDelay attempt).nanos =
        min p.maxDelay.nanos (p.baseDelay.nanos * min (2 ^ attempt.toNat) 4294967295) ∧
      ((p.nominalDelay attempt).nanos = p.doubled attempt ↔
        attempt < 32 ∨ p.baseDelay.nanos = 0 ∨
          p.maxDelay.nanos ≤ p.baseDelay.nanos * 4294967295) := by
  refine ⟨p.nanos_nominalDelay attempt, ?_⟩
  rw [nanos_nominalDelay, doubled]
  by_cases h : attempt < 32
  · have hpow := (two_pow_lt_iff attempt).2 h
    rw [Nat.min_eq_left (a := 2 ^ attempt.toNat) (by omega)]
    exact iff_of_true rfl (.inl h)
  · have hpow := mt (two_pow_lt_iff attempt).1 h
    rw [Nat.min_eq_right (a := 2 ^ attempt.toNat) (by omega), min_mul_eq_iff (by omega)]
    exact (or_iff_right h).symm

/-- A base of one millisecond under a cap of ten million seconds. -/
def patient : Policy where
  maxAttempts := 40
  baseDelay := .ofMillis 1
  maxDelay := .ofSeconds 10_000_000
  jitterFraction := 0.2
  attemptTimeout := .ofSeconds 30
  maxAttemptTimeout := .ofSeconds 120
  retryableKinds := [.transient]

/-- Attempt 32 waits one millisecond less than twice what attempt 31 waits, attempt 33 no longer. -/
theorem patient_stalls :
    patient.nominalDelay 32 = .ofMillis 4_294_967_295 ∧
      patient.nominalDelay 33 = .ofMillis 4_294_967_295 ∧
      patient.doubled 32 = (Duration.ofMillis 4_294_967_296).nanos ∧
      (patient.nominalDelay 32).nanos ≠ patient.doubled 32 := by
  decide +kernel

end Retry.Policy
end WorkerGuard
