import WorkerGuard.Proofs.Number.Magnitude
import WorkerGuard.Retry.Policy
import WorkerGuard.Settings.Check

/-!
# WorkerGuard.Proofs.Retry.Delays

The delays between attempts are always durations.

* `under_toFloat_of_lt`: a duration as a floating-point number.
* `Policy.backoff?_ne_none`: with settings that passed their check, no delay is out of range.
-/

namespace WorkerGuard

open Number

theorem Duration.under_toFloat_of_lt {d : Duration} (hd : d.nanos < 2 ^ 64 * 1_000_000) :
    Under 58 d.toFloat := by
  have hseconds : d.seconds.toUInt64.toNat < 2 ^ 55 := by
    rw [Nat.toUInt64, UInt64.toNat_ofNat', Duration.seconds]
    omega
  have hnanos : d.subsecNanos.toUInt64.toNat < 2 ^ 30 := by
    rw [Nat.toUInt64, UInt64.toNat_ofNat', Duration.subsecNanos]
    omega
  have hfraction := (under_toFloat hnanos (by decide)).div_billion (by decide) (by decide)
  exact (under_toFloat hseconds (by decide)).add (hfraction.mono (by decide)) (by decide) (by decide)

namespace Retry

theorem under_toUnit {x : Float} (hx : x = 0.0 ∨ (0.0 ≤ x ∧ x ≤ 1.0)) : Under 1 (toUnit x) := by
  have hzero : Under 1 0.0 := under_unit (by decide +kernel) (by decide +kernel)
  have hone : Under 1 1.0 := under_unit (by decide +kernel) (by decide +kernel)
  unfold toUnit
  split
  · exact hzero
  · split
    · exact hone
    · obtain rfl | ⟨h₀, h₁⟩ := hx
      · exact hzero
      · exact under_unit h₀ h₁

theorem jitterFraction_of_check {s : Settings} (hs : s.check = .ok ()) :
    0.0 ≤ s.retry.jitterFraction ∧ s.retry.jitterFraction ≤ 1.0 := by
  have hnone : s.faults = [] := by
    unfold Settings.check at hs
    split at hs
    · assumption
    · cases hs
  simp only [Settings.faults, List.append_eq_nil_iff] at hnone
  obtain ⟨⟨⟨⟨⟨⟨⟨_, hjitter⟩, _⟩, _⟩, _⟩, _⟩, _⟩, _⟩ := hnone
  split at hjitter
  · assumption
  · cases hjitter

theorem nanos_nominalDelay_lt (r : Settings.Retry) (attempt : UInt32) :
    ((Policy.ofSettings r).nominalDelay attempt).nanos < 2 ^ 64 * 1_000_000 := by
  have hmax := r.maxDelayMs.toNat_lt
  rw [Policy.nominalDelay, Duration.nanos_min]
  refine Nat.lt_of_le_of_lt (Nat.min_le_right _ _) ?_
  show r.maxDelayMs.toNat * 1_000_000 < 2 ^ 64 * 1_000_000
  omega

/-- At most twice the longest delay that can be set. -/
theorem Policy.backoff?_ne_none {s : Settings} (hs : s.check = .ok ()) (attempt : UInt32)
    {x : Float} (hx : x = 0.0 ∨ (0.0 ≤ x ∧ x ≤ 1.0)) :
    (Policy.ofSettings s.retry).backoff? attempt x ≠ none := by
  have hfraction : Under 1 (Policy.ofSettings s.retry).jitterFraction :=
    under_toUnit (.inr (jitterFraction_of_check hs))
  have hone : Under 3 1.0 :=
    (under_unit (by decide +kernel) (by decide +kernel)).mono (by decide)
  have hproduct := (under_toUnit hx).mul hfraction (by decide) (by decide)
  have hfactor := hone.add hproduct (by decide) (by decide)
  have hlength := Duration.under_toFloat_of_lt (nanos_nominalDelay_lt s.retry attempt)
  exact ofFloat?_of_under (hfactor.mul hlength (by decide) (by decide))

end Retry
end WorkerGuard
