import WorkerGuard.Breaker.Condition

/-!
# WorkerGuard.Proofs.Breaker.Step

What one event can do to the condition of a breaker.

* `admitStep_eq_some`, `successStep_eq_some`: when these change a condition, and to what.
  `admitStep_eq_none`: when there is no probe.
* `failureStep_failures`, `failureStep_stamp`, `failureStep_opened`: the count and the stamp after
  one more failure.
-/

namespace WorkerGuard.Breaker.Condition

variable {c c' : Condition} {now cooldown threshold : Nat}

@[simp] theorem capped_circuit (circuit : Circuit) (failures stamp : Nat) :
    (capped circuit failures stamp).circuit = circuit := rfl

@[simp] theorem capped_failures (circuit : Circuit) (failures stamp : Nat) :
    (capped circuit failures stamp).failures = min failures maxFailures := rfl

@[simp] theorem capped_stamp (circuit : Circuit) (failures stamp : Nat) :
    (capped circuit failures stamp).stamp = min stamp maxStamp := rfl

/-- Only the cooldown lets a probe pass, and the probe stamps the row. -/
theorem admitStep_eq_some (h : c.admitStep now cooldown = some c') :
    c.circuit ≠ .closed ∧ cooldown ≤ c.elapsed now ∧ c' = capped .halfOpen c.failures now := by
  unfold admitStep at h
  split at h
  · cases h
  all_goals
    rename_i hc
    split at h
    · cases h
    · rename_i hel
      cases h
      exact ⟨by simp [hc], by omega, rfl⟩

/-- Before the cooldown is over, nobody probes. -/
theorem admitStep_eq_none (hc : c.circuit = .opened ∨ c.circuit = .halfOpen)
    (h : c.admitStep now cooldown = none) : c.elapsed now < cooldown := by
  unfold admitStep at h
  split at h
  · rename_i hclosed
    rw [hclosed] at hc
    obtain hc | hc := hc <;> cases hc
  all_goals
    split at h
    · assumption
    · cases h

theorem successStep_eq_some (h : c.successStep = some c') :
    (c.circuit ≠ .opened ∧ c' = fresh) ∨
      (c.circuit = .opened ∧ c'.circuit = .opened ∧ c'.stamp = c.stamp) := by
  unfold successStep at h
  split at h
  · rename_i hc
    split at h
    · cases h
    · cases h
      exact .inl ⟨by simp [hc], rfl⟩
  · rename_i hc
    cases h
    exact .inl ⟨by simp [hc], rfl⟩
  · rename_i hc
    cases h
    exact .inr ⟨hc, rfl, Nat.min_eq_left c.stamp_le⟩

theorem failureStep_failures (c : Condition) (now threshold : Nat) :
    (c.failureStep now threshold).failures = min (c.failures + 1) maxFailures := by
  unfold failureStep
  split
  · split <;> rfl
  · rfl
  · rfl

/-- The stamp stays or becomes the time of the failure. -/
theorem failureStep_stamp (c : Condition) (now threshold : Nat) :
    (c.failureStep now threshold).stamp = c.stamp ∨
      (c.failureStep now threshold).stamp = min now maxStamp := by
  unfold failureStep
  split
  · split
    · exact .inr rfl
    · exact .inl (Nat.min_eq_left c.stamp_le)
  · exact .inr rfl
  · exact .inl (Nat.min_eq_left c.stamp_le)

/-- Late failures do not put the probe off. -/
theorem failureStep_opened (h : c.circuit = .opened) :
    (c.failureStep now threshold).circuit = .opened ∧
      (c.failureStep now threshold).stamp = c.stamp := by
  unfold failureStep
  split
  · rename_i hc; rw [h] at hc; cases hc
  · rename_i hc; rw [h] at hc; cases hc
  · exact ⟨rfl, Nat.min_eq_left c.stamp_le⟩

end WorkerGuard.Breaker.Condition
