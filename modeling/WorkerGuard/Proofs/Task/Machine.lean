import WorkerGuard.Task.Machine

/-!
# WorkerGuard.Proofs.Task.Machine

What one transition of a task can ask for.

* `decide_eq_retryLocal`, `decide_eq_spawnHelper`: when a failed round leads to another one, and
  when to a helper.
* `transition_length`: there is at most one action after an event.
* `transition_spawn`: only a failed round has a helper asked for.
-/

namespace WorkerGuard.Task

open Failure

theorem Report.kind_of_retryable {r : Report} {k : RetryableKind} (h : r.retryable? = some k) :
    r.classification.retryable = true ∧ r.classification.kind = k.toKind := by
  unfold Report.retryable? at h
  split at h
  · rename_i hretry
    exact ⟨hretry, Kind.retryable?_eq_some_iff.1 h⟩
  · cases h

/-- All that has to come together for another round. -/
theorem decide_eq_retryLocal {r : Report} {limits : Limits} (h : decide r limits = .retryLocal) :
    (∃ k : RetryableKind, r.classification.kind = k.toKind) ∧ r.breaker = .closed ∧
      r.round < limits.localRounds := by
  unfold decide at h
  split at h
  · cases h
  · rename_i kind hkind
    split at h
    · cases h
    · rename_i hclosed
      split at h
      · rename_i hround
        exact ⟨⟨kind, (Report.kind_of_retryable hkind).2⟩, Decidable.not_not.1 hclosed, hround⟩
      · split at h <;> cases h

/-- All that has to come together for a helper. -/
theorem decide_eq_spawnHelper {r : Report} {limits : Limits} {k : RetryableKind}
    (h : decide r limits = .spawnHelper k) :
    r.classification.retryable = true ∧ r.classification.kind = k.toKind ∧ r.breaker = .closed ∧
      limits.localRounds ≤ r.round ∧ limits.spawnAfter ≤ r.elapsed := by
  unfold decide at h
  split at h
  · cases h
  · rename_i kind hkind
    split at h
    · cases h
    · rename_i hclosed
      split at h
      · cases h
      · rename_i hround
        split at h
        · rename_i helapsed
          cases h
          obtain ⟨hretry, hsame⟩ := Report.kind_of_retryable hkind
          exact ⟨hretry, hsame, Decidable.not_not.1 hclosed, UInt32.not_lt.1 hround, helapsed⟩
        · cases h

theorem afterFailure_length (r : Report) (limits : Limits) :
    (afterFailure r limits).2.length ≤ 1 := by
  unfold afterFailure
  split
  · exact Nat.le_refl _
  · exact Nat.le_refl _
  · exact Nat.le_refl _
  · exact Nat.zero_le _

theorem afterFailure_spawn {r : Report} {limits : Limits} {k : RetryableKind}
    (h : (afterFailure r limits).2 = [.requestSpawn k]) :
    decide r limits = .spawnHelper k := by
  unfold afterFailure at h
  split at h
  · cases h
  · rename_i kind hdec
    cases h
    exact hdec
  · cases h
  · cases h

theorem transition_length (st : State) (e : Event) (limits : Limits) :
    (transition st e limits).2.length ≤ 1 := by
  unfold transition
  split
  all_goals first
    | exact afterFailure_length _ _
    | exact Nat.le_refl _
    | exact Nat.zero_le _

theorem transition_spawn {st : State} {e : Event} {limits : Limits} {k : RetryableKind}
    (h : (transition st e limits).2 = [.requestSpawn k]) :
    ∃ r, e = .roundFailed r ∧ decide r limits = .spawnHelper k := by
  unfold transition at h
  split at h
  all_goals first
    | exact ⟨_, rfl, afterFailure_spawn h⟩
    | cases h

end WorkerGuard.Task
