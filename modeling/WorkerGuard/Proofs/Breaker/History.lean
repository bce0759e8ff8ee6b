import WorkerGuard.Proofs.Breaker.Handles

/-!
# WorkerGuard.Proofs.Breaker.History

What the condition of a breaker says about all that was done to it before.

* `failuresInARow ts`: the failures in a sequence of operations that no success comes after.
* `Counted threshold k c`: a condition after `k` failures in a row.
* `Lawful threshold cooldown now o c c'`: the ways in which an operation may move a breaker.
* `Counted.after`: one operation goes by the count and by the laws.
* `counted_and_lawful`: so does every operation since a breaker was made.
-/

namespace WorkerGuard

open Simulation

namespace Breaker

/-- Everything back to the last success, or to the beginning if there was none. -/
def failuresInARow {n : Nat} (ts : List (OperationOn n)) : Nat :=
  (ts.reverse.takeWhile fun t => t.operation != .recordSuccess).countP fun t =>
    t.operation == .recordFailure

def Operation.tally : Operation → Nat → Nat
  | recordFailure, k => k + 1
  | recordSuccess, _ => 0
  | _, k => k

theorem failuresInARow_concat {n : Nat} (ts : List (OperationOn n)) (t : OperationOn n) :
    failuresInARow (ts ++ [t]) = t.operation.tally (failuresInARow ts) := by
  unfold failuresInARow
  rw [List.reverse_append, List.reverse_singleton, List.singleton_append, List.takeWhile_cons]
  cases ho : t.operation <;> simp [Operation.tally, ho]

structure Counted (threshold k : Nat) (c : Condition) : Prop where
  failures : c.failures = min k maxFailures
  closed : c.circuit = .closed → c.failures < threshold ∧ c.stamp = 0

/-- From `c` to `c'` by the operation `o` at the time `now`. Late reports do not put the probe of an
opened breaker off. -/
def Lawful (threshold cooldown now : Nat) (o : Operation) (c c' : Condition) : Prop :=
  match c.circuit with
  | .closed => c'.circuit ≠ .halfOpen ∧
      (c'.circuit = .opened ↔ o = .recordFailure ∧ c'.failures = threshold)
  | .opened => c'.circuit ≠ .closed ∧
      (c'.circuit = .halfOpen ↔ o = .allow ∧ cooldown ≤ c.elapsed now) ∧
      (o = .recordFailure ∨ o = .recordSuccess → c'.circuit = .opened ∧ c'.stamp = c.stamp)
  | .halfOpen => (c'.circuit = .opened ↔ o = .recordFailure) ∧
      (c'.circuit = .closed ↔ o = .recordSuccess)

section Step

variable {threshold cooldown now k : Nat} {o : Operation} {c c' : Condition}

theorem counted_fresh (hpos : 1 ≤ threshold) : Counted threshold 0 .fresh :=
  ⟨rfl, fun _ => ⟨hpos, rfl⟩⟩

/-- Who only looks leaves the breaker where it is. -/
theorem lawful_look (hs : o ≠ .recordSuccess) (hf : o ≠ .recordFailure)
    (ha : o = .allow → c.circuit = .opened → c.elapsed now < cooldown) :
    Lawful threshold cooldown now o c c := by
  unfold Lawful
  cases hc : c.circuit with
  | closed => exact ⟨nofun, nofun, fun h => absurd h.1 hf⟩
  | opened =>
    refine ⟨nofun, ⟨nofun, fun h => ?_⟩, fun ho => ?_⟩
    · exact absurd h.2 (Nat.not_le.2 (ha h.1 hc))
    · exact absurd ho (not_or.2 ⟨hf, hs⟩)
  | halfOpen => exact ⟨⟨nofun, fun h => absurd h hf⟩, ⟨nofun, fun h => absurd h hs⟩⟩

theorem Counted.admitStep (h : Counted threshold k c) :
    Counted threshold k ((c.admitStep now cooldown).getD c) ∧
      Lawful threshold cooldown now .allow c ((c.admitStep now cooldown).getD c) := by
  cases hp : c.admitStep now cooldown with
  | none => exact ⟨h, lawful_look nofun nofun fun _ hc => Condition.admitStep_eq_none (.inl hc) hp⟩
  | some c' =>
    obtain ⟨hopen, hle, rfl⟩ := Condition.admitStep_eq_some hp
    refine ⟨⟨(Nat.min_eq_left c.failures_le).trans h.failures, nofun⟩, ?_⟩
    unfold Lawful
    cases hc : c.circuit with
    | closed => exact absurd hc hopen
    | opened => exact ⟨nofun, ⟨fun _ => ⟨rfl, hle⟩, fun _ => rfl⟩, fun ho => nomatch ho⟩
    | halfOpen => exact ⟨⟨nofun, nofun⟩, ⟨nofun, nofun⟩⟩

theorem Counted.successStep (hpos : 1 ≤ threshold) (h : Counted threshold k c) :
    Counted threshold 0 (c.successStep.getD c) ∧
      Lawful threshold cooldown now .recordSuccess c (c.successStep.getD c) := by
  unfold Condition.successStep Lawful
  cases hc : c.circuit with
  | closed =>
    by_cases hzero : c.failures = 0
    · simp only [if_pos hzero, Option.getD_none, hc]
      exact ⟨⟨hzero, h.closed⟩, nofun, nofun, fun h => nomatch h.1⟩
    · simp only [if_neg hzero, Option.getD_some]
      exact ⟨counted_fresh hpos, nofun, nofun, fun h => nomatch h.1⟩
  | opened =>
    exact ⟨⟨rfl, nofun⟩, nofun, ⟨nofun, fun h => nomatch h.1⟩,
      fun _ => ⟨rfl, Nat.min_eq_left c.stamp_le⟩⟩
  | halfOpen => exact ⟨counted_fresh hpos, ⟨nofun, nofun⟩, fun _ => rfl, fun _ => rfl⟩

/-- A closed breaker is below its threshold, so that it opens at the threshold and not past it. -/
theorem Counted.failureStep (h : Counted threshold k c) :
    Counted threshold (k + 1) (c.failureStep now threshold) ∧
      Lawful threshold cooldown now .recordFailure c (c.failureStep now threshold) := by
  have hcount : (c.failureStep now threshold).failures = min (k + 1) maxFailures := by
    rw [Condition.failureStep_failures, h.failures]
    omega
  have hnext := c.failureStep_failures now threshold
  unfold Lawful
  cases hc : c.circuit with
  | closed =>
    obtain ⟨hbelow, hstamp⟩ := h.closed hc
    by_cases hreached : threshold ≤ min (c.failures + 1) maxFailures
    · have hfail : (c.failureStep now threshold).circuit = .opened := by
        simp only [Condition.failureStep, hc, if_pos hreached, Condition.capped_circuit]
      rw [hfail]
      refine ⟨⟨hcount, fun hc' => ?_⟩, nofun, fun _ => ⟨rfl, ?_⟩, fun _ => rfl⟩
      · rw [hfail] at hc'
        cases hc'
      · omega
    · have hfail : c.failureStep now threshold = .capped .closed (c.failures + 1) c.stamp := by
        simp only [Condition.failureStep, hc, if_neg hreached]
      refine ⟨⟨hcount, fun _ => ⟨?_, ?_⟩⟩, ?_⟩
      · omega
      · rw [hfail, Condition.capped_stamp, hstamp, Nat.zero_min]
      · rw [hfail, Condition.capped_circuit, Condition.capped_failures]
        exact ⟨nofun, nofun, fun h => absurd h.2 (by omega)⟩
  | opened =>
    have hlate : (c.failureStep now threshold).circuit = .opened ∧
        (c.failureStep now threshold).stamp = c.stamp := Condition.failureStep_opened hc
    obtain ⟨hopened, hstays⟩ := hlate
    refine ⟨⟨hcount, fun hc' => ?_⟩, ?_⟩
    · rw [hopened] at hc'
      cases hc'
    · rw [hopened]
      exact ⟨nofun, ⟨nofun, fun h => nomatch h.1⟩, fun _ => ⟨rfl, hstays⟩⟩
  | halfOpen =>
    have hfail : (c.failureStep now threshold).circuit = .opened := by
      simp only [Condition.failureStep, hc, Condition.capped_circuit]
    rw [hfail]
    refine ⟨⟨hcount, fun hc' => ?_⟩, ⟨fun _ => rfl, fun _ => rfl⟩, ⟨nofun, nofun⟩⟩
    rw [hfail] at hc'
    cases hc'

theorem Counted.after {b : Breaker} (h : Counted b.threshold k c) (t : Instant) (o : Operation) :
    Counted b.threshold (o.tally k) (o.after b t c) ∧
      Lawful b.threshold b.cooldownMillis t.millis.toNat o c (o.after b t c) := by
  cases o with
  | allow => exact h.admitStep
  | recordSuccess => exact h.successStep b.threshold_pos
  | recordFailure => exact h.failureStep
  | state => exact ⟨h, lawful_look nofun nofun nofun⟩
  | failureCount => exact ⟨h, lawful_look nofun nofun nofun⟩
  | timeUntilProbe => exact ⟨h, lawful_look nofun nofun nofun⟩
  | snapshot => exact ⟨h, lawful_look nofun nofun nofun⟩

end Step

section Run

variable {n : Nat} {b : Breaker}

theorem conditionAfter_concat (b : Breaker) (c : Condition) (ts : List (OperationOn n))
    (t : OperationOn n) :
    conditionAfter b c (ts ++ [t]) = t.operation.after b t.now (conditionAfter b c ts) := by
  rw [conditionAfter, List.foldl_append]
  rfl

theorem counted_after (b : Breaker) (ts : List (OperationOn n)) (k : Nat) :
    Counted b.threshold (failuresInARow (ts.take k)) (conditionAfter b .fresh (ts.take k)) := by
  induction k with
  | zero => exact counted_fresh b.threshold_pos
  | succ k ih =>
    rw [List.take_add_one]
    cases ts[k]? with
    | none =>
      rw [Option.toList_none, List.append_nil]
      exact ih
    | some t =>
      rw [Option.toList_some, failuresInARow_concat, conditionAfter_concat]
      exact (ih.after t.now t.operation).1

/-- What one of the handles on a breaker works on after some of the operations. -/
def Handles.conditionAt (b : Breaker) (ts : List (OperationOn n)) (i : Fin n) (k : Nat) :
    Condition :=
  ((Handles.fresh (.memory .empty)).run b (ts.take k)).2.condition b i

theorem Handles.conditionAt_eq (hone : b.shared = true ∨ n = 1) (hp : 0 < b.patience)
    (ts : List (OperationOn n)) (i : Fin n) (k : Nat) :
    conditionAt b ts i k = conditionAfter b .fresh (ts.take k) := by
  have hfresh : (fresh (.memory .empty) : Handles n).Shows b .fresh := shows_fresh rfl
  exact (hfresh.run hone hp (ts.take k)).2.condition_eq i

theorem cooldownMillis_ofSettings (d : Dependency) {s : Settings} (shared : Bool) (patience : Nat)
    (h : s.cooldown.millis < UInt64.size) :
    (ofSettings d s shared patience).cooldownMillis = s.cooldown.millis :=
  Nat.mod_eq_of_lt h

/-- A breaker of one process, or one that any number of handles share: whatever is done to it and
whatever the clocks say, its count is that of the failures in a row, and it moves by the laws. -/
theorem counted_and_lawful (d : Dependency) (s : Settings) (shared : Bool) (patience : Nat)
    (hcool : s.cooldown.millis < UInt64.size) {n : Nat} (hone : shared = true ∨ n = 1)
    (ts : List (OperationOn n)) (i : Fin n) :
    (∀ k, Counted (max 1 (min s.failureThreshold.toNat maxFailures)) (failuresInARow (ts.take k))
        (Handles.conditionAt (.ofSettings d s shared (patience + 1)) ts i k)) ∧
      ∀ k t, ts[k]? = some t →
        Lawful (max 1 (min s.failureThreshold.toNat maxFailures)) s.cooldown.millis
          t.now.millis.toNat t.operation
          (Handles.conditionAt (.ofSettings d s shared (patience + 1)) ts i k)
          (Handles.conditionAt (.ofSettings d s shared (patience + 1)) ts i (k + 1)) := by
  have heq := Handles.conditionAt_eq (b := .ofSettings d s shared (patience + 1)) hone
    patience.succ_pos ts i
  constructor
  · intro k
    rw [heq]
    exact counted_after (.ofSettings d s shared (patience + 1)) ts k
  · intro k t ht
    rw [heq, heq, List.take_add_one, ht, Option.toList_some, conditionAfter_concat,
      ← cooldownMillis_ofSettings d shared (patience + 1) hcool]
    exact ((counted_after (.ofSettings d s shared (patience + 1)) ts k).after t.now t.operation).2

/-- The breaker of `seesaw` is opened by its second failure and half open after its fifth turn. -/
theorem seesaw_lawful :
    (Settings.cooldown ⟨2, 60⟩).millis < UInt64.size ∧ (true = true ∨ 2 = 1) ∧
      (Handles.conditionAt (.ofSettings ⟨"api"⟩ ⟨2, 60⟩ true 1) seesaw 0 1).circuit = .closed ∧
      (Handles.conditionAt (.ofSettings ⟨"api"⟩ ⟨2, 60⟩ true 1) seesaw 0 2).circuit = .opened ∧
      (Handles.conditionAt (.ofSettings ⟨"api"⟩ ⟨2, 60⟩ true 1) seesaw 0 4).circuit = .opened ∧
      (Handles.conditionAt (.ofSettings ⟨"api"⟩ ⟨2, 60⟩ true 1) seesaw 0 5).circuit = .halfOpen ∧
      Lawful 2 60000 70000 .allow
        (Handles.conditionAt (.ofSettings ⟨"api"⟩ ⟨2, 60⟩ true 1) seesaw 0 4)
        (Handles.conditionAt (.ofSettings ⟨"api"⟩ ⟨2, 60⟩ true 1) seesaw 0 5) :=
  ⟨by decide, .inl rfl, by decide +kernel, by decide +kernel, by decide +kernel, by decide +kernel,
    (counted_and_lawful ⟨"api"⟩ ⟨2, 60⟩ true 0 (by decide) (.inl rfl) seesaw 0).2 4 _ rfl⟩

end Run
end Breaker
end WorkerGuard
