import WorkerGuard.Proofs.Breaker.Cooldown
import WorkerGuard.Proofs.Breaker.Outage

/-!
# WorkerGuard.Proofs.Breaker.Recall

What a handle remembers of failures while its registry comes and goes.

* `Recall`: the failures that the row and the word remember. A failure is remembered by the row, and
  by the word with it, or by the word alone; who reaches the row forgets what the word had alone.
* `Remembers`: a condition after so many failures, before a cooldown has passed since the one that
  reached the threshold.
* `Sides.Remember.left`: one operation keeps the conditions in step with what is remembered.
* `Aftermath`: the operations of a handle up to less than a cooldown after that failure.
* `Aftermath.answers_by_recall`: what the handle answers then is a matter of what is remembered
  where it looks.
-/

namespace WorkerGuard

open Simulation

namespace Breaker

structure Recall where
  row : Nat
  word : Nat
  deriving DecidableEq, Repr

namespace Recall

/-- An operation that reports no success, while nobody is let pass as a probe. -/
def after (r : Recall) (t : OperationAt) : Recall :=
  if t.operation = .recordFailure then
    if t.moment.load = none ∧ t.moment.swap = none then ⟨r.row + 1, r.row + 1⟩
    else { r with word := r.word + 1 }
  else if t.moment.load = none then ⟨r.row, r.row⟩ else r

def afterAll (r : Recall) (ts : List OperationAt) : Recall := ts.foldl after r

/-- What is remembered where a look goes. -/
def seen (r : Recall) (m : Moment) : Nat := if m.load = none then r.row else r.word

end Recall

/-- The failures in a sequence of operations. -/
def failuresIn (ts : List OperationAt) : Nat := ts.countP fun t => t.operation == .recordFailure

/-- After `k` failures; `since` is the time of the one that reached the threshold. -/
structure Remembers (threshold since k : Nat) (c : Condition) : Prop where
  failures : c.failures = min k maxFailures
  below : k < threshold → c.circuit = .closed
  reached : threshold ≤ k → c.circuit = .opened ∧ since ≤ c.stamp

section Conditions

variable {threshold since k now cooldown : Nat} {c : Condition}

theorem remembers_fresh (hpos : 1 ≤ threshold) : Remembers threshold since 0 .fresh :=
  ⟨rfl, fun _ => rfl, fun h => by omega⟩

/-- One failure more, not before the one that reaches the threshold if it does so. -/
theorem Remembers.failureStep (h : Remembers threshold since k c) (hle : threshold ≤ maxFailures)
    (hsince : since ≤ maxStamp) (hnow : threshold ≤ k + 1 → since ≤ now) :
    Remembers threshold since (k + 1) (c.failureStep now threshold) := by
  have hcount := h.failures
  refine ⟨?_, ?_, ?_⟩
  · rw [Condition.failureStep_failures, hcount]
    omega
  · intro hk
    have hclosed := h.below (by omega)
    have hshort : ¬threshold ≤ min (c.failures + 1) maxFailures := by omega
    simp only [Condition.failureStep, hclosed, if_neg hshort, Condition.capped_circuit]
  · intro hk
    by_cases hopen : threshold ≤ k
    · obtain ⟨hopened, hstamp⟩ := h.reached hopen
      obtain ⟨hcircuit, hsame⟩ : (c.failureStep now threshold).circuit = .opened ∧
          (c.failureStep now threshold).stamp = c.stamp := Condition.failureStep_opened hopened
      exact ⟨hcircuit, hsame ▸ hstamp⟩
    · have hclosed := h.below (by omega)
      have hreached : threshold ≤ min (c.failures + 1) maxFailures := by omega
      simp only [Condition.failureStep, hclosed, if_pos hreached, Condition.capped_circuit,
        Condition.capped_stamp]
      exact ⟨trivial, Nat.le_min.2 ⟨hnow hk, hsince⟩⟩

/-- Nobody probes before the cooldown is over. -/
theorem Remembers.admitStep (h : Remembers threshold since k c)
    (hnow : threshold ≤ k → since ≤ now ∧ now < since + cooldown) :
    c.admitStep now cooldown = none := by
  by_cases hk : threshold ≤ k
  · obtain ⟨hopened, hstamp⟩ := h.reached hk
    have hearly : c.elapsed now < cooldown := by
      obtain ⟨hle, hlt⟩ := hnow hk
      rw [Condition.elapsed]
      omega
    simp only [Condition.admitStep, hopened, if_pos hearly]
  · simp only [Condition.admitStep, h.below (by omega)]

theorem Remembers.circuit_eq (h : Remembers threshold since k c) :
    c.circuit = if k < threshold then .closed else .opened := by
  split
  · rename_i hk
    exact h.below hk
  · rename_i hk
    exact (h.reached (Nat.not_lt.1 hk)).1

end Conditions

/-- Both conditions are what is remembered of the failures. -/
structure Sides.Remember (threshold since : Nat) (r : Recall) (s : Sides) : Prop where
  row : Remembers threshold since r.row s.row
  word : Remembers threshold since r.word s.word

/-- Nothing is remembered as often as the threshold, or the cooldown has begun and is not over. -/
def Recall.InTime (threshold since cooldown now : Nat) (r : Recall) : Prop :=
  (r.row < threshold ∧ r.word < threshold) ∨ (since ≤ now ∧ now < since + cooldown)

section Step

variable {b : Breaker} {m : Moment} {s : Sides} {step : Step} {since : Nat} {r : Recall}
variable {t : OperationAt}

/-- A step that changes neither condition is made where a look goes. -/
theorem Sides.met_of_none (hrow : step s.row m.now.millis.toNat = none) :
    s.met m step = if m.load = none then s.row else s.word := by
  cases hload : m.load <;> simp [Sides.met, Moment.reaches, hrow, hload]

theorem Sides.left_of_look (hload : m.load = none) (hrow : step s.row m.now.millis.toNat = none) :
    s.left m step = ⟨s.row, s.row⟩ := by
  simp [Sides.left, Sides.met, Moment.reaches, hrow, hload]

theorem Sides.left_of_miss (hload : m.load ≠ none)
    (hword : step s.word m.now.millis.toNat = none) : s.left m step = s := by
  have hreaches : m.reaches step s.row = false := by
    cases h : m.load with
    | none => exact absurd h hload
    | some why => simp [Moment.reaches, h]
  rw [Sides.left_of_not_reaches hreaches, hword]
  rfl

/-- One that always changes them has to reach the row twice. -/
theorem Sides.left_of_some {f : Condition → Condition}
    (hstep : ∀ c, step c m.now.millis.toNat = some (f c)) :
    s.left m step = if m.load = none ∧ m.swap = none then ⟨f s.row, f s.row⟩
      else { s with word := f s.word } := by
  cases hload : m.load <;> cases hswap : m.swap <;>
    simp [Sides.left, Sides.met, Moment.reaches, hstep, hload, hswap]

/-- An operation that is no report changes no condition before the cooldown is over. -/
theorem Remembers.quiet {k now : Nat} {c : Condition} {o : Operation}
    (h : Remembers b.threshold since k c) (hsuccess : o ≠ .recordSuccess)
    (hfailure : o ≠ .recordFailure)
    (hnow : b.threshold ≤ k → since ≤ now ∧ now < since + b.cooldownMillis) :
    o.step b c now = none := by
  cases o with
  | allow => exact h.admitStep hnow
  | recordSuccess => exact absurd rfl hsuccess
  | recordFailure => exact absurd rfl hfailure
  | _ => rfl

theorem Sides.Remember.left (h : s.Remember b.threshold since r) (hsince : since ≤ maxStamp)
    (hsuccess : t.operation ≠ .recordSuccess)
    (htime : (r.after t).InTime b.threshold since b.cooldownMillis t.moment.now.millis.toNat) :
    (t.left b s).Remember b.threshold since (r.after t) := by
  unfold Recall.InTime at htime
  by_cases hfailure : t.operation = .recordFailure
  · have hleft : s.left t.moment (Operation.step b .recordFailure) = _ :=
      Sides.left_of_some fun c => rfl
    rw [← hfailure] at hleft
    rw [OperationAt.left, hleft]
    simp only [Recall.after, hfailure, if_true] at htime ⊢
    split
    · rename_i hreached
      rw [if_pos hreached] at htime
      dsimp only at htime
      have hrow : Remembers b.threshold since (r.row + 1)
          (s.row.failureStep t.moment.now.millis.toNat b.threshold) :=
        h.row.failureStep b.threshold_le hsince (by omega)
      exact ⟨hrow, hrow⟩
    · rename_i hreached
      rw [if_neg hreached] at htime
      dsimp only at htime
      exact ⟨h.row, h.word.failureStep b.threshold_le hsince (by omega)⟩
  · simp only [Recall.after, if_neg hfailure] at htime ⊢
    split
    · rename_i hload
      rw [if_pos hload] at htime
      dsimp only at htime
      have hquiet : t.operation.step b s.row t.moment.now.millis.toNat = none :=
        h.row.quiet hsuccess hfailure (by omega)
      rw [OperationAt.left, Sides.left_of_look hload hquiet]
      exact ⟨h.row, h.row⟩
    · rename_i hload
      rw [if_neg hload] at htime
      have hquiet : t.operation.step b s.word t.moment.now.millis.toNat = none :=
        h.word.quiet hsuccess hfailure (by omega)
      rw [OperationAt.left, Sides.left_of_miss hload hquiet]
      exact h

end Step

section Runs

variable {b : Breaker} {s : Sides} {since n : Nat} {r : Recall} {ts : List OperationAt}

/-- No place remembers more failures than there were. -/
theorem Recall.after_le (hrow : r.row ≤ n) (hword : r.word ≤ n) (t : OperationAt) :
    (r.after t).row ≤ n + failuresIn [t] ∧ (r.after t).word ≤ n + failuresIn [t] := by
  unfold Recall.after failuresIn
  split
  · rename_i hfailure
    split <;> simp [hfailure] <;> omega
  · split <;> simp <;> omega

theorem failuresIn_cons (t : OperationAt) (ts : List OperationAt) :
    failuresIn (t :: ts) = failuresIn [t] + failuresIn ts := by
  rw [← List.singleton_append, failuresIn, List.countP_append]
  rfl

/-- Who always reaches the row remembers everything in both places. -/
theorem Recall.afterAll_reached {k : Nat}
    (h : ∀ t ∈ ts, t.moment.load = none ∧ t.moment.swap = none) :
    Recall.afterAll ⟨k, k⟩ ts = ⟨k + failuresIn ts, k + failuresIn ts⟩ := by
  induction ts generalizing k with
  | nil => rfl
  | cons t ts ih =>
    rw [List.forall_mem_cons] at h
    obtain ⟨hboth, hts⟩ := h
    have hafter : Recall.after ⟨k, k⟩ t = ⟨k + failuresIn [t], k + failuresIn [t]⟩ := by
      by_cases hfailure : t.operation = .recordFailure <;>
        simp [Recall.after, failuresIn, hfailure, hboth]
    rw [failuresIn_cons, ← Nat.add_assoc, ← ih hts, ← hafter]
    rfl

/-- Who never reaches it remembers everything in the word. -/
theorem Recall.afterAll_apart {i k : Nat} (h : ∀ t ∈ ts, t.moment.load ≠ none) :
    Recall.afterAll ⟨i, k⟩ ts = ⟨i, k + failuresIn ts⟩ := by
  induction ts generalizing k with
  | nil => rfl
  | cons t ts ih =>
    rw [List.forall_mem_cons] at h
    obtain ⟨hload, hts⟩ := h
    have hafter : Recall.after ⟨i, k⟩ t = ⟨i, k + failuresIn [t]⟩ := by
      by_cases hfailure : t.operation = .recordFailure <;>
        simp [Recall.after, failuresIn, hfailure, hload]
    rw [failuresIn_cons, ← Nat.add_assoc, ← ih hts, ← hafter]
    rfl

/-- As long as there were fewer failures than the threshold, whatever the clock says. -/
theorem Sides.Remember.before (h : s.Remember b.threshold since r) (hsince : since ≤ maxStamp)
    (hsuccess : ∀ t ∈ ts, t.operation ≠ .recordSuccess) (hrow : r.row ≤ n) (hword : r.word ≤ n)
    (hfew : n + failuresIn ts < b.threshold) :
    (OperationAt.leftAll b s ts).Remember b.threshold since (r.afterAll ts) := by
  induction ts generalizing s r n with
  | nil => exact h
  | cons t ts ih =>
    rw [List.forall_mem_cons] at hsuccess
    rw [failuresIn_cons] at hfew
    obtain ⟨hrow', hword'⟩ := Recall.after_le hrow hword t
    have hleft := h.left hsince hsuccess.1 (.inl ⟨by omega, by omega⟩)
    exact ih hleft hsuccess.2 hrow' hword' (by omega)

/-- And from then on until the cooldown is over. -/
theorem Sides.Remember.within (h : s.Remember b.threshold since r) (hsince : since ≤ maxStamp)
    (hsuccess : ∀ t ∈ ts, t.operation ≠ .recordSuccess)
    (htime : ∀ t ∈ ts, since ≤ t.moment.now.millis.toNat ∧
      t.moment.now.millis.toNat < since + b.cooldownMillis) :
    (OperationAt.leftAll b s ts).Remember b.threshold since (r.afterAll ts) := by
  induction ts generalizing s r with
  | nil => exact h
  | cons t ts ih =>
    rw [List.forall_mem_cons] at hsuccess htime
    exact ih (h.left hsince hsuccess.1 (.inr htime.1)) hsuccess.2 htime.2

end Runs

/-- Operations up to a moment less than a cooldown after the failure that reached the threshold.
Before that failure the clock may show anything. -/
structure Aftermath (b : Breaker) (before : List OperationAt) (failure : OperationAt)
    (later : List OperationAt) (look : Moment) : Prop where
  failed : failure.operation = .recordFailure
  threshold : failuresIn before + 1 = b.threshold
  noSuccess : ∀ t ∈ before ++ failure :: later, t.operation ≠ .recordSuccess
  range : 0 ≤ failure.moment.now.millis ∧ failure.moment.now.millis ≤ maxStamp
  time : ∀ m ∈ look :: later.map OperationAt.moment, failure.moment.now.millis ≤ m.now.millis ∧
    m.now.millis < failure.moment.now.millis + b.cooldown.millis
  cooldown : b.cooldown.millis < UInt64.size

namespace Aftermath

variable {b : Breaker} {before later : List OperationAt} {failure : OperationAt} {look : Moment}

theorem inTime (h : Aftermath b before failure later look) {m : Moment}
    (hm : m ∈ look :: later.map OperationAt.moment) :
    failure.moment.now.millis.toNat ≤ m.now.millis.toNat ∧
      m.now.millis.toNat < failure.moment.now.millis.toNat + b.cooldownMillis := by
  have hcooldown : b.cooldownMillis = b.cooldown.millis := Nat.mod_eq_of_lt h.cooldown
  have hrange := h.range
  obtain ⟨hle, hlt⟩ := h.time m hm
  omega

theorem remember (h : Aftermath b before failure later look) :
    (OperationAt.leftAll b ⟨.fresh, .fresh⟩ (before ++ failure :: later)).Remember b.threshold
      failure.moment.now.millis.toNat (Recall.afterAll ⟨0, 0⟩ (before ++ failure :: later)) := by
  have hsince : failure.moment.now.millis.toNat ≤ maxStamp := by
    have hrange := h.range
    omega
  have hfresh : Sides.Remember b.threshold failure.moment.now.millis.toNat ⟨0, 0⟩
      ⟨.fresh, .fresh⟩ := ⟨remembers_fresh b.threshold_pos, remembers_fresh b.threshold_pos⟩
  have hbefore : (OperationAt.leftAll b ⟨.fresh, .fresh⟩ before).Remember b.threshold _
      (Recall.afterAll ⟨0, 0⟩ before) :=
    hfresh.before hsince (fun t ht => h.noSuccess t (List.mem_append_left _ ht))
      (Nat.le_refl 0) (Nat.le_refl 0) (by have := h.threshold; omega)
  have hlook := h.inTime (List.mem_cons_self)
  rw [OperationAt.leftAll, Recall.afterAll, List.foldl_append, List.foldl_append]
  refine hbefore.within hsince (fun t ht => h.noSuccess t (List.mem_append_right _ ht)) ?_
  intro t ht
  obtain rfl | ht := List.mem_cons.1 ht
  · exact ⟨Nat.le_refl _, by omega⟩
  · exact h.inTime (List.mem_cons_of_mem _ (List.mem_map_of_mem ht))

/-- Where the handle looks then, nothing but what is remembered there counts. The registry has no
row at first, or one that nobody has used. -/
theorem answers_by_recall (h : Aftermath b before failure later look) (hshared : b.shared = true)
    (hp : 0 < b.patience) {store : Store} (hstore : store.Holds b.dependency .fresh) :
    (OperationAt.perform b
        (OperationAt.performAll b ⟨store, encode .fresh, 0⟩ (before ++ failure :: later))
        ⟨look, .state⟩).1 =
      ⟨.state, .ok (if (Recall.afterAll ⟨0, 0⟩ (before ++ failure :: later)).seen look < b.threshold
        then .closed else .opened)⟩ ∧
    (OperationAt.perform b
        (OperationAt.performAll b ⟨store, encode .fresh, 0⟩ (before ++ failure :: later))
        ⟨look, .allow⟩).1 =
      ⟨.allow, .ok (decide
        ((Recall.afterAll ⟨0, 0⟩ (before ++ failure :: later)).seen look < b.threshold))⟩ := by
  have hshows := OperationAt.performAll_shows (Sides.shows_fresh hstore 0) hshared hp
    (before ++ failure :: later)
  have hremember := h.remember
  have htime := h.inTime List.mem_cons_self
  generalize OperationAt.performAll b ⟨store, encode .fresh, 0⟩ (before ++ failure :: later) = w
    at hshows
  generalize OperationAt.leftAll b ⟨.fresh, .fresh⟩ (before ++ failure :: later) = s
    at hshows hremember
  generalize Recall.afterAll ⟨0, 0⟩ (before ++ failure :: later) = r at hremember
  have hseen : Remembers b.threshold failure.moment.now.millis.toNat (r.seen look)
      (if look.load = none then s.row else s.word) := by
    unfold Recall.seen
    split
    · exact hremember.row
    · exact hremember.word
  constructor
  · rw [(OperationAt.perform_shows hshows hshared hp ⟨look, .state⟩).1]
    have hmet : OperationAt.met b s ⟨look, .state⟩ = _ := Sides.met_of_none rfl
    rw [hmet]
    exact congrArg (fun c => (⟨.state, .ok c⟩ : Reply)) hseen.circuit_eq
  · rw [(OperationAt.perform_shows hshows hshared hp ⟨look, .allow⟩).1]
    have hmet : OperationAt.met b s ⟨look, .allow⟩ = _ :=
      Sides.met_of_none (hremember.row.admitStep fun _ => htime)
    rw [hmet]
    have hprobe := hseen.admitStep fun _ => htime
    have hcircuit := hseen.circuit_eq
    generalize (if look.load = none then s.row else s.word) = c at hprobe hcircuit
    have hanswer : Operation.allow.answer b look.now c = decide (r.seen look < b.threshold) := by
      show ((c.admitStep look.now.millis.toNat b.cooldownMillis).isSome || c.circuit == .closed) = _
      rw [hprobe, hcircuit]
      split
      · rename_i hfew
        exact (decide_eq_true hfew).symm
      · rename_i hmany
        exact (decide_eq_false hmany).symm
    exact congrArg (fun a => (⟨.allow, .ok a⟩ : Reply)) hanswer

theorem threshold_le_failures (h : Aftermath b before failure later look) :
    b.threshold ≤ failuresIn (before ++ failure :: later) := by
  have hthreshold := h.threshold
  have hone : failuresIn [failure] = 1 := by simp [failuresIn, h.failed]
  have hsum : failuresIn (before ++ failure :: later) =
      failuresIn before + failuresIn (failure :: later) := List.countP_append
  rw [hsum, failuresIn_cons, hone]
  omega

/-- Nothing is forgotten by who can reach the row for every report and loses it afterwards, or by
who never reaches it. -/
theorem threshold_le_seen (h : Aftermath b before failure later look)
    (hts : (∀ t ∈ before ++ failure :: later, t.moment.load = none ∧ t.moment.swap = none) ∨
      (look.load ≠ none ∧ ∀ t ∈ before ++ failure :: later, t.moment.load ≠ none)) :
    b.threshold ≤ (Recall.afterAll ⟨0, 0⟩ (before ++ failure :: later)).seen look := by
  have hmany := h.threshold_le_failures
  obtain hts | ⟨hlook, hts⟩ := hts
  · rw [Recall.afterAll_reached hts, Recall.seen, ite_self, Nat.zero_add]
    exact hmany
  · rw [Recall.afterAll_apart hts, Recall.seen, if_neg hlook, Nat.zero_add]
    exact hmany

section Example

/-- A breaker that two failures open for a minute. -/
def brief : Breaker := .ofSettings ⟨"api"⟩ ⟨2, 60⟩ true 1

/-- At the first and the third second the store cannot be reached, at the second one it can. -/
def away : Moment := ⟨atSecond 1, some .locked, none⟩

def back : Moment := ⟨atSecond 2, none, none⟩

def awayAgain : Moment := ⟨atSecond 3, some .locked, none⟩

/-- What the store was told is known when it is out of reach. -/
theorem recall_kept :
    Aftermath brief [⟨back, .recordFailure⟩] ⟨back, .recordFailure⟩ [] awayAgain ∧
      brief.shared = true ∧ 0 < brief.patience ∧
      (Store.memory .empty).Holds brief.dependency .fresh ∧
      (OperationAt.perform brief (OperationAt.performAll brief ⟨.memory .empty, encode .fresh, 0⟩
          [⟨back, .recordFailure⟩, ⟨back, .recordFailure⟩]) ⟨awayAgain, .state⟩).1 =
        ⟨.state, .ok .opened⟩ := by
  have haftermath : Aftermath brief [⟨back, .recordFailure⟩] ⟨back, .recordFailure⟩ [] awayAgain :=
    ⟨rfl, by decide, by decide, by decide, by decide, by decide⟩
  have hholds : (Store.memory .empty).Holds brief.dependency .fresh := rfl
  exact ⟨haftermath, rfl, by decide, hholds,
    (haftermath.answers_by_recall rfl (by decide) hholds).1⟩

/-- What it was not told is not known any more when it is back. -/
theorem recall_lost :
    Aftermath brief [⟨away, .recordFailure⟩] ⟨away, .recordFailure⟩ [] back ∧
      (OperationAt.perform brief (OperationAt.performAll brief ⟨.memory .empty, encode .fresh, 0⟩
          [⟨away, .recordFailure⟩, ⟨away, .recordFailure⟩]) ⟨back, .state⟩).1 =
        ⟨.state, .ok .closed⟩ ∧
      (OperationAt.perform brief (OperationAt.performAll brief ⟨.memory .empty, encode .fresh, 0⟩
          [⟨away, .recordFailure⟩, ⟨away, .recordFailure⟩]) ⟨back, .allow⟩).1 =
        ⟨.allow, .ok true⟩ :=
  ⟨⟨rfl, by decide, by decide, by decide, by decide, by decide⟩, rfl, rfl⟩

end Example

end Aftermath

end Breaker
end WorkerGuard
