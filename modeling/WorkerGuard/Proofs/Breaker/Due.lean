import WorkerGuard.Proofs.Breaker.Cooldown
import WorkerGuard.Proofs.Time.Age

/-!
# WorkerGuard.Proofs.Breaker.Due

When a breaker that is not closed lets the next probe pass, at all times of the clock.

* `Stamps b ts u`: the operation `u` after `ts` opens the breaker or lets a probe pass.
* `Stamps.tells_iff`: the answer to the next caller, by the two readings of the clock.
* `probe_due_iff`: the next probe is due after the cooldown, unless that ends past the
  range of stamps. All later times are alike to a breaker, so that it then lets nobody pass again.
-/

namespace WorkerGuard

open Simulation

namespace Breaker

variable {n : Nat} {b : Breaker} {c : Condition} {ts : List (OperationOn n)} {u : OperationOn n}

def Stamps (b : Breaker) (ts : List (OperationOn n)) (u : OperationOn n) : Prop :=
  (((Handles.after b ts).condition b u.handle).circuit ≠ .opened ∧
      ((Handles.after b (ts ++ [u])).condition b u.handle).circuit = .opened) ∨
    (((Handles.after b ts).condition b u.handle).circuit ≠ .closed ∧ u.operation = .allow ∧
      (Handles.after b ts).Tells b u.handle u.now true)

namespace Condition

variable {now threshold cooldown : Nat}

theorem failureStep_opens (hc : c.circuit ≠ .opened)
    (ho : (c.failureStep now threshold).circuit = .opened) :
    (c.failureStep now threshold).stamp = min now maxStamp := by
  unfold failureStep at ho ⊢
  cases hcircuit : c.circuit with
  | closed =>
    simp only [hcircuit] at ho ⊢
    split at ho
    · rename_i hreached
      rw [if_pos hreached, capped_stamp]
    · cases ho
  | halfOpen => rfl
  | opened => contradiction

theorem successStep_opens (hc : c.circuit ≠ .opened) :
    (c.successStep.getD c).circuit ≠ .opened := by
  unfold successStep
  split
  · split
    · exact hc
    · nofun
  · nofun
  · contradiction

theorem admitStep_opens (hc : c.circuit ≠ .opened) :
    ((c.admitStep now cooldown).getD c).circuit ≠ .opened := by
  cases hp : c.admitStep now cooldown with
  | none => exact hc
  | some c' =>
    obtain ⟨_, _, rfl⟩ := admitStep_eq_some hp
    nofun

end Condition

/-- Only a failure opens a breaker, and it leaves its time. -/
theorem Operation.stamp_of_opens {o : Operation} {now : Instant} (hc : c.circuit ≠ .opened)
    (ho : (o.after b now c).circuit = .opened) :
    (o.after b now c).stamp = min now.millis.toNat maxStamp := by
  cases o with
  | allow => exact absurd ho (Condition.admitStep_opens hc)
  | recordSuccess => exact absurd ho (Condition.successStep_opens hc)
  | recordFailure => exact Condition.failureStep_opens hc ho
  | _ => exact absurd ho hc

namespace Stamps

variable (hu : Stamps b ts u) (hone : b.shared = true ∨ n = 1) (hp : 0 < b.patience)
include hu hone hp

theorem condition : (conditionAfter b .fresh (ts ++ [u])).circuit ≠ .closed ∧
    (conditionAfter b .fresh (ts ++ [u])).stamp = min u.now.millis.toNat maxStamp := by
  have hc := Handles.shows_after hone hp ts
  have hc' := Handles.shows_after hone hp (ts ++ [u])
  unfold Stamps at hu
  rw [hc.condition_eq, hc'.condition_eq] at hu
  rw [conditionAfter_concat] at hu ⊢
  obtain ⟨hopen, hopened⟩ | ⟨hopen, ho, htold⟩ := hu
  · exact ⟨by rw [hopened]; nofun, Operation.stamp_of_opens hopen hopened⟩
  · rw [hc.tells_iff hopen hone hp, eq_comm, decide_eq_true_iff] at htold
    rw [ho, Operation.after_allow hopen htold]
    exact ⟨nofun, rfl⟩

/-- A cooldown that is not zero passes only within the range of stamps. -/
theorem tells_iff (hpos : 0 < b.cooldownMillis) (i : Fin n) (now : Instant) :
    (Handles.after b (ts ++ [u])).Tells b i now true ↔
      u.now.millis.toNat + b.cooldownMillis ≤ min now.millis.toNat maxStamp := by
  obtain ⟨hopen, hstamp⟩ := hu.condition hone hp
  rw [(Handles.shows_after hone hp (ts ++ [u])).tells_iff hopen hone hp, eq_comm,
    decide_eq_true_iff, Condition.elapsed, hstamp]
  omega

end Stamps

/-- Nothing happens to a breaker after it was stamped at the time `u`. A caller passes at the time
`t` if the cooldown is over and ended within the range of stamps. So all callers pass that come
later than the cooldown, or none of them ever does. No cooldown of fewer than `2 ^ 53` seconds is
cut short. -/
theorem probe_due_iff (hp : 0 < b.patience) {secs : UInt64} (hcool : b.cooldown = .ofSeconds secs)
    (hpos : 0 < secs) (hlt : secs < 0x20_0000_0000_0000) (hone : b.shared = true ∨ n = 1)
    {ts : List (OperationOn n)} {u : OperationOn n} (hu : Stamps b ts u) (i : Fin n) :
    (∀ t, (Handles.after b (ts ++ [u])).Tells b i t true ↔
      u.now.millis.toNat + secs.toNat * 1000 ≤ min t.millis.toNat maxStamp) ∧
    (0 ≤ u.now.millis → u.now.nanos < 1_000_000_000 → ∀ t, b.cooldown ≤ t.since u.now →
      ((Handles.after b (ts ++ [u])).Tells b i t true ↔
        u.now.millis + secs.toNat * 1000 ≤ maxStamp)) := by
  have hsecs : 0 < secs.toNat ∧ secs.toNat < 0x20_0000_0000_0000 := ⟨hpos, hlt⟩
  have hmillis : b.cooldownMillis = secs.toNat * 1000 := by
    rw [cooldownMillis, hcool, Duration.millis_ofSeconds, UInt64.size]
    omega
  have htells := hu.tells_iff hone hp (by omega) i
  rw [hmillis] at htells
  refine ⟨htells, fun hpast hleap t ht => ?_⟩
  rw [hcool] at ht
  have hlater := Instant.millis_of_since (Nat.not_le.2 hleap) hsecs.1 ht
  rw [htells t]
  omega

/-- A breaker of two handles that opens at its first failure. -/
def touchstone : Breaker := .ofSettings ⟨"api"⟩ ⟨1, 60⟩ true 1

def failsAt (i : Fin 2) (n : Nat) : OperationOn 2 := ⟨i, atSecond n, .recordFailure⟩

theorem touchstone_due : Stamps touchstone [] (failsAt 0 5) ∧
    (Handles.after touchstone ([] ++ [failsAt 0 5])).Tells touchstone 1 (atSecond 65) true ∧
    ¬(Handles.after touchstone ([] ++ [failsAt 0 5])).Tells touchstone 1 (atSecond 64) true := by
  have hu : Stamps touchstone [] (failsAt 0 5) := .inl (by decide +kernel)
  have hdue := (probe_due_iff (b := touchstone) (by decide)
    (show touchstone.cooldown = .ofSeconds 60 from rfl) (by decide) (by decide) (.inl rfl) hu 1).1
  exact ⟨hu, (hdue _).2 (by decide +kernel), mt (hdue _).1 (by decide +kernel)⟩

/-- The cooldown of this failure in May 2109 ends after the last stamp. A minute later nobody
passes, nor does anybody at any other time. -/
theorem touchstone_wedged : Stamps touchstone [] (failsAt 0 4398046511) ∧
    touchstone.cooldown = .ofSeconds 60 ∧
    touchstone.cooldown ≤ (atSecond 4398046571).since (failsAt 0 4398046511).now ∧
    ∀ i t,
      ¬(Handles.after touchstone ([] ++ [failsAt 0 4398046511])).Tells touchstone i t true := by
  have hu : Stamps touchstone [] (failsAt 0 4398046511) := .inl (by decide +kernel)
  refine ⟨hu, rfl, by decide +kernel, fun i t => ?_⟩
  rw [hu.tells_iff (.inl rfl) (by decide) (by decide)]
  have hstamp : (failsAt 0 4398046511).now.millis.toNat + touchstone.cooldownMillis > maxStamp := by
    decide +kernel
  omega

end Breaker
end WorkerGuard
