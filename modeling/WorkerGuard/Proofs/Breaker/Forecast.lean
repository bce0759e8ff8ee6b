import Mathlib.Algebra.Group.Nat.Defs
import WorkerGuard.Proofs.Breaker.Due
import WorkerGuard.Proofs.Registry.Filed

/-!
# WorkerGuard.Proofs.Breaker.Forecast

How long a breaker says that it takes until a probe may pass, and when one does.

* `Meantime d now forced others outages`: the environment of a handle on `d` at one time, under an
  override or not, while nobody else changes what it works on. `Finds d shared`: the condition that
  it finds there, in its row or in its word.
* `Meantime.undisturbed`: without an override every operation does what this condition says.
* `Condition.passes_iff`: the two ways to tell when the cooldown is over agree, up to the very
  millisecond.
* `timeUntilProbe_forecasts`: what is said at one time and what happens at a later one.
-/

namespace WorkerGuard

open Program Simulation Registry

theorem Instant.millis_toNat_lt (t : Instant) : t.millis.toNat < signedLimit := by
  have hseconds := t.le_latest
  have hnanos := t.nanos_lt
  unfold millis signedLimit
  omega

namespace Breaker

theorem Condition.passes_iff {c : Condition} {now w cooldown : Nat} (hstamp : c.stamp ≤ now)
    (hend : now + w ≤ maxStamp) :
    ((c.admitStep (now + w) cooldown).isSome || c.circuit == .closed) = true ↔
      c.wait now cooldown ≤ w := by
  rw [Bool.or_eq_true, beq_iff_eq]
  by_cases hc : c.circuit = .closed
  · rw [wait, hc]
    exact iff_of_true (.inr rfl) (Nat.zero_le w)
  · have hwait : c.wait now cooldown = cooldown - c.elapsed now := by
      unfold wait
      split
      · contradiction
      all_goals rfl
    rw [or_iff_left hc, admitStep_isSome_iff hc, hwait]
    unfold elapsed
    omega

/-- Whatever the breaker's position, the answer is its waiting time. -/
theorem Operation.answer_timeUntilProbe (b : Breaker) (now : Instant) (c : Condition) :
    ∃ d, Operation.timeUntilProbe.answer b now c = some d ∧
      d.nanos = c.wait now.millis.toNat b.cooldownMillis * 1_000_000 := by
  have hlt : c.wait now.millis.toNat b.cooldownMillis < UInt64.size := by
    have hcool : b.cooldownMillis < UInt64.size := Nat.mod_lt _ (by decide)
    unfold Condition.wait
    split <;> omega
  have hexact : (Duration.ofMillis (c.wait now.millis.toNat b.cooldownMillis).toUInt64).nanos =
      c.wait now.millis.toNat b.cooldownMillis * 1_000_000 := by
    rw [Duration.nanos_ofMillis, Nat.toUInt64, UInt64.toNat_ofNat']
    unfold UInt64.size at hlt
    omega
  simp only [Operation.answer]
  cases hc : c.circuit with
  | closed => exact ⟨.zero, rfl, by simp [Condition.wait, hc, Duration.zero]⟩
  | opened => exact ⟨_, rfl, hexact⟩
  | halfOpen => exact ⟨_, rfl, hexact⟩

/-- What a handle on `d` works on is in this condition. -/
def Finds (d : Dependency) (shared : Bool) (c : Condition) (h : World) : Prop :=
  if shared then SoloRow.Shows (fun row h => h.store.Holds d row) c h
  else SoloWord.Shows (fun w h => h.word = w) c h

/-- The row or the word that a handle works on is not stamped with a time after `now`. -/
def StampedBy (b : Breaker) (now : Nat) (h : World) : Prop :=
  if b.shared then ∀ row, h.store.Filed b.dependency row → row.stamp.toNat ≤ now
  else (decode h.word).stamp ≤ now

/-- A stamp that is not in the future fits its column. -/
theorem StampedBy.finds {b : Breaker} {now : Instant} {h : World} (hused : h.store.Used)
    (hs : b.StampedBy now.millis.toNat h) :
    ∃ c, Finds b.dependency b.shared c h ∧ c.stamp ≤ now.millis.toNat := by
  unfold StampedBy at hs
  unfold Finds
  cases hshared : b.shared with
  | true =>
    rw [if_pos hshared] at hs
    obtain ⟨row, hfiled⟩ := hused.filed b.dependency
    have hstamp := hs row hfiled
    have hfits : h.store.Fits row := by
      unfold Store.Fits
      split
      · trivial
      · exact Nat.lt_of_le_of_lt hstamp now.millis_toNat_lt
    exact ⟨.ofRow row, ⟨row, hfiled.holds hfits, rfl⟩, Nat.le_trans (Nat.min_le_left _ _) hstamp⟩
  | false =>
    rw [if_neg (by simp [hshared])] at hs
    exact ⟨_, ⟨h.word, rfl, rfl⟩, hs⟩

end Breaker

open Breaker

/-- What the clock and the override are said to be. -/
def Call.Told (d : Dependency) (now : Instant) (forced : Bool) : (q : Call) → q.Answer → Prop
  | .now, t => t = now
  | .forced d', f => d' = d → f = forced
  | _, _ => True

def Meantime (d : Dependency) (now : Instant) (forced : Bool) (others outages : Request → Prop) :
    Environment World :=
  fun h q a h' => Alone d others outages h q a h' ∧ q.Told d now forced a

section Meantime

variable {d : Dependency} {now : Instant} {others outages : Request → Prop}

theorem Meantime.undisturbed (now : Instant) (hothers : ∀ q, others q → ¬q.Swaps d)
    (houtages : ∀ q, outages q → ¬q.OfRow d) (shared : Bool) :
    Undisturbed (Meantime d now false others outages) d shared now (Finds d shared) := by
  have htime : ∀ {h h' : World} {t : Instant},
      Meantime d now false others outages h .now t h' → t = now := fun ha => ha.2
  have hfree : ∀ {h h' : World} {forced : Bool},
      Meantime d now false others outages h (.forced d) forced h' → forced = false :=
    fun ha => ha.2 rfl
  cases shared with
  | true =>
    have hsolo : SoloRow (Meantime d now false others outages) d False fun row h =>
        h.store.Holds d row :=
      Served.soloRow (fun _ _ _ _ h => h.1.1) hothers houtages
    exact hsolo.undisturbed htime hfree
  | false =>
    have hsolo : SoloWord (Meantime d now false others outages) d fun w h => h.word = w :=
      Kept.soloWord fun _ _ _ _ h => h.1.2
    refine hsolo.undisturbed htime hfree ?_
    rintro _ h h' forced rfl ha
    exact ha.1.2

variable {b : Breaker} {forced : Bool} {h h₁ : World} {l : List Exchange}

/-- Under an override nothing else is looked at. -/
theorem Meantime.eq_of_forced {α : Type} {x : Bool → Program α} {a : α} {r : Except Halt α}
    (hr : Trail (Meantime b.dependency now true others outages) (b.isForced >>= x) h l r h₁)
    (hx : x true = pure a) : r = .ok a := by
  obtain ⟨f, h₂, l₁, rfl, hforced, hr⟩ := trail_call_bind hr
  obtain rfl := hforced.2 rfl
  rw [hx] at hr
  exact (trail_pure hr).2.1

/-- A breaker says at the time `now` how long it takes until it lets a probe pass: nothing if it is
held open, and then it lets nobody pass at any later time; and otherwise a time that is up at the
very millisecond from which on a call passes. -/
theorem Breaker.timeUntilProbe_forecasts (hp : 0 < b.patience)
    (hothers : ∀ q, others q → ¬q.Swaps b.dependency)
    (houtages : ∀ q, outages q → ¬q.OfRow b.dependency) (hused : h.store.Used)
    (hstamp : b.StampedBy now.millis.toNat h) {r : Except Halt (Option Duration)}
    (hr : Trail (Meantime b.dependency now forced others outages) b.timeUntilProbe h l r h₁) :
    ∃ wait, r = .ok wait ∧ (wait = none ↔ forced = true) ∧
      ∀ {later : Instant} {l' : List Exchange} {r' : Except Halt Bool} {h₂ : World},
        Trail (Meantime b.dependency later forced others outages) b.allow h₁ l' r' h₂ →
        ∃ allowed, r' = .ok allowed ∧ (forced = true → allowed = false) ∧
          ∀ d w, wait = some d → later.millis.toNat = now.millis.toNat + w →
            now.millis.toNat + w < 2 ^ 42 → (allowed = true ↔ d.nanos ≤ w * 1_000_000) := by
  cases forced with
  | true =>
    refine ⟨none, Meantime.eq_of_forced hr rfl, iff_of_true rfl rfl, fun hallow => ?_⟩
    exact ⟨false, Meantime.eq_of_forced hallow rfl, fun _ => rfl, nofun⟩
  | false =>
    obtain ⟨c, hc, hpast⟩ := hstamp.finds hused
    obtain ⟨d, hd, hnanos⟩ := Operation.answer_timeUntilProbe b now c
    have hnow := Meantime.undisturbed now hothers houtages b.shared
    obtain ⟨hwait, hsame⟩ := hnow.yields hp .timeUntilProbe hc hr
    rw [hd] at hwait
    refine ⟨some d, hwait, iff_of_false nofun nofun, ?_⟩
    intro later l' r' h₂ hallow
    have hlater := Meantime.undisturbed later hothers houtages b.shared
    obtain ⟨hallowed, -⟩ := hlater.yields hp .allow (show Finds _ _ c h₁ from hsame) hallow
    refine ⟨_, hallowed, nofun, ?_⟩
    rintro _ w ⟨⟩ hw hend
    have hend' : now.millis.toNat + w ≤ maxStamp := Nat.le_of_lt_succ hend
    rw [Operation.answer, hw, Condition.passes_iff hpast hend', hnanos]
    omega

end Meantime

theorem meantime_answerAt (others outages : Request → Prop) (now : Instant) (d : Dependency)
    (h : World) (q : Call) :
    Meantime d now false others outages h q (answerAt now d h q).1 (answerAt now d h q).2 := by
  refine ⟨alone_serve _ h q, ?_⟩
  cases q with
  | now => rfl
  | forced d' => exact fun _ => rfl
  | _ => trivial

/-- A database with a breaker that opened five seconds after 1970 began. -/
def ajar : World where
  store := (Store.database .empty).after [.swapBreaker ⟨"api"⟩ .fresh ⟨.opened, 1, 5000⟩]
  word := 0
  clock := 0

/-- At ten seconds 55 are left, and the call that comes then passes. -/
theorem ajar_forecasts :
    0 < touchstone.patience ∧ ajar.store.Used ∧
      touchstone.StampedBy (atSecond 10).millis.toNat ajar ∧
      ∃ l l' h₁ h₂, Trail (Meantime ⟨"api"⟩ (atSecond 10) false (fun _ => False) fun _ => False)
          touchstone.timeUntilProbe ajar l (.ok (some (.ofSeconds 55))) h₁ ∧
        Trail (Meantime ⟨"api"⟩ (atSecond 65) false (fun _ => False) fun _ => False)
          touchstone.allow h₁ l' (.ok true) h₂ := by
  have hused : ajar.store.Used := ⟨_, .inr rfl⟩
  have hstamp : touchstone.StampedBy (atSecond 10).millis.toNat ajar := by
    have hfiled : ajar.store.Filed ⟨"api"⟩ ⟨.opened, 1, 5000⟩ := .inl (by decide +kernel)
    intro row hrow
    obtain rfl := hfiled.eq hrow
    decide +kernel
  have hserved := fun t =>
    meantime_answerAt (fun _ => False) (fun _ => False) (atSecond t) ⟨"api"⟩
  have hr := trail_follow (hserved 10) touchstone.timeUntilProbe ajar
  have hallow := trail_follow (hserved 65) touchstone.allow
    (touchstone.timeUntilProbe.follow (answerAt (atSecond 10) ⟨"api"⟩) ajar).2.2
  obtain ⟨wait, hwait, -, hlater⟩ := timeUntilProbe_forecasts (b := touchstone) (by decide)
    (fun _ => False.elim) (fun _ => False.elim) hused hstamp hr
  have hsaid : (touchstone.timeUntilProbe.follow
      (answerAt (atSecond 10) ⟨"api"⟩) ajar).2.1.toOption = some (some (.ofSeconds 55)) := by
    decide +kernel
  rw [hwait] at hsaid hr
  cases hsaid
  obtain ⟨allowed, hallowed, -, hiff⟩ := hlater hallow
  have htrue : allowed = true :=
    (hiff (.ofSeconds 55) 55000 rfl (by decide +kernel) (by decide +kernel)).2 (by decide +kernel)
  rw [hallowed, htrue] at hallow
  exact ⟨by decide, hused, hstamp, _, _, _, _, hr, hallow⟩

end WorkerGuard
