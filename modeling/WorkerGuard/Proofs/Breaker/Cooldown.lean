import WorkerGuard.Proofs.Breaker.History
import WorkerGuard.Settings.Check

/-!
# WorkerGuard.Proofs.Breaker.Cooldown

What the cooldown of a breaker is worth, whatever the settings say.

* `Handles.after b ts`: the handles on a breaker after the operations `ts`; `Handles.Tells`: the
  answer of one of them to a caller. `Handles.Shows.tells_iff`: how it depends on the cooldown.
* `KeepsCooldown b cooldown`: nobody passes before the cooldown is over, and of those who ask at
  one time at most one passes.
* `keepsCooldown_iff_millis`: the breakers that keep a cooldown, by the milliseconds they work with.
* `Settings.keepsCooldown_iff`: the settings that do; not all that pass the check are among them.
-/

namespace WorkerGuard

open Simulation

theorem Duration.millis_ofSeconds (n : UInt64) :
    (Duration.ofSeconds n).millis = n.toNat * 1000 := by
  rw [Duration.millis, Duration.nanos_ofSeconds]
  omega

theorem Instant.exists_millis {n : Nat} (h : n ≤ Breaker.maxStamp) :
    ∃ t : Instant, t.millis = n := by
  simp only [Breaker.maxStamp] at h
  refine ⟨⟨n / 1000, n % 1000 * 1_000_000, by omega, by omega, by omega⟩, ?_⟩
  show (n / 1000 : Int) * 1000 + ((n % 1000 * 1_000_000 / 1_000_000 : Nat) : Int) = n
  omega

namespace Breaker

variable {n : Nat} {b : Breaker} {c : Condition}

namespace Condition

variable {now cooldown : Nat}

theorem admitStep_isSome_iff (hc : c.circuit ≠ .closed) :
    (c.admitStep now cooldown).isSome = true ↔ cooldown ≤ c.elapsed now := by
  unfold admitStep
  split
  · contradiction
  all_goals
    split
    · rename_i hlt
      exact ⟨nofun, fun h => absurd h (Nat.not_le.2 hlt)⟩
    · rename_i hlt
      exact ⟨fun _ => Nat.not_lt.1 hlt, fun _ => rfl⟩

end Condition

/-- Operations that report nothing. -/
def Operation.Looks : Operation → Prop
  | recordSuccess => False
  | recordFailure => False
  | _ => True

theorem conditionAfter_append (b : Breaker) (c : Condition) (ts us : List (OperationOn n)) :
    conditionAfter b c (ts ++ us) = conditionAfter b (conditionAfter b c ts) us :=
  List.foldl_append

theorem conditionAfter_cons (b : Breaker) (c : Condition) (t : OperationOn n)
    (ts : List (OperationOn n)) :
    conditionAfter b c (t :: ts) = conditionAfter b (t.operation.after b t.now c) ts := rfl

/-- Who is let pass by a breaker that is not closed leaves a stamp. -/
theorem Operation.after_allow {now : Instant} (hopen : c.circuit ≠ .closed)
    (hel : b.cooldownMillis ≤ c.elapsed now.millis.toNat) :
    Operation.allow.after b now c = .capped .halfOpen c.failures now.millis.toNat := by
  obtain ⟨c', hc'⟩ := Option.isSome_iff_exists.1 ((Condition.admitStep_isSome_iff hopen).2 hel)
  obtain ⟨_, _, rfl⟩ := Condition.admitStep_eq_some hc'
  show (c.admitStep now.millis.toNat b.cooldownMillis).getD c = _
  rw [hc', Option.getD_some]

/-- Only a report closes a breaker, and only a report or a later probe moves its stamp. -/
theorem Operation.Looks.stamp_le {o : Operation} (ho : o.Looks) (hpos : 0 < b.cooldownMillis)
    (hc : c.circuit ≠ .closed) (now : Instant) :
    (o.after b now c).circuit ≠ .closed ∧ c.stamp ≤ (o.after b now c).stamp := by
  cases o with
  | recordSuccess => cases ho
  | recordFailure => cases ho
  | allow =>
    show ((c.admitStep now.millis.toNat b.cooldownMillis).getD c).circuit ≠ .closed ∧
      c.stamp ≤ ((c.admitStep now.millis.toNat b.cooldownMillis).getD c).stamp
    cases hp : c.admitStep now.millis.toNat b.cooldownMillis with
    | none => exact ⟨hc, Nat.le_refl _⟩
    | some c' =>
      obtain ⟨_, hel, rfl⟩ := Condition.admitStep_eq_some hp
      rw [Condition.elapsed] at hel
      exact ⟨nofun, show c.stamp ≤ min _ _ by omega⟩
  | _ => exact ⟨hc, Nat.le_refl _⟩

theorem conditionAfter_looks {ts : List (OperationOn n)} (hts : ∀ t ∈ ts, t.operation.Looks)
    (hpos : 0 < b.cooldownMillis) (hc : c.circuit ≠ .closed) :
    (conditionAfter b c ts).circuit ≠ .closed ∧ c.stamp ≤ (conditionAfter b c ts).stamp := by
  induction ts generalizing c with
  | nil => exact ⟨hc, Nat.le_refl _⟩
  | cons t ts ih =>
    rw [List.forall_mem_cons] at hts
    obtain ⟨hopen, hle⟩ := hts.1.stamp_le hpos hc t.now
    obtain ⟨hlast, hle'⟩ := ih hts.2 hopen
    exact ⟨hlast, Nat.le_trans hle hle'⟩

namespace Handles

/-- Handles on a breaker nobody knew before, after these operations. -/
def after (b : Breaker) (ts : List (OperationOn n)) : Handles n :=
  ((fresh (.memory .empty)).run b ts).2

/-- What a caller is told who asks one of the handles whether to call. -/
def Tells (b : Breaker) (h : Handles n) (i : Fin n) (now : Instant) (allowed : Bool) : Prop :=
  (h.perform b ⟨i, now, .allow⟩).1 = ⟨.allow, .ok allowed⟩

variable {h : Handles n}

theorem shows_after (hone : b.shared = true ∨ n = 1) (hp : 0 < b.patience)
    (ts : List (OperationOn n)) : (after b ts).Shows b (conditionAfter b .fresh ts) :=
  ((shows_fresh rfl : (fresh (.memory .empty) : Handles n).Shows b .fresh).run hone hp ts).2

/-- At a breaker that is not closed, the cooldown alone decides. -/
theorem Shows.tells_iff (hc : h.Shows b c) (hopen : c.circuit ≠ .closed)
    (hone : b.shared = true ∨ n = 1) (hp : 0 < b.patience) (i : Fin n) (now : Instant)
    (allowed : Bool) :
    h.Tells b i now allowed ↔
      allowed = decide (b.cooldownMillis ≤ c.elapsed now.millis.toNat) := by
  have hreply := (hc.perform hone hp ⟨i, now, .allow⟩).1
  have hanswer : Operation.allow.answer b now c =
      decide (b.cooldownMillis ≤ c.elapsed now.millis.toNat) := by
    show ((c.admitStep _ _).isSome || c.circuit == .closed) = _
    rw [beq_false_of_ne hopen, Bool.or_false, Bool.eq_iff_iff, decide_eq_true_iff]
    exact Condition.admitStep_isSome_iff hopen
  rw [Tells, hreply, hanswer]
  constructor
  · intro heq
    cases heq
    rfl
  · rintro rfl
    rfl

end Handles

/-- What a cooldown, in milliseconds, promises about a breaker that is not closed. -/
structure KeepsCooldown (b : Breaker) (cooldown : Nat) : Prop where
  early : ∀ {n : Nat} (ts : List (OperationOn n)) (i : Fin n) (now : Instant),
    b.shared = true ∨ n = 1 → ((Handles.after b ts).condition b i).circuit ≠ .closed →
    ((Handles.after b ts).condition b i).stamp ≤ now.millis →
    now.millis - ((Handles.after b ts).condition b i).stamp < cooldown →
    (Handles.after b ts).Tells b i now false
  /-- Others may look in between. -/
  single : ∀ {n : Nat} (ts us : List (OperationOn n)) (i j : Fin n) (now : Instant),
    b.shared = true ∨ n = 1 → ((Handles.after b ts).condition b i).circuit ≠ .closed →
    (∀ u ∈ us, u.operation.Looks) → (Handles.after b ts).Tells b i now true →
    ¬(Handles.after b (ts ++ ⟨i, now, .allow⟩ :: us)).Tells b j now true

section Keeps

variable {cooldown : Nat}

/-- A cooldown that is not cut short is kept, and so is one that is longer than any time a stamp
can tell. -/
theorem keepsCooldown_of_millis (hp : 0 < b.patience) (hpos : 0 < b.cooldownMillis)
    (hfits : cooldown ≤ b.cooldownMillis ∨ maxStamp < b.cooldownMillis) :
    KeepsCooldown b cooldown where
  early := by
    intro n ts i now hone hopen hle hlt
    have hc := Handles.shows_after hone hp ts
    rw [hc.condition_eq i] at hopen hle hlt
    rw [hc.tells_iff hopen hone hp, eq_comm, decide_eq_false_iff_not, Condition.elapsed]
    omega
  single := by
    intro n ts us i j now hone hopen hus hfirst hsecond
    have hc := Handles.shows_after hone hp ts
    have hc' := Handles.shows_after hone hp (ts ++ ⟨i, now, .allow⟩ :: us)
    rw [conditionAfter_append, conditionAfter_cons] at hc'
    rw [hc.condition_eq i] at hopen
    rw [hc.tells_iff hopen hone hp, eq_comm, decide_eq_true_iff] at hfirst
    -- The first of them is the probe; its stamp is the time at which the second asks.
    rw [Operation.after_allow hopen hfirst] at hc'
    obtain ⟨hopen', hle⟩ := conditionAfter_looks hus hpos
      (c := .capped .halfOpen (conditionAfter b .fresh ts).failures now.millis.toNat) nofun
    rw [hc'.tells_iff hopen' hone hp, eq_comm, decide_eq_true_iff, Condition.elapsed] at hsecond
    rw [Condition.capped_stamp] at hle
    omega

/-- Enough failures in 1970 open a breaker, and it is stamped with zero. -/
theorem exists_opened (b : Breaker) : ∃ ts : List (OperationOn 1),
    (conditionAfter b .fresh ts).circuit ≠ .closed ∧ (conditionAfter b .fresh ts).stamp = 0 := by
  let failure : OperationOn 1 := ⟨0, .epoch, .recordFailure⟩
  have hstamp : ∀ k, (conditionAfter b .fresh (List.replicate k failure)).stamp = 0 := by
    intro k
    induction k with
    | zero => rfl
    | succ k ih =>
      rw [List.replicate_succ', conditionAfter_concat]
      obtain hsame | hnow := Condition.failureStep_stamp
        (conditionAfter b .fresh (List.replicate k failure)) Instant.epoch.millis.toNat b.threshold
      · exact hsame.trans ih
      · exact hnow
  refine ⟨List.replicate b.threshold failure, fun hclosed => ?_, hstamp _⟩
  have hcounted := counted_after b (List.replicate b.threshold failure) b.threshold
  have htally : failuresInARow (List.replicate b.threshold failure) = b.threshold := by
    rw [failuresInARow, List.reverse_replicate, List.takeWhile_replicate,
      if_pos (show (failure.operation != .recordSuccess) = true from rfl), List.countP_replicate,
      if_pos (show (failure.operation == .recordFailure) = true from rfl)]
  rw [List.take_of_length_le (by simp), htally] at hcounted
  have hbelow := (hcounted.closed hclosed).1
  rw [hcounted.failures, Nat.min_eq_left b.threshold_le] at hbelow
  omega

/-- Without a cooldown, two who ask at one time both pass. -/
theorem KeepsCooldown.pos (hk : KeepsCooldown b cooldown) (hp : 0 < b.patience) :
    0 < b.cooldownMillis := by
  refine Nat.pos_of_ne_zero fun hzero => ?_
  obtain ⟨ts, hopen, -⟩ := exists_opened b
  have hone : b.shared = true ∨ 1 = 1 := .inr rfl
  have hc := Handles.shows_after hone hp ts
  have hc' := Handles.shows_after hone hp (ts ++ [⟨0, .epoch, .allow⟩])
  rw [conditionAfter_append, conditionAfter_cons,
    Operation.after_allow hopen (by rw [hzero]; exact Nat.zero_le _)] at hc'
  have hafter : ((Handles.after b ts).condition b 0).circuit ≠ .closed := by
    rw [hc.condition_eq 0]
    exact hopen
  refine hk.single ts [] 0 0 .epoch hone hafter (List.forall_mem_nil _) ?_ ?_
  · rw [hc.tells_iff hopen hone hp, hzero]
    rfl
  · rw [hc'.tells_iff nofun hone hp, hzero]
    rfl

/-- Who asks when a shortened cooldown is over passes too early. -/
theorem KeepsCooldown.fits (hk : KeepsCooldown b cooldown) (hp : 0 < b.patience) :
    cooldown ≤ b.cooldownMillis ∨ maxStamp < b.cooldownMillis := by
  refine Decidable.or_iff_not_not_and_not.2 fun ⟨hlong, hshort⟩ => ?_
  obtain ⟨ts, hopen, hstamp⟩ := exists_opened b
  obtain ⟨now, hnow⟩ := Instant.exists_millis (Nat.not_lt.1 hshort)
  have hone : b.shared = true ∨ 1 = 1 := .inr rfl
  have hc := Handles.shows_after hone hp ts
  have hearly := hk.early ts 0 now hone
  rw [hc.condition_eq 0, hstamp, hnow] at hearly
  have hrefused := hearly hopen (by omega) (by omega)
  rw [hc.tells_iff hopen hone hp, eq_comm, decide_eq_false_iff_not, Condition.elapsed, hstamp,
    hnow] at hrefused
  omega

theorem keepsCooldown_iff_millis (hp : 0 < b.patience) :
    KeepsCooldown b cooldown ↔
      0 < b.cooldownMillis ∧ (cooldown ≤ b.cooldownMillis ∨ maxStamp < b.cooldownMillis) :=
  ⟨fun hk => ⟨hk.pos hp, hk.fits hp⟩, fun ⟨hpos, hfits⟩ => keepsCooldown_of_millis hp hpos hfits⟩

end Keeps
end Breaker

namespace Settings

open Breaker

/-- Of the exact number of milliseconds 64 bits are kept. -/
theorem cooldownMillis_breaker (s : Settings) (shared : Bool) (d : Dependency) :
    ((s.board shared).breaker d).cooldownMillis =
      ((s.board shared).settings d).cooldownSecs.toNat * 1000 % UInt64.size := by
  show (Duration.ofSeconds _).millis % UInt64.size = _
  rw [Duration.millis_ofSeconds]

/-- Settings may ask for any number of seconds. If these come to no milliseconds, or to so many that
64 bits cut them down to a time that stamps can tell, the promise is broken; all others keep it. -/
theorem keepsCooldown_iff {s : Settings} (hp : 0 < s.patience) (shared : Bool) (d : Dependency) :
    KeepsCooldown ((s.board shared).breaker d)
        (((s.board shared).settings d).cooldownSecs.toNat * 1000) ↔
      0 < ((s.board shared).settings d).cooldownSecs.toNat * 1000 % UInt64.size ∧
        (((s.board shared).settings d).cooldownSecs.toNat * 1000 < UInt64.size ∨
          maxStamp < ((s.board shared).settings d).cooldownSecs.toNat * 1000 % UInt64.size) := by
  rw [keepsCooldown_iff_millis (b := (s.board shared).breaker d) hp, cooldownMillis_breaker]
  generalize ((s.board shared).settings d).cooldownSecs.toNat * 1000 = cooldown
  unfold UInt64.size
  omega

theorem default_cooldown_kept : 0 < (default : Settings).patience ∧
    KeepsCooldown ((default : Settings).board true |>.breaker ⟨"api"⟩) (60 * 1000) :=
  ⟨by decide, (keepsCooldown_iff (s := default) (by decide) true ⟨"api"⟩).2 (by decide +kernel)⟩

/-- One dependency without a cooldown, and one with a cooldown of which 64 bits keep a second. -/
def careless : Settings :=
  { dependencies := .ofList [("api", ⟨1, 0⟩), ("db", ⟨1, 2305843009213693953⟩)] }

theorem check_careless : careless.check = .ok () := by
  have hfaults : careless.faults = [] := by decide +kernel
  rw [check, hfaults]

theorem careless_cooldowns :
    careless.check = .ok () ∧
      ((careless.board true).settings ⟨"api"⟩).cooldownSecs = 0 ∧
      ¬KeepsCooldown ((careless.board true).breaker ⟨"api"⟩) 0 ∧
      ((careless.board true).settings ⟨"db"⟩).cooldownSecs = 2305843009213693953 ∧
      ¬KeepsCooldown ((careless.board true).breaker ⟨"db"⟩) (2305843009213693953 * 1000) := by
  refine ⟨check_careless, by decide +kernel, fun hk => ?_, by decide +kernel, fun hk => ?_⟩
  · have hpos := hk.pos (by decide)
    revert hpos
    decide +kernel
  · have hfits := hk.fits (by decide)
    revert hfits
    decide +kernel

end Settings
end WorkerGuard
