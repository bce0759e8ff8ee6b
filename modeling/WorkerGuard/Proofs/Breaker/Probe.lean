import Mathlib
import WorkerGuard.Proofs.Breaker.Interplay
import WorkerGuard.Proofs.Breaker.Step

/-!
# WorkerGuard.Proofs.Breaker.Probe

While a breaker is not closed, its probes are a cooldown apart, however its callers are interleaved.

* `Schedule.Ticks`: the clock of all callers goes forward and can be written into a row.
* `Schedule.stamp_le_clock`: no stamp is in the future; so a caller that loaded a row reads a later
  time, even if the row was changed and changed back before its swap.
* `Schedule.stamp_mono`: a row that does not close keeps its stamp or gets a later one.
* `Schedule.ProbeAt`: a request to pass replaces a row that is not closed.
* `probes_apart`: the distance of two probes, and of the first one from the opening of the breaker.
-/

namespace WorkerGuard

open Breaker Exchange Program Simulation

variable {d : Dependency}

namespace Caller

variable {c : Caller d} {k after : Condition} {now : Nat}

theorem step_stamp_le (h : c.step k now = some after) : after.stamp ≤ max k.stamp now := by
  cases hop : c.operation with
  | allow =>
    simp only [step, hop] at h
    obtain ⟨_, _, rfl⟩ := Condition.admitStep_eq_some h
    simp only [Condition.capped_stamp]
    omega
  | recordSuccess =>
    simp only [step, hop] at h
    obtain ⟨_, rfl⟩ | ⟨_, _, hstamp⟩ := Condition.successStep_eq_some h
    · exact Nat.zero_le _
    · omega
  | recordFailure =>
    simp only [step, hop, Option.some.injEq] at h
    subst h
    rcases k.failureStep_stamp now c.breaker.threshold with hstamp | hstamp <;> omega

/-- Unless it closes the breaker, a step by a later reading of the clock does not set it back. -/
theorem le_step_stamp (h : c.step k now = some after) (hnow : k.stamp ≤ now)
    (hopen : after.circuit ≠ .closed) : k.stamp ≤ after.stamp := by
  have hk := k.stamp_le
  cases hop : c.operation with
  | allow =>
    simp only [step, hop] at h
    obtain ⟨_, _, rfl⟩ := Condition.admitStep_eq_some h
    simp only [Condition.capped_stamp]
    omega
  | recordSuccess =>
    simp only [step, hop] at h
    obtain ⟨_, rfl⟩ | ⟨_, _, hstamp⟩ := Condition.successStep_eq_some h
    · exact absurd rfl hopen
    · omega
  | recordFailure =>
    simp only [step, hop, Option.some.injEq] at h
    subst h
    rcases k.failureStep_stamp now c.breaker.threshold with hstamp | hstamp <;> omega

/-- Reports leave an opened breaker as it is, up to the count. -/
theorem step_opened (h : c.step k now = some after) (hu : c.operation ≠ .allow)
    (hk : k.circuit = .opened) : after.circuit = .opened ∧ after.stamp = k.stamp := by
  cases hop : c.operation with
  | allow => exact absurd hop hu
  | recordSuccess =>
    simp only [step, hop] at h
    obtain ⟨hne, _⟩ | ⟨_, hopened, hstamp⟩ := Condition.successStep_eq_some h
    · exact absurd hk hne
    · exact ⟨hopened, hstamp⟩
  | recordFailure =>
    simp only [step, hop, Option.some.injEq] at h
    subst h
    exact Condition.failureStep_opened hk

/-- A probe comes a cooldown after the last stamp. -/
theorem step_allow (h : c.step k now = some after) (hu : c.operation = .allow)
    (hpos : 0 < c.breaker.cooldownMillis) : k.stamp + c.breaker.cooldownMillis ≤ after.stamp := by
  simp only [step, hu] at h
  obtain ⟨_, hel, rfl⟩ := Condition.admitStep_eq_some h
  simp only [Condition.elapsed] at hel
  simp only [Condition.capped_stamp]
  omega

end Caller
namespace Schedule

variable {y : Schedule (Caller d)} {t : Nat}

/-- What the row means at a moment. -/
def conditionAt (y : Schedule (Caller d)) (t : Nat) : Condition := .ofRow (y.row t)

def millisAt (y : Schedule (Caller d)) (t : Nat) : Int := (y.clockAt t).millis

/-- The clock goes forward from 1970 on, and its readings fit into a stamp. -/
structure Ticks (y : Schedule (Caller d)) : Prop where
  forward : ∀ t, y.millisAt t ≤ y.millisAt (t + 1)
  nonneg : ∀ t, 0 ≤ y.millisAt t
  lt : ∀ t, y.millisAt t < 2 ^ 42

theorem Ticks.mono (h : y.Ticks) {p q : Nat} (hpq : p ≤ q) : y.millisAt p ≤ y.millisAt q := by
  induction q with
  | zero =>
    obtain rfl := Nat.le_zero.1 hpq
    exact Int.le_refl _
  | succ q ih =>
    rcases Nat.lt_or_ge p (q + 1) with hlt | hge
    · exact Int.le_trans (ih (by omega)) (h.forward q)
    · obtain rfl := Nat.le_antisymm hpq hge
      exact Int.le_refl _

theorem Wrote.conditionAt_eq {th : Thread (Caller d) (Option Bool)} {e : Row} {after : Condition}
    {now : Instant} {p₀ p₁ p : Nat} (h : y.Wrote th e after now p₀ p₁ p) :
    y.conditionAt p₀ = .ofRow e ∧ y.conditionAt p = .ofRow e ∧ y.conditionAt (p + 1) = after := by
  refine ⟨congrArg _ h.loaded, congrArg _ h.found, ?_⟩
  rw [conditionAt, h.written, Condition.ofRow_toRow]

/-- From a fresh row on, no stamp is in the future. -/
theorem stamp_le_clock (hr : y.store.Readable d) (hfresh : y.store.row d = .fresh)
    (hc : y.Ticks) (p : Nat) : ((y.conditionAt p).stamp : Int) ≤ y.millisAt p := by
  induction p with
  | zero =>
    have hzero : y.conditionAt 0 = .fresh := by
      show Condition.ofRow (y.store.row d) = .fresh
      rw [hfresh]
      rfl
    rw [hzero]
    exact hc.nonneg 0
  | succ p ih =>
    have hforward := hc.forward p
    obtain hstill | ⟨th, _, e, after, now, p₀, p₁, _, hw⟩ :=
      still_or_wrote hr (Nat.lt_succ_self p)
    · rw [conditionAt, hstill]
      exact Int.le_trans ih hforward
    · obtain ⟨_, hp, hp'⟩ := hw.conditionAt_eq
      have hstamp := Caller.step_stamp_le hw.step
      have hreading : now.millis ≤ y.millisAt (p + 1) := by
        rw [← hw.reading]
        exact hc.mono (by have := hw.reading_lt; omega)
      have hnonneg := hc.nonneg (p + 1)
      rw [hp] at ih
      rw [hp']
      omega

/-- The reading of a caller is no earlier than the stamp of the row that it is going to replace,
since it loaded the same row before. -/
theorem Wrote.stamp_le_reading {th : Thread (Caller d) (Option Bool)} {e : Row}
    {after : Condition} {now : Instant} {p₀ p₁ p : Nat} (hw : y.Wrote th e after now p₀ p₁ p)
    (hstamp : ((y.conditionAt p₀).stamp : Int) ≤ y.millisAt p₀) (hc : y.Ticks) :
    (y.conditionAt p).stamp ≤ now.millis.toNat := by
  obtain ⟨h₀, hp, _⟩ := hw.conditionAt_eq
  have hmono : y.millisAt p₀ ≤ y.millisAt (p₁ + 1) := hc.mono (by have := hw.load_lt; omega)
  rw [millisAt, millisAt, hw.reading] at hmono
  rw [millisAt] at hstamp
  rw [hp, ← h₀]
  omega

theorem stamp_mono (hr : y.store.Readable d) (hfresh : y.store.row d = .fresh)
    (hc : y.Ticks) {p q : Nat} (hpq : p ≤ q)
    (hopen : ∀ u, p ≤ u → u ≤ q → (y.conditionAt u).circuit ≠ .closed) :
    (y.conditionAt p).stamp ≤ (y.conditionAt q).stamp := by
  induction q with
  | zero =>
    obtain rfl := Nat.le_zero.1 hpq
    exact Nat.le_refl _
  | succ q ih =>
    rcases Nat.lt_or_ge p (q + 1) with hlt | hge
    · refine Nat.le_trans (ih (by omega) fun u hu hu' => hopen u hu (by omega)) ?_
      obtain hstill | ⟨th, _, e, after, now, p₀, p₁, _, hw⟩ :=
        still_or_wrote hr (Nat.lt_succ_self q)
      · exact Nat.le_of_eq (congrArg (fun row => (Condition.ofRow row).stamp) hstill.symm)
      · have hreading := hw.stamp_le_reading (stamp_le_clock hr hfresh hc p₀) hc
        have hafter := hopen (q + 1) (by omega) (Nat.le_refl _)
        obtain ⟨_, hq, hq'⟩ := hw.conditionAt_eq
        rw [hq'] at hafter ⊢
        rw [hq] at hreading ⊢
        exact Caller.le_step_stamp hw.step hreading hafter
    · obtain rfl := Nat.le_antisymm hpq hge
      exact Nat.le_refl _

/-- A request to pass replaces a row that is not closed: the call is let through as a probe. -/
def ProbeAt (y : Schedule (Caller d)) (t p : Nat) (row next : Row) : Prop :=
  ∃ th ∈ (y.config Caller.program t).threads, th.job.operation = .allow ∧
    (p, swaps d row next true) ∈ th.past ∧ row.circuit ≠ .closed

section Cooldown

variable {c : Nat} (hr : y.store.Readable d) (hpos : 0 < c) (hlt : c < 2 ^ 64)
  (hcool : ∀ th ∈ (y.config Caller.program t).threads, th.job.breaker.cooldown.millis = c)

include hr

/-- A probe is what the row becomes. -/
theorem ProbeAt.written {p : Nat} {row next : Row} (h : y.ProbeAt t p row next) :
    row = y.row p ∧ next = (y.conditionAt (p + 1)).toRow := by
  obtain ⟨th, hth, _, hmem, _⟩ := h
  obtain ⟨e, after, now, p₀, p₁, heq, hw⟩ := wrote_of_win hr hth hmem rfl
  cases heq
  rw [hw.conditionAt_eq.2.2]
  exact ⟨hw.found.symm, rfl⟩

include hpos hlt hcool

theorem ProbeAt.stamp_le {p : Nat} {row next : Row} (h : y.ProbeAt t p row next) :
    (y.conditionAt p).stamp + c ≤ (y.conditionAt (p + 1)).stamp := by
  obtain ⟨th, hth, hop, hmem, _⟩ := h
  obtain ⟨e, after, now, p₀, p₁, heq, hw⟩ := wrote_of_win hr hth hmem rfl
  have hmillis : th.job.breaker.cooldownMillis = c := by
    rw [Breaker.cooldownMillis, hcool th hth]
    exact Nat.mod_eq_of_lt hlt
  obtain ⟨_, hp, hp'⟩ := hw.conditionAt_eq
  rw [hp, hp', ← hmillis]
  exact Caller.step_allow hw.step hop (by omega)

omit hpos hlt hcool in
/-- Until a probe comes, an opened breaker stays as it is. -/
theorem opened_until_probe {p q : Nat} (hopened : (y.conditionAt p).circuit = .opened)
    (hpq : p ≤ q) (hqt : q ≤ t)
    (hno : ∀ u row next, p ≤ u → u < q → ¬y.ProbeAt t u row next) :
    (y.conditionAt q).circuit = .opened ∧ (y.conditionAt q).stamp = (y.conditionAt p).stamp := by
  induction q with
  | zero =>
    obtain rfl := Nat.le_zero.1 hpq
    exact ⟨hopened, rfl⟩
  | succ q ih =>
    rcases Nat.lt_or_ge p (q + 1) with hlt | hge
    · obtain ⟨hq, hstamp⟩ := ih (by omega) (by omega) fun u row next hu hu' =>
        hno u row next hu (by omega)
      obtain hstill | ⟨th, hth, e, after, now, p₀, p₁, hmem, hw⟩ :=
        still_or_wrote (t := t) (p := q) hr (by omega)
      · rw [conditionAt, hstill]
        exact ⟨hq, hstamp⟩
      · obtain ⟨_, hce, hafter⟩ := hw.conditionAt_eq
        rw [hce] at hq hstamp
        have hop : th.job.operation ≠ .allow := by
          intro hop
          refine hno q e after.toRow (by omega) (by omega) ⟨th, hth, hop, hmem, ?_⟩
          intro hclosed
          have : e.circuit = .opened := hq
          rw [hclosed] at this
          cases this
        obtain ⟨h₁, h₂⟩ := Caller.step_opened hw.step hop hq
        rw [hafter]
        exact ⟨h₁, h₂.trans hstamp⟩
    · obtain rfl := Nat.le_antisymm hpq hge
      exact ⟨hopened, rfl⟩

/-- From a missing row on, however calls are interleaved: as long as the row does not close, probes
are a cooldown apart, and the first one comes a cooldown after the row was opened. -/
theorem probes_apart (hfresh : y.store.row d = .fresh) (hc : y.Ticks) :
    (∀ p q row next row' next', y.ProbeAt t p row next → y.ProbeAt t q row' next' → p < q →
      (∀ u, p < u → u ≤ q → (y.row u).circuit ≠ .closed) →
      next.stamp.toNat + c ≤ next'.stamp.toNat) ∧
    (∀ p q row next, (y.row p).circuit ≠ .opened → (y.row (p + 1)).circuit = .opened →
      y.ProbeAt t q row next → p < q →
      (∀ u row' next', p < u → u < q → ¬y.ProbeAt t u row' next') →
      (y.row (p + 1)).stamp.toNat + c ≤ next.stamp.toNat) := by
  constructor
  · intro p q row next row' next' hp hq hpq hopen
    obtain ⟨_, rfl⟩ := hp.written hr
    obtain ⟨_, rfl⟩ := hq.written hr
    have hmono := stamp_mono (p := p + 1) hr hfresh hc hpq hopen
    have hstep := hq.stamp_le hr hpos hlt hcool
    rw [Condition.stamp_toRow, Condition.stamp_toRow]
    omega
  · intro p q row next hbefore hopened hq hpq hfirst
    obtain ⟨_, rfl⟩ := hq.written hr
    have hqt : q < t := by
      obtain ⟨th, hth, _, hmem, _⟩ := hq
      exact (y.traced Caller.program t).early th hth _ hmem
    obtain ⟨_, hstamp⟩ := opened_until_probe (q := q) hr hopened hpq (by omega) hfirst
    have hstep := hq.stamp_le hr hpos hlt hcool
    obtain hstill | ⟨th, _, e, after, now, p₀, p₁, _, hw⟩ :=
      still_or_wrote hr (Nat.lt_succ_self p)
    · rw [hstill] at hopened
      exact absurd hopened hbefore
    · rw [hw.conditionAt_eq.2.2] at hstamp
      rw [hw.written, Condition.stamp_toRow, Condition.stamp_toRow]
      omega

end Cooldown
end Schedule

/-- The name of a dependency is enough for a handle that opens at the first failure, for a second. -/
def brittle (operation : MovingOperation) : Caller ⟨"api"⟩ :=
  ⟨.ofSettings ⟨"api"⟩ ⟨1, 1⟩ true, operation, rfl, rfl⟩

/-- A failure after one second, and two probes after two seconds and four. -/
def twoProbes : Schedule (Caller ⟨"api"⟩) where
  store := .memory .empty
  clock := .epoch
  steps t :=
    if t = 0 then .begins (brittle .recordFailure)
    else if t < 3 then .begins (brittle .allow)
    else if t < 7 then .asks 0 (Call.calm ((Instant.ofMillis? 1000).getD .epoch) ⟨""⟩)
    else if t < 12 then .asks 1 (Call.calm ((Instant.ofMillis? 2000).getD .epoch) ⟨""⟩)
    else if t < 17 then .asks 2 (Call.calm ((Instant.ofMillis? 4000).getD .epoch) ⟨""⟩)
    else .asks 3 (Call.calm .epoch ⟨""⟩)

/-- There is no fourth call, so that nothing happens any more. -/
theorem twoProbes_over (n : Nat) :
    twoProbes.config Caller.program (17 + n) = twoProbes.config Caller.program 17 := by
  induction n with
  | zero => rfl
  | succ n ih =>
    have hstep : twoProbes.steps (17 + n) = .asks 3 (Call.calm .epoch ⟨""⟩) := by
      simp only [twoProbes]
      rw [if_neg, if_neg, if_neg, if_neg, if_neg] <;> omega
    rw [← Nat.add_assoc, Schedule.config, ih, hstep]
    rfl

theorem twoProbes_ticks : twoProbes.Ticks := by
  have hover : ∀ t, 17 ≤ t → twoProbes.millisAt t = 4000 := by
    intro t ht
    obtain ⟨n, rfl⟩ := Nat.exists_eq_add_of_le ht
    rw [Schedule.millisAt, Schedule.clockAt, twoProbes_over]
    rfl
  have hearly : ∀ t < 18, twoProbes.millisAt t ≤ twoProbes.millisAt (t + 1) ∧
      0 ≤ twoProbes.millisAt t ∧ twoProbes.millisAt t ≤ 4000 := by decide +kernel
  constructor
  · intro t
    rcases Nat.lt_or_ge t 17 with ht | ht
    · exact (hearly t (by omega)).1
    · exact Int.le_of_eq ((hover t ht).trans (hover (t + 1) (by omega)).symm)
  · intro t
    rcases Nat.lt_or_ge t 17 with ht | ht
    · exact (hearly t (by omega)).2.1
    · rw [hover t ht]; decide
  · intro t
    rcases Nat.lt_or_ge t 17 with ht | ht
    · have := (hearly t (by omega)).2.2
      omega
    · rw [hover t ht]; decide

theorem twoProbes_apart :
    twoProbes.ProbeAt 17 10 ⟨.opened, 1, 1000⟩ ⟨.halfOpen, 1, 2000⟩ ∧
      twoProbes.ProbeAt 17 15 ⟨.halfOpen, 1, 2000⟩ ⟨.halfOpen, 1, 4000⟩ ∧
      twoProbes.store.Readable ⟨"api"⟩ ∧ twoProbes.Ticks ∧
      (2000 : UInt64).toNat + 1000 ≤ (4000 : UInt64).toNat := by
  have hthreads : ∀ i th, (twoProbes.config Caller.program 17).threads[i]? = some th →
      th ∈ (twoProbes.config Caller.program 17).threads := fun _ _ => List.mem_of_getElem?
  have h₁ : twoProbes.ProbeAt 17 10 ⟨.opened, 1, 1000⟩ ⟨.halfOpen, 1, 2000⟩ :=
    ⟨_, hthreads 1 _ rfl, rfl, List.mem_of_getElem? (i := 3) rfl, by decide⟩
  have h₂ : twoProbes.ProbeAt 17 15 ⟨.halfOpen, 1, 2000⟩ ⟨.halfOpen, 1, 4000⟩ :=
    ⟨_, hthreads 2 _ rfl, rfl, List.mem_of_getElem? (i := 3) rfl, by decide⟩
  have hcool : ∀ th ∈ (twoProbes.config Caller.program 17).threads,
      th.job.breaker.cooldown.millis = 1000 := by
    intro th hth
    have hall : (twoProbes.config Caller.program 17).threads.all
        (fun th => th.job.breaker.cooldown.millis == 1000) = true := by decide +kernel
    exact eq_of_beq (List.all_eq_true.1 hall th hth)
  have hopen : ∀ u < 16, 10 < u → (twoProbes.row u).circuit ≠ .closed := by decide +kernel
  refine ⟨h₁, h₂, trivial, twoProbes_ticks, ?_⟩
  exact (Schedule.probes_apart (y := twoProbes) trivial (by decide) (by decide) hcool rfl
    twoProbes_ticks).1 10 15 _ _ _ _ h₁ h₂ (by decide) fun u hu hu' => hopen u (by omega) hu

end WorkerGuard
