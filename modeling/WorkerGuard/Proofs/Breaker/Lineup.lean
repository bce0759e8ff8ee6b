import WorkerGuard.Proofs.Breaker.Interplay
import WorkerGuard.Proofs.Breaker.Step

/-!
# WorkerGuard.Proofs.Breaker.Lineup

Calls on one row, interleaved at their loads and swaps, come to the same as calls one after another.

* `Thread.effect`: what a call makes of a row that it has to itself, by its last reading of the
  clock.
* `Thread.point`: the moment at which a call takes effect: that of its last exchange with others.
* `Replays`: calls that are made one after another, with the answers that they have given.
* `calls_line_up`: the order of their points is such an order; no failure is lost.
-/

namespace WorkerGuard

open Breaker Exchange Program Simulation

variable {d : Dependency}

namespace Exchange

def reading? : Exchange → Option Instant
  | ⟨.now, t⟩ => some t
  | _ => none

/-- Others have a part in it. -/
def isShared : Exchange → Bool
  | ⟨.registry _, _⟩ => true
  | ⟨.forced _, _⟩ => true
  | _ => false

end Exchange

namespace Thread

variable (th : Thread (Caller d) (Option Bool))

def refused : Bool := th.past.any fun e => e.2.isRefusal

/-- Milliseconds from 1970 by the last reading of the clock. -/
def reading : Nat :=
  ((th.past.filterMap fun e => e.2.reading?).getLast?.map fun t => t.millis.toNat).getD 0

/-- An override refuses a call without a look at the row. -/
def effect (row : Row) : Option Bool × Row :=
  if th.refused then (some false, row) else th.job.apply th.reading row

def point : Nat := ((th.past.filter fun e => e.2.isShared).getLast?.map (·.1)).getD 0

section Past

-- What decides a call stands between idle exchanges and those that only set the word.
variable {th} {k₀ k k₁ : List (Nat × Exchange)} (hpast : th.past = k₀ ++ k ++ k₁)
  (h₀ : ∀ e ∈ k₀, e.2.Idle) (h₁ : ∀ e ∈ k₁, ∃ w, e.2 = ⟨.setWord d w, ()⟩)

include hpast h₁

theorem point_eq {e : Nat × Exchange} (hk : (k.filter fun e => e.2.isShared).getLast? = some e) :
    th.point = e.1 := by
  have hwords : (k₁.filter fun e => e.2.isShared) = [] := by
    rw [List.filter_eq_nil_iff]
    intro e he
    obtain ⟨w, hw⟩ := h₁ e he
    simp [hw, isShared]
  rw [point, hpast, List.filter_append, List.filter_append, hwords, List.append_nil,
    List.getLast?_append, hk]
  rfl

theorem reading_eq {now : Instant} (hk : (k.filterMap fun e => e.2.reading?).getLast? = some now) :
    th.reading = now.millis.toNat := by
  have hwords : (k₁.filterMap fun e => e.2.reading?) = [] := by
    rw [List.filterMap_eq_nil_iff]
    intro e he
    obtain ⟨w, hw⟩ := h₁ e he
    rw [hw]
    rfl
  rw [reading, hpast, List.filterMap_append, List.filterMap_append, hwords, List.append_nil,
    List.getLast?_append, hk]
  rfl

include h₀

theorem refused_eq_false (hk : ∀ e ∈ k, e.2.isRefusal = false) : th.refused = false := by
  rw [refused, hpast, List.any_eq_false]
  intro e he
  simp only [List.mem_append] at he
  obtain (he | he) | he := he
  · simp [(h₀ e he).2]
  · simp [hk e he]
  · obtain ⟨w, hw⟩ := h₁ e he
    simp [hw, isRefusal]

end Past
end Thread

namespace Thread

variable {th : Thread (Caller d) (Option Bool)}

/-- Whether a call reports a failure. -/
def isFailure (th : Thread (Caller d) (Option Bool)) : Bool := th.job.operation == .recordFailure

/-- A failure counts once, and only a success takes it back. -/
theorem effect_failures (hu : th.job.operation ≠ .recordSuccess)
    (hrefused : th.refused = true → th.job.operation = .allow) (row : Row) :
    (Condition.ofRow (th.effect row).2).failures =
      min ((Condition.ofRow row).failures + (if th.isFailure then 1 else 0)) maxFailures := by
  have hle := (Condition.ofRow row).failures_le
  unfold effect Caller.apply isFailure
  cases hop : th.job.operation with
  | allow =>
    have hmin : min ((Condition.ofRow row).failures + 0) maxFailures =
        (Condition.ofRow row).failures := Nat.min_eq_left hle
    split
    · exact hmin.symm
    · split
      · exact hmin.symm
      · rename_i after hs
        simp only [Caller.step, hop] at hs
        obtain ⟨_, _, rfl⟩ := Condition.admitStep_eq_some hs
        simp
  | recordSuccess => exact absurd hop hu
  | recordFailure =>
    have hr : th.refused = false := by
      cases h : th.refused with
      | false => rfl
      | true => rw [hrefused h] at hop; cases hop
    simp [hr, Caller.step, hop, Condition.failureStep_failures]

end Thread

/-- Calls, by their numbers, made one after another from a row on. -/
inductive Replays (threads : List (Thread (Caller d) (Option Bool))) (row : Row) :
    List (Nat × Nat) → Row → Prop where
  | nil : Replays threads row [] row
  | snoc {order : List (Nat × Nat)} {row' : Row} {p i : Nat}
      {th : Thread (Caller d) (Option Bool)} (before : Replays threads row order row')
      (hi : threads[i]? = some th) (answer : ∀ a, th.rest = done a → a = (th.effect row').1) :
      Replays threads row (order ++ [(p, i)]) (th.effect row').2

namespace Schedule

variable {y : Schedule (Caller d)} {t : Nat} {th : Thread (Caller d) (Option Bool)}

/-- A call that has taken effect at its point. -/
structure Settled (y : Schedule (Caller d)) (th : Thread (Caller d) (Option Bool)) : Prop where
  mem : ∃ x, (th.point, x) ∈ th.past
  wins : ∀ e ∈ th.past, e.2.isWin = true → e.1 = th.point
  answer : ∀ a, th.rest = done a → a = (th.effect (y.row th.point)).1
  row : y.row (th.point + 1) = (th.effect (y.row th.point)).2
  refused : th.refused = true → th.job.operation = .allow

/-- A call has taken effect, or it has replaced nothing and not ended, or not reached the registry. -/
theorem undecided_or_settled (hr : y.store.Readable d)
    (hth : th ∈ (y.config Caller.program t).threads) :
    ((∀ e ∈ th.past, e.2.isWin = false) ∧ (th.Reached → ∀ a, th.rest ≠ done a)) ∨
      y.Settled th := by
  cases account hth with
  | undecided hpast hrest => exact .inl ⟨hpast, fun _ => hrest⟩
  | fallen hpast hx =>
    refine .inl ⟨hpast, fun hreached => ?_⟩
    obtain ⟨e, he, hx⟩ := hx
    exact absurd (hreached e he) hx
  | refused p hu hpast hrest =>
    refine .inr ?_
    have hpoint : th.point = p := by simp [Thread.point, hpast, isShared]
    have heffect : ∀ row, th.effect row = (some false, row) := by
      intro row
      simp [Thread.effect, Thread.refused, hpast, isRefusal]
    have hmem : (p, ⟨.forced d, true⟩) ∈ th.past := by simp [hpast]
    refine ⟨⟨_, hpoint ▸ hmem⟩, fun e he hwin => ?_, fun a ha => ?_, ?_, fun _ => hu⟩
    · rw [hpast] at he
      rw [List.mem_singleton.1 he] at hwin
      cases hwin
    · rw [hrest] at ha
      cases ha
      rw [heffect]
    · rw [heffect, hpoint]
      exact row_still hr hth hmem rfl
  | kept k₀ k₁ row now p₀ p₁ hpast h₀ hstep h₁ hrest =>
    refine .inr ?_
    have hpoint : th.point = p₀ := Thread.point_eq hpast h₁ rfl
    have hreading : th.reading = now.millis.toNat := Thread.reading_eq hpast h₁ rfl
    have hrefused : th.refused = false :=
      Thread.refused_eq_false hpast h₀ h₁ (by simp [isRefusal])
    have hmem : (p₀, loads d row) ∈ th.past := by simp [hpast]
    have hrow : row = y.row p₀ := row_loaded hr hth hmem
    have heffect : th.effect (y.row p₀) = (th.job.answer ⟨.ofRow row, none⟩, y.row p₀) := by
      rw [Thread.effect, hrefused, hreading, ← hrow]
      simp only [Bool.false_eq_true, if_false, Caller.apply, hstep]
    refine ⟨⟨_, hpoint ▸ hmem⟩, fun e he hwin => ?_, fun a ha => ?_, ?_, by simp [hrefused]⟩
    · have := Thread.mem_of_isWin hpast h₀ h₁ he hwin
      simp only [List.mem_cons, List.not_mem_nil, or_false] at this
      obtain rfl | rfl := this
      · cases hwin
      · cases hwin
    · rw [hpoint, heffect]
      exact hrest a ha
    · rw [hpoint, heffect]
      exact row_still hr hth hmem rfl
  | wrote k₀ k₁ row after now p₀ p₁ p hpast h₀ hstep h₁ hrest =>
    refine .inr ?_
    have hwrote := wrote_of_past hr hth hpast hstep
    have hpoint : th.point = p := Thread.point_eq hpast h₁ rfl
    have hreading : th.reading = now.millis.toNat := Thread.reading_eq hpast h₁ rfl
    have hrefused : th.refused = false :=
      Thread.refused_eq_false hpast h₀ h₁ (by simp [isRefusal])
    have hmem : (p, swaps d row after.toRow true) ∈ th.past := by simp [hpast]
    have heffect : th.effect (y.row p) = (th.job.answer ⟨.ofRow row, some after⟩, after.toRow) := by
      rw [Thread.effect, hrefused, hreading, hwrote.found]
      simp only [Bool.false_eq_true, if_false, Caller.apply, hstep]
    refine ⟨⟨_, hpoint ▸ hmem⟩, fun e he hwin => ?_, fun a ha => ?_, ?_, by simp [hrefused]⟩
    · have := Thread.mem_of_isWin hpast h₀ h₁ he hwin
      simp only [List.mem_cons, List.not_mem_nil, or_false] at this
      obtain rfl | rfl | rfl := this
      · cases hwin
      · cases hwin
      · exact hpoint.symm
    · rw [hpoint, heffect]
      exact hrest a ha
    · rw [hpoint, heffect]
      exact hwrote.written

/-- The calls that have taken effect before a moment, in the order of their points. -/
structure LinedUp (y : Schedule (Caller d)) (t p : Nat) (order : List (Nat × Nat)) : Prop where
  ascending : order.Pairwise fun e e' => e.1 < e'.1
  settled : ∀ e ∈ order, e.1 < p ∧ ∃ th, (y.config Caller.program t).threads[e.2]? = some th ∧
    y.Settled th ∧ th.point = e.1
  complete : ∀ (i : Nat) th, (y.config Caller.program t).threads[i]? = some th → y.Settled th →
    th.point < p → (th.point, i) ∈ order
  replays : Replays (y.config Caller.program t).threads (y.row 0) order (y.row p)

/-- Some call takes effect at a moment. -/
def EffectAt (y : Schedule (Caller d)) (t p : Nat) : Prop :=
  ∃ (i : Nat) (th : Thread (Caller d) (Option Bool)),
    (y.config Caller.program t).threads[i]? = some th ∧ y.Settled th ∧ th.point = p

theorem row_of_no_effect (hr : y.store.Readable d) {p : Nat} (hp : p < t)
    (hno : ¬y.EffectAt t p) : y.row (p + 1) = y.row p := by
  obtain hrow | ⟨th, hth, e, after, now, p₀, p₁, hx, _⟩ := still_or_wrote hr hp
  · exact hrow
  · obtain ⟨hpast, _⟩ | hset := undecided_or_settled hr hth
    · cases hpast _ hx
    · obtain ⟨i, hi⟩ := List.mem_iff_getElem?.1 hth
      exact absurd ⟨i, th, hi, hset, (hset.wins _ hx rfl).symm⟩ hno

theorem exists_linedUp (hr : y.store.Readable d) {p : Nat} (hp : p ≤ t) :
    ∃ order, y.LinedUp t p order := by
  induction p with
  | zero => exact ⟨[], .nil, by simp, by simp, .nil⟩
  | succ p ih =>
    obtain ⟨order, hord⟩ := ih (by omega)
    by_cases h : y.EffectAt t p
    · obtain ⟨i, th, hi, hset, hpoint⟩ := h
      refine ⟨order ++ [(p, i)], ?_, ?_, ?_, ?_⟩
      · refine List.pairwise_append.2 ⟨hord.ascending, List.pairwise_singleton _ _, ?_⟩
        intro e he e' he'
        rw [List.mem_singleton.1 he']
        exact (hord.settled e he).1
      · intro e he
        rcases List.mem_append.1 he with he | he
        · obtain ⟨hlt, hth⟩ := hord.settled e he
          exact ⟨by omega, hth⟩
        · rw [List.mem_singleton.1 he]
          exact ⟨Nat.lt_succ_self p, th, hi, hset, hpoint⟩
      · intro j th' hj hset' hlt
        by_cases hpoint' : th'.point = p
        · -- Two calls with one point are one call.
          obtain ⟨x, hx⟩ := hset.mem
          obtain ⟨x', hx'⟩ := hset'.mem
          have hij := (y.traced Caller.program t).apart i j th th' hi hj _ hx _ hx' (by simp [*])
          simp [hij, hpoint']
        · exact List.mem_append.2 (.inl (hord.complete j th' hj hset' (by omega)))
      · have hrow : y.row (p + 1) = (th.effect (y.row p)).2 := by
          rw [← hpoint]
          exact hset.row
        rw [hrow]
        refine hord.replays.snoc hi fun a ha => ?_
        rw [← hpoint]
        exact hset.answer a ha
    · refine ⟨order, hord.ascending, ?_, ?_, ?_⟩
      · intro e he
        obtain ⟨hlt, hth⟩ := hord.settled e he
        exact ⟨by omega, hth⟩
      · intro j th' hj hset' hlt
        have hne : th'.point ≠ p := fun hpoint => h ⟨j, th', hj, hset', hpoint⟩
        exact hord.complete j th' hj hset' (by omega)
      · rw [row_of_no_effect hr (by omega) h]
        exact hord.replays

end Schedule

theorem Replays.failures {threads : List (Thread (Caller d) (Option Bool))} {row row' : Row}
    {order : List (Nat × Nat)} (h : Replays threads row order row')
    (hu : ∀ th ∈ threads, th.job.operation ≠ .recordSuccess ∧
      (th.refused = true → th.job.operation = .allow)) :
    (Condition.ofRow row').failures = min ((Condition.ofRow row).failures +
      order.countP fun e => threads[e.2]?.any Thread.isFailure) maxFailures := by
  induction h with
  | nil => simp [(Condition.ofRow row).failures_le]
  | @snoc order row' p i th _ hi _ ih =>
    obtain ⟨hne, hrefused⟩ := hu th (List.mem_of_getElem? hi)
    have hone : [(p, i)].countP (fun e => threads[e.2]?.any Thread.isFailure) =
        if th.isFailure then 1 else 0 := by
      simp [List.countP_cons, hi]
    rw [Thread.effect_failures hne hrefused, ih, List.countP_append, hone]
    omega

theorem countP_range {α : Type} (l : List α) (f : α → Bool) :
    (List.range l.length).countP (fun i => l[i]?.any f) = l.countP f := by
  induction l with
  | nil => rfl
  | cons a l ih =>
    rw [List.length_cons, List.range_succ_eq_map, List.countP_cons, List.countP_map,
      List.countP_cons, ← ih]
    rfl

namespace Schedule

variable {y : Schedule (Caller d)} {t : Nat}

theorem LinedUp.nodup {order : List (Nat × Nat)} (h : y.LinedUp t t order) :
    (order.map (·.2)).Nodup := by
  rw [List.Nodup, List.pairwise_map]
  refine h.ascending.imp_of_mem fun {e e'} he he' hlt heq => ?_
  obtain ⟨_, th, hth, _, hpoint⟩ := h.settled e he
  obtain ⟨_, th', hth', _, hpoint'⟩ := h.settled e' he'
  rw [heq, hth'] at hth
  cases hth
  omega

/-- If all calls have ended, the order is one of all calls. -/
theorem LinedUp.countP {order : List (Nat × Nat)} (h : y.LinedUp t t order)
    (hall : ∀ i < (y.config Caller.program t).threads.length, i ∈ order.map (·.2))
    (f : Thread (Caller d) (Option Bool) → Bool) :
    (order.countP fun e => (y.config Caller.program t).threads[e.2]?.any f) =
      (y.config Caller.program t).threads.countP f := by
  have hperm : (order.map (·.2)).Perm (List.range (y.config Caller.program t).threads.length) := by
    refine (List.perm_ext_iff_of_nodup h.nodup List.nodup_range).2 fun i => ?_
    rw [List.mem_range]
    constructor
    · intro hi
      obtain ⟨e, he, rfl⟩ := List.mem_map.1 hi
      obtain ⟨_, th, hth, _⟩ := h.settled e he
      exact (List.getElem?_eq_some_iff.1 hth).1
    · exact hall i
  rw [← countP_range (y.config Caller.program t).threads, ← hperm.countP_eq, List.countP_map]
  rfl

/-- However the loads and swaps of calls on one row are interleaved, the calls take effect one after
another, each at one moment between its first exchange and its last: every call that has ended has
the answer that it would have had alone on the row, and the row is the one that they leave. If none
of them is a success, every failure counts. A call that meets an outage leaves no trace. -/
theorem calls_line_up (hr : y.store.Readable d) :
    (∃ order : List (Nat × Nat),
      (order.Pairwise fun e e' => e.1 < e'.1) ∧ (order.map (·.2)).Nodup ∧
        (∀ e ∈ order, ∃ th, (y.config Caller.program t).threads[e.2]? = some th ∧
          ∃ x, (e.1, x) ∈ th.past) ∧
        (∀ (i : Nat) th a, (y.config Caller.program t).threads[i]? = some th → th.Reached →
          th.rest = done a → i ∈ order.map (·.2)) ∧
        Replays (y.config Caller.program t).threads (y.row 0) order (y.row t)) ∧
      ((∀ th ∈ (y.config Caller.program t).threads,
          th.job.operation ≠ .recordSuccess ∧ th.Reached ∧ ∃ a, th.rest = done a) →
        (Condition.ofRow (y.row t)).failures = min ((Condition.ofRow (y.row 0)).failures +
          (y.config Caller.program t).threads.countP Thread.isFailure) maxFailures) := by
  obtain ⟨order, hord⟩ := y.exists_linedUp hr (Nat.le_refl t)
  have hended : ∀ (i : Nat) th a, (y.config Caller.program t).threads[i]? = some th →
      th.Reached → th.rest = done a → y.Settled th ∧ i ∈ order.map (·.2) := by
    intro i th a hi hreached ha
    have hth := List.mem_of_getElem? hi
    obtain ⟨_, hrest⟩ | hset := undecided_or_settled hr hth
    · exact absurd ha (hrest hreached a)
    · obtain ⟨x, hx⟩ := hset.mem
      have hlt : th.point < t := (y.traced Caller.program t).early th hth _ hx
      exact ⟨hset, List.mem_map.2 ⟨_, hord.complete i th hi hset hlt, rfl⟩⟩
  refine ⟨⟨order, hord.ascending, hord.nodup, ?_, ?_, hord.replays⟩, fun hall => ?_⟩
  · intro e he
    obtain ⟨_, th, hth, hset, hpoint⟩ := hord.settled e he
    exact ⟨th, hth, hpoint ▸ hset.mem⟩
  · intro i th a hi hreached ha
    exact (hended i th a hi hreached ha).2
  · rw [hord.replays.failures, hord.countP]
    · intro i hi
      obtain ⟨_, hreached, a, ha⟩ := hall _ (List.getElem_mem hi)
      exact (hended i _ a (List.getElem?_eq_getElem hi) hreached ha).2
    · intro th hth
      obtain ⟨hne, hreached, a, ha⟩ := hall th hth
      obtain ⟨i, hi⟩ := List.mem_iff_getElem?.1 hth
      exact ⟨hne, (hended i th a hi hreached ha).1.refused⟩

end Schedule

/-- A failure that a shared handle reports. -/
def reporter : Caller ⟨"api"⟩ := ⟨.ofSettings ⟨"api"⟩ ⟨5, 60⟩ true, .recordFailure, rfl, rfl⟩

/-- Two failures are reported at the same time; one of the reports loses its first race. -/
def twoReports : Schedule (Caller ⟨"api"⟩) where
  store := .memory .empty
  clock := .epoch
  steps t := if t < 2 then .begins reporter else .asks (t % 2) (Call.calm .epoch ⟨""⟩)

theorem twoReports_line_up :
    twoReports.store.Readable ⟨"api"⟩ ∧
      ((twoReports.config Caller.program 16).threads.map fun th => th.past.length) = [4, 7] ∧
      (twoReports.config Caller.program 16).threads.countP Thread.isFailure = 2 ∧
      (Condition.ofRow (twoReports.row 16)).failures =
        min ((Condition.ofRow (twoReports.row 0)).failures +
          (twoReports.config Caller.program 16).threads.countP Thread.isFailure) maxFailures := by
  have hs : twoReports.Steady := by
    intro t i why
    simp only [twoReports]
    split <;> simp
  have hall : ∀ th ∈ (twoReports.config Caller.program 16).threads,
      th.job.operation ≠ .recordSuccess ∧ th.Reached ∧ ∃ a, th.rest = done a := by
    intro th hth
    have hreached := Schedule.reached_of_steady hs trivial hth
    have hthreads : (twoReports.config Caller.program 16).threads.map
        (fun th => (th.job.operation, th.rest)) =
          [(.recordFailure, done none), (.recordFailure, done none)] := rfl
    have := List.mem_map_of_mem (f := fun th => (th.job.operation, th.rest)) hth
    rw [hthreads] at this
    simp only [List.mem_cons, List.not_mem_nil, or_false, or_self, Prod.mk.injEq] at this
    rw [this.1, this.2]
    exact ⟨by decide, hreached, none, rfl⟩
  exact ⟨trivial, by decide +kernel, by decide +kernel,
    (Schedule.calls_line_up (y := twoReports) trivial).2 hall⟩

end WorkerGuard
