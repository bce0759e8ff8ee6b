import WorkerGuard.Proofs.Retry.Judgement
import WorkerGuard.Proofs.Retry.Schedule
import WorkerGuard.Proofs.Simulation.Alone

/-!
# WorkerGuard.Proofs.Retry.Growth

How the bound on the attempts of one call grows.

* `trials l`: the attempts of a run with their bounds; `Trial.timedOut`: one that failed for want of
  time, by its bound or by what the dependency says.
* `Grows p bound ts`: the bound of the next attempt is that of the last one, twice as much after a
  timeout, and never above the cap.
* `Grows.bound_eq`: the bound in closed form, by induction on the attempts.
* `attempts_grow`: the attempts of a call grow so, by induction on the retries that are left.
* `bounds_grow`: all bounds of a call.
-/

namespace WorkerGuard

open Breaker Failure Program Simulation

def Exchange.trial? : Exchange → Option Retry.Trial
  | ⟨.attempt _ bound, outcome⟩ => some ⟨bound, outcome⟩
  | _ => none

theorem Call.Only.trial? {es : List Effect} {e : Exchange} (h : e.call.Only es)
    (hes : .attempt ∉ es) : e.trial? = none := by
  obtain ⟨q, a⟩ := e
  cases q with
  | attempt d' bound => exact absurd rfl (h.not_effect hes)
  | _ => rfl

namespace Retry

/-- The attempts of a run, in order. -/
def trials (l : List Exchange) : List Trial := l.filterMap Exchange.trial?

theorem trials_append (l l' : List Exchange) : trials (l ++ l') = trials l ++ trials l' :=
  List.filterMap_append

def Trial.timedOut (t : Trial) : Bool :=
  match t.result with
  | .ok _ => false
  | .error e => (classify e).kind == .timeout

/-- Twice as much without overflow: what is no duration is above the cap. -/
theorem Policy.nanos_grown (p : Policy) (bound : Duration) :
    (p.grown bound).nanos = min p.maxAttemptTimeout.nanos (bound.nanos * 2) := by
  rw [grown, Duration.nanos_min_times]

/-- The bound of the attempt after this one. -/
def Policy.next (p : Policy) (t : Trial) : Duration :=
  if t.timedOut then p.grown t.bound else t.bound

inductive Grows (p : Policy) : Duration → List Trial → Prop where
  | nil {bound : Duration} : Grows p bound []
  | cons {t : Trial} {ts : List Trial} (h : Grows p (p.next t) ts) : Grows p t.bound (t :: ts)

theorem min_min_mul (cap a n : Nat) (hn : 0 < n) : min cap (min cap a * n) = min cap (a * n) := by
  have hcap : cap ≤ cap * n := Nat.le_mul_of_pos_right cap hn
  rw [← Nat.mul_min_mul_right, ← min_assoc, min_eq_left hcap]

theorem Grows.bound_eq {p : Policy} {bound : Duration} {ts : List Trial} (hg : Grows p bound ts)
    (hb : bound ≤ p.maxAttemptTimeout) {k : Nat} {t : Trial} (ht : ts[k]? = some t) :
    t.bound.nanos = min p.maxAttemptTimeout.nanos
      (bound.nanos * 2 ^ (ts.take k).countP Trial.timedOut) := by
  induction hg generalizing k with
  | nil => cases ht
  | @cons t₀ ts hg ih =>
    cases k with
    | zero =>
      cases ht
      rw [List.take_zero, List.countP_nil, Nat.pow_zero, Nat.mul_one, min_eq_right hb]
    | succ k =>
      have hnext : (p.next t₀).nanos = min p.maxAttemptTimeout.nanos
          (t₀.bound.nanos * 2 ^ [t₀].countP Trial.timedOut) := by
        rw [Policy.next, List.countP_singleton]
        split
        · rw [p.nanos_grown, Nat.pow_one]
        · rw [Nat.pow_zero, Nat.mul_one, min_eq_right hb]
      have hle : p.next t₀ ≤ p.maxAttemptTimeout := by
        rw [Duration.le_def, hnext]
        exact min_le_left _ _
      rw [ih hle ht, hnext, min_min_mul _ _ _ (Nat.two_pow_pos _), Nat.mul_assoc, ← Nat.pow_add,
        List.take_succ_cons, ← List.countP_append, List.singleton_append]

section Attempts

variable {σ : Type} {E : Environment σ} {b : Breaker} {p : Policy} {left made : Nat}
variable {bound : Duration} {delays : List Duration} {h h' : σ} {l : List Exchange}

theorem trials_eq_nil {P : Call → Prop} (hl : ∀ q ∈ l, P q.call)
    (hP : ∀ q : Exchange, P q.call → q.trial? = none) : trials l = [] :=
  List.filterMap_eq_nil_iff.2 fun q hq => hP q (hl q hq)

/-- One attempt with the bound, or none if it was refused; its result is what it comes to. -/
theorem tryOnce_trials {r : Except Halt (Option (Except CallError Json))}
    (hr : Trail E (tryOnce b bound made) h l r h') :
    (trials l = [] ∧ ∀ o, r = .ok o → o = none) ∨
      ∃ t : Trial, t.bound = bound ∧ trials l = [t] ∧ ∀ o, r = .ok o → o = some t.result := by
  have hwhole := hr
  obtain ⟨allowed, h₁, l₁, l₂, rfl, hallow, hr⟩ | ⟨why, rfl, hallow⟩ := trail_bind hr
  · have hnone : trials l₁ = [] :=
      trials_eq_nil (hallow.asks b.asks_allow) fun _ hq => hq.only.trial? (by decide)
    rw [trials_append, hnone, List.nil_append]
    cases allowed with
    | false =>
      obtain ⟨rfl, rfl, _⟩ := trail_pure hr
      exact .inl ⟨rfl, fun o ho => (Except.ok.inj ho).symm⟩
    | true =>
      obtain ⟨outcome, h₂, l₃, rfl, _, _⟩ := trail_call_bind hr
      obtain ⟨hreport, hresult⟩ := tryOnce_result (t := ⟨bound, outcome⟩) hwhole
      have hlater := trials_eq_nil hreport fun _ hq => hq.only.trial? (by decide)
      refine .inr ⟨⟨bound, outcome⟩, rfl, ?_, hresult⟩
      exact congrArg (_ :: ·) hlater
  · exact .inl ⟨trials_eq_nil (hallow.asks b.asks_allow) fun _ hq => hq.only.trial? (by decide), nofun⟩

/-- The error of a call is that of its last attempt, or the next one was refused. -/
def Ends (d : Dependency) (ts : List Trial) (e : CallError) : Prop :=
  e = .circuitOpen d ∨ ∃ t, ts.getLast? = some t ∧ t.result = .error e

/-- What a call comes to whose first attempt has this bound. -/
structure Charted (d : Dependency) (p : Policy) (bound : Duration) (l : List Exchange)
    (r : Except Halt (Except GivenUp Json)) : Prop where
  grows : Grows p bound (trials l)
  error : ∀ g, r = .ok (.error g) → Ends d (trials l) g.error

theorem Charted.of_single {d : Dependency} {t : Trial} {r : Except Halt (Except GivenUp Json)}
    (hone : trials l = [t]) (herror : ∀ g, r = .ok (.error g) → t.result = .error g.error) :
    Charted d p t.bound l r := by
  constructor
  · rw [hone]
    exact .cons .nil
  · intro g hg
    rw [hone]
    exact .inr ⟨t, rfl, herror g hg⟩

theorem Charted.cons {d : Dependency} {t : Trial} {l' : List Exchange}
    {r : Except Halt (Except GivenUp Json)} (hl : trials l = t :: trials l')
    (h : Charted d p (p.next t) l' r) : Charted d p t.bound l r := by
  constructor
  · rw [hl]
    exact .cons h.grows
  · intro g hg
    rw [hl]
    obtain hrefused | ⟨t', ht', hlast⟩ := h.error g hg
    · exact .inl hrefused
    · exact .inr ⟨t', by rw [List.getLast?_cons, ht']; rfl, hlast⟩

/-- The first attempt is the last one, or it failed and is followed by the others. -/
theorem attempts_trials {r : Except Halt (Except GivenUp Json)}
    (hr : Trail E (attempts b p left made bound delays) h l r h') :
    Charted b.dependency p bound l r ∨
      ∃ left' t e l₁ l₂ h₁, left = left' + 1 ∧ l = l₁ ++ l₂ ∧ trials l₁ = [t] ∧ t.bound = bound ∧
        t.result = .error e ∧ Trail E (resumption b p left' made bound delays e) h₁ l₂ r h' := by
  unfold attempts at hr
  obtain ⟨o, h₁, l₁, l₂, rfl, htry, hr⟩ | ⟨why, rfl, htry⟩ := trail_bind hr
  · obtain ⟨hnone, ho⟩ | ⟨t, rfl, hone, ho⟩ := tryOnce_trials htry
    · obtain rfl := ho o rfl
      obtain ⟨rfl, rfl, _⟩ := trail_pure hr
      rw [List.append_nil]
      refine .inl ⟨?_, ?_⟩
      · rw [hnone]
        exact .nil
      · rintro g ⟨⟩
        exact .inl rfl
    · obtain rfl := ho o rfl
      have hlast : ∀ {out : Except GivenUp Json}, Trail E (pure out) h₁ l₂ r h' →
          (∀ g, out = .error g → t.result = .error g.error) →
          Charted b.dependency p t.bound (l₁ ++ l₂) r := by
        intro out hr herror
        obtain ⟨rfl, rfl, _⟩ := trail_pure hr
        rw [List.append_nil]
        exact .of_single hone fun g hg => herror g (Except.ok.inj hg)
      cases hresult : t.result with
      | ok v =>
        rw [hresult] at hr
        refine .inl (hlast hr ?_)
        rintro g ⟨⟩
      | error e =>
        rw [hresult] at hr
        cases left with
        | zero =>
          refine .inl (hlast hr ?_)
          rintro g ⟨⟩
          exact hresult
        | succ left =>
          dsimp only at hr
          split at hr
          · exact .inr ⟨left, t, e, l₁, l₂, h₁, rfl, rfl, hone, rfl, hresult, hr⟩
          · refine .inl (hlast hr ?_)
            rintro g ⟨⟩
            exact hresult
  · obtain ⟨hnone, _⟩ | ⟨t, rfl, hone, _⟩ := tryOnce_trials htry
    · refine .inl ⟨?_, ?_⟩
      · rw [hnone]
        exact .nil
      · rintro g ⟨⟩
    · refine .inl (.of_single hone ?_)
      rintro g ⟨⟩

/-- The others follow upon a delay, in which no attempt is made. -/
theorem attempts_charted {r : Except Halt (Except GivenUp Json)}
    (hr : Trail E (attempts b p left made bound delays) h l r h') :
    Charted b.dependency p bound l r := by
  induction left generalizing made bound delays h l with
  | zero =>
    obtain hend | ⟨_, _, _, _, _, _, hleft, _⟩ := attempts_trials hr
    · exact hend
    · cases hleft
  | succ left ih =>
    obtain hend | ⟨left', t, e, l₁, l₂, h₁, hleft, rfl, hone, rfl, hresult, hr⟩ :=
      attempts_trials hr
    · exact hend
    cases hleft
    have hdelay : ∀ q : Exchange, q.call = .jitter → q.trial? = none := by
      rintro ⟨q, a⟩ rfl
      rfl
    obtain ⟨delay, h₂, l₃, l₄, rfl, hwait, hr⟩ | ⟨why, rfl, hwait⟩ := trail_bind hr
    · obtain ⟨_, h₃, l₅, rfl, _, hr⟩ := trail_call_bind hr
      have hnone := trials_eq_nil (hwait.asks (asks_delayAfter p made _)) hdelay
      have hl : trials (l₁ ++ (l₃ ++ ⟨.sleep delay, ()⟩ :: l₅)) = t :: trials l₅ := by
        rw [trials_append, trials_append, hone, hnone]
        rfl
      refine .cons hl ?_
      rw [Policy.next, Trial.timedOut, hresult]
      simpa using ih hr
    · have hnone := trials_eq_nil (hwait.asks (asks_delayAfter p made _)) hdelay
      refine .of_single ?_ nofun
      rw [trials_append, hone, hnone, List.append_nil]

end Attempts

/-- Whatever comes of the attempts of a call, the bound on each is the first one, doubled for every
one before that timed out, as far as the cap allows; so bounds never shrink and are never above the
cap. What the caller learns of an attempt that overran names its bound. -/
theorem bounds_grow {σ : Type} {E : Environment σ} {board : Board} {d : Dependency} {p : Policy}
    {h h' : σ} {l : List Exchange} {r : Except Halt (Except GivenUp Json)}
    (hp : p.attemptTimeout ≤ p.maxAttemptTimeout) (hr : Trail E (execute board d p) h l r h') :
    (∀ k t, (trials l)[k]? = some t → t.bound.nanos = min p.maxAttemptTimeout.nanos
      (p.attemptTimeout.nanos * 2 ^ ((trials l).take k).countP Trial.timedOut)) ∧
    (trials l).Pairwise (·.bound ≤ ·.bound) ∧
    (∀ t ∈ trials l, t.bound ≤ p.maxAttemptTimeout) ∧
    ∀ g, r = .ok (.error g) → g.error = .circuitOpen d ∨
      ∃ t, (trials l).getLast? = some t ∧ t.result = .error g.error ∧
        (t.outcome = .overran → g.error = .timeout t.bound) := by
  obtain ⟨_, h₁, l₁, rfl, _, hr⟩ := trail_call_bind hr
  obtain ⟨hgrows, herror⟩ := attempts_charted hr
  have hbound : ∀ k t, (trials l₁)[k]? = some t → t.bound.nanos = min p.maxAttemptTimeout.nanos
      (p.attemptTimeout.nanos * 2 ^ ((trials l₁).take k).countP Trial.timedOut) :=
    fun k t ht => hgrows.bound_eq hp ht
  refine ⟨hbound, ?_, ?_, ?_⟩
  · rw [List.pairwise_iff_getElem]
    intro j k hj hk hjk
    have hcount : ((trials l₁).take j).countP Trial.timedOut ≤
        ((trials l₁).take k).countP Trial.timedOut :=
      (List.take_sublist_take_left (Nat.le_of_lt hjk)).countP_le
    rw [Duration.le_def, hbound j _ (List.getElem?_eq_getElem hj),
      hbound k _ (List.getElem?_eq_getElem hk)]
    exact min_le_min_left _ (Nat.mul_le_mul_left _ (Nat.pow_le_pow_right Nat.two_pos hcount))
  · intro t ht
    obtain ⟨k, hk⟩ := List.getElem?_of_mem ht
    rw [Duration.le_def, hbound k t hk]
    exact min_le_left _ _
  · intro g hg
    obtain hrefused | ⟨t, ht, hresult⟩ := herror g hg
    · exact .inl hrefused
    · refine .inr ⟨t, ht, hresult, ?_⟩
      intro hoverran
      rw [Trial.result, hoverran] at hresult
      exact (Except.error.inj hresult).symm

section Hurried

/-- One second for the first attempt, and three at most. -/
def hurried : Policy where
  maxAttempts := 4
  baseDelay := .ofMillis 10
  maxDelay := .ofMillis 10
  jitterFraction := 0.0
  attemptTimeout := .ofSeconds 1
  maxAttemptTimeout := .ofSeconds 3
  retryableKinds := [.transient, .timeout]

def lasting : Board where
  defaults := ⟨100, 30⟩
  ofDependency := .empty
  shared := false

/-- A blip in the middle, and three sorts of timeouts around it. -/
def laggard : List Attempt :=
  [.overran, .returned (.error (.connection "reset")), .returned (.error (.status 504 "")),
    .returned (.error (.other "deadline exceeded")), .overran]

/-- The bounds of five attempts in seconds, and which of them timed out. -/
theorem hurried_grows : ∃ l r h', Trail (Scripted (Call.calm .epoch ⟨"worker"⟩) ⟨"api"⟩)
    (execute lasting ⟨"api"⟩ hurried) (⟨.memory .empty, 0, 0⟩, laggard) l r h' ∧
    hurried.attemptTimeout ≤ hurried.maxAttemptTimeout ∧
    (trials l).map Trial.timedOut = [true, false, true, true, true] ∧
    (trials l).map (·.bound.seconds) = [1, 2, 2, 3, 3] := by
  have hp : hurried.attemptTimeout ≤ hurried.maxAttemptTimeout := by decide
  obtain ⟨l, r, h', hrun, hseen⟩ := exists_trail_scripted (execute lasting ⟨"api"⟩ hurried)
    (Call.calm .epoch ⟨"worker"⟩) ⟨"api"⟩ (⟨.memory .empty, 0, 0⟩, laggard)
    (p := fun x => (trials x.1).map (·.timedOut) == [true, false, true, true, true])
    (by decide +kernel)
  have htimed : (trials l).map Trial.timedOut = [true, false, true, true, true] :=
    beq_iff_eq.1 hseen
  refine ⟨l, r, h', hrun, hp, htimed, ?_⟩
  obtain ⟨hbound, _⟩ := bounds_grow hp hrun
  have hseconds : ∀ (k : Nat) t, (trials l)[k]? = some t → t.bound.seconds =
      min 3000000000 (1000000000 * 2 ^ ([true, false, true, true, true].take k).countP id) /
        1000000000 := by
    intro k t ht
    rw [Duration.seconds, hbound k t ht, ← htimed, ← List.map_take, List.countP_map]
    rfl
  generalize trials l = ts at htimed hseconds
  obtain ⟨t₀, ts, rfl, _, htimed⟩ := List.map_eq_cons_iff.1 htimed
  obtain ⟨t₁, ts, rfl, _, htimed⟩ := List.map_eq_cons_iff.1 htimed
  obtain ⟨t₂, ts, rfl, _, htimed⟩ := List.map_eq_cons_iff.1 htimed
  obtain ⟨t₃, ts, rfl, _, htimed⟩ := List.map_eq_cons_iff.1 htimed
  obtain ⟨t₄, rfl, _⟩ := List.map_eq_singleton_iff.1 htimed
  simp [hseconds 0 t₀ rfl, hseconds 1 t₁ rfl, hseconds 2 t₂ rfl, hseconds 3 t₃ rfl,
    hseconds 4 t₄ rfl]

end Hurried

end Retry
end WorkerGuard
