import WorkerGuard.Proofs.Breaker.Owned
import WorkerGuard.Proofs.Retry.Delays

/-!
# WorkerGuard.Proofs.Retry.Account

What one call with its retries comes to, to the last attempt and the last delay.

* `Trial`: an attempt with its bound; `Held E b t`: the breaker let it pass, it was made, and its
  outcome was reported to the breaker once.
* `Trials E b ts`: trials one after another, with nothing but waits in between.
* `Account`: the trials of an execution, with its result.
* `tryOnce_account`, `attempts_account`: one attempt, and all of them by induction on the retries
  that are left.
* `execute_accounts`: every execution ends with a result and has such an account.
-/

namespace WorkerGuard

open Breaker Failure Program Simulation

/-- The length of a sleep. -/
def Exchange.slept? : Exchange → Option Duration
  | ⟨.sleep d, _⟩ => some d
  | _ => none

theorem Call.Only.slept? {es : List Effect} {e : Exchange} (h : e.call.Only es)
    (hes : .sleep ∉ es) : e.slept? = none := by
  obtain ⟨q, a⟩ := e
  cases q with
  | sleep t => exact absurd rfl (h.not_effect hes)
  | _ => rfl

/-- The sleeps of a run, in order. -/
def slept (l : List Exchange) : List Duration := l.filterMap Exchange.slept?

theorem slept_append (l l' : List Exchange) : slept (l ++ l') = slept l ++ slept l' :=
  List.filterMap_append

theorem Program.Trail.slept_eq_nil {σ α : Type} {E : Environment σ} {x : Program α} {h h' : σ}
    {l : List Exchange} {r : Except Halt α} (hr : Trail E x h l r h') {P : Call → Prop}
    (hx : x.Asks P) (hP : ∀ e : Exchange, P e.call → e.slept? = none) : slept l = [] :=
  List.filterMap_eq_nil_iff.2 fun e he => hP e (hr.asks hx e he)

namespace Retry

structure Trial where
  bound : Duration
  outcome : Attempt

/-- What the caller learns. -/
def Trial.result (t : Trial) : Except CallError Json :=
  match t.outcome with
  | .returned r => r
  | .overran => .error (.timeout t.bound)

/-- What the breaker is told. -/
def Trial.report (b : Breaker) (t : Trial) : Program Unit :=
  match t.result with
  | .ok _ => b.recordSuccess
  | .error _ => b.recordFailure

/-- The failure is such that it is tried again. -/
def Policy.Mends (p : Policy) (e : CallError) : Prop :=
  (classify e).retryable = true ∧ p.retries (classify e).kind = true

section Trials

variable {σ : Type}

/-- The breaker let the attempt pass, then it was made, then its outcome was reported. -/
inductive Held (E : Environment σ) (b : Breaker) (t : Trial) : σ → List Exchange → σ → Prop where
  | mk {h h₁ h₂ h' : σ} {l l' : List Exchange} (hpass : Trail E b.allow h l (.ok true) h₁)
      (hcall : E h₁ (.attempt b.dependency t.bound) t.outcome h₂)
      (hreport : Trail E (t.report b) h₂ l' (.ok ()) h') :
      Held E b t h (l ++ ⟨.attempt b.dependency t.bound, t.outcome⟩ :: l') h'

/-- Nothing but waits. -/
inductive Waited (E : Environment σ) : σ → List Exchange → σ → Prop where
  | nil {h : σ} : Waited E h [] h
  | cons {h h₁ h' : σ} {q : Call} {a : q.Answer} {l : List Exchange} (hq : q.Waits)
      (ha : E h q a h₁) (hw : Waited E h₁ l h') : Waited E h (⟨q, a⟩ :: l) h'

inductive Trials (E : Environment σ) (b : Breaker) :
    List Trial → σ → List Exchange → σ → Prop where
  | nil {h : σ} : Trials E b [] h [] h
  | cons {t : Trial} {ts : List Trial} {h h₁ h₂ h' : σ} {l₁ l₂ l₃ : List Exchange}
      (ht : Held E b t h l₁ h₁) (hw : Waited E h₁ l₂ h₂) (hts : Trials E b ts h₂ l₃ h') :
      Trials E b (t :: ts) h (l₁ ++ (l₂ ++ l₃)) h'

variable {E : Environment σ} {b : Breaker} {h h' : σ} {l : List Exchange}

theorem Trial.asks_report (b : Breaker) (t : Trial) :
    (t.report b).Asks (Call.OfBreaker b.dependency) := by
  unfold report
  split
  · exact b.asks_recordSuccess
  · exact b.asks_recordFailure

theorem Held.attempts {t : Trial} (ht : Held E b t h l h') :
    l.countP Exchange.isAttempt = 1 := by
  obtain ⟨hpass, _, hreport⟩ := ht
  rw [List.countP_append, List.countP_cons, allow_attempts hpass,
    hreport.countP_eq_zero (t.asks_report b) fun _ hq => hq.only.isAttempt (by decide)]
  rfl

theorem Held.slept {t : Trial} (ht : Held E b t h l h') : slept l = [] := by
  obtain ⟨hpass, _, hreport⟩ := ht
  rw [slept_append, hpass.slept_eq_nil b.asks_allow fun _ hq => hq.only.slept? (by decide)]
  exact hreport.slept_eq_nil (t.asks_report b) fun _ hq => hq.only.slept? (by decide)

theorem Waited.attempts (hw : Waited E h l h') : l.countP Exchange.isAttempt = 0 := by
  induction hw with
  | nil => rfl
  | cons hq _ _ ih => rw [List.countP_cons, ih, hq.only.isAttempt (by decide)]; rfl

theorem Waited.append {h₁ : σ} {l₁ l₂ : List Exchange} (hw : Waited E h l₁ h₁)
    (hw' : Waited E h₁ l₂ h') : Waited E h (l₁ ++ l₂) h' := by
  induction hw with
  | nil => exact hw'
  | cons hq ha _ ih => exact .cons hq ha (ih hw')

theorem Waited.of_trail {α : Type} {x : Program α} {r : Except Halt α} (hx : x.Asks Call.Waits)
    (hr : Trail E x h l r h') : Waited E h l h' := by
  induction hr with
  | done => exact .nil
  | halt => exact .nil
  | ask ha _ ih => exact .cons hx.1 ha (ih (hx.2 _))

end Trials

theorem tryOnce_eq (b : Breaker) (bound : Duration) {made : Nat} (hmade : made + 1 ≠ UInt32.size) :
    tryOnce b bound made = do
      if ← b.allow then
        let outcome ← Program.call (.attempt b.dependency bound)
        (⟨bound, outcome⟩ : Trial).report b
        return some (⟨bound, outcome⟩ : Trial).result
      else return none := by
  refine congrArg (b.allow >>= ·) (funext fun allowed => ?_)
  cases allowed with
  | false => rfl
  | true =>
    refine congrArg (Program.call (.attempt b.dependency bound) >>= ·) (funext fun outcome => ?_)
    rw [if_neg hmade]
    cases outcome with
    | overran => rfl
    | returned result => cases result <;> rfl

/-- The account of the attempts after `made` of them and after the `delays`, with `left` retries;
`refused` says whether the breaker refused the attempt after the last trial. -/
structure Account {σ : Type} (E : Environment σ) (b : Breaker) (p : Policy) (left made : Nat)
    (delays : List Duration) (h : σ) (l : List Exchange) (out : Except GivenUp Json)
    (trials : List Trial) (refused : Bool) (h' : σ) : Prop where
  /-- Every call follows upon a pass and is reported once, before anything else is done. -/
  held : ∃ h₁ l₁ l₂, l = l₁ ++ l₂ ∧ Trials E b trials h l₁ h₁ ∧
    if refused then Trail E b.allow h₁ l₂ (.ok false) h' else l₂ = [] ∧ h' = h₁
  calls : l.countP Exchange.isAttempt = trials.length
  bounded : trials.length ≤ left + 1
  /-- All trials but the last one failed in a way that is tried again. -/
  mended : ∀ t ∈ trials.dropLast, ∃ e, t.result = .error e ∧ p.Mends e
  ok : ∀ v, out = .ok v → refused = false ∧ ∃ t, trials.getLast? = some t ∧ t.result = .ok v
  error : ∀ g, out = .error g → g.dependency = b.dependency ∧
    g.attempts = made + trials.length ∧ g.delays = delays ++ slept l ∧
    g.classification = classify g.error
  /-- The breaker refused an attempt that was to come, after a delay. -/
  refusal : refused = true → (slept l).length = trials.length ∧
    (∀ t ∈ trials, ∃ e, t.result = .error e ∧ p.Mends e) ∧
    ∃ g, out = .error g ∧ g.error = .circuitOpen b.dependency
  /-- No delay follows upon the last trial. -/
  final : refused = false → (slept l).length + 1 = trials.length ∧
    ∀ g, out = .error g → ∃ t, trials.getLast? = some t ∧ t.result = .error g.error

section Account

variable {σ : Type} {E : Environment σ} {b : Breaker} {p : Policy} {left made : Nat}
variable {delays : List Duration} {h h₁ h₂ h' : σ} {l l₁ l₂ : List Exchange}

theorem Account.of_refused (hr : Trail E b.allow h l (.ok false) h') :
    Account E b p left made delays h l (.error ⟨b.dependency, .circuitOpen b.dependency,
      classify (.circuitOpen b.dependency), made, delays⟩) [] true h' := by
  have hslept : slept l = [] := hr.slept_eq_nil b.asks_allow fun _ hq => hq.only.slept? (by decide)
  refine ⟨⟨h, [], l, rfl, .nil, hr⟩, allow_attempts hr, Nat.zero_le _, nofun, nofun, ?_, ?_, nofun⟩
  · rintro g ⟨⟩
    exact ⟨rfl, rfl, by rw [hslept, List.append_nil], rfl⟩
  · intro _
    exact ⟨by rw [hslept]; rfl, nofun, _, rfl, rfl⟩

theorem Account.of_held {t : Trial} (ht : Held E b t h l h') {out : Except GivenUp Json}
    (hok : ∀ v, out = .ok v → t.result = .ok v)
    (herror : ∀ g, out = .error g →
      g = ⟨b.dependency, g.error, classify g.error, made + 1, delays⟩ ∧ t.result = .error g.error) :
    Account E b p left made delays h l out [t] false h' := by
  have hheld : Trials E b [t] h (l ++ ([] ++ [])) h' := .cons ht .nil .nil
  rw [List.append_nil, List.append_nil] at hheld
  refine ⟨⟨h', l, [], (List.append_nil l).symm, hheld, rfl, rfl⟩, ht.attempts, ?_, nofun, ?_, ?_,
    nofun, ?_⟩
  · simp
  · exact fun v hv => ⟨rfl, t, rfl, hok v hv⟩
  · intro g hg
    rw [(herror g hg).1, ht.slept, List.append_nil]
    exact ⟨rfl, rfl, rfl, rfl⟩
  · intro _
    exact ⟨by rw [ht.slept]; rfl, fun g hg => ⟨t, rfl, (herror g hg).2⟩⟩

/-- A failure, a delay, and what comes after them. -/
theorem Account.cons {t : Trial} (ht : Held E b t h l₁ h₁) {e : CallError}
    (he : t.result = .error e) (hmends : p.Mends e) (hw : Waited E h₁ l₂ h₂) {delay : Duration}
    (hdelay : slept l₂ = [delay]) {out : Except GivenUp Json} {ts : List Trial} {refused : Bool}
    (hrest : Account E b p left (made + 1) (delays ++ [delay]) h₂ l out ts refused h') :
    Account E b p (left + 1) made delays h (l₁ ++ (l₂ ++ l)) out (t :: ts) refused h' := by
  have hslept : slept (l₁ ++ (l₂ ++ l)) = delay :: slept l := by
    rw [slept_append, slept_append, ht.slept, hdelay]
    rfl
  have hlast : ∀ {t'}, ts.getLast? = some t' → (t :: ts).getLast? = some t' := by
    intro t' ht'
    rw [List.getLast?_cons, ht']
    rfl
  obtain ⟨h₃, l₃, l₄, rfl, htrials, hend⟩ := hrest.held
  constructor
  · refine ⟨h₃, l₁ ++ (l₂ ++ l₃), l₄, ?_, .cons ht hw htrials, hend⟩
    simp only [List.append_assoc]
  · rw [List.countP_append, List.countP_append, ht.attempts, hw.attempts, hrest.calls,
      List.length_cons]
    omega
  · have := hrest.bounded
    simp only [List.length_cons]
    omega
  · intro t' ht'
    cases ts with
    | nil => cases ht'
    | cons t₂ ts =>
      obtain rfl | ht' := List.mem_cons.1 ht'
      · exact ⟨e, he, hmends⟩
      · exact hrest.mended t' ht'
  · intro v hv
    obtain ⟨hfinal, t', ht', hresult⟩ := hrest.ok v hv
    exact ⟨hfinal, t', hlast ht', hresult⟩
  · intro g hg
    obtain ⟨hd, hattempts, hdelays, hclass⟩ := hrest.error g hg
    refine ⟨hd, ?_, ?_, hclass⟩
    · rw [hattempts, List.length_cons]
      omega
    · rw [hdelays, hslept, List.append_assoc]
      rfl
  · intro hrefused
    obtain ⟨hlength, hall, hout⟩ := hrest.refusal hrefused
    refine ⟨by rw [hslept, List.length_cons, List.length_cons, hlength], fun t' ht' => ?_, hout⟩
    obtain rfl | ht' := List.mem_cons.1 ht'
    · exact ⟨e, he, hmends⟩
    · exact hall t' ht'
  · intro hfinal
    obtain ⟨hlength, hout⟩ := hrest.final hfinal
    refine ⟨by rw [hslept, List.length_cons, List.length_cons, hlength], fun g hg => ?_⟩
    obtain ⟨t', ht', hresult⟩ := hout g hg
    exact ⟨t', hlast ht', hresult⟩

end Account

theorem asks_waits_delayAfter (p : Policy) (attempt : Nat) (c : Classification) :
    (delayAfter p attempt c).Asks Call.Waits :=
  (asks_delayAfter p attempt c).mono fun _ hq => by rw [hq]; trivial

/-- The random number is all that is asked for, and a delay within range comes out. -/
theorem delayAfter_ok {σ : Type} {E : Environment σ} {p : Policy}
    (hdelay : ∀ k x, Sampled E x → p.backoff? k x ≠ none) {made : Nat} {c : Classification}
    {h h' : σ} {l : List Exchange} {r : Except Halt Duration}
    (hr : Trail E (delayAfter p made c) h l r h') : slept l = [] ∧ ∃ delay, r = .ok delay := by
  have hjitter : ∀ e : Exchange, e.call = .jitter → e.slept? = none ∧ e.isLoss = false := by
    rintro ⟨q, a⟩ rfl
    exact ⟨rfl, rfl⟩
  refine ⟨hr.slept_eq_nil (asks_delayAfter p made c) fun e he => (hjitter e he).1, ?_⟩
  cases r with
  | ok delay => exact ⟨delay, rfl⟩
  | error why =>
    have hout : Outraced 1 False l why :=
      excused_delayAfter (I := fun _ => True) 1 made c (fun k x hx hn => hdelay k x hx hn)
        _ _ _ _ trivial hr
    have hnone : l.countP Exchange.isLoss = 0 :=
      hr.countP_eq_zero (asks_delayAfter p made c) fun e he => (hjitter e he).2
    obtain ⟨_, hlost⟩ | ⟨_, himpossible⟩ := hout
    · omega
    · exact himpossible.elim

section Attempts

variable {σ : Type} {E : Environment σ} {b : Breaker} {Has : Condition → σ → Prop}
variable {k : Condition} {h h' : σ} {l : List Exchange}
variable (ho : Owned E b.dependency b.shared Has) (hpos : 0 < b.patience)
include ho hpos

theorem report_account {t : Trial} {r : Except Halt Unit} (hk : Has k h)
    (hopen : k.circuit ≠ .opened) (hr : Trail E (t.report b) h l r h') :
    r = .ok () ∧ ∃ k', Has k' h' ∧
      ∀ v, t.result = .ok v → k'.circuit = .closed ∧ k'.failures = 0 := by
  unfold Trial.report at hr
  split at hr
  · obtain ⟨hok, k', hk', hclosed⟩ := ho.recordSuccess hpos hk hopen hr
    exact ⟨hok, k', hk', fun _ _ => hclosed⟩
  · rename_i e he
    obtain ⟨hok, k', hk'⟩ := ho.recordFailure hpos hk hr
    exact ⟨hok, k', hk', fun v hv => by rw [he] at hv; cases hv⟩

theorem tryOnce_account {bound : Duration} {made : Nat}
    {r : Except Halt (Option (Except CallError Json))} (hmade : made + 1 < UInt32.size)
    (hk : Has k h) (hr : Trail E (tryOnce b bound made) h l r h') :
    (r = .ok none ∧ Trail E b.allow h l (.ok false) h' ∧ ∃ k', Has k' h') ∨
      ∃ t : Trial, r = .ok (some t.result) ∧ Held E b t h l h' ∧ ∃ k', Has k' h' ∧
        ∀ v, t.result = .ok v → k'.circuit = .closed ∧ k'.failures = 0 := by
  rw [tryOnce_eq b bound (by omega)] at hr
  obtain ⟨allowed, h₁, l₁, l₂, rfl, hallow, hr⟩ | ⟨why, rfl, hallow⟩ := trail_bind hr
  · obtain ⟨_, k₁, hok, hk₁, hopen⟩ := ho.allow hpos hk hallow
    cases hok
    cases allowed with
    | false =>
      obtain ⟨rfl, rfl, rfl⟩ := trail_pure hr
      refine .inl ⟨rfl, ?_, k₁, hk₁⟩
      rw [List.append_nil]
      exact hallow
    | true =>
      obtain ⟨outcome, h₂, l₃, rfl, hcall, hr⟩ := trail_call_bind hr
      have hk₂ := ho.still hk₁ (.inr (.inr ⟨bound, rfl⟩)) hcall
      obtain ⟨_, h₃, l₄, l₅, rfl, hreport, hr⟩ | ⟨why, rfl, hreport⟩ := trail_bind hr
      · obtain ⟨hok, k₃, hk₃, hclosed⟩ := report_account ho hpos hk₂ (hopen rfl) hreport
        cases hok
        obtain ⟨rfl, rfl, rfl⟩ := trail_pure hr
        rw [List.append_nil]
        exact .inr ⟨⟨bound, outcome⟩, rfl, .mk hallow hcall hreport, k₃, hk₃, hclosed⟩
      · cases (report_account ho hpos hk₂ (hopen rfl) hreport).1
  · obtain ⟨_, _, hok, _⟩ := ho.allow hpos hk hallow
    cases hok

omit hpos in
/-- The wait before a retry is one sleep. -/
theorem retry_account {p : Policy} (hdelay : ∀ k x, Sampled E x → p.backoff? k x ≠ none)
    {left made : Nat} {bound : Duration} {delays : List Duration} {c : Classification}
    {r : Except Halt (Except GivenUp Json)} (hk : Has k h)
    (hr : Trail E (delayAfter p made c >>= fun delay => Program.call (.sleep delay) >>=
      fun _ => attempts b p left (made + 1) bound (delays ++ [delay])) h l r h') :
    ∃ delay l₁ h₁ l₂, l = l₁ ++ l₂ ∧ Waited E h l₁ h₁ ∧ slept l₁ = [delay] ∧ Has k h₁ ∧
      Trail E (attempts b p left (made + 1) bound (delays ++ [delay])) h₁ l₂ r h' := by
  obtain ⟨delay, h₁, l₁, l₂, rfl, hsample, hr⟩ | ⟨why, rfl, hsample⟩ := trail_bind hr
  · obtain ⟨_, h₂, l₃, rfl, hsleep, hr⟩ := trail_call_bind hr
    have hslept := (delayAfter_ok hdelay hsample).1
    have hkept : Has k h₁ := by
      refine hsample.invariant (asks_waits_delayAfter p made c) ?_ hk
      exact fun _ _ _ _ hq hi ha => ho.still hi (.inl hq) ha
    refine ⟨delay, l₁ ++ [⟨.sleep delay, ()⟩], h₂, l₃, ?_, ?_, ?_, ?_, hr⟩
    · rw [List.append_assoc, List.singleton_append]
    · exact (Waited.of_trail (asks_waits_delayAfter p made c) hsample).append
        (.cons trivial hsleep .nil)
    · rw [slept_append, hslept]
      rfl
    · exact ho.still (q := .sleep delay) hkept (.inl trivial) hsleep
  · obtain ⟨_, _, hok⟩ := delayAfter_ok hdelay hsample
    cases hok

/-- One attempt ends it all, or one that failed is followed by a wait and by the others. -/
theorem attempts_step {p : Policy} (hdelay : ∀ k x, Sampled E x → p.backoff? k x ≠ none)
    {left made : Nat} {bound : Duration} {delays : List Duration}
    {r : Except Halt (Except GivenUp Json)} (hmade : made + 1 < UInt32.size) (hk : Has k h)
    (hr : Trail E (attempts b p left made bound delays) h l r h') :
    (∃ out trials refused, r = .ok out ∧
      Account E b p left made delays h l out trials refused h' ∧
      ∀ v, out = .ok v → ∃ k', Has k' h' ∧ k'.circuit = .closed ∧ k'.failures = 0) ∨
    ∃ left' t e l₁ h₁ l₂ h₂ l₃ k₁ delay bound', left = left' + 1 ∧ l = l₁ ++ (l₂ ++ l₃) ∧
      Held E b t h l₁ h₁ ∧ t.result = .error e ∧ p.Mends e ∧
      Waited E h₁ l₂ h₂ ∧ slept l₂ = [delay] ∧ Has k₁ h₂ ∧
      Trail E (attempts b p left' (made + 1) bound' (delays ++ [delay])) h₂ l₃ r h' := by
  unfold attempts at hr
  obtain ⟨o, h₁, l₁, l₂, rfl, htry, hr⟩ | ⟨why, rfl, htry⟩ := trail_bind hr
  · obtain ⟨hnone, hrefused, _⟩ | ⟨t, hsome, hheld, k₁, hk₁, hclosed⟩ :=
      tryOnce_account ho hpos hmade hk htry
    · cases hnone
      obtain ⟨rfl, rfl, rfl⟩ := trail_pure hr
      rw [List.append_nil]
      exact .inl ⟨_, [], true, rfl, .of_refused hrefused, fun _ hv => by cases hv⟩
    cases hsome
    cases hresult : t.result with
    | ok v =>
      rw [hresult] at hr
      obtain ⟨rfl, rfl, rfl⟩ := trail_pure hr
      rw [List.append_nil]
      refine .inl ⟨_, [t], false, rfl, .of_held hheld ?_ (fun _ hg => by cases hg), ?_⟩
      · rintro _ ⟨⟩
        exact hresult
      · exact fun _ _ => ⟨k₁, hk₁, hclosed v hresult⟩
    | error e =>
      rw [hresult] at hr
      have hlast : Account E b p left made delays h l₁
          (.error ⟨b.dependency, e, classify e, made + 1, delays⟩) [t] false h₁ := by
        refine .of_held hheld (fun _ hv => by cases hv) ?_
        rintro g ⟨⟩
        exact ⟨rfl, hresult⟩
      cases left with
      | zero =>
        obtain ⟨rfl, rfl, rfl⟩ := trail_pure hr
        rw [List.append_nil]
        exact .inl ⟨_, [t], false, rfl, hlast, fun _ hv => by cases hv⟩
      | succ left =>
        dsimp only at hr
        split at hr
        · rename_i hmends
          obtain ⟨delay, l₃, h₂, l₄, rfl, hwaited, hslept, hk₂, hr⟩ :=
            retry_account ho hdelay hk₁ hr
          exact .inr ⟨left, t, e, l₁, h₁, l₃, h₂, l₄, k₁, delay, _, rfl, rfl, hheld, hresult,
            Bool.and_eq_true_iff.1 hmends, hwaited, hslept, hk₂, hr⟩
        · obtain ⟨rfl, rfl, rfl⟩ := trail_pure hr
          rw [List.append_nil]
          exact .inl ⟨_, [t], false, rfl, hlast, fun _ hv => by cases hv⟩
  · obtain ⟨hnone, _⟩ | ⟨_, hsome, _⟩ := tryOnce_account ho hpos hmade hk htry
    · cases hnone
    · cases hsome

/-- By induction on the retries that are left. -/
theorem attempts_account {p : Policy} (hdelay : ∀ k x, Sampled E x → p.backoff? k x ≠ none)
    {left made : Nat} {bound : Duration} {delays : List Duration}
    {r : Except Halt (Except GivenUp Json)} (hsize : made + left + 1 < UInt32.size) (hk : Has k h)
    (hr : Trail E (attempts b p left made bound delays) h l r h') :
    ∃ out trials refused, r = .ok out ∧
      Account E b p left made delays h l out trials refused h' ∧
      ∀ v, out = .ok v → ∃ k', Has k' h' ∧ k'.circuit = .closed ∧ k'.failures = 0 := by
  induction left generalizing made bound delays h l k with
  | zero =>
    obtain hend | ⟨left', _, _, _, _, _, _, _, _, _, _, hleft, _⟩ :=
      attempts_step ho hpos hdelay (by omega) hk hr
    · exact hend
    · cases hleft
  | succ left ih =>
    obtain hend | ⟨left', t, e, l₁, h₁, l₂, h₂, l₃, k₁, delay, bound', hleft, rfl, hheld, hresult,
        hmends, hwaited, hslept, hk₁, hrest⟩ := attempts_step ho hpos hdelay (by omega) hk hr
    · exact hend
    · cases hleft
      obtain ⟨out, trials, refused, hout, haccount, hclosed⟩ := ih (by omega) hk₁ hrest
      exact ⟨out, t :: trials, refused, hout,
        .cons hheld hresult hmends hwaited hslept haccount, hclosed⟩

end Attempts

theorem sampled_alone {d : Dependency} {others outages : Registry.Request → Prop} {x : Float}
    (h : Sampled (Alone d others outages) x) : x = 0.0 ∨ (0.0 ≤ x ∧ x ≤ 1.0) := by
  obtain hzero | ⟨_, _, hx, _⟩ := h
  · exact .inl hzero
  · exact .inr hx.1

theorem check_touchy : touchy.check = .ok () := by
  have hfaults : touchy.faults = [] := by decide +kernel
  rw [Settings.check, hfaults]

end Retry
end WorkerGuard
