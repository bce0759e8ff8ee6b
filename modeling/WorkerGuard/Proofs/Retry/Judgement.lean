import WorkerGuard.Proofs.Retry.Account

/-!
# WorkerGuard.Proofs.Retry.Judgement

The judgement on each attempt of a call with its retries, and what it decides.

* `judgement?`: the judgement on what came of an attempt, or of one that was refused; `failed?`:
  the one on a call to the dependency.
* `Tries b p … l o`: by the exchanges `l`, an attempt has just come to the outcome `o`; those
  before it failed and were tried again.
* `Tries.ends`: a judgement on which nothing is tried again ends the call.
* `tries_of_failure`: a call that failed has had the judgement that it reports.
* `tries_of_result`: every call to the dependency that failed so is such an attempt, and the last
  one.
-/

namespace WorkerGuard

open Breaker Failure Program

/-- No second try can mend a failure of these kinds. -/
def Failure.Kind.Final (k : Kind) : Prop :=
  k = .dependencyUnavailable ∨ k = .auth ∨ k = .fatal

theorem Failure.Kind.Final.retryable? {k : Kind} (h : k.Final) : k.retryable? = none := by
  obtain rfl | rfl | rfl := h
  · rfl
  · rfl
  · rfl

namespace Retry

def judgement? (d : Dependency) : Option (Except CallError Json) → Option Classification
  | none => some (classify (.circuitOpen d))
  | some (.ok _) => none
  | some (.error e) => some (classify e)

/-- The judgement on a call to the dependency. -/
def failed? : Exchange → Option Classification
  | ⟨.attempt d bound, outcome⟩ => judgement? d (some (Trial.result ⟨bound, outcome⟩))
  | _ => none

theorem exists_trial {q : Exchange} {c : Classification} (h : failed? q = some c) :
    ∃ d, ∃ t : Trial, ∃ e, q = ⟨.attempt d t.bound, t.outcome⟩ ∧ t.result = .error e ∧
      classify e = c := by
  obtain ⟨q, outcome⟩ := q
  cases q with
  | attempt d bound =>
    cases ht : Trial.result ⟨bound, outcome⟩ with
    | ok v =>
      rw [failed?, ht] at h
      cases h
    | error e =>
      rw [failed?, ht] at h
      exact ⟨d, ⟨bound, outcome⟩, e, rfl, ht, Option.some.inj h⟩
  | _ => cases h

/-- On such a judgement nothing is tried again. -/
def Policy.Rests (p : Policy) (c : Classification) : Prop :=
  ¬(c.retryable = true ∧ p.retries c.kind = true)

theorem Policy.rests_of_retries {p : Policy} {c : Classification} (h : p.retries c.kind = false) :
    p.Rests c := by
  rintro ⟨_, hretries⟩
  rw [h] at hretries
  cases hretries

theorem Policy.rests_of_final {c : Classification} (h : c.kind.Final) (p : Policy) : p.Rests c := by
  refine rests_of_retries ?_
  rw [Policy.retries, h.retryable?]
  rfl

inductive Tries (b : Breaker) (p : Policy) : (left made : Nat) → Duration → List Duration →
    List Exchange → Option (Except CallError Json) → Prop where
  | last {left made : Nat} {bound : Duration} {delays : List Duration} {l : List Exchange}
      {o : Option (Except CallError Json)} (ht : Path (tryOnce b bound made) l (.done o)) :
      Tries b p left made bound delays l o
  | again {left made : Nat} {bound delay : Duration} {delays : List Duration}
      {l₁ l₂ l₃ : List Exchange} {e : CallError} {o : Option (Except CallError Json)}
      (ht : Path (tryOnce b bound made) l₁ (.done (some (.error e)))) (hm : p.Mends e)
      (hd : Path (delayAfter p made (classify e)) l₂ (.done delay))
      (hrest : Tries b p left (made + 1)
        (if (classify e).kind = .timeout then p.grown bound else bound) (delays ++ [delay]) l₃ o) :
      Tries b p (left + 1) made bound delays (l₁ ++ (l₂ ++ ⟨.sleep delay, ()⟩ :: l₃)) o

section Tries

variable {σ : Type} {E : Environment σ} {b : Breaker} {p : Policy} {left made : Nat}
variable {bound : Duration} {delays : List Duration} {l l' : List Exchange} {h h' : σ}
variable {o : Option (Except CallError Json)} {r : Except Halt (Except GivenUp Json)}

theorem Tries.ends (ht : Tries b p left made bound delays l o) {c : Classification}
    (hc : judgement? b.dependency o = some c) (hrests : p.Rests c) :
    ∃ g : GivenUp, Path (attempts b p left made bound delays) l (.done (.error g)) ∧
      g.classification = c := by
  induction ht with
  | @last left made bound delays l o ht =>
    obtain _ | (e | v) := o
    · cases hc
      refine ⟨⟨b.dependency, .circuitOpen b.dependency, _, made, delays⟩, ?_, rfl⟩
      rw [← List.append_nil l]
      unfold attempts
      exact ht.bind .refl
    · cases hc
      refine ⟨⟨b.dependency, e, classify e, made + 1, delays⟩, ?_, rfl⟩
      rw [← List.append_nil l]
      unfold attempts
      refine ht.bind ?_
      cases left with
      | zero => exact .refl
      | succ left =>
        dsimp only
        rw [if_neg (by rw [Bool.and_eq_true]; exact hrests)]
        exact .refl
    · cases hc
  | @again left made bound delay delays l₁ l₂ l₃ e o ht hm hd _ ih =>
    obtain ⟨g, hg, hclass⟩ := ih hc
    refine ⟨g, ?_, hclass⟩
    unfold attempts
    refine ht.bind ?_
    dsimp only
    rw [if_pos (by rw [Bool.and_eq_true]; exact hm)]
    have hsleep := Path.call (q := .sleep delay) ()
    exact hd.bind (hsleep.bind hg)

/-- The breaker is told, and then the outcome is there. -/
theorem told_outcome {x : Program Unit} (hx : x.Asks (Call.OfBreaker b.dependency))
    {o : Option (Except CallError Json)} {r : Except Halt (Option (Except CallError Json))}
    (hr : Trail E (x >>= fun _ => pure o) h l r h') :
    (∀ q ∈ l, q.call.OfBreaker b.dependency) ∧ ∀ o', r = .ok o' → o' = o :=
  ⟨hr.asks (asks_bind hx fun _ => asks_pure _),
    fun _ => hr.returns (P := fun o' => o' = o) (returns_of_next fun _ => returns_pure rfl)⟩

/-- What comes of a call that was let pass is its result, as long as the breaker is told. -/
theorem tryOnce_result {l₁ l₂ : List Exchange} {d : Dependency} {t : Trial}
    {r : Except Halt (Option (Except CallError Json))} (hr : Trail E (tryOnce b bound made) h
      (l₁ ++ ⟨.attempt d t.bound, t.outcome⟩ :: l₂) r h') :
    (∀ q ∈ l₂, q.call.OfBreaker b.dependency) ∧ ∀ o, r = .ok o → o = some t.result := by
  obtain ⟨allowed, h₁, l₃, l₄, rfl, hallow, hr⟩ := hr.bind_later b.asks_allow id
  cases allowed with
  | false =>
    obtain ⟨hnil, _⟩ := trail_pure hr
    simp at hnil
  | true =>
    obtain ⟨outcome, h₂, l₅, hl, _, hr⟩ := trail_call_bind hr
    have hafter : (∀ q ∈ l₅, q.call.OfBreaker b.dependency) ∧ ∀ o, r = .ok o →
        o = some (Trial.mk bound outcome).result := by
      split at hr
      · obtain ⟨rfl, rfl, _⟩ := trail_halt hr
        exact ⟨List.forall_mem_nil _, nofun⟩
      · split at hr
        · exact told_outcome b.asks_recordSuccess hr
        · exact told_outcome b.asks_recordFailure hr
        · exact told_outcome b.asks_recordFailure hr
    obtain ⟨rfl, hcall⟩ | ⟨l₆, rfl, rfl⟩ := List.append_eq_cons_iff.1 hl
    · cases hcall
      exact hafter
    · exact absurd (hafter.1 ⟨.attempt d t.bound, t.outcome⟩ (by simp)) id

/-- What comes after a failure that is tried again. -/
def resumption (b : Breaker) (p : Policy) (left made : Nat) (bound : Duration)
    (delays : List Duration) (e : CallError) : Program (Except GivenUp Json) := do
  let delay ← delayAfter p made (classify e)
  Program.call (.sleep delay)
  attempts b p left (made + 1) (if (classify e).kind = .timeout then p.grown bound else bound)
    (delays ++ [delay])

/-- A call ends with what came of this attempt. -/
def Settles (d : Dependency) (r₁ : Except Halt (Option (Except CallError Json)))
    (r : Except Halt (Except GivenUp Json)) : Prop :=
  ∀ out, r = .ok out → ∃ o, r₁ = .ok o ∧
    ∀ g, out = .error g → judgement? d o = some g.classification

/-- The first attempt is the last one, or it failed and is tried again. -/
theorem attempts_cases (hr : Trail E (attempts b p left made bound delays) h l r h') :
    (∃ r₁, Trail E (tryOnce b bound made) h l r₁ h' ∧ Settles b.dependency r₁ r) ∨
      ∃ left' e l₁ l₂ h₁, left = left' + 1 ∧ l = l₁ ++ l₂ ∧
        Trail E (tryOnce b bound made) h l₁ (.ok (some (.error e))) h₁ ∧ p.Mends e ∧
        Trail E (resumption b p left' made bound delays e) h₁ l₂ r h' := by
  unfold attempts at hr
  obtain ⟨o, h₁, l₁, l₂, rfl, htry, hr⟩ | ⟨why, rfl, htry⟩ := trail_bind hr
  · have hstops : ∀ {out : Except GivenUp Json}, Trail E (pure out) h₁ l₂ r h' →
        (∀ g, out = .error g → judgement? b.dependency o = some g.classification) →
        ∃ r₁, Trail E (tryOnce b bound made) h (l₁ ++ l₂) r₁ h' ∧ Settles b.dependency r₁ r := by
      intro out hr hjudged
      obtain ⟨rfl, rfl, rfl⟩ := trail_pure hr
      rw [List.append_nil]
      refine ⟨_, htry, fun out' hout => ⟨o, rfl, ?_⟩⟩
      cases hout
      exact hjudged
    obtain _ | (e | v) := o
    · exact .inl (hstops hr fun g hg => by cases hg; rfl)
    · cases left with
      | zero => exact .inl (hstops hr fun g hg => by cases hg; rfl)
      | succ left =>
        dsimp only at hr
        split at hr
        · rename_i hmends
          exact .inr ⟨left, e, l₁, l₂, h₁, rfl, rfl, htry, Bool.and_eq_true_iff.1 hmends, hr⟩
        · exact .inl (hstops hr fun g hg => by cases hg; rfl)
    · exact .inl (hstops hr fun g hg => by cases hg)
  · exact .inl ⟨_, htry, fun _ hout => by cases hout⟩

/-- A call that failed has such an attempt for its last one. -/
theorem tries_of_failure {g : GivenUp}
    (hr : Trail E (attempts b p left made bound delays) h l (.ok (.error g)) h') :
    ∃ o, Tries b p left made bound delays l o ∧
      judgement? b.dependency o = some g.classification := by
  have hlast : ∀ {left made bound delays l h r₁}, Trail E (tryOnce b bound made) h l r₁ h' →
      Settles b.dependency r₁ (.ok (.error g)) → ∃ o, Tries b p left made bound delays l o ∧
        judgement? b.dependency o = some g.classification := by
    intro left made bound delays l h r₁ htry hsettles
    obtain ⟨o, rfl, hjudged⟩ := hsettles _ rfl
    exact ⟨o, .last htry.path, hjudged g rfl⟩
  induction left generalizing made bound delays h l with
  | zero =>
    obtain ⟨r₁, htry, hsettles⟩ | ⟨_, _, _, _, _, hleft, _⟩ := attempts_cases hr
    · exact hlast htry hsettles
    · cases hleft
  | succ left ih =>
    obtain ⟨r₁, htry, hsettles⟩ | ⟨left', e, l₁, l₂, h₁, hleft, rfl, htry, hm, hrest⟩ :=
      attempts_cases hr
    · exact hlast htry hsettles
    · cases hleft
      obtain ⟨delay, h₂, l₃, l₄, rfl, hdelay, hrest⟩ := trail_bind_ok hrest
      obtain ⟨_, h₃, l₅, rfl, _, hrest⟩ := trail_call_bind hrest
      obtain ⟨o, htries, hjudged⟩ := ih hrest
      exact ⟨o, .again htry.path hm hdelay.path htries, hjudged⟩

section Error

variable {l₁ l₂ : List Exchange} {d : Dependency} {t : Trial} {e e' : CallError}

theorem tries_of_tryOnce {r₁ : Except Halt (Option (Except CallError Json))}
    (htry : Trail E (tryOnce b bound made) h (l₁ ++ ⟨.attempt d t.bound, t.outcome⟩ :: l₂) r₁ h')
    (hsettles : Settles b.dependency r₁ r) :
    (∀ q ∈ l₂, q.call.OfBreaker b.dependency) ∧ ∀ out, r = .ok out →
      Tries b p left made bound delays (l₁ ++ ⟨.attempt d t.bound, t.outcome⟩ :: l₂)
        (some t.result) := by
  obtain ⟨hafter, hok⟩ := tryOnce_result htry
  refine ⟨hafter, fun out hout => ?_⟩
  obtain ⟨o, rfl, _⟩ := hsettles out hout
  obtain rfl := hok o rfl
  exact .last htry.path

/-- No call is made before the delay is over. -/
theorem attempt_of_resumption (hr : Trail E (resumption b p left made bound delays e') h
      (l₁ ++ ⟨.attempt d t.bound, t.outcome⟩ :: l₂) r h') :
    ∃ delay l₃ l₄ h₁, l₁ = l₃ ++ ⟨.sleep delay, ()⟩ :: l₄ ∧
      Path (delayAfter p made (classify e')) l₃ (.done delay) ∧
      Trail E (attempts b p left (made + 1)
        (if (classify e').kind = .timeout then p.grown bound else bound) (delays ++ [delay])) h₁
        (l₄ ++ ⟨.attempt d t.bound, t.outcome⟩ :: l₂) r h' := by
  obtain ⟨delay, h₁, l₃, l₄, rfl, hdelay, hr⟩ := hr.bind_later (asks_delayAfter p made _) nofun
  obtain ⟨_, h₂, l₅, hl, _, hr⟩ := trail_call_bind hr
  obtain ⟨_, hcall⟩ | ⟨l₆, rfl, rfl⟩ := List.append_eq_cons_iff.1 hl
  · cases hcall
  · exact ⟨delay, l₃, l₆, h₂, rfl, hdelay.path, hr⟩

/-- By induction on the retries that are left. -/
theorem tries_of_result (ht : t.result = .error e) (hrests : p.Rests (classify e))
    (hr : Trail E (attempts b p left made bound delays) h
      (l₁ ++ ⟨.attempt d t.bound, t.outcome⟩ :: l₂) r h') :
    (∀ q ∈ l₂, q.call.OfBreaker b.dependency) ∧ ∀ out, r = .ok out →
      Tries b p left made bound delays (l₁ ++ ⟨.attempt d t.bound, t.outcome⟩ :: l₂)
        (some (.error e)) := by
  induction left generalizing made bound delays h l₁ with
  | zero =>
    obtain ⟨r₁, htry, hsettles⟩ | ⟨_, _, _, _, _, hleft, _⟩ := attempts_cases hr
    · exact ht ▸ tries_of_tryOnce htry hsettles
    · cases hleft
  | succ left ih =>
    obtain ⟨r₁, htry, hsettles⟩ | ⟨left', e', l₃, l₄, h₁, hleft, hl, htry, hm, hr⟩ :=
      attempts_cases hr
    · exact ht ▸ tries_of_tryOnce htry hsettles
    · cases hleft
      obtain ⟨l₅, rfl, rfl⟩ | ⟨l₅, rfl, rfl⟩ := append_eq_append_cons hl.symm
      · have hsame := (tryOnce_result htry).2 _ rfl
        rw [ht] at hsame
        cases hsame
        exact absurd hm hrests
      · obtain ⟨delay, l₆, l₇, h₂, rfl, hdelay, hr⟩ := attempt_of_resumption hr
        obtain ⟨hafter, htries⟩ := ih hr
        refine ⟨hafter, fun out hout => ?_⟩
        have hagain : Tries b p (left + 1) made bound delays _ _ :=
          .again htry.path hm hdelay (htries out hout)
        simpa only [List.append_assoc, List.cons_append] using hagain

/-- First of all the handle is taken up. -/
theorem tries_of_execute {board : Board} {d' : Dependency} (ht : t.result = .error e)
    (hrests : p.Rests (classify e)) (hr : Trail E (execute board d' p) h
      (l₁ ++ ⟨.attempt d t.bound, t.outcome⟩ :: l₂) r h') :
    (∀ q ∈ l₂, q.call.OfBreaker d') ∧ ∃ l₃, l₁ = ⟨.enlist d', ()⟩ :: l₃ ∧ ∀ out, r = .ok out →
      Tries (board.breaker d') p p.maxAttempts.toNat 0 p.attemptTimeout []
        (l₃ ++ ⟨.attempt d t.bound, t.outcome⟩ :: l₂) (some (.error e)) := by
  obtain ⟨_, h₁, l₃, hl, _, hr⟩ := trail_call_bind hr
  obtain ⟨_, hcall⟩ | ⟨l₄, rfl, rfl⟩ := List.append_eq_cons_iff.1 hl
  · cases hcall
  · obtain ⟨hafter, htries⟩ := tries_of_result ht hrests hr
    exact ⟨hafter, l₄, rfl, htries⟩

end Error
end Tries
end Retry
end WorkerGuard
