import WorkerGuard.Proofs.Breaker.Override
import WorkerGuard.Proofs.Task.Keeping

/-!
# WorkerGuard.Proofs.Task.Value

Where the value of a completed task comes from.

* `Answered d v l`: a call to `d` with the value `v` for its result is among the exchanges `l`, and
  the calls after it are brief.
* `answered_execute`: that is so of every call with its retries that has a value.
* `Standing.answered`: it is so at every standing of a run whose innermost loop has completed the
  task.
* `answered_run`: the value with which a run ends, be it by a helper, is the result of its last
  call.
-/

namespace WorkerGuard

open Breaker Failure Program Simulation

def Answered (d : Dependency) (v : Json) (l : List Exchange) : Prop :=
  ∃ l₁ bound l₂, l = l₁ ++ ⟨.attempt d bound, .returned (.ok v)⟩ :: l₂ ∧ ∀ e ∈ l₂, e.call.Brief d

section Answered

variable {d : Dependency} {v : Json} {l l' : List Exchange}

theorem Answered.prepend (h : Answered d v l) (l' : List Exchange) : Answered d v (l' ++ l) := by
  obtain ⟨l₁, bound, l₂, rfl, hlast⟩ := h
  exact ⟨l' ++ l₁, bound, l₂, (List.append_assoc ..).symm, hlast⟩

theorem Answered.append (h : Answered d v l) (hl : ∀ e ∈ l', e.call.Brief d) :
    Answered d v (l ++ l') := by
  obtain ⟨l₁, bound, l₂, rfl, hlast⟩ := h
  refine ⟨l₁, bound, l₂ ++ l', by rw [List.append_assoc, List.cons_append], fun e he => ?_⟩
  obtain he | he := List.mem_append.1 he
  · exact hlast e he
  · exact hl e he

end Answered

variable {σ : Type} {E : Environment σ} {v : Json} {h h' : σ} {l : List Exchange}

namespace Retry

variable {b : Breaker} {p : Policy}

theorem answered_tryOnce {bound : Duration} {made : Nat}
    (hr : Trail E (tryOnce b bound made) h l (.ok (some (.ok v))) h') :
    Answered b.dependency v l := by
  obtain ⟨allowed, h₁, l₁, l₂, rfl, _, hr⟩ := trail_bind_ok hr
  split at hr
  · obtain ⟨outcome, h₂, l₃, rfl, _, hr⟩ := trail_call_bind hr
    split at hr
    · cases (trail_halt hr).2.1
    · split at hr
      · obtain ⟨_, h₃, l₄, l₅, rfl, hreport, hr⟩ := trail_bind_ok hr
        obtain ⟨rfl, hok, _⟩ := trail_pure hr
        cases hok
        refine ⟨l₁, bound, l₄ ++ [], rfl, fun e he => ?_⟩
        rw [List.append_nil] at he
        exact (hreport.asks b.asks_recordSuccess e he).only.brief (by decide)
      · obtain ⟨_, _, _, _, _, _, hr⟩ := trail_bind_ok hr
        cases (trail_pure hr).2.1
      · obtain ⟨_, _, _, _, _, _, hr⟩ := trail_bind_ok hr
        cases (trail_pure hr).2.1
  · cases (trail_pure hr).2.1

/-- By induction on the retries that are left. -/
theorem answered_attempts {left made : Nat} {bound : Duration} {delays : List Duration}
    (hr : Trail E (attempts b p left made bound delays) h l (.ok (.ok v)) h') :
    Answered b.dependency v l := by
  induction left generalizing made bound delays h l with
  | zero =>
    unfold attempts at hr
    obtain ⟨o, h₁, l₁, l₂, rfl, htry, hr⟩ := trail_bind_ok hr
    split at hr
    · cases (trail_pure hr).2.1
    · obtain ⟨rfl, hok, _⟩ := trail_pure hr
      cases hok
      rw [List.append_nil]
      exact answered_tryOnce htry
    · cases (trail_pure hr).2.1
  | succ left ih =>
    unfold attempts at hr
    obtain ⟨o, h₁, l₁, l₂, rfl, htry, hr⟩ := trail_bind_ok hr
    split at hr
    · cases (trail_pure hr).2.1
    · obtain ⟨rfl, hok, _⟩ := trail_pure hr
      cases hok
      rw [List.append_nil]
      exact answered_tryOnce htry
    · dsimp only at hr
      split at hr
      · obtain ⟨delay, h₂, l₃, l₄, rfl, _, hr⟩ := trail_bind_ok hr
        obtain ⟨_, h₃, l₅, rfl, _, hr⟩ := trail_call_bind hr
        have hsleep := (ih hr).prepend [⟨.sleep delay, ()⟩]
        exact (hsleep.prepend l₃).prepend l₁
      · cases (trail_pure hr).2.1

theorem answered_execute {board : Board} {d : Dependency}
    (hr : Trail E (execute board d p) h l (.ok (.ok v)) h') : Answered d v l := by
  obtain ⟨_, h₁, l₁, rfl, _, hr⟩ := trail_call_bind hr
  exact (answered_attempts hr).prepend [_]

end Retry

namespace Task

variable {s : Settings} {task : Task} {w : Worker} {H : σ} {c c' : Course}

theorem answered_runRound {started : Instant} {round : UInt32}
    (hr : Trail E (runRound s w started round c) h l (.ok (.roundSucceeded, c')) h') :
    ∃ v, c'.value = some v ∧ Answered w.dependency v l := by
  obtain ⟨alive, h₁, l₁, l₂, rfl, _, hr⟩ := trail_bind_ok hr
  split at hr
  · obtain ⟨result, h₂, l₃, l₄, rfl, hexecute, hr⟩ := trail_bind_ok hr
    split at hr
    · rename_i v
      obtain ⟨rfl, hok, _⟩ := trail_pure hr
      cases hok
      rw [List.append_nil]
      exact ⟨v, rfl, (Retry.answered_execute hexecute).prepend l₁⟩
    · obtain ⟨_, _, _, _, _, _, hr⟩ := trail_bind_ok hr
      obtain ⟨_, _, _, _, _, hr⟩ := trail_call_bind hr
      cases (trail_pure hr).2.1
  · cases (trail_pure hr).2.1

theorem completed_of_finish (hr : Trail E (finish s w c) h l (.ok (.completed v)) h') :
    c.state = .completed ∧ c.value = some v := by
  unfold finish at hr
  split at hr
  · rename_i hstate
    obtain ⟨_, _, _, _, _, _, hr⟩ := trail_bind_ok hr
    split at hr
    · rename_i hvalue
      cases (trail_pure hr).2.1
      exact ⟨hstate, hvalue⟩
    · cases (trail_pure hr).2.1
  · obtain ⟨_, _, _, _, _, _, hr⟩ := trail_bind_ok hr
    obtain ⟨_, _, _, _, _, _, hr⟩ := trail_bind_ok hr
    cases (trail_pure hr).2.1
  · obtain ⟨_, _, _, _, _, _, hr⟩ := trail_bind_ok hr
    cases (trail_pure hr).2.1
  · cases (trail_pure hr).2.1

/-- By a round, or by a helper. -/
theorem ActionStep.of_completed {limits : Limits} {a : Action} {e : Event}
    (h : ActionStep limits c a e c') (hdone : c'.state = .completed) :
    (∃ round, a = .runRound round ∧ e = .roundSucceeded) ∨
      ∃ id, a = .runHelper id ∧ e = .helperFinished true "" := by
  cases h with
  | succeeded hdue => exact .inl ⟨_, rfl, rfl⟩
  | helped hdue => exact .inr ⟨_, rfl, rfl⟩
  | _ => cases hdone

theorem Outcome.completed_of_event {o : Outcome} (h : o.event = .helperFinished true "") :
    ∃ v, o = .completed v := by
  cases o with
  | completed v => exact ⟨v, rfl⟩
  | degraded reason alert => cases h
  | failed error => cases h

section Standing

variable {others outages : Registry.Request → Prop} {store : σ → Store}
variable {stack : List Head} {es : List (Entry σ)}
variable (hE : ∀ h q a h', E h q a h' → Served others outages (store h) q a (store h'))
include hE

/-- A round made the call, or a helper did; and all that is done after it is brief. -/
theorem Standing.answered (hs : Standing E s task w H stack es h) :
    ∀ hd below, stack = hd :: below → hd.course.state = .completed →
      ∃ v, hd.course.value = some v ∧ Answered w.dependency v (calls es) := by
  induction hs with
  | start ha =>
    rintro hd below ⟨⟩ hdone
    cases hdone
  | @step hd below es h h' a queue e c l hs hq hx hp ih =>
    rintro _ _ ⟨⟩ hdone
    have hagrees := hs.agrees hd (List.mem_cons_self ..)
    obtain ⟨round, rfl, rfl⟩ | ⟨id, rfl, _⟩ := (hagrees.step hq hx hp).of_completed hdone
    · obtain ⟨v, hv, hanswered⟩ := answered_runRound hp
      rw [hs.dependency hE hd (List.mem_cons_self ..)] at hanswered
      exact ⟨v, hv, by simpa [Entry.exchanges] using hanswered.prepend (calls es)⟩
    · exact absurd rfl ((hagrees.due_of_queue hq hx).2 id)
  | helper hs hx hn ha ih =>
    rintro hd below ⟨⟩ hdone
    cases hdone
  | @back hd parent below es h h' queue o l hs hq hx hp ih =>
    rintro _ _ ⟨⟩ hdone
    have hagrees := hs.agrees parent (by simp)
    obtain ⟨_, hround, _⟩ | ⟨_, _, hevent⟩ := (hagrees.rejoin hx o).of_completed hdone
    · cases hround
    · obtain ⟨v, rfl⟩ := Outcome.completed_of_event hevent
      obtain ⟨hchild, hvalue⟩ := completed_of_finish hp
      obtain ⟨v', hv', hanswered⟩ := ih hd _ rfl hchild
      obtain rfl : v = v' := Option.some.inj (hvalue.symm.trans hv')
      have hlast := hanswered.append fun e he => (hp.asks (asks_finish s _ _) e he).only.brief (by decide)
      exact ⟨v, rfl, by simpa [Entry.exchanges] using hlast⟩
  | finished _ _ _ _ => rintro hd below ⟨⟩

theorem answered_run (hr : Trail E (run s task w) h l (.ok (.completed v)) h') :
    Answered w.dependency v l := by
  obtain ⟨o, es, before, l', hok, hs, rfl⟩ | ⟨_, _, _, _, _, _, hwhy, _⟩ := run_stands hr
  · cases hok
    generalize hes : es ++ [Entry.ended w (.completed v) before l'] = all at hs
    generalize hstack : ([] : List Head) = stack at hs
    cases hs with
    | @finished hd es₁ h₁ h' o l₁ hs hq hp =>
      obtain ⟨rfl, hlast⟩ := List.append_inj' hes rfl
      cases hlast
      obtain ⟨hstate, hvalue⟩ := completed_of_finish hp
      obtain ⟨v', hv', hanswered⟩ := hs.answered hE hd _ rfl hstate
      obtain rfl : v = v' := Option.some.inj (hvalue.symm.trans hv')
      exact hanswered.append fun e he => (hp.asks (asks_finish s _ _) e he).only.brief (by decide)
    | _ => cases hstack
  · cases hwhy

end Standing
end Task
end WorkerGuard
