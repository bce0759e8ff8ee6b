import WorkerGuard.Proofs.Task.Spared
import WorkerGuard.Proofs.Task.Value

/-!
# WorkerGuard.Proofs.Task.Stopped

What becomes of calls, requests and tasks when an operator comes to hold their dependency open.

* `Withheld E d Forced x`: while `d` is held open, the program `x` does not go to it, and registers
  no worker for it.
* `Standing.stopped`: a task that was in progress has nothing left to do but to be given up.
* `InFlight`: a call that was under way when the operator came.
* `override_stops`: all of it, and that a task is completed then with the value of such a call, or
  not at all.
-/

namespace WorkerGuard

open Breaker Failure Program Simulation

namespace Task

variable {s : Settings} {limits : Limits} {c c' : Course} {a : Action} {e : Event}

theorem afterFailure_of_opened {report : Report} (h : report.breaker = .opened) (limits : Limits) :
    ∃ reason, afterFailure report limits = giveUp reason := by
  have hdecide : ∃ reason, decide report limits = .degrade reason := by
    unfold decide
    split
    · exact ⟨_, rfl⟩
    · rw [if_pos (by rw [h]; nofun)]
      exact ⟨_, rfl⟩
  obtain ⟨reason, hreason⟩ := hdecide
  exact ⟨reason, by rw [afterFailure, hreason]⟩

/-- After such a round, in whatever state. -/
theorem Course.after_of_opened {report : Report} (hq : c.queue = [])
    (hdue : (Action.runRound report.round).Belongs c.state) (h : report.breaker = .opened) :
    ∃ reason, (c.after (.roundFailed report) limits).queue = [.writeDegrade reason] := by
  obtain ⟨reason, hreason⟩ := afterFailure_of_opened h limits
  refine ⟨reason, ?_⟩
  have hafter : transition c.state (.roundFailed report) limits = afterFailure report limits := by
    cases hstate : c.state with
    | running r => rfl
    | retryingLocal r => rfl
    | _ => rw [hstate] at hdue; cases hdue
  rw [Course.after_queue, hq, hafter, hreason]
  rfl

/-- There is more to do than to write down why the task is given up, only after a round that failed
and after a request that was granted. -/
theorem ActionStep.writes (h : ActionStep limits c a e c') :
    c'.queue = [] ∨ (∃ reason, c'.queue = [.writeDegrade reason]) ∨
      (∃ report, e = .roundFailed report) ∨
        ∃ kind id, a = .requestSpawn kind ∧ e = .spawnGranted id := by
  cases h with
  | gaveUp => exact .inr (.inl ⟨_, rfl⟩)
  | refused => exact .inr (.inl ⟨_, rfl⟩)
  | unhelped => exact .inr (.inl ⟨_, rfl⟩)
  | retried => exact .inr (.inr (.inl ⟨_, rfl⟩))
  | asked => exact .inr (.inr (.inl ⟨_, rfl⟩))
  | granted => exact .inr (.inr (.inr ⟨_, _, rfl, rfl⟩))
  | _ => exact .inl rfl

theorem asks_brief_requestSpawn {d : Dependency} {run : Worker → Program Outcome} {task : Task}
    {w : Worker} {started : Instant} (kind : RetryableKind) (c : Course) :
    (perform s task run w started (.requestSpawn kind) c).Asks (Call.Brief d) := by
  refine asks_bind (Spawn.asks_brief_request _ _ d) fun r => ?_
  split <;> exact asks_pure _

end Task

section Stop

variable {σ α : Type} {E : Environment σ} {d : Dependency} {Forced : σ → Prop}

/-- Wherever it began, and whatever it comes to while `d` is held open. -/
def Withheld (E : Environment σ) (d : Dependency) (Forced : σ → Prop) (x : Program α) : Prop :=
  ∀ ⦃h : σ⦄ ⦃l : List Exchange⦄ ⦃q : Call⦄ ⦃next : q.Answer → Program α⦄ ⦃h' : σ⦄,
    Passage E x h l (.ask q next) h' → Forced h' → ¬q.Engages d

theorem withheld_of_heeds {x : Program α} {Q : α → σ → Prop}
    (hx : ∀ h, x.Heeds E (Spares d Forced) Q h) : Withheld E d Forced x :=
  fun _ _ _ _ _ hp => ((hx _).passage hp).1

/-- On its way, the program called `d`. An operator came to hold `d` open before the call returned
with `v`, and nothing that takes its time was called after it. -/
def InFlight (E : Environment σ) (d : Dependency) (Forced : σ → Prop) (x : Program α) (h : σ)
    (l : List Exchange) (r : Except Halt α) (h' : σ) (v : Json) : Prop :=
  ∃ l₁ bound next h₁ h₂ l₂, l = l₁ ++ ⟨.attempt d bound, .returned (.ok v)⟩ :: l₂ ∧
    Passage E x h l₁ (.ask (.attempt d bound) next) h₁ ∧ ¬Forced h₁ ∧
    E h₁ (.attempt d bound) (.returned (.ok v)) h₂ ∧ Forced h₂ ∧
    Trail E (next (.returned (.ok v))) h₂ l₂ r h' ∧ ∀ e ∈ l₂, e.call.Brief d

variable {s : Settings} {task : Task} {w : Worker} {H h : σ}
variable {others outages : Registry.Request → Prop} {store : σ → Simulation.Store}
variable {stack : List Task.Head} {es : List (Task.Entry σ)}
variable (hs : Stop E d Forced)
include hs

theorem Stop.stepped_of_failed {hd : Task.Head} {a : Task.Action} {queue : List Task.Action}
    {run : Worker → Program Task.Outcome} {report : Task.Report} {c : Task.Course} {h' : σ}
    {l : List Exchange} (hdue : hd.course.Due a) (hq : hd.course.queue = a :: queue)
    (hdep : hd.worker.dependency = d)
    (hp : Trail E (Task.perform s task run hd.worker hd.started a { hd.course with queue }) h l
      (.ok (.roundFailed report, c)) h') (hnow : Forced h') :
    ∃ reason, (hd.stepped s a (.roundFailed report) c).course.queue = [.writeDegrade reason] := by
  have hperformed := hp.returns (Task.returns_perform _ _ _ _ _) rfl
  obtain ⟨rfl, _⟩ := hperformed.failed report rfl
  have hopened : report.breaker = .opened :=
    (hs.heeds_runRound hd.worker hd.started report.round _ h).trail hp hdep hnow report rfl
  obtain rfl : queue = [] := by
    rw [hdue.1] at hq
    exact (List.cons.inj hq).2.symm
  have hbelongs : (Task.Action.runRound report.round).Belongs c.state := hperformed.state ▸ hdue.2
  exact Task.Course.after_of_opened hperformed.queue hbelongs hopened

variable (hE : ∀ h q a h', E h q a h' → Served others outages (store h) q a (store h'))
include hE

/-- At every standing with `d` held open the innermost worker has to write down that he gives the
task up, or nothing at all; but for a run that has only just begun. -/
theorem Stop.standing (hdep : w.dependency = d) (hstands : Task.Standing E s task w H stack es h)
    (hnow : Forced h) : ∀ hd below, stack = hd :: below → ∀ a queue, hd.course.queue = a :: queue →
      (∃ reason, a = .writeDegrade reason) ∨
        hd.course = Task.opening ∧ ∃ t, es = [.began w [⟨.now, t⟩]] := by
  induction hstands with
  | start ha =>
    rintro _ _ ⟨⟩ a queue hq
    exact .inr ⟨rfl, _, rfl⟩
  | @step hd below es h h' a queue e c l hstands hq hx hp ih =>
    rintro _ _ ⟨⟩ a' queue' hq'
    have hagrees := hstands.agrees hd (List.mem_cons_self ..)
    have hdue := (hagrees.due_of_queue hq hx).1
    have hstep := hagrees.step hq hx hp
    obtain hnil | ⟨reason, hreason⟩ | ⟨report, rfl⟩ | ⟨kind, id, rfl, rfl⟩ := hstep.writes
    · rw [hnil] at hq'
      cases hq'
    · rw [hreason] at hq'
      cases hq'
      exact .inl ⟨reason, rfl⟩
    · have hworker := (hstands.dependency hE hd (List.mem_cons_self ..)).trans hdep
      obtain ⟨reason, hreason⟩ := hs.stepped_of_failed hdue hq hworker hp hnow
      rw [hreason] at hq'
      cases hq'
      exact .inl ⟨reason, rfl⟩
    · -- Nobody came in the midst of the request, so that it was not even due.
      have hbefore := hs.before_trail hp (hp.asks (Task.asks_brief_requestSpawn kind _)) hnow
      obtain ⟨_, hdegrade⟩ | ⟨hopening, _⟩ := ih hbefore hd below rfl _ _ hq
      · cases hdegrade
      · rw [hopening] at hq
        cases hq
  | @helper hd below es h h' x queue n t hstands hx hn ha ih =>
    have hbefore := hs.before (q := .now) ⟨id, nofun⟩ ha hnow
    obtain ⟨_, hdegrade⟩ | ⟨hopening, _⟩ := ih hbefore hd below rfl _ _ hx.1
    · cases hdegrade
    · have hqueue := hx.1
      rw [hopening] at hqueue
      cases hqueue
  | @back hd parent below es h h' queue o l hstands hq hx hp ih =>
    rintro _ _ ⟨⟩ a' queue' hq'
    have hstep := (hstands.agrees parent (by simp)).rejoin (s := s) hx o
    obtain hnil | ⟨reason, hreason⟩ | ⟨report, hevent⟩ | ⟨_, _, hrequest, _⟩ := hstep.writes
    · rw [hnil] at hq'
      cases hq'
    · rw [hreason] at hq'
      cases hq'
      exact .inl ⟨reason, rfl⟩
    · exact absurd hevent (o.event_ne report)
    · cases hrequest
  | finished _ _ _ _ => rintro _ _ ⟨⟩

theorem Stop.inFlight (hdep : w.dependency = d) {l : List Exchange} {v : Json} {h' : σ}
    (hr : Trail E (Task.run s task w) h l (.ok (.completed v)) h') (hnow : Forced h') :
    InFlight E d Forced (Task.run s task w) h l (.ok (.completed v)) h' v := by
  subst hdep
  obtain ⟨l₁, bound, l₂, rfl, hbrief⟩ := Task.answered_run hE hr
  obtain ⟨next, h₁, h₂, hp, hcall, hrest⟩ := hr.split
  refine ⟨l₁, bound, next, h₁, h₂, l₂, rfl, hp, fun hforced => ?_, hcall, ?_, hrest, hbrief⟩
  · exact withheld_of_heeds (hs.heeds_runFor _ w) hp hforced rfl
  · exact hs.before_trail hrest hbrief hnow

end Stop

/-- The operator comes while a call to `d` is under way, and the outcome of the call is this. -/
def interrupted (outcome : Attempt) (d : Dependency) (h : World × Bool) :
    (q : Call) → q.Answer × (World × Bool)
  | .attempt .. => (outcome, (h.1, true))
  | .forced _ => (h.2, h)
  | .allForced => (if h.2 then [d] else [], h)
  | .setForced d' forced => ((), (h.1, if d' = d then forced else h.2))
  | q =>
    let next := h.1.serve (Call.calm .epoch ⟨"w-2"⟩) d q
    (next.1, (next.2, h.2))

theorem overseen_interrupted {others outages : Registry.Request → Prop} (outcome : Attempt)
    (d : Dependency) (h : World × Bool) (q : Call) :
    Overseen d others outages h q (interrupted outcome d h q).1 (interrupted outcome d h q).2 := by
  cases q with
  | attempt d' bound => exact ⟨⟨.refl _ _, rfl⟩, trivial⟩
  | sleep t => exact ⟨⟨.refl _ _, rfl⟩, trivial⟩
  | forced d' => exact ⟨⟨.refl _ _, rfl⟩, fun _ => rfl, id⟩
  | allForced =>
    refine ⟨⟨.refl _ _, rfl⟩, ?_, id⟩
    cases hforced : h.2 <;> simp [interrupted, hforced]
  | setForced d' forced =>
    refine ⟨⟨.refl _ _, rfl⟩, fun hnext => ?_⟩
    by_cases hd : d' = d
    · simpa [interrupted, hd] using hnext
    · simpa [interrupted, hd] using hnext
  | _ => exact ⟨alone_serve (Call.calm .epoch ⟨"w-2"⟩) h.1 _, id⟩

/-- One worker, a breaker without failures, and no operator yet. -/
def untouched : World × Bool := (⟨Task.lonely.store, encode .fresh, 0⟩, false)

end WorkerGuard
