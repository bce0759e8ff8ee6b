import WorkerGuard.Proofs.Spawn.Verdict
import WorkerGuard.Task.Runner

/-!
# WorkerGuard.Proofs.Task.Head

The points that a run of a task goes through, from action to action.

* `Head`: the loop of a worker as it looks for its next action, with all that came before.
* `Reaches`: the heads of a run, those of its helpers among them.
* `Performed`: what one action may do; `trail_runRound`: what the report on a failed round says.
-/

namespace WorkerGuard

open Failure Program Simulation

namespace Retry

/-- The judgement that is reported is the one on the last error. -/
theorem returns_attempts (b : Breaker) (p : Policy) (left made : Nat) (bound : Duration)
    (delays : List Duration) : (attempts b p left made bound delays).Returns fun r =>
      ∀ g, r = .error g → g.classification = classify g.error := by
  induction left generalizing made bound delays with
  | zero =>
    unfold attempts
    refine returns_of_next fun a => ?_
    split
    · refine returns_pure fun g hg => ?_
      cases hg; rfl
    · exact returns_pure (by simp)
    · refine returns_pure fun g hg => ?_
      cases hg; rfl
  | succ left ih =>
    unfold attempts
    refine returns_of_next fun a => ?_
    split
    · refine returns_pure fun g hg => ?_
      cases hg; rfl
    · exact returns_pure (by simp)
    · simp only []
      split
      · refine returns_of_next fun delay => returns_of_next fun _ => ?_
        exact ih _ _ _
      · refine returns_pure fun g hg => ?_
        cases hg; rfl

theorem returns_execute (board : Breaker.Board) (d : Dependency) (p : Policy) :
    (execute board d p).Returns fun r => ∀ g, r = .error g → g.classification = classify g.error :=
  returns_of_next fun b => returns_attempts b p _ _ _ _

end Retry

namespace Task

variable {s : Settings} {task : Task}

/-- What came of an action: the course goes on as it was, and only a round fails. -/
structure Performed (a : Action) (c : Course) (r : Event × Course) : Prop where
  state : r.2.state = c.state
  queue : r.2.queue = c.queue
  helper : ∀ x, r.2.helper = some x → c.helper = some x ∨ ∃ kind, a = .requestSpawn kind
  failed : ∀ report, r.1 = .roundFailed report → a = .runRound report.round ∧
    ∃ e, report.classification = classify e

/-- An event that is no failed round. -/
theorem performed_of_ne {a : Action} {c c' : Course} {e : Event} (hs : c'.state = c.state)
    (hq : c'.queue = c.queue)
    (hh : ∀ x, c'.helper = some x → c.helper = some x ∨ ∃ kind, a = .requestSpawn kind)
    (he : ∀ report, e ≠ .roundFailed report) : Performed a c (e, c') :=
  ⟨hs, hq, hh, fun report h => absurd h (he report)⟩

theorem returns_runRound (w : Worker) (started : Instant) (round : UInt32) (c : Course) :
    (runRound s w started round c).Returns (Performed (.runRound round) c) := by
  refine returns_of_next fun alive => ?_
  split
  · refine returns_bind (Retry.returns_execute _ _ _) fun r hr => ?_
    split
    · exact performed_of_ne rfl rfl (fun _ => .inl) (by simp)
    · rename_i g
      refine returns_of_next fun circuit => returns_of_next fun now => returns_pure ?_
      refine ⟨rfl, rfl, fun _ => .inl, fun report he => ?_⟩
      cases he
      exact ⟨rfl, g.error, hr g rfl⟩
  · exact performed_of_ne rfl rfl (fun _ => .inl) (by simp)

theorem Outcome.event_ne (o : Outcome) (report : Report) : o.event ≠ .roundFailed report := by
  cases o <;> simp [Outcome.event]

theorem returns_perform (run : Worker → Program Outcome) (w : Worker) (started : Instant)
    (a : Action) (c : Course) : (perform s task run w started a c).Returns (Performed a c) := by
  cases a with
  | runRound round => exact returns_runRound w started round c
  | requestSpawn kind =>
    refine returns_of_next fun r => ?_
    split
    · exact performed_of_ne rfl rfl (fun _ _ => .inr ⟨kind, rfl⟩) (by simp)
    · exact performed_of_ne rfl rfl (fun _ => .inl) (by simp)
    · exact performed_of_ne rfl rfl (fun _ => .inl) (by simp)
  | runHelper id =>
    unfold perform runHelper
    simp only []
    split
    · exact performed_of_ne rfl rfl (by simp) (by simp)
    · split
      · refine returns_of_next fun o => ?_
        exact performed_of_ne rfl rfl (by simp) o.event_ne
      · exact performed_of_ne rfl rfl (by simp) (by simp)
  | writeDegrade reason =>
    refine returns_bind (P := fun e => ∀ report, e ≠ Event.roundFailed report) ?_ ?_
    · refine returns_of_next fun now => returns_of_next fun r => ?_
      split
      · exact returns_pure (by simp)
      · exact returns_pure (by simp)
    · intro e he
      exact performed_of_ne rfl rfl (fun _ => .inl) he

section Trail

variable {p : Nat} {h h' : Host} {w : Worker} {started : Instant} {c c' : Course}
variable {l : List Exchange}

/-- The report is on the breaker and the time as the round leaves them. -/
theorem trail_runRound {round : UInt32} {report : Report}
    (hr : Trail (Answers p) (runRound s w started round c) h l (.ok (.roundFailed report, c')) h') :
    report.breaker = h'.circuit p w.dependency ∧ report.elapsed = (h'.now p).since started := by
  obtain ⟨alive, h₁, _, _, rfl, _, hr⟩ := trail_bind_ok hr
  split at hr
  · obtain ⟨r, h₂, _, _, rfl, _, hr⟩ := trail_bind_ok hr
    split at hr
    · cases (trail_pure hr).2.1
    · obtain ⟨circuit, h₃, _, _, rfl, hc, hr⟩ := trail_bind_ok hr
      obtain ⟨hc, hview⟩ := trail_state rfl hc
      cases hc
      obtain ⟨now, h₄, _, _, rfl, hn, hr⟩ := trail_bind_ok hr
      obtain ⟨now, _, heq, hn⟩ := trail_call hn
      cases heq
      obtain ⟨hlater, rfl⟩ := hn
      obtain ⟨_, heq, rfl⟩ := trail_pure hr
      cases heq
      exact ⟨(hview.trans (Host.Later.sameView hlater)).circuit.symm, rfl⟩
  · cases (trail_pure hr).2.1

theorem registered_of_requestHelper {e : Event}
    (hc : ∀ x, c.helper = some x → h.store.Registered x.id)
    (hr : Trail (Answers p) (requestHelper s w c) h l (.ok (e, c')) h') :
    ∀ x, c'.helper = some x → h'.store.Registered x.id := by
  intro x hx
  obtain ⟨r, h₁, _, _, rfl, hq, hr⟩ := trail_bind_ok hr
  split at hr
  · rename_i helper
    obtain ⟨_, heq, rfl⟩ := trail_pure hr
    cases heq
    cases hx
    exact Spawn.registered_of_granted hq
  · obtain ⟨_, heq, rfl⟩ := trail_pure hr
    cases heq
    exact hq.meanwhile.registered (hc x hx)
  · obtain ⟨_, heq, rfl⟩ := trail_pure hr
    cases heq
    exact hq.meanwhile.registered (hc x hx)

/-- A helper that waits to begin is registered. -/
theorem registered_of_perform {run : Worker → Program Outcome} {a : Action} {e : Event}
    (hc : ∀ x, c.helper = some x → h.store.Registered x.id)
    (hr : Trail (Answers p) (perform s task run w started a c) h l (.ok (e, c')) h') :
    ∀ x, c'.helper = some x → h'.store.Registered x.id := by
  intro x hx
  have hp := hr.returns (returns_perform run w started a c) rfl
  obtain hold | ⟨kind, rfl⟩ := hp.helper x hx
  · exact hr.meanwhile.registered (hc x hold)
  · exact registered_of_requestHelper hc hr x hx

end Trail

theorem Course.after_queue (c : Course) (e : Event) (limits : Limits) :
    (c.after e limits).queue = c.queue ++ (transition c.state e limits).2 := rfl

/-- The loop of a worker as it looks for its next action. -/
structure Head where
  /-- How many generations of helpers there may still be. -/
  generations : Nat
  worker : Worker
  started : Instant
  /-- The actions so far, with the events that they ended in. -/
  past : List (Action × Event)
  course : Course

/-- The course of a task that has done nothing. -/
def opening : Course := ⟨start.1, start.2, none, none⟩

/-- The heads that a run of a worker can come to from a host, and the hosts there. -/
inductive Reaches (s : Settings) (task : Task) (p : Nat) (w : Worker) (H : Host) :
    Head → Host → Prop where
  | start {t : Instant} {h : Host} (ha : Answers p H .now t h) :
      Reaches s task p w H ⟨s.governor.maxDepth.toNat, w, t, [], opening⟩ h
  | step {hd : Head} {h h' : Host} {a : Action} {queue : List Action} {e : Event} {c : Course}
      {l : List Exchange} (hr : Reaches s task p w H hd h) (hq : hd.course.queue = a :: queue)
      (hp : Trail (Answers p) (perform s task (runFor s task hd.generations) hd.worker hd.started a
        { hd.course with queue }) h l (.ok (e, c)) h') :
      Reaches s task p w H { hd with
        past := hd.past ++ [(a, e)], course := c.after e (.ofSettings s.policy) } h'
  /-- In the midst of an action: the helper that was granted begins. -/
  | helper {hd : Head} {h h' : Host} {x : Worker} {queue : List Action} {n : Nat} {t : Instant}
      (hr : Reaches s task p w H hd h) (hq : hd.course.queue = .runHelper x.id :: queue)
      (hx : hd.course.helper = some x) (hn : hd.generations = n + 1)
      (ha : Answers p h .now t h') :
      Reaches s task p w H ⟨n, x, t, [], opening⟩ h'

end Task
end WorkerGuard
