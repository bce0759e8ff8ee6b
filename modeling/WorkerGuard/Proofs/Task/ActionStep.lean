import WorkerGuard.Proofs.Task.Machine
import WorkerGuard.Proofs.Task.Standing

/-!
# WorkerGuard.Proofs.Task.ActionStep

All that one action of a task can lead to.

* `Course.Due c a`: the action `a` is the only one to come, and belongs to the state.
* `ActionStep limits c a e c'`: the action that is due in `c` ends in the event `e` and leads to
  `c'`.
  Nothing else happens: `returns_actionStep`, and `actionStep_rejoined` for the run of a helper.
-/

namespace WorkerGuard.Task

open Program

variable {s : Settings} {task : Task} {limits : Limits} {c c' : Course} {a : Action} {e : Event}

def Action.Belongs : Action → State → Prop
  | runRound r, .running r' => r = r'
  | runRound r, .retryingLocal r' => r = r'
  | requestSpawn _, .awaitingSpawn => True
  | runHelper id, .helperRunning id' => id = id'
  | writeDegrade reason, .degrading reason' => reason = reason'
  | _, _ => False

namespace Course

def Due (c : Course) (a : Action) : Prop := c.queue = [a] ∧ a.Belongs c.state

theorem state_of_due_runRound {r : UInt32} (h : c.Due (.runRound r)) :
    c.state = .running r ∨ c.state = .retryingLocal r := by
  obtain ⟨_, hb⟩ := h
  cases hs : c.state with
  | running r' => rw [hs] at hb; cases hb; exact .inl rfl
  | retryingLocal r' => rw [hs] at hb; cases hb; exact .inr rfl
  | _ => rw [hs] at hb; cases hb

theorem state_of_due_requestSpawn {kind : Failure.RetryableKind}
    (h : c.Due (.requestSpawn kind)) : c.state = .awaitingSpawn := by
  obtain ⟨_, hb⟩ := h
  cases hs : c.state with
  | awaitingSpawn => rfl
  | _ => rw [hs] at hb; cases hb

theorem state_of_due_runHelper {id : WorkerId} (h : c.Due (.runHelper id)) :
    c.state = .helperRunning id := by
  obtain ⟨_, hb⟩ := h
  cases hs : c.state with
  | helperRunning id' => rw [hs] at hb; cases hb; rfl
  | _ => rw [hs] at hb; cases hb

theorem state_of_due_writeDegrade {reason : Reason} (h : c.Due (.writeDegrade reason)) :
    c.state = .degrading reason := by
  obtain ⟨_, hb⟩ := h
  cases hs : c.state with
  | degrading reason' => rw [hs] at hb; cases hb; rfl
  | _ => rw [hs] at hb; cases hb

end Course

inductive ActionStep (limits : Limits) (c : Course) : Action → Event → Course → Prop where
  | succeeded {r : UInt32} {v : Json} (hdue : c.Due (.runRound r)) :
      ActionStep limits c (.runRound r) .roundSucceeded ⟨.completed, [], some v, c.helper⟩
  | pruned {r : UInt32} (hdue : c.Due (.runRound r)) :
      ActionStep limits c (.runRound r) .terminated ⟨.failed prunedMessage, [], c.value, c.helper⟩
  | retried {report : Report} (hdue : c.Due (.runRound report.round))
      (hmore : report.round < limits.localRounds) :
      ActionStep limits c (.runRound report.round) (.roundFailed report)
        ⟨.retryingLocal (report.round + 1), [.runRound (report.round + 1)], c.value, c.helper⟩
  | asked {report : Report} {kind : Failure.RetryableKind} (hdue : c.Due (.runRound report.round)) :
      ActionStep limits c (.runRound report.round) (.roundFailed report)
        ⟨.awaitingSpawn, [.requestSpawn kind], c.value, c.helper⟩
  | gaveUp {report : Report} {reason : Reason} (hdue : c.Due (.runRound report.round)) :
      ActionStep limits c (.runRound report.round) (.roundFailed report)
        ⟨.degrading reason, [.writeDegrade reason], c.value, c.helper⟩
  | exhausted {report : Report} (hdue : c.Due (.runRound report.round)) :
      ActionStep limits c (.runRound report.round) (.roundFailed report)
        ⟨.failed (exhaustedMessage report), [], c.value, c.helper⟩
  | granted {kind : Failure.RetryableKind} {x : Worker} (hdue : c.Due (.requestSpawn kind)) :
      ActionStep limits c (.requestSpawn kind) (.spawnGranted x.id)
        ⟨.helperRunning x.id, [.runHelper x.id], c.value, some x⟩
  | refused {kind : Failure.RetryableKind} {why : String} (hdue : c.Due (.requestSpawn kind)) :
      ActionStep limits c (.requestSpawn kind) (.spawnRefused why)
        ⟨.degrading (.spawnRefused why), [.writeDegrade (.spawnRefused why)], c.value, c.helper⟩
  | helped {x : Worker} {v : Json} (hdue : c.Due (.runHelper x.id)) :
      ActionStep limits c (.runHelper x.id) (Outcome.completed v).event
        ⟨.completed, [], some v, none⟩
  /-- The helper did not complete the task. -/
  | unhelped {x : Worker} {o : Outcome} (hdue : c.Due (.runHelper x.id))
      (ho : o.isCompleted = false) :
      ActionStep limits c (.runHelper x.id) (.helperFinished false o.describe)
        ⟨.degrading (.helperFailed o.describe), [.writeDegrade (.helperFailed o.describe)], c.value,
          none⟩
  | recorded {reason : Reason} (hdue : c.Due (.writeDegrade reason)) :
      ActionStep limits c (.writeDegrade reason) .degradeRecorded
        ⟨.degradedComplete reason, [], c.value, c.helper⟩
  | unrecorded {reason : Reason} {error : String} (hdue : c.Due (.writeDegrade reason)) :
      ActionStep limits c (.writeDegrade reason) (.degradeFailed error)
        ⟨.failed ("degrade write failed (" ++ reason.message ++ "): " ++ error), [], c.value,
          c.helper⟩

theorem ActionStep.due (h : ActionStep limits c a e c') : c.Due a := by
  cases h <;> assumption

/-- What is to come after a failed round is for its report to say. -/
theorem Course.after_roundFailed {r : UInt32} (hdue : c.Due (.runRound r)) (report : Report) :
    Course.after { c with queue := [] } (.roundFailed report) limits =
      ⟨(afterFailure report limits).1, (afterFailure report limits).2, c.value, c.helper⟩ := by
  obtain hs | hs := Course.state_of_due_runRound hdue
  · simp only [Course.after, hs, transition, List.nil_append]
  · simp only [Course.after, hs, transition, List.nil_append]

theorem actionStep_afterFailure (report : Report) (hdue : c.Due (.runRound report.round)) :
    ActionStep limits c (.runRound report.round) (.roundFailed report)
      (Course.after { c with queue := [] } (.roundFailed report) limits) := by
  rw [Course.after_roundFailed hdue]
  unfold afterFailure
  split
  · rename_i hdecide
    exact .retried hdue (decide_eq_retryLocal hdecide).2.2
  · exact .asked hdue
  · exact .gaveUp hdue
  · exact .exhausted hdue

theorem returns_actionStep_runRound {r : UInt32} (hdue : c.Due (.runRound r)) (w : Worker)
    (started : Instant) : (runRound s w started r { c with queue := [] }).Returns fun x =>
      ActionStep limits c (.runRound r) x.1 (x.2.after x.1 limits) := by
  have hstate := Course.state_of_due_runRound hdue
  refine returns_of_next fun alive => ?_
  split
  · refine returns_of_next fun result => ?_
    split
    · rename_i v
      refine returns_pure ?_
      have hafter : Course.after { c with queue := [], value := some v } .roundSucceeded limits =
          ⟨.completed, [], some v, c.helper⟩ := by
        obtain hs | hs := hstate <;> simp only [Course.after, hs, transition, List.nil_append]
      rw [hafter]
      exact .succeeded hdue
    · refine returns_of_next fun circuit => returns_of_next fun now => returns_pure ?_
      exact actionStep_afterFailure ⟨_, circuit, now.since started, r⟩ hdue
  · refine returns_pure ?_
    have hafter : Course.after { c with queue := [] } .terminated limits =
        ⟨.failed prunedMessage, [], c.value, c.helper⟩ := by
      obtain hs | hs := hstate <;> simp only [Course.after, hs, transition, List.nil_append]
    rw [hafter]
    exact .pruned hdue

theorem returns_actionStep_requestHelper {kind : Failure.RetryableKind}
    (hdue : c.Due (.requestSpawn kind)) (w : Worker) :
    (requestHelper s w { c with queue := [] }).Returns fun x =>
      ActionStep limits c (.requestSpawn kind) x.1 (x.2.after x.1 limits) := by
  have hs := Course.state_of_due_requestSpawn hdue
  have hrefused : ∀ why, ActionStep limits c (.requestSpawn kind) (.spawnRefused why)
      (Course.after { c with queue := [] } (.spawnRefused why) limits) := by
    intro why
    simp only [Course.after, hs, transition, giveUp, List.nil_append]
    exact .refused hdue
  refine returns_of_next fun decision => ?_
  split
  · rename_i x
    refine returns_pure ?_
    simp only [Course.after, hs, transition, List.nil_append]
    exact .granted hdue
  · exact returns_pure (hrefused _)
  · exact returns_pure (hrefused _)

theorem returns_actionStep_writeDegrade {reason : Reason} (hdue : c.Due (.writeDegrade reason))
    (w : Worker) : (writeDegrade w task reason).Returns fun e =>
      ActionStep limits c (.writeDegrade reason) e
        (Course.after { c with queue := [] } e limits) := by
  have hs := Course.state_of_due_writeDegrade hdue
  refine returns_of_next fun now => returns_of_next fun result => ?_
  split
  · refine returns_pure ?_
    simp only [Course.after, hs, transition, List.nil_append]
    exact .recorded hdue
  · refine returns_pure ?_
    simp only [Course.after, hs, transition, List.nil_append]
    exact .unrecorded hdue

/-- An action that is due, other than the run of the helper who was granted. -/
theorem returns_actionStep {queue : List Action} (hdue : c.Due a) (hq : c.queue = a :: queue)
    (hx : ∀ id, a ≠ .runHelper id) (run : Worker → Program Outcome) (w : Worker)
    (started : Instant) : (perform s task run w started a { c with queue }).Returns fun x =>
      ActionStep limits c a x.1 (x.2.after x.1 limits) := by
  obtain rfl : queue = [] := by
    rw [hdue.1] at hq
    exact (List.cons.inj hq).2.symm
  cases a with
  | runRound r => exact returns_actionStep_runRound hdue w started
  | requestSpawn kind => exact returns_actionStep_requestHelper hdue w
  | runHelper id => exact absurd rfl (hx id)
  | writeDegrade reason =>
    exact returns_bind (returns_actionStep_writeDegrade hdue w) fun e he => returns_pure he

theorem actionStep_rejoined {hd : Head} {x : Worker} {queue : List Action}
    (hdue : hd.course.Due (.runHelper x.id)) (hx : hd.Calls x queue) (o : Outcome) :
    ActionStep (.ofSettings s.policy) hd.course (.runHelper x.id) o.event
      (hd.rejoined s x o queue).course := by
  have hs := Course.state_of_due_runHelper hdue
  obtain rfl : queue = [] := by
    have hq := hx.1
    rw [hdue.1] at hq
    exact (List.cons.inj hq).2.symm
  cases o with
  | completed v =>
    simp only [Head.rejoined, Head.stepped, Course.after, hs, Outcome.event, transition,
      List.nil_append, Outcome.value?, Option.some_or]
    exact .helped hdue
  | degraded reason alert =>
    simp only [Head.rejoined, Head.stepped, Course.after, hs, Outcome.event, transition, giveUp,
      List.nil_append, Outcome.value?, Option.none_or]
    exact .unhelped hdue rfl
  | failed error =>
    simp only [Head.rejoined, Head.stepped, Course.after, hs, Outcome.event, transition, giveUp,
      List.nil_append, Outcome.value?, Option.none_or]
    exact .unhelped hdue rfl

end WorkerGuard.Task
