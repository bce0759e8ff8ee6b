import WorkerGuard.Alert
import WorkerGuard.Error
import WorkerGuard.Lifecycle
import WorkerGuard.Retry.Engine
import WorkerGuard.Spawn
import WorkerGuard.Task.Machine

/-!
# WorkerGuard.Task.Runner

A worker runs a task: it carries out the actions of the machine and reports what came of them.

* `Task`, `Task.Outcome`.
* `perform`: one action, and the event that it ends in.
* `drive`: actions until none is left; `run`: a whole task, with all its helpers.

The record of a worker is closed when its task ends, whatever the outcome.

`run` embeds `run` of `Worker`, whose loop is `drive`, and `startWorker` its `start`. `runRound`,
`requestHelper`, `writeDegrade`, `finish` and `closeRecord` embed `run_round`, `request_helper`,
`write_degrade`, `finish` and `close_record`.
-/

namespace WorkerGuard

structure Task where
  name : String
  /-- Partial progress, to be kept if the task is given up. -/
  checkpoint : Option Json

namespace Task

inductive Outcome where
  | completed (value : Json)
  | degraded (reason : Reason) (alert : Option Alert)
  | failed (error : String)

/-- What has become of a task: its state, the actions to come, its value, and a helper that was
granted and has not begun. -/
structure Course where
  state : State
  queue : List Action
  value : Option Json
  helper : Option Worker

namespace Outcome

def isCompleted : Outcome → Bool
  | completed _ => true
  | _ => false

def describe : Outcome → String
  | completed _ => "completed"
  | degraded reason _ => "degraded: " ++ reason.message
  | failed error => "failed: " ++ error

/-- What a parent learns of its helper. -/
def event : Outcome → Event
  | completed _ => .helperFinished true ""
  | o => .helperFinished false o.describe

def value? : Outcome → Option Json
  | completed v => some v
  | _ => none

end Outcome

/-- A worker whose heartbeat fails goes on; only the word that it has ended stops it. -/
def isAlive (w : Worker) : Program Bool := do
  match ← Lifecycle.heartbeat w.id with
  | .ok alive => return alive
  | .error _ => return true

/-- A round of calls. -/
def runRound (s : Settings) (w : Worker) (started : Instant) (round : UInt32) (c : Course) :
    Program (Event × Course) := do
  if ← isAlive w then
    match ← Retry.execute (s.board true) w.dependency (.ofSettings s.retry) with
    | .ok v => return (.roundSucceeded, { c with value := some v })
    | .error givenUp =>
      let circuit ← (s.board true).state w.dependency
      let now ← Program.call .now
      return (.roundFailed ⟨givenUp.classification, circuit, now.since started, round⟩, c)
  else return (.terminated, c)

def requestHelper (s : Settings) (w : Worker) (c : Course) : Program (Event × Course) := do
  match ← Spawn.request s ⟨s.policy.helperRole, some w.id, w.dependency⟩ with
  | .ok (.granted helper) => return (.spawnGranted helper.id, { c with helper := some helper })
  | .ok (.refused why) => return (.spawnRefused why.message, c)
  | .error e => return (.spawnRefused ("governor error: " ++ (Error.registry e).message), c)

/-- The helper that was granted runs the same task. -/
def runHelper (run : Worker → Program Outcome) (id : WorkerId) (c : Course) :
    Program (Event × Course) := do
  let rest := { c with helper := none }
  match c.helper with
  | none => return (.helperFinished false ("no granted helper " ++ id.text), rest)
  | some h =>
    if h.id = id then
      let o ← run h
      return (o.event, { rest with value := o.value?.or rest.value })
    else return (.helperFinished false ("no granted helper " ++ id.text), rest)

def writeDegrade (w : Worker) (task : Task) (reason : Reason) : Program Event := do
  let now ← Program.call .now
  match ← Program.call (.appendLog
      ⟨w.id, w.role, w.dependency, task.name, reason.message, task.checkpoint, now⟩) with
  | .ok () => return .degradeRecorded
  | .error e => return .degradeFailed (Error.log e).message

def perform (s : Settings) (task : Task) (run : Worker → Program Outcome) (w : Worker)
    (started : Instant) (a : Action) (c : Course) : Program (Event × Course) :=
  match a with
  | .runRound round => runRound s w started round c
  | .requestSpawn _ => requestHelper s w c
  | .runHelper id => runHelper run id c
  | .writeDegrade reason => do return (← writeDegrade w task reason, c)

def Course.after (c : Course) (e : Event) (limits : Limits) : Course :=
  let (state, more) := transition c.state e limits
  { c with state, queue := c.queue ++ more }

def drive (s : Settings) (task : Task) (run : Worker → Program Outcome) (w : Worker)
    (started : Instant) : Nat → Course → Program Course
  | 0, _ => .halt .unfinished
  | steps + 1, c =>
    match c.queue with
    | [] => return c
    | a :: queue => do
      let (e, c) ← perform s task run w started a { c with queue }
      drive s task run w started steps (c.after e (.ofSettings s.policy))

/-- A registry that cannot be reached leaves the record open; the sweeper will close it. -/
def closeRecord (w : Worker) (degraded : Bool) : Program Unit := do
  let _ ← if degraded then Program.request (.degrade w.id) else Program.request (.terminate w.id)

def finish (s : Settings) (w : Worker) (c : Course) : Program Outcome := do
  match c.state with
  | .completed =>
    closeRecord w false
    match c.value with
    | some v => return .completed v
    | none => return .failed "completed without a result"
  | .degradedComplete reason =>
    closeRecord w true
    return .degraded reason (← Alert.check s.alerts w.role)
  | .failed error =>
    closeRecord w false
    return .failed error
  | other => return .failed ("task stopped in non-terminal state " ++ other.describe)

/-- A task has so many steps: its rounds, a request, a helper, the record, and the end. -/
def stepBound (s : Settings) : Nat := (Limits.ofSettings s.policy).localRounds.toNat + 4

/-- The runs of a worker and its helpers, so many generations of them. -/
def runFor (s : Settings) (task : Task) : Nat → Worker → Program Outcome
  | 0, _ => .halt .unfinished
  | generations + 1, w => do
    let started ← Program.call .now
    let (state, queue) := start
    let c ← drive s task (runFor s task generations) w started (stepBound s)
      ⟨state, queue, none, none⟩
    finish s w c

/-- No helper is deeper than the settings allow, so that their number bounds the generations. -/
def run (s : Settings) (task : Task) (w : Worker) : Program Outcome :=
  runFor s task (s.governor.maxDepth.toNat + 1) w

/-- Registers a worker without a parent. -/
def startWorker (s : Settings) (role : String) (d : Dependency) :
    Program (Except Registry.Error Spawn.Decision) :=
  Spawn.request s ⟨role, none, d⟩

end Task
end WorkerGuard
