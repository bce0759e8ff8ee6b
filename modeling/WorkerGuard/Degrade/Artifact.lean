import WorkerGuard.Json.Record
import WorkerGuard.Name

/-!
# WorkerGuard.Degrade.Artifact

What is kept of a task that was given up.

* `Artifact`: whose task it was, why it was given up, and how far it got.
* `Artifact.line`: the artifact as a line of the log, `Artifact.ofLine?` reads it.

`Artifact` embeds `DegradeArtifact`.
-/

namespace WorkerGuard

structure Artifact where
  worker : WorkerId
  role : String
  dependency : Dependency
  task : String
  reason : String
  /-- Partial progress, if the task reported any. -/
  checkpoint : Option Json
  recordedAt : Instant

namespace Artifact

def toJson (a : Artifact) : Json :=
  let checkpoint := match a.checkpoint with
    | some v => [("checkpoint", v)]
    | none => []
  .obj ([("worker_id", .str a.worker.text), ("role", .str a.role),
    ("dependency", .str a.dependency.name), ("task", .str a.task), ("reason", .str a.reason)] ++
    checkpoint ++ [("recorded_at", .str a.recordedAt.stamp)])

/-- Checkpoints may be nested this deep, one level less than a whole line. -/
def checkpointDepth : Nat := 126

open Json.Record in
/-- A checkpoint that is null is none. -/
def read? (w : Json.Written) : Option Artifact := do
  let [worker, role, dependency, task, reason, checkpoint, recordedAt] ←
    members? ["worker_id", "role", "dependency", "task", "reason", "checkpoint", "recorded_at"] w
      | none
  return {
    worker := ⟨← required text? worker⟩
    role := ← required text? role
    dependency := ⟨← required text? dependency⟩
    task := ← required text? task
    reason := ← required text? reason
    checkpoint := ← optional (Json.Written.value? checkpointDepth) checkpoint
    recordedAt := ← required instant? recordedAt }

/-- The line without its end. -/
def line (a : Artifact) : List Char := a.toJson.chars

def ofLine? (cs : List Char) : Option Artifact := (Json.Written.readChars? cs).bind read?

end Artifact
end WorkerGuard
