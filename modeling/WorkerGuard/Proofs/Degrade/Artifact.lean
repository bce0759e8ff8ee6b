import WorkerGuard.Degrade.Artifact
import WorkerGuard.Proofs.Json.Written
import WorkerGuard.Proofs.Time.Stamp

/-!
# WorkerGuard.Proofs.Degrade.Artifact

What a line of the log gives back of the artifact it was written for.

* `ofLine?_line`: everything but the checkpoint is read as it was; whether the line is read at all,
  and with which checkpoint, is a matter of the checkpoint alone.
* `Artifact.Lasting`: artifacts that lose nothing; `Lasting.ofLine?_line`.
-/

namespace WorkerGuard.Artifact

open Json

/-- What is read of a checkpoint. -/
def checkpointRead? (c : Option Json) : Option (Option Json) :=
  Record.optional (Written.value? checkpointDepth) (c.map written)

/-- The fields of a line as a reader finds them. -/
theorem members?_written (a : Artifact) :
    Record.members?
        ["worker_id", "role", "dependency", "task", "reason", "checkpoint", "recorded_at"]
        a.toJson.written =
      some [some (.str (units a.worker.text)), some (.str (units a.role)),
        some (.str (units a.dependency.name)), some (.str (units a.task)),
        some (.str (units a.reason)), a.checkpoint.map written,
        some (.str (units a.recordedAt.stamp))] := by
  obtain ⟨worker, role, dependency, task, reason, checkpoint, recordedAt⟩ := a
  cases checkpoint <;>
    simp [toJson, written, writtenFields, Record.members?, Record.named?, text?_units,
      Record.single?]

/-- Everything but the checkpoint is read as it was written. -/
theorem ofLine?_line {a : Artifact} (h : a.recordedAt.Proper) :
    ofLine? a.line = (checkpointRead? a.checkpoint).map fun c => { a with checkpoint := c } := by
  rw [ofLine?, line, readChars?_chars, Option.bind_some, read?, members?_written]
  simp only [Record.required, Record.text?, Record.instant?, text?_units, Option.bind_some,
    Option.bind_eq_bind, Instant.ofStamp?_stamp h, checkpointRead?]
  cases Record.optional (Written.value? checkpointDepth) (a.checkpoint.map written) <;> rfl

/-- What is read of an artifact has its role and its time. -/
theorem same_of_ofLine? {a b : Artifact} (ha : a.recordedAt.Proper)
    (hb : ofLine? a.line = some b) : b.role = a.role ∧ b.recordedAt = a.recordedAt := by
  rw [ofLine?_line ha, Option.map_eq_some_iff] at hb
  obtain ⟨c, -, rfl⟩ := hb
  exact ⟨rfl, rfl⟩

/-- What is left of a checkpoint in the log. -/
def keptCheckpoint : Option Json → Option Json
  | some .null => none
  | c => c

/-- The artifact as the log gives it back. -/
def kept (a : Artifact) : Artifact := { a with checkpoint := keptCheckpoint a.checkpoint }

/-- An artifact with a proper stamp and a checkpoint that can be read. -/
structure Lasting (a : Artifact) : Prop where
  recordedAt : a.recordedAt.Proper
  checkpoint : ∀ v ∈ a.checkpoint, Plain checkpointDepth v

theorem checkpointRead?_plain {c : Option Json} (h : ∀ v ∈ c, Plain checkpointDepth v) :
    checkpointRead? c = some (keptCheckpoint c) := by
  cases c with
  | none => rfl
  | some v =>
    have hread := (h v rfl).value?_written
    cases v with
    | null => rfl
    | float x => cases h (.float x) rfl
    | _ =>
      simp only [checkpointRead?, Option.map_some, written, Record.optional] at hread ⊢
      rw [hread]
      rfl

theorem Lasting.ofLine?_line {a : Artifact} (h : a.Lasting) : ofLine? a.line = some a.kept := by
  rw [Artifact.ofLine?_line h.recordedAt, checkpointRead?_plain h.checkpoint]
  rfl

end WorkerGuard.Artifact
