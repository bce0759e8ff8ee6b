import WorkerGuard.Breaker.Handle
import WorkerGuard.Degrade.Artifact
import WorkerGuard.Override
import WorkerGuard.Settings.Basic
import WorkerGuard.Text.Column
import WorkerGuard.Worker.Record

/-!
# WorkerGuard.Command.Listing

How things are shown to operators: one line for each, in columns.

Breakers and workers are shown by `print_breaker` and `print_worker`.
-/

namespace WorkerGuard

open Text

/-- How many places are taken, of so many. -/
def occupancy (active : Nat) (ceiling : UInt32) : String :=
  rightAligned 3 (toString active) ++ "/" ++ leftAligned 3 (toString ceiling.toNat) ++ " active"

def Role.line (r : Role) (active : Nat) : String :=
  "  " ++ leftAligned 12 r.name ++ " " ++ occupancy active r.ceiling ++ "  (max age " ++
    toString r.maxAge.seconds ++ "s)"

def Settings.treeLine (s : Settings) (root : WorkerId) (active : Nat) : String :=
  "  " ++ root.text ++ " " ++ occupancy active s.governor.maxTreeSize

def Override.line (o : Override) : String :=
  "  " ++ leftAligned 16 o.dependency.name ++ " tripped " ++ o.setAt.clockFace ++ " UTC  " ++
    o.reason.getD ""

def Breaker.Snapshot.line (s : Breaker.Snapshot) : String :=
  "  " ++ leftAligned 16 s.dependency.name ++ " " ++ leftAligned 10 s.state.name ++ " failures " ++
    toString s.failures ++ "/" ++ toString s.threshold ++ "  cooldown " ++
    toString s.cooldown.seconds ++ "s" ++ if s.forcedOpen then "  [forced]" else ""

/-- There is no line for a worker whose parent has no short form. -/
def Worker.line? (w : Worker) (now : Instant) : Option String := do
  let parent ← match w.parent with
    | some p => p.short?
    | none => some "-"
  return w.id.text ++ " " ++ leftAligned 10 w.role ++ " " ++ leftAligned 11 w.state.name ++
    " depth " ++ toString w.depth.toNat ++ " parent " ++ leftAligned 10 parent ++ " age " ++
    rightAligned 6 (toString (w.age now).seconds) ++ "s  last beat " ++
    toString (now.since w.lastHeartbeatAt).seconds ++ "s ago  " ++ w.dependency.name

def Artifact.listLine (a : Artifact) : String :=
  a.recordedAt.clockFace ++ "  " ++ leftAligned 10 a.role ++ " " ++
    leftAligned 16 a.dependency.name ++ " " ++ leftAligned 20 a.task ++ " " ++ a.reason

end WorkerGuard
