import WorkerGuard.Error
import WorkerGuard.Spawn

/-!
# WorkerGuard.Command.Basic

What operators can do to a project, and how it can fail.

* `Command`: the commands.
* `Command.Failure`: why one failed; `Failure.report`: what the operator is told, the causes of each
  cause below it.

`Command` embeds `Commands`.
-/

namespace WorkerGuard

inductive Command where
  /-- Writes the default settings, unless there are some, and makes the registry. -/
  | init (force : Bool)
  | status
  /-- Lists workers, in one state or in any. -/
  | workers (state : Option String) (json : Bool)
  | spawn (role dependency : String) (parent : Option String)
  | heartbeat (id : String)
  | terminate (id : String)
  /-- Prunes all workers by one age, or each role by its own. -/
  | prune (maxAge : Option UInt64)
  | trip (dependency : String) (reason : Option String)
  | reset (dependency : String)
  /-- The tasks given up, or the last ones only. -/
  | degraded (limit : Option Nat)
  /-- Sweeps and watches until it is stopped. -/
  | daemon
  deriving DecidableEq

namespace Command

inductive Failure where
  | unknownState (word : UnknownWord)
  /-- The settings could not be loaded. -/
  | loading (cause : Error)
  /-- The registry could not be opened. -/
  | opening (cause : Error)
  | failed (cause : Error)
  | refused (why : Spawn.Refusal)
  | inactive (id : WorkerId)
  deriving DecidableEq

namespace Failure

/-- An error, and below it the fault of the file that caused it. -/
def ofError (e : Error) : List String :=
  e.message :: if e.category = .file then e.cause?.toList else []

/-- What happened, and then one cause after another. -/
def chain : Failure → List String
  | unknownState w => [w.message]
  | loading e => "Failed to load config" :: ofError e
  | opening e => "Failed to open registry" :: ofError e
  | failed e => ofError e
  | refused why => ["spawn refused: " ++ why.message]
  | inactive id => ["worker " ++ id.text ++ " is not active"]

/-- A text after a label; its other lines stand below the first one. -/
def indented (label : String) (text : String) : String :=
  label ++ ("\n" ++ "".pushn ' ' label.length).intercalate (text.splitOn "\n")

/-- Several causes are numbered. -/
def causes : List String → String
  | [] => ""
  | [c] => "\n\nCaused by:\n" ++ indented "    " c
  | cs => "\n\nCaused by:" ++ String.join (cs.zipIdx.map fun (c, n) =>
      "\n" ++ indented ("    " ++ toString n ++ ": ") c)

def report (f : Failure) : String :=
  match f.chain with
  | [] => ""
  | c :: cs => "Error: " ++ c ++ causes cs ++ "\n"

end Failure
end Command
end WorkerGuard
