import WorkerGuard.Command.Basic
import WorkerGuard.Command.Listing
import WorkerGuard.Lifecycle
import WorkerGuard.Watch

/-!
# WorkerGuard.Command.Shell

What commands do once the registry is open.

* `Shell`: programs that print lines and can fail. What was printed before a failure stays printed.
* `Shell.status`, `Shell.workers`, …: the commands.

The commands embed `cmd_status`, `cmd_workers`, `cmd_spawn`, `cmd_heartbeat`, `cmd_terminate`,
`cmd_prune`, `cmd_trip`, `cmd_reset` and `cmd_degraded`.
-/

namespace WorkerGuard.Command

/-- How a command ends early. -/
inductive Abort where
  | failure (f : Failure)
  /-- It breaks off without a word. -/
  | crash

abbrev Shell := ExceptT Abort (StateT (List String) Program)

namespace Shell

variable {α : Type}

def say (line : String) : Shell Unit := modify (· ++ [line])

def fail (f : Failure) : Shell α := throw (.failure f)

def perform (prog : Program α) : Shell α := ExceptT.lift (StateT.lift prog)

def registry (prog : Program (Except Registry.Error α)) : Shell α := do
  match ← perform prog with
  | .ok a => return a
  | .error e => fail (.failed (.registry e))

def artifacts : Shell (List Artifact) := do
  match ← perform (Program.call .readLog) with
  | .ok as => return as
  | .error e => fail (.failed (.log e))

/-- The roots of workers, each once, in order. -/
def rootsOf (ws : List Worker) : List WorkerId :=
  (Keyed.ofList (ws.map fun w => (w.root.text, ()))).keys.map WorkerId.mk

/-- A section of a listing. -/
def listing (title : String) (lines : List String) (ifEmpty : List String) : Shell Unit := do
  say ""
  say title
  (if lines.isEmpty then ifEmpty else lines).forM say

def status (s : Settings) : Shell Unit := do
  say "Roles:"
  s.allRoles.forM fun r => do
    say (r.line (← registry (Program.request (.countRole r.name))))
  let active ← registry (Program.request (.list (some .active)))
  say ""
  say "Trees:"
  if (rootsOf active).isEmpty then say "  (none)"
  (rootsOf active).forM fun root => do
    say (s.treeLine root (← registry (Program.request (.countTree root))))
  let overrides ← registry (Program.request .listOverrides)
  listing "Overrides:" (overrides.map Override.line) ["  (none)"]
  perform (s.dependencies.keys.forM fun d => Program.call (.enlist ⟨d⟩))
  listing "Breakers (shared):" ((← perform (s.board true).snapshots).map Breaker.Snapshot.line) []
  let degraded ← artifacts
  say ""
  say ("Degraded tasks recorded: " ++ toString degraded.length)

def workers (state : Option Worker.State) (json : Bool) : Shell Unit := do
  let ws ← registry (Program.request (.list state))
  if json then ws.forM fun w => say w.toJson.text
  else if ws.isEmpty then say "No workers"
  else
    let now ← perform (Program.call .now)
    ws.forM fun w => do
      match w.line? now with
      | some line => say line
      | none => throw .crash

def spawn (s : Settings) (q : Spawn.Request) : Shell Unit := do
  match ← registry (Spawn.request s q) with
  | .granted w => say w.id.text
  | .refused why => fail (.refused why)

def heartbeat (id : WorkerId) : Shell Unit := do
  if !(← registry (Lifecycle.heartbeat id)) then fail (.inactive id)

def terminate (id : WorkerId) : Shell Unit := do
  if ← registry (Program.request (.terminate id)) then say ("Terminated " ++ id.text)
  else say (id.text ++ " was not active")

def prune (s : Settings) (maxAge : Option UInt64) : Shell Unit := do
  let r ← registry (match maxAge with
    | some secs => Lifecycle.prune (.ofSeconds secs)
    | none => Lifecycle.sweep s)
  r.terminated.forM fun id => say ("Pruned " ++ id.text)
  say (toString r.terminated.length ++ " worker(s) pruned, " ++ toString r.skipped ++
    " already inactive")

def trip (s : Settings) (d : Dependency) (reason : Option String) : Shell Unit := do
  registry (Watch.trip s d reason)
  say ("Tripped " ++ d.name ++ ": every worker will degrade until \x60tether reset " ++ d.name ++
    "\x60")

def reset (s : Settings) (d : Dependency) : Shell Unit := do
  if ← registry (Watch.reset s d) then say ("Override on " ++ d.name ++ " lifted")
  else say ("No override on " ++ d.name)

/-- The last ones, if there is a limit. -/
def degraded (limit : Option Nat) : Shell Unit := do
  let as ← artifacts
  let skip := limit.elim 0 fun n => as.length - n
  (as.drop skip).forM fun a => say a.listLine

end Shell
end WorkerGuard.Command
