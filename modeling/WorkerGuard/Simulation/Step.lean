import WorkerGuard.Simulation.Move

/-!
# WorkerGuard.Simulation.Step

Scenarios in which dependencies are called: what a call does is written down beforehand.

* `Step`: a move, one call with its retries, or a task.
* `Item`: one call: steps that happen meanwhile, how long it hangs, and its result.
* `Step.perform?`: one step; `Scenario.play`: a sequence of them.
-/

namespace WorkerGuard.Simulation

open Failure

mutual

inductive Step where
  | move (m : Move)
  /-- By a process, or by the one without a registry. -/
  | execute (p : Option Nat) (d : Dependency) (policy : Retry.Policy) (script : List Item)
  /-- By the worker of this number. -/
  | run (worker : Nat) (task : Task) (script : List Item)

inductive Item where
  | mk (effects : List Step) (hang : Duration) (result : Except CallError Json)

end

abbrev Operation := Timed (Except CallError Json)

/-- Calls take the items in turn; those after the last take the last one again. -/
def operate (script : List Operation) (bound : Duration) : Timed Attempt := do
  let n := (← Timed.host).calls
  Timed.modify fun h => { h with calls := h.calls + 1 }
  match script[min n (script.length - 1)]? with
  | none => return .overran
  | some op =>
    match ← Timed.within (Host.sleepMillis bound) op with
    | some r => return .returned r
    | none => return .overran

mutual

def Step.perform? (s : Scenario) : Step → Option (Timed Answer)
  | .move m => m.perform? s
  | .execute p d policy script => do
    let script ← operations? s script
    return do
      let prog := Retry.execute (s.board p) d policy
      let ((r, calls), millis) ← Timed.clocked (Timed.counted
        (Timed.run (s.placeOf p) (operate script) prog))
      return .executed r calls millis
  | .run worker task script => do
    let script ← operations? s script
    return do
      match (← Timed.host).ready[worker]? with
      | none => return .error (.other "")
      | some (p, w) =>
        let ((o, calls), millis) ← Timed.clocked (Timed.counted
          (Timed.run p (operate script) (Task.run s.settings task w)))
        return .ran o calls millis

/-- Steps whose answers nobody sees. -/
def performAll? (s : Scenario) : List Step → Option (Timed Unit)
  | [] => some (return ())
  | step :: rest => do
    let first ← step.perform? s
    let rest ← performAll? s rest
    return do
      let _ ← first
      rest

def Item.operation? (s : Scenario) : Item → Option Operation
  | .mk effects hang result => do
    let effects ← performAll? s effects
    return do
      effects
      Timed.sleep (Host.sleepMillis hang)
      return result

def operations? (s : Scenario) : List Item → Option (List Operation)
  | [] => some []
  | i :: is => do
    let first ← i.operation? s
    let rest ← operations? s is
    return first :: rest

end

/-- How a scenario ends: with an answer to each step, or because a program halted. -/
inductive Play where
  | answers (as : List Answer)
  | halted (why : Halt)

namespace Scenario

def playFrom : List (Timed Answer) → List Answer → Host → Play × Host
  | [], done, h => (.answers done.reverse, h)
  | x :: xs, done, h =>
    match x none h with
    | (.value a, h) => playFrom xs (a :: done) h
    | (.halted why, h) => (.halted why, h)
    | (.cut, h) => (.answers done.reverse, h)

/-- Plays all steps on a host. -/
def play? (s : Scenario) (steps : List Step) (h : Host) : Option (Play × Host) := do
  let steps ← steps.mapM (Step.perform? s)
  return playFrom steps [] h

/-- The host at the beginning: processes that know nothing yet. -/
def hostAt (s : Scenario) (h : Host) : Host :=
  { h with processes := Array.replicate (s.processes + 1) {} ++
      s.singles.map fun single => { onSystemClock := single.onSystemClock } }

end Scenario
end WorkerGuard.Simulation
