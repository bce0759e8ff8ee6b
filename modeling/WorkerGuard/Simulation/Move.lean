import WorkerGuard.Breaker.Board
import WorkerGuard.Error
import WorkerGuard.Registry.RawRow
import WorkerGuard.Simulation.Timeline
import WorkerGuard.Task.Runner

/-!
# WorkerGuard.Simulation.Move

What can be done to simulated processes from outside, calls to dependencies apart.

* `Scenario`: the processes, all with the same settings, and handles on breakers that belong to
  none.
* `Move`, `Answer`: the moves and what can be seen of them.
* `Move.perform`: one move.

The processes come first among the processes of the host; after them comes a lone one without a
registry, and then one for each handle.
-/

namespace WorkerGuard.Simulation

/-- A handle that belongs to no process. -/
structure Single where
  breaker : Breaker
  onSystemClock : Bool

structure Scenario where
  settings : Settings
  processes : Nat
  singles : Array Single

/-- The process that has no registry. -/
def Scenario.lone (s : Scenario) : Nat := s.processes

/-- Whose breaker of a dependency. -/
inductive Target where
  | single (index : Nat)
  | process (p : Nat) (d : Dependency)
  | lone (d : Dependency)

inductive BreakerMove where
  | fail (times : Nat)
  | succeed
  | allow
  | state
  | count
  | wait
  | snapshot
  | force
  | clear
  | info

inductive Move where
  | advance (d : Duration)
  | setClock (t : Instant)
  | now
  | sleep (d : Duration)
  /-- Created now, if no time is given. -/
  | insert (recruit : Instant → Recruit) (created : Option Instant) (ceilings : Ceilings)
  | request (q : Registry.Request)
  | rawRow (table : Registry.Table) (row : List (String × Registry.Cell))
  | fail (methods : List Method)
  | conflict (d : Dependency) (rows : List Breaker.Row)
  | steal (id : WorkerId)
  | slow (millis : Nat)
  | breaker (t : Target) (m : BreakerMove)
  | snapshots (p : Option Nat)
  | forcedKeys (p : Option Nat)
  | circuit (p : Option Nat) (d : Dependency)
  | force (p : Option Nat) (d : Dependency)
  | clear (p : Option Nat) (d : Dependency)
  | spawn (p : Nat) (q : Spawn.Request)
  | role (name : String)
  | beat (p : Nat) (id : WorkerId)
  | prune (p : Nat) (maxAge : Duration)
  | sweep (p : Nat)
  | trip (p : Nat) (d : Dependency) (reason : Option String)
  | reset (p : Nat) (d : Dependency)
  | sync (p : Nat)
  | startLoops (p : Nat)
  | stopLoops (p : Nat)
  | degraded
  | append (a : Artifact)
  | logText
  | writeLog (bytes : List UInt8)
  | countSince (role : String) (since : Instant)
  | alert (p : Nat) (role : String)
  | start (p : Nat) (role : String) (d : Dependency)
  | attach (p : Nat) (id : WorkerId)

inductive Answer where
  | nothing
  | truth (b : Bool)
  | number (n : Nat)
  | time (t : Instant) (millis : Nat)
  | worker (w : Option Worker)
  | workers (ws : List Worker)
  | overrides (os : List Override)
  | row (r : Breaker.Row)
  | rows (rs : List (Dependency × Breaker.Row))
  | condition (c : Circuit) (failures : Nat)
  | circuit (c : Circuit)
  | wait (d : Option Duration)
  | snapshot (s : Breaker.Snapshot)
  | snapshots (ss : List Breaker.Snapshot)
  | info (b : Breaker) (forced : Bool) (description : String)
  | dependencies (ds : List Dependency)
  | decision (d : Spawn.Decision)
  | started (d : Spawn.Decision)
  | role (r : Option Role)
  | sweep (s : Lifecycle.Sweep) (byRole : Bool)
  | sync (s : Watch.Sync)
  | artifacts (as : List Artifact)
  | text (s : String)
  | alert (a : Option Alert)
  | executed (r : Except Retry.GivenUp Json) (calls millis : Nat)
  | ran (o : Task.Outcome) (calls millis : Nat)
  | error (e : Error)

def Answer.ofRegistry {α : Type} (f : α → Answer) : Except Registry.Error α → Answer
  | .ok a => f a
  | .error e => .error (.registry e)

def Answer.ofLog {α : Type} (f : α → Answer) : Except Log.Error α → Answer
  | .ok a => f a
  | .error e => .error (.log e)

/-- What an answer to a request shows. -/
def Answer.ofRequest : (q : Registry.Request) → q.Answer → Answer
  | .insert .., w => .worker w
  | .get _, w => .worker w
  | .heartbeat .., b => .truth b
  | .countRole _, n => .number n
  | .countTree _, n => .number n
  | .terminate _, b => .truth b
  | .degrade _, b => .truth b
  | .stale .., ws => .workers ws
  | .list _, ws => .workers ws
  | .setOverride _, _ => .nothing
  | .clearOverride _, b => .truth b
  | .listOverrides, os => .overrides os
  | .loadBreaker _, r => .row r
  | .swapBreaker .., b => .truth b
  | .listBreakers, rs => .rows rs

namespace Scenario

def board (s : Scenario) : Option Nat → Breaker.Board
  | some _ => s.settings.board true
  | none => s.settings.board false

def placeOf (s : Scenario) : Option Nat → Nat
  | some p => p
  | none => s.lone

/-- A program on the breaker that is meant; a process takes up its handle first. -/
def onBreaker {α : Type} (s : Scenario) (t : Target) (f : Breaker → Program α) :
    Option (Timed α) :=
  match t with
  | .single i => (s.singles[i]?).map fun h => Timed.runQuiet (s.processes + 1 + i) (f h.breaker)
  | .process p d => some (Timed.runQuiet p do f (← (s.board (some p)).handle d))
  | .lone d => some (Timed.runQuiet s.lone do f (← (s.board none).handle d))

end Scenario

/-- The position, and then the count. -/
def conditionOf (b : Breaker) : Program Answer := do
  let circuit ← b.state
  return .condition circuit (← b.failureCount)

/-- So many failures in a row. -/
def failTimes (b : Breaker) : Nat → Program Unit
  | 0 => return ()
  | n + 1 => do
    b.recordFailure
    failTimes b n

def BreakerMove.program (m : BreakerMove) (b : Breaker) : Program Answer := do
  match m with
  | .fail times =>
    failTimes b times
    conditionOf b
  | .succeed =>
    b.recordSuccess
    conditionOf b
  | .allow => return .truth (← b.allow)
  | .state => return .circuit (← b.state)
  | .count => return .number (← b.failureCount)
  | .wait => return .wait (← b.timeUntilProbe)
  | .snapshot => return .snapshot (← b.snapshot)
  | .force =>
    b.forceOpen
    return .nothing
  | .clear =>
    b.clearOverride
    return .nothing
  | .info =>
    let forced ← b.isForced
    return .info b forced (← b.describe)

/-- Loops of a process that wait for their next tick end at once. -/
def stopWaiting (p : Nat) (h : Host) : Host :=
  { h with
    loops := h.loops.filter fun l => l.owner != p || (match l.phase with
      | .busy .. => true
      | _ => false) }

/-- All loops of a process end, those in the midst of their work when it is done. They sleep so many
times at most. -/
def awaitLoops (p : Nat) : Nat → Timed Unit
  | 0 => Timed.modify fun h => { h with loops := h.loops.filter (·.owner != p) }
  | sleeps + 1 => do
    Timed.modify (stopWaiting p)
    match ((← Timed.host).loops.filter (·.owner == p)).map Loop.due with
    | [] => return ()
    | d :: ds => do
      Timed.sleepThrough (ds.foldl min d)
      awaitLoops p sleeps

/-- The sleeps of a sweep: one for each role, and one for all others. -/
def sleepsOfSweep (s : Settings) : Nat := 2 * (s.allRoles.length + 1) + 1

def wrapClock (ms : Int) : Int := ms.bmod UInt64.size

def registryError (e : Registry.Error) : Answer := .error (.registry e)

/-- A move; `none` if there is nothing that it could be done to. -/
def Move.perform? (s : Scenario) (m : Move) : Option (Timed Answer) :=
  match m with
  | .advance d => some do
    Timed.modify fun h => { h with clock := wrapClock (h.clock + d.millis) }
    return .nothing
  | .setClock t => some do
    Timed.modify fun h => { h with clock := t.millis }
    return .nothing
  | .now => some do
    let now := (← Timed.host).now s.lone
    return .time now now.millis.toNat
  | .sleep d => some do
    Timed.sleep (Host.sleepMillis d)
    return .nothing
  | .insert recruit created ceilings => some do
    let now := (← Timed.host).now s.lone
    let r := recruit (created.getD now)
    let a ← Timed.runQuiet s.lone (Program.request (.insert r ceilings))
    return Answer.ofRegistry .worker a
  | .request q => some do
    let a ← Timed.runQuiet s.lone (Program.request q)
    return Answer.ofRegistry (Answer.ofRequest q) a
  | .rawRow table row => some do
    let h ← Timed.host
    match h.store with
    | .memory _ => return registryError .rejected
    | .database db =>
      match db.put? table row with
      | none => return registryError .rejected
      | some db =>
        Timed.modify fun h => { h with store := .database db }
        return .nothing
  | .fail methods => some do
    Timed.modify fun h => { h with trouble := { h.trouble with failing := methods } }
    return .nothing
  | .conflict d rows => some do
    Timed.modify fun h =>
      { h with trouble := { h.trouble with conflicts := h.trouble.conflicts.insert d.name rows } }
    return .nothing
  | .steal id => some do
    Timed.modify fun h => { h with trouble := { h.trouble with steals := id :: h.trouble.steals } }
    return .nothing
  | .slow ms => some do
    Timed.modify fun h => { h with trouble := { h.trouble with scanMillis := ms } }
    return .nothing
  | .breaker t m => s.onBreaker t m.program
  | .snapshots p => some do
    return .snapshots (← Timed.runQuiet (s.placeOf p) (s.board p).snapshots)
  | .forcedKeys p => some do
    return .dependencies (← Timed.runQuiet (s.placeOf p) Breaker.Board.forced)
  | .circuit p d => some do
    return .circuit (← Timed.runQuiet (s.placeOf p) ((s.board p).state d))
  | .force p d => some do
    Timed.runQuiet (s.placeOf p) ((s.board p).forceOpen d)
    return .nothing
  | .clear p d => some do
    Timed.runQuiet (s.placeOf p) ((s.board p).clearOverride d)
    return .nothing
  | .spawn p q => some do
    return Answer.ofRegistry .decision (← Timed.runQuiet p (Spawn.request s.settings q))
  | .role name => some (return .role (s.settings.roleNamed name))
  | .beat p id => some do
    return Answer.ofRegistry .truth (← Timed.runQuiet p (Lifecycle.heartbeat id))
  | .prune p age => some do
    return Answer.ofRegistry (.sweep · false) (← Timed.runQuiet p (Lifecycle.prune age))
  | .sweep p => some do
    return Answer.ofRegistry (.sweep · true) (← Timed.runQuiet p (Lifecycle.sweep s.settings))
  | .trip p d reason => some do
    return Answer.ofRegistry (fun _ => .nothing)
      (← Timed.runQuiet p (Watch.trip s.settings d reason))
  | .reset p d => some do
    return Answer.ofRegistry .truth (← Timed.runQuiet p (Watch.reset s.settings d))
  | .sync p => some do
    return Answer.ofRegistry .sync (← Timed.runQuiet p (Watch.sync s.settings))
  | .startLoops p => some do
    Timed.modify fun h => { h with
      loops := h.loops.filter (·.owner != p) ++
        [⟨p, .sweeper, s.settings, .starting⟩, ⟨p, .watcher, s.settings, .starting⟩] }
    return .nothing
  | .stopLoops p => some do
    awaitLoops p (sleepsOfSweep s.settings)
    return .nothing
  | .degraded => some do
    return Answer.ofLog .artifacts (← Timed.host).log.artifacts
  | .append a => some do
    return Answer.ofLog (fun _ => .nothing) (← Timed.runQuiet s.lone (Program.call (.appendLog a)))
  | .logText => some do
    return Answer.ofLog .text (← Timed.host).log.contents
  | .writeLog bytes => some do
    let h ← Timed.host
    match h.log.overwrite bytes with
    | .error e => return .error (.log e)
    | .ok log =>
      Timed.modify fun h => { h with log }
      return .nothing
  | .countSince ofRole since => some do
    return Answer.ofLog (fun as => .number (Log.countSince ofRole since as))
      (← Timed.host).log.artifacts
  | .alert p ofRole => some do
    return .alert (← Timed.runQuiet p (Alert.check s.settings.alerts ofRole))
  | .start p ofRole d => some do
    let a ← Timed.runQuiet p (Task.startWorker s.settings ofRole d)
    match a with
    | .ok (.granted w) =>
      Timed.modify fun h => { h with ready := h.ready.push (p, w) }
      return .started (.granted w)
    | .ok (.refused why) => return .started (.refused why)
    | .error e => return registryError e
  | .attach p id => some do
    let h ← Timed.host
    match (h.store.answer (.get id)).1 with
    | .ok (some w) =>
      Timed.modify fun h => { h with ready := h.ready.push (p, w) }
      return .worker (some w)
    | .ok none => return .worker none
    | .error e => return registryError e

end WorkerGuard.Simulation
