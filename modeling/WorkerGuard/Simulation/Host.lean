import WorkerGuard.Breaker.Handle
import WorkerGuard.Lifecycle
import WorkerGuard.Simulation.Trouble
import WorkerGuard.Watch

/-!
# WorkerGuard.Simulation.Host

All that processes run on: a registry, a clock, a log, what each process keeps in its memory, and a
count of milliseconds by which they sleep.

* `Host`: the state of all this.
* `Host.wait`: how long a call takes; `Host.answer`: what comes back, and the state after it.
-/

namespace WorkerGuard.Simulation

/-- What a process keeps of a dependency. -/
structure Handle where
  word : UInt64 := Breaker.encode .fresh
  forced : Bool := false
  deriving Inhabited

/-- What a process keeps. -/
structure Process where
  /-- Whether it reads the clock of the machine and not the one that is set by hand. -/
  onSystemClock : Bool := false
  handles : Keyed Handle := .empty
  /-- When it last raised an alert for a role. -/
  alerts : Keyed Instant := .empty
  deriving Inhabited

/-- What a background loop does. -/
inductive Duty where
  | sweeper
  | watcher
  deriving DecidableEq, Repr

inductive Phase where
  /-- Not yet run for the first time. -/
  | starting
  /-- Until the next tick. -/
  | waiting (due : Nat)
  /-- In the midst of its work, which goes on at a time and ends at a bound; with the next tick. -/
  | busy (resume : Nat) (bound : Option Nat) (rest : Program Unit) (next : Nat)

structure Loop where
  owner : Nat
  duty : Duty
  settings : Settings
  phase : Phase

/-- The name of the worker with a number. -/
def idOf (n : Nat) : WorkerId :=
  let digits (width n : Nat) : String :=
    let ds := Nat.toDigits 16 n
    String.ofList (List.replicate (width - ds.length) '0' ++ ds)
  ⟨"w-" ++ digits 8 n ++ "-0000-4000-8000-" ++ digits 12 n⟩

structure Host where
  store : Store := default
  trouble : Trouble := {}
  /-- The clock that is set by hand: milliseconds from 1970 in 64 bits. -/
  clock : Int
  /-- The clock of the machine, which stands still. -/
  systemClock : Instant
  log : Log := .missing
  logPath : String := ""
  /-- Milliseconds since the start, by which processes sleep. -/
  tick : Nat := 0
  processes : Array Process := #[]
  loops : List Loop := []
  /-- The names of new workers, from 1. -/
  names : Nat → WorkerId := idOf
  /-- Workers that were registered under such names. -/
  granted : Nat := 0
  /-- Calls to dependencies that were begun. -/
  calls : Nat := 0
  /-- Workers that stand ready to run tasks, each with its process. -/
  ready : Array (Nat × Worker) := #[]
  /-- The random number that everybody gets. -/
  jitter : Float := 0.5

namespace Host

/-- Out of range, the clock set by hand reads as the start of 1970. -/
def now (h : Host) (p : Nat) : Instant :=
  if (h.processes[p]?.map (·.onSystemClock)).getD false then h.systemClock
  else (Instant.ofMillis? h.clock).getD .epoch

/-- Longer sleeps end after thirty years of 365 days. -/
def longestSleep : Nat := 9223372036854775808

/-- Milliseconds that a sleep takes, a begun one counted as whole. -/
def sleepMillis (d : Duration) : Nat :=
  if longestSleep ≤ d.seconds then 30 * 365 * 86400 * 1000 else d.millisUp

/-- Milliseconds before a call is answered. -/
def wait (h : Host) : Call → Nat
  | .sleep d => sleepMillis d
  | .registry (.stale t role) => if h.trouble.fails (.stale t role) then 0 else h.trouble.scanMillis
  | _ => 0

def process (h : Host) (p : Nat) : Process := h.processes[p]?.getD {}

def updateProcess (h : Host) (p : Nat) (f : Process → Process) : Host :=
  { h with processes := h.processes.modify p f }

def handle (h : Host) (p : Nat) (d : Dependency) : Handle :=
  ((h.process p).handles.find? d.name).getD {}

def setHandle (h : Host) (p : Nat) (d : Dependency) (a : Handle) : Host :=
  h.updateProcess p fun s => { s with handles := s.handles.insert d.name a }

def registry (h : Host) (q : Registry.Request) : Except Registry.Error q.Answer × Host :=
  let (a, t, s) := h.trouble.answer h.store q
  (a, { h with trouble := t, store := s })

/-- A worker that was registered under the next of these names uses it up. -/
def insert (h : Host) (r : Recruit) (c : Ceilings) : Except Registry.Error (Option Worker) × Host :=
  let (a, h) := h.registry (.insert r c)
  match a with
  | .ok (some w) =>
    (a, if w.id = h.names (h.granted + 1) then { h with granted := h.granted + 1 } else h)
  | _ => (a, h)

/-- The answer to a call of a process. A call that was waited for has not failed. -/
def answer (h : Host) (p : Nat) (waited : Bool) : (q : Call) → q.Answer × Host
  | .now => (h.now p, h)
  | .registry q =>
    if !waited && h.trouble.fails q then (.error .locked, h)
    else
      match q with
      | .insert r c => h.insert r c
      | q => h.registry q
  | .enlist d => ((), h.setHandle p d (h.handle p d))
  | .enlisted => ((h.process p).handles.keys.map Dependency.mk, h)
  | .word d => ((h.handle p d).word, h)
  | .setWord d w => ((), h.setHandle p d { h.handle p d with word := w })
  | .exchangeWord d old new =>
    let a := h.handle p d
    (a.word, if a.word = old then h.setHandle p d { a with word := new } else h)
  | .forced d => ((h.handle p d).forced, h)
  | .setForced d b => ((), h.setHandle p d { h.handle p d with forced := b })
  | .allForced =>
    (((h.process p).handles.entries.filter fun e => e.2.forced).map fun e => ⟨e.1⟩, h)
  | .sleep _ => ((), h)
  | .attempt .. => (.overran, h)
  | .jitter => (h.jitter, h)
  | .freshId => (h.names (h.granted + 1), h)
  | .appendLog a =>
    match h.log.append h.logPath a with
    | .ok log => (.ok (), { h with log })
    | .error e => (.error e, h)
  | .readLog => (h.log.artifacts, h)
  | .lastAlert role => ((h.process p).alerts.find? role, h)
  | .setLastAlert role t =>
    ((), h.updateProcess p fun s => { s with alerts := s.alerts.insert role t })

end Host
end WorkerGuard.Simulation
