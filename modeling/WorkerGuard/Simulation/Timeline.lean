import WorkerGuard.Simulation.Host

/-!
# WorkerGuard.Simulation.Timeline

Programs on one line of time. Time passes only while the program in front sleeps; then background
loops run, in the order in which they are due. What is due at the moment at which the program in
front goes on waits for its next sleep.

* `Host.passTo`: lets time pass.
* `Timed`: what is done within a bound: it ends with a value, is cut off at the bound, or halts.
* `Timed.run`: a program; calls to dependencies are given as an argument.

`Timed.failOpen` embeds `fail_open` and `fail_open_within`, and the loops are those of
`spawn_sweeper` and of `spawn` in `OverrideWatcher`.
-/

namespace WorkerGuard.Simulation

/-- How far a program got without sleeping. -/
inductive Stop where
  | ended
  | asleep (millis : Nat) (rest : Program Unit)

/-- Runs a program of a background loop up to its next sleep. -/
def Host.advance (p : Nat) : Program Unit → Host → Stop × Host
  | .done _, h => (.ended, h)
  | .halt _, h => (.ended, h)
  | .ask q next, h =>
    if h.wait q = 0 then
      let (a, h) := h.answer p false q
      advance p (next a) h
    else (.asleep (h.wait q) (.ask q next), h)

/-- The same after the sleep before the first call. -/
def Host.resume (p : Nat) : Program Unit → Host → Stop × Host
  | .ask q next, h =>
    let (a, h) := h.answer p true q
    h.advance p (next a)
  | prog, h => h.advance p prog

namespace Loop

def program (l : Loop) : Program Unit :=
  match l.duty with
  | .sweeper => do
    let _ ← Lifecycle.sweep l.settings
  | .watcher => do
    let _ ← Watch.sync l.settings

/-- Milliseconds from tick to tick, ten at least. -/
def period (l : Loop) : Nat :=
  max 10 (match l.duty with
    | .sweeper => l.settings.lifecycle.sweepInterval.millisUp
    | .watcher => l.settings.lifecycle.overridePollInterval.millisUp)

/-- Only sweeps are bounded. -/
def bound? (l : Loop) : Option Nat :=
  match l.duty with
  | .sweeper => some (Host.sleepMillis l.settings.lifecycle.queryTimeout)
  | .watcher => none

/-- When the loop next does something. -/
def due (l : Loop) : Nat :=
  match l.phase with
  | .starting => 0
  | .waiting due => due
  | .busy resume (some bound) _ _ => min resume bound
  | .busy resume none _ _ => resume

/-- The tick after one that was due. One that came more than five milliseconds late puts all later
ones off. -/
def nextTick (l : Loop) (now due : Nat) : Nat :=
  if due + 5 < now then now + l.period else due + l.period

/-- What becomes of a loop whose work stopped. -/
def after (l : Loop) (now : Nat) (bound : Option Nat) (next : Nat) : Stop → Loop
  | .ended => { l with phase := .waiting next }
  | .asleep ms rest => { l with phase := .busy (now + ms) bound rest next }

/-- One turn of the loop, now. -/
def turn (l : Loop) (h : Host) : Loop × Host :=
  match l.phase with
  | .starting => startTurn h.tick
  | .waiting due => startTurn due
  | .busy resume bound rest next =>
    if bound.any (· < resume) then ({ l with phase := .waiting next }, h)
    else
      let (stop, h) := h.resume l.owner rest
      (l.after h.tick bound next stop, h)
where
  startTurn (due : Nat) : Loop × Host :=
    let next := l.nextTick h.tick due
    let bound := l.bound?.map (h.tick + ·)
    let (stop, h) := h.advance l.owner l.program
    (l.after h.tick bound next stop, h)

end Loop

namespace Host

/-- The loop that is due first, and the ones before and after it. -/
def firstDue : List Loop → Option (List Loop × Loop × List Loop)
  | [] => none
  | l :: ls =>
    match firstDue ls with
    | none => some ([], l, ls)
    | some (before, m, after) =>
      if m.due < l.due then some (l :: before, m, after) else some ([], l, ls)

/-- Lets loops run that are due before a time, so many turns at most. -/
def passLoops (deadline : Nat) : Nat → Host → Host
  | 0, h => h
  | turns + 1, h =>
    match firstDue h.loops with
    | none => h
    | some (before, l, after) =>
      if max h.tick l.due < deadline then
        let (l, h) := l.turn { h with tick := max h.tick l.due }
        passLoops deadline turns { h with loops := before ++ l :: after }
      else h

/-- Turns that the loops can take before a time: each of a loop is later than the one before, but
for its first one and those after a bound. -/
def turnBound (h : Host) (deadline : Nat) : Nat := h.loops.length * (3 * (deadline - h.tick) + 3)

def passTo (deadline : Nat) (h : Host) : Host :=
  let h := passLoops deadline (h.turnBound deadline) h
  { h with tick := max h.tick deadline }

/-- The same, and lets the loops run that are due at that time. -/
def passThrough (deadline : Nat) (h : Host) : Host :=
  let h := passLoops (deadline + 1) (h.turnBound (deadline + 1)) h
  { h with tick := max h.tick deadline }

end Host

inductive Ending (α : Type) where
  | value (a : α)
  | cut
  | halted (why : Halt)

/-- The bound is a time of the host; without one nothing is cut off. -/
def Timed (α : Type) : Type := Option Nat → Host → Ending α × Host

namespace Timed

variable {α β : Type}

def pure (a : α) : Timed α := fun _ h => (.value a, h)

def bind (x : Timed α) (f : α → Timed β) : Timed β := fun bound h =>
  match x bound h with
  | (.value a, h) => f a bound h
  | (.cut, h) => (.cut, h)
  | (.halted why, h) => (.halted why, h)

instance : Monad Timed where
  pure := pure
  bind := bind

instance : Inhabited (Timed α) := ⟨fun _ h => (.cut, h)⟩

def halt (why : Halt) : Timed α := fun _ h => (.halted why, h)

def host : Timed Host := fun _ h => (.value h, h)

def modify (f : Host → Host) : Timed Unit := fun _ h => (.value (), f h)

/-- Waits; what reaches past the bound is cut off there. -/
def sleep (millis : Nat) : Timed Unit := fun bound h =>
  if millis = 0 then (.value (), h)
  else
    match bound with
    | none => (.value (), h.passTo (h.tick + millis))
    | some b =>
      if h.tick + millis ≤ b then (.value (), h.passTo (h.tick + millis))
      else (.cut, h.passTo b)

/-- Waits for what loops do at a time. -/
def sleepThrough (deadline : Nat) : Timed Unit := fun bound h =>
  match bound with
  | none => (.value (), h.passThrough deadline)
  | some b => if deadline ≤ b then (.value (), h.passThrough deadline) else (.cut, h.passTo b)

/-- Cuts off after some time; `none` says that this happened. A bound from outside that is no
earlier comes after this one. -/
def within (millis : Nat) (x : Timed α) : Timed (Option α) := fun bound h =>
  let own := h.tick + millis
  let inner := bound.all (own ≤ ·)
  match x (some (if inner then own else bound.getD own)) h with
  | (.value a, h) => (.value (some a), h)
  | (.halted why, h) => (.halted why, h)
  | (.cut, h) => if inner then (.value none, h) else (.cut, h)

/-- Counts the calls that are begun meanwhile, apart from those before. -/
def counted (x : Timed α) : Timed (α × Nat) := fun bound h =>
  let (e, h') := x bound { h with calls := 0 }
  let restored := { h' with calls := h.calls }
  match e with
  | .value a => (.value (a, h'.calls), restored)
  | .cut => (.cut, restored)
  | .halted why => (.halted why, restored)

/-- Milliseconds that pass meanwhile. -/
def clocked (x : Timed α) : Timed (α × Nat) := fun bound h =>
  match x bound h with
  | (.value a, h') => (.value (a, h'.tick - h.tick), h')
  | (.cut, h') => (.cut, h')
  | (.halted why, h') => (.halted why, h')

/-- For maintenance that has to go on through failures: an error is as good as nothing, and so is
work that takes too long. -/
def failOpen {ε : Type} (bound : Option Duration) (x : Timed (Except ε α)) : Timed (Option α) := do
  match bound with
  | none => return (← x).toOption
  | some d => return (← within (Host.sleepMillis d) x).bind Except.toOption

/-- A program of a process; a call to a dependency gets its bound. -/
def run (p : Nat) (operate : Duration → Timed Attempt) : Program α → Timed α
  | .done a => pure a
  | .halt why => halt why
  | .ask (.attempt _ d) next => bind (operate d) fun a => run p operate (next a)
  | .ask q next => fun bound h =>
    match sleep (h.wait q) bound h with
    | (.value (), h') =>
      let (a, h') := h'.answer p (h.wait q != 0) q
      run p operate (next a) bound h'
    | (.cut, h') => (.cut, h')
    | (.halted why, h') => (.halted why, h')

/-- A program that makes no calls to dependencies. -/
def runQuiet (p : Nat) (prog : Program α) : Timed α := run p (fun _ => pure .overran) prog

end Timed
end WorkerGuard.Simulation
