import WorkerGuard.Breaker.Word
import WorkerGuard.Program

/-!
# WorkerGuard.Breaker.Handle

The handle that one process has on the breaker of one dependency.

* `Breaker`: the handle and its settings. A shared one works on the row in the registry, and on the
  word of its process only while the registry cannot be reached.
* `Breaker.transact`: one step on the row, or on the word, by compare and swap.
* `allow`, `recordSuccess`, `recordFailure`: what callers do.
* `state`, `failureCount`, `timeUntilProbe`, `snapshot`: what they can see.
* An operator's override (`forceOpen`, `clearOverride`) refuses all calls and changes nothing else.

`Breaker` embeds `CircuitBreaker`. `transactShared`, `transactLocal`, `transact` and `current` embed
`transact_shared`, `transact_local`, `transact` and `current`, with `load_local` and `mirror` as
calls that read and set the word; `cooldownMillis` embeds `cooldown_ms`. What callers do and see are
`allow_request`, `record_success`, `record_failure`, `state`, `failure_count`, `time_until_probe`
and `snapshot`; the override is `force_open`, `clear_override` and `is_forced_open`.
-/

namespace WorkerGuard

structure Breaker.Settings where
  failureThreshold : UInt32
  cooldownSecs : UInt64
  deriving DecidableEq, Repr

structure Breaker where
  dependency : Dependency
  /-- So many failures in a row open the breaker. -/
  threshold : Nat
  cooldown : Duration
  shared : Bool
  /-- Races for the row that a step may lose in a row. -/
  patience : Nat
  threshold_pos : 1 ≤ threshold
  threshold_le : threshold ≤ Breaker.maxFailures

namespace Breaker

def Settings.cooldown (s : Settings) : Duration := .ofSeconds s.cooldownSecs

/-- Nobody loses so many races in earnest. -/
def usualPatience : Nat := 65536

/-- A threshold outside the range of the count is moved to its nearer end. -/
def ofSettings (d : Dependency) (s : Settings) (shared : Bool)
    (patience : Nat := usualPatience) : Breaker where
  dependency := d
  threshold := max 1 (min s.failureThreshold.toNat maxFailures)
  cooldown := s.cooldown
  shared := shared
  patience := patience
  threshold_pos := Nat.le_max_left _ _
  threshold_le := Nat.max_le.2 ⟨by decide, Nat.min_le_right _ _⟩

/-- The cooldown in milliseconds, of which 64 bits are kept. -/
def cooldownMillis (b : Breaker) : Nat := b.cooldown.millis % UInt64.size

/-- Milliseconds from 1970 by the clock, zero before. -/
def reading : Program Nat := do
  let now ← Program.call .now
  return now.millis.toNat

/-- A step gets the condition and a reading of the clock; it may leave all as it is. -/
abbrev Step := Condition → Nat → Option Condition

/-- What a step found, and what it put in its place. -/
structure Outcome where
  before : Condition
  after : Option Condition

def Outcome.last (o : Outcome) : Condition := o.after.getD o.before

/-- The row has to be the one that was read, whatever the condition makes of it. -/
def transactShared (d : Dependency) (step : Step) :
    Nat → Program (Except Registry.Error Outcome)
  | 0 => .halt .contention
  | tries + 1 => do
    match ← Program.request (.loadBreaker d) with
    | .error e => return .error e
    | .ok row =>
      let before := Condition.ofRow row
      match step before (← reading) with
      | none => return .ok ⟨before, none⟩
      | some after =>
        match ← Program.request (.swapBreaker d row after.toRow) with
        | .error e => return .error e
        | .ok true => return .ok ⟨before, some after⟩
        | .ok false => transactShared d step tries

def transactWord (d : Dependency) (step : Step) : Nat → UInt64 → Program Outcome
  | 0, _ => .halt .contention
  | tries + 1, word => do
    let before := decode word
    match step before (← reading) with
    | none => return ⟨before, none⟩
    | some after =>
      let found ← Program.call (.exchangeWord d word (encode after.toRow))
      if found = word then return ⟨before, some after⟩ else transactWord d step tries found

def transactLocal (b : Breaker) (step : Step) : Program Outcome := do
  transactWord b.dependency step b.patience (← Program.call (.word b.dependency))

/-- The word follows the row. -/
def transact (b : Breaker) (step : Step) : Program Outcome := do
  if b.shared then
    match ← transactShared b.dependency step b.patience with
    | .ok o =>
      Program.call (.setWord b.dependency (encode o.last.toRow))
      return o
    | .error _ => b.transactLocal step
  else b.transactLocal step

/-- The condition now. -/
def current (b : Breaker) : Program Condition := do
  if b.shared then
    match ← Program.request (.loadBreaker b.dependency) with
    | .ok row =>
      let c := Condition.ofRow row
      Program.call (.setWord b.dependency (encode c.toRow))
      return c
    | .error _ => return decode (← Program.call (.word b.dependency))
  else return decode (← Program.call (.word b.dependency))

def isForced (b : Breaker) : Program Bool := Program.call (.forced b.dependency)

def forceOpen (b : Breaker) : Program Unit := Program.call (.setForced b.dependency true)

def clearOverride (b : Breaker) : Program Unit := Program.call (.setForced b.dependency false)

/-- Whether a call may be made now. Who moves the breaker is its probe. -/
def allow (b : Breaker) : Program Bool := do
  if ← b.isForced then return false
  let o ← b.transact fun c now => c.admitStep now b.cooldownMillis
  return o.after.isSome || o.before.circuit == .closed

def recordSuccess (b : Breaker) : Program Unit := do
  let _ ← b.transact fun c _ => c.successStep

def recordFailure (b : Breaker) : Program Unit := do
  let _ ← b.transact fun c now => some (c.failureStep now b.threshold)

/-- Looking at a breaker never moves it. -/
def state (b : Breaker) : Program Circuit := do
  if ← b.isForced then return .opened
  return (← b.current).circuit

def failureCount (b : Breaker) : Program Nat := do return (← b.current).failures

/-- Nothing but the end of the override helps a breaker that is held open. -/
def timeUntilProbe (b : Breaker) : Program (Option Duration) := do
  if ← b.isForced then return none
  let c ← b.current
  match c.circuit with
  | .closed => return some .zero
  | .opened | .halfOpen =>
    return some (.ofMillis (c.wait (← reading) b.cooldownMillis).toUInt64)

/-- A breaker as it is shown to operators. -/
structure Snapshot where
  dependency : Dependency
  state : Circuit
  failures : Nat
  openedAt : Option Instant
  probeStartedAt : Option Instant
  forcedOpen : Bool
  threshold : Nat
  cooldown : Duration

def snapshot (b : Breaker) : Program Snapshot := do
  let c ← b.current
  let forced ← b.isForced
  let stamp := Instant.ofMillis? c.stamp
  return {
    dependency := b.dependency
    state := if forced then .opened else c.circuit
    failures := c.failures
    openedAt := if c.circuit = .opened then stamp else none
    probeStartedAt := if c.circuit = .halfOpen then stamp else none
    forcedOpen := forced
    threshold := b.threshold
    cooldown := b.cooldown }

/-- A description by what the process itself knows. -/
def describe (b : Breaker) : Program String := do
  let c := decode (← Program.call (.word b.dependency))
  let forced ← b.isForced
  return "CircuitBreaker \x7b dependency: " ++ b.dependency.describe ++
    ", state: " ++ c.circuit.describe ++ ", failures: " ++ toString c.failures ++
    ", forced_open: " ++ toString forced ++ ", shared: " ++ toString b.shared ++
    ", threshold: " ++ toString b.threshold ++ ", cooldown: " ++ b.cooldown.text ++ " \x7d"

end Breaker
end WorkerGuard
