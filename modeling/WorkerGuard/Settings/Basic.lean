import WorkerGuard.Breaker.Board
import WorkerGuard.Failure.Kind

/-!
# WorkerGuard.Settings.Basic

The settings of a project.

* `Settings`: all of them, in sections; each section has its default values.
* `Role`: what the settings say about a role of workers.
* `Settings.board`, `Settings.roleNamed`: the breakers of a dependency and the role of a name.

`Settings` embeds `TetherConfig`. `roleNamed` and `allRoles` are its `role` and `worker_roles`; the
look-up of `breaker_for` is `Board.settings`.
-/

namespace WorkerGuard

namespace Settings

/-- Where the registry and the log of given-up tasks are kept. -/
structure Storage where
  database : String := ".tether/registry.db"
  degradeLog : String := ".tether/degraded.jsonl"
  deriving DecidableEq, Repr

structure Retry where
  /-- Retries after the first call. -/
  maxAttempts : UInt32 := 3
  baseDelayMs : UInt64 := 1000
  maxDelayMs : UInt64 := 30000
  /-- The largest part of a delay that is added to it at random. -/
  jitterFraction : Float := 0.2
  attemptTimeoutMs : UInt64 := 30000
  /-- Bounds on attempts grow after timeouts, but not past this one. -/
  maxAttemptTimeoutMs : UInt64 := 120000
  /-- In the order of `Failure.Kind.all`. -/
  retryableKinds : List Failure.Kind := [.transient, .timeout, .rateLimited]

structure Role where
  ceiling : UInt32
  maxWorkerAgeSecs : UInt64 := 1800
  deriving DecidableEq, Repr

structure Governor where
  /-- The depth of the deepest helpers; a worker without a parent has depth 0. -/
  maxDepth : UInt32 := 2
  /-- The most active workers that may share a root. -/
  maxTreeSize : UInt32 := 8
  deriving DecidableEq, Repr

structure Lifecycle where
  sweepIntervalSecs : UInt64 := 60
  /-- The longest that one sweep may take. -/
  queryTimeoutMs : UInt64 := 5000
  /-- For workers of roles that are not configured. -/
  defaultMaxWorkerAgeSecs : UInt64 := 1800
  overridePollSecs : UInt64 := 5
  deriving DecidableEq, Repr

structure Policy where
  localRounds : UInt32 := 2
  /-- A younger task may not ask for a helper. -/
  spawnAfterSecs : UInt64 := 120
  helperRole : String := "helper"
  deriving DecidableEq, Repr

structure Alerts where
  windowSecs : UInt64 := 3600
  threshold : UInt64 := 3
  deriving DecidableEq, Repr

def defaultBreaker : Breaker.Settings := ⟨5, 60⟩

def defaultRoles : Keyed Role := .ofList [("worker", ⟨4, 1800⟩), ("helper", ⟨10, 900⟩)]

end Settings

structure Settings where
  storage : Settings.Storage := {}
  retry : Settings.Retry := {}
  breakerDefaults : Breaker.Settings := Settings.defaultBreaker
  dependencies : Keyed Breaker.Settings := .empty
  roles : Keyed Settings.Role := Settings.defaultRoles
  governor : Settings.Governor := {}
  lifecycle : Settings.Lifecycle := {}
  policy : Settings.Policy := {}
  alerts : Settings.Alerts := {}
  /-- Races for the row of a breaker that may be lost in a row; no document sets it. -/
  patience : Nat := Breaker.usualPatience

/-- A role of workers. -/
structure Role where
  name : String
  /-- The most active workers of the role. -/
  ceiling : UInt32
  maxAge : Duration
  deriving DecidableEq

namespace Settings

instance : Inhabited Settings := ⟨{}⟩

def Retry.baseDelay (s : Retry) : Duration := .ofMillis s.baseDelayMs
def Retry.maxDelay (s : Retry) : Duration := .ofMillis s.maxDelayMs
def Retry.attemptTimeout (s : Retry) : Duration := .ofMillis s.attemptTimeoutMs
def Retry.maxAttemptTimeout (s : Retry) : Duration := .ofMillis s.maxAttemptTimeoutMs
def Lifecycle.sweepInterval (s : Lifecycle) : Duration := .ofSeconds s.sweepIntervalSecs
def Lifecycle.queryTimeout (s : Lifecycle) : Duration := .ofMillis s.queryTimeoutMs
def Lifecycle.defaultMaxWorkerAge (s : Lifecycle) : Duration := .ofSeconds s.defaultMaxWorkerAgeSecs
def Lifecycle.overridePollInterval (s : Lifecycle) : Duration := .ofSeconds s.overridePollSecs
def Policy.spawnAfter (s : Policy) : Duration := .ofSeconds s.spawnAfterSecs
def Alerts.window (s : Alerts) : Duration := .ofSeconds s.windowSecs

/-- The breakers of a process; those of a process with a registry are shared. -/
def board (s : Settings) (shared : Bool) : Breaker.Board :=
  ⟨s.breakerDefaults, s.dependencies, shared, s.patience⟩

def Role.named (r : Settings.Role) (name : String) : WorkerGuard.Role :=
  ⟨name, r.ceiling, .ofSeconds r.maxWorkerAgeSecs⟩

def roleNamed (s : Settings) (name : String) : Option WorkerGuard.Role :=
  (s.roles.find? name).map (·.named name)

/-- The configured roles in the order of their names. -/
def allRoles (s : Settings) : List WorkerGuard.Role := s.roles.entries.map fun e => e.2.named e.1

end Settings
end WorkerGuard
