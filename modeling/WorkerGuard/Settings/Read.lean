import WorkerGuard.Json.Value
import WorkerGuard.Settings.Basic

/-!
# WorkerGuard.Settings.Read

Settings from a document.

* `Rules`: in what the document formats differ.
* `Settings.read?`: a section is an object, or an array of its values in order; what is missing has
  its default, and fields of other names are passed over.
-/

namespace WorkerGuard.Settings

structure Rules where
  /-- Whether an array may have more values than its section. -/
  surplus : Bool
  /-- Whether the name of a word may be a field that holds an empty object or array. -/
  emptyWord : Bool
  deriving DecidableEq, Repr

/-- What a section holds under each of its names. -/
def members? (rules : Rules) (names : List String) : Json → Option (List (Option Json))
  | .obj fs => some (names.map fun n => fs.lookup n)
  | .arr vs =>
    if vs.length ≤ names.length ∨ rules.surplus then
      some ((List.range names.length).map fun i => vs[i]?)
    else none
  | _ => none

def withDefault {α : Type} (read : Json → Option α) (d : α) : Option Json → Option α
  | none => some d
  | some v => read v

def text? : Json → Option String
  | .str s => some s
  | _ => none

def natural? (limit : Nat) : Json → Option Nat
  | .int k => if 0 ≤ k ∧ k ≤ limit then some k.toNat else none
  | _ => none

def word32? (v : Json) : Option UInt32 := (natural? 4294967295 v).map Nat.toUInt32

def word64? (v : Json) : Option UInt64 := (natural? 18446744073709551615 v).map Nat.toUInt64

def float? : Json → Option Float
  | .float x => some x
  | .int k => some (Float.ofInt k)
  | _ => none

def kind? (rules : Rules) : Json → Option Failure.Kind
  | .str s => Failure.Kind.words.lookup s
  | .obj [(k, .null)] => Failure.Kind.words.lookup k
  | .obj [(k, .obj [])] => if rules.emptyWord then Failure.Kind.words.lookup k else none
  | .obj [(k, .arr [])] => if rules.emptyWord then Failure.Kind.words.lookup k else none
  | _ => none

/-- Order and repetitions do not count. -/
def kinds? (rules : Rules) : Json → Option (List Failure.Kind)
  | .arr vs => (vs.mapM (kind? rules)).map fun ks => Failure.Kind.all.filter (ks.contains ·)
  | _ => none

def table? {α : Type} (read : Json → Option α) : Json → Option (Keyed α)
  | .obj fs => (fs.mapM fun f => (read f.2).map fun a => (f.1, a)).map Keyed.ofList
  | _ => none

def storage? (rules : Rules) (v : Json) : Option Storage := do
  let [db, log] ← members? rules ["db_path", "degrade_log"] v | none
  let d : Storage := {}
  return ⟨← withDefault text? d.database db, ← withDefault text? d.degradeLog log⟩

def retries? (rules : Rules) (v : Json) : Option Retry := do
  let [attempts, base, cap, jitter, timeout, timeoutCap, kinds] ← members? rules
    ["max_attempts", "base_delay_ms", "max_delay_ms", "jitter_fraction", "attempt_timeout_ms",
      "max_attempt_timeout_ms", "retryable_kinds"] v | none
  let d : Retry := {}
  return {
    maxAttempts := ← withDefault word32? d.maxAttempts attempts
    baseDelayMs := ← withDefault word64? d.baseDelayMs base
    maxDelayMs := ← withDefault word64? d.maxDelayMs cap
    jitterFraction := ← withDefault float? d.jitterFraction jitter
    attemptTimeoutMs := ← withDefault word64? d.attemptTimeoutMs timeout
    maxAttemptTimeoutMs := ← withDefault word64? d.maxAttemptTimeoutMs timeoutCap
    retryableKinds := ← withDefault (kinds? rules) d.retryableKinds kinds }

def breaker? (rules : Rules) (v : Json) : Option Breaker.Settings := do
  let [threshold, cooldown] ← members? rules ["failure_threshold", "cooldown_secs"] v | none
  return ⟨← withDefault word32? defaultBreaker.failureThreshold threshold,
    ← withDefault word64? defaultBreaker.cooldownSecs cooldown⟩

/-- A role has no default ceiling. -/
def role? (rules : Rules) (v : Json) : Option Role := do
  let [ceiling, age] ← members? rules ["ceiling", "max_worker_age_secs"] v | none
  return ⟨← ceiling.bind word32?, ← withDefault word64? 1800 age⟩

def governor? (rules : Rules) (v : Json) : Option Governor := do
  let [depth, tree] ← members? rules ["max_depth", "max_tree_size"] v | none
  let d : Governor := {}
  return ⟨← withDefault word32? d.maxDepth depth, ← withDefault word32? d.maxTreeSize tree⟩

def lifecycle? (rules : Rules) (v : Json) : Option Lifecycle := do
  let [sweep, query, age, poll] ← members? rules
    ["sweep_interval_secs", "query_timeout_ms", "default_max_worker_age_secs",
      "override_poll_secs"] v | none
  let d : Lifecycle := {}
  return ⟨← withDefault word64? d.sweepIntervalSecs sweep,
    ← withDefault word64? d.queryTimeoutMs query,
    ← withDefault word64? d.defaultMaxWorkerAgeSecs age,
    ← withDefault word64? d.overridePollSecs poll⟩

def policy? (rules : Rules) (v : Json) : Option Policy := do
  let [rounds, after, role] ← members? rules
    ["local_rounds", "spawn_after_secs", "helper_role"] v | none
  let d : Policy := {}
  return ⟨← withDefault word32? d.localRounds rounds, ← withDefault word64? d.spawnAfterSecs after,
    ← withDefault text? d.helperRole role⟩

def alerts? (rules : Rules) (v : Json) : Option Alerts := do
  let [window, threshold] ← members? rules ["window_secs", "threshold"] v | none
  let d : Alerts := {}
  return ⟨← withDefault word64? d.windowSecs window, ← withDefault word64? d.threshold threshold⟩

def read? (rules : Rules) (v : Json) : Option Settings := do
  let [storage, retry, breaker, dependencies, roles, governor, lifecycle, policy, alerts] ←
    members? rules ["storage", "retry", "breaker_defaults", "dependencies", "roles", "governor",
      "lifecycle", "policy", "alerts"] v | none
  return {
    storage := ← withDefault (storage? rules) {} storage
    retry := ← withDefault (retries? rules) {} retry
    breakerDefaults := ← withDefault (breaker? rules) defaultBreaker breaker
    dependencies := ← withDefault (table? (breaker? rules)) .empty dependencies
    roles := ← withDefault (table? (role? rules)) defaultRoles roles
    governor := ← withDefault (governor? rules) {} governor
    lifecycle := ← withDefault (lifecycle? rules) {} lifecycle
    policy := ← withDefault (policy? rules) {} policy
    alerts := ← withDefault (alerts? rules) {} alerts }

/-- Settings in a JSON document. -/
def ofJson? (v : Json) : Option Settings := read? ⟨false, false⟩ v

end WorkerGuard.Settings
