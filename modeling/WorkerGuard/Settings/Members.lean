import WorkerGuard.Json.Value
import WorkerGuard.Settings.Basic

/-!
# WorkerGuard.Settings.Members

Settings as a document: an object of sections, in order.

* `Settings.toJson`: the document.
-/

namespace WorkerGuard

open Json

def Breaker.Settings.toJson (b : Breaker.Settings) : Json :=
  .obj [("failure_threshold", .int b.failureThreshold.toNat),
    ("cooldown_secs", .int b.cooldownSecs.toNat)]

namespace Settings

def Storage.toJson (s : Storage) : Json :=
  .obj [("db_path", .str s.database), ("degrade_log", .str s.degradeLog)]

def Retry.toJson (s : Retry) : Json :=
  .obj [("max_attempts", .int s.maxAttempts.toNat), ("base_delay_ms", .int s.baseDelayMs.toNat),
    ("max_delay_ms", .int s.maxDelayMs.toNat), ("jitter_fraction", .float s.jitterFraction),
    ("attempt_timeout_ms", .int s.attemptTimeoutMs.toNat),
    ("max_attempt_timeout_ms", .int s.maxAttemptTimeoutMs.toNat),
    ("retryable_kinds", .arr (s.retryableKinds.map fun k => .str k.name))]

def Role.toJson (r : Role) : Json :=
  .obj [("ceiling", .int r.ceiling.toNat), ("max_worker_age_secs", .int r.maxWorkerAgeSecs.toNat)]

def Governor.toJson (s : Governor) : Json :=
  .obj [("max_depth", .int s.maxDepth.toNat), ("max_tree_size", .int s.maxTreeSize.toNat)]

def Lifecycle.toJson (s : Lifecycle) : Json :=
  .obj [("sweep_interval_secs", .int s.sweepIntervalSecs.toNat),
    ("query_timeout_ms", .int s.queryTimeoutMs.toNat),
    ("default_max_worker_age_secs", .int s.defaultMaxWorkerAgeSecs.toNat),
    ("override_poll_secs", .int s.overridePollSecs.toNat)]

def Policy.toJson (s : Policy) : Json :=
  .obj [("local_rounds", .int s.localRounds.toNat),
    ("spawn_after_secs", .int s.spawnAfterSecs.toNat),
    ("helper_role", .str s.helperRole)]

def Alerts.toJson (s : Alerts) : Json :=
  .obj [("window_secs", .int s.windowSecs.toNat), ("threshold", .int s.threshold.toNat)]

def toJson (s : Settings) : Json :=
  .obj [("storage", s.storage.toJson), ("retry", s.retry.toJson),
    ("breaker_defaults", s.breakerDefaults.toJson),
    ("dependencies", .obj (s.dependencies.entries.map fun e => (e.1, e.2.toJson))),
    ("roles", .obj (s.roles.entries.map fun e => (e.1, e.2.toJson))),
    ("governor", s.governor.toJson), ("lifecycle", s.lifecycle.toJson),
    ("policy", s.policy.toJson), ("alerts", s.alerts.toJson)]

end Settings
end WorkerGuard
