import WorkerGuard.Settings.Basic

/-!
# WorkerGuard.Settings.Check

Settings that are refused because they would switch a safeguard off.

* `Settings.Invalid`: the reasons.
* `Settings.check`: the first reason, in the order of the sections.

`check` embeds `validate`.
-/

namespace WorkerGuard.Settings

inductive Invalid where
  | noAttempts
  | delaysReversed
  | jitterOutOfRange
  | attemptTimeoutOutOfRange
  | outageRetried
  /-- The breaker section of this name has no threshold. -/
  | noThreshold (name : String)
  | noCeiling (role : String)
  | unknownHelperRole (role : String)
  | noAlertThreshold
  deriving DecidableEq, Repr

def Invalid.message : Invalid → String
  | noAttempts => "retry.max_attempts must be >= 1"
  | delaysReversed => "retry.base_delay_ms must not exceed retry.max_delay_ms"
  | jitterOutOfRange => "retry.jitter_fraction must be within [0, 1]"
  | attemptTimeoutOutOfRange => "retry.attempt_timeout_ms must be in 1..=max_attempt_timeout_ms"
  | outageRetried => "dependency_unavailable can never be retryable"
  | noThreshold s => s ++ ": failure_threshold must be >= 1"
  | noCeiling role => "roles." ++ role ++ ": ceiling must be >= 1"
  | unknownHelperRole role => "policy.helper_role '" ++ role ++ "' has no [roles] entry"
  | noAlertThreshold => "alerts.threshold must be >= 1"

/-- The breaker sections by name, the defaults first. -/
def breakerSections (s : Settings) : List (String × Breaker.Settings) :=
  ("breaker_defaults", s.breakerDefaults) :: s.dependencies.entries

def faults (s : Settings) : List Invalid :=
  (if s.retry.maxAttempts = 0 then [.noAttempts] else []) ++
  (if s.retry.maxDelayMs < s.retry.baseDelayMs then [.delaysReversed] else []) ++
  (if 0.0 ≤ s.retry.jitterFraction ∧ s.retry.jitterFraction ≤ 1.0 then [] else
    [.jitterOutOfRange]) ++
  (if s.retry.attemptTimeoutMs = 0 ∨ s.retry.maxAttemptTimeoutMs < s.retry.attemptTimeoutMs then
    [.attemptTimeoutOutOfRange] else []) ++
  (if .dependencyUnavailable ∈ s.retry.retryableKinds then [.outageRetried] else []) ++
  (s.breakerSections.filter fun e => e.2.failureThreshold == 0).map (fun e => .noThreshold e.1) ++
  (s.roles.entries.filter fun e => e.2.ceiling == 0).map (fun e => .noCeiling e.1) ++
  (if s.roles.contains s.policy.helperRole then [] else [.unknownHelperRole s.policy.helperRole]) ++
  (if s.alerts.threshold = 0 then [.noAlertThreshold] else [])

def check (s : Settings) : Except Invalid Unit :=
  match s.faults with
  | [] => .ok ()
  | f :: _ => .error f

end WorkerGuard.Settings
