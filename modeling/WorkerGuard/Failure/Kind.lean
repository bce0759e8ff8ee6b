import WorkerGuard.Vocabulary

/-!
# WorkerGuard.Failure.Kind

What sort of failure a call met with.

* `Kind`: the six sorts.
* `RetryableKind`: the three of them that a second try can mend. An unavailable dependency is none
  of them, so nothing that asks for a `RetryableKind` can follow from it.

`Kind` embeds `ErrorKind`, and `retryable?` its `as_retryable`.
-/

namespace WorkerGuard.Failure

inductive Kind where
  | transient
  | timeout
  | rateLimited
  | auth
  | dependencyUnavailable
  | fatal
  deriving DecidableEq, Repr, Inhabited

inductive RetryableKind where
  | transient
  | timeout
  | rateLimited
  deriving DecidableEq, Repr

namespace Kind

def all : List Kind := [transient, timeout, rateLimited, auth, dependencyUnavailable, fatal]

def name : Kind → String
  | transient => "transient"
  | timeout => "timeout"
  | rateLimited => "rate_limited"
  | auth => "auth"
  | dependencyUnavailable => "dependency_unavailable"
  | fatal => "fatal"

def describe : Kind → String
  | transient => "Transient"
  | timeout => "Timeout"
  | rateLimited => "RateLimited"
  | auth => "Auth"
  | dependencyUnavailable => "DependencyUnavailable"
  | fatal => "Fatal"

/-- The exact names. -/
def words : List (String × Kind) := all.map fun k => (k.name, k)

/-- Names that are read in any case, with two more spellings for those of two words. -/
def spellings : List (String × Kind) :=
  words ++ [("ratelimited", rateLimited), ("rate-limited", rateLimited),
    ("dependency-unavailable", dependencyUnavailable)]

def ofText (s : String) : Except UnknownWord Kind := Vocabulary.failureKind.lookUp spellings s

def retryable? : Kind → Option RetryableKind
  | transient => some .transient
  | timeout => some .timeout
  | rateLimited => some .rateLimited
  | auth | dependencyUnavailable | fatal => none

theorem mem_all (k : Kind) : k ∈ all := by cases k <;> decide

end Kind

namespace RetryableKind

def toKind : RetryableKind → Kind
  | transient => .transient
  | timeout => .timeout
  | rateLimited => .rateLimited

def words : List (String × RetryableKind) :=
  [transient, timeout, rateLimited].map fun k => (k.toKind.name, k)

end RetryableKind

@[simp] theorem Kind.retryable?_toKind (k : RetryableKind) : k.toKind.retryable? = some k := by
  cases k <;> rfl

theorem Kind.retryable?_eq_some_iff {k : Kind} {r : RetryableKind} :
    k.retryable? = some r ↔ k = r.toKind := by
  cases k <;> cases r <;> simp [Kind.retryable?, RetryableKind.toKind]

end WorkerGuard.Failure
