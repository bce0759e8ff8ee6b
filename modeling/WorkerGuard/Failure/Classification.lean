import WorkerGuard.Failure.CallError
import WorkerGuard.Failure.Pattern
import WorkerGuard.Json.Record

/-!
# WorkerGuard.Failure.Classification

The judgement on a failed call: its kind, and whether and when to try again.

* `Classification`: the judgement.
* `kindOfMessage`: five patterns, tried in order; a message that none of them finds is fatal.
* `classify`: the judgement on any `CallError`. Word of an open circuit is never taken for a blip.

`classify`, `kindOfStatus` and `kindOfMessage` embed `classify`, `classify_status` and
`kind_from_message` of `ErrorClassifier`; the patterns are its `MessagePatterns`.
-/

namespace WorkerGuard.Failure

structure Classification where
  kind : Kind
  retryable : Bool
  /-- The wait that the failure itself asks for. -/
  suggestedDelay : Option Duration
  deriving DecidableEq

namespace Message

open Pattern

/-- Messages such as `circuit open` and `circuit breaker is open`. -/
def circuitOpen : Pattern :=
  all [text "circuit", blanks, optional (seq (text "breaker") blanks),
    optional (seq (text "is") blanks), text "open"]

def auth : Pattern :=
  anyOf [wholeWord (text "401"), wholeWord (text "403"),
    all [text "unauthori", anyOf [letter 's', letter 'z'], text "ed"], text "forbidden",
    text "invalid api key", text "authentication", text "permission denied"]

def rateLimited : Pattern :=
  anyOf [wholeWord (text "429"), all [text "rate", maybe (· != '\n'), text "limit"],
    text "too many requests", text "quota exceeded", text "throttl"]

def timedOut : Pattern :=
  anyOf [all [text "time", optional (letter 'd'), maybe Text.isBlank, text "out"],
    text "deadline exceeded", wholeWord (text "408"), wholeWord (text "504")]

def transient : Pattern :=
  anyOf [seq (text "connection ") (anyOf [text "reset", text "refused", text "closed",
      text "aborted"]),
    text "broken pipe", text "temporar", text "unavailable",
    wholeWord (seq (text "50") (one fun c => '0' ≤ c && c ≤ '3')), text "try again",
    text "network", text "unexpected eof"]

/-- The patterns in the order in which they are tried. -/
def byPrecedence : List (Pattern × Kind) :=
  [(circuitOpen, .dependencyUnavailable), (auth, .auth), (rateLimited, .rateLimited),
    (timedOut, .timeout), (transient, .transient)]

end Message

def kindOfMessage (s : String) : Kind :=
  match Message.byPrecedence.find? fun e => e.1.occursIn s with
  | some e => e.2
  | none => .fatal

/-- What a status code alone says. -/
def kindOfStatus (code : UInt16) : Kind :=
  if code = 401 ∨ code = 403 then .auth
  else if code = 408 ∨ code = 504 then .timeout
  else if code = 429 then .rateLimited
  else if 500 ≤ code ∧ code ≤ 599 then .transient
  else .fatal

def Classification.ofKind (k : Kind) : Classification := ⟨k, k.retryable?.isSome, none⟩

/-- An answer that tells of an open circuit means an unavailable dependency, whatever its code. -/
def classify : CallError → Classification
  | .circuitOpen _ => .ofKind .dependencyUnavailable
  | .timeout _ => .ofKind .timeout
  | .rateLimited after => ⟨.rateLimited, true, after⟩
  | .status code body =>
    if Message.circuitOpen.occursIn body then .ofKind .dependencyUnavailable
    else .ofKind (kindOfStatus code)
  | .connection _ => .ofKind .transient
  | .auth _ => .ofKind .auth
  | .fatal _ => .ofKind .fatal
  | .other text => .ofKind (kindOfMessage text)

def describeOption {α : Type} (f : α → String) : Option α → String
  | some a => "Some(" ++ f a ++ ")"
  | none => "None"

def Classification.describe (c : Classification) : String :=
  "Classification \x7b kind: " ++ c.kind.describe ++ ", retryable: " ++ toString c.retryable ++
    ", suggested_delay: " ++ describeOption Duration.text c.suggestedDelay ++ " \x7d"

def Classification.toJson (c : Classification) : Json :=
  .obj [("kind", .str c.kind.name), ("retryable", .bool c.retryable),
    ("suggested_delay", .ofOption .ofDuration c.suggestedDelay)]

open Json.Record in
def Classification.read? (w : Json.Written) : Option Classification := do
  let [kind, retryable, delay] ← members? ["kind", "retryable", "suggested_delay"] w | none
  return ⟨← required (word? Kind.words) kind, ← required bool? retryable,
    ← optional duration? delay⟩

end WorkerGuard.Failure
