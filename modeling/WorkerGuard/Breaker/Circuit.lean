import WorkerGuard.Vocabulary

/-!
# WorkerGuard.Breaker.Circuit

The three positions of a circuit breaker.

* `Circuit`: closed lets every call pass, opened lets none pass, half open waits for one probe.

`Circuit` embeds `CircuitState`.
-/

namespace WorkerGuard

inductive Circuit where
  | closed
  | opened
  | halfOpen
  deriving DecidableEq, Repr, Inhabited

namespace Circuit

def name : Circuit → String
  | closed => "closed"
  | opened => "open"
  | halfOpen => "half_open"

def describe : Circuit → String
  | closed => "Closed"
  | opened => "Open"
  | halfOpen => "HalfOpen"

def words : List (String × Circuit) := [closed, opened, halfOpen].map fun c => (c.name, c)

def ofText (s : String) : Except UnknownWord Circuit :=
  Vocabulary.circuitState.lookUp (words ++ [("half-open", halfOpen)]) s

end Circuit
end WorkerGuard
