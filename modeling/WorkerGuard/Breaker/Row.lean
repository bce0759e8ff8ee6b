import WorkerGuard.Breaker.Circuit
import WorkerGuard.Json.Record

/-!
# WorkerGuard.Breaker.Row

The row that all processes share for one dependency.

* `Breaker.Row`: position, failures in a row, and a time stamp in milliseconds from 1970: when the
  breaker opened, or when the probe of a half open one began.
* `Breaker.Row.fresh`: what a dependency has before anything is recorded.

`Row` embeds `BreakerRecord`.
-/

namespace WorkerGuard.Breaker

structure Row where
  circuit : Circuit
  failures : UInt32
  stamp : UInt64
  deriving DecidableEq, Repr

namespace Row

def fresh : Row := ⟨.closed, 0, 0⟩

instance : Inhabited Row := ⟨fresh⟩

def toJson (r : Row) : Json :=
  .obj [("state", .str r.circuit.name), ("consecutive_failures", .int r.failures.toNat),
    ("stamp_ms", .int r.stamp.toNat)]

open Json.Record in
def read? (w : Json.Written) : Option Row := do
  let [state, failures, stamp] ← members? ["state", "consecutive_failures", "stamp_ms"] w | none
  return ⟨← required (word? Circuit.words) state, ← required word32? failures,
    ← required word64? stamp⟩

end Row
end WorkerGuard.Breaker
