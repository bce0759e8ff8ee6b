import WorkerGuard.Json.Record
import WorkerGuard.Name

/-!
# WorkerGuard.Override

Emergency stops: an operator shuts a dependency off until further notice.

* `Override`: the stop of one dependency, as the registry keeps it.

`Override` embeds `DependencyOverride`.
-/

namespace WorkerGuard

structure Override where
  dependency : Dependency
  reason : Option String
  setAt : Instant
  deriving DecidableEq

namespace Override

def toJson (o : Override) : Json :=
  .obj [("dependency", .str o.dependency.name), ("reason", .ofOption .str o.reason),
    ("set_at", .str o.setAt.stamp)]

open Json.Record in
def read? (w : Json.Written) : Option Override := do
  let [dependency, reason, setAt] ← members? ["dependency", "reason", "set_at"] w | none
  return ⟨⟨← required text? dependency⟩, ← optional text? reason, ← required instant? setAt⟩

end Override
end WorkerGuard
