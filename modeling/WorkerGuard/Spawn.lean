import WorkerGuard.Breaker.Board
import WorkerGuard.Settings.Basic

/-!
# WorkerGuard.Spawn

Whether a new worker may be made. A request is granted or refused at once, it never waits.

* `Spawn.Request`, `Spawn.Refusal`, `Spawn.Decision`.
* `Spawn.request`: the role, the breaker, the parent and the depth are looked at in this order; the
  ceilings are checked by the registry as it inserts the worker.

`request` embeds `request_spawn` of `SpawnGovernor`: `place` is what it learns from the parent,
`enroll` the insertion.
-/

namespace WorkerGuard.Spawn

structure Request where
  role : String
  parent : Option WorkerId
  /-- What the new worker would call. -/
  dependency : Dependency
  deriving DecidableEq

inductive Refusal where
  | unknownRole (role : String)
  | circuitOpen (dependency : Dependency) (circuit : Circuit)
  | parentNotFound (id : WorkerId)
  | parentInactive (id : WorkerId)
  | depthExceeded (depth maxDepth : UInt32)
  | ceilingReached (role : String) (ceiling : UInt32)
  deriving DecidableEq

def Refusal.message : Refusal → String
  | unknownRole role => "unknown role '" ++ role ++ "'"
  | circuitOpen d c => "circuit for " ++ d.name ++ " is " ++ c.name
  | parentNotFound id => "parent " ++ id.text ++ " not found"
  | parentInactive id => "parent " ++ id.text ++ " is not active"
  | depthExceeded depth limit =>
    "depth " ++ toString depth.toNat ++ " exceeds max depth " ++ toString limit.toNat
  | ceilingReached role ceiling =>
    "ceiling reached for role '" ++ role ++ "' (" ++ toString ceiling.toNat ++ ") or its spawn tree"

inductive Decision where
  | granted (worker : Worker)
  | refused (why : Refusal)
  deriving DecidableEq

/-- Where a new worker stands in its tree. -/
structure Place where
  root : WorkerId
  depth : UInt32

/-- A worker without a parent is a root of its own; a child is one deeper than its parent. -/
def place (id : WorkerId) :
    Option WorkerId → Program (Except Registry.Error (Except Refusal Place))
  | none => return .ok (.ok ⟨id, 0⟩)
  | some parent => do
    match ← Program.request (.get parent) with
    | .error e => return .error e
    | .ok none => return .ok (.error (.parentNotFound parent))
    | .ok (some p) =>
      if !p.isActive then return .ok (.error (.parentInactive parent))
      else if p.depth.toNat + 1 = UInt32.size then .halt .outOfRange
      else return .ok (.ok ⟨p.root, p.depth + 1⟩)

/-- Registers a worker whose place is known. -/
def enroll (s : Settings) (role : Role) (id : WorkerId) (q : Request) (p : Place) :
    Program (Except Registry.Error Decision) := do
  if s.governor.maxDepth < p.depth then
    return .ok (.refused (.depthExceeded p.depth s.governor.maxDepth))
  else
    let now ← Program.call .now
    let recruit : Recruit := ⟨id, role.name, q.parent, p.root, p.depth, q.dependency, now⟩
    match ← Program.request (.insert recruit ⟨role.ceiling, s.governor.maxTreeSize⟩) with
    | .error e => return .error e
    | .ok (some w) => return .ok (.granted w)
    | .ok none => return .ok (.refused (.ceilingReached role.name role.ceiling))

def request (s : Settings) (q : Request) : Program (Except Registry.Error Decision) := do
  match s.roleNamed q.role with
  | none => return .ok (.refused (.unknownRole q.role))
  | some role =>
    let circuit ← (s.board true).state q.dependency
    if circuit ≠ .closed then return .ok (.refused (.circuitOpen q.dependency circuit))
    else
      let id ← Program.call .freshId
      match ← place id q.parent with
      | .error e => return .error e
      | .ok (.error why) => return .ok (.refused why)
      | .ok (.ok p) => enroll s role id q p

end WorkerGuard.Spawn
