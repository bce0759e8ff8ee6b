import WorkerGuard.Degrade.Log
import WorkerGuard.Failure.CallError
import WorkerGuard.Registry.Request

/-!
# WorkerGuard.Program

What a process does, as a tree: one call to its surroundings at a time, and what follows upon each
answer.

* `Call`: the calls, each one atomic step; `Call.Answer`: the type of what comes back.
* `Program`: the tree. Every path through it is finite.
* `Program.call`: a single call; programs are sequenced as a monad.
-/

namespace WorkerGuard

/-- Why a program cannot go on. -/
inductive Halt where
  /-- A depth, a count of attempts or a delay is out of range. -/
  | outOfRange
  /-- Others changed a row again and again, each time just before it was written. -/
  | contention
  /-- The steps that a loop was given are used up. -/
  | unfinished
  deriving DecidableEq, Repr

/-- What comes of one call to a dependency. -/
inductive Attempt where
  | returned (result : Except Failure.CallError Json)
  /-- The bound passed first. -/
  | overran

inductive Call where
  | now
  | registry (q : Registry.Request)
  /-- The process takes up its handle on a dependency. -/
  | enlist (d : Dependency)
  /-- The dependencies on which the process has handles, in order. -/
  | enlisted
  /-- The word that the process keeps for a dependency. -/
  | word (d : Dependency)
  | setWord (d : Dependency) (word : UInt64)
  /-- Sets the word if it is the old one; the answer is the word that was there. -/
  | exchangeWord (d : Dependency) (old new : UInt64)
  /-- Whether the process holds a dependency open on an operator's word. -/
  | forced (d : Dependency)
  | setForced (d : Dependency) (forced : Bool)
  /-- The dependencies that the process holds open, in order. -/
  | allForced
  | sleep (d : Duration)
  /-- Calls the dependency, for no longer than a bound. -/
  | attempt (d : Dependency) (bound : Duration)
  /-- A random number from 0 to 1. -/
  | jitter
  /-- A name that no worker has. -/
  | freshId
  | appendLog (a : Artifact)
  | readLog
  /-- When the process last raised an alert for a role. -/
  | lastAlert (role : String)
  | setLastAlert (role : String) (time : Instant)

abbrev Call.Answer : Call → Type
  | now => Instant
  | registry q => Except Registry.Error q.Answer
  | enlist _ => Unit
  | enlisted => List Dependency
  | word _ => UInt64
  | setWord .. => Unit
  | exchangeWord .. => UInt64
  | forced _ => Bool
  | setForced .. => Unit
  | allForced => List Dependency
  | sleep _ => Unit
  | attempt .. => Attempt
  | jitter => Float
  | freshId => WorkerId
  | appendLog _ => Except Log.Error Unit
  | readLog => Except Log.Error (List Artifact)
  | lastAlert _ => Option Instant
  | setLastAlert .. => Unit

inductive Program (α : Type) where
  | done (a : α)
  | halt (why : Halt)
  | ask (q : Call) (next : q.Answer → Program α)

namespace Program

variable {α β γ : Type}

protected def bind : Program α → (α → Program β) → Program β
  | done a, f => f a
  | halt why, _ => halt why
  | ask q next, f => ask q fun r => (next r).bind f

instance : Monad Program where
  pure := done
  bind := Program.bind

instance : Inhabited (Program α) := ⟨halt .outOfRange⟩

def call (q : Call) : Program q.Answer := ask q done

/-- A request to the registry. -/
def request (q : Registry.Request) : Program (Except Registry.Error q.Answer) := call (.registry q)

@[simp] theorem bind_done (a : α) (f : α → Program β) : (done a).bind f = f a := rfl

@[simp] theorem bind_halt (why : Halt) (f : α → Program β) :
    (halt why : Program α).bind f = halt why := rfl

@[simp] theorem bind_ask (q : Call) (next : q.Answer → Program α) (f : α → Program β) :
    (ask q next).bind f = ask q fun r => (next r).bind f := rfl

theorem bind_assoc (p : Program α) (f : α → Program β) (g : β → Program γ) :
    (p.bind f).bind g = p.bind fun a => (f a).bind g := by
  induction p with
  | done a => rfl
  | halt why => rfl
  | ask q next ih => simp only [bind_ask, ih]

theorem bind_pure (p : Program α) : p.bind done = p := by
  induction p with
  | done a => rfl
  | halt why => rfl
  | ask q next ih => simp only [bind_ask, ih]

instance : LawfulMonad Program :=
  LawfulMonad.mk' Program bind_pure (fun _ _ => rfl) bind_assoc

end Program
end WorkerGuard
