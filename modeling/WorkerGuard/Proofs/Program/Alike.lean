import WorkerGuard.Proofs.Program.Trail
import WorkerGuard.Proofs.Registry.Silent

/-!
# WorkerGuard.Proofs.Program.Alike

Programs that do the same when the heartbeats in what they are told are others.

* `Call.silent`: an answer, but for the heartbeats in it.
* `Program.Alike view x x'`: as long as the answers to the programs `x` and `x'` differ in heartbeats
  only, these make the same calls, and end with values that look the same to `view`. None of the
  calls is a heartbeat.
* `alike_pure`, `alike_call`, `alike_request`, `alike_bind`, `alike_of_asks`: its rules.
* `Memory.reply`: a registry in memory answers requests; other calls get answers that are given.
* `Alike.follow`: then the programs end alike, and so do their registries.
-/

namespace WorkerGuard

open Registry

def Call.silent : (q : Call) → q.Answer → q.Answer
  | .registry q, a => Except.map q.silent a
  | _, a => a

def Call.isHeartbeat : Call → Bool
  | .registry q => q.isHeartbeat
  | _ => false

/-- Neither a heartbeat itself, nor answered with workers. -/
def Call.Plain (q : Call) : Prop :=
  q.isHeartbeat = false ∧ ∀ a a', q.silent a = q.silent a' → a = a'

/-- Two answers that look the same are failures, or successes that look the same. -/
theorem except_map_eq {ε α γ : Type} {f : α → γ} {a a' : Except ε α} (h : a.map f = a'.map f) :
    (∃ e, a = .error e ∧ a' = .error e) ∨ ∃ v v', a = .ok v ∧ a' = .ok v' ∧ f v = f v' := by
  cases a with
  | error e =>
    cases a' with
    | error e' => cases h; exact .inl ⟨e, rfl, rfl⟩
    | ok v' => cases h
  | ok v =>
    cases a' with
    | error e' => cases h
    | ok v' => exact .inr ⟨v, v', rfl, rfl, Except.ok.inj h⟩

theorem option_map_eq {α γ : Type} {f : α → γ} {v v' : Option α} (h : v.map f = v'.map f) :
    (v = none ∧ v' = none) ∨ ∃ w w', v = some w ∧ v' = some w' ∧ f w = f w' := by
  cases v with
  | none =>
    cases v' with
    | none => exact .inl ⟨rfl, rfl⟩
    | some w' => cases h
  | some w =>
    cases v' with
    | none => cases h
    | some w' => exact .inr ⟨w, w', rfl, rfl, Option.some.inj h⟩

namespace Program

variable {α β γ δ : Type}

inductive Alike (view : α → γ) : Program α → Program α → Prop where
  | done {a a' : α} (h : view a = view a') : Alike view (done a) (done a')
  | halt (why : Halt) : Alike view (halt why) (halt why)
  | ask {q : Call} {next next' : q.Answer → Program α} (hq : q.isHeartbeat = false)
      (h : ∀ a a', q.silent a = q.silent a' → Alike view (next a) (next' a')) :
      Alike view (ask q next) (ask q next')

section Rules

variable {view : α → γ} {view' : β → δ}

theorem alike_pure {a a' : α} (h : view a = view a') : Alike view (pure a) (pure a') := .done h

theorem alike_halt (why : Halt) : Alike view (halt why) (halt why) := .halt why

theorem alike_call {q : Call} (hq : q.isHeartbeat = false) : Alike q.silent (call q) (call q) :=
  .ask hq fun _ _ h => .done h

theorem alike_request {q : Registry.Request} (hq : q.isHeartbeat = false) :
    Alike (Except.map q.silent) (request q) (request q) := alike_call (q := .registry q) hq

theorem alike_bind {x x' : Program α} {f f' : α → Program β} (hx : Alike view x x')
    (hf : ∀ a a', view a = view a' → Alike view' (f a) (f' a')) :
    Alike view' (x >>= f) (x' >>= f') := by
  rw [bind_eq, bind_eq]
  induction hx with
  | done h => exact hf _ _ h
  | halt why => exact .halt why
  | ask hq _ ih => exact .ask hq ih

/-- Who asks for no workers sees no heartbeats. -/
theorem alike_of_asks {x : Program α} (hx : x.Asks Call.Plain) : Alike id x x := by
  induction x with
  | done a => exact .done rfl
  | halt why => exact .halt why
  | ask q next ih =>
    refine .ask hx.1.1 fun a a' h => ?_
    obtain rfl := hx.1.2 a a' h
    exact ih a (hx.2 a)

end Rules
end Program

/-- Calls other than requests get the answers of a list, each at its place. -/
def Registry.Memory.reply (given : Nat → (q : Call) → q.Answer) :
    Memory × Nat → (q : Call) → q.Answer × Memory × Nat
  | (m, i), .registry q => (.ok (m.answer q).1, (m.answer q).2, i + 1)
  | (m, i), q => (given i q, m, i + 1)

theorem Program.Alike.follow {α γ : Type} {view : α → γ} {x x' : Program α} (h : Alike view x x')
    (given : Nat → (q : Call) → q.Answer) {m m' : Memory} (hm : m.silent = m'.silent) (i : Nat) :
    (x.follow (Memory.reply given) (m, i)).2.1.map view =
        (x'.follow (Memory.reply given) (m', i)).2.1.map view ∧
      (x.follow (Memory.reply given) (m, i)).2.2.1.silent =
        (x'.follow (Memory.reply given) (m', i)).2.2.1.silent := by
  induction h generalizing m m' i with
  | done h => exact ⟨congrArg Except.ok h, hm⟩
  | halt why => exact ⟨rfl, hm⟩
  | @ask q next next' hq _ ih =>
    cases q with
    | registry q =>
      -- The two registries give answers that look the same, and stay alike.
      obtain ⟨hanswer, hafter⟩ := Memory.answer_congr hm (q := q) hq
      exact ih (.ok (m.answer q).1) (.ok (m'.answer q).1) (congrArg Except.ok hanswer) hafter (i + 1)
    | _ => exact ih _ _ rfl hm (i + 1)

end WorkerGuard
