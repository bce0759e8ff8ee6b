import WorkerGuard.Proofs.Breaker.Calls

/-!
# WorkerGuard.Proofs.Breaker.Caller

A call of a shared handle, and how far it can have got.

* `Caller`: a handle on the breaker of one dependency and what is done with it.
* `Caller.program`: what the caller does; `Caller.apply`: what comes of it when nobody interferes.
* `Caller.Standing`: what has been exchanged, and what is left. The load, the reading of the clock
  and the swap that decide a call are its last ones.
  After an outage a call replaces nothing.
* `Caller.standing`: every path of a caller ends in such a standing.
-/

namespace WorkerGuard

open Breaker Program

namespace Exchange

/-- The registry was reached. -/
def Answered : Exchange → Prop
  | ⟨.registry _, .error _⟩ => False
  | _ => True

theorem not_answered_error (q : Registry.Request) (e : Registry.Error) :
    ¬Answered ⟨.registry q, .error e⟩ := id

/-- A row was replaced. -/
def isWin : Exchange → Bool
  | ⟨.registry (.swapBreaker _ _ _), .ok swapped⟩ => swapped
  | _ => false

theorem isWin_of_ofWord {d : Dependency} {x : Exchange} (h : x.call.OfWord d) :
    x.isWin = false := by
  obtain ⟨q, a⟩ := x
  cases q with
  | registry q => cases h
  | _ => rfl

/-- An override was found. -/
def isRefusal : Exchange → Bool
  | ⟨.forced _, forced⟩ => forced
  | _ => false

abbrev loads (d : Dependency) (row : Row) : Exchange := ⟨.registry (.loadBreaker d), .ok row⟩

abbrev reads (now : Instant) : Exchange := ⟨.now, now⟩

abbrev swaps (d : Dependency) (row next : Row) (swapped : Bool) : Exchange :=
  ⟨.registry (.swapBreaker d row next), .ok swapped⟩

/-- Nothing came of it. -/
def Idle (x : Exchange) : Prop := x.isWin = false ∧ x.isRefusal = false

end Exchange

open Exchange

/-- What a handle is used for: a request to pass, or a report. -/
inductive MovingOperation where
  | allow
  | recordSuccess
  | recordFailure
  deriving DecidableEq

structure Caller (d : Dependency) where
  breaker : Breaker
  operation : MovingOperation
  shared : breaker.shared = true
  dependency : breaker.dependency = d

namespace Breaker

variable {d : Dependency} {step : Step}

/-- Where the loop on a row stands in the present round. -/
inductive Round (d : Dependency) (step : Step) :
    List Exchange → Program (Except Registry.Error Outcome) → Prop where
  | waiting (tries : Nat) : Round d step [] (transactShared d step tries)
  | loaded {row : Row} {next : Instant → Program (Except Registry.Error Outcome)} :
      Round d step [loads d row] (ask .now next)
  | kept {row : Row} {now : Instant} (h : step (.ofRow row) now.millis.toNat = none) :
      Round d step [loads d row, reads now] (done (.ok ⟨.ofRow row, none⟩))
  | ready {row : Row} {now : Instant} {after : Condition}
      {next : Except Registry.Error Bool → Program (Except Registry.Error Outcome)} :
      Round d step [loads d row, reads now]
        (ask (.registry (.swapBreaker d row after.toRow)) next)
  | won {row : Row} {now : Instant} {after : Condition}
      (h : step (.ofRow row) now.millis.toNat = some after) :
      Round d step [loads d row, reads now, swaps d row after.toRow true]
        (done (.ok ⟨.ofRow row, some after⟩))
  /-- The registry could not be reached. -/
  | failed {l : List Exchange} {e : Registry.Error} (hl : ∀ x ∈ l, x.isWin = false)
      (hx : ∃ x ∈ l, ¬x.Answered) : Round d step l (done (.error e))

/-- Rounds that were lost come before the present one. -/
theorem round_of_path {tries : Nat} {l : List Exchange}
    {p : Program (Except Registry.Error Outcome)} (h : Path (transactShared d step tries) l p) :
    ∃ l₀ l₁, l = l₀ ++ l₁ ∧ (∀ x ∈ l₀, x.Idle) ∧ Round d step l₁ p := by
  induction tries generalizing l with
  | zero => cases h; exact ⟨[], [], rfl, by simp, .waiting 0⟩
  | succ tries ih =>
    obtain ⟨rfl, rfl⟩ | ⟨a, l₁, rfl, h₁⟩ := Path.of_ask h
    · exact ⟨[], [], rfl, by simp, .waiting (tries + 1)⟩
    cases a with
    | error e =>
      obtain ⟨rfl, rfl⟩ := Path.of_done h₁
      refine ⟨[], _, rfl, by simp, .failed (by simp [isWin]) ?_⟩
      exact ⟨_, List.mem_cons_self, not_answered_error _ e⟩
    | ok row =>
      obtain ⟨rfl, rfl⟩ | ⟨now, l₂, rfl, h₂⟩ := Path.of_ask h₁
      · exact ⟨[], _, rfl, by simp, .loaded⟩
      cases hs : step (.ofRow row) now.millis.toNat with
      | none =>
        simp only [Bind.bind, Pure.pure, bind_done, hs] at h₂
        obtain ⟨rfl, rfl⟩ := Path.of_done h₂
        exact ⟨[], _, rfl, by simp, .kept hs⟩
      | some after =>
        simp only [Bind.bind, Pure.pure, bind_done, hs] at h₂
        obtain ⟨rfl, rfl⟩ | ⟨a, l₃, rfl, h₃⟩ := Path.of_ask h₂
        · exact ⟨[], _, rfl, by simp, .ready⟩
        cases a with
        | error e =>
          obtain ⟨rfl, rfl⟩ := Path.of_done h₃
          refine ⟨[], _, rfl, by simp, .failed (by simp [isWin]) ?_⟩
          exact ⟨⟨.registry (.swapBreaker d row after.toRow), .error e⟩, by simp,
            not_answered_error _ e⟩
        | ok swapped =>
          cases swapped with
          | true =>
            obtain ⟨rfl, rfl⟩ := Path.of_done h₃
            exact ⟨[], _, rfl, by simp, .won hs⟩
          | false =>
            obtain ⟨l₀, l₁, rfl, hidle, hround⟩ := ih h₃
            refine ⟨loads d row :: reads now :: swaps d row after.toRow false :: l₀, l₁, rfl, ?_,
              hround⟩
            intro x hx
            simp only [List.mem_cons] at hx
            obtain rfl | rfl | rfl | hx := hx
            · exact ⟨rfl, rfl⟩
            · exact ⟨rfl, rfl⟩
            · exact ⟨rfl, rfl⟩
            · exact hidle x hx

/-- A loop that has ended found its outcome in its last round, or could not reach the registry. -/
theorem Round.of_done {l : List Exchange} {r : Except Registry.Error Outcome}
    (h : Round d step l (done r)) :
    (∃ row now, (step (.ofRow row) now.millis.toNat = none ∧ l = [loads d row, reads now] ∧
        r = .ok ⟨.ofRow row, none⟩) ∨
      ∃ after, step (.ofRow row) now.millis.toNat = some after ∧
        l = [loads d row, reads now, swaps d row after.toRow true] ∧
        r = .ok ⟨.ofRow row, some after⟩) ∨
      ((∀ x ∈ l, x.isWin = false) ∧ (∃ x ∈ l, ¬x.Answered) ∧ ∃ e, r = .error e) := by
  generalize hp : done r = p at h
  cases h with
  | waiting tries => cases tries <;> cases hp
  | loaded => cases hp
  | @kept row now hs => cases hp; exact .inl ⟨row, now, .inl ⟨hs, rfl, rfl⟩⟩
  | ready => cases hp
  | @won row now after hs => cases hp; exact .inl ⟨row, now, .inr ⟨after, hs, rfl, rfl⟩⟩
  | @failed _ e hl hx => cases hp; exact .inr ⟨hl, hx, e, rfl⟩

/-- A loop that has not ended has replaced nothing. -/
theorem Round.idle {l : List Exchange} {p : Program (Except Registry.Error Outcome)}
    (h : Round d step l p) : (∀ x ∈ l, x.Idle) ∨ ∃ r, p = done r := by
  cases h with
  | waiting tries => exact .inl (by simp)
  | loaded => exact .inl (by simp [Idle, isWin, isRefusal])
  | kept => exact .inr ⟨_, rfl⟩
  | ready => exact .inl (by simp [Idle, isWin, isRefusal])
  | won => exact .inr ⟨_, rfl⟩
  | failed => exact .inr ⟨_, rfl⟩

end Breaker

namespace Caller

variable {d : Dependency}

/-- The answer to a request to pass; a report has none. -/
def program (c : Caller d) : Program (Option Bool) :=
  match c.operation with
  | .allow => do return some (← c.breaker.allow)
  | .recordSuccess => do
    c.breaker.recordSuccess
    return none
  | .recordFailure => do
    c.breaker.recordFailure
    return none

def step (c : Caller d) : Step :=
  match c.operation with
  | .allow => fun k now => k.admitStep now c.breaker.cooldownMillis
  | .recordSuccess => fun k _ => k.successStep
  | .recordFailure => fun k now => some (k.failureStep now c.breaker.threshold)

def answer (c : Caller d) (o : Outcome) : Option Bool :=
  match c.operation with
  | .allow => some (o.after.isSome || o.before.circuit == .closed)
  | _ => none

/-- The answer and the row after a call that has the row to itself. -/
def apply (c : Caller d) (now : Nat) (row : Row) : Option Bool × Row :=
  match c.step (.ofRow row) now with
  | none => (c.answer ⟨.ofRow row, none⟩, row)
  | some after => (c.answer ⟨.ofRow row, some after⟩, after.toRow)

/-- What is left when the loop on the row has ended. -/
def conclude (c : Caller d) : Except Registry.Error Outcome → Program (Option Bool)
  | .ok o => ask (.setWord d (encode o.last.toRow)) fun _ => done (c.answer o)
  | .error _ => (c.breaker.transactLocal c.step).bind fun o => done (c.answer o)

theorem transact_eq (c : Caller d) :
    (c.breaker.transact c.step).bind (fun o => done (c.answer o)) =
      (transactShared d c.step c.breaker.patience).bind c.conclude := by
  obtain ⟨b, operation, hs, rfl⟩ := c
  simp only [transact, hs, if_true, bind_eq]
  rw [Program.bind_assoc]
  congr 1
  funext r
  cases r <;> rfl

/-- Only a request to pass looks for an override first. -/
theorem program_eq (c : Caller d) :
    c.program = (transactShared d c.step c.breaker.patience).bind c.conclude ∨
      (c.operation = .allow ∧ c.program = ask (.forced d) fun forced =>
        if forced then done (some false)
        else (transactShared d c.step c.breaker.patience).bind c.conclude) := by
  rw [← transact_eq]
  obtain ⟨b, operation, hs, rfl⟩ := c
  cases operation with
  | allow =>
    refine .inr ⟨rfl, congrArg (ask (.forced b.dependency)) (funext fun forced => ?_)⟩
    cases forced with
    | true => rfl
    | false =>
      exact Program.bind_assoc (b.transact fun k now => k.admitStep now b.cooldownMillis)
        (fun o => done (o.after.isSome || o.before.circuit == .closed)) fun allowed =>
          done (some allowed)
  | recordSuccess => exact .inl (Program.bind_assoc _ _ _)
  | recordFailure => exact .inl (Program.bind_assoc _ _ _)

/-- Where a call stands after some exchanges, and what its answer is going to be. -/
inductive Standing (c : Caller d) : List Exchange → Program (Option Bool) → Prop where
  | undecided {l : List Exchange} {rest : Program (Option Bool)} (hl : ∀ x ∈ l, x.isWin = false)
      (hr : ∀ a, rest ≠ done a) : Standing c l rest
  | refused (hu : c.operation = .allow) : Standing c [⟨.forced d, true⟩] (done (some false))
  /-- The registry could not be reached, so that the word of the process decides. -/
  | fallen {l : List Exchange} {rest : Program (Option Bool)} (hl : ∀ x ∈ l, x.isWin = false)
      (hx : ∃ x ∈ l, ¬x.Answered) : Standing c l rest
  /-- The step leaves the row as it was loaded. -/
  | kept {l₀ l₁ : List Exchange} {rest : Program (Option Bool)} {row : Row} {now : Instant}
      (h₀ : ∀ x ∈ l₀, x.Idle) (hs : c.step (.ofRow row) now.millis.toNat = none)
      (h₁ : ∀ x ∈ l₁, ∃ w, x = ⟨.setWord d w, ()⟩)
      (hr : ∀ a, rest = done a → a = c.answer ⟨.ofRow row, none⟩) :
      Standing c (l₀ ++ [loads d row, reads now] ++ l₁) rest
  | wrote {l₀ l₁ : List Exchange} {rest : Program (Option Bool)} {row : Row} {now : Instant}
      {after : Condition} (h₀ : ∀ x ∈ l₀, x.Idle)
      (hs : c.step (.ofRow row) now.millis.toNat = some after)
      (h₁ : ∀ x ∈ l₁, ∃ w, x = ⟨.setWord d w, ()⟩)
      (hr : ∀ a, rest = done a → a = c.answer ⟨.ofRow row, some after⟩) :
      Standing c (l₀ ++ [loads d row, reads now, swaps d row after.toRow true] ++ l₁) rest

theorem standing_of_conclude {c : Caller d} {l : List Exchange} {o : Outcome}
    {rest : Program (Option Bool)} (h : Path (c.conclude (.ok o)) l rest) :
    (∀ x ∈ l, ∃ w, x = ⟨.setWord d w, ()⟩) ∧ ∀ a, rest = done a → a = c.answer o := by
  obtain ⟨rfl, rfl⟩ | ⟨u, l, rfl, h₁⟩ := Path.of_ask h
  · exact ⟨by simp, fun a ha => by cases ha⟩
  · obtain ⟨rfl, rfl⟩ := Path.of_done h₁
    refine ⟨by simp, fun a ha => ?_⟩
    cases ha
    rfl

/-- Without the registry nothing of it is replaced. -/
theorem isWin_of_conclude_error {c : Caller d} {l : List Exchange} {e : Registry.Error}
    {rest : Program (Option Bool)} (h : Path (c.conclude (.error e)) l rest) :
    ∀ x ∈ l, x.isWin = false := by
  have hasks : (c.conclude (.error e)).Asks (Call.OfWord c.breaker.dependency) :=
    (c.breaker.asks_transactLocal c.step).bind fun _ => trivial
  intro x hx
  exact isWin_of_ofWord ((hasks.path h).2 x hx)

theorem standing_of_shared {c : Caller d} {l₀ l : List Exchange} {rest : Program (Option Bool)}
    (h : Path ((transactShared d c.step c.breaker.patience).bind c.conclude) l rest)
    (h₀ : ∀ x ∈ l₀, x.Idle) : c.Standing (l₀ ++ l) rest := by
  -- Either way the loop has taken some path, and its end is followed by the conclusion.
  have split : ∃ p l₁ l₂, l = l₁ ++ l₂ ∧ Path (transactShared d c.step c.breaker.patience) l₁ p ∧
      Path (p.bind c.conclude) l₂ rest ∧ ((∃ r, p = done r) ∨ l₂ = [] ∧ rest = p.bind c.conclude) := by
    obtain ⟨p, hp, rfl⟩ | ⟨r, l₁, l₂, rfl, h₁, h₂⟩ := path_bind h
    · exact ⟨p, l, [], by simp, hp, .refl, .inr ⟨rfl, rfl⟩⟩
    · exact ⟨done r, l₁, l₂, rfl, h₁, h₂, .inl ⟨r, rfl⟩⟩
  obtain ⟨p, l₁, l₂, rfl, h₁, h₂, hend⟩ := split
  obtain ⟨lost, l₁, rfl, hlost, hround⟩ := round_of_path h₁
  have hidle : ∀ x ∈ l₀ ++ lost, x.Idle := by
    intro x hx
    rcases List.mem_append.1 hx with hx | hx
    · exact h₀ x hx
    · exact hlost x hx
  by_cases hd : ∃ r, p = done r
  · obtain ⟨r, rfl⟩ := hd
    obtain ⟨row, now, ⟨hs, rfl, rfl⟩ | ⟨after, hs, rfl, rfl⟩⟩ | ⟨hwin, ⟨x, hx, hfail⟩, e, rfl⟩ :=
      hround.of_done
    · obtain ⟨hw, hr⟩ := standing_of_conclude h₂
      have := Standing.kept hidle hs hw hr
      simpa only [List.append_assoc] using this
    · obtain ⟨hw, hr⟩ := standing_of_conclude h₂
      have := Standing.wrote hidle hs hw hr
      simpa only [List.append_assoc] using this
    · refine .fallen (fun x hx => ?_) ⟨x, by simp [hx], hfail⟩
      simp only [List.mem_append] at hx
      obtain hx | (hx | hx) | hx := hx
      · exact (h₀ x hx).1
      · exact (hlost x hx).1
      · exact hwin x hx
      · exact isWin_of_conclude_error h₂ x hx
  · obtain ⟨r, rfl⟩ | ⟨rfl, rfl⟩ := hend
    · exact absurd ⟨r, rfl⟩ hd
    · obtain hl₁ | hdone := hround.idle
      · refine .undecided (fun x hx => ?_) fun a hbind => ?_
        · simp only [List.append_nil, List.mem_append] at hx
          rcases hx with hx | hx | hx
          · exact (h₀ x hx).1
          · exact (hlost x hx).1
          · exact (hl₁ x hx).1
        · cases p with
          | done r => exact hd ⟨r, rfl⟩
          | halt why => cases hbind
          | ask q next => cases hbind
      · exact absurd hdone hd

/-- However others interfere: all that can have happened to a call. -/
theorem standing {c : Caller d} {l : List Exchange} {rest : Program (Option Bool)}
    (h : Path c.program l rest) : c.Standing l rest := by
  obtain heq | ⟨hu, heq⟩ := c.program_eq
  · rw [heq] at h
    have h₀ : ∀ x ∈ ([] : List Exchange), x.Idle := by simp
    exact standing_of_shared h h₀
  · rw [heq] at h
    obtain ⟨rfl, rfl⟩ | ⟨forced, l, rfl, h₁⟩ := Path.of_ask h
    · exact .undecided (by simp) fun a ha => by cases ha
    · cases forced with
      | true =>
        obtain ⟨rfl, rfl⟩ := Path.of_done h₁
        exact .refused hu
      | false =>
        have h₀ : ∀ x ∈ [(⟨.forced d, false⟩ : Exchange)], x.Idle := by simp [Idle, isWin, isRefusal]
        exact standing_of_shared h₁ h₀

end Caller
end WorkerGuard
