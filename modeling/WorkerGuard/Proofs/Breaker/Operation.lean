import WorkerGuard.Proofs.Breaker.Step
import WorkerGuard.Proofs.Simulation.Alone

/-!
# WorkerGuard.Proofs.Breaker.Operation

All that a handle is used for, and what comes of it while nobody interferes.

* `Operation`: the requests to pass, the reports, and what callers can see.
* `Operation.answer`, `Operation.after`: the answer in a condition, and the condition that follows.
* `Yields E Has c x a c'`: in the environment `E`, the program `x` leads from the condition `c` to
  `c'` and ends with `a`.
* `Undisturbed E d shared now Has`: what a handle works on is its own for a while, at the time `now`.
  `Undisturbed.yields`: then every operation does what its condition says, on a row and on a word.
  `SoloRow.undisturbed`, `SoloWord.undisturbed`: nobody else may change the row, or the word.
-/

namespace WorkerGuard

open Program Simulation

namespace Breaker

inductive Operation where
  | allow
  | recordSuccess
  | recordFailure
  | state
  | failureCount
  | timeUntilProbe
  | snapshot
  deriving DecidableEq, Repr

namespace Operation

abbrev Answer : Operation → Type
  | allow => Bool
  | recordSuccess => Unit
  | recordFailure => Unit
  | state => Circuit
  | failureCount => Nat
  | timeUntilProbe => Option Duration
  | snapshot => Snapshot

def program (b : Breaker) : (o : Operation) → Program o.Answer
  | allow => b.allow
  | recordSuccess => b.recordSuccess
  | recordFailure => b.recordFailure
  | state => b.state
  | failureCount => b.failureCount
  | timeUntilProbe => b.timeUntilProbe
  | snapshot => b.snapshot

/-- Looking at a breaker is no step. -/
def step (b : Breaker) : Operation → Step
  | allow => fun c now => c.admitStep now b.cooldownMillis
  | recordSuccess => fun c _ => c.successStep
  | recordFailure => fun c now => some (c.failureStep now b.threshold)
  | _ => fun _ _ => none

def after (b : Breaker) (now : Instant) (o : Operation) (c : Condition) : Condition :=
  (o.step b c now.millis.toNat).getD c

def answer (b : Breaker) (now : Instant) (c : Condition) : (o : Operation) → o.Answer
  | allow => (c.admitStep now.millis.toNat b.cooldownMillis).isSome || c.circuit == .closed
  | recordSuccess => ()
  | recordFailure => ()
  | state => c.circuit
  | failureCount => c.failures
  | timeUntilProbe =>
    match c.circuit with
    | .closed => some .zero
    | .opened | .halfOpen => some (.ofMillis (c.wait now.millis.toNat b.cooldownMillis).toUInt64)
  | snapshot => {
      dependency := b.dependency
      state := c.circuit
      failures := c.failures
      openedAt := if c.circuit = .opened then Instant.ofMillis? c.stamp else none
      probeStartedAt := if c.circuit = .halfOpen then Instant.ofMillis? c.stamp else none
      forcedOpen := false
      threshold := b.threshold
      cooldown := b.cooldown }

end Operation
end Breaker

open Breaker

section Yields

variable {σ α β : Type} {E : Environment σ} {Has : Condition → σ → Prop}
variable {c c₁ c' : Condition} {a : α} {b : β}

def Yields (E : Environment σ) (Has : Condition → σ → Prop) (c : Condition) (x : Program α) (a : α)
    (c' : Condition) : Prop :=
  ∀ ⦃h l r h'⦄, Has c h → Trail E x h l r h' → r = .ok a ∧ Has c' h'

theorem yields_pure : Yields E Has c (pure a) a c := by
  intro h l r h' hc hr
  obtain ⟨_, rfl, rfl⟩ := trail_pure hr
  exact ⟨rfl, hc⟩

theorem yields_bind {x : Program α} {f : α → Program β} (hx : Yields E Has c x a c₁)
    (hf : Yields E Has c₁ (f a) b c') : Yields E Has c (x >>= f) b c' := by
  intro h l r h' hc hr
  obtain ⟨a', h₁, l₁, l₂, _, hfirst, hr⟩ | ⟨why, _, hfirst⟩ := trail_bind hr
  · obtain ⟨ha, hc₁⟩ := hx hc hfirst
    cases ha
    exact hf hc₁ hr
  · cases (hx hc hfirst).1

end Yields

/-- A look at the breaker shows the condition that is there. -/
def Clear {σ : Type} (E : Environment σ) (d : Dependency) (shared : Bool)
    (Has : Condition → σ → Prop) : Prop :=
  ∀ (b : Breaker) {c : Condition}, b.dependency = d → b.shared = shared →
    Yields E Has c b.current c c

section Clear

variable {σ : Type} {E : Environment σ} {d : Dependency}

theorem SoloRow.clear {Has : Row → σ → Prop} (hs : SoloRow E d False Has) :
    Clear E d true (SoloRow.Shows Has) := by
  rintro b c rfl hshared h l r h' ⟨row, hrow, rfl⟩ hr
  unfold current at hr
  rw [if_pos hshared] at hr
  obtain ⟨found, h₁, l₁, rfl, hload, hr⟩ := trail_call_bind hr
  obtain ⟨rfl | ⟨hO, _⟩, hrow⟩ := hs.load hrow hload
  · obtain ⟨_, h₂, l₂, rfl, hword, hr⟩ := trail_call_bind hr
    obtain ⟨_, rfl, rfl⟩ := trail_pure hr
    exact ⟨rfl, row, hs.other hrow hword fun h => h, rfl⟩
  · exact hO.elim

theorem SoloWord.clear {Has : UInt64 → σ → Prop} (hs : SoloWord E d Has) :
    Clear E d false (SoloWord.Shows Has) := by
  rintro b c rfl hshared h l r h' ⟨w, hword, rfl⟩ hr
  unfold current at hr
  rw [if_neg (by simp [hshared])] at hr
  obtain ⟨found, h₁, l₁, rfl, hload, hr⟩ := trail_call_bind hr
  obtain ⟨rfl, hword⟩ := hs.load hword hload
  obtain ⟨_, rfl, rfl⟩ := trail_pure hr
  exact ⟨rfl, _, hword, rfl⟩

end Clear

/-- A handle has what it works on to itself, at one time and under no override. -/
structure Undisturbed {σ : Type} (E : Environment σ) (d : Dependency) (shared : Bool)
    (now : Instant) (Has : Condition → σ → Prop) : Prop where
  steady : Steady E d shared Has
  clear : Clear E d shared Has
  time : ∀ {h h' : σ} {t : Instant}, E h .now t h' → t = now
  free : ∀ {h h' : σ} {forced : Bool}, E h (.forced d) forced h' → forced = false
  still : ∀ {c : Condition} {h h' : σ} {q : Call} {a : q.Answer}, q = .now ∨ q = .forced d →
    Has c h → E h q a h' → Has c h'

namespace Undisturbed

variable {σ : Type} {E : Environment σ} {b : Breaker} {now : Instant}
variable {Has : Condition → σ → Prop} {c : Condition}
variable (hu : Undisturbed E b.dependency b.shared now Has)
include hu

theorem time_eq {α : Type} {x : Program α} {h h' : σ} {l : List Exchange} {r : Except Halt α}
    (hr : Trail E x h l r h') {t : Instant} (ht : ⟨.now, t⟩ ∈ l) : t = now := by
  induction hr with
  | done => cases ht
  | halt => cases ht
  | ask ha _ ih =>
    obtain heq | ht := List.mem_cons.1 ht
    · cases heq
      exact hu.time ha
    · exact ih ht

theorem yields_transact (hp : 0 < b.patience) (step : Step) :
    Yields E Has c (b.transact step) ⟨c, step c now.millis.toNat⟩
      ((step c now.millis.toNat).getD c) := by
  intro h l r h' hc hr
  obtain ⟨_, ⟨hzero, _⟩ | ⟨o, _, hfound, t, ht, rfl, hlast⟩⟩ := hu.steady b step rfl rfl hc hr
  · omega
  · obtain rfl := hu.time_eq hr ht
    exact ⟨hfound, hlast⟩

theorem yields_isForced : Yields E Has c b.isForced false c := by
  intro h l r h' hc hr
  obtain ⟨forced, _, rfl, ha⟩ := trail_call hr
  exact ⟨congrArg Except.ok (hu.free ha), hu.still (.inr rfl) hc ha⟩

theorem yields_reading : Yields E Has c reading now.millis.toNat c := by
  intro h l r h' hc hr
  obtain ⟨t, h₁, l₁, _, ha, hr⟩ := trail_call_bind hr
  obtain ⟨_, rfl, rfl⟩ := trail_pure hr
  obtain rfl := hu.time ha
  exact ⟨rfl, hu.still (.inl rfl) hc ha⟩

theorem yields_current : Yields E Has c b.current c c := hu.clear b rfl rfl

theorem yields (hp : 0 < b.patience) (o : Operation) :
    Yields E Has c (o.program b) (o.answer b now c) (o.after b now c) := by
  cases o with
  | allow => exact yields_bind hu.yields_isForced (yields_bind (hu.yields_transact hp _) yields_pure)
  | recordSuccess => exact yields_bind (hu.yields_transact hp _) yields_pure
  | recordFailure => exact yields_bind (hu.yields_transact hp _) yields_pure
  | state => exact yields_bind hu.yields_isForced (yields_bind hu.yields_current yields_pure)
  | failureCount => exact yields_bind hu.yields_current yields_pure
  | timeUntilProbe =>
    refine yields_bind hu.yields_isForced (yields_bind hu.yields_current ?_)
    simp only [Operation.answer]
    cases c.circuit with
    | closed => exact yields_pure
    | opened => exact yields_bind hu.yields_reading yields_pure
    | halfOpen => exact yields_bind hu.yields_reading yields_pure
  | snapshot => exact yields_bind hu.yields_current (yields_bind hu.yields_isForced yields_pure)

end Undisturbed

section Solo

variable {σ : Type} {E : Environment σ} {d : Dependency} {now : Instant}
variable (htime : ∀ {h h' : σ} {t : Instant}, E h .now t h' → t = now)
variable (hfree : ∀ {h h' : σ} {forced : Bool}, E h (.forced d) forced h' → forced = false)
include htime hfree

theorem SoloRow.undisturbed {Has : Row → σ → Prop} (hs : SoloRow E d False Has) :
    Undisturbed E d true now (SoloRow.Shows Has) where
  steady := hs.steady
  clear := hs.clear
  time := htime
  free := hfree
  still := by
    rintro c h h' q a hq ⟨row, hrow, rfl⟩ ha
    refine ⟨row, hs.other hrow ha ?_, rfl⟩
    obtain rfl | rfl := hq
    · exact fun h => h
    · exact fun h => h

theorem SoloWord.undisturbed {Has : UInt64 → σ → Prop} (hs : SoloWord E d Has)
    (hkeep : ∀ {w : UInt64} {h h' : σ} {forced : Bool}, Has w h → E h (.forced d) forced h' →
      Has w h') :
    Undisturbed E d false now (SoloWord.Shows Has) where
  steady := hs.steady
  clear := hs.clear
  time := htime
  free := hfree
  still := by
    rintro c h h' q a hq ⟨w, hw, rfl⟩ ha
    obtain rfl | rfl := hq
    · exact ⟨w, hs.now hw ha, rfl⟩
    · exact ⟨w, hkeep hw ha, rfl⟩

end Solo
end WorkerGuard
