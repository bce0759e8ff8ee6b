import WorkerGuard.Proofs.Task.Pressure

/-!
# WorkerGuard.Proofs.Breaker.Owned

What the operations of a handle come to when nobody else writes what its breaker is kept in,
whatever the clock reads and whether there is an override or not.

* `Owned E d shared Has`: in the environment `E`, only the program writes it.
* `Owned.allow`: who is let pass has not found the breaker opened, or has moved it himself.
* `Owned.recordSuccess`, `Owned.recordFailure`: a success then leaves the breaker closed and without
  failures.
* `Alone.owned`: that is so of a row and of a word that nobody else writes, if the registry can be
  reached.
-/

namespace WorkerGuard

open Breaker Program Simulation

/-- Only the program writes what the breaker of `d` is kept in. -/
structure Owned {σ : Type} (E : Environment σ) (d : Dependency) (shared : Bool)
    (Has : Condition → σ → Prop) : Prop where
  steady : Steady E d shared Has
  still : ∀ {k : Condition} {q : Call} {h h' : σ} {a : q.Answer}, Has k h →
    q.Waits ∨ q = .forced d ∨ (∃ bound, q = .attempt d bound) → E h q a h' → Has k h'

section Owned

variable {σ : Type} {E : Environment σ} {b : Breaker} {Has : Condition → σ → Prop}
variable {k : Condition} {h h' : σ} {l : List Exchange}
variable (ho : Owned E b.dependency b.shared Has) (hpos : 0 < b.patience)
include ho hpos

theorem Owned.transact {step : Step} {r : Except Halt Outcome} (hk : Has k h)
    (hr : Trail E (b.transact step) h l r h') :
    ∃ now, r = .ok ⟨k, step k now⟩ ∧ Has ((step k now).getD k) h' := by
  obtain ⟨_, ⟨hzero, _⟩ | ⟨o, _, rfl, t, _, rfl, hlast⟩⟩ := ho.steady b step rfl rfl hk hr
  · omega
  · exact ⟨_, rfl, hlast⟩

theorem Owned.allow {r : Except Halt Bool} (hk : Has k h) (hr : Trail E b.allow h l r h') :
    ∃ allowed k', r = .ok allowed ∧ Has k' h' ∧ (allowed = true → k'.circuit ≠ .opened) := by
  obtain ⟨forced, h₁, l₁, rfl, hforced, hr⟩ := trail_call_bind hr
  have hk := ho.still hk (.inr (.inl rfl)) hforced
  cases forced with
  | true =>
    obtain ⟨_, rfl, rfl⟩ := trail_pure hr
    exact ⟨false, k, rfl, hk, nofun⟩
  | false =>
    obtain ⟨o, h₂, l₂, l₃, rfl, hstep, hr⟩ | ⟨why, rfl, hstep⟩ := trail_bind hr
    · obtain ⟨now, hok, hlast⟩ := ho.transact hpos hk hstep
      cases hok
      obtain ⟨_, rfl, rfl⟩ := trail_pure hr
      refine ⟨_, _, rfl, hlast, fun hpass => ?_⟩
      cases hprobe : k.admitStep now b.cooldownMillis with
      | none =>
        have hclosed : k.circuit = .closed := by simpa [hprobe] using hpass
        rw [Option.getD_none, hclosed]
        nofun
      | some k' =>
        obtain ⟨_, _, rfl⟩ := Condition.admitStep_eq_some hprobe
        rw [Option.getD_some]
        nofun
    · obtain ⟨_, hok, _⟩ := ho.transact hpos hk hstep
      cases hok

theorem Owned.recordSuccess {r : Except Halt Unit} (hk : Has k h) (hopen : k.circuit ≠ .opened)
    (hr : Trail E b.recordSuccess h l r h') :
    r = .ok () ∧ ∃ k', Has k' h' ∧ k'.circuit = .closed ∧ k'.failures = 0 := by
  obtain ⟨o, h₁, l₁, l₂, rfl, hstep, hr⟩ | ⟨why, rfl, hstep⟩ := trail_bind hr
  · obtain ⟨_, hok, hlast⟩ := ho.transact hpos hk hstep
    cases hok
    obtain ⟨_, rfl, rfl⟩ := trail_pure hr
    refine ⟨rfl, _, hlast, ?_⟩
    cases hsucceed : k.successStep with
    | none =>
      rw [Option.getD_none]
      unfold Condition.successStep at hsucceed
      split at hsucceed
      · rename_i hclosed
        split at hsucceed
        · rename_i hzero
          exact ⟨hclosed, hzero⟩
        · cases hsucceed
      · cases hsucceed
      · cases hsucceed
    | some k' =>
      rw [Option.getD_some]
      obtain ⟨_, rfl⟩ | ⟨hopened, _⟩ := Condition.successStep_eq_some hsucceed
      · exact ⟨rfl, rfl⟩
      · exact absurd hopened hopen
  · obtain ⟨_, hok, _⟩ := ho.transact hpos hk hstep
    cases hok

theorem Owned.recordFailure {r : Except Halt Unit} (hk : Has k h)
    (hr : Trail E b.recordFailure h l r h') : r = .ok () ∧ ∃ k', Has k' h' := by
  obtain ⟨o, h₁, l₁, l₂, rfl, hstep, hr⟩ | ⟨why, rfl, hstep⟩ := trail_bind hr
  · obtain ⟨_, hok, hlast⟩ := ho.transact hpos hk hstep
    cases hok
    obtain ⟨_, rfl, rfl⟩ := trail_pure hr
    exact ⟨rfl, _, hlast⟩
  · obtain ⟨_, hok, _⟩ := ho.transact hpos hk hstep
    cases hok

end Owned

section Alone

variable {d : Dependency} {others outages : Registry.Request → Prop}

/-- A row that nobody else writes and that can be reached, or else a word. -/
theorem Simulation.Alone.owned {shared : Bool}
    (hothers : shared = true → ∀ q, others q → ¬q.Swaps d)
    (houtages : shared = true → ∀ q, outages q → ¬q.OfRow d) :
    Owned (Alone d others outages) d shared (World.Shows d shared) := by
  cases shared with
  | true =>
    have hrow : SoloRow (Alone d others outages) d False fun r h => h.store.Holds d r :=
      Served.soloRow (fun _ _ _ _ h => h.1) (hothers rfl) (houtages rfl)
    exact ⟨hrow.steady, fun hk hq ha => hrow.shows_still hk hq ha⟩
  | false =>
    have hword : SoloWord (Alone d others outages) d fun w h => h.word = w :=
      Kept.soloWord fun _ _ _ _ h => h.2
    exact ⟨World.shows_word d ▸ hword.steady, fun hk hq ha => ha.2.shows_still hk hq⟩

end Alone
end WorkerGuard
