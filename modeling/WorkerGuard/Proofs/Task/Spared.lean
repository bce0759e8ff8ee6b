import WorkerGuard.Proofs.Breaker.Override
import WorkerGuard.Proofs.Task.Action

/-!
# WorkerGuard.Proofs.Task.Spared

A dependency that an operator holds open is spared.

* `Stop.heeds_execute`: calls with their retries, on any board and with any policy.
* `Stop.heeds_request`: requests for workers; they are refused.
* `Stop.heeds_runRound`: rounds; the report on one that failed says that the breaker is opened.
* `Stop.heeds_runFor`: whole tasks with all their helpers.
-/

namespace WorkerGuard

open Breaker Failure Program Simulation

theorem Call.OfPlacing.eq_of_engages {s : Settings} {d d' : Dependency} {q : Call}
    (h : q.OfPlacing s d') (he : q.Engages d) : d' = d := by
  cases q with
  | attempt d' bound => cases h
  | registry q =>
    cases q with
    | insert r c => exact h.2.symm.trans he
    | _ => cases he
  | _ => cases he

theorem Spawn.asks_brief_request (s : Settings) (q : Request) (d : Dependency) :
    (request s q).Asks (Call.Brief d) := by
  refine (asks_request q).mono fun c hc => ?_
  obtain rfl | hc | hc := hc
  · exact ⟨fun h => h, nofun⟩
  · exact hc.only.brief (by decide)
  · exact hc.only.brief (by decide)

section Stop

variable {σ : Type} {E : Environment σ} {d : Dependency} {Forced : σ → Prop}
variable (hs : Stop E d Forced)
include hs

theorem Stop.heeds_tryOnce (b : Breaker) (bound : Duration) (made : Nat) (h : σ) :
    (Retry.tryOnce b bound made).Heeds E (Spares d Forced) (fun _ _ => True) h := by
  refine heeds_bind (hs.heeds_allow b h) fun allowed h₁ hfree => ?_
  split
  · rename_i hpass
    refine heeds_bind (heeds_call ?_ fun _ _ _ => trivial) fun outcome h₂ _ => ?_
    · exact fun hnow hd => hfree hpass hd hnow
    · have hreport : ∀ {x : Program Unit} {o : Except CallError Json},
          x.Asks (Call.OfBreaker b.dependency) →
            (x >>= fun _ => pure (some o)).Heeds E (Spares d Forced) (fun _ _ => True) h₂ := by
        intro x o hx
        exact (asks_bind hx fun _ => asks_pure _).spares fun q hq => hq.only.not_engages (by decide)
      split
      · exact heeds_halt _ _
      · split
        · exact hreport b.asks_recordSuccess
        · exact hreport b.asks_recordFailure
        · exact hreport b.asks_recordFailure
  · exact heeds_pure _ trivial

theorem Stop.heeds_attempts (b : Breaker) (p : Retry.Policy) (left made : Nat) (bound : Duration)
    (delays : List Duration) (h : σ) :
    (Retry.attempts b p left made bound delays).Heeds E (Spares d Forced) (fun _ _ => True) h := by
  induction left generalizing made bound delays h with
  | zero =>
    unfold Retry.attempts
    refine heeds_bind (hs.heeds_tryOnce b bound made h) fun o h₁ _ => ?_
    split <;> exact heeds_pure _ trivial
  | succ left ih =>
    unfold Retry.attempts
    refine heeds_bind (hs.heeds_tryOnce b bound made h) fun o h₁ _ => ?_
    split
    · exact heeds_pure _ trivial
    · exact heeds_pure _ trivial
    · dsimp only
      split
      · refine heeds_bind ((Retry.asks_delayAfter _ _ _).spares ?_) fun delay h₂ _ => ?_
        · rintro q rfl
          exact id
        · exact heeds_bind (heeds_call (fun _ => id) fun _ _ _ => trivial) fun _ h₃ _ => ih _ _ _ h₃
      · exact heeds_pure _ trivial

theorem Stop.heeds_execute (board : Board) (d' : Dependency) (p : Retry.Policy) (h : σ) :
    (Retry.execute board d' p).Heeds E (Spares d Forced) (fun _ _ => True) h :=
  ⟨fun _ => id, fun _ h₁ _ => hs.heeds_attempts (board.breaker d') p _ _ _ _ h₁⟩

/-- A request that is not refused for its role is refused for the breaker. -/
theorem Stop.heeds_request (s : Settings) (q : Spawn.Request) (h : σ) :
    (Spawn.request s q).Heeds E (Spares d Forced) (fun r h' => q.dependency = d → Forced h' →
      r = .ok (.refused (.unknownRole q.role)) ∨ r = .ok (.refused (.circuitOpen d .opened))) h := by
  unfold Spawn.request
  split
  · exact heeds_pure _ fun _ _ => .inl rfl
  · rename_i role hrole
    refine heeds_bind (hs.heeds_state (s.board true) q.dependency h) fun circuit h₁ hopen => ?_
    split
    · refine heeds_pure _ fun hd hnow => .inr ?_
      rw [hopen hd hnow, hd]
    · rename_i hclosed
      have hfree : q.dependency = d → ¬Forced h₁ := by
        intro hd hnow
        rw [hopen hd hnow] at hclosed
        exact hclosed nofun
      refine (hs.heeds_of_brief (Spawn.asks_placing hrole) (fun _ hq => hq.only.brief (by decide))
        (fun _ => Call.OfPlacing.eq_of_engages) hfree).mono fun r h' hfree hd hnow => ?_
      exact absurd hnow (hfree hd)

variable {s : Settings} {task : Task}

/-- The report on a round that failed says that the breaker is opened. -/
theorem Stop.heeds_runRound (w : Worker) (started : Instant) (round : UInt32) (c : Task.Course)
    (h : σ) :
    (Task.runRound s w started round c).Heeds E (Spares d Forced) (fun x h' => w.dependency = d →
      Forced h' → ∀ report, x.1 = .roundFailed report → report.breaker = .opened) h := by
  refine heeds_bind ((Task.asks_isAlive w).spares ?_) fun alive h₁ _ => ?_
  · exact fun _ hq => hq.only.not_engages (by decide)
  split
  · refine heeds_bind (hs.heeds_execute _ _ _ h₁) fun result h₂ _ => ?_
    split
    · exact heeds_pure _ fun _ _ _ => nofun
    · refine heeds_bind (hs.heeds_state _ _ h₂) fun circuit h₃ hopen => ?_
      refine heeds_bind (Q := fun _ h' => w.dependency = d → Forced h' → circuit = .opened)
        (heeds_call (fun _ => id) fun now h₄ ha hd hnow => ?_) fun now h₄ hopen => ?_
      · exact hopen hd (hs.before (q := .now) ⟨id, nofun⟩ ha hnow)
      · refine heeds_pure _ fun hd hnow report hreport => ?_
        cases hreport
        exact hopen hd hnow
  · exact heeds_pure _ fun _ _ _ => nofun

theorem Stop.heeds_perform {run : Worker → Program Task.Outcome}
    (hrun : ∀ x h, (run x).Heeds E (Spares d Forced) (fun _ _ => True) h) (w : Worker)
    (started : Instant) (a : Task.Action) (c : Task.Course) (h : σ) :
    (Task.perform s task run w started a c).Heeds E (Spares d Forced) (fun _ _ => True) h := by
  cases a with
  | runRound round => exact (hs.heeds_runRound w started round c h).mono fun _ _ _ => trivial
  | requestSpawn kind =>
    refine heeds_bind (hs.heeds_request _ _ h) fun r h₁ _ => ?_
    split <;> exact heeds_pure _ trivial
  | runHelper id =>
    unfold Task.perform Task.runHelper
    dsimp only
    split
    · exact heeds_pure _ trivial
    · split
      · exact heeds_bind (hrun _ h) fun o h₁ _ => heeds_pure _ trivial
      · exact heeds_pure _ trivial
  | writeDegrade reason =>
    exact (Task.asks_perform_writeDegrade reason c).spares fun _ hq => hq.only.not_engages (by decide)

theorem Stop.heeds_drive {run : Worker → Program Task.Outcome}
    (hrun : ∀ x h, (run x).Heeds E (Spares d Forced) (fun _ _ => True) h) (w : Worker)
    (started : Instant) (steps : Nat) (c : Task.Course) (h : σ) :
    (Task.drive s task run w started steps c).Heeds E (Spares d Forced) (fun _ _ => True) h := by
  induction steps generalizing c h with
  | zero => exact heeds_halt _ _
  | succ steps ih =>
    unfold Task.drive
    split
    · exact heeds_pure _ trivial
    · exact heeds_bind (hs.heeds_perform hrun w started _ _ h) fun x h₁ _ => ih _ h₁

/-- By induction on the generations of helpers. -/
theorem Stop.heeds_runFor (n : Nat) (w : Worker) (h : σ) :
    (Task.runFor s task n w).Heeds E (Spares d Forced) (fun _ _ => True) h := by
  induction n generalizing w h with
  | zero => exact heeds_halt _ _
  | succ n ih =>
    unfold Task.runFor
    refine heeds_bind (heeds_call (fun _ => id) fun _ _ _ => trivial) fun started h₁ _ => ?_
    refine heeds_bind (hs.heeds_drive ih w started _ _ h₁) fun c h₂ _ => ?_
    exact (Task.asks_finish s w c).spares fun _ hq => hq.only.not_engages (by decide)

end Stop
end WorkerGuard
