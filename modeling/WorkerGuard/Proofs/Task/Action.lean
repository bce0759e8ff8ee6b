import WorkerGuard.Proofs.Retry.Attempts
import WorkerGuard.Proofs.Spawn.Granted
import WorkerGuard.Proofs.Task.Calls
import WorkerGuard.Proofs.Task.ActionStep

/-!
# WorkerGuard.Proofs.Task.Action

What one action of a task costs, and what it registers.

* `excused_perform`: why an action may halt.
* `perform_attempts`: only a round calls the dependency, and no more often than its retries allow.
* `granted_perform`: only a request for a helper registers a worker, and then this worker waits to
  begin as the helper. `granted_of_halt`: no action that halts has registered one.
-/

namespace WorkerGuard

open Program Simulation

namespace Task

variable {σ : Type} {E : Environment σ} {s : Settings} {task : Task} {w : Worker}
variable {started : Instant} {run : Worker → Program Outcome} {a : Action} {c c' : Course}
variable {e : Event} {h h' : σ} {l : List Exchange}

/-- An action that a worker performs himself. -/
def Action.IsOwn (a : Action) : Prop := ∀ id, a ≠ .runHelper id

/-- Nothing keeps a worker from giving up. -/
theorem total_perform_writeDegrade (reason : Reason) (c : Course) :
    (perform s task run w started (.writeDegrade reason) c).Total := by
  refine total_bind ?_ fun _ => total_pure _
  refine total_bind (total_call _) fun now => total_bind (total_call _) fun written => ?_
  split <;> exact total_pure _

section Excused

variable {I : σ → Prop} {R : Prop} (hI : ∀ h q a h', I h → E h q a h' → I h')
include hI

theorem excused_runRound (round : UInt32) (hmade : UInt32.size ≤ s.retry.maxAttempts.toNat + 1 → R)
    (hdelay : ∀ k x, Retry.Sampled E x →
      (Retry.Policy.ofSettings s.retry).backoff? k x = none → R) :
    Excused E I s.patience R (runRound s w started round c) := by
  have halive : (isAlive w).Total := by
    refine total_bind (total_bind (total_call _) fun _ => total_call _) fun answer => ?_
    split <;> exact total_pure _
  refine excused_bind hI halive.excused fun alive => ?_
  split
  · have hexecute := Retry.excused_execute hI (s.board true) w.dependency hmade hdelay
    refine excused_bind hI hexecute fun result => ?_
    split
    · exact excused_pure
    · refine excused_bind hI (Breaker.Board.total_state _ _).excused fun circuit => ?_
      exact excused_bind hI excused_call fun now => excused_pure
  · exact excused_pure

theorem excused_perform (ha : a.IsOwn)
    (hmade : UInt32.size ≤ s.retry.maxAttempts.toNat + 1 → R)
    (hdelay : ∀ k x, Retry.Sampled E x →
      (Retry.Policy.ofSettings s.retry).backoff? k x = none → R)
    (hdepth : ∀ h p h', I h → E h (.registry (.get w.id)) (.ok (some p)) h' →
      p.depth.toNat + 1 = UInt32.size → R) :
    Excused E I s.patience R (perform s task run w started a c) := by
  cases a with
  | runRound round => exact excused_runRound hI round hmade hdelay
  | requestSpawn kind =>
    refine excused_bind hI (Spawn.excused_request hI _ ?_) fun decision => ?_
    · intro h parent p h' hh hparent
      cases hparent
      exact hdepth h p h' hh
    · split <;> exact excused_pure
  | runHelper id => exact absurd rfl (ha id)
  | writeDegrade reason => exact (total_perform_writeDegrade reason c).excused

end Excused

section Calls

theorem asks_perform_writeDegrade (reason : Reason) (c : Course) :
    (perform s task run w started (.writeDegrade reason) c).Asks Call.OfRecord :=
  asks_bind (asks_writeDegrade task w reason) fun _ => asks_pure _

/-- The attempts that an action may make. -/
def Action.attempts (s : Settings) : Action → Nat
  | runRound _ => s.retry.maxAttempts.toNat + 1
  | _ => 0

theorem runRound_attempts {round : UInt32} {r : Except Halt (Event × Course)}
    (hr : Trail E (runRound s w started round c) h l r h') :
    l.countP Exchange.isAttempt ≤ s.retry.maxAttempts.toNat + 1 := by
  have halive : ∀ {h l r h'}, Trail E (isAlive w) h l r h' → l.countP Exchange.isAttempt = 0 :=
    fun hr => hr.countP_eq_zero (asks_isAlive w) fun _ hq => hq.only.isAttempt (by decide)
  obtain ⟨alive, h₁, l₁, l₂, rfl, hfirst, hr⟩ | ⟨why, rfl, hfirst⟩ := trail_bind hr
  · rw [List.countP_append, halive hfirst, Nat.zero_add]
    split at hr
    · obtain ⟨result, h₂, l₃, l₄, rfl, hexecute, hr⟩ | ⟨why, rfl, hexecute⟩ := trail_bind hr
      · have hafter : l₄.countP Exchange.isAttempt = 0 := by
          refine hr.countP_eq_zero (P := fun q => q = .now ∨ q = .enlist w.dependency ∨
            q.OfBreaker w.dependency) ?_ ?_
          · split
            · exact asks_pure _
            · refine asks_bind ((Breaker.Board.asks_state _ _).mono fun _ => .inr) fun _ => ?_
              exact asks_bind (asks_call.2 (.inl rfl)) fun _ => asks_pure _
          · rintro ⟨q, a⟩ (rfl | rfl | hq)
            · rfl
            · rfl
            · exact hq.only.isAttempt (by decide)
        rw [List.countP_append, hafter]
        exact Retry.execute_attempts hexecute
      · exact Retry.execute_attempts hexecute
    · rw [(trail_pure hr).1]
      exact Nat.zero_le _
  · rw [halive hfirst]
    exact Nat.zero_le _

theorem perform_attempts {r : Except Halt (Event × Course)} (ha : a.IsOwn)
    (hr : Trail E (perform s task run w started a c) h l r h') :
    l.countP Exchange.isAttempt ≤ a.attempts s := by
  cases a with
  | runRound round => exact runRound_attempts hr
  | requestSpawn kind =>
    refine Nat.le_of_eq (hr.countP_eq_zero (P := fun q => q = .enlist w.dependency ∨
      q.OfBreaker w.dependency ∨ q.OfPlacing s w.dependency) ?_ ?_)
    · have hasks := Spawn.asks_request (s := s) ⟨s.policy.helperRole, some w.id, w.dependency⟩
      refine asks_bind hasks fun decision => ?_
      split <;> exact asks_pure _
    · rintro ⟨q, a⟩ (rfl | hq | hq)
      · rfl
      · exact hq.only.isAttempt (by decide)
      · exact hq.only.isAttempt (by decide)
  | runHelper id => exact absurd rfl (ha id)
  | writeDegrade reason =>
    exact Nat.le_of_eq
      (hr.countP_eq_zero (asks_perform_writeDegrade reason c) fun _ hq => hq.only.isAttempt (by decide))

theorem finish_attempts {r : Except Halt Outcome} (hr : Trail E (finish s w c) h l r h') :
    l.countP Exchange.isAttempt = 0 :=
  hr.countP_eq_zero (asks_finish s w c) fun _ hq => hq.only.isAttempt (by decide)

theorem granted_finish {r : Except Halt Outcome} (hr : Trail E (finish s w c) h l r h') :
    granted l = [] :=
  granted_of_not_inserts fun e he => (hr.asks (asks_finish s w c) e he).only.not_inserts (by decide)

end Calls

/-- An action either registers nobody, or the helper who waits to begin. -/
theorem granted_perform {others outages : Registry.Request → Prop} {h h' : Store}
    (ha : a.IsOwn) (hr : Trail (Served others outages) (perform s task run w started a c) h l
      (.ok (e, c')) h') :
    (granted l = [] ∧ c'.helper = c.helper ∧ ∀ id, e ≠ .spawnGranted id) ∨
      ∃ x kind, a = .requestSpawn kind ∧ e = .spawnGranted x.id ∧ c'.helper = some x ∧
        granted l = [x] ∧ Spawn.Grant s w.dependency w.id h h' x := by
  cases a with
  | runRound round =>
    refine .inl ⟨granted_of_not_inserts fun x hx => ?_, ?_⟩
    · obtain hq | hq := hr.asks (asks_runRound s w started round c) x hx
      · exact hq.only.not_inserts (by decide)
      · exact hq.only.not_inserts (by decide)
    · have hreturns : (runRound s w started round c).Returns fun r =>
          r.2.helper = c.helper ∧ ∀ id, r.1 ≠ .spawnGranted id := by
        refine returns_of_next fun alive => ?_
        split
        · refine returns_of_next fun result => ?_
          split
          · exact returns_pure ⟨rfl, nofun⟩
          · refine returns_of_next fun circuit => returns_of_next fun now => ?_
            exact returns_pure ⟨rfl, nofun⟩
        · exact returns_pure ⟨rfl, nofun⟩
      exact hr.returns hreturns rfl
  | requestSpawn kind =>
    obtain ⟨decision, h₁, l₁, l₂, rfl, hrequest, hr⟩ := trail_bind_ok hr
    have hgranted := Spawn.granted_request hrequest
    split at hr
    · rename_i x
      obtain ⟨rfl, heq, rfl⟩ := trail_pure hr
      cases heq
      rw [List.append_nil]
      exact .inr ⟨x, kind, rfl, rfl, rfl, hgranted, Spawn.grant_of_request rfl hrequest⟩
    · obtain ⟨rfl, heq, rfl⟩ := trail_pure hr
      cases heq
      rw [List.append_nil]
      exact .inl ⟨hgranted, rfl, nofun⟩
    · obtain ⟨rfl, heq, rfl⟩ := trail_pure hr
      cases heq
      rw [List.append_nil]
      exact .inl ⟨hgranted, rfl, nofun⟩
  | runHelper id => exact absurd rfl (ha id)
  | writeDegrade reason =>
    refine .inl ⟨granted_of_not_inserts fun x hx => ?_, ?_⟩
    · exact (hr.asks (asks_perform_writeDegrade reason c) x hx).only.not_inserts (by decide)
    · obtain ⟨e', h₁, l₁, l₂, rfl, hwrite, hr⟩ := trail_bind_ok hr
      obtain ⟨rfl, heq, rfl⟩ := trail_pure hr
      cases heq
      have hreturns : (writeDegrade w task reason).Returns fun e => ∀ id, e ≠ .spawnGranted id := by
        refine returns_of_next fun now => returns_of_next fun written => ?_
        split
        · exact returns_pure nofun
        · exact returns_pure nofun
      exact ⟨rfl, hwrite.returns hreturns rfl⟩

/-- An action that halts has registered nobody. -/
theorem granted_of_halt {why : Halt} (ha : a.IsOwn)
    (hr : Trail E (perform s task run w started a c) h l (.error why) h') : granted l = [] := by
  cases a with
  | runRound round =>
    refine granted_of_not_inserts fun x hx => ?_
    obtain hq | hq := hr.asks (asks_runRound s w started round c) x hx
    · exact hq.only.not_inserts (by decide)
    · exact hq.only.not_inserts (by decide)
  | requestSpawn kind =>
    obtain ⟨decision, h₁, l₁, l₂, rfl, _, hr⟩ | ⟨why, _, hrequest⟩ := trail_bind hr
    · split at hr
      · cases (trail_pure hr).2.1
      · cases (trail_pure hr).2.1
      · cases (trail_pure hr).2.1
    · exact Spawn.granted_request hrequest
  | runHelper id => exact absurd rfl (ha id)
  | writeDegrade reason =>
    exact granted_of_not_inserts fun x hx =>
      (hr.asks (asks_perform_writeDegrade reason c) x hx).only.not_inserts (by decide)

end Task
end WorkerGuard
