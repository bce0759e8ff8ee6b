import WorkerGuard.Proofs.Task.Machine

/-!
# WorkerGuard.Proofs.Task.Events

The state machine of a task under any events, whether these make sense or not.

* `State.Wants st as`: the actions `as` are what a task does that has come to the state `st`.
* `wants_transition`: every transition asks for just that.
* `transition_retryingLocal`: the number of the next round is never out of range.
* `requestSpawn_mem_transition`: all that it takes to ask for a helper.
* `State.after limits st es`: the state to which the events `es` lead from `st`, and all actions on
  the way.
* `length_after`, `after_of_terminal`: one action for each event, and none once the task has ended.
-/

namespace WorkerGuard.Task

open Failure

inductive State.Wants : State → List Action → Prop where
  | nothing {st : State} (h : st.isTerminal = true) : Wants st []
  | runRound (round : UInt32) : Wants (.retryingLocal round) [.runRound round]
  | requestSpawn (kind : RetryableKind) : Wants .awaitingSpawn [.requestSpawn kind]
  | runHelper (helper : WorkerId) : Wants (.helperRunning helper) [.runHelper helper]
  | writeDegrade (reason : Reason) : Wants (.degrading reason) [.writeDegrade reason]

variable {st : State} {e : Event} {limits : Limits} {r : Report} {kind : RetryableKind}

theorem wants_giveUp (reason : Reason) : (giveUp reason).1.Wants (giveUp reason).2 :=
  .writeDegrade reason

theorem wants_afterFailure (r : Report) (limits : Limits) :
    (afterFailure r limits).1.Wants (afterFailure r limits).2 := by
  unfold afterFailure
  split
  · exact .runRound _
  · exact .requestSpawn _
  · exact wants_giveUp _
  · exact .nothing rfl

theorem wants_transition (st : State) (e : Event) (limits : Limits) :
    (transition st e limits).1.Wants (transition st e limits).2 := by
  unfold transition
  split
  all_goals first
    | exact .nothing rfl
    | exact wants_afterFailure _ _
    | exact wants_giveUp _
    | exact .runHelper _

/-- Another round comes below the limit only, so its number is one that a round can have. -/
theorem round_succ {r : Report} (h : decide r limits = .retryLocal) :
    (r.round + 1).toNat = r.round.toNat + 1 := by
  have hlt := UInt32.lt_iff_toNat_lt.1 (decide_eq_retryLocal h).2.2
  have hlimit := limits.localRounds.toNat_lt
  rw [UInt32.toNat_add, UInt32.toNat_one, Nat.mod_eq_of_lt (by omega)]

theorem transition_retryingLocal {round : UInt32}
    (h : (transition st e limits).1 = .retryingLocal round) :
    ∃ r, e = .roundFailed r ∧ round.toNat = r.round.toNat + 1 := by
  have hfailed : ∀ r : Report, (afterFailure r limits).1 = .retryingLocal round →
      round.toNat = r.round.toNat + 1 := by
    intro r hr
    unfold afterFailure at hr
    split at hr
    · rename_i hdecide
      cases hr
      exact round_succ hdecide
    · cases hr
    · cases hr
    · cases hr
  unfold transition at h
  split at h
  all_goals first
    | exact ⟨_, rfl, hfailed _ h⟩
    | cases h

theorem decide_eq_spawnHelper_iff :
    decide r limits = .spawnHelper kind ↔
      r.classification.retryable = true ∧ r.classification.kind = kind.toKind ∧
        r.breaker = .closed ∧ limits.localRounds ≤ r.round ∧ limits.spawnAfter ≤ r.elapsed := by
  refine ⟨decide_eq_spawnHelper, ?_⟩
  rintro ⟨hretry, hkind, hclosed, hround, helapsed⟩
  have hretryable : r.retryable? = some kind := by
    rw [Report.retryable?, if_pos hretry]
    exact Kind.retryable?_eq_some_iff.2 hkind
  have hspent : ¬r.round < limits.localRounds := UInt32.not_lt.2 hround
  simp only [decide, hretryable]
  rw [if_neg (not_not_intro hclosed), if_neg hspent, if_pos helapsed]

theorem requestSpawn_mem_afterFailure :
    .requestSpawn kind ∈ (afterFailure r limits).2 ↔ decide r limits = .spawnHelper kind := by
  unfold afterFailure
  cases decide r limits <;> simp [giveUp, eq_comm]

theorem requestSpawn_mem_transition :
    .requestSpawn kind ∈ (transition st e limits).2 ↔
      (∃ round, st = .running round ∨ st = .retryingLocal round) ∧
        ∃ r, e = .roundFailed r ∧ r.classification.retryable = true ∧
          r.classification.kind = kind.toKind ∧ r.breaker = .closed ∧
          limits.localRounds ≤ r.round ∧ limits.spawnAfter ≤ r.elapsed := by
  constructor
  · intro h
    unfold transition at h
    split at h
    all_goals first
      | exact ⟨⟨_, .inl rfl⟩, _, rfl,
          decide_eq_spawnHelper_iff.1 (requestSpawn_mem_afterFailure.1 h)⟩
      | exact ⟨⟨_, .inr rfl⟩, _, rfl,
          decide_eq_spawnHelper_iff.1 (requestSpawn_mem_afterFailure.1 h)⟩
      | simp [giveUp] at h
  · rintro ⟨⟨round, rfl | rfl⟩, r, rfl, hr⟩
    · exact requestSpawn_mem_afterFailure.2 (decide_eq_spawnHelper_iff.2 hr)
    · exact requestSpawn_mem_afterFailure.2 (decide_eq_spawnHelper_iff.2 hr)

def State.after (limits : Limits) : State → List Event → State × List Action
  | st, [] => (st, [])
  | st, e :: es =>
    let next := transition st e limits
    let rest := next.1.after limits es
    (rest.1, next.2 ++ rest.2)

theorem State.after_append (limits : Limits) (st : State) (es es' : List Event) :
    st.after limits (es ++ es') =
      (((st.after limits es).1.after limits es').1,
        (st.after limits es).2 ++ ((st.after limits es).1.after limits es').2) := by
  induction es generalizing st with
  | nil => rfl
  | cons e es ih => simp only [List.cons_append, after, ih, List.append_assoc]

theorem transition_of_terminal (h : st.isTerminal = true) (e : Event) (limits : Limits) :
    (transition st e limits).1.isTerminal = true ∧ (transition st e limits).2 = [] := by
  cases st with
  | completed => exact ⟨rfl, rfl⟩
  | degradedComplete reason => exact ⟨rfl, rfl⟩
  | failed error => exact ⟨rfl, rfl⟩
  | _ => cases h

/-- By induction on the events: what comes after the end is another end. -/
theorem State.after_of_terminal (limits : Limits) {st : State} (h : st.isTerminal = true)
    (es : List Event) :
    (st.after limits es).1.isTerminal = true ∧ (st.after limits es).2 = [] := by
  induction es generalizing st with
  | nil => exact ⟨h, rfl⟩
  | cons e es ih =>
    obtain ⟨hnext, hnone⟩ := transition_of_terminal h e limits
    obtain ⟨hlast, hrest⟩ := ih hnext
    exact ⟨hlast, by simp only [after, hnone, hrest, List.append_nil]⟩

theorem State.Wants.length {as : List Action} (h : st.Wants as) (hst : st.isTerminal = false) :
    as.length = 1 := by
  cases h with
  | nothing h =>
    rw [hst] at h
    cases h
  | _ => rfl

/-- A task that has not ended has had an action after each event. -/
theorem State.length_after (limits : Limits) {st : State} {es : List Event}
    (h : (st.after limits es).1.isTerminal = false) :
    (st.after limits es).2.length = es.length := by
  induction es generalizing st with
  | nil => rfl
  | cons e es ih =>
    have hnext : (transition st e limits).1.isTerminal = false := by
      cases hend : (transition st e limits).1.isTerminal with
      | false => rfl
      | true =>
        have hlast := (State.after_of_terminal limits hend es).1
        simp only [after, hlast] at h
        cases h
    simp only [after, List.length_append, ih h, (wants_transition st e limits).length hnext,
      List.length_cons]
    omega

/-- The machine keeps its order under any events: each transition asks for what its new state
wants, counts rounds without overflow and asks for a helper in one case only; and once a task has
ended, no event leads to an action. -/
theorem machine_in_order (limits : Limits) :
    (∀ st e, (transition st e limits).1.Wants (transition st e limits).2) ∧
    (∀ st e round, (transition st e limits).1 = .retryingLocal round →
      ∃ r, e = .roundFailed r ∧ round.toNat = r.round.toNat + 1) ∧
    (∀ st e kind, .requestSpawn kind ∈ (transition st e limits).2 ↔
      (∃ round, st = .running round ∨ st = .retryingLocal round) ∧
        ∃ r, e = .roundFailed r ∧ r.classification.retryable = true ∧
          r.classification.kind = kind.toKind ∧ r.breaker = .closed ∧
          limits.localRounds ≤ r.round ∧ limits.spawnAfter ≤ r.elapsed) ∧
    ∀ es es', ((start.1.after limits es).1.isTerminal = true →
      (start.1.after limits (es ++ es')).1.isTerminal = true ∧
        (start.1.after limits (es ++ es')).2 = (start.1.after limits es).2) ∧
      ((start.1.after limits es).1.isTerminal = false →
        (start.1.after limits es).2.length = es.length) := by
  refine ⟨fun st e => wants_transition st e limits, fun st e round => transition_retryingLocal,
    fun st e kind => requestSpawn_mem_transition,
    fun es es' => ⟨fun h => ?_, State.length_after limits⟩⟩
  obtain ⟨hlast, hnone⟩ := State.after_of_terminal limits h es'
  rw [State.after_append]
  exact ⟨hlast, by rw [hnone, List.append_nil]⟩

/-- The last round that can be counted, then a helper, and no more once the worker is pruned. -/
theorem pruned_before_helper :
    let limits : Limits := ⟨4294967295, .zero⟩
    let failed (round : UInt32) : Event :=
      .roundFailed ⟨⟨.timeout, true, none⟩, .closed, .zero, round⟩
    let es := [failed 4294967294, failed 4294967295, .terminated]
    (start.1.after limits es).1.isTerminal = true ∧
      (start.1.after limits (es ++ [.spawnGranted ⟨"w-2"⟩, failed 1])).2 =
        [.runRound 4294967295, .requestSpawn .timeout] := by
  intro limits failed es
  have hend : (start.1.after limits es).1.isTerminal = true := by decide
  have hsame := (((machine_in_order limits).2.2.2 es [.spawnGranted ⟨"w-2"⟩, failed 1]).1 hend).2
  exact ⟨hend, hsame.trans (by decide)⟩

end WorkerGuard.Task
