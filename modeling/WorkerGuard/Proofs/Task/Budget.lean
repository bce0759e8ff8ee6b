import WorkerGuard.Proofs.Task.Agreement

/-!
# WorkerGuard.Proofs.Task.Budget

How much a run of a task can do.

* `Budget`: rounds, requests for helpers, and helpers. `State.left`: what a worker and its helpers
  may still do, with `room` generations below the worker; `ActionStep.left`: no step does more.
* `Standing.covered`: what a run has done and what it may still do is never more than at first.
* `Standing.affords`, `Standing.affords_halt`: so the settings and the depth of the worker bound all
  that a run does, up to the action in which it may halt.
-/

namespace WorkerGuard.Task

open Program Simulation

structure Budget where
  rounds : Nat
  requests : Nat
  helpers : Nat

/-- A helper who was granted has the budget of its parent, who gets nothing back. -/
def State.left (limits : Limits) (room : Nat) : State → Budget
  | running r => ⟨limits.localRounds.toNat - r.toNat + 1 + room * limits.localRounds.toNat, room + 1,
      room⟩
  | retryingLocal r => ⟨limits.localRounds.toNat - r.toNat + 1 + room * limits.localRounds.toNat,
      room + 1, room⟩
  | awaitingSpawn => ⟨room * limits.localRounds.toNat, room + 1, room⟩
  | helperRunning _ => ⟨room * limits.localRounds.toNat, room, room - 1⟩
  | degrading _ => ⟨0, 0, 0⟩
  | completed => ⟨0, 0, 0⟩
  | degradedComplete _ => ⟨0, 0, 0⟩
  | failed _ => ⟨0, 0, 0⟩

def Action.rounds : Action → Nat
  | runRound _ => 1
  | _ => 0

def Action.requests : Action → Nat
  | requestSpawn _ => 1
  | _ => 0

def Event.helpers : Event → Nat
  | spawnGranted _ => 1
  | _ => 0

theorem Action.attempts_eq (s : Settings) (a : Action) :
    a.attempts s = a.rounds * (s.retry.maxAttempts.toNat + 1) := by
  cases a <;> simp [attempts, rounds]

namespace Entry

variable {σ : Type}

def isRound : Entry σ → Bool
  | did _ _ (.runRound _) _ _ => true
  | _ => false

def isRequest : Entry σ → Bool
  | did _ _ (.requestSpawn _) _ _ => true
  | _ => false

end Entry

/-- What was done by an account. -/
def spent {σ : Type} (es : List (Entry σ)) : Budget :=
  ⟨es.countP Entry.isRound, es.countP Entry.isRequest, (granted (calls es)).length⟩

def Budget.Covers (total done left : Budget) : Prop :=
  done.rounds + left.rounds ≤ total.rounds ∧ done.requests + left.requests ≤ total.requests ∧
    done.helpers + left.helpers ≤ total.helpers

theorem Budget.Covers.none_left {total done left : Budget} (h : total.Covers done left) :
    total.Covers done ⟨0, 0, 0⟩ := by
  obtain ⟨h₁, h₂, h₃⟩ := h
  exact ⟨Nat.le_of_add_right_le h₁, Nat.le_of_add_right_le h₂, Nat.le_of_add_right_le h₃⟩

section Spent

variable {σ : Type} (es : List (Entry σ)) (x : Worker) (st : State) (a : Action) (e : Event)
variable (l : List Exchange)

theorem countP_isRound_did : (es ++ [Entry.did x st a e l]).countP Entry.isRound =
    es.countP Entry.isRound + a.rounds := by
  rw [List.countP_append]
  cases a <;> rfl

theorem countP_isRequest_did : (es ++ [Entry.did x st a e l]).countP Entry.isRequest =
    es.countP Entry.isRequest + a.requests := by
  rw [List.countP_append]
  cases a <;> rfl

theorem spent_did : spent (es ++ [Entry.did x st a e l]) = ⟨(spent es).rounds + a.rounds,
    (spent es).requests + a.requests, (spent es).helpers + (granted l).length⟩ := by
  unfold spent
  rw [countP_isRound_did, countP_isRequest_did, calls_append, granted_append, List.length_append]
  simp [Entry.exchanges]

end Spent

section ActionStep

variable {limits : Limits} {room : Nat} {c c' : Course} {a : Action} {e : Event}

theorem left_of_due_runRound {r : UInt32} (hdue : c.Due (.runRound r)) :
    c.state.left limits room = ⟨limits.localRounds.toNat - r.toNat + 1 +
      room * limits.localRounds.toNat, room + 1, room⟩ := by
  obtain hs | hs := Course.state_of_due_runRound hdue
  · rw [hs]; rfl
  · rw [hs]; rfl

theorem le_left_of_due (limits : Limits) (room : Nat) (hdue : c.Due a) :
    a.rounds ≤ (c.state.left limits room).rounds ∧
      a.requests ≤ (c.state.left limits room).requests := by
  cases a with
  | runRound r =>
    rw [left_of_due_runRound hdue]
    simp only [Action.rounds, Action.requests]
    omega
  | requestSpawn kind =>
    rw [Course.state_of_due_requestSpawn hdue]
    simp only [State.left, Action.rounds, Action.requests]
    omega
  | runHelper id => exact ⟨Nat.zero_le _, Nat.zero_le _⟩
  | writeDegrade reason => exact ⟨Nat.zero_le _, Nat.zero_le _⟩

/-- What a step does and leaves is no more than there was. -/
theorem ActionStep.left (h : ActionStep limits c a e c')
    (hroom : ∀ id, e = .spawnGranted id → 1 ≤ room) :
    (c.state.left limits room).Covers ⟨a.rounds, a.requests, e.helpers⟩
      (c'.state.left limits room) := by
  cases h with
  | retried hdue hmore =>
    have hplus := toNat_add_one hmore
    rw [UInt32.lt_iff_toNat_lt] at hmore
    rw [left_of_due_runRound hdue]
    simp only [Budget.Covers, State.left, Action.rounds, Action.requests, Event.helpers]
    omega
  | asked hdue | succeeded hdue | pruned hdue | gaveUp hdue | exhausted hdue =>
    rw [left_of_due_runRound hdue]
    simp only [Budget.Covers, State.left, Action.rounds, Action.requests, Event.helpers]
    omega
  | granted hdue =>
    have hpos := hroom _ rfl
    rw [Course.state_of_due_requestSpawn hdue]
    simp only [Budget.Covers, State.left, Action.rounds, Action.requests, Event.helpers]
    omega
  | refused hdue =>
    rw [Course.state_of_due_requestSpawn hdue]
    simp only [Budget.Covers, State.left, Action.rounds, Action.requests, Event.helpers]
    omega
  | helped hdue | unhelped hdue ho =>
    rw [Course.state_of_due_runHelper hdue]
    simp only [Budget.Covers, State.left, Action.rounds, Action.requests, Event.helpers,
      Outcome.event]
    omega
  | recorded hdue | unrecorded hdue =>
    rw [Course.state_of_due_writeDegrade hdue]
    simp only [Budget.Covers, State.left, Action.rounds, Action.requests, Event.helpers]
    omega

/-- Nothing follows upon the run of a helper but the record. -/
theorem ActionStep.left_of_helper {id : WorkerId} (h : ActionStep limits c (.runHelper id) e c') :
    c'.state.left limits room = ⟨0, 0, 0⟩ := by
  cases h with
  | helped hdue => rfl
  | unhelped hdue ho => rfl

end ActionStep

theorem left_opening (s : Settings.Policy) (room : Nat) :
    opening.state.left (.ofSettings s) room =
      ⟨(room + 1) * (Limits.ofSettings s).localRounds.toNat, room + 1, room⟩ := by
  have hrounds := Limits.one_le_localRounds s
  have hfirst : (Limits.ofSettings s).localRounds.toNat - (1 : UInt32).toNat + 1 =
      (Limits.ofSettings s).localRounds.toNat := Nat.sub_add_cancel hrounds
  show State.left _ _ (.running 1) = _
  rw [State.left, hfirst, Nat.add_mul, Nat.one_mul, Nat.add_comm]

theorem Limits.toNat_localRounds (s : Settings.Policy) :
    (Limits.ofSettings s).localRounds.toNat = max 1 s.localRounds.toNat := by
  show (if s.localRounds ≤ 1 then 1 else s.localRounds).toNat = _
  split
  · rename_i hle
    rw [UInt32.le_iff_toNat_le] at hle
    exact (Nat.max_eq_left hle).symm
  · rename_i hlt
    rw [UInt32.le_iff_toNat_le, UInt32.toNat_one] at hlt
    exact (Nat.max_eq_right (by omega)).symm

section Served

variable {s : Settings} {task : Task} {w : Worker} {others outages : Registry.Request → Prop}
variable {H h h' : Store} {hd : Head} {stack : List Head} {es : List (Entry Store)}

/-- Where a worker stands in its tree is on record, and its helper is to stand below it. -/
structure Placed (s : Settings) (hd : Head) (h : Store) : Prop where
  worker : h.HasDepth hd.worker.id hd.worker.depth
  depth_le : hd.worker.depth.toNat ≤ s.governor.maxDepth.toNat
  helper : ∀ x, hd.course.helper = some x → h.HasDepth x.id x.depth ∧
    x.depth.toNat = hd.worker.depth.toNat + 1 ∧ x.depth.toNat ≤ s.governor.maxDepth.toNat

theorem Standing.placed (hw : H.HasDepth w.id w.depth)
    (hle : w.depth.toNat ≤ s.governor.maxDepth.toNat)
    (hs : Standing (Served others outages) s task w H stack es h) : ∀ hd ∈ stack, Placed s hd h := by
  refine fun hd hmem => (hs.lineage (fun _ _ _ _ hq => hq)
    (P := fun _ x h => h.HasDepth x.id x.depth ∧ x.depth.toNat ≤ s.governor.maxDepth.toNat)
    (Q := fun _ x y h => h.HasDepth y.id y.depth ∧ y.depth.toNat = x.depth.toNat + 1 ∧
      y.depth.toNat ≤ s.governor.maxDepth.toNat)
    ?_ ?_ ⟨hw, hle⟩ ?_ ?_ hd hmem).elim fun hworker hhelper => ⟨hworker.1, hworker.2, hhelper⟩
  · rintro n x h q a h' ⟨hrecord, hrest⟩ hq
    exact ⟨hrecord.keep hq, hrest⟩
  · rintro n x y h q a h' ⟨hrecord, hrest⟩ hq
    exact ⟨hrecord.keep hq, hrest⟩
  · rintro n x y h h' ⟨hrecord, _⟩ hgranted
    exact ⟨hgranted.recorded, hgranted.depth_eq _ hrecord, UInt32.le_iff_toNat_le.1 hgranted.depth_le⟩
  · rintro n x y h ⟨hrecord, _, hle⟩
    exact ⟨hrecord, hle⟩

/-- Generations that may still come below a worker. -/
def room (s : Settings) (x : Worker) : Nat := s.governor.maxDepth.toNat - x.depth.toNat

/-- The event says how many helpers were granted, and there was room for them. -/
theorem helpers_of_perform {run : Worker → Program Outcome} {started : Instant} {a : Action}
    {c c' : Course} {e : Event} {l : List Exchange} (hplaced : Placed s hd h) (ha : a.IsOwn)
    (hp : Trail (Served others outages) (perform s task run hd.worker started a c) h l
      (.ok (e, c')) h') :
    (granted l).length = e.helpers ∧ ∀ id, e = .spawnGranted id → 1 ≤ room s hd.worker := by
  obtain ⟨hnone, _, hne⟩ | ⟨x, kind, _, rfl, _, hgranted, hgrant⟩ := granted_perform ha hp
  · refine ⟨?_, fun id he => absurd he (hne id)⟩
    rw [hnone]
    cases e with
    | spawnGranted id => exact absurd rfl (hne id)
    | _ => rfl
  · refine ⟨by rw [hgranted]; rfl, fun _ _ => ?_⟩
    have hdepth := hgrant.depth_eq _ hplaced.worker
    have hmax := UInt32.le_iff_toNat_le.1 hgrant.depth_le
    unfold room
    omega

/-- The innermost worker has all that is left. -/
def leftOf (s : Settings) : List Head → Budget
  | [] => ⟨0, 0, 0⟩
  | hd :: _ => hd.course.state.left (.ofSettings s.policy) (room s hd.worker)

theorem Standing.covered (hw : H.HasDepth w.id w.depth)
    (hle : w.depth.toNat ≤ s.governor.maxDepth.toNat)
    (hs : Standing (Served others outages) s task w H stack es h) :
    (opening.state.left (.ofSettings s.policy) (room s w)).Covers (spent es) (leftOf s stack) := by
  induction hs with
  | start ha =>
    refine ⟨?_, ?_, ?_⟩
    · exact Nat.le_of_eq (Nat.zero_add _)
    · exact Nat.le_of_eq (Nat.zero_add _)
    · exact Nat.le_of_eq (Nat.zero_add _)
  | @step hd below es h h' a queue e c l hs hq hx hp ih =>
    have hagrees := hs.agrees hd (List.mem_cons_self ..)
    have hplaced := hs.placed hw hle hd (List.mem_cons_self ..)
    obtain ⟨hdue, hown⟩ := hagrees.due_of_queue hq hx
    obtain ⟨hhelpers, hroom⟩ := helpers_of_perform hplaced hown hp
    have hstep := (hagrees.step hq hx hp).left hroom
    rw [spent_did, hhelpers]
    obtain ⟨h₁, h₂, h₃⟩ := ih
    obtain ⟨h₁', h₂', h₃'⟩ := hstep
    simp only [Budget.Covers, leftOf, Head.stepped] at *
    omega
  | @helper hd below es h h' x queue n t hs hx hn ha ih =>
    -- The helper has what its parent had left: the step that granted it took the rest.
    have hplaced := hs.placed hw hle hd (List.mem_cons_self ..)
    obtain ⟨_, hdepth, hmax⟩ := hplaced.helper x hx.2
    have hspent : spent (es ++ [.began x [⟨.now, t⟩]]) = spent es := by
      simp [spent, Entry.isRound, Entry.isRequest, Entry.exchanges, granted, Exchange.recruit?]
    have hroom : room s hd.worker = room s x + 1 := by
      unfold room
      omega
    have hleft : leftOf s (⟨n, x, t, [], opening⟩ :: hd :: below) = leftOf s (hd :: below) := by
      have hdue := (hs.agrees hd (List.mem_cons_self ..)).due_of_calls hx
      show opening.state.left _ (room s x) = hd.course.state.left _ (room s hd.worker)
      rw [left_opening, Course.state_of_due_runHelper hdue, hroom]
      rfl
    rw [hspent, hleft]
    exact ih
  | @back hd parent below es h h' queue o l hs hq hx hp ih =>
    have hstep := (hs.agrees parent (by simp)).rejoin (s := s) hx o
    have hspent : spent (es ++ [.ended hd.worker o h l, .did parent.worker parent.course.state
        (.runHelper hd.worker.id) o.event []]) = spent es := by
      simp [spent, Entry.isRound, Entry.isRequest, Entry.exchanges, granted_finish hp]
    rw [hspent]
    simp only [leftOf, hstep.left_of_helper]
    exact ih.none_left
  | @finished hd es h h' o l hs hq hp ih =>
    have hspent : spent (es ++ [.ended hd.worker o h l]) = spent es := by
      simp [spent, Entry.isRound, Entry.isRequest, Entry.exchanges, granted_finish hp]
    rw [hspent]
    exact ih.none_left

theorem Standing.attempts_le
    (hs : Standing (Served others outages) s task w H stack es h) :
    (calls es).countP Exchange.isAttempt ≤
      es.countP Entry.isRound * (s.retry.maxAttempts.toNat + 1) := by
  induction hs with
  | start ha => exact Nat.zero_le _
  | @step hd below es h h' a queue e c l hs hq hx hp ih =>
    have hown := ((hs.agrees hd (List.mem_cons_self ..)).due_of_queue hq hx).2
    have hl := perform_attempts hown hp
    rw [a.attempts_eq] at hl
    rw [countP_isRound_did, Nat.add_mul, calls_append, List.countP_append]
    simp only [calls_cons, calls_nil, Entry.exchanges, List.append_nil]
    omega
  | helper hs hx hn ha ih => simpa [Entry.exchanges, Entry.isRound, Exchange.isAttempt] using ih
  | back hs hq hx hp ih =>
    simpa [Entry.exchanges, Entry.isRound, finish_attempts hp] using ih
  | finished hs hq hp ih => simpa [Entry.exchanges, Entry.isRound, finish_attempts hp] using ih

/-- All that a run of `w` may do, by the settings and the depth of `w`. -/
structure Affordable (s : Settings) (w : Worker) (rounds requests : Nat) (l : List Exchange) :
    Prop where
  rounds : rounds ≤
    (s.governor.maxDepth.toNat - w.depth.toNat + 1) * max 1 s.policy.localRounds.toNat
  attempts : l.countP Exchange.isAttempt ≤
    (s.governor.maxDepth.toNat - w.depth.toNat + 1) * max 1 s.policy.localRounds.toNat *
      (s.retry.maxAttempts.toNat + 1)
  requests : requests ≤ s.governor.maxDepth.toNat - w.depth.toNat + 1
  helpers : (granted l).length ≤ s.governor.maxDepth.toNat - w.depth.toNat

theorem Standing.affords (hw : H.HasDepth w.id w.depth)
    (hle : w.depth.toNat ≤ s.governor.maxDepth.toNat)
    (hs : Standing (Served others outages) s task w H stack es h) :
    Affordable s w (es.countP Entry.isRound) (es.countP Entry.isRequest) (calls es) := by
  obtain ⟨hrounds, hrequests, hhelpers⟩ := hs.covered hw hle
  rw [left_opening, Limits.toNat_localRounds] at hrounds hrequests hhelpers
  have hmost := Nat.le_of_add_right_le hrounds
  exact ⟨hmost, Nat.le_trans hs.attempts_le (Nat.mul_le_mul_right _ hmost),
    Nat.le_of_add_right_le hrequests, Nat.le_of_add_right_le hhelpers⟩

/-- The action that comes next, should it halt. -/
theorem Standing.affords_halt {below : List Head} {a : Action} {c : Course} {l : List Exchange}
    {why : Halt} (hw : H.HasDepth w.id w.depth)
    (hle : w.depth.toNat ≤ s.governor.maxDepth.toNat)
    (hs : Standing (Served others outages) s task w H (hd :: below) es h) (hdue : hd.course.Due a)
    (ha : a.IsOwn) (hp : Trail (Served others outages) (perform s task
      (runFor s task hd.generations) hd.worker hd.started a c) h l (.error why) h') :
    Affordable s w (es.countP Entry.isRound + a.rounds) (es.countP Entry.isRequest + a.requests)
      (calls es ++ l) := by
  obtain ⟨hrounds, hrequests, hhelpers⟩ := hs.covered hw hle
  rw [left_opening, Limits.toNat_localRounds] at hrounds hrequests hhelpers
  obtain ⟨hround, hrequest⟩ := le_left_of_due (.ofSettings s.policy) (room s hd.worker) hdue
  have hmost : es.countP Entry.isRound + a.rounds ≤ _ :=
    Nat.le_trans (Nat.add_le_add_left hround _) hrounds
  have hl := perform_attempts ha hp
  refine ⟨hmost, ?_, Nat.le_trans (Nat.add_le_add_left hrequest _) hrequests, ?_⟩
  · refine Nat.le_trans ?_ (Nat.mul_le_mul_right _ hmost)
    rw [a.attempts_eq] at hl
    rw [List.countP_append, Nat.add_mul]
    exact Nat.add_le_add hs.attempts_le hl
  · rw [granted_append, granted_of_halt ha hp, List.append_nil]
    exact Nat.le_of_add_right_le hhelpers

end Served
end WorkerGuard.Task
