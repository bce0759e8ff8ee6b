import WorkerGuard.Proofs.Degrade.Appended
import WorkerGuard.Proofs.Task.Generations
import WorkerGuard.Proofs.Task.Outage

/-!
# WorkerGuard.Proofs.Task.Told

What a run tells the log.

* `silent_perform`, `silent_finish`: only a worker who gives its task up appends to the log.
* `Tells`: what an artifact says of such a worker; `writes_of_perform`.
* `degradations es`: the workers who have ended so, each with its reason.
* `Standing.told`: by the account `es` the log was told of each of them, in the order in which they
  ended, and of one who is about to end so; of nobody else.
-/

namespace WorkerGuard

open Program Simulation

section Silent

theorem Call.Only.not_appends {es : List Effect} {q : Call} (h : q.Only es) (hes : .append ∉ es) :
    ¬q.Appends := by
  cases q with
  | appendLog a => exact absurd rfl (h.not_effect hes)
  | _ => exact fun h => h

end Silent

namespace Task

variable {σ : Type} {E : Environment σ} {s : Settings} {task : Task} {w x : Worker}
variable {H h h' : σ} {hd : Head} {stack below : List Head} {es es₁ es₂ : List (Entry σ)}
variable {l l₁ l₂ : List Exchange} {c c' : Course} {a : Action} {e : Event} {o : Outcome}
variable {limits : Limits} {reason : Reason} {run : Worker → Program Outcome} {started : Instant}

section Silent

theorem silent_runRound (s : Settings) (w : Worker) (started : Instant) (round : UInt32)
    (c : Course) : (runRound s w started round c).Asks fun q => ¬q.Appends := by
  have halive : (isAlive w).Asks fun q => ¬q.Appends := by
    refine asks_bind (asks_bind (asks_call.2 fun h => h) fun _ => asks_request.2 fun h => h) ?_
    intro answer
    split <;> exact asks_pure _
  refine asks_bind halive fun alive => ?_
  split
  · have hexecute := (Retry.asks_execute (s.board true) w.dependency (.ofSettings s.retry)).mono
      fun _ hq => hq.only.not_appends (by decide)
    refine asks_bind hexecute fun result => ?_
    split
    · exact asks_pure _
    · refine asks_bind ((Breaker.Board.asks_state _ _).mono fun q hq => ?_) fun circuit => ?_
      · obtain rfl | hq := hq
        · exact fun h => h
        · exact hq.only.not_appends (by decide)
      · exact asks_bind (asks_call.2 fun h => h) fun now => asks_pure _
  · exact asks_pure _

theorem silent_requestHelper (s : Settings) (w : Worker) (c : Course) :
    (requestHelper s w c).Asks fun q => ¬q.Appends := by
  refine asks_bind ((Spawn.asks_request _).mono fun q hq => ?_) fun decision => ?_
  · obtain rfl | hq | hq := hq
    · exact fun h => h
    · exact hq.only.not_appends (by decide)
    · exact hq.only.not_appends (by decide)
  · split <;> exact asks_pure _

theorem silent_finish (s : Settings) (w : Worker) (c : Course) :
    (finish s w c).Asks fun q => ¬q.Appends := by
  have hclose : ∀ degraded, (closeRecord w degraded).Asks fun q => ¬q.Appends := by
    intro degraded
    rw [closeRecord_eq]
    exact asks_bind (asks_call.2 fun h => h) fun _ => asks_pure _
  unfold finish
  split
  · refine asks_bind (hclose false) fun _ => ?_
    split <;> exact asks_pure _
  · refine asks_bind (hclose true) fun _ => asks_bind ?_ fun _ => asks_pure _
    refine asks_bind (asks_call.2 fun h => h) fun now => ?_
    refine asks_bind (asks_call.2 fun h => h) fun last => ?_
    refine asks_bind (asks_call.2 fun h => h) fun log => ?_
    split
    · exact asks_pure _
    · dsimp only
      split
      · exact asks_pure _
      · exact asks_bind (asks_call.2 fun h => h) fun _ => asks_pure _
  · exact asks_bind (hclose false) fun _ => asks_pure _
  · exact asks_pure _

/-- Only a worker who gives up appends to the log. -/
theorem silent_perform (ha : a.IsOwn) (hw : ∀ reason, a ≠ .writeDegrade reason) :
    (perform s task run w started a c).Asks fun q => ¬q.Appends := by
  cases a with
  | runRound round => exact silent_runRound s w started round c
  | requestSpawn kind => exact silent_requestHelper s w c
  | runHelper id => exact absurd rfl (ha id)
  | writeDegrade reason => exact absurd rfl (hw reason)

end Silent

/-- An artifact of a worker who gave its task up. -/
structure Tells (task : Task) (d : Worker × Reason) (a : Artifact) : Prop where
  worker : a.worker = d.1.id
  role : a.role = d.1.role
  dependency : a.dependency = d.1.dependency
  task_eq : a.task = task.name
  reason : a.reason = d.2.message
  checkpoint : a.checkpoint = task.checkpoint

theorem writes_of_perform
    (hr : Trail E (perform s task run w started (.writeDegrade reason) c) h l (.ok (e, c')) h') :
    ∃ t artifact r, l = [⟨.now, t⟩, ⟨.appendLog artifact, r⟩] ∧ Tells task (w, reason) artifact ∧
      ((r = .ok () ∧ e = .degradeRecorded) ∨
        ∃ why, r = .error why ∧ e = .degradeFailed (Error.log why).message) := by
  obtain ⟨e', h₁, l₁, l₂, rfl, hwrite, hr⟩ := trail_bind_ok hr
  obtain ⟨rfl, hok, rfl⟩ := trail_pure hr
  cases hok
  obtain ⟨t, h₂, l₃, rfl, _, hwrite⟩ := trail_call_bind hwrite
  obtain ⟨r, h₃, l₄, rfl, _, hwrite⟩ := trail_call_bind hwrite
  refine ⟨t, ⟨w.id, w.role, w.dependency, task.name, reason.message, task.checkpoint, t⟩, r, ?_,
    ⟨rfl, rfl, rfl, rfl, rfl, rfl⟩, ?_⟩
  · split at hwrite
    · rw [(trail_pure hwrite).1, List.append_nil]
    · rw [(trail_pure hwrite).1, List.append_nil]
  · split at hwrite
    · cases (trail_pure hwrite).2.1
      exact .inl ⟨rfl, rfl⟩
    · cases (trail_pure hwrite).2.1
      exact .inr ⟨_, rfl, rfl⟩

def degradation? : Worker × Outcome → Option (Worker × Reason)
  | (x, .degraded reason _) => some (x, reason)
  | _ => none

def degradations (es : List (Entry σ)) : List (Worker × Reason) :=
  (endings es).filterMap degradation?

@[simp] theorem degradations_append (es es' : List (Entry σ)) :
    degradations (es ++ es') = degradations es ++ degradations es' := by
  simp [degradations]

@[simp] theorem degradations_began (x : Worker) (l : List Exchange) (es : List (Entry σ)) :
    degradations (.began x l :: es) = degradations es := rfl

@[simp] theorem degradations_did (x : Worker) (st : State) (a : Action) (e : Event)
    (l : List Exchange) (es : List (Entry σ)) :
    degradations (.did x st a e l :: es) = degradations es := rfl

@[simp] theorem degradations_ended (x : Worker) (o : Outcome) (before : σ) (l : List Exchange)
    (es : List (Entry σ)) :
    degradations (.ended x o before l :: es) = (degradation? (x, o)).toList ++ degradations es := by
  cases o <;> rfl

@[simp] theorem degradations_nil : degradations ([] : List (Entry σ)) = [] := rfl

/-- The reason that is in the log. -/
def State.recorded? : State → Option Reason
  | degradedComplete reason => some reason
  | _ => none

/-- The innermost worker, if it has told the log of its task and is about to end. -/
def recorded : List Head → List (Worker × Reason)
  | [] => []
  | hd :: _ => (hd.course.state.recorded?.map (hd.worker, ·)).toList

@[simp] theorem Head.worker_stepped (hd : Head) (s : Settings) (a : Action) (e : Event)
    (c : Course) : (hd.stepped s a e c).worker = hd.worker := rfl

theorem recorded?_of_due (hdue : c.Due a) : c.state.recorded? = none := by
  cases hstate : c.state with
  | degradedComplete reason => exact absurd hdue (not_due_of_terminal (by rw [hstate]; rfl) a)
  | _ => rfl

theorem ActionStep.recorded?_eq_none (h : ActionStep limits c a e c')
    (hw : ∀ reason, a ≠ .writeDegrade reason) : c'.state.recorded? = none := by
  cases h with
  | recorded => exact absurd rfl (hw _)
  | unrecorded => exact absurd rfl (hw _)
  | _ => rfl

theorem ActionStep.recorded?_of_write (h : ActionStep limits c (.writeDegrade reason) e c') :
    (e = .degradeRecorded → c'.state.recorded? = some reason) ∧
      ∀ error, e = .degradeFailed error → c'.state.recorded? = none := by
  cases h with
  | recorded => exact ⟨fun _ => rfl, nofun⟩
  | unrecorded => exact ⟨nofun, fun _ _ => rfl⟩

theorem degradation_of_finish (hc : Agrees c) (hq : c.queue = [])
    (hr : Trail E (finish s x c) h l (.ok o) h') :
    degradation? (x, o) = c.state.recorded?.map (x, ·) := by
  obtain hstate | ⟨reason, hstate⟩ | ⟨error, hstate⟩ := hc.terminal hq
  · obtain ⟨v, hv⟩ := Option.isSome_iff_exists.1 (hc.value hstate)
    simp only [finish, hstate, hv] at hr
    obtain ⟨_, _, _, _, _, _, hr⟩ := trail_bind_ok hr
    cases (trail_pure hr).2.1
    rw [hstate]
    rfl
  · obtain ⟨alert, rfl⟩ := finish_degraded hstate hr
    rw [hstate]
    rfl
  · simp only [finish, hstate] at hr
    obtain ⟨_, _, _, _, _, _, hr⟩ := trail_bind_ok hr
    cases (trail_pure hr).2.1
    rw [hstate]
    rfl

/-- The log was told of those who have given up, and of nobody else. -/
def Told (task : Task) (stack : List Head) (es : List (Entry σ)) : Prop :=
  List.Forall₂ (Tells task) (degradations es ++ recorded stack) (appended (calls es))

theorem Told.step {stack' : List Head} {d : List (Worker × Reason)} (hl : Told task stack es)
    (hnew : List.Forall₂ (Tells task) d (appended (calls es₁)))
    (hsame : degradations es₁ ++ recorded stack' = recorded stack ++ d) :
    Told task stack' (es ++ es₁) := by
  unfold Told at hl ⊢
  rw [degradations_append, List.append_assoc, hsame, ← List.append_assoc, calls_append,
    appended_append]
  exact List.rel_append hl hnew

theorem Standing.told (hs : Standing E s task w H stack es h) : Told task stack es := by
  induction hs with
  | start _ => exact .nil
  | @step hd below es h h' a queue e c l hs hq hx hp ih =>
    have hagrees := hs.agrees hd (List.mem_cons_self ..)
    obtain ⟨hdue, hown⟩ := hagrees.due_of_queue hq hx
    have hstep := hagrees.step hq hx hp
    have hbefore := recorded?_of_due hdue
    by_cases hwrite : ∃ reason, a = .writeDegrade reason
    · obtain ⟨reason, rfl⟩ := hwrite
      obtain ⟨hrecorded, hfailed⟩ := hstep.recorded?_of_write
      obtain ⟨t, artifact, r, rfl, htells, ⟨rfl, rfl⟩ | ⟨why, rfl, rfl⟩⟩ := writes_of_perform hp
      · refine ih.step (.cons htells .nil) ?_
        simp [recorded, hbefore, hrecorded rfl]
      · refine ih.step (d := []) .nil ?_
        simp [recorded, hbefore, hfailed _ rfl]
    · have hother : ∀ reason, a ≠ .writeDegrade reason := fun reason ha => hwrite ⟨reason, ha⟩
      have hsilent := appended_of_not_appends (hp.asks (silent_perform hown hother))
      refine ih.step (d := []) ?_ ?_
      · simp [Entry.exchanges, hsilent]
      · simp [recorded, hbefore, hstep.recorded?_eq_none hother]
  | @helper hd below es h h' x queue n t hs hx hn ha ih =>
    have hdue := (hs.agrees hd (List.mem_cons_self ..)).due_of_calls hx
    have hopening : opening.state.recorded? = none := rfl
    refine ih.step (d := []) .nil ?_
    simp [recorded, recorded?_of_due hdue, hopening]
  | @back hd parent below es h h' queue o l hs hq hx hp ih =>
    have hagrees := hs.agrees hd (by simp)
    have hstep := (hs.agrees parent (by simp)).rejoin (s := s) hx o
    have hsilent := appended_of_not_appends (hp.asks (silent_finish s _ _))
    refine ih.step (d := []) ?_ ?_
    · simp [Entry.exchanges, hsilent]
    · have hrejoined := hstep.recorded?_eq_none fun _ h => by cases h
      simp [degradation_of_finish hagrees hq hp, recorded, hrejoined]
  | @finished hd es h h' o l hs hq hp ih =>
    have hagrees := hs.agrees hd (by simp)
    have hsilent := appended_of_not_appends (hp.asks (silent_finish s _ _))
    refine ih.step (d := []) ?_ ?_
    · simp [Entry.exchanges, hsilent]
    · simp [degradation_of_finish hagrees hq hp, recorded]

end Task
end WorkerGuard
