import WorkerGuard.Proofs.Retry.Judgement
import WorkerGuard.Proofs.Task.Agreement
import WorkerGuard.Proofs.Task.Onward

/-!
# WorkerGuard.Proofs.Task.Judged

What becomes of a round with the judgement on one of its attempts.

* `Judged s x l c`: by the exchanges `l` of its round, the worker `x` has just had the judgement `c`
  on an attempt that it made, or that was refused.
* `Call.Quiet d`: calls that neither go to a dependency nor ask for a worker.
* `Judged.ends`: after a judgement on which nothing is tried again, the round fails with it, by
  quiet calls.
* `judged_of_report`: a round that failed has had the judgement that it reports.
* `judged_of_result`: so it is with every attempt that failed in such a way, unless the round halts.
* `Entry.Origin`: what an entry of the account stands for.
* `Standing.judged`: where a run goes on after such a round of its account.
* `Standing.judged_of_attempt`: every attempt of the account that failed in such a way is in one.
* `Stuck.not_rests`: no run halts in such a round.
-/

namespace WorkerGuard

open Breaker Failure Program Retry

/-- Calls for the own record and about the breaker of `d`. -/
def Call.Quiet (d : Dependency) (q : Call) : Prop := q.OfRecord ∨ q = .enlist d ∨ q.OfBreaker d

theorem Call.Quiet.only {d : Dependency} {q : Call} (h : q.Quiet d) :
    q.Only [.append, .swap, .exchange] := by
  obtain hq | rfl | hq := h
  · exact hq.only.mono (by simp)
  · exact nofun
  · exact hq.only.mono (by simp)

namespace Task

variable {σ : Type} {E : Environment σ} {s : Settings} {x : Worker} {started : Instant}
variable {round : UInt32} {k : Course} {h h' : σ} {l la lb : List Exchange} {c : Classification}
variable {r : Except Halt (Event × Course)}

def Judged (s : Settings) (x : Worker) (l : List Exchange) (c : Classification) : Prop :=
  ∃ l₁ l₂ o, l = l₁ ++ ⟨.enlist x.dependency, ()⟩ :: l₂ ∧ Path (isAlive x) l₁ (.done true) ∧
    Tries ((s.board true).breaker x.dependency) (.ofSettings s.retry) s.retry.maxAttempts.toNat 0
      s.retry.attemptTimeout [] l₂ o ∧ judgement? x.dependency o = some c

/-- The end of a round that got no value. -/
def reported (s : Settings) (x : Worker) (started : Instant) (round : UInt32) (k : Course)
    (c : Classification) : Program (Event × Course) := do
  let circuit ← (s.board true).state x.dependency
  let now ← Program.call .now
  return (.roundFailed ⟨c, circuit, now.since started, round⟩, k)

theorem asks_reported : (reported s x started round k c).Asks (Call.Quiet x.dependency) := by
  refine asks_bind (((s.board true).asks_state _).mono fun _ => .inr) fun circuit => ?_
  exact asks_bind (asks_call.2 (.inl trivial)) fun now => asks_pure _

theorem total_reported : (reported s x started round k c).Total :=
  total_bind (Board.total_state _ _) fun _ => total_bind (total_call _) fun _ => total_pure _

theorem returns_reported : (reported s x started round k c).Returns fun out =>
    ∃ report, out = (.roundFailed report, k) ∧ report.classification = c ∧ report.round = round :=
  returns_of_next fun _ => returns_of_next fun _ => returns_pure ⟨_, rfl, rfl, rfl⟩

theorem Judged.ends (hj : Judged s x la c) (hrests : (Policy.ofSettings s.retry).Rests c)
    (hr : Trail E (runRound s x started round k) h (la ++ lb) r h') :
    (∀ q ∈ lb, q.call.Quiet x.dependency) ∧ ∃ report, r = .ok (.roundFailed report, k) ∧
      report.classification = c ∧ report.round = round := by
  obtain ⟨l₁, l₂, o, rfl, halive, htries, hc⟩ := hj
  obtain ⟨g, hattempts, rfl⟩ := htries.ends hc hrests
  have hhandle : Path ((s.board true).handle x.dependency) [⟨.enlist x.dependency, ()⟩]
      (.done ((s.board true).breaker x.dependency)) := .ask (q := .enlist x.dependency) () .refl
  have hexecute : Path (execute (s.board true) x.dependency (.ofSettings s.retry))
      (⟨.enlist x.dependency, ()⟩ :: l₂) (.done (.error g)) := hhandle.bind hattempts
  rw [List.append_assoc] at hr
  obtain ⟨h₁, _, hr⟩ := halive.trail_bind hr
  rw [if_pos rfl] at hr
  obtain ⟨h₂, _, hr⟩ := hexecute.trail_bind hr
  have hreported : Trail E (reported s x started round k g.classification) h₂ lb r h' := hr
  obtain ⟨out, rfl⟩ := hreported.ok_of_total total_reported
  obtain ⟨report, rfl, hclass, hround⟩ := hreported.returns returns_reported rfl
  exact ⟨hreported.asks asks_reported, report, rfl, hclass, hround⟩

/-- A round that failed has had the judgement that it reports. -/
theorem judged_of_report {report : Report} {k' : Course}
    (hr : Trail E (runRound s x started round k) h l (.ok (.roundFailed report, k')) h') :
    ∃ la lb, l = la ++ lb ∧ Judged s x la report.classification := by
  obtain ⟨alive, h₁, l₁, l₂, rfl, halive, hr⟩ := trail_bind_ok hr
  cases alive with
  | false => cases (trail_pure hr).2.1
  | true =>
    rw [if_pos rfl] at hr
    obtain ⟨result, h₂, l₃, l₄, rfl, hexecute, hr⟩ := trail_bind_ok hr
    cases result with
    | ok v => cases (trail_pure hr).2.1
    | error g =>
      have hreported : Trail E (reported s x started round k g.classification) h₂ l₄ _ h' := hr
      obtain ⟨_, hout, hclass, _⟩ := hreported.returns returns_reported rfl
      cases hout
      obtain ⟨_, h₃, l₅, rfl, _, hattempts⟩ := trail_call_bind hexecute
      obtain ⟨o, htries, hjudged⟩ := tries_of_failure hattempts
      exact ⟨_, l₄, (List.append_assoc ..).symm, l₁, l₅, o, rfl, halive.path, htries,
        hclass ▸ hjudged⟩

/-- What is left of a round after its attempts. -/
theorem asks_afterwards (result : Except GivenUp Json) : (match result with
    | .ok v => pure (.roundSucceeded, { k with value := some v })
    | .error g => reported s x started round k g.classification :
      Program (Event × Course)).Asks (Call.Quiet x.dependency) := by
  split
  · exact asks_pure _
  · exact asks_reported

theorem judged_of_result {t : Trial} {d : Dependency} {e : CallError} (ht : t.result = .error e)
    (hrests : (Policy.ofSettings s.retry).Rests (Failure.classify e))
    (hr : Trail E (runRound s x started round k) h
      (la ++ ⟨.attempt d t.bound, t.outcome⟩ :: lb) r h') :
    (∀ q ∈ lb, q.call.Quiet x.dependency) ∧ ∀ out, r = .ok out → ∃ l₁ l₂, lb = l₁ ++ l₂ ∧
      Judged s x (la ++ ⟨.attempt d t.bound, t.outcome⟩ :: l₁) (Failure.classify e) := by
  obtain ⟨alive, h₁, l₁, l₂, rfl, halive, hr⟩ := hr.bind_later (asks_isAlive x) id
  cases alive with
  | false =>
    obtain ⟨hnil, _⟩ := trail_pure hr
    simp at hnil
  | true =>
    rw [if_pos rfl] at hr
    have hnone : ¬(Call.attempt d t.bound).Quiet x.dependency :=
      fun hq => hq.only.not_effect (by decide) rfl
    obtain ⟨result, h₂, l₃, l₄, rfl, hexecute, hrest⟩ | ⟨why, rfl, hexecute⟩ :=
      hr.bind_earlier asks_afterwards hnone
    · obtain ⟨hafter, l₅, rfl, htries⟩ := tries_of_execute ht hrests hexecute
      refine ⟨fun q hq => ?_, fun out _ => ⟨l₃, l₄, rfl, l₁, _, _, ?_, halive.path,
        htries result rfl, rfl⟩⟩
      · obtain hq | hq := List.mem_append.1 hq
        · exact .inr (.inr (hafter q hq))
        · exact hrest.asks (asks_afterwards result) q hq
      · simp
    · obtain ⟨hafter, _⟩ := tries_of_execute ht hrests hexecute
      exact ⟨fun q hq => .inr (.inr (hafter q hq)), fun _ hout => nomatch hout⟩

/-- A worker calls its own dependency only. -/
theorem dependency_of_attempt {d : Dependency} (t : Trial)
    (hr : Trail E (runRound s x started round k) h l r h')
    (hmem : ⟨.attempt d t.bound, t.outcome⟩ ∈ l) : x.dependency = d := by
  obtain hq | hq := hr.asks (asks_runRound s x started round k) _ hmem
  · cases hq
  · exact Eq.symm hq

section Standing

variable {task : Task} {w : Worker} {H : σ} {stack : List Head} {es es₁ es₂ : List (Entry σ)}
variable {st : State} {ev : Event}

theorem isOwn_runRound (round : UInt32) : (Action.runRound round).IsOwn := by
  intro id hid
  cases hid

/-- `hd` after a round that failed so. -/
def Head.failed (hd : Head) (s : Settings) (report : Report) : Head :=
  hd.stepped s (.runRound report.round) (.roundFailed report) { hd.course with queue := [] }

theorem Head.course_failed {hd : Head} {report : Report}
    (hdue : hd.course.Due (.runRound report.round)) : (hd.failed s report).course =
      ⟨(afterFailure report (.ofSettings s.policy)).1,
        (afterFailure report (.ofSettings s.policy)).2, hd.course.value, hd.course.helper⟩ :=
  Course.after_roundFailed hdue report

theorem Head.agrees_failed {hd : Head} {report : Report}
    (hdue : hd.course.Due (.runRound report.round)) : Agrees (hd.failed s report).course :=
  (actionStep_afterFailure report hdue).agrees

/-- In a round of the account `es`, the worker `x` had the judgement `c`. Before the round there was
`es₁`, after the judgement there were the exchanges `lb`, and after the round there was `es₂`. -/
def JudgedAt (s : Settings) (es es₁ : List (Entry σ)) (x : Worker) (round : UInt32) (ev : Event)
    (c : Classification) (lb : List Exchange) (es₂ : List (Entry σ)) : Prop :=
  ∃ st la, es = es₁ ++ .did x st (.runRound round) ev (la ++ lb) :: es₂ ∧ Judged s x la c

theorem Standing.judged (hs : Standing E s task w H stack es h)
    (hj : JudgedAt s es es₁ x round ev c lb es₂) (hrests : (Policy.ofSettings s.retry).Rests c) :
    (∀ q ∈ lb, q.call.Quiet x.dependency) ∧ ∃ report hd below h₁ h₂, ev = .roundFailed report ∧
      report.classification = c ∧ report.round = round ∧ hd.worker = x ∧
      Standing E s task w H (hd :: below) es₁ h₁ ∧ hd.course.Due (.runRound report.round) ∧
      Leads E s task (hd.failed s report :: below) h₂ es₂ stack h := by
  obtain ⟨st, la, rfl, hj⟩ := hj
  obtain ⟨hd, below, k, h₁, h₂, rfl, rfl, hs₁, ⟨queue, hq, hx, hp⟩, hl⟩ :=
    hs.at_action (isOwn_runRound round)
  have hdue := ((hs₁.agrees hd (List.mem_cons_self ..)).due_of_queue hq hx).1
  obtain rfl : queue = [] := by
    rw [hdue.1] at hq
    exact (List.cons.inj hq).2.symm
  obtain ⟨hquiet, report, hok, hclass, rfl⟩ := hj.ends hrests hp
  cases hok
  exact ⟨hquiet, report, hd, below, h₁, h₂, rfl, hclass, rfl, rfl, hs₁, hdue, hl⟩

theorem Standing.judged_of_failed {report : Report} (hs : Standing E s task w H stack es h)
    (hes : es = es₁ ++ .did x st (.runRound round) (.roundFailed report) l :: es₂) :
    ∃ lb, JudgedAt s es es₁ x round (.roundFailed report) report.classification lb es₂ := by
  subst hes
  obtain ⟨hd, below, k, h₁, h₂, rfl, rfl, hs₁, ⟨queue, hq, hx, hp⟩, hl⟩ :=
    hs.at_action (isOwn_runRound round)
  obtain ⟨la, lb, rfl, hj⟩ := judged_of_report hp
  exact ⟨lb, _, la, rfl, hj⟩

/-- What an entry of the account stands for. -/
inductive Entry.Origin (E : Environment σ) (s : Settings) (task : Task) : Entry σ → Prop where
  | began {x : Worker} {t : Instant} : Origin E s task (.began x [⟨.now, t⟩])
  | did {hd : Head} {a : Action} {queue : List Action} {ev : Event} {k : Course} {h h' : σ}
      {l : List Exchange} (ha : a.IsOwn)
      (hp : Trail E (perform s task (runFor s task hd.generations) hd.worker hd.started a
        { hd.course with queue }) h l (.ok (ev, k)) h') :
      Origin E s task (.did hd.worker hd.course.state a ev l)
  | rejoined {x : Worker} {st : State} {id : WorkerId} {ev : Event} :
      Origin E s task (.did x st (.runHelper id) ev [])
  | ended {x : Worker} {k : Course} {o : Outcome} {h h' : σ} {l : List Exchange}
      (hp : Trail E (finish s x k) h l (.ok o) h') : Origin E s task (.ended x o h l)

theorem Standing.origin (hs : Standing E s task w H stack es h) :
    ∀ entry ∈ es, entry.Origin E s task := by
  induction hs with
  | start _ => exact List.forall_mem_singleton.2 .began
  | @step hd below es h h' a queue ev k l hs hq hx hp ih =>
    have hown := ((hs.agrees hd (List.mem_cons_self ..)).due_of_queue hq hx).2
    exact List.forall_mem_append.2 ⟨ih, List.forall_mem_singleton.2 (.did hown hp)⟩
  | helper _ _ _ _ ih => exact List.forall_mem_append.2 ⟨ih, List.forall_mem_singleton.2 .began⟩
  | back _ _ _ hp ih =>
    exact List.forall_mem_append.2
      ⟨ih, List.forall_mem_cons.2 ⟨.ended hp, List.forall_mem_singleton.2 .rejoined⟩⟩
  | finished _ _ hp ih =>
    exact List.forall_mem_append.2 ⟨ih, List.forall_mem_singleton.2 (.ended hp)⟩

/-- Only rounds have attempts. -/
theorem Standing.attempt_entry (hs : Standing E s task w H stack es h) {entry : Entry σ}
    (hentry : entry ∈ es) {q : Exchange} (hq : q ∈ entry.exchanges)
    (hattempt : q.isAttempt = true) :
    ∃ x st round ev l, entry = .did x st (.runRound round) ev l := by
  cases hs.origin entry hentry with
  | began =>
    obtain rfl := List.mem_singleton.1 hq
    cases hattempt
  | @did hd a queue ev k h h' l ha hp =>
    cases a with
    | runRound round => exact ⟨_, _, _, _, _, rfl⟩
    | _ =>
      have hnone := List.countP_eq_zero.1 (Nat.le_zero.1 (perform_attempts ha hp)) q hq
      exact absurd hattempt hnone
  | rejoined => cases hq
  | ended hp =>
    have hrecord : q.call.OfRecord := hp.asks (asks_finish s _ _) q hq
    rw [hrecord.only.isAttempt (by decide)] at hattempt
    cases hattempt

/-- The entry that has an exchange of the account. -/
theorem exists_entry {q : Exchange} {l₁ l₂ : List Exchange} (hes : calls es = l₁ ++ q :: l₂) :
    ∃ es₁ entry es₂ la lb, es = es₁ ++ entry :: es₂ ∧ entry.exchanges = la ++ q :: lb ∧
      l₁ = calls es₁ ++ la ∧ l₂ = lb ++ calls es₂ := by
  induction es generalizing l₁ with
  | nil => simp at hes
  | cons entry es ih =>
    obtain ⟨lb, hentry, rfl⟩ | ⟨l₃, rfl, hrest⟩ := append_eq_append_cons hes
    · exact ⟨[], entry, es, l₁, lb, rfl, hentry, rfl, rfl⟩
    · obtain ⟨es₁, entry', es₂, la, lb, rfl, hentry, rfl, rfl⟩ := ih hrest
      exact ⟨entry :: es₁, entry', es₂, la, lb, rfl, hentry, by simp, rfl⟩

theorem Standing.judged_of_attempt {t : Trial} {d : Dependency} {e : CallError}
    {l₁ l₂ : List Exchange} (hs : Standing E s task w H stack es h)
    (hes : calls es = l₁ ++ ⟨.attempt d t.bound, t.outcome⟩ :: l₂) (ht : t.result = .error e)
    (hrests : (Policy.ofSettings s.retry).Rests (Failure.classify e)) :
    ∃ x round ev lb es₁ es₂, JudgedAt s es es₁ x round ev (Failure.classify e) lb es₂ ∧
      x.dependency = d ∧ ∃ l, (∀ q ∈ l, q.call.Quiet d) ∧ l₂ = l ++ (lb ++ calls es₂) := by
  obtain ⟨es₁, entry, es₂, l₃, lb, rfl, hentry, rfl, rfl⟩ := exists_entry hes
  have hq : ⟨.attempt d t.bound, t.outcome⟩ ∈ entry.exchanges := by simp [hentry]
  obtain ⟨x, st, round, ev, l, rfl⟩ :=
    hs.attempt_entry (List.mem_append_right _ (List.mem_cons_self ..)) hq rfl
  obtain rfl : l = _ := hentry
  obtain ⟨hd, below, k, h₁, h₂, rfl, rfl, hs₁, ⟨queue, hq, hx, hp⟩, hl⟩ :=
    hs.at_action (isOwn_runRound round)
  have hround : Trail E
      (runRound s hd.worker hd.started round { hd.course with queue }) h₁ _ _ h₂ := hp
  obtain ⟨hquiet, hjudged⟩ := judged_of_result ht hrests hround
  obtain ⟨l₄, l₅, rfl, hj⟩ := hjudged _ rfl
  have hdep : hd.worker.dependency = d := dependency_of_attempt t hround (by simp)
  refine ⟨hd.worker, round, ev, l₅, es₁, es₂, ⟨hd.course.state, _, ?_, hj⟩, hdep, l₄, ?_, ?_⟩
  · simp
  · exact fun q hq => hdep ▸ hquiet q (List.mem_append_left _ hq)
  · rw [List.append_assoc]

section Stuck

variable {hd : Head} {below : List Head} {why : Halt}

/-- A run that halts with an attempt behind it does so in the midst of a round. -/
theorem Stuck.in_round (hs : Standing E s task w H (hd :: below) es h)
    (hstuck : Stuck E s task hd h l why h') {q : Exchange} (hq : q ∈ l)
    (hattempt : q.isAttempt = true) : ∃ round, hd.course.Due (.runRound round) ∧
      Trail E (runRound s hd.worker hd.started round { hd.course with queue := [] }) h l
        (.error why) h' := by
  cases hstuck with
  | steps _ => cases hq
  | generations _ _ => cases hq
  | @action a queue _ _ _ hqueue hx hp =>
    obtain ⟨hdue, hown⟩ := (hs.agrees hd (List.mem_cons_self ..)).due_of_queue hqueue hx
    obtain rfl : queue = [] := by
      rw [hdue.1] at hqueue
      exact (List.cons.inj hqueue).2.symm
    cases a with
    | runRound round => exact ⟨round, hdue, hp⟩
    | _ =>
      have hnone := List.countP_eq_zero.1 (Nat.le_zero.1 (perform_attempts hown hp)) q hq
      exact absurd hattempt hnone

theorem Stuck.quiet {t : Trial} {d : Dependency} {e : CallError} {l₁ l₂ : List Exchange}
    (hs : Standing E s task w H (hd :: below) es h)
    (hstuck : Stuck E s task hd h (l₁ ++ ⟨.attempt d t.bound, t.outcome⟩ :: l₂) why h')
    (ht : t.result = .error e) (hrests : (Policy.ofSettings s.retry).Rests (Failure.classify e)) :
    ∀ q ∈ l₂, q.call.Quiet d := by
  obtain ⟨round, _, hround⟩ :=
    Stuck.in_round hs hstuck (q := ⟨.attempt d t.bound, t.outcome⟩) (by simp) rfl
  have hdep : hd.worker.dependency = d := dependency_of_attempt t hround (by simp)
  exact hdep ▸ (judged_of_result ht hrests hround).1

/-- A round with such a judgement comes to its end. -/
theorem Stuck.not_rests (hs : Standing E s task w H (hd :: below) es h)
    (hstuck : Stuck E s task hd h (la ++ lb) why h') (hdue : hd.course.Due (.runRound round))
    (hj : Judged s hd.worker la c) : ¬(Policy.ofSettings s.retry).Rests c := by
  intro hrests
  have hp := hstuck.of_due hs hdue (isOwn_runRound round)
  obtain ⟨_, _, hok, _⟩ := hj.ends hrests hp
  cases hok

end Stuck
end Standing
end Task
end WorkerGuard
