import WorkerGuard.Proofs.Program.Schedule
import WorkerGuard.Proofs.Simulation.Alone
import WorkerGuard.Proofs.Task.Judged
import WorkerGuard.Proofs.Task.Yields

/-!
# WorkerGuard.Proofs.Task.LeftOut

A failure of a kind that the settings leave out of those that are tried again.

Such a failure is not tried again in its round. What comes after the round is decided without a look
at what is left out: upon a failure of a kind that can be tried again at all, another round may
follow, or a helper.

* `CallsAgain es stack`: by the entries `es` the dependency is called, or is about to be called.
* `Resumes limits x report es`: the worker `x` goes on after the failed round.
* `Leads.resumes`: there is no other way to another call.
* `left_out_resumes`: all that may follow upon a failure of such a kind.
-/

namespace WorkerGuard.Task

open Breaker Failure Program Retry Simulation

variable {σ : Type} {E : Environment σ} {s : Settings} {task : Task} {w x : Worker} {H h h' : σ}
variable {limits : Limits} {report : Report} {hd : Head} {stack below : List Head}
variable {es : List (Entry σ)}

def CallsAgain (es : List (Entry σ)) (stack : List Head) : Prop :=
  (∃ q ∈ calls es, q.isAttempt = true) ∨
    ∃ hd ∈ stack.head?, ∃ round, hd.course.Due (.runRound round)

inductive Resumes (limits : Limits) (x : Worker) (report : Report) : List (Entry σ) → Prop where
  /-- There is a round left, and it comes next. -/
  | round {kind : RetryableKind} {es : List (Entry σ)}
      (hkind : report.classification.kind = kind.toKind) (hclosed : report.breaker = .closed)
      (hround : report.round < limits.localRounds)
      (hnext : ∀ entry ∈ es.head?, ∃ e l, entry = .did x (.retryingLocal (report.round + 1))
        (.runRound (report.round + 1)) e l) : Resumes limits x report es
  /-- There is no round left, but time for a helper, and it is granted. -/
  | helper {kind : RetryableKind} {id : WorkerId} {l : List Exchange} {es : List (Entry σ)}
      (hkind : report.classification.kind = kind.toKind) (hclosed : report.breaker = .closed)
      (hround : limits.localRounds ≤ report.round) (htime : limits.spawnAfter ≤ report.elapsed) :
      Resumes limits x report
        (.did x .awaitingSpawn (.requestSpawn kind) (.spawnGranted id) l :: es)

theorem CallsAgain.tail {st : State} {a : Action} {e : Event} {l : List Exchange}
    (hl : ∀ q ∈ l, ¬q.isAttempt = true) (h : CallsAgain (.did x st a e l :: es) stack) :
    CallsAgain es stack := by
  obtain ⟨q, hq, hattempt⟩ | hdue := h
  · obtain hq | hq := List.mem_append.1 hq
    · exact absurd hattempt (hl q hq)
    · exact .inl ⟨q, hq, hattempt⟩
  · exact .inr hdue

/-- A helper is granted, or the worker gives up. -/
theorem ActionStep.of_requestSpawn {c c' : Course} {kind : RetryableKind} {e : Event}
    (h : ActionStep limits c (.requestSpawn kind) e c') :
    (∃ x : Worker, e = .spawnGranted x.id) ∨ ∃ reason, c'.Due (.writeDegrade reason) := by
  cases h with
  | granted => exact .inl ⟨_, rfl⟩
  | refused => exact .inr ⟨_, rfl, rfl⟩

theorem Leads.not_callsAgain (hc : ∀ hd' ∈ hd :: below, Agrees hd'.course) (hy : hd.Yields)
    (hl : Leads E s task (hd :: below) h es stack h') : ¬CallsAgain es stack := by
  obtain ⟨hcalls, _, hyields⟩ := hl.yields hc (by simpa using hy)
  rintro (⟨q, hq, hattempt⟩ | ⟨hd', hhead, round, hdue⟩)
  · rw [(hcalls q hq).only.isAttempt (by decide)] at hattempt
    cases hattempt
  · exact (hyields hd' hhead).not_due hdue

theorem Leads.resumes (hc : ∀ hd' ∈ below, Agrees hd'.course)
    (hdue : hd.course.Due (.runRound report.round))
    (hl : Leads E s task (hd.failed s report :: below) h es stack h')
    (hagain : CallsAgain es stack) : Resumes (.ofSettings s.policy) hd.worker report es := by
  have hagrees : ∀ hd' ∈ hd.failed s report :: below, Agrees hd'.course :=
    List.forall_mem_cons.2 ⟨hd.agrees_failed hdue, hc⟩
  have hcourse := hd.course_failed (s := s) hdue
  unfold afterFailure at hcourse
  split at hcourse
  · rename_i hdecide
    obtain ⟨⟨kind, hkind⟩, hclosed, hround⟩ := decide_eq_retryLocal hdecide
    refine .round hkind hclosed hround fun entry hentry => ?_
    have hnext : (hd.failed s report).course.Due (.runRound (report.round + 1)) := by
      rw [hcourse]
      exact ⟨rfl, rfl⟩
    obtain ⟨rfl, _⟩ | ⟨e, c, l, h₁, es₁, _, rfl, _⟩ := hl.of_due hnext (isOwn_runRound _)
    · cases hentry
    · cases hentry
      rw [hcourse]
      exact ⟨e, l, rfl⟩
  · rename_i kind hdecide
    obtain ⟨_, hkind, hclosed, hround, htime⟩ := decide_eq_spawnHelper hdecide
    have hnext : (hd.failed s report).course.Due (.requestSpawn kind) := by
      rw [hcourse]
      exact ⟨rfl, trivial⟩
    obtain ⟨rfl, rfl⟩ | ⟨e, c, l, h₁, es₁, ⟨queue, hq, hx, hp⟩, rfl, hrest⟩ :=
      hl.of_due hnext (fun _ h => nomatch h)
    · obtain ⟨_, hq, _⟩ | ⟨_, hhead, round, hround'⟩ := hagain
      · cases hq
      · cases hhead
        cases eq_of_due hnext hround'
    · have hstep := (hd.agrees_failed hdue).step hq hx hp
      have hstate : (hd.failed s report).course.state = .awaitingSpawn := by rw [hcourse]
      obtain ⟨x, rfl⟩ | hgives := hstep.of_requestSpawn
      · rw [hstate]
        exact .helper hkind hclosed hround htime
      · have hown : (Action.requestSpawn kind).IsOwn := fun _ h => nomatch h
        have hnone := List.countP_eq_zero.1 (Nat.le_zero.1 (perform_attempts hown hp))
        refine absurd (hagain.tail hnone) (hrest.not_callsAgain ?_ (.inl hgives))
        exact List.forall_mem_cons.2 ⟨hstep.agrees, hc⟩
  · rename_i reason hdecide
    refine absurd hagain (hl.not_callsAgain hagrees (.inl ⟨reason, ?_⟩))
    rw [hcourse]
    exact ⟨rfl, rfl⟩
  · exact absurd hagain (hl.not_callsAgain hagrees (.inr (by rw [hcourse])))

section Account

variable {es₁ es₂ : List (Entry σ)} {round : UInt32} {ev : Event} {lb l₁ l₂ : List Exchange}
variable {c : Classification}

theorem Standing.resumes (hs : Standing E s task w H stack es h)
    (hj : JudgedAt s es es₁ x round ev c lb es₂)
    (hleft : (Policy.ofSettings s.retry).retries c.kind = false) :
    (∀ q ∈ lb, q.call.Quiet x.dependency) ∧ ∃ report, ev = .roundFailed report ∧
      report.classification = c ∧ report.round = round ∧
      (CallsAgain es₂ stack → Resumes (.ofSettings s.policy) x report es₂) := by
  obtain ⟨hquiet, report, hd, below, h₁, h₂, rfl, rfl, rfl, rfl, hs₁, hdue, hl⟩ :=
    hs.judged hj (Policy.rests_of_retries hleft)
  have hbelow := (List.forall_mem_cons.1 hs₁.agrees).2
  exact ⟨hquiet, report, rfl, rfl, rfl, fun hagain => hl.resumes hbelow hdue hagain⟩

/-- From an attempt that failed so to the next call, whichever it is. -/
theorem Standing.resumes_of_attempt {t : Trial} {d : Dependency} {e : CallError}
    (hs : Standing E s task w H stack es h)
    (hes : calls es = l₁ ++ ⟨.attempt d t.bound, t.outcome⟩ :: l₂) (ht : t.result = .error e)
    (hleft : (Policy.ofSettings s.retry).retries (classify e).kind = false)
    (hagain : (∃ q ∈ l₂, q.isAttempt = true) ∨
      ∃ hd ∈ stack.head?, ∃ round, hd.course.Due (.runRound round)) :
    ∃ x report lb es₁ es₂ l,
      JudgedAt s es es₁ x report.round (.roundFailed report) (classify e) lb es₂ ∧
      x.dependency = d ∧ l₂ = l ++ calls es₂ ∧ (∀ q ∈ l, q.call.Quiet d) ∧
      Resumes (.ofSettings s.policy) x report es₂ := by
  obtain ⟨x, round, ev, lb, es₁, es₂, hj, rfl, l, hquiet, rfl⟩ :=
    hs.judged_of_attempt hes ht (Policy.rests_of_retries hleft)
  obtain ⟨hquiet', report, rfl, _, rfl, hresumes⟩ := hs.resumes hj hleft
  have hall : ∀ q ∈ l ++ lb, q.call.Quiet x.dependency :=
    List.forall_mem_append.2 ⟨hquiet, hquiet'⟩
  rw [← List.append_assoc] at hagain ⊢
  refine ⟨x, report, lb, es₁, es₂, l ++ lb, hj, rfl, rfl, hall, hresumes ?_⟩
  obtain ⟨q, hq, hattempt⟩ | hdue := hagain
  · obtain hq | hq := List.mem_append.1 hq
    · rw [(hall q hq).only.isAttempt (by decide)] at hattempt
      cases hattempt
    · exact .inl ⟨q, hq, hattempt⟩
  · exact .inr hdue

end Account

/-- Whatever the surroundings answer: a failure of a kind that the settings leave out ends its round
without another call. If the run calls a dependency after that at all, then the kind is one of those
that can be tried again, the breaker is closed after the round, and the next thing that the worker
does is another round, while there are rounds left, or else to get a helper. -/
theorem left_out_resumes (E : Environment σ) (s : Settings) (task : Task) (w : Worker) (H : σ) :
    (∀ stack es h, Standing E s task w H stack es h → ∀ es₁ x round ev c lb es₂,
      JudgedAt s es es₁ x round ev c lb es₂ → (Policy.ofSettings s.retry).retries c.kind = false →
        (∀ q ∈ lb, q.call.Quiet x.dependency) ∧ ∃ report, ev = .roundFailed report ∧
          report.classification = c ∧ report.round = round ∧
          (CallsAgain es₂ stack → Resumes (.ofSettings s.policy) x report es₂)) ∧
    ∀ l r h', Trail E (run s task w) H l r h' → ∀ l₁ d (t : Trial) e l₂,
      l = l₁ ++ ⟨.attempt d t.bound, t.outcome⟩ :: l₂ → t.result = .error e →
      (Policy.ofSettings s.retry).retries (classify e).kind = false →
      (∃ q ∈ l₂, q.isAttempt = true) →
        ∃ stack es h x report lb es₁ es₂ l₃ l₄, Standing E s task w H stack es h ∧
          JudgedAt s es es₁ x report.round (.roundFailed report) (classify e) lb es₂ ∧
          x.dependency = d ∧ l₂ = l₃ ++ (calls es₂ ++ l₄) ∧ (∀ q ∈ l₃, q.call.Quiet d) ∧
          Resumes (.ofSettings s.policy) x report es₂ := by
  refine ⟨fun stack es h hs es₁ x round ev c lb es₂ hj hleft => hs.resumes hj hleft, ?_⟩
  rintro l r h' hr l₁ d t e l₂ hl ht hleft hagain
  obtain ⟨o, es, before, l', rfl, hs, rfl⟩ | ⟨why, hd, below, es, l', h₁, rfl, hs, rfl, hstuck⟩ :=
    run_stands hr
  · have hcalls : calls (es ++ [.ended w o before l']) = calls es ++ l' := by
      simp [Entry.exchanges]
    obtain ⟨x, report, lb, es₁, es₂, l₃, hj, hd, rfl, hquiet, hresumes⟩ :=
      hs.resumes_of_attempt (hcalls.trans hl) ht hleft (.inl hagain)
    exact ⟨_, _, _, x, report, lb, es₁, es₂, l₃, [], hs, hj, hd, by simp, hquiet, hresumes⟩
  · obtain ⟨l₃, hes, rfl⟩ | ⟨l₃, rfl, rfl⟩ := append_eq_append_cons hl
    · have hnext : (∃ q ∈ l₃, q.isAttempt = true) ∨
          ∃ hd' ∈ (hd :: below).head?, ∃ round, hd'.course.Due (.runRound round) := by
        obtain ⟨q, hq, hattempt⟩ := hagain
        obtain hq | hq := List.mem_append.1 hq
        · exact .inl ⟨q, hq, hattempt⟩
        · obtain ⟨round, hdue, _⟩ := Stuck.in_round hs hstuck hq hattempt
          exact .inr ⟨hd, rfl, round, hdue⟩
      obtain ⟨x, report, lb, es₁, es₂, l₄, hj, hdep, rfl, hquiet, hresumes⟩ :=
        hs.resumes_of_attempt hes ht hleft hnext
      exact ⟨_, _, _, x, report, lb, es₁, es₂, l₄, l', hs, hj, hdep, by simp, hquiet, hresumes⟩
    · obtain ⟨q, hq, hattempt⟩ := hagain
      have hquiet := Stuck.quiet hs hstuck ht (Policy.rests_of_retries hleft) q hq
      rw [hquiet.only.isAttempt (by decide)] at hattempt
      cases hattempt

/-- Nothing but an attempt that overruns is tried again. -/
def choosy : Settings :=
  { retry := { retryableKinds := [.timeout] }, policy := { localRounds := 2, spawnAfterSecs := 0 } }

theorem check_choosy : choosy.check = .ok () := by
  have hfaults : choosy.faults = [] := by decide +kernel
  rw [Settings.check, hfaults]

/-- One worker, and a breaker without failures; the connection breaks down twice. -/
def resetting : World × List Attempt :=
  (⟨lonely.store, encode .fresh, 0⟩, [.returned (.error (.connection "reset")),
    .returned (.error (.connection "reset")), .returned (.ok .null)])

/-- Two calls follow upon the first that is judged so. -/
def calledTwiceAfter (c : Classification) (l : List Exchange) : Bool :=
  match l.dropWhile fun q => failed? q != some c with
  | [] => false
  | q :: l₂ => failed? q == some c && l₂.countP Exchange.isAttempt == 2

theorem exists_of_calledTwiceAfter {c : Classification} {l : List Exchange}
    (h : calledTwiceAfter c l = true) : ∃ l₁ d, ∃ t : Trial, ∃ e l₂,
      l = l₁ ++ ⟨.attempt d t.bound, t.outcome⟩ :: l₂ ∧ t.result = .error e ∧ classify e = c ∧
        l₂.countP Exchange.isAttempt = 2 := by
  have hl := List.takeWhile_append_dropWhile (p := fun q => failed? q != some c) (l := l)
  unfold calledTwiceAfter at h
  generalize l.dropWhile (fun q => failed? q != some c) = rest at hl h
  cases rest with
  | nil => cases h
  | cons q l₂ =>
    obtain ⟨hfailed, hcount⟩ := Bool.and_eq_true_iff.1 h
    obtain ⟨d, t, e, rfl, ht, hc⟩ := exists_trial (beq_iff_eq.1 hfailed)
    exact ⟨_, d, t, e, l₂, hl.symm, ht, hc, beq_iff_eq.1 hcount⟩

theorem exists_reset : ∃ l₁ d, ∃ t : Trial, ∃ e l₂ r h',
    Trail (Scripted (Call.calm .epoch ⟨"w-2"⟩) ⟨"api"⟩) (run choosy ⟨"job", none⟩ lone) resetting
      (l₁ ++ ⟨.attempt d t.bound, t.outcome⟩ :: l₂) r h' ∧ t.result = .error e ∧
    classify e = .ofKind .transient ∧ l₂.countP Exchange.isAttempt = 2 := by
  obtain ⟨l, r, h', hrun, hseen⟩ := exists_trail_scripted (run choosy ⟨"job", none⟩ lone)
    (Call.calm .epoch ⟨"w-2"⟩) ⟨"api"⟩ resetting
    (p := fun seen => calledTwiceAfter (.ofKind .transient) seen.1) (by decide +kernel)
  obtain ⟨l₁, d, t, e, l₂, rfl, ht, hc, hcount⟩ := exists_of_calledTwiceAfter hseen
  exact ⟨l₁, d, t, e, l₂, r, h', hrun, ht, hc, hcount⟩

/-- The run calls the dependency once more in its next round, and then once by a helper. -/
theorem choosy_calls_again : choosy.check = .ok () ∧ ∃ l₁ d, ∃ t : Trial, ∃ e l₂ r h',
    Trail (Scripted (Call.calm .epoch ⟨"w-2"⟩) ⟨"api"⟩) (run choosy ⟨"job", none⟩ lone) resetting
      (l₁ ++ ⟨.attempt d t.bound, t.outcome⟩ :: l₂) r h' ∧ t.result = .error e ∧
    (Policy.ofSettings choosy.retry).retries (classify e).kind = false ∧
    l₂.countP Exchange.isAttempt = 2 := by
  obtain ⟨l₁, d, t, e, l₂, r, h', hrun, ht, hc, hcount⟩ := exists_reset
  exact ⟨check_choosy, l₁, d, t, e, l₂, r, h', hrun, ht, by rw [hc]; rfl, hcount⟩

theorem choosy_resumes : ∃ stack es h x report lb es₁ es₂,
    Standing (Scripted (Call.calm .epoch ⟨"w-2"⟩) ⟨"api"⟩) choosy ⟨"job", none⟩ lone resetting stack
      es h ∧
    JudgedAt choosy es es₁ x report.round (.roundFailed report) (.ofKind .transient) lb es₂ ∧
    Resumes (.ofSettings choosy.policy) x report es₂ := by
  obtain ⟨l₁, d, t, e, l₂, r, h', hrun, ht, hc, hcount⟩ := exists_reset
  have hagain : ∃ q ∈ l₂, q.isAttempt = true := List.countP_pos_iff.1 (by omega)
  obtain ⟨_, hruns⟩ := left_out_resumes (Scripted (Call.calm .epoch ⟨"w-2"⟩) ⟨"api"⟩) choosy
    ⟨"job", none⟩ lone resetting
  obtain ⟨stack, es, h, x, report, lb, es₁, es₂, _, _, hs, hj, _, _, _, hresumes⟩ :=
    hruns _ _ _ hrun l₁ d t e l₂ rfl ht (by rw [hc]; rfl) hagain
  rw [hc] at hj
  exact ⟨stack, es, h, x, report, lb, es₁, es₂, hs, hj, hresumes⟩

end WorkerGuard.Task
