import WorkerGuard.Proofs.Failure.Pattern
import WorkerGuard.Proofs.Task.Judged
import WorkerGuard.Proofs.Task.Yields

/-!
# WorkerGuard.Proofs.Task.Outage

A failure that no second try can mend ends the run, however deep the helper is that meets with it.

* `GivesUp x reason above es left`: by the entries `es`, the worker `x` gives the task up, and those
  whose helper it is do so after it, the nearest first; the loops of `left` are still there.
* `Leads.gives_up`: where a worker is about to give up, this is how a run goes on that can write it
  down, by induction on the loops that wait.
* `Standing.final`: so it does after a round with such a failure.
* `final_failure_ends`: no call to a dependency and no request for a worker follows upon the attempt
  that failed.
-/

namespace WorkerGuard.Task

open Breaker Failure Program Retry Simulation

variable {σ : Type} {E : Environment σ} {s : Settings} {task : Task} {w : Worker} {H h h' : σ}
variable {x : Worker} {hd : Head} {stack below : List Head} {es : List (Entry σ)} {reason : Reason}
variable {c : Course} {l : List Exchange}

inductive GivesUp : Worker → Reason → List Worker → List (Entry σ) → List Worker → Prop where
  | due {x : Worker} {reason : Reason} {above : List Worker} :
      GivesUp x reason above [] (x :: above)
  | recorded {x : Worker} {reason : Reason} {above : List Worker} {l : List Exchange} :
      GivesUp x reason above
        [.did x (.degrading reason) (.writeDegrade reason) .degradeRecorded l] (x :: above)
  | last {x : Worker} {reason : Reason} {alert : Option Alert} {before : σ}
      {l l' : List Exchange} : GivesUp x reason []
        [.did x (.degrading reason) (.writeDegrade reason) .degradeRecorded l,
          .ended x (.degraded reason alert) before l'] []
  /-- All that a parent learns is that its helper failed. -/
  | passes {x y : Worker} {reason : Reason} {alert : Option Alert} {before : σ}
      {l l' : List Exchange} {above left : List Worker} {es : List (Entry σ)}
      (hnext : GivesUp y (.helperFailed (Outcome.degraded reason alert).describe) above es left) :
      GivesUp x reason (y :: above)
        (.did x (.degrading reason) (.writeDegrade reason) .degradeRecorded l ::
          .ended x (.degraded reason alert) before l' ::
          .did y (.helperRunning x.id) (.runHelper x.id) (Outcome.degraded reason alert).event [] ::
          es) left

/-- When nobody is left, the last one has given up. -/
theorem GivesUp.ended {above : List Worker} (hg : GivesUp x reason above es []) :
    ∃ es' y reason' alert before l, es = es' ++ [.ended y (.degraded reason' alert) before l] := by
  generalize hleft : ([] : List Worker) = left at hg
  induction hg with
  | due => cases hleft
  | recorded => cases hleft
  | last => exact ⟨[_], _, _, _, _, _, rfl⟩
  | passes _ ih =>
    obtain ⟨es', y, reason', alert, before, l, rfl⟩ := ih hleft
    exact ⟨_ :: _ :: _ :: es', y, reason', alert, before, l, rfl⟩

/-- What is given up can be written down. -/
def Records (E : Environment σ) : Prop := ∀ h a r h', E h (.appendLog a) r h' → r = .ok ()

section Steps

theorem Acts.recorded {e : Event} (hsink : Records E) (hc : Agrees hd.course)
    (ha : Acts E s task hd h (.writeDegrade reason) e c l h') :
    e = .degradeRecorded ∧ (hd.stepped s (.writeDegrade reason) e c).course =
      ⟨.degradedComplete reason, [], hd.course.value, hd.course.helper⟩ := by
  obtain ⟨queue, hq, hx, hp⟩ := ha
  have hevent : e = .degradeRecorded := by
    obtain ⟨e', h₁, l₁, l₂, rfl, hwrite, hr⟩ := trail_bind_ok hp
    obtain ⟨_, hok, _⟩ := trail_pure hr
    cases hok
    obtain ⟨now, h₂, l₃, rfl, _, hwrite⟩ := trail_call_bind hwrite
    obtain ⟨written, h₃, l₄, rfl, hlog, hwrite⟩ := trail_call_bind hwrite
    obtain rfl := hsink _ _ _ _ hlog
    exact Except.ok.inj (trail_pure hwrite).2.1
  have hstep := hc.step hq hx hp
  subst hevent
  refine ⟨rfl, ?_⟩
  generalize (hd.stepped s (.writeDegrade reason) .degradeRecorded c).course = c' at hstep
  cases hstep with
  | recorded _ => rfl

theorem finish_degraded {o : Outcome} (hstate : c.state = .degradedComplete reason)
    (hr : Trail E (finish s x c) h l (.ok o) h') : ∃ alert, o = .degraded reason alert := by
  simp only [finish, hstate] at hr
  obtain ⟨_, _, _, _, _, _, hr⟩ := trail_bind_ok hr
  obtain ⟨alert, _, _, _, _, _, hr⟩ := trail_bind_ok hr
  exact ⟨alert, Except.ok.inj (trail_pure hr).2.1⟩

/-- A parent has no use for a helper that gave up. -/
theorem Agrees.rejoin_degraded {queue : List Action} {alert : Option Alert}
    (hc : Agrees hd.course) (hx : hd.Calls x queue) : hd.course.state = .helperRunning x.id ∧
      (hd.rejoined s x (.degraded reason alert) queue).course.Due
        (.writeDegrade (.helperFailed (Outcome.degraded reason alert).describe)) := by
  have hdue := hc.due_of_calls hx
  have hs := Course.state_of_due_runHelper hdue
  obtain rfl : queue = [] := by
    have hq := hx.1
    rw [hdue.1] at hq
    exact (List.cons.inj hq).2.symm
  refine ⟨hs, ?_⟩
  simp only [Head.rejoined, Head.stepped, Course.after, hs, Outcome.event, transition, giveUp,
    List.nil_append]
  exact ⟨rfl, rfl⟩

/-- First of all the worker writes down that it gives up. -/
theorem Leads.recorded (hsink : Records E) (hc : Agrees hd.course)
    (hdue : hd.course.Due (.writeDegrade reason))
    (hl : Leads E s task (hd :: below) h es stack h') : (es = [] ∧ stack = hd :: below) ∨
      ∃ l hd₁ h₁ es₁, hd₁.worker = hd.worker ∧ hd₁.course.state = .degradedComplete reason ∧
        hd₁.course.queue = [] ∧
        es = .did hd.worker (.degrading reason) (.writeDegrade reason) .degradeRecorded l :: es₁ ∧
        Leads E s task (hd₁ :: below) h₁ es₁ stack h' := by
  obtain hdone | ⟨e, c, l, h₁, es₁, hacts, rfl, hrest⟩ := hl.of_due hdue (fun _ h => nomatch h)
  · exact .inl hdone
  · obtain ⟨rfl, hcourse⟩ := hacts.recorded hsink hc
    rw [Course.state_of_due_writeDegrade hdue]
    exact .inr ⟨l, hd.stepped s (.writeDegrade reason) .degradeRecorded c, _, _, rfl,
      by rw [hcourse], by rw [hcourse], rfl, hrest⟩

/-- Then its run ends, and its parent takes note of it. -/
theorem Leads.ended (hstate : hd.course.state = .degradedComplete reason)
    (hnil : hd.course.queue = []) (hl : Leads E s task (hd :: below) h es stack h') :
    (es = [] ∧ stack = hd :: below) ∨
      (∃ alert l, below = [] ∧ stack = [] ∧ es = [.ended hd.worker (.degraded reason alert) h l]) ∨
      ∃ alert l parent below₁ queue h₁ es₁, below = parent :: below₁ ∧
        parent.Calls hd.worker queue ∧
        es = .ended hd.worker (.degraded reason alert) h l ::
          .did parent.worker parent.course.state (.runHelper hd.worker.id)
            (Outcome.degraded reason alert).event [] :: es₁ ∧
        Leads E s task (parent.rejoined s hd.worker (.degraded reason alert) queue :: below₁) h₁
          es₁ stack h' := by
  cases hl with
  | refl => exact .inl ⟨rfl, rfl⟩
  | step hadv hl =>
    have hy : hd.Yields := .inr hnil
    cases hadv with
    | step ha =>
      obtain ⟨_, hq, _⟩ := ha
      rw [hnil] at hq
      cases hq
    | helper hx hn ht => exact absurd hx hy.not_calls
    | back hq hx hp =>
      obtain ⟨alert, rfl⟩ := finish_degraded hstate hp
      exact .inr (.inr ⟨alert, _, _, _, _, _, _, rfl, hx, rfl, hl⟩)
    | finished hq hp =>
      obtain ⟨alert, rfl⟩ := finish_degraded hstate hp
      obtain ⟨rfl, rfl⟩ := hl.of_nil
      exact .inr (.inl ⟨alert, _, rfl, rfl, rfl⟩)

/-- The loop of the worker alone, or up to where its parent is about to give up. -/
theorem Leads.falls_back (hsink : Records E) (hc : Agrees hd.course)
    (hdue : hd.course.Due (.writeDegrade reason))
    (hl : Leads E s task (hd :: below) h es stack h') :
    GivesUp hd.worker reason (below.map Head.worker) es (stack.map Head.worker) ∨
    ∃ parent below₁ queue alert before l l' h₁ es₁, below = parent :: below₁ ∧
      parent.Calls hd.worker queue ∧
      es = .did hd.worker (.degrading reason) (.writeDegrade reason) .degradeRecorded l ::
        .ended hd.worker (.degraded reason alert) before l' ::
        .did parent.worker parent.course.state (.runHelper hd.worker.id)
          (Outcome.degraded reason alert).event [] :: es₁ ∧
      Leads E s task (parent.rejoined s hd.worker (.degraded reason alert) queue :: below₁) h₁ es₁
        stack h' := by
  obtain ⟨rfl, rfl⟩ | ⟨l, hd₁, h₁, es₁, hx, hstate, hnil, rfl, hends⟩ := hl.recorded hsink hc hdue
  · exact .inl .due
  · rw [← hx]
    obtain ⟨rfl, rfl⟩ | ⟨alert, l', rfl, rfl, rfl⟩ |
      ⟨alert, l', parent, below₁, queue, h₂, es₂, rfl, hcalls, rfl, hnext⟩ :=
      hends.ended hstate hnil
    · exact .inl .recorded
    · exact .inl .last
    · exact .inr ⟨parent, below₁, queue, alert, h₁, l, l', h₂, es₂, rfl, hcalls, rfl, hnext⟩

theorem Leads.gives_up (hsink : Records E) (hc : ∀ hd' ∈ hd :: below, Agrees hd'.course)
    (hdue : hd.course.Due (.writeDegrade reason))
    (hl : Leads E s task (hd :: below) h es stack h') :
    GivesUp hd.worker reason (below.map Head.worker) es (stack.map Head.worker) := by
  induction below generalizing hd reason h es with
  | nil =>
    obtain hdone | ⟨_, _, _, _, _, _, _, _, _, hnil, _⟩ :=
      hl.falls_back hsink (hc hd (List.mem_cons_self ..)) hdue
    · exact hdone
    · cases hnil
  | cons parent below ih =>
    obtain hdone | ⟨_, _, queue, alert, before, l, l', h₁, es₁, hbelow, hcalls, rfl, hrest⟩ :=
      hl.falls_back hsink (hc hd (List.mem_cons_self ..)) hdue
    · exact hdone
    · cases hbelow
      obtain ⟨_, hparent, hothers⟩ := (List.forall_mem_cons.1 hc).imp_right List.forall_mem_cons.1
      obtain ⟨hstate, hdue'⟩ := hparent.rejoin_degraded (s := s) hcalls
      have hagrees : ∀ hd' ∈ parent.rejoined s hd.worker (.degraded reason alert) queue :: below,
          Agrees hd'.course :=
        List.forall_mem_cons.2 ⟨(hparent.rejoin hcalls _).agrees, hothers⟩
      have hnext := ih hagrees hdue' hrest
      rw [hstate]
      exact .passes hnext

end Steps

theorem decide_of_final {report : Report} (h : report.classification.kind.Final) (limits : Limits) :
    decide report limits = .degrade (.ofKind report.classification.kind) := by
  have hnone : report.retryable? = none := by
    rw [Report.retryable?, h.retryable?]
    split <;> rfl
  simp only [decide, hnone]

section Account

variable {es₁ es₂ : List (Entry σ)} {round : UInt32} {ev : Event} {lb : List Exchange}
variable {c : Classification}

theorem Standing.final (hsink : Records E) (hs : Standing E s task w H stack es h)
    (hj : JudgedAt s es es₁ x round ev c lb es₂) (hfinal : c.kind.Final) :
    (∀ q ∈ lb, q.call.Quiet x.dependency) ∧
      (∃ report, ev = .roundFailed report ∧ report.classification = c) ∧
      (∃ hd below h₁, Standing E s task w H (hd :: below) es₁ h₁ ∧ hd.worker = x ∧
        GivesUp x (.ofKind c.kind) (below.map Head.worker) es₂ (stack.map Head.worker)) ∧
      (∀ q ∈ calls es₂, q.call.OfRecord) ∧ (∀ entry ∈ es₂, entry.isRequest = false) ∧
      ∀ hd' ∈ stack.head?, hd'.Yields := by
  have hrests := Policy.rests_of_final hfinal (.ofSettings s.retry)
  obtain ⟨hquiet, report, hd, below, h₁, h₂, rfl, rfl, rfl, rfl, hs₁, hdue, hl⟩ :=
    hs.judged hj hrests
  have hagrees := hs₁.agrees
  have hcourse := hd.course_failed (s := s) hdue
  rw [afterFailure, decide_of_final hfinal] at hcourse
  have hwrite : (hd.failed s report).course.Due
      (.writeDegrade (.ofKind report.classification.kind)) := by
    rw [hcourse]
    exact ⟨rfl, rfl⟩
  have hc : ∀ hd' ∈ hd.failed s report :: below, Agrees hd'.course :=
    List.forall_mem_cons.2 ⟨hd.agrees_failed hdue, (List.forall_mem_cons.1 hagrees).2⟩
  have hyields : (hd.failed s report).Yields := .inl ⟨_, hwrite⟩
  have hgives := hl.gives_up hsink hc hwrite
  exact ⟨hquiet, ⟨report, rfl, rfl⟩, ⟨hd, below, h₁, hs₁, rfl, hgives⟩,
    hl.yields hc (by simpa using hyields)⟩

end Account

section Attempt

variable {t : Trial} {d : Dependency} {e : CallError} {l₁ l₂ : List Exchange}

/-- All that follows in the account upon an attempt that failed for good. -/
theorem Standing.after_final (hsink : Records E) (hs : Standing E s task w H stack es h)
    (hes : calls es = l₁ ++ ⟨.attempt d t.bound, t.outcome⟩ :: l₂) (ht : t.result = .error e)
    (hfinal : (classify e).kind.Final) : (∀ q ∈ l₂, q.call.Quiet d) ∧
      (∀ hd ∈ stack.head?, hd.Yields) ∧ (stack = [] → ∃ es' y reason alert before l,
        es = es' ++ [.ended y (.degraded reason alert) before l]) := by
  have hrests := Policy.rests_of_final hfinal (.ofSettings s.retry)
  obtain ⟨x, round, ev, lb, es₁, es₂, hj, rfl, l, hquiet, rfl⟩ := hs.judged_of_attempt hes ht hrests
  obtain ⟨hquiet', _, ⟨hd, below, h₁, _, _, hgives⟩, hrecord, _, hyields⟩ :=
    hs.final hsink hj hfinal
  refine ⟨fun q hq => ?_, hyields, ?_⟩
  · obtain hq | hq := List.mem_append.1 hq
    · exact hquiet q hq
    · obtain hq | hq := List.mem_append.1 hq
      · exact hquiet' q hq
      · exact .inl (hrecord q hq)
  · rintro rfl
    obtain ⟨es', y, reason, alert, before, l, rfl⟩ := hgives.ended
    obtain ⟨st, la, rfl, _⟩ := hj
    exact ⟨es₁ ++ .did x st (.runRound round) ev (la ++ lb) :: es', y, reason, alert, before, l,
      by simp⟩

end Attempt

/-- Whatever the surroundings answer, if only what is given up can be written down: a judgement on
an attempt of some worker that no second try can mend ends its round, and then all that a run does
is that this worker and those whose helper it is give up one after the other. No run halts at that.
After the attempt itself, a run makes no call to a dependency and no request for a worker, and it
ends as given up. Such is the judgement on an attempt that the breaker refuses, on an answer and on
an error of no known sort that have word of an open circuit; and a round that failed has had the
judgement that it reports. -/
theorem final_failure_ends (hsink : Records E) (s : Settings) (task : Task) (w : Worker) (H : σ) :
    (∀ stack es h, Standing E s task w H stack es h → ∀ es₁ x round ev c lb es₂,
      JudgedAt s es es₁ x round ev c lb es₂ → c.kind.Final →
        (∀ q ∈ lb ++ calls es₂, q.call.Quiet x.dependency) ∧
        (∀ entry ∈ es₂, entry.isRequest = false) ∧
        (∃ report, ev = .roundFailed report ∧ report.classification = c) ∧
        ∃ hd below h₁, Standing E s task w H (hd :: below) es₁ h₁ ∧ hd.worker = x ∧
          GivesUp x (.ofKind c.kind) (below.map Head.worker) es₂ (stack.map Head.worker)) ∧
    (∀ stack es h, Standing E s task w H stack es h → ∀ es₁ x st round report l es₂,
      es = es₁ ++ .did x st (.runRound round) (.roundFailed report) l :: es₂ →
        ∃ lb, JudgedAt s es es₁ x round (.roundFailed report) report.classification lb es₂) ∧
    (∀ l r h', Trail E (run s task w) H l r h' →
      (∀ l₁ d (t : Trial) e l₂, l = l₁ ++ ⟨.attempt d t.bound, t.outcome⟩ :: l₂ →
        t.result = .error e → (classify e).kind.Final → (∀ q ∈ l₂, q.call.Quiet d) ∧
          ∀ o, r = .ok o → ∃ reason alert, o = .degraded reason alert) ∧
      ((∃ o es before l', r = .ok o ∧
          Standing E s task w H [] (es ++ [.ended w o before l']) h' ∧
          l = calls (es ++ [.ended w o before l'])) ∨
        ∃ why hd below es l' h₁, r = .error why ∧ Standing E s task w H (hd :: below) es h₁ ∧
          l = calls es ++ l' ∧ Stuck E s task hd h₁ l' why h' ∧
          (∀ es₁ x round ev c lb es₂, JudgedAt s es es₁ x round ev c lb es₂ → ¬c.kind.Final) ∧
          ∀ round la lb c, hd.course.Due (.runRound round) → l' = la ++ lb →
            Judged s hd.worker la c → ¬c.kind.Final)) ∧
    ∀ d text code, judgement? d none = some (.ofKind .dependencyUnavailable) ∧
      (∀ before after, Announced (before ++ (CallError.circuitOpen d).message ++ after)) ∧
      (Announced text → classify (.other text) = .ofKind .dependencyUnavailable ∧
        classify (.status code text) = .ofKind .dependencyUnavailable) := by
  refine ⟨?_, fun _ _ _ hs _ _ _ _ _ _ _ hes => hs.judged_of_failed hes, fun l r h' hr => ?_,
    fun d text code =>
      ⟨rfl, announced_message d, fun hannounced => classify_of_announced hannounced code⟩⟩
  · intro stack es h hs es₁ x round ev c lb es₂ hj hfinal
    obtain ⟨hquiet, hreport, hgives, hrecord, hrequest, _⟩ := hs.final hsink hj hfinal
    refine ⟨fun q hq => ?_, hrequest, hreport, hgives⟩
    obtain hq | hq := List.mem_append.1 hq
    · exact hquiet q hq
    · exact .inl (hrecord q hq)
  · obtain ⟨o, es, before, l', rfl, hs, rfl⟩ | ⟨why, hd, below, es, l', h₁, rfl, hs, rfl, hstuck⟩ :=
      run_stands hr
    · have hcalls : calls (es ++ [.ended w o before l']) = calls es ++ l' := by
        simp [Entry.exchanges]
      refine ⟨fun l₁ d t e l₂ hl ht hfinal => ?_, .inl ⟨o, es, before, l', rfl, hs, hcalls.symm⟩⟩
      obtain ⟨hquiet, _, hended⟩ := hs.after_final hsink (hcalls.trans hl) ht hfinal
      refine ⟨hquiet, fun o' ho => ?_⟩
      cases ho
      obtain ⟨es', y, reason, alert, before', l'', hlast⟩ := hended rfl
      cases (List.append_inj' hlast rfl).2
      exact ⟨reason, alert, rfl⟩
    · refine ⟨fun l₁ d t e l₂ hl ht hfinal => ⟨?_, fun _ ho => by cases ho⟩,
        .inr ⟨why, hd, below, es, l', h₁, rfl, hs, rfl, hstuck, ?_, ?_⟩⟩
      · obtain ⟨l₃, hes, rfl⟩ | ⟨l₃, rfl, rfl⟩ := append_eq_append_cons hl
        · obtain ⟨_, hyields, _⟩ := hs.after_final hsink hes ht hfinal
          exact absurd hstuck ((hyields hd rfl).not_stuck hs)
        · exact Stuck.quiet hs hstuck ht (Policy.rests_of_final hfinal _)
      · rintro es₁ x round ev c lb es₂ hj hfinal
        obtain ⟨_, _, _, _, _, hyields⟩ := hs.final hsink hj hfinal
        exact (hyields hd rfl).not_stuck hs hstuck
      · rintro round la lb c hdue rfl hj hfinal
        exact Stuck.not_rests hs hstuck hdue hj (Policy.rests_of_final hfinal _)

theorem records_scripted {calm : (q : Call) → q.Answer} (hcalm : ∀ a, calm (.appendLog a) = .ok ())
    (d : Dependency) : Records (Scripted calm d) := by
  rintro h a r h' ⟨rfl, _⟩
  exact hcalm a

/-- One worker, and a breaker without failures; the first attempt overruns, the second is denied. -/
def expiring : World × List Attempt :=
  (⟨lonely.store, encode .fresh, 0⟩, [.overran, .returned (.error (.auth "expired"))])

def Outcome.isUnhelped : Outcome → Bool
  | degraded (.helperFailed _) _ => true
  | _ => false

/-- The worker's attempt overruns, and that of its helper is denied. -/
theorem lone_gives_up : ∃ es₁ x round ev lb es₂ h' above es o before l,
    Standing (Scripted (Call.calm .epoch ⟨"w-2"⟩) ⟨"api"⟩) impatient ⟨"job", none⟩ lone expiring []
      (es ++ [.ended lone o before l]) h' ∧
    JudgedAt impatient (es ++ [.ended lone o before l]) es₁ x round ev (.ofKind .auth) lb es₂ ∧
    GivesUp x (.notRetryable .auth) above es₂ [] ∧ o.isUnhelped = true := by
  obtain ⟨l, r, h', hrun, hseen⟩ := exists_trail_scripted (run impatient ⟨"job", none⟩ lone)
    (Call.calm .epoch ⟨"w-2"⟩) ⟨"api"⟩ expiring
    (p := fun seen => (seen.1.any fun q => failed? q == some (.ofKind .auth)) &&
      seen.2.toOption.any Outcome.isUnhelped)
    (by decide +kernel)
  obtain ⟨hany, hunhelped⟩ := Bool.and_eq_true_iff.1 hseen
  have hsink : Records (Scripted (Call.calm .epoch ⟨"w-2"⟩) ⟨"api"⟩) :=
    records_scripted (fun _ => rfl) _
  obtain ⟨hjudged, _, hruns, _⟩ := final_failure_ends hsink impatient ⟨"job", none⟩ lone expiring
  obtain ⟨_, ⟨o, es, before, l', rfl, hs, rfl⟩ | ⟨why, _, _, _, _, _, rfl, _⟩⟩ := hruns _ _ _ hrun
  · obtain ⟨q, hq, hauth⟩ := List.any_eq_true.1 hany
    obtain ⟨d, t, e, rfl, ht, hc⟩ := exists_trial (beq_iff_eq.1 hauth)
    have hfinal : (classify e).kind.Final := by
      rw [hc]
      exact .inr (.inl rfl)
    obtain ⟨l₁, l₂, hcalls⟩ := List.append_of_mem hq
    obtain ⟨x, round, ev, lb, es₁, es₂, hj, _⟩ :=
      hs.judged_of_attempt hcalls ht (Policy.rests_of_final hfinal _)
    rw [hc] at hj
    obtain ⟨_, _, _, hd, below, h₁, _, _, hgives⟩ :=
      hjudged _ _ _ hs _ _ _ _ _ _ _ hj (.inr (.inl rfl))
    exact ⟨es₁, x, round, ev, lb, es₂, h', _, es, o, before, l', hs, hj, hgives, hunhelped⟩
  · cases hunhelped

end WorkerGuard.Task
