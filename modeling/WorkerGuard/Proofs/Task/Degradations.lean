import WorkerGuard.Proofs.Task.Told

/-!
# WorkerGuard.Proofs.Task.Degradations

A run that ends, and the log that its workers tell when they give up.

* `Lost`, `Standing.lost`: a worker who could not tell the log ends as failed, and does nothing else
  but to ask for its record to be closed.
* `Logged`: surroundings with a registry and a log, which others use, too.
* `degradations_logged`: the log is told of those who gave up, in the order in which they ended.
-/

namespace WorkerGuard.Task

open Program Simulation

variable {σ : Type} {E : Environment σ} {s : Settings} {task : Task} {w x : Worker}
variable {H h h' : σ} {hd : Head} {stack below : List Head} {es : List (Entry σ)}
variable {l l₁ l₂ : List Exchange} {c : Course} {o : Outcome}

section Lost

variable {artifact : Artifact} {why : Log.Error} {m : String}

/-- Only those who give up append to the log. -/
theorem Standing.append_entry (hs : Standing E s task w H stack es h) {entry : Entry σ}
    (hentry : entry ∈ es) {q : Exchange} (hq : q ∈ entry.exchanges) (happends : q.call.Appends) :
    ∃ x st reason e l, entry = .did x st (.writeDegrade reason) e l := by
  cases hs.origin entry hentry with
  | began =>
    obtain rfl := List.mem_singleton.1 hq
    exact happends.elim
  | @did hd a queue e c h h' l ha hp =>
    by_cases hwrite : ∃ reason, a = .writeDegrade reason
    · obtain ⟨reason, rfl⟩ := hwrite
      exact ⟨_, _, _, _, _, rfl⟩
    · have hsilent := hp.asks (silent_perform ha fun reason ha => hwrite ⟨reason, ha⟩)
      exact absurd happends (hsilent q hq)
  | rejoined => cases hq
  | ended hp => exact absurd happends (hp.asks (silent_finish s _ _) q hq)

theorem finish_failed (hstate : c.state = .failed m)
    (hr : Trail E (finish s x c) h l (.ok o) h') :
    o = .failed m ∧ ∃ answer, l = [⟨.registry (.terminate x.id), answer⟩] := by
  simp only [finish, hstate] at hr
  obtain ⟨_, h₁, l₁, l₂, rfl, hclose, hr⟩ := trail_bind_ok hr
  obtain ⟨rfl, ho, _⟩ := trail_pure hr
  obtain ⟨answer, h₂, l₃, rfl, _, hdone⟩ := trail_call_bind hclose
  obtain ⟨rfl, _⟩ := trail_pure hdone
  exact ⟨Except.ok.inj ho, answer, rfl⟩

/-- A worker whose task failed asks for its record to be closed, and does nothing else. -/
theorem Leads.fails (hstate : hd.course.state = .failed m) (hnil : hd.course.queue = [])
    (hl : Leads E s task (hd :: below) h es [] h') :
    ∃ answer es', es = .ended hd.worker (.failed m) h
      [⟨.registry (.terminate hd.worker.id), answer⟩] :: es' := by
  cases hl with
  | step hadv hl =>
    have hy : hd.Yields := .inr hnil
    cases hadv with
    | step ha =>
      obtain ⟨_, hq, _⟩ := ha
      rw [hnil] at hq
      cases hq
    | helper hx hn ht => exact absurd hx hy.not_calls
    | back hq hx hp =>
      obtain ⟨rfl, answer, rfl⟩ := finish_failed hstate hp
      exact ⟨answer, _, rfl⟩
    | finished hq hp =>
      obtain ⟨rfl, answer, rfl⟩ := finish_failed hstate hp
      exact ⟨answer, _, rfl⟩

/-- After the exchanges `past` a worker could not tell the log why it gives its task up. So the task
failed, and its record was to be closed: nobody looked for a reason to raise an alert. -/
def Lost (task : Task) (es : List (Entry σ)) (past : List Exchange) (a : Artifact)
    (why : Log.Error) : Prop :=
  ∃ x reason t es₁ before answer es₂, Tells task (x, reason) a ∧
    past = calls es₁ ++ [⟨.now, t⟩] ∧
    es = es₁ ++ .did x (.degrading reason) (.writeDegrade reason)
        (.degradeFailed (Error.log why).message) [⟨.now, t⟩, ⟨.appendLog a, .error why⟩] ::
      .ended x (.failed ("degrade write failed (" ++ reason.message ++ "): " ++
        (Error.log why).message)) before [⟨.registry (.terminate x.id), answer⟩] :: es₂

theorem Standing.lost (hs : Standing E s task w H [] es h)
    (hes : calls es = l₁ ++ ⟨.appendLog artifact, .error why⟩ :: l₂) :
    Lost task es l₁ artifact why := by
  obtain ⟨es₁, entry, es₂, la, lb, rfl, hentry, rfl, rfl⟩ := exists_entry hes
  have hq : ⟨.appendLog artifact, .error why⟩ ∈ entry.exchanges := by simp [hentry]
  obtain ⟨x, st, reason, e, l, rfl⟩ :=
    hs.append_entry (List.mem_append_right _ (List.mem_cons_self ..)) hq trivial
  have hown : (Action.writeDegrade reason).IsOwn := by
    intro id hid
    cases hid
  obtain ⟨hd, below, c, h₁, h₂, rfl, rfl, hs₁, ⟨queue, hq, hx, hp⟩, hl⟩ := hs.at_action hown
  have hagrees := hs₁.agrees hd (List.mem_cons_self ..)
  have hstep := hagrees.step hq hx hp
  obtain ⟨t, artifact', r, rfl, htells, hwritten⟩ := writes_of_perform hp
  obtain ⟨rfl, rfl, rfl⟩ : la = [⟨.now, t⟩] ∧ artifact' = artifact ∧ r = .error why := by
    have hlist : [⟨.now, t⟩, ⟨.appendLog artifact', r⟩] =
        la ++ ⟨.appendLog artifact, .error why⟩ :: lb := hentry
    cases la with
    | nil => cases hlist
    | cons q la =>
      cases la with
      | nil =>
        cases hlist
        exact ⟨rfl, rfl, rfl⟩
      | cons q' la =>
        have hlength := congrArg List.length hlist
        simp at hlength
  obtain ⟨hok, _⟩ | ⟨why', hwhy, rfl⟩ := hwritten
  · cases hok
  · cases hwhy
    have hfailed : (hd.stepped s (.writeDegrade reason) (.degradeFailed (Error.log why).message)
        c).course.state = .failed ("degrade write failed (" ++ reason.message ++ "): " ++
          (Error.log why).message) ∧ (hd.stepped s (.writeDegrade reason)
            (.degradeFailed (Error.log why).message) c).course.queue = [] := by
      generalize (hd.stepped s (.writeDegrade reason) (.degradeFailed (Error.log why).message)
        c).course = c' at hstep
      cases hstep
      exact ⟨rfl, rfl⟩
    obtain ⟨answer, es₃, rfl⟩ := hl.fails hfailed.1 hfailed.2
    rw [Course.state_of_due_writeDegrade hstep.due]
    exact ⟨hd.worker, reason, t, es₁, h₂, answer, es₃, htells, rfl, rfl⟩

end Lost

/-- A registry and a log, both of which others use, too. -/
def Logged (others outages : Registry.Request → Prop) (path : String)
    (appenders : Artifact → Prop) : Environment (Store × Log) :=
  fun h q a h' => Served others outages h.1 q a h'.1 ∧ Appending path appenders h.2 q a h'.2

/-- All workers of a run that ends have ended, each helper before its parent. The log has one
artifact for each one who gave its task up, in this order and with the reason in its outcome; others
may have appended theirs in between. Whoever could not append its artifact has failed. The record of
each worker is not active any more, unless the registry could not be reached when it was to be
closed. -/
theorem degradations_logged (s : Settings) (task : Task) (w : Worker)
    (others outages : Registry.Request → Prop) (path : String) (appenders : Artifact → Prop)
    {H h' : Store × Log} {l : List Exchange} {o : Outcome}
    (hr : Trail (Logged others outages path appenders) (run s task w) H l (.ok o) h') :
    ∃ es, (∃ es₁ before l₁, es = es₁ ++ [.ended w o before l₁]) ∧ l = calls es ∧
      Standing (Logged others outages path appenders) s task w H [] es h' ∧
      gone es = (w :: granted l).reverse ∧
      ((w :: granted l).reverse.IsChain fun x y => x.parent = some y.id) ∧
      List.Forall₂ (Tells task) (degradations es) (appended l) ∧
      (∃ all, Log.Mingled appenders (appended l) all ∧ H.2.appendAll path all = .ok h'.2) ∧
      (∀ l₁ artifact why l₂, l = l₁ ++ ⟨.appendLog artifact, .error why⟩ :: l₂ →
        Lost task es l₁ artifact why) ∧
      (H.1.Registered w.id → ∀ x o' before l', .ended x o' before l' ∈ es →
        Closes outages x o' l' before.1 h'.1) := by
  obtain ⟨o', es, before, l', hok, hs, rfl⟩ | ⟨why, _, _, _, _, _, hwhy, _⟩ := run_stands hr
  · cases hok
    have hcalls : calls es ++ l' = calls (es ++ [.ended w o before l']) := by simp [Entry.exchanges]
    have hstore : ∀ h q a h', Logged others outages path appenders h q a h' →
        Served others outages h.1 q a h'.1 := fun _ _ _ _ h => h.1
    have hlined := hs.lined hstore
    have htold := hs.told
    have horder := hlined.order
    rw [hcalls]
    refine ⟨_, ⟨es, before, l', rfl⟩, rfl, hs, ?_, hlined.parents, ?_, ?_, ?_, ?_⟩
    · simpa [waiting] using horder
    · simpa [Told, recorded] using htold
    · rw [← hcalls]
      exact (hr.map (f := Prod.snd) fun _ _ _ _ h => h.2).appendAll
    · exact fun l₁ artifact why l₂ hes => hs.lost hes
    · exact fun hw => hs.closed hstore hw
  · cases hwhy

section Example

/-- An append that failed is one of the worker with this name. -/
def unheard (id : WorkerId) (l : List Exchange) : Bool :=
  l.any fun
    | ⟨.appendLog a, .error _⟩ => a.worker == id
    | _ => false

theorem exists_of_unheard {id : WorkerId} {l : List Exchange} (h : unheard id l = true) :
    ∃ l₁ artifact why l₂, l = l₁ ++ ⟨.appendLog artifact, .error why⟩ :: l₂ ∧
      artifact.worker = id := by
  obtain ⟨⟨q, answer⟩, hq, hid⟩ := List.any_eq_true.1 h
  obtain ⟨l₁, l₂, rfl⟩ := List.append_of_mem hq
  cases q with
  | appendLog artifact =>
    cases answer with
    | ok => cases hid
    | error why => exact ⟨l₁, artifact, why, l₂, rfl, beq_iff_eq.1 hid⟩
  | _ => cases hid

/-- Nobody else is there. The registry cannot be reached for the requests `cut`, and the artifacts
`full` find no room in the log. -/
def serveLogged (cut : Registry.Request → Bool) (full : Artifact → Bool) (path : String)
    (h : Store × Log) : (q : Call) → q.Answer × (Store × Log)
  | .registry q =>
    if cut q then (.error .locked, h) else ((h.1.answer q).1, (h.1.answer q).2, h.2)
  | .appendLog a =>
    if full a then (.error (.notAFile path), h) else
      match h.2.append path a with
      | .ok g => (.ok (), h.1, g)
      | .error why => (.error why, h)
  | q => ((serve (Call.calm .epoch ⟨"w-2"⟩) h.1 q).1, h)

theorem logged_serve {cut : Registry.Request → Bool} {outages : Registry.Request → Prop}
    (hcut : ∀ q, cut q = true → outages q) (full : Artifact → Bool) (path : String)
    (h : Store × Log) (q : Call) : Logged (fun _ => False) outages path (fun _ => False) h q
      (serveLogged cut full path h q).1 (serveLogged cut full path h q).2 := by
  cases q with
  | registry q =>
    simp only [serveLogged]
    split
    · rename_i hq
      exact ⟨.inr ⟨hcut q hq, ⟨_, rfl⟩, .refl _ _⟩, .refl _ _ _⟩
    · exact ⟨.inl ⟨_, rfl, .refl _ _⟩, .refl _ _ _⟩
  | appendLog a =>
    simp only [serveLogged]
    split
    · exact ⟨.refl _ _, _, .inr ⟨⟨_, rfl⟩, rfl⟩, .refl _ _ _⟩
    · split
      · rename_i happend
        exact ⟨.refl _ _, _, .inl ⟨rfl, happend⟩, .refl _ _ _⟩
      · exact ⟨.refl _ _, _, .inr ⟨⟨_, rfl⟩, rfl⟩, .refl _ _ _⟩
  | jitter => exact ⟨served_serve (Call.calm .epoch ⟨"w-2"⟩) h.1 .jitter, .refl _ _ _⟩
  | _ => exact ⟨.refl _ _, .refl _ _ _⟩

/-- What can be seen of the run of a program there. -/
theorem exists_trail_logged {α : Type} (cut : Registry.Request → Bool)
    (outages : Registry.Request → Prop) (hcut : ∀ q, cut q = true → outages q)
    (full : Artifact → Bool) (path : String) (x : Program α) (h : Store × Log)
    {p : List Exchange × Except Halt α × Store × Log → Bool}
    (hp : p (x.follow (serveLogged cut full path) h) = true) :
    ∃ l r h', Trail (Logged (fun _ => False) outages path fun _ => False) x h l r h' ∧
      p (l, r, h') = true :=
  ⟨_, _, _, trail_follow (logged_serve hcut full path) x h, hp⟩

/-- There is no room for the artifact of the helper, but then for that of its parent. -/
theorem helper_unheard : ∃ l o h', ∃ es : List (Entry (Store × Log)),
    Trail (Logged (fun _ => False) (fun _ => False) "degrades" fun _ => False)
      (run impatient ⟨"job", none⟩ lone) (lonely.store, .missing) l (.ok o) h' ∧
    l = calls es ∧ (gone es).length = 2 ∧ (appended l).length = 1 ∧
    List.Forall₂ (Tells ⟨"job", none⟩) (degradations es) (appended l) ∧
    Log.missing.appendAll "degrades" (appended l) = .ok h'.2 ∧
    ∃ l₁ artifact why, artifact.worker = ⟨"w-2"⟩ ∧ Lost ⟨"job", none⟩ es l₁ artifact why := by
  obtain ⟨l, r, h', hrun, hseen⟩ := exists_trail_logged (fun _ => false)
    (fun _ => False) (fun _ h => absurd h Bool.false_ne_true) (fun a => a.worker == ⟨"w-2"⟩)
    "degrades" (run impatient ⟨"job", none⟩ lone) (lonely.store, .missing)
    (p := fun seen => seen.2.1.isOk && (granted seen.1).length == 1 &&
      (appended seen.1).length == 1 && unheard ⟨"w-2"⟩ seen.1)
    (by decide +kernel)
  simp only [Bool.and_eq_true, beq_iff_eq] at hseen
  obtain ⟨⟨⟨hok, hgranted⟩, happended⟩, hunheard⟩ := hseen
  obtain ⟨l₁, artifact, why, l₂, hl, hworker⟩ := exists_of_unheard hunheard
  cases r with
  | error why => cases hok
  | ok o =>
    obtain ⟨es, _, hes, _, hgone, _, htold, ⟨all, hmingled, hlog⟩, hlost, _⟩ :=
      degradations_logged impatient ⟨"job", none⟩ lone _ _ "degrades" _ hrun
    obtain rfl := hmingled.eq_of_none fun _ h => h
    refine ⟨l, o, h', es, hrun, hes, ?_, happended, htold, hlog, l₁, artifact, why, hworker,
      hlost _ _ _ _ hl⟩
    rw [hgone, List.length_reverse, List.length_cons, hgranted]

/-- The log is a directory, and the registry cannot be reached for the end of the worker. -/
theorem unheard_stays_active : lonely.store.Registered lone.id ∧ ∃ l o h',
    Trail (Logged (fun _ => False) (fun q => q = .terminate lone.id) "degrades" fun _ => False)
      (run impatient ⟨"job", none⟩ lone) (lonely.store, .directory) l (.ok o) h' ∧
    (∃ artifact why, ⟨.appendLog artifact, .error why⟩ ∈ l ∧ artifact.worker = lone.id) ∧
    ∃ r, h'.1.record? lone.id = some r ∧ r.isActive = true := by
  refine ⟨rfl, ?_⟩
  obtain ⟨l, r, h', hrun, hseen⟩ := exists_trail_logged
    (fun q => Decidable.decide (q = .terminate lone.id)) (fun q => q = .terminate lone.id)
    (fun _ => of_decide_eq_true) (fun _ => false) "degrades" (run impatient ⟨"job", none⟩ lone)
    (lonely.store, .directory)
    (p := fun seen => seen.2.1.isOk && unheard lone.id seen.1 &&
      (seen.2.2.1.record? lone.id).any Record.isActive)
    (by decide +kernel)
  simp only [Bool.and_eq_true, Option.any_eq_true] at hseen
  obtain ⟨⟨hok, hunheard⟩, record, hrecord, hactive⟩ := hseen
  obtain ⟨l₁, artifact, why, l₂, rfl, hworker⟩ := exists_of_unheard hunheard
  cases r with
  | error why => cases hok
  | ok o => exact ⟨_, o, h', hrun, ⟨artifact, why, by simp, hworker⟩, record, hrecord, hactive⟩

end Example

end WorkerGuard.Task
