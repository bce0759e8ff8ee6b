import WorkerGuard.Proofs.Program.Trail
import WorkerGuard.Proofs.Task.Head

/-!
# WorkerGuard.Proofs.Task.Standing

Where a run of a task stands, in any environment: the loops of all the workers that are at it, and
the account of what was done.

* `Entry`: one thing that a run did; `calls`: the exchanges of an account.
* `Standing E s task w H stack es h`: the run that began in `H` has come to `h`. The stack has the
  head of the innermost helper first and the one of the worker itself last, and is empty at the end.
* `run_stands`: a run that ends has come to an empty stack, and a run that halts is `Stuck`. The
  account has every exchange of the run.
-/

namespace WorkerGuard.Task

open Program

variable {σ : Type} {E : Environment σ} {s : Settings} {task : Task} {w : Worker} {H h h' : σ}

theorem total_finish (s : Settings) (x : Worker) (c : Course) : (finish s x c).Total := by
  have hclose : ∀ degraded, (closeRecord x degraded).Total := by
    intro degraded
    cases degraded <;> exact fun _ => trivial
  unfold finish
  split
  · refine total_bind (hclose false) fun _ => ?_
    split <;> exact total_pure _
  · refine total_bind (hclose true) fun _ => total_bind ?_ fun _ => total_pure _
    refine total_bind (total_call _) fun now => total_bind (total_call _) fun last => ?_
    refine total_bind (total_call _) fun log => ?_
    split
    · exact total_pure _
    · dsimp only
      split
      · exact total_pure _
      · exact total_bind (total_call _) fun _ => total_pure _
  · exact total_bind (hclose false) fun _ => total_pure _
  · exact total_pure _

inductive Entry (σ : Type) where
  | began (worker : Worker) (exchanges : List Exchange)
  /-- An action in a state, and the event that it ended in. -/
  | did (worker : Worker) (state : State) (action : Action) (event : Event)
      (exchanges : List Exchange)
  /-- With the surroundings as they were when no action was left. -/
  | ended (worker : Worker) (outcome : Outcome) (before : σ) (exchanges : List Exchange)

namespace Entry

def exchanges : Entry σ → List Exchange
  | began _ l => l
  | did _ _ _ _ l => l
  | ended _ _ _ l => l

end Entry

def calls (es : List (Entry σ)) : List Exchange := es.flatMap Entry.exchanges

@[simp] theorem calls_nil : calls ([] : List (Entry σ)) = [] := rfl

@[simp] theorem calls_cons (e : Entry σ) (es : List (Entry σ)) :
    calls (e :: es) = e.exchanges ++ calls es := rfl

@[simp] theorem calls_append (es es' : List (Entry σ)) : calls (es ++ es') = calls es ++ calls es' :=
  List.flatMap_append

namespace Head

/-- After an action. -/
def stepped (hd : Head) (s : Settings) (a : Action) (e : Event) (c : Course) : Head :=
  { hd with past := hd.past ++ [(a, e)], course := c.after e (.ofSettings s.policy) }

/-- After the helper that was granted came back. -/
def rejoined (hd : Head) (s : Settings) (x : Worker) (o : Outcome) (queue : List Action) : Head :=
  hd.stepped s (.runHelper x.id) o.event
    { hd.course with queue, helper := none, value := o.value?.or hd.course.value }

theorem past_stepped (hd : Head) (s : Settings) (a : Action) (e : Event) (c : Course) :
    (hd.stepped s a e c).past.length = hd.past.length + 1 := List.length_append

theorem past_rejoined (hd : Head) (s : Settings) (x : Worker) (o : Outcome)
    (queue : List Action) : (hd.rejoined s x o queue).past.length = hd.past.length + 1 :=
  List.length_append

/-- The action that comes next is the run of a helper who is there. -/
def Calls (hd : Head) (x : Worker) (queue : List Action) : Prop :=
  hd.course.queue = .runHelper x.id :: queue ∧ hd.course.helper = some x

end Head

inductive Standing (E : Environment σ) (s : Settings) (task : Task) (w : Worker) (H : σ) :
    List Head → List (Entry σ) → σ → Prop where
  | start {t : Instant} {h : σ} (ha : E H .now t h) :
      Standing E s task w H [⟨s.governor.maxDepth.toNat, w, t, [], opening⟩]
        [.began w [⟨.now, t⟩]] h
  | step {hd : Head} {below : List Head} {es : List (Entry σ)} {h h' : σ} {a : Action}
      {queue : List Action} {e : Event} {c : Course} {l : List Exchange}
      (hs : Standing E s task w H (hd :: below) es h) (hq : hd.course.queue = a :: queue)
      (hx : ∀ x, ¬hd.Calls x queue)
      (hp : Trail E (perform s task (runFor s task hd.generations) hd.worker hd.started a
        { hd.course with queue }) h l (.ok (e, c)) h') :
      Standing E s task w H (hd.stepped s a e c :: below)
        (es ++ [.did hd.worker hd.course.state a e l]) h'
  /-- In the midst of an action: the helper that was granted begins. -/
  | helper {hd : Head} {below : List Head} {es : List (Entry σ)} {h h' : σ} {x : Worker}
      {queue : List Action} {n : Nat} {t : Instant}
      (hs : Standing E s task w H (hd :: below) es h) (hx : hd.Calls x queue)
      (hn : hd.generations = n + 1) (ha : E h .now t h') :
      Standing E s task w H (⟨n, x, t, [], opening⟩ :: hd :: below)
        (es ++ [.began x [⟨.now, t⟩]]) h'
  | back {hd parent : Head} {below : List Head} {es : List (Entry σ)} {h h' : σ}
      {queue : List Action} {o : Outcome} {l : List Exchange}
      (hs : Standing E s task w H (hd :: parent :: below) es h) (hq : hd.course.queue = [])
      (hx : parent.Calls hd.worker queue)
      (hp : Trail E (finish s hd.worker hd.course) h l (.ok o) h') :
      Standing E s task w H (parent.rejoined s hd.worker o queue :: below)
        (es ++ [.ended hd.worker o h l,
          .did parent.worker parent.course.state (.runHelper hd.worker.id) o.event []]) h'
  | finished {hd : Head} {es : List (Entry σ)} {h h' : σ} {o : Outcome} {l : List Exchange}
      (hs : Standing E s task w H [hd] es h) (hq : hd.course.queue = [])
      (hp : Trail E (finish s hd.worker hd.course) h l (.ok o) h') :
      Standing E s task w H [] (es ++ [.ended hd.worker o h l]) h'

/-- What holds of the loop of each worker: it holds at the beginning, the action that comes next keeps
it, and nothing that is done elsewhere destroys it. -/
theorem Standing.heads {P : Head → σ → Prop}
    (hkeep : ∀ hd h q a h', P hd h → E h q a h' → P hd h')
    (hstart : ∀ t h, E H .now t h → P ⟨s.governor.maxDepth.toNat, w, t, [], opening⟩ h)
    (hstep : ∀ hd h h' a queue e c l, P hd h → hd.course.queue = a :: queue →
      (∀ x, ¬hd.Calls x queue) →
      Trail E (perform s task (runFor s task hd.generations) hd.worker hd.started a
        { hd.course with queue }) h l (.ok (e, c)) h' → P (hd.stepped s a e c) h')
    (hhelper : ∀ hd h x queue n t, P hd h → hd.Calls x queue → hd.generations = n + 1 →
      P ⟨n, x, t, [], opening⟩ h)
    (hback : ∀ hd h x queue o, P hd h → hd.Calls x queue → P (hd.rejoined s x o queue) h)
    {stack : List Head} {es : List (Entry σ)} {h : σ} (hs : Standing E s task w H stack es h) :
    ∀ hd ∈ stack, P hd h := by
  have hpast : ∀ {α : Type} {x : Program α} {l h r h' hd}, Trail E x h l r h' → P hd h → P hd h' :=
    fun hr => hr.preserves fun h q a h' => hkeep _ h q a h'
  induction hs with
  | start ha => simpa using hstart _ _ ha
  | step _ hq hx hp ih =>
    intro hd hmem
    obtain rfl | hmem := List.mem_cons.1 hmem
    · exact hstep _ _ _ _ _ _ _ _ (ih _ (List.mem_cons_self ..)) hq hx hp
    · exact hpast hp (ih hd (List.mem_cons_of_mem _ hmem))
  | helper _ hx hn ha ih =>
    intro hd hmem
    obtain rfl | hmem := List.mem_cons.1 hmem
    · exact hkeep _ _ _ _ _ (hhelper _ _ _ _ _ _ (ih _ (List.mem_cons_self ..)) hx hn) ha
    · exact hkeep _ _ _ _ _ (ih hd hmem) ha
  | back _ hq hx hp ih =>
    intro hd hmem
    obtain rfl | hmem := List.mem_cons.1 hmem
    · exact hpast hp (hback _ _ _ _ _ (ih _ (by simp)) hx)
    · exact hpast hp (ih hd (by simp [hmem]))
  | finished _ _ _ _ => simp

/-- What nothing destroys. -/
theorem Standing.keeps {I : σ → Prop} (hkeep : ∀ h q a h', I h → E h q a h' → I h') (hI : I H)
    {stack : List Head} {es : List (Entry σ)} {h : σ} (hs : Standing E s task w H stack es h) :
    I h := by
  induction hs with
  | start ha => exact hkeep _ _ _ _ hI ha
  | step _ _ _ hp ih => exact hp.preserves hkeep ih
  | helper _ _ _ ha ih => exact hkeep _ _ _ _ ih ha
  | back _ _ _ hp ih => exact hp.preserves hkeep ih
  | finished _ _ hp ih => exact hp.preserves hkeep ih

/-- Why the loop of a worker cannot go on, and the exchanges up to there. -/
inductive Stuck (E : Environment σ) (s : Settings) (task : Task) (hd : Head) (h : σ) :
    List Exchange → Halt → σ → Prop where
  | steps (hpast : hd.past.length = stepBound s) : Stuck E s task hd h [] .unfinished h
  | generations {x : Worker} {queue : List Action} (hx : hd.Calls x queue)
      (hn : hd.generations = 0) : Stuck E s task hd h [] .unfinished h
  | action {a : Action} {queue : List Action} {l : List Exchange} {why : Halt} {h' : σ}
      (hq : hd.course.queue = a :: queue) (hx : ∀ x, ¬hd.Calls x queue)
      (hp : Trail E (perform s task (runFor s task hd.generations) hd.worker hd.started a
        { hd.course with queue }) h l (.error why) h') : Stuck E s task hd h l why h'

/-- The run of `x` is over but for its last exchanges. -/
def Finishes (E : Environment σ) (s : Settings) (task : Task) (w : Worker) (H : σ) (x : Worker)
    (below : List Head) (es : List (Entry σ)) (l : List Exchange) (o : Outcome) (h' : σ) : Prop :=
  ∃ hd es₁ l₁ l₂ h₁, Standing E s task w H (hd :: below) es₁ h₁ ∧ hd.worker = x ∧
    hd.course.queue = [] ∧ calls es₁ = calls es ++ l₁ ∧ l = l₁ ++ l₂ ∧
    Trail E (finish s x hd.course) h₁ l₂ (.ok o) h'

/-- Some loop of the run cannot go on. -/
def Halts (E : Environment σ) (s : Settings) (task : Task) (w : Worker) (H : σ)
    (es : List (Entry σ)) (l : List Exchange) (why : Halt) (h' : σ) : Prop :=
  ∃ hd below es₁ l₁ l₂ h₁, Standing E s task w H (hd :: below) es₁ h₁ ∧
    calls es₁ = calls es ++ l₁ ∧ l = l₁ ++ l₂ ∧ Stuck E s task hd h₁ l₂ why h'

section Runs

variable {x : Worker} {below : List Head} {es es₁ : List (Entry σ)} {l l₁ l₂ : List Exchange}

theorem Finishes.after {o : Outcome} (hes : calls es₁ = calls es ++ l₁)
    (hf : Finishes E s task w H x below es₁ l₂ o h') :
    Finishes E s task w H x below es (l₁ ++ l₂) o h' := by
  obtain ⟨hd, es₂, l₃, l₄, h₁, hs, hx, hq, hcalls, rfl, hp⟩ := hf
  refine ⟨hd, es₂, l₁ ++ l₃, l₄, h₁, hs, hx, hq, ?_, (List.append_assoc ..).symm, hp⟩
  rw [hcalls, hes, List.append_assoc]

theorem Halts.after {why : Halt} (hes : calls es₁ = calls es ++ l₁)
    (hf : Halts E s task w H es₁ l₂ why h') : Halts E s task w H es (l₁ ++ l₂) why h' := by
  obtain ⟨hd, below, es₂, l₃, l₄, h₁, hs, hcalls, rfl, hp⟩ := hf
  refine ⟨hd, below, es₂, l₁ ++ l₃, l₄, h₁, hs, ?_, (List.append_assoc ..).symm, hp⟩
  rw [hcalls, hes, List.append_assoc]

theorem Stuck.halts {hd : Head} {h : σ} {why : Halt} (hs : Standing E s task w H (hd :: below) es h)
    (hstuck : Stuck E s task hd h l why h') : Halts E s task w H es l why h' :=
  ⟨hd, below, es, [], l, h, hs, (List.append_nil _).symm, rfl, hstuck⟩

/-- The run of a worker as a part of the whole run, by the exchanges `l` since `es`. -/
def Subrun (E : Environment σ) (s : Settings) (task : Task) (w : Worker) (H : σ) (x : Worker)
    (below : List Head) (es : List (Entry σ)) (l : List Exchange) (h' : σ) :
    Except Halt Outcome → Prop
  | .ok o => Finishes E s task w H x below es l o h'
  | .error why => Halts E s task w H es l why h'

theorem Subrun.after {r : Except Halt Outcome} (hes : calls es₁ = calls es ++ l₁)
    (hr : Subrun E s task w H x below es₁ l₂ h' r) :
    Subrun E s task w H x below es (l₁ ++ l₂) h' r := by
  cases r with
  | ok o => exact Finishes.after hes hr
  | error why => exact Halts.after hes hr

/-- The loop of the innermost worker by the exchanges `l` since `es`. -/
def Drives (E : Environment σ) (s : Settings) (task : Task) (w : Worker) (H : σ) (hd : Head)
    (below : List Head) (es : List (Entry σ)) (l : List Exchange) (h' : σ) :
    Except Halt Course → Prop
  | .ok c => ∃ hd' es₁, Standing E s task w H (hd' :: below) es₁ h' ∧ hd'.worker = hd.worker ∧
      hd'.course = c ∧ c.queue = [] ∧ calls es₁ = calls es ++ l
  | .error why => Halts E s task w H es l why h'

theorem Drives.after {hd hd₁ : Head} {r : Except Halt Course} (hes : calls es₁ = calls es ++ l₁)
    (hw : hd₁.worker = hd.worker) (hr : Drives E s task w H hd₁ below es₁ l₂ h' r) :
    Drives E s task w H hd below es (l₁ ++ l₂) h' r := by
  cases r with
  | ok c =>
    obtain ⟨hd', es₂, hs, hworker, hc, hq, hcalls⟩ := hr
    refine ⟨hd', es₂, hs, hworker.trans hw, hc, hq, ?_⟩
    rw [hcalls, hes, List.append_assoc]
  | error why => exact Halts.after hes hr

theorem drive_calls {hd : Head} {queue : List Action} (hx : hd.Calls x queue)
    (run : Worker → Program Outcome) (steps : Nat) :
    drive s task run hd.worker hd.started (steps + 1) hd.course = (do
      let o ← run x
      drive s task run hd.worker hd.started steps (hd.rejoined s x o queue).course) := by
  obtain ⟨hq, hhelper⟩ := hx
  simp only [drive, hq, perform, runHelper, hhelper, if_true]
  exact Program.bind_assoc _ _ _

/-- What is known of the helpers who have so many generations to come. -/
def Nested (E : Environment σ) (s : Settings) (task : Task) (w : Worker) (H : σ) (n : Nat) :
    Prop :=
  ∀ {x : Worker} {below : List Head} {es : List (Entry σ)} {h h' : σ} {l : List Exchange}
    {r : Except Halt Outcome},
    (∀ t h₁, E h .now t h₁ → Standing E s task w H (⟨n, x, t, [], opening⟩ :: below)
      (es ++ [.began x [⟨.now, t⟩]]) h₁) →
    Trail E (runFor s task (n + 1) x) h l r h' → Subrun E s task w H x below es l h' r

theorem drive_stands {steps : Nat} (hd : Head) {h : σ} {r : Except Halt Course}
    (nested : ∀ n, hd.generations = n + 1 → Nested E s task w H n)
    (hpast : hd.past.length + steps = stepBound s)
    (hs : Standing E s task w H (hd :: below) es h)
    (hr : Trail E (drive s task (runFor s task hd.generations) hd.worker hd.started steps
      hd.course) h l r h') : Drives E s task w H hd below es l h' r := by
  induction steps generalizing hd es h l with
  | zero =>
    obtain ⟨rfl, rfl, rfl⟩ := trail_halt hr
    exact (Stuck.steps hpast).halts hs
  | succ steps ih =>
    by_cases hx : ∃ x queue, hd.Calls x queue
    · obtain ⟨x, queue, hx⟩ := hx
      rw [drive_calls hx] at hr
      cases hn : hd.generations with
      | zero =>
        rw [hn] at hr
        obtain ⟨rfl, rfl, rfl⟩ := trail_halt hr
        exact (Stuck.generations hx hn).halts hs
      | succ n =>
        rw [hn] at hr
        have hopen : ∀ t h₁, E h .now t h₁ → _ := fun t h₁ ha => hs.helper hx hn ha
        obtain ⟨o, h₁, l₁, l₂, rfl, ho, hnext⟩ | ⟨why, rfl, ho⟩ := trail_bind hr
        · obtain ⟨hd', es₁, l₃, l₄, h₂, hs', rfl, hq', hcalls, rfl, hfinish⟩ :=
            nested n hn hopen ho
          rw [← hn] at hnext
          refine (ih (hd.rejoined s hd'.worker o queue) nested ?_
            (hs'.back hq' hx hfinish) hnext).after ?_ rfl
          · rw [Head.past_rejoined]
            omega
          · simp [hcalls, Entry.exchanges]
        · exact nested n hn hopen ho
    · unfold drive at hr
      split at hr
      · rename_i hq
        obtain ⟨rfl, rfl, rfl⟩ := trail_pure hr
        exact ⟨hd, es, hs, rfl, rfl, hq, (List.append_nil _).symm⟩
      · rename_i a queue hq
        have hx : ∀ x, ¬hd.Calls x queue := fun x hcalls => hx ⟨x, queue, hcalls⟩
        obtain ⟨⟨e, c⟩, h₁, l₁, l₂, rfl, hp, hnext⟩ | ⟨why, rfl, hp⟩ := trail_bind hr
        · refine (ih (hd.stepped s a e c) nested ?_ (hs.step hq hx hp) hnext).after ?_ rfl
          · rw [Head.past_stepped]
            omega
          · simp [Entry.exchanges]
        · exact (Stuck.action hq hx hp).halts hs

theorem nested_of {n : Nat} (hprev : ∀ m, n = m + 1 → Nested E s task w H m) :
    Nested E s task w H n := by
  intro x below es h h' l r hopen hr
  obtain ⟨t, h₁, l₁, rfl, ht, hr⟩ := trail_call_bind hr
  have hes : calls (es ++ [.began x [⟨.now, t⟩]]) = calls es ++ [⟨.now, t⟩] := by
    simp [Entry.exchanges]
  show Subrun E s task w H x below es ([⟨.now, t⟩] ++ l₁) h' r
  refine Subrun.after hes ?_
  obtain ⟨c, h₂, l₂, l₃, rfl, hd, hfinish⟩ | ⟨why, rfl, hd⟩ := trail_bind hr
  · obtain ⟨hd', es₁, hs, rfl, rfl, hq, hcalls⟩ :=
      drive_stands ⟨n, x, t, [], opening⟩ hprev (Nat.zero_add _) (hopen t h₁ ht) hd
    cases r with
    | ok o => exact ⟨hd', es₁, l₂, l₃, h₂, hs, rfl, hq, hcalls, rfl, hfinish⟩
    | error why =>
      obtain ⟨o, ho⟩ := hfinish.ok_of_total (total_finish s _ _)
      cases ho
  · exact drive_stands ⟨n, x, t, [], opening⟩ hprev (Nat.zero_add _) (hopen t h₁ ht) hd

theorem runFor_stands (n : Nat) : Nested E s task w H n := by
  induction n with
  | zero => exact nested_of fun _ => nofun
  | succ n ih =>
    refine nested_of fun m hm => ?_
    cases hm
    exact ih

end Runs

/-- A run goes from standing to standing until it has an outcome, or until some loop is stuck. -/
theorem run_stands {l : List Exchange} {r : Except Halt Outcome}
    (hr : Trail E (run s task w) H l r h') :
    (∃ o es before l', r = .ok o ∧
      Standing E s task w H [] (es ++ [.ended w o before l']) h' ∧ l = calls es ++ l') ∨
      ∃ why hd below es l' h₁, r = .error why ∧ Standing E s task w H (hd :: below) es h₁ ∧
        l = calls es ++ l' ∧ Stuck E s task hd h₁ l' why h' := by
  have hopen : ∀ t h₁, E H .now t h₁ → Standing E s task w H
      [⟨s.governor.maxDepth.toNat, w, t, [], opening⟩] ([] ++ [.began w [⟨.now, t⟩]]) h₁ :=
    fun t h₁ ha => .start ha
  have hruns := runFor_stands _ hopen hr
  cases r with
  | ok o =>
    obtain ⟨hd, es, l₁, l₂, h₁, hs, rfl, hq, hcalls, rfl, hfinish⟩ := hruns
    obtain rfl : calls es = l₁ := hcalls
    exact .inl ⟨o, es, h₁, l₂, rfl, hs.finished hq hfinish, rfl⟩
  | error why =>
    obtain ⟨hd, below, es, l₁, l₂, h₁, hs, hcalls, rfl, hstuck⟩ := hruns
    obtain rfl : calls es = l₁ := hcalls
    exact .inr ⟨why, hd, below, es, l₂, h₁, rfl, hs, rfl, hstuck⟩

end WorkerGuard.Task
