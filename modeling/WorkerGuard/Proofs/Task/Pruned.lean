import WorkerGuard.Proofs.Registry.Life
import WorkerGuard.Proofs.Task.Generations
import WorkerGuard.Proofs.Task.Judged
import WorkerGuard.Proofs.Task.LeftOut
import WorkerGuard.Proofs.Task.Marked

/-!
# WorkerGuard.Proofs.Task.Pruned

What a worker still does whose record was closed while it was at work.

* `Store.Closed id v`: the registry, in memory, has the record `v` for the worker `id`, and it is
  closed. No request changes this record.
* `closed_runRound`, `closed_requestHelper`: a round of such a worker ends with its heartbeat, and
  it gets no helper.
* `CutShort`: such a round, and the end of its worker after it.
* `Ceases id l₁ l₂ es`: what an account says of a worker whose record was closed after the exchanges
  `l₁`, before the exchanges `l₂`.
* `closed_worker_does_no_more`: it is so for any point at which a record is closed, in any run.
-/

namespace WorkerGuard

open Program Registry Simulation

namespace Simulation.Store

def Closed (id : WorkerId) (v : Worker) : Store → Prop
  | memory m => m.workers.find? id.text = some v ∧ v.isActive = false
  | database _ => False

instance (id : WorkerId) (v : Worker) : (s : Store) → Decidable (s.Closed id v)
  | memory m => inferInstanceAs (Decidable (m.workers.find? id.text = some v ∧ v.isActive = false))
  | database _ => inferInstanceAs (Decidable False)

variable {id : WorkerId} {v : Worker} {s : Store}

theorem Closed.inactive (h : s.Closed id v) : v.isActive = false := by
  cases s with
  | database db => exact h.elim
  | memory m => exact h.2

theorem not_grants_of_closed {m : Memory} (h : (memory m).Closed id v) {q : Registry.Request}
    (hq : q.target? = some id) : m.grants q = false := by
  cases hgrants : m.grants q with
  | false => rfl
  | true =>
    obtain ⟨w, hw, hstate⟩ := Memory.active_of_grants hq hgrants
    obtain ⟨hv, hclosed⟩ := h
    rw [hv] at hw
    cases hw
    rw [Worker.isActive, hstate] at hclosed
    cases hclosed

theorem Closed.answer (h : s.Closed id v) (q : Registry.Request) : (s.answer q).2.Closed id v := by
  cases s with
  | database db => exact h.elim
  | memory m =>
    refine ⟨?_, h.2⟩
    have hspared : ¬(q.target? = some id ∧ m.grants q = true) := by
      rintro ⟨htarget, hgrants⟩
      rw [not_grants_of_closed h htarget] at hgrants
      cases hgrants
    have hsame := Memory.find?_answer h.1 q
    rw [if_neg hspared] at hsame
    exact hsame

theorem Closed.answer_heartbeat (h : s.Closed id v) (t : Instant) :
    (s.answer (.heartbeat id t)).1 = .ok false := by
  cases s with
  | database db => exact h.elim
  | memory m => exact congrArg Except.ok (not_grants_of_closed h (q := .heartbeat id t) rfl)

theorem Closed.answer_get (h : s.Closed id v) : (s.answer (.get id)).1 = .ok (some v) := by
  cases s with
  | database db => exact h.elim
  | memory m => exact congrArg Except.ok h.1

end Simulation.Store

namespace Task

variable {σ : Type} {E : Environment σ} {store : σ → Store} {others : Registry.Request → Prop}
variable {s : Settings} {task : Task} {w x : Worker} {id : WorkerId} {v : Worker}
variable {H h h' : σ} {l : List Exchange}

section Actions

variable (store)
variable (hE : ∀ h q a h', E h q a h' → Reached others (store h) q a (store h'))
include hE

theorem closed_keep (h : σ) (q : Call) (a : q.Answer) (h' : σ) (hc : (store h).Closed id v)
    (ha : E h q a h') : (store h').Closed id v :=
  (hE _ _ _ _ ha).keeps_of_answer (fun _ r hc => hc.answer r) hc

theorem answer_of_reached {q : Registry.Request} {a : Except Registry.Error q.Answer}
    (ha : E h (.registry q) a h') : a = ((store h).answer q).1 := by
  obtain ⟨s₁, hs, _⟩ | ⟨hout, _⟩ := hE _ _ _ _ ha
  · rw [hs]
  · exact hout.elim

theorem closed_isAlive (hw : w.id = id)
    (hc : ∀ t h₁, E h .now t h₁ → (store h₁).Closed id v) {r : Except Halt Bool}
    (hr : Trail E (isAlive w) h l r h') :
    r = .ok false ∧ ∃ t, l = [⟨.now, t⟩, ⟨.registry (.heartbeat id t), .ok false⟩] := by
  subst hw
  obtain ⟨a, h₂, l₂, l₃, rfl, hbeat, hrest⟩ | ⟨why, _, hbeat⟩ := trail_bind hr
  · obtain ⟨t, h₁, l₁, rfl, hnow, hbeat⟩ := trail_call_bind hbeat
    obtain ⟨answer, rfl, heq, hbeat⟩ := trail_call hbeat
    cases heq
    have hanswer := answer_of_reached store hE hbeat
    rw [(hc t h₁ hnow).answer_heartbeat] at hanswer
    subst hanswer
    obtain ⟨rfl, rfl, _⟩ := trail_pure hrest
    exact ⟨rfl, t, rfl⟩
  · obtain ⟨t, h₁, l₁, _, _, hbeat⟩ := trail_call_bind hbeat
    obtain ⟨answer, _, heq, _⟩ := trail_call hbeat
    cases heq

/-- The heartbeat finds the record closed, and no call to the dependency is made. -/
theorem closed_runRound (hw : w.id = id)
    (hc : ∀ t h₁, E h .now t h₁ → (store h₁).Closed id v) {started : Instant}
    {round : UInt32} {c : Course} {r : Except Halt (Event × Course)}
    (hr : Trail E (runRound s w started round c) h l r h') :
    r = .ok (.terminated, c) ∧
      ∃ t, l = [⟨.now, t⟩, ⟨.registry (.heartbeat id t), .ok false⟩] := by
  obtain ⟨alive, h₁, l₁, l₂, rfl, halive, hr⟩ | ⟨why, _, halive⟩ := trail_bind hr
  · obtain ⟨hfalse, t, rfl⟩ := closed_isAlive store hE hw hc halive
    cases hfalse
    obtain ⟨rfl, rfl, _⟩ := trail_pure hr
    exact ⟨rfl, t, rfl⟩
  · cases (closed_isAlive store hE hw hc halive).1

theorem closed_place (hc : (store h).Closed id v) (new : WorkerId)
    {r : Except Halt (Except Registry.Error (Except Spawn.Refusal Spawn.Place))}
    (hr : Trail E (Spawn.place new (some id)) h l r h') :
    r = .ok (.ok (.error (.parentInactive id))) := by
  obtain ⟨found, h₁, l₁, rfl, hget, hr⟩ := trail_call_bind hr
  have hfound := answer_of_reached store hE hget
  rw [hc.answer_get] at hfound
  subst hfound
  simp only [hc.inactive, Bool.not_false, if_true] at hr
  exact (trail_pure hr).2.1

theorem closed_request (hc : (store h).Closed id v) {role : String} {d : Dependency}
    {r : Except Halt (Except Registry.Error Spawn.Decision)}
    (hr : Trail E (Spawn.request s ⟨role, some id, d⟩) h l r h') :
    ∃ why, r = .ok (.ok (.refused why)) := by
  unfold Spawn.request at hr
  split at hr
  · exact ⟨_, (trail_pure hr).2.1⟩
  · obtain ⟨circuit, h₁, l₁, l₂, rfl, hstate, hr⟩ | ⟨why, _, hstate⟩ := trail_bind hr
    · have hc₁ := hstate.preserves (closed_keep store hE) hc
      split at hr
      · exact ⟨_, (trail_pure hr).2.1⟩
      · obtain ⟨new, h₂, l₃, rfl, hnew, hr⟩ := trail_call_bind hr
        have hc₂ := closed_keep store hE _ _ _ _ hc₁ hnew
        obtain ⟨found, h₃, l₄, l₅, rfl, hfound, hr⟩ | ⟨why, _, hfound⟩ := trail_bind hr
        · cases closed_place store hE hc₂ new hfound
          exact ⟨_, (trail_pure hr).2.1⟩
        · cases closed_place store hE hc₂ new hfound
    · obtain ⟨_, hok⟩ := hstate.ok_of_total (Breaker.Board.total_state _ _)
      cases hok

theorem closed_requestHelper (hw : w.id = id) (hc : (store h).Closed id v) {c : Course}
    {r : Except Halt (Event × Course)} (hr : Trail E (requestHelper s w c) h l r h') :
    granted l = [] ∧ ∃ why, r = .ok (.spawnRefused why, c) := by
  subst hw
  obtain ⟨a, h₁, l₁, l₂, rfl, hask, hr⟩ | ⟨why, _, hask⟩ := trail_bind hr
  · obtain ⟨why, hrefused⟩ := closed_request store hE hc hask
    cases hrefused
    obtain ⟨rfl, rfl, _⟩ := trail_pure hr
    rw [List.append_nil, Spawn.granted_request hask]
    exact ⟨rfl, why.message, rfl⟩
  · obtain ⟨_, hrefused⟩ := closed_request store hE hc hask
    cases hrefused

end Actions

theorem ActionStep.of_terminated {limits : Limits} {c c' : Course} {a : Action}
    (h : ActionStep limits c a .terminated c') :
    c'.queue = [] ∧ c'.state = .failed prunedMessage := by
  generalize he : Event.terminated = e at h
  cases h with
  | pruned => exact ⟨rfl, rfl⟩
  | _ => cases he

theorem returns_finish_of_failed {c : Course} {error : String} (hc : c.state = .failed error) :
    (finish s w c).Returns fun o => o = .failed error := by
  unfold finish
  rw [hc]
  exact returns_of_next fun _ => returns_pure rfl

/-- The next entry is the end of `x`, as failed. It ends the run, or the parent of `x` learns of
it. -/
def Fails (x : Worker) (error : String) (es : List (Entry σ)) : Prop :=
  ∃ before l es₁, es = .ended x (.failed error) before l :: es₁ ∧
    (es₁ = [] ∨ ∃ parent st es₂, es₁ =
      .did parent st (.runHelper x.id) (Outcome.failed error).event [] :: es₂)

theorem Leads.of_failed {hd : Head} {below stack : List Head} {es : List (Entry σ)}
    {error : String} (hq : hd.course.queue = []) (hc : hd.course.state = .failed error)
    (hl : Leads E s task (hd :: below) h es stack h') :
    stack = hd :: below ∨ Fails hd.worker error es := by
  cases hl with
  | refl => exact .inl rfl
  | step hadv hrest =>
    right
    cases hadv with
    | step hacts =>
      obtain ⟨queue, hqueue, _⟩ := hacts
      rw [hq] at hqueue
      cases hqueue
    | helper hx =>
      rw [hx.1] at hq
      cases hq
    | back _ _ hp =>
      obtain rfl := hp.returns (returns_finish_of_failed hc) rfl
      exact ⟨_, _, _, rfl, .inr ⟨_, _, _, rfl⟩⟩
    | finished _ hp =>
      obtain rfl := hp.returns (returns_finish_of_failed hc) rfl
      exact ⟨_, _, _, rfl, .inl hrest.of_nil.1⟩

theorem Fails.map {τ : Type} {error : String} {es : List (Entry σ)} (hfails : Fails x error es)
    (f : σ → τ) : Fails x error (es.map (Entry.map f)) := by
  obtain ⟨before, l, es₁, rfl, rfl | ⟨parent, st, es₂, rfl⟩⟩ := hfails
  · exact ⟨f before, l, [], rfl, .inl rfl⟩
  · exact ⟨f before, l, _, rfl, .inr ⟨parent, st, es₂.map (Entry.map f), rfl⟩⟩

/-- A round that ends with its heartbeat, and its worker with it. -/
structure CutShort {σ : Type} (id : WorkerId) (x : Worker) (e : Event) (l : List Exchange)
    (later : List (Entry σ)) : Prop where
  event : e = .terminated
  heartbeat : ∃ t, l = [⟨.now, t⟩, ⟨.registry (.heartbeat id t), .ok false⟩]
  fails : Fails x prunedMessage later

/-- After `n` exchanges of the account a request of the worker for a helper is under way. -/
def Asking (id : WorkerId) (es : List (Entry σ)) (n : Nat) : Prop :=
  ∃ es₁ x st kind e l es₂, es = es₁ ++ .did x st (.requestSpawn kind) e l :: es₂ ∧ x.id = id ∧
    (calls es₁).length < n ∧ n < (calls es₁).length + l.length

/-- After the exchanges `l₁` the worker begins no round that comes to more than its heartbeat, and
in `l₂` nobody becomes its helper but whom it was just asking for. -/
structure Ceases {σ : Type} (id : WorkerId) (l₁ l₂ : List Exchange) (es : List (Entry σ)) :
    Prop where
  rounds : ∀ es₁ x st round e l es₂, es = es₁ ++ .did x st (.runRound round) e l :: es₂ →
    x.id = id → l₁.length ≤ (calls es₁).length + 1 → CutShort id x e l es₂
  helpers : ¬Asking id es l₁.length → ∀ k ∈ granted l₂, k.parent ≠ some id

theorem CutShort.map {τ : Type} {e : Event} {later : List (Entry σ)}
    (hcut : CutShort id x e l later) (f : σ → τ) : CutShort id x e l (later.map (Entry.map f)) where
  event := hcut.event
  heartbeat := hcut.heartbeat
  fails := hcut.fails.map f

theorem Stuck.queue_ne_nil {hd : Head} {below : List Head} {es : List (Entry σ)} {why : Halt}
    (hstuck : Stuck E s task hd h l why h') (hs : Standing E s task w H (hd :: below) es h) :
    hd.course.queue ≠ [] := fun hq => Head.Yields.not_stuck (.inr hq) hs hstuck

theorem Stuck.granted {hd : Head} {below : List Head} {es : List (Entry σ)} {why : Halt}
    (hstuck : Stuck E s task hd h l why h') (hs : Standing E s task w H (hd :: below) es h) :
    granted l = [] := by
  cases hstuck with
  | steps _ => rfl
  | generations _ _ => rfl
  | action hq hx hp =>
    have hown := ((hs.agrees hd (List.mem_cons_self ..)).due_of_queue hq hx).2
    exact granted_of_halt hown hp

/-- The entry in which a helper was granted. -/
theorem Standing.request_of_granted {outages : Registry.Request → Prop}
    (hE : ∀ h q a h', E h q a h' → Served others outages (store h) q a (store h'))
    {stack : List Head} {es : List (Entry σ)} (hs : Standing E s task w H stack es h)
    {entry : Entry σ} (hentry : entry ∈ es) {k : Worker} (hk : k ∈ granted entry.exchanges) :
    ∃ x st kind e l, entry = .did x st (.requestSpawn kind) e l ∧ k.parent = some x.id := by
  cases hs.origin entry hentry with
  | began => cases hk
  | rejoined => cases hk
  | ended hp =>
    rw [Entry.exchanges, granted_finish hp] at hk
    cases hk
  | did ha hp =>
    obtain ⟨hnone, _⟩ | ⟨_, kind, rfl, _⟩ := granted_perform ha (hp.map hE)
    · rw [Entry.exchanges, hnone] at hk
      cases hk
    · exact ⟨_, _, kind, _, _, rfl, parent_of_perform (hp.map hE) k hk⟩

section Runs

variable {n : Nat} {z z' : Store × Nat} {stack : List Head} {es : List (Entry (Store × Nat))}
variable {H h₁ h' : Store} {l₁ l₂ l₃ : List Exchange} {y : Program Outcome}
variable {r : Except Halt Outcome}

section Marked

variable (hs : Standing (Marked (Reached others) (Store.Closed id v) n) s task w (H, 0) stack es z)
include hs

theorem Standing.cutShort (hstack : ∀ hd below, stack = hd :: below → hd.course.queue ≠ [])
    {es₁ es₂ : List (Entry (Store × Nat))} {st : State} {round : UInt32} {e : Event}
    {l : List Exchange} (hes : es = es₁ ++ .did x st (.runRound round) e l :: es₂)
    (hid : x.id = id) (hle : n ≤ (calls es₁).length + 1) : CutShort id x e l es₂ := by
  subst hes
  obtain ⟨hd, below, c, z₁, z₂, rfl, rfl, hbefore, ⟨queue, hq, hx, hp⟩, hafter⟩ :=
    hs.at_action (isOwn_runRound round)
  have hstep := (hbefore.agrees hd (List.mem_cons_self ..)).step hq hx hp
  obtain ⟨heq, hl⟩ := closed_runRound Prod.fst Marked.plain hid
    (fun _ _ ha => hbefore.holds_next hle ha) hp
  cases heq
  obtain ⟨hqueue, hstate⟩ := hstep.of_terminated
  refine ⟨rfl, hl, ?_⟩
  obtain hsame | hfails := hafter.of_failed hqueue hstate
  · exact absurd hqueue (hstack _ _ hsame)
  · exact hfails

theorem Standing.refused (hzero : n = 0 → H.Closed id v) {es₁ es₂ : List (Entry (Store × Nat))}
    {st : State} {kind : Failure.RetryableKind} {e : Event} {l : List Exchange}
    (hes : es = es₁ ++ .did x st (.requestSpawn kind) e l :: es₂) (hid : x.id = id)
    (hle : n ≤ (calls es₁).length) : granted l = [] := by
  subst hes
  obtain ⟨hd, below, c, z₁, z₂, rfl, rfl, hbefore, ⟨queue, hq, hx, hp⟩, hafter⟩ :=
    hs.at_action (by simp)
  exact (closed_requestHelper Prod.fst Marked.plain hid (hbefore.holds hle hzero) hp).1

theorem Standing.ceases (hn : n = l₁.length) (hzero : n = 0 → H.Closed id v)
    (hstack : ∀ hd below, stack = hd :: below → hd.course.queue ≠ [])
    (hl : calls es ++ l₃ = l₁ ++ l₂) (hl₃ : granted l₃ = []) :
    Ceases id l₁ l₂ (es.map (Entry.map Prod.fst)) where
  rounds es₁ x st round e l es₂ hes hid hle := by
    obtain ⟨es₃, es₄, hmarked, rfl, rfl⟩ := exists_of_map hes
    rw [calls_map, ← hn] at hle
    exact (hs.cutShort hstack hmarked hid hle).map Prod.fst
  helpers hasking k hk hparent := by
    obtain ⟨q, hq, hrecruit⟩ := List.mem_filterMap.1 hk
    obtain ⟨l₄, l₅, rfl⟩ := List.append_of_mem hq
    rw [← List.append_assoc] at hl
    obtain ⟨l₆, hes, _⟩ | ⟨l₆, _, rfl⟩ := append_eq_append_cons hl
    · obtain ⟨es₁, entry, es₂, la, lb, rfl, hentry, hbefore, _⟩ := exists_entry hes
      have hk : k ∈ granted entry.exchanges := by
        rw [hentry]
        exact List.mem_filterMap.2 ⟨q, by simp, hrecruit⟩
      obtain ⟨x, st, kind, e, l, rfl, hx⟩ := hs.request_of_granted Marked.plain (by simp) hk
      have hid : x.id = id := Option.some.inj (hx.symm.trans hparent)
      refine hasking ⟨es₁.map (Entry.map Prod.fst), x, st, kind, e, l,
        es₂.map (Entry.map Prod.fst), by simp [Entry.map], hid, ?_⟩
      rw [calls_map, ← hn]
      constructor
      · by_contra hle
        rw [Entry.exchanges, hs.refused hzero rfl hid (Nat.le_of_not_lt hle)] at hk
        cases hk
      · obtain rfl : l = la ++ q :: lb := hentry
        have hlength := congrArg List.length hbefore
        simp only [List.length_append, List.length_cons] at hlength ⊢
        omega
    · have hk : k ∈ granted (l₆ ++ q :: l₅) := List.mem_filterMap.2 ⟨q, by simp, hrecruit⟩
      rw [hl₃] at hk
      cases hk

/-- Nor does the run end within such a round. -/
theorem Stuck.not_round {hd : Head} {below : List Head} {why : Halt} {l : List Exchange}
    (hstuck : Stuck (Marked (Reached others) (Store.Closed id v) n) s task hd z l why z')
    (hstack : stack = hd :: below) (hid : hd.worker.id = id) (hle : n ≤ (calls es).length + 1)
    (round : UInt32) : ¬hd.course.Due (.runRound round) := by
  subst hstack
  intro hdue
  have hp := hstuck.of_due hs hdue (isOwn_runRound round)
  cases (closed_runRound Prod.fst Marked.plain hid (fun _ _ ha => hs.holds_next hle ha) hp).1

end Marked

/-- Whatever the point at which the record of a worker is closed. The worker begins no more rounds,
unless its heartbeat for one was on its way, and if it was to begin one it has failed as pruned. It
gets no helper, unless it was asking for one. Its record stays as it was closed. -/
theorem closed_worker_does_no_more (s : Settings) (task : Task) (w : Worker)
    (others : Registry.Request → Prop) (id : WorkerId) (v : Worker)
    (hto : Passage (Reached others) (run s task w) H l₁ y h₁) (hc : h₁.Closed id v)
    (hon : Trail (Reached others) y h₁ l₂ r h') :
    h'.Closed id v ∧ ∃ stack es l₃ h₂, Standing (Reached others) s task w H stack es h₂ ∧
      calls es ++ l₃ = l₁ ++ l₂ ∧ Ceases id l₁ l₂ es ∧
      (∀ o, r = .ok o → stack = [] ∧ l₃ = [] ∧ h₂ = h' ∧
        ∃ es₁ before l, es = es₁ ++ [.ended w o before l]) ∧
      ∀ why, r = .error why → ∃ hd below, stack = hd :: below ∧
        Stuck (Reached others) s task hd h₂ l₃ why h' ∧
        (hd.worker.id = id → l₁.length ≤ (calls es).length + 1 →
          ∀ round, ¬hd.course.Due (.runRound round)) := by
  have hkeep : ∀ h q a h', h.Closed id v → Reached others h q a h' → h'.Closed id v :=
    closed_keep (fun h => h) fun _ _ _ _ ha => ha
  have hzero : l₁.length = 0 → H.Closed id v := by
    intro hlength
    obtain rfl := List.eq_nil_of_length_eq_zero hlength
    rwa [← hto.of_nil.2]
  have hplain : ∀ z q a z', Marked (Reached others) (Store.Closed id v) l₁.length z q a z' →
      Reached others z.1 q a z'.1 := Marked.plain
  refine ⟨hon.preserves hkeep hc, ?_⟩
  obtain ⟨o, es, before, l, rfl, hs, hl⟩ | ⟨why, hd, below, es, l, z, rfl, hs, hl, hstuck⟩ :=
    run_stands (run_marked hkeep hto hc hon)
  · have hcalls : calls (es ++ [.ended w o before l]) ++ [] = l₁ ++ l₂ := by
      simp [Entry.exchanges, hl]
    have hstack : ∀ hd below, ([] : List Head) = hd :: below → hd.course.queue ≠ [] := by simp
    refine ⟨[], _, [], _, hs.map (f := Prod.fst) hplain, by rwa [calls_map],
      hs.ceases rfl hzero hstack hcalls rfl, ?_, ?_⟩
    · rintro o ⟨⟩
      exact ⟨rfl, rfl, rfl, _, _, _, List.map_append⟩
    · rintro why ⟨⟩
  · have hstack : ∀ hd' below', hd :: below = hd' :: below' → hd'.course.queue ≠ [] := by
      rintro _ _ ⟨⟩
      exact hstuck.queue_ne_nil hs
    refine ⟨_, _, l, _, hs.map (f := Prod.fst) hplain, by rw [calls_map, hl],
      hs.ceases rfl hzero hstack hl.symm (hstuck.granted hs), ?_, ?_⟩
    · rintro o ⟨⟩
    · rintro why ⟨⟩
      refine ⟨hd, below, rfl, hstuck.map (f := Prod.fst) hplain, fun hid hle round => ?_⟩
      rw [calls_map] at hle
      exact hstuck.not_round hs rfl hid hle round

/-- A registry in which the worker `w-1` is terminated whenever an attempt has been made. -/
def servePruned (s : Store) : (q : Call) → q.Answer × Store
  | .attempt d bound => ((serve (Call.calm .epoch ⟨"w-2"⟩) s (.attempt d bound)).1,
      (s.answer (.terminate ⟨"w-1"⟩)).2)
  | q => serve (Call.calm .epoch ⟨"w-2"⟩) s q

theorem reached_servePruned (s : Store) (q : Call) :
    Reached (fun r => r = .terminate ⟨"w-1"⟩) s q (servePruned s q).1 (servePruned s q).2 := by
  cases q with
  | attempt d bound => exact ⟨[.terminate ⟨"w-1"⟩], by simp, rfl⟩
  | _ => exact served_serve (Call.calm .epoch ⟨"w-2"⟩) s _

def error? : Except Halt Outcome → Option String
  | .ok (.failed m) => some m
  | _ => none

theorem eq_of_error? {m : String} (h : error? r = some m) : r = .ok (.failed m) := by
  cases r with
  | error why => cases h
  | ok o =>
    cases o with
    | failed m' =>
      cases h
      rfl
    | completed _ => cases h
    | degraded _ _ => cases h

/-- The record is closed in the first attempt of the first round. This round goes on to its last
attempt, the second one ends with its heartbeat. -/
theorem lone_pruned : ∃ l₁ y h₁ l₂ h',
    Passage (Reached fun r => r = .terminate ⟨"w-1"⟩) (run choosy ⟨"job", none⟩ lone) lonely.store
      l₁ y h₁ ∧ h₁.Closed ⟨"w-1"⟩ { lone with state := .terminated } ∧
    Trail (Reached fun r => r = .terminate ⟨"w-1"⟩) y h₁ l₂ (.ok (.failed prunedMessage)) h' ∧
    h'.Closed ⟨"w-1"⟩ { lone with state := .terminated } ∧
    ∃ es, calls es = l₁ ++ l₂ ∧ Ceases ⟨"w-1"⟩ l₁ l₂ es ∧
      Standing (Reached fun r => r = .terminate ⟨"w-1"⟩) choosy ⟨"job", none⟩ lone lonely.store
        [] es h' := by
  have hto := passage_pass reached_servePruned 9 (run choosy ⟨"job", none⟩ lone) lonely.store
  have hends : (fun p : List Exchange × Program Outcome × Store =>
      p.2.2.Closed ⟨"w-1"⟩ { lone with state := .terminated } ∧
        error? (p.2.1.follow servePruned p.2.2).2.1 = some prunedMessage)
      (pass servePruned 9 (run choosy ⟨"job", none⟩ lone) lonely.store) := by decide +kernel
  generalize pass servePruned 9 (run choosy ⟨"job", none⟩ lone) lonely.store = p at hto hends
  obtain ⟨l₁, y, h₁⟩ := p
  obtain ⟨hc, hfailed⟩ := hends
  have hon := trail_follow reached_servePruned y h₁
  rw [eq_of_error? hfailed] at hon
  obtain ⟨hclosed, stack, es, l₃, h₂, hs, hl, hceases, hok, _⟩ :=
    closed_worker_does_no_more choosy ⟨"job", none⟩ lone (fun r => r = .terminate ⟨"w-1"⟩) ⟨"w-1"⟩
      { lone with state := .terminated } hto hc hon
  obtain ⟨rfl, rfl, rfl, _⟩ := hok _ rfl
  rw [List.append_nil] at hl
  exact ⟨l₁, y, h₁, _, _, hto, hc, hon, hclosed, es, hl, hceases, hs⟩

end Runs
end Task
end WorkerGuard
