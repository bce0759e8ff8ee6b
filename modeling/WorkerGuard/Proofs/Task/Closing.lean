import WorkerGuard.Proofs.Task.Agreement

/-!
# WorkerGuard.Proofs.Task.Closing

What a run leaves behind in a registry that can be reached.

* `Settled x o before after`: the record of `x` is closed in the way that its outcome `o` asks for, if
  it was open before; however that may be, it is no longer active.
* `Closes`, `Standing.closed`: each worker who has ended asked for its record to be closed, and has
  settled it if the registry could be reached. Nothing opens it again.
* `Accounted`: where a worker is who was granted: it waits to begin, or is at work, or has ended.
* `slots_freed`: after a run, neither its worker nor any helper is active, and nobody else is who was
  not before it.
-/

namespace WorkerGuard.Task

open Program Simulation

variable {s : Settings} {task : Task} {w : Worker}

def Outcome.isDegraded : Outcome → Bool
  | degraded .. => true
  | _ => false

structure Settled (x : Worker) (o : Outcome) (before after : Store) : Prop where
  inactive : ∃ r, after.record? x.id = some r ∧ r.isActive = false
  closed : ∀ r, before.record? x.id = some r → r.isActive = true →
    after.record? x.id = some (r.closed (Store.closedState o.isDegraded))

theorem Settled.answer {x : Worker} {o : Outcome} {before after : Store}
    (h : Settled x o before after) (q : Registry.Request) :
    Settled x o before (after.answer q).2 := by
  obtain ⟨r, hr, ha⟩ := h.inactive
  refine ⟨⟨r, Store.record_of_inactive hr ha q, ha⟩, fun r₀ hr₀ ha₀ => ?_⟩
  have hclosed := h.closed r₀ hr₀ ha₀
  exact Store.record_of_inactive hclosed
    (Record.isActive_closed (Store.closedState_ne_active _)) q

/-- The request that a worker makes first when it finishes. -/
theorem settled_of_close {x : Worker} (o : Outcome) {before : Store}
    (hx : before.Registered x.id) :
    Settled x o before (before.answer (Store.closing x.id o.isDegraded)).2 := by
  obtain ⟨r, hr⟩ := Store.registered_iff.1 hx
  by_cases ha : r.isActive = true
  · have hclosed := Store.record_of_close hr ha o.isDegraded
    refine ⟨⟨_, hclosed, Record.isActive_closed (Store.closedState_ne_active _)⟩, ?_⟩
    intro r₀ hr₀ _
    rw [hr] at hr₀
    cases hr₀
    exact hclosed
  · rw [Bool.not_eq_true] at ha
    refine ⟨⟨r, Store.record_of_inactive hr ha _, ha⟩, fun r₀ hr₀ ha₀ => ?_⟩
    rw [hr] at hr₀
    cases hr₀
    rw [ha] at ha₀
    cases ha₀

section Closings

variable {others outages : Registry.Request → Prop} {c : Course} {l : List Exchange}
variable {x : Worker} {o : Outcome}

/-- Ended with the outcome `o` by the exchanges `l`, the worker `x` asked first of all for its
record to be closed. Then it is settled, if the registry could be reached. -/
def Closes (outages : Registry.Request → Prop) (x : Worker) (o : Outcome) (l : List Exchange)
    (before after : Store) : Prop :=
  ∃ answer rest, l = ⟨.registry (Store.closing x.id o.isDegraded), answer⟩ :: rest ∧
    (Settled x o before after ∨
      (outages (Store.closing x.id o.isDegraded) ∧ ∃ why, answer = .error why))

theorem Closes.keep {before after after' : Store} {q : Call} {a : q.Answer}
    (hc : Closes outages x o l before after) (hq : Served others outages after q a after') :
    Closes outages x o l before after' := by
  obtain ⟨answer, rest, hl, hsettled⟩ := hc
  exact ⟨answer, rest, hl,
    hsettled.imp_left fun h => hq.keeps_of_answer (fun _ q hI => hI.answer q) h⟩

theorem closeRecord_eq (x : Worker) (degraded : Bool) :
    closeRecord x degraded =
      Program.call (.registry (Store.closing x.id degraded)) >>= fun _ => pure () := by
  cases degraded <;> rfl

theorem closes_of_closeRecord {β : Type} {f : Unit → Program β} {b : β} {h h' : Store}
    (hx : h.Registered x.id) (hr : Trail (Served others outages)
      (closeRecord x o.isDegraded >>= f) h l (.ok b) h') : Closes outages x o l h h' := by
  obtain ⟨_, h₁, l₁, l₂, rfl, hclose, hrest⟩ := trail_bind_ok hr
  rw [closeRecord_eq] at hclose
  obtain ⟨answer, h₂, l₃, rfl, ha, hdone⟩ := trail_call_bind hclose
  obtain ⟨rfl, _, rfl⟩ := trail_pure hdone
  have hkeep : ∀ h₁ q a h₂, Settled x o h h₁ → Served others outages h₁ q a h₂ →
      Settled x o h h₂ :=
    fun _ _ _ _ hs hq => hq.keeps_of_answer (fun _ q hI => hI.answer q) hs
  refine ⟨answer, l₂, rfl, ?_⟩
  obtain ⟨s₁, hs, helse⟩ | ⟨hout, hwhy, _⟩ := ha
  · have hsettled := settled_of_close o hx
    rw [hs] at hsettled
    exact .inl (hrest.preserves hkeep (helse.keeps (fun _ q _ hI => hI.answer q) hsettled))
  · exact .inr ⟨hout, hwhy⟩

theorem closes_of_finish {h h' : Store} (hc : Agrees c) (hq : c.queue = [])
    (hx : h.Registered x.id)
    (hr : Trail (Served others outages) (finish s x c) h l (.ok o) h') :
    Closes outages x o l h h' := by
  obtain hstate | ⟨reason, hstate⟩ | ⟨error, hstate⟩ := hc.terminal hq
  · obtain ⟨v, hv⟩ := Option.isSome_iff_exists.1 (hc.value hstate)
    simp only [finish, hstate, hv] at hr
    obtain ⟨_, _, _, _, _, _, hdone⟩ := trail_bind_ok hr
    cases (trail_pure hdone).2.1
    exact closes_of_closeRecord hx hr
  · simp only [finish, hstate] at hr
    obtain ⟨_, _, _, _, _, _, hrest⟩ := trail_bind_ok hr
    obtain ⟨alert, _, _, _, _, _, hdone⟩ := trail_bind_ok hrest
    cases (trail_pure hdone).2.1
    exact closes_of_closeRecord hx hr
  · simp only [finish, hstate] at hr
    obtain ⟨_, _, _, _, _, _, hdone⟩ := trail_bind_ok hr
    cases (trail_pure hdone).2.1
    exact closes_of_closeRecord hx hr

variable {σ : Type} {E : Environment σ} {store : σ → Store} {H h : σ} {stack : List Head}
variable {es : List (Entry σ)}

theorem Standing.registered
    (hE : ∀ h q a h', E h q a h' → Served others outages (store h) q a (store h'))
    (hw : (store H).Registered w.id) (hs : Standing E s task w H stack es h) :
    ∀ hd ∈ stack, (store h).Registered hd.worker.id := by
  have hkeep : ∀ x : Worker, ∀ h q a h', (store h).Registered x.id → E h q a h' →
      (store h').Registered x.id :=
    fun x h q a h' hx hq => (hE h q a h' hq).keeps_of_answer (fun _ q hI => hI.answer q) hx
  refine fun hd hmem => (hs.lineage hE (P := fun _ x h => (store h).Registered x.id)
    (Q := fun _ _ y h => (store h).Registered y.id) ?_ ?_ hw ?_ ?_ hd hmem).1
  · exact fun _ x => hkeep x
  · exact fun _ _ y => hkeep y
  · exact fun _ _ _ _ _ _ hgrant => hgrant.recorded.registered
  · exact fun _ _ _ _ hy => hy

theorem Standing.closed
    (hE : ∀ h q a h', E h q a h' → Served others outages (store h) q a (store h'))
    (hw : (store H).Registered w.id) (hs : Standing E s task w H stack es h) :
    ∀ x o before l, .ended x o before l ∈ es → Closes outages x o l (store before) (store h) := by
  have hkeep : ∀ {x o l before} h q a h', Closes outages x o l before (store h) → E h q a h' →
      Closes outages x o l before (store h') := fun h q a h' hc hq => hc.keep (hE h q a h' hq)
  induction hs with
  | start _ =>
    intro x o before l hmem
    cases List.mem_singleton.1 hmem
  | step _ _ _ hp ih =>
    intro x o before l hmem
    obtain hmem | hmem := List.mem_append.1 hmem
    · exact hp.preserves hkeep (ih x o before l hmem)
    · cases List.mem_singleton.1 hmem
  | helper _ _ _ ha ih =>
    intro x o before l hmem
    obtain hmem | hmem := List.mem_append.1 hmem
    · exact hkeep _ _ _ _ (ih x o before l hmem) ha
    · cases List.mem_singleton.1 hmem
  | back hs hq _ hp ih =>
    intro x o before l hmem
    obtain hmem | hmem := List.mem_append.1 hmem
    · exact hp.preserves hkeep (ih x o before l hmem)
    · simp only [List.mem_cons, List.not_mem_nil, or_false] at hmem
      obtain hmem | hmem := hmem
      · cases hmem
        exact closes_of_finish (hs.agrees _ (by simp)) hq (hs.registered hE hw _ (by simp))
          (hp.map hE)
      · cases hmem
  | finished hs hq hp ih =>
    intro x o before l hmem
    obtain hmem | hmem := List.mem_append.1 hmem
    · exact hp.preserves hkeep (ih x o before l hmem)
    · cases List.mem_singleton.1 hmem
      exact closes_of_finish (hs.agrees _ (by simp)) hq (hs.registered hE hw _ (by simp))
        (hp.map hE)

/-- A registry that can always be reached, while others use it too. -/
abbrev Reached (others : Registry.Request → Prop) : Environment Store :=
  Served others fun _ => False

theorem Standing.settled {H h : Store} {es : List (Entry Store)} (hw : H.Registered w.id)
    (hs : Standing (Reached others) s task w H stack es h) :
    ∀ x o before l, .ended x o before l ∈ es → Settled x o before h := by
  have hE : ∀ h q a h', Reached others h q a h' →
      Served others (fun _ => False) (id h) q a (id h') := fun _ _ _ _ hq => hq
  intro x o before l hmem
  obtain ⟨_, _, _, hsettled | ⟨hout, _⟩⟩ := hs.closed hE hw x o before l hmem
  · exact hsettled
  · exact hout.elim

end Closings

/-- Where a worker is, at a standing of the run that registered it. -/
inductive Accounted {σ : Type} (stack : List Head) (es : List (Entry σ)) (x : Worker) : Prop where
  | ended {o : Outcome} {before : σ} {l : List Exchange} (h : .ended x o before l ∈ es)
  | working {hd : Head} (h : hd ∈ stack) (hx : hd.worker = x)
  | waiting {hd : Head} {below : List Head} (hs : stack = hd :: below)
      (hx : hd.course.helper = some x) (hdue : hd.course.Due (.runHelper x.id))

theorem ActionStep.due_of_granted {limits : Limits} {c c' : Course} {a : Action} {id : WorkerId}
    (h : ActionStep limits c a (.spawnGranted id) c') : c'.Due (.runHelper id) := by
  cases h with
  | granted hdue => exact ⟨rfl, rfl⟩

section Accounts

variable {others outages : Registry.Request → Prop} {H h h' : Store} {x : Worker}
variable {stack : List Head} {es : List (Entry Store)}

theorem Standing.accounted (hs : Standing (Served others outages) s task w H stack es h) :
    ∀ x, x = w ∨ x ∈ granted (calls es) → Accounted stack es x := by
  induction hs with
  | start _ =>
    rintro x (rfl | hx)
    · exact .working (List.mem_singleton_self _) rfl
    · cases hx
  | @step hd below es h h' a queue e c l hs hq hx hp ih =>
    have hagrees := hs.agrees hd (List.mem_cons_self ..)
    have hstep := hagrees.step hq hx hp
    obtain ⟨hdue, hown⟩ := hagrees.due_of_queue hq hx
    have hold : ∀ x, x = w ∨ x ∈ granted (calls es) → Accounted (hd.stepped s a e c :: below)
        (es ++ [.did hd.worker hd.course.state a e l]) x := by
      intro x hx
      cases ih x hx with
      | ended h => exact .ended (List.mem_append_left _ h)
      | working hmem hworker =>
        obtain rfl | hmem := List.mem_cons.1 hmem
        · exact .working (List.mem_cons_self ..) hworker
        · exact .working (List.mem_cons_of_mem _ hmem) hworker
      | waiting hstack _ hdue' =>
        cases hstack
        exact absurd (eq_of_due hdue' hdue) (hown _)
    intro x hx
    simp only [calls_append, calls_cons, calls_nil, Entry.exchanges, List.append_nil,
      granted_append, List.mem_append] at hx
    obtain hx | hx | hx := hx
    · exact hold x (.inl hx)
    · exact hold x (.inr hx)
    · obtain ⟨hnone, _⟩ | ⟨y, kind, _, rfl, hhelper, hgranted, _⟩ := granted_perform hown hp
      · rw [hnone] at hx
        cases hx
      · rw [hgranted] at hx
        obtain rfl := List.mem_singleton.1 hx
        exact .waiting rfl hhelper hstep.due_of_granted
  | @helper hd below es h h' y queue n t hs hcalls hn ha ih =>
    intro x hx
    have hx : x = w ∨ x ∈ granted (calls es) := by
      simpa [Entry.exchanges, show granted [(⟨.now, t⟩ : Exchange)] = [] from rfl] using hx
    cases ih x hx with
    | ended h => exact .ended (List.mem_append_left _ h)
    | working hmem hworker => exact .working (List.mem_cons_of_mem _ hmem) hworker
    | waiting hstack hhelper _ =>
      cases hstack
      rw [hcalls.2] at hhelper
      cases hhelper
      exact .working (List.mem_cons_self ..) rfl
  | @back hd parent below es h h' queue o l hs hq hcalls hp ih =>
    intro x hx
    have hx : x = w ∨ x ∈ granted (calls es) := by
      simpa [Entry.exchanges, granted_finish hp] using hx
    cases ih x hx with
    | ended h => exact .ended (List.mem_append_left _ h)
    | working hmem hworker =>
      obtain rfl | hmem := List.mem_cons.1 hmem
      · rw [← hworker]
        exact .ended (List.mem_append_right _ (List.mem_cons_self ..))
      · obtain rfl | hmem := List.mem_cons.1 hmem
        · exact .working (List.mem_cons_self ..) hworker
        · exact .working (List.mem_cons_of_mem _ hmem) hworker
    | waiting hstack _ hdue =>
      cases hstack
      rw [hdue.1] at hq
      cases hq
  | @finished hd es h h' o l hs hq hp ih =>
    intro x hx
    have hx : x = w ∨ x ∈ granted (calls es) := by
      simpa [Entry.exchanges, granted_finish hp] using hx
    cases ih x hx with
    | ended h => exact .ended (List.mem_append_left _ h)
    | working hmem hworker =>
      obtain rfl := List.mem_singleton.1 hmem
      rw [← hworker]
      exact .ended (List.mem_append_right _ (List.mem_cons_self ..))
    | waiting hstack _ hdue =>
      cases hstack
      rw [hdue.1] at hq
      cases hq

end Accounts

section Counts

variable {others : Registry.Request → Prop} {H h h' : Store} {l : List Exchange}

theorem active_of_exchange (hothers : ∀ q, others q → ∀ x c, q ≠ .insert x c) {q : Call}
    {a : q.Answer} (hs : Reached others h q a h') {id : WorkerId} {r : Record}
    (hr : h'.record? id = some r) (ha : r.isActive = true) :
    h.record? id = some r ∨ ∃ x, Exchange.recruit? ⟨q, a⟩ = some x ∧ x.id = id := by
  have helsewhere : ∀ {s₁ : Store}, s₁.Elsewhere others h' → s₁.record? id = some r := by
    intro s₁ helse
    have hback : ∀ r, h'.record? id = some r → r.isActive = true → s₁.record? id = some r :=
      helse.keeps (I := fun s => ∀ r, s.record? id = some r → r.isActive = true →
        s₁.record? id = some r)
        (fun s q hq hI r hr ha => by
          obtain hr | ⟨x, c, heq, _⟩ := Store.active_of_answer hr ha
          · exact hI r hr ha
          · exact absurd heq (hothers q hq x c))
        (fun r hr _ => hr)
    exact hback r hr ha
  obtain ⟨s₁, rfl | ⟨q, rfl, rfl⟩, helse⟩ := hs.store_cases
  · exact .inl (helsewhere helse)
  · obtain hold | ⟨x, c, rfl, hid, hanswer⟩ := Store.active_of_answer (helsewhere helse) ha
    · exact .inl hold
    · obtain ⟨s₂, hs, _⟩ | ⟨hout, _⟩ := hs
      · rw [hs] at hanswer
        cases hanswer
        exact .inr ⟨x.enrolled, rfl, hid⟩
      · exact hout.elim

theorem active_of_trail (hothers : ∀ q, others q → ∀ x c, q ≠ .insert x c) {α : Type}
    {p : Program α} {r : Except Halt α} (hr : Trail (Reached others) p h l r h') {id : WorkerId}
    {rec : Record} (hrec : h'.record? id = some rec) (ha : rec.isActive = true) :
    h.record? id = some rec ∨ ∃ x ∈ granted l, x.id = id := by
  induction hr with
  | done => exact .inl hrec
  | halt => exact .inl hrec
  | ask hs _ ih =>
    obtain hold | ⟨x, hx, hid⟩ := ih hrec
    · obtain hold | ⟨x, hx, hid⟩ := active_of_exchange hothers hs hold ha
      · exact .inl hold
      · exact .inr ⟨x, List.mem_filterMap.2 ⟨_, List.mem_cons_self .., hx⟩, hid⟩
    · obtain ⟨e, he, hx⟩ := List.mem_filterMap.1 hx
      exact .inr ⟨x, List.mem_filterMap.2 ⟨e, List.mem_cons_of_mem _ he, hx⟩, hid⟩

end Counts

/-- When a run ends, so have the runs of all helpers that were granted in it; each of them left a record
that is not active, and one that its own outcome closed if it was active before. If nobody else
registered a worker, no role and no tree has more active workers than before the run. -/
theorem slots_freed (s : Settings) (task : Task) (w : Worker) (others : Registry.Request → Prop)
    {H h' : Store} {l : List Exchange} {o : Outcome} (hw : H.Registered w.id)
    (hr : Trail (Reached others) (run s task w) H l (.ok o) h') :
    (∃ es before l', l = calls (es ++ [.ended w o before l']) ∧
      Standing (Reached others) s task w H [] (es ++ [.ended w o before l']) h' ∧
      (∀ x, x = w ∨ x ∈ granted l →
        ∃ o' before' l'', .ended x o' before' l'' ∈ es ++ [.ended w o before l']) ∧
      ∀ x o' before' l'', .ended x o' before' l'' ∈ es ++ [.ended w o before l'] →
        Settled x o' before' h') ∧
    ((∀ q, others q → ∀ x c, q ≠ .insert x c) →
      (∀ role, h'.activeOfRole role ≤ H.activeOfRole role) ∧
        ∀ root, h'.activeInTree root ≤ H.activeInTree root) := by
  obtain ⟨o', es, before, l', hok, hs, rfl⟩ | ⟨why, _, _, _, _, _, hwhy, _⟩ := run_stands hr
  · cases hok
    have hl : calls es ++ l' = calls (es ++ [.ended w o before l']) := by simp [Entry.exchanges]
    have hended : ∀ x, x = w ∨ x ∈ granted (calls es ++ l') →
        ∃ o' before' l'', .ended x o' before' l'' ∈ es ++ [.ended w o before l'] := by
      intro x hx
      rw [hl] at hx
      cases hs.accounted x hx with
      | ended h => exact ⟨_, _, _, h⟩
      | working h _ => cases h
      | waiting h _ _ => cases h
    refine ⟨⟨es, before, l', hl, hs, hended, hs.settled hw⟩, fun hothers => ?_⟩
    -- Who is active in the end was so before, as all who were registered in between have ended.
    have hactive : ∀ id r, h'.record? id = some r → r.isActive = true → H.record? id = some r := by
      intro id r hrecord ha
      obtain hold | ⟨x, hx, rfl⟩ := active_of_trail hothers hr hrecord ha
      · exact hold
      · obtain ⟨o', before', l'', hmem⟩ := hended x (.inr hx)
        obtain ⟨r', hr', hinactive⟩ := (hs.settled hw _ _ _ _ hmem).inactive
        rw [hr'] at hrecord
        cases hrecord
        rw [ha] at hinactive
        cases hinactive
    exact ⟨fun role => Store.active_le hactive _, fun root => Store.active_le hactive _⟩
  · cases hwhy

/-- The worker and its helper have both left, and so their places are free. -/
theorem lone_freed : ∃ l o h', lonely.store.Registered lone.id ∧
    Trail (Reached fun _ => False) (run impatient ⟨"job", none⟩ lone) lonely.store l (.ok o) h' ∧
      (granted l).length = 1 ∧
      (∀ x, x = lone ∨ x ∈ granted l → ∃ o' before, Settled x o' before h') ∧
      h'.activeOfRole "helper" ≤ lonely.store.activeOfRole "helper" := by
  have hlone : lonely.store.Registered lone.id := rfl
  obtain ⟨l, o, h', hrun, hgranted⟩ := lone_runs (fun _ => False) fun _ => False
  obtain ⟨⟨es, before, l', _, _, hended, hsettled⟩, hcounts⟩ :=
    slots_freed impatient ⟨"job", none⟩ lone (fun _ => False) hlone hrun
  refine ⟨l, o, h', hlone, hrun, hgranted, fun x hx => ?_, (hcounts fun _ h => h.elim).1 "helper"⟩
  obtain ⟨o', before', l'', hmem⟩ := hended x hx
  exact ⟨o', before', hsettled x o' before' l'' hmem⟩

end WorkerGuard.Task
