import WorkerGuard.Proofs.Task.Budget
import WorkerGuard.Proofs.Task.Onward

/-!
# WorkerGuard.Proofs.Task.Yields

A worker that gives its task up, or has come to its end, leaves nothing else to do.

* `Head.Yields`: the worker has nothing left but to write down that it gives up, if that.
* `Advance.yields`: one step from there makes no call to a dependency and asks for no helper, and
  the innermost worker after it yields, too.
* `Leads.yields`: so does any number of steps, by induction.
* `Head.Yields.not_stuck`: no run halts there.
-/

namespace WorkerGuard.Task

open Program

variable {σ : Type} {E : Environment σ} {s : Settings} {task : Task} {w : Worker} {H h h' : σ}
variable {hd : Head} {stack stack' below : List Head} {es : List (Entry σ)} {l : List Exchange}

def Head.Yields (hd : Head) : Prop :=
  (∃ reason, hd.course.Due (.writeDegrade reason)) ∨ hd.course.queue = []

namespace Head.Yields

theorem next {a : Action} {queue : List Action} (hy : hd.Yields)
    (hq : hd.course.queue = a :: queue) :
    ∃ reason, a = .writeDegrade reason ∧ hd.course.Due (.writeDegrade reason) := by
  obtain ⟨reason, hdue⟩ | hnil := hy
  · have hsame := hdue.1
    rw [hq] at hsame
    cases hsame
    exact ⟨reason, rfl, hdue⟩
  · rw [hnil] at hq
    cases hq

theorem not_calls {x : Worker} {queue : List Action} (hy : hd.Yields) : ¬hd.Calls x queue := by
  intro hx
  obtain ⟨reason, hwrite, _⟩ := hy.next hx.1
  cases hwrite

theorem not_due {round : UInt32} (hy : hd.Yields) : ¬hd.course.Due (.runRound round) := by
  intro hdue
  obtain ⟨reason, hwrite, _⟩ := hy.next hdue.1
  cases hwrite

theorem not_stuck {why : Halt} (hy : hd.Yields) (hs : Standing E s task w H (hd :: below) es h) :
    ¬Stuck E s task hd h l why h' := by
  intro hstuck
  cases hstuck with
  | steps hpast =>
    have hlt := hs.past_lt hd (List.mem_cons_self ..)
    omega
  | generations hx hn => exact hy.not_calls hx
  | action hq hx hp =>
    obtain ⟨reason, rfl, _⟩ := hy.next hq
    obtain ⟨_, hok⟩ := hp.ok_of_total (total_perform_writeDegrade reason _)
    cases hok

end Head.Yields

/-- A worker whose helper came back has a value, or has to give up. -/
theorem yields_rejoined {x : Worker} {queue : List Action} (hc : Agrees hd.course)
    (hx : hd.Calls x queue) (o : Outcome) : (hd.rejoined s x o queue).Yields := by
  have hstep := hc.rejoin (s := s) hx o
  unfold Head.Yields
  generalize (hd.rejoined s x o queue).course = c at hstep
  generalize ha : Action.runHelper x.id = a at hstep
  generalize o.event = e at hstep
  cases hstep with
  | helped => exact .inr rfl
  | unhelped => exact .inl ⟨_, rfl, rfl⟩
  | _ => cases ha

theorem Advance.agrees (hadv : Advance E s task stack h es stack' h')
    (hc : ∀ hd ∈ stack, Agrees hd.course) : ∀ hd ∈ stack', Agrees hd.course := by
  cases hadv with
  | step ha =>
    obtain ⟨queue, hq, hx, hp⟩ := ha
    obtain ⟨hhead, hbelow⟩ := List.forall_mem_cons.1 hc
    exact List.forall_mem_cons.2 ⟨(hhead.step hq hx hp).agrees, hbelow⟩
  | helper hx hn ht => exact List.forall_mem_cons.2 ⟨agrees_opening, hc⟩
  | back hq hx hp =>
    obtain ⟨_, hparent, hbelow⟩ := (List.forall_mem_cons.1 hc).imp_right List.forall_mem_cons.1
    exact List.forall_mem_cons.2 ⟨(hparent.rejoin hx _).agrees, hbelow⟩
  | finished hq hp => exact List.forall_mem_nil _

theorem Advance.yields (hadv : Advance E s task stack h es stack' h')
    (hc : ∀ hd ∈ stack, Agrees hd.course) (hy : ∀ hd ∈ stack.head?, hd.Yields) :
    (∀ q ∈ calls es, q.call.OfRecord) ∧ (∀ e ∈ es, e.isRequest = false) ∧
      ∀ hd ∈ stack'.head?, hd.Yields := by
  cases hadv with
  | @step hd below h h' a e c l ha =>
    obtain ⟨queue, hq, hx, hp⟩ := ha
    obtain ⟨reason, rfl, hdue⟩ := (hy hd rfl).next hq
    have hstep := (hc hd (List.mem_cons_self ..)).step hq hx hp
    have hends : (hd.stepped s (.writeDegrade reason) e c).Yields := by
      refine .inr ?_
      generalize (hd.stepped s (.writeDegrade reason) e c).course = c' at hstep
      cases hstep <;> rfl
    refine ⟨?_, by simp [Entry.isRequest], by simpa using hends⟩
    simpa [Entry.exchanges] using hp.asks (asks_perform_writeDegrade reason _)
  | helper hx hn ht => exact absurd hx (hy _ rfl).not_calls
  | back hq hx hp =>
    have hparent := hc _ (List.mem_cons_of_mem _ (List.mem_cons_self ..))
    refine ⟨?_, by simp [Entry.isRequest], by simpa using yields_rejoined hparent hx _⟩
    simpa [Entry.exchanges] using hp.asks (asks_finish s _ _)
  | finished hq hp =>
    refine ⟨?_, by simp [Entry.isRequest], by simp⟩
    simpa [Entry.exchanges] using hp.asks (asks_finish s _ _)

theorem Leads.yields (hl : Leads E s task stack h es stack' h')
    (hc : ∀ hd ∈ stack, Agrees hd.course) (hy : ∀ hd ∈ stack.head?, hd.Yields) :
    (∀ q ∈ calls es, q.call.OfRecord) ∧ (∀ e ∈ es, e.isRequest = false) ∧
      ∀ hd ∈ stack'.head?, hd.Yields := by
  induction hl with
  | refl => exact ⟨List.forall_mem_nil _, List.forall_mem_nil _, hy⟩
  | step hadv _ ih =>
    obtain ⟨hcalls, hrequest, hnext⟩ := hadv.yields hc hy
    obtain ⟨hcalls', hrequest', hlast⟩ := ih (hadv.agrees hc) hnext
    rw [calls_append]
    exact ⟨List.forall_mem_append.2 ⟨hcalls, hcalls'⟩,
      List.forall_mem_append.2 ⟨hrequest, hrequest'⟩, hlast⟩

end WorkerGuard.Task
