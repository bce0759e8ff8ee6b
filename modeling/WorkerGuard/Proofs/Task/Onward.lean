import WorkerGuard.Proofs.Task.ActionStep

/-!
# WorkerGuard.Proofs.Task.Onward

How a run goes on from where it stands.

* `Advance E s task stack h es stack' h'`: it goes on by one step, which adds the entries `es` to
  the account.
* `Leads E s task stack h es stack' h'`: it goes on by any number of steps.
* `standing_iff_leads`: a run stands at what its beginning leads to.
* `Leads.of_due`: an action that is due comes first.
* `Leads.at_action`: an action of the account parts it into what led there and what the action
  led to.
-/

namespace WorkerGuard.Task

open Program

variable {σ : Type} {E : Environment σ} {s : Settings} {task : Task} {w : Worker} {H h h' : σ}
variable {hd : Head} {stack stack' below : List Head} {es es' : List (Entry σ)} {a : Action}

/-- `hd` does the action `a`, which is next and is not the run of a helper who is there. -/
def Acts (E : Environment σ) (s : Settings) (task : Task) (hd : Head) (h : σ) (a : Action)
    (e : Event) (c : Course) (l : List Exchange) (h' : σ) : Prop :=
  ∃ queue, hd.course.queue = a :: queue ∧ (∀ x, ¬hd.Calls x queue) ∧
    Trail E (perform s task (runFor s task hd.generations) hd.worker hd.started a
      { hd.course with queue }) h l (.ok (e, c)) h'

inductive Advance (E : Environment σ) (s : Settings) (task : Task) :
    List Head → σ → List (Entry σ) → List Head → σ → Prop where
  | step {hd : Head} {below : List Head} {h h' : σ} {a : Action} {e : Event} {c : Course}
      {l : List Exchange} (ha : Acts E s task hd h a e c l h') :
      Advance E s task (hd :: below) h [.did hd.worker hd.course.state a e l]
        (hd.stepped s a e c :: below) h'
  | helper {hd : Head} {below : List Head} {h h' : σ} {x : Worker} {queue : List Action} {n : Nat}
      {t : Instant} (hx : hd.Calls x queue) (hn : hd.generations = n + 1) (ha : E h .now t h') :
      Advance E s task (hd :: below) h [.began x [⟨.now, t⟩]]
        (⟨n, x, t, [], opening⟩ :: hd :: below) h'
  | back {hd parent : Head} {below : List Head} {h h' : σ} {queue : List Action} {o : Outcome}
      {l : List Exchange} (hq : hd.course.queue = []) (hx : parent.Calls hd.worker queue)
      (hp : Trail E (finish s hd.worker hd.course) h l (.ok o) h') :
      Advance E s task (hd :: parent :: below) h
        [.ended hd.worker o h l,
          .did parent.worker parent.course.state (.runHelper hd.worker.id) o.event []]
        (parent.rejoined s hd.worker o queue :: below) h'
  | finished {hd : Head} {h h' : σ} {o : Outcome} {l : List Exchange} (hq : hd.course.queue = [])
      (hp : Trail E (finish s hd.worker hd.course) h l (.ok o) h') :
      Advance E s task [hd] h [.ended hd.worker o h l] [] h'

inductive Leads (E : Environment σ) (s : Settings) (task : Task) :
    List Head → σ → List (Entry σ) → List Head → σ → Prop where
  | refl {stack : List Head} {h : σ} : Leads E s task stack h [] stack h
  | step {stack stack₁ stack' : List Head} {es es' : List (Entry σ)} {h h₁ h' : σ}
      (ha : Advance E s task stack h es stack₁ h₁) (hl : Leads E s task stack₁ h₁ es' stack' h') :
      Leads E s task stack h (es ++ es') stack' h'

theorem Advance.standing (ha : Advance E s task stack h es' stack' h')
    (hs : Standing E s task w H stack es h) : Standing E s task w H stack' (es ++ es') h' := by
  cases ha with
  | step ha =>
    obtain ⟨queue, hq, hx, hp⟩ := ha
    exact hs.step hq hx hp
  | helper hx hn ha => exact hs.helper hx hn ha
  | back hq hx hp => exact hs.back hq hx hp
  | finished hq hp => exact hs.finished hq hp

namespace Leads

theorem standing (hl : Leads E s task stack h es' stack' h')
    (hs : Standing E s task w H stack es h) : Standing E s task w H stack' (es ++ es') h' := by
  induction hl generalizing es with
  | refl => rwa [List.append_nil]
  | step ha _ ih =>
    rw [← List.append_assoc]
    exact ih (ha.standing hs)

theorem single (ha : Advance E s task stack h es stack' h') :
    Leads E s task stack h es stack' h' := by
  rw [← List.append_nil es]
  exact .step ha .refl

theorem trans {stack₁ : List Head} {h₁ : σ} (hl : Leads E s task stack h es stack₁ h₁)
    (hl' : Leads E s task stack₁ h₁ es' stack' h') :
    Leads E s task stack h (es ++ es') stack' h' := by
  induction hl with
  | refl => exact hl'
  | step ha _ ih =>
    rw [List.append_assoc]
    exact .step ha (ih hl')

/-- The end of a run leads nowhere. -/
theorem of_nil (hl : Leads E s task [] h es stack h') : es = [] ∧ stack = [] := by
  cases hl with
  | refl => exact ⟨rfl, rfl⟩
  | step ha _ => cases ha

/-- Nothing else is done before. -/
theorem of_due (hdue : hd.course.Due a) (hown : ∀ id, a ≠ .runHelper id)
    (hl : Leads E s task (hd :: below) h es stack h') : (es = [] ∧ stack = hd :: below) ∨
      ∃ e c l h₁ es₁, Acts E s task hd h a e c l h₁ ∧
        es = .did hd.worker hd.course.state a e l :: es₁ ∧
        Leads E s task (hd.stepped s a e c :: below) h₁ es₁ stack h' := by
  cases hl with
  | refl => exact .inl ⟨rfl, rfl⟩
  | step hadv hl =>
    cases hadv with
    | step hacts =>
      obtain ⟨queue, hq, _⟩ := id hacts
      rw [hdue.1] at hq
      cases hq
      exact .inr ⟨_, _, _, _, _, hacts, rfl, hl⟩
    | helper hx hn ht =>
      have hq := hx.1
      rw [hdue.1] at hq
      cases hq
      exact absurd rfl (hown _)
    | back hq hx hp =>
      rw [hdue.1] at hq
      cases hq
    | finished hq hp =>
      rw [hdue.1] at hq
      cases hq

/-- What one step does, an action of the account among it. -/
theorem at_action {x : Worker} {st : State} {a : Action} {e : Event} {l : List Exchange}
    {es₁ es₂ : List (Entry σ)} (ha : ∀ id, a ≠ .runHelper id)
    (hl : Leads E s task stack h (es₁ ++ .did x st a e l :: es₂) stack' h') :
    ∃ hd below c h₁ h₂, hd.worker = x ∧ hd.course.state = st ∧
      Leads E s task stack h es₁ (hd :: below) h₁ ∧ Acts E s task hd h₁ a e c l h₂ ∧
      Leads E s task (hd.stepped s a e c :: below) h₂ es₂ stack' h' := by
  generalize hes : es₁ ++ Entry.did x st a e l :: es₂ = all at hl
  induction hl generalizing es₁ with
  | refl => simp at hes
  | @step stack stack₁ stack' es es' h h₁ h' hadv hrest ih =>
    obtain ⟨es₃, rfl, rfl⟩ | ⟨es₃, rfl, rfl⟩ := append_eq_append_cons hes.symm
    · generalize hmade : es₁ ++ Entry.did x st a e l :: es₃ = made at hadv
      have hmem : Entry.did x st a e l ∈ made := by simp [← hmade]
      cases hadv with
      | step hacts =>
        obtain ⟨rfl, hentry⟩ | ⟨_, hnil⟩ := List.append_eq_singleton_iff.1 hmade
        · cases hentry
          exact ⟨_, _, _, _, _, rfl, rfl, .refl, hacts, hrest⟩
        · cases hnil
      | helper hx hn hnow => cases List.mem_singleton.1 hmem
      | back hq hx hp =>
        obtain hended | hdid := List.mem_cons.1 hmem
        · cases hended
        · cases List.mem_singleton.1 hdid
          exact absurd rfl (ha _)
      | finished hq hp => cases List.mem_singleton.1 hmem
    · obtain ⟨hd, below, c, h₂, h₃, hx, hst, hbefore, hacts, hafter⟩ := ih rfl
      exact ⟨hd, below, c, h₂, h₃, hx, hst, .step hadv hbefore, hacts, hafter⟩

end Leads

theorem standing_iff_leads : Standing E s task w H stack es h ↔ ∃ t h₀ es', E H .now t h₀ ∧
    Leads E s task [⟨s.governor.maxDepth.toNat, w, t, [], opening⟩] h₀ es' stack h ∧
      es = .began w [⟨.now, t⟩] :: es' := by
  constructor
  · intro hs
    have hnext : ∀ {stack stack' es es' h h'}, Advance E s task stack h es' stack' h' →
        (∃ t h₀ es₁, E H .now t h₀ ∧ Leads E s task
          [⟨s.governor.maxDepth.toNat, w, t, [], opening⟩] h₀ es₁ stack h ∧
          es = .began w [⟨.now, t⟩] :: es₁) →
        ∃ t h₀ es₁, E H .now t h₀ ∧ Leads E s task
          [⟨s.governor.maxDepth.toNat, w, t, [], opening⟩] h₀ es₁ stack' h' ∧
          es ++ es' = .began w [⟨.now, t⟩] :: es₁ := by
      rintro _ _ _ _ _ _ hadv ⟨t, h₀, es₁, ht, hl, rfl⟩
      exact ⟨t, h₀, _, ht, hl.trans (.single hadv), rfl⟩
    induction hs with
    | start ht => exact ⟨_, _, [], ht, .refl, rfl⟩
    | step _ hq hx hp ih => exact hnext (.step ⟨_, hq, hx, hp⟩) ih
    | helper _ hx hn ht ih => exact hnext (.helper hx hn ht) ih
    | back _ hq hx hp ih => exact hnext (.back hq hx hp) ih
    | finished _ hq hp ih => exact hnext (.finished hq hp) ih
  · rintro ⟨t, h₀, es', ht, hl, rfl⟩
    exact hl.standing (.start ht)

/-- An action of a run, with the standing before it and what it led to. -/
theorem Standing.at_action {x : Worker} {st : State} {a : Action} {e : Event} {l : List Exchange}
    {es₁ es₂ : List (Entry σ)} (ha : ∀ id, a ≠ .runHelper id)
    (hs : Standing E s task w H stack (es₁ ++ .did x st a e l :: es₂) h) :
    ∃ hd below c h₁ h₂, hd.worker = x ∧ hd.course.state = st ∧
      Standing E s task w H (hd :: below) es₁ h₁ ∧ Acts E s task hd h₁ a e c l h₂ ∧
      Leads E s task (hd.stepped s a e c :: below) h₂ es₂ stack h := by
  obtain ⟨t, h₀, es', ht, hl, hes⟩ := standing_iff_leads.1 hs
  cases es₁ with
  | nil => cases hes
  | cons entry es₁ =>
    cases hes
    obtain ⟨hd, below, c, h₁, h₂, hx, hst, hbefore, hacts, hafter⟩ := hl.at_action ha
    exact ⟨hd, below, c, h₁, h₂, hx, hst, hbefore.standing (.start ht), hacts, hafter⟩

end WorkerGuard.Task
