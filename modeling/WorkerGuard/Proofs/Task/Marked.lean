import WorkerGuard.Proofs.Program.Marked
import WorkerGuard.Proofs.Task.Standing

/-!
# WorkerGuard.Proofs.Task.Marked

Runs of tasks through a point that is marked.

* `Entry.map`, `Standing.map`, `Stuck.map`: a run as it stands, with less seen of its surroundings.
* `Standing.count`: where calls are counted, the account has so many of them.
* `run_marked`: a run that passes a point at which `P` holds, and that goes on to its end, stands
  everywhere as one in which `P` holds from that point on.
-/

namespace WorkerGuard.Task

open Program

variable {σ τ : Type} {E : Environment σ} {E' : Environment τ} {s : Settings} {task : Task}
variable {w : Worker} {H h : σ} {stack : List Head} {es : List (Entry σ)}

def Entry.map (f : σ → τ) : Entry σ → Entry τ
  | began x l => began x l
  | did x st a e l => did x st a e l
  | ended x o before l => ended x o (f before) l

@[simp] theorem calls_map (f : σ → τ) (es : List (Entry σ)) :
    calls (es.map (Entry.map f)) = calls es := by
  induction es with
  | nil => rfl
  | cons e es ih =>
    rw [List.map_cons, calls_cons, calls_cons, ih]
    cases e <;> rfl

theorem exists_of_map {f : σ → τ} {es₁ es₂ : List (Entry τ)} {x : Worker} {st : State} {a : Action}
    {e : Event} {l : List Exchange} (hes : es.map (Entry.map f) = es₁ ++ .did x st a e l :: es₂) :
    ∃ es₃ es₄, es = es₃ ++ .did x st a e l :: es₄ ∧ es₁ = es₃.map (Entry.map f) ∧
      es₂ = es₄.map (Entry.map f) := by
  obtain ⟨es₃, rest, rfl, rfl, hrest⟩ := List.map_eq_append_iff.1 hes
  obtain ⟨entry, es₄, rfl, hentry, rfl⟩ := List.map_eq_cons_iff.1 hrest
  cases entry with
  | did =>
    cases hentry
    exact ⟨es₃, es₄, rfl, rfl, rfl⟩
  | began => cases hentry
  | ended => cases hentry

theorem Standing.map {f : σ → τ} (hE : ∀ h q a h', E h q a h' → E' (f h) q a (f h'))
    (hs : Standing E s task w H stack es h) :
    Standing E' s task w (f H) stack (es.map (Entry.map f)) (f h) := by
  induction hs with
  | start ha => exact .start (hE _ _ _ _ ha)
  | step _ hq hx hp ih =>
    rw [List.map_append]
    exact ih.step hq hx (hp.map hE)
  | helper _ hx hn ha ih =>
    rw [List.map_append]
    exact ih.helper hx hn (hE _ _ _ _ ha)
  | back _ hq hx hp ih =>
    rw [List.map_append]
    exact ih.back hq hx (hp.map hE)
  | finished _ hq hp ih =>
    rw [List.map_append]
    exact ih.finished hq (hp.map hE)

theorem Stuck.map {f : σ → τ} {hd : Head} {l : List Exchange} {why : Halt} {h' : σ}
    (hE : ∀ h q a h', E h q a h' → E' (f h) q a (f h')) (hstuck : Stuck E s task hd h l why h') :
    Stuck E' s task hd (f h) l why (f h') := by
  cases hstuck with
  | steps hpast => exact .steps hpast
  | generations hx hn => exact .generations hx hn
  | action hq hx hp => exact .action hq hx (hp.map hE)

section Marked

variable {P : σ → Prop} {n : Nat} {h' h₁ : σ} {l₁ l₂ : List Exchange} {y : Program Outcome}
variable {r : Except Halt Outcome}

theorem Standing.count {z : σ × Nat} {es : List (Entry (σ × Nat))}
    (hs : Standing (Marked E P n) s task w (H, 0) stack es z) : z.2 = (calls es).length := by
  induction hs with
  | start ha => simp [ha.2.1, Entry.exchanges]
  | step _ _ _ hp ih => simp [hp.count, ih, Entry.exchanges]
  | helper _ _ _ ha ih => simp [ha.2.1, ih, Entry.exchanges]
  | back _ _ _ hp ih => simp [hp.count, ih, Entry.exchanges]
  | finished _ _ hp ih => simp [hp.count, ih, Entry.exchanges]

/-- Whatever comes after the mark comes where `P` holds. -/
theorem Standing.holds {z : σ × Nat} {es : List (Entry (σ × Nat))}
    (hs : Standing (Marked E P n) s task w (H, 0) stack es z) (hle : n ≤ (calls es).length)
    (hP : n = 0 → P H) : P z.1 := by
  have hmarked : n ≤ z.2 → P z.1 := hs.keeps (I := fun z => n ≤ z.2 → P z.1)
    (fun _ _ _ _ _ ha => ha.2.2) fun hzero => hP (Nat.le_zero.1 hzero)
  exact hmarked (hs.count ▸ hle)

/-- The call that comes next reaches the mark. -/
theorem Standing.holds_next {z z' : σ × Nat} {es : List (Entry (σ × Nat))} {q : Call} {a : q.Answer}
    (hs : Standing (Marked E P n) s task w (H, 0) stack es z) (hle : n ≤ (calls es).length + 1)
    (ha : Marked E P n z q a z') : P z'.1 :=
  ha.2.2 (by rwa [ha.2.1, hs.count])

theorem run_marked (hkeep : ∀ h q a h', P h → E h q a h' → P h')
    (hto : Passage E (run s task w) H l₁ y h₁) (hP : P h₁) (hon : Trail E y h₁ l₂ r h') :
    Trail (Marked E P l₁.length) (run s task w) (H, 0) (l₁ ++ l₂) r
      (h', l₁.length + l₂.length) :=
  hto.marked hP (Nat.zero_add _) (hon.marked hkeep hP _)

end Marked
end WorkerGuard.Task
