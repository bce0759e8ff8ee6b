import WorkerGuard.Proofs.Breaker.Solo
import WorkerGuard.Proofs.Simulation.Served

/-!
# WorkerGuard.Proofs.Simulation.Alone

Surroundings in which nobody else changes the breaker of a dependency.

* `World`: the registry, the word that the process keeps for the dependency, and the clock.
* `Kept d`, `Ticking`: the words and the clocks of such surroundings.
* `Served.soloRow`, `Kept.soloWord`: no other writes the row, or the word.
* `Alone d`: both at once; `Alone.transact_unraced`: no step of a handle loses a race there.
* `Scripted calm d`: such surroundings in which it is written down what comes of each attempt.
* `Ticking.now_mem`: all readings lie between the first and the last state of the clock.
-/

namespace WorkerGuard.Simulation

open Program Registry

structure World where
  store : Store
  word : UInt64
  /-- The clock as breakers read it. -/
  clock : Nat

/-- Nobody but the program sets the word of `d`. -/
def Kept (d : Dependency) : Environment UInt64
  | w, .word d', a, w' => w' = w ∧ (d' = d → a = w)
  | w, .setWord d' n, _, w' => w' = if d' = d then n else w
  | w, .exchangeWord d' old n, a, w' =>
    if d' = d then a = w ∧ w' = if w = old then n else w else w' = w
  | w, _, _, w' => w' = w

/-- The clock never goes back. -/
def Ticking : Environment Nat
  | t, .now, now, t' => t ≤ t' ∧ now.millis.toNat = t'
  | t, _, _, t' => t ≤ t'

section Solo

variable {σ : Type} {E : Environment σ} {d : Dependency} {others outages : Request → Prop}

theorem Served.soloRow {O : Prop} {store : σ → Store}
    (hE : ∀ h q a h', E h q a h' → Served others outages (store h) q a (store h'))
    (hothers : ∀ q, others q → ¬q.Swaps d) (houtages : ∀ q, outages q → q.OfRow d → O) :
    SoloRow E d O fun r h => (store h).Holds d r := by
  have helse : ∀ {s s' : Store} {r : Breaker.Row}, s.Elsewhere others s' → s.Holds d r →
      s'.Holds d r :=
    fun h => h.keeps fun s q hq hI => hI.answer_other (hothers q hq)
  constructor
  · intro r h h' a hrow hload
    obtain ⟨s₁, hs, hafter⟩ | ⟨hout, hwhy, hafter⟩ := hE _ _ _ _ hload
    · rw [hrow.answer_load] at hs
      cases hs
      exact ⟨.inl rfl, helse hafter hrow⟩
    · exact ⟨.inr ⟨houtages _ hout rfl, hwhy⟩, helse hafter hrow⟩
  · intro r c h h' a hrow hswap
    obtain ⟨s₁, hs, hafter⟩ | ⟨hout, hwhy, hafter⟩ := hE _ _ _ _ hswap
    · obtain ⟨s₂, hs₂, hrow'⟩ := hrow.answer_swap c
      rw [hs₂] at hs
      cases hs
      exact .inl ⟨rfl, helse hafter hrow'⟩
    · exact .inr ⟨houtages _ hout rfl, hwhy, helse hafter hrow⟩
  · intro r h h' q a hrow hq hswaps
    refine (hE _ _ _ _ hq).keeps (fun s q hq hI => hI.answer_other (hothers q hq)) ?_ hrow
    rintro q' rfl hI
    exact hI.answer_other hswaps

theorem Kept.soloWord {word : σ → UInt64}
    (hE : ∀ h q a h', E h q a h' → Kept d (word h) q a (word h')) :
    SoloWord E d fun w h => word h = w := by
  constructor
  · rintro w h h' a rfl hload
    obtain ⟨hword, ha⟩ := hE _ _ _ _ hload
    exact ⟨ha rfl, hword⟩
  · rintro w n h h' a rfl hexchange
    have hkept := hE _ _ _ _ hexchange
    simp only [Kept, if_true] at hkept
    exact hkept
  · rintro w h h' t rfl hnow
    exact hE _ _ _ _ hnow

end Solo

/-- Others make their requests, but nobody else writes the row or the word of `d`. -/
def Alone (d : Dependency) (others outages : Request → Prop) : Environment World :=
  fun h q a h' => Served others outages h.store q a h'.store ∧ Kept d h.word q a h'.word

theorem Alone.transact_unraced {b : Breaker} {others outages : Request → Prop}
    (hothers : ∀ q, others q → ¬q.Swaps b.dependency) {step : Breaker.Step} {h h' : World}
    {l : List Exchange} {r : Except Halt Breaker.Outcome} (hrow : h.store.Candid b.dependency)
    (hr : Trail (Alone b.dependency others outages) (b.transact step) h l r h') :
    l.countP Exchange.isLoss = 0 ∧ h'.store.Candid b.dependency := by
  have hrows : SoloRow (Alone b.dependency others outages) b.dependency True fun r h =>
      h.store.Holds b.dependency r :=
    Served.soloRow (fun _ _ _ _ h => h.1) hothers fun _ _ _ => trivial
  have hwords : SoloWord (Alone b.dependency others outages) b.dependency fun w h => h.word = w :=
    Kept.soloWord fun _ _ _ _ h => h.2
  have hload : ∀ (h : World) a h',
      (∃ why, (h.store.answer (.loadBreaker b.dependency)).1 = .error why) →
      Alone b.dependency others outages h (.registry (.loadBreaker b.dependency)) a h' →
        ∃ why, a = .error why := by
    rintro h a h' ⟨why, hwhy⟩ hload
    obtain ⟨s₁, hs, _⟩ | ⟨_, hout, _⟩ := hload.1
    · rw [hs] at hwhy
      exact ⟨why, hwhy⟩
    · exact hout
  have hkeep : ∀ (h : World) q a (h' : World),
      (∃ why, (h.store.answer (.loadBreaker b.dependency)).1 = .error why) →
      Alone b.dependency others outages h q a h' → ¬q.Swaps b.dependency →
        ∃ why, (h'.store.answer (.loadBreaker b.dependency)).1 = .error why := by
    intro h q a h' hwhy hq hswaps
    refine hq.1.keeps (I := fun s => ∃ why, (s.answer (.loadBreaker b.dependency)).1 = .error why)
      ?_ ?_ hwhy
    · rintro s q hq ⟨why, hwhy⟩
      exact ⟨why, (s.load_answer_other (hothers q hq)).trans hwhy⟩
    · rintro q' rfl ⟨why, hwhy⟩
      exact ⟨why, (Store.load_answer_other _ hswaps).trans hwhy⟩
  rw [Store.candid_iff] at hrow ⊢
  exact Breaker.transact_unraced hrows hload hkeep hwords (fun h => ⟨h.word, rfl⟩) hrow hr

/-- Nobody else is there at all. -/
def World.serve (calm : (q : Call) → q.Answer) (d : Dependency) (h : World) :
    (q : Call) → q.Answer × World
  | .word d' => (if d' = d then h.word else calm (.word d'), h)
  | .setWord d' n => ((), { h with word := if d' = d then n else h.word })
  | .exchangeWord d' old n => (if d' = d then h.word else calm (.exchangeWord d' old n),
      { h with word := if d' = d ∧ h.word = old then n else h.word })
  | q => ((Simulation.serve calm h.store q).1,
      { h with store := (Simulation.serve calm h.store q).2 })

theorem alone_serve {d : Dependency} {others outages : Request → Prop}
    (calm : (q : Call) → q.Answer) (h : World) (q : Call) :
    Alone d others outages h q (h.serve calm d q).1 (h.serve calm d q).2 := by
  cases q with
  | word d' => exact ⟨.refl _ _, rfl, fun hd => if_pos hd⟩
  | setWord d' n => exact ⟨.refl _ _, rfl⟩
  | exchangeWord d' old n =>
    refine ⟨.refl _ _, ?_⟩
    by_cases hd : d' = d
    · simp [Kept, World.serve, hd]
    · simp [Kept, World.serve, hd]
  | _ => exact ⟨served_serve calm h.store _, rfl⟩

/-- One attempt after another has the outcome that is written down for it. -/
def scripted (calm : (q : Call) → q.Answer) (d : Dependency) (h : World × List Attempt) :
    (q : Call) → q.Answer × (World × List Attempt)
  | .attempt .. => (h.2.headD .overran, (h.1, h.2.tail))
  | q => let (a, w) := h.1.serve calm d q; (a, w, h.2)

def Scripted (calm : (q : Call) → q.Answer) (d : Dependency) :
    Environment (World × List Attempt) :=
  fun h q a h' => a = (scripted calm d h q).1 ∧ h' = (scripted calm d h q).2

/-- What can be seen of the run of a program there. -/
theorem exists_trail_scripted {α : Type} (x : Program α) (calm : (q : Call) → q.Answer)
    (d : Dependency) (h : World × List Attempt) {p : List Exchange × Except Halt α → Bool}
    (hp : p ((x.follow (scripted calm d) h).1, (x.follow (scripted calm d) h).2.1) = true) :
    ∃ l r h', Trail (Scripted calm d) x h l r h' ∧ p (l, r) = true :=
  ⟨_, _, _, trail_follow (fun _ _ => ⟨rfl, rfl⟩) x h, hp⟩

section Ticking

variable {σ α : Type} {E : Environment σ} {clock : σ → Nat} {x : Program α} {h h' : σ}
variable {l : List Exchange} {r : Except Halt α}

theorem Ticking.le {t t' : Nat} {q : Call} {a : q.Answer} (h : Ticking t q a t') : t ≤ t' := by
  cases q with
  | now => exact h.1
  | _ => exact h

variable (hE : ∀ h q a h', E h q a h' → Ticking (clock h) q a (clock h'))
include hE

theorem Ticking.trail_le (hr : Trail E x h l r h') : clock h ≤ clock h' := by
  induction hr with
  | done => exact Nat.le_refl _
  | halt => exact Nat.le_refl _
  | ask ha _ ih => exact Nat.le_trans (hE _ _ _ _ ha).le ih

theorem Ticking.now_mem (hr : Trail E x h l r h') {t : Instant} (ht : ⟨.now, t⟩ ∈ l) :
    clock h ≤ t.millis.toNat ∧ t.millis.toNat ≤ clock h' := by
  induction hr with
  | done => cases ht
  | halt => cases ht
  | ask ha hnext ih =>
    obtain ht | ht := List.mem_cons.1 ht
    · cases ht
      obtain ⟨hle, heq⟩ := hE _ _ _ _ ha
      rw [heq]
      exact ⟨hle, Ticking.trail_le hE hnext⟩
    · exact ⟨Nat.le_trans (hE _ _ _ _ ha).le (ih ht).1, (ih ht).2⟩

end Ticking

end WorkerGuard.Simulation
