import WorkerGuard.Proofs.Program.Trail
import WorkerGuard.Proofs.Registry.Registered
import WorkerGuard.Simulation.Host

/-!
# WorkerGuard.Proofs.Simulation.Answers

What comes of a program that a process of a host runs, whatever its surroundings do.

* `Answers p`: the environment of the process `p`. Dependencies answer as they like, and anything may
  happen while the process waits for one or sleeps; any time may pass before the clock is read; all
  other calls are answered by the host.
* `Host.serve`: the run of a program in which nothing happens that need not.
* `Host.Meanwhile`: the registry has done nothing but answer requests, and it does nothing else while
  a program runs (`Trail.meanwhile`). A worker that is registered stays so
  (`Host.Meanwhile.registered`).
-/

namespace WorkerGuard

open Program Registry Simulation

namespace Simulation
namespace Store

/-- The registry after it has answered requests. -/
def after (s : Store) (qs : List Request) : Store := qs.foldl (fun s q => (s.answer q).2) s

theorem after_append (s : Store) (qs qs' : List Request) :
    s.after (qs ++ qs') = (s.after qs).after qs' := List.foldl_append

theorem Registered.after {id : WorkerId} {s : Store} (h : s.Registered id) (qs : List Request) :
    (s.after qs).Registered id := by
  induction qs generalizing s with
  | nil => exact h
  | cons q qs ih => exact ih (h.answer q)

end Store

namespace Host

/-- The registry has answered requests, whoever made them; all else may be different. -/
def Meanwhile (h h' : Host) : Prop :=
  ∃ qs : List Request, h'.store = h.store.after qs

/-- Only time has passed. -/
def Later (h h' : Host) : Prop :=
  ∃ clock systemClock, h' = { h with clock := clock, systemClock := systemClock }

end Host

/-- An answer to a call of the process `p`, and the host after it. -/
def Answers (p : Nat) : Environment Host
  | h, .now, t, h' => h.Later h' ∧ t = h'.now p
  | h, .sleep _, _, h' => h.Meanwhile h'
  | h, .attempt .., _, h' => h.Meanwhile h'
  | h, .jitter, _, h' => h' = h
  | h, q, a, h' => (a, h') = h.answer p false q

/-- A program by the answers of the host alone, which lets every call to a dependency overrun. -/
def Host.serve {α : Type} (h : Host) (p : Nat) (x : Program α) : Except Halt α × Host :=
  (x.follow (fun h q => h.answer p false q) h).2

namespace Host

variable {h h' h'' : Host}

theorem Meanwhile.refl (h : Host) : h.Meanwhile h := ⟨[], rfl⟩

theorem Meanwhile.trans (h₁ : h.Meanwhile h') (h₂ : h'.Meanwhile h'') : h.Meanwhile h'' := by
  obtain ⟨qs, hqs⟩ := h₁
  obtain ⟨qs', hqs'⟩ := h₂
  exact ⟨qs ++ qs', by rw [hqs', hqs, Store.after_append]⟩

theorem Meanwhile.of_store (hs : h'.store = h.store) : h.Meanwhile h' := ⟨[], hs⟩

end Host

theorem Trouble.interfere_store (t : Trouble) (d : Dependency) (s : Store) :
    ∃ qs : List Request, (t.interfere d s).2.2 = s.after qs := by
  unfold interfere
  split
  · rename_i row rows _
    dsimp only
    split
    · rename_i e s' hload
      exact ⟨[.loadBreaker d], by rw [Store.after, List.foldl_cons, hload]; rfl⟩
    · rename_i found s' hload
      split
      · rename_i e s'' hswap
        exact ⟨[.loadBreaker d, .swapBreaker d found row], by
          rw [Store.after, List.foldl_cons, hload, List.foldl_cons, hswap]; rfl⟩
      · rename_i swapped s'' hswap
        exact ⟨[.loadBreaker d, .swapBreaker d found row], by
          rw [Store.after, List.foldl_cons, hload, List.foldl_cons, hswap]; rfl⟩
  · exact ⟨[], rfl⟩

/-- Whatever is made to go wrong, the registry only answers requests. -/
theorem Trouble.answer_store (t : Trouble) (s : Store) (q : Request) :
    ∃ qs : List Request, (t.answer s q).2.2 = s.after qs := by
  cases q with
  | terminate id =>
    simp only [Trouble.answer]
    split
    · exact ⟨[.degrade id, .terminate id], rfl⟩
    · exact ⟨[.terminate id], rfl⟩
  | swapBreaker d e n =>
    obtain ⟨qs, hqs⟩ := t.interfere_store d s
    simp only [Trouble.answer]
    split
    · rename_i hi
      rw [hi] at hqs
      exact ⟨qs, hqs⟩
    · rename_i t' s' hi
      rw [hi] at hqs
      refine ⟨qs ++ [.swapBreaker d e n], ?_⟩
      rw [Store.after_append, ← hqs]
      rfl
  | _ => exact ⟨[_], rfl⟩

namespace Host

theorem registry_store (h : Host) (q : Request) : h.Meanwhile (h.registry q).2 := by
  exact h.trouble.answer_store h.store q

theorem answer_meanwhile (h : Host) (p : Nat) (waited : Bool) (q : Call) :
    h.Meanwhile (h.answer p waited q).2 := by
  cases q with
  | registry q =>
    have hstore := h.registry_store q
    simp only [answer]
    split
    · exact .refl h
    · cases q with
      | insert r c =>
        simp only [insert]
        split
        · split
          · exact hstore
          · exact hstore
        · exact hstore
      | _ => exact hstore
  | exchangeWord d old new =>
    simp only [answer]
    split
    · exact .of_store rfl
    · exact .refl h
  | appendLog a =>
    simp only [answer]
    split
    · exact .of_store rfl
    · exact .refl h
  | _ => exact .of_store rfl

theorem Meanwhile.registered {h h' : Host} {id : WorkerId} (hm : h.Meanwhile h')
    (hr : h.store.Registered id) : h'.store.Registered id := by
  obtain ⟨qs, hqs⟩ := hm
  rw [hqs]
  exact hr.after qs

end Host

theorem answers_answer (p : Nat) (h : Host) (q : Call) :
    Answers p h q (h.answer p false q).1 (h.answer p false q).2 := by
  cases q with
  | now => exact ⟨⟨h.clock, h.systemClock, rfl⟩, rfl⟩
  | sleep d => exact Host.Meanwhile.refl h
  | attempt d bound => exact Host.Meanwhile.refl h
  | _ => rfl

theorem exists_trail_serve {α : Type} (p : Nat) (x : Program α) (h : Host) :
    ∃ l, Trail (Answers p) x h l (h.serve p x).1 (h.serve p x).2 :=
  ⟨_, trail_follow (answers_answer p) x h⟩

theorem Answers.meanwhile {p : Nat} {h h' : Host} {q : Call} {a : q.Answer}
    (ha : Answers p h q a h') : h.Meanwhile h' := by
  cases q with
  | now =>
    obtain ⟨⟨clock, systemClock, rfl⟩, _⟩ := ha
    exact .of_store rfl
  | sleep d => exact ha
  | attempt d bound => exact ha
  | jitter =>
    obtain rfl : h' = h := ha
    exact .refl h'
  | _ =>
    have heq : (a, h') = h.answer p false _ := ha
    rw [show h' = (h.answer p false _).2 from congrArg Prod.snd heq]
    exact h.answer_meanwhile p false _

end Simulation

/-- The registry of a host answers requests, and nothing else is done to it. -/
theorem Program.Trail.meanwhile {p : Nat} {α : Type} {x : Program α} {h h' : Host}
    {l : List Exchange} {r : Except Halt α} (hr : Trail (Answers p) x h l r h') :
    h.Meanwhile h' :=
  hr.preserves (I := h.Meanwhile) (fun _ _ _ _ hm ha => hm.trans ha.meanwhile) (.refl h)

end WorkerGuard
