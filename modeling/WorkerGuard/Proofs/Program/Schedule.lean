import WorkerGuard.Breaker.Word
import WorkerGuard.Proofs.Program.Path
import WorkerGuard.Simulation.Trouble

/-!
# WorkerGuard.Proofs.Program.Schedule

Any number of programs at work on one registry, one call at a time and in any order.

* `Thread`: a program under way: its job, the exchanges behind it, each with its moment, and the
  rest of it.
* `Config`: the registry, the last reading of the clock, and the threads.
* `ThreadStep`, `Config.perform`: a thread is begun, or one of them makes its next call. The
  registry answers what is asked of it; whatever answers the other calls is part of the step.
* `Schedule`: an opening and a step for each moment. Every finite order of calls begins some of
  them.
* `Schedule.traced`: what the pasts of the threads say about the configurations gone by.
-/

namespace WorkerGuard

open Simulation Program

structure Thread (κ α : Type) where
  job : κ
  past : List (Nat × Exchange)
  rest : Program α

structure Config (κ α : Type) where
  store : Store
  clock : Instant
  threads : List (Thread κ α)

inductive ThreadStep (κ : Type) where
  | begins (job : κ)
  /-- A thread makes its next call. -/
  | asks (thread : Nat) (others : (q : Call) → q.Answer)
  /-- A thread makes a request to the registry, which cannot be reached. -/
  | fails (thread : Nat) (why : Registry.Error)

section Config

variable {κ α : Type} {program : κ → Program α}

/-- What an exchange does to the registry and to the last reading of the clock. -/
inductive Reply : ThreadStep κ → Store × Instant → Exchange → Store × Instant → Prop where
  | registry {i : Nat} {others : (q : Call) → q.Answer} {s : Store} {t : Instant}
      (q : Registry.Request) :
      Reply (.asks i others) (s, t) ⟨.registry q, (s.answer q).1⟩ ((s.answer q).2, t)
  | now {i : Nat} {others : (q : Call) → q.Answer} {s : Store} {t : Instant} :
      Reply (.asks i others) (s, t) ⟨.now, others .now⟩ (s, others .now)
  | other {i : Nat} {others : (q : Call) → q.Answer} {s : Store} {t : Instant} {q : Call}
      (hn : q ≠ .now) (hr : ∀ r, q ≠ .registry r) :
      Reply (.asks i others) (s, t) ⟨q, others q⟩ (s, t)
  | outage {i : Nat} {why : Registry.Error} {s : Store} {t : Instant} (q : Registry.Request) :
      Reply (.fails i why) (s, t) ⟨.registry q, .error why⟩ (s, t)

namespace Reply

variable {m : ThreadStep κ} {w w' : Store × Instant}

/-- A request is answered, or an outage comes in its way. -/
theorem of_registry {q : Registry.Request} {a : Except Registry.Error q.Answer}
    (h : Reply m w ⟨.registry q, a⟩ w') :
    (a = (w.1.answer q).1 ∧ w' = ((w.1.answer q).2, w.2)) ∨
      ∃ i why, m = .fails i why ∧ a = .error why ∧ w' = w := by
  generalize hx : (⟨.registry q, a⟩ : Exchange) = x at h
  cases h with
  | registry q' =>
    obtain ⟨hq, ha⟩ := Exchange.mk.inj hx
    cases hq
    exact .inl ⟨eq_of_heq ha, rfl⟩
  | now => cases (Exchange.mk.inj hx).1
  | other _ hr => exact absurd (Exchange.mk.inj hx).1.symm (hr q)
  | outage q' =>
    obtain ⟨hq, ha⟩ := Exchange.mk.inj hx
    cases hq
    exact .inr ⟨_, _, rfl, eq_of_heq ha, rfl⟩

theorem of_now {t : Instant} (h : Reply m w ⟨.now, t⟩ w') : w' = (w.1, t) := by
  generalize hx : (⟨.now, t⟩ : Exchange) = x at h
  cases h with
  | registry q => cases (Exchange.mk.inj hx).1
  | now => rw [eq_of_heq (Exchange.mk.inj hx).2]
  | other hn => exact absurd (Exchange.mk.inj hx).1.symm hn
  | outage q => cases (Exchange.mk.inj hx).1

/-- Other calls leave the registry alone. -/
theorem store_eq {x : Exchange} (h : Reply m w x w') (hr : ∀ q, x.call ≠ .registry q) :
    w'.1 = w.1 := by
  cases h with
  | registry q => exact absurd rfl (hr q)
  | now => rfl
  | other => rfl
  | outage q => rfl

end Reply

namespace Config

def world (s : Config κ α) : Store × Instant := (s.store, s.clock)

/-- The answer to a call, and the registry and the clock after it. -/
def reply (s : Config κ α) (others : (q : Call) → q.Answer) :
    (q : Call) → q.Answer × Store × Instant
  | .registry q => let (a, store) := s.store.answer q; (a, store, s.clock)
  | .now => (others .now, s.store, others .now)
  | q => (others q, s.store, s.clock)

/-- A thread goes on after an exchange. -/
def goOn (s : Config κ α) (moment i : Nat) (th : Thread κ α) (x : Exchange) (rest : Program α)
    (world : Store × Instant) : Config κ α :=
  ⟨world.1, world.2, s.threads.set i ⟨th.job, th.past ++ [(moment, x)], rest⟩⟩

/-- One step at a moment. A thread that cannot make the call leaves all as it is. -/
def perform (program : κ → Program α) (moment : Nat) (s : Config κ α) : ThreadStep κ → Config κ α
  | .begins job => { s with threads := s.threads ++ [⟨job, [], program job⟩] }
  | .asks i others =>
    match s.threads[i]? with
    | none => s
    | some th =>
      match th.rest with
      | .ask q next =>
        let (a, world) := s.reply others q
        s.goOn moment i th ⟨q, a⟩ (next a) world
      | _ => s
  | .fails i why =>
    match s.threads[i]? with
    | none => s
    | some th =>
      match th.rest with
      | .ask (.registry q) next =>
        s.goOn moment i th ⟨.registry q, .error why⟩ (next (.error why)) s.world
      | _ => s

theorem reply_sound (s : Config κ α) (i : Nat) (others : (q : Call) → q.Answer) (q : Call) :
    Reply (.asks i others : ThreadStep κ) s.world ⟨q, (s.reply others q).1⟩
      (s.reply others q).2 := by
  cases q with
  | registry q => exact .registry q
  | now => exact .now
  | _ => exact .other (by simp) (by simp)

/-- All that a step can do: nothing, begin a thread, or let one thread make one call. -/
theorem perform_cases (program : κ → Program α) (moment : Nat) (s : Config κ α) (m : ThreadStep κ) :
    s.perform program moment m = s ∨
      (∃ job, s.perform program moment m =
        { s with threads := s.threads ++ [⟨job, [], program job⟩] }) ∨
      ∃ i th x rest world, s.threads[i]? = some th ∧ Path th.rest [x] rest ∧
        Reply m s.world x world ∧ s.perform program moment m = s.goOn moment i th x rest world := by
  cases m with
  | begins job => exact .inr (.inl ⟨job, rfl⟩)
  | asks i others =>
    cases hi : s.threads[i]? with
    | none => exact .inl (by simp only [perform, hi])
    | some th =>
      cases hr : th.rest with
      | done a => exact .inl (by simp only [perform, hi, hr])
      | halt why => exact .inl (by simp only [perform, hi, hr])
      | ask q next =>
        refine .inr (.inr ⟨i, th, ⟨q, (s.reply others q).1⟩, next (s.reply others q).1,
          (s.reply others q).2, hi, ?_, s.reply_sound i others q, ?_⟩)
        · rw [hr]; exact .single _
        · simp only [perform, hi, hr]
  | fails i why =>
    cases hi : s.threads[i]? with
    | none => exact .inl (by simp only [perform, hi])
    | some th =>
      cases hr : th.rest with
      | done a => exact .inl (by simp only [perform, hi, hr])
      | halt why => exact .inl (by simp only [perform, hi, hr])
      | ask q next =>
        cases q with
        | registry q =>
          refine .inr (.inr ⟨i, th, ⟨.registry q, .error why⟩, next (.error why), s.world, hi, ?_,
            .outage q, ?_⟩)
          · rw [hr]; exact .single _
          · simp only [perform, hi, hr]
        | _ => exact .inl (by simp only [perform, hi, hr])

theorem mem_goOn {s : Config κ α} {moment i : Nat} {th th' : Thread κ α} {x : Exchange}
    {rest : Program α} {world : Store × Instant}
    (h : th' ∈ (s.goOn moment i th x rest world).threads) :
    th' ∈ s.threads ∨ th' = ⟨th.job, th.past ++ [(moment, x)], rest⟩ :=
  List.mem_or_eq_of_mem_set h

end Config

/-- Answers to a process on which nothing weighs, at a time; a new worker gets the name `id`. -/
def Call.calm (now : Instant) (id : WorkerId) : (q : Call) → q.Answer
  | .now => now
  | .registry _ => .error .locked
  | .enlist _ => ()
  | .enlisted => []
  | .word _ => Breaker.encode .fresh
  | .setWord .. => ()
  | .exchangeWord _ old _ => old
  | .forced _ => false
  | .setForced .. => ()
  | .allForced => []
  | .sleep _ => ()
  | .attempt .. => .overran
  | .jitter => 0.0
  | .freshId => id
  | .appendLog _ => .ok ()
  | .readLog => .ok []
  | .lastAlert _ => none
  | .setLastAlert .. => ()

/-- So many seconds from 1970. -/
def atSecond (n : Nat) : Instant := (Instant.ofMillis? (n * 1000)).getD .epoch

/-- Which steps are made, one at each moment. -/
structure Schedule (κ : Type) where
  store : Store
  clock : Instant
  steps : Nat → ThreadStep κ

namespace Schedule

def config (program : κ → Program α) (y : Schedule κ) : Nat → Config κ α
  | 0 => ⟨y.store, y.clock, []⟩
  | t + 1 => (y.config program t).perform program t (y.steps t)

/-- The registry can always be reached. -/
def Steady (y : Schedule κ) : Prop := ∀ t i why, y.steps t ≠ .fails i why

/-- The pasts of the threads at a moment, held against the configurations before it. -/
structure Traced (program : κ → Program α) (y : Schedule κ) (t : Nat) : Prop where
  path : ∀ th ∈ (y.config program t).threads, Path (program th.job) (th.past.map (·.2)) th.rest
  early : ∀ th ∈ (y.config program t).threads, ∀ e ∈ th.past, e.1 < t
  ascending : ∀ th ∈ (y.config program t).threads, th.past.Pairwise fun e e' => e.1 < e'.1
  reply : ∀ th ∈ (y.config program t).threads, ∀ e ∈ th.past,
    Reply (y.steps e.1) (y.config program e.1).world e.2 (y.config program (e.1 + 1)).world
  /-- Two threads do not make a step at one moment. -/
  apart : ∀ (i j : Nat) (th th' : Thread κ α), (y.config program t).threads[i]? = some th →
    (y.config program t).threads[j]? = some th' → ∀ e ∈ th.past, ∀ e' ∈ th'.past, e.1 = e'.1 → i = j
  /-- Nothing changes by itself. -/
  moved : ∀ p < t, (y.config program (p + 1)).world = (y.config program p).world ∨
    ∃ th ∈ (y.config program t).threads, ∃ x, (p, x) ∈ th.past

theorem traced_opening (program : κ → Program α) (y : Schedule κ) : y.Traced program 0 where
  path := by simp [config]
  early := by simp [config]
  ascending := by simp [config]
  reply := by simp [config]
  apart := by simp [config]
  moved := by simp

theorem Traced.still {y : Schedule κ} {t : Nat} (h : y.Traced program t)
    (hs : y.config program (t + 1) = y.config program t) : y.Traced program (t + 1) where
  path := by rw [hs]; exact h.path
  early := by
    rw [hs]
    intro th hth e he
    have := h.early th hth e he
    omega
  ascending := by rw [hs]; exact h.ascending
  reply := by rw [hs]; exact h.reply
  apart := by rw [hs]; exact h.apart
  moved := by
    intro p hp
    by_cases hpt : p = t
    · exact .inl (by rw [hpt, hs])
    · rw [hs]; exact h.moved p (by omega)

theorem Traced.begins {y : Schedule κ} {t : Nat} {job : κ} (h : y.Traced program t)
    (hs : y.config program (t + 1) = { y.config program t with
      threads := (y.config program t).threads ++ [⟨job, [], program job⟩] }) :
    y.Traced program (t + 1) where
  path := by
    rw [hs]
    intro th hth
    rcases List.mem_append.1 hth with hth | hth
    · exact h.path th hth
    · rw [List.mem_singleton.1 hth]; exact .refl
  early := by
    rw [hs]
    intro th hth e he
    rcases List.mem_append.1 hth with hth | hth
    · have := h.early th hth e he
      omega
    · rw [List.mem_singleton.1 hth] at he; cases he
  ascending := by
    rw [hs]
    intro th hth
    rcases List.mem_append.1 hth with hth | hth
    · exact h.ascending th hth
    · rw [List.mem_singleton.1 hth]; exact .nil
  reply := by
    intro th hth e he
    rw [hs] at hth
    rcases List.mem_append.1 hth with hth | hth
    · exact h.reply th hth e he
    · rw [List.mem_singleton.1 hth] at he; cases he
  apart := by
    rw [hs]
    intro i j th th' hi hj e he e' he' heq
    have old : ∀ {k : Nat} {u : Thread κ α} {f : Nat × Exchange},
        ((y.config program t).threads ++ [⟨job, [], program job⟩])[k]? = some u → f ∈ u.past →
          (y.config program t).threads[k]? = some u := by
      intro k u f hk hf
      rw [List.getElem?_append] at hk
      split at hk
      · exact hk
      · rw [List.mem_singleton.1 (List.mem_of_getElem? hk)] at hf; cases hf
    exact h.apart i j th th' (old hi he) (old hj he') e he e' he' heq
  moved := by
    intro p hp
    by_cases hpt : p = t
    · exact .inl (by rw [hpt, hs]; rfl)
    · obtain hw | ⟨th, hth, x, hx⟩ := h.moved p (by omega)
      · exact .inl hw
      · rw [hs]; exact .inr ⟨th, List.mem_append.2 (.inl hth), x, hx⟩

theorem Traced.goOn {y : Schedule κ} {t i : Nat} {th : Thread κ α} {x : Exchange} {rest : Program α}
    {world : Store × Instant} (h : y.Traced program t)
    (hi : (y.config program t).threads[i]? = some th) (hp : Path th.rest [x] rest)
    (hr : Reply (y.steps t) (y.config program t).world x world)
    (hs : y.config program (t + 1) = (y.config program t).goOn t i th x rest world) :
    y.Traced program (t + 1) where
  path := by
    intro th' hth'
    rw [hs] at hth'
    rcases Config.mem_goOn hth' with hth' | rfl
    · exact h.path th' hth'
    · simpa using (h.path th (List.mem_of_getElem? hi)).trans hp
  early := by
    intro th' hth' e he
    rw [hs] at hth'
    rcases Config.mem_goOn hth' with hth' | rfl
    · have := h.early th' hth' e he
      omega
    · rcases List.mem_append.1 he with he | he
      · have := h.early th (List.mem_of_getElem? hi) e he
        omega
      · rw [List.mem_singleton.1 he]; exact Nat.lt_succ_self t
  ascending := by
    intro th' hth'
    rw [hs] at hth'
    rcases Config.mem_goOn hth' with hth' | rfl
    · exact h.ascending th' hth'
    · have hmem := List.mem_of_getElem? hi
      refine List.pairwise_append.2 ⟨h.ascending th hmem, List.pairwise_singleton _ _, ?_⟩
      intro e he e' he'
      rw [List.mem_singleton.1 he']
      exact h.early th hmem e he
  reply := by
    intro th' hth' e he
    rw [hs] at hth'
    rcases Config.mem_goOn hth' with hth' | rfl
    · exact h.reply th' hth' e he
    · rcases List.mem_append.1 he with he | he
      · exact h.reply th (List.mem_of_getElem? hi) e he
      · rw [List.mem_singleton.1 he, hs]; exact hr
  apart := by
    intro j k u u' hj hk e he e' he' heq
    rw [hs] at hj hk
    -- An exchange of a thread is an old one, or the one at this moment.
    have old : ∀ {l : Nat} {v : Thread κ α} {f : Nat × Exchange},
        ((y.config program t).goOn t i th x rest world).threads[l]? = some v → f ∈ v.past →
          (f.1 = t ∧ l = i) ∨
            ∃ v', (y.config program t).threads[l]? = some v' ∧ f ∈ v'.past ∧ f.1 < t := by
      intro l v f hl hf
      simp only [Config.goOn, List.getElem?_set] at hl
      split at hl
      · subst l
        split at hl
        · cases hl
          rcases List.mem_append.1 hf with hf | hf
          · exact .inr ⟨th, hi, hf, h.early th (List.mem_of_getElem? hi) f hf⟩
          · rw [List.mem_singleton.1 hf]; exact .inl ⟨rfl, rfl⟩
        · cases hl
      · exact .inr ⟨v, hl, hf, h.early v (List.mem_of_getElem? hl) f hf⟩
    obtain ⟨het, rfl⟩ | ⟨v, hv, hev, hlt⟩ := old hj he
    · obtain ⟨_, rfl⟩ | ⟨v', _, _, hlt'⟩ := old hk he'
      · rfl
      · omega
    · obtain ⟨het', rfl⟩ | ⟨v', hv', hev', _⟩ := old hk he'
      · omega
      · exact h.apart j k v v' hv hv' e hev e' hev' heq
  moved := by
    intro p hp
    have hnew : ⟨th.job, th.past ++ [(t, x)], rest⟩ ∈ (y.config program (t + 1)).threads := by
      rw [hs]
      exact List.mem_set (List.getElem?_eq_some_iff.1 hi).1 _
    by_cases hpt : p = t
    · exact .inr ⟨_, hnew, x, by simp [hpt]⟩
    · obtain hw | ⟨u, hu, z, hz⟩ := h.moved p (by omega)
      · exact .inl hw
      · obtain ⟨j, hj⟩ := List.mem_iff_getElem?.1 hu
        by_cases hij : i = j
        · subst j
          rw [hi] at hj
          cases hj
          exact .inr ⟨_, hnew, z, List.mem_append.2 (.inl hz)⟩
        · refine .inr ⟨u, List.mem_of_getElem? (i := j) ?_, z, hz⟩
          rw [hs, ← hj]
          exact List.getElem?_set_ne hij

/-- Whatever happens, the pasts of the threads are the history of the configuration. -/
theorem traced (program : κ → Program α) (y : Schedule κ) (t : Nat) : y.Traced program t := by
  induction t with
  | zero => exact y.traced_opening program
  | succ t ih =>
    obtain hs | ⟨job, hs⟩ | ⟨i, th, x, rest, world, hi, hp, hr, hs⟩ :=
      (y.config program t).perform_cases program t (y.steps t)
    · exact ih.still hs
    · exact ih.begins hs
    · exact ih.goOn hi hp hr hs

end Schedule
end Config
end WorkerGuard
