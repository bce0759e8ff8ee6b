import WorkerGuard.Proofs.Breaker.Step
import WorkerGuard.Proofs.Task.Garbled

/-!
# WorkerGuard.Proofs.Task.Pressure

How often a dependency that always fails is called.

* `Within T c t₀ n now k`: the condition `k` at the time `now` is one that `n` failed calls since
  `t₀` have led to: below the threshold `T` the breaker has counted them, and each one past it was a
  probe, a cooldown `c` after the one before.
* `Besieged E clock d shared Has`: in the environment `E` all calls to `d` fail, and only the program
  writes what its breaker is kept in. `Besieged.keepsTries`: attempts stay within.
* `InTurn`: executions and whole runs one after another, each by a process with a word of its own.
  One that waits for ever for its turn to write the row is the last one.
* `calls_bounded`: how many calls they make while the row can be reached. `touchy_called_twice`: there
  may be more while it cannot.
-/

namespace WorkerGuard

open Breaker Program Simulation

namespace Breaker

variable {T c t₀ n now now' : Nat} {k : Condition}

def Within (T c t₀ n now : Nat) (k : Condition) : Prop :=
  (k.circuit = .closed ∧ k.failures = n ∧ n < T) ∨
    (k.circuit ≠ .closed ∧ T ≤ n ∧ min t₀ maxStamp + (n - T) * c ≤ k.stamp ∧ k.stamp ≤ now)

/-- One call more may be made, and its outcome is not recorded yet. -/
def Admitted (T c t₀ n now : Nat) (k : Condition) : Prop :=
  (k.circuit = .closed ∧ k.failures = n ∧ n < T) ∨
    (k.circuit = .halfOpen ∧ Within T c t₀ (n + 1) now k)

theorem Within.mono (h : Within T c t₀ n now k) (hnow : now ≤ now') : Within T c t₀ n now' k := by
  obtain h | ⟨hopen, hT, hle, hstamp⟩ := h
  · exact .inl h
  · exact .inr ⟨hopen, hT, hle, Nat.le_trans hstamp hnow⟩

theorem Within.le (h : Within T c t₀ n now k) (hc : 0 < c) (ht : t₀ ≤ now) :
    n ≤ T + (now - t₀) / c := by
  obtain ⟨_, _, hlt⟩ | ⟨_, hT, hle, hstamp⟩ := h
  · exact Nat.le_trans (Nat.le_of_lt hlt) (Nat.le_add_right ..)
  · have hcap := k.stamp_le
    have hspent : (n - T) * c ≤ now - t₀ := by
      by_cases h₀ : t₀ ≤ maxStamp
      · rw [Nat.min_eq_left h₀] at hle
        omega
      · rw [Nat.min_eq_right (by omega)] at hle
        omega
    exact Nat.sub_le_iff_le_add'.1 ((Nat.le_div_iff_mul_le hc).2 hspent)

/-- Only a closed breaker lets calls pass that are no probes. -/
theorem Within.admitted (h : Within T c t₀ n now k) (hnow : now ≤ now')
    (hpass : (k.admitStep now' c).isSome = true ∨ k.circuit = .closed) :
    Admitted T c t₀ n now' ((k.admitStep now' c).getD k) := by
  cases hprobe : k.admitStep now' c with
  | none =>
    rw [hprobe] at hpass
    obtain hpass | hclosed := hpass
    · cases hpass
    · obtain h | ⟨hopen, _⟩ := h
      · exact .inl h
      · exact absurd hclosed hopen
  | some k' =>
    obtain ⟨hopen, helapsed, rfl⟩ := Condition.admitStep_eq_some hprobe
    obtain ⟨hclosed, _⟩ | ⟨_, hT, hle, hstamp⟩ := h
    · exact absurd hclosed hopen
    · refine .inr ⟨rfl, .inr ⟨nofun, by omega, ?_, Nat.min_le_left _ _⟩⟩
      have hsplit : (n + 1 - T) * c = (n - T) * c + c := by
        rw [Nat.sub_add_comm hT, Nat.succ_mul]
      simp only [Condition.elapsed] at helapsed
      show min t₀ maxStamp + (n + 1 - T) * c ≤ min now' maxStamp
      have hpast := k.stamp_le
      omega

theorem Admitted.failureStep (h : Admitted T c t₀ n now k) (hnow : now ≤ now') (ht : t₀ ≤ now')
    (hT : T ≤ maxFailures) : Within T c t₀ (n + 1) now' (k.failureStep now' T) := by
  have hstart : min t₀ maxStamp ≤ min now' maxStamp := by omega
  obtain ⟨hclosed, rfl, hlt⟩ | ⟨hhalf, hwithin⟩ := h
  · have hcount : min (k.failures + 1) maxFailures = k.failures + 1 := by omega
    simp only [Condition.failureStep, hclosed, hcount]
    split
    · refine .inr ⟨nofun, by omega, ?_, Nat.min_le_left _ _⟩
      rw [show k.failures + 1 - T = 0 by omega, Nat.zero_mul]
      exact hstart
    · exact .inl ⟨rfl, hcount, by omega⟩
  · obtain ⟨hclosed, _⟩ | ⟨_, hle, hspent, hstamp⟩ := hwithin
    · rw [hhalf] at hclosed
      cases hclosed
    · have hcap := k.stamp_le
      simp only [Condition.failureStep, hhalf]
      refine .inr ⟨nofun, hle, ?_, Nat.min_le_left _ _⟩
      show _ ≤ min now' maxStamp
      omega

end Breaker

/-- All calls to `d` fail, and nobody else writes what its breaker is kept in. -/
structure Besieged {σ : Type} (E : Environment σ) (clock : σ → Nat) (d : Dependency)
    (shared : Bool) (Has : Condition → σ → Prop) : Prop where
  steady : Steady E d shared Has
  ticks : ∀ h q a h', E h q a h' → Ticking (clock h) q a (clock h')
  fails : ∀ {bound : Duration} {h h' : σ} {a : Attempt}, E h (.attempt d bound) a h' →
    ∀ v, a ≠ .returned (.ok v)
  still : ∀ {k : Condition} {q : Call} {h h' : σ} {a : q.Answer}, Has k h →
    q.Waits ∨ q = .forced d ∨ (∃ bound, q = .attempt d bound) → E h q a h' → Has k h'

/-- The exchanges so far have left the breaker within the bounds. -/
def Pressed {σ : Type} (b : Breaker) (t₀ : Nat) (clock : σ → Nat) (Has : Condition → σ → Prop)
    (l : List Exchange) (h : σ) : Prop :=
  t₀ ≤ clock h ∧ ∃ k, Has k h ∧
    Within b.threshold b.cooldownMillis t₀ (l.countP Exchange.isAttempt) (clock h) k

theorem countP_attempt_once (l : List Exchange) {l₁ l₂ : List Exchange} {d : Dependency}
    {bound : Duration} {a : Attempt} (h₁ : l₁.countP Exchange.isAttempt = 0)
    (h₂ : l₂.countP Exchange.isAttempt = 0) :
    (l ++ (l₁ ++ ⟨.attempt d bound, a⟩ :: l₂)).countP Exchange.isAttempt =
      l.countP Exchange.isAttempt + 1 := by
  rw [List.countP_append, List.countP_append, List.countP_cons, h₁, h₂]
  rfl

section Besieged

variable {σ : Type} {E : Environment σ} {clock : σ → Nat} {b : Breaker} {t₀ : Nat}
variable {Has : Condition → σ → Prop} {k : Condition} {h h' : σ} {l : List Exchange}
variable (hb : Besieged E clock b.dependency b.shared Has)
include hb

theorem Besieged.allow {r : Except Halt Bool} (hk : Has k h) (hr : Trail E b.allow h l r h') :
    (r ≠ .ok true ∧ Has k h') ∨ (r = .ok true ∧ 0 < b.patience ∧ ∃ now, clock h ≤ now ∧
      now ≤ clock h' ∧ ((k.admitStep now b.cooldownMillis).isSome = true ∨ k.circuit = .closed) ∧
      Has ((k.admitStep now b.cooldownMillis).getD k) h') := by
  obtain ⟨forced, h₁, l₁, rfl, hforced, hr⟩ := trail_call_bind hr
  have hk := hb.still hk (.inr (.inl rfl)) hforced
  cases forced with
  | true =>
    obtain ⟨_, rfl, rfl⟩ := trail_pure hr
    exact .inl ⟨nofun, hk⟩
  | false =>
    obtain ⟨o, h₂, l₂, l₃, rfl, hstep, hr⟩ | ⟨why, rfl, hstep⟩ := trail_bind hr
    · obtain ⟨_, ⟨_, hwhy, _⟩ | ⟨o', hpos, ho, t, ht, rfl, hlast⟩⟩ := hb.steady b _ rfl rfl hk hstep
      · cases hwhy
      · cases ho
        obtain ⟨rfl, rfl, rfl⟩ := trail_pure hr
        have hclock := Ticking.now_mem hb.ticks hstep ht
        by_cases hpass : (k.admitStep t.millis.toNat b.cooldownMillis).isSome = true ∨
            k.circuit = .closed
        · have hgo :
              ((k.admitStep t.millis.toNat b.cooldownMillis).isSome || k.circuit == .closed) =
              true := by simpa using hpass
          refine .inr ⟨congrArg Except.ok hgo, hpos, t.millis.toNat, ?_, hclock.2, hpass, hlast⟩
          exact Nat.le_trans (hb.ticks _ _ _ _ hforced).le hclock.1
        · obtain ⟨hnone, hopen⟩ := not_or.1 hpass
          rw [Option.not_isSome_iff_eq_none] at hnone
          refine .inl ⟨?_, ?_⟩
          · simp [hnone, hopen]
          · simpa [Outcome.last, hnone] using hlast
    · obtain ⟨_, ⟨_, _, hk⟩ | ⟨_, _, hwhy, _⟩⟩ := hb.steady b _ rfl rfl hk hstep
      · exact .inl ⟨nofun, hk⟩
      · cases hwhy

theorem Besieged.recordFailure {α : Type} {v : α} {r : Except Halt α} (hpos : 0 < b.patience)
    (hk : Has k h) (hr : Trail E (b.recordFailure >>= fun _ => pure v) h l r h') :
    ∃ now, clock h ≤ now ∧ now ≤ clock h' ∧ Has (k.failureStep now b.threshold) h' := by
  obtain ⟨_, h₁, l₁, l₂, rfl, hreport, hr⟩ | ⟨why, rfl, hreport⟩ := trail_bind hr
  · obtain ⟨rfl, rfl, rfl⟩ := trail_pure hr
    obtain ⟨o, h₂, l₃, l₄, rfl, hstep, hr⟩ := trail_bind_ok hreport
    obtain ⟨rfl, _, rfl⟩ := trail_pure hr
    obtain ⟨_, ⟨_, hwhy, _⟩ | ⟨o', _, ho, t, ht, rfl, hlast⟩⟩ := hb.steady b _ rfl rfl hk hstep
    · cases hwhy
    · obtain ⟨hfrom, hto⟩ := Ticking.now_mem hb.ticks hstep ht
      exact ⟨t.millis.toNat, hfrom, hto, hlast⟩
  · obtain ⟨o, h₂, l₃, l₄, rfl, _, hr⟩ | ⟨why', _, hstep⟩ := trail_bind hreport
    · cases (trail_pure hr).2.1
    · obtain ⟨_, ⟨hzero, _, _⟩ | ⟨_, _, hwhy, _⟩⟩ := hb.steady b _ rfl rfl hk hstep
      · omega
      · cases hwhy

/-- The number of attempts is never out of range here: it is below the threshold, or the breaker is
not closed. -/
theorem Besieged.keepsTries :
    Retry.KeepsTries E (Pressed b t₀ clock Has) Never b := by
  intro bound made l h l' r h' ⟨ht, k, hk, hwithin⟩ hmade hr
  refine .inl ?_
  obtain ⟨allowed, h₁, l₁, l₂, rfl, hallow, hr⟩ | ⟨why, rfl, hallow⟩ := trail_bind hr
  · have hcount := Retry.allow_attempts hallow
    have hclock := Ticking.trail_le hb.ticks hallow
    obtain ⟨hne, hk⟩ | ⟨hok, hpos, now, hfrom, hto, hpass, hk⟩ := hb.allow hk hallow
    · have hfalse : allowed = false := by
        cases allowed with
        | true => exact absurd rfl hne
        | false => rfl
      subst hfalse
      obtain ⟨rfl, _, rfl⟩ := trail_pure hr
      refine ⟨Nat.le_trans ht hclock, k, hk, ?_⟩
      rw [List.append_nil, List.countP_append, hcount]
      exact hwithin.mono hclock
    · cases hok
      have hadmitted := hwithin.admitted hfrom hpass
      obtain ⟨a, h₂, l₃, rfl, hattempt, hr⟩ := trail_call_bind hr
      have hk := hb.still hk (.inr (.inr ⟨bound, rfl⟩)) hattempt
      have hclock₂ := (hb.ticks _ _ _ _ hattempt).le
      have hclock₃ := Ticking.trail_le hb.ticks hr
      have hfailed : ∀ {o : Except Failure.CallError Json},
          Trail E (b.recordFailure >>= fun _ => pure (some o)) h₂ l₃ r h' →
            Pressed b t₀ clock Has (l ++ (l₁ ++ ⟨.attempt b.dependency bound, a⟩ :: l₃)) h' := by
        intro o hr
        obtain ⟨now', hfrom', hto', hk⟩ := hb.recordFailure hpos hk hr
        have hlater : now ≤ now' := by omega
        have hnext := hadmitted.failureStep hlater (by omega) b.threshold_le
        refine ⟨by omega, _, hk, ?_⟩
        rw [countP_attempt_once l hcount (Retry.report_attempts b.asks_recordFailure hr)]
        exact hnext.mono hto'
      split at hr
      · rename_i hsize
        obtain ⟨rfl, _, rfl⟩ := trail_halt hr
        obtain ⟨_, _, hlt⟩ | ⟨_, hnext⟩ := hadmitted
        · have hT := b.threshold_le
          simp only [maxFailures, UInt32.size] at hT hsize
          omega
        · refine ⟨by omega, _, hk, ?_⟩
          rw [countP_attempt_once l hcount rfl]
          exact hnext.mono (by omega)
      · split at hr
        · exact absurd rfl (hb.fails hattempt _)
        · exact hfailed hr
        · exact hfailed hr
  · have hclock := Ticking.trail_le hb.ticks hallow
    obtain ⟨_, hk⟩ | ⟨hok, _⟩ := hb.allow hk hallow
    · refine ⟨Nat.le_trans ht hclock, k, hk, ?_⟩
      rw [List.countP_append, Retry.allow_attempts hallow]
      exact hwithin.mono hclock
    · cases hok

end Besieged

theorem keepsCalls_pressed {σ : Type} {E : Environment σ} {clock : σ → Nat} {b : Breaker} {t₀ : Nat}
    {Has : Condition → σ → Prop} {P : Call → Prop}
    (hticks : ∀ h q a h', E h q a h' → Ticking (clock h) q a (clock h'))
    (hstill : ∀ k h q a h', P q → Has k h → E h q a h' → Has k h')
    (hP : ∀ e : Exchange, P e.call → e.isAttempt = false) :
    KeepsCalls E (Pressed b t₀ clock Has) P := by
  intro q hq l h a h' ⟨ht, k, hk, hwithin⟩ ha
  have hclock := (hticks _ _ _ _ ha).le
  refine ⟨Nat.le_trans ht hclock, k, hstill _ _ _ _ _ hq hk ha, ?_⟩
  rw [List.countP_append, List.countP_cons, hP ⟨q, a⟩ hq]
  exact hwithin.mono hclock

/-- No call to `d` returns a value. -/
def Fails (d : Dependency) : (q : Call) → q.Answer → Prop
  | .attempt d' _, a => d' = d → ∀ v, a ≠ .returned (.ok v)
  | _, _ => True

/-- Surroundings in which `d` always fails. Its breaker is in the registry if it is shared, and in
the word of one process otherwise. -/
def Dead (d : Dependency) (shared : Bool) (others outages : Registry.Request → Prop) :
    Environment World := fun h q a h' =>
  Served others outages h.store q a h'.store ∧ (shared = false → Kept d h.word q a h'.word) ∧
    Ticking h.clock q a h'.clock ∧ Fails d q a

/-- What the breaker of `d` is found in. -/
def Simulation.World.Shows (d : Dependency) : Bool → Condition → World → Prop
  | true, k, h => ∃ r, h.store.Holds d r ∧ .ofRow r = k
  | false, k, h => decode h.word = k

section Solo

variable {d : Dependency} {k : Condition} {h h' : World} {q : Call} {a : q.Answer}

theorem SoloRow.shows_still {E : Environment World} {O : Prop}
    (hrow : SoloRow E d O fun r h => h.store.Holds d r) (hk : h.Shows d true k)
    (hq : q.Waits ∨ q = .forced d ∨ ∃ bound, q = .attempt d bound) (ha : E h q a h') :
    h'.Shows d true k := by
  obtain ⟨r, hr, rfl⟩ := hk
  refine ⟨r, hrow.other hr ha ?_, rfl⟩
  obtain hq | rfl | ⟨bound, rfl⟩ := hq
  · exact hq.only.not_swaps (by decide)
  · exact fun h => h
  · exact fun h => h

theorem Simulation.Kept.shows_still (ha : Kept d h.word q a h'.word) (hk : h.Shows d false k)
    (hq : q.Waits ∨ q = .forced d ∨ ∃ bound, q = .attempt d bound) : h'.Shows d false k := by
  refine (congrArg decode ?_).trans hk
  obtain hq | rfl | ⟨bound, rfl⟩ := hq
  · cases q with
    | enlist d' => exact ha
    | sleep t => exact ha
    | jitter => exact ha
    | _ => cases hq
  · exact ha
  · exact ha

theorem Simulation.World.shows_word (d : Dependency) :
    SoloWord.Shows (fun w (h : World) => h.word = w) = World.Shows d false := by
  funext k h
  refine propext ⟨?_, fun hk => ⟨_, rfl, hk⟩⟩
  rintro ⟨_, rfl, hk⟩
  exact hk

end Solo

section Dead

variable {d : Dependency} {others outages : Registry.Request → Prop}

theorem Dead.soloRow (hothers : ∀ q, others q → ¬q.Swaps d) (houtages : ∀ q, outages q → ¬q.OfRow d) :
    SoloRow (Dead d true others outages) d False fun r h => h.store.Holds d r :=
  Served.soloRow (fun _ _ _ _ h => h.1) hothers houtages

theorem besieged_shared (hothers : ∀ q, others q → ¬q.Swaps d)
    (houtages : ∀ q, outages q → ¬q.OfRow d) :
    Besieged (Dead d true others outages) World.clock d true (World.Shows d true) where
  steady := (Dead.soloRow hothers houtages).steady
  ticks _ _ _ _ h := h.2.2.1
  fails h := h.2.2.2 rfl
  still hk hq ha := (Dead.soloRow hothers houtages).shows_still hk hq ha

theorem besieged_local :
    Besieged (Dead d false others outages) World.clock d false (World.Shows d false) where
  steady := World.shows_word d ▸ (Kept.soloWord fun _ _ _ _ h => h.2.1 rfl).steady
  ticks _ _ _ _ h := h.2.2.1
  fails h := h.2.2.2 rfl
  still hk hq ha := (ha.2.1 rfl).shows_still hk hq

end Dead

/-- What a process does that calls a dependency. -/
inductive Workload where
  | execute (p : Retry.Policy)
  | run (task : Task) (w : Worker)

namespace Workload

def program (s : Settings) (d : Dependency) (shared : Bool) : Workload → Program Unit
  | execute p => do let _ ← Retry.execute (s.board shared) d p
  | run task w => do let _ ← Task.run s task w

/-- Workers have a registry, and their breakers are in it. -/
def At (d : Dependency) (shared : Bool) : Workload → Prop
  | execute _ => True
  | run _ w => shared = true ∧ w.dependency = d

end Workload

/-- Programs one after another, each to its end or to where it halts. `Next` is how the next process
finds what the last one has left. -/
inductive InTurn {σ α κ : Type} (E : Environment σ) (Next : σ → σ → Prop)
    (program : κ → Program α) : List κ → σ → List Exchange → σ → Prop where
  | nil {h : σ} : InTurn E Next program [] h [] h
  | cons {k : κ} {ks : List κ} {h h₁ h₂ h' : σ} {l l' : List Exchange} {r : Except Halt α}
      (hr : Trail E (program k) h l r h₁) (hends : r ≠ .error .contention) (hnext : Next h₁ h₂)
      (hs : InTurn E Next program ks h₂ l' h') : InTurn E Next program (k :: ks) h (l ++ l') h'
  | last {k : κ} {ks : List κ} {h h' : σ} {l : List Exchange}
      (hr : Trail E (program k) h l (.error .contention) h') :
      InTurn E Next program (k :: ks) h l h'

section InTurn

variable {σ α κ : Type} {E : Environment σ} {Next : σ → σ → Prop} {program : κ → Program α}
variable {ks : List κ} {h h' : σ}

theorem InTurn.keeps {J K : List Exchange → σ → Prop} {l l' : List Exchange}
    (hks : ∀ k ∈ ks, Keeps E J K (program k)) (hnext : ∀ l h h', Next h h' → J l h → J l h')
    (hJ : J l h) (hs : InTurn E Next program ks h l' h') : J (l ++ l') h' ∨ K (l ++ l') h' := by
  induction hs generalizing l with
  | nil =>
    rw [List.append_nil]
    exact .inl hJ
  | cons hr hends hfound _ ih =>
    have hJ := (hks _ (List.mem_cons_self ..) hJ hr).resolve_right fun hK => hends hK.1
    rw [← List.append_assoc]
    exact ih (fun k hk => hks k (List.mem_cons_of_mem _ hk)) (hnext _ _ _ hfound hJ)
  | last hr => exact (hks _ (List.mem_cons_self ..) hJ hr).imp_right And.right

theorem InTurn.clock_le {clock : σ → Nat} {l : List Exchange}
    (hticks : ∀ h q a h', E h q a h' → Ticking (clock h) q a (clock h'))
    (hnext : ∀ h h', Next h h' → clock h' = clock h) (hs : InTurn E Next program ks h l h') :
    clock h ≤ clock h' := by
  induction hs with
  | nil => exact Nat.le_refl _
  | cons hr _ hfound _ ih =>
    exact Nat.le_trans (hnext _ _ hfound ▸ Ticking.trail_le hticks hr) ih
  | last hr => exact Ticking.trail_le hticks hr

end InTurn

/-- Another process may be next, with a word of its own. A breaker that is not shared is one
process's. -/
def Simulation.World.Passed (shared : Bool) (h h' : World) : Prop :=
  h'.store = h.store ∧ h'.clock = h.clock ∧ (shared = false → h'.word = h.word)

/-- The bounds that all workloads keep. -/
def Simulation.World.Pressed (s : Settings) (d : Dependency) (shared : Bool) (t₀ : Nat) :
    List Exchange → World → Prop :=
  WorkerGuard.Pressed ((s.board shared).breaker d) t₀ clock (Shows d shared)

/-- The breaker of `d` is closed and has counted no failure. -/
def Simulation.World.AtRest (d : Dependency) : Bool → World → Prop
  | true, h => ∃ r, h.store.Filed d r ∧ r.circuit = .closed ∧ r.failures = 0
  | false, h => (decode h.word).circuit = .closed ∧ (decode h.word).failures = 0

section Bounded

variable {s : Settings} {d : Dependency} {others outages : Registry.Request → Prop} {t₀ : Nat}

theorem Simulation.World.Pressed.passed {shared : Bool} {l : List Exchange} {h h' : World}
    (hpass : h.Passed shared h') (hp : World.Pressed s d shared t₀ l h) :
    World.Pressed s d shared t₀ l h' := by
  obtain ⟨hstore, hclock, hword⟩ := hpass
  obtain ⟨hle, k, hk, hwithin⟩ := hp
  refine ⟨hclock ▸ hle, k, ?_, hclock ▸ hwithin⟩
  cases shared with
  | false => exact (congrArg decode (hword rfl)).trans hk
  | true =>
    obtain ⟨r, hholds, hr⟩ := hk
    exact ⟨r, hstore ▸ hholds, hr⟩

theorem keeps_workload {J K : List Exchange → World → Prop} {workload : Workload}
    (hat : workload.At d true)
    (htry : Retry.KeepsTries (Dead d true others outages) J K ((s.board true).breaker d))
    (hidle : KeepsCalls (Dead d true others outages) J Call.Idle) :
    Keeps (Dead d true others outages) J K (workload.program s d true) := by
  have hwait : KeepsCalls (Dead d true others outages) J Call.Waits :=
    fun q hq => hidle q (hq.only.idle (by decide))
  cases workload with
  | execute p => exact keeps_bind (Retry.keeps_execute htry hwait) fun _ => keeps_pure _
  | run task w =>
    obtain ⟨_, rfl⟩ := hat
    exact keeps_bind (Task.keeps_run (fun _ _ _ _ h => h.1) htry hidle) fun _ => keeps_pure _

theorem keeps_workload_shared (hothers : ∀ q, others q → ¬q.Swaps d)
    (houtages : ∀ q, outages q → ¬q.OfRow d) {workload : Workload} (hat : workload.At d true) :
    Keeps (Dead d true others outages) (World.Pressed s d true t₀) Never
      (workload.program s d true) := by
  have hb := besieged_shared hothers houtages
  refine keeps_workload hat (Besieged.keepsTries (b := (s.board true).breaker d) hb)
    (keepsCalls_pressed hb.ticks ?_ fun _ hq => hq.only.isAttempt (by decide))
  rintro k h q a h' hq ⟨r, hrow, rfl⟩ ha
  exact ⟨r, (Dead.soloRow hothers houtages).other hrow ha (hq.only.not_swaps (by decide)), rfl⟩

/-- The first attempt is the last one. -/
theorem keeps_workload_garbled (hothers : ∀ q, others q → ¬q.Swaps d)
    (houtages : ∀ q, outages q → ¬q.OfRow d) {r : Row} (hclosed : r.circuit = .closed)
    {workload : Workload} (hat : workload.At d true) :
    Keeps (Dead d true others outages) (Untried World.store d r)
      (fun l _ => l.countP Exchange.isAttempt ≤ 1) (workload.program s d true) := by
  have hE : ∀ h q a h', Dead d true others outages h q a h' →
      Served others outages h.store q a h'.store := fun _ _ _ _ ha => ha.1
  exact keeps_workload hat
    (keepsTries_garbled hE hothers houtages rfl rfl hclosed fun ha => ha.2.2.2 rfl)
    (keepsCalls_garbled hE hothers)

theorem keeps_workload_local {workload : Workload} (hat : workload.At d false) :
    Keeps (Dead d false others outages) (World.Pressed s d false t₀) Never
      (workload.program s d false) := by
  have hb : Besieged (Dead d false others outages) World.clock d false (World.Shows d false) :=
    besieged_local
  have htry : Retry.KeepsTries (Dead d false others outages) (World.Pressed s d false t₀) Never
      ((s.board false).breaker d) := Besieged.keepsTries hb
  cases workload with
  | execute p =>
    refine keeps_bind (Retry.keeps_execute htry ?_) fun _ => keeps_pure _
    exact keepsCalls_pressed hb.ticks (fun k h q a h' hq hk ha => hb.still hk (.inl hq) ha)
      fun e he => he.only.isAttempt (by decide)
  | run task w => cases hat.1

/-- From a closed breaker without failures on, there are no more calls to a dependency that always
fails than the threshold of the breaker and one for each cooldown that passes, as long as the row of
a shared breaker can be reached. -/
theorem calls_bounded (s : Settings) (d : Dependency) (shared : Bool)
    {others outages : Registry.Request → Prop}
    (hothers : shared = true → ∀ q, others q → ¬q.Swaps d)
    (houtages : shared = true → ∀ q, outages q → ¬q.OfRow d)
    (hpos : 0 < ((s.board shared).breaker d).cooldown.millis)
    (hlt : ((s.board shared).breaker d).cooldown.millis < UInt64.size)
    {workloads : List Workload} (hat : ∀ workload ∈ workloads, workload.At d shared) {h h' : World}
    {l : List Exchange} (hrest : h.AtRest d shared)
    (hr : InTurn (Dead d shared others outages) (World.Passed shared) (Workload.program s d shared)
      workloads h l h') :
    h.clock ≤ h'.clock ∧ l.countP Exchange.isAttempt ≤ ((s.board shared).breaker d).threshold +
      (h'.clock - h.clock) / ((s.board shared).breaker d).cooldown.millis := by
  have hmillis : ((s.board shared).breaker d).cooldownMillis =
      ((s.board shared).breaker d).cooldown.millis := Nat.mod_eq_of_lt hlt
  have hclock : h.clock ≤ h'.clock :=
    hr.clock_le (fun _ _ _ _ ha => ha.2.2.1) fun _ _ hpass => hpass.2.1
  have hpressed : (∀ workload ∈ workloads, Keeps (Dead d shared others outages)
      (World.Pressed s d shared h.clock) Never (workload.program s d shared)) →
      (∃ k, h.Shows d shared k ∧ k.circuit = .closed ∧ k.failures = 0) →
      l.countP Exchange.isAttempt ≤ ((s.board shared).breaker d).threshold +
        (h'.clock - h.clock) / ((s.board shared).breaker d).cooldown.millis := by
    rintro hkeeps ⟨k, hk, hclosed, hnone⟩
    have hstart : World.Pressed s d shared h.clock [] h :=
      ⟨Nat.le_refl _, k, hk, .inl ⟨hclosed, hnone, Breaker.threshold_pos _⟩⟩
    obtain ⟨_, k', _, hwithin⟩ :=
      (hr.keeps hkeeps (fun _ _ _ => .passed) hstart).resolve_right id
    rw [hmillis] at hwithin
    exact hwithin.le hpos hclock
  refine ⟨hclock, ?_⟩
  cases shared with
  | false =>
    exact hpressed (fun workload hmem => keeps_workload_local (hat workload hmem)) ⟨_, rfl, hrest⟩
  | true =>
    obtain ⟨r, hfiled, hclosed, hnone⟩ := hrest
    by_cases hfits : h.store.Fits r
    · refine hpressed (fun workload hmem =>
        keeps_workload_shared (hothers rfl) (houtages rfl) (hat workload hmem)) ?_
      refine ⟨.ofRow r, ⟨r, hfiled.holds hfits, rfl⟩, hclosed, ?_⟩
      simp [Condition.ofRow, Condition.capped, hnone]
    · have hkeeps : ∀ workload ∈ workloads, Keeps (Dead d true others outages)
          (Untried World.store d r) (fun l _ => l.countP Exchange.isAttempt ≤ 1)
          (workload.program s d true) := fun workload hmem =>
        keeps_workload_garbled (hothers rfl) (houtages rfl) hclosed (hat workload hmem)
      have hthreshold := Breaker.threshold_pos ((s.board true).breaker d)
      have hpass : ∀ l h h', World.Passed true h h' → Untried World.store d r l h →
          Untried World.store d r l h' := fun l h h' hp hu => ⟨hu.1, hp.1 ▸ hu.2⟩
      obtain ⟨hzero, _⟩ | hone := hr.keeps hkeeps hpass (l := []) ⟨rfl, hfiled, hfits⟩
      · rw [List.nil_append] at hzero
        exact hzero ▸ Nat.zero_le _
      · rw [List.nil_append] at hone
        exact Nat.le_trans hone (Nat.le_trans hthreshold (Nat.le_add_right ..))

end Bounded

/-- One failure opens the breakers. -/
def touchy : Settings := { breakerDefaults := ⟨1, 60⟩ }

/-- A time that does not pass. -/
def frozen (s : Store) : World := ⟨s, encode .fresh, 0⟩

theorem dead_frozen {others outages : Registry.Request → Prop} (s : Store) (q : Call) :
    Dead ⟨"api"⟩ true others outages (frozen s) q (serve (Call.calm .epoch ⟨"w-2"⟩) s q).1
      (frozen (serve (Call.calm .epoch ⟨"w-2"⟩) s q).2) := by
  refine ⟨served_serve _ s q, nofun, ?_, ?_⟩
  · cases q with
    | now => exact ⟨Nat.le_refl 0, (by decide : Instant.epoch.millis.toNat = 0)⟩
    | _ => exact Nat.le_refl 0
  · cases q with
    | attempt d bound => exact fun _ => nofun
    | _ => trivial

/-- A program that is followed to its end, and then the others. -/
theorem InTurn.cons_follow {σ τ α κ : Type} {E : Environment τ} {N : τ → τ → Prop}
    {p : κ → Program α} {k : κ} {ks : List κ} {f : σ → τ} {answer : σ → (q : Call) → q.Answer × σ}
    (hE : ∀ s q, E (f s) q (answer s q).1 (f (answer s q).2)) {s : σ} {l : List Exchange} {h h' : τ}
    (hok : ((p k).follow answer s).2.1.isOk = true)
    (hnext : N (f ((p k).follow answer s).2.2) h) (hs : InTurn E N p ks h l h') :
    InTurn E N p (k :: ks) (f s) (((p k).follow answer s).1 ++ l) h' := by
  have hr := trail_follow (E := fun s q a s' => E (f s) q a (f s')) hE (p k) s
  refine .cons (hr.map fun _ _ _ _ ha => ha) ?_ hnext hs
  intro hwhy
  rw [hwhy] at hok
  cases hok

/-- A task, then a call of its own: the first attempt fails, and it remains the only one. -/
theorem touchy_called_once : ∃ l h', InTurn (Dead ⟨"api"⟩ true (fun _ => False) fun _ => False)
    (World.Passed true) (Workload.program touchy ⟨"api"⟩ true)
    [.run ⟨"job", none⟩ Task.lone, .execute (.ofSettings touchy.retry)] (frozen Task.lonely.store)
    l h' ∧ l.countP Exchange.isAttempt = 1 ∧
      l.countP Exchange.isAttempt ≤ ((touchy.board true).breaker ⟨"api"⟩).threshold +
        (h'.clock - 0) / ((touchy.board true).breaker ⟨"api"⟩).cooldown.millis := by
  have hr := InTurn.cons_follow (N := World.Passed true) (p := Workload.program touchy ⟨"api"⟩ true)
    (k := .run ⟨"job", none⟩ Task.lone) (s := Task.lonely.store)
    (@dead_frozen (fun _ => False) (fun _ => False)) (by decide +kernel) ⟨rfl, rfl, nofun⟩
    (.cons_follow (k := .execute (.ofSettings touchy.retry)) dead_frozen (by decide +kernel)
      ⟨rfl, rfl, nofun⟩ .nil)
  have hrest : (frozen Task.lonely.store).AtRest ⟨"api"⟩ true := ⟨.fresh, rfl, rfl, rfl⟩
  refine ⟨_, _, hr, by decide +kernel, ?_⟩
  refine (calls_bounded touchy ⟨"api"⟩ true (fun _ _ => False.elim) (fun _ _ => False.elim)
    (by decide) (by decide) ?_ hrest hr).2
  intro workload hmem
  simp only [List.mem_cons, List.not_mem_nil, or_false] at hmem
  obtain rfl | rfl := hmem
  · exact ⟨rfl, rfl⟩
  · trivial

section CutOff

/-- The dependency always fails, nobody else is there, and the row may be out of reach. -/
def Unsteady : Environment World := fun h q a h' =>
  Dead ⟨"api"⟩ true (fun _ => False) (Registry.Request.OfRow ⟨"api"⟩) h q a h' ∧
    Kept ⟨"api"⟩ h.word q a h'.word

/-- A registry and a word, at a time that does not pass. -/
def halted (p : Store × UInt64) : World := ⟨p.1, p.2, 0⟩

/-- The row is out of reach, and all else is there. -/
def cutOff (p : Store × UInt64) : (q : Call) → q.Answer × (Store × UInt64)
  | .registry (.loadBreaker ⟨"api"⟩) => (.error .locked, p)
  | .registry (.swapBreaker ⟨"api"⟩ ..) => (.error .locked, p)
  | q =>
    let next := (halted p).serve (Call.calm .epoch ⟨"w-2"⟩) ⟨"api"⟩ q
    (next.1, next.2.store, next.2.word)

theorem unsteady_cutOff (p : Store × UInt64) (q : Call) :
    Unsteady (halted p) q (cutOff p q).1 (halted (cutOff p q).2) := by
  unfold cutOff
  split
  · exact ⟨⟨.inr ⟨rfl, ⟨_, rfl⟩, .refl _ _⟩, nofun, Nat.le_refl 0, trivial⟩, rfl⟩
  · exact ⟨⟨.inr ⟨rfl, ⟨_, rfl⟩, .refl _ _⟩, nofun, Nat.le_refl 0, trivial⟩, rfl⟩
  · have halone := @alone_serve ⟨"api"⟩ (fun _ => False) (Registry.Request.OfRow ⟨"api"⟩)
      (Call.calm .epoch ⟨"w-2"⟩) (halted p) q
    refine ⟨⟨halone.1, nofun, ?_, ?_⟩, halone.2⟩
    · cases q with
      | now => exact ⟨Nat.le_refl 0, (by decide : Instant.epoch.millis.toNat = 0)⟩
      | _ => exact Nat.le_refl 0
    · cases q with
      | attempt d bound => exact fun _ => nofun
      | _ => trivial

/-- While the row is out of reach, each process goes by its own word, and learns nothing of the
failure that the other one has seen. -/
theorem touchy_called_twice : touchy.check = .ok () ∧
    (frozen (.memory .empty)).AtRest ⟨"api"⟩ true ∧ ∃ l h', InTurn Unsteady (World.Passed true)
      (Workload.program touchy ⟨"api"⟩ true)
      [.execute (.ofSettings Task.impatient.retry), .execute (.ofSettings Task.impatient.retry)]
      (frozen (.memory .empty)) l h' ∧ l.countP Exchange.isAttempt = 2 ∧
        ((touchy.board true).breaker ⟨"api"⟩).threshold +
          (h'.clock - 0) / ((touchy.board true).breaker ⟨"api"⟩).cooldown.millis = 1 := by
  have hcheck : touchy.faults = [] := by decide +kernel
  let fails := Workload.program touchy ⟨"api"⟩ true (.execute (.ofSettings Task.impatient.retry))
  let left := (fails.follow cutOff (.memory .empty, encode .fresh)).2.2
  have hr := InTurn.cons_follow (N := World.Passed true) (p := Workload.program touchy ⟨"api"⟩ true)
    (k := .execute (.ofSettings Task.impatient.retry)) (s := (Store.memory .empty, encode .fresh))
    unsteady_cutOff (by decide +kernel) (h := halted (left.1, encode .fresh)) ⟨rfl, rfl, nofun⟩
    (.cons_follow (k := .execute (.ofSettings Task.impatient.retry)) unsteady_cutOff
      (by decide +kernel) ⟨rfl, rfl, nofun⟩ .nil)
  refine ⟨?_, ⟨.fresh, rfl, rfl, rfl⟩, _, _, hr, by decide +kernel, ?_⟩
  · rw [Settings.check, hcheck]
  · decide +kernel

end CutOff

end WorkerGuard
