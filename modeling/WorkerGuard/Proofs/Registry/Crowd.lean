import WorkerGuard.Proofs.Program.Abides
import WorkerGuard.Proofs.Retry.Calls
import WorkerGuard.Proofs.Spawn.Calls
import WorkerGuard.Proofs.Task.Calls

/-!
# WorkerGuard.Proofs.Registry.Crowd

All that processes do to the workers of one registry, at the same time and in any order.

* `Call.Configured s`: an insertion names the ceilings of the settings `s`, as `Spawn.asks_configured`
  shows of every request for a worker.
* `Call.OfUpkeep`: the calls of a sweep.
* `Job`: what a thread does. Its calls are as the requests for workers among them are
  (`Job.abides_program`), for no others register a worker.
* `crowd_within_ceilings`: no role and no tree ever has more active workers than it may have.
-/

namespace WorkerGuard

open Program

def Call.Configured (s : Settings) : Call → Prop
  | .registry q => q.Configured s
  | _ => True

variable {s : Settings}

theorem Call.configured_of_not_inserts {q : Call} (h : ¬q.Inserts) : q.Configured s := by
  cases q with
  | registry q =>
    cases q with
    | insert r c => exact absurd trivial h
    | _ => trivial
  | _ => trivial

theorem Call.OfPlacing.configured {d : Dependency} {q : Call} (h : q.OfPlacing s d) :
    q.Configured s := by
  cases q with
  | registry q =>
    cases q with
    | insert r c => exact h.1
    | _ => trivial
  | _ => trivial

/-- A request may look at what has changed before its insertion; the insertion names the ceilings. -/
theorem Spawn.asks_configured (q : Request) : (request s q).Asks (Call.Configured s) := by
  refine (asks_request q).mono fun c hc => ?_
  obtain rfl | hc | hc := hc
  · trivial
  · exact Call.configured_of_not_inserts (hc.only.not_inserts (by decide))
  · exact hc.configured

/-- Workers that are too old are looked for, and ended. -/
def Call.OfUpkeep : Call → Prop
  | .now => True
  | .registry (.stale ..) => True
  | .registry (.terminate _) => True
  | _ => False

theorem Call.OfUpkeep.only {q : Call} (h : q.OfUpkeep) : q.Only [] := by
  intro e he
  cases q with
  | now => cases he
  | registry q =>
    cases q with
    | stale before role => cases he
    | terminate id => cases he
    | _ => cases h
  | _ => cases h

namespace Lifecycle

theorem asks_terminateAll (ws : List Worker) (done : Sweep) :
    (terminateAll ws done).Asks Call.OfUpkeep := by
  induction ws generalizing done with
  | nil => exact asks_pure _
  | cons w ws ih =>
    refine asks_bind (Program.asks_request.2 trivial) fun a => ?_
    split
    · exact asks_pure _
    · exact ih _
    · exact ih _

theorem asks_stale (maxAge : Duration) (role : Option String) :
    (stale maxAge role).Asks Call.OfUpkeep :=
  asks_bind (asks_call.2 trivial) fun _ => Program.asks_request.2 trivial

theorem asks_pruneRole (maxAge : Duration) (role : Option String) (done : Sweep) :
    (pruneRole maxAge role done).Asks Call.OfUpkeep := by
  refine asks_bind (asks_stale maxAge role) fun a => ?_
  split
  · exact asks_pure _
  · exact asks_terminateAll _ _

theorem asks_pruneRoles (roles : List Role) (done : Sweep) :
    (pruneRoles roles done).Asks Call.OfUpkeep := by
  induction roles generalizing done with
  | nil => exact asks_pure _
  | cons r rs ih =>
    refine asks_bind (asks_pruneRole _ _ _) fun a => ?_
    split
    · exact asks_pure _
    · exact ih _

theorem asks_sweep (s : Settings) : (sweep s).Asks Call.OfUpkeep := by
  refine asks_bind (asks_pruneRoles _ _) fun a => ?_
  split
  · exact asks_pure _
  · refine asks_bind (asks_stale _ _) fun a => ?_
    split
    · exact asks_pure _
    · exact asks_terminateAll _ _

end Lifecycle

section Abides

variable {A : Exchange → Prop} {P : Call → Prop} (hP : ∀ q : Call, ¬q.Inserts → P q)
variable (hspawn : ∀ q, (Spawn.request s q).Abides A P fun _ => True)

namespace Task

variable {task : Task} {run : Worker → Program Outcome}

include hspawn in
theorem abides_requestHelper (w : Worker) (c : Course) :
    (requestHelper s w c).Abides A P fun _ => True := by
  refine abides_bind (hspawn _) fun a _ => ?_
  split <;> exact abides_pure trivial

theorem abides_runHelper (id : WorkerId) (c : Course)
    (hrun : ∀ w, (run w).Abides A P fun _ => True) :
    (runHelper run id c).Abides A P fun _ => True := by
  unfold runHelper
  dsimp only
  split
  · exact abides_pure trivial
  · split
    · exact abides_bind (hrun _) fun _ _ => abides_pure trivial
    · exact abides_pure trivial

include hP hspawn

theorem abides_perform (w : Worker) (started : Instant) (a : Action) (c : Course)
    (hrun : ∀ w, (run w).Abides A P fun _ => True) :
    (perform s task run w started a c).Abides A P fun _ => True := by
  cases a with
  | runRound round =>
    refine ((asks_runRound s w started round c).mono fun q hq => hP q ?_).abides
    obtain hq | hq := hq
    · exact hq.only.not_inserts (by decide)
    · exact hq.only.not_inserts (by decide)
  | requestSpawn kind => exact abides_requestHelper hspawn w c
  | runHelper id => exact abides_runHelper id c hrun
  | writeDegrade reason =>
    have hwrite := (asks_writeDegrade task w reason).mono fun q hq => hP q (hq.only.not_inserts (by decide))
    exact abides_bind hwrite.abides fun _ _ => abides_pure trivial

theorem abides_drive (w : Worker) (started : Instant) (steps : Nat) (c : Course)
    (hrun : ∀ w, (run w).Abides A P fun _ => True) :
    (drive s task run w started steps c).Abides A P fun _ => True := by
  induction steps generalizing c with
  | zero => exact abides_halt _
  | succ steps ih =>
    unfold drive
    split
    · exact abides_pure trivial
    · exact abides_bind (abides_perform hP hspawn w started _ _ hrun) fun _ _ => ih _

theorem abides_runFor (generations : Nat) (w : Worker) :
    (runFor s task generations w).Abides A P fun _ => True := by
  induction generations generalizing w with
  | zero => exact abides_halt _
  | succ generations ih =>
    refine abides_bind (abides_call (hP _ id) fun _ _ => trivial) fun started _ => ?_
    refine abides_bind (abides_drive hP hspawn w started _ _ ih) fun c _ => ?_
    exact ((asks_finish s w c).mono fun q hq => hP q (hq.only.not_inserts (by decide))).abides

end Task
end Abides

/-- What a thread does to the workers of a registry. -/
inductive Job where
  | spawn (q : Spawn.Request)
  | heartbeat (id : WorkerId)
  | terminate (id : WorkerId)
  | degrade (id : WorkerId)
  | prune (maxAge : Duration)
  | sweep
  | run (task : Task) (worker : Worker)

def Job.program (s : Settings) : Job → Program Unit
  | spawn q => do let _ ← Spawn.request s q
  | heartbeat id => do let _ ← Lifecycle.heartbeat id
  | terminate id => do let _ ← Program.request (.terminate id)
  | degrade id => do let _ ← Program.request (.degrade id)
  | prune maxAge => do let _ ← Lifecycle.prune maxAge
  | sweep => do let _ ← Lifecycle.sweep s
  | run task w => do let _ ← Task.run s task w

theorem Job.abides_program {A : Exchange → Prop} {P : Call → Prop}
    (hP : ∀ q : Call, ¬q.Inserts → P q)
    (hspawn : ∀ q, (Spawn.request s q).Abides A P fun _ => True) (job : Job) :
    (job.program s).Abides A P fun _ => True := by
  have hupkeep : ∀ q : Call, q.OfUpkeep → P q := fun q hq => hP q (hq.only.not_inserts (by decide))
  have hdone : ∀ {α : Type} {x : Program α}, (x.Abides A P fun _ => True) →
      (x >>= fun _ => pure ()).Abides A P fun _ => True :=
    fun hx => abides_bind hx fun _ _ => abides_pure trivial
  cases job with
  | spawn q => exact hdone (hspawn q)
  | heartbeat id =>
    exact hdone ((Lifecycle.asks_heartbeat id).mono fun q hq => hP q (hq.only.not_inserts (by decide))).abides
  | terminate id => exact hdone (abides_call (hP _ fun h => h) fun _ _ => trivial)
  | degrade id => exact hdone (abides_call (hP _ fun h => h) fun _ _ => trivial)
  | prune maxAge => exact hdone ((Lifecycle.asks_pruneRole _ _ _).mono hupkeep).abides
  | sweep => exact hdone ((Lifecycle.asks_sweep s).mono hupkeep).abides
  | run task w => exact hdone (Task.abides_runFor hP hspawn _ w)

theorem Job.asks_program (job : Job) : (job.program s).Asks (Call.Configured s) :=
  (job.abides_program (fun _ => Call.configured_of_not_inserts) fun q =>
    (Spawn.asks_configured q).abides).asks

/-- From an empty registry of either kind on, at every moment of every schedule. -/
theorem crowd_within_ceilings (s : Settings) (y : Schedule Job)
    (h : y.store = .memory .empty ∨ y.store = .database .empty) (t : Nat) :
    (y.config (Job.program s) t).store.WithinCeilings s := by
  refine y.store_invariant Job.asks_program (fun store q hI hq => hI.answer hq) ?_ t
  rcases h with h | h
  · rw [h]; exact Simulation.Store.withinCeilings_memory s
  · rw [h]; exact Simulation.Store.withinCeilings_database s

def oneWorker : Settings := { roles := .ofList [("worker", ⟨1, 1800⟩)] }

/-- Two processes ask for the same place, taking turns: both find the breaker closed and have their
new worker ready before the first one registers it. -/
def race : Schedule Job where
  store := .database .empty
  clock := .epoch
  steps t :=
    if t < 2 then .begins (.spawn ⟨"worker", none, ⟨"api"⟩⟩)
    else .asks (t % 2) (Call.calm .epoch ⟨if t % 2 = 0 then "first" else "second"⟩)

theorem race_within_ceilings :
    (race.store = .memory .empty ∨ race.store = .database .empty) ∧
      (race.config (Job.program oneWorker) 16).store.activeOfRole "worker" = 1 ∧
      (race.config (Job.program oneWorker) 16).store.WithinCeilings oneWorker :=
  ⟨.inr rfl, by decide +kernel, crowd_within_ceilings oneWorker race (.inr rfl) 16⟩

end WorkerGuard
