import WorkerGuard.Lifecycle
import WorkerGuard.Proofs.Program.Alike
import WorkerGuard.Proofs.Program.Schedule
import WorkerGuard.Proofs.Spawn.Calls

/-!
# WorkerGuard.Proofs.Registry.Heartbeat

Heartbeats change nothing but the time of the last heartbeat.

* `Spawn.alike_request`, `Lifecycle.alike_prune`, `Lifecycle.alike_sweep`: requests for workers and
  sweeps do the same whatever heartbeats there were.
* `RegistryOperation`: what is done to a registry. `GivenOperation`: an operation with all that it
  depends on but the registry; `GivenOperation.run` is one of them, `runAll` a sequence.
* `heartbeats_buy_nothing`: two sequences that differ in heartbeats only come to the same.
-/

namespace WorkerGuard

open Program Registry

theorem Call.OfBreaker.plain {d : Dependency} {q : Call} (h : q.OfBreaker d) : q.Plain := by
  cases q with
  | registry q =>
    have hplain : (∀ a : q.Answer, q.silent a = a) → q.isHeartbeat = false →
        (Call.registry q).Plain := by
      intro hsilent hq
      refine ⟨hq, fun a a' heq => ?_⟩
      obtain ⟨e, rfl, rfl⟩ | ⟨v, v', rfl, rfl, hv⟩ := except_map_eq heq
      · rfl
      · rw [hsilent, hsilent] at hv
        exact congrArg Except.ok hv
    cases q with
    | loadBreaker d' => exact hplain (fun _ => rfl) rfl
    | swapBreaker d' e n => exact hplain (fun _ => rfl) rfl
    | _ => cases h
  | _ => exact ⟨rfl, fun _ _ h => h⟩

namespace Spawn

/-- A decision, but for the heartbeats of the worker that was made. -/
def Decision.silent : Decision → Decision
  | granted w => granted w.silent
  | refused why => refused why

theorem alike_place (w : WorkerId) (parent : Option WorkerId) :
    Alike id (place w parent) (place w parent) := by
  cases parent with
  | none => exact alike_pure rfl
  | some parent =>
    refine alike_bind (Program.alike_request rfl) fun a a' h => ?_
    obtain ⟨e, rfl, rfl⟩ | ⟨v, v', rfl, rfl, hv⟩ := except_map_eq h
    · exact alike_pure rfl
    · obtain ⟨rfl, rfl⟩ | ⟨p, p', rfl, rfl, hp⟩ := option_map_eq hv
      · exact alike_pure rfl
      · have hactive : p.isActive = p'.isActive := Worker.congr_silent (fun _ => rfl) hp
        have hdepth : p.depth = p'.depth := Worker.congr_silent (fun _ => rfl) hp
        have hroot : p.root = p'.root := Worker.congr_silent (fun _ => rfl) hp
        dsimp only
        rw [hactive, hdepth, hroot]
        split
        · exact alike_pure rfl
        · split
          · exact alike_halt _
          · exact alike_pure rfl

theorem alike_enroll (s : Settings) (role : Role) (w : WorkerId) (q : Request) (p : Place) :
    Alike (Except.map Decision.silent) (enroll s role w q p) (enroll s role w q p) := by
  unfold enroll
  split
  · exact alike_pure rfl
  · refine alike_bind (alike_call rfl) fun now now' h => ?_
    obtain rfl : now = now' := h
    refine alike_bind (Program.alike_request rfl) fun a a' h => ?_
    obtain ⟨e, rfl, rfl⟩ | ⟨v, v', rfl, rfl, hv⟩ := except_map_eq h
    · exact alike_pure rfl
    · obtain ⟨rfl, rfl⟩ | ⟨w, w', rfl, rfl, hw⟩ := option_map_eq hv
      · exact alike_pure rfl
      · exact alike_pure (congrArg (fun w => Except.ok (Decision.granted w)) hw)

theorem alike_request (s : Settings) (q : Request) :
    Alike (Except.map Decision.silent) (request s q) (request s q) := by
  unfold request
  cases s.roleNamed q.role with
  | none => exact alike_pure rfl
  | some role =>
    have hlook : ((s.board true).state q.dependency).Asks Call.Plain :=
      ((s.board true).asks_state q.dependency).mono fun c hc => by
        obtain rfl | hc := hc
        · exact ⟨rfl, fun _ _ h => h⟩
        · exact hc.plain
    refine alike_bind (alike_of_asks hlook) fun circuit circuit' h => ?_
    obtain rfl : circuit = circuit' := h
    split
    · exact alike_pure rfl
    · refine alike_bind (alike_call rfl) fun w w' h => ?_
      obtain rfl : w = w' := h
      refine alike_bind (alike_place w q.parent) fun a a' h => ?_
      obtain rfl : a = a' := h
      split
      · exact alike_pure rfl
      · exact alike_pure rfl
      · exact alike_enroll s role w q _

end Spawn

namespace Lifecycle

theorem alike_stale (maxAge : Duration) (role : Option String) :
    Alike (Except.map (List.map Worker.silent)) (stale maxAge role) (stale maxAge role) := by
  refine alike_bind (alike_call rfl) fun now now' h => ?_
  obtain rfl : now = now' := h
  exact alike_request (q := .stale (now.before maxAge) role) rfl

theorem alike_terminateAll {ws ws' : List Worker}
    (h : ws.map Worker.silent = ws'.map Worker.silent) (done : Sweep) :
    Alike id (terminateAll ws done) (terminateAll ws' done) := by
  induction ws generalizing ws' done with
  | nil =>
    cases ws' with
    | nil => exact alike_pure rfl
    | cons w' ws' => cases h
  | cons w ws ih =>
    cases ws' with
    | nil => cases h
    | cons w' ws' =>
      obtain ⟨hw, hws⟩ := List.cons.inj h
      have hid : w.id = w'.id := Worker.congr_silent (fun _ => rfl) hw
      unfold terminateAll
      rw [hid]
      refine alike_bind (alike_request rfl) fun a a' h => ?_
      obtain ⟨e, rfl, rfl⟩ | ⟨v, v', rfl, rfl, hv⟩ := except_map_eq h
      · exact alike_pure rfl
      · obtain rfl : v = v' := hv
        cases v with
        | true => exact ih hws _
        | false => exact ih hws _

theorem alike_pruneRole (maxAge : Duration) (role : Option String) (done : Sweep) :
    Alike id (pruneRole maxAge role done) (pruneRole maxAge role done) := by
  refine alike_bind (alike_stale maxAge role) fun a a' h => ?_
  obtain ⟨e, rfl, rfl⟩ | ⟨ws, ws', rfl, rfl, hws⟩ := except_map_eq h
  · exact alike_pure rfl
  · exact alike_terminateAll hws done

theorem alike_pruneRoles (roles : List Role) (done : Sweep) :
    Alike id (pruneRoles roles done) (pruneRoles roles done) := by
  induction roles generalizing done with
  | nil => exact alike_pure rfl
  | cons r rs ih =>
    refine alike_bind (alike_pruneRole r.maxAge (some r.name) done) fun a a' h => ?_
    obtain rfl : a = a' := h
    cases a with
    | error e => exact alike_pure rfl
    | ok done => exact ih done

theorem alike_sweep (s : Settings) : Alike id (sweep s) (sweep s) := by
  refine alike_bind (alike_pruneRoles s.allRoles .empty) fun a a' h => ?_
  obtain rfl : a = a' := h
  cases a with
  | error e => exact alike_pure rfl
  | ok done =>
    refine alike_bind (alike_stale s.lifecycle.defaultMaxWorkerAge none) fun a a' h => ?_
    obtain ⟨e, rfl, rfl⟩ | ⟨ws, ws', rfl, rfl, hws⟩ := except_map_eq h
    · exact alike_pure rfl
    · refine alike_terminateAll ?_ done
      rw [← Worker.filter_silent fun _ => rfl, ← Worker.filter_silent fun _ => rfl, hws]

end Lifecycle

/-- What is done to a registry: a request of any sort, or one of the programs that make requests. -/
inductive RegistryOperation where
  | request (q : Registry.Request)
  | spawn (q : Spawn.Request)
  | prune (maxAge : Duration)
  | sweep
  | heartbeat (id : WorkerId)

namespace RegistryOperation

abbrev Answer : RegistryOperation → Type
  | request q => Except Registry.Error q.Answer
  | spawn _ => Except Registry.Error Spawn.Decision
  | prune _ => Except Registry.Error Lifecycle.Sweep
  | sweep => Except Registry.Error Lifecycle.Sweep
  | heartbeat _ => Except Registry.Error Bool

def program (s : Settings) : (d : RegistryOperation) → Program d.Answer
  | request q => Program.request q
  | spawn q => Spawn.request s q
  | prune maxAge => Lifecycle.prune maxAge
  | sweep => Lifecycle.sweep s
  | heartbeat id => Lifecycle.heartbeat id

def isHeartbeat : RegistryOperation → Bool
  | request q => q.isHeartbeat
  | heartbeat _ => true
  | _ => false

/-- An answer, but for the heartbeats in it. -/
def silent : (d : RegistryOperation) → d.Answer → d.Answer
  | request q, a => Except.map q.silent a
  | spawn _, a => Except.map Spawn.Decision.silent a
  | _, a => a

theorem alike (s : Settings) {d : RegistryOperation} (hd : d.isHeartbeat = false) :
    Alike d.silent (d.program s) (d.program s) := by
  cases d with
  | request q => exact alike_request hd
  | spawn q => exact Spawn.alike_request s q
  | prune maxAge => exact Lifecycle.alike_pruneRole maxAge none .empty
  | sweep => exact Lifecycle.alike_sweep s
  | heartbeat id => cases hd

end RegistryOperation

/-- An operation, and what its program is told by its surroundings: the time, names and the like. -/
structure GivenOperation where
  operation : RegistryOperation
  given : Nat → (q : Call) → q.Answer

/-- An operation with what came of it. -/
structure OperationResult where
  operation : RegistryOperation
  result : Except Halt operation.Answer

def OperationResult.silent (u : OperationResult) : OperationResult :=
  ⟨u.operation, u.result.map u.operation.silent⟩

def GivenOperation.run (s : Settings) (a : GivenOperation) (m : Memory) :
    OperationResult × Memory :=
  let run := (a.operation.program s).follow (Memory.reply a.given) (m, 0)
  (⟨a.operation, run.2.1⟩, run.2.2.1)

def runAll (s : Settings) : List GivenOperation → Memory → List OperationResult × Memory
  | [], m => ([], m)
  | a :: l, m => ((a.run s m).1 :: (runAll s l (a.run s m).2).1, (runAll s l (a.run s m).2).2)

section Run

variable {s : Settings} {a : GivenOperation} {m m' : Memory}

theorem GivenOperation.run_heartbeat (ha : a.operation.isHeartbeat = true) :
    (a.run s m).2.silent = m.silent := by
  obtain ⟨d, given⟩ := a
  cases d with
  | request q =>
    cases q with
    | heartbeat id t => exact m.silent_heartbeat id t
    | _ => cases ha
  | heartbeat id => exact m.silent_heartbeat id (given 0 .now)
  | _ => cases ha

theorem GivenOperation.run_alike (ha : a.operation.isHeartbeat = false)
    (hm : m.silent = m'.silent) :
    (a.run s m).1.silent = (a.run s m').1.silent ∧ (a.run s m).2.silent = (a.run s m').2.silent := by
  obtain ⟨hresult, hafter⟩ := (a.operation.alike s ha).follow a.given hm 0
  exact ⟨congrArg (OperationResult.mk a.operation) hresult, hafter⟩

/-- Without its heartbeats, a sequence does what it does with them. -/
theorem runAll_filter (hm : m.silent = m'.silent) (l : List GivenOperation) :
    ((runAll s l m).1.filter (!·.operation.isHeartbeat)).map OperationResult.silent =
        (runAll s (l.filter (!·.operation.isHeartbeat)) m').1.map OperationResult.silent ∧
      (runAll s l m).2.silent = (runAll s (l.filter (!·.operation.isHeartbeat)) m').2.silent := by
  induction l generalizing m m' with
  | nil => exact ⟨rfl, hm⟩
  | cons a l ih =>
    have hoperation : (a.run s m).1.operation = a.operation := rfl
    cases ha : a.operation.isHeartbeat with
    | true =>
      -- A heartbeat is in one of the sequences only, and leaves what counts as it was.
      simp only [runAll, List.filter_cons, hoperation, ha, Bool.not_true, Bool.false_eq_true,
        if_false]
      exact ih ((GivenOperation.run_heartbeat ha).trans hm)
    | false =>
      obtain ⟨hresult, hafter⟩ := a.run_alike (s := s) ha hm
      obtain ⟨hresults, hlast⟩ := ih hafter
      simp only [runAll, List.filter_cons, hoperation, ha, Bool.not_false, if_true, List.map_cons]
      rw [hresult, hresults]
      exact ⟨rfl, hlast⟩

/-- Heartbeats may be put in, taken out or moved: as long as all else is done in the same order, at
the same times and with the same names, it has the same results, and the registries that it ends with
are the same but for the heartbeats of their workers. -/
theorem heartbeats_buy_nothing (s : Settings) (m : Memory) {l l' : List GivenOperation}
    (h : l.filter (!·.operation.isHeartbeat) = l'.filter (!·.operation.isHeartbeat)) :
    ((runAll s l m).1.filter (!·.operation.isHeartbeat)).map OperationResult.silent =
        ((runAll s l' m).1.filter (!·.operation.isHeartbeat)).map OperationResult.silent ∧
      (runAll s l m).2.silent = (runAll s l' m).2.silent := by
  obtain ⟨hresults, hlast⟩ := runAll_filter (s := s) (m := m) rfl l
  obtain ⟨hresults', hlast'⟩ := runAll_filter (s := s) (m := m) rfl l'
  rw [hresults, hresults', hlast, hlast', h]
  exact ⟨rfl, rfl⟩

def hire : GivenOperation := ⟨.spawn ⟨"worker", none, ⟨"api"⟩⟩, fun _ => Call.calm .epoch ⟨"first"⟩⟩

def beatAt (n : Nat) : GivenOperation :=
  ⟨.heartbeat ⟨"first"⟩, fun _ => Call.calm (atSecond n) ⟨""⟩⟩

def pruneAt (n : Nat) : GivenOperation :=
  ⟨.prune (.ofSeconds 1800), fun _ => Call.calm (atSecond n) ⟨""⟩⟩

/-- A worker that was alive a second ago is ended for its age, as one that was never heard of. -/
theorem beating_in_vain :
    [hire, beatAt 900, beatAt 3599, pruneAt 3600].filter (!·.operation.isHeartbeat) =
        [hire, pruneAt 3600, beatAt 3601].filter (!·.operation.isHeartbeat) ∧
      (runAll {} [hire, beatAt 900, beatAt 3599] .empty).2.activeOfRole "worker" = 1 ∧
      (runAll {} [hire, beatAt 900, beatAt 3599, pruneAt 3600] .empty).2.activeOfRole "worker" = 0 ∧
      (runAll {} [hire, beatAt 900, beatAt 3599, pruneAt 3600] .empty).2.workers.find? "first" ≠
        (runAll {} [hire, pruneAt 3600, beatAt 3601] .empty).2.workers.find? "first" ∧
      (runAll {} [hire, beatAt 900, beatAt 3599, pruneAt 3600] .empty).2.silent =
        (runAll {} [hire, pruneAt 3600, beatAt 3601] .empty).2.silent := by
  have hsame : [hire, beatAt 900, beatAt 3599, pruneAt 3600].filter (!·.operation.isHeartbeat) =
      [hire, pruneAt 3600, beatAt 3601].filter (!·.operation.isHeartbeat) := rfl
  exact ⟨hsame, by decide +kernel, by decide +kernel, by decide +kernel,
    (heartbeats_buy_nothing {} .empty hsame).2⟩

end Run
end WorkerGuard
