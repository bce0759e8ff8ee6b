import WorkerGuard.Command.Run
import WorkerGuard.Proofs.Registry.Crowd

/-!
# WorkerGuard.Proofs.Command.Calls

The calls that commands make.

* `Call.AtOnce`: calls that are answered at once, and that leave the log as it is. Commands make no
  others (`Command.atOnce_perform`), nor does the look at the stops before them.
* `Call.Looks`: those of them that change nothing in the registry. Commands that only show something
  make no others (`Command.Shell.looks_status`, …).
* `Command.Shell.run_bind`, `Command.Shell.run_registry_bind`, …: the programs that commands are.
-/

namespace WorkerGuard

open Program

/-- Requests that change nothing. -/
def Registry.Request.Looks : Registry.Request → Prop
  | .insert .. => False
  | .heartbeat .. => False
  | .terminate _ => False
  | .degrade _ => False
  | .setOverride _ => False
  | .clearOverride _ => False
  | .swapBreaker .. => False
  | _ => True

namespace Call

def AtOnce : Call → Prop
  | .sleep _ => False
  | .attempt .. => False
  | .appendLog _ => False
  | _ => True

def Looks : Call → Prop
  | .registry q => q.Looks
  | q => q.AtOnce

variable {q : Call}

theorem Looks.atOnce (h : q.Looks) : q.AtOnce := by
  cases q with
  | registry q => trivial
  | _ => exact h

theorem Only.atOnce {es : List Effect} (h : q.Only es)
    (hes : .attempt ∉ es ∧ .sleep ∉ es ∧ .append ∉ es) : q.AtOnce := by
  cases q with
  | attempt d bound => exact absurd rfl (h.not_effect hes.1)
  | sleep t => exact absurd rfl (h.not_effect hes.2.1)
  | appendLog a => exact absurd rfl (h.not_effect hes.2.2)
  | _ => trivial

end Call

theorem Program.asks_forM {α : Type} {P : Call → Prop} {f : α → Program PUnit} {as : List α}
    (h : ∀ a ∈ as, (f a).Asks P) : (as.forM f).Asks P := by
  induction as with
  | nil => exact asks_pure _
  | cons a as ih => exact asks_bind (h a (by simp)) fun _ => ih fun b hb => h b (by simp [hb])

theorem Program.asks_mapM {α β : Type} {P : Call → Prop} {f : α → Program β} {as : List α}
    (h : ∀ a ∈ as, (f a).Asks P) : (as.mapM f).Asks P := by
  induction as with
  | nil => exact asks_pure _
  | cons a as ih =>
    rw [List.mapM_cons]
    refine asks_bind (h a (by simp)) fun b => ?_
    exact asks_bind (ih fun c hc => h c (by simp [hc])) fun _ => asks_pure _

namespace Breaker.Board

variable (b : Board)

theorem atOnce_forceOpen (d : Dependency) : (b.forceOpen d).Asks Call.AtOnce :=
  asks_bind (asks_call.2 trivial) fun _ => asks_call.2 trivial

theorem atOnce_clearOverride (d : Dependency) : (b.clearOverride d).Asks Call.AtOnce :=
  asks_bind (asks_call.2 trivial) fun _ => asks_call.2 trivial

theorem looks_current (b : Breaker) : b.current.Asks Call.Looks := by
  unfold Breaker.current
  split
  · refine asks_bind (asks_request.2 trivial) fun a => ?_
    split <;> exact asks_bind (asks_call.2 trivial) fun _ => asks_pure _
  · exact asks_bind (asks_call.2 trivial) fun _ => asks_pure _

theorem looks_state (d : Dependency) : (b.state d).Asks Call.Looks := by
  refine asks_bind (asks_call.2 trivial) fun _ => asks_bind (asks_call.2 trivial) fun forced => ?_
  cases forced with
  | true => exact asks_pure _
  | false => exact asks_bind (looks_current _) fun _ => asks_pure _

theorem looks_snapshots : b.snapshots.Asks Call.Looks := by
  have hrows : b.enlistRows.Asks Call.Looks := by
    unfold enlistRows
    split
    · refine asks_bind (asks_request.2 trivial) fun a => ?_
      split
      · exact asks_forM fun _ _ => asks_call.2 trivial
      · exact asks_pure _
    · exact asks_pure _
  refine asks_bind hrows fun _ => asks_bind (asks_call.2 trivial) fun ds => ?_
  exact asks_mapM fun d _ => asks_bind (looks_current _) fun c =>
    asks_bind (asks_call.2 trivial) fun forced => asks_pure _

end Breaker.Board

namespace Watch

variable (s : Settings)

theorem atOnce_sync : (sync s).Asks Call.AtOnce := by
  refine asks_bind (asks_request.2 trivial) fun a => ?_
  split
  · exact asks_pure _
  · refine asks_bind (asks_call.2 trivial) fun held => ?_
    refine asks_bind (asks_forM fun d _ => (s.board true).atOnce_forceOpen d) fun _ => ?_
    refine asks_bind (asks_forM fun d _ => (s.board true).atOnce_clearOverride d) fun _ => ?_
    exact asks_pure _

theorem atOnce_trip (d : Dependency) (reason : Option String) :
    (trip s d reason).Asks Call.AtOnce := by
  refine asks_bind (asks_call.2 trivial) fun now => asks_bind (asks_request.2 trivial) fun a => ?_
  split
  · exact asks_pure _
  · exact asks_bind ((s.board true).atOnce_forceOpen d) fun _ => asks_pure _

theorem atOnce_reset (d : Dependency) : (reset s d).Asks Call.AtOnce := by
  refine asks_bind (asks_request.2 trivial) fun a => ?_
  split
  · exact asks_pure _
  · exact asks_bind ((s.board true).atOnce_clearOverride d) fun _ => asks_pure _

end Watch

theorem Spawn.atOnce_request (s : Settings) (q : Request) : (request s q).Asks Call.AtOnce := by
  refine (asks_request q).mono fun c hc => ?_
  obtain rfl | hc | hc := hc
  · trivial
  · exact hc.only.atOnce (by decide)
  · exact hc.only.atOnce (by decide)

theorem Spawn.looks_place (id : WorkerId) (parent : Option WorkerId) :
    (place id parent).Asks Call.Looks := by
  cases parent with
  | none => exact asks_pure _
  | some parent =>
    refine asks_bind (Program.asks_request.2 trivial) fun a => ?_
    split
    · exact asks_pure _
    · exact asks_pure _
    · split
      · exact asks_pure _
      · split
        · exact asks_halt _
        · exact asks_pure _

namespace Command.Shell

variable {α β : Type} {P : Call → Prop}

section Run

variable (lines : List String)

theorem run_bind (x : Shell α) (f : α → Shell β) :
    (x >>= f).run.run lines = x.run.run lines >>= fun r =>
      match r.1 with
      | .ok a => (f a).run.run r.2
      | .error e => pure (.error e, r.2) := by
  show (StateT.run (ExceptT.run (x >>= f)) lines) = _
  rw [ExceptT.run_bind, StateT.run_bind]
  refine congrArg _ (funext fun r => ?_)
  obtain ⟨a, l⟩ := r
  cases a <;> rfl

theorem run_perform (prog : Program α) :
    (perform prog).run.run lines = prog >>= fun a => pure (.ok a, lines) := by
  show (prog.bind fun a => _).bind _ = _
  rw [Program.bind_assoc]
  rfl

theorem run_registry_bind (prog : Program (Except Registry.Error α)) (f : α → Shell β) :
    (registry prog >>= f).run.run lines = prog >>= fun r =>
      match r with
      | .ok a => (f a).run.run lines
      | .error e => pure (.error (.failure (.failed (.registry e))), lines) := by
  rw [run_bind, registry, run_bind, run_perform, LawfulMonad.bind_assoc, LawfulMonad.bind_assoc]
  refine congrArg _ (funext fun r => ?_)
  cases r <;> rfl

/-- Lines are said one after the other. -/
theorem run_forM_say_bind (as : List α) (line : α → String) (f : PUnit → Shell β) :
    ((as.forM fun a => say (line a)) >>= f).run.run lines =
      (f ⟨⟩).run.run (lines ++ as.map line) := by
  induction as generalizing lines with
  | nil =>
    rw [List.map_nil, List.append_nil]
    rfl
  | cons a as ih =>
    rw [List.map_cons, List.append_cons, ← ih]
    rfl

end Run

/-- All calls of a command, whatever was printed before it and whatever is answered. -/
def Asks (P : Call → Prop) (x : Shell α) : Prop := ∀ lines, (x.run.run lines).Asks P

theorem asks_pure (a : α) : Asks P (pure a : Shell α) := fun _ => trivial

theorem asks_say (line : String) : Asks P (say line) := fun _ => trivial

theorem asks_throw (why : Abort) : Asks P (throw why : Shell α) := fun _ => trivial

theorem asks_bind {x : Shell α} {f : α → Shell β} (hx : Asks P x) (hf : ∀ a, Asks P (f a)) :
    Asks P (x >>= f) := by
  intro lines
  rw [run_bind]
  refine Program.asks_bind (hx lines) fun r => ?_
  obtain ⟨a | a, lines'⟩ := r
  · trivial
  · exact hf a lines'

theorem asks_perform {prog : Program α} (h : prog.Asks P) : Asks P (perform prog) := by
  intro lines
  rw [run_perform]
  exact Program.asks_bind h fun _ => trivial

theorem asks_registry {prog : Program (Except Registry.Error α)} (h : prog.Asks P) :
    Asks P (registry prog) := by
  refine asks_bind (asks_perform h) fun a => ?_
  cases a with
  | ok a => exact asks_pure a
  | error e => exact asks_throw _

theorem asks_forM {f : α → Shell PUnit} {as : List α} (h : ∀ a ∈ as, Asks P (f a)) :
    Asks P (as.forM f) := by
  induction as with
  | nil => exact asks_pure _
  | cons a as ih => exact asks_bind (h a (by simp)) fun _ => ih fun b hb => h b (by simp [hb])

theorem asks_artifacts (h : P .readLog) : Asks P artifacts := by
  refine asks_bind (asks_perform (asks_call.2 h)) fun a => ?_
  cases a with
  | ok as => exact asks_pure _
  | error e => exact asks_throw _

theorem asks_listing (title : String) (lines ifEmpty : List String) :
    Asks P (listing title lines ifEmpty) :=
  asks_bind (asks_say _) fun _ => asks_bind (asks_say _) fun _ => asks_forM fun _ _ => asks_say _

theorem looks_status (s : Settings) : Asks Call.Looks (status s) := by
  refine asks_bind (asks_say _) fun _ => ?_
  refine asks_bind (asks_forM fun r _ => ?_) fun _ => ?_
  · exact asks_bind (asks_registry (asks_request.2 trivial)) fun _ => asks_say _
  refine asks_bind (asks_registry (asks_request.2 trivial)) fun active => ?_
  refine asks_bind (asks_say _) fun _ => asks_bind (asks_say _) fun _ => ?_
  split
  case' isTrue => refine asks_bind (asks_say _) fun _ => ?_
  all_goals
    refine asks_bind (asks_forM fun root _ => ?_) fun _ => ?_
    · exact asks_bind (asks_registry (asks_request.2 trivial)) fun _ => asks_say _
    refine asks_bind (asks_registry (asks_request.2 trivial)) fun overrides => ?_
    refine asks_bind (asks_listing _ _ _) fun _ => ?_
    refine asks_bind (asks_perform (Program.asks_forM fun _ _ => asks_call.2 trivial)) fun _ => ?_
    refine asks_bind (asks_perform (s.board true).looks_snapshots) fun snapshots => ?_
    refine asks_bind (asks_listing _ _ _) fun _ => ?_
    refine asks_bind (asks_artifacts trivial) fun degraded => ?_
    exact asks_bind (asks_say _) fun _ => asks_say _

theorem looks_workers (state : Option Worker.State) (json : Bool) :
    Asks Call.Looks (workers state json) := by
  refine asks_bind (asks_registry (asks_request.2 trivial)) fun ws => ?_
  split
  · exact asks_forM fun _ _ => asks_say _
  · split
    · exact asks_say _
    · refine asks_bind (asks_perform (asks_call.2 trivial)) fun now => asks_forM fun w _ => ?_
      split
      · exact asks_say _
      · exact asks_throw _

theorem looks_degraded (limit : Option Nat) : Asks Call.Looks (degraded limit) :=
  asks_bind (asks_artifacts trivial) fun _ => asks_forM fun _ _ => asks_say _

end Command.Shell

open Command.Shell in
theorem Command.atOnce_perform (c : Command) (p : Project) :
    Shell.Asks Call.AtOnce (c.perform p) := by
  have hlooks : ∀ {x : Shell Unit}, Shell.Asks Call.Looks x → Shell.Asks Call.AtOnce x :=
    fun h lines => (h lines).mono fun _ => Call.Looks.atOnce
  cases c with
  | init force => exact asks_say _
  | status => exact hlooks (looks_status _)
  | workers state json => exact hlooks (looks_workers _ _)
  | spawn role d parent =>
    refine asks_bind (asks_registry (Spawn.atOnce_request _ _)) fun decision => ?_
    cases decision with
    | granted w => exact asks_say _
    | refused why => exact asks_throw _
  | heartbeat id =>
    have hbeat : (Lifecycle.heartbeat ⟨id⟩).Asks Call.AtOnce :=
      Program.asks_bind (asks_call.2 trivial) fun _ => asks_request.2 trivial
    refine asks_bind (asks_registry hbeat) fun alive => ?_
    cases alive with
    | true => exact asks_pure _
    | false => exact asks_throw _
  | terminate id =>
    refine asks_bind (asks_registry (asks_request.2 trivial)) fun found => ?_
    cases found <;> exact asks_say _
  | prune maxAge =>
    refine asks_bind (asks_registry ?_) fun r => ?_
    · cases maxAge with
      | none => exact (Lifecycle.asks_sweep _).mono fun _ hq => hq.only.atOnce (by decide)
      | some secs => exact (Lifecycle.asks_pruneRole _ _ _).mono fun _ hq => hq.only.atOnce (by decide)
    · exact asks_bind (asks_forM fun _ _ => asks_say _) fun _ => asks_say _
  | trip d reason =>
    exact asks_bind (asks_registry (Watch.atOnce_trip _ _ _)) fun _ => asks_say _
  | reset d =>
    refine asks_bind (asks_registry (Watch.atOnce_reset _ _)) fun existed => ?_
    cases existed <;> exact asks_say _
  | degraded limit => exact hlooks (looks_degraded _)
  | daemon =>
    have hsweep := (Lifecycle.asks_sweep p.settings).mono fun _ hq => hq.only.atOnce (by decide)
    exact asks_bind (asks_registry hsweep) fun _ => asks_pure _

end WorkerGuard
