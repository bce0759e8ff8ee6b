import WorkerGuard.Alert
import WorkerGuard.Proofs.Degrade.Log
import WorkerGuard.Proofs.Watch.Held
import WorkerGuard.Proofs.Simulation.Answers

/-!
# WorkerGuard.Proofs.Alert.Check

Processes that write to one log and look for too many entries in it.

* `LogEvent`: what is done to the log, and the passing of time. `Host.logStep` is one event,
  `readings` the times that the clocks show at them.
* `AlertCheck`: one look at the log, `alertChecks`: the looks of a process for a role.
* `Host.serve_check`: what comes of a look.
-/

namespace WorkerGuard.Simulation

inductive LogEvent where
  /-- The clock that is set by hand, in milliseconds, and that of the machine, in nanoseconds. -/
  | clocks (hand : Int) (machine : Int)
  /-- An artifact is appended with the time that the process reads. -/
  | append (p : Nat) (a : Artifact)
  /-- The process looks whether an alert is due for a role. -/
  | record (p : Nat) (role : String)

variable (conf : Nat → Settings.Alerts)

namespace Host

variable {h : Host} {p : Nat} {role : String}

def stamped (h : Host) (p : Nat) (a : Artifact) : Artifact := { a with recordedAt := h.now p }

/-- The alert that a look raises. -/
def alertBy (h : Host) (p : Nat) (role : String) : Option Alert :=
  (h.serve p (Alert.check (conf p) role)).1.toOption.join

def logStep (h : Host) : LogEvent → Host
  | .clocks hand machine =>
    { h with clock := hand, systemClock := (Instant.ofNanos? machine).getD h.systemClock }
  | .append p a => (h.answer p false (.appendLog (h.stamped p a))).2
  | .record p role => (h.serve p (Alert.check (conf p) role)).2

end Host

/-- The times at which something is appended or looked for. -/
def readings (h : Host) : List LogEvent → List Instant
  | [] => []
  | .clocks hand machine :: ds => readings (h.logStep conf (.clocks hand machine)) ds
  | .append p a :: ds => h.now p :: readings (h.logStep conf (.append p a)) ds
  | .record p role :: ds => h.now p :: readings (h.logStep conf (.record p role)) ds

/-- One look at the log. -/
structure AlertCheck where
  /-- What the log gives back. -/
  read : List Artifact
  now : Instant
  /-- When the process last raised an alert for the role. -/
  last : Option Instant
  /-- What was appended since then, by anybody. -/
  fresh : List Artifact
  alert : Option Alert

/-- What a log that cannot be read gives back is nothing. -/
def Host.alertCheck (h : Host) (p : Nat) (role : String) (last : Option Instant)
    (fresh : List Artifact) : AlertCheck :=
  ⟨h.log.artifacts.toOption.getD [], h.now p, last, fresh, h.alertBy conf p role⟩

/-- The looks of a process for a role, with its last alert for the role and what was appended since
then. -/
def alertChecks (p : Nat) (role : String) (h : Host) (last : Option Instant)
    (fresh : List Artifact) : List LogEvent → List AlertCheck
  | [] => []
  | .clocks hand machine :: ds =>
    alertChecks p role (h.logStep conf (.clocks hand machine)) last fresh ds
  | .append q a :: ds =>
    alertChecks p role (h.logStep conf (.append q a)) last (fresh ++ [h.stamped q a]) ds
  | .record q other :: ds =>
    if q = p ∧ other = role then
      h.alertCheck conf p role last fresh ::
        match h.alertBy conf p role with
        | some alert =>
          alertChecks p role (h.logStep conf (.record q other)) (some alert.raisedAt) [] ds
        | none => alertChecks p role (h.logStep conf (.record q other)) last fresh ds
    else alertChecks p role (h.logStep conf (.record q other)) last fresh ds

namespace Host

variable {h : Host} {p : Nat} {role : String}

theorem serve_check (h : Host) (p : Nat) (s : Settings.Alerts) (role : String) :
    h.serve p (Alert.check s role) =
      match h.log.artifacts with
      | .error _ => (.ok none, h)
      | .ok as =>
        let since := Alert.since (h.now p) s.window ((h.process p).alerts.find? role)
        if Log.countSince role since as < Alert.threshold s then (.ok none, h)
        else
          (.ok (some ⟨role, Log.countSince role since as, s.window, h.now p⟩),
            h.updateProcess p fun r => { r with alerts := r.alerts.insert role (h.now p) }) := by
  have hlook : h.serve p (Alert.check s role) = h.serve p
      (match h.log.artifacts with
      | .error _ => pure none
      | .ok as =>
        let since := Alert.since (h.now p) s.window ((h.process p).alerts.find? role)
        if Log.countSince role since as < Alert.threshold s then pure none
        else do
          Program.call (.setLastAlert role (h.now p))
          return some ⟨role, Log.countSince role since as, s.window, h.now p⟩) := rfl
  rw [hlook]
  cases h.log.artifacts with
  | error e => rfl
  | ok as =>
    dsimp only
    generalize Log.countSince role _ as = count
    by_cases hfew : count < Alert.threshold s
    · rw [if_pos hfew, if_pos hfew]; rfl
    · rw [if_neg hfew, if_neg hfew]; rfl

/-- A look changes nothing but when the process last raised an alert for the role. -/
theorem logStep_record (h : Host) (q : Nat) (other : String) :
    h.logStep conf (.record q other) =
      match h.alertBy conf q other with
      | none => h
      | some _ =>
        h.updateProcess q fun r => { r with alerts := r.alerts.insert other (h.now q) } := by
  simp only [logStep, alertBy, serve_check]
  cases h.log.artifacts with
  | error e => rfl
  | ok as =>
    dsimp only
    split <;> rfl

theorem alertBy_eq {as : List Artifact} (has : h.log.artifacts = .ok as) :
    h.alertBy conf p role =
      let since := Alert.since (h.now p) (conf p).window ((h.process p).alerts.find? role)
      if Log.countSince role since as < Alert.threshold (conf p) then none
      else some ⟨role, Log.countSince role since as, (conf p).window, h.now p⟩ := by
  simp only [alertBy, serve_check, has]
  split <;> rfl

/-- What the process remembers of its alerts for a role. -/
def lastAlert (h : Host) (p : Nat) (role : String) : Option Instant :=
  (h.process p).alerts.find? role

theorem lastAlert_record (h : Host) (p : Nat) (role : String) (q : Nat) (other : String) :
    (h.logStep conf (.record q other)).lastAlert p role =
      if p = q ∧ role = other ∧ q < h.processes.size ∧ (h.alertBy conf q other).isSome then
        some (h.now q)
      else h.lastAlert p role := by
  rw [logStep_record]
  cases h.alertBy conf q other with
  | none => simp
  | some alert =>
    simp only [lastAlert, process_updateProcess]
    by_cases hp : p = q ∧ q < h.processes.size
    · rw [if_pos hp, Keyed.find?_insert]
      by_cases hrole : role = other
      · rw [if_pos hrole, if_pos ⟨hp.1, hrole, hp.2, rfl⟩]
      · rw [if_neg hrole, if_neg fun h => hrole h.2.1]
    · rw [if_neg hp, if_neg fun h => hp ⟨h.1, h.2.2.1⟩]

theorem proper_now (hclock : h.systemClock.Proper) (p : Nat) : (h.now p).Proper := by
  simp only [now]
  split
  · exact hclock
  · cases hhand : Instant.ofMillis? h.clock with
    | none => exact .inl (by decide)
    | some t =>
      left
      simp only [Instant.ofMillis?, Instant.ofParts?] at hhand
      split at hhand
      · cases hhand
        show (h.clock % 1000).toNat * 1_000_000 < 1_000_000_000
        omega
      · cases hhand

theorem proper_logStep (hclock : h.systemClock.Proper) (d : LogEvent) :
    (h.logStep conf d).systemClock.Proper := by
  cases d with
  | clocks hand machine =>
    show ((Instant.ofNanos? machine).getD h.systemClock).Proper
    cases hmachine : Instant.ofNanos? machine with
    | none => exact hclock
    | some t =>
      left
      simp only [Instant.ofNanos?, Instant.ofParts?] at hmachine
      split at hmachine
      · cases hmachine
        show (machine % 1_000_000_000).toNat < 1_000_000_000
        omega
      · cases hmachine
  | append p a => rw [logStep, clock_answer]; exact hclock
  | record q other =>
    rw [logStep_record]
    split <;> exact hclock

end Host

/-- What holds of a host with a process and its last alert for a role, of the artifacts in the log
and those that were appended since then, and of what is still to be done. -/
structure Watches (p : Nat) (role : String) (h : Host) (last : Option Instant)
    (log fresh : List Artifact) (ds : List LogEvent) : Prop where
  exists_process : p < h.processes.size
  proper : h.systemClock.Proper
  holds : h.log.Holds log
  stamps : ∀ a ∈ log, a.recordedAt.Proper
  memory : h.lastAlert p role = last
  suffix : fresh <:+ log
  /-- Clocks do not run backwards. -/
  onward : (readings conf h ds).Pairwise (· ≤ ·)
  log_past : ∀ a ∈ log, ∀ t ∈ readings conf h ds, a.recordedAt ≤ t
  last_past : ∀ u ∈ last, ∀ t ∈ readings conf h ds, u ≤ t

namespace Watches

variable {conf} {p : Nat} {role : String} {h : Host} {last : Option Instant}
variable {log fresh : List Artifact} {ds : List LogEvent}

theorem clocks {hand machine : Int}
    (hw : Watches conf p role h last log fresh (.clocks hand machine :: ds)) :
    Watches conf p role (h.logStep conf (.clocks hand machine)) last log fresh ds :=
  { hw with proper := Host.proper_logStep conf hw.proper _ }

theorem append {q : Nat} {a : Artifact}
    (hw : Watches conf p role h last log fresh (.append q a :: ds)) :
    Watches conf p role (h.logStep conf (.append q a)) last (log ++ [h.stamped q a])
      (fresh ++ [h.stamped q a]) ds := by
  obtain ⟨g, hg, hholds⟩ := hw.holds.append h.logPath (h.stamped q a)
  have hstep : h.logStep conf (.append q a) = { h with log := g } := by
    simp only [Host.logStep, Host.answer, hg]
  obtain ⟨hhead, honward⟩ := List.pairwise_cons.1 hw.onward
  obtain ⟨old, hold⟩ := hw.suffix
  exact
    { exists_process := by rw [hstep]; exact hw.exists_process
      proper := Host.proper_logStep conf hw.proper _
      holds := by rw [hstep]; exact hholds
      stamps := by
        intro b hb
        rcases List.mem_append.1 hb with hb | hb
        · exact hw.stamps b hb
        · rw [List.mem_singleton.1 hb]
          exact Host.proper_now hw.proper q
      memory := by rw [hstep]; exact hw.memory
      suffix := ⟨old, by rw [← List.append_assoc, hold]⟩
      onward := honward
      log_past := by
        intro b hb t ht
        rcases List.mem_append.1 hb with hb | hb
        · exact hw.log_past b hb t (List.mem_cons_of_mem _ ht)
        · rw [List.mem_singleton.1 hb]
          exact hhead t ht
      last_past := fun u hu t ht => hw.last_past u hu t (List.mem_cons_of_mem _ ht) }

/-- What a look leaves as it is. -/
theorem record {q : Nat} {other : String}
    (hw : Watches conf p role h last log fresh (.record q other :: ds)) {new : Option Instant}
    {since : List Artifact}
    (hnew : (h.logStep conf (.record q other)).lastAlert p role = new) (hsince : since <:+ log)
    (hpast : ∀ u ∈ new, u ∈ last ∨ u = h.now q) :
    Watches conf p role (h.logStep conf (.record q other)) new log since ds := by
  obtain ⟨hhead, honward⟩ := List.pairwise_cons.1 hw.onward
  have hsame : (h.logStep conf (.record q other)).log = h.log ∧
      (h.logStep conf (.record q other)).processes.size = h.processes.size := by
    rw [Host.logStep_record]
    split
    · exact ⟨rfl, rfl⟩
    · exact ⟨rfl, Array.size_modify⟩
  exact
    { exists_process := by rw [hsame.2]; exact hw.exists_process
      proper := Host.proper_logStep conf hw.proper _
      holds := by rw [hsame.1]; exact hw.holds
      stamps := hw.stamps
      memory := hnew
      suffix := hsince
      onward := honward
      log_past := fun b hb t ht => hw.log_past b hb t (List.mem_cons_of_mem _ ht)
      last_past := by
        intro u hu t ht
        rcases hpast u hu with hu | rfl
        · exact hw.last_past u hu t (List.mem_cons_of_mem _ ht)
        · exact hhead t ht }

end Watches

namespace AlertCheck

/-- How many artifacts a look finds beyond the last alert and within the window. -/
def found (v : AlertCheck) (s : Settings.Alerts) (role : String) : Nat :=
  Log.countSince role (Alert.since v.now s.window v.last) v.read

/-- What is true of a single look. -/
structure Sound (v : AlertCheck) (s : Settings.Alerts) (role : String) : Prop where
  past : ∀ a ∈ v.read, a.recordedAt ≤ v.now
  stamps : ∀ a ∈ v.fresh, a.recordedAt.Proper
  fresh : (v.fresh.filterMap fun a => Artifact.ofLine? a.line) <:+ v.read
  alert : v.alert =
    if v.found s role < Alert.threshold s then none
    else some ⟨role, v.found s role, s.window, v.now⟩

/-- What is true of a look and a later one. -/
structure Apart (v w : AlertCheck) : Prop where
  read : v.read <+: w.read
  last : v.alert.isSome → ∃ t ∈ w.last, v.now ≤ t

end AlertCheck

section Looks

variable {conf} {p : Nat} {role : String} {h : Host} {last : Option Instant}
variable {log fresh : List Artifact} {ds : List LogEvent}

theorem Watches.artifacts (hw : Watches conf p role h last log fresh ds) :
    h.log.artifacts = .ok (log.filterMap fun a => Artifact.ofLine? a.line) :=
  hw.holds.artifacts

theorem Watches.alertCheck_read (hw : Watches conf p role h last log fresh ds) :
    (h.alertCheck conf p role last fresh).read =
      log.filterMap fun a => Artifact.ofLine? a.line := by
  simp only [Host.alertCheck, hw.artifacts]
  rfl

theorem Watches.sound (hw : Watches conf p role h last log fresh (.record p role :: ds)) :
    (h.alertCheck conf p role last fresh).Sound (conf p) role where
  past := by
    intro b hb
    rw [hw.alertCheck_read] at hb
    obtain ⟨a, ha, hab⟩ := List.mem_filterMap.1 hb
    rw [(Artifact.same_of_ofLine? (hw.stamps a ha) hab).2]
    exact hw.log_past a ha _ List.mem_cons_self
  stamps := fun a ha => hw.stamps a (hw.suffix.mem ha)
  fresh := by
    rw [hw.alertCheck_read]
    exact hw.suffix.filterMap _
  alert := by
    have hmemory : (h.process p).alerts.find? role = last := hw.memory
    rw [AlertCheck.found, hw.alertCheck_read]
    show h.alertBy conf p role = _
    rw [Host.alertBy_eq conf hw.artifacts, hmemory]
    rfl

/-- What is true of all looks of a process for a role. -/
structure Looks (s : Settings.Alerts) (role : String) (last : Option Instant)
    (log : List Artifact) (vs : List AlertCheck) : Prop where
  sound : ∀ v ∈ vs, v.Sound s role
  read : ∀ v ∈ vs, (log.filterMap fun a => Artifact.ofLine? a.line) <+: v.read
  last : ∀ v ∈ vs, ∀ t ∈ last, ∃ u ∈ v.last, t ≤ u
  apart : vs.Pairwise AlertCheck.Apart

/-- Later looks see what this one has seen, and know of the alert that it raised. -/
theorem Looks.cons {s : Settings.Alerts} {v : AlertCheck} {vs : List AlertCheck}
    {new : Option Instant} (hsound : v.Sound s role)
    (hread : v.read = log.filterMap fun a => Artifact.ofLine? a.line)
    (hlast : v.last = last) (hlater : Looks s role new log vs)
    (hnew : ∀ t ∈ last, ∃ u ∈ new, t ≤ u) (halert : v.alert.isSome → new = some v.now) :
    Looks s role last log (v :: vs) where
  sound := List.forall_mem_cons.2 ⟨hsound, hlater.sound⟩
  read := List.forall_mem_cons.2 ⟨hread ▸ List.prefix_refl _, hlater.read⟩
  last := by
    refine List.forall_mem_cons.2 ⟨fun t ht => ⟨t, by rw [hlast]; exact ht, t.le_refl⟩, ?_⟩
    intro w hw t ht
    obtain ⟨u, hu, htu⟩ := hnew t ht
    obtain ⟨u', hu', huu'⟩ := hlater.last w hw u hu
    exact ⟨u', hu', Instant.le_trans htu huu'⟩
  apart := by
    refine List.pairwise_cons.2 ⟨fun w hw => ⟨?_, fun hsome => ?_⟩, hlater.apart⟩
    · rw [hread]
      exact hlater.read w hw
    · exact hlater.last w hw v.now (halert hsome)

theorem Watches.looks (hw : Watches conf p role h last log fresh ds) :
    Looks (conf p) role last log (alertChecks conf p role h last fresh ds) := by
  induction ds generalizing h last log fresh with
  | nil => exact ⟨by simp [alertChecks], by simp [alertChecks], by simp [alertChecks], .nil⟩
  | cons d ds ih =>
    cases d with
    | clocks hand machine => exact ih hw.clocks
    | append q a =>
      have hlooks := ih hw.append
      refine { hlooks with read := fun v hv => ?_ }
      refine List.IsPrefix.trans ?_ (hlooks.read v hv)
      exact (List.prefix_append log _).filterMap _
    | record q other =>
      have hmemory := h.lastAlert_record conf p role q other
      by_cases hours : q = p ∧ other = role
      · obtain ⟨rfl, rfl⟩ := hours
        have hsound := hw.sound
        have hread := hw.alertCheck_read
        have halert : (h.alertCheck conf q other last fresh).alert = h.alertBy conf q other := rfl
        simp only [alertChecks, and_self, if_true]
        cases hraised : h.alertBy conf q other with
        | none =>
          rw [hraised, if_neg (by simp), hw.memory] at hmemory
          refine .cons hsound hread rfl (ih (hw.record hmemory hw.suffix fun u hu => .inl hu)) ?_ ?_
          · exact fun t ht => ⟨t, ht, t.le_refl⟩
          · rw [halert, hraised]
            intro h; cases h
        | some alert =>
          rw [hraised, if_pos ⟨rfl, rfl, hw.exists_process, rfl⟩] at hmemory
          have hat : alert.raisedAt = h.now q := by
            have hsome := hsound.alert
            rw [halert, hraised] at hsome
            split at hsome
            · cases hsome
            · cases hsome; rfl
          dsimp only
          rw [hat]
          refine .cons hsound hread rfl
            (ih (hw.record hmemory List.nil_suffix fun u hu => .inr ?_)) ?_ fun _ => rfl
          · cases hu; rfl
          · exact fun t ht => ⟨_, rfl, hw.last_past t ht _ List.mem_cons_self⟩
      · rw [if_neg fun hc => hours ⟨hc.1.symm, hc.2.1.symm⟩, hw.memory] at hmemory
        simp only [alertChecks, if_neg hours]
        exact ih (hw.record hmemory hw.suffix fun u hu => .inl hu)

end Looks
end WorkerGuard.Simulation
