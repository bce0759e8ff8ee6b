import WorkerGuard.Proofs.Alert.Check

/-!
# WorkerGuard.Proofs.Alert.Count

What alerts count.

* `AlertCheck.counts`: the artifacts that a look counts: those of the role that were recorded after
  the last alert of the process and within the window, which ends now. `AlertCheck.counted`: their
  places in the log.
* `Sound.length_counted`: an alert counts what was found.
* `Apart.disjoint`: no two alerts of a process for a role count the same artifact.
-/

namespace WorkerGuard

namespace Alert

theorem max_lt_iff {a b t : Instant} : max a b < t ↔ a < t ∧ b < t := by
  show (if a ≤ b then b else a) < t ↔ _
  split
  · rename_i hab
    rw [Instant.le_iff] at hab
    simp only [Instant.lt_iff]
    omega
  · rename_i hab
    rw [Instant.le_iff] at hab
    simp only [Instant.lt_iff]
    omega

theorem since_lt_iff {now t : Instant} {window : Duration} {last : Option Instant} :
    since now window last < t ↔ (∀ u ∈ last, u < t) ∧ now.before window < t := by
  cases last with
  | none => simp [since]
  | some u => simp [since, max_lt_iff]

theorem threshold_pos (s : Settings.Alerts) : 0 < threshold s := Nat.le_max_right _ _

end Alert

namespace Simulation

namespace AlertCheck

variable {v w : AlertCheck} {s : Settings.Alerts} {role : String}

/-- Of the role, recorded after the last alert and within the window, which ends now and starts at
the earliest instant if it is longer than all time. -/
def Counts (v : AlertCheck) (s : Settings.Alerts) (role : String) (a : Artifact) : Prop :=
  a.role = role ∧ (∀ t ∈ v.last, t < a.recordedAt) ∧ v.now.before s.window < a.recordedAt ∧
    a.recordedAt ≤ v.now

instance (v : AlertCheck) (s : Settings.Alerts) (role : String) :
    DecidablePred (v.Counts s role) := fun _ => inferInstanceAs (Decidable (_ ∧ _ ∧ _ ∧ _))

/-- The places in the log of the artifacts that count. -/
def counted (v : AlertCheck) (s : Settings.Alerts) (role : String) : List Nat :=
  (v.read.zipIdx.filter fun x => v.Counts s role x.1).map (·.2)

theorem mem_counted {i : Nat} :
    i ∈ v.counted s role ↔ ∃ a, v.read[i]? = some a ∧ v.Counts s role a := by
  simp only [counted, List.mem_map, List.mem_filter, decide_eq_true_eq, Prod.exists,
    List.mem_zipIdx_iff_getElem?]
  constructor
  · rintro ⟨a, _, ⟨ha, hc⟩, rfl⟩
    exact ⟨a, ha, hc⟩
  · rintro ⟨a, ha, hc⟩
    exact ⟨a, i, ⟨ha, hc⟩, rfl⟩

theorem length_counted_eq :
    (v.counted s role).length = (v.read.filter fun a => v.Counts s role a).length := by
  have hread : v.read = v.read.zipIdx.map (·.1) := by simp
  rw [counted, List.length_map]
  conv => rhs; rw [hread, List.filter_map, List.length_map]
  rfl

/-- Nothing that is read was recorded later, so that the end of the window makes no difference. -/
theorem Sound.length_counted (h : v.Sound s role) : (v.counted s role).length = v.found s role := by
  rw [length_counted_eq, found, Log.countSince_eq]
  congr 1
  refine List.filter_congr fun a ha => ?_
  rw [decide_eq_decide, Counts, Alert.since_lt_iff]
  have hpast := h.past a ha
  constructor
  · rintro ⟨hrole, hlast, hwindow, -⟩
    exact ⟨hrole, hlast, hwindow⟩
  · rintro ⟨hrole, hlast, hwindow⟩
    exact ⟨hrole, hlast, hwindow, hpast⟩

theorem Sound.alert_eq_none_iff (h : v.Sound s role) :
    v.alert = none ↔ (v.counted s role).length < Alert.threshold s := by
  rw [h.length_counted, h.alert]
  split <;> simp_all

theorem Sound.alert_eq (h : v.Sound s role) {alert : Alert} (ha : v.alert = some alert) :
    alert = ⟨role, (v.counted s role).length, s.window, v.now⟩ ∧
      Alert.threshold s ≤ alert.count := by
  rw [h.alert] at ha
  split at ha
  · cases ha
  · rename_i hmany
    cases ha
    exact ⟨by rw [h.length_counted], Nat.not_lt.1 hmany⟩

/-- What an earlier alert counts was not recorded after it. -/
theorem Apart.disjoint (h : v.Apart w) (hv : v.alert.isSome) :
    ∀ i ∈ v.counted s role, i ∉ w.counted s role := by
  intro i hi hi'
  obtain ⟨a, ha, -, -, -, hnow⟩ := mem_counted.1 hi
  obtain ⟨b, hb, -, hlast, -⟩ := mem_counted.1 hi'
  obtain ⟨t, ht, hvt⟩ := h.last hv
  obtain ⟨rest, hrest⟩ := h.read
  have hin : i < v.read.length := (List.getElem?_eq_some_iff.1 ha).1
  rw [← hrest, List.getElem?_append_left hin, ha] at hb
  cases hb
  exact Instant.not_lt.2 (Instant.le_trans hnow hvt) (hlast t ht)

/-- A second look at the same reading as an alert counts nothing. -/
theorem Apart.silent (h : v.Apart w) (hsound : w.Sound s role) (hv : v.alert.isSome)
    (hsame : w.now = v.now) : w.alert = none := by
  obtain ⟨t, ht, hvt⟩ := h.last hv
  have hnone : w.counted s role = [] := by
    refine List.eq_nil_iff_forall_not_mem.2 fun i hi => ?_
    obtain ⟨a, -, -, hlast, -, hnow⟩ := mem_counted.1 hi
    rw [hsame] at hnow
    exact Instant.not_lt.2 (Instant.le_trans hnow hvt) (hlast t ht)
  rw [hsound.alert_eq_none_iff, hnone]
  exact Alert.threshold_pos s

theorem counts_congr {a b : Artifact} (hrole : b.role = a.role)
    (htime : b.recordedAt = a.recordedAt) : v.Counts s role b ↔ v.Counts s role a := by
  rw [Counts, Counts, hrole, htime]

theorem length_filterMap_ofLine? {as : List Artifact} (has : ∀ a ∈ as, a.recordedAt.Proper) :
    ((as.filterMap fun a => Artifact.ofLine? a.line).filter fun a => v.Counts s role a).length =
      (as.filter fun a => (Artifact.ofLine? a.line).isSome ∧ v.Counts s role a).length := by
  induction as with
  | nil => rfl
  | cons a r ih =>
    have hr := ih fun b hb => has b (List.mem_cons_of_mem a hb)
    cases hread : Artifact.ofLine? a.line with
    | none => simpa [hread] using hr
    | some b =>
      obtain ⟨hrole, htime⟩ := Artifact.same_of_ofLine? (has a List.mem_cons_self) hread
      have hsame : v.Counts s role b ↔ v.Counts s role a := counts_congr hrole htime
      by_cases hc : v.Counts s role a
      · simpa [hread, hsame, hc] using hr
      · simpa [hread, hsame, hc] using hr

/-- What was appended since the last alert and counts is counted, if the log gives it back. -/
theorem Sound.fresh_le (h : v.Sound s role) :
    (v.fresh.filter fun a =>
      (Artifact.ofLine? a.line).isSome ∧ v.Counts s role a).length ≤ (v.counted s role).length := by
  rw [← length_filterMap_ofLine? h.stamps, length_counted_eq]
  exact (h.fresh.sublist.filter _).length_le

end AlertCheck

/-- A log without an entry, and processes that have raised no alert. -/
structure Unwatched (h : Host) : Prop where
  log : h.log = .missing ∨ h.log = .text []
  proper : h.systemClock.Proper
  silent : ∀ p role, h.lastAlert p role = none

variable {conf : Nat → Settings.Alerts} {H : Host} {ds : List LogEvent}

theorem Unwatched.looks (hH : Unwatched H) (hclock : (readings conf H ds).Pairwise (· ≤ ·))
    {p : Nat} (hp : p < H.processes.size) (role : String) :
    Looks (conf p) role none [] (alertChecks conf p role H none [] ds) := by
  refine Watches.looks
    { exists_process := hp
      proper := hH.proper
      holds := by rcases hH.log with h | h <;> rw [h] <;> rfl
      stamps := by simp
      memory := hH.silent p role
      suffix := List.suffix_rfl
      onward := hclock
      log_past := by simp
      last_past := by simp }

/-- Whatever is appended and however often processes look for it, every alert counts the artifacts
of its role that were recorded after the last one and within the window, there are as many of them
as it takes, and no other alert of the process counts one of them. -/
theorem alerts_count_once (hH : Unwatched H) (hclock : (readings conf H ds).Pairwise (· ≤ ·))
    {p : Nat} (hp : p < H.processes.size) (role : String) :
    (∀ v ∈ alertChecks conf p role H none [] ds,
      (v.alert = none ↔ (v.counted (conf p) role).length < Alert.threshold (conf p)) ∧
      ∀ alert, v.alert = some alert →
        alert = ⟨role, (v.counted (conf p) role).length, (conf p).window, v.now⟩ ∧
          Alert.threshold (conf p) ≤ alert.count) ∧
    (alertChecks conf p role H none [] ds).Pairwise fun v w =>
      v.read <+: w.read ∧
        (v.alert.isSome → ∀ i ∈ v.counted (conf p) role, i ∉ w.counted (conf p) role) := by
  have hlooks := hH.looks hclock hp role
  refine ⟨fun v hv => ?_, ?_⟩
  · have hsound := hlooks.sound v hv
    exact ⟨hsound.alert_eq_none_iff, fun alert ha => hsound.alert_eq ha⟩
  · exact hlooks.apart.imp fun hapart => ⟨hapart.read, hapart.disjoint⟩

section Example

/-- Two processes with one log, at the start of 1970. -/
def alerters : Host := { clock := 0, systemClock := .epoch, processes := #[{}, {}] }

theorem alerters_unwatched : Unwatched alerters where
  log := .inl rfl
  proper := by decide
  silent := by
    intro p role
    rcases p with _ | _ | p
    · rfl
    · rfl
    · simp [Host.lastAlert, Host.process, alerters]

def givenUp : Artifact where
  worker := ⟨"w-1"⟩
  role := "worker"
  dependency := ⟨"api"⟩
  task := "sync"
  reason := "down"
  checkpoint := none
  recordedAt := .epoch

def alertAt (n : UInt64) : Nat → Settings.Alerts := fun _ => { threshold := n }

/-- Two artifacts, of which both processes learn, and two more a second later. -/
def bursts : List LogEvent :=
  [.append 0 givenUp, .record 0 "worker", .append 1 givenUp, .record 0 "worker",
    .record 1 "worker", .clocks 1000 0, .append 0 givenUp, .record 0 "worker",
    .append 1 givenUp, .record 0 "worker"]

theorem bursts_count_once :
    (alertChecks (alertAt 2) 0 "worker" alerters none [] bursts).map
        (fun v => v.counted (alertAt 2 0) "worker") = [[0], [0, 1], [2], [2, 3]] ∧
      (alertChecks (alertAt 2) 0 "worker" alerters none [] bursts).map (·.alert.isSome) =
        [false, true, false, true] ∧
      (alertChecks (alertAt 2) 0 "worker" alerters none [] bursts).Pairwise fun v w =>
        v.read <+: w.read ∧
          (v.alert.isSome → ∀ i ∈ v.counted (alertAt 2 0) "worker",
            i ∉ w.counted (alertAt 2 0) "worker") :=
  ⟨by decide +kernel, by decide +kernel,
    (alerts_count_once alerters_unwatched (by decide +kernel) (by decide) "worker").2⟩

end Example

/-- As soon as enough artifacts that count were appended after the last alert, and the log gives
them back, the next look raises an alert. -/
theorem enough_raises (hH : Unwatched H) (hclock : (readings conf H ds).Pairwise (· ≤ ·))
    {p : Nat} (hp : p < H.processes.size) {role : String} {v : AlertCheck}
    (hv : v ∈ alertChecks conf p role H none [] ds)
    (henough : Alert.threshold (conf p) ≤ (v.fresh.filter fun a =>
      (Artifact.ofLine? a.line).isSome ∧ v.Counts (conf p) role a).length) :
    v.alert.isSome := by
  have hsound := (hH.looks hclock hp role).sound v hv
  have hmany := Nat.le_trans henough hsound.fresh_le
  rw [Option.isSome_iff_ne_none, ne_eq, hsound.alert_eq_none_iff]
  omega

section Example

theorem second_burst_raises :
    ∃ v ∈ alertChecks (alertAt 2) 0 "worker" alerters none [] bursts,
      v.last.isSome ∧
      Alert.threshold (alertAt 2 0) ≤ (v.fresh.filter fun a =>
        (Artifact.ofLine? a.line).isSome ∧ v.Counts (alertAt 2 0) "worker" a).length ∧
      v.alert.isSome := by
  obtain ⟨v, hv, hlast, henough⟩ : ∃ v ∈ alertChecks (alertAt 2) 0 "worker" alerters none [] bursts,
      v.last.isSome ∧ Alert.threshold (alertAt 2 0) ≤ (v.fresh.filter fun a =>
        (Artifact.ofLine? a.line).isSome ∧ v.Counts (alertAt 2 0) "worker" a).length := by
    decide +kernel
  exact ⟨v, hv, hlast, henough,
    enough_raises alerters_unwatched (by decide +kernel) (by decide) hv henough⟩

def nested : Nat → Json
  | 0 => .null
  | n + 1 => .arr [nested n]

/-- An artifact that has the time of the last alert, or a checkpoint too deep to be read, is in the
log after that alert and within the window, and raises none. -/
theorem appended_without_alert :
    Unwatched alerters ∧
    (readings (alertAt 1) alerters
      [.append 0 givenUp, .record 0 "worker", .append 0 givenUp, .record 0 "worker"]).Pairwise
        (· ≤ ·) ∧
    (¬∀ v ∈ alertChecks (alertAt 1) 0 "worker" alerters none []
        [.append 0 givenUp, .record 0 "worker", .append 0 givenUp, .record 0 "worker"],
      Alert.threshold (alertAt 1 0) ≤ (v.fresh.filter fun a => a.role = "worker" ∧
        v.now.before (alertAt 1 0).window < a.recordedAt ∧ a.recordedAt ≤ v.now).length →
          v.alert.isSome) ∧
    ¬∀ v ∈ alertChecks (alertAt 1) 0 "worker" alerters none []
        [.append 0 { givenUp with checkpoint := some (nested 127) }, .record 0 "worker"],
      Alert.threshold (alertAt 1 0) ≤ (v.fresh.filter fun a => a.role = "worker" ∧
        v.now.before (alertAt 1 0).window < a.recordedAt ∧ a.recordedAt ≤ v.now).length →
          v.alert.isSome :=
  ⟨alerters_unwatched, by decide +kernel, by decide +kernel, by decide +kernel⟩

end Example

end Simulation
end WorkerGuard
