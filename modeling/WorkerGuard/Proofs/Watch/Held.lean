import WorkerGuard.Proofs.Watch.Stops

/-!
# WorkerGuard.Proofs.Watch.Held

The dependencies that a process holds open.

* `Host.handle_setHandle_eq`: what a new handle changes.
* `Host.held`: the dependencies that a process holds open, in order (`Host.held_ascending`).
* `Host.hold`: a process holds a dependency open, or ceases to; `Host.handle_hold` says all that
  this changes.
* `Call.isTraffic`: calls that neither hold open nor stop anything. They change neither the stops
  (`Host.stops_answer`) nor what anybody holds open (`Host.forced_answer`).
-/

namespace WorkerGuard

open Registry Simulation

theorem Dependency.name_inj {d e : Dependency} : d.name = e.name ↔ d = e := by
  cases d; cases e; simp

/-- Calls that neither hold open nor stop anything. -/
def Call.isTraffic : Call → Bool
  | .setForced .. => false
  | .registry q => !q.isStop
  | _ => true

namespace Simulation.Host

theorem process_updateProcess (h : Host) (p q : Nat) (f : Process → Process) :
    (h.updateProcess p f).process q =
      if q = p ∧ p < h.processes.size then f (h.process q) else h.process q := by
  simp only [process, updateProcess, Array.getElem?_modify]
  by_cases hq : p = q
  · subst hq
    by_cases hp : p < h.processes.size
    · simp [hp]
    · simp [hp]
  · have hq' : ¬q = p := fun h => hq h.symm
    simp [hq, hq']

theorem handle_setHandle_eq (h : Host) (p : Nat) (d : Dependency) (a : Handle) (q : Nat)
    (e : Dependency) : (h.setHandle p d a).handle q e =
      if q = p ∧ e = d ∧ p < h.processes.size then a else h.handle q e := by
  rw [handle, setHandle, process_updateProcess]
  by_cases hq : q = p ∧ p < h.processes.size
  · rw [if_pos hq, Keyed.find?_insert]
    by_cases he : e = d
    · rw [if_pos (congrArg Dependency.name he), if_pos ⟨hq.1, he, hq.2⟩]
      rfl
    · rw [if_neg fun h => he (Dependency.name_inj.1 h), if_neg fun h => he h.2.1]
      rfl
  · rw [if_neg hq, if_neg fun h => hq ⟨h.1, h.2.2⟩]
    rfl

theorem size_setHandle (h : Host) (p : Nat) (d : Dependency) (a : Handle) :
    (h.setHandle p d a).processes.size = h.processes.size := Array.size_modify

/-- Enlisting a handle makes no difference to what it says. -/
theorem handle_enlist (h : Host) (p : Nat) (d : Dependency) (q : Nat) (e : Dependency) :
    (h.setHandle p d (h.handle p d)).handle q e = h.handle q e := by
  rw [handle_setHandle_eq]
  split
  · rename_i heq
    rw [heq.1, heq.2.1]
  · rfl

def held (h : Host) (p : Nat) : List Dependency := (h.answer p false .allForced).1

theorem mem_held {h : Host} {p : Nat} {d : Dependency} :
    d ∈ h.held p ↔ (h.handle p d).forced = true := by
  simp only [held, answer, List.mem_map, List.mem_filter, handle]
  constructor
  · rintro ⟨⟨k, a⟩, ⟨hmem, hforced⟩, rfl⟩
    rw [Keyed.find?_eq_some_iff.2 hmem]
    exact hforced
  · intro hforced
    cases hfind : (h.process p).handles.find? d.name with
    | none =>
      rw [hfind] at hforced
      cases hforced
    | some a =>
      rw [hfind] at hforced
      exact ⟨(d.name, a), ⟨Keyed.find?_eq_some_iff.1 hfind, hforced⟩, rfl⟩

theorem held_ascending (h : Host) (p : Nat) :
    (h.held p).Pairwise fun d e => d.name < e.name :=
  List.pairwise_map.2 ((h.process p).handles.ascending.filter _)

/-- A process holds a dependency open from now on, or no longer. -/
def hold (p : Nat) (forced : Bool) (h : Host) (d : Dependency) : Host :=
  ((h.answer p false (.enlist d)).2.answer p false (.setForced d forced)).2

section Hold

variable (p : Nat) (forced : Bool) (h : Host) (d : Dependency)

theorem size_hold : (h.hold p forced d).processes.size = h.processes.size :=
  (size_setHandle _ p d _).trans (size_setHandle h p d _)

theorem handle_hold (q : Nat) (e : Dependency) : (h.hold p forced d).handle q e =
    if q = p ∧ e = d ∧ p < h.processes.size then { h.handle q e with forced }
    else h.handle q e := by
  simp only [hold, answer]
  rw [handle_setHandle_eq, size_setHandle, handle_enlist, handle_enlist]
  split
  · rename_i heq
    rw [heq.1, heq.2.1]
  · rfl

theorem word_hold (q : Nat) (e : Dependency) :
    ((h.hold p forced d).handle q e).word = (h.handle q e).word := by
  rw [handle_hold]
  split <;> rfl

end Hold

section HoldAll

variable (p : Nat) (forced : Bool) (ds : List Dependency)

theorem size_foldl_hold (h : Host) :
    (ds.foldl (hold p forced) h).processes.size = h.processes.size := by
  induction ds generalizing h with
  | nil => rfl
  | cons d ds ih => exact (ih _).trans (size_hold p forced h d)

theorem store_foldl_hold (h : Host) : (ds.foldl (hold p forced) h).store = h.store := by
  induction ds generalizing h with
  | nil => rfl
  | cons d ds ih => exact ih _

theorem clock_foldl_hold (h : Host) :
    (ds.foldl (hold p forced) h).systemClock = h.systemClock := by
  induction ds generalizing h with
  | nil => rfl
  | cons d ds ih => exact ih _

theorem word_foldl_hold (h : Host) (q : Nat) (e : Dependency) :
    ((ds.foldl (hold p forced) h).handle q e).word = (h.handle q e).word := by
  induction ds generalizing h with
  | nil => rfl
  | cons d ds ih => exact (ih _).trans (word_hold p forced h d q e)

theorem forced_foldl_hold (h : Host) (q : Nat) (e : Dependency) :
    ((ds.foldl (hold p forced) h).handle q e).forced =
      if q = p ∧ e ∈ ds ∧ p < h.processes.size then forced else (h.handle q e).forced := by
  induction ds generalizing h with
  | nil => simp
  | cons d ds ih =>
    rw [List.foldl_cons, ih, size_hold, handle_hold]
    by_cases hp : q = p ∧ p < h.processes.size
    · by_cases hd : e = d
      · by_cases hds : e ∈ ds <;> simp [hp, hd]
      · simp [hp, hd]
    · have hp₁ : ∀ P : Prop, ¬(q = p ∧ P ∧ p < h.processes.size) := fun _ h => hp ⟨h.1, h.2.2⟩
      rw [if_neg (hp₁ _), if_neg (hp₁ _), if_neg (hp₁ _)]

end HoldAll

section Traffic

variable (h : Host) (p : Nat) {c : Call}

theorem registry_keeps {P : Store → Prop}
    (hP : ∀ s q, Request.isStop q = false → P s → P (s.answer q).2) {q : Request}
    (hq : q.isStop = false) (hs : P h.store) : P (h.answer p false (.registry q)).2.store := by
  have hkept := h.trouble.answer_keeps hP hq hs
  simp only [answer]
  split
  · exact hs
  · cases q with
    | insert r c =>
      simp only [insert]
      split
      · split <;> exact hkept
      · exact hkept
    | _ => exact hkept

/-- What other requests do not change, traffic does not change. -/
theorem traffic_keeps {P : Store → Prop}
    (hP : ∀ s q, Request.isStop q = false → P s → P (s.answer q).2) (hc : c.isTraffic = true)
    (hs : P h.store) : P (h.answer p false c).2.store := by
  cases c with
  | registry q =>
    exact h.registry_keeps p hP (by simpa [Call.isTraffic] using hc) hs
  | exchangeWord d old new =>
    simp only [answer]
    split <;> exact hs
  | appendLog a =>
    simp only [answer]
    split <;> exact hs
  | _ => exact hs

theorem stops_answer (hc : c.isTraffic = true) :
    (h.answer p false c).2.store.stops = h.store.stops :=
  h.traffic_keeps p (P := fun s => s.stops = h.store.stops)
    (fun s _ hq hs => (s.stops_answer hq).trans hs) hc rfl

theorem legible_answer (hc : c.isTraffic = true) (hl : h.store.Legible) :
    (h.answer p false c).2.store.Legible :=
  h.traffic_keeps p (fun _ _ hq hs => hs.answer fun o ho => by rw [ho] at hq; cases hq) hc hl

/-- Requests do not touch what processes keep. -/
theorem processes_registry (q : Request) :
    (h.answer p false (.registry q)).2.processes = h.processes := by
  simp only [answer]
  split
  · rfl
  · cases q with
    | insert r c =>
      simp only [insert]
      split
      · split <;> rfl
      · rfl
    | _ => rfl

theorem handle_congr {h h' : Host} (hp : h'.processes = h.processes) (q : Nat) (e : Dependency) :
    h'.handle q e = h.handle q e := by
  rw [handle, handle, process, process, hp]

theorem size_answer (c : Call) :
    (h.answer p false c).2.processes.size = h.processes.size := by
  cases c with
  | registry q => rw [processes_registry]
  | enlist d => exact size_setHandle h p d _
  | setWord d w => exact size_setHandle h p d _
  | setForced d b => exact size_setHandle h p d _
  | exchangeWord d old new =>
    simp only [answer]
    split
    · exact size_setHandle h p d _
    · rfl
  | appendLog a =>
    simp only [answer]
    split <;> rfl
  | setLastAlert role t => exact Array.size_modify
  | _ => rfl

theorem clock_answer (c : Call) : (h.answer p false c).2.systemClock = h.systemClock := by
  cases c with
  | registry q =>
    simp only [answer]
    split
    · rfl
    · cases q with
      | insert r c =>
        simp only [insert]
        split
        · split <;> rfl
        · rfl
      | _ => rfl
  | exchangeWord d old new =>
    simp only [answer]
    split <;> rfl
  | appendLog a =>
    simp only [answer]
    split <;> rfl
  | _ => rfl

theorem forced_setWord (d : Dependency) (w : UInt64) (q : Nat) (e : Dependency) :
    ((h.setHandle p d { h.handle p d with word := w }).handle q e).forced =
      (h.handle q e).forced := by
  rw [handle_setHandle_eq]
  split
  · rename_i heq
    rw [heq.1, heq.2.1]
  · rfl

theorem forced_answer (hc : c.isTraffic = true) (q : Nat) (e : Dependency) :
    ((h.answer p false c).2.handle q e).forced = (h.handle q e).forced := by
  cases c with
  | registry r => rw [handle_congr (h.processes_registry p r)]
  | enlist d => exact congrArg Handle.forced (h.handle_enlist p d q e)
  | setWord d w => exact h.forced_setWord p d w q e
  | exchangeWord d old new =>
    simp only [answer]
    split
    · exact h.forced_setWord p d new q e
    · rfl
  | setForced d b => cases hc
  | appendLog a =>
    simp only [answer]
    split <;> rfl
  | setLastAlert role t =>
    simp only [answer, handle]
    rw [process_updateProcess]
    split <;> rfl
  | _ => rfl

end Traffic

end Simulation.Host
end WorkerGuard
