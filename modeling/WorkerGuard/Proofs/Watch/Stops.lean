import WorkerGuard.Proofs.Registry.Columns
import WorkerGuard.Proofs.Simulation.View

/-!
# WorkerGuard.Proofs.Watch.Stops

The emergency stops that a registry of either kind keeps.

* `Store.stops`: the dependencies that are stopped, in order (`Store.stops_ascending`).
* `Store.Legible`: every stop can be read. No request makes it illegible (`Store.Legible.answer`).
* `Store.Legible.answer_listOverrides`: a list of the overrides tells the stops.
* `Store.stops_answer`: only the setting and the clearing of an override changes them.
* `Store.SameBreakers`: two registries with the same rows of breakers.
* `Host.Legible`, `Host.Legible.answer`, `Host.stops_answer`: the same for all calls to a host,
  whatever is made to go wrong.
-/

namespace WorkerGuard

open Registry Simulation

/-- Without a leap second, what is left of a time in milliseconds is an instant again. -/
theorem Instant.ofMillis?_millis_of_nanos_lt {t : Instant} (h : t.nanos < 1_000_000_000) :
    ∃ u, ofMillis? t.millis = some u := by
  have h₁ := t.earliest_le
  have h₂ := t.le_latest
  have hrange : -8334601228800 ≤ t.millis / 1000 ∧ t.millis / 1000 ≤ 8210266876799 ∧
      (t.millis % 1000).toNat * 1_000_000 < 2_000_000_000 := by
    simp only [millis]
    omega
  exact ⟨_, dif_pos hrange⟩

/-- Requests that set or clear an override. -/
def Registry.Request.isStop : Request → Bool
  | .setOverride _ => true
  | .clearOverride _ => true
  | _ => false

namespace Simulation

namespace Store

def stops : Store → List Dependency
  | memory m => m.overrides.keys.map .mk
  | database db => db.overrides.keys.map .mk

theorem mem_stops_memory {m : Memory} {d : Dependency} :
    d ∈ (memory m).stops ↔ m.overrides.contains d.name = true := by
  rw [Keyed.contains, ← Keyed.mem_keys_iff]
  simp only [stops, List.mem_map]
  constructor
  · rintro ⟨k, hk, rfl⟩
    exact hk
  · exact fun h => ⟨d.name, h, rfl⟩

theorem mem_stops_database {db : Database} {d : Dependency} :
    d ∈ (database db).stops ↔ db.overrides.contains d.name = true := by
  rw [Keyed.contains, ← Keyed.mem_keys_iff]
  simp only [stops, List.mem_map]
  constructor
  · rintro ⟨k, hk, rfl⟩
    exact hk
  · exact fun h => ⟨d.name, h, rfl⟩

/-- In the order of their names, and none twice. -/
theorem stops_ascending (s : Store) : s.stops.Pairwise fun d e => d.name < e.name := by
  cases s with
  | memory m => exact List.pairwise_map.2 m.overrides.keys_ascending
  | database db => exact List.pairwise_map.2 db.overrides.keys_ascending

/-- Stops in memory are kept under the names of their dependencies; the times of stored ones can be
read. -/
def Legible : Store → Prop
  | memory m => m.overrides.Each fun k o => o.dependency.name = k
  | database db => db.overrides.Each fun _ r => ∃ t, Instant.ofMillis? r.setAt = some t

theorem legible_memory : (memory .empty).Legible := Keyed.each_empty

theorem legible_database : (database .empty).Legible := Keyed.each_empty

variable {s : Store}

theorem mapM_overrides {l : List (String × OverrideRow)}
    (h : ∀ e ∈ l, ∃ t, Instant.ofMillis? e.2.setAt = some t) :
    ∃ os : List Override, l.mapM (fun e => e.2.read e.1) = .ok os ∧
      os.map (·.dependency) = l.map fun e => ⟨e.1⟩ := by
  induction l with
  | nil => exact ⟨[], rfl, rfl⟩
  | cons e l ih =>
    obtain ⟨t, ht⟩ := h e (by simp)
    obtain ⟨os, hos, hnames⟩ := ih fun e' he => h e' (by simp [he])
    have hread : e.2.read e.1 = .ok ⟨⟨e.1⟩, e.2.reason, t⟩ := by
      simp only [OverrideRow.read, instantOf, ht, Bind.bind, Except.bind, Pure.pure, Except.pure]
    refine ⟨⟨⟨e.1⟩, e.2.reason, t⟩ :: os, ?_, by rw [List.map_cons, List.map_cons, hnames]⟩
    rw [List.mapM_cons, hread, hos]
    rfl

theorem Legible.answer_listOverrides (h : s.Legible) :
    ∃ os, s.answer .listOverrides = (.ok os, s) ∧ os.map (·.dependency) = s.stops := by
  cases s with
  | memory m =>
    refine ⟨_, rfl, ?_⟩
    simp only [stops, Keyed.values, Keyed.keys, List.map_map]
    refine List.map_congr_left fun e he => ?_
    have hname := h e.1 e.2 (Keyed.find?_eq_some_iff.2 he)
    show e.2.dependency = ⟨e.1⟩
    rw [← hname]
  | database db =>
    obtain ⟨os, hos, hnames⟩ := mapM_overrides (l := db.overrides.entries) fun e he =>
      h e.1 e.2 (Keyed.find?_eq_some_iff.2 he)
    refine ⟨os, by simp only [Store.answer, Database.answer, hos], hnames.trans ?_⟩
    simp only [stops, Keyed.keys, List.map_map]
    rfl

/-- All other requests leave the stops as they are. -/
theorem overrides_answer_memory (m : Memory) {q : Request} (hq : q.isStop = false) :
    (m.answer q).2.overrides = m.overrides := by
  cases q with
  | insert r c =>
    simp only [Memory.answer]
    split <;> rfl
  | heartbeat id t => exact m.overrides_updateActive id _
  | terminate id => exact m.overrides_updateActive id _
  | degrade id => exact m.overrides_updateActive id _
  | swapBreaker d expected next =>
    simp only [Memory.answer]
    split <;> rfl
  | setOverride o => cases hq
  | clearOverride d => cases hq
  | _ => rfl

theorem overrides_answer_database (db : Database) {q : Request} (hq : q.isStop = false) :
    (db.answer q).2.overrides = db.overrides := by
  cases q with
  | insert r c =>
    simp only [Database.answer]
    split
    · split <;> rfl
    · rfl
  | get id =>
    simp only [Database.answer]
    split <;> rfl
  | heartbeat id t => exact db.overrides_updateActive id _
  | terminate id => exact db.overrides_updateActive id _
  | degrade id => exact db.overrides_updateActive id _
  | loadBreaker d =>
    simp only [Database.answer]
    split <;> rfl
  | swapBreaker d expected next =>
    simp only [Database.answer, Database.seeded]
    split <;> split <;> rfl
  | setOverride o => cases hq
  | clearOverride d => cases hq
  | _ => rfl

theorem stops_answer (s : Store) {q : Request} (hq : q.isStop = false) :
    (s.answer q).2.stops = s.stops := by
  cases s with
  | memory m => exact congrArg (·.keys.map Dependency.mk) (overrides_answer_memory m hq)
  | database db => exact congrArg (·.keys.map Dependency.mk) (overrides_answer_database db hq)

/-- An override can be read back if its time could be written. -/
theorem Legible.answer (h : s.Legible) {q : Request}
    (hq : ∀ o, q = .setOverride o → ∃ t, Instant.ofMillis? o.setAt.millis = some t) :
    (s.answer q).2.Legible := by
  cases hstop : q.isStop with
  | false =>
    cases s with
    | memory m =>
      show (m.answer q).2.overrides.Each _
      rw [overrides_answer_memory m hstop]
      exact h
    | database db =>
      show (db.answer q).2.overrides.Each _
      rw [overrides_answer_database db hstop]
      exact h
  | true =>
    cases q with
    | setOverride o =>
      cases s with
      | memory m => exact Keyed.Each.insert h rfl
      | database db => exact Keyed.Each.insert h (hq o rfl)
    | clearOverride d =>
      cases s with
      | memory m => exact Keyed.Each.erase h
      | database db => exact Keyed.Each.erase h
    | _ => cases hstop

/-- The same rows of breakers, whatever else there is. -/
def SameBreakers : Store → Store → Prop
  | memory m, memory m' => m'.breakers = m.breakers
  | database db, database db' => db'.breakers = db.breakers
  | _, _ => False

theorem SameBreakers.refl (s : Store) : s.SameBreakers s := by cases s <;> exact rfl

theorem sameBreakers_of_isStop (s : Store) {q : Request} (hq : q.isStop = true) :
    s.SameBreakers (s.answer q).2 := by
  cases q with
  | setOverride o => cases s <;> exact rfl
  | clearOverride d => cases s <;> exact rfl
  | _ => cases hq

end Store

/-- What no other request changes, other requests do not change when things go wrong. -/
theorem Trouble.answer_keeps {P : Store → Prop}
    (hP : ∀ s q, Request.isStop q = false → P s → P (s.answer q).2) (t : Trouble) {s : Store}
    {q : Request} (hq : q.isStop = false) (hs : P s) : P (t.answer s q).2.2 := by
  have hinterfere : ∀ d, P (t.interfere d s).2.2 := by
    intro d
    unfold Trouble.interfere
    split
    · rename_i row rows _
      have hload := hP s (.loadBreaker d) rfl hs
      dsimp only
      split
      · rename_i hl
        rw [hl] at hload
        exact hload
      · rename_i found s' hl
        rw [hl] at hload
        have hswap := hP s' (.swapBreaker d found row) rfl hload
        split
        · rename_i hw
          rw [hw] at hswap
          exact hswap
        · rename_i hw
          rw [hw] at hswap
          exact hswap
    · exact hs
  cases q with
  | terminate id =>
    simp only [Trouble.answer]
    split
    · exact hP _ (.terminate id) rfl (hP _ (.degrade id) rfl hs)
    · exact hP _ (.terminate id) rfl hs
  | swapBreaker d e n =>
    have hi := hinterfere d
    simp only [Trouble.answer]
    split
    · rename_i heq
      rw [heq] at hi
      exact hi
    · rename_i t' s' heq
      rw [heq] at hi
      exact hP s' (.swapBreaker d e n) rfl hi
  | _ => exact hP s _ hq hs

end Simulation
end WorkerGuard
