import WorkerGuard.Proofs.Registry.Row
import WorkerGuard.Proofs.Registry.Silent

/-!
# WorkerGuard.Proofs.Registry.Columns

Values that a database has written into its columns, and reads back.

* `Instant.Whole`: an instant that a column of milliseconds can hold. Such instants are in the order
  of their milliseconds (`Instant.Whole.millis_le`).
* `WorkerRow.ofWorker`, `OverrideRow.ofOverride`: the rows of a worker and of an override.
* `WorkerRow.read_ofWorker`, `OverrideRow.read_ofOverride`: what was written is what is read.
* `BreakerRow.ofRow_inj`: different rows of a breaker have different columns.
* `Keyed.Each`: what is true of every value and the name it is kept under.
-/

namespace WorkerGuard

namespace Keyed

variable {α β : Type} {P : String → α → Prop} {t : Keyed α} {k : String}

def Each (P : String → α → Prop) (t : Keyed α) : Prop := ∀ k v, t.find? k = some v → P k v

theorem each_empty : Each P empty := fun _ _ h => by cases h

theorem Each.insert {v : α} (h : Each P t) (hv : P k v) : Each P (t.insert k v) := by
  intro k' v' hfind
  rw [find?_insert] at hfind
  split at hfind
  · rename_i hk
    cases hfind
    rw [hk]
    exact hv
  · exact h k' v' hfind

theorem Each.erase (h : Each P t) : Each P (t.erase k) := by
  intro k' v' hfind
  rw [find?_erase] at hfind
  split at hfind
  · cases hfind
  · exact h k' v' hfind

theorem map_erase {f : α → β} (t : Keyed α) (k : String) :
    (t.erase k).map f = (t.map f).erase k := by
  refine ext_find? fun k' => ?_
  simp only [find?_map, find?_erase]
  split <;> rfl

theorem insert_same {v : α} (h : t.find? k = some v) : t.insert k v = t := by
  refine ext_find? fun k' => ?_
  rw [find?_insert]
  split
  · rename_i hk
    rw [hk, h]
  · rfl

theorem insert_insert (t : Keyed α) (k : String) (v w : α) :
    (t.insert k v).insert k w = t.insert k w := by
  refine ext_find? fun k' => ?_
  simp only [find?_insert]
  split <;> rfl

end Keyed

namespace Instant

variable {t u : Instant}

/-- The instant of a whole number of milliseconds from 1970. -/
def Whole (t : Instant) : Prop := ∃ ms, ofMillis? ms = some t

theorem Whole.ofMillis?_millis (h : t.Whole) : ofMillis? t.millis = some t := by
  obtain ⟨ms, h⟩ := h
  have hms : t.millis = ms := by
    simp only [ofMillis?, ofParts?] at h
    split at h
    · cases h
      simp only [millis]
      omega
    · cases h
  rw [hms, h]

theorem Whole.nanos_lt (h : t.Whole) :
    t.nanos < 1_000_000_000 ∧ t.nanos = t.nanos / 1_000_000 * 1_000_000 := by
  obtain ⟨ms, h⟩ := h
  simp only [ofMillis?, ofParts?] at h
  split at h
  · cases h
    dsimp only
    omega
  · cases h

theorem Whole.millis_le (ht : t.Whole) (hu : u.Whole) : t.millis ≤ u.millis ↔ t ≤ u := by
  have h₁ := ht.nanos_lt
  have h₂ := hu.nanos_lt
  rw [le_iff]
  simp only [millis]
  omega

theorem Whole.millis_lt (ht : t.Whole) (hu : u.Whole) : t.millis < u.millis ↔ t < u := by
  have h := (hu.millis_le ht).trans not_lt.symm
  have h' := Int.not_lt (a := t.millis) (b := u.millis)
  exact Decidable.not_iff_not.1 (h'.trans h)

end Instant

theorem Worker.State.ofText_name (s : Worker.State) : ofText s.name = .ok s := by
  have hlow : Text.lowered s.name = s.name := by cases s <;> decide +kernel
  have hword : words.lookup s.name = some s := by cases s <;> decide +kernel
  simp only [ofText, Vocabulary.lookUp, hlow, hword]

theorem Worker.State.name_beq (s s' : Worker.State) : (s.name == s'.name) = (s == s') := by
  cases s <;> cases s' <;> decide

namespace Registry

theorem instantOf_millis {t : Instant} (h : t.Whole) : instantOf t.millis = .ok t := by
  simp only [instantOf, h.ofMillis?_millis]

namespace WorkerRow

def ofWorker (w : Worker) : WorkerRow where
  role := w.role
  parent := w.parent.map (·.text)
  root := w.root.text
  depth := w.depth.toNat
  dependency := w.dependency.name
  createdAt := w.createdAt.millis
  lastHeartbeatAt := w.lastHeartbeatAt.millis
  state := w.state.name

@[simp] theorem isActive_ofWorker (w : Worker) : (ofWorker w).isActive = w.isActive :=
  Worker.State.name_beq w.state .active

theorem read_ofWorker {w : Worker} (hc : w.createdAt.Whole) (hb : w.lastHeartbeatAt.Whole) :
    (ofWorker w).read w.id.text = .ok w := by
  have hparent : (w.parent.map (·.text)).map WorkerId.mk = w.parent := by
    cases w.parent <;> rfl
  have hdepth : ((w.depth.toNat : Int).toNat).toUInt32 = w.depth := by simp
  simp only [read, ofWorker, instantOf_millis hc, instantOf_millis hb, Worker.State.ofText_name,
    hparent, hdepth, stateOf, Bind.bind, Except.bind, Pure.pure, Except.pure]

end WorkerRow

namespace OverrideRow

def ofOverride (o : Override) : OverrideRow := ⟨o.reason, o.setAt.millis⟩

theorem read_ofOverride {o : Override} (h : o.setAt.Whole) :
    (ofOverride o).read o.dependency.name = .ok o := by
  simp only [read, ofOverride, instantOf_millis h, Bind.bind, Except.bind, Pure.pure, Except.pure]

end OverrideRow

/-- A signed column tells all numbers apart that 64 bits can hold. -/
theorem BreakerRow.signed_inj {a b : Nat} (ha : a < UInt64.size) (hb : b < UInt64.size) :
    signed a = signed b ↔ a = b := by
  refine ⟨fun h => ?_, congrArg signed⟩
  have hmod : (a : Int) % UInt64.size = b % UInt64.size := by
    rw [← Int.bmod_emod (x := a), ← Int.bmod_emod (x := b)]
    exact congrArg (· % (UInt64.size : Int)) h
  rw [Int.emod_eq_of_lt (by omega) (by omega), Int.emod_eq_of_lt (by omega) (by omega)] at hmod
  exact Int.ofNat_inj.1 hmod

theorem BreakerRow.ofRow_inj {r r' : Breaker.Row} : ofRow r = ofRow r' ↔ r = r' := by
  refine ⟨fun h => ?_, congrArg ofRow⟩
  obtain ⟨circuit, failures, stamp⟩ := r
  obtain ⟨circuit', failures', stamp'⟩ := r'
  simp only [ofRow, BreakerRow.mk.injEq, Int.ofNat_inj] at h
  obtain ⟨hname, hfailures, hstamp⟩ := h
  have hcircuit : circuit = circuit' :=
    Except.ok.inj (by rw [← Circuit.ofText_name, hname, Circuit.ofText_name])
  rw [hcircuit, UInt32.toNat_inj.1 hfailures,
    UInt64.toNat_inj.1 ((signed_inj stamp.toNat_lt stamp'.toNat_lt).1 hstamp)]

end Registry
end WorkerGuard
