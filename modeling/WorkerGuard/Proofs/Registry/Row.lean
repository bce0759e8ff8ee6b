import WorkerGuard.Breaker.Condition
import WorkerGuard.Simulation.Trouble

/-!
# WorkerGuard.Proofs.Registry.Row

The row of a breaker in a registry of either kind.

* `Store.row d`: what a load finds.
* `Store.Readable d`: a load succeeds, and the stamp is within the range of its column. A registry
  without the row is readable.
* `Memory.updateActive_eq`, `Database.updateActive_eq`: the rows and the overrides stay as they are
  when a worker is changed.
* `Store.answer_loadBreaker`, `Store.answer_swapBreaker`: the two requests of a handle. A swap that
  succeeds found the expected row.
-/

namespace WorkerGuard

open Registry

theorem Circuit.ofText_name (c : Circuit) : Circuit.ofText c.name = .ok c := by
  have hlow : Text.lowered c.name = c.name := by cases c <;> decide +kernel
  have hword : (words ++ [("half-open", halfOpen)]).lookup c.name = some c := by
    cases c <;> decide +kernel
  simp only [ofText, Vocabulary.lookUp, hlow, hword]

/-- Signed columns hold numbers below this one as they are. -/
def Registry.signedLimit : Nat := 9223372036854775808

namespace Registry.BreakerRow

theorem signed_eq {n : Nat} (h : n < signedLimit) : signed n = n := by
  simp only [signedLimit] at h
  exact Int.bmod_eq_of_le (by simp only [UInt64.size]; omega) (by simp only [UInt64.size]; omega)

theorem read_ofRow {r : Breaker.Row} (h : r.stamp.toNat < signedLimit) :
    (ofRow r).read = .ok r := by
  obtain ⟨circuit, failures, stamp⟩ := r
  have hf : min failures.toNat 4294967295 = failures.toNat := by
    have := failures.toNat_lt
    omega
  simp only [read, ofRow, Circuit.ofText_name, signed_eq h, Int.toNat_natCast, hf]
  simp [stateOf, Bind.bind, Except.bind, Pure.pure, Except.pure]

end Registry.BreakerRow

@[simp] theorem Breaker.Condition.stamp_toRow (c : Condition) : c.toRow.stamp.toNat = c.stamp := by
  have h := c.stamp_le
  simp only [maxStamp] at h
  show c.stamp.toUInt64.toNat = c.stamp
  rw [Nat.toUInt64, UInt64.toNat_ofNat', Nat.mod_eq_of_lt (by omega)]

theorem Breaker.Condition.stamp_toRow_lt (c : Condition) :
    c.toRow.stamp.toNat < signedLimit := by
  have h := c.stamp_le
  simp only [maxStamp] at h
  rw [stamp_toRow, signedLimit]
  omega

namespace Registry

/-- A worker is changed in its own table. -/
theorem Memory.updateActive_eq (m : Memory) (id : WorkerId) (f : Worker → Worker) :
    ∃ workers, (m.updateActive id f).2 = { m with workers } := by
  unfold updateActive
  split
  · split <;> exact ⟨_, rfl⟩
  · exact ⟨_, rfl⟩

theorem Database.updateActive_eq (db : Database) (id : WorkerId) (f : WorkerRow → WorkerRow) :
    ∃ workers, (db.updateActive id f).2 = { db with workers } := by
  unfold updateActive
  split
  · split <;> exact ⟨_, rfl⟩
  · exact ⟨_, rfl⟩

theorem Memory.breakers_updateActive (m : Memory) (id : WorkerId) (f : Worker → Worker) :
    (m.updateActive id f).2.breakers = m.breakers := by
  obtain ⟨workers, h⟩ := m.updateActive_eq id f
  rw [h]

theorem Database.breakers_updateActive (db : Database) (id : WorkerId)
    (f : WorkerRow → WorkerRow) : (db.updateActive id f).2.breakers = db.breakers := by
  obtain ⟨workers, h⟩ := db.updateActive_eq id f
  rw [h]

theorem Memory.overrides_updateActive (m : Memory) (id : WorkerId) (f : Worker → Worker) :
    (m.updateActive id f).2.overrides = m.overrides := by
  obtain ⟨workers, h⟩ := m.updateActive_eq id f
  rw [h]

theorem Database.overrides_updateActive (db : Database) (id : WorkerId)
    (f : WorkerRow → WorkerRow) : (db.updateActive id f).2.overrides = db.overrides := by
  obtain ⟨workers, h⟩ := db.updateActive_eq id f
  rw [h]

end Registry

namespace Simulation.Store

variable {d : Dependency}

def row (d : Dependency) (s : Store) : Breaker.Row :=
  match (s.answer (.loadBreaker d)).1 with
  | .ok r => r
  | .error _ => .fresh

def Readable (d : Dependency) : Store → Prop
  | memory _ => True
  | database db => ∀ b, db.breakers.find? d.name = some b →
      b.stamp < signedLimit ∧ ∃ r, b.read = .ok r

/-- A row that such a registry may give. -/
def Fits (r : Breaker.Row) : Store → Prop
  | memory _ => True
  | database _ => r.stamp.toNat < signedLimit

theorem answer_loadBreaker {s : Store} (h : s.Readable d) :
    s.answer (.loadBreaker d) = (.ok (s.row d), s) := by
  cases s with
  | memory m => rfl
  | database db =>
    cases hb : db.breakers.find? d.name with
    | none => simp only [row, answer, Database.answer, hb]
    | some b =>
      obtain ⟨_, r, hr⟩ := h b hb
      simp only [row, answer, Database.answer, hb, hr]

theorem fits_row {s : Store} (h : s.Readable d) : s.Fits (s.row d) := by
  cases s with
  | memory m => trivial
  | database db =>
    cases hb : db.breakers.find? d.name with
    | none =>
      simp only [row, answer, Database.answer, hb, Fits]
      decide
    | some b =>
      obtain ⟨hlt, r, hr⟩ := h b hb
      simp only [row, answer, Database.answer, hb, hr, Fits]
      simp only [BreakerRow.read] at hr
      cases hc : stateOf (Circuit.ofText b.state) with
      | error e => rw [hc] at hr; cases hr
      | ok c =>
        rw [hc] at hr
        cases hr
        simp only [signedLimit] at hlt ⊢
        rw [Nat.toUInt64, UInt64.toNat_ofNat', Nat.mod_eq_of_lt (by omega)]
        omega

theorem fits_answer (s : Store) (q : Request) (r : Breaker.Row) :
    (s.answer q).2.Fits r ↔ s.Fits r := by
  cases s <;> exact Iff.rfl

/-- A row that was written is the one that is found. -/
theorem row_written {db : Database} {r : Breaker.Row} (hr : r.stamp.toNat < signedLimit)
    (h : db.breakers.find? d.name = some (.ofRow r)) :
    (database db).Readable d ∧ (database db).row d = r := by
  have hread := BreakerRow.read_ofRow hr
  refine ⟨fun b hb => ?_, ?_⟩
  · rw [h] at hb
    cases hb
    refine ⟨?_, r, hread⟩
    simp only [BreakerRow.ofRow, BreakerRow.signed_eq hr]
    exact Int.ofNat_lt.2 hr
  · simp only [row, answer, Database.answer, h, hread]

theorem answer_swapBreaker {s : Store} {e n : Breaker.Row} (h : s.Readable d)
    (hn : n.stamp.toNat < signedLimit) :
    (∃ s', s.answer (.swapBreaker d e n) = (.ok true, s') ∧ (s.Fits e → e = s.row d) ∧
        s'.Readable d ∧ s'.row d = n) ∨
      ∃ s', s.answer (.swapBreaker d e n) = (.ok false, s') ∧ s'.Readable d ∧
        s'.row d = s.row d := by
  cases s with
  | memory m =>
    by_cases hrow : m.row d = e
    · refine .inl ⟨memory { m with breakers := m.breakers.insert d.name n }, ?_,
        fun _ => hrow.symm, trivial, ?_⟩
      · simp only [answer, Memory.answer, if_pos hrow]
      · simp [row, answer, Memory.answer, Memory.row]
    · refine .inr ⟨memory { m with breakers := m.breakers.insert d.name (m.row d) }, ?_, trivial,
        ?_⟩
      · simp only [answer, Memory.answer, if_neg hrow]
      · simp [row, answer, Memory.answer, Memory.row]
  | database db =>
    have hrow : (database (db.seeded d e)).Readable d ∧
        (database (db.seeded d e)).row d = (database db).row d := by
      unfold Database.seeded
      split
      · rename_i hs
        have hfind : db.breakers.find? d.name = none := by
          simpa [Keyed.contains] using hs.2
        have hwritten : ({ db with
            breakers := db.breakers.insert d.name (.ofRow .fresh) } : Database).breakers.find?
              d.name = some (.ofRow .fresh) := by simp
        obtain ⟨h₁, h₂⟩ := row_written (by decide) hwritten
        refine ⟨h₁, h₂.trans ?_⟩
        simp only [row, answer, Database.answer, hfind]
      · exact ⟨h, rfl⟩
    by_cases hfound : (db.seeded d e).breakers.find? d.name = some (.ofRow e)
    · refine .inl ⟨database { db.seeded d e with
        breakers := (db.seeded d e).breakers.insert d.name (.ofRow n) }, ?_, ?_, ?_⟩
      · simp only [answer, Database.answer, if_pos hfound]
      · intro he
        rw [← hrow.2]
        exact (row_written he hfound).2.symm
      · exact row_written hn (by simp)
    · refine .inr ⟨database (db.seeded d e), ?_, hrow⟩
      simp only [answer, Database.answer, if_neg hfound]

end Simulation.Store
end WorkerGuard
