import WorkerGuard.Proofs.Breaker.Solo
import WorkerGuard.Proofs.Registry.Columns
import WorkerGuard.Proofs.Simulation.Answers

/-!
# WorkerGuard.Proofs.Registry.Filed

The row of a breaker as a registry of either kind has filed it, whether it can be read back or not.

* `Store.Filed d r`: the row of `d` is `r`, written or not.
* `Filed.answer_swap`: a swap succeeds if it expects this row, and then the next one is filed.
* `Filed.answer_load`, `Store.readBack`: a load gives this row, but for a stamp out of range of its
  column, which a database reads as zero.
* `Store.Used`: a registry that was new once. `Used.filed`: it has some row filed for everyone.
-/

namespace WorkerGuard

open Registry Simulation

namespace Registry.BreakerRow

theorem signed_neg {n : Nat} (h : signedLimit ≤ n) (hn : n < UInt64.size) : signed n < 0 := by
  have hhalf : ((UInt64.size : Nat) + 1 : Int) / 2 ≤ n := by
    simp only [signedLimit] at h
    simp only [UInt64.size]
    omega
  exact (Int.bmod_neg_iff (by omega) (by omega)).2 (.inr hhalf)

/-- A negative stamp is read as zero. -/
theorem read_ofRow_of_le {r : Breaker.Row} (h : signedLimit ≤ r.stamp.toNat) :
    (ofRow r).read = .ok { r with stamp := 0 } := by
  have hstamp : (signed r.stamp.toNat).toNat = 0 :=
    Int.toNat_of_nonpos (Int.le_of_lt (signed_neg h r.stamp.toNat_lt))
  have hfailures : min r.failures.toNat 4294967295 = r.failures.toNat := by
    have := r.failures.toNat_lt
    omega
  simp only [read, ofRow, Circuit.ofText_name, hstamp, Int.toNat_natCast, hfailures]
  simp [stateOf, Bind.bind, Except.bind, Pure.pure, Except.pure]

end Registry.BreakerRow

namespace Simulation.Store

variable {s : Store} {d : Dependency} {r : Breaker.Row}

def Filed (d : Dependency) (r : Breaker.Row) : Store → Prop
  | memory m => m.row d = r
  | database db => db.breakers.find? d.name = some (.ofRow r) ∨
      (db.breakers.find? d.name = none ∧ r = .fresh)

/-- A row after it was written and read. -/
def readBack (r : Breaker.Row) : Store → Breaker.Row
  | memory _ => r
  | database _ => if r.stamp.toNat < signedLimit then r else { r with stamp := 0 }

theorem readBack_eq_iff : s.readBack r = r ↔ s.Fits r := by
  cases s with
  | memory m => exact iff_of_true rfl trivial
  | database db =>
    rw [readBack, Fits]
    split
    · rename_i hlt
      exact iff_of_true rfl hlt
    · rename_i hlt
      refine iff_of_false (fun heq => hlt ?_) hlt
      have hstamp : (0 : UInt64) = r.stamp := congrArg Breaker.Row.stamp heq
      rw [← hstamp]
      decide

theorem Filed.holds (h : s.Filed d r) (hr : s.Fits r) : s.Holds d r := by
  cases s with
  | memory m => exact h
  | database db => exact ⟨hr, h⟩

theorem Filed.answer_load (h : s.Filed d r) :
    s.answer (.loadBreaker d) = (.ok (s.readBack r), s) := by
  cases s with
  | memory m =>
    simp only [answer, Memory.answer]
    rw [show m.row d = r from h]
    rfl
  | database db =>
    obtain hfind | ⟨hfind, rfl⟩ := h
    · simp only [answer, Database.answer, hfind, readBack]
      split
      · rename_i hlt
        rw [BreakerRow.read_ofRow hlt]
      · rename_i hlt
        rw [BreakerRow.read_ofRow_of_le (Nat.not_lt.1 hlt)]
    · simp only [answer, Database.answer, hfind]
      rfl

theorem Filed.seeded {db : Database} (h : (database db).Filed d r) (expected : Breaker.Row) :
    (database (db.seeded d expected)).Filed d r ∧
      ((db.seeded d expected).breakers.find? d.name = some (.ofRow expected) ↔ expected = r) := by
  obtain hfind | ⟨hfind, rfl⟩ := h
  · have hsame : db.seeded d expected = db := by
      rw [Database.seeded, if_neg (by simp [Keyed.contains, hfind])]
    rw [hsame, hfind, Option.some.injEq, BreakerRow.ofRow_inj]
    exact ⟨.inl hfind, eq_comm⟩
  · by_cases he : expected = .fresh
    · subst he
      have hnew : (db.seeded d .fresh).breakers.find? d.name = some (.ofRow .fresh) := by
        rw [Database.seeded, if_pos (by simp [Keyed.contains, hfind])]
        simp
      exact ⟨.inl hnew, iff_of_true hnew rfl⟩
    · have hsame : db.seeded d expected = db := by
        rw [Database.seeded, if_neg fun h => he h.1]
      rw [hsame, hfind]
      exact ⟨.inr ⟨hfind, rfl⟩, iff_of_false (Option.some_ne_none _).symm he⟩

theorem Filed.answer_swap (h : s.Filed d r) (expected next : Breaker.Row) :
    ∃ s', s.answer (.swapBreaker d expected next) = (.ok (decide (expected = r)), s') ∧
      s'.Filed d (if expected = r then next else r) := by
  cases s with
  | memory m =>
    obtain rfl : m.row d = r := h
    by_cases he : m.row d = expected
    · refine ⟨memory { m with breakers := m.breakers.insert d.name next }, ?_, ?_⟩
      · simp only [answer, Memory.answer, if_pos he, decide_eq_true he.symm]
      · simp [Filed, Memory.row, ← he]
    · refine ⟨memory { m with breakers := m.breakers.insert d.name (m.row d) }, ?_, ?_⟩
      · simp only [answer, Memory.answer, if_neg he, decide_eq_false (Ne.symm he)]
      · rw [if_neg (Ne.symm he)]
        simp [Filed, Memory.row]
  | database db =>
    obtain ⟨hseeded, hfound⟩ := h.seeded expected
    by_cases he : expected = r
    · refine ⟨database { db.seeded d expected with
        breakers := (db.seeded d expected).breakers.insert d.name (.ofRow next) }, ?_, ?_⟩
      · simp only [answer, Database.answer, if_pos (hfound.2 he), decide_eq_true he]
      · rw [if_pos he]
        exact .inl (by simp)
    · refine ⟨database (db.seeded d expected), ?_, ?_⟩
      · simp only [answer, Database.answer, if_neg fun h => he (hfound.1 h), decide_eq_false he]
      · rwa [if_neg he]

theorem Filed.eq {r' : Breaker.Row} (h : s.Filed d r) (h' : s.Filed d r') : r = r' := by
  obtain ⟨_, hs, _⟩ := h.answer_swap r .fresh
  obtain ⟨_, hs', _⟩ := h'.answer_swap r .fresh
  rw [hs, Prod.mk.injEq, Except.ok.injEq, decide_eq_true rfl] at hs'
  exact of_decide_eq_true hs'.1.symm

theorem Filed.answer_other (h : s.Filed d r) {q : Request} (hq : ¬q.Swaps d) :
    (s.answer q).2.Filed d r := by
  cases s with
  | memory m =>
    show (m.answer q).2.row d = r
    rw [Memory.row, m.find?_breakers hq]
    exact h
  | database db =>
    show (db.answer q).2.breakers.find? d.name = some (.ofRow r) ∨
      ((db.answer q).2.breakers.find? d.name = none ∧ r = .fresh)
    rw [db.find?_breakers hq]
    exact h

/-- Whatever is requested, some row is filed afterwards. -/
theorem Filed.answer (h : s.Filed d r) (q : Request) : ∃ r', (s.answer q).2.Filed d r' := by
  cases q with
  | swapBreaker d' expected next =>
    by_cases hd : d' = d
    · subst hd
      obtain ⟨s', hs', hfiled⟩ := h.answer_swap expected next
      rw [hs']
      exact ⟨_, hfiled⟩
    · exact ⟨r, h.answer_other hd⟩
  | _ => exact ⟨r, h.answer_other id⟩

/-- Nothing but requests has been made to it since it was new. -/
def Used (s : Store) : Prop :=
  ∃ qs : List Request, s = (memory .empty).after qs ∨ s = (database .empty).after qs

theorem Used.filed (h : s.Used) (d : Dependency) : ∃ r, s.Filed d r := by
  have hafter : ∀ (qs : List Request) (s : Store), (∃ r, s.Filed d r) →
      ∃ r, (s.after qs).Filed d r := by
    intro qs
    induction qs with
    | nil => exact fun s hs => hs
    | cons q qs ih =>
      rintro s ⟨r, hr⟩
      exact ih _ (hr.answer q)
  obtain ⟨qs, rfl | rfl⟩ := h
  · exact hafter qs _ ⟨.fresh, rfl⟩
  · exact hafter qs _ ⟨.fresh, .inr ⟨rfl, rfl⟩⟩

end Simulation.Store
end WorkerGuard
