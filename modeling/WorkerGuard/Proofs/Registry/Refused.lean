import WorkerGuard.Proofs.Registry.Mirror
import WorkerGuard.Proofs.Simulation.Answers

/-!
# WorkerGuard.Proofs.Registry.Refused

What is left of a swap that a registry of either kind has refused.

* `Store.noted d`: the registry in memory with the row of `d` written down as it is read. A refused
  swap does this to it, and nothing to a database (`Store.noted_of_refused`).
* `Memory.answer_noted`, `Store.after_noted`: no later request makes a difference of it, but for a
  listing of the rows.
* `Adds d rows rows'`: the second listing has a fresh row of `d` more, unless the first has one.
* `refused_swap_shows`: all later answers after a refused swap.
-/

namespace WorkerGuard

open Registry Simulation

/-- A value under a new name comes between the others. -/
theorem Keyed.exists_entries_insert {α : Type} {t : Keyed α} {k : String} (v : α)
    (h : t.find? k = none) : ∃ before later, t.entries = before ++ later ∧
      (t.insert k v).entries = before ++ (k, v) :: later := by
  obtain ⟨l, hl⟩ := t
  show ∃ before later, l = before ++ later ∧ insertEntry k v l = before ++ (k, v) :: later
  have hnew : findEntry k l = none := h
  clear h hl
  induction l with
  | nil => exact ⟨[], [], rfl, rfl⟩
  | cons e l ih =>
    rw [findEntry] at hnew
    split at hnew
    · cases hnew
    · rename_i hne
      obtain ⟨before, later, rfl, hinsert⟩ := ih hnew
      by_cases hlt : k < e.1
      · exact ⟨[], e :: (before ++ later), rfl, by rw [insertEntry, if_pos hlt]; rfl⟩
      · have hgt : e.1 < k := Decidable.not_not.1 fun hle => hne (eq_of_not_lt hlt hle)
        refine ⟨e :: before, later, rfl, ?_⟩
        rw [insertEntry, if_neg hlt, if_pos hgt, hinsert]
        rfl

namespace Registry.Memory

/-- Writes the row of a dependency down as it is read. -/
def noted (d : Dependency) (m : Memory) : Memory :=
  { m with breakers := m.breakers.insert d.name (m.row d) }

@[simp] theorem row_noted (m : Memory) (d d' : Dependency) : (m.noted d).row d' = m.row d' := by
  simp only [row, noted, Keyed.find?_insert]
  split
  · rename_i h
    rw [h]
    rfl
  · rfl

theorem noted_insert (m : Memory) (d d' : Dependency) (r : Breaker.Row) :
    { m.noted d with breakers := (m.noted d).breakers.insert d'.name r } =
      ({ m with breakers := m.breakers.insert d'.name r } : Memory).noted d := by
  simp only [noted, Memory.mk.injEq, true_and]
  refine Keyed.ext_find? fun k => ?_
  simp only [row, Keyed.find?_insert]
  grind

theorem updateActive_noted (m : Memory) (d : Dependency) (id : WorkerId) (f : Worker → Worker) :
    (m.noted d).updateActive id f = ((m.updateActive id f).1, (m.updateActive id f).2.noted d) := by
  simp only [updateActive, noted]
  cases h : m.workers.find? id.text with
  | none => rfl
  | some w =>
    dsimp only
    split <;> rfl

theorem answer_noted (m : Memory) (d : Dependency) {q : Request} (hq : q ≠ .listBreakers) :
    (m.noted d).answer q = ((m.answer q).1, (m.answer q).2.noted d) := by
  cases q with
  | insert r c =>
    -- Only the workers count.
    show (if m.activeOfRole r.role ≥ c.role.toNat ∨ m.activeInTree r.root ≥ c.tree.toNat ∨
      m.workers.contains r.id.text then _ else _) = _
    rw [answer]
    split <;> rfl
  | heartbeat id t => exact m.updateActive_noted d id _
  | terminate id => exact m.updateActive_noted d id _
  | degrade id => exact m.updateActive_noted d id _
  | loadBreaker d' => simp only [answer, row_noted]
  | swapBreaker d' e n =>
    simp only [answer, row_noted]
    split
    · rw [noted_insert]
    · rw [noted_insert]
  | listBreakers => exact absurd rfl hq
  | _ => rfl

end Registry.Memory

namespace Simulation.Store

variable {s s' : Store} {d : Dependency} {expected next : Breaker.Row}

def noted (d : Dependency) : Store → Store
  | memory m => memory (m.noted d)
  | database db => database db

theorem noted_of_refused (h : s.answer (.swapBreaker d expected next) = (.ok false, s')) :
    s' = s.noted d := by
  cases s with
  | memory m =>
    simp only [answer, Memory.answer] at h
    split at h
    · cases h
    · cases h
      rfl
  | database db =>
    simp only [answer, Database.answer] at h
    split at h
    · cases h
    · rename_i hfound
      have hseeded : db.seeded d expected = db := by
        rw [Database.seeded, if_neg]
        rintro ⟨rfl, hnew⟩
        refine hfound ?_
        rw [Database.seeded, if_pos ⟨rfl, hnew⟩, Keyed.find?_insert, if_pos rfl]
      rw [hseeded] at h
      cases h
      rfl

theorem answer_noted (s : Store) (d : Dependency) {q : Request} (hq : q ≠ .listBreakers) :
    (s.noted d).answer q = ((s.answer q).1, (s.answer q).2.noted d) := by
  cases s with
  | memory m => simp only [noted, answer, m.answer_noted d hq]
  | database db => rfl

theorem after_noted (s : Store) (d : Dependency) (qs : List Request) :
    (s.noted d).after qs = (s.after qs).noted d := by
  induction qs generalizing s with
  | nil => rfl
  | cons q qs ih =>
    have hstep : ((s.noted d).answer q).2 = (s.answer q).2.noted d := by
      by_cases hq : q = .listBreakers
      · subst hq
        cases s <;> rfl
      · rw [s.answer_noted d hq]
    rw [after, List.foldl_cons, hstep]
    exact ih _

theorem after_memory (m : Memory) (qs : List Request) :
    (memory m).after qs = memory (m.after qs) := by
  induction qs generalizing m with
  | nil => rfl
  | cons q qs ih => exact ih _

/-- Two listings, the second one with a row of `d` whether the first one has it or not. -/
inductive Adds (d : Dependency) :
    List (Dependency × Breaker.Row) → List (Dependency × Breaker.Row) → Prop where
  | known {rows : List (Dependency × Breaker.Row)} {r : Breaker.Row} (h : (d, r) ∈ rows) :
      Adds d rows rows
  | fresh {before later : List (Dependency × Breaker.Row)} (h : ∀ r, (d, r) ∉ before ++ later) :
      Adds d (before ++ later) (before ++ (d, .fresh) :: later)

theorem Adds.eq_iff {rows rows' : List (Dependency × Breaker.Row)} (h : Adds d rows rows') :
    rows' = rows ↔ ∃ r, (d, r) ∈ rows := by
  cases h with
  | known h => exact iff_of_true rfl ⟨_, h⟩
  | fresh h =>
    refine iff_of_false (fun heq => ?_) fun ⟨r, hr⟩ => h r hr
    have hlength := congrArg List.length heq
    simp at hlength

theorem adds_noted (m : Memory) (d : Dependency) :
    Adds d (m.answer .listBreakers).1 ((m.noted d).answer .listBreakers).1 := by
  simp only [Memory.answer, Memory.noted]
  cases h : m.breakers.find? d.name with
  | none =>
    have hrow : m.row d = .fresh := by rw [Memory.row, h]; rfl
    obtain ⟨before, later, hentries, hinsert⟩ := m.breakers.exists_entries_insert (m.row d) h
    have hnew : ∀ r, (d, r) ∉ m.breakers.entries.map fun e => ((⟨e.1⟩ : Dependency), e.2) := by
      intro r hr
      obtain ⟨e, he, heq⟩ := List.mem_map.1 hr
      cases heq
      rw [Keyed.find?_eq_some_iff.2 he] at h
      cases h
    rw [hentries, List.map_append] at hnew
    rw [hentries, hinsert, List.map_append, List.map_append, List.map_cons, hrow]
    exact .fresh hnew
  | some r =>
    have hrow : m.row d = r := by rw [Memory.row, h]; rfl
    rw [hrow, Keyed.insert_same h]
    exact .known (List.mem_map.2 ⟨(d.name, r), Keyed.find?_eq_some_iff.1 h, rfl⟩)

/-- Whatever is requested after a swap that was refused, the answers are as without it; only, a
registry in memory then lists the dependency with a fresh row if no row of it was ever written. -/
theorem refused_swap_shows (h : s.answer (.swapBreaker d expected next) = (.ok false, s'))
    (qs : List Request) :
    (∀ q, q ≠ .listBreakers → ((s'.after qs).answer q).1 = ((s.after qs).answer q).1) ∧
      (∀ db, s = database db → s' = s) ∧
      ∀ m, s = memory m → ∃ rows rows',
        ((s.after qs).answer .listBreakers).1 = .ok rows ∧
          ((s'.after qs).answer .listBreakers).1 = .ok rows' ∧ Adds d rows rows' ∧
          (rows' = rows ↔ ∃ r, (d, r) ∈ rows) := by
  obtain rfl := noted_of_refused h
  refine ⟨?_, ?_, ?_⟩
  · intro q hq
    rw [after_noted, answer_noted _ d hq]
  · rintro db rfl
    rfl
  · rintro m rfl
    have hadds := adds_noted (m.after qs) d
    rw [after_noted, after_memory]
    exact ⟨_, _, rfl, rfl, hadds, hadds.eq_iff⟩

section Unwritten

def primary : Dependency := ⟨"primary-api"⟩

/-- Nobody has written a row, and a swap that expects an open breaker is refused. -/
theorem unwritten_shows :
    (memory .empty).answer (.swapBreaker primary ⟨.opened, 1, 5⟩ .fresh) =
        (.ok false, (memory .empty).noted primary) ∧
      Adds primary [] [(primary, .fresh)] := by
  have hrefused : (memory .empty).answer (.swapBreaker primary ⟨.opened, 1, 5⟩ .fresh) =
      (.ok false, (memory .empty).noted primary) := rfl
  obtain ⟨_, _, hlisted⟩ := refused_swap_shows hrefused []
  obtain ⟨rows, rows', hrows, hrows', hadds, _⟩ := hlisted .empty rfl
  cases hrows
  cases hrows'
  exact ⟨hrefused, hadds⟩

/-- The refused swap is seen in the listing. -/
theorem unwritten_listed :
    ((memory .empty).answer (.swapBreaker primary ⟨.opened, 1, 5⟩ .fresh)).1 = .ok false ∧
      ((memory .empty).answer .listBreakers).1 = .ok [] ∧
      (((memory .empty).answer (.swapBreaker primary ⟨.opened, 1, 5⟩ .fresh)).2.answer
        .listBreakers).1 = .ok [(primary, .fresh)] :=
  ⟨rfl, rfl, rfl⟩

end Unwritten

end Simulation.Store
end WorkerGuard
