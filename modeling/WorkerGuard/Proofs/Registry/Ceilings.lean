import WorkerGuard.Settings.Basic
import WorkerGuard.Simulation.Trouble

/-!
# WorkerGuard.Proofs.Registry.Ceilings

How many active workers a registry of either kind can come to hold.

* `Store.active`: the active workers of some roles and roots.
* `Store.answer_active`: only an insertion below both of its ceilings makes them more, by one.
* `Store.WithinCeilings`: the roles and the trees are as the settings want them. A request that
  names the ceilings of the settings keeps this (`Store.WithinCeilings.answer`).
-/

namespace WorkerGuard

open Registry Simulation

namespace Registry

theorem Memory.updateActive_le {m : Memory} {id : WorkerId} {f : Worker → Worker}
    {p : Worker → Bool} (hf : ∀ w, p (f w) = p w) :
    (m.updateActive id f).2.activeIn p ≤ m.activeIn p := by
  unfold updateActive
  split
  · rename_i w hw
    split
    · rename_i ha
      refine Keyed.count_insert_le fun h => ⟨w, hw, ?_⟩
      simp only [hf, Bool.and_eq_true] at h ⊢
      exact ⟨ha, h.2⟩
    · exact Nat.le_refl _
  · exact Nat.le_refl _

theorem Database.updateActive_le {db : Database} {id : WorkerId} {f : WorkerRow → WorkerRow}
    {p : WorkerRow → Bool} (hf : ∀ r, p (f r) = p r) :
    (db.updateActive id f).2.activeIn p ≤ db.activeIn p := by
  unfold updateActive
  split
  · rename_i r hr
    split
    · rename_i ha
      refine Keyed.count_insert_le fun h => ⟨r, hr, ?_⟩
      simp only [hf, Bool.and_eq_true] at h ⊢
      exact ⟨ha, h.2⟩
    · exact Nat.le_refl _
  · exact Nat.le_refl _

/-- An insertion asks for the ceilings that the settings give the role and every tree. -/
def Request.Configured (s : Settings) : Request → Prop
  | .insert r c => ∃ role, s.roleNamed r.role = some role ∧
      c = ⟨role.ceiling, s.governor.maxTreeSize⟩
  | _ => True

end Registry

namespace Simulation.Store

/-- The active workers with a role and a root of some sort. -/
def active (p : String → String → Bool) : Store → Nat
  | memory m => m.activeIn fun w => p w.role w.root.text
  | database db => db.activeIn fun r => p r.role r.root

def activeOfRole (s : Store) (role : String) : Nat := s.active fun r _ => r == role

def activeInTree (s : Store) (root : WorkerId) : Nat := s.active fun _ t => t == root.text

theorem memory_activeInTree (m : Memory) (root : WorkerId) :
    (memory m).activeInTree root = m.activeInTree root := by
  have : ∀ w : Worker, (w.root.text == root.text) = (w.root == root) := by
    intro w
    rw [Bool.eq_iff_iff, beq_iff_eq, beq_iff_eq]
    constructor
    · intro h
      cases hw : w.root
      cases root
      rw [hw] at h
      exact congrArg WorkerId.mk h
    · exact congrArg WorkerId.text
  simp only [activeInTree, active, Memory.activeInTree, this]

/-- A request adds to the active workers of a sort only if it inserts one below both ceilings. -/
theorem answer_active (s : Store) (q : Request) (p : String → String → Bool) :
    (s.answer q).2.active p ≤ s.active p ∨
      ∃ r c, q = .insert r c ∧ s.activeOfRole r.role < c.role.toNat ∧
        s.activeInTree r.root < c.tree.toNat ∧ p r.role r.root.text = true ∧
        (s.answer q).2.active p ≤ s.active p + 1 := by
  cases s with
  | memory m =>
    cases q with
    | insert r c =>
      simp only [answer, Memory.answer]
      split
      · exact .inl (Nat.le_refl _)
      · rename_i h
        by_cases hp : p r.role r.root.text = true
        · refine .inr ⟨r, c, rfl, ?_, ?_, hp, ?_⟩
          · exact Nat.lt_of_not_le fun h' => h (.inl h')
          · rw [memory_activeInTree]
            exact Nat.lt_of_not_le fun h' => h (.inr (.inl h'))
          · exact m.workers.count_insert_succ _ _ _
        · refine .inl (Keyed.count_insert_le fun h' => ?_)
          simp only [Bool.and_eq_true] at h'
          exact absurd h'.2 hp
    | heartbeat id t => exact .inl (Memory.updateActive_le fun _ => rfl)
    | terminate id => exact .inl (Memory.updateActive_le fun _ => rfl)
    | degrade id => exact .inl (Memory.updateActive_le fun _ => rfl)
    | swapBreaker d e n =>
      refine .inl ?_
      simp only [answer, Memory.answer]
      split <;> exact Nat.le_refl _
    | _ => exact .inl (Nat.le_refl _)
  | database db =>
    cases q with
    | insert r c =>
      simp only [answer, Database.answer]
      split
      · rename_i h
        split
        · exact .inl (Nat.le_refl _)
        · by_cases hp : p r.role r.root.text = true
          · exact .inr ⟨r, c, rfl, h.1, h.2, hp, db.workers.count_insert_succ _ _ _⟩
          · refine .inl (Keyed.count_insert_le fun h' => ?_)
            simp only [Bool.and_eq_true] at h'
            exact absurd h'.2 hp
      · exact .inl (Nat.le_refl _)
    | get id =>
      refine .inl ?_
      simp only [answer, Database.answer]
      split <;> exact Nat.le_refl _
    | heartbeat id t => exact .inl (Database.updateActive_le fun _ => rfl)
    | terminate id => exact .inl (Database.updateActive_le fun _ => rfl)
    | degrade id => exact .inl (Database.updateActive_le fun _ => rfl)
    | loadBreaker d =>
      refine .inl ?_
      simp only [answer, Database.answer]
      split <;> exact Nat.le_refl _
    | swapBreaker d e n =>
      refine .inl (Nat.le_of_eq ?_)
      simp only [answer, Database.answer, Database.seeded]
      split <;> split <;> rfl
    | _ => exact .inl (Nat.le_refl _)

/-- No role has more active workers than the settings allow it, and no root has. -/
structure WithinCeilings (s : Settings) (store : Store) : Prop where
  role : ∀ name role, s.roleNamed name = some role → store.activeOfRole name ≤ role.ceiling.toNat
  tree : ∀ root, store.activeInTree root ≤ s.governor.maxTreeSize.toNat

theorem withinCeilings_memory (s : Settings) : WithinCeilings s (memory .empty) :=
  ⟨fun _ _ _ => Nat.zero_le _, fun _ => Nat.zero_le _⟩

theorem withinCeilings_database (s : Settings) : WithinCeilings s (database .empty) :=
  ⟨fun _ _ _ => Nat.zero_le _, fun _ => Nat.zero_le _⟩

theorem WithinCeilings.answer {s : Settings} {store : Store} {q : Request}
    (h : WithinCeilings s store) (hq : q.Configured s) : WithinCeilings s (store.answer q).2 := by
  constructor
  · intro name role hrole
    have hle := h.role name role hrole
    obtain hno | ⟨r, c, rfl, hlt, _, hp, hone⟩ := store.answer_active q fun r _ => r == name
    · exact Nat.le_trans hno hle
    · obtain ⟨role', hrole', rfl⟩ := hq
      have hname : r.role = name := eq_of_beq hp
      subst hname
      rw [hrole] at hrole'
      cases hrole'
      exact Nat.le_trans hone hlt
  · intro root
    have hle := h.tree root
    obtain hno | ⟨r, c, rfl, _, hlt, hp, hone⟩ := store.answer_active q fun _ t => t == root.text
    · exact Nat.le_trans hno hle
    · obtain ⟨role, _, rfl⟩ := hq
      have hroot : r.root.text = root.text := eq_of_beq hp
      rw [activeInTree, hroot] at hlt
      exact Nat.le_trans hone hlt

end Simulation.Store
end WorkerGuard
