import WorkerGuard.Proofs.Registry.Crowd
import WorkerGuard.Proofs.Registry.Kin

/-!
# WorkerGuard.Proofs.Registry.Forest

The trees of workers that grow while processes ask for them, at the same time and in any order.

* `Kin.Under`: a place at the top of a tree, or one below that of the parent.
* `Store.Forest maxDepth`: all workers are in such places, none of them too deep. A request that
  registers a worker in such a place keeps this (`Store.Forest.answer`), and the requests for workers
  make no others, if what they are told of the parent is true (`Spawn.abides_request`).
* `Store.Rooted`: the parents of a worker lead to its root, and never back to one that was passed.
* `crowd_forest`: the workers of a registry are a forest, and the active workers that are counted for
  a tree are those whose parents lead to its root.
-/

namespace WorkerGuard

open Program Registry Simulation

namespace Simulation

/-- By what is known of the other workers. -/
def Kin.Under (known : WorkerId → Option Kin) (id : WorkerId) (k : Kin) : Prop :=
  match k.parent with
  | none => k.depth = 0 ∧ k.root = id
  | some p => ∃ k', known p = some k' ∧ k.root = k'.root ∧ k.depth.toNat = k'.depth.toNat + 1

theorem Kin.Under.answer {s : Store} {id : WorkerId} {k : Kin}
    (h : k.Under (s.kin? ·) id) (q : Request) : k.Under ((s.answer q).2.kin? ·) id := by
  unfold Kin.Under at h ⊢
  cases hp : k.parent with
  | none =>
    rw [hp] at h
    exact h
  | some p =>
    rw [hp] at h
    obtain ⟨k', hk', hrest⟩ := h
    exact ⟨k', Store.kin_answer hk' q, hrest⟩

namespace Store

structure Forest (maxDepth : UInt32) (s : Store) : Prop where
  under : ∀ {id k}, s.kin? id = some k → k.Under (s.kin? ·) id
  shallow : ∀ {id k}, s.kin? id = some k → k.depth ≤ maxDepth

/-- All that is there to say of the parents of one worker. -/
structure Rooted (s : Store) (id : WorkerId) (k : Kin) : Prop where
  reaches : s.ancestor? k.depth.toNat id = some k.root
  ends : s.parent? k.root = none
  apart : ∀ {n m a}, s.ancestor? n id = some a → s.ancestor? m id = some a → n = m

section Tree

variable {maxDepth : UInt32} {s : Store} {id r : WorkerId} {k : Kin}

theorem forest_memory (maxDepth : UInt32) : Forest maxDepth (memory .empty) := ⟨nofun, nofun⟩

theorem forest_database (maxDepth : UInt32) : Forest maxDepth (database .empty) := ⟨nofun, nofun⟩

theorem Forest.answer (h : s.Forest maxDepth) {q : Request}
    (hq : ∀ r c, q = .insert r c →
      (Kin.ofRecruit r).Under (s.kin? ·) r.id ∧ r.depth ≤ maxDepth) :
    (s.answer q).2.Forest maxDepth := by
  constructor
  · intro id k hk
    obtain hkept | ⟨r, c, rfl, rfl, _, hmade⟩ := s.answer_kin q id
    · exact (h.under (hkept.symm.trans hk)).answer q
    · rw [hk] at hmade
      cases hmade
      exact (hq r c rfl).1.answer _
  · intro id k hk
    obtain hkept | ⟨r, c, rfl, rfl, _, hmade⟩ := s.answer_kin q id
    · exact h.shallow (hkept.symm.trans hk)
    · rw [hk] at hmade
      cases hmade
      exact (hq r c rfl).2

theorem Forest.top (h : s.Forest maxDepth) (hk : s.kin? id = some k) (hp : k.parent = none) :
    k.depth = 0 ∧ k.root = id := by
  have := h.under hk
  rw [Kin.Under, hp] at this
  exact this

theorem Forest.child (h : s.Forest maxDepth) {p : WorkerId} (hk : s.kin? id = some k)
    (hp : k.parent = some p) :
    ∃ k', s.kin? p = some k' ∧ k.root = k'.root ∧ k.depth.toNat = k'.depth.toNat + 1 := by
  have := h.under hk
  rw [Kin.Under, hp] at this
  exact this

theorem ancestor?_succ (hk : s.kin? id = some k) (n : Nat) :
    s.ancestor? (n + 1) id = k.parent.bind (s.ancestor? n) := by
  rw [ancestor?, parent?, hk, Option.bind_some]

/-- Each step up is one in depth, and stays in the tree. -/
theorem Forest.climb (h : s.Forest maxDepth) (hk : s.kin? id = some k) {n : Nat}
    (hn : n ≤ k.depth.toNat) : ∃ a k', s.ancestor? n id = some a ∧ s.kin? a = some k' ∧
      k'.root = k.root ∧ k'.depth.toNat + n = k.depth.toNat := by
  induction n generalizing id k with
  | zero => exact ⟨id, k, rfl, hk, rfl, rfl⟩
  | succ n ih =>
    rw [ancestor?_succ hk]
    cases hp : k.parent with
    | none =>
      -- At the top there is no depth left to climb.
      have hzero := congrArg UInt32.toNat (h.top hk hp).1
      rw [UInt32.toNat_zero] at hzero
      omega
    | some p =>
      obtain ⟨kp, hkp, hroot, hdepth⟩ := h.child hk hp
      obtain ⟨a, k', ha, hk', hroot', hdepth'⟩ := ih hkp (by omega)
      exact ⟨a, k', ha, hk', hroot'.trans hroot.symm, by omega⟩

theorem Forest.climb_past (h : s.Forest maxDepth) (hk : s.kin? id = some k) {n : Nat}
    (hn : k.depth.toNat < n) : s.ancestor? n id = none := by
  induction n generalizing id k with
  | zero => omega
  | succ n ih =>
    rw [ancestor?_succ hk]
    cases hp : k.parent with
    | none => rfl
    | some p =>
      obtain ⟨kp, hkp, _, hdepth⟩ := h.child hk hp
      exact ih hkp (by omega)

/-- Whom the links lead to is registered, in the same tree. -/
theorem Forest.of_ancestor (h : s.Forest maxDepth) (hk : s.kin? id = some k) {n : Nat}
    {a : WorkerId} (ha : s.ancestor? n id = some a) :
    ∃ k', s.kin? a = some k' ∧ k'.root = k.root ∧ k'.depth.toNat + n = k.depth.toNat := by
  rcases Nat.lt_or_ge k.depth.toNat n with hn | hn
  · rw [h.climb_past hk hn] at ha
    cases ha
  · obtain ⟨a', k', ha', hk', hrest⟩ := h.climb hk hn
    rw [ha] at ha'
    cases ha'
    exact ⟨k', hk', hrest⟩

theorem Forest.rooted (h : s.Forest maxDepth) (hk : s.kin? id = some k) : s.Rooted id k := by
  obtain ⟨a, k', ha, hk', hroot, hdepth⟩ := h.climb hk (Nat.le_refl _)
  -- So far up the depth is zero, and only the top of a tree has that depth.
  have htop : k'.parent = none := by
    cases hp : k'.parent with
    | none => rfl
    | some p =>
      obtain ⟨_, _, _, hbelow⟩ := h.child hk' hp
      omega
  have ha' : a = k.root := (h.top hk' htop).2.symm.trans hroot
  subst ha'
  refine ⟨ha, by rw [parent?, hk', Option.bind_some, htop], fun {n m b} hn hm => ?_⟩
  obtain ⟨k₁, hk₁, _, hd₁⟩ := h.of_ancestor hk hn
  obtain ⟨k₂, hk₂, _, hd₂⟩ := h.of_ancestor hk hm
  rw [hk₁] at hk₂
  cases hk₂
  omega

/-- The root that is kept with a worker says where its parents lead to. -/
theorem Forest.endsAt_iff (h : s.Forest maxDepth) (hk : s.kin? id = some k) :
    s.EndsAt id r ↔ k.root = r := by
  constructor
  · rintro ⟨n, hn, hlast⟩
    obtain ⟨k', hk', hroot, _⟩ := h.of_ancestor hk hn
    rw [parent?, hk', Option.bind_some] at hlast
    exact hroot.symm.trans (h.top hk' hlast).2
  · rintro rfl
    exact ⟨_, (h.rooted hk).reaches, (h.rooted hk).ends⟩

theorem Forest.endsAt_iff_root (h : s.Forest maxDepth) {x : Record} (hx : s.record? id = some x) :
    s.EndsAt id r ↔ x.root = r.text := by
  obtain ⟨k, hk⟩ := kin_of_record hx
  obtain ⟨x', hx', hroot⟩ := record_of_kin hk
  rw [hx] at hx'
  cases hx'
  rw [h.endsAt_iff hk, hroot]
  exact ⟨congrArg WorkerId.text, WorkerId.eq_of_text⟩

theorem answer_countTree (s : Store) (r : WorkerId) :
    (s.answer (.countTree r)).1 = .ok (s.activeInTree r) := by
  cases s with
  | memory m => rw [memory_activeInTree]; rfl
  | database db => rfl

/-- The workers of a tree are counted one by one. -/
theorem Forest.exists_members (h : s.Forest maxDepth) (r : WorkerId) :
    ∃ ids : List WorkerId, ids.Nodup ∧ (∀ id, id ∈ ids ↔ s.IsActive id ∧ s.EndsAt id r) ∧
      (s.answer (.countTree r)).1 = .ok ids.length := by
  obtain ⟨names, hnodup, hlength, hmem⟩ := s.exists_names fun _ t => t == r.text
  have hinj : ∀ a b : String, a ≠ b → WorkerId.mk a ≠ WorkerId.mk b :=
    fun a b hne heq => hne (congrArg WorkerId.text heq)
  refine ⟨names.map WorkerId.mk, List.Pairwise.map _ hinj hnodup, fun id => ?_, ?_⟩
  · have hid : id ∈ names.map WorkerId.mk ↔ id.text ∈ names := by
      constructor
      · intro h
        obtain ⟨k, hk, rfl⟩ := List.mem_map.1 h
        exact hk
      · exact fun h => List.mem_map.2 ⟨id.text, h, rfl⟩
    rw [hid, hmem]
    constructor
    · rintro ⟨x, hx, hactive, hroot⟩
      exact ⟨⟨x, hx, hactive⟩, (h.endsAt_iff_root hx).2 (eq_of_beq hroot)⟩
    · rintro ⟨⟨x, hx, hactive⟩, hends⟩
      exact ⟨x, hx, hactive, beq_iff_eq.2 ((h.endsAt_iff_root hx).1 hends)⟩
  · rw [answer_countTree, List.length_map, hlength]
    rfl

end Tree
end Store
end Simulation

/-- What a registry says of a worker is so. -/
def Exchange.TrueOf (s : Store) : Exchange → Prop
  | ⟨.registry (.get id), .ok (some w)⟩ => s.kin? id = some (.ofWorker w)
  | _ => True

theorem Exchange.lasting_trueOf : Lasting Exchange.TrueOf where
  answered s q := by
    cases q with
    | get id =>
      show TrueOf _ ⟨.registry (.get id), (s.answer (.get id)).1⟩
      generalize ha : (s.answer (.get id)).1 = a
      match a, ha with
      | .ok (some w), ha => exact Store.kin_answer (Store.kin_of_get ha) _
      | .ok none, _ => trivial
      | .error e, _ => trivial
    | _ => trivial
  outage s q why := by cases q <;> trivial
  other s x hx := by
    obtain ⟨q, a⟩ := x
    cases q with
    | registry q => exact absurd rfl (hx q)
    | _ => trivial
  lasts s x q hx := by
    obtain ⟨c, a⟩ := x
    cases c with
    | registry r =>
      cases r with
      | get id =>
        match a, hx with
        | .ok (some w), hx => exact Store.kin_answer hx q
        | .ok none, _ => trivial
        | .error e, _ => trivial
      | _ => trivial
    | _ => trivial

/-- A worker is registered in a place that it may have. -/
def Call.Places (maxDepth : UInt32) (s : Store) : Call → Prop
  | .registry (.insert r _) => (Kin.ofRecruit r).Under (s.kin? ·) r.id ∧ r.depth ≤ maxDepth
  | _ => True

theorem Call.places_of_not_inserts {maxDepth : UInt32} {s : Store} {q : Call} (h : ¬q.Inserts) :
    q.Places maxDepth s := by
  cases q with
  | registry q =>
    cases q with
    | insert r c => exact absurd trivial h
    | _ => trivial
  | _ => trivial

namespace Spawn

variable {s : Settings} {store : Store}

/-- The place of a new worker follows from what the registry says of its parent. -/
theorem abides_place (id : WorkerId) (parent : Option WorkerId) :
    (place id parent).Abides (Exchange.TrueOf store) (Call.Places s.governor.maxDepth store)
      fun a => ∀ p, a = .ok (.ok p) → (⟨parent, p.root, p.depth⟩ : Kin).Under (store.kin? ·) id := by
  cases parent with
  | none =>
    refine abides_pure fun p hp => ?_
    cases hp
    exact ⟨rfl, rfl⟩
  | some parent =>
    refine abides_bind (abides_call trivial fun a ha => ha) fun a ha => ?_
    match a, ha with
    | .error e, _ => exact abides_pure nofun
    | .ok none, _ => exact abides_pure nofun
    | .ok (some w), hw =>
      dsimp only
      split
      · exact abides_pure nofun
      · split
        · exact abides_halt _
        · rename_i hroom
          refine abides_pure fun p hp => ?_
          cases hp
          refine ⟨.ofWorker w, hw, rfl, ?_⟩
          have hlt := w.depth.toNat_lt
          simp only [UInt32.size] at hroom
          show (w.depth + 1).toNat = w.depth.toNat + 1
          rw [UInt32.toNat_add]
          exact Nat.mod_eq_of_lt (by rw [UInt32.toNat_one]; omega)

theorem abides_enroll (role : Role) (id : WorkerId) (q : Request) (p : Place)
    (hp : (⟨q.parent, p.root, p.depth⟩ : Kin).Under (store.kin? ·) id) :
    (enroll s role id q p).Abides (Exchange.TrueOf store)
      (Call.Places s.governor.maxDepth store) fun _ => True := by
  unfold enroll
  split
  · exact abides_pure trivial
  · rename_i hdepth
    refine abides_bind (abides_call trivial fun _ _ => trivial) fun now _ => ?_
    refine abides_bind (abides_call ⟨hp, UInt32.not_lt.1 hdepth⟩ fun _ _ => trivial) fun a _ => ?_
    split <;> exact abides_pure trivial

theorem abides_request (q : Request) :
    (request s q).Abides (Exchange.TrueOf store) (Call.Places s.governor.maxDepth store)
      fun _ => True := by
  unfold request
  split
  · exact abides_pure trivial
  · rename_i role _
    have hlook := ((s.board true).asks_state q.dependency).mono
      (Q := Call.Places s.governor.maxDepth store) fun c hc => Call.places_of_not_inserts (by
        obtain rfl | hc := hc
        · exact fun h => h
        · exact hc.only.not_inserts (by decide))
    refine abides_bind hlook.abides fun circuit _ => ?_
    split
    · exact abides_pure trivial
    · refine abides_bind (abides_call trivial fun _ _ => trivial) fun id _ => ?_
      refine abides_bind (abides_place id q.parent) fun a ha => ?_
      split
      · exact abides_pure trivial
      · exact abides_pure trivial
      · exact abides_enroll role id q _ (ha _ rfl)

end Spawn

/-- From an empty registry of either kind on, at every moment of every schedule: all workers are
where their parents say, their parents lead to their roots, and a tree is counted by those who are
active in it, whatever has become of the workers between them and the root. -/
theorem crowd_forest (s : Settings) (y : Schedule Job)
    (h : y.store = .memory .empty ∨ y.store = .database .empty) (t : Nat) :
    (y.config (Job.program s) t).store.Forest s.governor.maxDepth ∧
      (∀ id k, (y.config (Job.program s) t).store.kin? id = some k →
        (y.config (Job.program s) t).store.Rooted id k) ∧
      ∀ r, ∃ ids : List WorkerId, ids.Nodup ∧
        (∀ id, id ∈ ids ↔ (y.config (Job.program s) t).store.IsActive id ∧
          (y.config (Job.program s) t).store.EndsAt id r) ∧
        ((y.config (Job.program s) t).store.answer (.countTree r)).1 = .ok ids.length := by
  have hforest : (y.config (Job.program s) t).store.Forest s.governor.maxDepth := by
    refine Schedule.abiding_invariant (P := Call.Places s.governor.maxDepth) (R := fun _ => True)
      Exchange.lasting_trueOf ?_ ?_ ?_ t
    · exact fun store job => job.abides_program (fun _ => Call.places_of_not_inserts)
        Spawn.abides_request
    · intro store q hI hq
      refine hI.answer ?_
      rintro r c rfl
      exact hq
    · obtain h | h := h
      · rw [h]
        exact Store.forest_memory _
      · rw [h]
        exact Store.forest_database _
  exact ⟨hforest, fun id k hk => hforest.rooted hk, hforest.exists_members⟩

/-- Three generations of workers; then the one in the middle ends. -/
def family : Schedule Job where
  store := .memory .empty
  clock := .epoch
  steps t :=
    if t = 0 then .begins (.spawn ⟨"worker", none, ⟨"api"⟩⟩)
    else if t ≤ 7 then .asks 0 (Call.calm .epoch ⟨"first"⟩)
    else if t = 8 then .begins (.spawn ⟨"helper", some ⟨"first"⟩, ⟨"api"⟩⟩)
    else if t ≤ 16 then .asks 1 (Call.calm .epoch ⟨"second"⟩)
    else if t = 17 then .begins (.spawn ⟨"helper", some ⟨"second"⟩, ⟨"api"⟩⟩)
    else if t ≤ 25 then .asks 2 (Call.calm .epoch ⟨"third"⟩)
    else if t = 26 then .begins (.terminate ⟨"second"⟩)
    else .asks 3 (Call.calm .epoch ⟨""⟩)

theorem family_forest :
    (family.store = .memory .empty ∨ family.store = .database .empty) ∧
      (family.config (Job.program {}) 28).store.kin? ⟨"third"⟩ =
        some ⟨some ⟨"second"⟩, ⟨"first"⟩, 2⟩ ∧
      (family.config (Job.program {}) 28).store.activeInTree ⟨"first"⟩ = 2 ∧
      (family.config (Job.program {}) 28).store.Rooted ⟨"third"⟩
        ⟨some ⟨"second"⟩, ⟨"first"⟩, 2⟩ := by
  have hkin : (family.config (Job.program {}) 28).store.kin? ⟨"third"⟩ =
      some ⟨some ⟨"second"⟩, ⟨"first"⟩, 2⟩ := by decide +kernel
  exact ⟨.inl rfl, hkin, by decide +kernel, (crowd_forest {} family (.inl rfl) 28).2.1 _ _ hkin⟩

end WorkerGuard
