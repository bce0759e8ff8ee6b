import WorkerGuard.Lifecycle
import WorkerGuard.Proofs.Program.Schedule
import WorkerGuard.Proofs.Program.Steady
import WorkerGuard.Proofs.Registry.Life
import WorkerGuard.Proofs.Time.Age

/-!
# WorkerGuard.Proofs.Registry.Sweep

What a sweep does to the workers of a registry in memory.

* `Memory.Filed`: each worker is kept under its own name, as all requests leave it
  (`filed_after`).
* `Memory.Lists m p ws`: the active workers that `p` picks, each once.
* `Lifecycle.Pruned m old done m'`: of the active workers those are terminated that `old` picks,
  and `done` says so; nothing else differs between `m` and `m'`. Two passes make up one
  (`Pruned.trans`), and a second pass has nothing to do (`Pruned.again`).
* `ends_pruneRole`, `ends_pruneRoles`, `ends_sweep`: the passes, from one to all of a sweep.
* `sweep_ends_who_is_too_old`: whom a sweep ends, how this goes with the age of a worker, and that a
  second sweep ends nobody. `leap_second_ends_too_early`: where it does not go with the age.
-/

namespace WorkerGuard

open Program Registry

namespace Registry.Memory

variable {m : Memory} {p q : Worker → Bool} {ws : List Worker}

def Filed (m : Memory) : Prop := m.workers.Each fun k w => w.id.text = k

theorem filed_empty : empty.Filed := Keyed.each_empty

theorem Filed.answer (hm : m.Filed) (q : Request) : (m.answer q).2.Filed := by
  intro k w' hw'
  cases hw : m.workers.find? k with
  | some w =>
    obtain ⟨v, hv, hfollows⟩ := follows_answer hw q
    rw [hw'] at hv
    cases hv
    rw [hfollows.same]
    exact hm k w hw
  | none =>
    by_cases hk : q.touches? = some ⟨k⟩
    · cases q with
      | insert r c =>
        have hid := Option.some.inj hk
        obtain rfl : r.id.text = k := congrArg WorkerId.text hid
        obtain hkept | ⟨_, _, _, hnew⟩ := m.find?_insertion r c r.id.text
        · rw [hkept, hw] at hw'
          cases hw'
        · rw [hnew] at hw'
          cases hw'
          rfl
      | heartbeat i t | terminate i | degrade i =>
        cases hk
        simp only [Memory.answer, updateActive, hw] at hw'
        cases hw'
      | _ => cases hk
    · rw [find?_answer_other hk, hw] at hw'
      cases hw'

theorem filed_after (qs : List Request) : (empty.after qs).Filed := by
  have hrun : ∀ {m : Memory}, m.Filed → (m.after qs).Filed := by
    induction qs with
    | nil => exact id
    | cons q qs ih => exact fun hm => ih (hm.answer q)
  exact hrun filed_empty

structure Lists (m : Memory) (p : Worker → Bool) (ws : List Worker) : Prop where
  nodup : (ws.map (·.id)).Nodup
  mem_iff : ∀ w, w ∈ ws ↔
    m.workers.find? w.id.text = some w ∧ w.isActive = true ∧ p w = true

theorem mem_values_iff {w : Worker} (hm : m.Filed) :
    w ∈ m.workers.values ↔ m.workers.find? w.id.text = some w := by
  rw [Keyed.find?_eq_some_iff, Keyed.values, List.mem_map]
  constructor
  · rintro ⟨⟨k, v⟩, he, rfl⟩
    rw [hm k v (Keyed.find?_eq_some_iff.2 he)]
    exact he
  · intro he
    exact ⟨_, he, rfl⟩

theorem nodup_ids (hm : m.Filed) : (m.workers.values.map (·.id)).Nodup := by
  rw [Keyed.values, List.map_map, List.Nodup, List.pairwise_map]
  refine m.workers.ascending.imp_of_mem fun {a b} ha hb hlt heq => ?_
  have ha := hm a.1 a.2 (Keyed.find?_eq_some_iff.2 ha)
  have hb := hm b.1 b.2 (Keyed.find?_eq_some_iff.2 hb)
  rw [← ha, ← hb] at hlt
  exact String.lt_irrefl _ (congrArg WorkerId.text heq ▸ hlt)

theorem lists_stale (hm : m.Filed) (t : Instant) (role : Option String) :
    m.Lists (fun w => decide (w.createdAt < t) && role.all (w.role == ·))
      (m.answer (.stale t role)).1 := by
  have hperm := List.mergeSort_perm (m.workers.values.filter fun w =>
    w.isActive && decide (w.createdAt < t) && role.all (w.role == ·)) Worker.precedes
  constructor
  · refine (hperm.map _).nodup_iff.2 ?_
    exact (nodup_ids hm).sublist (List.filter_sublist.map _)
  · intro w
    refine hperm.mem_iff.trans ?_
    rw [List.mem_filter, mem_values_iff hm, Bool.and_assoc, Bool.and_eq_true]

theorem Lists.filter (h : m.Lists p ws) (q : Worker → Bool) :
    m.Lists (fun w => p w && q w) (ws.filter q) := by
  refine ⟨h.nodup.sublist (List.filter_sublist.map _), fun w => ?_⟩
  rw [List.mem_filter, h.mem_iff, Bool.and_eq_true, and_assoc, and_assoc]

end Registry.Memory

namespace Worker

variable {p q : Worker → Bool} {w : Worker}

/-- A worker after all active ones were terminated that `old` picks. -/
def prunedBy (old : Worker → Bool) (w : Worker) : Worker :=
  if w.isActive && old w then { w with state := .terminated } else w

theorem prunedBy_of_active (ha : w.isActive = true) (hp : p w = true) :
    w.prunedBy p = { w with state := .terminated } := by
  simp [prunedBy, ha, hp]

theorem prunedBy_of_inactive (ha : w.isActive = false) : w.prunedBy p = w := by
  simp [prunedBy, ha]

theorem prunedBy_of_spared (hp : p w = false) : w.prunedBy p = w := by
  simp [prunedBy, hp]

theorem prunedBy_prunedBy (w : Worker) :
    (w.prunedBy p).prunedBy q = w.prunedBy fun w => p w || q w := by
  cases ha : w.isActive with
  | false => rw [prunedBy_of_inactive ha, prunedBy_of_inactive ha, prunedBy_of_inactive ha]
  | true =>
    cases hp : p w with
    | false => simp [prunedBy, hp]
    | true =>
      rw [prunedBy_of_active ha hp, prunedBy_of_active ha (by simp [hp])]
      exact prunedBy_of_inactive rfl

end Worker

/-- The age that the workers of a role may reach. -/
def Settings.maxAgeOf (s : Settings) (role : String) : Duration :=
  ((s.roleNamed role).map (·.maxAge)).getD s.lifecycle.defaultMaxWorkerAge

namespace Lifecycle

variable {m m₁ m' m'' : Memory} {p q : Worker → Bool} {a b : Sweep} {ws : List Worker}

theorem Sweep.empty_merge (a : Sweep) : Sweep.empty.merge a = a := by
  simp [Sweep.merge, Sweep.empty]

theorem Sweep.merge_empty (a : Sweep) : a.merge .empty = a := by
  simp [Sweep.merge, Sweep.empty]

theorem Sweep.merge_assoc (a b c : Sweep) : (a.merge b).merge c = a.merge (b.merge c) := by
  simp [Sweep.merge, Nat.add_assoc]

structure Pruned (m : Memory) (old : Worker → Bool) (done : Sweep) (m' : Memory) : Prop where
  record : ∀ k, m'.workers.find? k = (m.workers.find? k).map (·.prunedBy old)
  overrides : m'.overrides = m.overrides
  breakers : m'.breakers = m.breakers
  nodup : done.terminated.Nodup
  mem_iff : ∀ id, id ∈ done.terminated ↔
    ∃ w, m.workers.find? id.text = some w ∧ w.isActive = true ∧ old w = true
  skipped : done.skipped = 0

namespace Pruned

theorem refl (m : Memory) : Pruned m (fun _ => false) .empty m where
  record k := by simp [Worker.prunedBy]
  overrides := rfl
  breakers := rfl
  nodup := .nil
  mem_iff id := by simp [Sweep.empty]
  skipped := rfl

/-- Only what is picked of the active workers counts. -/
theorem congr (h : Pruned m p a m')
    (hpq : ∀ k w, m.workers.find? k = some w → w.isActive = true → p w = q w) :
    Pruned m q a m' where
  record k := by
    rw [h.record]
    cases hw : m.workers.find? k with
    | none => rfl
    | some w =>
      cases ha : w.isActive with
      | false => simp [Worker.prunedBy, ha]
      | true => simp [Worker.prunedBy, hpq k w hw ha]
  overrides := h.overrides
  breakers := h.breakers
  nodup := h.nodup
  mem_iff id := by
    rw [h.mem_iff]
    refine exists_congr fun w => and_congr_right fun hw => and_congr_right fun ha => ?_
    rw [hpq id.text w hw ha]
  skipped := h.skipped

/-- Who is active after a pass was not picked by it. -/
theorem active_iff (h : Pruned m p a m') {k : String} {w : Worker} (hactive : w.isActive = true) :
    m'.workers.find? k = some w ↔ m.workers.find? k = some w ∧ p w = false := by
  rw [h.record]
  cases hw : m.workers.find? k with
  | none => simp
  | some v =>
    simp only [Option.map_some, Option.some.injEq, Worker.prunedBy]
    by_cases hv : (v.isActive && p v) = true
    · rw [if_pos hv]
      obtain ⟨_, hp⟩ := Bool.and_eq_true_iff.1 hv
      constructor
      · rintro rfl
        cases hactive
      · rintro ⟨rfl, hno⟩
        rw [hp] at hno
        cases hno
    · rw [if_neg hv]
      constructor
      · rintro rfl
        exact ⟨rfl, by simpa [hactive] using hv⟩
      · exact fun h => h.1

theorem filed (h : Pruned m p a m') (hm : m.Filed) : m'.Filed := by
  intro k w' hw'
  rw [h.record] at hw'
  obtain ⟨w, hw, rfl⟩ := Option.map_eq_some_iff.1 hw'
  unfold Worker.prunedBy
  split <;> exact hm k w hw

/-- The second pass finds the active workers as they were, less those that the first one took. -/
theorem trans (h₁ : Pruned m p a m₁) (h₂ : Pruned m₁ q b m') :
    Pruned m (fun w => p w || q w) (a.merge b) m' where
  record k := by
    rw [h₂.record, h₁.record, Option.map_map]
    exact congrArg (Option.map · _) (funext Worker.prunedBy_prunedBy)
  overrides := h₂.overrides.trans h₁.overrides
  breakers := h₂.breakers.trans h₁.breakers
  nodup := by
    refine List.nodup_append.2 ⟨h₁.nodup, h₂.nodup, ?_⟩
    rintro x hx y hy rfl
    obtain ⟨v, hv, _, hpv⟩ := (h₁.mem_iff x).1 hx
    obtain ⟨w, hw, ha, _⟩ := (h₂.mem_iff x).1 hy
    obtain ⟨hw, hno⟩ := (h₁.active_iff ha).1 hw
    rw [hv] at hw
    cases hw
    rw [hpv] at hno
    cases hno
  mem_iff id := by
    refine List.mem_append.trans ?_
    rw [h₁.mem_iff, h₂.mem_iff]
    constructor
    · rintro (⟨w, hw, ha, hp⟩ | ⟨w, hw, ha, hq⟩)
      · exact ⟨w, hw, ha, by simp [hp]⟩
      · exact ⟨w, ((h₁.active_iff ha).1 hw).1, ha, by simp [hq]⟩
    · rintro ⟨w, hw, ha, hpq⟩
      cases hp : p w with
      | true => exact .inl ⟨w, hw, ha, hp⟩
      | false => exact .inr ⟨w, (h₁.active_iff ha).2 ⟨hw, hp⟩, ha, by simpa [hp] using hpq⟩
  skipped := by
    show a.skipped + b.skipped = 0
    rw [h₁.skipped, h₂.skipped]

/-- A second pass by the same rule does nothing. -/
theorem again (h₁ : Pruned m p a m') (h₂ : Pruned m' p b m'') : b = .empty ∧ m'' = m' := by
  have hspared : ∀ {k w}, m'.workers.find? k = some w → w.isActive = true → p w = false :=
    fun hw ha => ((h₁.active_iff ha).1 hw).2
  constructor
  · have hids : b.terminated = [] := by
      refine List.eq_nil_iff_forall_not_mem.2 fun id hid => ?_
      obtain ⟨w, hw, ha, hp⟩ := (h₂.mem_iff id).1 hid
      rw [hspared hw ha] at hp
      cases hp
    have hskipped := h₂.skipped
    cases b
    cases hids
    cases hskipped
    rfl
  · have hworkers : m''.workers = m'.workers := by
      refine Keyed.ext_find? fun k => ?_
      rw [h₂.record]
      cases hw : m'.workers.find? k with
      | none => rfl
      | some w =>
        cases ha : w.isActive with
        | false => exact congrArg some (Worker.prunedBy_of_inactive ha)
        | true => exact congrArg some (Worker.prunedBy_of_spared (hspared hw ha))
    have hoverrides := h₂.overrides
    have hbreakers := h₂.breakers
    cases m''
    cases hworkers
    cases hoverrides
    cases hbreakers
    rfl

/-- Once the first worker of a list is ended, the others are what is left to do. -/
theorem lists_rest {w : Worker} (h : Pruned m (fun x => x.id == w.id) a m')
    (hws : m.Lists p (w :: ws)) : m'.Lists p ws := by
  obtain ⟨hnot, hnodup⟩ := List.nodup_cons.1 hws.nodup
  refine ⟨hnodup, fun x => ?_⟩
  have hlisted := hws.mem_iff x
  rw [List.mem_cons] at hlisted
  constructor
  · intro hx
    obtain ⟨hfound, hactive, hpx⟩ := hlisted.1 (.inr hx)
    refine ⟨(h.active_iff hactive).2 ⟨hfound, ?_⟩, hactive, hpx⟩
    rw [Bool.eq_false_iff]
    intro hsame
    have hlater : x.id ∈ ws.map (·.id) := List.mem_map_of_mem hx
    rw [eq_of_beq hsame] at hlater
    exact hnot hlater
  · rintro ⟨hfound, hactive, hpx⟩
    obtain ⟨hfound, hother⟩ := (h.active_iff hactive).1 hfound
    obtain rfl | hx := hlisted.2 ⟨hfound, hactive, hpx⟩
    · simp at hother
    · exact hx

end Pruned

section Passes

variable (given : (q : Call) → q.Answer)

/-- Nobody else closes a worker between the look at the registry and the request to end it. -/
theorem terminate_of_active {w : Worker} (hm : m.Filed) (hw : m.workers.find? w.id.text = some w)
    (ha : w.isActive = true) :
    (m.answer (.terminate w.id)).1 = true ∧
      Pruned m (fun x => x.id == w.id) ⟨[w.id], 0⟩ (m.answer (.terminate w.id)).2 := by
  have hupdate : m.answer (.terminate w.id) =
      (true, { m with workers := m.workers.insert w.id.text { w with state := .terminated } }) := by
    simp only [Memory.answer, Memory.updateActive, hw, ha, if_true]
  have hsame : ∀ {k : String} {x : Worker}, m.workers.find? k = some x →
      ((x.id == w.id) = true ↔ k = w.id.text) := by
    intro k x hx
    rw [beq_iff_eq, ← hm k x hx]
    exact ⟨congrArg _, WorkerId.eq_of_text⟩
  rw [hupdate]
  refine ⟨rfl, ?_, rfl, rfl, by simp, ?_, rfl⟩
  · intro k
    simp only [Keyed.find?_insert]
    split
    · rename_i hk
      rw [hk, hw]
      exact congrArg some (Worker.prunedBy_of_active ha (by simp)).symm
    · rename_i hk
      cases hx : m.workers.find? k with
      | none => rfl
      | some x =>
        refine congrArg some (Worker.prunedBy_of_spared ?_).symm
        rw [Bool.eq_false_iff]
        exact fun h => hk ((hsame hx).1 h)
  · intro id
    rw [List.mem_singleton]
    constructor
    · rintro rfl
      exact ⟨w, hw, ha, by simp⟩
    · rintro ⟨x, hx, _, hxw⟩
      exact WorkerId.eq_of_text ((hsame hx).1 hxw)

/-- By induction on the list: what is still to be ended stays active. -/
theorem ends_terminateAll (done : Sweep) (hm : m.Filed) (hws : m.Lists p ws) :
    ∃ a m', Ends (Memory.steady given) (terminateAll ws done) m (.ok (done.merge a)) m' ∧
      Pruned m p a m' := by
  induction ws generalizing m done with
  | nil =>
    refine ⟨.empty, m, ?_, (Pruned.refl m).congr fun k w hw ha => ?_⟩
    · rw [Sweep.merge_empty]
      exact ends_pure _
    · have hfiled : m.workers.find? w.id.text = some w := by rw [hm k w hw, hw]
      have hlisted := (hws.mem_iff w).2
      cases hp : p w with
      | false => rfl
      | true => cases hlisted ⟨hfiled, ha, hp⟩
  | cons w ws ih =>
    obtain ⟨hw, ha, hpw⟩ := (hws.mem_iff w).1 List.mem_cons_self
    obtain ⟨hyes, hfirst⟩ := terminate_of_active hm hw ha
    obtain ⟨a, m', hends, hpruned⟩ :=
      ih (done.merge ⟨[w.id], 0⟩) (hm.answer _) (hfirst.lists_rest hws)
    refine ⟨Sweep.merge ⟨[w.id], 0⟩ a, m', ?_, (hfirst.trans hpruned).congr fun k x hx _ => ?_⟩
    · rw [← Sweep.merge_assoc]
      refine ends_call_bind ?_
      simp only [Memory.steady, hyes]
      exact hends
    · by_cases hsame : x.id = w.id
      · have hxw : m.workers.find? k = some w := by rw [← hm k x hx, hsame, hw]
        rw [hx] at hxw
        cases hxw
        simp [hpw]
      · simp [hsame]

theorem ends_stale (m : Memory) (maxAge : Duration) (role : Option String) :
    Ends (Memory.steady given) (stale maxAge role) m
      (.ok (m.answer (.stale ((given .now).before maxAge) role)).1) m :=
  ends_bind (ends_call .now) (ends_call _)

theorem ends_pruneRole (hm : m.Filed) (maxAge : Duration) (role : Option String) (done : Sweep) :
    ∃ a m', Ends (Memory.steady given) (pruneRole maxAge role done) m (.ok (done.merge a)) m' ∧
      Pruned m (fun w => decide (w.createdAt < (given .now).before maxAge) &&
        role.all (w.role == ·)) a m' := by
  obtain ⟨a, m', hends, hpruned⟩ :=
    ends_terminateAll given done hm (m.lists_stale hm ((given .now).before maxAge) role)
  exact ⟨a, m', ends_bind (ends_stale given m maxAge role) hends, hpruned⟩

theorem ends_pruneRoles (hm : m.Filed) (roles : List Role) (done : Sweep) :
    ∃ a m', Ends (Memory.steady given) (pruneRoles roles done) m (.ok (done.merge a)) m' ∧
      Pruned m (fun w => roles.any fun r =>
        decide (w.createdAt < (given .now).before r.maxAge) && w.role == r.name) a m' := by
  induction roles generalizing m done with
  | nil =>
    refine ⟨.empty, m, ?_, .refl m⟩
    rw [Sweep.merge_empty]
    exact ends_pure _
  | cons r rs ih =>
    obtain ⟨a, m₁, hfirst, hpruned⟩ := ends_pruneRole given hm r.maxAge (some r.name) done
    obtain ⟨b, m', hrest, hpruned'⟩ := ih (hpruned.filed hm) (done.merge a)
    refine ⟨a.merge b, m', ?_, (hpruned.trans hpruned').congr fun _ w _ _ => ?_⟩
    · rw [← Sweep.merge_assoc]
      exact ends_bind hfirst hrest
    · simp

/-- Workers of a configured role are seen by the pass of this role, all others by the last one. -/
theorem old_maxAgeOf (s : Settings) (old : Duration → Bool) (role : String) :
    ((s.allRoles.any fun r => old r.maxAge && role == r.name) ||
        old s.lifecycle.defaultMaxWorkerAge && !s.roles.contains role) =
      old (s.maxAgeOf role) := by
  have hany : (s.allRoles.any fun r => old r.maxAge && role == r.name) =
      ((s.roleNamed role).map (·.maxAge)).any old := by
    rw [Bool.eq_iff_iff, List.any_eq_true, Option.any_eq_true]
    simp only [Settings.allRoles, Settings.roleNamed, List.mem_map, Bool.and_eq_true, beq_iff_eq,
      Option.map_map, Option.map_eq_some_iff, Keyed.find?_eq_some_iff]
    constructor
    · rintro ⟨_, ⟨e, he, rfl⟩, hold, rfl⟩
      exact ⟨_, ⟨e.2, he, rfl⟩, hold⟩
    · rintro ⟨_, ⟨r, hr, rfl⟩, hold⟩
      exact ⟨_, ⟨(role, r), hr, rfl⟩, hold, rfl⟩
  rw [hany, Settings.maxAgeOf, Settings.roleNamed, Keyed.contains]
  cases s.roles.find? role <;> simp

theorem ends_sweep (hm : m.Filed) (s : Settings) :
    ∃ a m', Ends (Memory.steady given) (sweep s) m (.ok a) m' ∧
      Pruned m (fun w => decide (w.createdAt < (given .now).before (s.maxAgeOf w.role))) a m' := by
  obtain ⟨a, m₁, hroles, hpruned⟩ := ends_pruneRoles given hm s.allRoles .empty
  have hm₁ := hpruned.filed hm
  have hstrays := (m₁.lists_stale hm₁ ((given .now).before s.lifecycle.defaultMaxWorkerAge)
    none).filter fun w => !s.roles.contains w.role
  obtain ⟨b, m', hrest, hpruned'⟩ := ends_terminateAll given a hm₁ hstrays
  refine ⟨a.merge b, m', ?_, (hpruned.trans hpruned').congr fun _ w _ _ => ?_⟩
  · rw [Sweep.empty_merge] at hroles
    exact ends_bind hroles (ends_bind (ends_stale given m₁ _ none) hrest)
  · rw [← old_maxAgeOf s (fun maxAge => decide (w.createdAt < (given .now).before maxAge))]
    simp

theorem ends_prune (hm : m.Filed) (maxAge : Duration) :
    ∃ a m', Ends (Memory.steady given) (prune maxAge) m (.ok a) m' ∧
      Pruned m (fun w => decide (w.createdAt < (given .now).before maxAge)) a m' := by
  obtain ⟨a, m', hends, hpruned⟩ := ends_pruneRole given hm maxAge none .empty
  rw [Sweep.empty_merge] at hends
  exact ⟨a, m', hends, hpruned.congr fun _ w _ _ => by simp⟩

/-- A sweep ends the workers that were created too long ago, which it finds by the instant that lies
back by the age they may reach. Outside of leap seconds this is to be older than that. A second
sweep at the same time ends nobody. -/
theorem sweep_ends_who_is_too_old (s : Settings) (hm : m.Filed) :
    (∃ done m', Ends (Memory.steady given) (sweep s) m (.ok done) m' ∧
      Pruned m (fun w => decide (w.createdAt < (given .now).before (s.maxAgeOf w.role))) done m' ∧
      Ends (Memory.steady given) (sweep s) m' (.ok .empty) m') ∧
    (∀ maxAge, ∃ done m', Ends (Memory.steady given) (prune maxAge) m (.ok done) m' ∧
      Pruned m (fun w => decide (w.createdAt < (given .now).before maxAge)) done m' ∧
      Ends (Memory.steady given) (prune maxAge) m' (.ok .empty) m') ∧
    ∀ (w : Worker) (now : Instant) (maxAge : Duration), ¬now.Leap → ¬w.createdAt.Leap →
      (w.createdAt < now.before maxAge ↔ maxAge < w.age now) := by
  refine ⟨?_, fun maxAge => ?_, fun w now maxAge hnow hw =>
    Worker.createdAt_lt_before_iff hnow hw maxAge⟩
  · obtain ⟨a, m', hends, hpruned⟩ := ends_sweep given hm s
    obtain ⟨b, m'', hagain, hpruned'⟩ := ends_sweep given (hpruned.filed hm) s
    obtain ⟨rfl, rfl⟩ := hpruned.again hpruned'
    exact ⟨a, m'', hends, hpruned, hagain⟩
  · obtain ⟨a, m', hends, hpruned⟩ := ends_prune given hm maxAge
    obtain ⟨b, m'', hagain, hpruned'⟩ := ends_prune given (hpruned.filed hm) maxAge
    obtain ⟨rfl, rfl⟩ := hpruned.again hpruned'
    exact ⟨a, m'', hends, hpruned, hagain⟩

/-- At this time a helper may be 900 seconds old, and a scout older than any clock can tell. -/
theorem sweep_ends_helper_not_scout :
    let s : Settings := { lifecycle := { defaultMaxWorkerAgeSecs := 18446744073709551615 } }
    let recruit (id role : String) : Recruit := ⟨⟨id⟩, role, none, ⟨id⟩, 0, ⟨"api"⟩, .epoch⟩
    let m := Memory.empty.after
      [.insert (recruit "w-1" "helper") ⟨1, 1⟩, .insert (recruit "w-2" "scout") ⟨1, 1⟩]
    m.Filed ∧ ∃ done m', Ends (Memory.steady (Call.calm (atSecond 901) ⟨""⟩)) (sweep s) m
      (.ok done) m' ∧ ⟨"w-1"⟩ ∈ done.terminated ∧ ⟨"w-2"⟩ ∉ done.terminated ∧ done.skipped = 0 := by
  intro s recruit m
  have hm : m.Filed := Memory.filed_after _
  obtain ⟨⟨done, m', hends, hpruned, _⟩, _⟩ :=
    sweep_ends_who_is_too_old (Call.calm (atSecond 901) ⟨""⟩) s hm
  have hold : (m.workers.find? "w-1").any (fun w => w.isActive &&
      decide (w.createdAt < (atSecond 901).before (s.maxAgeOf w.role))) = true := by decide +kernel
  have hscout : (m.workers.find? "w-2").any (fun w => w.isActive &&
      decide (w.createdAt < (atSecond 901).before (s.maxAgeOf w.role))) = false := by decide +kernel
  refine ⟨hm, done, m', hends, (hpruned.mem_iff _).2 ?_, fun hin => ?_, hpruned.skipped⟩
  · obtain ⟨w, hw, hboth⟩ := (Option.any_eq_true _ _).1 hold
    exact ⟨w, hw, Bool.and_eq_true_iff.1 hboth⟩
  · obtain ⟨w, hw, hboth⟩ := (hpruned.mem_iff _).1 hin
    exact Bool.false_ne_true
      (hscout.symm.trans ((Option.any_eq_true _ _).2 ⟨w, hw, Bool.and_eq_true_iff.2 hboth⟩))

/-- The leap second at the end of the year 2016 makes a worker of 1799.7 seconds too old for a role
whose workers may reach 1800. -/
theorem leap_second_ends_too_early :
    let now : Instant := ⟨1483230600, 200_000_000, by decide, by decide, by decide⟩
    let r : Recruit := ⟨⟨"w-1"⟩, "worker", none, ⟨"w-1"⟩, 0, ⟨"api"⟩,
      ⟨1483228799, 1_500_000_000, by decide, by decide, by decide⟩⟩
    let m := Memory.empty.after [.insert r ⟨1, 1⟩]
    m.Filed ∧ m.workers.find? "w-1" = some r.enrolled ∧
      (∃ done m', Ends (Memory.steady (Call.calm now ⟨""⟩)) (sweep default) m (.ok done) m' ∧
        ⟨"w-1"⟩ ∈ done.terminated) ∧
      (r.enrolled.age now).nanos = 1_799_700_000_000 ∧
      ¬(default : Settings).maxAgeOf "worker" < r.enrolled.age now := by
  intro now r m
  have hm : m.Filed := Memory.filed_after _
  have hw : m.workers.find? "w-1" = some r.enrolled := by decide +kernel
  obtain ⟨done, m', hends, hpruned⟩ := ends_sweep (Call.calm now ⟨""⟩) hm default
  refine ⟨hm, hw, ⟨done, m', hends, (hpruned.mem_iff _).2 ⟨_, hw, rfl, ?_⟩⟩, ?_, ?_⟩
  · decide +kernel
  · decide +kernel
  · decide +kernel

end Passes
end Lifecycle
end WorkerGuard
