import WorkerGuard.Proofs.Program.Schedule
import WorkerGuard.Proofs.Program.Steady
import WorkerGuard.Proofs.Registry.Columns
import WorkerGuard.Spawn

/-!
# WorkerGuard.Proofs.Spawn.Decision

What decides a request for a new worker, at a registry in memory to which nobody else has access
meanwhile.

* `Spawn.Ready`: the role is configured, and calls to the dependency are let pass.
* `Spawn.Placed m id parent p`: a worker of the name `id` has the place `p`.
* `Spawn.Refused`: each reason to refuse, with all that was found in order before it.
* `Spawn.Admitted`: nothing stands in the way.
* `refused_or_admitted`: it is the one or the other; `ends_of_refused`, `ends_of_admitted`: what
  comes of it. `request_decides` puts them together.
-/

namespace WorkerGuard.Spawn

open Program Registry

variable {s : Settings} {given : (q : Call) → q.Answer} {m m' : Memory} {q : Request}
variable {role : Role} {id : WorkerId} {parent : Option WorkerId} {p : Place} {why : Refusal}

structure Ready (s : Settings) (given : (q : Call) → q.Answer) (m : Memory) (q : Request)
    (role : Role) : Prop where
  role : s.roleNamed q.role = some role
  unforced : given (.forced q.dependency) = false
  closed : (m.row q.dependency).circuit = .closed

inductive Placed (m : Memory) (id : WorkerId) : Option WorkerId → Place → Prop where
  | root : Placed m id none ⟨id, 0⟩
  | child {parent : WorkerId} {w : Worker} {depth : UInt32}
      (hw : m.workers.find? parent.text = some w) (ha : w.isActive = true)
      (hdepth : depth.toNat = w.depth.toNat + 1) : Placed m id (some parent) ⟨w.root, depth⟩

structure Admitted (s : Settings) (given : (q : Call) → q.Answer) (m : Memory) (q : Request)
    (role : Role) (p : Place) : Prop where
  ready : Ready s given m q role
  placed : Placed m (given .freshId) q.parent p
  depth_le : p.depth.toNat ≤ s.governor.maxDepth.toNat
  role_lt : m.activeOfRole role.name < role.ceiling.toNat
  tree_lt : m.activeInTree p.root < s.governor.maxTreeSize.toNat

inductive Refused (s : Settings) (given : (q : Call) → q.Answer) (m : Memory) (q : Request) :
    Refusal → Prop where
  | unknownRole (hrole : s.roleNamed q.role = none) : Refused s given m q (.unknownRole q.role)
  | forced {role : Role} (hrole : s.roleNamed q.role = some role)
      (hforced : given (.forced q.dependency) = true) :
      Refused s given m q (.circuitOpen q.dependency .opened)
  | notClosed {role : Role} (hrole : s.roleNamed q.role = some role)
      (hforced : given (.forced q.dependency) = false)
      (hcircuit : (m.row q.dependency).circuit ≠ .closed) :
      Refused s given m q (.circuitOpen q.dependency (m.row q.dependency).circuit)
  | parentNotFound {role : Role} {parent : WorkerId} (hready : Ready s given m q role)
      (hparent : q.parent = some parent) (hw : m.workers.find? parent.text = none) :
      Refused s given m q (.parentNotFound parent)
  | parentInactive {role : Role} {parent : WorkerId} {w : Worker} (hready : Ready s given m q role)
      (hparent : q.parent = some parent) (hw : m.workers.find? parent.text = some w)
      (ha : w.isActive = false) : Refused s given m q (.parentInactive parent)
  | depthExceeded {role : Role} {p : Place} (hready : Ready s given m q role)
      (hplace : Placed m (given .freshId) q.parent p)
      (hdepth : s.governor.maxDepth.toNat < p.depth.toNat) :
      Refused s given m q (.depthExceeded p.depth s.governor.maxDepth)
  | ceilingReached {role : Role} {p : Place} (hready : Ready s given m q role)
      (hplace : Placed m (given .freshId) q.parent p)
      (hdepth : p.depth.toNat ≤ s.governor.maxDepth.toNat)
      (hfull : role.ceiling.toNat ≤ m.activeOfRole role.name ∨
        s.governor.maxTreeSize.toNat ≤ m.activeInTree p.root) :
      Refused s given m q (.ceilingReached role.name role.ceiling)

/-- The worker that a request makes. -/
def recruit (given : (q : Call) → q.Answer) (q : Request) (role : Role) (p : Place) : Recruit :=
  ⟨given .freshId, role.name, q.parent, p.root, p.depth, q.dependency, given .now⟩

theorem refused_or_admitted (s : Settings) (given : (q : Call) → q.Answer) (q : Request)
    (hdepths : m.workers.Each fun _ w => w.depth.toNat + 1 < UInt32.size) :
    (∃ why, Refused s given m q why) ∨ ∃ role p, Admitted s given m q role p := by
  cases hrole : s.roleNamed q.role with
  | none => exact .inl ⟨_, .unknownRole hrole⟩
  | some role =>
  cases hforced : given (.forced q.dependency) with
  | true => exact .inl ⟨_, .forced hrole hforced⟩
  | false =>
  by_cases hcircuit : (m.row q.dependency).circuit = .closed
  case neg => exact .inl ⟨_, .notClosed hrole hforced hcircuit⟩
  have hready : Ready s given m q role := ⟨hrole, hforced, hcircuit⟩
  have hplaced : (∃ why, Refused s given m q why) ∨
      ∃ p, Placed m (given .freshId) q.parent p := by
    cases hparent : q.parent with
    | none => exact .inr ⟨_, .root⟩
    | some parent =>
      cases hw : m.workers.find? parent.text with
      | none => exact .inl ⟨_, .parentNotFound hready hparent hw⟩
      | some w =>
        cases ha : w.isActive with
        | false => exact .inl ⟨_, .parentInactive hready hparent hw ha⟩
        | true =>
          have hlt := hdepths _ _ hw
          have hdepth : (w.depth + 1).toNat = w.depth.toNat + 1 := by
            rw [UInt32.toNat_add, UInt32.toNat_one, Nat.mod_eq_of_lt hlt]
          exact .inr ⟨_, .child hw ha hdepth⟩
  obtain hrefused | ⟨p, hplace⟩ := hplaced
  · exact .inl hrefused
  by_cases hdepth : p.depth.toNat ≤ s.governor.maxDepth.toNat
  case neg => exact .inl ⟨_, .depthExceeded hready hplace (Nat.lt_of_not_le hdepth)⟩
  by_cases hfull : role.ceiling.toNat ≤ m.activeOfRole role.name ∨
      s.governor.maxTreeSize.toNat ≤ m.activeInTree p.root
  · exact .inl ⟨_, .ceilingReached hready hplace hdepth hfull⟩
  · obtain ⟨hr, ht⟩ := not_or.1 hfull
    exact .inr ⟨role, p, hready, hplace, hdepth, Nat.lt_of_not_le hr, Nat.lt_of_not_le ht⟩

theorem ends_state (s : Settings) (given : (q : Call) → q.Answer) (m : Memory) (d : Dependency) :
    Ends (Memory.steady given) ((s.board true).state d) m
      (if given (.forced d) then .opened else (m.row d).circuit) m := by
  refine ends_bind (ends_call_bind (ends_pure _)) (ends_call_bind ?_)
  show Ends _ (if given (.forced d) then _ else _) m _ m
  split
  · exact ends_pure _
  · exact ends_bind (ends_call_bind (ends_call_bind (ends_pure _))) (ends_pure _)

theorem ends_place (h : Placed m id parent p) :
    Ends (Memory.steady given) (place id parent) m (.ok (.ok p)) m := by
  cases h with
  | root => exact ends_pure _
  | @child parent w depth hw ha hdepth =>
    have hlt := depth.toNat_lt
    have hsize : w.depth.toNat + 1 ≠ UInt32.size := by
      simp only [UInt32.size]
      omega
    have hplus : w.depth + 1 = depth := by
      rw [← UInt32.toNat_inj, UInt32.toNat_add, UInt32.toNat_one, hdepth]
      exact Nat.mod_eq_of_lt (hdepth ▸ hlt)
    refine ends_call_bind ?_
    simp only [Memory.steady, Memory.answer, hw, ha, Bool.not_true, Bool.false_eq_true, if_false,
      if_neg hsize, hplus]
    exact ends_pure _

/-- Once the role and the breaker are in order, the place decides. -/
theorem ends_request (hready : Ready s given m q role) {a : Except Registry.Error Decision}
    (hrest : Ends (Memory.steady given) (do
      match ← place (given .freshId) q.parent with
      | .error e => return .error e
      | .ok (.error why) => return .ok (.refused why)
      | .ok (.ok p) => enroll s role (given .freshId) q p) m a m') :
    Ends (Memory.steady given) (request s q) m a m' := by
  have hstate := ends_state s given m q.dependency
  rw [if_neg (by rw [hready.unforced]; exact Bool.false_ne_true), hready.closed] at hstate
  unfold request
  rw [hready.role]
  exact ends_bind hstate (ends_call_bind hrest)

theorem ends_of_unready (given : (q : Call) → q.Answer) (m : Memory)
    (hrole : s.roleNamed q.role = some role)
    (hcircuit : (if given (.forced q.dependency) then .opened else
      (m.row q.dependency).circuit) ≠ Circuit.closed) :
    Ends (Memory.steady given) (request s q) m (.ok (.refused (.circuitOpen q.dependency
      (if given (.forced q.dependency) then .opened else (m.row q.dependency).circuit)))) m := by
  unfold request
  rw [hrole]
  refine ends_bind (ends_state s given m q.dependency) ?_
  rw [if_pos hcircuit]
  exact ends_pure _

theorem ends_enroll {found : Option Worker} (hdepth : p.depth.toNat ≤ s.governor.maxDepth.toNat)
    (hanswer : m.answer (.insert (recruit given q role p)
      ⟨role.ceiling, s.governor.maxTreeSize⟩) = (found, m')) :
    Ends (Memory.steady given) (enroll s role (given .freshId) q p) m
      (.ok (found.elim (.refused (.ceilingReached role.name role.ceiling)) .granted)) m' := by
  have hle : ¬s.governor.maxDepth < p.depth := fun h =>
    Nat.not_lt_of_le hdepth (UInt32.lt_iff_toNat_lt.1 h)
  unfold enroll
  rw [if_neg hle]
  refine ends_call_bind (ends_call_bind ?_)
  unfold recruit at hanswer
  simp only [Memory.steady, hanswer]
  cases found with
  | none => exact ends_pure _
  | some w => exact ends_pure _

/-- Each reason to refuse comes to its refusal, and leaves the registry as it is. -/
theorem ends_of_refused (h : Refused s given m q why) :
    Ends (Memory.steady given) (request s q) m (.ok (.refused why)) m := by
  cases h with
  | unknownRole hrole =>
    unfold request
    rw [hrole]
    exact ends_pure _
  | forced hrole hforced =>
    have hends := ends_of_unready given m hrole (by rw [hforced]; exact nofun)
    rw [hforced] at hends
    exact hends
  | notClosed hrole hforced hcircuit =>
    have hends := ends_of_unready given m hrole (by rw [hforced]; exact hcircuit)
    rw [hforced] at hends
    exact hends
  | parentNotFound hready hparent hw =>
    refine ends_request hready (ends_bind (a := .ok (.error (.parentNotFound _))) ?_ (ends_pure _))
    rw [hparent]
    refine ends_call_bind ?_
    simp only [Memory.steady, Memory.answer, hw]
    exact ends_pure _
  | parentInactive hready hparent hw ha =>
    refine ends_request hready (ends_bind (a := .ok (.error (.parentInactive _))) ?_ (ends_pure _))
    rw [hparent]
    refine ends_call_bind ?_
    simp only [Memory.steady, Memory.answer, hw, ha]
    exact ends_pure _
  | @depthExceeded role p hready hplace hdepth =>
    refine ends_request hready (ends_bind (ends_place hplace) ?_)
    show Ends _ (enroll s role (given .freshId) q p) m _ m
    unfold enroll
    rw [if_pos (UInt32.lt_iff_toNat_lt.2 hdepth)]
    exact ends_pure _
  | @ceilingReached role p hready hplace hdepth hfull =>
    have hanswer : m.answer (.insert (recruit given q role p)
        ⟨role.ceiling, s.governor.maxTreeSize⟩) = (none, m) := by
      simp only [Memory.answer]
      rw [if_pos]
      obtain hr | ht := hfull
      · exact .inl hr
      · exact .inr (.inl ht)
    exact ends_request hready (ends_bind (ends_place hplace) (ends_enroll hdepth hanswer))

theorem ends_of_admitted (hfresh : m.workers.find? (given .freshId).text = none)
    (h : Admitted s given m q role p) :
    Ends (Memory.steady given) (request s q) m
      (.ok (.granted (recruit given q role p).enrolled)) { m with
        workers := m.workers.insert (given .freshId).text (recruit given q role p).enrolled } := by
  have hanswer : m.answer (.insert (recruit given q role p)
      ⟨role.ceiling, s.governor.maxTreeSize⟩) = (some (recruit given q role p).enrolled, { m with
        workers := m.workers.insert (given .freshId).text (recruit given q role p).enrolled }) := by
    simp only [Memory.answer]
    rw [if_neg]
    · rfl
    · rintro (hr | ht | hold)
      · exact Nat.not_le_of_lt h.role_lt hr
      · exact Nat.not_le_of_lt h.tree_lt ht
      · simp [Keyed.contains, recruit, hfresh] at hold
  exact ends_request h.ready (ends_bind (ends_place h.placed) (ends_enroll h.depth_le hanswer))

/-- A request is granted if all is in order, and else refused for the first thing that is not. A
refusal changes nothing, and a grant adds the new worker and nothing else. -/
theorem request_decides (s : Settings) (given : (q : Call) → q.Answer) (q : Request)
    (hfresh : m.workers.find? (given .freshId).text = none)
    (hdepths : m.workers.Each fun _ w => w.depth.toNat + 1 < UInt32.size) :
    ∃ decision m', Ends (Memory.steady given) (request s q) m (.ok decision) m' ∧
      (∀ why, decision = .refused why ↔ Refused s given m q why) ∧
      (∀ w, decision = .granted w ↔
        ∃ role p, Admitted s given m q role p ∧ w = (recruit given q role p).enrolled) ∧
      (∀ why, decision = .refused why → m' = m) ∧
      ∀ w, decision = .granted w →
        m.workers.find? w.id.text = none ∧
          m' = { m with workers := m.workers.insert w.id.text w } ∧
          w.state = .active ∧ w.createdAt = given .now ∧ w.lastHeartbeatAt = given .now ∧
          Placed m w.id w.parent ⟨w.root, w.depth⟩ := by
  obtain ⟨why, hrefused⟩ | ⟨role, p, hadmitted⟩ := refused_or_admitted s given q hdepths
  · have hends := ends_of_refused hrefused
    refine ⟨.refused why, m, hends, fun why' => ⟨?_, fun h' => ?_⟩, fun w => ⟨nofun, ?_⟩,
      fun _ _ => rfl, ?_⟩
    · rintro ⟨⟩
      exact hrefused
    · exact Except.ok.inj (hends.unique (ends_of_refused h')).1
    · rintro ⟨role, p, hadmitted, _⟩
      cases (hends.unique (ends_of_admitted hfresh hadmitted)).1
    · rintro _ ⟨⟩
  · have hends := ends_of_admitted hfresh hadmitted
    refine ⟨_, _, hends, fun why => ⟨nofun, fun h' => ?_⟩, fun w => ⟨?_, ?_⟩, nofun, ?_⟩
    · cases (hends.unique (ends_of_refused h')).1
    · rintro ⟨⟩
      exact ⟨role, p, hadmitted, rfl⟩
    · rintro ⟨role', p', hadmitted', rfl⟩
      exact Except.ok.inj (hends.unique (ends_of_admitted hfresh hadmitted')).1
    · rintro _ ⟨⟩
      exact ⟨hfresh, rfl, rfl, rfl, rfl, hadmitted.placed⟩

/-- A helper of the only worker there is. -/
theorem helper_granted :
    let x : Recruit := ⟨⟨"w-1"⟩, "worker", none, ⟨"w-1"⟩, 0, ⟨"api"⟩, .epoch⟩
    let m : Memory := { Memory.empty with workers := Keyed.empty.insert "w-1" x.enrolled }
    let given := Call.calm (atSecond 5) ⟨"w-2"⟩
    m.workers.find? "w-2" = none ∧
      (m.workers.Each fun _ w => w.depth.toNat + 1 < UInt32.size) ∧
      ∃ w m', Ends (Memory.steady given) (request default ⟨"helper", some ⟨"w-1"⟩, ⟨"api"⟩⟩) m
        (.ok (.granted w)) m' ∧ w.root = ⟨"w-1"⟩ ∧ w.depth = 1 ∧
        m'.workers.find? "w-1" = some x.enrolled ∧ m'.workers.find? "w-2" = some w := by
  intro x m given
  have hfresh : m.workers.find? "w-2" = none := by decide +kernel
  have hdepths : m.workers.Each fun _ w => w.depth.toNat + 1 < UInt32.size :=
    Keyed.each_empty.insert (by decide +kernel)
  have hx : m.workers.find? "w-1" = some x.enrolled := by decide +kernel
  obtain ⟨decision, m', hends, _, hgranted, _, hadded⟩ := request_decides default given
    ⟨"helper", some ⟨"w-1"⟩, ⟨"api"⟩⟩ hfresh hdepths
  have hdecision := (hgranted _).2 ⟨⟨"helper", 10, .ofSeconds 900⟩, ⟨⟨"w-1"⟩, 1⟩,
    ⟨⟨by decide +kernel, rfl, by decide +kernel⟩, .child hx rfl rfl, by decide, by decide +kernel,
      by decide +kernel⟩, rfl⟩
  obtain ⟨_, rfl, _⟩ := hadded _ hdecision
  subst hdecision
  exact ⟨hfresh, hdepths, _, _, hends, rfl, rfl, by decide +kernel, by decide +kernel⟩

end WorkerGuard.Spawn
