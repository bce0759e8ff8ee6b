import WorkerGuard.Proofs.Breaker.Race
import WorkerGuard.Proofs.Simulation.Served
import WorkerGuard.Proofs.Spawn.Calls

/-!
# WorkerGuard.Proofs.Spawn.Granted

What comes of a request for a new worker.

* `granted l`: the workers that were registered in the exchanges `l`.
* `granted_request`: a request registers the worker that it grants, and no other.
* `Grant`, `grant_of_request`: the new worker is one deeper than its parent, no deeper than the
  settings allow, and on record.
* `excused_request`: why a request may halt.
-/

namespace WorkerGuard

open Breaker Program Simulation

def Exchange.recruit? : Exchange → Option Worker
  | ⟨.registry (.insert ..), .ok x⟩ => x
  | _ => none

def granted (l : List Exchange) : List Worker := l.filterMap Exchange.recruit?

@[simp] theorem granted_nil : granted [] = [] := rfl

@[simp] theorem granted_append (l l' : List Exchange) :
    granted (l ++ l') = granted l ++ granted l' :=
  List.filterMap_append

theorem granted_cons_of_none {e : Exchange} (he : e.recruit? = none) (l : List Exchange) :
    granted (e :: l) = granted l :=
  List.filterMap_cons_none he

theorem Exchange.recruit?_of_not_inserts {e : Exchange} (h : ¬e.call.Inserts) :
    e.recruit? = none := by
  obtain ⟨q, a⟩ := e
  cases q with
  | registry q =>
    cases q with
    | insert r c => exact absurd trivial h
    | _ => rfl
  | _ => rfl

theorem granted_of_not_inserts {l : List Exchange} (h : ∀ e ∈ l, ¬e.call.Inserts) :
    granted l = [] := by
  rw [granted, List.filterMap_eq_nil_iff]
  exact fun e he => Exchange.recruit?_of_not_inserts (h e he)

namespace Spawn

section Granted

variable {σ : Type} {E : Environment σ} {s : Settings} {q : Request} {role : Role}
variable {id : WorkerId} {h h' : σ} {l : List Exchange}

/-- The workers that a request says it has registered. -/
def registered : Except Halt (Except Registry.Error Decision) → List Worker
  | .ok (.ok (.granted x)) => [x]
  | _ => []

theorem granted_place {parent : Option WorkerId}
    {r : Except Halt (Except Registry.Error (Except Refusal Place))}
    (hr : Trail E (place id parent) h l r h') : granted l = [] := by
  have hasks : (place id parent).Asks fun q => ¬q.Inserts := by
    cases parent with
    | none => exact asks_pure _
    | some parent =>
      refine asks_bind (Program.asks_request.2 fun h => h) fun a => ?_
      split
      · exact asks_pure _
      · exact asks_pure _
      · split
        · exact asks_pure _
        · split
          · exact asks_halt _
          · exact asks_pure _
  exact granted_of_not_inserts (hr.asks hasks)

theorem granted_enroll {p : Place} {r : Except Halt (Except Registry.Error Decision)}
    (hr : Trail E (enroll s role id q p) h l r h') : granted l = registered r := by
  unfold enroll at hr
  split at hr
  · obtain ⟨rfl, rfl, _⟩ := trail_pure hr
    rfl
  · obtain ⟨now, h₁, l₁, rfl, _, hr⟩ := trail_call_bind hr
    obtain ⟨found, h₂, l₂, rfl, _, hr⟩ := trail_call_bind hr
    split at hr
    · obtain ⟨rfl, rfl, _⟩ := trail_pure hr
      rfl
    · obtain ⟨rfl, rfl, _⟩ := trail_pure hr
      rfl
    · obtain ⟨rfl, rfl, _⟩ := trail_pure hr
      rfl

theorem granted_state {b : Board} {d : Dependency} {r : Except Halt Circuit}
    (hr : Trail E (b.state d) h l r h') : granted l = [] := by
  refine granted_of_not_inserts fun e he => ?_
  obtain hq | hq := hr.asks (b.asks_state d) e he
  · rw [hq]
    exact fun h => h
  · exact hq.only.not_inserts (by decide)

theorem granted_request {r : Except Halt (Except Registry.Error Decision)}
    (hr : Trail E (request s q) h l r h') : granted l = registered r := by
  unfold request at hr
  split at hr
  · obtain ⟨rfl, rfl, _⟩ := trail_pure hr
    rfl
  · obtain ⟨circuit, h₁, l₁, l₂, rfl, hstate, hr⟩ | ⟨why, rfl, hstate⟩ := trail_bind hr
    · rw [granted_append, granted_state hstate, List.nil_append]
      split at hr
      · obtain ⟨rfl, rfl, _⟩ := trail_pure hr
        rfl
      · obtain ⟨id, h₂, l₃, rfl, _, hr⟩ := trail_call_bind hr
        rw [granted_cons_of_none rfl]
        obtain ⟨found, h₃, l₄, l₅, rfl, hplace, hr⟩ | ⟨why, rfl, hplace⟩ := trail_bind hr
        · rw [granted_append, granted_place hplace, List.nil_append]
          split at hr
          · obtain ⟨rfl, rfl, _⟩ := trail_pure hr
            rfl
          · obtain ⟨rfl, rfl, _⟩ := trail_pure hr
            rfl
          · exact granted_enroll hr
        · exact granted_place hplace
    · exact granted_state hstate

end Granted

section Served

variable {others outages : Registry.Request → Prop} {s : Settings} {q : Request} {role : Role}
variable {id parent : WorkerId} {h h' : Store} {l : List Exchange} {x : Worker}

/-- A worker at the dependency `d` who was registered under a parent, from `h` to `h'`. -/
structure Grant (s : Settings) (d : Dependency) (parent : WorkerId) (h h' : Store) (x : Worker) :
    Prop where
  depth_pos : 0 < x.depth.toNat
  depth_eq : ∀ depth, h.HasDepth parent depth → x.depth.toNat = depth.toNat + 1
  depth_le : x.depth ≤ s.governor.maxDepth
  dependency_eq : x.dependency = d
  recorded : h'.HasDepth x.id x.depth

theorem depth_of_place {p : Place}
    (hr : Trail (Served others outages) (place id (some parent)) h l (.ok (.ok (.ok p))) h') :
    0 < p.depth.toNat ∧ ∀ depth, h.HasDepth parent depth → p.depth.toNat = depth.toNat + 1 := by
  obtain ⟨found, h₁, l₁, rfl, hget, hr⟩ := trail_call_bind hr
  split at hr
  · cases (trail_pure hr).2.1
  · cases (trail_pure hr).2.1
  · rename_i w _
    split at hr
    · cases (trail_pure hr).2.1
    · split at hr
      · cases (trail_halt hr).2.1
      · rename_i hsize
        obtain ⟨_, hp, _⟩ := trail_pure hr
        cases hp
        have hplus : (w.depth + 1).toNat = w.depth.toNat + 1 := by
          have hlt := w.depth.toNat_lt
          simp only [UInt32.size] at hsize
          rw [UInt32.toNat_add, UInt32.toNat_one, Nat.mod_eq_of_lt (by omega)]
        refine ⟨Nat.lt_of_lt_of_eq (Nat.succ_pos _) hplus.symm, fun depth hd => ?_⟩
        obtain ⟨s₁, hs, _⟩ := hget.of_ok
        obtain rfl := hd.answer_get (congrArg Prod.fst hs)
        exact hplus

theorem recorded_of_enroll {p : Place}
    (hr : Trail (Served others outages) (enroll s role id q p) h l (.ok (.ok (.granted x))) h') :
    x.depth = p.depth ∧ p.depth ≤ s.governor.maxDepth ∧ x.dependency = q.dependency ∧
      h'.HasDepth x.id x.depth := by
  unfold enroll at hr
  split at hr
  · cases (trail_pure hr).2.1
  · rename_i hdepth
    obtain ⟨now, h₁, l₁, rfl, _, hr⟩ := trail_call_bind hr
    obtain ⟨found, h₂, l₂, rfl, hinsert, hr⟩ := trail_call_bind hr
    split at hr
    · cases (trail_pure hr).2.1
    · obtain ⟨_, hx, rfl⟩ := trail_pure hr
      cases hx
      obtain ⟨s₁, hs, helse⟩ := hinsert.of_ok
      obtain ⟨rfl, _, hrecord⟩ := Store.record_of_insert (congrArg Prod.fst hs)
      rw [hs] at hrecord
      refine ⟨rfl, UInt32.not_lt.1 hdepth, rfl, ?_⟩
      exact helse.keeps (fun s q _ hI => hI.answer q) ⟨_, hrecord, rfl⟩
    · cases (trail_pure hr).2.1

theorem grant_of_request (hq : q.parent = some parent)
    (hr : Trail (Served others outages) (request s q) h l (.ok (.ok (.granted x))) h') :
    Grant s q.dependency parent h h' x := by
  unfold request at hr
  split at hr
  · cases (trail_pure hr).2.1
  · obtain ⟨circuit, h₁, l₁, l₂, rfl, hstate, hr⟩ := trail_bind_ok hr
    split at hr
    · cases (trail_pure hr).2.1
    · obtain ⟨id, h₂, l₃, rfl, hid, hr⟩ := trail_call_bind hr
      obtain ⟨found, h₃, l₄, l₅, rfl, hplace, hr⟩ := trail_bind_ok hr
      split at hr
      · cases (trail_pure hr).2.1
      · cases (trail_pure hr).2.1
      · rw [hq] at hplace
        obtain ⟨hpos, hplace⟩ := depth_of_place hplace
        obtain ⟨hx, hle, hdependency, hrecorded⟩ := recorded_of_enroll hr
        rw [← hx] at hpos hplace hle
        refine ⟨hpos, fun depth hd => hplace depth ?_, hle, hdependency, hrecorded⟩
        have hkeeps : ∀ h q a h', h.HasDepth parent depth → Served others outages h q a h' →
            h'.HasDepth parent depth :=
          fun _ _ _ _ hI hs => hs.keeps_of_answer (fun _ r hI => hI.answer r) hI
        exact hkeeps _ _ _ _ (hstate.preserves hkeeps hd) hid

end Served

section Excused

variable {σ : Type} {E : Environment σ} {I : σ → Prop} {R : Prop} {s : Settings} {q : Request}
variable (hI : ∀ h q a h', I h → E h q a h' → I h')
include hI

/-- Only a parent as deep as can be is out of range. -/
theorem excused_request (n : Nat) (hdepth : ∀ h parent p h', I h → q.parent = some parent →
      E h (.registry (.get parent)) (.ok (some p)) h' → p.depth.toNat + 1 = UInt32.size → R) :
    Excused E I n R (request s q) := by
  have hplace : ∀ id, Excused E I n R (place id q.parent) := by
    intro id h l why h' hh hr
    cases hparent : q.parent with
    | none =>
      rw [hparent] at hr
      cases (trail_pure hr).2.1
    | some parent =>
      rw [hparent] at hr
      obtain ⟨found, h₁, l₁, rfl, hget, hr⟩ := trail_call_bind hr
      split at hr
      · cases (trail_pure hr).2.1
      · cases (trail_pure hr).2.1
      · split at hr
        · cases (trail_pure hr).2.1
        · split at hr
          · rename_i hsize
            obtain ⟨_, hwhy, _⟩ := trail_halt hr
            cases hwhy
            exact .inr ⟨rfl, hdepth _ _ _ _ hh hparent hget hsize⟩
          · cases (trail_pure hr).2.1
  have henroll : ∀ role id p, Excused E I n R (enroll s role id q p) := by
    intro role id p
    unfold enroll
    split
    · exact excused_pure
    · refine excused_bind hI excused_call fun now => excused_bind hI excused_call fun found => ?_
      split <;> exact excused_pure
  unfold request
  split
  · exact excused_pure
  · refine excused_bind hI (Board.total_state _ _).excused fun circuit => ?_
    split
    · exact excused_pure
    · refine excused_bind hI excused_call fun id => excused_bind hI (hplace id) fun found => ?_
      split
      · exact excused_pure
      · exact excused_pure
      · exact henroll _ _ _

end Excused
end Spawn
end WorkerGuard
