import Mathlib.Data.List.Chain
import WorkerGuard.Proofs.Task.Closing
import WorkerGuard.Proofs.Task.Yields

/-!
# WorkerGuard.Proofs.Task.Generations

The workers of a run from the first one to the last helper, and the order in which their runs end.

* `endings es`: the workers whose runs have ended by the account `es`, each with its outcome.
* `Lined`: who has ended, who waits to begin and who is at work are the first worker and all who
  were granted, each one a helper of the next, the last one who was granted first.
* `Standing.lined`: so it is at every standing of a run. When nobody is at work any more, all have
  ended, each helper before its parent.
-/

namespace WorkerGuard

open Program Simulation

namespace Spawn

variable {others outages : Registry.Request → Prop} {s : Settings} {q : Request} {role : Role}
variable {id : WorkerId} {p : Place} {h h' : Store} {l : List Exchange} {x : Worker}

theorem parent_of_enroll
    (hr : Trail (Served others outages) (enroll s role id q p) h l (.ok (.ok (.granted x))) h') :
    x.parent = q.parent := by
  unfold enroll at hr
  split at hr
  · cases (trail_pure hr).2.1
  · obtain ⟨now, h₁, l₁, rfl, _, hr⟩ := trail_call_bind hr
    obtain ⟨found, h₂, l₂, rfl, hinsert, hr⟩ := trail_call_bind hr
    split at hr
    · cases (trail_pure hr).2.1
    · obtain ⟨_, hx, rfl⟩ := trail_pure hr
      cases hx
      obtain ⟨s₁, hs, _⟩ := hinsert.of_ok
      obtain ⟨rfl, _⟩ := Store.record_of_insert (congrArg Prod.fst hs)
      rfl
    · cases (trail_pure hr).2.1

theorem parent_of_request
    (hr : Trail (Served others outages) (request s q) h l (.ok (.ok (.granted x))) h') :
    x.parent = q.parent := by
  unfold request at hr
  split at hr
  · cases (trail_pure hr).2.1
  · obtain ⟨circuit, h₁, l₁, l₂, rfl, _, hr⟩ := trail_bind_ok hr
    split at hr
    · cases (trail_pure hr).2.1
    · obtain ⟨id, h₂, l₃, rfl, _, hr⟩ := trail_call_bind hr
      obtain ⟨found, h₃, l₄, l₅, rfl, _, hr⟩ := trail_bind_ok hr
      split at hr
      · cases (trail_pure hr).2.1
      · cases (trail_pure hr).2.1
      · exact parent_of_enroll hr

end Spawn

namespace Task

variable {σ : Type} {E : Environment σ} {s : Settings} {task : Task} {w x : Worker}
variable {H h h' : σ} {hd : Head} {stack : List Head} {es : List (Entry σ)} {l : List Exchange}
variable {c c' : Course} {a : Action} {e : Event} {o : Outcome} {limits : Limits}
variable {others outages : Registry.Request → Prop}

/-- Whoever is granted has the worker who asked as its parent. -/
theorem parent_of_perform {run : Worker → Program Outcome} {started : Instant} {h h' : Store}
    {kind : Failure.RetryableKind} (hr : Trail (Served others outages)
      (perform s task run w started (.requestSpawn kind) c) h l (.ok (e, c')) h') :
    ∀ x ∈ granted l, x.parent = some w.id := by
  obtain ⟨decision, h₁, l₁, l₂, rfl, hrequest, hr⟩ := trail_bind_ok hr
  have hgranted := Spawn.granted_request hrequest
  intro x hx
  split at hr
  · obtain ⟨rfl, _, _⟩ := trail_pure hr
    rw [List.append_nil, hgranted] at hx
    obtain rfl := List.mem_singleton.1 hx
    exact Spawn.parent_of_request hrequest
  · obtain ⟨rfl, _, _⟩ := trail_pure hr
    rw [List.append_nil, hgranted] at hx
    cases hx
  · obtain ⟨rfl, _, _⟩ := trail_pure hr
    rw [List.append_nil, hgranted] at hx
    cases hx

/-- Only the run of a helper who was granted lets it wait no longer. -/
theorem ActionStep.helper_due (h : ActionStep limits c a e c')
    (hc : ∀ x, c.helper = some x → c.Due (.runHelper x.id)) :
    ∀ x, c'.helper = some x → c'.Due (.runHelper x.id) := by
  intro x hx
  cases h with
  | granted hdue =>
    cases hx
    exact ⟨rfl, rfl⟩
  | helped => cases hx
  | unhelped => cases hx
  | succeeded hdue | pruned hdue | retried hdue | asked hdue | gaveUp hdue | exhausted hdue
  | refused hdue | recorded hdue | unrecorded hdue => cases eq_of_due (hc x hx) hdue

theorem Standing.helper_due (hs : Standing E s task w H stack es h) :
    ∀ hd ∈ stack, ∀ x, hd.course.helper = some x → hd.course.Due (.runHelper x.id) := by
  have hopening : ∀ x, opening.helper = some x → opening.Due (.runHelper x.id) := by
    intro x hx
    cases hx
  refine fun hd hmem => (hs.heads (P := fun hd _ => Agrees hd.course ∧
    ∀ x, hd.course.helper = some x → hd.course.Due (.runHelper x.id)) ?_ ?_ ?_ ?_ ?_ hd hmem).2
  · intro hd h q a h' hP _
    exact hP
  · intro t h _
    exact ⟨agrees_opening, hopening⟩
  · rintro hd h h' a queue e c l ⟨hagrees, hhelper⟩ hq hx hp
    have hstep := hagrees.step hq hx hp
    exact ⟨hstep.agrees, hstep.helper_due hhelper⟩
  · intro hd h x queue n t _ _ _
    exact ⟨agrees_opening, hopening⟩
  · rintro hd h x queue o ⟨hagrees, hhelper⟩ hx
    have hstep := hagrees.rejoin (s := s) hx o
    exact ⟨hstep.agrees, hstep.helper_due hhelper⟩

/-- Whoever does something else has no helper that waits. -/
theorem Standing.helper_none {below : List Head}
    (hs : Standing E s task w H (hd :: below) es h) (hx : ∀ x, ¬hd.Calls x []) :
    hd.course.helper = none := by
  cases hhelper : hd.course.helper with
  | none => rfl
  | some x =>
    have hdue := hs.helper_due hd (List.mem_cons_self ..) x hhelper
    exact absurd ⟨hdue.1, hhelper⟩ (hx x)

def Entry.ending? : Entry σ → Option (Worker × Outcome)
  | ended x o _ _ => some (x, o)
  | _ => none

def endings (es : List (Entry σ)) : List (Worker × Outcome) := es.filterMap Entry.ending?

@[simp] theorem endings_append (es es' : List (Entry σ)) :
    endings (es ++ es') = endings es ++ endings es' :=
  List.filterMap_append

/-- Those whose runs have ended. -/
def gone (es : List (Entry σ)) : List Worker := (endings es).map Prod.fst

@[simp] theorem gone_append (es es' : List (Entry σ)) : gone (es ++ es') = gone es ++ gone es' := by
  simp [gone]

/-- The helper of the innermost worker, before it begins. -/
def waiting : List Head → List Worker
  | [] => []
  | hd :: _ => hd.course.helper.toList

/-- The youngest first. -/
structure Lined (w : Worker) (stack : List Head) (es : List (Entry σ)) : Prop where
  order : gone es ++ waiting stack ++ stack.map Head.worker = (w :: granted (calls es)).reverse
  parents : (w :: granted (calls es)).reverse.IsChain fun x y => x.parent = some y.id
  /-- Nobody asks for a helper after the first one has ended. -/
  yields : gone es ≠ [] → ∀ hd ∈ stack.head?, hd.Yields

namespace Lined

variable {below : List Head} {entry : Entry σ}

/-- An entry in which nobody is granted and nobody ends. -/
theorem quiet {stack' : List Head} (hl : Lined w stack es) (hgranted : granted entry.exchanges = [])
    (hending : entry.ending? = none)
    (hstack : waiting stack' ++ stack'.map Head.worker = waiting stack ++ stack.map Head.worker)
    (hyields : (∀ hd ∈ stack.head?, hd.Yields) → ∀ hd ∈ stack'.head?, hd.Yields) :
    Lined w stack' (es ++ [entry]) := by
  have hgone : gone (es ++ [entry]) = gone es := by simp [gone, endings, hending]
  have hcalls : granted (calls (es ++ [entry])) = granted (calls es) := by simp [hgranted]
  refine ⟨?_, ?_, ?_⟩
  · rw [hgone, hcalls, ← hl.order, List.append_assoc, hstack, ← List.append_assoc]
  · rw [hcalls]
    exact hl.parents
  · rw [hgone]
    exact fun hne => hyields (hl.yields hne)

theorem grants {hd' : Head} (hl : Lined w (hd :: below) es) (hnone : gone es = [])
    (hhelper : hd.course.helper = none) (hworker : hd'.worker = hd.worker)
    (hhelper' : hd'.course.helper = some x) (hending : entry.ending? = none)
    (hgranted : granted entry.exchanges = [x]) (hparent : x.parent = some hd.worker.id) :
    Lined w (hd' :: below) (es ++ [entry]) := by
  have hgone : gone (es ++ [entry]) = [] := by simpa [gone, endings, hending] using hnone
  have hcalls : (w :: granted (calls (es ++ [entry]))).reverse =
      x :: (w :: granted (calls es)).reverse := by simp [hgranted]
  have horder : hd.worker :: below.map Head.worker = (w :: granted (calls es)).reverse := by
    simpa [hnone, waiting, hhelper] using hl.order
  refine ⟨?_, ?_, fun hne => absurd hgone hne⟩
  · rw [hgone, hcalls, ← horder]
    simp [waiting, hhelper', hworker]
  · rw [hcalls]
    refine hl.parents.cons fun y hy => ?_
    rw [← horder] at hy
    cases hy
    exact hparent

end Lined

theorem Standing.lined {store : σ → Store}
    (hE : ∀ h q a h', E h q a h' → Served others outages (store h) q a (store h'))
    (hs : Standing E s task w H stack es h) : Lined w stack es := by
  induction hs with
  | start _ =>
    refine ⟨rfl, ?_, fun hne => absurd rfl hne⟩
    exact .singleton w
  | @step hd below es h h' a queue e c l hs hq hx hp ih =>
    have hagrees := hs.agrees
    obtain ⟨hdue, hown⟩ := (hagrees hd (List.mem_cons_self ..)).due_of_queue hq hx
    have hhelper : hd.course.helper = none := hs.helper_none fun x hcalls => by
      have hsame := hcalls.1
      rw [hq] at hsame
      cases hsame
      exact hx x hcalls
    obtain ⟨hnone, hsame, _⟩ | ⟨x, kind, rfl, rfl, hgrant, hgranted, _⟩ :=
      granted_perform hown (hp.map hE)
    · refine ih.quiet hnone rfl ?_ fun hyields => ?_
      · have hafter : (c.after e (.ofSettings s.policy)).helper = hd.course.helper := hsame
        simp [waiting, Head.stepped, hafter]
      · exact ((Advance.step ⟨queue, hq, hx, hp⟩).yields hagrees hyields).2.2
    · refine ih.grants ?_ hhelper rfl hgrant rfl hgranted ?_
      · by_contra hne
        obtain ⟨reason, hwrite, _⟩ := (ih.yields hne hd rfl).next hq
        cases hwrite
      · exact parent_of_perform (hp.map hE) x (by rw [hgranted]; exact List.mem_singleton_self x)
  | @helper hd below es h h' x queue n t hs hx hn ha ih =>
    refine ih.quiet rfl rfl ?_ fun hyields => absurd hx (hyields hd rfl).not_calls
    simp [waiting, hx.2, opening]
  | @back hd parent below es h h' queue o l hs hq hx hp ih =>
    have hhelper : hd.course.helper = none :=
      hs.helper_none fun x hcalls => List.cons_ne_nil _ _ (hcalls.1.symm.trans hq)
    have hcalls : granted (calls (es ++ [.ended hd.worker o h l, .did parent.worker
        parent.course.state (.runHelper hd.worker.id) o.event []])) = granted (calls es) := by
      simp [Entry.exchanges, granted_finish hp]
    refine ⟨?_, by rw [hcalls]; exact ih.parents, fun _ => ?_⟩
    · rw [hcalls, ← ih.order]
      simp [gone, endings, Entry.ending?, waiting, hhelper, Head.rejoined, Head.stepped,
        Course.after]
    · simpa using yields_rejoined (hs.agrees parent (by simp)) hx o
  | @finished hd es h h' o l hs hq hp ih =>
    have hhelper : hd.course.helper = none :=
      hs.helper_none fun x hcalls => List.cons_ne_nil _ _ (hcalls.1.symm.trans hq)
    have hcalls : granted (calls (es ++ [.ended hd.worker o h l])) = granted (calls es) := by
      simp [Entry.exchanges, granted_finish hp]
    refine ⟨?_, by rw [hcalls]; exact ih.parents, fun _ => by simp⟩
    rw [hcalls, ← ih.order]
    simp [gone, endings, Entry.ending?, waiting, hhelper]

end Task
end WorkerGuard
