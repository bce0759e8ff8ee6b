import WorkerGuard.Proofs.Degrade.Log
import WorkerGuard.Proofs.Program.Trail

/-!
# WorkerGuard.Proofs.Degrade.Appended

What becomes of a log while a program runs, and others append to it, too.

* `appended l`: the artifacts that were appended in the exchanges `l`.
* `Log.Mingled others own all`: `all` has the artifacts of `own` in their order, with some of others
  in between.
* `Appending path others`: the environment in which an append adds a line to the log, or fails and
  leaves no trace.
* `Program.Trail.appendAll`: the log grows by what the program appended, mingled with what others
  did.
-/

namespace WorkerGuard

open Program

def Exchange.appended? : Exchange → Option Artifact
  | ⟨.appendLog a, .ok ()⟩ => some a
  | _ => none

def appended (l : List Exchange) : List Artifact := l.filterMap Exchange.appended?

@[simp] theorem appended_nil : appended [] = [] := rfl

@[simp] theorem appended_append (l l' : List Exchange) :
    appended (l ++ l') = appended l ++ appended l' :=
  List.filterMap_append

/-- Calls that append to the log. -/
def Call.Appends : Call → Prop
  | .appendLog _ => True
  | _ => False

theorem Exchange.appended?_of_not_appends {e : Exchange} (h : ¬e.call.Appends) :
    e.appended? = none := by
  obtain ⟨q, a⟩ := e
  cases q with
  | appendLog a => exact absurd trivial h
  | _ => rfl

theorem appended_of_not_appends {l : List Exchange} (h : ∀ e ∈ l, ¬e.call.Appends) :
    appended l = [] := by
  rw [appended, List.filterMap_eq_nil_iff]
  exact fun e he => Exchange.appended?_of_not_appends (h e he)

namespace Log

variable {path : String} {others : Artifact → Prop} {g g₁ g₂ : Log} {as bs : List Artifact}
variable {own own' all all' : List Artifact}

theorem appendAll_append (h : g.appendAll path as = .ok g₁) (bs : List Artifact) :
    g.appendAll path (as ++ bs) = g₁.appendAll path bs := by
  rw [appendAll, List.foldlM_append]
  exact congrArg (· >>= fun g => g.appendAll path bs) h

inductive Mingled (others : Artifact → Prop) : List Artifact → List Artifact → Prop where
  | nil : Mingled others [] []
  | own {a : Artifact} {own all : List Artifact} (h : Mingled others own all) :
      Mingled others (a :: own) (a :: all)
  | other {a : Artifact} {own all : List Artifact} (ha : others a) (h : Mingled others own all) :
      Mingled others own (a :: all)

namespace Mingled

theorem refl (own : List Artifact) : Mingled others own own := by
  induction own with
  | nil => exact .nil
  | cons a own ih => exact .own ih

theorem of_others (h : ∀ a ∈ as, others a) : Mingled others [] as := by
  induction as with
  | nil => exact .nil
  | cons a as ih =>
    obtain ⟨ha, has⟩ := List.forall_mem_cons.1 h
    exact .other ha (ih has)

theorem append (h : Mingled others own all) (h' : Mingled others own' all') :
    Mingled others (own ++ own') (all ++ all') := by
  induction h with
  | nil => exact h'
  | own _ ih => exact .own ih
  | other ha _ ih => exact .other ha ih

/-- Nobody else appended anything. -/
theorem eq_of_none (h : Mingled others own all) (hnone : ∀ a, ¬others a) : all = own := by
  induction h with
  | nil => rfl
  | own _ ih => rw [ih]
  | other ha _ _ => exact absurd ha (hnone _)

end Mingled

/-- Others have appended to the log. -/
def Grown (path : String) (others : Artifact → Prop) (g g' : Log) : Prop :=
  ∃ as, (∀ a ∈ as, others a) ∧ g.appendAll path as = .ok g'

theorem Grown.refl (path : String) (others : Artifact → Prop) (g : Log) : g.Grown path others g :=
  ⟨[], by simp, rfl⟩

end Log

def Appending (path : String) (others : Artifact → Prop) : Environment Log
  | g, .appendLog a, r, g' => ∃ g₁ : Log,
    ((r = .ok () ∧ g.append path a = .ok g₁) ∨ ((∃ why, r = .error why) ∧ g₁ = g)) ∧
      g₁.Grown path others g'
  | g, _, _, g' => g.Grown path others g'

section Appending

variable {α : Type} {path : String} {others : Artifact → Prop} {g g' : Log}

/-- An exchange adds what it appended, and then others add theirs. -/
theorem Appending.grown {q : Call} {a : q.Answer} (h : Appending path others g q a g') :
    ∃ g₁, g.appendAll path (appended [⟨q, a⟩]) = .ok g₁ ∧ g₁.Grown path others g' := by
  cases q with
  | appendLog artifact =>
    obtain ⟨g₁, ⟨rfl, happend⟩ | ⟨⟨why, rfl⟩, rfl⟩, hgrown⟩ := h
    · exact ⟨g₁, by simp [Log.appendAll, appended, Exchange.appended?, happend], hgrown⟩
    · exact ⟨_, rfl, hgrown⟩
  | _ => exact ⟨g, rfl, h⟩

theorem Program.Trail.appendAll {x : Program α} {l : List Exchange} {r : Except Halt α}
    (hr : Trail (Appending path others) x g l r g') :
    ∃ all, Log.Mingled others (appended l) all ∧ g.appendAll path all = .ok g' := by
  induction hr with
  | done => exact ⟨[], .nil, rfl⟩
  | halt => exact ⟨[], .nil, rfl⟩
  | @ask q next h h₁ h' a l r ha _ ih =>
    obtain ⟨g₁, hfirst, as, hothers, hgrown⟩ := ha.grown
    obtain ⟨all, hmingled, hrest⟩ := ih
    refine ⟨appended [⟨q, a⟩] ++ (as ++ all), ?_, ?_⟩
    · have hsplit : appended (⟨q, a⟩ :: l) = appended [⟨q, a⟩] ++ ([] ++ appended l) :=
        appended_append [⟨q, a⟩] l
      rw [hsplit]
      exact (Log.Mingled.refl _).append ((Log.Mingled.of_others hothers).append hmingled)
    · rw [Log.appendAll_append hfirst, Log.appendAll_append hgrown, hrest]

end Appending

end WorkerGuard
