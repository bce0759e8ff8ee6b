import WorkerGuard.Program

/-!
# WorkerGuard.Proofs.Program.Effect

What a call does that others have to reckon with.

* `Call.effect?`: the effect of a call. All other calls look at something, or keep what nobody else
  looks at.
* `Call.Only es`: the call has no effect but those in the list `es`. Each class of calls is put into
  such a list once; whatever takes an effect outside of the list is then not among the class.
-/

namespace WorkerGuard

inductive Effect where
  /-- A dependency is called. -/
  | attempt
  | sleep
  /-- A dependency is held open in the process, or given free. -/
  | force
  /-- A worker is registered. -/
  | insert
  /-- The row of a breaker is replaced, if it is the expected one. -/
  | swap
  /-- The same for the word. -/
  | exchange
  | append
  deriving DecidableEq

def Call.effect? : Call → Option Effect
  | .attempt .. => some .attempt
  | .sleep _ => some .sleep
  | .setForced .. => some .force
  | .registry (.insert ..) => some .insert
  | .registry (.swapBreaker ..) => some .swap
  | .exchangeWord .. => some .exchange
  | .appendLog _ => some .append
  | _ => none

def Call.Only (es : List Effect) (q : Call) : Prop := ∀ e, q.effect? = some e → e ∈ es

theorem Call.Only.not_effect {es : List Effect} {q : Call} (h : q.Only es) {e : Effect}
    (he : e ∉ es) : q.effect? ≠ some e :=
  fun hq => he (h e hq)

theorem Call.Only.mono {es es' : List Effect} {q : Call} (h : q.Only es) (hes : es ⊆ es') :
    q.Only es' :=
  fun e he => hes (h e he)

end WorkerGuard
