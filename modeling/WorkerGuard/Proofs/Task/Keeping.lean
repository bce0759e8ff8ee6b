import WorkerGuard.Proofs.Simulation.Alone
import WorkerGuard.Proofs.Task.Agreement

/-!
# WorkerGuard.Proofs.Task.Keeping

What attempts keep, whole runs keep.

* `Call.Waits`, `Call.Idle`: calls that neither go to a dependency nor write what a breaker is kept in,
  but for words that follow a row.
* `Retry.keeps_execute`: all calls of an execution are parts of attempts, or waits.
* `Task.keeps_run`: all calls of a run are parts of attempts, or idle.
* `Standing.dependency`: all workers of a run call the same dependency.
-/

namespace WorkerGuard

open Program Simulation

/-- What is done between two attempts. -/
def Call.Waits : Call → Prop
  | .enlist _ | .sleep _ | .jitter => True
  | _ => False

def Call.Idle : Call → Prop
  | .registry (.swapBreaker ..) => False
  | .exchangeWord .. => False
  | .attempt .. => False
  | _ => True

theorem Call.Waits.only {q : Call} (h : q.Waits) : q.Only [.sleep] := by
  intro e he
  cases q with
  | enlist d' => cases he
  | sleep t => cases he; simp
  | jitter => cases he
  | _ => cases h

theorem Call.Idle.only {q : Call} (h : q.Idle) : q.Only [.sleep, .force, .insert, .append] := by
  intro e he
  cases q with
  | registry q =>
    cases q with
    | insert r c => cases he; simp
    | swapBreaker d' expected next => cases h
    | _ => cases he
  | sleep t => cases he; simp
  | setForced d' forced => cases he; simp
  | appendLog a => cases he; simp
  | exchangeWord d' old new => cases h
  | attempt d' bound => cases h
  | _ => cases he

theorem Call.Only.idle {es : List Effect} {q : Call} (h : q.Only es)
    (hes : .attempt ∉ es ∧ .swap ∉ es ∧ .exchange ∉ es) : q.Idle := by
  cases q with
  | registry q =>
    cases q with
    | swapBreaker d' expected next => exact absurd rfl (h.not_effect hes.2.1)
    | _ => trivial
  | exchangeWord d' old new => exact absurd rfl (h.not_effect hes.2.2)
  | attempt d' bound => exact absurd rfl (h.not_effect hes.1)
  | _ => trivial

namespace Breaker

theorem Board.asks_idle_state (b : Board) (d : Dependency) : (b.state d).Asks Call.Idle := by
  refine asks_bind (asks_bind (asks_call.2 trivial) fun _ => asks_pure _) fun handle => ?_
  refine asks_bind (asks_call.2 trivial) fun forced => ?_
  have hcurrent : handle.current.Asks Call.Idle := by
    unfold Breaker.current
    split
    · refine asks_bind (asks_request.2 trivial) fun found => ?_
      split
      · exact asks_bind (asks_call.2 trivial) fun _ => asks_pure _
      · exact asks_bind (asks_call.2 trivial) fun _ => asks_pure _
    · exact asks_bind (asks_call.2 trivial) fun _ => asks_pure _
  cases forced with
  | true => exact asks_pure _
  | false => exact asks_bind hcurrent fun _ => asks_pure _

end Breaker

theorem Spawn.asks_idle_request (s : Settings) (q : Request) : (request s q).Asks Call.Idle := by
  unfold request
  split
  · exact asks_pure _
  · rename_i role hrole
    refine asks_bind (Breaker.Board.asks_idle_state _ _) fun circuit => ?_
    split
    · exact asks_pure _
    · exact (asks_placing hrole).mono fun _ hq => hq.only.idle (by decide)

section Keeps

variable {σ : Type} {E : Environment σ} {J K : List Exchange → σ → Prop} {d : Dependency}

/-- An attempt keeps `J`, if its number is no larger than the number of attempts before it. -/
def Retry.KeepsTries (E : Environment σ) (J K : List Exchange → σ → Prop) (b : Breaker) : Prop :=
  ∀ ⦃bound made l h l' r h'⦄, J l h → made ≤ l.countP Exchange.isAttempt →
    Trail E (tryOnce b bound made) h l' r h' →
      J (l ++ l') h' ∨ (r = .error .contention ∧ K (l ++ l') h')

/-- Calls of a sort keep `J`. -/
def KeepsCalls (E : Environment σ) (J : List Exchange → σ → Prop) (P : Call → Prop) : Prop :=
  ∀ q, P q → ∀ ⦃l h a h'⦄, J l h → E h q a h' → J (l ++ [⟨q, a⟩]) h'

namespace Retry

variable {b : Breaker} {p : Policy}

/-- Who is not refused makes an attempt. -/
theorem tryOnce_made {bound : Duration} {made : Nat} {h h' : σ} {l : List Exchange}
    {o : Except Failure.CallError Json} (hr : Trail E (tryOnce b bound made) h l (.ok (some o)) h') :
    1 ≤ l.countP Exchange.isAttempt := by
  obtain ⟨allowed, h₁, l₁, l₂, rfl, hallow, hr⟩ := trail_bind_ok hr
  split at hr
  · obtain ⟨outcome, h₂, l₃, rfl, _, hr⟩ := trail_call_bind hr
    rw [List.countP_append, List.countP_cons]
    show 1 ≤ _ + (_ + 1)
    omega
  · cases (trail_pure hr).2.1

theorem KeepsTries.of_ok (htry : KeepsTries E J K b) {bound : Duration} {made : Nat}
    {l l' : List Exchange} {h h' : σ} {o : Option (Except Failure.CallError Json)} (hJ : J l h)
    (hmade : made ≤ l.countP Exchange.isAttempt)
    (hr : Trail E (tryOnce b bound made) h l' (.ok o) h') : J (l ++ l') h' :=
  (htry hJ hmade hr).resolve_right fun hK => nomatch hK.1

theorem keeps_attempts (htry : KeepsTries E J K b) (hwait : KeepsCalls E J Call.Waits)
    {left made : Nat} {bound : Duration} {delays : List Duration} {l l' : List Exchange} {h h' : σ}
    {r : Except Halt (Except GivenUp Json)} (hJ : J l h) (hmade : made ≤ l.countP Exchange.isAttempt)
    (hr : Trail E (attempts b p left made bound delays) h l' r h') :
    J (l ++ l') h' ∨ (r = .error .contention ∧ K (l ++ l') h') := by
  induction left generalizing made bound delays l h l' with
  | zero =>
    unfold attempts at hr
    obtain ⟨o, h₁, l₁, l₂, rfl, hfirst, hr⟩ | ⟨why, rfl, hfirst⟩ := trail_bind hr
    · have hJ := htry.of_ok hJ hmade hfirst
      rw [← List.append_assoc]
      split at hr
      · exact keeps_pure _ hJ hr
      · exact keeps_pure _ hJ hr
      · exact keeps_pure _ hJ hr
    · exact (htry hJ hmade hfirst).imp_right (And.imp_left contention_of_error)
  | succ left ih =>
    unfold attempts at hr
    obtain ⟨o, h₁, l₁, l₂, rfl, hfirst, hr⟩ | ⟨why, rfl, hfirst⟩ := trail_bind hr
    · have hJ := htry.of_ok hJ hmade hfirst
      rw [← List.append_assoc]
      split at hr
      · exact keeps_pure _ hJ hr
      · exact keeps_pure _ hJ hr
      · rename_i e
        have hcount : made + 1 ≤ (l ++ l₁).countP Exchange.isAttempt := by
          have hone := tryOnce_made hfirst
          rw [List.countP_append]
          omega
        dsimp only at hr
        split at hr
        · have hwaits := (asks_delayAfter p made (Failure.classify e)).mono
            (Q := Call.Waits) (by rintro q rfl; trivial)
          have hdelays : Keeps E J K (delayAfter p made (Failure.classify e)) :=
            keeps_of_asks hwaits hwait
          obtain ⟨delay, h₂, l₃, l₄, rfl, hdelay, hr⟩ | ⟨why, rfl, hdelay⟩ := trail_bind hr
          · have hJ := hdelays.of_ok hJ hdelay
            obtain ⟨u, h₃, l₅, rfl, hsleep, hr⟩ := trail_call_bind hr
            have hJ := hwait (.sleep delay) trivial hJ hsleep
            have hrest := ih hJ ?_ hr
            · simpa using hrest
            · simp only [List.countP_append] at hcount ⊢
              omega
          · exact (hdelays hJ hdelay).imp_right (And.imp_left contention_of_error)
        · exact keeps_pure _ hJ hr
    · exact (htry hJ hmade hfirst).imp_right (And.imp_left contention_of_error)

theorem keeps_execute {board : Breaker.Board} (htry : KeepsTries E J K (board.breaker d))
    (hwait : KeepsCalls E J Call.Waits) : Keeps E J K (execute board d p) := by
  intro l h l' r h' hJ hr
  obtain ⟨_, h₁, l₁, rfl, henlist, hr⟩ := trail_call_bind hr
  rw [List.append_cons]
  exact keeps_attempts htry hwait (hwait (.enlist d) trivial hJ henlist) (Nat.zero_le _) hr

end Retry

namespace Task

variable {s : Settings} {task : Task} {w : Worker} {a : Action} {c : Course} {started : Instant}

theorem keeps_runRound (htry : Retry.KeepsTries E J K ((s.board true).breaker w.dependency))
    (hidle : KeepsCalls E J Call.Idle) (round : UInt32) :
    Keeps E J K (runRound s w started round c) := by
  refine keeps_bind ?_ fun alive => ?_
  · exact keeps_of_asks ((asks_isAlive w).mono fun _ hq => hq.only.idle (by decide)) hidle
  · split
    · have hwait : KeepsCalls E J Call.Waits := fun q hq => hidle q (hq.only.idle (by decide))
      refine keeps_bind (Retry.keeps_execute htry hwait) fun result => ?_
      split
      · exact keeps_pure _
      · refine keeps_bind (keeps_of_asks (Breaker.Board.asks_idle_state _ _) hidle) fun _ => ?_
        refine keeps_bind (keeps_of_asks (asks_call.2 ?_) hidle) fun _ => keeps_pure _
        trivial
    · exact keeps_pure _

theorem keeps_perform (ha : a.IsOwn)
    (htry : Retry.KeepsTries E J K ((s.board true).breaker w.dependency))
    (hidle : KeepsCalls E J Call.Idle) (run : Worker → Program Outcome) :
    Keeps E J K (perform s task run w started a c) := by
  cases a with
  | runRound round => exact keeps_runRound htry hidle round
  | requestSpawn kind =>
    refine keeps_bind (keeps_of_asks (Spawn.asks_idle_request _ _) hidle) fun decision => ?_
    split <;> exact keeps_pure _
  | runHelper id => exact absurd rfl (ha id)
  | writeDegrade reason =>
    have hasks : (perform s task run w started (.writeDegrade reason) c).Asks Call.Idle :=
      (asks_perform_writeDegrade reason c).mono fun _ hq => hq.only.idle (by decide)
    exact keeps_of_asks hasks hidle

variable {others outages : Registry.Request → Prop} {store : σ → Store} {H h : σ}
variable {stack : List Head} {es : List (Entry σ)}
variable (hE : ∀ h q a h', E h q a h' → Served others outages (store h) q a (store h'))
include hE

/-- The helper who waits to begin calls the same dependency as his parent. -/
theorem Standing.dependency (hs : Standing E s task w H stack es h) :
    ∀ hd ∈ stack, hd.worker.dependency = w.dependency := by
  intro hd hmem
  refine (hs.lineage hE (P := fun _ x _ => x.dependency = w.dependency)
    (Q := fun _ _ y _ => y.dependency = w.dependency) ?_ ?_ rfl ?_ ?_ hd hmem).1
  · intro n x h q a h' hx _
    exact hx
  · intro n x y h q a h' hy _
    exact hy
  · intro n x y h h' hx hgranted
    exact hgranted.dependency_eq.trans hx
  · intro n x y h hy
    exact hy

variable (htry : Retry.KeepsTries E J K ((s.board true).breaker w.dependency))
variable (hidle : KeepsCalls E J Call.Idle)
include htry hidle

theorem Standing.keeping {before : List Exchange} (hJ : J before H)
    (hs : Standing E s task w H stack es h) : J (before ++ calls es) h := by
  have hfinish : ∀ x c, Keeps E J K (finish s x c) := fun x c =>
    keeps_of_asks ((asks_finish s x c).mono fun _ hq => hq.only.idle (by decide)) hidle
  induction hs with
  | start ha => exact hidle .now trivial hJ ha
  | @step hd below es h h' a queue e c l hs hq hx hp ih =>
    have hown := ((hs.agrees hd (List.mem_cons_self ..)).due_of_queue hq hx).2
    rw [← hs.dependency hE hd (List.mem_cons_self ..)] at htry
    simpa [Entry.exchanges] using (keeps_perform hown htry hidle _).of_ok ih hp
  | helper _ _ _ ha ih => simpa [Entry.exchanges] using hidle .now trivial ih ha
  | back _ _ _ hp ih => simpa [Entry.exchanges] using (hfinish _ _).of_ok ih hp
  | finished _ _ hp ih => simpa [Entry.exchanges] using (hfinish _ _).of_ok ih hp

theorem keeps_run : Keeps E J K (run s task w) := by
  intro before H l r h' hJ hr
  obtain ⟨o, es, mid, l', rfl, hs, rfl⟩ | ⟨why, hd, below, es, l', h₁, rfl, hs, rfl, hstuck⟩ :=
    run_stands hr
  · refine .inl ?_
    simpa [Entry.exchanges] using hs.keeping hE htry hidle hJ
  · have hJ := hs.keeping hE htry hidle hJ
    rw [← List.append_assoc]
    cases hstuck with
    | steps _ =>
      rw [List.append_nil]
      exact .inl hJ
    | generations _ _ =>
      rw [List.append_nil]
      exact .inl hJ
    | action hq hx hp =>
      have hown := ((hs.agrees hd (List.mem_cons_self ..)).due_of_queue hq hx).2
      rw [← hs.dependency hE hd (List.mem_cons_self ..)] at htry
      exact (keeps_perform hown htry hidle _ hJ hp).imp_right (And.imp_left contention_of_error)

end Task
end Keeps
end WorkerGuard
