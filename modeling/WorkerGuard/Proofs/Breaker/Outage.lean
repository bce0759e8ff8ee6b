import WorkerGuard.Proofs.Breaker.Handles
import WorkerGuard.Proofs.Program.Steady

/-!
# WorkerGuard.Proofs.Breaker.Outage

A handle whose registry can be reached at some times and not at others.

* `Moment`: a reading of the clock, and what becomes then of the two requests that a handle makes.
* `Sides`: the condition of the row and the condition of the word. `Sides.met` is the one that a
  step works on, `Sides.left` is what it leaves.
* `OperationAt`: an operation at a moment. `OperationAt.perform_shows`: it does what the two
  conditions say.
* `OperationAt.performAll_shows`: so does a sequence of operations.
-/

namespace WorkerGuard

open Program Simulation

namespace Breaker

/-- A reading of the clock, and the errors that a load and a swap of the row meet then, if any. No
operation makes one of these requests twice, if nobody else writes the row. -/
structure Moment where
  now : Instant
  load : Option Registry.Error
  swap : Option Registry.Error

namespace Moment

variable {m : Moment} {d : Dependency} {w : World}

/-- An error comes back before anything is done. -/
def outage? (m : Moment) (d : Dependency) : (q : Call) → Option q.Answer
  | .registry (.loadBreaker d') => if d' = d then m.load.map .error else none
  | .registry (.swapBreaker d' _ _) => if d' = d then m.swap.map .error else none
  | _ => none

/-- All else is answered as it is to the only handle of a breaker. -/
def answer (m : Moment) (d : Dependency) (w : World) (q : Call) : q.Answer × World :=
  match m.outage? d q with
  | some a => (a, w)
  | none => answerAt m.now d w q

/-- The step is made on the row if nothing is in the way of its requests. -/
def reaches (m : Moment) (step : Step) (c : Condition) : Bool :=
  m.load.isNone && (m.swap.isNone || (step c m.now.millis.toNat).isNone)

theorem answer_word (m : Moment) (d : Dependency) (w : World) :
    m.answer d w (.word d) = (w.word, w) := by
  simp [answer, outage?, answerAt, World.serve]

theorem answer_setWord (m : Moment) (d : Dependency) (w : World) (n : UInt64) :
    m.answer d w (.setWord d n) = ((), { w with word := n }) := by
  simp [answer, outage?, answerAt, World.serve]

theorem answer_exchangeWord (m : Moment) (d : Dependency) (w : World) (n : UInt64) :
    m.answer d w (.exchangeWord d w.word n) = (w.word, { w with word := n }) := by
  simp [answer, outage?, answerAt, World.serve]

theorem answer_registry {q : Registry.Request} (h : m.outage? d (.registry q) = none) :
    m.answer d w (.registry q) =
      ((w.store.answer q).1, { w with store := (w.store.answer q).2 }) := by
  rw [answer, h]
  rfl

theorem answer_load_error {why : Registry.Error} (h : m.load = some why) :
    m.answer d w (.registry (.loadBreaker d)) = (.error why, w) := by
  simp [answer, outage?, h]

theorem answer_swap_error {row next : Row} {why : Registry.Error} (h : m.swap = some why) :
    m.answer d w (.registry (.swapBreaker d row next)) = (.error why, w) := by
  simp [answer, outage?, h]

theorem answer_load {row : Row} (h : m.load = none) (hrow : w.store.Holds d row) :
    m.answer d w (.registry (.loadBreaker d)) = (.ok row, w) := by
  rw [answer_registry (by simp [outage?, h]), hrow.answer_load]

theorem answer_swap {row : Row} (h : m.swap = none) (hrow : w.store.Holds d row) (c : Condition) :
    ∃ store : Store, store.Holds d c.toRow ∧
      m.answer d w (.registry (.swapBreaker d row c.toRow)) = (.ok true, { w with store }) := by
  obtain ⟨store, hanswer, hstore⟩ := hrow.answer_swap c
  exact ⟨store, hstore, by rw [answer_registry (by simp [outage?, h]), hanswer]⟩

end Moment

/-- The condition of the row, and the one of the word. -/
structure Sides where
  row : Condition
  word : Condition

namespace Sides

variable {b : Breaker} {m : Moment} {s : Sides} {w : World} {step : Step}

def Shows (d : Dependency) (s : Sides) (w : World) : Prop :=
  (∃ row, w.store.Holds d row ∧ Condition.ofRow row = s.row) ∧ decode w.word = s.word

def met (m : Moment) (step : Step) (s : Sides) : Condition :=
  if m.reaches step s.row then s.row else s.word

/-- The word follows the row, but the row does not follow the word. -/
def left (m : Moment) (step : Step) (s : Sides) : Sides :=
  let last := (step (s.met m step) m.now.millis.toNat).getD (s.met m step)
  if m.reaches step s.row then ⟨last, last⟩ else { s with word := last }

theorem met_of_reaches (h : m.reaches step s.row = true) : s.met m step = s.row := if_pos h

theorem met_of_not_reaches (h : m.reaches step s.row = false) : s.met m step = s.word := by
  rw [met, h]
  rfl

theorem left_of_reaches (h : m.reaches step s.row = true) :
    s.left m step = ⟨(step s.row m.now.millis.toNat).getD s.row,
      (step s.row m.now.millis.toNat).getD s.row⟩ := by
  rw [left, met_of_reaches h, if_pos h]

theorem left_of_not_reaches (h : m.reaches step s.row = false) :
    s.left m step = { s with word := (step s.word m.now.millis.toNat).getD s.word } := by
  rw [left, met_of_not_reaches h, h]
  rfl

theorem ends_reading (m : Moment) (d : Dependency) (w : World) :
    Ends (m.answer d) reading w m.now.millis.toNat w := rfl

/-- A step on the word. -/
theorem Shows.transactLocal (hs : s.Shows b.dependency w) (hp : 0 < b.patience) (m : Moment)
    (step : Step) :
    ∃ w', Ends (m.answer b.dependency) (b.transactLocal step) w
        ⟨s.word, step s.word m.now.millis.toNat⟩ w' ∧
      Shows b.dependency { s with word := (step s.word m.now.millis.toNat).getD s.word } w' := by
  obtain ⟨hrow, hword⟩ := hs
  obtain ⟨tries, htries⟩ := Nat.exists_eq_succ_of_ne_zero (Nat.pos_iff_ne_zero.1 hp)
  cases hstep : step s.word m.now.millis.toNat with
  | none =>
    refine ⟨w, ?_, hrow, hword⟩
    rw [Breaker.transactLocal, htries]
    refine ends_call_bind_of_eq (m.answer_word b.dependency w) ?_
    refine ends_bind (ends_reading m b.dependency w) ?_
    rw [hword, hstep]
    exact ends_pure _
  | some c =>
    refine ⟨{ w with word := encode c.toRow }, ?_, hrow, decode_encode_toRow c⟩
    rw [Breaker.transactLocal, htries]
    refine ends_call_bind_of_eq (m.answer_word b.dependency w) ?_
    refine ends_bind (ends_reading m b.dependency w) ?_
    rw [hword, hstep]
    refine ends_call_bind_of_eq (m.answer_exchangeWord b.dependency w (encode c.toRow)) ?_
    rw [if_pos rfl]
    exact ends_pure _

/-- A step on the row, or the error that keeps it from being made. -/
theorem Shows.transactShared (hs : s.Shows b.dependency w) (hp : 0 < b.patience) (m : Moment)
    (step : Step) :
    (m.reaches step s.row = true ∧ ∃ w', Ends (m.answer b.dependency)
        (transactShared b.dependency step b.patience) w
        (.ok ⟨s.row, step s.row m.now.millis.toNat⟩) w' ∧
      Shows b.dependency { s with row := (step s.row m.now.millis.toNat).getD s.row } w') ∨
    (m.reaches step s.row = false ∧ ∃ why, Ends (m.answer b.dependency)
        (Breaker.transactShared b.dependency step b.patience) w (.error why) w) := by
  obtain ⟨⟨row, hrow, hcond⟩, hword⟩ := hs
  obtain ⟨tries, htries⟩ := Nat.exists_eq_succ_of_ne_zero (Nat.pos_iff_ne_zero.1 hp)
  rw [htries]
  cases hload : m.load with
  | some why =>
    refine .inr ⟨by simp [Moment.reaches, hload], why, ?_⟩
    exact ends_call_bind_of_eq (Moment.answer_load_error hload) (ends_pure _)
  | none =>
    cases hstep : step s.row m.now.millis.toNat with
    | none =>
      refine .inl ⟨by simp [Moment.reaches, hload, hstep], w, ?_, ⟨row, hrow, hcond⟩, hword⟩
      refine ends_call_bind_of_eq (Moment.answer_load hload hrow) ?_
      refine ends_bind (ends_reading m b.dependency w) ?_
      rw [hcond, hstep]
      exact ends_pure _
    | some c =>
      cases hswap : m.swap with
      | some why =>
        refine .inr ⟨by simp [Moment.reaches, hload, hstep, hswap], why, ?_⟩
        refine ends_call_bind_of_eq (Moment.answer_load hload hrow) ?_
        refine ends_bind (ends_reading m b.dependency w) ?_
        rw [hcond, hstep]
        exact ends_call_bind_of_eq (Moment.answer_swap_error hswap) (ends_pure _)
      | none =>
        obtain ⟨store, hstore, hanswer⟩ := Moment.answer_swap hswap hrow c
        refine .inl ⟨by simp [Moment.reaches, hload, hswap], { w with store }, ?_,
          ⟨c.toRow, hstore, c.ofRow_toRow⟩, hword⟩
        refine ends_call_bind_of_eq (Moment.answer_load hload hrow) ?_
        refine ends_bind (ends_reading m b.dependency w) ?_
        rw [hcond, hstep]
        exact ends_call_bind_of_eq hanswer (ends_pure _)

/-- A step on the row if it can be reached, and on the word if not. -/
theorem Shows.transact (hs : s.Shows b.dependency w) (hshared : b.shared = true)
    (hp : 0 < b.patience) (m : Moment) (step : Step) :
    ∃ w', Ends (m.answer b.dependency) (b.transact step) w
        ⟨s.met m step, step (s.met m step) m.now.millis.toNat⟩ w' ∧
      (s.left m step).Shows b.dependency w' := by
  unfold Breaker.transact
  rw [if_pos hshared]
  obtain ⟨hreaches, w₁, hends, hshows⟩ | ⟨hreaches, why, hends⟩ := hs.transactShared hp m step
  · rw [met_of_reaches hreaches, left_of_reaches hreaches]
    refine ⟨{ w₁ with word := encode ((step s.row m.now.millis.toNat).getD s.row).toRow }, ?_,
      hshows.1, decode_encode_toRow _⟩
    refine ends_bind hends ?_
    refine ends_call_bind_of_eq (m.answer_setWord b.dependency w₁ _) (ends_pure _)
  · rw [met_of_not_reaches hreaches, left_of_not_reaches hreaches]
    obtain ⟨w', hlocal, hshows⟩ := hs.transactLocal hp m step
    exact ⟨w', ends_bind hends hlocal, hshows⟩

/-- To look is to make no step. -/
theorem Shows.current (hs : s.Shows b.dependency w) (hshared : b.shared = true) (m : Moment) :
    ∃ w', Ends (m.answer b.dependency) b.current w (s.met m fun _ _ => none) w' ∧
      (s.left m fun _ _ => none).Shows b.dependency w' := by
  obtain ⟨⟨row, hrow, hcond⟩, hword⟩ := hs
  unfold Breaker.current
  rw [if_pos hshared]
  cases hload : m.load with
  | none =>
    have hreaches : m.reaches (fun _ _ => none) s.row = true := by simp [Moment.reaches, hload]
    rw [met_of_reaches hreaches, left_of_reaches hreaches]
    refine ⟨{ w with word := encode s.row.toRow }, ?_, ⟨row, hrow, hcond⟩, decode_encode_toRow s.row⟩
    refine ends_call_bind_of_eq (Moment.answer_load hload hrow) ?_
    dsimp only
    rw [hcond]
    exact ends_call_bind_of_eq (m.answer_setWord b.dependency w _) (ends_pure _)
  | some why =>
    have hreaches : m.reaches (fun _ _ => none) s.row = false := by simp [Moment.reaches, hload]
    rw [met_of_not_reaches hreaches, left_of_not_reaches hreaches]
    refine ⟨w, ?_, ⟨row, hrow, hcond⟩, hword⟩
    refine ends_call_bind_of_eq (Moment.answer_load_error hload) ?_
    refine ends_call_bind_of_eq (m.answer_word b.dependency w) ?_
    rw [hword]
    exact ends_pure _

theorem ends_isForced (m : Moment) (w : World) :
    Ends (m.answer b.dependency) b.isForced w false w := rfl

/-- Every operation is one step on what it meets. -/
theorem Shows.perform (hs : s.Shows b.dependency w) (hshared : b.shared = true)
    (hp : 0 < b.patience) (m : Moment) (o : Operation) :
    ∃ w', Ends (m.answer b.dependency) (o.program b) w
        (o.answer b m.now (s.met m (o.step b))) w' ∧
      (s.left m (o.step b)).Shows b.dependency w' := by
  have hfree := ends_isForced (b := b) m
  cases o with
  | allow =>
    obtain ⟨w', hends, hshows⟩ := hs.transact hshared hp m (Operation.step b .allow)
    exact ⟨w', ends_bind (hfree w) (ends_bind hends (ends_pure _)), hshows⟩
  | recordSuccess =>
    obtain ⟨w', hends, hshows⟩ := hs.transact hshared hp m (Operation.step b .recordSuccess)
    exact ⟨w', ends_bind hends (ends_pure _), hshows⟩
  | recordFailure =>
    obtain ⟨w', hends, hshows⟩ := hs.transact hshared hp m (Operation.step b .recordFailure)
    exact ⟨w', ends_bind hends (ends_pure _), hshows⟩
  | state =>
    obtain ⟨w', hends, hshows⟩ := hs.current hshared m
    exact ⟨w', ends_bind (hfree w) (ends_bind hends (ends_pure _)), hshows⟩
  | failureCount =>
    obtain ⟨w', hends, hshows⟩ := hs.current hshared m
    exact ⟨w', ends_bind hends (ends_pure _), hshows⟩
  | timeUntilProbe =>
    obtain ⟨w', hends, hshows⟩ := hs.current hshared m
    refine ⟨w', ends_bind (hfree w) (ends_bind hends ?_), hshows⟩
    simp only [Operation.answer, Operation.step]
    cases (s.met m fun _ _ => none).circuit with
    | closed => exact ends_pure _
    | opened => exact ends_bind (ends_reading m b.dependency w') (ends_pure _)
    | halfOpen => exact ends_bind (ends_reading m b.dependency w') (ends_pure _)
  | snapshot =>
    obtain ⟨w', hends, hshows⟩ := hs.current hshared m
    exact ⟨w', ends_bind hends (ends_bind (hfree w') (ends_pure _)), hshows⟩

end Sides

/-- An operation at a moment. -/
structure OperationAt where
  moment : Moment
  operation : Operation

namespace OperationAt

variable {b : Breaker} {s : Sides} {w : World}

def perform (b : Breaker) (w : World) (t : OperationAt) : Reply × World :=
  let run := (t.operation.program b).follow (t.moment.answer b.dependency) w
  (⟨t.operation, run.2.1⟩, run.2.2)

/-- What a sequence of operations leaves. -/
def performAll (b : Breaker) (w : World) (ts : List OperationAt) : World :=
  ts.foldl (fun w t => (t.perform b w).2) w

def left (b : Breaker) (s : Sides) (t : OperationAt) : Sides := s.left t.moment (t.operation.step b)

def leftAll (b : Breaker) (s : Sides) (ts : List OperationAt) : Sides := ts.foldl (left b) s

/-- The condition by which an operation is answered. -/
def met (b : Breaker) (s : Sides) (t : OperationAt) : Condition :=
  s.met t.moment (t.operation.step b)

theorem perform_shows (hs : s.Shows b.dependency w) (hshared : b.shared = true)
    (hp : 0 < b.patience) (t : OperationAt) :
    (t.perform b w).1 = ⟨t.operation, .ok (t.operation.answer b t.moment.now (t.met b s))⟩ ∧
      (t.left b s).Shows b.dependency (t.perform b w).2 := by
  obtain ⟨w', hends, hshows⟩ := hs.perform hshared hp t.moment t.operation
  have hrun : ((t.operation.program b).follow (t.moment.answer b.dependency) w).2 = _ := hends
  simp only [perform, hrun]
  exact ⟨rfl, hshows⟩

theorem performAll_shows (hs : s.Shows b.dependency w) (hshared : b.shared = true)
    (hp : 0 < b.patience) (ts : List OperationAt) :
    (leftAll b s ts).Shows b.dependency (performAll b w ts) := by
  induction ts generalizing s w with
  | nil => exact hs
  | cons t ts ih => exact ih (perform_shows hs hshared hp t).2

end OperationAt

/-- A handle as it is made, on a row that nobody has written yet. -/
theorem Sides.shows_fresh {d : Dependency} {store : Store} (h : store.Holds d .fresh)
    (clock : Nat) : Sides.Shows d ⟨.fresh, .fresh⟩ ⟨store, encode .fresh, clock⟩ :=
  ⟨⟨.fresh, h, rfl⟩, decode_encode .fresh⟩

end Breaker
end WorkerGuard
