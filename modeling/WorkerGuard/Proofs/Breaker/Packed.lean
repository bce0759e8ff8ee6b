import Mathlib.Algebra.Group.Nat.Defs
import WorkerGuard.Proofs.Breaker.Operation
import WorkerGuard.Proofs.Program.Passage
import WorkerGuard.Proofs.Program.Schedule

/-!
# WorkerGuard.Proofs.Breaker.Packed

The word that a process keeps for a breaker stands for a condition, and for no other.

* `Positioned w`: the position in `w` is one of a condition. `encode_decode`: then nothing of the
  word is lost either, so that these words and the conditions are in one-to-one correspondence.
* `Legible d`, `Call.Marks d`: what is read from the word of `d`, and what is written to it, has a
  position. `Careful d x`: the program `x` writes such words only if it reads such words only.
  `careful_transact`, `careful_current`: the two ways to the word, and so all uses of a handle.
* `Cell`: the word of a process with all that is under way on it, one call at a time and in any
  order; the registry answers as it likes. `Cell.Sound` is kept by each step, and so by every run.
* `word_faithful`: to compare words is to compare conditions.
-/

namespace WorkerGuard

open Program Simulation

namespace Breaker

def Positioned (w : UInt64) : Prop := w &&& 3 ≠ 3

instance (w : UInt64) : Decidable (Positioned w) := inferInstanceAs (Decidable (_ ≠ _))

theorem positioned_encode (r : Row) : Positioned (encode r) := by
  rw [Positioned, encode_and_three]
  cases r.circuit <;> decide

theorem toNat_and_three (w : UInt64) : (w &&& 3).toNat = w.toNat % 4 := by
  rw [UInt64.toNat_and]
  exact Nat.and_two_pow_sub_one_eq_mod _ 2

theorem Positioned.code_ofCode {w : UInt64} (h : Positioned w) :
    (Circuit.ofCode (w &&& 3)).code = w &&& 3 := by
  have hlow := toNat_and_three w
  have hcode : w &&& 3 = 0 ∨ w &&& 3 = 1 ∨ w &&& 3 = 2 := by
    have hthree : (w &&& 3).toNat ≠ 3 := fun heq => h (UInt64.toNat_inj.1 heq)
    simp only [← UInt64.toNat_inj]
    show _ = 0 ∨ _ = 1 ∨ _ = 2
    omega
  obtain hcode | hcode | hcode := hcode
  all_goals
    rw [hcode]
    rfl

theorem decode_failures (w : UInt64) : (decode w).failures = w.toNat / 4 % 1048576 := by
  have hfailures : ((w >>> 2) &&& 0xfffff).toNat = w.toNat / 4 % 1048576 := by
    rw [UInt64.toNat_and, UInt64.toNat_shiftRight]
    show (_ >>> 2) &&& (2 ^ 20 - 1) = _
    rw [Nat.and_two_pow_sub_one_eq_mod, Nat.shiftRight_eq_div_pow]
  show min _ maxFailures = _
  rw [hfailures, maxFailures]
  omega

theorem decode_stamp (w : UInt64) : (decode w).stamp = w.toNat / 4194304 := by
  have hlt := w.toNat_lt
  have hstamp : (w >>> 22).toNat = w.toNat / 4194304 := by
    rw [UInt64.toNat_shiftRight]
    show _ >>> 22 = _
    rw [Nat.shiftRight_eq_div_pow]
  show min _ maxStamp = _
  rw [hstamp, maxStamp]
  omega

theorem toNat_encode_toRow (c : Condition) :
    (encode c.toRow).toNat = (c.stamp * 1048576 + c.failures) * 4 + c.circuit.code.toNat := by
  have hcapped := c.ofRow_toRow
  have hfailures : min c.toRow.failures.toNat maxFailures = c.failures :=
    congrArg Condition.failures hcapped
  have hstamp : min c.toRow.stamp.toNat maxStamp = c.stamp := congrArg Condition.stamp hcapped
  rw [toNat_encode, hfailures, hstamp]
  rfl

theorem encode_decode {w : UInt64} (h : Positioned w) : encode (decode w).toRow = w := by
  apply UInt64.toNat_inj.1
  have hcode : (decode w).circuit.code.toNat = w.toNat % 4 := by
    rw [← toNat_and_three, ← h.code_ofCode]
    rfl
  rw [toNat_encode_toRow, decode_failures, decode_stamp, hcode]
  omega

theorem decode_eq_iff {w w' : UInt64} (h : Positioned w) (h' : Positioned w') :
    decode w = decode w' ↔ w = w' := by
  constructor
  · intro heq
    rw [← encode_decode h, heq, encode_decode h']
  · exact congrArg decode

end Breaker

open Breaker

/-- What is read from the word of `d` has a position. -/
def Legible (d : Dependency) : Environment Unit
  | _, .word d', w, _ => d' = d → Positioned w
  | _, .exchangeWord d' _ _, w, _ => d' = d → Positioned w
  | _, _, _, _ => True

/-- What is written to the word of `d`, or expected to be there, has a position. -/
def Call.Marks (d : Dependency) : Call → Unit → Prop
  | .setWord d' new, _ => d' = d → Positioned new
  | .exchangeWord d' old new, _ => d' = d → Positioned old ∧ Positioned new
  | _, _ => True

def Careful {α : Type} (d : Dependency) (x : Program α) : Prop :=
  x.Heeds (Legible d) (Call.Marks d) (fun _ _ => True) ()

namespace Breaker

section Careful

variable {α β : Type} {d : Dependency}

theorem careful_pure (a : α) : Careful d (pure a) := trivial

theorem careful_call {q : Call} (hq : q.Marks d ()) : Careful d (Program.call q) :=
  ⟨hq, fun _ _ _ => trivial⟩

theorem careful_bind {x : Program α} {f : α → Program β} (hx : Careful d x)
    (hf : ∀ a, Careful d (f a)) : Careful d (x >>= f) :=
  heeds_bind hx fun a _ _ => hf a

/-- What follows upon a call may rely on the answer. -/
theorem careful_call_bind {q : Call} {f : q.Answer → Program α} (hq : q.Marks d ())
    (hf : ∀ a, Legible d () q a () → Careful d (f a)) : Careful d (Program.call q >>= f) :=
  ⟨hq, fun a _ ha => hf a ha⟩

theorem careful_reading : Careful d reading :=
  careful_bind (careful_call trivial) fun _ => careful_pure _

theorem careful_transactWord (step : Step) (tries : Nat) {w : UInt64} (hw : Positioned w) :
    Careful d (transactWord d step tries w) := by
  induction tries generalizing w with
  | zero => trivial
  | succ tries ih =>
    refine careful_bind careful_reading fun now => ?_
    split
    · exact careful_pure _
    · refine careful_call_bind (fun _ => ⟨hw, positioned_encode _⟩) fun found hfound => ?_
      split
      · exact careful_pure _
      · exact ih (hfound rfl)

theorem careful_transactShared (step : Step) (tries : Nat) :
    Careful d (transactShared d step tries) := by
  induction tries with
  | zero => trivial
  | succ tries ih =>
    refine careful_bind (careful_call trivial) fun row => ?_
    split
    · exact careful_pure _
    · refine careful_bind careful_reading fun now => ?_
      split
      · exact careful_pure _
      · refine careful_bind (careful_call trivial) fun swapped => ?_
        split
        · exact careful_pure _
        · exact careful_pure _
        · exact ih

variable (b : Breaker)

theorem careful_transactLocal (step : Step) : Careful b.dependency (b.transactLocal step) :=
  careful_call_bind trivial fun _ hw => careful_transactWord step b.patience (hw rfl)

theorem careful_transact (step : Step) : Careful b.dependency (b.transact step) := by
  unfold transact
  split
  · refine careful_bind (careful_transactShared step b.patience) fun found => ?_
    split
    · exact careful_bind (careful_call fun _ => positioned_encode _) fun _ => careful_pure _
    · exact b.careful_transactLocal step
  · exact b.careful_transactLocal step

theorem careful_current : Careful b.dependency b.current := by
  unfold current
  split
  · refine careful_bind (careful_call trivial) fun found => ?_
    split
    · exact careful_bind (careful_call fun _ => positioned_encode _) fun _ => careful_pure _
    · exact careful_bind (careful_call trivial) fun _ => careful_pure _
  · exact careful_bind (careful_call trivial) fun _ => careful_pure _

theorem careful_isForced : Careful b.dependency b.isForced := careful_call trivial

theorem careful_operation (o : Operation) : Careful b.dependency (o.program b) := by
  cases o with
  | allow =>
    refine careful_bind b.careful_isForced fun forced => ?_
    split
    · exact careful_pure _
    · exact careful_bind (b.careful_transact _) fun _ => careful_pure _
  | recordSuccess => exact careful_bind (b.careful_transact _) fun _ => careful_pure _
  | recordFailure => exact careful_bind (b.careful_transact _) fun _ => careful_pure _
  | state =>
    refine careful_bind b.careful_isForced fun forced => ?_
    split
    · exact careful_pure _
    · exact careful_bind b.careful_current fun _ => careful_pure _
  | failureCount => exact careful_bind b.careful_current fun _ => careful_pure _
  | timeUntilProbe =>
    refine careful_bind b.careful_isForced fun forced => ?_
    split
    · exact careful_pure _
    · refine careful_bind b.careful_current fun c => ?_
      split
      · exact careful_pure _
      · exact careful_bind careful_reading fun _ => careful_pure _
      · exact careful_bind careful_reading fun _ => careful_pure _
  | snapshot =>
    exact careful_bind b.careful_current fun _ => careful_bind b.careful_isForced fun _ =>
      careful_pure _

end Careful

/-- The operations of a handle, its description and the override with them. -/
inductive HandleOperation where
  | operation (o : Operation)
  | describe
  | forceOpen
  | clearOverride

def HandleOperation.program (b : Breaker) : HandleOperation → Program Unit
  | operation o => do let _ ← o.program b
  | describe => do let _ ← b.describe
  | forceOpen => b.forceOpen
  | clearOverride => b.clearOverride

theorem careful_handleOperation (b : Breaker) (u : HandleOperation) :
    Careful b.dependency (u.program b) := by
  cases u with
  | operation o => exact careful_bind (b.careful_operation o) fun _ => careful_pure _
  | describe =>
    refine careful_bind (careful_bind (careful_call trivial) fun _ => ?_) fun _ => careful_pure _
    exact careful_bind b.careful_isForced fun _ => careful_pure _
  | forceOpen => exact careful_call trivial
  | clearOverride => exact careful_call trivial

/-- The word that a process keeps for a dependency, and what is left of each operation under way. -/
structure Cell where
  word : UInt64
  underway : List (Program Unit)

namespace Cell

variable {d : Dependency} {c c' : Cell}

/-- A handle on `d` is used, with settings of its own; or one of the uses makes its next call. -/
inductive Step (d : Dependency) : Cell → Cell → Prop where
  | begins {w : UInt64} {xs : List (Program Unit)} (b : Breaker) (u : HandleOperation)
      (hb : b.dependency = d) : Step d ⟨w, xs⟩ ⟨w, u.program b :: xs⟩
  | asks {w w' : UInt64} {xs ys : List (Program Unit)} {q : Call} {next : q.Answer → Program Unit}
      {a : q.Answer} (ha : Kept d w q a w') :
      Step d ⟨w, xs ++ .ask q next :: ys⟩ ⟨w', xs ++ next a :: ys⟩

/-- From a new process on. -/
inductive Reached (d : Dependency) : Cell → Prop where
  | new : Reached d ⟨encode .fresh, []⟩
  | step {c c' : Cell} (h : Reached d c) (hs : Step d c c') : Reached d c'

def Sound (d : Dependency) (c : Cell) : Prop :=
  Positioned c.word ∧ ∀ x ∈ c.underway, Careful d x

/-- A word with a position is read, and one with a position is left. -/
theorem legible_of_kept {w w' : UInt64} {q : Call} {a : q.Answer} (ha : Kept d w q a w')
    (hw : Positioned w) (hq : q.Marks d ()) : Legible d () q a () ∧ Positioned w' := by
  cases q with
  | word d' =>
    obtain ⟨rfl, hsame⟩ := ha
    refine ⟨fun hd => ?_, hw⟩
    rw [hsame hd]
    exact hw
  | setWord d' new =>
    have hw' : w' = if d' = d then new else w := ha
    refine ⟨trivial, ?_⟩
    rw [hw']
    split
    case isTrue hd => exact hq hd
    case isFalse => exact hw
  | exchangeWord d' old new =>
    by_cases hd : d' = d
    · rw [Kept, if_pos hd] at ha
      obtain ⟨rfl, rfl⟩ := ha
      refine ⟨fun _ => hw, ?_⟩
      split
      · exact (hq hd).2
      · exact hw
    · rw [Kept, if_neg hd] at ha
      obtain rfl := ha
      exact ⟨fun h => absurd h hd, hw⟩
  | _ =>
    obtain rfl : w' = w := ha
    exact ⟨trivial, hw⟩

theorem Sound.step (h : c.Sound d) (hs : Step d c c') : c'.Sound d := by
  obtain ⟨hword, hunderway⟩ := h
  cases hs with
  | begins b u hb =>
    subst hb
    exact ⟨hword, List.forall_mem_cons.2 ⟨careful_handleOperation b u, hunderway⟩⟩
  | asks ha =>
    simp only [List.forall_mem_append, List.forall_mem_cons] at hunderway
    obtain ⟨hxs, ⟨hq, hnext⟩, hys⟩ := hunderway
    obtain ⟨hlegible, hword'⟩ := legible_of_kept ha hword hq
    refine ⟨hword', ?_⟩
    simp only [List.forall_mem_append, List.forall_mem_cons]
    exact ⟨hxs, hnext _ () hlegible, hys⟩

theorem Reached.sound (h : Reached d c) : c.Sound d := by
  induction h with
  | new => exact ⟨positioned_encode .fresh, List.forall_mem_nil _⟩
  | step _ hs ih => exact ih.step hs

end Cell

/-- A row keeps all but what is out of range, and a word all but the position that no row has. No
word of a process ever has it, in whatever order its handles are used and whatever rows they read;
so two words are the same only if they stand for the same condition, and an exchange that expects a
word expects a condition. -/
theorem word_faithful (d : Dependency) :
    (∀ (circuit : Circuit) (failures : UInt32) (stamp : UInt64),
      (decode (encode ⟨circuit, failures, stamp⟩)).circuit = circuit ∧
        (decode (encode ⟨circuit, failures, stamp⟩)).failures =
          min failures.toNat (2 ^ 20 - 1) ∧
        (decode (encode ⟨circuit, failures, stamp⟩)).stamp = min stamp.toNat (2 ^ 42 - 1)) ∧
      (∀ w, w &&& 3 ≠ 3 → encode (decode w).toRow = w) ∧
      (∀ w w', w &&& 3 ≠ 3 → w' &&& 3 ≠ 3 → (w = w' ↔ decode w = decode w')) ∧
      ∀ c, Cell.Reached d c → c.word &&& 3 ≠ 3 ∧
        ∀ {old new : UInt64} {next : UInt64 → Program Unit},
          .ask (.exchangeWord d old new) next ∈ c.underway →
            (c.word = old ↔ decode c.word = decode old) := by
  refine ⟨fun circuit failures stamp => ?_, fun w => encode_decode, fun w w' hw hw' => ?_, ?_⟩
  · rw [decode_encode]
    exact ⟨rfl, rfl, rfl⟩
  · exact (decode_eq_iff hw hw').symm
  · intro c hc
    obtain ⟨hword, hunderway⟩ := hc.sound
    refine ⟨hword, fun {old new next} hmem => ?_⟩
    have hexpected : Positioned old := ((hunderway _ hmem).1 rfl).1
    exact (decode_eq_iff hword hexpected).symm

/-- A breaker without a registry that opens at its first failure. -/
def secluded : Breaker := .ofSettings ⟨"api"⟩ ⟨1, 60⟩ false 1

/-- Two failures read the word, and one of them has exchanged it before the other one tries. -/
theorem secluded_outrun : ∃ next : UInt64 → Program Unit,
    Cell.Reached ⟨"api"⟩ ⟨encode ⟨.opened, 1, 5000⟩,
      [.ask (.exchangeWord ⟨"api"⟩ 0 (encode ⟨.opened, 1, 6000⟩)) next, pure ()]⟩ ∧
    (encode ⟨.opened, 1, 5000⟩ = 0 ↔ decode (encode ⟨.opened, 1, 5000⟩) = decode 0) ∧
    (decode (encode ⟨.halfOpen, 4294967295, 18446744073709551615⟩)).stamp = 2 ^ 42 - 1 := by
  let failure := HandleOperation.operation .recordFailure
  have hbegun : Cell.Reached ⟨"api"⟩ ⟨0, [failure.program secluded, failure.program secluded]⟩ :=
    .step (.step .new (.begins secluded failure rfl)) (.begins secluded failure rfl)
  have hread : Cell.Reached ⟨"api"⟩ ⟨0, _⟩ :=
    .step hbegun (@Cell.Step.asks _ _ _ [] [_] (.word ⟨"api"⟩) _ 0 ⟨rfl, fun _ => rfl⟩)
  have htimed : Cell.Reached ⟨"api"⟩ ⟨0, _⟩ :=
    .step hread (@Cell.Step.asks _ _ _ [] [_] .now _ (atSecond 6) rfl)
  have hread' : Cell.Reached ⟨"api"⟩ ⟨0, _⟩ :=
    .step htimed (@Cell.Step.asks _ _ _ [_] [] (.word ⟨"api"⟩) _ 0 ⟨rfl, fun _ => rfl⟩)
  have htimed' : Cell.Reached ⟨"api"⟩ ⟨0, _⟩ :=
    .step hread' (@Cell.Step.asks _ _ _ [_] [] .now _ (atSecond 5) rfl)
  have hexchanged : Cell.Reached ⟨"api"⟩ ⟨encode ⟨.opened, 1, 5000⟩, _⟩ :=
    .step htimed' (@Cell.Step.asks _ _ _ [_] []
      (.exchangeWord ⟨"api"⟩ 0 (encode ⟨.opened, 1, 5000⟩)) _ 0 ⟨rfl, rfl⟩)
  obtain ⟨hrows, -, -, hcells⟩ := word_faithful ⟨"api"⟩
  exact ⟨_, hexchanged, (hcells _ hexchanged).2 List.mem_cons_self,
    (hrows .halfOpen 4294967295 18446744073709551615).2.2⟩

end Breaker
end WorkerGuard
