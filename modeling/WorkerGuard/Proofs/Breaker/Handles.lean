import WorkerGuard.Proofs.Breaker.Operation
import WorkerGuard.Proofs.Program.Schedule

/-!
# WorkerGuard.Proofs.Breaker.Handles

Handles on one breaker that are used one at a time.

* `Handles n`: the registry and the word of each of `n` handles. `Handles.perform` is one operation
  on one of them, `Handles.run` a sequence of operations.
* `Handles.Shows b c`: every handle finds the breaker in the condition `c`. That is so of handles
  that share their row, and of a handle that is the only one.
* `Handles.Shows.run`: all that a sequence comes to, as a replay of conditions.
* `shared_answers_as_one`: handles that share a row answer as a single one without a registry does.
-/

namespace WorkerGuard

open Program Simulation

namespace Breaker

structure Handles (n : Nat) where
  store : Store
  words : Fin n → UInt64

/-- An operation on one of the handles, at a reading of the clock. -/
structure OperationOn (n : Nat) where
  handle : Fin n
  now : Instant
  operation : Operation

/-- An operation with what came back. -/
structure Reply where
  operation : Operation
  result : Except Halt operation.Answer

/-- Neither has anybody else a say, nor is there an override. -/
def answerAt (now : Instant) (d : Dependency) : World → (q : Call) → q.Answer × World :=
  World.serve (Call.calm now ⟨""⟩) d

namespace Handles

variable {n : Nat}

/-- Handles as they are made. -/
def fresh (s : Store) : Handles n := ⟨s, fun _ => encode .fresh⟩

/-- What one of the handles has before it. -/
def world (h : Handles n) (i : Fin n) : World := ⟨h.store, h.words i, 0⟩

/-- One of the handles has left behind. -/
def leave (h : Handles n) (i : Fin n) (w : World) : Handles n :=
  ⟨w.store, fun j => if j = i then w.word else h.words j⟩

def perform (b : Breaker) (h : Handles n) (t : OperationOn n) : Reply × Handles n :=
  let run := (t.operation.program b).follow (answerAt t.now b.dependency) (h.world t.handle)
  (⟨t.operation, run.2.1⟩, h.leave t.handle run.2.2)

def run (b : Breaker) : Handles n → List (OperationOn n) → List Reply × Handles n
  | h, [] => ([], h)
  | h, t :: ts =>
    ((h.perform b t).1 :: ((h.perform b t).2.run b ts).1, ((h.perform b t).2.run b ts).2)

/-- What one of the handles works on. -/
def condition (b : Breaker) (i : Fin n) (h : Handles n) : Condition :=
  if b.shared then .ofRow (h.store.row b.dependency) else decode (h.words i)

def Shows (b : Breaker) (c : Condition) (h : Handles n) : Prop :=
  if b.shared then ∃ row, h.store.Holds b.dependency row ∧ .ofRow row = c
  else ∀ i, decode (h.words i) = c

end Handles

/-- The replies from a condition on, if nothing but the operations counts. -/
def replay {n : Nat} (b : Breaker) : Condition → List (OperationOn n) → List Reply
  | _, [] => []
  | c, t :: ts => ⟨t.operation, .ok (t.operation.answer b t.now c)⟩ ::
      replay b (t.operation.after b t.now c) ts

/-- The condition that operations lead to. -/
def conditionAfter {n : Nat} (b : Breaker) (c : Condition) (ts : List (OperationOn n)) :
    Condition :=
  ts.foldl (fun c t => t.operation.after b t.now c) c

section Alone

variable {d : Dependency} {now : Instant}

/-- The environment of a handle at a time. -/
def AtTime (now : Instant) (d : Dependency) : Environment World :=
  fun w q a w' => answerAt now d w q = (a, w')

theorem AtTime.alone {w w' : World} {q : Call} {a : q.Answer} (h : AtTime now d w q a w') :
    Alone d (fun _ => False) (fun _ => False) w q a w' := by
  have hserve : World.serve (Call.calm now ⟨""⟩) d w q = (a, w') := h
  have halone : Alone d (fun _ => False) (fun _ => False) w q _ _ :=
    alone_serve (Call.calm now ⟨""⟩) w q
  rw [hserve] at halone
  exact halone

theorem AtTime.soloRow : SoloRow (AtTime now d) d False fun r w => w.store.Holds d r :=
  Served.soloRow (fun _ _ _ _ h => h.alone.1) (fun _ => False.elim) fun _ => False.elim

theorem AtTime.soloWord : SoloWord (AtTime now d) d fun w h => h.word = w :=
  Kept.soloWord fun _ _ _ _ h => h.alone.2

theorem AtTime.of_now {w w' : World} {t : Instant} (h : AtTime now d w .now t w') : t = now :=
  (congrArg Prod.fst h).symm

theorem AtTime.of_forced {w w' : World} {forced : Bool} (h : AtTime now d w (.forced d) forced w') :
    forced = false :=
  (congrArg Prod.fst h).symm

theorem undisturbed_row (now : Instant) (d : Dependency) : Undisturbed (AtTime now d) d true now
    (SoloRow.Shows fun r w => w.store.Holds d r) :=
  AtTime.soloRow.undisturbed AtTime.of_now AtTime.of_forced

theorem undisturbed_word (now : Instant) (d : Dependency) : Undisturbed (AtTime now d) d false now
    (SoloWord.Shows fun w h => h.word = w) := by
  refine AtTime.soloWord.undisturbed AtTime.of_now AtTime.of_forced ?_
  rintro _ w w' forced rfl ha
  exact ha.alone.2

end Alone

namespace Handles

variable {n : Nat} {b : Breaker} {c : Condition} {h : Handles n}

theorem trail_perform (b : Breaker) (h : Handles n) (t : OperationOn n) :
    Trail (AtTime t.now b.dependency) (t.operation.program b) (h.world t.handle)
      ((t.operation.program b).follow (answerAt t.now b.dependency) (h.world t.handle)).1
      ((t.operation.program b).follow (answerAt t.now b.dependency) (h.world t.handle)).2.1
      ((t.operation.program b).follow (answerAt t.now b.dependency) (h.world t.handle)).2.2 :=
  trail_follow (fun _ _ => rfl) _ _

/-- One operation does what the condition says, and all handles see what has become of it. -/
theorem Shows.perform (hc : h.Shows b c) (hone : b.shared = true ∨ n = 1) (hp : 0 < b.patience)
    (t : OperationOn n) : (h.perform b t).1 = ⟨t.operation, .ok (t.operation.answer b t.now c)⟩ ∧
      (h.perform b t).2.Shows b (t.operation.after b t.now c) := by
  have htrail := h.trail_perform b t
  cases hshared : b.shared with
  | true =>
    simp only [Shows, hshared, if_true] at hc ⊢
    obtain ⟨row, hrow, hcond⟩ := hc
    have hu := undisturbed_row t.now b.dependency
    rw [← hshared] at hu
    obtain ⟨hr, hafter⟩ := hu.yields hp t.operation ⟨row, hrow, hcond⟩ htrail
    exact ⟨by rw [Handles.perform, hr], hafter⟩
  | false =>
    simp only [Shows, hshared, if_false, Bool.false_eq_true] at hc ⊢
    have hu := undisturbed_word t.now b.dependency
    rw [← hshared] at hu
    obtain ⟨hr, w, hw, hafter⟩ := hu.yields hp t.operation ⟨_, rfl, hc t.handle⟩ htrail
    refine ⟨by rw [Handles.perform, hr], fun i => ?_⟩
    obtain hone | rfl := hone
    · rw [hshared] at hone
      cases hone
    · -- Words are not shared, but there is only one.
      obtain rfl := Subsingleton.elim i t.handle
      simp only [Handles.perform, leave, if_true]
      rw [hw, hafter]

theorem Shows.run (hc : h.Shows b c) (hone : b.shared = true ∨ n = 1) (hp : 0 < b.patience)
    (ts : List (OperationOn n)) : (h.run b ts).1 = replay b c ts ∧
      (h.run b ts).2.Shows b (conditionAfter b c ts) := by
  induction ts generalizing h c with
  | nil => exact ⟨rfl, hc⟩
  | cons t ts ih =>
    obtain ⟨hreply, hafter⟩ := hc.perform hone hp t
    obtain ⟨hreplies, hlast⟩ := ih hafter
    refine ⟨?_, hlast⟩
    rw [Handles.run, hreply, hreplies]
    rfl

theorem Shows.condition_eq (hc : h.Shows b c) (i : Fin n) : h.condition b i = c := by
  unfold Shows at hc
  unfold condition
  split at hc
  · rename_i hshared
    obtain ⟨row, hrow, rfl⟩ := hc
    rw [if_pos hshared, Store.row, hrow.answer_load]
  · rename_i hshared
    rw [if_neg hshared]
    exact hc i

/-- A registry without the row is as good as one with a fresh row. -/
theorem shows_fresh {m : Registry.Memory} (hm : m.breakers.find? b.dependency.name = none) :
    (fresh (.memory m) : Handles n).Shows b .fresh := by
  unfold Shows
  split
  · refine ⟨.fresh, ?_, rfl⟩
    show (m.breakers.find? b.dependency.name).getD .fresh = .fresh
    rw [hm]
    rfl
  · exact fun _ => decode_encode .fresh

end Handles

/-- The same operation on the only handle. -/
def OperationOn.lone {n : Nat} (t : OperationOn n) : OperationOn 1 := ⟨0, t.now, t.operation⟩

/-- Where the settings are the same, it does not matter what a handle works on. -/
theorem replay_lone {n : Nat} {b b' : Breaker}
    (hanswer : ∀ (o : Operation) now c, o.answer b now c = o.answer b' now c)
    (hafter : ∀ (o : Operation) now c, o.after b now c = o.after b' now c) (c : Condition)
    (ts : List (OperationOn n)) : replay b c ts = replay b' c (ts.map OperationOn.lone) := by
  induction ts generalizing c with
  | nil => rfl
  | cons t ts ih =>
    rw [List.map_cons, replay, replay, hanswer, hafter, ih]
    rfl

theorem returns_of_replay {n : Nat} {b : Breaker} {c : Condition} {ts : List (OperationOn n)}
    {r : Reply} (hr : r ∈ replay b c ts) : ∃ a, r.result = .ok a := by
  induction ts generalizing c with
  | nil => cases hr
  | cons t ts ih =>
    obtain rfl | hr := List.mem_cons.1 hr
    · exact ⟨_, rfl⟩
    · exact ih hr

/-- Whatever is done to handles with one registry, and whatever their clocks say: if the registry
has no row of the dependency at the beginning, each operation returns what it would return on a
single handle that has no registry. -/
theorem shared_answers_as_one (d : Dependency) (s : Settings) (patience : Nat) {m : Registry.Memory}
    (hm : m.breakers.find? d.name = none) {n : Nat} (ts : List (OperationOn n)) :
    ((Handles.fresh (.memory m)).run (.ofSettings d s true (patience + 1)) ts).1 =
        ((Handles.fresh (.memory .empty)).run (.ofSettings d s false (patience + 1))
          (ts.map OperationOn.lone)).1 ∧
      ∀ r ∈ ((Handles.fresh (.memory m)).run (.ofSettings d s true (patience + 1)) ts).1,
        ∃ a, r.result = .ok a := by
  have hshared : (Handles.fresh (.memory m) : Handles n).Shows
      (.ofSettings d s true (patience + 1)) .fresh := Handles.shows_fresh hm
  have hlone : (Handles.fresh (.memory .empty) : Handles 1).Shows
      (.ofSettings d s false (patience + 1)) .fresh := Handles.shows_fresh rfl
  rw [(hshared.run (.inl rfl) patience.succ_pos ts).1,
    (hlone.run (.inr rfl) patience.succ_pos (ts.map OperationOn.lone)).1]
  refine ⟨replay_lone (fun o _ _ => ?_) (fun o _ _ => ?_) .fresh ts, fun r => returns_of_replay⟩
  · cases o <;> rfl
  · cases o <;> rfl

/-- Two failures, each by a handle of its own, then a call too early and one that probes; one of the
clocks is behind the other. -/
def seesaw : List (OperationOn 2) :=
  [⟨0, atSecond 5, .recordFailure⟩, ⟨1, atSecond 3, .recordFailure⟩, ⟨0, atSecond 4, .allow⟩,
    ⟨1, atSecond 2, .timeUntilProbe⟩, ⟨0, atSecond 70, .allow⟩, ⟨1, atSecond 2, .snapshot⟩]

theorem seesaw_as_one :
    Registry.Memory.empty.breakers.find? "api" = none ∧
      ((Handles.fresh (.memory .empty)).run (.ofSettings ⟨"api"⟩ ⟨2, 60⟩ true 1) seesaw).2.condition
        (.ofSettings ⟨"api"⟩ ⟨2, 60⟩ true 1) 1 = .capped .halfOpen 2 70000 ∧
      ((Handles.fresh (.memory .empty)).run (.ofSettings ⟨"api"⟩ ⟨2, 60⟩ true 1) seesaw).1 =
        ((Handles.fresh (.memory .empty)).run (.ofSettings ⟨"api"⟩ ⟨2, 60⟩ false 1)
          (seesaw.map OperationOn.lone)).1 :=
  ⟨rfl, by decide +kernel, (shared_answers_as_one ⟨"api"⟩ ⟨2, 60⟩ 0 rfl seesaw).1⟩

end Breaker
end WorkerGuard
