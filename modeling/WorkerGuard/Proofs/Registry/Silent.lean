import WorkerGuard.Registry.Memory

/-!
# WorkerGuard.Proofs.Registry.Silent

Registries without the heartbeats of their workers.

* `Keyed.map`: a collection with its values replaced.
* `Worker.silent`, `Memory.silent`: a worker and a registry as they were without heartbeats.
* `Memory.silent_heartbeat`: a heartbeat makes no difference to them.
* `Memory.answer_silent`: any other request gets the same answer, but for the heartbeats in it, and
  does the same.
-/

namespace WorkerGuard

namespace Keyed

variable {α β : Type} {f : α → β}

def map (f : α → β) (t : Keyed α) : Keyed β :=
  ⟨t.entries.map fun e => (e.1, f e.2), List.pairwise_map.2 t.ascending⟩

theorem findEntry_map (k : String) (l : List (String × α)) :
    findEntry k (l.map fun e => (e.1, f e.2)) = (findEntry k l).map f := by
  induction l with
  | nil => rfl
  | cons e l ih =>
    simp only [List.map_cons, findEntry, ih]
    split <;> rfl

@[simp] theorem find?_map (t : Keyed α) (k : String) : (t.map f).find? k = (t.find? k).map f :=
  findEntry_map k t.entries

@[simp] theorem contains_map (t : Keyed α) (k : String) :
    (t.map f).contains k = t.contains k := by
  simp [contains]

theorem values_map (t : Keyed α) : (t.map f).values = t.values.map f := by
  simp [values, map, Function.comp_def]

theorem map_insert (t : Keyed α) (k : String) (v : α) :
    (t.insert k v).map f = (t.map f).insert k (f v) := by
  refine ext_find? fun k' => ?_
  simp only [find?_map, find?_insert]
  split <;> rfl

/-- A value that looks the same makes no difference. -/
theorem map_insert_same {t : Keyed α} {k : String} {v w : α} (h : t.find? k = some w)
    (hf : f v = f w) : (t.insert k v).map f = t.map f := by
  refine ext_find? fun k' => ?_
  simp only [find?_map, find?_insert]
  split
  · rename_i hk
    rw [hk, h, Option.map_some, Option.map_some, hf]
  · rfl

end Keyed

/-- Its creation is the first heartbeat of a worker. -/
def Worker.silent (w : Worker) : Worker := { w with lastHeartbeatAt := w.createdAt }

/-- What does not look at heartbeats. -/
theorem Worker.congr_silent {β : Type} {f : Worker → β} (hf : ∀ w : Worker, f w.silent = f w)
    {w w' : Worker} (h : w.silent = w'.silent) : f w = f w' :=
  (hf w).symm.trans ((congrArg f h).trans (hf w'))

theorem Worker.filter_silent {p : Worker → Bool} (hp : ∀ w : Worker, p w.silent = p w)
    (ws : List Worker) : (ws.map silent).filter p = (ws.filter p).map silent := by
  have hsame : p ∘ silent = p := funext hp
  rw [List.filter_map, hsame]

namespace Registry

/-- An answer, but for the heartbeats in it. -/
def Request.silent : (q : Request) → q.Answer → q.Answer
  | .insert .., w => Option.map Worker.silent w
  | .get _, w => Option.map Worker.silent w
  | .stale .., ws => List.map Worker.silent ws
  | .list _, ws => List.map Worker.silent ws
  | _, a => a

def Request.isHeartbeat : Request → Bool
  | .heartbeat .. => true
  | _ => false

namespace Memory

variable {m : Memory}

def silent (m : Memory) : Memory := { m with workers := m.workers.map Worker.silent }

theorem activeIn_silent (m : Memory) {p : Worker → Bool} (hp : ∀ w : Worker, p w.silent = p w) :
    m.silent.activeIn p = m.activeIn p := by
  have hsame : ∀ w : Worker, (w.silent.isActive && p w.silent) = (w.isActive && p w) :=
    fun w => congrArg (w.isActive && ·) (hp w)
  rw [activeIn, activeIn, silent, Keyed.values_map, Worker.filter_silent hsame, List.length_map]

theorem updateActive_silent (m : Memory) (id : WorkerId) {f : Worker → Worker}
    (hf : ∀ w : Worker, f w.silent = (f w).silent) :
    m.silent.updateActive id f = ((m.updateActive id f).1, (m.updateActive id f).2.silent) := by
  simp only [updateActive, silent, Keyed.find?_map]
  cases m.workers.find? id.text with
  | none => rfl
  | some w =>
    simp only [Option.map_some, hf]
    rw [show w.silent.isActive = w.isActive from rfl]
    split
    · simp only [Keyed.map_insert]
    · rfl

/-- The order of workers is that of their creation. -/
theorem oldestFirst_silent (ws : List Worker) :
    oldestFirst (ws.map Worker.silent) = (oldestFirst ws).map Worker.silent := by
  have hsame : ∀ a ∈ ws, ∀ b ∈ ws, a.precedes b = a.silent.precedes b.silent :=
    fun _ _ _ _ => rfl
  exact (List.map_mergeSort hsame).symm

theorem select_silent (m : Memory) {p : Worker → Bool} (hp : ∀ w : Worker, p w.silent = p w) :
    oldestFirst (m.silent.workers.values.filter p) =
      (oldestFirst (m.workers.values.filter p)).map Worker.silent := by
  rw [silent, Keyed.values_map, Worker.filter_silent hp, oldestFirst_silent]

theorem silent_heartbeat (m : Memory) (id : WorkerId) (t : Instant) :
    (m.answer (.heartbeat id t)).2.silent = m.silent := by
  simp only [answer, updateActive]
  cases hw : m.workers.find? id.text with
  | none => rfl
  | some w =>
    dsimp only
    split
    · exact congrArg (fun ws => (⟨ws, m.overrides, m.breakers⟩ : Memory))
        (Keyed.map_insert_same hw rfl)
    · rfl

theorem answer_silent (m : Memory) {q : Request} (hq : q.isHeartbeat = false) :
    m.silent.answer q = (q.silent (m.answer q).1, (m.answer q).2.silent) := by
  cases q with
  | insert r c =>
    have hrole : m.silent.activeOfRole r.role = m.activeOfRole r.role :=
      m.activeIn_silent fun _ => rfl
    have htree : m.silent.activeInTree r.root = m.activeInTree r.root :=
      m.activeIn_silent fun _ => rfl
    have hold : m.silent.workers.contains r.id.text = m.workers.contains r.id.text :=
      m.workers.contains_map _
    simp only [answer, hrole, htree, hold]
    split
    · rfl
    · simp only [silent, Keyed.map_insert]
      rfl
  | get id => exact congrArg (·, m.silent) (m.workers.find?_map _)
  | heartbeat id t => cases hq
  | countRole role => exact congrArg (·, m.silent) (m.activeIn_silent fun _ => rfl)
  | countTree root => exact congrArg (·, m.silent) (m.activeIn_silent fun _ => rfl)
  | terminate id => exact m.updateActive_silent id fun _ => rfl
  | degrade id => exact m.updateActive_silent id fun _ => rfl
  | stale t role => exact congrArg (·, m.silent) (m.select_silent fun _ => rfl)
  | list state => exact congrArg (·, m.silent) (m.select_silent fun _ => rfl)
  | swapBreaker d expected next =>
    simp only [answer]
    rw [show m.silent.row d = m.row d from rfl]
    split <;> rfl
  | _ => rfl

/-- Registries that differ in heartbeats only. -/
theorem answer_congr {m' : Memory} (h : m.silent = m'.silent) {q : Request}
    (hq : q.isHeartbeat = false) :
    q.silent (m.answer q).1 = q.silent (m'.answer q).1 ∧
      (m.answer q).2.silent = (m'.answer q).2.silent := by
  have heq := (m.answer_silent hq).symm.trans ((congrArg (·.answer q) h).trans (m'.answer_silent hq))
  exact Prod.mk.inj heq

end Memory
end Registry
end WorkerGuard
