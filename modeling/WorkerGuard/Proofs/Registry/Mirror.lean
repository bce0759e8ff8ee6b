import Mathlib.Data.List.Perm.Basic
import WorkerGuard.Proofs.Registry.Listing
import WorkerGuard.Proofs.Registry.Record

/-!
# WorkerGuard.Proofs.Registry.Mirror

The registry in memory and the durable one answer alike.

* `Memory.stored`: the tables that hold what a registry in memory holds.
* `Memory.Tidy`: what is registered can be written into columns and read back.
* `Memory.Tidy.stored_after`, `Memory.Tidy.permits_stored`: one request does the same to both
  registries, and gets the same answer but for the order of workers that were created together.
* `Orderly`: sequences of requests that register each worker once and swap only rows they know.
* `Orderly.level`: after them the database still holds what the registry in memory holds.
* `registries_interchangeable`: both registries answer the next request alike.
-/

namespace WorkerGuard

open Registry

namespace Registry

/-- A worker that can be written into columns and read back. -/
def WorkerRow.Holds (w : Worker) : Prop := w.createdAt.Whole ∧ w.lastHeartbeatAt.Whole

theorem mapM_eq_ok {α β : Type} {f : α → Except Error β} {as : List α} {bs : List β}
    (h : List.Forall₂ (fun a b => f a = .ok b) as bs) : as.mapM f = .ok bs := by
  induction h with
  | nil => rfl
  | cons ha _ ih =>
    rw [List.mapM_cons, ha, ih]
    rfl

/-- What was read came from somewhere, and all of it was read. -/
theorem mem_of_mapM {α β : Type} {f : α → Except Error β} {as : List α} {bs : List β}
    (h : as.mapM f = .ok bs) :
    (∀ b ∈ bs, ∃ a ∈ as, f a = .ok b) ∧ ∀ a ∈ as, ∃ b ∈ bs, f a = .ok b := by
  induction as generalizing bs with
  | nil =>
    cases h
    exact ⟨nofun, nofun⟩
  | cons a as ih =>
    rw [List.mapM_cons] at h
    cases hfirst : f a with
    | error e =>
      rw [hfirst] at h
      cases h
    | ok b =>
      cases hrest : as.mapM f with
      | error e =>
        rw [hfirst, hrest] at h
        cases h
      | ok bs' =>
        rw [hfirst, hrest] at h
        cases h
        obtain ⟨hfrom, hall⟩ := ih hrest
        simp only [List.forall_mem_cons, List.exists_mem_cons_iff]
        exact ⟨⟨.inl hfirst, fun b hb => .inr (hfrom b hb)⟩, .inl hfirst,
          fun a ha => .inr (hall a ha)⟩

namespace Memory

/-- Values are filed under their own names, times are whole milliseconds, and stamps are within the
range of a signed column. -/
structure Tidy (m : Memory) : Prop where
  workers : m.workers.Each fun k w => w.id.text = k ∧ WorkerRow.Holds w
  overrides : m.overrides.Each fun k o => o.dependency.name = k ∧ o.setAt.Whole
  breakers : m.breakers.Each fun _ r => r.stamp.toNat < signedLimit

def stored (m : Memory) : Database :=
  ⟨m.workers.map .ofWorker, m.breakers.map .ofRow, m.overrides.map .ofOverride⟩

/-- A row that a load of the dependency may have given. -/
def Knows (m : Memory) (d : Dependency) (r : Breaker.Row) : Prop :=
  r.stamp.toNat < signedLimit ∧ (r = .fresh ∨ m.breakers.contains d.name = true)

/-- New workers are new, times are whole milliseconds, rows are known and within range. -/
def Expects (m : Memory) : Request → Prop
  | .insert r _ => m.workers.contains r.id.text = false ∧ r.createdAt.Whole
  | .heartbeat _ t => t.Whole
  | .stale t _ => t.Whole
  | .setOverride o => o.setAt.Whole
  | .swapBreaker d expected next => m.Knows d expected ∧ next.stamp.toNat < signedLimit
  | _ => True

variable {m : Memory}

theorem Tidy.row_lt (hm : m.Tidy) (d : Dependency) : (m.row d).stamp.toNat < signedLimit := by
  rw [row]
  cases h : m.breakers.find? d.name with
  | none => decide
  | some r => exact hm.breakers _ r h

theorem Tidy.knows_row (hm : m.Tidy) (d : Dependency) : m.Knows d (m.row d) := by
  refine ⟨hm.row_lt d, ?_⟩
  cases h : m.breakers.find? d.name with
  | none => exact .inl (by rw [row, h]; rfl)
  | some r => exact .inr (by rw [Keyed.contains, h]; rfl)

theorem activeIn_stored (m : Memory) {p : Worker → Bool} {p' : WorkerRow → Bool}
    (hp : ∀ w, p' (.ofWorker w) = p w) : m.stored.activeIn p' = m.activeIn p := by
  have hsame : (fun r => WorkerRow.isActive r && p' r) ∘ WorkerRow.ofWorker =
      fun w => w.isActive && p w :=
    funext fun w => by simp only [Function.comp, WorkerRow.isActive_ofWorker, hp]
  rw [Database.activeIn, activeIn, stored, Keyed.values_map, List.filter_map, hsame,
    List.length_map]

theorem activeOfRole_stored (m : Memory) (role : String) :
    m.stored.activeIn (·.role == role) = m.activeOfRole role :=
  m.activeIn_stored fun _ => rfl

theorem activeInTree_stored (m : Memory) (root : WorkerId) :
    m.stored.activeIn (·.root == root.text) = m.activeInTree root := by
  refine m.activeIn_stored fun w => ?_
  rw [Bool.eq_iff_iff, beq_iff_eq, beq_iff_eq]
  exact ⟨WorkerId.eq_of_text, congrArg WorkerId.text⟩

theorem updateActive_stored (m : Memory) (id : WorkerId) {f : Worker → Worker}
    {g : WorkerRow → WorkerRow} (hf : ∀ w, g (.ofWorker w) = .ofWorker (f w)) :
    m.stored.updateActive id g = ((m.updateActive id f).1, (m.updateActive id f).2.stored) := by
  simp only [Database.updateActive, updateActive, stored, Keyed.find?_map]
  cases m.workers.find? id.text with
  | none => rfl
  | some w =>
    simp only [Option.map_some, WorkerRow.isActive_ofWorker, hf]
    split
    · simp only [Keyed.map_insert]
    · rfl

/-- What a table lists for a worker. -/
def Listed (e : String × WorkerRow) (w : Worker) : Prop :=
  e = (w.id.text, .ofWorker w) ∧ WorkerRow.Holds w

theorem Tidy.listed (hm : m.Tidy) {p : Worker → Bool} {p' : WorkerRow → Bool}
    (hp : ∀ w, WorkerRow.Holds w → p' (.ofWorker w) = p w) :
    List.Forall₂ Listed (m.stored.workers.entries.filter fun e => p' e.2)
      (m.workers.values.filter p) := by
  have hfiled : ∀ e ∈ m.workers.entries, e.2.id.text = e.1 ∧ WorkerRow.Holds e.2 :=
    fun e he => hm.workers e.1 e.2 (Keyed.find?_eq_some_iff.2 he)
  have hsame : ∀ e ∈ m.workers.entries, p' (.ofWorker e.2) = p e.2 :=
    fun e he => hp e.2 (hfiled e he).2
  rw [stored, Keyed.map, Keyed.values, List.filter_map, List.filter_map,
    List.forall₂_map_left_iff, List.forall₂_map_right_iff]
  have hfilter : m.workers.entries.filter ((fun e : String × WorkerRow => p' e.2) ∘
      fun e => (e.1, WorkerRow.ofWorker e.2)) = m.workers.entries.filter (p ∘ (·.2)) :=
    List.filter_congr hsame
  rw [hfilter]
  refine List.forall₂_same.2 fun e he => ?_
  obtain ⟨hid, hold⟩ := hfiled e (List.mem_of_mem_filter he)
  exact ⟨by rw [hid], hold⟩

theorem eq_map_of_listed {es : List (String × WorkerRow)} {ws : List Worker}
    (h : List.Forall₂ Listed es ws) :
    es = ws.map (fun w => (w.id.text, .ofWorker w)) ∧ ∀ w ∈ ws, WorkerRow.Holds w := by
  induction h with
  | nil => exact ⟨rfl, by simp⟩
  | cons hw _ ih => exact ⟨by rw [List.map_cons, hw.1, ih.1], List.forall_mem_cons.2 ⟨hw.2, ih.2⟩⟩

theorem byCreation_of_listed {es : List (String × WorkerRow)} {ws : List Worker}
    (h : List.Forall₂ Listed es ws)
    (hes : es.Pairwise fun e e' => e.2.createdAt ≤ e'.2.createdAt) : ByCreation ws := by
  obtain ⟨rfl, hold⟩ := eq_map_of_listed h
  refine (List.pairwise_map.1 hes).imp_of_mem fun {w w'} hw hw' hle => ?_
  exact ((hold w hw).1.millis_le (hold w' hw').1).1 hle

/-- A missing row is known as a fresh one, so either registry then writes the next one. -/
theorem swap_stored {d : Dependency} {expected next : Breaker.Row}
    (hknown : m.Knows d expected) :
    m.stored.answer (.swapBreaker d expected next) =
      (.ok (m.answer (.swapBreaker d expected next)).1,
        (m.answer (.swapBreaker d expected next)).2.stored) := by
  have hfind : m.stored.breakers.find? d.name = (m.breakers.find? d.name).map .ofRow :=
    Keyed.find?_map _ _
  cases h : m.breakers.find? d.name with
  | none =>
    have hfresh : expected = .fresh := by
      obtain h' | h' := hknown.2
      · exact h'
      · rw [Keyed.contains, h] at h'
        cases h'
    have hrow : m.row d = expected := by rw [row, h, hfresh]; rfl
    have hseeded : m.stored.seeded d expected = { m.stored with
        breakers := m.stored.breakers.insert d.name (.ofRow expected) } := by
      rw [Database.seeded, if_pos ⟨hfresh, by rw [Keyed.contains, hfind, h]; simp⟩, hfresh]
    simp only [Database.answer, answer, hseeded, Keyed.find?_insert, if_true, if_pos hrow,
      Keyed.insert_insert]
    simp only [stored, Keyed.map_insert]
  | some r =>
    have hrow : m.row d = r := by rw [row, h]; rfl
    have hseeded : m.stored.seeded d expected = m.stored := by
      rw [Database.seeded, if_neg (by rw [Keyed.contains, hfind, h]; simp)]
    simp only [Database.answer, answer, hseeded, hfind, h, hrow, Option.map_some,
      Option.some.injEq, BreakerRow.ofRow_inj]
    split
    · simp only [stored, Keyed.map_insert]
    · rw [Keyed.insert_same h]

/-- The rows that a database lists are those of the workers, in whatever order it lists them. -/
theorem Tidy.lists_stored (hm : m.Tidy) {p : Worker → Bool} {p' : WorkerRow → Bool}
    (hp : ∀ w, WorkerRow.Holds w → p' (.ofWorker w) = p w) {a : Except Error (List Worker)}
    (ha : m.stored.Lists p' a) :
    ∃ ws, a = .ok ws ∧ SameButTies ws (oldestFirst (m.workers.values.filter p)) := by
  obtain ⟨es, hes, hsorted, rfl⟩ := ha
  obtain ⟨ws, hws, hperm⟩ := List.perm_comp_forall₂ hes (hm.listed hp)
  refine ⟨ws, mapM_eq_ok (hws.imp ?_), .of_perm (hperm.trans (List.mergeSort_perm _ _).symm)
    (byCreation_of_listed hws hsorted) (byCreation_oldestFirst _)⟩
  rintro _ w ⟨rfl, hc, hb⟩
  exact WorkerRow.read_ofWorker hc hb

theorem Tidy.answer_stored (hm : m.Tidy) {q : Request} (hq : m.Expects q)
    (hlisting : q.isListing = false) :
    m.stored.answer q = (.ok (m.answer q).1, (m.answer q).2.stored) := by
  cases q with
  | insert r c =>
    have hnew : m.stored.workers.contains r.id.text = false :=
      (m.workers.contains_map _).trans hq.1
    simp only [Database.answer, answer, activeOfRole_stored, activeInTree_stored, hnew, hq.1]
    by_cases hroom : m.activeOfRole r.role < c.role.toNat ∧ m.activeInTree r.root < c.tree.toNat
    · rw [if_pos hroom, if_neg (by decide), if_neg (by simp; omega)]
      simp only [stored, Keyed.map_insert]
      rfl
    · rw [if_neg hroom, if_pos (by omega)]
  | get id =>
    simp only [Database.answer, answer, stored, Keyed.find?_map]
    cases h : m.workers.find? id.text with
    | none => rfl
    | some w =>
      obtain ⟨hid, hold⟩ := hm.workers _ w h
      have hread := WorkerRow.read_ofWorker hold.1 hold.2
      rw [hid] at hread
      simp only [Option.map_some, hread]
      rfl
  | heartbeat id t =>
    have h := m.updateActive_stored id (f := fun w => { w with lastHeartbeatAt := t })
      (g := fun r => { r with lastHeartbeatAt := t.millis }) fun _ => rfl
    simp only [Database.answer, answer, h]
  | countRole role => simp only [Database.answer, answer, activeOfRole_stored]
  | countTree root => simp only [Database.answer, answer, activeInTree_stored]
  | terminate id =>
    have h := m.updateActive_stored id (f := fun w => { w with state := .terminated })
      (g := fun r => { r with state := Worker.State.terminated.name }) fun _ => rfl
    simp only [Database.answer, answer, h]
  | degrade id =>
    have h := m.updateActive_stored id (f := fun w => { w with state := .degraded })
      (g := fun r => { r with state := Worker.State.degraded.name }) fun _ => rfl
    simp only [Database.answer, answer, h]
  | stale t role => cases hlisting
  | list state => cases hlisting
  | setOverride o =>
    simp only [Database.answer, answer, stored, Keyed.map_insert]
    rfl
  | clearOverride d =>
    simp only [Database.answer, answer, stored, Keyed.map_erase, Keyed.contains_map]
  | listOverrides =>
    have h : m.stored.overrides.entries.mapM (fun e => e.2.read e.1) =
        .ok m.overrides.values := by
      refine mapM_eq_ok (List.forall₂_map_left_iff.2 (List.forall₂_map_right_iff.2 ?_))
      refine List.forall₂_same.2 fun e he => ?_
      obtain ⟨hname, hwhole⟩ := hm.overrides e.1 e.2 (Keyed.find?_eq_some_iff.2 he)
      rw [← hname]
      exact OverrideRow.read_ofOverride hwhole
    simp only [Database.answer, answer, h]
  | loadBreaker d =>
    simp only [Database.answer, answer, stored, Keyed.find?_map, row]
    cases h : m.breakers.find? d.name with
    | none => rfl
    | some r => simp only [Option.map_some, BreakerRow.read_ofRow (hm.breakers _ r h)]; rfl
  | swapBreaker d expected next => exact swap_stored hq.1
  | listBreakers =>
    have h : m.stored.breakers.entries.mapM (fun e => do
        let r ← e.2.read
        return ((⟨e.1⟩ : Dependency), r)) = .ok (m.breakers.entries.map fun e => (⟨e.1⟩, e.2)) := by
      refine mapM_eq_ok (List.forall₂_map_left_iff.2 (List.forall₂_map_right_iff.2 ?_))
      refine List.forall₂_same.2 fun e he => ?_
      rw [BreakerRow.read_ofRow (hm.breakers e.1 e.2 (Keyed.find?_eq_some_iff.2 he))]
      rfl
    simp only [Database.answer, answer, h]

/-- One request does the same to both registries. -/
theorem Tidy.stored_after (hm : m.Tidy) {q : Request} (hq : m.Expects q) :
    (m.stored.answer q).2 = (m.answer q).2.stored := by
  cases q with
  | stale t role => rfl
  | list state => rfl
  | _ => exact congrArg Prod.snd (hm.answer_stored hq rfl)

/-- One request gets the same answer from both registries, but for the order among ties. -/
theorem Tidy.permits_stored (hm : m.Tidy) {q : Request} (hq : m.Expects q)
    {a : Except Error q.Answer} (ha : m.stored.Permits q a) :
    ∃ b, a = .ok b ∧ q.Agree b (m.answer q).1 := by
  cases q with
  | stale t role =>
    simp only [Database.Permits] at ha
    refine hm.lists_stored (fun w hw => ?_) ha
    have htime : decide (w.createdAt.millis < t.millis) = decide (w.createdAt < t) :=
      decide_eq_decide.2 (hw.1.millis_lt hq)
    rw [WorkerRow.isActive_ofWorker]
    exact congrArg (fun b => w.isActive && b && role.all (w.role == ·)) htime
  | list state =>
    simp only [Database.Permits] at ha
    refine hm.lists_stored (fun w _ => ?_) ha
    cases state with
    | none => rfl
    | some s => exact Worker.State.name_beq w.state s
  | _ => exact ⟨_, ha.trans (congrArg Prod.fst (hm.answer_stored hq rfl)), rfl⟩

theorem tidy_empty : empty.Tidy := ⟨Keyed.each_empty, Keyed.each_empty, Keyed.each_empty⟩

theorem Tidy.updateActive (hm : m.Tidy) (id : WorkerId) {f : Worker → Worker}
    (hf : ∀ w, WorkerRow.Holds w → (f w).id = w.id ∧ WorkerRow.Holds (f w)) :
    (m.updateActive id f).2.Tidy := by
  unfold Memory.updateActive
  split
  · rename_i w hw
    split
    · obtain ⟨hid, hold⟩ := hm.workers _ w hw
      obtain ⟨hid', hold'⟩ := hf w hold
      exact ⟨hm.workers.insert ⟨by rw [hid', hid], hold'⟩, hm.overrides, hm.breakers⟩
    · exact hm
  · exact hm

theorem Tidy.answer (hm : m.Tidy) {q : Request} (hq : m.Expects q) : (m.answer q).2.Tidy := by
  cases q with
  | insert r c =>
    simp only [Memory.answer]
    split
    · exact hm
    · exact ⟨hm.workers.insert ⟨rfl, hq.2, hq.2⟩, hm.overrides, hm.breakers⟩
  | heartbeat id t => exact hm.updateActive id fun w hw => ⟨rfl, hw.1, hq⟩
  | terminate id => exact hm.updateActive id fun w hw => ⟨rfl, hw⟩
  | degrade id => exact hm.updateActive id fun w hw => ⟨rfl, hw⟩
  | setOverride o => exact ⟨hm.workers, hm.overrides.insert ⟨rfl, hq⟩, hm.breakers⟩
  | clearOverride d => exact ⟨hm.workers, hm.overrides.erase, hm.breakers⟩
  | swapBreaker d expected next =>
    simp only [Memory.answer]
    split
    · exact ⟨hm.workers, hm.overrides, hm.breakers.insert hq.2⟩
    · exact ⟨hm.workers, hm.overrides, hm.breakers.insert (hm.row_lt d)⟩
  | _ => exact hm

/-- No request takes the row of a breaker away. -/
theorem Knows.answer {d : Dependency} {r : Breaker.Row} (h : m.Knows d r) (q : Request) :
    (m.answer q).2.Knows d r := by
  refine ⟨h.1, h.2.imp_right fun hrow => ?_⟩
  cases q with
  | insert r c =>
    simp only [Memory.answer]
    split <;> exact hrow
  | heartbeat id t => exact (congrArg (·.contains d.name) (m.breakers_updateActive id _)).trans hrow
  | terminate id => exact (congrArg (·.contains d.name) (m.breakers_updateActive id _)).trans hrow
  | degrade id => exact (congrArg (·.contains d.name) (m.breakers_updateActive id _)).trans hrow
  | swapBreaker d' expected next =>
    simp only [Memory.answer]
    split <;> exact Keyed.contains_insert_of_contains hrow
  | _ => exact hrow

/-- The registry after it has answered requests. -/
def after (m : Memory) (qs : List Request) : Memory := qs.foldl (fun m q => (m.answer q).2) m

theorem after_concat (m : Memory) (qs : List Request) (q : Request) :
    m.after (qs ++ [q]) = ((m.after qs).answer q).2 := List.foldl_append

end Memory

/-- The registry after it has answered requests. -/
def Database.after (db : Database) (qs : List Request) : Database :=
  qs.foldl (fun db q => (db.answer q).2) db

theorem Database.after_concat (db : Database) (qs : List Request) (q : Request) :
    db.after (qs ++ [q]) = ((db.after qs).answer q).2 := List.foldl_append

/-- What the request itself says fits into columns. -/
def Request.Fits : Request → Prop
  | .insert r _ => r.createdAt.Whole
  | .heartbeat _ t => t.Whole
  | .stale t _ => t.Whole
  | .setOverride o => o.setAt.Whole
  | .swapBreaker _ _ next => next.stamp.toNat < signedLimit
  | _ => True

/-- Requests from the start on, with whole milliseconds and stamps below 2^63: workers are new when
they are registered, and a row that a swap expects was given by an earlier load. -/
structure Orderly (qs : List Request) : Prop where
  fits : ∀ q ∈ qs, q.Fits
  fresh : ∀ k r c, qs[k]? = some (.insert r c) →
    (Memory.empty.after (qs.take k)).workers.contains r.id.text = false
  loaded : ∀ k d expected next, qs[k]? = some (.swapBreaker d expected next) →
    ∃ j < k, qs[j]? = some (.loadBreaker d) ∧
      ((Memory.empty.after (qs.take j)).answer (.loadBreaker d)).1 = expected

/-- Both registries after some of the requests. -/
structure Level (qs : List Request) (k : Nat) (m : Memory) (db : Database) : Prop where
  tidy : m.Tidy
  stored : db = m.stored
  knows : ∀ j < k, ∀ d, qs[j]? = some (.loadBreaker d) →
    m.Knows d ((Memory.empty.after (qs.take j)).row d)

theorem Orderly.expects {qs : List Request} (h : Orderly qs) {k : Nat} {q : Request}
    (hq : qs[k]? = some q) {db : Database}
    (hl : Level qs k (Memory.empty.after (qs.take k)) db) :
    (Memory.empty.after (qs.take k)).Expects q := by
  have hfits := h.fits q (List.mem_of_getElem? hq)
  cases q with
  | insert r c => exact ⟨h.fresh k r c hq, hfits⟩
  | swapBreaker d expected next =>
    obtain ⟨j, hj, hload, rfl⟩ := h.loaded k d expected next hq
    exact ⟨hl.knows j hj d hload, hfits⟩
  | _ => exact hfits

theorem Orderly.level {qs : List Request} (h : Orderly qs) {k : Nat} (hk : k ≤ qs.length) :
    Level qs k (Memory.empty.after (qs.take k)) (Database.empty.after (qs.take k)) := by
  induction k with
  | zero => exact ⟨Memory.tidy_empty, rfl, fun j hj => absurd hj (Nat.not_lt_zero j)⟩
  | succ k ih =>
    have hl := ih (by omega)
    have hq : qs[k]? = some qs[k] := List.getElem?_eq_getElem (by omega)
    have hexpects := h.expects hq hl
    have htake : qs.take (k + 1) = qs.take k ++ [qs[k]] := by simp
    rw [htake, Memory.after_concat, Database.after_concat]
    refine ⟨hl.tidy.answer hexpects, ?_, fun j hj d hload => ?_⟩
    · rw [hl.stored, hl.tidy.stored_after hexpects]
    · refine Memory.Knows.answer ?_ _
      obtain hj | rfl := Nat.lt_succ_iff_lt_or_eq.1 hj
      · exact hl.knows j hj d hload
      · exact hl.tidy.knows_row d

/-- Whatever was requested before, both registries give the same answer to the next request, but
for the order in which they list workers that were created together. -/
theorem registries_interchangeable {qs : List Request} (h : Orderly qs) {k : Nat} {q : Request}
    (hq : qs[k]? = some q) :
    (∀ a, (Database.empty.after (qs.take k)).Permits q a →
      ∃ b, a = .ok b ∧ q.Agree b ((Memory.empty.after (qs.take k)).answer q).1) ∧
    (Database.empty.after (qs.take k)).Permits q
      ((Database.empty.after (qs.take k)).answer q).1 := by
  have hl := h.level (Nat.le_of_lt (List.getElem?_eq_some_iff.1 hq).1)
  refine ⟨fun a ha => ?_, Database.permits_answer _ _⟩
  rw [hl.stored] at ha
  exact hl.tidy.permits_stored (h.expects hq hl) ha

section Twins

/-- A worker that is created at the first instant of 1970. -/
def twin (name : String) : Recruit :=
  ⟨⟨name⟩, "coder", none, ⟨name⟩, 0, ⟨"model"⟩, .epoch⟩

/-- Two workers are created together, and a breaker opens. -/
def twins : List Request :=
  [.insert (twin "b") ⟨2, 2⟩, .insert (twin "a") ⟨2, 2⟩, .loadBreaker ⟨"model"⟩,
    .swapBreaker ⟨"model"⟩ .fresh ⟨.opened, 1, 7⟩, .list none]

theorem orderly_twins : Orderly twins := by
  have hepoch : Instant.epoch.Whole := ⟨0, rfl⟩
  refine ⟨?_, ?_, ?_⟩
  · simp [twins, Request.Fits, twin, hepoch, signedLimit]
  · rintro (_ | _ | _ | _ | _ | k) r c hk <;> cases hk <;> decide +kernel
  · rintro (_ | _ | _ | _ | _ | k) d expected next hk <;> cases hk
    exact ⟨2, by decide, rfl, rfl⟩

theorem twins_interchangeable : Orderly twins ∧ twins[4]? = some (.list none) ∧
    (∀ a, (Database.empty.after (twins.take 4)).Permits (.list none) a →
      ∃ b, a = .ok b ∧ SameButTies b ((Memory.empty.after (twins.take 4)).answer (.list none)).1) ∧
    (Database.empty.after (twins.take 4)).Permits (.list none)
      ((Database.empty.after (twins.take 4)).answer (.list none)).1 :=
  ⟨orderly_twins, rfl, registries_interchangeable orderly_twins rfl⟩

end Twins

end Registry
end WorkerGuard
