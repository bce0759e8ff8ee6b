import WorkerGuard.Proofs.Breaker.Calls
import WorkerGuard.Proofs.Breaker.Race
import WorkerGuard.Proofs.Registry.Row

/-!
# WorkerGuard.Proofs.Breaker.Solo

A breaker that nobody else changes.

* `Store.Holds d r`: the registry has the row `r` for `d`, as it writes it itself. Then a load finds
  it and a swap that expects it succeeds. `Store.Candid d`: it has no other row that can be read.
* `SoloRow E d O Has`, `SoloWord E d Has`: in the environment `E`, only the program writes the row, or
  the word, of `d`.
* `Steady E d shared Has`: a step of a handle acts on the condition that is there, at a reading of
  the clock, and loses no race. `SoloRow.steady` and `SoloWord.steady` say so of the two sorts.
* `Breaker.transact_unraced`: nor does it where the row may be out of reach at times.
-/

namespace WorkerGuard

open Program Registry

/-- The row of `d` may be written. -/
def Registry.Request.Swaps (d : Dependency) : Request → Prop
  | .swapBreaker d' .. => d' = d
  | _ => False

/-- The row of `d` is read or may be written. -/
def Registry.Request.OfRow (d : Dependency) : Request → Prop
  | .loadBreaker d' => d' = d
  | .swapBreaker d' .. => d' = d
  | _ => False

def Call.Swaps (d : Dependency) : Call → Prop
  | .registry q => q.Swaps d
  | _ => False

namespace Registry

theorem Memory.find?_breakers (m : Memory) {d : Dependency} {q : Request} (hq : ¬q.Swaps d) :
    (m.answer q).2.breakers.find? d.name = m.breakers.find? d.name := by
  cases q with
  | insert r c =>
    simp only [Memory.answer]
    split <;> rfl
  | heartbeat id t => exact congrArg (·.find? d.name) (m.breakers_updateActive _ _)
  | terminate id => exact congrArg (·.find? d.name) (m.breakers_updateActive _ _)
  | degrade id => exact congrArg (·.find? d.name) (m.breakers_updateActive _ _)
  | swapBreaker d' e n =>
    have hne : ¬d.name = d'.name := by
      intro h
      refine hq ?_
      cases d
      cases d'
      exact congrArg Dependency.mk h.symm
    simp only [Memory.answer]
    split <;> simp [hne]
  | _ => rfl

theorem Database.find?_breakers (db : Database) {d : Dependency} {q : Request} (hq : ¬q.Swaps d) :
    (db.answer q).2.breakers.find? d.name = db.breakers.find? d.name := by
  cases q with
  | insert r c =>
    simp only [Database.answer]
    split
    · split <;> rfl
    · rfl
  | get id =>
    simp only [Database.answer]
    split <;> rfl
  | heartbeat id t => exact congrArg (·.find? d.name) (db.breakers_updateActive _ _)
  | terminate id => exact congrArg (·.find? d.name) (db.breakers_updateActive _ _)
  | degrade id => exact congrArg (·.find? d.name) (db.breakers_updateActive _ _)
  | loadBreaker d' =>
    simp only [Database.answer]
    split <;> rfl
  | swapBreaker d' e n =>
    have hne : ¬d.name = d'.name := by
      intro h
      refine hq ?_
      cases d
      cases d'
      exact congrArg Dependency.mk h.symm
    simp only [Database.answer, Database.seeded]
    split <;> split <;> simp [hne]
  | _ => rfl

/-- A load sees one row only. -/
theorem Database.answer_load_congr {db db' : Database} {d : Dependency}
    (h : db'.breakers.find? d.name = db.breakers.find? d.name) :
    (db'.answer (.loadBreaker d)).1 = (db.answer (.loadBreaker d)).1 := by
  simp only [Database.answer, h]
  cases db.breakers.find? d.name with
  | none => rfl
  | some r => rfl

end Registry

namespace Simulation.Store

variable {d : Dependency} {r : Breaker.Row} {s : Store}

def Holds (d : Dependency) (r : Breaker.Row) : Store → Prop
  | memory m => m.row d = r
  | database db => r.stamp.toNat < signedLimit ∧ (db.breakers.find? d.name = some (.ofRow r) ∨
      (db.breakers.find? d.name = none ∧ r = .fresh))

theorem Holds.answer_load (h : s.Holds d r) : s.answer (.loadBreaker d) = (.ok r, s) := by
  cases s with
  | memory m =>
    simp only [answer, Memory.answer]
    rw [show m.row d = r from h]
  | database db =>
    obtain ⟨hlt, hfind | ⟨hfind, rfl⟩⟩ := h
    · simp only [answer, Database.answer, hfind, BreakerRow.read_ofRow hlt]
    · simp only [answer, Database.answer, hfind]

theorem Holds.answer_swap (h : s.Holds d r) (c : Breaker.Condition) :
    ∃ s', s.answer (.swapBreaker d r c.toRow) = (.ok true, s') ∧ s'.Holds d c.toRow := by
  cases s with
  | memory m =>
    have hrow : m.row d = r := h
    refine ⟨memory { m with breakers := m.breakers.insert d.name c.toRow }, ?_, ?_⟩
    · simp only [answer, Memory.answer, if_pos hrow]
    · simp [Holds, Memory.row]
  | database db =>
    have hseeded : (db.seeded d r).breakers.find? d.name = some (.ofRow r) := by
      obtain ⟨_, hfind | ⟨hfind, rfl⟩⟩ := h
      · have hcontains : db.breakers.contains d.name = true := by
          rw [Keyed.contains, hfind]
          rfl
        simp [Database.seeded, hcontains, hfind]
      · have hcontains : db.breakers.contains d.name = false := by
          rw [Keyed.contains, hfind]
          rfl
        simp [Database.seeded, hcontains]
    refine ⟨database { db.seeded d r with
      breakers := (db.seeded d r).breakers.insert d.name (.ofRow c.toRow) }, ?_, c.stamp_toRow_lt, ?_⟩
    · simp only [answer, Database.answer, if_pos hseeded]
    · exact .inl (by simp)

theorem Holds.answer_other (h : s.Holds d r) {q : Request} (hq : ¬q.Swaps d) :
    (s.answer q).2.Holds d r := by
  cases s with
  | memory m =>
    have hfind := m.find?_breakers hq
    show (m.answer q).2.row d = r
    rw [Memory.row, hfind]
    exact h
  | database db =>
    have hfind := db.find?_breakers hq
    show r.stamp.toNat < signedLimit ∧
      ((db.answer q).2.breakers.find? d.name = some (.ofRow r) ∨
        ((db.answer q).2.breakers.find? d.name = none ∧ r = .fresh))
    rw [hfind]
    exact h

/-- A row that can be read is there as the registry writes it. -/
def Candid (d : Dependency) (s : Store) : Prop :=
  ∀ r, (s.answer (.loadBreaker d)).1 = .ok r → s.Holds d r

theorem Holds.candid (h : s.Holds d r) : s.Candid d := by
  intro r' hr'
  rw [h.answer_load] at hr'
  cases hr'
  exact h

theorem candid_iff : s.Candid d ↔
    (∃ r, s.Holds d r) ∨ ∃ why, (s.answer (.loadBreaker d)).1 = .error why := by
  constructor
  · intro h
    cases hload : (s.answer (.loadBreaker d)).1 with
    | ok r => exact .inl ⟨r, h r hload⟩
    | error why => exact .inr ⟨why, rfl⟩
  · rintro (⟨r, hr⟩ | ⟨why, hwhy⟩)
    · exact hr.candid
    · intro r hr
      rw [hwhy] at hr
      cases hr

theorem candid_memory (m : Memory) : (memory m).Candid d := Holds.candid (r := m.row d) rfl

/-- The row is read as before. -/
theorem load_answer_other (s : Store) {q : Request} (hq : ¬q.Swaps d) :
    ((s.answer q).2.answer (.loadBreaker d)).1 = (s.answer (.loadBreaker d)).1 := by
  cases s with
  | memory m =>
    show Except.ok ((m.answer q).2.row d) = .ok (m.row d)
    rw [Memory.row, m.find?_breakers hq]
    rfl
  | database db =>
    exact Database.answer_load_congr (db.find?_breakers hq)

theorem Candid.answer_other (h : s.Candid d) {q : Request} (hq : ¬q.Swaps d) :
    (s.answer q).2.Candid d := by
  intro r hr
  rw [s.load_answer_other hq] at hr
  exact (h r hr).answer_other hq

end Simulation.Store

open Breaker

variable {σ : Type} {E : Environment σ} {d : Dependency} {b : Breaker}

theorem Call.Only.not_swaps {es : List Effect} {q : Call} (h : q.Only es) (hes : .swap ∉ es) :
    ¬q.Swaps d := by
  cases q with
  | registry q =>
    cases q with
    | swapBreaker d' expected next => exact absurd rfl (h.not_effect hes)
    | _ => exact fun h => h
  | _ => exact fun h => h

/-- Only the program writes the row of `d`, if it can be reached: with `O` there may be outages. -/
structure SoloRow (E : Environment σ) (d : Dependency) (O : Prop) (Has : Row → σ → Prop) :
    Prop where
  load : ∀ {r : Row} {h h' : σ} {a : (Call.registry (.loadBreaker d)).Answer}, Has r h →
    E h (.registry (.loadBreaker d)) a h' → (a = .ok r ∨ (O ∧ ∃ why, a = .error why)) ∧ Has r h'
  swap : ∀ {r : Row} {c : Condition} {h h' : σ}
    {a : (Call.registry (.swapBreaker d r c.toRow)).Answer}, Has r h →
    E h (.registry (.swapBreaker d r c.toRow)) a h' →
      (a = .ok true ∧ Has c.toRow h') ∨ (O ∧ (∃ why, a = .error why) ∧ Has r h')
  other : ∀ {r : Row} {h h' : σ} {q : Call} {a : q.Answer}, Has r h →
    E h q a h' → ¬q.Swaps d → Has r h'

/-- Only the program writes the word of `d`. -/
structure SoloWord (E : Environment σ) (d : Dependency) (Has : UInt64 → σ → Prop) : Prop where
  load : ∀ {w : UInt64} {h h' : σ} {a : (Call.word d).Answer}, Has w h → E h (.word d) a h' →
    a = w ∧ Has w h'
  exchange : ∀ {w n : UInt64} {h h' : σ} {a : (Call.exchangeWord d w n).Answer}, Has w h →
    E h (.exchangeWord d w n) a h' → a = w ∧ Has n h'
  now : ∀ {w : UInt64} {h h' : σ} {t : Instant}, Has w h → E h .now t h' → Has w h'

/-- The step found `c`, took a reading of the clock, and has left what it says. -/
def Acted (step : Step) (c : Condition) (Has : Condition → σ → Prop) (l : List Exchange)
    (o : Outcome) (h' : σ) : Prop :=
  ∃ t, ⟨.now, t⟩ ∈ l ∧ o = ⟨c, step c t.millis.toNat⟩ ∧ Has o.last h'

/-- A step of a handle on `d` acts on the condition that is there, and no race is lost. -/
def Steady (E : Environment σ) (d : Dependency) (shared : Bool) (Has : Condition → σ → Prop) :
    Prop :=
  ∀ (b : Breaker) (step : Step) {c h l r h'}, b.dependency = d → b.shared = shared → Has c h →
    Trail E (b.transact step) h l r h' → l.countP Exchange.isLoss = 0 ∧
      ((b.patience = 0 ∧ r = .error .contention ∧ Has c h') ∨
        ∃ o, 0 < b.patience ∧ r = .ok o ∧ Acted step c Has l o h')

namespace SoloRow

variable {O : Prop} {Has : Row → σ → Prop} {step : Step} {row : Row} {h h' : σ} {l : List Exchange}

/-- The condition of the row. -/
def Shows (Has : Row → σ → Prop) (c : Condition) (h : σ) : Prop :=
  ∃ row, Has row h ∧ Condition.ofRow row = c

theorem transactShared (hs : SoloRow E d O Has) {tries : Nat}
    {r : Except Halt (Except Registry.Error Outcome)} (hrow : Has row h)
    (hr : Trail E (transactShared d step tries) h l r h') : l.countP Exchange.isLoss = 0 ∧
      ((tries = 0 ∧ r = .error .contention ∧ Has row h') ∨
        (∃ o, 0 < tries ∧ r = .ok (.ok o) ∧ Acted step (.ofRow row) (Shows Has) l o h') ∨
        (O ∧ (∃ why, r = .ok (.error why)) ∧ Has row h')) := by
  cases tries with
  | zero =>
    obtain ⟨rfl, rfl, rfl⟩ := trail_halt hr
    exact ⟨rfl, .inl ⟨rfl, rfl, hrow⟩⟩
  | succ tries =>
    obtain ⟨found, h₁, l₁, rfl, hload, hr⟩ := trail_call_bind hr
    obtain ⟨rfl | ⟨hO, why, rfl⟩, hrow⟩ := hs.load hrow hload
    · obtain ⟨t, h₂, l₂, rfl, hnow, hr⟩ := trail_call_bind hr
      have hrow := hs.other hrow hnow (fun h => h)
      dsimp only at hr
      split at hr
      · rename_i hstep
        obtain ⟨rfl, rfl, rfl⟩ := trail_pure hr
        exact ⟨rfl, .inr (.inl ⟨_, tries.succ_pos, rfl, t, by simp, by rw [hstep], row, hrow, rfl⟩)⟩
      · rename_i after hstep
        obtain ⟨swapped, h₃, l₃, rfl, hswap, hr⟩ := trail_call_bind hr
        obtain ⟨rfl, hrow⟩ | ⟨hO, ⟨why, rfl⟩, hrow⟩ := hs.swap hrow hswap
        · obtain ⟨rfl, rfl, rfl⟩ := trail_pure hr
          exact ⟨rfl, .inr (.inl
            ⟨_, tries.succ_pos, rfl, t, by simp, by rw [hstep], _, hrow, after.ofRow_toRow⟩)⟩
        · obtain ⟨rfl, rfl, rfl⟩ := trail_pure hr
          exact ⟨rfl, .inr (.inr ⟨hO, ⟨why, rfl⟩, hrow⟩)⟩
    · obtain ⟨rfl, rfl, rfl⟩ := trail_pure hr
      exact ⟨rfl, .inr (.inr ⟨hO, ⟨why, rfl⟩, hrow⟩)⟩

theorem steady (hs : SoloRow E d False Has) : Steady E d true (Shows Has) := by
  rintro b step _ h l r h' rfl hshared ⟨row, hrow, rfl⟩ hr
  unfold transact at hr
  rw [if_pos hshared] at hr
  obtain ⟨found, h₁, l₁, l₂, rfl, hfirst, hr⟩ | ⟨why, rfl, hfirst⟩ := trail_bind hr
  · obtain ⟨hlost, ⟨_, hfound, _⟩ | ⟨o, hpos, hfound, t, ht, ho, row', hrow', hlast⟩ | ⟨hO, _⟩⟩ :=
      hs.transactShared hrow hfirst
    · cases hfound
    · cases hfound
      obtain ⟨_, h₂, l₃, rfl, hword, hr⟩ := trail_call_bind hr
      obtain ⟨rfl, rfl, rfl⟩ := trail_pure hr
      refine ⟨?_, .inr ⟨o, hpos, rfl, t, List.mem_append_left _ ht, ho, row', ?_, hlast⟩⟩
      · rw [List.countP_append, hlost]
        rfl
      · exact hs.other hrow' hword (fun h => h)
    · exact hO.elim
  · obtain ⟨hlost, ⟨hzero, hwhy, hrow'⟩ | ⟨_, _, hwhy, _⟩ | ⟨hO, _⟩⟩ := hs.transactShared hrow hfirst
    · cases hwhy
      exact ⟨hlost, .inl ⟨hzero, rfl, row, hrow', rfl⟩⟩
    · cases hwhy
    · exact hO.elim

end SoloRow

namespace SoloWord

variable {Has : UInt64 → σ → Prop} {step : Step} {h h' : σ} {l : List Exchange}

/-- The condition of the word. -/
def Shows (Has : UInt64 → σ → Prop) (c : Condition) (h : σ) : Prop :=
  ∃ w, Has w h ∧ decode w = c

theorem transactLocal (hs : SoloWord E b.dependency Has) {w : UInt64} {r : Except Halt Outcome}
    (hword : Has w h) (hr : Trail E (b.transactLocal step) h l r h') :
    l.countP Exchange.isLoss = 0 ∧
      ((b.patience = 0 ∧ r = .error .contention ∧ Has w h') ∨
        ∃ o, 0 < b.patience ∧ r = .ok o ∧ Acted step (decode w) (Shows Has) l o h') := by
  obtain ⟨found, h₁, l₁, rfl, hload, hr⟩ := trail_call_bind hr
  obtain ⟨rfl, hword⟩ := hs.load hword hload
  cases hpatience : b.patience with
  | zero =>
    rw [hpatience] at hr
    obtain ⟨rfl, rfl, rfl⟩ := trail_halt hr
    exact ⟨rfl, .inl ⟨rfl, rfl, hword⟩⟩
  | succ tries =>
    rw [hpatience] at hr
    obtain ⟨t, h₂, l₂, rfl, hnow, hr⟩ := trail_call_bind hr
    have hword := hs.now hword hnow
    dsimp only at hr
    split at hr
    · rename_i hstep
      obtain ⟨rfl, rfl, rfl⟩ := trail_pure hr
      exact ⟨rfl, .inr ⟨_, tries.succ_pos, rfl, t, by simp, by rw [hstep], _, hword, rfl⟩⟩
    · rename_i after hstep
      obtain ⟨found, h₃, l₃, rfl, hexchange, hr⟩ := trail_call_bind hr
      obtain ⟨hsame, hword⟩ := hs.exchange hword hexchange
      rw [if_pos hsame] at hr
      obtain ⟨rfl, rfl, rfl⟩ := trail_pure hr
      refine ⟨?_, .inr
        ⟨_, tries.succ_pos, rfl, t, by simp, by rw [hstep], _, hword, decode_encode_toRow after⟩⟩
      simp [Exchange.isLoss, hsame]

theorem steady (hs : SoloWord E d Has) : Steady E d false (Shows Has) := by
  rintro b step _ h l r h' rfl hshared ⟨w, hword, rfl⟩ hr
  unfold transact at hr
  rw [if_neg (by simp [hshared])] at hr
  obtain ⟨hlost, ⟨hzero, rfl, hword'⟩ | hacted⟩ := hs.transactLocal hword hr
  · exact ⟨hlost, .inl ⟨hzero, rfl, w, hword', rfl⟩⟩
  · exact ⟨hlost, .inr hacted⟩

end SoloWord

section Unraced

variable {O : Prop} {HasRow : Row → σ → Prop} {HasWord : UInt64 → σ → Prop} {Unread : σ → Prop}
variable {step : Step} {h h' : σ} {l : List Exchange}
variable (hrows : SoloRow E b.dependency O HasRow)
variable (hload : ∀ h a h', Unread h → E h (.registry (.loadBreaker b.dependency)) a h' →
  ∃ why, a = .error why)
variable (hkeep : ∀ h q a h', Unread h → E h q a h' → ¬q.Swaps b.dependency → Unread h')
include hrows hload hkeep

/-- A row that cannot be read is not written either. -/
theorem transactShared_unraced {tries : Nat} {r : Except Halt (Except Registry.Error Outcome)}
    (hrow : (∃ row, HasRow row h) ∨ Unread h)
    (hr : Trail E (transactShared b.dependency step tries) h l r h') :
    l.countP Exchange.isLoss = 0 ∧ ((∃ row, HasRow row h') ∨ Unread h') := by
  obtain ⟨row, hrow⟩ | hunread := hrow
  · obtain ⟨hlost, ⟨_, _, hrow⟩ | ⟨o, _, _, t, _, _, row', hrow', _⟩ | ⟨_, _, hrow⟩⟩ :=
      hrows.transactShared hrow hr
    · exact ⟨hlost, .inl ⟨row, hrow⟩⟩
    · exact ⟨hlost, .inl ⟨row', hrow'⟩⟩
    · exact ⟨hlost, .inl ⟨row, hrow⟩⟩
  · cases tries with
    | zero =>
      obtain ⟨rfl, _, rfl⟩ := trail_halt hr
      exact ⟨rfl, .inr hunread⟩
    | succ tries =>
      obtain ⟨found, h₁, l₁, rfl, hfound, hr⟩ := trail_call_bind hr
      obtain ⟨why, rfl⟩ := hload _ _ _ hunread hfound
      obtain ⟨rfl, _, rfl⟩ := trail_pure hr
      exact ⟨rfl, .inr (hkeep _ _ _ _ hunread hfound fun h => h)⟩

/-- The row may be out of reach; then the word takes its place. -/
theorem Breaker.transact_unraced (hwords : SoloWord E b.dependency HasWord)
    (hknown : ∀ h, ∃ w, HasWord w h) {r : Except Halt Outcome}
    (hrow : (∃ row, HasRow row h) ∨ Unread h) (hr : Trail E (b.transact step) h l r h') :
    l.countP Exchange.isLoss = 0 ∧ ((∃ row, HasRow row h') ∨ Unread h') := by
  have hother : ∀ {h q a h'}, ((∃ row, HasRow row h) ∨ Unread h) → E h q a h' →
      ¬q.Swaps b.dependency → (∃ row, HasRow row h') ∨ Unread h' := by
    rintro h q a h' (⟨row, hrow⟩ | hunread) hq hswaps
    · exact .inl ⟨row, hrows.other hrow hq hswaps⟩
    · exact .inr (hkeep _ _ _ _ hunread hq hswaps)
  have hlocal : ∀ {h l r h'}, ((∃ row, HasRow row h) ∨ Unread h) →
      Trail E (b.transactLocal step) h l r h' →
      l.countP Exchange.isLoss = 0 ∧ ((∃ row, HasRow row h') ∨ Unread h') := by
    intro h l r h' hrow hr
    obtain ⟨w, hw⟩ := hknown h
    refine ⟨(hwords.transactLocal hw hr).1, ?_⟩
    exact hr.invariant (b.asks_transactLocal step)
      (fun h q a h' hq hrow hE => hother hrow hE (hq.only.not_swaps (by decide))) hrow
  unfold transact at hr
  split at hr
  · obtain ⟨found, h₁, l₁, l₂, rfl, hfirst, hr⟩ | ⟨why, rfl, hfirst⟩ := trail_bind hr
    · obtain ⟨hlost, hrow⟩ := transactShared_unraced hrows hload hkeep hrow hfirst
      rw [List.countP_append, hlost]
      split at hr
      · obtain ⟨_, h₂, l₃, rfl, hword, hr⟩ := trail_call_bind hr
        obtain ⟨rfl, rfl, rfl⟩ := trail_pure hr
        exact ⟨rfl, hother hrow hword fun h => h⟩
      · obtain ⟨hlost', hrow⟩ := hlocal hrow hr
        rw [hlost']
        exact ⟨rfl, hrow⟩
    · exact transactShared_unraced hrows hload hkeep hrow hfirst
  · exact hlocal hrow hr

end Unraced

end WorkerGuard
