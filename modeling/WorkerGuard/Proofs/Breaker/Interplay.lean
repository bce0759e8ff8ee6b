import WorkerGuard.Proofs.Breaker.Caller
import WorkerGuard.Proofs.Breaker.Calls
import WorkerGuard.Proofs.Program.Abides
import WorkerGuard.Proofs.Registry.Row

/-!
# WorkerGuard.Proofs.Breaker.Interplay

Callers at work on one row, their loads and swaps in any order.

* `Thread.Account`: where a call stands, and at which moments the exchanges were made that decide it.
* `Schedule.row`, `Schedule.clockAt`: the row and the last reading of the clock at a moment.
* `Schedule.Wrote`: a call that has replaced the row, and what it says of the moments before.
* `Schedule.still_or_wrote`: nothing else changes the row.
-/

namespace WorkerGuard

open Breaker Exchange Program Simulation

variable {d : Dependency}

theorem Caller.asks_program (c : Caller d) : c.program.Asks (Call.OfBreaker d) := by
  obtain ⟨b, operation, _, rfl⟩ := c
  cases operation with
  | allow => exact asks_bind b.asks_allow fun _ => asks_pure _
  | recordSuccess => exact asks_bind b.asks_recordSuccess fun _ => asks_pure _
  | recordFailure => exact asks_bind b.asks_recordFailure fun _ => asks_pure _

theorem Simulation.Store.readable_answer {s : Store} {q : Registry.Request} (h : s.Readable d)
    (hq : (Call.registry q).OfBreaker d) : (s.answer q).2.Readable d := by
  cases q with
  | loadBreaker d' =>
    obtain rfl : d' = d := hq
    rw [Store.answer_loadBreaker h]
    exact h
  | swapBreaker d' e n =>
    obtain ⟨rfl, c, rfl⟩ : d' = d ∧ ∃ c : Condition, n = c.toRow := hq
    obtain ⟨s', hs', _, hread, _⟩ | ⟨s', hs', hread, _⟩ :=
      Store.answer_swapBreaker (e := e) h c.stamp_toRow_lt
    · rw [hs']; exact hread
    · rw [hs']; exact hread
  | _ => cases hq

namespace Reply

variable {κ : Type} {m : ThreadStep κ} {w w' : Store × Instant}

theorem of_loads {row : Row} (h : Reply m w (loads d row) w') (hr : w.1.Readable d) :
    row = w.1.row d ∧ w' = w := by
  obtain ⟨ha, hw⟩ | ⟨_, _, _, ha, _⟩ := h.of_registry
  · rw [Store.answer_loadBreaker hr] at ha hw
    cases ha
    exact ⟨rfl, hw⟩
  · cases ha

/-- What a swap did, if what it expected is a row that the registry can give. -/
theorem of_swaps {e : Row} {c : Condition} {swapped : Bool}
    (h : Reply m w (swaps d e c.toRow swapped) w') (hr : w.1.Readable d) :
    if swapped then (w.1.Fits e → e = w.1.row d) ∧ w'.1.row d = c.toRow
    else w'.1.row d = w.1.row d := by
  obtain ⟨ha, hw⟩ | ⟨_, _, _, ha, _⟩ := h.of_registry
  · obtain ⟨s', hs', he, _, hrow⟩ | ⟨s', hs', _, hrow⟩ :=
      Store.answer_swapBreaker (e := e) hr c.stamp_toRow_lt
    · rw [hs'] at ha hw
      cases ha
      rw [hw]
      exact ⟨he, hrow⟩
    · rw [hs'] at ha hw
      cases ha
      rw [hw]
      exact hrow
  · cases ha

/-- A registry that can be reached and read answers a handle. -/
theorem answered {x : Exchange} (h : Reply m w x w') (hm : ∀ i why, m ≠ .fails i why)
    (hx : x.call.OfBreaker d) (hr : w.1.Readable d) : x.Answered := by
  obtain ⟨q, a⟩ := x
  cases q with
  | registry q =>
    obtain ⟨ha, _⟩ | ⟨i, why, hf, _⟩ := h.of_registry
    · cases q with
      | loadBreaker d' =>
        obtain rfl : d' = d := hx
        rw [ha, Store.answer_loadBreaker hr]
        trivial
      | swapBreaker d' e n =>
        obtain ⟨rfl, c, rfl⟩ : d' = d ∧ ∃ c : Condition, n = c.toRow := hx
        obtain ⟨s', hs', _⟩ | ⟨s', hs', _⟩ :=
          Store.answer_swapBreaker (e := e) hr c.stamp_toRow_lt
        · rw [ha, hs']; trivial
        · rw [ha, hs']; trivial
      | _ => cases hx
    · exact absurd hf (hm i why)
  | _ => trivial

/-- Only a swap that succeeds changes the row. -/
theorem row_eq {x : Exchange} (h : Reply m w x w') (hx : x.call.OfBreaker d)
    (hr : w.1.Readable d) (hwin : x.isWin = false) : w'.1.row d = w.1.row d := by
  obtain ⟨q, a⟩ := x
  cases q with
  | registry q =>
    cases q with
    | loadBreaker d' =>
      obtain rfl : d' = d := hx
      cases a with
      | ok row => rw [(h.of_loads hr).2]
      | error e =>
        obtain ⟨ha, _⟩ | ⟨_, _, _, _, hw⟩ := h.of_registry
        · rw [Store.answer_loadBreaker hr] at ha
          cases ha
        · rw [hw]
    | swapBreaker d' e n =>
      obtain ⟨rfl, c, rfl⟩ : d' = d ∧ ∃ c : Condition, n = c.toRow := hx
      cases a with
      | ok swapped =>
        obtain rfl : swapped = false := hwin
        exact h.of_swaps hr
      | error why =>
        obtain ⟨ha, _⟩ | ⟨_, _, _, _, hw⟩ := h.of_registry
        · obtain ⟨s', hs', _⟩ | ⟨s', hs', _⟩ :=
            Store.answer_swapBreaker (e := e) hr c.stamp_toRow_lt
          · rw [hs'] at ha; cases ha
          · rw [hs'] at ha; cases ha
        · rw [hw]
    | _ => cases hx
  | _ => rw [h.store_eq fun _ => by simp]

end Reply

/-- A standing with the moments of the exchanges that decide a call. -/
inductive Thread.Account (th : Thread (Caller d) (Option Bool)) : Prop where
  | undecided (hpast : ∀ e ∈ th.past, e.2.isWin = false) (hrest : ∀ a, th.rest ≠ done a)
  | refused (p : Nat) (hu : th.job.operation = .allow) (hpast : th.past = [(p, ⟨.forced d, true⟩)])
      (hrest : th.rest = done (some false))
  | fallen (hpast : ∀ e ∈ th.past, e.2.isWin = false) (hx : ∃ e ∈ th.past, ¬e.2.Answered)
  | kept (k₀ k₁ : List (Nat × Exchange)) (row : Row) (now : Instant) (p₀ p₁ : Nat)
      (hpast : th.past = k₀ ++ [(p₀, loads d row), (p₁, reads now)] ++ k₁)
      (h₀ : ∀ e ∈ k₀, e.2.Idle) (hs : th.job.step (.ofRow row) now.millis.toNat = none)
      (h₁ : ∀ e ∈ k₁, ∃ w, e.2 = ⟨.setWord d w, ()⟩)
      (hrest : ∀ a, th.rest = done a → a = th.job.answer ⟨.ofRow row, none⟩)
  | wrote (k₀ k₁ : List (Nat × Exchange)) (row : Row) (after : Condition) (now : Instant)
      (p₀ p₁ p : Nat)
      (hpast : th.past =
        k₀ ++ [(p₀, loads d row), (p₁, reads now), (p, swaps d row after.toRow true)] ++ k₁)
      (h₀ : ∀ e ∈ k₀, e.2.Idle) (hs : th.job.step (.ofRow row) now.millis.toNat = some after)
      (h₁ : ∀ e ∈ k₁, ∃ w, e.2 = ⟨.setWord d w, ()⟩)
      (hrest : ∀ a, th.rest = done a → a = th.job.answer ⟨.ofRow row, some after⟩)

/-- The registry answered all requests of a call. -/
def Thread.Reached (th : Thread (Caller d) (Option Bool)) : Prop := ∀ e ∈ th.past, e.2.Answered

theorem Thread.account {th : Thread (Caller d) (Option Bool)}
    (h : th.job.Standing (th.past.map (·.2)) th.rest) : th.Account := by
  have stamped : ∀ {l₀ m l₁ : List Exchange}, th.past.map (·.2) = l₀ ++ m ++ l₁ →
      ∃ k₀ k k₁, th.past = k₀ ++ k ++ k₁ ∧ k₀.map (·.2) = l₀ ∧ k.map (·.2) = m ∧
        k₁.map (·.2) = l₁ := by
    intro l₀ m l₁ h
    obtain ⟨k, k₁, hpast, hk, hk₁⟩ := List.map_eq_append_iff.1 h
    obtain ⟨k₀, k, rfl, hk₀, hk⟩ := List.map_eq_append_iff.1 hk
    exact ⟨k₀, k, k₁, hpast, hk₀, hk, hk₁⟩
  generalize hl : th.past.map (·.2) = l at h
  generalize hp : th.rest = rest at h
  cases h with
  | undecided hw hr =>
    refine .undecided (fun e he => hw e.2 ?_) fun a => ?_
    · rw [← hl]; exact List.mem_map_of_mem he
    · rw [hp]; exact hr a
  | refused hu =>
    obtain ⟨⟨p, x⟩, hpast, hx⟩ := List.map_eq_singleton_iff.1 hl
    cases hx
    exact .refused p hu hpast hp
  | fallen hw hx =>
    refine .fallen (fun e he => hw e.2 ?_) ?_
    · rw [← hl]; exact List.mem_map_of_mem he
    · obtain ⟨x, hmem, hx⟩ := hx
      rw [← hl] at hmem
      obtain ⟨e, he, rfl⟩ := List.mem_map.1 hmem
      exact ⟨e, he, hx⟩
  | @kept l₀ l₁ _ row now h₀ hs h₁ hr =>
    obtain ⟨k₀, k, k₁, hpast, rfl, hk, rfl⟩ := stamped hl
    obtain ⟨⟨p₀, x₀⟩, k, rfl, hx₀, hk⟩ := List.map_eq_cons_iff.1 hk
    obtain ⟨⟨p₁, x₁⟩, k, rfl, hx₁, hk⟩ := List.map_eq_cons_iff.1 hk
    obtain rfl := List.map_eq_nil_iff.1 hk
    cases hx₀
    cases hx₁
    refine .kept k₀ k₁ row now p₀ p₁ hpast (fun e he => h₀ e.2 (List.mem_map_of_mem he)) hs
      (fun e he => h₁ e.2 (List.mem_map_of_mem he)) ?_
    rw [hp]; exact hr
  | @wrote l₀ l₁ _ row now after h₀ hs h₁ hr =>
    obtain ⟨k₀, k, k₁, hpast, rfl, hk, rfl⟩ := stamped hl
    obtain ⟨⟨p₀, x₀⟩, k, rfl, hx₀, hk⟩ := List.map_eq_cons_iff.1 hk
    obtain ⟨⟨p₁, x₁⟩, k, rfl, hx₁, hk⟩ := List.map_eq_cons_iff.1 hk
    obtain ⟨⟨p, x₂⟩, k, rfl, hx₂, hk⟩ := List.map_eq_cons_iff.1 hk
    obtain rfl := List.map_eq_nil_iff.1 hk
    cases hx₀
    cases hx₁
    cases hx₂
    refine .wrote k₀ k₁ row after now p₀ p₁ p hpast
      (fun e he => h₀ e.2 (List.mem_map_of_mem he)) hs
      (fun e he => h₁ e.2 (List.mem_map_of_mem he)) ?_
    rw [hp]; exact hr

/-- Replacements stand between idle exchanges and those that only set the word. -/
theorem Thread.mem_of_isWin {th : Thread (Caller d) (Option Bool)}
    {k₀ k k₁ : List (Nat × Exchange)} (hpast : th.past = k₀ ++ k ++ k₁)
    (h₀ : ∀ e ∈ k₀, e.2.Idle) (h₁ : ∀ e ∈ k₁, ∃ w, e.2 = ⟨.setWord d w, ()⟩)
    {e : Nat × Exchange} (he : e ∈ th.past) (hwin : e.2.isWin = true) : e ∈ k := by
  rw [hpast] at he
  simp only [List.mem_append] at he
  obtain (he | he) | he := he
  · rw [(h₀ e he).1] at hwin
    cases hwin
  · exact he
  · obtain ⟨w, hw⟩ := h₁ e he
    rw [hw] at hwin
    cases hwin

namespace Schedule

variable {y : Schedule (Caller d)} {t : Nat} {th : Thread (Caller d) (Option Bool)}

/-- The row at a moment. -/
def row (y : Schedule (Caller d)) (t : Nat) : Row := (y.config Caller.program t).store.row d

/-- The last reading of the clock before a moment. -/
def clockAt (y : Schedule (Caller d)) (t : Nat) : Instant := (y.config Caller.program t).clock

theorem readable (hr : y.store.Readable d) (t : Nat) :
    (y.config Caller.program t).store.Readable d :=
  y.store_invariant Caller.asks_program (fun _ _ => Store.readable_answer) hr t

/-- The registry does not change its kind. -/
theorem fits_iff (y : Schedule (Caller d)) (r : Row) (t : Nat) :
    (y.config Caller.program t).store.Fits r ↔ y.store.Fits r := by
  refine y.store_invariant (I := fun s => s.Fits r ↔ y.store.Fits r) Caller.asks_program
    (fun s q hs _ => ?_) Iff.rfl t
  rw [Store.fits_answer]
  exact hs

theorem reply_of_mem (hth : th ∈ (y.config Caller.program t).threads) {p : Nat} {x : Exchange}
    (hx : (p, x) ∈ th.past) :
    Reply (y.steps p) (y.config Caller.program p).world x (y.config Caller.program (p + 1)).world :=
  (y.traced Caller.program t).reply th hth (p, x) hx

theorem ofBreaker_of_mem (hth : th ∈ (y.config Caller.program t).threads) {e : Nat × Exchange}
    (he : e ∈ th.past) : e.2.call.OfBreaker d := by
  have hpath := (y.traced Caller.program t).path th hth
  exact (th.job.asks_program.path hpath).2 e.2 (List.mem_map_of_mem he)

/-- Every call of a schedule has an account. -/
theorem account (hth : th ∈ (y.config Caller.program t).threads) : th.Account :=
  Thread.account (Caller.standing ((y.traced Caller.program t).path th hth))

/-- If the registry can always be reached, and the row be read, no call misses it. -/
theorem reached_of_steady (hs : y.Steady) (hr : y.store.Readable d)
    (hth : th ∈ (y.config Caller.program t).threads) : th.Reached := fun _ he =>
  (reply_of_mem hth he).answered (hs _) (ofBreaker_of_mem hth he) (readable hr _)

/-- Only a swap that succeeds changes the row. -/
theorem row_still (hr : y.store.Readable d) (hth : th ∈ (y.config Caller.program t).threads)
    {p : Nat} {x : Exchange} (hx : (p, x) ∈ th.past) (hwin : x.isWin = false) :
    y.row (p + 1) = y.row p :=
  (reply_of_mem hth hx).row_eq (ofBreaker_of_mem hth hx) (readable hr p) hwin

theorem row_loaded (hr : y.store.Readable d) (hth : th ∈ (y.config Caller.program t).threads)
    {p : Nat} {e : Row} (hx : (p, loads d e) ∈ th.past) : e = y.row p :=
  ((reply_of_mem hth hx).of_loads (readable hr p)).1

/-- A call that has replaced the row, with the moments of its last three exchanges. -/
structure Wrote (y : Schedule (Caller d)) (th : Thread (Caller d) (Option Bool)) (e : Row)
    (after : Condition) (now : Instant) (p₀ p₁ p : Nat) : Prop where
  load_lt : p₀ < p₁
  reading_lt : p₁ < p
  loaded : y.row p₀ = e
  reading : y.clockAt (p₁ + 1) = now
  step : th.job.step (.ofRow e) now.millis.toNat = some after
  /-- The row may have changed since it was loaded, and changed back. -/
  found : y.row p = e
  written : y.row (p + 1) = after.toRow

theorem wrote_of_past (hr : y.store.Readable d) (hth : th ∈ (y.config Caller.program t).threads)
    {k₀ k₁ : List (Nat × Exchange)} {e : Row} {after : Condition} {now : Instant} {p₀ p₁ p : Nat}
    (hpast : th.past =
      k₀ ++ [(p₀, loads d e), (p₁, reads now), (p, swaps d e after.toRow true)] ++ k₁)
    (hs : th.job.step (.ofRow e) now.millis.toNat = some after) :
    y.Wrote th e after now p₀ p₁ p := by
  have h₀ : (p₀, loads d e) ∈ th.past := by simp [hpast]
  have h₁ : (p₁, reads now) ∈ th.past := by simp [hpast]
  have h₂ : (p, swaps d e after.toRow true) ∈ th.past := by simp [hpast]
  have hasc := (y.traced Caller.program t).ascending th hth
  rw [hpast, List.append_assoc, List.pairwise_append] at hasc
  have hlt : p₀ < p₁ ∧ p₁ < p := by
    have := hasc.2.1
    simp only [List.cons_append, List.pairwise_cons, List.mem_cons, forall_eq_or_imp] at this
    exact ⟨this.1.1, this.2.1.1⟩
  have hload := row_loaded hr hth h₀
  have hswap := (reply_of_mem hth h₂).of_swaps (readable hr p)
  have hfits : (y.config Caller.program p).store.Fits e := by
    rw [fits_iff, ← fits_iff y e p₀, hload]
    exact Store.fits_row (readable hr p₀)
  exact {
    load_lt := hlt.1
    reading_lt := hlt.2
    loaded := hload.symm
    reading := congrArg Prod.snd (reply_of_mem hth h₁).of_now
    step := hs
    found := (hswap.1 hfits).symm
    written := hswap.2 }

/-- A swap that succeeded is the end of a round that nobody disturbed. -/
theorem wrote_of_win (hr : y.store.Readable d)
    (hth : th ∈ (y.config Caller.program t).threads) {p : Nat} {x : Exchange}
    (hx : (p, x) ∈ th.past) (hwin : x.isWin = true) :
    ∃ e after now p₀ p₁, x = swaps d e after.toRow true ∧ y.Wrote th e after now p₀ p₁ p := by
  cases account hth with
  | undecided hpast =>
    have := hpast (p, x) hx
    rw [this] at hwin
    cases hwin
  | fallen hpast =>
    have := hpast (p, x) hx
    rw [this] at hwin
    cases hwin
  | refused q _ hpast =>
    rw [hpast] at hx
    cases List.mem_singleton.1 hx
    cases hwin
  | kept k₀ k₁ row now p₀ p₁ hpast h₀ _ h₁ =>
    have := Thread.mem_of_isWin hpast h₀ h₁ hx hwin
    simp only [List.mem_cons, List.not_mem_nil, or_false] at this
    obtain hx | hx := this
    · cases hx; cases hwin
    · cases hx; cases hwin
  | wrote k₀ k₁ row after now p₀ p₁ p₂ hpast h₀ hstep h₁ =>
    have := Thread.mem_of_isWin hpast h₀ h₁ hx hwin
    simp only [List.mem_cons, List.not_mem_nil, or_false] at this
    obtain hx | hx | hx := this
    · cases hx; cases hwin
    · cases hx; cases hwin
    · cases hx
      exact ⟨row, after, now, p₀, p₁, rfl, wrote_of_past hr hth hpast hstep⟩

/-- At each moment the row stays as it is, or some call replaces it. -/
theorem still_or_wrote (hr : y.store.Readable d) {p : Nat} (hp : p < t) :
    y.row (p + 1) = y.row p ∨
      ∃ th ∈ (y.config Caller.program t).threads, ∃ e after now p₀ p₁,
        (p, swaps d e after.toRow true) ∈ th.past ∧ y.Wrote th e after now p₀ p₁ p := by
  obtain hworld | ⟨th, hth, x, hx⟩ := (y.traced Caller.program t).moved p hp
  · exact .inl (congrArg (fun w => w.1.row d) hworld)
  · cases hwin : x.isWin with
    | false => exact .inl (row_still hr hth hx hwin)
    | true =>
      obtain ⟨e, after, now, p₀, p₁, rfl, hwrote⟩ := wrote_of_win hr hth hx hwin
      exact .inr ⟨th, hth, e, after, now, p₀, p₁, hx, hwrote⟩

end Schedule
end WorkerGuard
