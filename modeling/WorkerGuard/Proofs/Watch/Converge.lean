import WorkerGuard.Proofs.Watch.Held

/-!
# WorkerGuard.Proofs.Watch.Converge

Emergency stops reach every process that looks for them.

* `HostEvent`: what the processes of a host do, one at a time: they trip and reset stops and look
  for them, hold dependencies open on their own account, and make all sorts of other calls; time
  passes, and things go wrong or right again. `Host.eventStep` is one of them, `Host.after` a
  sequence.
* `Host.serve_trip`, `Host.serve_reset`, `Host.serve_sync`: what comes of a trip, a reset and a look.
* `Host.Sound`: stops can be read. Whatever the processes do, this stays so (`Host.Sound.after`).
* `Host.InStep`: a process holds open what is stopped, and nothing else. A look brings this about
  (`Host.inStep_syncedTo`), and nothing ends it but trips, resets and what the process does on its
  own account (`Host.InStep.after`).
* `overrides_converge`: after any events a process that looks is in step, with nothing changed but
  what it says, and finds nothing to change when it looks again.
-/

namespace WorkerGuard

open Program Registry Simulation

namespace Simulation

inductive HostEvent where
  | trip (p : Nat) (s : Settings) (d : Dependency) (reason : Option String)
  | reset (p : Nat) (s : Settings) (d : Dependency)
  | sync (p : Nat) (s : Settings)
  /-- A process holds a dependency open, or ceases to, without a word to the registry. -/
  | hold (p : Nat) (forced : Bool) (d : Dependency)
  | traffic (p : Nat) (c : Call) (hc : c.isTraffic = true)
  /-- The clock that is set by hand, in milliseconds, and that of the machine, in nanoseconds. -/
  | clocks (hand : Int) (machine : Int)
  | trouble (t : Trouble)

namespace HostEvent

/-- What operators and watchers do. -/
def isWatch : HostEvent → Bool
  | trip .. => true
  | reset .. => true
  | sync .. => true
  | _ => false

/-- What leaves the stops as they are, and does not make a process hold anything open on its own
account. -/
def idle (p : Nat) : HostEvent → Bool
  | trip .. => false
  | reset .. => false
  | hold q _ _ => q != p
  | _ => true

end HostEvent

namespace Host

def eventStep (h : Host) : HostEvent → Host
  | .trip p s d reason => (h.serve p (Watch.trip s d reason)).2
  | .reset p s d => (h.serve p (Watch.reset s d)).2
  | .sync p s => (h.serve p (Watch.sync s)).2
  | .hold p forced d => h.hold p forced d
  | .traffic p c _ => (h.answer p false c).2
  | .clocks hand machine =>
    { h with clock := hand, systemClock := (Instant.ofNanos? machine).getD h.systemClock }
  | .trouble t => { h with trouble := t }

def after (h : Host) (events : List HostEvent) : Host := events.foldl eventStep h

section Serve

variable {α β : Type} {h h₁ : Host} {p : Nat}

theorem serve_bind {x : Program α} {f : α → Program β} {a : α} (hx : h.serve p x = (.ok a, h₁)) :
    h.serve p (x >>= f) = h₁.serve p (f a) := by
  show h.serve p (x.bind f) = _
  induction x generalizing h with
  | done b => cases hx; rfl
  | halt why => cases hx
  | ask q next ih => exact ih _ hx

theorem serve_forM {f : α → Program PUnit} {g : Host → α → Host}
    (hf : ∀ h a, h.serve p (f a) = (.ok ⟨⟩, g h a)) (as : List α) (h : Host) :
    h.serve p (as.forM f) = (.ok ⟨⟩, as.foldl g h) := by
  induction as generalizing h with
  | nil => rfl
  | cons a as ih =>
    show h.serve p (f a >>= fun _ => as.forM f) = _
    rw [serve_bind (hf h a), ih, List.foldl_cons]

theorem serve_forceOpen (h : Host) (b : Breaker.Board) (d : Dependency) :
    h.serve p (b.forceOpen d) = (.ok (), h.hold p true d) := rfl

theorem serve_clearOverride (h : Host) (b : Breaker.Board) (d : Dependency) :
    h.serve p (b.clearOverride d) = (.ok (), h.hold p false d) := rfl

end Serve

section Watch

variable (h : Host) (p : Nat) (s : Settings)

/-- The registry has answered a request, and nothing else has happened. -/
def requested (q : Request) : Host := { h with store := (h.store.answer q).2 }

theorem serve_request (q : Request) : h.serve p (Program.request q) =
    (.ok (h.answer p false (.registry q)).1, (h.answer p false (.registry q)).2) := rfl

theorem answer_setOverride (o : Override) : h.answer p false (.registry (.setOverride o)) =
    if h.trouble.fails (.setOverride o) then (.error .locked, h)
    else (.ok (), h.requested (.setOverride o)) := by
  have hok : (h.store.answer (.setOverride o)).1 = .ok () := by cases h.store <;> rfl
  simp only [answer, Bool.not_false, Bool.true_and]
  split
  · rfl
  · exact Prod.ext hok rfl

theorem answer_clearOverride (d : Dependency) : h.answer p false (.registry (.clearOverride d)) =
    if h.trouble.fails (.clearOverride d) then (.error .locked, h)
    else (.ok (decide (d ∈ h.store.stops)), h.requested (.clearOverride d)) := by
  have hok : (h.store.answer (.clearOverride d)).1 = .ok (decide (d ∈ h.store.stops)) := by
    cases h.store with
    | memory m =>
      refine congrArg Except.ok (Bool.eq_iff_iff.2 ?_)
      exact Store.mem_stops_memory.symm.trans decide_eq_true_iff.symm
    | database db =>
      refine congrArg Except.ok (Bool.eq_iff_iff.2 ?_)
      exact Store.mem_stops_database.symm.trans decide_eq_true_iff.symm
  simp only [answer, Bool.not_false, Bool.true_and]
  split
  · rfl
  · exact Prod.ext hok rfl

theorem answer_listOverrides :
    (h.answer p false (.registry .listOverrides)).2 = h := by
  simp only [answer]
  split
  · rfl
  · cases h with
    | mk store => cases store <;> rfl

theorem serve_trip (d : Dependency) (reason : Option String) :
    h.serve p (Watch.trip s d reason) =
      if h.trouble.fails (.setOverride ⟨d, reason, h.now p⟩) then (.ok (.error .locked), h)
      else (.ok (.ok ()), (h.requested (.setOverride ⟨d, reason, h.now p⟩)).hold p true d) := by
  have hnow : h.serve p (Program.call .now) = (.ok (h.now p), h) := rfl
  rw [Watch.trip, serve_bind hnow, serve_bind (h.serve_request p _), answer_setOverride]
  split <;> rfl

theorem serve_reset (d : Dependency) :
    h.serve p (Watch.reset s d) =
      if h.trouble.fails (.clearOverride d) then (.ok (.error .locked), h)
      else (.ok (.ok (decide (d ∈ h.store.stops))),
        (h.requested (.clearOverride d)).hold p false d) := by
  rw [Watch.reset, serve_bind (h.serve_request p _), answer_clearOverride]
  split <;> rfl

/-- What the process does not hold open of what is stopped. -/
def missing (stops : List Dependency) : List Dependency :=
  stops.filter fun d => !(h.held p).contains d

/-- What the process holds open although it is not stopped. -/
def excess (stops : List Dependency) : List Dependency :=
  (h.held p).filter fun d => !stops.contains d

/-- The process holds open what is stopped, and nothing else. -/
def syncedTo (stops : List Dependency) : Host :=
  (h.excess p stops).foldl (hold p false) ((h.missing p stops).foldl (hold p true) h)

theorem serve_sync : h.serve p (Watch.sync s) =
    match (h.answer p false (.registry .listOverrides)).1 with
    | .error e => (.ok (.error e), h)
    | .ok os => (.ok (.ok ⟨h.missing p (os.map (·.dependency)), h.excess p (os.map (·.dependency))⟩),
        h.syncedTo p (os.map (·.dependency))) := by
  rw [Watch.sync, serve_bind (h.serve_request p _), answer_listOverrides]
  cases (h.answer p false (.registry .listOverrides)).1 with
  | error e => rfl
  | ok os =>
    have hheld : h.serve p Breaker.Board.forced = (.ok (h.held p), h) := rfl
    have hforce := serve_forM (p := p) (fun h d => serve_forceOpen h (s.board true) d)
      (h.missing p (os.map (·.dependency))) h
    have hclear := serve_forM (p := p) (fun h d => serve_clearOverride h (s.board true) d)
      (h.excess p (os.map (·.dependency)))
      ((h.missing p (os.map (·.dependency))).foldl (hold p true) h)
    dsimp only
    rw [serve_bind hheld]
    show h.serve p ((h.missing p _).forM _ >>= fun _ => (h.excess p _).forM _ >>= fun _ => _) = _
    rw [serve_bind hforce, serve_bind hclear]
    rfl

end Watch

section Synced

variable (h : Host) (p : Nat) (stops : List Dependency)

theorem mem_missing {d : Dependency} : d ∈ h.missing p stops ↔ d ∈ stops ∧ d ∉ h.held p := by
  simp [missing]

theorem mem_excess {d : Dependency} : d ∈ h.excess p stops ↔ d ∈ h.held p ∧ d ∉ stops := by
  simp [excess]

theorem store_syncedTo : (h.syncedTo p stops).store = h.store :=
  (store_foldl_hold p false _ _).trans (store_foldl_hold p true _ _)

theorem clock_syncedTo : (h.syncedTo p stops).systemClock = h.systemClock :=
  (clock_foldl_hold p false _ _).trans (clock_foldl_hold p true _ _)

theorem size_syncedTo : (h.syncedTo p stops).processes.size = h.processes.size :=
  (size_foldl_hold p false _ _).trans (size_foldl_hold p true _ _)

theorem word_syncedTo (q : Nat) (d : Dependency) :
    ((h.syncedTo p stops).handle q d).word = (h.handle q d).word :=
  (word_foldl_hold p false _ _ q d).trans (word_foldl_hold p true _ _ q d)

theorem forced_syncedTo_of_ne {q : Nat} (hq : q ≠ p) (d : Dependency) :
    ((h.syncedTo p stops).handle q d).forced = (h.handle q d).forced := by
  rw [syncedTo, forced_foldl_hold, forced_foldl_hold, if_neg fun h => hq h.1,
    if_neg fun h => hq h.1]

theorem forced_syncedTo (hp : p < h.processes.size) (d : Dependency) :
    ((h.syncedTo p stops).handle p d).forced = true ↔ d ∈ stops := by
  rw [syncedTo, forced_foldl_hold, forced_foldl_hold, size_foldl_hold]
  by_cases hstop : d ∈ stops <;> by_cases hheld : d ∈ h.held p
  · rw [if_neg fun h' => ((h.mem_excess p stops).1 h'.2.1).2 hstop,
      if_neg fun h' => ((h.mem_missing p stops).1 h'.2.1).2 hheld]
    exact iff_of_true (mem_held.1 hheld) hstop
  · rw [if_neg fun h' => ((h.mem_excess p stops).1 h'.2.1).2 hstop,
      if_pos ⟨rfl, (h.mem_missing p stops).2 ⟨hstop, hheld⟩, hp⟩]
    exact iff_of_true rfl hstop
  · rw [if_pos ⟨rfl, (h.mem_excess p stops).2 ⟨hheld, hstop⟩, hp⟩]
    exact iff_of_false (by decide) hstop
  · rw [if_neg fun h' => hheld ((h.mem_excess p stops).1 h'.2.1).1,
      if_neg fun h' => hstop ((h.mem_missing p stops).1 h'.2.1).1]
    exact iff_of_false (fun h' => hheld (mem_held.2 h')) hstop

end Synced

/-- Stops can be read, and the clock of the machine has no leap seconds. -/
structure Sound (h : Host) : Prop where
  legible : h.store.Legible
  clock : h.systemClock.nanos < 1_000_000_000

namespace Sound

variable {h : Host}

theorem now_lt (hs : h.Sound) (p : Nat) : (h.now p).nanos < 1_000_000_000 := by
  unfold now
  split
  · exact hs.clock
  · cases ht : Instant.ofMillis? h.clock with
    | none => decide
    | some t => exact (Instant.Whole.nanos_lt ⟨_, ht⟩).1

/-- What a look comes to if the registry answers. -/
theorem serve_sync (hs : h.Sound) (hreach : h.trouble.fails .listOverrides = false) (p : Nat)
    (s : Settings) : h.serve p (Watch.sync s) =
      (.ok (.ok ⟨h.missing p h.store.stops, h.excess p h.store.stops⟩),
        h.syncedTo p h.store.stops) := by
  obtain ⟨os, hos, hstops⟩ := hs.legible.answer_listOverrides
  have hanswer : (h.answer p false (.registry .listOverrides)).1 = .ok os := by
    simp only [answer, hreach, registry, Trouble.answer, hos]
    rfl
  rw [Host.serve_sync, hanswer]
  dsimp only
  rw [hstops]

theorem serve_sync_failing (hfails : h.trouble.fails .listOverrides = true) (p : Nat)
    (s : Settings) : h.serve p (Watch.sync s) = (.ok (.error .locked), h) := by
  have hanswer : (h.answer p false (.registry .listOverrides)).1 = .error .locked := by
    simp only [answer, hfails]
    rfl
  rw [Host.serve_sync, hanswer]

/-- A look changes nothing but what the process itself holds open. -/
theorem eventStep_sync (hs : h.Sound) (p : Nat) (s : Settings) :
    h.eventStep (.sync p s) = h ∨ h.eventStep (.sync p s) = h.syncedTo p h.store.stops := by
  cases hreach : h.trouble.fails .listOverrides with
  | true => exact .inl (by rw [eventStep, serve_sync_failing hreach])
  | false => exact .inr (by rw [eventStep, hs.serve_sync hreach])

theorem eventStep (hs : h.Sound) (a : HostEvent) : (h.eventStep a).Sound := by
  cases a with
  | trip p s d reason =>
    rw [Host.eventStep, serve_trip]
    split
    · exact hs
    · refine ⟨hs.legible.answer fun o ho => ?_, hs.clock⟩
      cases ho
      exact Instant.ofMillis?_millis_of_nanos_lt (hs.now_lt p)
  | reset p s d =>
    rw [Host.eventStep, serve_reset]
    split
    · exact hs
    · exact ⟨hs.legible.answer (fun o ho => by cases ho), hs.clock⟩
  | sync p s =>
    obtain h' | h' := hs.eventStep_sync p s
    · rw [h']
      exact hs
    · rw [h']
      exact ⟨by rw [store_syncedTo]; exact hs.legible, by rw [clock_syncedTo]; exact hs.clock⟩
  | hold p forced d => exact ⟨hs.legible, hs.clock⟩
  | traffic p c hc =>
    exact ⟨h.legible_answer p hc hs.legible, by rw [Host.eventStep, clock_answer]; exact hs.clock⟩
  | clocks hand machine =>
    refine ⟨hs.legible, ?_⟩
    show ((Instant.ofNanos? machine).getD h.systemClock).nanos < _
    cases ht : Instant.ofNanos? machine with
    | none => exact hs.clock
    | some t =>
      simp only [Instant.ofNanos?, Instant.ofParts?] at ht
      split at ht
      · cases ht
        show (machine % 1_000_000_000).toNat < _
        omega
      · cases ht
  | trouble t => exact ⟨hs.legible, hs.clock⟩

theorem after (hs : h.Sound) (events : List HostEvent) : (h.after events).Sound := by
  induction events generalizing h with
  | nil => exact hs
  | cons a events ih => exact ih (hs.eventStep a)

end Sound

theorem size_eventStep (h : Host) (a : HostEvent) :
    (h.eventStep a).processes.size = h.processes.size := by
  cases a with
  | trip p s d reason =>
    rw [eventStep, serve_trip]
    split
    · rfl
    · exact size_hold p true _ d
  | reset p s d =>
    rw [eventStep, serve_reset]
    split
    · rfl
    · exact size_hold p false _ d
  | sync p s =>
    rw [eventStep, serve_sync]
    split
    · rfl
    · exact size_syncedTo h p _
  | hold p forced d => exact size_hold p forced h d
  | traffic p c hc => exact h.size_answer p c
  | _ => rfl

theorem size_after (h : Host) (events : List HostEvent) :
    (h.after events).processes.size = h.processes.size := by
  induction events generalizing h with
  | nil => rfl
  | cons a events ih => exact (ih _).trans (h.size_eventStep a)

/-- Whoever trips, resets or looks, rows and words stay as they are. -/
theorem eventStep_watch (h : Host) {a : HostEvent} (ha : a.isWatch = true) :
    h.store.SameBreakers (h.eventStep a).store ∧
      ∀ q d, ((h.eventStep a).handle q d).word = (h.handle q d).word := by
  cases a with
  | trip p s d reason =>
    rw [eventStep, serve_trip]
    split
    · exact ⟨.refl _, fun _ _ => rfl⟩
    · exact ⟨h.store.sameBreakers_of_isStop rfl, fun q e => word_hold p true _ d q e⟩
  | reset p s d =>
    rw [eventStep, serve_reset]
    split
    · exact ⟨.refl _, fun _ _ => rfl⟩
    · exact ⟨h.store.sameBreakers_of_isStop rfl, fun q e => word_hold p false _ d q e⟩
  | sync p s =>
    rw [eventStep, serve_sync]
    split
    · exact ⟨.refl _, fun _ _ => rfl⟩
    · exact ⟨by rw [store_syncedTo]; exact .refl _, word_syncedTo h p _⟩
  | _ => cases ha

def InStep (p : Nat) (h : Host) : Prop :=
  ∀ d, (h.handle p d).forced = true ↔ d ∈ h.store.stops

section InStep

variable {h : Host} {p : Nat}

theorem inStep_syncedTo (hp : p < h.processes.size) : (h.syncedTo p h.store.stops).InStep p := by
  intro d
  rw [store_syncedTo]
  exact h.forced_syncedTo p _ hp d

theorem nodup_of_ascending {ds : List Dependency}
    (h : ds.Pairwise fun d e => d.name < e.name) : ds.Nodup := by
  refine List.Pairwise.imp (fun hlt heq => ?_) h
  rw [heq] at hlt
  exact String.lt_irrefl _ hlt

/-- As lists, since both are in order. -/
theorem InStep.held_eq (hi : h.InStep p) : h.held p = h.store.stops := by
  have hheld := h.held_ascending p
  have hstops := h.store.stops_ascending
  refine List.Perm.eq_of_pairwise (fun d e _ _ h₁ h₂ => ?_) hheld hstops ?_
  · exact absurd (String.lt_trans h₁ h₂) (String.lt_irrefl _)
  · exact (List.perm_ext_iff_of_nodup (nodup_of_ascending hheld) (nodup_of_ascending hstops)).2
      fun d => mem_held.trans (hi d)

theorem InStep.syncedTo_eq (hi : h.InStep p) : h.missing p h.store.stops = [] ∧
    h.excess p h.store.stops = [] ∧ h.syncedTo p h.store.stops = h := by
  have hmissing : h.missing p h.store.stops = [] := by
    refine List.eq_nil_iff_forall_not_mem.2 fun d hd => ?_
    rw [mem_missing, hi.held_eq] at hd
    exact hd.2 hd.1
  have hexcess : h.excess p h.store.stops = [] := by
    refine List.eq_nil_iff_forall_not_mem.2 fun d hd => ?_
    rw [mem_excess, hi.held_eq] at hd
    exact hd.2 hd.1
  refine ⟨hmissing, hexcess, ?_⟩
  rw [syncedTo, hmissing, hexcess]
  rfl

theorem InStep.eventStep (hi : h.InStep p) (hs : h.Sound) {a : HostEvent} (ha : a.idle p = true) :
    (h.eventStep a).InStep p := by
  cases a with
  | trip q s d reason => cases ha
  | reset q s d => cases ha
  | sync q s =>
    obtain h' | h' := hs.eventStep_sync q s
    · rw [h']
      exact hi
    · rw [h']
      by_cases hq : q = p
      · subst hq
        rw [hi.syncedTo_eq.2.2]
        exact hi
      · intro d
        rw [store_syncedTo, forced_syncedTo_of_ne h q _ (Ne.symm hq)]
        exact hi d
  | hold q forced d =>
    have hq : q ≠ p := by simpa [HostEvent.idle] using ha
    intro e
    rw [Host.eventStep, handle_hold, if_neg fun h' => hq h'.1.symm]
    exact hi e
  | traffic q c hc =>
    intro d
    rw [Host.eventStep, h.forced_answer q hc, h.stops_answer q hc]
    exact hi d
  | clocks hand machine => exact hi
  | trouble t => exact hi

theorem InStep.after (hi : h.InStep p) (hs : h.Sound) {events : List HostEvent}
    (ha : ∀ a ∈ events, a.idle p = true) : (h.after events).InStep p := by
  induction events generalizing h with
  | nil => exact hi
  | cons a events ih =>
    exact ih (hi.eventStep hs (ha a (by simp))) (hs.eventStep a) fun b hb => ha b (by simp [hb])

end InStep

/-- What there is to say of a look that changed `h` into `h'`. -/
structure Look (p : Nat) (h h' : Host) (found : Watch.Sync) : Prop where
  /-- The process holds open what the registry stops. -/
  inStep : h'.held p = h'.store.stops
  store : h'.store = h.store
  forced : ∀ d, d ∈ found.forced ↔ d ∈ h.store.stops ∧ d ∉ h.held p
  cleared : ∀ d, d ∈ found.cleared ↔ d ∈ h.held p ∧ d ∉ h.store.stops
  forced_ascending : found.forced.Pairwise fun d e => d.name < e.name
  cleared_ascending : found.cleared.Pairwise fun d e => d.name < e.name
  /-- Unless something is tripped or reset, or the process acts on its own account, there is nothing
  to do for another look. -/
  again : ∀ events : List HostEvent, (∀ a ∈ events, a.idle p = true) →
    (h'.after events).trouble.fails .listOverrides = false → ∀ s,
    (h'.after events).serve p (Watch.sync s) = (.ok (.ok ⟨[], []⟩), h'.after events)

theorem Sound.look {h : Host} (hs : h.Sound) {p : Nat} (hp : p < h.processes.size) :
    Look p h (h.syncedTo p h.store.stops)
      ⟨h.missing p h.store.stops, h.excess p h.store.stops⟩ where
  inStep := (inStep_syncedTo hp).held_eq
  store := h.store_syncedTo p _
  forced d := h.mem_missing p _
  cleared d := h.mem_excess p _
  forced_ascending := h.store.stops_ascending.filter _
  cleared_ascending := (h.held_ascending p).filter _
  again events ha hreach s := by
    have hs' : (h.syncedTo p h.store.stops).Sound :=
      ⟨by rw [store_syncedTo]; exact hs.legible, by rw [clock_syncedTo]; exact hs.clock⟩
    obtain ⟨hmissing, hexcess, hsame⟩ := ((inStep_syncedTo hp).after hs' ha).syncedTo_eq
    rw [(hs'.after events).serve_sync hreach, hmissing, hexcess, hsame]

end Host

/-- Whatever the processes of a host have done, trips, resets and looks leave the breakers alone, and
a process that looks for stops while the registry can be reached holds open just what is stopped. -/
theorem overrides_converge {h : Host} (hl : h.store.Legible)
    (hc : h.systemClock.nanos < 1_000_000_000) {p : Nat} (hp : p < h.processes.size)
    (events : List HostEvent) :
    (∀ a : HostEvent, a.isWatch = true →
      (h.after events).store.SameBreakers ((h.after events).eventStep a).store ∧
        ∀ q d, (((h.after events).eventStep a).handle q d).word =
          ((h.after events).handle q d).word) ∧
    ((h.after events).trouble.fails .listOverrides = false → ∀ s, ∃ found h',
      (h.after events).serve p (Watch.sync s) = (.ok (.ok found), h') ∧
        Host.Look p (h.after events) h' found) := by
  have hs : (h.after events).Sound := Host.Sound.after ⟨hl, hc⟩ events
  have hp' : p < (h.after events).processes.size := by rw [h.size_after]; exact hp
  exact ⟨fun a ha => (h.after events).eventStep_watch ha,
    fun hreach s => ⟨_, _, hs.serve_sync hreach p s, hs.look hp'⟩⟩

section Incident

/-- Two processes on a registry in memory. -/
def twoProcesses : Host := { clock := 0, systemClock := .epoch, processes := #[{}, {}] }

/-- The first process stops a dependency, and holds another one open without a word. -/
def incident : List HostEvent :=
  [.trip 0 {} ⟨"model"⟩ (some "incident"), .hold 1 true ⟨"search"⟩]

/-- The second process then holds open the one and not the other. -/
theorem incident_reaches_all :
    twoProcesses.store.Legible ∧ twoProcesses.systemClock.nanos < 1_000_000_000 ∧
      1 < twoProcesses.processes.size ∧ ∃ h',
        (twoProcesses.after incident).serve 1 (Watch.sync {}) =
          (.ok (.ok ⟨[⟨"model"⟩], [⟨"search"⟩]⟩), h') ∧
        Host.Look 1 (twoProcesses.after incident) h' ⟨[⟨"model"⟩], [⟨"search"⟩]⟩ := by
  have hlegible : twoProcesses.store.Legible := Store.legible_memory
  have hp : 1 < twoProcesses.processes.size := by decide
  refine ⟨hlegible, by decide, hp, ?_⟩
  obtain ⟨found, h', hserve, hlook⟩ :=
    (overrides_converge hlegible (by decide) hp incident).2 rfl {}
  have hfound : ((twoProcesses.after incident).serve 1 (Watch.sync {})).1 =
      .ok (.ok ⟨[⟨"model"⟩], [⟨"search"⟩]⟩) := rfl
  rw [hserve] at hfound
  cases hfound
  exact ⟨h', hserve, hlook⟩

end Incident

end Simulation
end WorkerGuard
