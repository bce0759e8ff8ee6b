import WorkerGuard.Proofs.Program.Schedule
import WorkerGuard.Proofs.Task.Action
import WorkerGuard.Proofs.Task.Warrant

/-!
# WorkerGuard.Proofs.Task.Agreement

The loop of a worker and the machine that tells it what to do never disagree.

* `Agrees c`: one action is due, or the state is terminal and none is; and what later actions
  rely on is there. Every step keeps it (`ActionStep.agrees`).
* `State.rest`: so many actions may still follow. It shrinks with every step (`ActionStep.rest_lt`).
* `Standing.lineage`: what holds of a worker and what its helpers get from it hold of all workers of a
  run. `Fits`: the generations that are left suffice for the helpers to come.
* `machine_followed`: at every standing of every run the loops agree with the machine, each event was
  one that the state expects, and no outcome comes from a branch for disagreements.
-/

namespace WorkerGuard.Task

open Program Simulation

variable {s : Settings} {task : Task} {limits : Limits} {c c' : Course} {a : Action} {e : Event}

/-- What is said of a task that failed. -/
inductive Sanctioned : String → Prop where
  | pruned : Sanctioned prunedMessage
  | exhausted (report : Report) : Sanctioned (exhaustedMessage report)
  | unwritten (reason : Reason) (error : String) :
      Sanctioned ("degrade write failed (" ++ reason.message ++ "): " ++ error)

/-- The texts of the branches for disagreements. -/
inductive Disagreement : String → Prop where
  | invalid (st : State) (e : Event) : Disagreement (invalidMessage st e)
  | valueless : Disagreement "completed without a result"
  | stopped (st : State) : Disagreement ("task stopped in non-terminal state " ++ st.describe)

theorem opens_append {p : List Char} {a : String} (h : p <+: a.toList) (b : String) :
    p <+: (a ++ b).toList := by
  rw [String.toList_append]
  exact h.trans (List.prefix_append _ _)

/-- How the texts of the first sort can begin. -/
def sanctionedOpenings : List (List Char) :=
  [['w', 'o'], ['d', 'e'], ['t', 'r'], ['t', 'i'], ['r', 'a'], ['a', 'u'], ['f', 'a']]

/-- How those of the second sort can. -/
def disagreementOpenings : List (List Char) := [['I', 'n'], ['c', 'o'], ['t', 'a']]

theorem Sanctioned.opening {m : String} (h : Sanctioned m) :
    ∃ p ∈ sanctionedOpenings, p <+: m.toList := by
  cases h with
  | pruned => decide
  | exhausted report =>
    have hname : ∀ k : Failure.Kind, ∃ p ∈ sanctionedOpenings, p <+: k.name.toList := by
      intro k
      cases k <;> decide
    obtain ⟨p, hp, hopens⟩ := hname report.classification.kind
    exact ⟨p, hp, opens_append (opens_append (opens_append hopens _) _) _⟩
  | unwritten reason error =>
    refine ⟨['d', 'e'], by decide, ?_⟩
    exact opens_append (opens_append (opens_append (by decide) _) _) _

theorem Disagreement.opening {m : String} (h : Disagreement m) :
    ∃ p ∈ disagreementOpenings, p <+: m.toList := by
  cases h with
  | invalid st e =>
    refine ⟨['I', 'n'], by decide, ?_⟩
    exact opens_append (opens_append (opens_append (by decide) _) _) _
  | valueless => decide
  | stopped st => exact ⟨['t', 'a'], by decide, opens_append (by decide) _⟩

/-- The first two letters tell them apart. -/
theorem Sanctioned.not_disagreement {m : String} (h : Sanctioned m) : ¬Disagreement m := by
  intro hd
  obtain ⟨p, hp, hopens⟩ := h.opening
  obtain ⟨q, hq, hopens'⟩ := hd.opening
  have hlength : ∀ p ∈ sanctionedOpenings, ∀ q ∈ disagreementOpenings,
      p.length = q.length ∧ p ≠ q := by decide
  obtain ⟨heq, hne⟩ := hlength p hp q hq
  exact hne ((List.prefix_of_prefix_length_le hopens hopens' (Nat.le_of_eq heq)).eq_of_length heq)

/-- A loop and the machine at one: the one action to come belongs to the state, or the state is
terminal and none is to come. -/
structure Agrees (c : Course) : Prop where
  due : (c.queue = [] ∧ c.state.isTerminal = true) ∨ ∃ a, c.Due a
  helper : ∀ id, c.Due (.runHelper id) → ∃ x, c.helper = some x ∧ x.id = id
  value : c.state = .completed → c.value.isSome = true
  failed : ∀ m, c.state = .failed m → Sanctioned m

theorem Action.Belongs.not_terminal {a : Action} {st : State} (h : a.Belongs st) :
    st.isTerminal = false := by
  cases a <;> cases st <;> first | rfl | exact False.elim h

theorem not_due_of_terminal (ht : c.state.isTerminal = true) (a : Action) : ¬c.Due a := by
  intro hdue
  rw [hdue.2.not_terminal] at ht
  cases ht

theorem agrees_of_terminal (hq : c.queue = []) (ht : c.state.isTerminal = true)
    (hv : c.state = .completed → c.value.isSome = true)
    (hf : ∀ m, c.state = .failed m → Sanctioned m) : Agrees c where
  due := .inl ⟨hq, ht⟩
  helper _ hdue := absurd hdue (not_due_of_terminal ht _)
  value := hv
  failed := hf

/-- The only action to come. -/
theorem eq_of_due {a' : Action} (hdue : c.Due a) (hdue' : c.Due a') : a' = a := by
  have h := hdue.1
  rw [hdue'.1] at h
  exact (List.cons.inj h).1

theorem agrees_of_due (hdue : c.Due a)
    (hh : ∀ id, a = .runHelper id → ∃ x, c.helper = some x ∧ x.id = id) : Agrees c where
  due := .inr ⟨a, hdue⟩
  helper id hdue' := hh id (eq_of_due hdue hdue').symm
  value h := absurd hdue (not_due_of_terminal (by rw [h]; rfl) a)
  failed m h := absurd hdue (not_due_of_terminal (by rw [h]; rfl) a)

/-- Every step leads to such a course. -/
theorem ActionStep.agrees (h : ActionStep limits c a e c') : Agrees c' := by
  cases h with
  | succeeded hdue => exact agrees_of_terminal rfl rfl (fun _ => rfl) nofun
  | pruned hdue =>
    refine agrees_of_terminal rfl rfl nofun fun m hm => ?_
    cases hm
    exact .pruned
  | retried hdue hmore => exact agrees_of_due ⟨rfl, rfl⟩ nofun
  | asked hdue => exact agrees_of_due ⟨rfl, trivial⟩ nofun
  | gaveUp hdue => exact agrees_of_due ⟨rfl, rfl⟩ nofun
  | exhausted hdue =>
    refine agrees_of_terminal rfl rfl nofun fun m hm => ?_
    cases hm
    exact .exhausted _
  | @granted kind x hdue =>
    refine agrees_of_due ⟨rfl, rfl⟩ fun id hid => ?_
    cases hid
    exact ⟨x, rfl, rfl⟩
  | refused hdue => exact agrees_of_due ⟨rfl, rfl⟩ nofun
  | helped hdue => exact agrees_of_terminal rfl rfl (fun _ => rfl) nofun
  | unhelped hdue ho => exact agrees_of_due ⟨rfl, rfl⟩ nofun
  | recorded hdue => exact agrees_of_terminal rfl rfl nofun nofun
  | unrecorded hdue =>
    refine agrees_of_terminal rfl rfl nofun fun m hm => ?_
    cases hm
    exact .unwritten _ _

theorem agrees_opening : Agrees opening := agrees_of_due (a := .runRound 1) ⟨rfl, rfl⟩ nofun

section Standings

variable {σ : Type} {E : Environment σ} {w : Worker} {H h h' : σ} {hd : Head} {stack : List Head}
variable {es : List (Entry σ)} {queue : List Action} {l : List Exchange}
variable {others outages : Registry.Request → Prop}

/-- The next action, where it is not the run of the helper who was granted. -/
theorem Agrees.due_of_queue (hc : Agrees hd.course) (hq : hd.course.queue = a :: queue)
    (hx : ∀ x, ¬hd.Calls x queue) : hd.course.Due a ∧ a.IsOwn := by
  obtain ⟨hnil, _⟩ | ⟨a', hdue⟩ := hc.due
  · rw [hnil] at hq
    cases hq
  · have hlist := hdue.1
    rw [hq] at hlist
    cases hlist
    refine ⟨hdue, fun id hid => ?_⟩
    subst hid
    obtain ⟨x, hhelper, rfl⟩ := hc.helper id hdue
    exact hx x ⟨hq, hhelper⟩

theorem Agrees.step (hc : Agrees hd.course) (hq : hd.course.queue = a :: queue)
    (hx : ∀ x, ¬hd.Calls x queue)
    (hp : Trail E (perform s task (runFor s task hd.generations) hd.worker hd.started a
      { hd.course with queue }) h l (.ok (e, c)) h') :
    ActionStep (.ofSettings s.policy) hd.course a e (hd.stepped s a e c).course := by
  obtain ⟨hdue, hown⟩ := hc.due_of_queue hq hx
  exact hp.returns (returns_actionStep hdue hq hown _ _ _) rfl

theorem Agrees.due_of_calls {x : Worker} (hc : Agrees hd.course) (hx : hd.Calls x queue) :
    hd.course.Due (.runHelper x.id) := by
  obtain ⟨hnil, _⟩ | ⟨a', hdue⟩ := hc.due
  · rw [hx.1] at hnil
    cases hnil
  · have hlist := hdue.1
    rw [hx.1] at hlist
    cases hlist
    exact hdue

theorem Agrees.rejoin {x : Worker} (hc : Agrees hd.course) (hx : hd.Calls x queue) (o : Outcome) :
    ActionStep (.ofSettings s.policy) hd.course (.runHelper x.id) o.event
      (hd.rejoined s x o queue).course :=
  actionStep_rejoined (hc.due_of_calls hx) hx o

theorem Standing.agrees (hs : Standing E s task w H stack es h) :
    ∀ hd ∈ stack, Agrees hd.course := by
  refine hs.heads (P := fun hd _ => Agrees hd.course) ?_ ?_ ?_ ?_ ?_
  · intro hd h q a h' hP _
    exact hP
  · intro t h _
    exact agrees_opening
  · intro hd h h' a queue e c l hP hq hx hp
    exact (hP.step hq hx hp).agrees
  · intro hd h x queue n t _ _ _
    exact agrees_opening
  · intro hd h x queue o hP hx
    exact (hP.rejoin hx o).agrees

theorem Limits.one_le_localRounds (s : Settings.Policy) :
    1 ≤ (Limits.ofSettings s).localRounds.toNat := by
  show 1 ≤ (if s.localRounds ≤ 1 then 1 else s.localRounds).toNat
  split
  · exact Nat.le_refl 1
  · rename_i hlt
    rw [UInt32.le_iff_toNat_le, UInt32.toNat_one] at hlt
    omega

/-- So many actions may still follow. -/
def State.rest (limits : Limits) : State → Nat
  | running r => limits.localRounds.toNat - r.toNat + 4
  | retryingLocal r => limits.localRounds.toNat - r.toNat + 4
  | awaitingSpawn => 3
  | helperRunning _ => 2
  | degrading _ => 1
  | completed => 0
  | degradedComplete _ => 0
  | failed _ => 0

theorem rest_of_due_runRound {r : UInt32} (hdue : c.Due (.runRound r)) :
    c.state.rest limits = limits.localRounds.toNat - r.toNat + 4 := by
  obtain hs | hs := Course.state_of_due_runRound hdue
  · rw [hs]; rfl
  · rw [hs]; rfl

theorem toNat_add_one {r n : UInt32} (h : r < n) : (r + 1).toNat = r.toNat + 1 := by
  have hn := n.toNat_lt
  have hlt := UInt32.lt_iff_toNat_lt.1 h
  rw [UInt32.toNat_add, UInt32.toNat_one, Nat.mod_eq_of_lt (by omega)]

theorem ActionStep.rest_lt (h : ActionStep limits c a e c') :
    c'.state.rest limits < c.state.rest limits := by
  cases h with
  | retried hdue hmore =>
    have hplus := toNat_add_one hmore
    rw [UInt32.lt_iff_toNat_lt] at hmore
    rw [rest_of_due_runRound hdue, State.rest]
    omega
  | succeeded hdue => rw [rest_of_due_runRound hdue, State.rest]; omega
  | pruned hdue => rw [rest_of_due_runRound hdue, State.rest]; omega
  | asked hdue => rw [rest_of_due_runRound hdue, State.rest]; omega
  | gaveUp hdue => rw [rest_of_due_runRound hdue, State.rest]; omega
  | exhausted hdue => rw [rest_of_due_runRound hdue, State.rest]; omega
  | granted hdue => simp [State.rest, Course.state_of_due_requestSpawn hdue]
  | refused hdue => simp [State.rest, Course.state_of_due_requestSpawn hdue]
  | helped hdue => simp [State.rest, Course.state_of_due_runHelper hdue]
  | unhelped hdue ho => simp [State.rest, Course.state_of_due_runHelper hdue]
  | recorded hdue => simp [State.rest, Course.state_of_due_writeDegrade hdue]
  | unrecorded hdue => simp [State.rest, Course.state_of_due_writeDegrade hdue]

theorem Standing.past_lt (hs : Standing E s task w H stack es h) :
    ∀ hd ∈ stack, hd.past.length + hd.course.state.rest (.ofSettings s.policy) < stepBound s := by
  have hopening : opening.state.rest (.ofSettings s.policy) < stepBound s := by
    have hrounds := Limits.one_le_localRounds s.policy
    show (Limits.ofSettings s.policy).localRounds.toNat - (1 : UInt32).toNat + 4 < _ + 4
    rw [UInt32.toNat_one]
    omega
  refine fun hd hmem => (hs.heads (P := fun hd _ => Agrees hd.course ∧
    hd.past.length + hd.course.state.rest (.ofSettings s.policy) < stepBound s)
      ?_ ?_ ?_ ?_ ?_ hd hmem).2
  · intro hd h q a h' hP _
    exact hP
  · intro t h _
    exact ⟨agrees_opening, by simpa using hopening⟩
  · intro hd h h' a queue e c l hP hq hx hp
    have hstep := hP.1.step hq hx hp
    have hlt := hstep.rest_lt
    have hpast := hd.past_stepped s a e c
    exact ⟨hstep.agrees, by omega⟩
  · intro hd h x queue n t _ _ _
    exact ⟨agrees_opening, by simpa using hopening⟩
  · intro hd h x queue o hP hx
    have hstep := hP.1.rejoin (s := s) hx o
    have hlt := hstep.rest_lt
    have hpast := hd.past_rejoined s x o queue
    exact ⟨hstep.agrees, by omega⟩

/-- Whoever cannot go on from an action that is due, and is its own, is in the midst of it. -/
theorem Stuck.of_due {below : List Head} {l : List Exchange} {why : Halt}
    (hstuck : Stuck E s task hd h l why h') (hs : Standing E s task w H (hd :: below) es h)
    (hdue : hd.course.Due a) (hown : a.IsOwn) :
    Trail E (perform s task (runFor s task hd.generations) hd.worker hd.started a
      { hd.course with queue := [] }) h l (.error why) h' := by
  cases hstuck with
  | steps hpast =>
    have hlt := hs.past_lt hd (List.mem_cons_self ..)
    omega
  | @generations x queue hx _ =>
    have hq := hx.1
    rw [hdue.1] at hq
    cases hq
    exact absurd rfl (hown x.id)
  | action hq hx hp =>
    rw [hdue.1] at hq
    cases hq
    exact hp

/-- What holds of all workers of a run, by the generations that each has left: it holds of the first
one, and what holds of a helper when it is granted is enough when it begins. -/
theorem Standing.lineage {store : σ → Store}
    (hE : ∀ h q a h', E h q a h' → Served others outages (store h) q a (store h'))
    {P : Nat → Worker → σ → Prop} {Q : Nat → Worker → Worker → σ → Prop}
    (hP : ∀ n x h q a h', P n x h → E h q a h' → P n x h')
    (hQ : ∀ n x y h q a h', Q n x y h → E h q a h' → Q n x y h')
    (hstart : P s.governor.maxDepth.toNat w H)
    (hgrant : ∀ n x y h h', P n x h →
      Spawn.Grant s x.dependency x.id (store h) (store h') y → Q n x y h')
    (hbegin : ∀ n x y h, Q (n + 1) x y h → P n y h)
    (hs : Standing E s task w H stack es h) :
    ∀ hd ∈ stack, P hd.generations hd.worker h ∧
      ∀ x, hd.course.helper = some x → Q hd.generations hd.worker x h := by
  have hnone : ∀ n x h y, (none : Option Worker) = some y → Q n x y h := by
    intro n x h y hy
    cases hy
  refine fun hd hmem => (hs.heads (P := fun hd h => Agrees hd.course ∧
    P hd.generations hd.worker h ∧
      ∀ x, hd.course.helper = some x → Q hd.generations hd.worker x h) ?_ ?_ ?_ ?_ ?_ hd hmem).2
  · rintro hd h q a h' ⟨hagrees, hworker, hhelper⟩ hq
    exact ⟨hagrees, hP _ _ _ _ _ _ hworker hq, fun x hx => hQ _ _ _ _ _ _ _ (hhelper x hx) hq⟩
  · intro t h hnow
    exact ⟨agrees_opening, hP _ _ _ _ _ _ hstart hnow, hnone _ _ _⟩
  · rintro hd h h' a queue e c l ⟨hagrees, hworker, hhelper⟩ hq hx hp
    refine ⟨(hagrees.step hq hx hp).agrees, hp.preserves (fun _ _ _ _ => hP _ _ _ _ _ _) hworker,
      fun x hnew => ?_⟩
    obtain ⟨_, heq, _⟩ | ⟨y, kind, _, _, hy, _, hgranted⟩ :=
      granted_perform (hagrees.due_of_queue hq hx).2 (hp.map hE)
    · exact hp.preserves (fun _ _ _ _ => hQ _ _ _ _ _ _ _) (hhelper x (heq.symm.trans hnew))
    · obtain rfl : y = x := Option.some.inj (hy.symm.trans hnew)
      exact hgrant _ _ _ _ _ hworker hgranted
  · rintro hd h x queue n t ⟨_, _, hhelper⟩ hx hn
    have hwaiting := hhelper x hx.2
    rw [hn] at hwaiting
    exact ⟨agrees_opening, hbegin _ _ _ _ hwaiting, hnone _ _ _⟩
  · rintro hd h x queue o ⟨hagrees, hworker, _⟩ hx
    exact ⟨(hagrees.rejoin hx o).agrees, hworker, hnone _ _ _⟩

end Standings

section Served

variable {others outages : Registry.Request → Prop} {w : Worker} {H h h' : Store} {hd : Head}
variable {stack : List Head} {es : List (Entry Store)}

/-- The generations to come suffice for the helpers that the depth of a worker allows. -/
structure Fits (s : Settings) (w : Worker) (hd : Head) (h : Store) : Prop where
  worker : (hd.worker = w ∧ hd.generations = s.governor.maxDepth.toNat) ∨
    (h.HasDepth hd.worker.id hd.worker.depth ∧
      s.governor.maxDepth.toNat ≤ hd.generations + hd.worker.depth.toNat)
  helper : ∀ x, hd.course.helper = some x → h.HasDepth x.id x.depth ∧
    x.depth ≤ s.governor.maxDepth ∧ s.governor.maxDepth.toNat < hd.generations + x.depth.toNat

theorem Standing.fits (hs : Standing (Served others outages) s task w H stack es h) :
    ∀ hd ∈ stack, Fits s w hd h := by
  refine fun hd hmem => (hs.lineage (fun _ _ _ _ hq => hq)
    (P := fun n x h => (x = w ∧ n = s.governor.maxDepth.toNat) ∨
      (h.HasDepth x.id x.depth ∧ s.governor.maxDepth.toNat ≤ n + x.depth.toNat))
    (Q := fun n _ y h => h.HasDepth y.id y.depth ∧ y.depth ≤ s.governor.maxDepth ∧
      s.governor.maxDepth.toNat < n + y.depth.toNat)
    ?_ ?_ (.inl ⟨rfl, rfl⟩) ?_ ?_ hd hmem).elim .mk
  · intro n x h q a h' hx hq
    exact hx.imp_right fun hx => ⟨hx.1.keep hq, hx.2⟩
  · rintro n x y h q a h' ⟨hrecord, hrest⟩ hq
    exact ⟨hrecord.keep hq, hrest⟩
  · intro n x y h h' hx hgranted
    refine ⟨hgranted.recorded, hgranted.depth_le, ?_⟩
    have hpos := hgranted.depth_pos
    obtain ⟨_, hn⟩ | ⟨hrecord, hn⟩ := hx
    · omega
    · have heq := hgranted.depth_eq _ hrecord
      omega
  · rintro n x y h ⟨hrecord, _, hlt⟩
    exact .inr ⟨hrecord, by omega⟩

/-- A run halts in the midst of an action of one of its workers, and nowhere else. -/
theorem halts_in_action {l : List Exchange} {why : Halt}
    (hr : Trail (Served others outages) (run s task w) H l (.error why) h') :
    ∃ hd below es h l' a queue, Standing (Served others outages) s task w H (hd :: below) es h ∧
      l = calls es ++ l' ∧ hd.course.Due a ∧ a.IsOwn ∧
      Trail (Served others outages) (perform s task (runFor s task hd.generations) hd.worker
        hd.started a { hd.course with queue }) h l' (.error why) h' := by
  obtain ⟨o, es, before, l', hok, _⟩ | ⟨why', hd, below, es, l', h₁, hwhy, hs, rfl, hstuck⟩ :=
    run_stands hr
  · cases hok
  · cases hwhy
    have htop : hd ∈ hd :: below := List.mem_cons_self ..
    cases hstuck with
    | steps hpast =>
      have hlt := hs.past_lt hd htop
      omega
    | @generations x queue hx hn =>
      obtain ⟨_, hle, hlt⟩ := (hs.fits hd htop).helper x hx.2
      rw [UInt32.le_iff_toNat_le] at hle
      omega
    | action hq hx hp =>
      obtain ⟨hdue, hown⟩ := (hs.agrees hd htop).due_of_queue hq hx
      exact ⟨hd, below, es, h₁, l', _, _, hs, rfl, hdue, hown, hp⟩

theorem not_unfinished {l : List Exchange} {why : Halt}
    (hr : Trail (Served others outages) (run s task w) H l (.error why) h') :
    why ≠ .unfinished := by
  obtain ⟨hd, below, es, h, l', a, queue, _, rfl, _, hown, hp⟩ := halts_in_action hr
  have hexcused := excused_perform (I := fun _ => True) (R := True) (fun _ _ _ _ _ _ => trivial)
    hown (fun _ => trivial) (fun _ _ _ _ => trivial) (fun _ _ _ _ _ _ => trivial) _ _ _ _
    trivial hp
  obtain ⟨rfl, _⟩ | ⟨rfl, _⟩ := hexcused
  · exact nofun
  · exact nofun

end Served

/-- What was done, done in agreement with the machine: the action belonged to the state, the machine
took the event in this state, and nothing was said of a disagreement. -/
def Entry.Followed {σ : Type} (limits : Limits) : Entry σ → Prop
  | began _ _ => True
  | did _ st a e _ => a.Belongs st ∧ (transition st e limits).1 ≠ .failed (invalidMessage st e) ∧
      ∀ id : WorkerId, e ≠ .helperFinished false ("no granted helper " ++ id.text)
  | ended _ o _ _ => ∀ m, o = .failed m → ¬Disagreement m

section Followed

variable {σ : Type} {E : Environment σ} {w : Worker} {H h h' : σ} {hd : Head} {stack : List Head}
variable {es : List (Entry σ)} {queue : List Action} {l : List Exchange}

theorem ActionStep.accepted (h : ActionStep limits c a e c')
    (hstate : c'.state = (transition c.state e limits).1) :
    (transition c.state e limits).1 ≠ .failed (invalidMessage c.state e) := by
  rw [← hstate]
  intro hinvalid
  exact (h.agrees.failed _ hinvalid).not_disagreement (.invalid _ _)

theorem Outcome.event_ne_missing (o : Outcome) (id : WorkerId) :
    o.event ≠ .helperFinished false ("no granted helper " ++ id.text) := by
  have hmissing : ['n', 'o'] <+: ("no granted helper " ++ id.text).toList :=
    opens_append (by decide) _
  intro he
  cases o with
  | completed v => cases he
  | degraded reason alert =>
    have hopens : ['d', 'e'] <+: (Outcome.degraded reason alert).describe.toList :=
      opens_append (by decide) _
    rw [(Event.helperFinished.inj he).2] at hopens
    exact absurd ((List.prefix_of_prefix_length_le hopens hmissing (Nat.le_refl 2)).eq_of_length rfl)
      (by decide)
  | failed error =>
    have hopens : ['f', 'a'] <+: (Outcome.failed error).describe.toList :=
      opens_append (by decide) _
    rw [(Event.helperFinished.inj he).2] at hopens
    exact absurd ((List.prefix_of_prefix_length_le hopens hmissing (Nat.le_refl 2)).eq_of_length rfl)
      (by decide)

theorem ActionStep.event_ne_missing (h : ActionStep limits c a e c') (ha : a.IsOwn)
    (id : WorkerId) : e ≠ .helperFinished false ("no granted helper " ++ id.text) := by
  cases h with
  | helped hdue => exact absurd rfl (ha _)
  | unhelped hdue ho => exact absurd rfl (ha _)
  | _ => exact nofun

theorem Agrees.terminal (hc : Agrees c) (hq : c.queue = []) :
    c.state = .completed ∨ (∃ reason, c.state = .degradedComplete reason) ∨
      ∃ error, c.state = .failed error := by
  obtain ⟨_, hterminal⟩ | ⟨a, hdue⟩ := hc.due
  · cases hstate : c.state with
    | completed => exact .inl rfl
    | degradedComplete reason => exact .inr (.inl ⟨reason, rfl⟩)
    | failed error => exact .inr (.inr ⟨error, rfl⟩)
    | _ => rw [hstate] at hterminal; cases hterminal
  · rw [hdue.1] at hq
    cases hq

theorem returns_finish (hc : Agrees c) (hq : c.queue = []) (w : Worker) :
    (finish s w c).Returns fun o => ∀ m, o = .failed m → ¬Disagreement m := by
  obtain hstate | ⟨reason, hstate⟩ | ⟨error, hstate⟩ := hc.terminal hq
  · obtain ⟨v, hv⟩ := Option.isSome_iff_exists.1 (hc.value hstate)
    simp only [finish, hstate, hv]
    exact returns_of_next fun _ => returns_pure nofun
  · simp only [finish, hstate]
    exact returns_of_next fun _ => returns_of_next fun alert => returns_pure nofun
  · simp only [finish, hstate]
    refine returns_of_next fun _ => returns_pure fun m hm => ?_
    cases hm
    exact (hc.failed _ hstate).not_disagreement

theorem Standing.followed (hs : Standing E s task w H stack es h) :
    ∀ x ∈ es, x.Followed (.ofSettings s.policy) := by
  induction hs with
  | start _ => simp [Entry.Followed]
  | @step hd below es h h' a queue e c l hs hq hx hp ih =>
    have hagrees := hs.agrees hd (List.mem_cons_self ..)
    have hstep := hagrees.step hq hx hp
    obtain ⟨hdue, hown⟩ := hagrees.due_of_queue hq hx
    have hstate : c.state = hd.course.state :=
      (hp.returns (returns_perform _ _ _ _ _) rfl).state
    intro x hmem
    obtain hmem | hmem := List.mem_append.1 hmem
    · exact ih x hmem
    · rw [List.mem_singleton.1 hmem]
      refine ⟨hdue.2, hstep.accepted ?_, hstep.event_ne_missing hown⟩
      rw [← hstate]
      rfl
  | helper _ _ _ _ ih =>
    intro x hmem
    obtain hmem | hmem := List.mem_append.1 hmem
    · exact ih x hmem
    · rw [List.mem_singleton.1 hmem]
      trivial
  | @back hd parent below es h h' queue o l hs hq hx hp ih =>
    have hagrees := hs.agrees hd (by simp)
    have hstep := (hs.agrees parent (by simp)).rejoin (s := s) hx o
    intro x hmem
    obtain hmem | hmem := List.mem_append.1 hmem
    · exact ih x hmem
    · simp only [List.mem_cons, List.not_mem_nil, or_false] at hmem
      obtain rfl | rfl := hmem
      · exact hp.returns (returns_finish hagrees hq hd.worker) rfl
      · exact ⟨hstep.due.2, hstep.accepted rfl, o.event_ne_missing⟩
  | @finished hd es h h' o l hs hq hp ih =>
    have hagrees := hs.agrees hd (by simp)
    intro x hmem
    obtain hmem | hmem := List.mem_append.1 hmem
    · exact ih x hmem
    · rw [List.mem_singleton.1 hmem]
      exact hp.returns (returns_finish hagrees hq hd.worker) rfl

end Followed

/-- Whatever the registry holds and does, and whatever else happens: at every standing of a run one
action is due, and it belongs to the state, or the state is terminal and the loop ends; every event
was one that the state expects; and a run comes to such an end, unless it halts in an action. -/
theorem machine_followed (s : Settings) (task : Task) (w : Worker) (H : Store)
    (others outages : Registry.Request → Prop) :
    (∀ stack es h, Standing (Served others outages) s task w H stack es h →
      (∀ hd ∈ stack, (hd.course.state.isTerminal = true ∧ hd.course.queue = []) ∨
        (hd.course.state.isTerminal = false ∧
          ∃ a, hd.course.queue = [a] ∧ a.Belongs hd.course.state)) ∧
      ∀ x ∈ es, x.Followed (.ofSettings s.policy)) ∧
    ∀ l r h', Trail (Served others outages) (run s task w) H l r h' →
      r ≠ .error .unfinished ∧ ∀ o, r = .ok o →
        (∀ m, o = .failed m → ¬Disagreement m) ∧
        ∃ es before l', l = calls (es ++ [.ended w o before l']) ∧
          Standing (Served others outages) s task w H [] (es ++ [.ended w o before l']) h' := by
  refine ⟨fun stack es h hs => ⟨fun hd hmem => ?_, hs.followed⟩, fun l r h' hr => ⟨?_, ?_⟩⟩
  · obtain ⟨hq, hterminal⟩ | ⟨a, hdue⟩ := (hs.agrees hd hmem).due
    · exact .inl ⟨hterminal, hq⟩
    · exact .inr ⟨hdue.2.not_terminal, a, hdue⟩
  · rintro rfl
    exact not_unfinished hr rfl
  · rintro o rfl
    obtain ⟨o', es, before, l', hok, hs, rfl⟩ | ⟨why, _, _, _, _, _, hwhy, _⟩ := run_stands hr
    · cases hok
      refine ⟨hs.followed (.ended w o before l') (by simp), es, before, l', ?_, hs⟩
      simp [Entry.exchanges]
    · cases hwhy

/-- One worker whose calls all overrun, and a registry that has a place for one helper. -/
theorem lone_runs (others outages : Registry.Request → Prop) : ∃ l o h',
    Trail (Served others outages) (run impatient ⟨"job", none⟩ lone) lonely.store l (.ok o) h' ∧
      (granted l).length = 1 := by
  have hserve : ∀ s q, Served others outages s q (serve (Call.calm .epoch ⟨"w-2"⟩) s q).1
      (serve (Call.calm .epoch ⟨"w-2"⟩) s q).2 := served_serve _
  have hrun := trail_follow hserve (run impatient ⟨"job", none⟩ lone) lonely.store
  have hends : ((run impatient ⟨"job", none⟩ lone).follow (serve (Call.calm .epoch ⟨"w-2"⟩))
      lonely.store).2.1.isOk = true ∧ (granted ((run impatient ⟨"job", none⟩ lone).follow
        (serve (Call.calm .epoch ⟨"w-2"⟩)) lonely.store).1).length = 1 := by decide +kernel
  generalize (run impatient ⟨"job", none⟩ lone).follow (serve (Call.calm .epoch ⟨"w-2"⟩))
    lonely.store = followed at hrun hends
  obtain ⟨l, r, h'⟩ := followed
  obtain ⟨hok, hgranted⟩ := hends
  cases r with
  | error why => cases hok
  | ok o => exact ⟨l, o, h', hrun, hgranted⟩

theorem lone_followed : ∃ l o h', Trail (Served (fun _ => False) fun _ => False)
    (run impatient ⟨"job", none⟩ lone) lonely.store l (.ok o) h' ∧ (granted l).length = 1 ∧
      ∃ (es : List (Entry Store)) (before : Store) (l' : List Exchange),
        l = calls (es ++ [.ended lone o before l']) ∧
        ∀ x ∈ es ++ [.ended lone o before l'], x.Followed (.ofSettings impatient.policy) := by
  obtain ⟨hstandings, hruns⟩ := machine_followed impatient ⟨"job", none⟩ lone lonely.store
    (fun _ => False) fun _ => False
  obtain ⟨l, o, h', hrun, hgranted⟩ := lone_runs (fun _ => False) fun _ => False
  obtain ⟨_, hended⟩ := hruns l (.ok o) h' hrun
  obtain ⟨_, es, before, l', hl, hs⟩ := hended o rfl
  exact ⟨l, o, h', hrun, hgranted, es, before, l', hl, (hstandings _ _ _ hs).2⟩

end WorkerGuard.Task
