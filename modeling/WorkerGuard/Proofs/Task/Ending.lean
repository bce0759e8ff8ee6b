import WorkerGuard.Proofs.Retry.Delays
import WorkerGuard.Proofs.Task.Budget
import WorkerGuard.Proofs.Task.Garbled

/-!
# WorkerGuard.Proofs.Task.Ending

A run of a task comes to an end. No program runs for ever, but one that has used up its steps, its
generations or its patience halts; so what is to be shown is that a run does not halt.

* `contended_of_halt`: with settings that passed their check, it does so only after as many lost races
  for the row of the breaker as it has patience.
* `Unraced d`: no race for the row of `d` was lost, and none will be as long as nobody else writes it.
* `run_bounded`: a run is affordable whether it ends or not, and it ends if nobody else writes the row
  and it is read as it is stored.
* `Starves E x h n`: `x` makes `n` attempts in vain to replace a row. `unread_never_ends`: so does a run
  on a row that is read otherwise, for every `n`.
-/

namespace WorkerGuard.Task

open Program Simulation

section Served

variable {s : Settings} {task : Task} {w : Worker} {others outages : Registry.Request → Prop}
variable {H h' : Store} {l : List Exchange} {why : Halt}

theorem sampled_served {x : Float} (h : Retry.Sampled (Served others outages) x) :
    x = 0.0 ∨ (0.0 ≤ x ∧ x ≤ 1.0) := by
  obtain hzero | ⟨_, _, hx, _⟩ := h
  · exact .inl hzero
  · exact .inr hx

/-- A depth, a number of attempts or a delay that is out of range would be another reason. -/
theorem contended_of_halt (hs : s.check = .ok ())
    (hdepth : s.governor.maxDepth.toNat + 1 < UInt32.size)
    (hattempts : s.retry.maxAttempts.toNat + 1 < UInt32.size) (hw : H.HasDepth w.id w.depth)
    (hle : w.depth.toNat ≤ s.governor.maxDepth.toNat)
    (hr : Trail (Served others outages) (run s task w) H l (.error why) h') :
    why = .contention ∧ s.patience ≤ l.countP Exchange.isLoss := by
  obtain ⟨hd, below, es, h, l', a, queue, hstands, rfl, _, hown, hp⟩ := halts_in_action hr
  have hplaced := hstands.placed hw hle hd (List.mem_cons_self ..)
  have hexcused : Excused (Served others outages) (Store.HasDepth hd.worker.id hd.worker.depth)
      s.patience False (perform s task (runFor s task hd.generations) hd.worker hd.started a
        { hd.course with queue }) := by
    refine excused_perform ?_ hown ?_ ?_ ?_
    · intro h q a h' hI hq
      exact hI.keep hq
    · omega
    · intro k x hx
      exact Retry.Policy.backoff?_ne_none hs k (sampled_served hx)
    · intro h p h' hI hfound hsize
      obtain ⟨_, hanswer, _⟩ := hfound.of_ok
      rw [hI.answer_get (congrArg Prod.fst hanswer)] at hsize
      have hbelow := hplaced.depth_le
      omega
  obtain ⟨rfl, hlost⟩ | ⟨_, hfalse⟩ := hexcused _ _ _ _ hplaced.worker hp
  · refine ⟨rfl, Nat.le_trans hlost ?_⟩
    rw [List.countP_append]
    exact Nat.le_add_left ..
  · exact hfalse.elim

end Served

section Alone

variable {d : Dependency} {others outages : Registry.Request → Prop} {l : List Exchange}

def Unraced (d : Dependency) (l : List Exchange) (h : World) : Prop :=
  l.countP Exchange.isLoss = 0 ∧ h.store.Candid d

theorem Unraced.call {h h' : World} {q : Call} {a : q.Answer} (hJ : Unraced d l h)
    (hothers : ∀ q, others q → ¬q.Swaps d) (ha : Alone d others outages h q a h')
    (hq : ¬q.Swaps d) (hlost : (Exchange.mk q a).isLoss = false) : Unraced d (l ++ [⟨q, a⟩]) h' := by
  refine ⟨?_, ha.1.keeps (fun s q hq hI => hI.answer_other (hothers q hq)) ?_ hJ.2⟩
  · rw [List.countP_append, hJ.1, List.countP_cons, hlost]
    rfl
  · rintro q' rfl hI
    exact hI.answer_other hq

theorem keepsCalls_unraced (hothers : ∀ q, others q → ¬q.Swaps d) :
    KeepsCalls (Alone d others outages) (Unraced d) Call.Idle := by
  intro q hq l h a h' hJ ha
  exact hJ.call hothers ha (hq.only.not_swaps (by decide))
    (Call.Only.isLoss (e := ⟨q, a⟩) hq.only (by decide))

variable {b : Breaker} (hothers : ∀ q, others q → ¬q.Swaps b.dependency)
include hothers

theorem keeps_transact_unraced (step : Breaker.Step) :
    Keeps (Alone b.dependency others outages) (Unraced b.dependency) Never (b.transact step) := by
  intro l h l' r h' hJ hr
  obtain ⟨hlost, hrow⟩ := Alone.transact_unraced hothers hJ.2 hr
  refine .inl ⟨?_, hrow⟩
  rw [List.countP_append, hJ.1, hlost]

theorem keepsTries_unraced :
    Retry.KeepsTries (Alone b.dependency others outages) (Unraced b.dependency) Never b := by
  have hidle : KeepsCalls (Alone b.dependency others outages) (Unraced b.dependency) Call.Idle :=
    keepsCalls_unraced hothers
  have hallow : Keeps (Alone b.dependency others outages) (Unraced b.dependency) Never b.allow := by
    refine keeps_bind (keeps_of_asks (asks_call.2 ?_) hidle) fun forced => ?_
    · trivial
    · split
      · exact keeps_pure _
      · exact keeps_bind (keeps_transact_unraced hothers _) fun _ => keeps_pure _
  have hrecord : ∀ step, Keeps (Alone b.dependency others outages) (Unraced b.dependency) Never (do
      let _ ← b.transact step
      return ()) :=
    fun step => keeps_bind (keeps_transact_unraced hothers step) fun _ => keeps_pure _
  intro bound made l h l' r h' hJ _ hr
  refine keeps_bind hallow (fun allowed => ?_) hJ hr
  split
  · refine keeps_bind ?_ fun outcome => ?_
    · intro l h l' r h' hJ hr
      obtain ⟨a, rfl, _, ha⟩ := trail_call hr
      exact .inl (hJ.call hothers ha (fun h => h) rfl)
    · split
      · exact keeps_of_asks (asks_halt _) hidle
      · split
        · exact keeps_bind (hrecord _) fun _ => keeps_pure _
        · exact keeps_bind (hrecord _) fun _ => keeps_pure _
        · exact keeps_bind (hrecord _) fun _ => keeps_pure _
  · exact keeps_pure _

end Alone

/-- Whatever the registry holds, the dependency answers and others do, a run of a registered worker
does no more at any time than its depth and the settings allow; it comes to its end or loses as many
races for the row of the breaker as it has patience; and where nobody else writes this row, and it
reads as it is stored if at all, the run comes to its end. -/
theorem run_bounded {s : Settings} (hs : s.check = .ok ())
    (hdepth : s.governor.maxDepth.toNat + 1 < UInt32.size)
    (hattempts : s.retry.maxAttempts.toNat + 1 < UInt32.size) (task : Task) {w : Worker}
    {H : Store} (hw : H.HasDepth w.id w.depth) (hle : w.depth ≤ s.governor.maxDepth)
    (others outages : Registry.Request → Prop) :
    (∀ stack es h, Standing (Served others outages) s task w H stack es h →
      Affordable s w (es.countP Entry.isRound) (es.countP Entry.isRequest) (calls es)) ∧
    (∀ l r h', Trail (Served others outages) (run s task w) H l r h' →
      (∃ o es before l', r = .ok o ∧ l = calls (es ++ [.ended w o before l']) ∧
        Standing (Served others outages) s task w H [] (es ++ [.ended w o before l']) h') ∨
      (r = .error .contention ∧ s.patience ≤ l.countP Exchange.isLoss ∧
        ∃ hd below es h a l', Standing (Served others outages) s task w H (hd :: below) es h ∧
          hd.course.Due a ∧ l = calls es ++ l' ∧
          Affordable s w (es.countP Entry.isRound + a.rounds)
            (es.countP Entry.isRequest + a.requests) l)) ∧
    ((∀ q, others q → ¬q.Swaps w.dependency) → H.Candid w.dependency → 0 < s.patience →
      ∀ word clock l r h', Trail (Alone w.dependency others outages) (run s task w)
        ⟨H, word, clock⟩ l r h' → ∃ o, r = .ok o) := by
  rw [UInt32.le_iff_toNat_le] at hle
  refine ⟨fun stack es h hstands => hstands.affords hw hle, fun l r h' hr => ?_, ?_⟩
  · cases r with
    | ok o =>
      obtain ⟨o', es, before, l', hok, hstands, rfl⟩ | ⟨_, _, _, _, _, _, hwhy, _⟩ := run_stands hr
      · cases hok
        exact .inl ⟨o, es, before, l', rfl, by simp [Entry.exchanges], hstands⟩
      · cases hwhy
    | error why =>
      obtain ⟨rfl, hlost⟩ := contended_of_halt hs hdepth hattempts hw hle hr
      obtain ⟨hd, below, es, h, l', a, queue, hstands, rfl, hdue, hown, hp⟩ := halts_in_action hr
      exact .inr ⟨rfl, hlost, hd, below, es, h, a, l', hstands, hdue, rfl,
        hstands.affords_halt hw hle hdue hown hp⟩
  · intro hothers hcandid hpatience word clock l r h' hr
    cases r with
    | ok o => exact ⟨o, rfl⟩
    | error why =>
      have htry : Retry.KeepsTries (Alone w.dependency others outages) (Unraced w.dependency) Never
          ((s.board true).breaker w.dependency) :=
        keepsTries_unraced (b := (s.board true).breaker w.dependency) hothers
      have hkeeps : Keeps (Alone w.dependency others outages) (Unraced w.dependency) Never
          (run s task w) :=
        keeps_run (fun _ _ _ _ h => h.1) htry (keepsCalls_unraced hothers)
      have hunraced : Unraced w.dependency [] ⟨H, word, clock⟩ := ⟨rfl, hcandid⟩
      have hnone := (hkeeps.always hunraced hr).1
      have hserved := hr.map (f := World.store) fun _ _ _ _ h => h.1
      obtain ⟨_, hlost⟩ := contended_of_halt hs hdepth hattempts hw hle hserved
      rw [List.nil_append] at hnone
      omega

/-- A task of one worker and one helper, and nobody else. -/
theorem lone_ends : ∃ (l : List Exchange) (o : Outcome) (h' : World) (es : List (Entry Store)),
    Trail (Alone ⟨"api"⟩ (fun _ => False) fun _ => False) (run impatient ⟨"job", none⟩ lone)
      ⟨lonely.store, Breaker.encode .fresh, 0⟩ l (.ok o) h' ∧ l = calls es ∧
      (granted l).length = 1 ∧
      Affordable impatient lone (es.countP Entry.isRound) (es.countP Entry.isRequest) l := by
  have hdepth : lonely.store.HasDepth lone.id lone.depth := ⟨_, rfl, rfl⟩
  obtain ⟨hbounds, hends, halone⟩ := run_bounded check_impatient (by decide) (by decide)
    ⟨"job", none⟩ hdepth (by decide) (fun _ => False) fun _ => False
  have hrun := trail_follow (E := Alone ⟨"api"⟩ (fun _ => False) fun _ => False)
    (alone_serve (Call.calm .epoch ⟨"w-2"⟩)) (run impatient ⟨"job", none⟩ lone)
    ⟨lonely.store, Breaker.encode .fresh, 0⟩
  have hgranted : (granted ((run impatient ⟨"job", none⟩ lone).follow
      (World.serve (Call.calm .epoch ⟨"w-2"⟩) ⟨"api"⟩)
      ⟨lonely.store, Breaker.encode .fresh, 0⟩).1).length = 1 := by decide +kernel
  generalize (run impatient ⟨"job", none⟩ lone).follow
    (World.serve (Call.calm .epoch ⟨"w-2"⟩) ⟨"api"⟩)
    ⟨lonely.store, Breaker.encode .fresh, 0⟩ = followed at hrun hgranted
  obtain ⟨l, r, h'⟩ := followed
  have hcandid : lonely.store.Candid ⟨"api"⟩ := Store.candid_memory _
  obtain ⟨o, rfl⟩ := halone (fun _ => False.elim) hcandid (by decide) _ _ _ _ _ hrun
  obtain ⟨_, es, before, l', _, rfl, hstands⟩ | ⟨hwhy, _⟩ :=
    hends _ _ _ (hrun.map (f := World.store) fun _ _ _ _ h => h.1)
  · exact ⟨_, o, h', _, hrun, rfl, hgranted, hbounds _ _ _ hstands⟩
  · cases hwhy

/-- The program makes `n` attempts to replace a row, all in vain, and does not end. -/
def Starves {σ α : Type} (E : Environment σ) (x : Program α) (h : σ) (n : Nat) : Prop :=
  ∀ ⦃l r h'⦄, Trail E x h l r h' → r = .error .contention ∧ n ≤ l.countP Exchange.isSwap

section Starves

variable {σ α β : Type} {E : Environment σ} {h : σ} {n : Nat}

theorem starves_bind {x : Program α} {f : α → Program β} (hx : Starves E x h n) :
    Starves E (x >>= f) h n := by
  intro l r h' hr
  obtain ⟨a, h₁, l₁, l₂, rfl, hfirst, _⟩ | ⟨why, rfl, hfirst⟩ := trail_bind hr
  · cases (hx hfirst).1
  · exact (hx hfirst).imp_left contention_of_error

theorem starves_call_bind {q : Call} {f : q.Answer → Program β}
    (hf : ∀ a h₁, E h q a h₁ → Starves E (f a) h₁ n) : Starves E (Program.call q >>= f) h n := by
  intro l r h' hr
  obtain ⟨a, h₁, l₁, rfl, ha, hr⟩ := trail_call_bind hr
  rw [List.countP_cons]
  exact (hf a h₁ ha hr).imp_right (Nat.le_add_right_of_le ·)

end Starves

section Unread

/-- A database with the worker, whose breaker is closed since a time that its column does not hold. -/
def unread : Store :=
  (Store.database .empty).after [
    .insert ⟨⟨"w-1"⟩, "worker", none, ⟨"w-1"⟩, 0, ⟨"api"⟩, .epoch⟩ ⟨1, 1⟩,
    .swapBreaker ⟨"api"⟩ .fresh ⟨.closed, 0, 9223372036854775808⟩]

theorem garbled_unread : unread.Garbled ⟨"api"⟩ ⟨.closed, 0, 9223372036854775808⟩ :=
  ⟨.inl rfl, by show ¬_ < _; decide⟩

/-- Nobody else is there, and every call overruns. -/
def Lonesome : Environment World :=
  fun h q a h' => h.serve (Call.calm .epoch ⟨"w-2"⟩) ⟨"api"⟩ q = (a, h')

theorem Lonesome.alone {h h' : World} {q : Call} {a : q.Answer} (hq : Lonesome h q a h') :
    Alone ⟨"api"⟩ (fun _ => False) (fun _ => False) h q a h' := by
  have halone := @alone_serve ⟨"api"⟩ (fun _ => False) (fun _ => False)
    (Call.calm .epoch ⟨"w-2"⟩) h q
  rwa [show h.serve (Call.calm .epoch ⟨"w-2"⟩) ⟨"api"⟩ q = (a, h') from hq] at halone

theorem Lonesome.served (h : World) (q : Call) (a : q.Answer) (h' : World)
    (hq : Lonesome h q a h') : Served (fun _ => False) (fun _ => False) h.store q a h'.store :=
  hq.alone.1

theorem Lonesome.overruns {h h' : World} {d : Dependency} {bound : Duration} {a : Attempt}
    (ha : Lonesome h (.attempt d bound) a h') : a = .overran :=
  (congrArg Prod.fst ha).symm

theorem alive_unread {l : List Exchange} {r : Except Halt Bool} {h' : World}
    (hr : Trail Lonesome (isAlive lone) ⟨unread, Breaker.encode .fresh, 0⟩ l r h') :
    r = .ok true := by
  have hbeat : (unread.answer (.heartbeat lone.id .epoch)).1 = .ok true := rfl
  obtain ⟨a, h₁, l₁, l₂, rfl, hfirst, hrest⟩ | ⟨why, rfl, hfirst⟩ := trail_bind hr
  · obtain ⟨now, h₂, l₃, rfl, hnow, hfirst⟩ := trail_call_bind hfirst
    cases hnow
    obtain ⟨_, rfl, ha, hanswer⟩ := trail_call hfirst
    cases ha
    have ha : a = .ok true := (congrArg Prod.fst hanswer).symm.trans hbeat
    subst ha
    exact (trail_pure hrest).2.1
  · obtain ⟨now, h₂, l₃, rfl, hnow, hfirst⟩ := trail_call_bind hfirst
    obtain ⟨_, _, ha, _⟩ := trail_call hfirst
    cases ha

/-- The failure of the first attempt is never written. -/
theorem starves_attempts {b : Breaker} (hd : b.dependency = ⟨"api"⟩) (hshared : b.shared = true)
    {p : Retry.Policy} {left : Nat} {bound : Duration} {h : World}
    (hs : h.store.Garbled ⟨"api"⟩ ⟨.closed, 0, 9223372036854775808⟩) :
    Starves Lonesome (Retry.attempts b p left 0 bound []) h b.patience := by
  unfold Retry.attempts
  refine starves_bind fun l r h' hr => ?_
  obtain ⟨hwhy, _, hswaps⟩ | ⟨_, _, _, h₁, hforced⟩ := tryOnce_garbled Lonesome.served
    (fun _ => False.elim) (fun _ => False.elim) hd hshared rfl
    (fun ha _ hv => by cases ha.overruns.symm.trans hv) hs hr
  · exact ⟨hwhy, hswaps⟩
  · cases hforced

theorem starves_unread (n : Nat) :
    Starves Lonesome (run { impatient with patience := n } ⟨"job", none⟩ lone)
      ⟨unread, Breaker.encode .fresh, 0⟩ n := by
  refine starves_call_bind fun started h₁ hnow => starves_bind (starves_bind ?_)
  cases hnow
  intro l r h' hr
  obtain ⟨alive, h₂, l₁, l₂, rfl, halive, hr⟩ | ⟨why, _, halive⟩ := trail_bind hr
  · cases alive_unread halive
    have hs : h₂.store.Garbled ⟨"api"⟩ ⟨.closed, 0, 9223372036854775808⟩ :=
      halive.invariant (asks_isAlive lone) (fun h q a h' hq hI ha =>
        garbled_other Lonesome.served (fun _ => False.elim) hI (hq.only.not_swaps (by decide)) ha)
        garbled_unread
    have hexecute : Starves Lonesome (Retry.execute ({ impatient with patience := n }.board true)
        ⟨"api"⟩ (.ofSettings impatient.retry)) h₂ n :=
      starves_call_bind fun _ h₃ henlist => starves_attempts rfl rfl
        (garbled_other Lonesome.served (fun _ => False.elim) hs id henlist)
    rw [if_pos rfl] at hr
    rw [List.countP_append]
    exact (starves_bind hexecute hr).imp_right (Nat.le_add_left_of_le ·)
  · cases alive_unread halive

/-- However often a step of the breaker is tried, a run whose first call fails tries as often, and
ends only where its patience does. -/
theorem unread_never_ends : impatient.check = .ok () ∧ unread.HasDepth lone.id lone.depth ∧
    lone.depth ≤ impatient.governor.maxDepth ∧
      ∀ n, ∃ l h', Trail (Alone ⟨"api"⟩ (fun _ => False) fun _ => False)
        (run { impatient with patience := n } ⟨"job", none⟩ lone)
        ⟨unread, Breaker.encode .fresh, 0⟩ l (.error .contention) h' ∧
          n ≤ l.countP Exchange.isSwap := by
  refine ⟨check_impatient, ⟨_, rfl, rfl⟩, by decide, fun n => ?_⟩
  have htrail := trail_follow (E := Lonesome) (fun _ _ => rfl)
    (run { impatient with patience := n } ⟨"job", none⟩ lone) ⟨unread, Breaker.encode .fresh, 0⟩
  obtain ⟨hend, hswaps⟩ := starves_unread n htrail
  rw [hend] at htrail
  exact ⟨_, _, htrail.map (f := id) fun _ _ _ _ hq => hq.alone, hswaps⟩

end Unread

end WorkerGuard.Task
