import WorkerGuard.Proofs.Program.Passage
import WorkerGuard.Proofs.Registry.Enrolled
import WorkerGuard.Proofs.Registry.Sweep

/-!
# WorkerGuard.Proofs.Registry.Punctual

What a database makes of the age of a worker, of which it knows milliseconds only.

* `Chronicle`: the requests that a database has answered since it was new, and the last reading of
  the clock. `Durable times outages`: a process that works on such a database while others do.
* `Spoilt outages`: why a list may be refused.
* `Judges limit`: nobody is ended who is not too old by milliseconds. `Overdue`: who should end.
* `Shortlist`: a list of old workers, as far as it goes for those who are enrolled. `heeds_stale`.
* `heeds_terminateAll`, `heeds_pruneRole`, `heeds_pruneRoles`, `heeds_sweep`: the passes, from one
  to all of a sweep: nobody is ended too early, and who was too old at the beginning has ended.
* `sweep_is_punctual`: a list of old workers and a sweep, by true ages.
  `leap_second_lists_too_early`: where they do not go by these.
-/

namespace WorkerGuard

open Program Registry Registry.Database

structure Chronicle where
  requests : List Request
  /-- The last reading. -/
  clock : Instant

namespace Chronicle

def database (h : Chronicle) : Database := Database.empty.after h.requests

/-- The registry cannot be reached at times, or it has a worker that cannot be read. -/
def Spoilt (outages : Prop) (h : Chronicle) : Prop :=
  outages ∨ ∃ q ∈ h.requests, ¬q.Written

/-- The registry answers as a database may; others come between any two calls. -/
def Durable (times : Instant → Prop) (outages : Prop) : Environment Chronicle
  | h, .registry q, a, h' => h'.clock = h.clock ∧
      ((h.database.Permits q a ∧ h.requests ++ [q] <+: h'.requests) ∨
        (outages ∧ (∃ why, a = .error why) ∧ h.requests <+: h'.requests))
  | h, .now, t, h' => times t ∧ h'.clock = t ∧ h.requests <+: h'.requests
  | h, _, _, h' => h'.clock = h.clock ∧ h.requests <+: h'.requests

/-- Who is ended is too old for the role at the last reading, as far as milliseconds tell. -/
def Judges (limit : String → Duration) : Call → Chronicle → Prop
  | .registry (.terminate id), h => ∀ x, Enrolled h.requests x → x.id = id →
      x.createdAt.millis < (h.clock.before (limit x.role)).millis
  | _, _ => True

/-- A worker has a row, and if it is enrolled it is too old. -/
structure Due (limit : String → Duration) (h : Chronicle) (id : WorkerId) : Prop where
  known : ∃ r, h.database.workers.find? id.text = some r
  late : ∀ x, Enrolled h.requests x → x.id = id →
    x.createdAt.millis < (h.clock.before (limit x.role)).millis

/-- Workers of certain roles who are enrolled and too old by milliseconds, whatever the time. -/
def Overdue (times : Instant → Prop) (limit : String → Duration) (roles : String → Bool)
    (h : Chronicle) (id : WorkerId) : Prop :=
  ∃ x, Enrolled h.requests x ∧ x.id = id ∧ roles x.role = true ∧
    ∀ t, times t → x.createdAt.millis < (t.before (limit x.role)).millis

/-- The value of a pass: it is there unless something spoils it, and then certain workers have
ended. -/
structure Passed (outages : Prop) (h : Chronicle) (ended : WorkerId → Prop)
    (a : Except Registry.Error Lifecycle.Sweep) (h' : Chronicle) : Prop where
  onward : h.requests <+: h'.requests
  granted : (∃ done, a = .ok done) ∨ Spoilt outages h'
  ended : ∀ done, a = .ok done → ∀ id, ended id → Ended h'.requests id

/-- What a list of old workers says of those who are enrolled, made after `h` and read in `h'`. -/
structure Shortlist (maxAge : Duration) (role : Option String) (h h' : Chronicle)
    (ws : List Worker) : Prop where
  known : ∀ w ∈ ws, ∃ r, h'.database.workers.find? w.id.text = some r
  old : ∀ w ∈ ws, ∀ x, Enrolled h'.requests x → x.id = w.id →
    x.createdAt.millis < (h'.clock.before maxAge).millis ∧ role.all (x.role == ·) = true ∧
      w.role = x.role
  whole : ∀ x, Enrolled h.requests x → role.all (x.role == ·) = true →
    x.createdAt.millis < (h'.clock.before maxAge).millis →
      (∃ w ∈ ws, w.id = x.id ∧ w.role = x.role) ∨ Ended h'.requests x.id

structure Looked (times : Instant → Prop) (outages : Prop) (maxAge : Duration)
    (role : Option String) (h : Chronicle) (a : Except Registry.Error (List Worker))
    (h' : Chronicle) : Prop where
  onward : h.requests <+: h'.requests
  time : times h'.clock
  granted : (∃ ws, a = .ok ws) ∨ Spoilt outages h'
  list : ∀ ws, a = .ok ws → Shortlist maxAge role h h' ws

variable {times : Instant → Prop} {outages : Prop} {limit : String → Duration}
variable {h h₁ h' : Chronicle} {ws : List Worker} {done : Lifecycle.Sweep}
variable {maxAge : Duration} {role : Option String}

section Onward

variable {id : WorkerId} {x : Recruit} (hon : h.requests <+: h'.requests)
include hon

theorem known_onward (hk : ∃ r, h.database.workers.find? id.text = some r) :
    ∃ r, h'.database.workers.find? id.text = some r := by
  obtain ⟨rs, heq⟩ := hon
  obtain ⟨r, hr⟩ := hk
  obtain ⟨r', hr', -⟩ := follows_after hr rs
  exact ⟨r', by rw [database, ← heq, after_append]; exact hr'⟩

theorem enrolled_onward (hx : Enrolled h.requests x) : Enrolled h'.requests x := by
  obtain ⟨rs, heq⟩ := hon
  exact heq ▸ hx.append rs

/-- Nobody is enrolled later under the name of one who is known. -/
theorem enrolled_earlier (hx : Enrolled h'.requests x)
    (hk : ∃ r, h.database.workers.find? x.id.text = some r) : Enrolled h.requests x := by
  obtain ⟨rs, heq⟩ := hon
  obtain ⟨r, hr⟩ := hk
  rw [← heq] at hx
  exact hx.earlier hr

theorem Spoilt.onward (hs : Spoilt outages h) : Spoilt outages h' := by
  obtain hout | ⟨q, hq, hunread⟩ := hs
  · exact .inl hout
  · exact .inr ⟨q, hon.subset hq, hunread⟩

theorem Due.onward (hd : h.Due limit id) (hclock : h'.clock = h.clock) : h'.Due limit id := by
  refine ⟨known_onward hon hd.known, fun x hx hid => ?_⟩
  subst hid
  rw [hclock]
  exact hd.late x (enrolled_earlier hon hx hd.known) rfl

end Onward

theorem ended_onward {id : WorkerId} {qs qs' : List Request} (hon : qs <+: qs')
    (he : Ended qs id) : Ended qs' id := by
  obtain ⟨rs, rfl⟩ := hon
  exact he.append rs

/-- A pass that begins later. -/
theorem Passed.later {P P' : WorkerId → Prop} {a : Except Registry.Error Lifecycle.Sweep}
    (hp : Passed outages h₁ P a h') (hon : h.requests <+: h₁.requests)
    (hP : ∀ id, P' id → P id ∨ Ended h₁.requests id) : Passed outages h P' a h' where
  onward := hon.trans hp.onward
  granted := hp.granted
  ended := by
    intro done hdone id hid
    obtain hid | hended := hP id hid
    · exact hp.ended done hdone id hid
    · exact ended_onward hp.onward hended

/-- By induction on the list: those who are still to be ended are due. -/
theorem heeds_terminateAll (hws : ∀ w ∈ ws, h.Due limit w.id) :
    (Lifecycle.terminateAll ws done).Heeds (Durable times outages) (Judges limit)
      (Passed outages h fun id => ∃ w ∈ ws, w.id = id) h := by
  induction ws generalizing done h with
  | nil =>
    refine ⟨List.prefix_refl _, .inl ⟨done, rfl⟩, ?_⟩
    rintro _ _ _ ⟨_, hw, _⟩
    cases hw
  | cons w ws ih =>
    rw [List.forall_mem_cons] at hws
    obtain ⟨hw, hws⟩ := hws
    refine ⟨hw.late, ?_⟩
    rintro a h₁ ⟨hclock, ⟨ha, hon⟩ | ⟨hout, ⟨why, rfl⟩, hon⟩⟩
    · have hfirst : h.requests <+: h₁.requests := (List.prefix_append _ _).trans hon
      have hended : Ended h₁.requests w.id := by
        obtain ⟨r, hr⟩ := hw.known
        exact ended_onward hon (ended_terminate hr)
      have hrest : ∀ done', (Lifecycle.terminateAll ws done').Heeds (Durable times outages)
          (Judges limit) (Passed outages h fun id => ∃ v ∈ w :: ws, v.id = id) h₁ := by
        intro done'
        refine (ih fun v hv => (hws v hv).onward hfirst hclock).mono fun a h' hp =>
          hp.later hfirst ?_
        rintro id ⟨v, hv, rfl⟩
        obtain rfl | hv := List.mem_cons.1 hv
        · exact .inr hended
        · exact .inl ⟨v, hv, rfl⟩
      obtain ⟨b, hb, -⟩ := h.database.answer_terminate w.id
      obtain rfl : a = .ok b := ha.trans hb
      cases b with
      | true => exact hrest _
      | false => exact hrest _
    · exact ⟨hon, .inr (.inl hout), nofun⟩

/-- What was listed when the registry answered is still so when the process reads it. -/
theorem shortlist_of_permits (hfirst : h.requests <+: h₁.requests) (hclock : h'.clock = h₁.clock)
    (hp : h₁.database.Permits (.stale (h₁.clock.before maxAge) role) (.ok ws))
    (hon : h₁.requests <+: h'.requests) : Shortlist maxAge role h h' ws := by
  have hknown : ∀ w ∈ ws, ∃ r, h₁.database.workers.find? w.id.text = some r := by
    intro w hw
    obtain ⟨r, hr, -⟩ := exists_row_of_permits hp hw
    exact ⟨r, hr⟩
  rw [← hclock] at hp
  refine ⟨fun w hw => known_onward hon (hknown w hw), fun w hw x hx hid => ?_,
    fun x hx hrole hold => ?_⟩
  · exact (enrolled_earlier hon hx (hid ▸ hknown w hw)).old_of_listed hp hw hid.symm
  · exact ((enrolled_onward hfirst hx).listed_or_ended hp hrole hold).imp_right (ended_onward hon)

theorem heeds_stale : (Lifecycle.stale maxAge role).Heeds (Durable times outages) (Judges limit)
    (Looked times outages maxAge role h) h := by
  refine ⟨trivial, fun t h₁ ⟨htime, hnow, hfirst⟩ => ⟨trivial, ?_⟩⟩
  subst hnow
  rintro a h₂ ⟨hclock, ⟨ha, hon⟩ | ⟨hout, ⟨why, rfl⟩, hon⟩⟩
  · have hlater : h₁.requests <+: h₂.requests := (List.prefix_append _ _).trans hon
    refine ⟨hfirst.trans hlater, hclock ▸ htime, ?_, ?_⟩
    · by_cases hunread : ∃ q ∈ h₁.requests, ¬q.Written
      · exact .inr (Spoilt.onward hlater (.inr hunread))
      · simp only [not_exists, not_and, not_not] at hunread
        exact .inl (exists_list_of_permits (legible_after hunread) ha)
    · rintro ws rfl
      exact shortlist_of_permits hfirst hclock ha hlater
  · exact ⟨hfirst.trans hon, hclock ▸ htime, .inr (.inl hout), nofun⟩

/-- A pass over those of a list whose roles are picked. -/
theorem Shortlist.heeds_terminateAll (hs : Shortlist maxAge role h h₁ ws)
    (roles : String → Bool) (htime : times h₁.clock)
    (hlimit : ∀ ρ, role.all (ρ == ·) = true → roles ρ = true → limit ρ = maxAge)
    (hon : h.requests <+: h₁.requests) :
    (Lifecycle.terminateAll (ws.filter fun w => roles w.role) done).Heeds (Durable times outages)
      (Judges limit)
      (Passed outages h (Overdue times limit (fun ρ => role.all (ρ == ·) && roles ρ) h)) h₁ := by
  have hdue : ∀ w ∈ ws.filter (fun w => roles w.role), h₁.Due limit w.id := by
    intro w hw
    obtain ⟨hw, hpicked⟩ := List.mem_filter.1 hw
    refine ⟨hs.known w hw, fun x hx hid => ?_⟩
    obtain ⟨hold, hrole, hsame⟩ := hs.old w hw x hx hid
    rw [hlimit x.role hrole (hsame ▸ hpicked)]
    exact hold
  refine (Chronicle.heeds_terminateAll hdue).mono fun a h' hp => hp.later hon ?_
  rintro id ⟨x, hx, rfl, hroles, hold⟩
  obtain ⟨hrole, hpicked⟩ := Bool.and_eq_true_iff.1 hroles
  have hold := hold _ htime
  rw [hlimit x.role hrole hpicked] at hold
  obtain ⟨w, hw, hid, hsame⟩ | hended := hs.whole x hx hrole hold
  · exact .inl ⟨w, List.mem_filter.2 ⟨hw, hsame ▸ hpicked⟩, hid⟩
  · exact .inr hended

theorem heeds_pruneRole
    (hlimit : ∀ ρ, role.all (ρ == ·) = true → limit ρ = maxAge) :
    (Lifecycle.pruneRole maxAge role done).Heeds (Durable times outages) (Judges limit)
      (Passed outages h (Overdue times limit (fun ρ => role.all (ρ == ·)) h)) h := by
  refine heeds_bind heeds_stale fun a h₁ hl => ?_
  cases a with
  | error e => exact ⟨hl.onward, .inr (hl.granted.resolve_left nofun), nofun⟩
  | ok ws =>
    have hpass : (Lifecycle.terminateAll (ws.filter fun _ => true) done).Heeds
        (Durable times outages) (Judges limit)
        (Passed outages h (Overdue times limit (fun ρ => role.all (ρ == ·) && true) h)) h₁ :=
      (hl.list ws rfl).heeds_terminateAll (fun _ => true) hl.time
        (fun ρ hrole _ => hlimit ρ hrole) hl.onward
    simpa using hpass

theorem heeds_pruneRoles {rs : List Role}
    (hlimit : ∀ r ∈ rs, limit r.name = r.maxAge) :
    (Lifecycle.pruneRoles rs done).Heeds (Durable times outages) (Judges limit)
      (Passed outages h (Overdue times limit (fun ρ => rs.any fun r => ρ == r.name) h)) h := by
  induction rs generalizing done h with
  | nil =>
    refine ⟨List.prefix_refl _, .inl ⟨done, rfl⟩, ?_⟩
    rintro _ _ _ ⟨_, _, _, hrole, _⟩
    cases hrole
  | cons r rs ih =>
    rw [List.forall_mem_cons] at hlimit
    obtain ⟨hr, hrs⟩ := hlimit
    refine heeds_bind (heeds_pruneRole fun ρ hrole => ?_) fun a h₁ hp => ?_
    · have hname : ρ = r.name := eq_of_beq hrole
      rw [hname, hr]
    · cases a with
      | error e => exact ⟨hp.onward, .inr (hp.granted.resolve_left nofun), nofun⟩
      | ok done' =>
        refine (ih hrs).mono fun a h' hp' => hp'.later hp.onward ?_
        rintro id ⟨x, hx, hid, hrole, hold⟩
        simp only [List.any_cons, Bool.or_eq_true] at hrole
        obtain hrole | hrole := hrole
        · exact .inr (hp.ended done' rfl id ⟨x, hx, hid, hrole, hold⟩)
        · exact .inl ⟨x, enrolled_onward hp.onward hx, hid, hrole, hold⟩

theorem heeds_sweep (s : Settings) :
    (Lifecycle.sweep s).Heeds (Durable times outages) (Judges s.maxAgeOf)
      (Passed outages h (Overdue times s.maxAgeOf (fun _ => true) h)) h := by
  have hroles : ∀ r ∈ s.allRoles, s.maxAgeOf r.name = r.maxAge := by
    intro r hr
    have hall := Lifecycle.old_maxAgeOf s (fun d => decide (d = r.maxAge)) r.name
    rw [Bool.or_eq_true_iff.2 (.inl (List.any_eq_true.2 ⟨r, hr, by simp⟩))] at hall
    exact of_decide_eq_true hall.symm
  have hstrays : ∀ ρ, (!s.roles.contains ρ) = true →
      s.maxAgeOf ρ = s.lifecycle.defaultMaxWorkerAge := by
    intro ρ hρ
    have hall := Lifecycle.old_maxAgeOf s
      (fun d => decide (d = s.lifecycle.defaultMaxWorkerAge)) ρ
    rw [Bool.or_eq_true_iff.2 (.inr (by simp [hρ]))] at hall
    exact of_decide_eq_true hall.symm
  refine heeds_bind (heeds_pruneRoles hroles) fun a h₁ hp => ?_
  cases a with
  | error e => exact ⟨hp.onward, .inr (hp.granted.resolve_left nofun), nofun⟩
  | ok done =>
    refine heeds_bind heeds_stale fun a h₂ hl => ?_
    cases a with
    | error e =>
      exact ⟨hp.onward.trans hl.onward, .inr (hl.granted.resolve_left nofun), nofun⟩
    | ok ws =>
      refine ((hl.list ws rfl).heeds_terminateAll (fun ρ => !s.roles.contains ρ) hl.time
        (fun ρ _ => hstrays ρ) hl.onward).mono fun a h' hp' => hp'.later hp.onward ?_
      rintro id ⟨x, hx, hid, -, hold⟩
      have hone := Lifecycle.old_maxAgeOf s (fun _ => true) x.role
      simp only [Bool.true_and, Bool.or_eq_true] at hone
      obtain hrole | hrole := hone
      · exact .inr (hp.ended done rfl id ⟨x, hx, hid, hrole, hold⟩)
      · exact .inl ⟨x, enrolled_onward hp.onward hx, hid, hrole, hold⟩

end Chronicle

namespace Lifecycle

theorem total_terminateAll (ws : List Worker) (done : Sweep) : (terminateAll ws done).Total := by
  induction ws generalizing done with
  | nil => exact total_pure _
  | cons w ws ih =>
    refine total_bind (total_call _) fun a => ?_
    split
    · exact total_pure _
    · exact ih _
    · exact ih _

theorem total_stale (maxAge : Duration) (role : Option String) : (stale maxAge role).Total :=
  total_bind (total_call _) fun _ => total_call _

theorem total_pruneRoles (rs : List Role) (done : Sweep) : (pruneRoles rs done).Total := by
  induction rs generalizing done with
  | nil => exact total_pure _
  | cons r rs ih =>
    refine total_bind (total_bind (total_stale _ _) fun a => ?_) fun a => ?_
    · split
      · exact total_pure _
      · exact total_terminateAll _ _
    · split
      · exact total_pure _
      · exact ih _

theorem total_sweep (s : Settings) : (sweep s).Total := by
  refine total_bind (total_pruneRoles _ _) fun a => ?_
  split
  · exact total_pure _
  · refine total_bind (total_stale _ _) fun a => ?_
    split
    · exact total_pure _
    · exact total_terminateAll _ _

end Lifecycle

open Chronicle

/-- A list of old workers, in whatever order the database gives it, holds only workers that were
created before its cutoff, if this is no leap second; and all active ones that were created at least
a millisecond before it, if that was in no leap second. So a sweep, while others make their requests
and even if the registry cannot be reached at times, ends nobody whose age is within its limit, and
who exceeds it by a millisecond at each reading has ended after it. -/
theorem sweep_is_punctual (s : Settings) :
    (∀ (qs : List Request) (x : Recruit), Enrolled qs x → ∀ (cutoff : Instant)
        (role : Option String) (a : Except Registry.Error (List Worker)),
      (Database.empty.after qs).Permits (.stale cutoff role) a →
        (∀ ws, a = .ok ws → (∃ w ∈ ws, w.id = x.id) → ¬cutoff.Leap → x.createdAt < cutoff) ∧
        ((∀ q ∈ qs, q.Written) → (Database.empty.after qs).Alive x.id →
          role.all (x.role == ·) = true → ¬x.createdAt.Leap →
          1_000_000 ≤ cutoff.nanosSince x.createdAt → ∃ ws, a = .ok ws ∧ ∃ w ∈ ws, w.id = x.id)) ∧
    ∀ (times : Instant → Prop) (outages : Prop) (h : Chronicle) {l r h'},
      Trail (Durable times outages) (Lifecycle.sweep s) h l r h' →
        (∀ l₁ id a l₂, l = l₁ ++ ⟨.registry (.terminate id), a⟩ :: l₂ → ∃ next h₁,
          Passage (Durable times outages) (Lifecycle.sweep s) h l₁
            (.ask (.registry (.terminate id)) next) h₁ ∧
          ∀ x, Enrolled h₁.requests x → x.id = id → ¬h₁.clock.Leap → ¬x.createdAt.Leap →
            s.maxAgeOf x.role < x.enrolled.age h₁.clock) ∧
        (¬outages → (∀ q ∈ h'.requests, q.Written) → ∃ done, r = .ok (.ok done)) ∧
        ∀ done, r = .ok (.ok done) → ∀ x, Enrolled h.requests x → ¬x.createdAt.Leap →
          (∀ t, times t → ¬t.Leap ∧
            (s.maxAgeOf x.role).nanos + 1_000_000 ≤ (x.enrolled.age t).nanos) →
          ¬h'.database.Alive x.id := by
  constructor
  · intro qs x hx cutoff role a ha
    constructor
    · rintro ws rfl ⟨w, hw, hid⟩ hcutoff
      exact Instant.lt_of_millis_lt hcutoff (hx.old_of_listed ha hw hid).1
    · intro hw halive hrole hcreated hold
      obtain ⟨ws, rfl⟩ := exists_list_of_permits (legible_after hw) ha
      have hmillis := Instant.millis_add_le (n := 1) hcreated hold
      obtain ⟨w, hw, hid, -⟩ | hended := hx.listed_or_ended ha hrole (by omega)
      · exact ⟨ws, rfl, w, hw, hid⟩
      · exact absurd halive hended.not_alive
  · intro times outages h l r h' hr
    have hheeds : (Lifecycle.sweep s).Heeds (Durable times outages) _ _ h := heeds_sweep s
    obtain ⟨a, rfl⟩ := hr.ok_of_total (Lifecycle.total_sweep s)
    have hpassed := hheeds.trail hr
    refine ⟨?_, fun hout hwritten => ?_, ?_⟩
    · rintro l₁ id a l₂ rfl
      obtain ⟨next, h₁, h₂, hway, -, -⟩ := hr.split
      refine ⟨next, h₁, hway, fun x hx hid hnow hcreated => ?_⟩
      have hlate := (hheeds.passage hway).1 x hx hid
      exact Instant.lt_since_of_millis_lt_before hnow hcreated hlate
    · obtain ⟨done, rfl⟩ | hout' | ⟨q, hq, hunread⟩ := hpassed.granted
      · exact ⟨done, rfl⟩
      · exact absurd hout' hout
      · exact absurd (hwritten q hq) hunread
    · rintro done hdone x hx hcreated htimes
      cases hdone
      refine (hpassed.ended done rfl x.id ⟨x, hx, rfl, rfl, fun t ht => ?_⟩).not_alive
      obtain ⟨hnow, hage⟩ := htimes t ht
      exact Instant.millis_lt_before_of_since hnow hcreated hage

/-- A worker of the year 2017, and a cutoff in the leap second before it. -/
theorem leap_second_lists_too_early :
    let cutoff : Instant := ⟨1483228799, 1_500_000_000, by decide, by decide, by decide⟩
    let x : Recruit := ⟨⟨"w-1"⟩, "worker", none, ⟨"w-1"⟩, 0, ⟨"api"⟩,
      ⟨1483228800, 0, by decide, by decide, by decide⟩⟩
    Enrolled [.insert x ⟨1, 1⟩] x ∧ cutoff < x.createdAt ∧
      ∃ ws, (Database.empty.after [.insert x ⟨1, 1⟩]).Permits (.stale cutoff none) (.ok ws) ∧
        ∃ w ∈ ws, w.id = x.id := by
  intro cutoff x
  have hx : Enrolled [.insert x ⟨1, 1⟩] x := ⟨[], ⟨1, 1⟩, [], rfl, rfl⟩
  have hlist := (Database.empty.after [.insert x ⟨1, 1⟩]).permits_answer (.stale cutoff none)
  have hwritten : (Request.insert x ⟨1, 1⟩).Written :=
    Instant.ofMillis?_millis_of_nanos_lt (by decide)
  obtain ⟨ws, hws⟩ :=
    exists_list_of_permits (legible_after (List.forall_mem_singleton.2 hwritten)) hlist
  rw [hws] at hlist
  refine ⟨hx, by decide, ws, hlist, ?_⟩
  obtain ⟨w, hw, hid, -⟩ | hended := hx.listed_or_ended hlist rfl (by decide)
  · exact ⟨w, hw, hid⟩
  · exact absurd ⟨.ofRecruit x, rfl, rfl⟩ hended.not_alive

/-- The only process there is, with a clock that stands still. -/
def Chronicle.serve (now : Instant) (h : Chronicle) : (q : Call) → q.Answer × Chronicle
  | .registry q => ((h.database.answer q).1, { h with requests := h.requests ++ [q] })
  | .now => (now, { h with clock := now })
  | q => (Call.calm now ⟨""⟩ q, h)

theorem durable_serve (now : Instant) (h : Chronicle) (q : Call) :
    Durable (· = now) False h q (h.serve now q).1 (h.serve now q).2 := by
  cases q with
  | registry q => exact ⟨rfl, .inl ⟨h.database.permits_answer q, List.prefix_refl _⟩⟩
  | now => exact ⟨rfl, rfl, List.prefix_refl _⟩
  | _ => exact ⟨rfl, List.prefix_refl _⟩

/-- A helper that was created a nanosecond before 1970 is listed as soon as it is a millisecond old,
and ended when it is older than 900 seconds. -/
theorem helper_ends_punctually :
    let x : Recruit := ⟨⟨"w-1"⟩, "helper", none, ⟨"w-1"⟩, 0, ⟨"api"⟩,
      ⟨-1, 999_999_999, by decide, by decide, by decide⟩⟩
    let h : Chronicle := ⟨[.insert x ⟨1, 1⟩], .epoch⟩
    Enrolled h.requests x ∧
      (∃ ws, h.database.Permits
          (.stale ⟨0, 999_999, by decide, by decide, by decide⟩ (some "helper")) (.ok ws) ∧
        ∃ w ∈ ws, w.id = x.id) ∧
      ∃ l done h', Trail (Durable (· = atSecond 901) False) (Lifecycle.sweep default) h l
        (.ok (.ok done)) h' ∧ ¬h'.database.Alive ⟨"w-1"⟩ := by
  intro x h
  have hx : Enrolled h.requests x := ⟨[], ⟨1, 1⟩, [], rfl, rfl⟩
  have hwritten : (Request.insert x ⟨1, 1⟩).Written :=
    Instant.ofMillis?_millis_of_nanos_lt (by decide)
  obtain ⟨hlists, hsweeps⟩ := sweep_is_punctual default
  refine ⟨hx, ?_, ?_⟩
  · have hlist := h.database.permits_answer
      (.stale ⟨0, 999_999, by decide, by decide, by decide⟩ (some "helper"))
    obtain ⟨ws, hws, hw⟩ := (hlists h.requests x hx _ _ _ hlist).2
      (List.forall_mem_singleton.2 hwritten) ⟨.ofRecruit x, rfl, rfl⟩ rfl (by decide) (by decide)
    exact ⟨ws, hws ▸ hlist, hw⟩
  · have hr := trail_follow (durable_serve (atSecond 901)) (Lifecycle.sweep default) h
    obtain ⟨a, ha⟩ := hr.ok_of_total (Lifecycle.total_sweep default)
    have hended : ((Lifecycle.sweep default).follow
        (Chronicle.serve (atSecond 901)) h).2.1.toOption.bind Except.toOption =
          some ⟨[⟨"w-1"⟩], 0⟩ := by
      decide +kernel
    rw [ha] at hr hended
    cases a with
    | error why => cases hended
    | ok done =>
      refine ⟨_, done, _, hr, (hsweeps _ _ h hr).2.2 done rfl x hx (by decide) ?_⟩
      rintro t rfl
      decide +kernel

end WorkerGuard
