import WorkerGuard.Proofs.Registry.Mirror

/-!
# WorkerGuard.Proofs.Registry.Life

The life of a worker in the registry of a single process.

* `Request.target?`, `Request.applied`: the worker that a request changes, and how.
* `Memory.grants`: whether such a request was answered with yes.
* `Memory.find?_answer`: a record after one request, exactly.
* `Worker.Follows`: what may become of a worker.
* `Memory.OneWay`: all that a sequence of requests leaves of the records that are there.
* `Memory.oneWay`: every sequence does.
-/

namespace WorkerGuard

open Registry

/-- A worker stays the one it is, and closing it is for good. -/
structure Worker.Follows (w w' : Worker) : Prop where
  same : w' = { w with lastHeartbeatAt := w'.lastHeartbeatAt, state := w'.state }
  state : w'.state = w.state ∨ w.state = .active ∧ (w'.state = .degraded ∨ w'.state = .terminated)

theorem Worker.Follows.refl (w : Worker) : w.Follows w := ⟨rfl, .inl rfl⟩

theorem Worker.Follows.trans {w₁ w₂ w₃ : Worker} (h₁ : w₁.Follows w₂) (h₂ : w₂.Follows w₃) :
    w₁.Follows w₃ := by
  refine ⟨?_, ?_⟩
  · rw [h₂.same, h₁.same]
  · obtain hs₂ | ⟨ha₂, hc₂⟩ := h₂.state
    · rw [hs₂]
      exact h₁.state
    · obtain hs₁ | ⟨_, hc₁⟩ := h₁.state
      · exact .inr ⟨hs₁.symm.trans ha₂, hc₂⟩
      · rw [ha₂] at hc₁
        obtain hc₁ | hc₁ := hc₁ <;> cases hc₁

namespace Registry

namespace Request

/-- The worker that a request changes if it is active. -/
def target? : Request → Option WorkerId
  | heartbeat id _ => some id
  | terminate id => some id
  | degrade id => some id
  | _ => none

/-- The worker that a request closes if it is active. -/
def closes? : Request → Option WorkerId
  | terminate id => some id
  | degrade id => some id
  | _ => none

def applied : Request → Worker → Worker
  | heartbeat _ t, w => { w with lastHeartbeatAt := t }
  | terminate _, w => { w with state := .terminated }
  | degrade _, w => { w with state := .degraded }
  | _, w => w

/-- The worker whose record can be another one afterwards, or a new one. -/
def touches? : Request → Option WorkerId
  | insert r _ => some r.id
  | q => q.target?

def OnOverrides : Request → Prop
  | setOverride _ => True
  | clearOverride _ => True
  | _ => False

def OnBreakers : Request → Prop
  | loadBreaker _ => True
  | swapBreaker .. => True
  | listBreakers => True
  | _ => False

end Request

namespace Memory

variable {m : Memory} {q : Request} {id : WorkerId} {f : Worker → Worker} {k : String}
  {w w' : Worker} {qs before early late : List Request}

theorem updateActive_granted :
    (m.updateActive id f).1 = true ↔ ∃ w, m.workers.find? id.text = some w ∧ w.isActive = true := by
  unfold updateActive
  cases hw : m.workers.find? id.text with
  | none => simp
  | some w =>
    cases ha : w.isActive
    · simp [ha]
    · simp [ha]

theorem find?_updateActive_of_some (h : m.workers.find? k = some w) :
    (m.updateActive id f).2.workers.find? k =
      some (if id = ⟨k⟩ ∧ (m.updateActive id f).1 = true then f w else w) := by
  by_cases hid : id = ⟨k⟩
  · subst hid
    simp only [updateActive, h]
    cases ha : w.isActive
    · simp [h]
    · simp
  · rw [if_neg fun hboth => hid hboth.1]
    obtain hkept | ⟨_, hk, _⟩ := m.find?_updateActive id f k
    · exact hkept.trans h
    · exact absurd (WorkerId.eq_of_text hk.symm) hid

/-- Whether a request for a worker was answered with yes. -/
def grants (m : Memory) : Request → Bool
  | .heartbeat id t => (m.answer (.heartbeat id t)).1
  | .terminate id => (m.answer (.terminate id)).1
  | .degrade id => (m.answer (.degrade id)).1
  | _ => false

/-- Only who is active is granted anything. -/
theorem grants_iff : m.grants q = true ↔
    ∃ id w, q.target? = some id ∧ m.workers.find? id.text = some w ∧ w.isActive = true := by
  cases q with
  | heartbeat i t => simp [grants, answer, updateActive_granted, Request.target?]
  | terminate i => simp [grants, answer, updateActive_granted, Request.target?]
  | degrade i => simp [grants, answer, updateActive_granted, Request.target?]
  | _ => simp [grants, Request.target?]

theorem active_of_grants (htarget : q.target? = some id) (hgrants : m.grants q = true) :
    ∃ w, m.workers.find? id.text = some w ∧ w.state = .active := by
  obtain ⟨i, w, hi, hw, ha⟩ := grants_iff.1 hgrants
  rw [htarget] at hi
  cases hi
  exact ⟨w, hw, by simpa [Worker.isActive] using ha⟩

/-- A record that is there is changed by what is granted for it, and by nothing else. -/
theorem find?_answer (h : m.workers.find? k = some w) (q : Request) :
    (m.answer q).2.workers.find? k =
      some (if q.target? = some ⟨k⟩ ∧ m.grants q = true then q.applied w else w) := by
  cases q with
  | insert r c =>
    obtain hkept | ⟨_, hnew, _⟩ := m.find?_insertion r c k
    · simpa [Request.target?] using hkept.trans h
    · rw [h] at hnew
      cases hnew
  | heartbeat i t =>
    simpa [Request.target?, Request.applied, grants, answer] using
      find?_updateActive_of_some (f := fun w => { w with lastHeartbeatAt := t }) h
  | terminate i =>
    simpa [Request.target?, Request.applied, grants, answer] using
      find?_updateActive_of_some (f := fun w => { w with state := .terminated }) h
  | degrade i =>
    simpa [Request.target?, Request.applied, grants, answer] using
      find?_updateActive_of_some (f := fun w => { w with state := .degraded }) h
  | swapBreaker d e n =>
    simp only [answer]
    split <;> simpa [Request.target?] using h
  | _ => simpa [answer, Request.target?] using h

/-- Who is registered was not there, and is found from then on. -/
theorem inserted_of_some {r : Recruit} {c : Ceilings} (h : (m.answer (.insert r c)).1 = some w) :
    w = r.enrolled ∧ m.workers.find? r.id.text = none ∧
      (m.answer (.insert r c)).2.workers.find? r.id.text = some w := by
  simp only [answer] at h ⊢
  split at h
  · cases h
  · rename_i hroom
    cases h
    rw [if_neg hroom]
    refine ⟨rfl, ?_, by simp⟩
    simpa [Keyed.contains] using fun hold => hroom (.inr (.inr hold))

/-- Names that a request does not touch have what they had, be it nothing. -/
theorem find?_answer_other (hk : q.touches? ≠ some ⟨k⟩) :
    (m.answer q).2.workers.find? k = m.workers.find? k := by
  have hother {i : WorkerId} (f : Worker → Worker) (hi : some i ≠ some (⟨k⟩ : WorkerId)) :
      (m.updateActive i f).2.workers.find? k = m.workers.find? k := by
    obtain hkept | ⟨_, hki, _⟩ := m.find?_updateActive i f k
    · exact hkept
    · exact absurd (congrArg some (WorkerId.eq_of_text hki.symm)) hi
  cases q with
  | insert r c =>
    obtain hkept | ⟨hkr, _⟩ := m.find?_insertion r c k
    · exact hkept
    · exact absurd (congrArg some (WorkerId.eq_of_text hkr.symm)) hk
  | heartbeat i t => exact hother _ hk
  | terminate i => exact hother _ hk
  | degrade i => exact hother _ hk
  | swapBreaker d e n =>
    simp only [answer]
    split <;> rfl
  | _ => rfl

theorem overrides_answer (hq : ¬q.OnOverrides) : (m.answer q).2.overrides = m.overrides := by
  cases q with
  | insert r c =>
    simp only [answer]
    split <;> rfl
  | heartbeat i t => exact m.overrides_updateActive i _
  | terminate i => exact m.overrides_updateActive i _
  | degrade i => exact m.overrides_updateActive i _
  | setOverride o => exact absurd trivial hq
  | clearOverride d => exact absurd trivial hq
  | swapBreaker d e n =>
    simp only [answer]
    split <;> rfl
  | _ => rfl

theorem breakers_answer (hq : ¬q.OnBreakers) : (m.answer q).2.breakers = m.breakers := by
  cases q with
  | insert r c =>
    simp only [answer]
    split <;> rfl
  | heartbeat i t => exact m.breakers_updateActive i _
  | terminate i => exact m.breakers_updateActive i _
  | degrade i => exact m.breakers_updateActive i _
  | swapBreaker d e n => exact absurd trivial hq
  | _ => rfl

/-- One request is one step of the life of a worker. -/
theorem follows_answer (h : m.workers.find? k = some w) (q : Request) :
    ∃ w', (m.answer q).2.workers.find? k = some w' ∧ w.Follows w' := by
  refine ⟨_, find?_answer h q, ?_⟩
  split
  · rename_i hq
    obtain ⟨htarget, hgrants⟩ := hq
    obtain ⟨v, hv, hactive⟩ := active_of_grants htarget hgrants
    -- who is granted something is the worker itself
    rw [h] at hv
    cases hv
    cases q with
    | heartbeat i t => exact ⟨rfl, .inl rfl⟩
    | terminate i => exact ⟨rfl, .inr ⟨hactive, .inr rfl⟩⟩
    | degrade i => exact ⟨rfl, .inr ⟨hactive, .inl rfl⟩⟩
    | _ => cases htarget
  · exact .refl w

theorem after_append (m : Memory) (qs rs : List Request) :
    m.after (qs ++ rs) = (m.after qs).after rs := List.foldl_append

/-- By induction on the requests, from one step. -/
theorem follows_after (h : m.workers.find? k = some w) (qs : List Request) :
    ∃ w', (m.after qs).workers.find? k = some w' ∧ w.Follows w' := by
  induction qs generalizing m w with
  | nil => exact ⟨w, h, .refl w⟩
  | cons q qs ih =>
    obtain ⟨v, hv, hwv⟩ := follows_answer h q
    obtain ⟨w', hw', hvw'⟩ := ih hv
    exact ⟨w', hw', hwv.trans hvw'⟩

theorem follows_of_prefix (hlate : early <+: late) (h : (m.after early).workers.find? k = some w) :
    ∃ w', (m.after late).workers.find? k = some w' ∧ w.Follows w' := by
  obtain ⟨rest, rfl⟩ := hlate
  rw [after_append]
  exact follows_after h rest

theorem target?_of_closes? (h : q.closes? = some id) : q.target? = some id := by
  cases q <;> simp_all [Request.closes?, Request.target?]

/-- A request that closes a worker finds it active, and leaves it closed. -/
theorem closed_of_grants (hq : q.closes? = some id) (hgrants : m.grants q = true) :
    ∃ w w', m.workers.find? id.text = some w ∧ w.state = .active ∧
      (m.answer q).2.workers.find? id.text = some w' ∧
      (w'.state = .degraded ∨ w'.state = .terminated) := by
  have htarget := target?_of_closes? hq
  obtain ⟨w, hw, hactive⟩ := active_of_grants htarget hgrants
  refine ⟨w, _, hw, hactive, find?_answer hw q, ?_⟩
  rw [if_pos ⟨htarget, hgrants⟩]
  cases q with
  | terminate i => exact .inr rfl
  | degrade i => exact .inl rfl
  | _ => cases hq

/-- The state of a worker is changed by the requests that close it, when they are granted. -/
theorem state_answer_ne_iff (h : m.workers.find? k = some w)
    (h' : (m.answer q).2.workers.find? k = some w') :
    w'.state ≠ w.state ↔ q.closes? = some ⟨k⟩ ∧ m.grants q = true := by
  constructor
  · intro hne
    rw [find?_answer h q] at h'
    split at h'
    · rename_i hq
      cases h'
      refine ⟨?_, hq.2⟩
      cases q with
      | heartbeat i t => exact absurd rfl hne
      | terminate i => exact hq.1
      | degrade i => exact hq.1
      | _ => cases hq.1
    · cases h'
      exact absurd rfl hne
  · rintro ⟨hq, hgrants⟩
    obtain ⟨v, v', hv, hactive, hv', hclosed⟩ := closed_of_grants hq hgrants
    rw [h] at hv
    rw [h'] at hv'
    cases hv
    cases hv'
    rw [hactive]
    rintro heq
    rw [heq] at hclosed
    obtain hclosed | hclosed := hclosed <;> cases hclosed

/-- Heartbeats that are granted are the only ones that count. -/
theorem heartbeat_of_ne (h : m.workers.find? k = some w)
    (h' : (m.answer q).2.workers.find? k = some w')
    (hne : w'.lastHeartbeatAt ≠ w.lastHeartbeatAt) :
    ∃ t, q = .heartbeat ⟨k⟩ t ∧ m.grants q = true ∧ w'.lastHeartbeatAt = t := by
  rw [find?_answer h q] at h'
  split at h'
  · rename_i hq
    cases h'
    cases q with
    | heartbeat i t =>
      cases hq.1
      exact ⟨t, rfl, hq.2, rfl⟩
    | terminate i => exact absurd rfl hne
    | degrade i => exact absurd rfl hne
    | _ => cases hq.1
  · cases h'
    exact absurd rfl hne

/-- What holds of the records along a sequence of requests. A place in it is a prefix that ends
with the request. -/
structure OneWay (m : Memory) (qs : List Request) : Prop where
  /-- An insertion that succeeds makes a record where there was none. -/
  inserted : ∀ {before r c w}, before ++ [.insert r c] <+: qs →
    ((m.after before).answer (.insert r c)).1 = some w →
      w = r.enrolled ∧ (m.after before).workers.find? r.id.text = none ∧
        (m.after (before ++ [.insert r c])).workers.find? r.id.text = some w
  /-- No record is removed. What it was created with stays, and it is closed at most once. -/
  follows : ∀ {early late k w}, early <+: late → late <+: qs →
    (m.after early).workers.find? k = some w →
      ∃ w', (m.after late).workers.find? k = some w' ∧ w.Follows w'
  /-- The state changes where a request that closes the worker is granted, and there only. -/
  closed : ∀ {before q k w w'}, before ++ [q] <+: qs →
    (m.after before).workers.find? k = some w →
    (m.after (before ++ [q])).workers.find? k = some w' →
      (w'.state ≠ w.state ↔ q.closes? = some ⟨k⟩ ∧ (m.after before).grants q = true)
  /-- Such a request finds the worker active. -/
  closing : ∀ {before q id}, before ++ [q] <+: qs → q.closes? = some id →
    (m.after before).grants q = true →
      ∃ w w', (m.after before).workers.find? id.text = some w ∧ w.state = .active ∧
        (m.after (before ++ [q])).workers.find? id.text = some w' ∧
        (w'.state = .degraded ∨ w'.state = .terminated)
  /-- It is granted at one place at most. -/
  once : ∀ {before q before' q' id}, before ++ [q] <+: qs → before' ++ [q'] <+: qs →
    q.closes? = some id → (m.after before).grants q = true →
    q'.closes? = some id → (m.after before').grants q' = true → before = before' ∧ q = q'
  /-- The last heartbeat changes where a heartbeat is granted, and there only. -/
  beaten : ∀ {before q k w w'}, before ++ [q] <+: qs →
    (m.after before).workers.find? k = some w →
    (m.after (before ++ [q])).workers.find? k = some w' →
    w'.lastHeartbeatAt ≠ w.lastHeartbeatAt →
      ∃ t, q = .heartbeat ⟨k⟩ t ∧ (m.after before).grants q = true ∧ w'.lastHeartbeatAt = t
  /-- A heartbeat is granted to active workers only. -/
  beating : ∀ {before id t}, before ++ [.heartbeat id t] <+: qs →
    (m.after before).grants (.heartbeat id t) = true →
      ∃ w, (m.after before).workers.find? id.text = some w ∧ w.state = .active
  others : ∀ {before q k}, before ++ [q] <+: qs → q.touches? ≠ some ⟨k⟩ →
    (m.after (before ++ [q])).workers.find? k = (m.after before).workers.find? k
  overrides : ∀ {before q}, before ++ [q] <+: qs → ¬q.OnOverrides →
    (m.after (before ++ [q])).overrides = (m.after before).overrides
  breakers : ∀ {before q}, before ++ [q] <+: qs → ¬q.OnBreakers →
    (m.after (before ++ [q])).breakers = (m.after before).breakers

/-- A worker that was closed is not closed again later on. -/
theorem not_grants_of_closed {q' : Request} (hq : q.closes? = some id)
    (hgrants : (m.after before).grants q = true) (hlate : before ++ [q] <+: late)
    (hq' : q'.closes? = some id) : (m.after late).grants q' = false := by
  obtain ⟨_, w', _, _, hw', hclosed⟩ := closed_of_grants hq hgrants
  rw [← after_concat] at hw'
  obtain ⟨v, hv, hfollows⟩ := follows_of_prefix hlate hw'
  -- it was closed before, so it is no longer active
  have hne : v.state ≠ .active := by
    intro ha
    obtain hs | ⟨hs, _⟩ := hfollows.state
    · rw [← hs, ha] at hclosed
      obtain hclosed | hclosed := hclosed <;> cases hclosed
    · rw [hs] at hclosed
      obtain hclosed | hclosed := hclosed <;> cases hclosed
  cases hlater : (m.after late).grants q' with
  | false => rfl
  | true =>
    obtain ⟨u, _, hu, hactive, _⟩ := closed_of_grants hq' hlater
    rw [hv] at hu
    cases hu
    exact absurd hactive hne

/-- Two places of one sequence are the same, or one of them comes first. -/
theorem places {before' : List Request} {q' : Request} (h : before ++ [q] <+: qs)
    (h' : before' ++ [q'] <+: qs) :
    (before = before' ∧ q = q') ∨ before ++ [q] <+: before' ∨ before' ++ [q'] <+: before := by
  obtain hle | hle := List.prefix_or_prefix_of_prefix h h'
  · obtain heq | hlt := List.prefix_concat_iff.1 hle
    · obtain ⟨rfl, hq⟩ := List.append_inj' heq rfl
      cases hq
      exact .inl ⟨rfl, rfl⟩
    · exact .inr (.inl hlt)
  · obtain heq | hlt := List.prefix_concat_iff.1 hle
    · obtain ⟨rfl, hq⟩ := List.append_inj' heq rfl
      cases hq
      exact .inl ⟨rfl, rfl⟩
    · exact .inr (.inr hlt)

/-- Every sequence of requests is a sequence of such steps, whatever the registry holds at first. -/
theorem oneWay (m : Memory) (qs : List Request) : m.OneWay qs where
  inserted := by
    intro before r c w _ hw
    rw [after_concat]
    exact inserted_of_some hw
  follows := by
    intro early late k w hle _ hw
    exact follows_of_prefix hle hw
  closed := by
    intro before q k w w' _ hw hw'
    rw [after_concat] at hw'
    exact state_answer_ne_iff hw hw'
  closing := by
    intro before q id _ hq hgrants
    rw [after_concat]
    exact closed_of_grants hq hgrants
  once := by
    intro before q before' q' id hb hb' hq hgrants hq' hgrants'
    obtain hsame | hlt | hlt := places hb hb'
    · exact hsame
    · rw [not_grants_of_closed hq hgrants hlt hq'] at hgrants'
      cases hgrants'
    · rw [not_grants_of_closed hq' hgrants' hlt hq] at hgrants
      cases hgrants
  beaten := by
    intro before q k w w' _ hw hw' hne
    rw [after_concat] at hw'
    exact heartbeat_of_ne hw hw' hne
  beating := by
    intro before id t _ hgrants
    exact active_of_grants rfl hgrants
  others := by
    intro before q k _ hk
    rw [after_concat]
    exact find?_answer_other hk
  overrides := by
    intro before q _ hq
    rw [after_concat]
    exact overrides_answer hq
  breakers := by
    intro before q _ hq
    rw [after_concat]
    exact breakers_answer hq

end Memory
end Registry
end WorkerGuard
