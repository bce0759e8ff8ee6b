import WorkerGuard.Proofs.Breaker.Calls
import WorkerGuard.Proofs.Registry.Ceilings
import WorkerGuard.Spawn

/-!
# WorkerGuard.Proofs.Spawn.Calls

The calls that a request for a new worker makes.

* `Call.OfPlacing s d`: the calls after the breaker of `d` was found closed. An insertion among them
  is for `d`, and names the ceilings of the settings `s`.
* `Exchange.Unclosed d`: a look at the breaker of `d` that does not show it closed. No request
  inserts a worker after one (`Spawn.no_insert_of_unclosed`).
-/

namespace WorkerGuard

open Breaker Program

theorem Settings.name_of_roleNamed {s : Settings} {name : String} {role : WorkerGuard.Role}
    (h : s.roleNamed name = some role) : role.name = name := by
  obtain ⟨r, _, rfl⟩ := Option.map_eq_some_iff.1 h
  rfl

/-- A worker is about to be registered. -/
def Call.Inserts : Call → Prop
  | .registry (.insert ..) => True
  | _ => False

theorem Call.Only.not_inserts {es : List Effect} {q : Call} (h : q.Only es) (hes : .insert ∉ es) :
    ¬q.Inserts := by
  cases q with
  | registry q =>
    cases q with
    | insert r c => exact absurd rfl (h.not_effect hes)
    | _ => exact id
  | _ => exact id

def Call.OfPlacing (s : Settings) (d : Dependency) : Call → Prop
  | .now | .freshId | .registry (.get _) => True
  | .registry (.insert r c) => (Registry.Request.insert r c).Configured s ∧ r.dependency = d
  | _ => False

theorem Call.OfPlacing.only {s : Settings} {d : Dependency} {q : Call} (h : q.OfPlacing s d) :
    q.Only [.insert] := by
  intro e he
  cases q with
  | now => cases he
  | freshId => cases he
  | registry q =>
    cases q with
    | get id => cases he
    | insert r c => cases he; simp
    | _ => cases h
  | _ => cases h

/-- An override is found, or a row that is not closed, or such a word. -/
def Exchange.Unclosed (d : Dependency) : Exchange → Prop
  | ⟨.forced d', forced⟩ => d' = d ∧ forced = true
  | ⟨.registry (.loadBreaker d'), .ok row⟩ => d' = d ∧ row.circuit ≠ .closed
  | ⟨.word d', word⟩ => d' = d ∧ (decode word).circuit ≠ .closed
  | _ => False

theorem Call.OfPlacing.not_unclosed {s : Settings} {d d' : Dependency} {x : Exchange}
    (h : x.call.OfPlacing s d') : ¬x.Unclosed d := by
  obtain ⟨q, a⟩ := x
  cases q with
  | registry q =>
    cases q with
    | loadBreaker d => cases h
    | _ => exact id
  | forced d => cases h
  | word d => cases h
  | _ => exact id

namespace Breaker

variable {d : Dependency}

theorem Board.asks_state (b : Board) (d : Dependency) :
    (b.state d).Asks fun q => q = .enlist d ∨ q.OfBreaker d := by
  refine ⟨.inl rfl, fun _ => ?_⟩
  exact (b.breaker d).asks_state.mono fun _ => .inr

/-- The last look decides. -/
theorem unclosed_of_current {b : Breaker} (hb : b.shared = true) {l : List Exchange}
    {c : Condition} (h : Path b.current l (done c)) (hx : ∃ x ∈ l, x.Unclosed d) :
    c.circuit ≠ .closed := by
  obtain ⟨x, hmem, hx⟩ := hx
  unfold Breaker.current at h
  rw [if_pos hb] at h
  obtain ⟨_, hp⟩ | ⟨a, l₁, rfl, h₁⟩ := Path.of_ask h
  · cases hp
  cases a with
  | ok row =>
    obtain ⟨_, hp⟩ | ⟨u, l₂, rfl, h₂⟩ := Path.of_ask h₁
    · cases hp
    obtain ⟨rfl, hc⟩ := Path.of_done h₂
    cases hc
    simp only [List.mem_cons, List.not_mem_nil, or_false] at hmem
    obtain rfl | rfl := hmem
    · exact hx.2
    · exact hx.elim
  | error e =>
    obtain ⟨_, hp⟩ | ⟨word, l₂, rfl, h₂⟩ := Path.of_ask h₁
    · cases hp
    obtain ⟨rfl, hc⟩ := Path.of_done h₂
    cases hc
    simp only [List.mem_cons, List.not_mem_nil, or_false] at hmem
    obtain rfl | rfl := hmem
    · exact hx.elim
    · exact hx.2

theorem Board.unclosed_of_state {b : Board} (hb : b.shared = true) {d' : Dependency}
    {l : List Exchange} {c : Circuit} (h : Path (b.state d') l (done c))
    (hx : ∃ x ∈ l, x.Unclosed d) : c ≠ .closed := by
  obtain ⟨x, hmem, hx⟩ := hx
  obtain ⟨_, hp⟩ | ⟨_, l₁, rfl, h₁⟩ := Path.of_ask h
  · cases hp
  obtain ⟨_, hp⟩ | ⟨forced, l₂, rfl, h₂⟩ := Path.of_ask h₁
  · cases hp
  cases forced with
  | true =>
    obtain ⟨_, hc⟩ := Path.of_done h₂
    cases hc
    exact nofun
  | false =>
    have h₂ : Path ((b.breaker d').current.bind fun k => done k.circuit) l₂ (done c) := h₂
    obtain ⟨k, l₃, l₄, rfl, hcurrent, hdone⟩ := path_bind_done h₂
    obtain ⟨rfl, hc⟩ := Path.of_done hdone
    cases hc
    rw [List.append_nil, List.mem_cons, List.mem_cons] at hmem
    obtain rfl | rfl | hmem := hmem
    · exact hx.elim
    · cases hx.2
    · exact unclosed_of_current hb hcurrent ⟨x, hmem, hx⟩

end Breaker

namespace Spawn

variable {s : Settings} {q : Request} {role : Role}

theorem asks_place (id : WorkerId) (parent : Option WorkerId) (d : Dependency) :
    (place id parent).Asks (Call.OfPlacing s d) := by
  cases parent with
  | none => exact asks_pure _
  | some parent =>
    refine asks_bind (asks_request.2 trivial) fun a => ?_
    split
    · exact asks_pure _
    · exact asks_pure _
    · split
      · exact asks_pure _
      · split
        · exact asks_halt _
        · exact asks_pure _

theorem asks_enroll (id : WorkerId) (q : Request) (p : Place)
    (h : s.roleNamed q.role = some role) :
    (enroll s role id q p).Asks (Call.OfPlacing s q.dependency) := by
  unfold enroll
  split
  · exact asks_pure _
  · refine asks_bind (asks_call.2 trivial) fun now => ?_
    refine asks_bind (asks_request.2 ⟨⟨role, ?_, rfl⟩, rfl⟩) fun a => ?_
    · show s.roleNamed role.name = some role
      rw [Settings.name_of_roleNamed h]
      exact h
    · split <;> exact asks_pure _

/-- The worker gets a name, then its place, and is registered there. -/
theorem asks_placing (h : s.roleNamed q.role = some role) : Asks (Call.OfPlacing s q.dependency) (do
    let id ← Program.call .freshId
    match ← place id q.parent with
    | .error e => return .error e
    | .ok (.error why) => return .ok (.refused why)
    | .ok (.ok p) => enroll s role id q p) := by
  refine asks_bind (asks_call.2 trivial) fun id => ?_
  refine asks_bind (asks_place id q.parent _) fun a => ?_
  split
  · exact asks_pure _
  · exact asks_pure _
  · exact asks_enroll id q _ h

theorem asks_request (q : Request) : (request s q).Asks fun c =>
    c = .enlist q.dependency ∨ c.OfBreaker q.dependency ∨ c.OfPlacing s q.dependency := by
  unfold request
  split
  · exact asks_pure _
  · rename_i role hrole
    refine asks_bind ((Breaker.Board.asks_state _ _).mono fun c => ?_) fun circuit => ?_
    · exact Or.imp_right .inl
    · split
      · exact asks_pure _
      · exact (asks_placing hrole).mono fun c hc => .inr (.inr hc)

/-- The look at the breaker is the last one, and it comes before the insertion. -/
theorem no_insert_of_unclosed {l : List Exchange}
    {rest : Program (Except Registry.Error Decision)} (h : Path (request s q) l rest)
    (hx : ∃ x ∈ l, x.Unclosed q.dependency) : ∀ x ∈ l, ¬x.call.Inserts := by
  unfold request at h
  split at h
  · obtain ⟨rfl, _⟩ := Path.of_done h
    intro x hmem
    cases hmem
  · rename_i role hrole
    have hasks := Breaker.Board.asks_state (s.board true) q.dependency
    have hlook : ∀ l' p', Path ((s.board true).state q.dependency) l' p' →
        ∀ x ∈ l', ¬x.call.Inserts := by
      intro l' p' hp x hmem hins
      obtain hq | hq := (hasks.path hp).2 x hmem
      · rw [hq] at hins
        exact hins
      · exact hq.only.not_inserts (by decide) hins
    obtain ⟨rest', hstate, _⟩ | ⟨c, l₁, l₂, rfl, hstate, hnext⟩ := path_bind h
    · exact hlook l rest' hstate
    · split at hnext
      · obtain ⟨rfl, _⟩ := Path.of_done hnext
        rw [List.append_nil]
        exact hlook l₁ _ hstate
      · rename_i hclosed
        exfalso
        obtain ⟨x, hmem, hx⟩ := hx
        obtain hmem | hmem := List.mem_append.1 hmem
        · exact hclosed (Breaker.Board.unclosed_of_state rfl hstate ⟨x, hmem, hx⟩)
        · exact (((asks_placing hrole).path hnext).2 x hmem).not_unclosed hx

/-- An override is enough, whatever else there is. -/
theorem path_of_forced {role : Role} (hrole : s.roleNamed q.role = some role) :
    Path (request s q) [⟨.enlist q.dependency, ()⟩, ⟨.forced q.dependency, true⟩]
      (done (.ok (.refused (.circuitOpen q.dependency .opened)))) := by
  unfold request
  rw [hrole]
  refine Path.ask (q := .enlist q.dependency) () ?_
  exact Path.ask (q := .forced q.dependency) true .refl

end Spawn
end WorkerGuard
