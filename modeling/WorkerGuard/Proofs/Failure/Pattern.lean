import WorkerGuard.Failure.Classification

/-!
# WorkerGuard.Proofs.Failure.Pattern

The search for a pattern finds what the pattern matches, and nothing else.

* `mem_ends_iff`: where a match can end, by induction on the pattern.
* `occursIn_iff`: a text has a match in it at whatever place.
* `classify_of_announced`: word of an open circuit at whatever place is never taken for anything
  else; `announced_message`: a refusal is such word.
-/

namespace WorkerGuard.Failure

namespace Pattern

variable {u v m w : List Char} {c : Char} {ok : Char → Bool} {p : Pattern} {q : Place}

theorem mem_manyEnds_iff : q ∈ manyEnds ok v ↔
    ∃ m w, v = m ++ w ∧ Spans (.many ok) u m w ∧ q = ((u ++ m).getLast?, w) := by
  induction v generalizing u with
  | nil =>
    constructor
    · intro hq
      cases hq
    · rintro ⟨m, w, hv, hspans, _⟩
      obtain ⟨rfl, rfl⟩ := List.append_eq_nil_iff.1 hv.symm
      cases hspans
  | cons c v ih =>
    have hlast : some c = (u ++ [c]).getLast? := List.getLast?_concat.symm
    unfold manyEnds
    constructor
    · intro hq
      split at hq
      · rename_i hok
        obtain rfl | hq := List.mem_cons.1 hq
        · exact ⟨[c], v, rfl, .last hok, by rw [hlast]⟩
        · obtain ⟨m, w, rfl, hspans, rfl⟩ := (ih (u := u ++ [c])).1 hq
          exact ⟨c :: m, w, rfl, .more hok hspans, by simp⟩
      · cases hq
    · rintro ⟨m, w, hv, hspans, rfl⟩
      cases hspans with
      | last hok =>
        cases hv
        rw [if_pos hok, ← hlast]
        exact List.mem_cons_self ..
      | more hok hspans =>
        cases hv
        rw [if_pos hok]
        exact List.mem_cons_of_mem _ ((ih (u := u ++ [c])).2 ⟨_, w, rfl, hspans, by simp⟩)

theorem mem_ends_iff : q ∈ p.ends (u.getLast?, v) ↔
    ∃ m w, v = m ++ w ∧ Spans p u m w ∧ q = ((u ++ m).getLast?, w) := by
  induction p generalizing u v q with
  | empty =>
    rw [ends, List.mem_singleton]
    constructor
    · rintro rfl
      exact ⟨[], v, rfl, .empty, by rw [List.append_nil]⟩
    · rintro ⟨m, w, rfl, hspans, rfl⟩
      cases hspans
      rw [List.append_nil, List.nil_append]
  | one ok =>
    constructor
    · intro hq
      cases v with
      | nil => cases hq
      | cons c v =>
        rw [ends] at hq
        split at hq
        · rename_i hok
          obtain rfl := List.mem_singleton.1 hq
          exact ⟨[c], v, rfl, .one hok, by rw [List.getLast?_concat]⟩
        · cases hq
    · rintro ⟨m, w, rfl, hspans, rfl⟩
      cases hspans with
      | one hok =>
        rw [List.singleton_append, ends, if_pos hok, List.getLast?_concat]
        exact List.mem_singleton_self _
  | many ok => exact mem_manyEnds_iff
  | edge =>
    rw [ends]
    constructor
    · intro hq
      split at hq
      · rename_i hedge
        obtain rfl := List.mem_singleton.1 hq
        exact ⟨[], v, rfl, .edge hedge, by rw [List.append_nil]⟩
      · cases hq
    · rintro ⟨m, w, rfl, hspans, rfl⟩
      cases hspans with
      | edge hedge =>
        rw [List.nil_append, if_pos hedge, List.append_nil]
        exact List.mem_singleton_self _
  | seq a b iha ihb =>
    rw [ends, List.mem_flatMap]
    constructor
    · rintro ⟨r, hr, hq⟩
      obtain ⟨m, w, rfl, hfirst, rfl⟩ := iha.1 hr
      obtain ⟨m', w', rfl, hsecond, rfl⟩ := ihb.1 hq
      exact ⟨m ++ m', w', (List.append_assoc ..).symm, .seq hfirst hsecond,
        by rw [List.append_assoc]⟩
    · rintro ⟨m, w, rfl, hspans, rfl⟩
      cases hspans with
      | @seq _ _ _ m m' _ hfirst hsecond =>
        refine ⟨_, iha.2 ⟨m, m' ++ w, List.append_assoc .., hfirst, rfl⟩, ?_⟩
        exact ihb.2 ⟨m', w, rfl, hsecond, by rw [List.append_assoc]⟩
  | either a b iha ihb =>
    rw [ends, List.mem_append, iha, ihb]
    constructor
    · rintro (⟨m, w, hv, hspans, hq⟩ | ⟨m, w, hv, hspans, hq⟩)
      · exact ⟨m, w, hv, .left hspans, hq⟩
      · exact ⟨m, w, hv, .right hspans, hq⟩
    · rintro ⟨m, w, hv, hspans, hq⟩
      cases hspans with
      | left hspans => exact .inl ⟨m, w, hv, hspans, hq⟩
      | right hspans => exact .inr ⟨m, w, hv, hspans, hq⟩

/-- A match that starts here. -/
theorem ends_ne_nil_iff :
    !(p.ends (u.getLast?, v)).isEmpty ↔ ∃ m w, v = m ++ w ∧ Spans p u m w := by
  rw [Bool.not_eq_true', List.isEmpty_eq_false_iff_exists_mem]
  constructor
  · rintro ⟨q, hq⟩
    obtain ⟨m, w, hv, hspans, _⟩ := mem_ends_iff.1 hq
    exact ⟨m, w, hv, hspans⟩
  · rintro ⟨m, w, hv, hspans⟩
    exact ⟨_, mem_ends_iff.2 ⟨m, w, hv, hspans, rfl⟩⟩

/-- Here, or from a later place on. -/
theorem foundFrom_iff : p.foundFrom u.getLast? v ↔
    ∃ v₁ m w, v = v₁ ++ (m ++ w) ∧ Spans p (u ++ v₁) m w := by
  induction v generalizing u with
  | nil =>
    rw [foundFrom, ends_ne_nil_iff]
    constructor
    · rintro ⟨m, w, hv, hspans⟩
      exact ⟨[], m, w, hv, by rwa [List.append_nil]⟩
    · rintro ⟨v₁, m, w, hv, hspans⟩
      obtain ⟨rfl, _⟩ := List.append_eq_nil_iff.1 hv.symm
      exact ⟨m, w, hv, by rwa [List.append_nil] at hspans⟩
  | cons c v ih =>
    have hnext := ih (u := u ++ [c])
    rw [List.getLast?_concat] at hnext
    rw [foundFrom, Bool.or_eq_true, ends_ne_nil_iff, hnext]
    constructor
    · rintro (⟨m, w, hv, hspans⟩ | ⟨v₁, m, w, rfl, hspans⟩)
      · exact ⟨[], m, w, hv, by rwa [List.append_nil]⟩
      · exact ⟨c :: v₁, m, w, rfl, by rwa [List.append_cons]⟩
    · rintro ⟨v₁, m, w, hv, hspans⟩
      cases v₁ with
      | nil => exact .inl ⟨m, w, hv, by rwa [List.append_nil] at hspans⟩
      | cons c' v₁ =>
        cases hv
        exact .inr ⟨v₁, m, w, rfl, by rwa [List.append_cons] at hspans⟩

theorem occursIn_iff {s : String} :
    p.occursIn s ↔ ∃ u m w, s.toList = u ++ (m ++ w) ∧ Spans p u m w :=
  foundFrom_iff (u := [])

/-- A text in small letters is a match of itself. -/
theorem spans_ofChars {cs : List Char} (h : (cs.all fun c => sameLetter c c) = true) :
    Spans (ofChars cs) u cs w := by
  induction cs generalizing u with
  | nil => exact .empty
  | cons c cs ih =>
    obtain ⟨hc, hcs⟩ := Bool.and_eq_true_iff.1 h
    exact .seq (.one hc) (ih hcs)

end Pattern

/-- The text has word of an open circuit at some place. -/
def Announced (s : String) : Prop :=
  ∃ u m w, s.toList = u ++ (m ++ w) ∧ Pattern.Spans Message.circuitOpen u m w

theorem classify_of_announced {s : String} (h : Announced s) (code : UInt16) :
    classify (.other s) = .ofKind .dependencyUnavailable ∧
      classify (.status code s) = .ofKind .dependencyUnavailable := by
  have hfound := Pattern.occursIn_iff.2 h
  constructor
  · simp only [classify, kindOfMessage, Message.byPrecedence, List.find?_cons, hfound]
  · rw [classify, if_pos hfound]

/-- The shortest such word. -/
theorem spans_circuitOpen (u w : List Char) :
    Pattern.Spans Message.circuitOpen u "circuit open".toList w := by
  have hcircuit : ∀ {u w}, Pattern.Spans (.text "circuit") u "circuit".toList w :=
    Pattern.spans_ofChars (by decide)
  have hopen : ∀ {u w}, Pattern.Spans (.text "open") u "open".toList w :=
    Pattern.spans_ofChars (by decide)
  exact .seq hcircuit (.seq (.last (by decide)) (.seq (.right .empty) (.seq (.right .empty) hopen)))

/-- What a breaker says as it refuses a call, within any other text. -/
theorem announced_message (d : Dependency) (before after : String) :
    Announced (before ++ (CallError.circuitOpen d).message ++ after) := by
  have htext : (CallError.circuitOpen d).message = "circuit open" ++ " for " ++ d.name := by
    show "circuit open for " ++ d.name = _
    rw [show "circuit open for " = "circuit open" ++ " for " by decide]
  rw [htext]
  refine ⟨before.toList, "circuit open".toList,
    " for ".toList ++ (d.name.toList ++ after.toList), ?_, spans_circuitOpen _ _⟩
  simp only [String.toList_append, List.append_assoc]

end WorkerGuard.Failure
