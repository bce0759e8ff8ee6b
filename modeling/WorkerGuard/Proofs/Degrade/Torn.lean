import WorkerGuard.Proofs.Degrade.Log
import WorkerGuard.Proofs.Json.Torn

/-!
# WorkerGuard.Proofs.Degrade.Torn

What an append adds to a log that holds any text.

* `Log.ending`: what follows the last line end; `Log.Ended`: there is nothing but spaces.
* `Log.lines_append_line`: a new line goes on from the ending of the text.
* `ofLine?_torn`: if the ending is more than spaces, the new artifact is lost in it.
* `Log.Counted`: an artifact counts once for its role and its time, and changes no other count.
* `Log.append_counted_iff`: that an append adds what it should, and when.
-/

namespace WorkerGuard

open Json

namespace Artifact

variable {a : Artifact} {l : List Char}

/-- What is read of the line of an artifact counts like the artifact itself. -/
def Readable (a : Artifact) : Prop :=
  ∃ b, ofLine? a.line = some b ∧ b.role = a.role ∧ b.recordedAt = a.recordedAt

theorem Lasting.readable (h : a.Lasting) : a.Readable := ⟨a.kept, h.ofLine?_line, rfl, rfl⟩

/-- A line opens an object, and the name of the worker is its first field. -/
theorem exists_opened (a : Artifact) : ∃ r, a.line = Written.opened r := by
  have hname : ∃ r, stringChars "worker_id" = '"' :: 'w' :: r := ⟨_, rfl⟩
  obtain ⟨r, hr⟩ := hname
  simp only [line, toJson, List.cons_append, chars, hr, Written.opened]
  exact ⟨_, rfl⟩

/-- A torn line and what is written behind it are no artifact together. -/
theorem ofLine?_torn (h : Written.skipSpace l ≠ []) (a : Artifact) :
    ofLine? (l ++ a.line) = none := by
  obtain ⟨r, hr⟩ := a.exists_opened
  have hwhole : Written.Whole r := by
    intro fuel v rest hv
    rw [← hr] at hv
    exact Written.rest_of_chars hv
  rw [ofLine?, hr, Written.readChars?_torn hwhole h]
  rfl

theorem ofLine?_spaces_line (h : Written.skipSpace l = []) (a : Artifact) :
    ofLine? (l ++ a.line) = ofLine? a.line := by
  rw [ofLine?, ofLine?, line, Written.readChars?_spaces h, readChars?_chars]

theorem ofLine?_spaces (h : Written.skipSpace l = []) : ofLine? l = none := by
  have hskip : Written.skipSpace l = Written.skipSpace [] := h
  rw [ofLine?, Written.readChars?, Written.value_skipSpace hskip]
  rfl

end Artifact

namespace Log

variable {cs l : List Char} {a : Artifact} {as as' : List Artifact} {g g' : Log}

def ending (cs : List Char) : List Char := (lines cs).getLastD []

theorem lines_ne_nil (cs : List Char) : lines cs ≠ [] := by
  cases cs with
  | nil => exact List.cons_ne_nil _ _
  | cons c r =>
    rw [lines]
    split
    · exact List.cons_ne_nil _ _
    · split <;> exact List.cons_ne_nil _ _

theorem lines_eq (cs : List Char) : lines cs = (lines cs).dropLast ++ [ending cs] := by
  have h := List.dropLast_concat_getLast (lines_ne_nil cs)
  rw [ending, List.getLastD_eq_getLast?, List.getLast?_eq_some_getLast (lines_ne_nil cs)]
  exact h.symm

theorem lines_cons {c : Char} (hc : c ≠ '\n') {r : List Char} {ls : List (List Char)}
    (h : lines r = l :: ls) : lines (c :: r) = (c :: l) :: ls := by
  rw [lines, if_neg hc, h]

/-- A new line goes on where the text ends. -/
theorem lines_append_line (hl : '\n' ∉ l) (cs : List Char) :
    lines (cs ++ (l ++ ['\n'])) = (lines cs).dropLast ++ [ending cs ++ l, []] := by
  induction cs with
  | nil => exact lines_append hl []
  | cons c r ih =>
    by_cases hc : c = '\n'
    · subst hc
      have hend : ending ('\n' :: r) = ending r := by
        rw [ending, lines, if_pos rfl, List.getLastD_cons]
        rfl
      rw [List.cons_append, lines, if_pos rfl, ih, hend, lines, if_pos rfl,
        List.dropLast_cons_of_ne_nil (lines_ne_nil r), List.cons_append]
    · obtain ⟨x, xs, hx⟩ := List.exists_cons_of_ne_nil (lines_ne_nil r)
      cases xs with
      | nil =>
        have hmore : lines (r ++ (l ++ ['\n'])) = (x ++ l) :: [[]] := by
          rw [ih, ending, hx]
          rfl
        rw [List.cons_append, lines_cons hc hmore, ending, lines_cons hc hx]
        rfl
      | cons y ys =>
        have hmore : lines (r ++ (l ++ ['\n'])) =
            x :: ((y :: ys).dropLast ++ [ending r ++ l, []]) := by
          rw [ih, hx]
          rfl
        have hend : ending (c :: r) = ending r := by
          rw [ending, ending, lines_cons hc hx, hx]
          rfl
        rw [List.cons_append, lines_cons hc hmore, hend, lines_cons hc hx]
        rfl

/-- The artifacts on all lines but the last. -/
def wholeArtifacts (cs : List Char) : List Artifact :=
  (lines cs).dropLast.filterMap Artifact.ofLine?

theorem filterMap_concat (ls : List (List Char)) (l : List Char) :
    (ls ++ [l]).filterMap Artifact.ofLine? =
      ls.filterMap Artifact.ofLine? ++ (Artifact.ofLine? l).toList := by
  rw [List.filterMap_append]
  cases h : Artifact.ofLine? l with
  | none => rw [List.filterMap_cons_none h]; rfl
  | some b => rw [List.filterMap_cons_some h]; rfl

theorem artifactsOf_eq (cs : List Char) :
    artifactsOf cs = wholeArtifacts cs ++ (Artifact.ofLine? (ending cs)).toList := by
  rw [artifactsOf, lines_eq, filterMap_concat]
  rfl

/-- The new line is read together with the ending of the text. -/
theorem artifactsOf_append_line (cs : List Char) (a : Artifact) :
    artifactsOf (cs ++ (a.line ++ ['\n'])) =
      wholeArtifacts cs ++ (Artifact.ofLine? (ending cs ++ a.line)).toList := by
  have hline : '\n' ∉ a.line := newline_chars a.toJson
  have hnil : Artifact.ofLine? [] = none := Artifact.ofLine?_spaces rfl
  rw [artifactsOf, lines_append_line hline, List.append_cons, filterMap_concat, filterMap_concat,
    hnil, Option.toList_none, List.append_nil]
  rfl

/-- What follows the last line end of a log. -/
def rest : Log → List Char
  | text cs => ending cs
  | _ => []

/-- Nothing but spaces does. -/
def Ended (g : Log) : Prop := Written.skipSpace g.rest = []

instance (g : Log) : Decidable g.Ended :=
  inferInstanceAs (Decidable (Written.skipSpace g.rest = []))

/-- An append adds what is read of its line, or it spoils the last line instead. -/
theorem append_artifacts (hg : g.artifacts = .ok as) (path : String) (a : Artifact) :
    ∃ g' as', g.append path a = .ok g' ∧ g'.artifacts = .ok as' ∧
      (g.Ended → as' = as ++ (Artifact.ofLine? a.line).toList) ∧
      (¬g.Ended → as = as' ++ (Artifact.ofLine? g.rest).toList) := by
  cases g with
  | missing =>
    cases hg
    refine ⟨_, _, rfl, rfl, fun _ => ?_, fun h => absurd rfl h⟩
    exact artifactsOf_append_line [] a
  | text cs =>
    cases hg
    refine ⟨_, _, rfl, rfl, ?_, ?_⟩
    · intro h
      have hending : Written.skipSpace (ending cs) = [] := h
      rw [artifactsOf_append_line, artifactsOf_eq, Artifact.ofLine?_spaces hending,
        Artifact.ofLine?_spaces_line hending, Option.toList_none, List.append_nil]
    · intro h
      have hending : Written.skipSpace (ending cs) ≠ [] := h
      rw [artifactsOf_append_line, artifactsOf_eq, Artifact.ofLine?_torn hending,
        Option.toList_none, List.append_nil]
      rfl
  | directory => cases hg
  | garbled => cases hg

section Counts

/-- The artifact counts once, for its role and for instants before its own. -/
def Counted (a : Artifact) (as as' : List Artifact) : Prop :=
  ∀ role since, countSince role since as' =
    countSince role since as + if a.role = role ∧ since < a.recordedAt then 1 else 0

theorem countSince_append (role : String) (since : Instant) (as bs : List Artifact) :
    countSince role since (as ++ bs) = countSince role since as + countSince role since bs := by
  rw [countSince, List.filter_append, List.length_append]
  rfl

theorem countSince_singleton (role : String) (since : Instant) (a : Artifact) :
    countSince role since [a] = if a.role = role ∧ since < a.recordedAt then 1 else 0 := by
  rw [countSince_eq]
  split <;> simp [*]

/-- Roles and instants tell artifacts apart. -/
theorem same_of_countSince {a b : Artifact} (ha : Instant.earliest < a.recordedAt)
    (h : ∀ role since, countSince role since [b] = countSince role since [a]) :
    b.role = a.role ∧ b.recordedAt = a.recordedAt := by
  have hiff : ∀ role since, (b.role = role ∧ since < b.recordedAt) ↔
      (a.role = role ∧ since < a.recordedAt) := by
    intro role since
    have hcount := h role since
    rw [countSince_singleton, countSince_singleton] at hcount
    split at hcount <;> split at hcount
    · exact iff_of_true ‹_› ‹_›
    · cases hcount
    · cases hcount
    · exact iff_of_false ‹_› ‹_›
  have hrole : b.role = a.role := ((hiff a.role Instant.earliest).2 ⟨rfl, ha⟩).1
  refine ⟨hrole, Instant.le_antisymm ?_ ?_⟩
  · refine Instant.not_lt.1 fun hlt => ?_
    exact Instant.not_lt.2 (Instant.le_refl _) ((hiff a.role a.recordedAt).1 ⟨hrole, hlt⟩).2
  · refine Instant.not_lt.1 fun hlt => ?_
    exact Instant.not_lt.2 (Instant.le_refl _) ((hiff a.role b.recordedAt).2 ⟨rfl, hlt⟩).2

theorem counted_iff_readable (ha : Instant.earliest < a.recordedAt) (as : List Artifact) :
    Counted a as (as ++ (Artifact.ofLine? a.line).toList) ↔ a.Readable := by
  have hcounts : Counted a as (as ++ (Artifact.ofLine? a.line).toList) ↔
      ∀ role since, countSince role since (Artifact.ofLine? a.line).toList =
        countSince role since [a] := by
    simp only [Counted, countSince_append, countSince_singleton, Nat.add_left_cancel_iff]
  rw [hcounts, Artifact.Readable]
  constructor
  · intro h
    cases hb : Artifact.ofLine? a.line with
    | none =>
      have hcount := h a.role Instant.earliest
      rw [hb, countSince_singleton, if_pos ⟨rfl, ha⟩] at hcount
      cases hcount
    | some b =>
      rw [hb] at h
      exact ⟨b, rfl, same_of_countSince ha h⟩
  · rintro ⟨b, hb, hrole, htime⟩ role since
    rw [hb, Option.toList_some, countSince_singleton, countSince_singleton, hrole, htime]

/-- A list that did not grow counts no artifact more. -/
theorem not_counted {bs : List Artifact} (ha : Instant.earliest < a.recordedAt)
    (h : as = as' ++ bs) : ¬Counted a as as' := by
  intro hcounted
  have hcount := hcounted a.role Instant.earliest
  rw [if_pos ⟨rfl, ha⟩, h, countSince_append] at hcount
  omega

/-- What an append does to the artifacts of a log with any text. It adds the artifact exactly if the
text ends with its last line, but for spaces, and the line of the artifact can be read alone. In a
text that ends otherwise the artifact is lost, together with the one that stood there. -/
theorem append_counted_iff (ha : Instant.earliest < a.recordedAt) (hg : g.artifacts = .ok as)
    (path : String) :
    ∃ g' as', g.append path a = .ok g' ∧ g'.artifacts = .ok as' ∧
      (g.Ended → as' = as ++ (Artifact.ofLine? a.line).toList) ∧
      (¬g.Ended → as = as' ++ (Artifact.ofLine? g.rest).toList) ∧
      (Counted a as as' ↔ g.Ended ∧ a.Readable) := by
  obtain ⟨g', as', happend, hartifacts, hended, htorn⟩ := append_artifacts hg path a
  refine ⟨g', as', happend, hartifacts, hended, htorn, ?_⟩
  by_cases h : g.Ended
  · rw [hended h, counted_iff_readable ha]
    exact (and_iff_right h).symm
  · exact iff_of_false (not_counted ha (htorn h)) fun hboth => h hboth.1

end Counts

section Example

/-- A line that a writer did not finish. -/
def unfinished : Log := text ['\x7b', '"', 'w']

theorem artifacts_unfinished : unfinished.artifacts = .ok [] := by
  have hrest : Artifact.ofLine? ['\x7b', '"', 'w'] = none := by decide
  rw [unfinished, artifacts, artifactsOf, lines_eq, filterMap_concat]
  exact congrArg (fun o => Except.ok (Option.toList o)) hrest

/-- An empty log gets one artifact. -/
theorem awkward_appended :
    Instant.earliest < awkward.recordedAt ∧ (text []).artifacts = .ok [] ∧
      ∃ g' as', (text []).append "degrades" awkward = .ok g' ∧ g'.artifacts = .ok as' ∧
        Counted awkward [] as' := by
  have hholds : (text []).Holds [] := rfl
  have hempty : (text []).artifacts = .ok [] := hholds.artifacts
  refine ⟨by decide, hempty, ?_⟩
  obtain ⟨g', as', happend, has', -, -, hcounted⟩ :=
    append_counted_iff (a := awkward) (by decide) hempty "degrades"
  exact ⟨g', as', happend, has', hcounted.2 ⟨by decide, awkward_lasting.readable⟩⟩

/-- Behind a torn line none is found. -/
theorem unfinished_loses :
    unfinished.artifacts = .ok [] ∧ ∃ g', unfinished.append "degrades" awkward = .ok g' ∧
      g'.artifacts = .ok [] ∧ ¬Counted awkward [] [] := by
  obtain ⟨g', as', happend, has', -, htorn⟩ :=
    append_artifacts artifacts_unfinished "degrades" awkward
  have hnil : as' = [] := by
    have h := htorn (by decide)
    exact (List.append_eq_nil_iff.1 h.symm).1
  rw [hnil] at has'
  have hsame : ([] : List Artifact) = [] ++ [] := rfl
  exact ⟨artifacts_unfinished, g', happend, has', not_counted (by decide) hsame⟩

end Example

end Log
end WorkerGuard
