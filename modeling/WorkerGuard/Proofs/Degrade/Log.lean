import WorkerGuard.Degrade.Log
import WorkerGuard.Proofs.Degrade.Artifact

/-!
# WorkerGuard.Proofs.Degrade.Log

What a log gives back of the artifacts that were appended to it.

* `Log.linesText`: the lines of some artifacts; `Log.Holds g as`: the log `g` consists of them.
* `Log.appendAll`: appends one artifact after the other.
* `Holds.append`, `Holds.appendAll`: appended artifacts come after those that are there.
* `Holds.artifacts`: a log is read line by line.
* `artifacts_appendAll`: artifacts that last are read as they were appended, in that order.
-/

namespace WorkerGuard.Log

/-- Each artifact on a line of its own. -/
def linesText (as : List Artifact) : List Char := as.flatMap fun a => a.line ++ ['\n']

/-- A log that is missing holds nothing. -/
def Holds : Log → List Artifact → Prop
  | missing, as => as = []
  | text cs, as => cs = linesText as
  | directory, _ => False
  | garbled, _ => False

def appendAll (path : String) (as : List Artifact) (g : Log) : Except Error Log :=
  as.foldlM (fun g a => g.append path a) g

section Lines

theorem lines_append {l : List Char} (h : '\n' ∉ l) (r : List Char) :
    lines (l ++ '\n' :: r) = l :: lines r := by
  induction l with
  | nil => rfl
  | cons c l ih =>
    have hc : c ≠ '\n' := fun hc => h (by simp [hc])
    rw [List.cons_append, lines, if_neg hc, ih fun hl => h (List.mem_cons_of_mem c hl)]

theorem lines_linesText (as : List Artifact) :
    lines (linesText as) = as.map Artifact.line ++ [[]] := by
  induction as with
  | nil => rfl
  | cons a r ih =>
    have hline : '\n' ∉ a.line := Json.newline_chars a.toJson
    rw [linesText, List.flatMap_cons, List.append_assoc, List.singleton_append,
      lines_append hline, List.map_cons, List.cons_append]
    exact congrArg _ ih

/-- The end of the text after the last line is no artifact. -/
theorem artifactsOf_linesText (as : List Artifact) :
    artifactsOf (linesText as) = as.filterMap fun a => Artifact.ofLine? a.line := by
  have hend : Artifact.ofLine? [] = none := by decide
  rw [artifactsOf, lines_linesText, List.filterMap_append, List.filterMap_map,
    List.filterMap_cons_none hend, List.filterMap_nil, List.append_nil]
  rfl

end Lines

variable {path : String} {g : Log} {as : List Artifact}

theorem Holds.append (h : g.Holds as) (path : String) (a : Artifact) :
    ∃ g', g.append path a = .ok g' ∧ g'.Holds (as ++ [a]) := by
  cases g with
  | missing =>
    cases h
    exact ⟨_, rfl, by simp [Holds, linesText]⟩
  | text cs =>
    cases h
    exact ⟨_, rfl, by simp [Holds, linesText]⟩
  | directory => cases h
  | garbled => cases h

theorem Holds.appendAll (h : g.Holds as) (path : String) (new : List Artifact) :
    ∃ g', g.appendAll path new = .ok g' ∧ g'.Holds (as ++ new) := by
  induction new generalizing g as with
  | nil => exact ⟨g, rfl, by simpa using h⟩
  | cons a r ih =>
    obtain ⟨g₁, hg₁, h₁⟩ := h.append path a
    obtain ⟨g₂, hg₂, h₂⟩ := ih h₁
    refine ⟨g₂, ?_, by simpa using h₂⟩
    rw [Log.appendAll, List.foldlM_cons, hg₁]
    exact hg₂

theorem Holds.artifacts (h : g.Holds as) :
    g.artifacts = .ok (as.filterMap fun a => Artifact.ofLine? a.line) := by
  cases g with
  | missing => cases h; rfl
  | text cs =>
    cases h
    rw [Log.artifacts, artifactsOf_linesText]
  | directory => cases h
  | garbled => cases h

theorem filterMap_ofLine? (h : ∀ a ∈ as, a.Lasting) :
    (as.filterMap fun a => Artifact.ofLine? a.line) = as.map Artifact.kept := by
  induction as with
  | nil => rfl
  | cons a r ih =>
    rw [List.filterMap_cons, (h a (by simp)).ofLine?_line, List.map_cons,
      ih fun b hb => h b (List.mem_cons_of_mem a hb)]

/-- The role and the stamp of an artifact are kept, so that it counts as before. -/
theorem countSince_kept (role : String) (since : Instant) (as : List Artifact) :
    countSince role since (as.map Artifact.kept) = countSince role since as := by
  rw [countSince, List.filter_map, List.length_map]
  rfl

theorem countSince_eq (role : String) (since : Instant) (as : List Artifact) :
    countSince role since as =
      (as.filter fun a => a.role = role ∧ since < a.recordedAt).length := by
  rw [countSince]
  congr 1
  refine List.filter_congr fun a _ => ?_
  rw [Bool.eq_iff_iff]
  simp

/-- Artifacts appended to a log that is missing or empty are read back in the order in which they
were appended, and counted by their roles and stamps. -/
theorem artifacts_appendAll (hg : g = missing ∨ g = text []) (has : ∀ a ∈ as, a.Lasting)
    (path : String) :
    ∃ g', g.appendAll path as = .ok g' ∧ g'.artifacts = .ok (as.map Artifact.kept) ∧
      ∀ role since, countSince role since (as.map Artifact.kept) =
        (as.filter fun a => a.role = role ∧ since < a.recordedAt).length := by
  have hempty : g.Holds [] := by rcases hg with rfl | rfl <;> rfl
  obtain ⟨g', hg', hholds⟩ := hempty.appendAll path as
  rw [List.nil_append] at hholds
  refine ⟨g', hg', ?_, fun role since => ?_⟩
  · rw [hholds.artifacts, filterMap_ofLine? has]
  · rw [countSince_kept, countSince_eq]

section Example

/-- Quotes, line ends and characters beyond ASCII in every text, and a checkpoint of each kind. -/
def awkward : Artifact where
  worker := ⟨"w\"1\""⟩
  role := "a\r\nb"
  dependency := ⟨"\\d\t"⟩
  task := "tä\u2028sk"
  reason := "\u0001\n"
  checkpoint := some (.obj [("a", .arr [.null, .int (-1), .bool true]), ("b", .obj [])])
  recordedAt := ⟨-62167219201, 999999999, by decide, by decide, by decide⟩

theorem awkward_lasting : awkward.Lasting where
  recordedAt := by decide
  checkpoint := by
    rintro _ ⟨⟩
    refine .obj (by decide) (List.forall_mem_cons.2 ⟨.arr ?_, List.forall_mem_singleton.2 ?_⟩)
    · exact List.forall_mem_cons.2 ⟨.null, List.forall_mem_cons.2
        ⟨.int (by decide) (by decide), List.forall_mem_singleton.2 (.bool true)⟩⟩
    · exact .obj .nil (by simp)

/-- The second artifact has null for a checkpoint. -/
theorem awkward_read_back :
    ∃ g', appendAll "degrades" [awkward, { awkward with checkpoint := some .null }] missing =
        .ok g' ∧
      g'.artifacts = .ok [awkward, { awkward with checkpoint := none }] ∧
      countSince "a\r\nb" Instant.earliest [awkward, { awkward with checkpoint := none }] = 2 := by
  have hnull : Artifact.Lasting { awkward with checkpoint := some .null } :=
    ⟨awkward_lasting.recordedAt, by rintro _ ⟨⟩; exact .null⟩
  obtain ⟨g', hg', hread, hcount⟩ := artifacts_appendAll (.inl rfl)
    (List.forall_mem_cons.2 ⟨awkward_lasting, List.forall_mem_singleton.2 hnull⟩) "degrades"
  exact ⟨g', hg', hread, (hcount "a\r\nb" Instant.earliest).trans (by decide)⟩

end Example

end WorkerGuard.Log
