import Mathlib.Data.String.Basic
import WorkerGuard.Project.Session

/-!
# WorkerGuard.Proofs.Project.Path

The places of the files of a project.

* `Path.parts_append`: the parts of a path that goes on after a slash.
* `Path.way_join`: the way to a file from the folder it is looked for in.
* `Path.Hidden`: a file in the hidden folder of a project. Two of them have different places
  (`Path.Hidden.place_ne`), and no way to one of them leads over another
  (`Path.Hidden.place_notMem_ancestors`).
-/

namespace WorkerGuard.Path

open String

/-- A slash takes up one byte, so at the end of a piece the position before it is known. -/
theorem splitOnAux_slash (l m r : List Char) (acc : List String) :
    splitOnAux (ofList (l ++ m ++ r)) "/" ⟨utf8Len l⟩ ⟨utf8Len l + utf8Len m⟩ 0 acc =
      acc.reverse ++ (List.splitOnPPrepend (· == '/') r m.reverse).map ofList := by
  induction r generalizing l m acc with
  | nil =>
    have hend : Pos.Raw.atEnd (ofList (l ++ m ++ [])) ⟨utf8Len l + utf8Len m⟩ = true := by
      have h := atEnd_of_valid (l ++ m) []
      rw [utf8Len_append] at h
      exact h.2 rfl
    have hpiece := extract_of_valid l m []
    rw [splitOnAux, if_pos hend, hpiece]
    simp
  | cons c r ih =>
    have hmore : ¬Pos.Raw.atEnd (ofList (l ++ m ++ c :: r)) ⟨utf8Len l + utf8Len m⟩ = true := by
      have h := atEnd_of_valid (l ++ m) (c :: r)
      rw [utf8Len_append] at h
      exact fun h' => nomatch h.1 h'
    have hget : Pos.Raw.get (ofList (l ++ m ++ c :: r)) ⟨utf8Len l + utf8Len m⟩ = c := by
      have h := get_of_valid (l ++ m) (c :: r)
      rw [utf8Len_append] at h
      exact h
    have hnext : Pos.Raw.next (ofList (l ++ m ++ c :: r)) ⟨utf8Len l + utf8Len m⟩ =
        ⟨utf8Len l + utf8Len (m ++ [c])⟩ := by
      have h := next_of_valid (l ++ m) c r
      rw [utf8Len_append] at h
      rw [h]
      simp [Nat.add_assoc]
    have hslash : Pos.Raw.get "/" 0 = '/' := by decide
    have hlast : Pos.Raw.atEnd "/" (Pos.Raw.next "/" 0) = true := by decide
    rw [splitOnAux, if_neg hmore, hget, hslash, List.splitOnPPrepend_cons_eq_if]
    by_cases hc : (c == '/') = true
    · have hpiece := extract_of_valid l m (c :: r)
      have hrest := ih (l ++ m ++ [c]) [] (ofList m :: acc)
      have hback : Pos.Raw.unoffsetBy ⟨utf8Len l + utf8Len (m ++ [c])⟩ (Pos.Raw.next "/" 0) =
          ⟨utf8Len l + utf8Len m⟩ := by
        rw [eq_of_beq hc, utf8Len_append]
        rfl
      rw [if_pos hc, if_pos hc]
      dsimp only
      rw [if_pos hlast, hnext, hback, hpiece]
      simpa using hrest
    · have hrest := ih l (m ++ [c]) acc
      rw [if_neg hc, if_neg hc]
      show splitOnAux _ _ _ (Pos.Raw.next _ ⟨utf8Len l + utf8Len m⟩) 0 _ = _
      rw [hnext]
      simpa using hrest

theorem splitOn_slash (s : String) : s.splitOn "/" = (s.toList.splitOn '/').map ofList := by
  have h := splitOnAux_slash [] [] s.toList []
  rw [List.splitOn_eq_splitOnP, List.splitOnP_eq_splitOnPPrepend]
  simpa [splitOn] using h

theorem parts_append (a b : String) : parts (a ++ "/" ++ b) = parts a ++ parts b := by
  have hlist : (a ++ "/" ++ b).toList = a.toList ++ '/' :: b.toList := by simp
  rw [parts, parts, parts, splitOn_slash, splitOn_slash, splitOn_slash, hlist,
    List.splitOn_append_cons_self, List.map_append, List.filter_append]

theorem parts_empty : parts "" = [] := by
  rw [parts, splitOn_slash]
  rfl

theorem startsWith_slash (s : String) : s.startsWith "/" = (s.toList.head? == some '/') := by
  rw [Bool.eq_iff_iff, startsWith_string_iff, beq_iff_eq]
  cases h : s.toList with
  | nil => simp
  | cons c cs =>
    show ['/'] <+: c :: cs ↔ _
    simp [List.cons_prefix_cons, eq_comm]

section Join

variable {folder file : String} (hfile : file.startsWith "/" = false)
include hfile

theorem parts_join : parts (join folder file) = parts folder ++ parts file := by
  unfold join
  rw [hfile, Bool.false_or]
  split
  · rename_i hempty
    rw [String.isEmpty_iff.1 hempty, parts_empty, List.nil_append]
  · split
    · rename_i hend
      rw [endsWith_eq_endsWith_toSlice, Slice.endsWith_string_iff, copy_toSlice] at hend
      obtain ⟨front, hfront⟩ := hend
      have hfolder : folder = ofList front ++ "/" := by
        rw [← String.toList_inj, ← hfront]
        simp
      have hparts := parts_append (ofList front) ""
      rw [String.append_empty, parts_empty, List.append_nil] at hparts
      rw [hfolder, parts_append, hparts]
    · exact parts_append folder file

theorem startsWith_join : (join folder file).startsWith "/" = folder.startsWith "/" := by
  rw [startsWith_slash] at hfile
  rw [startsWith_slash, startsWith_slash]
  unfold join
  rw [startsWith_slash, hfile, Bool.false_or]
  cases hfolder : folder.toList with
  | nil =>
    rw [toList_eq_nil_iff] at hfolder
    subst hfolder
    exact hfile
  | cons c cs =>
    have hne : folder.isEmpty = false := by
      cases h : folder.isEmpty with
      | false => rfl
      | true =>
        rw [isEmpty_iff.1 h] at hfolder
        cases hfolder
    rw [hne, if_neg Bool.false_ne_true]
    split <;> simp [hfolder]

/-- From the folder on, by the parts of the file. -/
theorem way_join : way (join folder file) =
    (parts file).foldl (step (folder.startsWith "/")) (way folder) := by
  rw [way, startsWith_join hfile, parts_join hfile, List.foldl_append, way]

end Join

section OfWay

variable {absolute : Bool} {ps : List String}

theorem ofWay_concat (hps : ps ≠ []) (last : String) :
    ofWay absolute (ps ++ [last]) = ofWay absolute ps ++ "/" ++ last := by
  have h : intercalate "/" (ps ++ [last]) = intercalate "/" ps ++ "/" ++ last := by
    induction ps with
    | nil => exact absurd rfl hps
    | cons p ps ih =>
      cases ps with
      | nil => simp
      | cons q ps =>
        have hrest := ih (List.cons_ne_nil q ps)
        rw [List.cons_append, List.cons_append, intercalate_cons_cons, intercalate_cons_cons,
          ← List.cons_append, hrest]
        simp only [append_assoc]
  rw [ofWay, ofWay, h]
  simp only [append_assoc]

theorem length_ofWay_take_le (n : Nat) :
    (ofWay absolute (ps.take n)).length ≤ (ofWay absolute ps).length := by
  have h : (intercalate "/" (ps.take n)).length ≤ (intercalate "/" ps).length := by
    induction ps generalizing n with
    | nil => simp
    | cons p ps ih =>
      cases n with
      | zero => simp
      | succ n =>
        cases ps with
        | nil => simp
        | cons q ps =>
          cases n with
          | zero =>
            simp only [List.take_succ_cons, List.take_zero, intercalate_singleton,
              intercalate_cons_cons, length_append]
            omega
          | succ n =>
            have hrest := ih (n + 1)
            simp only [List.take_succ_cons, intercalate_cons_cons, length_append] at hrest ⊢
            omega
  simp only [ofWay, length_append]
  omega

end OfWay

section Hidden

/-- The place of the hidden folder of a project. -/
def hidden (folder : String) : String :=
  ofWay (folder.startsWith "/") (way folder ++ [".tether"])

/-- A path into the hidden folder, to a file of some name. -/
structure Hidden (file name : String) : Prop where
  relative : file.startsWith "/" = false
  parts : parts file = [".tether", name]
  name : name ≠ ".."

variable {folder file name file' name' : String}

theorem hidden_of_name (hfile : file = ".tether" ++ "/" ++ name)
    (hname : name.toList.splitOn '/' = [name.toList]) (hidle : isIdle name = false)
    (hup : name ≠ "..") : Hidden file name where
  relative := by
    rw [hfile, startsWith_string_eq_false_iff, toList_append, toList_append]
    exact fun h => absurd (List.cons_prefix_cons.1 h).1 (by decide)
  parts := by
    have hfolder : Path.parts ".tether" = [".tether"] := by
      rw [Path.parts, splitOn_slash]
      decide
    have hlast : Path.parts name = [name] := by
      rw [Path.parts, splitOn_slash, hname]
      simp [hidle]
    rw [hfile, parts_append, hfolder, hlast]
    rfl
  name := hup

theorem Hidden.way_join (h : Hidden file name) :
    way (join folder file) = way folder ++ [".tether", name] := by
  have hup : ¬(".tether" : String) = ".." := by decide
  rw [Path.way_join h.relative, h.parts]
  simp only [List.foldl_cons, List.foldl_nil, step, if_neg hup, if_neg h.name,
    List.append_assoc, List.cons_append, List.nil_append]

theorem Hidden.place_join (h : Hidden file name) :
    place (join folder file) = hidden folder ++ "/" ++ name := by
  rw [place, startsWith_join h.relative, h.way_join, hidden, ← ofWay_concat (by simp),
    List.append_assoc]
  rfl

theorem Hidden.place_ne (h : Hidden file name) (h' : Hidden file' name') (hne : name ≠ name') :
    place (join folder file) ≠ place (join folder file') := by
  rw [h.place_join, h'.place_join]
  exact fun heq => hne ((append_right_inj _).1 heq)

/-- The folders on the way are the hidden one and those above it. -/
theorem Hidden.place_notMem_ancestors (h : Hidden file name) (h' : Hidden file' name') :
    place (join folder file) ∉ ancestors (join folder file') := by
  rw [ancestors, startsWith_join h'.relative, h'.way_join, h.place_join]
  intro hmem
  obtain ⟨n, hn, heq⟩ := List.mem_map.1 hmem
  have hlt : n ≤ (way folder ++ [".tether"]).length := by
    have hrange := List.mem_range.1 (List.mem_of_mem_drop hn)
    simp only [List.length_append, List.length_cons, List.length_nil] at hrange ⊢
    omega
  have htake : (way folder ++ [".tether", name']).take n = (way folder ++ [".tether"]).take n := by
    have hcut : ((way folder ++ [".tether"]) ++ [name']).take n =
        (way folder ++ [".tether"]).take n := List.take_append_of_le_length hlt
    rw [← hcut, List.append_assoc]
    rfl
  have hle : (ofWay (folder.startsWith "/") ((way folder ++ [".tether"]).take n)).length ≤
      (ofWay (folder.startsWith "/") (way folder ++ [".tether"])).length := length_ofWay_take_le n
  rw [← htake, heq, hidden] at hle
  simp only [length_append] at hle
  have hslash : ("/" : String).length = 1 := rfl
  omega

end Hidden

end WorkerGuard.Path
