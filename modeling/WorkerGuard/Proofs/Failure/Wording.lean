import Mathlib.Computability.Language
import WorkerGuard.Proofs.Failure.Pattern

/-!
# WorkerGuard.Proofs.Failure.Wording

What the messages of failures are searched for, as languages.

* `folded`: a character without its case. `reads s`: the texts that read so in whatever case.
* `Alternative`: a language of parts of a text, or one of words in it. `Wording`: some alternatives;
  `Wording.In s`: the text `s` has a part of one of them.
* `Pattern.Denotes p L`: the pattern matches the texts of a language, wherever they stand;
  `Pattern.Means p a`: it matches what the alternative says; `Pattern.Finds p v`: a search for it
  finds the texts that the wording is in.
* `openCircuit`, `auth`, `rateLimited`, `timedOut`, `transient`: the five wordings, each with the
  lemma that the pattern of its kind finds it.
* `Tells s vs k`: of the wordings `vs` the first one that is in the text `s` tells of the kind `k`.
* `classified_by_wording`: the judgement on a message goes by the five wordings in their order.
-/

namespace WorkerGuard.Failure

/-- The simple case folding of a character, as far as it is a small letter of `a` to `z`: outside
`A` to `Z` only the long s and the Kelvin sign have such a one. -/
def folded (c : Char) : Char :=
  if c = '\u017f' then 's' else if c = '\u212a' then 'k' else c.toLower

theorem sameLetter_iff {c x : Char} (hc : folded c = c) :
    Pattern.sameLetter c x = true ↔ folded x = c := by
  have hlong : '\u017f' ≠ c := by
    rintro rfl
    exact absurd hc (by decide)
  have hkelvin : '\u212a' ≠ c := by
    rintro rfl
    exact absurd hc (by decide)
  unfold Pattern.sameLetter folded
  split
  · rename_i hs
    subst hs
    rw [show Char.toLower '\u017f' = '\u017f' by decide]
    simp [hlong, @eq_comm _ c]
  · split
    · rename_i hk
      subst hk
      rw [show Char.toLower '\u212a' = '\u212a' by decide]
      simp [hkelvin, @eq_comm _ c]
    · rename_i hs hk
      simp [hs, hk]

theorem toLower_of_isDigit {c : Char} (h : c.toLower.isDigit = true) : c.toLower = c := by
  unfold Char.toLower at h ⊢
  split at h
  · rename_i hupper
    -- The small form of a capital letter is past the digits.
    simp only [Char.isDigit, Bool.and_eq_true, decide_eq_true_eq, ge_iff_le,
      UInt32.le_iff_toNat_le, UInt32.toNat_add] at h hupper
    simp at h hupper
    omega
  · rename_i hupper
    rw [dif_neg hupper]

theorem isWordChar_of_isDigit {c : Char} (h : c.isDigit = true) : Text.isWordChar c = true := by
  refine Text.inRanges_iff.2 ⟨(0x30, 0x39), List.mem_cons_self .., ?_⟩
  simpa [Char.isDigit, UInt32.le_iff_toNat_le] using h

/-- A digit is no other character without its case. -/
theorem folded_of_isDigit {c : Char} (h : (folded c).isDigit = true) : folded c = c := by
  unfold folded at h ⊢
  split at h
  · exact absurd h (by decide)
  · split at h
    · exact absurd h (by decide)
    · rename_i hs hk
      rw [if_neg hs, if_neg hk]
      exact toLower_of_isDigit h

namespace Wording

def reads (s : String) : Language Char := {m | m.map folded = s.toList}

def single (ok : Char → Bool) : Language Char := {m | ∃ c, ok c = true ∧ m = [c]}

/-- White space, at least one character of it. -/
def blanks : Language Char := {m | m ≠ [] ∧ ∀ c ∈ m, Text.isBlank c = true}

/-- No word character is next to what stands between the two texts. -/
def StandsAlone (before after : List Char) : Prop :=
  (∀ c ∈ before.getLast?, Text.isWordChar c = false) ∧
    ∀ c ∈ after.head?, Text.isWordChar c = false

/-- Texts of a language, wherever they stand, or only where they are words of their own. -/
inductive Alternative where
  | anywhere (L : Language Char)
  | alone (L : Language Char)

def Alternative.Spans : Alternative → List Char → List Char → List Char → Prop
  | anywhere L, _, m, _ => m ∈ L
  | alone L, u, m, w => m ∈ L ∧ StandsAlone u w

end Wording

abbrev Wording := List Wording.Alternative

/-- Some part of the text is as the wording says. -/
def Wording.In (s : String) (v : Wording) : Prop :=
  ∃ a ∈ v, ∃ u m w, s.toList = u ++ (m ++ w) ∧ Alternative.Spans a u m w

namespace Pattern

open Wording

def Denotes (p : Pattern) (L : Language Char) : Prop := ∀ u m w, Spans p u m w ↔ m ∈ L

def Means (p : Pattern) (a : Alternative) : Prop := ∀ u m w, Spans p u m w ↔ a.Spans u m w

variable {p q : Pattern} {L L' : Language Char} {u m w : List Char} {c : Char}

theorem spans_seq_iff : Spans (.seq p q) u m w ↔
    ∃ v v', m = v ++ v' ∧ Spans p u v (v' ++ w) ∧ Spans q (u ++ v) v' w := by
  constructor
  · intro h
    cases h with
    | seq hp hq => exact ⟨_, _, rfl, hp, hq⟩
  · rintro ⟨v, v', rfl, hp, hq⟩
    exact .seq hp hq

theorem spans_either_iff : Spans (.either p q) u m w ↔ Spans p u m w ∨ Spans q u m w := by
  constructor
  · intro h
    cases h with
    | left h => exact .inl h
    | right h => exact .inr h
  · rintro (h | h)
    · exact .left h
    · exact .right h

theorem spans_edge_iff : Spans .edge u m w ↔ m = [] ∧ isEdge u.getLast? w.head? = true := by
  constructor
  · intro h
    cases h with
    | edge hedge => exact ⟨rfl, hedge⟩
  · rintro ⟨rfl, hedge⟩
    exact .edge hedge

theorem spans_wholeWord_iff : Spans (.wholeWord p) u m w ↔
    Spans p u m w ∧ isEdge u.getLast? (m ++ w).head? = true ∧
      isEdge (u ++ m).getLast? w.head? = true := by
  rw [wholeWord, spans_seq_iff]
  constructor
  · rintro ⟨v, v', rfl, hfirst, hrest⟩
    obtain ⟨m, v'', rfl, hmiddle, hlast⟩ := spans_seq_iff.1 hrest
    obtain ⟨rfl, hbefore⟩ := spans_edge_iff.1 hfirst
    obtain ⟨rfl, hafter⟩ := spans_edge_iff.1 hlast
    simp only [List.append_nil, List.nil_append] at hbefore hmiddle hafter ⊢
    exact ⟨hmiddle, hbefore, hafter⟩
  · rintro ⟨hmiddle, hbefore, hafter⟩
    refine ⟨[], m, rfl, .edge hbefore, spans_seq_iff.2 ⟨m, [], ?_, ?_, .edge ?_⟩⟩
    · rw [List.append_nil]
    · rwa [List.append_nil]
    · rwa [List.append_nil]

theorem denotes_empty : Denotes .empty 1 := by
  intro u m w
  constructor
  · rintro ⟨⟩
    rfl
  · rintro rfl
    exact .empty

theorem denotes_one (ok : Char → Bool) : Denotes (.one ok) (single ok) := by
  intro u m w
  constructor
  · intro h
    cases h with
    | one hc => exact ⟨_, hc, rfl⟩
  · rintro ⟨c, hc, rfl⟩
    exact .one hc

/-- By induction on the text. -/
theorem spans_many_iff {ok : Char → Bool} :
    Spans (.many ok) u m w ↔ m ≠ [] ∧ ∀ c ∈ m, ok c = true := by
  induction m generalizing u with
  | nil =>
    constructor
    · intro h
      cases h
    · intro h
      exact absurd rfl h.1
  | cons c m ih =>
    constructor
    · intro h
      cases h with
      | last hc => simp [hc]
      | more hc hm => simpa [hc] using (ih.1 hm).2
    · rintro ⟨_, hall⟩
      obtain ⟨hc, hm⟩ := List.forall_mem_cons.1 hall
      cases m with
      | nil => exact .last hc
      | cons c' m => exact .more hc (ih.2 ⟨List.cons_ne_nil _ _, hm⟩)

theorem denotes_blanks : Denotes .blanks Wording.blanks := fun _ _ _ => spans_many_iff

theorem Denotes.seq (hp : Denotes p L) (hq : Denotes q L') : Denotes (.seq p q) (L * L') := by
  intro u m w
  rw [Language.mem_mul, spans_seq_iff]
  constructor
  · rintro ⟨a, b, rfl, ha, hb⟩
    exact ⟨a, (hp _ _ _).1 ha, b, (hq _ _ _).1 hb, rfl⟩
  · rintro ⟨a, ha, b, hb, rfl⟩
    exact ⟨a, b, rfl, (hp _ _ _).2 ha, (hq _ _ _).2 hb⟩

theorem Denotes.either (hp : Denotes p L) (hq : Denotes q L') :
    Denotes (.either p q) (L + L') := by
  intro u m w
  rw [Language.mem_add, spans_either_iff, hp, hq]

theorem Denotes.optional (hp : Denotes p L) : Denotes (.optional p) (1 + L) := by
  rw [add_comm]
  exact hp.either denotes_empty

theorem spans_letter_iff (hc : folded c = c) :
    Spans (letter c) u m w ↔ m.map folded = [c] := by
  rw [letter, denotes_one, List.map_eq_singleton_iff]
  constructor
  · rintro ⟨x, hx, rfl⟩
    exact ⟨x, rfl, (sameLetter_iff hc).1 hx⟩
  · rintro ⟨x, rfl, hx⟩
    exact ⟨x, (sameLetter_iff hc).2 hx, rfl⟩

/-- Letter by letter. -/
theorem spans_ofChars_iff {cs : List Char} (h : ∀ c ∈ cs, folded c = c) :
    Spans (ofChars cs) u m w ↔ m.map folded = cs := by
  induction cs generalizing u m with
  | nil =>
    rw [List.map_eq_nil_iff]
    exact denotes_empty u m w
  | cons c cs ih =>
    obtain ⟨hc, hcs⟩ := List.forall_mem_cons.1 h
    rw [ofChars, spans_seq_iff, List.map_eq_cons_iff]
    constructor
    · rintro ⟨v, v', rfl, hfirst, hrest⟩
      obtain ⟨x, rfl, hx⟩ := List.map_eq_singleton_iff.1 ((spans_letter_iff hc).1 hfirst)
      exact ⟨x, v', rfl, hx, (ih hcs).1 hrest⟩
    · rintro ⟨x, m, rfl, hx, hrest⟩
      refine ⟨[x], m, rfl, (spans_letter_iff hc).2 ?_, (ih hcs).2 hrest⟩
      rw [List.map_singleton, hx]

theorem denotes_letter {s : String} (hc : folded c = c := by decide)
    (hs : s.toList = [c] := by decide) : Denotes (.letter c) (reads s) := by
  intro u m w
  rw [spans_letter_iff hc, ← hs]
  exact Iff.rfl

/-- The text has to be in small letters. -/
theorem denotes_text {s : String}
    (h : (s.toList.all fun c => folded c == c) = true := by decide) :
    Denotes (.text s) (reads s) := by
  intro u m w
  refine spans_ofChars_iff ?_
  simpa using h

theorem Denotes.means (hp : Denotes p L) : Means p (.anywhere L) := hp

theorem means_text {s : String}
    (h : (s.toList.all fun c => folded c == c) = true := by decide) :
    Means (.text s) (.anywhere (reads s)) := (denotes_text h).means

/-- Around a word that begins and ends with a word character there are edges if it stands alone. -/
theorem isEdge_iff_standsAlone (hne : m ≠ []) (hword : ∀ c ∈ m, Text.isWordChar c = true) :
    isEdge u.getLast? (m ++ w).head? = true ∧ isEdge (u ++ m).getLast? w.head? = true ↔
      StandsAlone u w := by
  have hhead : m.head?.any Text.isWordChar = true := by
    rw [List.head?_eq_some_head hne]
    exact hword _ (List.head_mem hne)
  have hlast : m.getLast?.any Text.isWordChar = true := by
    rw [List.getLast?_eq_some_getLast hne]
    exact hword _ (List.getLast_mem hne)
  rw [List.head?_append_of_ne_nil _ hne, List.getLast?_append_of_ne_nil _ hne, isEdge, isEdge,
    hhead, hlast, StandsAlone]
  cases u.getLast? <;> cases w.head? <;> simp

theorem Denotes.wholeWord (hp : Denotes p L)
    (hnumbers : ∀ m ∈ L, m ≠ [] ∧ ∀ c ∈ m, c.isDigit = true) :
    Means (.wholeWord p) (.alone L) := by
  intro u m w
  have hedges : m ∈ L → (isEdge u.getLast? (m ++ w).head? = true ∧
      isEdge (u ++ m).getLast? w.head? = true ↔ StandsAlone u w) := by
    intro hm
    obtain ⟨hne, hdigits⟩ := hnumbers m hm
    exact isEdge_iff_standsAlone hne fun c hc => isWordChar_of_isDigit (hdigits c hc)
  rw [spans_wholeWord_iff, hp]
  exact and_congr_right hedges

/-- One of several. -/
theorem spans_anyOf_iff {ps : List Pattern} {v : Wording} (h : List.Forall₂ Means ps v) :
    Spans (anyOf ps) u m w ↔ ∃ a ∈ v, a.Spans u m w := by
  induction h with
  | nil =>
    constructor
    · intro h
      cases h with
      | one h => cases h
    · rintro ⟨a, ha, _⟩
      cases ha
  | @cons p a ps v hp hrest ih =>
    have hcons : (∃ a' ∈ a :: v, a'.Spans u m w) ↔ Spans p u m w ∨ ∃ a' ∈ v, a'.Spans u m w := by
      rw [hp, List.exists_mem_cons_iff]
    cases hrest with
    | nil => simpa [anyOf] using hp u m w
    | @cons p' a' ps v hp' hrest =>
      rw [hcons, ← ih]
      exact spans_either_iff

/-- The search for the pattern finds the texts that the wording is in. -/
def Finds (p : Pattern) (v : Wording) : Prop := ∀ s, p.occursIn s = true ↔ v.In s

theorem finds_anyOf {ps : List Pattern} {v : Wording} (h : List.Forall₂ Means ps v) :
    Finds (anyOf ps) v := by
  intro s
  rw [occursIn_iff]
  simp only [spans_anyOf_iff h]
  constructor
  · rintro ⟨u, m, w, hs, a, ha, hspans⟩
    exact ⟨a, ha, u, m, w, hs, hspans⟩
  · rintro ⟨a, ha, u, m, w, hs, hspans⟩
    exact ⟨u, m, w, hs, a, ha, hspans⟩

/-- Digits read so in no other way. -/
theorem eq_of_mem_reads {s : String} (hdigits : s.toList.all Char.isDigit = true)
    (hm : m ∈ reads s) : m = s.toList := by
  have hsame : ∀ c ∈ m, folded c = c := by
    intro c hc
    have hmem : folded c ∈ m.map folded := List.mem_map_of_mem hc
    rw [show m.map folded = s.toList from hm] at hmem
    exact folded_of_isDigit (List.all_eq_true.1 hdigits _ hmem)
  rw [← show m.map folded = s.toList from hm, List.map_congr_left hsame, List.map_id']

theorem means_number {s : String}
    (hfolded : (s.toList.all fun c => folded c == c) = true := by decide)
    (hne : s.toList ≠ [] := by decide) (hdigits : s.toList.all Char.isDigit = true := by decide) :
    Means (.wholeWord (.text s)) (.alone (reads s)) := by
  refine (denotes_text hfolded).wholeWord ?_
  intro m hm
  rw [eq_of_mem_reads hdigits hm]
  exact ⟨hne, List.all_eq_true.1 hdigits⟩

end Pattern

namespace Wording

open Pattern

def openCircuit : Wording :=
  [.anywhere (reads "circuit" * blanks * (1 + reads "breaker" * blanks) *
    (1 + reads "is" * blanks) * reads "open")]

def auth : Wording :=
  [.alone (reads "401"), .alone (reads "403"),
    .anywhere (reads "unauthori" * (reads "s" + reads "z") * reads "ed"),
    .anywhere (reads "forbidden"), .anywhere (reads "invalid api key"),
    .anywhere (reads "authentication"), .anywhere (reads "permission denied")]

def rateLimited : Wording :=
  [.alone (reads "429"), .anywhere (reads "rate" * (1 + single (· != '\n')) * reads "limit"),
    .anywhere (reads "too many requests"), .anywhere (reads "quota exceeded"),
    .anywhere (reads "throttl")]

def timedOut : Wording :=
  [.anywhere (reads "time" * (1 + reads "d") * (1 + single Text.isBlank) * reads "out"),
    .anywhere (reads "deadline exceeded"), .alone (reads "408"), .alone (reads "504")]

def transient : Wording :=
  [.anywhere (reads "connection " *
      (reads "reset" + (reads "refused" + (reads "closed" + reads "aborted")))),
    .anywhere (reads "broken pipe"), .anywhere (reads "temporar"), .anywhere (reads "unavailable"),
    .alone (reads "50" * single fun c => '0' ≤ c && c ≤ '3'), .anywhere (reads "try again"),
    .anywhere (reads "network"), .anywhere (reads "unexpected eof")]

theorem finds_openCircuit : Finds Message.circuitOpen openCircuit := by
  have hrest : ∀ {s : String}, (s.toList.all fun c => folded c == c) = true →
      Denotes (.optional (.seq (.text s) .blanks)) (1 + reads s * blanks) :=
    fun h => ((denotes_text h).seq denotes_blanks).optional
  have h := (denotes_text (s := "circuit")).seq (denotes_blanks.seq
    ((hrest (s := "breaker") (by decide)).seq ((hrest (s := "is") (by decide)).seq
      (denotes_text (s := "open")))))
  rw [← mul_assoc, ← mul_assoc, ← mul_assoc] at h
  exact finds_anyOf (.cons h.means .nil)

theorem finds_auth : Finds Message.auth auth := by
  have hletter := (denotes_letter (c := 's') (s := "s")).either
    (denotes_letter (c := 'z') (s := "z"))
  have hspelled := (denotes_text (s := "unauthori")).seq (hletter.seq (denotes_text (s := "ed")))
  rw [← mul_assoc] at hspelled
  exact finds_anyOf <| .cons means_number <| .cons means_number <| .cons hspelled.means <|
    .cons means_text <| .cons means_text <| .cons means_text <| .cons means_text .nil

theorem finds_rateLimited : Finds Message.rateLimited rateLimited := by
  have hrate := (denotes_text (s := "rate")).seq
    ((denotes_one (· != '\n')).optional.seq (denotes_text (s := "limit")))
  rw [← mul_assoc] at hrate
  exact finds_anyOf <| .cons means_number <| .cons hrate.means <| .cons means_text <|
    .cons means_text <| .cons means_text .nil

theorem finds_timedOut : Finds Message.timedOut timedOut := by
  have htimed := (denotes_text (s := "time")).seq
    ((denotes_letter (c := 'd') (s := "d")).optional.seq
      ((denotes_one Text.isBlank).optional.seq (denotes_text (s := "out"))))
  rw [← mul_assoc, ← mul_assoc] at htimed
  exact finds_anyOf <| .cons htimed.means <| .cons means_text <| .cons means_number <|
    .cons means_number .nil

theorem finds_transient : Finds Message.transient transient := by
  have hconnection := (denotes_text (s := "connection ")).seq
    ((denotes_text (s := "reset")).either ((denotes_text (s := "refused")).either
      ((denotes_text (s := "closed")).either (denotes_text (s := "aborted")))))
  have hcode := (denotes_text (s := "50")).seq (denotes_one fun c => '0' ≤ c && c ≤ '3')
  refine finds_anyOf <| .cons hconnection.means <| .cons means_text <| .cons means_text <|
    .cons means_text <| .cons (hcode.wholeWord ?_) <| .cons means_text <| .cons means_text <|
    .cons means_text .nil
  rintro _ ⟨m, hm, _, ⟨c, hc, rfl⟩, rfl⟩
  rw [eq_of_mem_reads (by decide) hm]
  have hdigit : c.isDigit = true := by
    simp only [Bool.and_eq_true, decide_eq_true_eq, Char.le_def, UInt32.le_iff_toNat_le] at hc
    simp only [Char.isDigit, Bool.and_eq_true, decide_eq_true_eq, ge_iff_le,
      UInt32.le_iff_toNat_le]
    exact ⟨hc.1, hc.2.trans (by decide)⟩
  refine ⟨List.append_ne_nil_of_right_ne_nil _ (List.cons_ne_nil _ _), ?_⟩
  exact List.forall_mem_append.2
    ⟨List.all_eq_true.1 (by decide), List.forall_mem_singleton.2 hdigit⟩

/-- The wordings and what they tell of, in the order in which they count. -/
def byPrecedence : List (Wording × Kind) :=
  [(openCircuit, .dependencyUnavailable), (auth, .auth), (rateLimited, .rateLimited),
    (timedOut, .timeout), (transient, .transient)]

/-- The first wording that is in the text tells of the kind. -/
inductive Tells (s : String) : List (Wording × Kind) → Kind → Prop where
  | none : Tells s [] .fatal
  | first {v : Wording} {k : Kind} {vs : List (Wording × Kind)} (h : v.In s) :
      Tells s ((v, k) :: vs) k
  | later {v : Wording} {k k' : Kind} {vs : List (Wording × Kind)} (h : ¬v.In s)
      (t : Tells s vs k') : Tells s ((v, k) :: vs) k'

theorem tells_find?_iff {s : String} {k : Kind} {es : List (Pattern × Kind)}
    {vs : List (Wording × Kind)}
    (h : List.Forall₂ (fun e e' => Finds e.1 e'.1 ∧ e.2 = e'.2) es vs) :
    ((es.find? fun e => e.1.occursIn s).elim .fatal (·.2)) = k ↔ Tells s vs k := by
  induction h with
  | nil =>
    constructor
    · rintro rfl
      exact .none
    · rintro ⟨⟩
      rfl
  | @cons e e' es vs he hrest ih =>
    obtain ⟨v, k'⟩ := e'
    obtain ⟨hfinds, rfl⟩ := he
    by_cases hin : v.In s
    · have hfound : e.1.occursIn s = true := (hfinds s).2 hin
      rw [List.find?_cons, hfound]
      constructor
      · rintro rfl
        exact .first hin
      · intro htells
        cases htells with
        | first => rfl
        | later hout => exact absurd hin hout
    · have hmissed : e.1.occursIn s = false := Bool.eq_false_iff.2 fun h => hin ((hfinds s).1 h)
      rw [List.find?_cons, hmissed, ih]
      constructor
      · exact .later hin
      · intro htells
        cases htells with
        | first hin' => exact absurd hin' hin
        | later _ htells => exact htells

theorem kindOfMessage_eq_iff {s : String} {k : Kind} :
    kindOfMessage s = k ↔ Tells s byPrecedence k := by
  have hfinds : List.Forall₂ (fun e e' => Finds e.1 e'.1 ∧ e.2 = e'.2) Message.byPrecedence
      byPrecedence :=
    .cons ⟨finds_openCircuit, rfl⟩ <| .cons ⟨finds_auth, rfl⟩ <|
      .cons ⟨finds_rateLimited, rfl⟩ <| .cons ⟨finds_timedOut, rfl⟩ <|
      .cons ⟨finds_transient, rfl⟩ .nil
  rw [← tells_find?_iff hfinds, kindOfMessage]
  cases Message.byPrecedence.find? fun e => e.1.occursIn s <;> rfl

end Wording

/-- A status code alone says nothing about a circuit. -/
theorem kindOfStatus_ne_dependencyUnavailable (code : UInt16) :
    kindOfStatus code ≠ .dependencyUnavailable := by
  unfold kindOfStatus
  split
  · decide
  · split
    · decide
    · split
      · decide
      · split <;> decide

open Wording

/-- A text that no wording is in is fatal. -/
theorem classified_by_wording :
    (∀ s k, classify (.other s) = .ofKind k ↔ Tells s byPrecedence k) ∧
      (∀ code s, (classify (.status code s)).kind = .dependencyUnavailable ↔
        openCircuit.In s) ∧
      ∀ d before after code,
        classify (.other (before ++ (CallError.circuitOpen d).message ++ after)) =
            ⟨.dependencyUnavailable, false, none⟩ ∧
          classify (.status code (before ++ (CallError.circuitOpen d).message ++ after)) =
            ⟨.dependencyUnavailable, false, none⟩ := by
  refine ⟨?_, ?_, ?_⟩
  · intro s k
    rw [← kindOfMessage_eq_iff, classify]
    constructor
    · intro h
      exact congrArg Classification.kind h
    · rintro rfl
      rfl
  · intro code s
    rw [← finds_openCircuit s, classify]
    split
    · rename_i hfound
      exact iff_of_true rfl hfound
    · rename_i hfound
      refine iff_of_false ?_ hfound
      exact kindOfStatus_ne_dependencyUnavailable code
  · intro d before after code
    exact classify_of_announced (announced_message d before after) code

/-- The number is part of a longer one, and the rate comes before the network. -/
example : (classify (.other "Network error 1401: RATE-LIMIT")).kind = .rateLimited := by
  decide +kernel

end WorkerGuard.Failure
