import WorkerGuard.Proofs.Json.Written

/-!
# WorkerGuard.Proofs.Json.Torn

A document that is written right behind the beginning of another one cannot be read.

* `Written.value_of_le`: more fuel does not change what a reader finds.
* `opened`: a text that opens an object whose first field has a name that starts with a `w`.
* `Left`: what a reader of a text with such an object at its end can leave. It stops before the
  object, or it takes the first quote of the object for the end of a string.
* `leaves`: the readers never get further than that, unless they start with the object.
* `readChars?_torn`: if there is more than spaces in front of the object, nothing is read.
* `readChars?_spaces`: spaces in front of a document change nothing.
-/

namespace WorkerGuard.Json.Written

section Fuel

/-- By induction on the fuel, for the three readers at once. -/
theorem succ_fuel (fuel : Nat) :
    (∀ s x, value fuel s = some x → value (fuel + 1) s = some x) ∧
      (∀ s x, items fuel s = some x → items (fuel + 1) s = some x) ∧
      ∀ s x, fields fuel s = some x → fields (fuel + 1) s = some x := by
  induction fuel with
  | zero => refine ⟨?_, ?_, ?_⟩ <;> rintro s x ⟨⟩
  | succ fuel ih =>
    obtain ⟨ihvalue, ihitems, ihfields⟩ := ih
    have hitems {α : Type} {s : List Char} {x : α} (f : List Written × List Char → α)
        (h : (items fuel s).map f = some x) : (items (fuel + 1) s).map f = some x := by
      obtain ⟨y, hy, rfl⟩ := Option.map_eq_some_iff.1 h
      rw [ihitems s y hy]
      rfl
    have hfields {α : Type} {s : List Char} {x : α}
        (f : List (List Unit16 × Written) × List Char → α)
        (h : (fields fuel s).map f = some x) : (fields (fuel + 1) s).map f = some x := by
      obtain ⟨y, hy, rfl⟩ := Option.map_eq_some_iff.1 h
      rw [ihfields s y hy]
      rfl
    refine ⟨fun s x h => ?_, fun s x h => ?_, fun s x h => ?_⟩
    · rw [value] at h ⊢
      revert h
      generalize skipSpace s = s'
      split
      iterate 4 · exact id
      · split
        · exact id
        · exact hitems _
      · split
        · exact id
        · exact hfields _
      · exact id
    · rw [items] at h ⊢
      cases hv : value fuel s with
      | none =>
        rw [hv] at h
        cases h
      | some p =>
        rw [hv] at h
        rw [ihvalue s p hv]
        revert h
        dsimp only
        split
        · exact id
        · exact hitems _
        · exact id
    · rw [fields] at h ⊢
      revert h
      split
      · split
        · exact id
        · split
          · split
            · rintro ⟨⟩
            · rename_i hv
              rw [ihvalue _ _ hv]
              dsimp only
              split
              · exact id
              · exact hfields _
              · exact id
          · exact id
      · exact id

theorem value_of_le {fuel fuel' : Nat} (hle : fuel ≤ fuel') {s : List Char}
    {x : Written × List Char} (h : value fuel s = some x) : value fuel' s = some x := by
  induction hle with
  | refl => exact h
  | step _ ih => exact (succ_fuel _).1 s x ih

/-- Behind the text of a document nothing is left of it. -/
theorem rest_of_chars {d : Json} {fuel : Nat} {v : Written} {rest : List Char}
    (h : value fuel d.chars = some (v, rest)) : rest = [] := by
  have hfound := found d (max fuel d.chars.length) [] (Nat.le_max_right ..) ends_nil
  have hmore := value_of_le (Nat.le_max_left fuel d.chars.length) h
  rw [List.append_nil, hmore] at hfound
  cases hfound
  rfl

end Fuel

section Marks

variable {r t rest : List Char} {c : Char}

def opened (r : List Char) : List Char := '\x7b' :: '"' :: 'w' :: r

/-- What a reader can leave of a text with an object at its end. -/
inductive Left (r : List Char) : List Char → Prop where
  | before {rest : List Char} (h : opened r <:+ rest) : Left r rest
  /-- The first quote of the object was taken for the end of a string. -/
  | quoted : Left r ('w' :: r)

/-- Behind a character that is not the brace there is still the whole object. -/
theorem opened_of_cons (h : opened r <:+ c :: t) (hc : c ≠ '\x7b') : opened r <:+ t := by
  obtain heq | h := List.suffix_cons_iff.1 h
  · exact absurd (List.cons.inj heq).1.symm hc
  · exact h

theorem opened_of_append (word : List Char) (h : opened r <:+ word ++ t)
    (hword : ∀ c ∈ word, c ≠ '\x7b') : opened r <:+ t := by
  induction word with
  | nil => exact h
  | cons c word ih =>
    obtain ⟨hc, hword⟩ := List.forall_mem_cons.1 hword
    exact ih (opened_of_cons h hc) hword

theorem opened_dropWhile {p : Char → Bool} (hp : p '\x7b' = false) (h : opened r <:+ t) :
    opened r <:+ t.dropWhile p := by
  induction t with
  | nil => exact h
  | cons c t ih =>
    rw [List.dropWhile_cons]
    split
    · rename_i hc
      refine ih (opened_of_cons h ?_)
      rintro rfl
      rw [hp] at hc
      cases hc
    · exact h

theorem opened_skipSpace (h : opened r <:+ t) : opened r <:+ skipSpace t :=
  opened_dropWhile (by decide) h

theorem Left.mark (h : Left r rest) (hc : c ≠ '\x7b' ∧ c ≠ 'w') (hskip : skipSpace rest = c :: t) :
    opened r <:+ t := by
  cases h with
  | before h => exact opened_of_cons (hskip ▸ opened_skipSpace h) hc.1
  | quoted =>
    rw [skipSpace_cons _ (by decide)] at hskip
    exact absurd (List.cons.inj hskip).1.symm hc.2

/-- Something is always left. -/
theorem Left.skipSpace_ne_nil (h : Left r rest) : skipSpace rest ≠ [] := by
  cases h with
  | before h =>
    intro hnil
    have hsuffix := opened_skipSpace h
    rw [hnil, List.suffix_nil] at hsuffix
    cases hsuffix
  | quoted =>
    rw [skipSpace_cons _ (by decide)]
    exact nofun

end Marks

section Strings

variable {r t rest : List Char}

theorem ne_brace_of_hexValue? {c : Char} {n : Nat} (h : hexValue? c = some n) : c ≠ '\x7b' := by
  rintro rfl
  revert h
  exact nofun

theorem ne_brace_of_escape? {c e : Char} (h : escape? c = some e) : c ≠ '\x7b' := by
  rintro rfl
  revert h
  exact nofun

/-- A string ends in front of the object or with its first quote: no escape goes on into it. -/
theorem string?_left (ht : opened r <:+ t) {s : List Unit16} (h : string? t = some (s, rest)) :
    Left r rest := by
  induction t using string?.induct generalizing s rest with
  | case1 => cases h
  | case2 t =>
    cases h
    exact .before (opened_of_cons ht (by decide))
  | case3 a b c d t ih =>
    simp only [string?, Option.bind_eq_bind, Option.bind_eq_some_iff] at h
    obtain ⟨_, ha, _, hb, _, hc, _, hd, p, hp, h⟩ := h
    cases h
    have hword : ∀ x ∈ ['\\', 'u', a, b, c, d], x ≠ '\x7b' := by
      simp [ne_brace_of_hexValue? ha, ne_brace_of_hexValue? hb, ne_brace_of_hexValue? hc,
        ne_brace_of_hexValue? hd]
    exact ih (opened_of_append ['\\', 'u', a, b, c, d] ht hword) hp
  | case4 c t hu ih =>
    rw [string?.eq_4 _ _ hu] at h
    simp only [Option.bind_eq_bind, Option.bind_eq_some_iff] at h
    obtain ⟨_, he, p, hp, h⟩ := h
    cases h
    have hword : ∀ x ∈ ['\\', c], x ≠ '\x7b' := by simp [ne_brace_of_escape? he]
    exact ih (opened_of_append ['\\', c] ht hword) hp
  | case5 c t hquote hu hback hc =>
    rw [string?.eq_5 _ _ hquote hu hback, if_pos hc] at h
    cases h
  | case6 c t hquote hu hback hc ih =>
    rw [string?.eq_5 _ _ hquote hu hback, if_neg hc] at h
    obtain ⟨p, hp, h⟩ := Option.map_eq_some_iff.1 h
    cases h
    obtain heq | ht := List.suffix_cons_iff.1 ht
    · -- the brace is the last character of the string
      obtain ⟨-, rfl⟩ := List.cons.inj heq
      cases hp
      exact .quoted
    · exact ih ht hp

end Strings

section Numerals

variable {r t rest : List Char}

theorem whole?_opened (ht : opened r <:+ t) {w : List Char} (h : whole? t = some (w, rest)) :
    opened r <:+ rest := by
  unfold whole? at h
  split at h
  · split at h
    · cases h
    · cases h
      exact opened_of_cons ht (by decide)
  · split at h
    · cases h
      exact opened_dropWhile (by decide) ht
    · cases h
  · cases h

theorem fraction?_opened (ht : opened r <:+ t) {f : List Char}
    (h : fraction? t = some (f, rest)) : opened r <:+ rest := by
  unfold fraction? at h
  split at h
  · split at h
    · cases h
      exact opened_dropWhile (by decide) (opened_of_cons ht (by decide))
    · cases h
  · cases h
    exact ht

theorem exponent?_opened (ht : opened r <:+ t) {e : Option (Bool × List Char)}
    (h : exponent? t = some (e, rest)) : opened r <:+ rest := by
  have hdigits (negative : Bool) {t : List Char} (ht : opened r <:+ t)
      (h : (if t.head?.any Char.isDigit then
        some (some (negative, t.takeWhile Char.isDigit), t.dropWhile Char.isDigit) else none) =
          some (e, rest)) : opened r <:+ rest := by
    split at h
    · cases h
      exact opened_dropWhile (by decide) ht
    · cases h
  unfold exponent? at h
  split at h
  · split at h
    · rename_i c t he
      have ht : opened r <:+ t := by
        refine opened_of_cons ht ?_
        rintro rfl
        revert he
        decide
      dsimp only at h
      split at h
      · exact hdigits true (opened_of_cons ht (by decide)) h
      · exact hdigits false (opened_of_cons ht (by decide)) h
      · exact hdigits false ht h
    · cases h
      exact ht
  · cases h
    exact ht

/-- A numeral ends in front of the object. -/
theorem numeral?_opened (ht : opened r <:+ t) {n : Numeral} (h : numeral? t = some (n, rest)) :
    opened r <:+ rest := by
  simp only [numeral?, Option.bind_eq_bind, Option.bind_eq_some_iff] at h
  obtain ⟨w, hw, f, hf, e, he, h⟩ := h
  cases h
  have hwhole : opened r <:+ w.2 := by
    split at hw
    · exact whole?_opened (opened_of_cons ht (by decide)) hw
    · exact whole?_opened ht hw
  exact exponent?_opened (fraction?_opened hwhole hf) he

end Numerals

section Values

variable {r t rest : List Char} {fuel : Nat}

/-- Spaces in front of a value do not matter. -/
theorem value_skipSpace {s s' : List Char} (h : skipSpace s = skipSpace s') (fuel : Nat) :
    value fuel s = value fuel s' := by
  cases fuel with
  | zero => rfl
  | succ fuel => rw [value, value, h]

/-- What the three readers leave, with some fuel. A value that is not the object itself, and items
and fields in any case, end in front of it or with its first quote. -/
structure Leaves (r : List Char) (fuel : Nat) : Prop where
  value : ∀ {t v rest}, opened r <:+ t → skipSpace t ≠ opened r → value fuel t = some (v, rest) →
    Left r rest
  items : ∀ {t vs rest}, opened r <:+ t → items fuel t = some (vs, rest) → opened r <:+ rest
  fields : ∀ {t fs rest}, opened r <:+ t → fields fuel t = some (fs, rest) → opened r <:+ rest

/-- The object is all there is when it is read from its start. -/
def Whole (r : List Char) : Prop :=
  ∀ fuel v rest, value fuel (opened r) = some (v, rest) → rest = []

theorem Leaves.mark (h : Leaves r fuel) (hr : Whole r) (ht : opened r <:+ t) {v : Written}
    (hv : Written.value fuel t = some (v, rest)) {c : Char} (hc : c ≠ '\x7b' ∧ c ≠ 'w')
    {t' : List Char} (hskip : skipSpace rest = c :: t') : opened r <:+ t' := by
  by_cases hself : skipSpace t = opened r
  · have hsame : skipSpace t = skipSpace (opened r) := by
      rw [hself, opened, skipSpace_cons _ (by decide)]
    rw [value_skipSpace hsame] at hv
    rw [hr fuel v rest hv] at hskip
    cases hskip
  · exact (h.value ht hself hv).mark hc hskip

/-- One more step of the reader of values. -/
theorem Leaves.value_succ (ih : Leaves r fuel) (ht : opened r <:+ t)
    (hself : skipSpace t ≠ opened r) {v : Written}
    (h : Written.value (fuel + 1) t = some (v, rest)) : Left r rest := by
  rw [Written.value] at h
  have ht := opened_skipSpace ht
  generalize skipSpace t = t' at h ht hself
  split at h
  case h_1 =>
    cases h
    exact .before (opened_of_append ['n', 'u', 'l', 'l'] ht (by simp))
  case h_2 =>
    cases h
    exact .before (opened_of_append ['t', 'r', 'u', 'e'] ht (by simp))
  case h_3 =>
    cases h
    exact .before (opened_of_append ['f', 'a', 'l', 's', 'e'] ht (by simp))
  case h_4 =>
    obtain ⟨p, hp, h⟩ := Option.map_eq_some_iff.1 h
    cases h
    exact string?_left (opened_of_cons ht (by decide)) hp
  case h_5 =>
    have ht := opened_skipSpace (opened_of_cons ht (by decide))
    split at h
    · rename_i hskip
      cases h
      exact .before (opened_of_cons (hskip ▸ ht) (by decide))
    · obtain ⟨p, hp, h⟩ := Option.map_eq_some_iff.1 h
      cases h
      exact .before (ih.items ht hp)
  case h_6 =>
    -- this brace is not the one of the object
    obtain heq | ht := List.suffix_cons_iff.1 ht
    · exact absurd heq.symm hself
    have ht := opened_skipSpace ht
    split at h
    · rename_i hskip
      cases h
      exact .before (opened_of_cons (hskip ▸ ht) (by decide))
    · obtain ⟨p, hp, h⟩ := Option.map_eq_some_iff.1 h
      cases h
      exact .before (ih.fields ht hp)
  case h_7 =>
    obtain ⟨p, hp, h⟩ := Option.map_eq_some_iff.1 h
    cases h
    exact .before (numeral?_opened ht hp)

/-- Between two items there is a mark, so that the object cannot be one of them. -/
theorem Leaves.items_succ (ih : Leaves r fuel) (hr : Whole r) (ht : opened r <:+ t)
    {vs : List Written} (h : Written.items (fuel + 1) t = some (vs, rest)) : opened r <:+ rest := by
  rw [Written.items] at h
  split at h
  · cases h
  · rename_i hv
    split at h
    · rename_i hskip
      cases h
      exact ih.mark hr ht hv (by decide) hskip
    · rename_i hskip
      obtain ⟨p, hp, h⟩ := Option.map_eq_some_iff.1 h
      cases h
      exact ih.items (ih.mark hr ht hv (by decide) hskip) hp
    · cases h

theorem Leaves.fields_succ (ih : Leaves r fuel) (hr : Whole r) (ht : opened r <:+ t)
    {fs : List (List Unit16 × Written)} (h : Written.fields (fuel + 1) t = some (fs, rest)) :
    opened r <:+ rest := by
  rw [Written.fields] at h
  split at h
  · rename_i hquote
    split at h
    · cases h
    · rename_i hkey
      split at h
      · rename_i hcolon
        have ht := opened_of_cons (hquote ▸ opened_skipSpace ht) (by decide)
        have ht := (string?_left ht hkey).mark (by decide) hcolon
        split at h
        · cases h
        · rename_i hv
          split at h
          · rename_i hskip
            cases h
            exact ih.mark hr ht hv (by decide) hskip
          · rename_i hskip
            obtain ⟨p, hp, h⟩ := Option.map_eq_some_iff.1 h
            cases h
            exact ih.fields (ih.mark hr ht hv (by decide) hskip) hp
          · cases h
      · cases h
  · cases h

theorem leaves (hr : Whole r) (fuel : Nat) : Leaves r fuel := by
  induction fuel with
  | zero => exact ⟨nofun, nofun, nofun⟩
  | succ fuel ih =>
    refine ⟨?_, ?_, ?_⟩
    · intro t v rest ht hself h
      exact ih.value_succ ht hself h
    · intro t vs rest ht h
      exact ih.items_succ hr ht h
    · intro t fs rest ht h
      exact ih.fields_succ hr ht h

/-- Unless there are only spaces in front of the object, nothing is read. -/
theorem readChars?_torn (hr : Whole r) {l : List Char} (hl : skipSpace l ≠ []) :
    readChars? (l ++ opened r) = none := by
  have hself : skipSpace (l ++ opened r) ≠ opened r := by
    rw [skipSpace] at hl ⊢
    rw [List.dropWhile_append, if_neg (by simpa using hl)]
    simpa using hl
  rw [readChars?]
  split
  · rename_i hv
    have hleft := (leaves hr _).value (List.suffix_append l _) hself hv
    rw [if_neg (by simpa using hleft.skipSpace_ne_nil)]
  · rfl

/-- Spaces in front of a document change nothing. -/
theorem readChars?_spaces {l : List Char} (hl : skipSpace l = []) (d : Json) :
    readChars? (l ++ d.chars) = some d.written := by
  have hsame : skipSpace (l ++ d.chars) = skipSpace d.chars := by
    have hnil : l.dropWhile isSpace = [] := hl
    rw [skipSpace, List.dropWhile_append, hnil]
    rfl
  have hfound := found d (2 * (l ++ d.chars).length + 1) []
    (by rw [List.length_append]; omega) ends_nil
  rw [List.append_nil] at hfound
  rw [readChars?, value_skipSpace hsame, hfound]
  rfl

end Values
end WorkerGuard.Json.Written
