import WorkerGuard.Proofs.Json.Numeral

/-!
# WorkerGuard.Proofs.Json.Written

A document is read as it was written.

* `Json.induction`: induction on documents, with the hypothesis for every item and every field.
* `Json.written`: the tree that a reader finds in the text of a document.
* `readChars?_chars`: that tree is found in the text of every document.
* `Json.Plain`: documents without floating-point numbers, nested no deeper than a bound.
* `Plain.value?_written`: the tree of such a document means the document.
-/

namespace WorkerGuard.Json

/-- Induction on documents. -/
theorem induction {P : Json → Prop} (null : P null) (bool : ∀ b, P (bool b))
    (int : ∀ n, P (int n)) (float : ∀ x, P (float x)) (str : ∀ s, P (str s))
    (arr : ∀ items, (∀ v ∈ items, P v) → P (arr items))
    (obj : ∀ fields, (∀ f ∈ fields, P f.2) → P (obj fields)) : ∀ v, P v
  | .null => null
  | .bool b => bool b
  | .int n => int n
  | .float x => float x
  | .str s => str s
  | .arr items => arr items fun v _ => induction null bool int float str arr obj v
  | .obj fields => obj fields fun f _ => induction null bool int float str arr obj f.2
termination_by v => sizeOf v
decreasing_by
  · rename_i hv
    have := List.sizeOf_lt_of_mem hv
    simp only [Json.arr.sizeOf_spec]
    omega
  · rename_i hf
    have := List.sizeOf_lt_of_mem hf
    obtain ⟨k, v⟩ := f
    simp only [Json.obj.sizeOf_spec, Prod.mk.sizeOf_spec] at this ⊢
    omega

section Strings

/-- How a reader finds a character. Controls without a short escape are written as numbers. -/
def unit (c : Char) : Unit16 :=
  match c with
  | '\x08' | '\t' | '\n' | '\x0c' | '\r' => .plain c
  | c => if c.toNat < 0x20 then .code c.toNat else .plain c

theorem hexValue?_hexDigit {n : Nat} (hn : n < 16) :
    Written.hexValue? (hexDigit n) = some n := by
  have hall : ∀ k : Fin 16, Written.hexValue? (hexDigit k) = some k.val := by decide
  exact hall ⟨n, hn⟩

/-- A control without a short escape is written with four digits. -/
theorem string?_control {n : Nat} (hn : n < 0x20) (r : List Char) :
    Written.string? ('\\' :: 'u' :: '0' :: '0' :: hexDigit (n / 16) :: hexDigit (n % 16) :: r) =
      (Written.string? r).map fun p => (.code n :: p.1, p.2) := by
  have hzero : Written.hexValue? '0' = some 0 := by decide
  have hhigh : Written.hexValue? (hexDigit (n / 16)) = some (n / 16) :=
    hexValue?_hexDigit (by omega)
  have hlow : Written.hexValue? (hexDigit (n % 16)) = some (n % 16) :=
    hexValue?_hexDigit (by omega)
  have hvalue : 0 * 4096 + 0 * 256 + n / 16 * 16 + n % 16 = n := by omega
  simp only [Written.string?, hzero, hhigh, hlow, Option.bind_eq_bind, Option.bind_some, hvalue]
  cases Written.string? r <;> rfl

theorem string?_short {c e : Char} (he : Written.escape? c = some e) (hc : c ≠ 'u')
    (r : List Char) :
    Written.string? ('\\' :: c :: r) = (Written.string? r).map fun p => (.plain e :: p.1, p.2) := by
  rw [Written.string?.eq_4 _ _ fun _ _ _ _ _ hu => absurd hu hc, he]
  cases Written.string? r <;> rfl

theorem string?_plain {c : Char} (hquote : c ≠ '"') (hback : c ≠ '\\') (hc : ¬c.toNat < 0x20)
    (r : List Char) :
    Written.string? (c :: r) = (Written.string? r).map fun p => (.plain c :: p.1, p.2) := by
  rw [Written.string?.eq_5 _ _ hquote (fun _ _ _ _ _ h => absurd h hback)
    (fun _ _ h => absurd h hback)]
  simp [hback, hc]

/-- Each character is found as it was written. -/
theorem string?_escaped (c : Char) (r : List Char) :
    Written.string? (escaped c ++ r) =
      (Written.string? r).map fun p => (unit c :: p.1, p.2) := by
  simp only [escaped, unit]
  split
  iterate 7 · exact string?_short rfl (by decide) r
  · rename_i hquote hback h₈ h₉ h₁₀ h₁₂ h₁₃
    by_cases hc : c.toNat < 0x20
    · simp only [if_pos hc]
      exact string?_control hc r
    · simp only [if_neg hc]
      exact string?_plain hquote hback hc r

theorem string?_flatMap (cs rest : List Char) :
    Written.string? (cs.flatMap escaped ++ '"' :: rest) = some (cs.map unit, rest) := by
  induction cs with
  | nil => rfl
  | cons c r ih =>
    rw [List.flatMap_cons, List.append_assoc, string?_escaped, ih]
    rfl

theorem join?_code {n : Nat} (hn : n < 0xd800) (r : List Unit16) :
    Unit16.join? (.code n :: r) = (Unit16.join? r).map (Char.ofNat n :: ·) := by
  have hhalf : ¬(0xd800 ≤ n ∧ n ≤ 0xdfff) := by omega
  have hhigh : ¬(0xd800 ≤ n ∧ n ≤ 0xdbff) := by omega
  have hlow : ¬(0xdc00 ≤ n ∧ n ≤ 0xdfff) := by omega
  cases r with
  | nil => simp only [Unit16.join?, if_neg hhalf]; rfl
  | cons u r =>
    cases u with
    | plain c => simp only [Unit16.join?, if_neg hhalf]
    | code m => rw [Unit16.join?, if_neg hhigh, if_neg hlow]

theorem join?_unit (c : Char) (r : List Unit16) :
    Unit16.join? (unit c :: r) = (Unit16.join? r).map (c :: ·) := by
  simp only [unit]
  split
  iterate 5 · rfl
  · split
    · rename_i hc
      rw [join?_code (by omega), Char.ofNat_toNat]
    · rfl

theorem join?_units (cs : List Char) : Unit16.join? (cs.map unit) = some cs := by
  induction cs with
  | nil => rfl
  | cons c r ih => rw [List.map_cons, join?_unit, ih]; rfl

def units (s : String) : List Unit16 := s.toList.map unit

/-- Every text reads back. -/
theorem text?_units (s : String) : Unit16.text? (units s) = some s := by
  rw [Unit16.text?, units, join?_units, Option.map_some, String.ofList_toList]

theorem stringChars_append (s : String) (rest : List Char) :
    stringChars s ++ rest = '"' :: (s.toList.flatMap escaped ++ '"' :: rest) := by
  simp [stringChars]

theorem string?_units (s : String) (rest : List Char) :
    Written.string? (s.toList.flatMap escaped ++ '"' :: rest) = some (units s, rest) :=
  string?_flatMap s.toList rest

end Strings

section Trees

/-- The numeral in a text that is one. -/
def numeralOf (cs : List Char) : Written :=
  match Written.numeral? cs with
  | some (n, _) => .num n
  | none => .null

mutual

def written : Json → Written
  | .null => .null
  | .bool b => .bool b
  | .int n => .num (Numeral.ofInt n)
  | .float x => ((Number.text x).map fun s => numeralOf s.toList).getD .null
  | .str s => .str (units s)
  | .arr items => .arr (writtenItems items)
  | .obj fields => .obj (writtenFields fields)

def writtenItems : List Json → List Written
  | [] => []
  | v :: r => written v :: writtenItems r

def writtenFields : List (String × Json) → List (List Unit16 × Written)
  | [] => []
  | f :: r => (units f.1, written f.2) :: writtenFields r

end

variable {rest : List Char} {fuel : Nat}

theorem skipSpace_cons {c : Char} (r : List Char) (h : Written.isSpace c = false) :
    Written.skipSpace (c :: r) = c :: r := by
  rw [Written.skipSpace, List.dropWhile_cons, h]
  rfl

theorem exists_head_numeral {n : Numeral} (h : n.Sound) :
    ∃ c r, n.chars = c :: r ∧ (c = '-' ∨ c.isDigit = true) := by
  obtain ⟨d, ds, hds⟩ := List.exists_cons_of_ne_nil h.whole_ne_nil
  by_cases hn : n.negative = true
  · exact ⟨'-', _, by rw [Numeral.chars, if_pos hn]; rfl, .inl rfl⟩
  · have hd : d.isDigit = true := h.whole d (by rw [hds]; exact List.mem_cons_self)
    exact ⟨d, _, by rw [Numeral.chars, if_neg hn, hds]; rfl, .inr hd⟩

theorem isSpace_of_head {c : Char} (hc : c = '-' ∨ c.isDigit = true) :
    Written.isSpace c = false := by
  simp only [Written.isSpace, Bool.or_eq_false_iff, beq_eq_false_iff_ne]
  refine ⟨⟨⟨?_, ?_⟩, ?_⟩, ?_⟩ <;> (rintro rfl; revert hc; decide)

theorem value_numeral {n : Numeral} (h : n.Sound) (hrest : Ends rest) :
    Written.value (fuel + 1) (n.chars ++ rest) = some (.num n, rest) := by
  have hread := Written.numeral?_chars h hrest
  obtain ⟨c, r, hcr, hc⟩ := exists_head_numeral h
  rw [hcr, List.cons_append] at hread ⊢
  rw [Written.value, skipSpace_cons _ (isSpace_of_head hc)]
  -- the first character is none of those that other values start with
  split
  case h_7 => rw [hread]; rfl
  all_goals
    rename_i heq
    rw [(List.cons.inj heq).1] at hc
    exact absurd hc (by decide)

theorem chars_int (n : Int) : (int n).chars = (Numeral.ofInt n).chars := by
  rw [chars, Numeral.chars_ofInt]

/-- A floating-point number is written as a numeral, or as null if it is not finite. -/
theorem chars_float (x : Float) :
    (float x).chars = null.chars ∨ ∃ n : Numeral, n.Sound ∧ (float x).chars = n.chars := by
  cases htext : Number.text x with
  | none => exact .inl (by simp only [chars, htext]; rfl)
  | some s =>
    obtain ⟨n, hn, hchars⟩ := Numeral.exists_sound_of_text htext
    exact .inr ⟨n, hn, by rw [chars, htext, Option.getD_some, hchars]⟩

theorem value_float (x : Float) (hrest : Ends rest) :
    Written.value (fuel + 1) ((float x).chars ++ rest) = some ((float x).written, rest) := by
  simp only [chars, written]
  cases htext : Number.text x with
  | none => rfl
  | some s =>
    obtain ⟨n, hn, hchars⟩ := Numeral.exists_sound_of_text htext
    have halone := Written.numeral?_chars hn ends_nil
    rw [List.append_nil] at halone
    simp only [Option.getD_some, Option.map_some, numeralOf, ← hchars, halone]
    exact value_numeral hn hrest

theorem ends_itemChars (r : List Json) : Ends (itemChars r ++ rest) := by
  cases r <;> simp [Ends, itemChars]

theorem ends_fieldChars (r : List (String × Json)) : Ends (fieldChars r ++ rest) := by
  cases r <;> simp [Ends, fieldChars]

/-- What a reader of a value finds in its text, given enough fuel. -/
def Found (v : Json) : Prop :=
  ∀ fuel rest, v.chars.length ≤ fuel → Ends rest →
    Written.value fuel (v.chars ++ rest) = some (v.written, rest)

theorem items_chars {v : Json} {r : List Json} (h : ∀ w ∈ v :: r, Found w)
    (hfuel : (v.chars ++ itemChars r).length ≤ fuel) (rest : List Char) :
    Written.items fuel (v.chars ++ (itemChars r ++ rest)) =
      some (writtenItems (v :: r), rest) := by
  induction r generalizing v fuel with
  | nil =>
    simp only [itemChars, List.length_append, List.length_singleton] at hfuel
    obtain ⟨fuel, rfl⟩ : ∃ k, fuel = k + 1 := ⟨fuel - 1, by omega⟩
    have hv := h v (by simp) fuel (itemChars [] ++ rest) (by omega) (ends_itemChars [])
    rw [Written.items, hv]
    simp [itemChars, skipSpace_cons, Written.isSpace, writtenItems]
  | cons w r ih =>
    simp only [itemChars, List.length_append, List.length_cons] at hfuel
    obtain ⟨fuel, rfl⟩ : ∃ k, fuel = k + 1 := ⟨fuel - 1, by omega⟩
    have hv := h v (by simp) fuel (itemChars (w :: r) ++ rest) (by omega) (ends_itemChars _)
    have hrest : (w.chars ++ itemChars r).length ≤ fuel := by rw [List.length_append]; omega
    have hr := ih (fun u hu => h u (List.mem_cons_of_mem v hu)) hrest
    rw [writtenItems] at hr
    rw [Written.items, hv]
    simp [itemChars, skipSpace_cons, Written.isSpace, hr, writtenItems]

theorem fields_chars {f : String × Json} {r : List (String × Json)}
    (h : ∀ g ∈ f :: r, Found g.2)
    (hfuel : (stringChars f.1 ++ ':' :: f.2.chars ++ fieldChars r).length ≤ fuel)
    (rest : List Char) :
    Written.fields fuel (stringChars f.1 ++ ':' :: (f.2.chars ++ (fieldChars r ++ rest))) =
      some (writtenFields (f :: r), rest) := by
  induction r generalizing f fuel with
  | nil =>
    simp only [fieldChars, List.length_append, List.length_cons, List.length_nil] at hfuel
    obtain ⟨fuel, rfl⟩ : ∃ k, fuel = k + 1 := ⟨fuel - 1, by omega⟩
    have hv := h f (by simp) fuel (fieldChars [] ++ rest) (by omega) (ends_fieldChars [])
    simp only [fieldChars, List.cons_append, List.nil_append] at hv
    rw [Written.fields, stringChars_append, skipSpace_cons _ (by decide)]
    simp [string?_units, fieldChars, skipSpace_cons, Written.isSpace, hv, writtenFields]
  | cons g r ih =>
    simp only [fieldChars, List.length_append, List.length_cons] at hfuel
    obtain ⟨fuel, rfl⟩ : ∃ k, fuel = k + 1 := ⟨fuel - 1, by omega⟩
    have hv := h f (by simp) fuel (fieldChars (g :: r) ++ rest) (by omega) (ends_fieldChars _)
    have hrest : (stringChars g.1 ++ ':' :: g.2.chars ++ fieldChars r).length ≤ fuel := by
      simp only [List.length_append, List.length_cons]; omega
    have hr := ih (fun u hu => h u (List.mem_cons_of_mem f hu)) hrest
    rw [writtenFields] at hr
    rw [Written.fields, stringChars_append, skipSpace_cons _ (by decide)]
    simp only [fieldChars, List.cons_append, List.append_assoc] at hv
    simp [string?_units, fieldChars, skipSpace_cons, Written.isSpace, hv, hr, writtenFields]

theorem ne_close_of_head {c : Char} (hc : c = '-' ∨ c.isDigit = true) : c ≠ ']' := by
  rintro rfl
  revert hc
  decide

/-- A value starts with a character that is no space and closes no array. -/
theorem exists_head (v : Json) : ∃ c r, v.chars = c :: r ∧ Written.isSpace c = false ∧ c ≠ ']' := by
  have hnumeral : ∀ n : Numeral, n.Sound →
      ∃ c r, n.chars = c :: r ∧ Written.isSpace c = false ∧ c ≠ ']' := by
    intro n hn
    obtain ⟨c, r, hcr, hc⟩ := exists_head_numeral hn
    exact ⟨c, r, hcr, isSpace_of_head hc, ne_close_of_head hc⟩
  cases v with
  | null => exact ⟨_, _, rfl, by decide, by decide⟩
  | bool b => cases b <;> exact ⟨_, _, rfl, by decide, by decide⟩
  | int n =>
    rw [chars_int]
    exact hnumeral _ (Numeral.sound_ofInt n)
  | float x =>
    rcases chars_float x with hnull | ⟨n, hn, hchars⟩
    · rw [hnull]
      exact ⟨_, _, rfl, by decide, by decide⟩
    · rw [hchars]
      exact hnumeral n hn
  | str s => exact ⟨_, _, rfl, by decide, by decide⟩
  | arr items => cases items <;> exact ⟨_, _, rfl, by decide, by decide⟩
  | obj fields => cases fields <;> exact ⟨_, _, rfl, by decide, by decide⟩

theorem value_array (v : Json) (cs : List Char) :
    Written.value (fuel + 1) ('[' :: (v.chars ++ cs)) =
      (Written.items fuel (v.chars ++ cs)).map fun p => (.arr p.1, p.2) := by
  obtain ⟨c, r, hcr, hspace, hclose⟩ := exists_head v
  rw [hcr, List.cons_append, Written.value, skipSpace_cons _ (by decide)]
  simp [skipSpace_cons _ hspace, hclose]

theorem Found.of_succ {v : Json}
    (h : ∀ fuel rest, v.chars.length ≤ fuel + 1 → Ends rest →
      Written.value (fuel + 1) (v.chars ++ rest) = some (v.written, rest)) : Found v := by
  intro fuel rest hfuel hrest
  obtain ⟨c, r, hcr, -⟩ := exists_head v
  have hpos : 0 < v.chars.length := by rw [hcr]; exact Nat.succ_pos _
  obtain ⟨fuel, rfl⟩ : ∃ k, fuel = k + 1 := ⟨fuel - 1, by omega⟩
  exact h fuel rest hfuel hrest

/-- The reader finds every document in its text. -/
theorem found (v : Json) : Found v := by
  induction v using induction with
  | null => exact .of_succ fun _ _ _ _ => rfl
  | bool b => exact .of_succ fun _ _ _ _ => by cases b <;> rfl
  | int n =>
    refine .of_succ fun fuel rest _ hrest => ?_
    rw [chars_int]
    exact value_numeral (Numeral.sound_ofInt n) hrest
  | float x => exact .of_succ fun _ _ _ hrest => value_float x hrest
  | str s =>
    refine .of_succ fun fuel rest _ _ => ?_
    rw [chars, stringChars_append, Written.value, skipSpace_cons _ (by decide)]
    simp [string?_units, written]
  | arr items ih =>
    refine .of_succ fun fuel rest hfuel _ => ?_
    cases items with
    | nil => simp [chars, Written.value, skipSpace_cons, Written.isSpace, written, writtenItems]
    | cons v r =>
      simp only [chars, List.length_append, List.length_cons] at hfuel
      have hlength : (v.chars ++ itemChars r).length ≤ fuel := by rw [List.length_append]; omega
      have hitems := items_chars ih hlength rest
      rw [chars, List.cons_append, List.cons_append, List.append_assoc, value_array, hitems]
      rfl
  | obj fields ih =>
    refine .of_succ fun fuel rest hfuel _ => ?_
    cases fields with
    | nil => simp [chars, Written.value, skipSpace_cons, Written.isSpace, written, writtenFields]
    | cons f r =>
      simp only [chars, List.length_append, List.length_cons] at hfuel
      have hlength : (stringChars f.1 ++ ':' :: f.2.chars ++ fieldChars r).length ≤ fuel := by
        simp only [List.length_append, List.length_cons]; omega
      have hfields := fields_chars ih hlength rest
      rw [stringChars_append] at hfields
      rw [chars, Written.value]
      simp [stringChars_append, skipSpace_cons, Written.isSpace, hfields, written]

/-- The text of a document is read as one whole. -/
theorem readChars?_chars (v : Json) : Written.readChars? v.chars = some v.written := by
  have hread := found v (2 * v.chars.length + 1) [] (by omega) ends_nil
  rw [List.append_nil] at hread
  rw [Written.readChars?, hread]
  rfl

end Trees

section Lines

theorem newline_escaped (c : Char) : '\n' ∉ escaped c := by
  have hdigit : ∀ k < 16, '\n' ≠ hexDigit k := fun k hk =>
    (by decide : ∀ k : Fin 16, '\n' ≠ hexDigit k) ⟨k, hk⟩
  simp only [escaped]
  split
  iterate 7 · decide
  · rename_i hnewline _ _
    split
    · rename_i hc
      have hhigh := hdigit (c.toNat / 16) (by omega)
      have hlow := hdigit (c.toNat % 16) (by omega)
      simp [hhigh, hlow]
    · simpa using Ne.symm hnewline

theorem newline_stringChars (s : String) : '\n' ∉ stringChars s := by
  simp [stringChars, newline_escaped]

theorem newline_digits {ds : List Char} (h : Number.AllDigits ds) : '\n' ∉ ds :=
  fun hmem => absurd (h _ hmem) (by decide)

theorem newline_numeral {n : Numeral} (h : n.Sound) : '\n' ∉ n.chars := by
  have hwhole := newline_digits h.whole
  have hfraction : '\n' ∉ Numeral.fractionChars n.fraction := by
    rw [Numeral.fractionChars]
    split
    · simp
    · simp [newline_digits h.fraction]
  have hexponent : '\n' ∉ Numeral.exponentChars n.exponent := by
    rcases he : n.exponent with _ | ⟨b, ds⟩
    · simp [Numeral.exponentChars]
    · have hds := newline_digits (h.exponent b ds he).1
      cases b <;> simp [Numeral.exponentChars, hds]
  simp only [Numeral.chars, List.mem_append, hwhole, hfraction, hexponent, or_false]
  split <;> simp

theorem newline_itemChars {items : List Json} (h : ∀ v ∈ items, '\n' ∉ v.chars) :
    '\n' ∉ itemChars items := by
  induction items with
  | nil => decide
  | cons v r ih =>
    simp [itemChars, h v (by simp), ih fun w hw => h w (List.mem_cons_of_mem v hw)]

theorem newline_fieldChars {fields : List (String × Json)} (h : ∀ f ∈ fields, '\n' ∉ f.2.chars) :
    '\n' ∉ fieldChars fields := by
  induction fields with
  | nil => decide
  | cons f r ih =>
    simp [fieldChars, newline_stringChars, h f (by simp),
      ih fun g hg => h g (List.mem_cons_of_mem f hg)]

/-- A document is written on one line. -/
theorem newline_chars (v : Json) : '\n' ∉ v.chars := by
  induction v using induction with
  | null => decide
  | bool b => cases b <;> decide
  | int n =>
    rw [chars_int]
    exact newline_numeral (Numeral.sound_ofInt n)
  | float x =>
    rcases chars_float x with hnull | ⟨n, hn, hchars⟩
    · rw [hnull]; decide
    · rw [hchars]; exact newline_numeral hn
  | str s => exact newline_stringChars s
  | arr items ih =>
    cases items with
    | nil => decide
    | cons v r =>
      have hr := newline_itemChars fun w hw => ih w (List.mem_cons_of_mem v hw)
      simp [chars, ih v (by simp), hr]
  | obj fields ih =>
    cases fields with
    | nil => decide
    | cons f r =>
      have hr := newline_fieldChars fun g hg => ih g (List.mem_cons_of_mem f hg)
      simp [chars, newline_stringChars, ih f (by simp), hr]

end Lines

/-- A document without floating-point numbers, nested at most `d` deep, as a reader makes it: its
whole numbers have 64 bits, and the fields of an object are in the order of their names. -/
inductive Plain : Nat → Json → Prop where
  | null {d : Nat} : Plain d .null
  | bool {d : Nat} (b : Bool) : Plain d (.bool b)
  | int {d : Nat} {n : Int} (hlo : -9223372036854775808 ≤ n) (hhi : n ≤ 18446744073709551615) :
      Plain d (.int n)
  | str {d : Nat} (s : String) : Plain d (.str s)
  | arr {d : Nat} {items : List Json} (h : ∀ v ∈ items, Plain d v) : Plain (d + 1) (.arr items)
  | obj {d : Nat} {fields : List (String × Json)} (hnames : fields.Pairwise (·.1 < ·.1))
      (h : ∀ f ∈ fields, Plain d f.2) : Plain (d + 1) (.obj fields)

section Meaning

variable {d : Nat}

/-- A field whose name is beyond all others comes last. -/
theorem putField_last {k : String} {v : Json} {l : List (String × Json)} (h : ∀ f ∈ l, f.1 < k) :
    Written.putField k v l = l ++ [(k, v)] := by
  induction l with
  | nil => rfl
  | cons f r ih =>
    have hf : f.1 < k := h f (by simp)
    rw [Written.putField, if_neg (String.lt_asymm hf), if_pos hf,
      ih fun g hg => h g (List.mem_cons_of_mem f hg)]
    rfl

theorem itemValues?_written {items : List Json}
    (h : ∀ v ∈ items, Written.value? d v.written = some v) :
    Written.itemValues? d (writtenItems items) = some items := by
  induction items with
  | nil => rfl
  | cons v r ih =>
    rw [writtenItems, Written.itemValues?, h v (by simp)]
    simp [ih fun w hw => h w (List.mem_cons_of_mem v hw)]

theorem fieldValues?_written {fields : List (String × Json)}
    (h : ∀ f ∈ fields, Written.value? d f.2.written = some f.2) (sofar : List (String × Json))
    (hnames : (sofar ++ fields).Pairwise (·.1 < ·.1)) :
    Written.fieldValues? d sofar (writtenFields fields) = some (sofar ++ fields) := by
  induction fields generalizing sofar with
  | nil => simp [writtenFields, Written.fieldValues?]
  | cons f r ih =>
    have hlast : ∀ g ∈ sofar, g.1 < f.1 := fun g hg =>
      (List.pairwise_append.1 hnames).2.2 g hg f (by simp)
    rw [writtenFields, Written.fieldValues?, text?_units, h f (by simp)]
    rw [List.append_cons] at hnames
    simp only [putField_last hlast]
    rw [ih (fun g hg => h g (List.mem_cons_of_mem f hg)) _ hnames, ← List.append_cons]

/-- The tree of a document without floating-point numbers means that document. -/
theorem Plain.value?_written {v : Json} (h : Plain d v) : Written.value? d v.written = some v := by
  induction h with
  | null => rfl
  | bool b => rfl
  | int hlo hhi => exact Numeral.value?_ofInt hlo hhi
  | str s =>
    rw [written, Written.value?, text?_units]
    rfl
  | arr _ ih =>
    rw [written, Written.value?, if_neg (Nat.succ_ne_zero _), Nat.add_sub_cancel,
      itemValues?_written ih]
    rfl
  | obj hnames _ ih =>
    rw [written, Written.value?, if_neg (Nat.succ_ne_zero _), Nat.add_sub_cancel,
      fieldValues?_written ih [] hnames]
    rfl

end Meaning

end WorkerGuard.Json
