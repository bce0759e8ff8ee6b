import WorkerGuard.Json.Written
import WorkerGuard.Proofs.Number.Digits
import WorkerGuard.Proofs.Number.Shortest

/-!
# WorkerGuard.Proofs.Json.Numeral

Numbers as documents write them, and as readers find them.

* `Numeral.chars`: how a numeral is written; `Numeral.Sound`: its parts are digits in their places.
* `Written.numeral?_chars`: a sound numeral is read whole.
* `Numeral.ofInt`: the numeral of a whole number; `Numeral.value?_ofInt`: it stands for that number.
* `exists_sound_of_text`: the text of a floating-point number is a sound numeral.
-/

namespace WorkerGuard.Json

open Number

/-- What may follow a value in a document. -/
def Ends (rest : List Char) : Prop := ∀ c ∈ rest.head?, c = ',' ∨ c = ']' ∨ c = '\x7d'

theorem ends_nil : Ends [] := by simp [Ends]

theorem Ends.not_digit {rest : List Char} (h : Ends rest) :
    ∀ c ∈ rest.head?, c.isDigit = false := by
  intro c hc
  rcases h c hc with rfl | rfl | rfl <;> rfl

namespace Numeral

/-- An exponent always has a sign. -/
def exponentChars : Option (Bool × List Char) → List Char
  | none => []
  | some (true, ds) => 'e' :: '-' :: ds
  | some (false, ds) => 'e' :: '+' :: ds

def fractionChars (ds : List Char) : List Char := if ds = [] then [] else '.' :: ds

def chars (n : Numeral) : List Char :=
  (if n.negative then ['-'] else []) ++
    (n.whole ++ (fractionChars n.fraction ++ exponentChars n.exponent))

structure Sound (n : Numeral) : Prop where
  whole : AllDigits n.whole
  whole_ne_nil : n.whole ≠ []
  leading : n.whole = ['0'] ∨ n.whole.head? ≠ some '0'
  fraction : AllDigits n.fraction
  exponent : ∀ b ds, n.exponent = some (b, ds) → AllDigits ds ∧ ds ≠ []

end Numeral

namespace Written

variable {ds rest : List Char}

theorem whole?_digits (h : AllDigits ds) (hne : ds ≠ [])
    (hlead : ds = ['0'] ∨ ds.head? ≠ some '0') (hrest : ∀ c ∈ rest.head?, c.isDigit = false) :
    whole? (ds ++ rest) = some (ds, rest) := by
  obtain ⟨d, ds, rfl⟩ := List.exists_cons_of_ne_nil hne
  rcases hlead with hzero | hlead
  · cases hzero
    cases rest with
    | nil => rfl
    | cons c r => simp [whole?, hrest c rfl]
  · have htake := h.takeWhile hrest
    have hdrop := h.dropWhile hrest
    have hzero : d = '0' → False := fun hd => hlead (by rw [hd]; rfl)
    rw [List.cons_append] at htake hdrop ⊢
    rw [whole?.eq_2 _ _ hzero, if_pos (h d (by simp)), htake, hdrop]

theorem fraction?_chars (h : AllDigits ds)
    (hrest : ∀ c ∈ rest.head?, c.isDigit = false ∧ c ≠ '.') :
    fraction? (Numeral.fractionChars ds ++ rest) = some (ds, rest) := by
  rw [Numeral.fractionChars]
  split
  · rename_i hnil
    subst hnil
    cases rest with
    | nil => rfl
    | cons c r => simp [fraction?, (hrest c rfl).2]
  · rename_i hne
    have htake := h.takeWhile (fun c hc => (hrest c hc).1)
    have hdrop := h.dropWhile (fun c hc => (hrest c hc).1)
    obtain ⟨d, ds, rfl⟩ := List.exists_cons_of_ne_nil hne
    rw [List.cons_append] at htake hdrop
    simp [fraction?, h d (by simp), htake, hdrop]

theorem exponent?_chars {e : Option (Bool × List Char)}
    (h : ∀ b ds, e = some (b, ds) → AllDigits ds ∧ ds ≠ []) (hrest : Ends rest) :
    exponent? (Numeral.exponentChars e ++ rest) = some (e, rest) := by
  rcases e with _ | ⟨b, ds⟩
  · cases rest with
    | nil => rfl
    | cons c r => rcases hrest c rfl with rfl | rfl | rfl <;> rfl
  · obtain ⟨hds, hne⟩ := h b ds rfl
    have htake := hds.takeWhile hrest.not_digit
    have hdrop := hds.dropWhile hrest.not_digit
    obtain ⟨d, ds, rfl⟩ := List.exists_cons_of_ne_nil hne
    rw [List.cons_append] at htake hdrop
    cases b <;> simp [exponent?, Numeral.exponentChars, hds d (by simp), htake, hdrop]

/-- After the whole part there is no digit, after the fraction neither a digit nor a point. -/
theorem head_exponentChars {e : Option (Bool × List Char)} (hrest : Ends rest) :
    ∀ c ∈ (Numeral.exponentChars e ++ rest).head?, c.isDigit = false ∧ c ≠ '.' := by
  rcases e with _ | ⟨b, ds⟩
  · intro c hc
    refine ⟨hrest.not_digit c hc, ?_⟩
    rcases hrest c hc with rfl | rfl | rfl <;> decide
  · cases b <;> simp [Numeral.exponentChars]

theorem head_fractionChars (ds : List Char) {cs : List Char}
    (hcs : ∀ c ∈ cs.head?, c.isDigit = false) :
    ∀ c ∈ (Numeral.fractionChars ds ++ cs).head?, c.isDigit = false := by
  rw [Numeral.fractionChars]
  split
  · exact hcs
  · simp

theorem numeral?_chars {n : Numeral} (h : n.Sound) (hrest : Ends rest) :
    numeral? (n.chars ++ rest) = some (n, rest) := by
  have htail := head_exponentChars hrest (e := n.exponent)
  have hwhole := whole?_digits h.whole h.whole_ne_nil h.leading
    (head_fractionChars n.fraction fun c hc => (htail c hc).1)
  have hfraction := fraction?_chars h.fraction htail
  have hexponent := exponent?_chars h.exponent hrest
  obtain ⟨d, ds, hds⟩ := List.exists_cons_of_ne_nil h.whole_ne_nil
  have hminus : d ≠ '-' := by
    have hd := h.whole d (by rw [hds]; exact List.mem_cons_self)
    rintro rfl
    revert hd
    decide
  obtain ⟨negative, whole, fraction, exponent⟩ := n
  cases negative with
  | true => simp [numeral?, Numeral.chars, hwhole, hfraction, hexponent]
  | false =>
    cases hds
    simp only [List.cons_append] at hwhole
    simp [numeral?, Numeral.chars, hminus, hwhole, hfraction, hexponent]

end Written

namespace Numeral

section Whole

variable {n : Int}

/-- The numeral of a whole number. -/
def ofInt (n : Int) : Numeral := ⟨decide (n < 0), Nat.toDigits 10 n.natAbs, [], none⟩

theorem sound_ofInt (n : Int) : (ofInt n).Sound where
  whole := allDigits_toDigits _
  whole_ne_nil := Nat.toDigits_ne_nil
  leading := by
    by_cases hn : n.natAbs = 0
    · exact .inl (by simp [ofInt, hn])
    · exact .inr (head?_toDigits hn)
  fraction := by simp [ofInt, AllDigits]
  exponent := by simp [ofInt]

theorem chars_ofInt (n : Int) : (ofInt n).chars = (toString n).toList := by
  cases n with
  | ofNat n =>
    show _ = (toString n).toList
    simp [chars, ofInt, fractionChars, exponentChars]
  | negSucc n =>
    show _ = ("-" ++ toString (n + 1)).toList
    simp [chars, ofInt, fractionChars, exponentChars, Int.negSucc_lt_zero]

theorem le_ofDigitChars (ds : List Char) (n : Nat) : n ≤ Nat.ofDigitChars 10 ds n := by
  rw [Nat.ofDigitChars_eq_ofDigitChars_zero]
  have hpow : 1 ≤ 10 ^ ds.length := Nat.one_le_pow _ _ (by decide)
  exact Nat.le_add_right_of_le (Nat.le_mul_of_pos_left n hpow)

theorem takeIn_digits (ds : List Char) {n : Nat} (h : Nat.ofDigitChars 10 ds n ≤ largest) :
    takeIn n ds = (Nat.ofDigitChars 10 ds n, []) := by
  induction ds generalizing n with
  | nil => rfl
  | cons d r ih =>
    rw [Nat.ofDigitChars_cons] at h ⊢
    have hfits : 10 * n + digitValue d ≤ largest := Nat.le_trans (le_ofDigitChars r _) h
    rw [takeIn, if_pos hfits]
    exact ih h

/-- A whole number of 64 bits reads back. -/
theorem value?_ofInt (hlo : -9223372036854775808 ≤ n) (hhi : n ≤ 18446744073709551615) :
    (ofInt n).value? = some (.int n) := by
  have htake : takeIn 0 (ofInt n).whole = (n.natAbs, []) := by
    have hvalue : Nat.ofDigitChars 10 (ofInt n).whole 0 = n.natAbs := Nat.ofDigitChars_ten_toDigits
    rw [takeIn_digits _ (by rw [hvalue, largest]; omega), hvalue]
  have hneg : n < 0 →
      n = -(n.natAbs : Int) ∧ n.natAbs ≠ 0 ∧ n.natAbs ≤ 9223372036854775808 := by omega
  have hpos : ¬n < 0 → n = (n.natAbs : Int) := by omega
  rw [value?, htake]
  generalize n.natAbs = m at hneg hpos
  by_cases hn : n < 0
  · obtain ⟨hsame, hfits⟩ := hneg hn
    simp [ofInt, hn, hfits, ← hsame]
  · simp [ofInt, hn, ← hpos hn]

end Whole

section Floating

variable {ds : List Char}

theorem sound_withFraction {negative : Bool} {w f : List Char} (hw : AllDigits w) (hne : w ≠ [])
    (hlead : w = ['0'] ∨ w.head? ≠ some '0') (hf : AllDigits f) :
    (Numeral.mk negative w f none).Sound :=
  ⟨hw, hne, hlead, hf, fun _ _ h => by cases h⟩

theorem exists_sound_of_plain (h : AllDigits ds) (hne : ds ≠ []) (hlead : ds.head? ≠ some '0')
    (negative : Bool) (e : Int) :
    ∃ n : Numeral, n.Sound ∧ n.chars = (if negative then ['-'] else []) ++ plain ds e := by
  have hhead : ∀ r, (ds ++ r).head? ≠ some '0' := by
    intro r
    obtain ⟨d, ds, rfl⟩ := List.exists_cons_of_ne_nil hne
    exact hlead
  by_cases hwhole : 0 ≤ e
  · refine ⟨⟨negative, ds ++ List.replicate e.toNat '0', ['0'], none⟩,
      sound_withFraction (h.append (.zeros _)) (by simp [hne]) (.inr (hhead _)) (.zeros 1), ?_⟩
    simp [plain, chars, fractionChars, exponentChars, hwhole]
  by_cases hpoint : 0 < (ds.length : Int) + e
  · have hsome : (ds.length + e).toNat ≠ 0 := by omega
    have hrest : ds.drop (ds.length + e).toNat ≠ [] := by
      rw [ne_eq, List.drop_eq_nil_iff]
      omega
    refine ⟨⟨negative, ds.take (ds.length + e).toNat, ds.drop (ds.length + e).toNat, none⟩,
      sound_withFraction (fun c hc => h c (List.mem_of_mem_take hc)) ?_ (.inr ?_)
        (fun c hc => h c (List.mem_of_mem_drop hc)), ?_⟩
    · simpa [hne] using hpoint
    · rwa [List.head?_take, if_neg hsome]
    · simp only [chars, fractionChars, exponentChars, if_neg hrest, plain, if_neg hwhole,
        if_pos hpoint, List.append_nil]
  · refine ⟨⟨negative, ['0'], List.replicate (-(ds.length + e)).toNat '0' ++ ds, none⟩,
      sound_withFraction (.zeros 1) (by simp) (.inl rfl) ((AllDigits.zeros _).append h), ?_⟩
    simp [plain, chars, fractionChars, exponentChars, hne, hwhole, hpoint]

theorem exists_sound_of_scientific (h : AllDigits ds) (hne : ds ≠ [])
    (hlead : ds.head? ≠ some '0') (negative : Bool) (e : Int) :
    ∃ n : Numeral, n.Sound ∧ n.chars = (if negative then ['-'] else []) ++ scientific ds e := by
  obtain ⟨d, r, rfl⟩ := List.exists_cons_of_ne_nil hne
  have hr : AllDigits r := fun c hc => h c (List.mem_cons_of_mem d hc)
  generalize hpower : ((d :: r).length : Int) + e - 1 = k
  refine ⟨⟨negative, [d], r, some (decide (k < 0), Nat.toDigits 10 k.natAbs)⟩, ?_, ?_⟩
  · refine ⟨fun c hc => h c ?_, by simp, .inr hlead, hr, ?_⟩
    · rw [List.mem_singleton.1 hc]
      exact List.mem_cons_self
    · intro b ds hb
      cases hb
      exact ⟨allDigits_toDigits _, Nat.toDigits_ne_nil⟩
  · simp only [scientific, hpower]
    by_cases hk : k < 0
    · cases r <;> simp [chars, fractionChars, exponentChars, hk]
    · cases r <;> simp [chars, fractionChars, exponentChars, hk]

/-- The text of a floating-point number is a sound numeral. -/
theorem exists_sound_of_text {x : Float} {s : String} (h : Number.text x = some s) :
    ∃ n : Numeral, n.Sound ∧ n.chars = s.toList := by
  simp only [Number.text, Option.map_eq_some_iff] at h
  obtain ⟨p, -, rfl⟩ := h
  have hsign : (if p.negative then "-" else "").toList = if p.negative then ['-'] else [] := by
    split <;> rfl
  by_cases hzero : p.significand = 0
  · refine ⟨⟨p.negative, ['0'], ['0'], none⟩,
      sound_withFraction (.zeros 1) (by simp) (.inl rfl) (.zeros 1), ?_⟩
    rw [if_pos hzero, String.toList_append, hsign]
    simp [chars, fractionChars, exponentChars]
  · have hdigits := allDigits_toDigits (shortest p).digits
    have hlead := head?_toDigits (shortest_ne_zero hzero)
    have hplain := exists_sound_of_plain hdigits Nat.toDigits_ne_nil hlead p.negative
      (shortest p).exponent
    have hscientific := exists_sound_of_scientific hdigits Nat.toDigits_ne_nil hlead p.negative
      (shortest p).exponent
    rw [if_neg hzero, String.toList_append, hsign, String.toList_ofList]
    generalize (if p.negative then ['-'] else []) = sign at hplain hscientific ⊢
    split
    · exact hplain
    · exact hscientific

end Floating

end Numeral

end WorkerGuard.Json
