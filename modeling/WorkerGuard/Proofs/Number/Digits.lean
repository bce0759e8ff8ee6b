/-!
# WorkerGuard.Proofs.Number.Digits

Digits of whole numbers as they stand in texts.

* `AllDigits`: a text of digits only; `AllDigits.takeWhile`, `AllDigits.dropWhile`: such a text is
  what a reader of digits takes.
* `allDigits_toDigits`, `head?_toDigits`: what the decimal digits of a number are.
-/

namespace WorkerGuard.Number

def AllDigits (cs : List Char) : Prop := ∀ c ∈ cs, c.isDigit = true

namespace AllDigits

variable {ds ds' rest : List Char}

theorem append (h : AllDigits ds) (h' : AllDigits ds') : AllDigits (ds ++ ds') :=
  fun c hc => (List.mem_append.1 hc).elim (h c) (h' c)

theorem zeros (n : Nat) : AllDigits (List.replicate n '0') := by
  intro c hc
  rw [List.eq_of_mem_replicate hc]
  rfl

theorem takeWhile (h : AllDigits ds) (hrest : ∀ c ∈ rest.head?, c.isDigit = false) :
    (ds ++ rest).takeWhile Char.isDigit = ds := by
  rw [List.takeWhile_append_of_pos h]
  cases rest with
  | nil => simp
  | cons c r => simp [hrest c rfl]

theorem dropWhile (h : AllDigits ds) (hrest : ∀ c ∈ rest.head?, c.isDigit = false) :
    (ds ++ rest).dropWhile Char.isDigit = rest := by
  rw [List.dropWhile_append_of_pos h]
  cases rest with
  | nil => rfl
  | cons c r => simp [hrest c rfl]

end AllDigits

theorem allDigits_toDigits (n : Nat) : AllDigits (Nat.toDigits 10 n) :=
  fun _ hc => Nat.isDigit_of_mem_toDigits (by decide) (by decide) hc

/-- The digits of a positive number do not start with a zero. -/
theorem head?_toDigits {n : Nat} (hn : n ≠ 0) : (Nat.toDigits 10 n).head? ≠ some '0' := by
  induction n using Nat.strongRecOn with
  | _ n ih =>
    rw [Nat.toDigits_eq_if (by decide)]
    split
    · simpa using hn
    · rw [List.head?_append]
      have hhead := ih (n / 10) (by omega) (by omega)
      obtain ⟨d, ds, hds⟩ :=
        List.exists_cons_of_ne_nil (Nat.toDigits_ne_nil (n := n / 10) (b := 10))
      rw [hds] at hhead ⊢
      exact hhead

end WorkerGuard.Number
