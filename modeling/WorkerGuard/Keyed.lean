/-!
# WorkerGuard.Keyed

Values kept under names, in the order of the names. No name occurs twice.

* `Keyed α`: the collection; the order is part of the type.
* `find?`, `insert`, `erase`: look-up, replacement and removal.
* `find?_insert`, `find?_erase`: what each change does to a look-up.
* `ext_find?`: a collection is its look-up function.
* `count_insert`: how an insertion changes the number of values of a sort.
-/

namespace WorkerGuard

structure Keyed (α : Type) where
  entries : List (String × α)
  ascending : entries.Pairwise (fun a b => a.1 < b.1)

namespace Keyed

variable {α : Type}

def empty : Keyed α := ⟨[], .nil⟩

instance : Inhabited (Keyed α) := ⟨empty⟩

def keys (t : Keyed α) : List String := t.entries.map (·.1)

def values (t : Keyed α) : List α := t.entries.map (·.2)

def findEntry (k : String) : List (String × α) → Option α
  | [] => none
  | e :: r => if k = e.1 then some e.2 else findEntry k r

def find? (t : Keyed α) (k : String) : Option α := findEntry k t.entries

def contains (t : Keyed α) (k : String) : Bool := (t.find? k).isSome

/-- Puts a value under `k`, in place of the one that was there. -/
def insertEntry (k : String) (v : α) : List (String × α) → List (String × α)
  | [] => [(k, v)]
  | e :: r =>
    if k < e.1 then (k, v) :: e :: r
    else if e.1 < k then e :: insertEntry k v r
    else (k, v) :: r

theorem mem_insertEntry {k : String} {v : α} {l : List (String × α)} {e : String × α}
    (h : e ∈ insertEntry k v l) : e = (k, v) ∨ e ∈ l := by
  induction l with
  | nil => simpa [insertEntry] using h
  | cons a r ih =>
    simp only [insertEntry] at h
    split at h
    · simpa using h
    · split at h
      · rcases List.mem_cons.1 h with h | h
        · exact .inr (by simp [h])
        · rcases ih h with h | h
          · exact .inl h
          · exact .inr (by simp [h])
      · rcases List.mem_cons.1 h with h | h
        · exact .inl h
        · exact .inr (by simp [h])

theorem eq_of_not_lt {a b : String} (h₁ : ¬a < b) (h₂ : ¬b < a) : a = b :=
  String.le_antisymm (String.not_lt.1 h₂) (String.not_lt.1 h₁)

theorem ascending_insertEntry {k : String} {v : α} {l : List (String × α)}
    (h : l.Pairwise (fun a b => a.1 < b.1)) :
    (insertEntry k v l).Pairwise (fun a b => a.1 < b.1) := by
  induction l with
  | nil => simp [insertEntry]
  | cons a r ih =>
    obtain ⟨ha, hr⟩ := List.pairwise_cons.1 h
    simp only [insertEntry]
    split
    · rename_i hk
      refine List.pairwise_cons.2 ⟨fun b hb => ?_, h⟩
      rcases List.mem_cons.1 hb with rfl | hb
      · exact hk
      · exact String.lt_trans hk (ha b hb)
    · split
      · rename_i hk
        refine List.pairwise_cons.2 ⟨fun b hb => ?_, ih hr⟩
        rcases mem_insertEntry hb with rfl | hb
        · exact hk
        · exact ha b hb
      · rename_i h₁ h₂
        have : k = a.1 := eq_of_not_lt h₁ h₂
        subst this
        exact List.pairwise_cons.2 ⟨ha, hr⟩

def insert (t : Keyed α) (k : String) (v : α) : Keyed α :=
  ⟨insertEntry k v t.entries, ascending_insertEntry t.ascending⟩

def erase (t : Keyed α) (k : String) : Keyed α :=
  ⟨t.entries.filter (fun e => e.1 != k), t.ascending.filter _⟩

/-- Puts a value under a name that has none. -/
def insertNew? (t : Keyed α) (e : String × α) : Option (Keyed α) :=
  if t.contains e.1 then none else some (t.insert e.1 e.2)

/-- Later pairs replace earlier ones of the same name. -/
def ofList (l : List (String × α)) : Keyed α :=
  l.foldl (fun t e => t.insert e.1 e.2) empty

@[simp] theorem find?_empty (k : String) : (empty : Keyed α).find? k = none := rfl

theorem findEntry_insertEntry (k k' : String) (v : α) (l : List (String × α)) :
    findEntry k' (insertEntry k v l) = if k' = k then some v else findEntry k' l := by
  induction l with
  | nil => rfl
  | cons a r ih =>
    simp only [insertEntry]
    split
    · rfl
    · split
      · rename_i h₂
        by_cases h : k' = k
        · subst h
          have : ¬k' = a.1 := fun h => String.lt_irrefl _ (h ▸ h₂)
          simp [findEntry, ih, this]
        · simp [findEntry, ih, h]
      · rename_i h₁ h₂
        have : k = a.1 := eq_of_not_lt h₁ h₂
        subst this
        by_cases h : k' = a.1 <;> simp [findEntry, h]

@[simp] theorem find?_insert (t : Keyed α) (k k' : String) (v : α) :
    (t.insert k v).find? k' = if k' = k then some v else t.find? k' :=
  findEntry_insertEntry k k' v t.entries

@[simp] theorem contains_insert (t : Keyed α) (k k' : String) (v : α) :
    (t.insert k v).contains k' = (decide (k' = k) || t.contains k') := by
  simp only [contains, find?_insert]
  by_cases h : k' = k <;> simp [h]

theorem contains_insert_of_contains {t : Keyed α} {k k' : String} {v : α}
    (h : t.contains k' = true) : (t.insert k v).contains k' = true := by
  rw [contains_insert, h, Bool.or_true]

theorem findEntry_filter_ne (k k' : String) (l : List (String × α)) :
    findEntry k' (l.filter (fun e => e.1 != k)) = if k' = k then none else findEntry k' l := by
  induction l with
  | nil => simp [findEntry]
  | cons a r ih =>
    by_cases h : a.1 = k
    · subst h
      by_cases h' : k' = a.1
      · subst h'
        simpa using ih
      · simp [findEntry, ih, h']
    · by_cases h' : k' = a.1
      · subst h'
        simp [findEntry, h]
      · simp [findEntry, h, h', ih]

@[simp] theorem find?_erase (t : Keyed α) (k k' : String) :
    (t.erase k).find? k' = if k' = k then none else t.find? k' :=
  findEntry_filter_ne k k' t.entries

theorem find?_eq_some_iff {t : Keyed α} {k : String} {v : α} :
    t.find? k = some v ↔ (k, v) ∈ t.entries := by
  obtain ⟨l, hl⟩ := t
  show findEntry k l = some v ↔ (k, v) ∈ l
  induction l with
  | nil => simp [findEntry]
  | cons a r ih =>
    obtain ⟨ha, hr⟩ := List.pairwise_cons.1 hl
    by_cases h : k = a.1
    · subst h
      simp only [findEntry, if_true, List.mem_cons, Option.some.injEq]
      constructor
      · intro h; exact .inl (Prod.ext rfl h.symm)
      · rintro (h | h)
        · exact (congrArg (·.2) h).symm
        · exact absurd (ha _ h) (String.lt_irrefl _)
    · simp only [findEntry, if_neg h, List.mem_cons, ih hr]
      constructor
      · exact .inr
      · rintro (h' | h')
        · exact absurd (congrArg (·.1) h') h
        · exact h'

theorem mem_keys_iff {t : Keyed α} {k : String} : k ∈ t.keys ↔ (t.find? k).isSome := by
  rw [Option.isSome_iff_exists]
  simp only [keys, List.mem_map, find?_eq_some_iff]
  constructor
  · rintro ⟨e, he, rfl⟩; exact ⟨e.2, he⟩
  · rintro ⟨v, hv⟩; exact ⟨_, hv, rfl⟩

theorem keys_ascending (t : Keyed α) : t.keys.Pairwise (· < ·) := by
  rw [keys, List.pairwise_map]; exact t.ascending

/-- Two collections with the same look-ups are the same. -/
theorem ext_find? {s t : Keyed α} (h : ∀ k, s.find? k = t.find? k) : s = t := by
  obtain ⟨l, hl⟩ := s
  obtain ⟨m, hm⟩ := t
  have hmem : ∀ e, e ∈ l ↔ e ∈ m := fun e =>
    (find?_eq_some_iff (t := ⟨l, hl⟩)).symm.trans
      ((iff_of_eq (congrArg (· = some e.2) (h e.1))).trans
        (find?_eq_some_iff (t := ⟨m, hm⟩)))
  have : l = m := by
    clear h
    induction l generalizing m with
    | nil =>
      cases m with
      | nil => rfl
      | cons b m => exact absurd ((hmem b).2 (by simp)) (by simp)
    | cons a l ih =>
      cases m with
      | nil => exact absurd ((hmem a).1 (by simp)) (by simp)
      | cons b m =>
        obtain ⟨ha, hl'⟩ := List.pairwise_cons.1 hl
        obtain ⟨hb, hm'⟩ := List.pairwise_cons.1 hm
        have hab : a = b := by
          rcases List.mem_cons.1 ((hmem a).1 (by simp)) with h | h
          · exact h
          · rcases List.mem_cons.1 ((hmem b).2 (by simp)) with h' | h'
            · exact h'.symm
            · exact absurd (String.lt_trans (hb a h) (ha b h')) (String.lt_irrefl _)
        subst hab
        refine congrArg _ (ih hl' m hm' fun e => ?_)
        constructor
        · intro he
          rcases List.mem_cons.1 ((hmem e).1 (by simp [he])) with rfl | h
          · exact absurd (ha _ he) (String.lt_irrefl _)
          · exact h
        · intro he
          rcases List.mem_cons.1 ((hmem e).2 (by simp [he])) with rfl | h
          · exact absurd (hb _ he) (String.lt_irrefl _)
          · exact h
  subst this
  rfl

/-- In an ascending list nothing is found under a name before the first one. -/
theorem findEntry_eq_none {k : String} {l : List (String × α)} (h : ∀ e ∈ l, k < e.1) :
    findEntry k l = none := by
  induction l with
  | nil => rfl
  | cons a r ih =>
    have hk : k < a.1 := h a (by simp)
    have hne : ¬k = a.1 := fun he => String.lt_irrefl _ (he ▸ hk)
    simp only [findEntry, if_neg hne]
    exact ih fun e he => h e (by simp [he])

theorem count_insertEntry (p : α → Bool) {k : String} {v : α} {l : List (String × α)}
    (h : l.Pairwise (fun a b => a.1 < b.1)) :
    (insertEntry k v l).countP (fun e => p e.2) + (findEntry k l).toList.countP p =
      l.countP (fun e => p e.2) + [v].countP p := by
  induction l with
  | nil => simp [insertEntry, findEntry]
  | cons a r ih =>
    obtain ⟨ha, hr⟩ := List.pairwise_cons.1 h
    simp only [insertEntry]
    split
    · rename_i hk
      have hnone : findEntry k (a :: r) = none := by
        refine findEntry_eq_none fun e he => ?_
        rcases List.mem_cons.1 he with rfl | he
        · exact hk
        · exact String.lt_trans hk (ha e he)
      rw [hnone]
      simp [List.countP_cons]
    · split
      · rename_i hk
        have hne : ¬k = a.1 := fun he => String.lt_irrefl _ (he ▸ hk)
        simp only [findEntry, if_neg hne, List.countP_cons]
        have := ih hr
        simp only [List.countP_cons] at this
        omega
      · rename_i h₁ h₂
        have : k = a.1 := eq_of_not_lt h₁ h₂
        subst this
        simp only [findEntry, if_true, Option.toList_some, List.countP_cons]
        omega

/-- The value that was replaced no longer counts, the new one does. -/
theorem count_insert (t : Keyed α) (p : α → Bool) (k : String) (v : α) :
    ((t.insert k v).values.filter p).length + ((t.find? k).toList.filter p).length =
      (t.values.filter p).length + ([v].filter p).length := by
  simp only [← List.countP_eq_length_filter, values, List.countP_map]
  exact count_insertEntry p t.ascending

theorem count_insert_succ (t : Keyed α) (p : α → Bool) (k : String) (v : α) :
    ((t.insert k v).values.filter p).length ≤ (t.values.filter p).length + 1 := by
  have h := t.count_insert p k v
  have hv : ([v].filter p).length ≤ 1 := List.length_filter_le _ _
  omega

/-- A value that does not count, or takes the place of one that counts, makes no more of them. -/
theorem count_insert_le {t : Keyed α} {p : α → Bool} {k : String} {v : α}
    (hv : p v = true → ∃ w, t.find? k = some w ∧ p w = true) :
    ((t.insert k v).values.filter p).length ≤ (t.values.filter p).length := by
  have h := t.count_insert p k v
  cases hp : p v with
  | false =>
    have : ([v].filter p).length = 0 := by simp [hp]
    omega
  | true =>
    obtain ⟨w, hw, hpw⟩ := hv hp
    rw [hw] at h
    have h₁ : ([v].filter p).length = 1 := by simp [hp]
    have h₂ : ((some w).toList.filter p).length = 1 := by simp [hpw]
    omega

end Keyed
end WorkerGuard
