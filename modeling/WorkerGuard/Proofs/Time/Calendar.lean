import WorkerGuard.Time.Calendar

/-!
# WorkerGuard.Proofs.Time.Calendar

Days and dates name each other.

* `InEra`: a day of an era of 400 years, in centuries, spans of four years, years and days.
* `dayNumber_dateOfDay`: the date of a day has that day.
* `isDate_dateOfDay`: the date of a day is one of the calendar.
* `year_dateOfDay`: the years of the days from the earliest to the latest instant.
-/

namespace WorkerGuard.Calendar

/-- Day `n` of an era, counted from a first of March. Only the last year of a span of four may have
a 366th day, and the last span of a century has one only in the last century. -/
structure InEra (n a b c d : Int) : Prop where
  sum : n = 36524 * a + 1461 * b + 365 * c + d
  centuries : 0 ≤ a ∧ a ≤ 3
  spans : 0 ≤ b ∧ b ≤ 24
  years : 0 ≤ c ∧ c ≤ 3
  days : 0 ≤ d ∧ d ≤ 365
  leap : d = 365 → c = 3 ∧ (b < 24 ∨ a = 3)

theorem exists_inEra {n : Int} (h₀ : 0 ≤ n) (h₁ : n < 146097) : ∃ a b c d, InEra n a b c d := by
  by_cases hlast : n = 146096
  · exact ⟨3, 24, 3, 365, ⟨by omega, by omega, by omega, by omega, by omega, by omega⟩⟩
  by_cases hleap : n % 36524 % 1461 = 1460
  · exact ⟨n / 36524, n % 36524 / 1461, 3, 365,
      ⟨by omega, by omega, by omega, by omega, by omega, by omega⟩⟩
  · exact ⟨n / 36524, n % 36524 / 1461, n % 36524 % 1461 / 365, n % 36524 % 1461 % 365,
      ⟨by omega, by omega, by omega, by omega, by omega, by omega⟩⟩

namespace InEra

variable {n a b c d : Int}

theorem centuries_eq (h : InEra n a b c d) : n / 36524 - n / 146096 = a := by
  obtain ⟨hsum, ha, hb, hc, hd, hleap⟩ := h
  by_cases hlast : n = 146096
  · omega
  · have hcentury : n / 36524 = a := by omega
    omega

/-- The days that the formula of the year takes away are the leap days before. -/
theorem year (h : InEra n a b c d) :
    (n - n / 1460 + n / 36524 - n / 146096) / 365 = 100 * a + 4 * b + c := by
  have hcenturies := h.centuries_eq
  obtain ⟨hsum, ha, hb, hc, hd, hleap⟩ := h
  have hspans : n / 1460 = 25 * a + b + (24 * a + b + 365 * c + d) / 1460 := by omega
  omega

theorem start (h : InEra n a b c d) :
    365 * (100 * a + 4 * b + c) + (100 * a + 4 * b + c) / 4 - (100 * a + 4 * b + c) / 100 =
      n - d := by
  obtain ⟨hsum, ha, hb, hc, hd, hleap⟩ := h
  have hspans : (100 * a + 4 * b + c) / 4 = 25 * a + b := by omega
  have hcenturies : (100 * a + 4 * b + c) / 100 = a := by omega
  omega

end InEra

/-- Months counted from March: where they start in the year, and how long they are. -/
theorem month_bounds {d : Int} (h₀ : 0 ≤ d) (h₁ : d ≤ 365) {m day : Int}
    (hm : m = (5 * d + 2) / 153) (hday : day = d - (153 * m + 2) / 5 + 1) :
    0 ≤ m ∧ m ≤ 11 ∧ 1 ≤ day ∧ day ≤ 31 ∧ (m = 11 → day ≤ 29 ∧ (day = 29 → d = 365)) ∧
      (m = 1 ∨ m = 3 ∨ m = 6 ∨ m = 8 → day ≤ 30) := by
  omega

/-- The date that is reached in `y` years, `m` months and `day` days from a March. -/
def sinceMarch (y m day : Int) : Date :=
  ⟨y + (if m < 10 then 0 else 1), (if m < 10 then m + 3 else m - 9).toNat, day.toNat⟩

theorem exists_sinceMarch (n : Int) :
    ∃ a b c d m day, InEra ((n + 719468) % 146097) a b c d ∧ m = (5 * d + 2) / 153 ∧
      day = d - (153 * m + 2) / 5 + 1 ∧
      dateOfDay n =
        sinceMarch ((n + 719468) / 146097 * 400 + (100 * a + 4 * b + c)) m day := by
  obtain ⟨a, b, c, d, h⟩ := exists_inEra (n := (n + 719468) % 146097) (by omega) (by omega)
  refine ⟨a, b, c, d, _, _, h, rfl, rfl, ?_⟩
  have hday : (n + 719468) % 146097 - (365 * (100 * a + 4 * b + c) + (100 * a + 4 * b + c) / 4 -
      (100 * a + 4 * b + c) / 100) = d := by
    rw [h.start]; omega
  obtain ⟨hm₀, hm₁, -⟩ := month_bounds h.days.1 h.days.2 rfl rfl
  simp only [dateOfDay, sinceMarch, h.year, hday, Date.mk.injEq, and_true]
  generalize (5 * d + 2) / 153 = m at *
  split <;> split <;> omega

theorem dayNumber_sinceMarch {y m day : Int} (hm₀ : 0 ≤ m) (hm₁ : m ≤ 11) (hday : 1 ≤ day) :
    dayNumber (sinceMarch y m day) =
      y / 400 * 146097 + (y % 400 * 365 + y % 400 / 4 - y % 400 / 100 +
        ((153 * m + 2) / 5 + day - 1)) - 719468 := by
  simp only [dayNumber, sinceMarch]
  by_cases h : m < 10
  · have hmonth : ((((m + 3).toNat : Nat) : Int) + 9) % 12 = m := by omega
    have hlate : ¬(m + 3).toNat ≤ 2 := by omega
    simp only [if_pos h, if_neg hlate, hmonth]
    omega
  · have hmonth : ((((m - 9).toNat : Nat) : Int) + 9) % 12 = m := by omega
    have hearly : (m - 9).toNat ≤ 2 := by omega
    simp only [if_neg h, if_pos hearly, hmonth]
    omega

theorem dayNumber_dateOfDay (n : Int) : dayNumber (dateOfDay n) = n := by
  obtain ⟨a, b, c, d, m, day, h, hm, hday, hdate⟩ := exists_sinceMarch n
  obtain ⟨hm₀, hm₁, hday₀, -⟩ := month_bounds h.days.1 h.days.2 hm hday
  have hstart := h.start
  have hc := h.centuries
  have hs := h.spans
  have hy := h.years
  rw [hdate, dayNumber_sinceMarch hm₀ hm₁ hday₀]
  generalize hera : (n + 719468) / 146097 = era at *
  have hquot : (era * 400 + (100 * a + 4 * b + c)) / 400 = era := by omega
  have hrem : (era * 400 + (100 * a + 4 * b + c)) % 400 = 100 * a + 4 * b + c := by omega
  rw [hquot, hrem]
  omega

theorem isLeap_iff {y : Int} : isLeap y = true ↔ y % 4 = 0 ∧ (y % 100 ≠ 0 ∨ y % 400 = 0) := by
  simp [isLeap]

/-- The year of March that has a 366th day ends in a leap year. -/
theorem InEra.isLeap_of_days {n a b c d : Int} (h : InEra n a b c d) (hd : d = 365) (era : Int) :
    isLeap (era * 400 + (100 * a + 4 * b + c) + 1) = true := by
  obtain ⟨hc, hlast⟩ := h.leap hd
  have ha := h.centuries
  have hb := h.spans
  rw [isLeap_iff]
  omega

theorem le_daysInMonth {y : Int} {month k : Nat} (hlong : k ≤ 31)
    (hshort : month = 4 ∨ month = 6 ∨ month = 9 ∨ month = 11 → k ≤ 30)
    (hfeb : month = 2 → k ≤ 28 ∨ k ≤ 29 ∧ isLeap y = true) : k ≤ daysInMonth y month := by
  simp only [daysInMonth, Bool.or_eq_true, decide_eq_true_eq, or_assoc]
  split
  · rename_i h
    rcases hfeb h with h₂₈ | ⟨h₂₉, hleap⟩
    · split <;> omega
    · rw [if_pos hleap]; exact h₂₉
  · split
    · rename_i h; exact hshort h
    · exact hlong

theorem isDate_dateOfDay (n : Int) : isDate (dateOfDay n) = true := by
  obtain ⟨a, b, c, d, m, day, h, hm, hday, hdate⟩ := exists_sinceMarch n
  obtain ⟨hm₀, hm₁, hday₀, hday₁, hfeb, hshort⟩ := month_bounds h.days.1 h.days.2 hm hday
  have hmonth : (dateOfDay n).month = (if m < 10 then m + 3 else m - 9).toNat := by rw [hdate]; rfl
  have hdays : (dateOfDay n).day = day.toNat := by rw [hdate]; rfl
  have hlength : (dateOfDay n).day ≤ daysInMonth (dateOfDay n).year (dateOfDay n).month := by
    refine le_daysInMonth (by omega) (fun hthirty => ?_) (fun htwo => ?_)
    · have := hshort (by split at hmonth <;> omega)
      omega
    · have h₁₁ : m = 11 := by split at hmonth <;> omega
      obtain ⟨h₂₉, hlast⟩ := hfeb h₁₁
      by_cases hleap : day = 29
      · refine .inr ⟨by omega, ?_⟩
        rw [hdate, sinceMarch, h₁₁]
        exact h.isLeap_of_days (hlast hleap) _
      · exact .inl (by omega)
  simp only [isDate, Bool.and_eq_true, decide_eq_true_eq]
  refine ⟨⟨⟨?_, ?_⟩, by omega⟩, hlength⟩
  · split at hmonth <;> omega
  · split at hmonth <;> omega

/-- The years of the instants. -/
theorem year_dateOfDay {n : Int} (h₀ : -96465292 ≤ n) (h₁ : n ≤ 95026236) :
    -262143 ≤ (dateOfDay n).year ∧ (dateOfDay n).year ≤ 262142 := by
  obtain ⟨a, b, c, d, m, day, h, hm, hday, hdate⟩ := exists_sinceMarch n
  obtain ⟨hm₀, hm₁, -⟩ := month_bounds h.days.1 h.days.2 hm hday
  obtain ⟨hsum, ha, hb, hc, hd, -⟩ := h
  have hyear : (dateOfDay n).year =
      (n + 719468) / 146097 * 400 + (100 * a + 4 * b + c) + if m < 10 then 0 else 1 := by
    rw [hdate]; rfl
  -- the last instant lies in the hundred and forty-second year of the era 655
  have hera : (n + 719468) / 146097 ≤ 655 := by omega
  split at hyear
  · constructor <;> omega
  · by_cases hlast : (n + 719468) / 146097 = 655
    · have hcentury : a ≤ 1 := by omega
      constructor <;> omega
    · constructor <;> omega

end WorkerGuard.Calendar
