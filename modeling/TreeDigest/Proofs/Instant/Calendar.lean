import Mathlib
import TreeDigest.Instant.Calendar

/-!
Days and dates.

The calendar repeats after an era of four hundred years, which starts in March. So a day is given
by its era, the year of the era and the day of that year, and what has to be seen is that the year
is found from the number of the day in its era: a division by 365 after the leap days have been
taken away.

* `exists_yearDay` splits the days of an era into years, and `yearOfEra_daysBefore` finds the year.
* `toDays_ofDays`: a day is found again from its date.
* `ofDays_bounds`: the month and the day of a date are those of a calendar.
-/

namespace TreeDigest.Date

/-! ### The years of an era -/

/-- The number of days of an era before one of its years. -/
def daysBefore (y : ℤ) : ℤ := 365 * y + y / 4 - y / 100

/-- The year of its era in which a day lies that is given by its number in the era. -/
def yearOfEra (n : ℤ) : ℤ := (n - n / 1460 + n / 36524 - n / 146096) / 365

/-- A day of a year of an era: only years that end with a leap day have a day 365. -/
structure IsYearDay (y k : ℤ) : Prop where
  year_nonneg : 0 ≤ y
  year_lt : y < 400
  day_nonneg : 0 ≤ k
  day_le : k ≤ 365
  leap : k = 365 → y % 4 = 3 ∧ (y % 100 = 99 → y = 399)

/-- **The year of a day**: taking away the leap days leaves 365 days for each year. -/
lemma yearOfEra_daysBefore {y k : ℤ} (hk : IsYearDay y k) : yearOfEra (daysBefore y + k) = y := by
  obtain ⟨hy0, hy1, hk0, hk1, hleap⟩ := hk
  have hdays : daysBefore y = 365 * y + y / 4 - y / 100 := rfl
  have hcenturies :
      (daysBefore y + k) / 36524 - (daysBefore y + k) / 146096 = y / 100 := by
    rw [hdays]
    by_cases hlast : k = 365 ∧ y = 399
    · omega
    · have hcentury : (365 * y + y / 4 - y / 100 + k) / 36524 = y / 100 := by omega
      have hera : (365 * y + y / 4 - y / 100 + k) / 146096 = 0 := by omega
      omega
  -- The last days of a leap year may already count as one leap day more.
  have hfours : (daysBefore y + k) / 1460
      = y / 4 + if y % 4 = 3 ∧ 365 ≤ y / 4 - y / 100 + k then 1 else 0 := by
    rw [hdays]
    split <;> omega
  have hcount : daysBefore y + k - (daysBefore y + k) / 1460 + (daysBefore y + k) / 36524
      - (daysBefore y + k) / 146096
      = 365 * y + (k - if y % 4 = 3 ∧ 365 ≤ y / 4 - y / 100 + k then 1 else 0) := by
    omega
  rw [yearOfEra, hcount]
  split <;> omega

/-- Every day of an era is a day of one of its years. -/
lemma exists_yearDay {n : ℤ} (h0 : 0 ≤ n) (h1 : n < 146097) :
    ∃ y k, n = daysBefore y + k ∧ IsYearDay y k := by
  -- The century, the four years in it, and the year of these.
  obtain ⟨c, hc⟩ : ∃ c, c = min (n / 36524) 3 := ⟨_, rfl⟩
  obtain ⟨r, hr⟩ : ∃ r, r = n - 36524 * c := ⟨_, rfl⟩
  obtain ⟨q, hq⟩ : ∃ q, q = r / 1461 := ⟨_, rfl⟩
  obtain ⟨b, hb⟩ : ∃ b, b = min (r % 1461 / 365) 3 := ⟨_, rfl⟩
  have hcentury : 0 ≤ c ∧ c ≤ 3 := by omega
  have hrest : 0 ≤ r ∧ r ≤ 36524 ∧ (r = 36524 → c = 3) := by omega
  have hfours : 0 ≤ q ∧ q ≤ 24 := by omega
  have hyears : 0 ≤ b ∧ b ≤ 3 := by omega
  have hleap : (100 * c + 4 * q + b) / 4 = 25 * c + q := by omega
  have hhundred : (100 * c + 4 * q + b) / 100 = c := by omega
  refine ⟨100 * c + 4 * q + b, r - 1461 * q - 365 * b, ?_, ?_⟩
  · rw [daysBefore, hleap, hhundred]
    omega
  · exact {
      year_nonneg := by omega
      year_lt := by omega
      day_nonneg := by omega
      day_le := by omega
      leap := by
        intro hk
        omega }

/-! ### Dates -/

/-- The date of a day of a year of an era, and the month counted from March in which it lies. The
days from March to December belong to the year in which they are counted, and those of January and
February to the next one. -/
def ofYearDay (era y k m : ℤ) : Date :=
  if m < 10 then ⟨y + era * 400, (m + 3).toNat, (k - (153 * m + 2) / 5 + 1).toNat⟩
  else ⟨y + era * 400 + 1, (m - 9).toNat, (k - (153 * m + 2) / 5 + 1).toNat⟩

/-- Every date is that of a day of a year of an era. -/
lemma ofDays_eq (d : ℤ) : ∃ era y k, d = era * 146097 + daysBefore y + k - 719468
    ∧ IsYearDay y k ∧ ofDays d = ofYearDay era y k ((5 * k + 2) / 153) := by
  obtain ⟨y, k, hn, hk⟩ := exists_yearDay (n := (d + 719468) % 146097)
    (Int.emod_nonneg _ (by decide)) (Int.emod_lt_of_pos _ (by decide))
  have hyear := yearOfEra_daysBefore hk
  have hday : (d + 719468) % 146097 - daysBefore y = k := by omega
  refine ⟨(d + 719468) / 146097, y, k, by omega, hk, ?_⟩
  rw [← hn, yearOfEra] at hyear
  rw [daysBefore] at hday
  simp only [ofDays, hyear, hday, ofYearDay]
  have hmonth : 0 ≤ (5 * k + 2) / 153 := by
    have := hk.day_nonneg
    omega
  by_cases hlt : (5 * k + 2) / 153 < 10
  · have hlate : ¬ (5 * k + 2) / 153 + 3 ≤ 2 := by omega
    simp only [hlt, hlate, if_true, if_false, add_zero]
  · have hle : (5 * k + 2) / 153 - 9 ≤ 2 := by
      have := hk.day_le
      omega
    simp only [hlt, hle, if_true, if_false]

/-- The number of a day of a year of an era. -/
lemma toDays_ofYearDay {era y k m : ℤ} (hk : IsYearDay y k) (hm : (5 * k + 2) / 153 = m) :
    toDays (ofYearDay era y k m) = era * 146097 + daysBefore y + k - 719468 := by
  obtain ⟨hy0, hy1, hk0, hk1, -⟩ := hk
  have hera : (y + era * 400) / 400 = era := by omega
  have hyear : (y + era * 400) % 400 = y := by omega
  have hday : 0 ≤ k - (153 * m + 2) / 5 + 1 := by omega
  rw [ofYearDay]
  split
  · next hlt =>
      have hmonth : ¬ (m + 3).toNat ≤ 2 := by omega
      have hmarch : (((m + 3).toNat : ℤ) + 9) % 12 = m := by omega
      simp only [toDays, daysBefore, if_neg hmonth, hmarch, hera, hyear, Int.toNat_of_nonneg hday]
      omega
  · next hge =>
      have hmonth : (m - 9).toNat ≤ 2 := by omega
      have hmarch : (((m - 9).toNat : ℤ) + 9) % 12 = m := by omega
      simp only [toDays, daysBefore, if_pos hmonth, hmarch, add_sub_cancel_right, hera, hyear,
        Int.toNat_of_nonneg hday]
      omega

/-- **A day is found again from its date.** -/
theorem toDays_ofDays (d : ℤ) : toDays (ofDays d) = d := by
  obtain ⟨era, y, k, hd, hk, hdate⟩ := ofDays_eq d
  rw [hdate, toDays_ofYearDay hk rfl, hd]

/-- A year that does not have a leap day at its end has 365 days. -/
lemma IsYearDay.lt_of_not_isLeap {y k : ℤ} (hk : IsYearDay y k) (era : ℤ)
    (hyear : ¬ isLeap (y + era * 400 + 1) = true) : k < 365 := by
  obtain ⟨hy0, hy1, hk0, hk1, hleap⟩ := hk
  by_contra hge
  obtain ⟨hfour, hhundred⟩ := hleap (by omega)
  refine hyear ?_
  simp only [isLeap, Bool.and_eq_true, Bool.or_eq_true, decide_eq_true_eq, bne_iff_ne]
  omega

/-- **A date lies in the calendar**: it has one of twelve months, and one of the days of this month
in its year. -/
theorem ofDays_bounds (d : ℤ) : 1 ≤ (ofDays d).month ∧ (ofDays d).month ≤ 12
    ∧ 1 ≤ (ofDays d).day ∧ (ofDays d).day ≤ daysIn (ofDays d).year (ofDays d).month := by
  obtain ⟨era, y, k, hd, hk, hdate⟩ := ofDays_eq d
  have hleap := hk.lt_of_not_isLeap era
  obtain ⟨-, -, hk0, hk1, -⟩ := hk
  obtain ⟨m, hm⟩ : ∃ m, (5 * k + 2) / 153 = m := ⟨_, rfl⟩
  have h0 : 0 ≤ m := by omega
  have h11 : m ≤ 11 := by omega
  rw [hdate, hm, ofYearDay]
  -- Only the length of the last month depends on the year.
  interval_cases m
  case «11» =>
    by_cases hyear : isLeap (y + era * 400 + 1) = true
    · simp [daysIn, hyear]
      omega
    · have := hleap hyear
      simp [daysIn, hyear]
      omega
  all_goals
    simp [daysIn]
    omega

end TreeDigest.Date
