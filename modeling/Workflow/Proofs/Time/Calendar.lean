import Workflow.Time.Calendar

/-!
# Dates and days

Every day has a date in one of twelve months, and the date stands for that day.  Both ways go over
years that are counted from March, in eras of 400 years.
-/

namespace Workflow.Time

/-- A day of an era of 400 years lies in one of its years, which are counted from March. -/
theorem dayOfYear_bounds {d y : Int} (h0 : 0 ≤ d) (h1 : d < 146097)
    (hy : y = (d - d / 1460 + d / 36524 - d / 146096) / 365) :
    0 ≤ y ∧ y < 400 ∧ 0 ≤ d - (365 * y + y / 4 - y / 100) ∧
      d - (365 * y + y / 4 - y / 100) ≤ 365 := by
  -- Once it is known which century the day and the year lie in, all is linear.
  obtain h | h | h | h | h : d / 36524 = 0 ∨ d / 36524 = 1 ∨ d / 36524 = 2 ∨ d / 36524 = 3 ∨
    d / 36524 = 4 := by omega
  all_goals
    obtain hlast | hlast : d / 146096 = 0 ∨ d / 146096 = 1 := by omega
    all_goals
      obtain hc | hc | hc | hc : y / 100 = 0 ∨ y / 100 = 1 ∨ y / 100 = 2 ∨ y / 100 = 3 := by
        omega
      all_goals refine ⟨?_, ?_, ?_, ?_⟩ <;> omega

/-- A day of a year that is counted from March lies in one of its months. -/
theorem month_bounds {d m : Int} (h0 : 0 ≤ d) (h1 : d ≤ 365) (hm : m = (5 * d + 2) / 153) :
    0 ≤ m ∧ m ≤ 11 ∧ 1 ≤ d - (153 * m + 2) / 5 + 1 ∧ d - (153 * m + 2) / 5 + 1 ≤ 31 := by
  omega

/-- The date of a day of a month that is counted from March, in a year of an era. -/
def Date.ofMarch (era year month day : Int) : Date :=
  ⟨year + era * 400 + (if (if month < 10 then month + 3 else month - 9) ≤ 2 then 1 else 0),
    (if month < 10 then month + 3 else month - 9).toNat, day.toNat⟩

section

variable {e y m d : Int}

theorem ofMarch_month (h0 : 0 ≤ m) (h1 : m ≤ 11) :
    ((Date.ofMarch e y m d).month : Int) = if m < 10 then m + 3 else m - 9 := by
  simp only [Date.ofMarch]
  split <;> omega

theorem daysFromMarch_ofMarch (hy0 : 0 ≤ y) (hy1 : y < 400) (hm0 : 0 ≤ m) (hm1 : m ≤ 11)
    (hd : 0 ≤ d) :
    daysFromMarch (Date.ofMarch e y m d) =
      e * 146097 + y * 365 + y / 4 - y / 100 + ((153 * m + 2) / 5 + d - 1) := by
  have hshift : (((Date.ofMarch e y m d).month : Int) + 9) % 12 = m := by
    rw [ofMarch_month hm0 hm1]
    split <;> omega
  have hyear : (if (Date.ofMarch e y m d).month ≤ 2 then (Date.ofMarch e y m d).year - 1
      else (Date.ofMarch e y m d).year) = y + e * 400 := by
    simp only [Date.ofMarch]
    split <;> split <;> omega
  have hera : Int.fdiv (y + e * 400) 400 = e := by
    rw [Int.fdiv_eq_ediv_of_nonneg _ (by decide)]
    omega
  have hday : ((Date.ofMarch e y m d).day : Int) = d := Int.toNat_of_nonneg hd
  simp only [daysFromMarch, hshift, hyear, hera, hday, Int.add_sub_cancel]

end

/-- The date of a day, counted from March, with the day that it is counted back to. -/
theorem exists_ofMarch (days : Int) :
    ∃ e y m d, (0 ≤ y ∧ y < 400) ∧ (0 ≤ m ∧ m ≤ 11) ∧ (1 ≤ d ∧ d ≤ 31) ∧
      Date.ofDays days = Date.ofMarch e y m d ∧
      days + 719468 =
        e * 146097 + y * 365 + y / 4 - y / 100 + ((153 * m + 2) / 5 + d - 1) := by
  have hera : Int.fdiv (days + 719468) 146097 = (days + 719468) / 146097 :=
    Int.fdiv_eq_ediv_of_nonneg _ (by decide)
  obtain ⟨hy0, hy1, hd0, hd1⟩ := dayOfYear_bounds
    (d := days + 719468 - (days + 719468) / 146097 * 146097) (by omega) (by omega) rfl
  obtain ⟨hm0, hm1, hday0, hday1⟩ := month_bounds hd0 hd1 rfl
  refine ⟨(days + 719468) / 146097, _, _, _, ⟨hy0, hy1⟩, ⟨hm0, hm1⟩, ⟨hday0, hday1⟩, ?_, by omega⟩
  rw [Date.ofDays, hera]
  rfl

theorem toDays_ofDays (days : Int) : (Date.ofDays days).toDays = days := by
  obtain ⟨e, y, m, d, hy, hm, hd, hdate, hdays⟩ := exists_ofMarch days
  rw [hdate, Date.toDays, daysFromMarch_ofMarch hy.1 hy.2 hm.1 hm.2 (by omega), ← hdays]
  omega

theorem ofDays_month (days : Int) :
    1 ≤ (Date.ofDays days).month ∧ (Date.ofDays days).month ≤ 12 := by
  obtain ⟨e, y, m, d, hy, hm, hd, hdate, -⟩ := exists_ofMarch days
  have hmonth := ofMarch_month (e := e) (y := y) (d := d) hm.1 hm.2
  rw [hdate]
  split at hmonth <;> omega

theorem ofDays_day (days : Int) :
    1 ≤ (Date.ofDays days).day ∧ (Date.ofDays days).day ≤ 31 := by
  obtain ⟨e, y, m, d, hy, hm, hd, hdate, -⟩ := exists_ofMarch days
  rw [hdate]
  change 1 ≤ d.toNat ∧ d.toNat ≤ 31
  omega

end Workflow.Time
