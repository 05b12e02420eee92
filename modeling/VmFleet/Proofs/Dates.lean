/-
The calendar: the date of a day exists and counts back to that day, and later
days have later dates.
-/
import Mathlib.Tactic.IntervalCases
import VmFleet.Time.Calendar

namespace VmFleet.Date

/-! ## Years that run from March to February -/

/-- The days that the years before have, counted from the year 0. -/
def daysBefore (year : Int) : Int :=
  365 * year + year / 4 - year / 100 + year / 400

/-- The date of a day of a year that runs from March to February. -/
def ofYearDay (year day : Int) : Date :=
  let monthFromMarch : Int := (5 * day + 2) / 153
  let dayOfMonth : Int := day - (153 * monthFromMarch + 2) / 5 + 1
  let month : Int := if monthFromMarch < 10 then monthFromMarch + 3 else monthFromMarch - 9
  ⟨if month ≤ 2 then year + 1 else year, month.toNat, dayOfMonth.toNat⟩

/-- The year has the day: its last day is a leap day. -/
def HasDay (year day : Int) : Prop :=
  0 ≤ day ∧ (day ≤ 364 ∨ day = 365 ∧ isLeapYear (year + 1) = true)

theorem isLeapYear_iff {year : Int} :
    isLeapYear year = true ↔ year % 4 = 0 ∧ (year % 100 ≠ 0 ∨ year % 400 = 0) := by
  simp [isLeapYear]

theorem daysBefore_succ (year : Int) :
    daysBefore (year + 1) = daysBefore year + if isLeapYear (year + 1) then 366 else 365 := by
  simp only [isLeapYear_iff, daysBefore]
  split <;> omega

theorem daysBefore_mono {year year' : Int} (h : year ≤ year') :
    daysBefore year ≤ daysBefore year' := by
  simp only [daysBefore]
  omega

theorem HasDay.lt_daysBefore_succ {year day : Int} (h : HasDay year day) :
    daysBefore year + day < daysBefore (year + 1) := by
  obtain ⟨-, short | ⟨rfl, leap⟩⟩ := h
  · rw [daysBefore_succ]
    split <;> omega
  · rw [daysBefore_succ, if_pos leap]
    omega

/-! ## Cycles of 400 years -/

/-- The year of a day of a cycle, from the days less the leap days among them. -/
def yearOfEra (d : Int) : Int :=
  (d - d / 1460 + d / 36524 - d / 146096) / 365

/-- It is right for the day `p` of the year `r` in the group `q` of four years in the century
`c`. -/
theorem yearOfEra_eq {d c q r p : Int} (hd : d = 36524 * c + 1461 * q + 365 * r + p)
    (hc : 0 ≤ c ∧ c ≤ 3) (hq : 0 ≤ q ∧ q ≤ 24) (hr : 0 ≤ r ∧ r ≤ 3) (hp : 0 ≤ p)
    (last : p ≤ 364 ∨ p = 365 ∧ r = 3 ∧ (q ≤ 23 ∨ c = 3)) :
    yearOfEra d = 100 * c + 4 * q + r := by
  have groups : d / 1460 = 25 * c + q + if 1460 ≤ 24 * c + q + 365 * r + p then 1 else 0 := by
    split <;> omega
  have centuries : d / 36524 - d / 146096 = c := by
    by_cases inner : 1461 * q + 365 * r + p < 36524
    · have century : d / 36524 = c := by omega
      have cycle : d / 146096 = 0 := by omega
      omega
    · have c_eq : c = 3 := by omega
      omega
  have year : (d - d / 1460 + c) / 365 = 100 * c + 4 * q + r := by
    rw [groups]
    split <;> omega
  simp only [yearOfEra]
  omega

theorem yearOfEra_hasDay {d : Int} (lower : 0 ≤ d) (upper : d < 146097) :
    HasDay (yearOfEra d) (d - (365 * yearOfEra d + yearOfEra d / 4 - yearOfEra d / 100)) ∧
      0 ≤ yearOfEra d ∧ yearOfEra d ≤ 399 := by
  obtain ⟨c, rest, hd, hc, hrest⟩ : ∃ c rest, d = 36524 * c + rest ∧ (0 ≤ c ∧ c ≤ 3) ∧
      0 ≤ rest ∧ (rest < 36524 ∨ rest = 36524 ∧ c = 3) :=
    ⟨min (d / 36524) 3, d - 36524 * min (d / 36524) 3, by omega, by omega, by omega⟩
  obtain ⟨q, days, hrest, hq, hdays⟩ : ∃ q days, rest = 1461 * q + days ∧ (0 ≤ q ∧ q ≤ 24) ∧
      0 ≤ days ∧ (days < 1460 ∨ days = 1460 ∧ (q ≤ 23 ∨ c = 3)) :=
    ⟨rest / 1461, rest % 1461, by omega, by omega, by omega⟩
  obtain ⟨r, p, hdays, hr, hp, last⟩ : ∃ r p, days = 365 * r + p ∧ (0 ≤ r ∧ r ≤ 3) ∧ 0 ≤ p ∧
      (p ≤ 364 ∨ p = 365 ∧ r = 3 ∧ (q ≤ 23 ∨ c = 3)) :=
    ⟨min (days / 365) 3, days - 365 * min (days / 365) 3, by omega, by omega, by omega, by omega⟩
  rw [yearOfEra_eq (d := d) (by omega) hc hq hr hp last]
  have quarter : (100 * c + 4 * q + r) / 4 = 25 * c + q := by omega
  have century : (100 * c + 4 * q + r) / 100 = c := by omega
  refine ⟨⟨by omega, ?_⟩, by omega, by omega⟩
  rcases last with short | ⟨long, r_eq, leap⟩
  · exact .inl (by omega)
  · exact .inr ⟨by omega, isLeapYear_iff.mpr (by omega)⟩

theorem daysBefore_add_era {year : Int} (lower : 0 ≤ year) (upper : year ≤ 399) (era : Int) :
    daysBefore (year + era * 400) = 365 * year + year / 4 - year / 100 + era * 146097 := by
  simp only [daysBefore]
  omega

theorem HasDay.add_era {year day : Int} (h : HasDay year day) (era : Int) :
    HasDay (year + era * 400) day := by
  obtain ⟨first, last⟩ := h
  rw [isLeapYear_iff] at last
  refine ⟨first, ?_⟩
  rw [isLeapYear_iff]
  omega

/-- Every day is a day of a year, and has its date. -/
theorem exists_yearDay (n : Int) : ∃ year day, ofDays n = ofYearDay year day ∧ HasDay year day ∧
    daysBefore year + day = n + 719468 := by
  obtain ⟨d, hd⟩ : ∃ d, d = (n + 719468) % 146097 := ⟨_, rfl⟩
  obtain ⟨has, lower, upper⟩ := yearOfEra_hasDay (d := d) (by omega) (by omega)
  refine ⟨yearOfEra d + (n + 719468) / 146097 * 400,
    d - (365 * yearOfEra d + yearOfEra d / 4 - yearOfEra d / 100), ?_, has.add_era _, ?_⟩
  · rw [hd]
    rfl
  · rw [daysBefore_add_era lower upper]
    omega

/-! ## Dates of days -/

/-- The date is earlier. -/
def Before (d e : Date) : Prop :=
  d.year < e.year ∨ d.year = e.year ∧ (d.month < e.month ∨ d.month = e.month ∧ d.day < e.day)

variable {year day year' day' : Int}

theorem exists_monthDay (h : HasDay year day) : ∃ m k : Nat, m ≤ 11 ∧ 1 ≤ k ∧
    day + 1 = (153 * m + 2) / 5 + k ∧ (5 * day + 2) / 153 = m ∧
    ofYearDay year day = if m < 10 then ⟨year, m + 3, k⟩ else ⟨year + 1, m - 9, k⟩ := by
  obtain ⟨first, last⟩ := h
  obtain ⟨m, hm⟩ : ∃ m : Nat, (5 * day + 2) / 153 = m := ⟨_, (Int.toNat_of_nonneg (by omega)).symm⟩
  refine ⟨m, (day - (153 * m + 2) / 5 + 1).toNat, by omega, by omega, by omega, hm, ?_⟩
  simp only [ofYearDay, hm]
  by_cases early : m < 10
  · have spring : (m : Int) < 10 := by omega
    have late : ¬ (m + 3 : Int) ≤ 2 := by omega
    have month : (m + 3 : Int).toNat = m + 3 := by omega
    rw [if_pos early, if_pos spring, if_neg late, month]
  · have winter : ¬ (m : Int) < 10 := by omega
    have soon : (m - 9 : Int) ≤ 2 := by omega
    have month : (m - 9 : Int).toNat = m - 9 := by omega
    rw [if_neg early, if_neg winter, if_pos soon, month]

theorem ofYearDay_valid (h : HasDay year day) : (ofYearDay year day).Valid := by
  obtain ⟨m, k, months, first, same, month, date⟩ := exists_monthDay h
  obtain ⟨-, last⟩ := h
  rw [date]
  by_cases early : m < 10
  · rw [if_pos early]
    show 1 ≤ m + 3 ∧ m + 3 ≤ 12 ∧ 1 ≤ k ∧ k ≤ daysInMonth year (m + 3)
    refine ⟨by omega, by omega, first, ?_⟩
    interval_cases m <;> simp only [daysInMonth] <;> omega
  · rw [if_neg early]
    show 1 ≤ m - 9 ∧ m - 9 ≤ 12 ∧ 1 ≤ k ∧ k ≤ daysInMonth (year + 1) (m - 9)
    have winter : m = 10 ∨ m = 11 := by omega
    refine ⟨by omega, by omega, first, ?_⟩
    rcases winter with rfl | rfl
    · simp only [daysInMonth]
      omega
    · rcases last with short | ⟨long, leap⟩
      · simp only [daysInMonth]
        split <;> omega
      · simp only [daysInMonth, if_pos leap]
        omega

theorem toDays_ofYearDay (h : HasDay year day) :
    (ofYearDay year day).toDays = daysBefore year + day - 719468 := by
  obtain ⟨m, k, months, first, same, -, date⟩ := exists_monthDay h
  have count : ∀ y : Int, y / 400 * 146097 + (y % 400 * 365 + y % 400 / 4 - y % 400 / 100 +
      ((153 * m + 2) / 5 + k - 1)) = daysBefore y + day := by
    intro y
    simp only [daysBefore]
    omega
  rw [date]
  by_cases early : m < 10
  · have late : ¬ m + 3 ≤ 2 := by omega
    have month : ((m + 3 : Nat) : Int) - 3 = m := by omega
    rw [if_pos early]
    simp only [toDays, if_neg late, month, count]
  · have soon : m - 9 ≤ 2 := by omega
    have month : ((m - 9 : Nat) : Int) + 9 = m := by omega
    have same_year : year + 1 - 1 = year := by omega
    rw [if_neg early]
    simp only [toDays, if_pos soon, month, same_year, count]

theorem ofYearDay_before (h : HasDay year day) (h' : HasDay year' day')
    (later : year < year' ∨ year = year' ∧ day < day') :
    (ofYearDay year day).Before (ofYearDay year' day') := by
  obtain ⟨m, k, months, first, same, month, date⟩ := exists_monthDay h
  obtain ⟨m', k', months', first', same', month', date'⟩ := exists_monthDay h'
  rw [date, date', Before]
  split <;> split <;> dsimp only <;> omega

theorem ofDays_valid (n : Int) : (ofDays n).Valid := by
  obtain ⟨year, day, date, has, -⟩ := exists_yearDay n
  rw [date]
  exact ofYearDay_valid has

/-- The date of a day counts back to the day. -/
theorem toDays_ofDays (n : Int) : (ofDays n).toDays = n := by
  obtain ⟨year, day, date, has, same⟩ := exists_yearDay n
  rw [date, toDays_ofYearDay has]
  omega

theorem ofDays_before {n m : Int} (h : n < m) : (ofDays n).Before (ofDays m) := by
  obtain ⟨year, day, date, has, same⟩ := exists_yearDay n
  obtain ⟨year', day', date', has', same'⟩ := exists_yearDay m
  rw [date, date']
  refine ofYearDay_before has has' ?_
  rcases Int.lt_trichotomy year year' with earlier | rfl | later
  · exact .inl earlier
  · exact .inr ⟨rfl, by omega⟩
  · have mono := daysBefore_mono (Int.add_one_le_of_lt later)
    have within := has'.lt_daysBefore_succ
    have first := has.1
    omega

theorem ofDays_before_iff {n m : Int} : (ofDays n).Before (ofDays m) ↔ n < m := by
  refine ⟨fun before => ?_, ofDays_before⟩
  rcases Int.lt_trichotomy n m with earlier | rfl | later
  · exact earlier
  · simp only [Before] at before
    omega
  · have after := ofDays_before later
    simp only [Before] at before after
    omega

theorem ofDays_inj {n m : Int} : ofDays n = ofDays m ↔ n = m :=
  ⟨fun same => by rw [← toDays_ofDays n, same, toDays_ofDays], congrArg ofDays⟩

end VmFleet.Date
