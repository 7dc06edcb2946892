import Mathlib.Logic.Basic

/-!
# The proleptic Gregorian calendar

Day numbers are Julian day numbers. `julianDayFromDate` and `getDateFromJulianDay`
are the two integer formulas of Qt's `qdatetime.cpp`; there is no year 0, the year
before 1 is -1. The day number of a date read off a day number is that day number
again, and what is read off is always a date that exists.
-/

namespace Gregorian

structure YMD where
  year : Int
  month : Int
  day : Int
deriving DecidableEq, Repr

/-- The year on a line without a gap: year -1 counts as 0. -/
def shiftedYear (year : Int) : Int := if year < 0 then year + 1 else year

def isLeapYear (year : Int) : Bool :=
  let y := shiftedYear year
  decide ((y % 4 = 0 ∧ y % 100 ≠ 0) ∨ y % 400 = 0)

/-- The length of a month, 0 when there is no such month. -/
def monthDays (year month : Int) : Int :=
  if month = 2 then (if isLeapYear year then 29 else 28)
  else if month = 4 ∨ month = 6 ∨ month = 9 ∨ month = 11 then 30
  else if 1 ≤ month ∧ month ≤ 12 then 31
  else 0

theorem monthDays_le (year month : Int) : monthDays year month ≤ 31 := by
  unfold monthDays
  split
  · split <;> omega
  · split
    · omega
    · split <;> omega

/-- The date exists. -/
def YMD.IsValid (d : YMD) : Prop :=
  d.year ≠ 0 ∧ 1 ≤ d.month ∧ d.month ≤ 12 ∧ 1 ≤ d.day ∧ d.day ≤ monthDays d.year d.month

instance (d : YMD) : Decidable d.IsValid := by unfold YMD.IsValid; infer_instance

def julianDayFromDate (d : YMD) : Int :=
  let a := (14 - d.month) / 12
  let y := shiftedYear d.year + 4800 - a
  let m := d.month + 12 * a - 3
  d.day + (153 * m + 2) / 5 + 365 * y + y / 4 - y / 100 + y / 400 - 32045

def getDateFromJulianDay (julianDay : Int) : YMD :=
  let a := julianDay + 32044
  let b := (4 * a + 3) / 146097
  let c := a - 146097 * b / 4
  let d := (4 * c + 3) / 1461
  let e := c - 1461 * d / 4
  let m := (5 * e + 2) / 153
  let year := 100 * b + d - 4800 + m / 10
  { year := if year ≤ 0 then year - 1 else year
    month := m + 3 - 12 * (m / 10)
    day := e - (153 * m + 2) / 5 + 1 }

/-! ### Reading a day number

The formulas count centuries `b`, years `d` of the century, days `e` of the year
and months `m` of a year that begins in March. The four bounds say that each
count stays inside the next larger unit. -/

/-- The counts behind `getDateFromJulianDay`, with what is known of each. -/
structure Counts (julianDay b d e m : Int) : Prop where
  split : julianDay + 32044 = 36524 * b + b / 4 + 365 * d + d / 4 + e
  year_lo : 0 ≤ d
  year_hi : d ≤ 99
  day_lo : 0 ≤ e
  day_hi : e ≤ 365
  leap : e = 365 → d % 4 = 3 ∧ (d = 99 → b % 4 = 3)
  month : m = (5 * e + 2) / 153

theorem counts_exist (julianDay : Int) :
    ∃ b d e m, Counts julianDay b d e m ∧
      getDateFromJulianDay julianDay =
        { year := if 100 * b + d - 4800 + m / 10 ≤ 0 then 100 * b + d - 4800 + m / 10 - 1
            else 100 * b + d - 4800 + m / 10
          month := m + 3 - 12 * (m / 10)
          day := e - (153 * m + 2) / 5 + 1 } := by
  obtain ⟨a, ha⟩ : ∃ a, a = julianDay + 32044 := ⟨_, rfl⟩
  obtain ⟨b, hb⟩ : ∃ b, b = (4 * a + 3) / 146097 := ⟨_, rfl⟩
  obtain ⟨c, hc⟩ : ∃ c, c = a - 146097 * b / 4 := ⟨_, rfl⟩
  obtain ⟨d, hd⟩ : ∃ d, d = (4 * c + 3) / 1461 := ⟨_, rfl⟩
  obtain ⟨e, he⟩ : ∃ e, e = c - 1461 * d / 4 := ⟨_, rfl⟩
  obtain ⟨m, hm⟩ : ∃ m, m = (5 * e + 2) / 153 := ⟨_, rfl⟩
  have hcentury : 146097 * b / 4 = 36524 * b + b / 4 := by omega
  have hc_lo : 0 ≤ c := by omega
  have hc_hi : c ≤ 36524 := by omega
  have hc_top : c = 36524 → b % 4 = 3 := by omega
  have hyear : 1461 * d / 4 = 365 * d + d / 4 := by omega
  refine ⟨b, d, e, m, ⟨by omega, by omega, by omega, by omega, by omega, ?_, hm⟩, ?_⟩
  · intro htop
    exact ⟨by omega, fun _ => hc_top (by omega)⟩
  · subst hm he hd hc hb ha
    rfl

theorem shiftedYear_back (y : Int) : shiftedYear (if y ≤ 0 then y - 1 else y) = y := by
  unfold shiftedYear
  split <;> split <;> omega

/-- **The formulas are inverse** on day numbers. -/
theorem julianDayFromDate_getDateFromJulianDay (julianDay : Int) :
    julianDayFromDate (getDateFromJulianDay julianDay) = julianDay := by
  obtain ⟨b, d, e, m, h, heq⟩ := counts_exist julianDay
  obtain ⟨hsplit, hd0, hd1, he0, he1, -, hm⟩ := h
  have hm_lo : 0 ≤ m := by omega
  have hm_hi : m ≤ 11 := by omega
  -- January and February belong to the March year before
  have ha : (14 - (m + 3 - 12 * (m / 10))) / 12 = m / 10 := by omega
  have hy4 : (100 * b + d) / 4 = 25 * b + d / 4 := by omega
  have hy100 : (100 * b + d) / 100 = b := by omega
  have hy400 : (100 * b + d) / 400 = b / 4 := by omega
  have hyear : 100 * b + d - 4800 + m / 10 + 4800 - m / 10 = 100 * b + d := by omega
  have hmonth : m + 3 - 12 * (m / 10) + 12 * (m / 10) - 3 = m := by omega
  rw [heq]
  simp only [julianDayFromDate, shiftedYear_back, ha, hyear, hmonth, hy4, hy100, hy400]
  omega

theorem isLeapYear_of_mod {year : Int} (h4 : shiftedYear year % 4 = 0)
    (h : shiftedYear year % 100 = 0 → shiftedYear year % 400 = 0) : isLeapYear year = true := by
  simp only [isLeapYear, decide_eq_true_eq]
  by_cases h100 : shiftedYear year % 100 = 0
  · exact Or.inr (h h100)
  · exact Or.inl ⟨h4, h100⟩

/-- **What is read off a day number is a date that exists.** -/
theorem getDateFromJulianDay_isValid (julianDay : Int) :
    (getDateFromJulianDay julianDay).IsValid := by
  obtain ⟨b, d, e, m, h, heq⟩ := counts_exist julianDay
  obtain ⟨-, hd0, hd1, he0, he1, hleap, hm⟩ := h
  have hm_lo : 0 ≤ m := by omega
  have hm_hi : m ≤ 11 := by omega
  have hq : m / 10 = if 10 ≤ m then 1 else 0 := by split <;> omega
  rw [heq]
  refine ⟨?_, ?_, ?_, by dsimp only; omega, ?_⟩
  · dsimp only
    split <;> omega
  · dsimp only
    rw [hq]
    split <;> omega
  · dsimp only
    rw [hq]
    split <;> omega
  · by_cases hfeb : m = 11
    · -- the last month of the March year has a 29th day only in a leap year
      have htwo : m + 3 - 12 * (m / 10) = 2 := by omega
      simp only [monthDays, htwo, if_true]
      by_cases htop : e = 365
      · obtain ⟨hd4, hb4⟩ := hleap htop
        rw [if_pos]
        · omega
        · apply isLeapYear_of_mod
          · rw [shiftedYear_back]; omega
          · rw [shiftedYear_back]
            intro h100
            have := hb4 (by omega)
            omega
      · split <;> omega
    · have hne : m + 3 - 12 * (m / 10) ≠ 2 := by omega
      simp only [monthDays, hne, if_false]
      split
      · omega
      · rw [if_pos (by rw [hq]; split <;> omega)]
        omega

/-! ### Years -/

/-- The day number of 1 January of year 1. -/
def firstDay : Int := 1721426

theorem firstDay_le_iff (julianDay : Int) :
    firstDay ≤ julianDay ↔ 1 ≤ (getDateFromJulianDay julianDay).year := by
  obtain ⟨b, d, e, m, h, heq⟩ := counts_exist julianDay
  obtain ⟨hsplit, hd0, hd1, he0, he1, -, hm⟩ := h
  have hq : m / 10 = if 10 ≤ m then 1 else 0 := by split <;> omega
  rw [heq, hq]
  unfold firstDay
  constructor
  · intro hle
    dsimp only
    split <;> split <;> omega
  · intro hyear
    dsimp only at hyear
    split at hyear <;> split at hyear <;> omega

theorem firstDay_le_julianDayFromDate {d : YMD} (h : d.IsValid) (hyear : 1 ≤ d.year) :
    firstDay ≤ julianDayFromDate d := by
  obtain ⟨-, h1, h12, hd1, hd⟩ := h
  have hshift : shiftedYear d.year = d.year := by
    unfold shiftedYear
    rw [if_neg (by omega)]
  have hmonth : (14 - d.month) / 12 = if d.month ≤ 2 then 1 else 0 := by split <;> omega
  simp only [firstDay, julianDayFromDate, hshift, hmonth]
  split <;> omega

end Gregorian
