import AlarmClock.DateTime

/-!
# Date-times as text

The three formats of the application: `Qt::ISODate` in the saved list, minutes and
seconds in the logs. A text is read back to the date-time it was written from, cut
to the minute or to the second, as long as the year has four digits; outside these
years `Qt::ISODate` writes nothing.
-/

namespace AlarmClock

open TextFormat

/-- `yyyy-MM-dd hh:mm` -/
def minuteFormat : List Field :=
  [.digits 4, .lit '-', .digits 2, .lit '-', .digits 2, .lit ' ', .digits 2, .lit ':', .digits 2]

/-- `yyyy-MM-dd hh:mm:ss` -/
def secondFormat : List Field := minuteFormat ++ [.lit ':', .digits 2]

/-- `yyyy-MM-ddTHH:mm:ss` -/
def isoFormat : List Field :=
  [.digits 4, .lit '-', .digits 2, .lit '-', .digits 2, .lit 'T', .digits 2, .lit ':', .digits 2,
    .lit ':', .digits 2]

namespace QDateTime

def HasFourDigitYear (dt : QDateTime) : Prop := 0 ≤ dt.date.year ∧ dt.date.year ≤ 9999

instance (dt : QDateTime) : Decidable dt.HasFourDigitYear := by
  unfold HasFourDigitYear; infer_instance

/-- The numbers of a date-time from the year down to the minute. -/
def minuteNumbers (dt : QDateTime) : List Nat :=
  dt.date.fields ++ [dt.time.hour.toNat, dt.time.minute.toNat]

def secondNumbers (dt : QDateTime) : List Nat := dt.minuteNumbers ++ [dt.time.second.toNat]

def toMinuteText (dt : QDateTime) : QString :=
  if dt.isValid then render minuteFormat dt.minuteNumbers else []

def toSecondText (dt : QDateTime) : QString :=
  if dt.isValid then render secondFormat dt.secondNumbers else []

/-- `toString(Qt::ISODate)` -/
def toIsoDate (dt : QDateTime) : QString :=
  if dt.isValid ∧ dt.HasFourDigitYear then render isoFormat dt.secondNumbers else []

/-- The date-time that a list of numbers names; the seconds may be left out. -/
def ofNumbers : List Nat → QDateTime
  | year :: month :: day :: hour :: minute :: rest =>
    if h : hour < 24 ∧ minute < 60 ∧ rest.headD 0 < 60 then
      ofDateTime (QDate.ofYMD year month day)
        ⟨hour * 3600000 + minute * 60000 + rest.headD 0 * 1000, by omega, by omega⟩
    else ⟨0, false⟩
  | _ => ⟨0, false⟩

/-- `QDateTime::fromString`: not valid when the text does not match the format. -/
def fromString (format : List Field) (text : QString) : QDateTime :=
  (scan format text).elim ⟨0, false⟩ ofNumbers

/-- The same point in time without its seconds. -/
def truncMin (dt : QDateTime) : QDateTime := { dt with msecs := dt.msecs - dt.msecs % 60000 }

/-! ### Reading back -/

theorem fields_eq {dt : QDateTime} (h : dt.InCommonEra) :
    ∃ year month day : Nat, dt.date.fields = [year, month, day] ∧ (year : Int) = dt.date.year ∧
      month < 100 ∧ day < 100 ∧ QDate.ofYMD year month day = dt.date := by
  obtain ⟨jd, hjd, hfirst⟩ := h.date
  obtain ⟨-, hm1, hm12, hd1, hd⟩ := Gregorian.getDateFromJulianDay_isValid jd
  have hyear := (Gregorian.firstDay_le_iff jd).mp hfirst
  have hday := Int.le_trans hd (Gregorian.monthDays_le _ _)
  rw [hjd]
  refine ⟨_, _, _, rfl, ?_, ?_, ?_, ?_⟩
  · exact Int.toNat_of_nonneg (Int.le_trans (by decide) hyear)
  · show (Gregorian.getDateFromJulianDay jd).month.toNat < 100
    omega
  · show (Gregorian.getDateFromJulianDay jd).day.toNat < 100
    omega
  · have hy0 : 0 ≤ QDate.year (some jd) := Int.le_trans (by decide) hyear
    have hm0 : 0 ≤ QDate.month (some jd) := Int.le_trans (by decide) hm1
    have hd0 : 0 ≤ QDate.day (some jd) := Int.le_trans (by decide) hd1
    rw [Int.toNat_of_nonneg hy0, Int.toNat_of_nonneg hm0, Int.toNat_of_nonneg hd0]
    exact QDate.ofYMD_year_month_day jd

theorem time_numbers (dt : QDateTime) :
    ∃ hour minute second : Nat, dt.time.hour.toNat = hour ∧ dt.time.minute.toNat = minute ∧
      dt.time.second.toNat = second ∧ hour < 24 ∧ minute < 60 ∧ second < 60 ∧
      dt.time.msecs - dt.time.msecs % 60000 = hour * 3600000 + minute * 60000 ∧
      dt.time.msecs - dt.time.msecs % 1000 =
        hour * 3600000 + minute * 60000 + second * 1000 := by
  have h0 := dt.time.nonneg
  have h1 := dt.time.lt
  refine ⟨_, _, _, rfl, rfl, rfl, ?_⟩
  simp only [QTime.hour, QTime.minute, QTime.second]
  omega

theorem ofNumbers_minuteNumbers {dt : QDateTime} (h : dt.InCommonEra) :
    ofNumbers dt.minuteNumbers = dt.truncMin := by
  obtain ⟨year, month, day, hfields, -, -, -, hdate⟩ := fields_eq h
  obtain ⟨hour, minute, second, hhour, hminute, -, hh, hm, -, hsum, -⟩ := time_numbers dt
  rw [minuteNumbers, hfields, hhour, hminute]
  show ofNumbers [year, month, day, hour, minute] = _
  rw [ofNumbers, dif_pos ⟨hh, hm, by decide⟩, hdate, date_of_isValid h.1]
  obtain ⟨msecs, valid⟩ := dt
  obtain rfl : valid = true := h.1
  rw [time_msecs] at hsum
  simp only [ofDateTime, truncMin, JULIAN_DAY_FOR_EPOCH, MSECS_PER_DAY, List.headD_nil,
    QDateTime.mk.injEq, and_true]
  simp only at hsum
  omega

theorem ofNumbers_secondNumbers {dt : QDateTime} (h : dt.InCommonEra) :
    ofNumbers dt.secondNumbers = dt.truncSec := by
  obtain ⟨year, month, day, hfields, -, -, -, hdate⟩ := fields_eq h
  obtain ⟨hour, minute, second, hhour, hminute, hsecond, hh, hm, hs, -, hsum⟩ := time_numbers dt
  rw [secondNumbers, minuteNumbers, hfields, hhour, hminute, hsecond]
  show ofNumbers [year, month, day, hour, minute, second] = _
  rw [ofNumbers, dif_pos ⟨hh, hm, hs⟩, hdate, date_of_isValid h.1]
  obtain ⟨msecs, valid⟩ := dt
  obtain rfl : valid = true := h.1
  rw [time_msecs] at hsum
  simp only [ofDateTime, truncSec, JULIAN_DAY_FOR_EPOCH, MSECS_PER_DAY, List.headD_cons,
    QDateTime.mk.injEq, and_true]
  simp only at hsum
  omega

theorem fits_numbers {dt : QDateTime} (h : dt.InCommonEra) (hyear : dt.HasFourDigitYear) :
    Fits minuteFormat dt.minuteNumbers ∧ Fits secondFormat dt.secondNumbers ∧
      Fits isoFormat dt.secondNumbers := by
  obtain ⟨year, month, day, hfields, hy, hmonth, hday, -⟩ := fields_eq h
  obtain ⟨hour, minute, second, hhour, hminute, hsecond, hh, hm, hs, -, -⟩ := time_numbers dt
  have hyear' := hyear.2
  rw [secondNumbers, minuteNumbers, hfields, hhour, hminute, hsecond]
  simp only [minuteFormat, secondFormat, isoFormat, List.cons_append, List.nil_append, Fits,
    and_true]
  omega

/-- **The log format of an alarm time**: to the minute. -/
theorem fromString_toMinuteText {dt : QDateTime} (h : dt.InCommonEra)
    (hyear : dt.HasFourDigitYear) : fromString minuteFormat dt.toMinuteText = dt.truncMin := by
  rw [toMinuteText, if_pos h.1, fromString, scan_render (fits_numbers h hyear).1]
  exact ofNumbers_minuteNumbers h

/-- **The log format of a dismissal**: to the second. -/
theorem fromString_toSecondText {dt : QDateTime} (h : dt.InCommonEra)
    (hyear : dt.HasFourDigitYear) : fromString secondFormat dt.toSecondText = dt.truncSec := by
  rw [toSecondText, if_pos h.1, fromString, scan_render (fits_numbers h hyear).2.1]
  exact ofNumbers_secondNumbers h

/-- **The format of the saved list**: to the second. -/
theorem fromString_toIsoDate {dt : QDateTime} (h : dt.InCommonEra)
    (hyear : dt.HasFourDigitYear) : fromString isoFormat dt.toIsoDate = dt.truncSec := by
  rw [toIsoDate, if_pos ⟨h.1, hyear⟩, fromString, scan_render (fits_numbers h hyear).2.2]
  exact ofNumbers_secondNumbers h

/-- The date-time that comes back from the saved list. -/
theorem isValid_fromString_toIsoDate {dt : QDateTime} (hyear : ¬ dt.HasFourDigitYear) :
    (fromString isoFormat dt.toIsoDate).isValid = false := by
  rw [toIsoDate, if_neg fun h => hyear h.2]
  rfl

example : toIsoDate ⟨1784903400000, true⟩ = "2026-07-24T14:30:00".toList := by decide

end QDateTime

end AlarmClock
