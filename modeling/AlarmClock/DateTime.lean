import AlarmClock.Lib.Gregorian
import AlarmClock.Lib.TextFormat

/-!
# Dates and times

`QDate`, `QTime` and `QDateTime` as the application uses them: local time without
daylight saving. A `QDateTime` is a count of milliseconds from 1970-01-01T00:00
together with the flag that its date exists; comparison looks at the count only,
as Qt's does. A `QTime` is always a time of day. Texts are lists of characters.
-/

namespace AlarmClock

abbrev QString := List Char

def MSECS_PER_DAY : Int := 86400000
def JULIAN_DAY_FOR_EPOCH : Int := 2440588

/-! ### Times of day -/

structure QTime where
  msecs : Int
  nonneg : 0 ≤ msecs
  lt : msecs < 86400000
deriving DecidableEq, Repr

namespace QTime

def hour (t : QTime) : Int := t.msecs / 3600000
def minute (t : QTime) : Int := t.msecs / 60000 % 60
def second (t : QTime) : Int := t.msecs / 1000 % 60

instance : LE QTime := ⟨fun s t => s.msecs ≤ t.msecs⟩
instance (s t : QTime) : Decidable (s ≤ t) := inferInstanceAs (Decidable (s.msecs ≤ t.msecs))

@[ext] theorem ext {s t : QTime} (h : s.msecs = t.msecs) : s = t := by
  cases s
  cases t
  simp_all

theorem le_def {s t : QTime} : s ≤ t ↔ s.msecs ≤ t.msecs := Iff.rfl

end QTime

/-! ### Dates -/

/-- A date is its Julian day number; `none` is the null date. -/
abbrev QDate := Option Int

namespace QDate

/-- `QDate(year, month, day)`: null when there is no such date. -/
def ofYMD (year month day : Int) : QDate :=
  let d : Gregorian.YMD := ⟨year, month, day⟩
  if d.IsValid then some (Gregorian.julianDayFromDate d) else none

def isValid (d : QDate) : Bool := d.isSome

def year (d : QDate) : Int := d.elim 0 fun jd => (Gregorian.getDateFromJulianDay jd).year
def month (d : QDate) : Int := d.elim 0 fun jd => (Gregorian.getDateFromJulianDay jd).month
def day (d : QDate) : Int := d.elim 0 fun jd => (Gregorian.getDateFromJulianDay jd).day

/-- Monday is 1, Sunday is 7; 0 for the null date. -/
def dayOfWeek (d : QDate) : Int := d.elim 0 fun jd => jd % 7 + 1

def addDays (d : QDate) (ndays : Int) : QDate := d.map (· + ndays)

/-- The year, month and day of a date, in the order of the text formats. -/
def fields (d : QDate) : List Nat := [d.year.toNat, d.month.toNat, d.day.toNat]

theorem ofYMD_of_isValid {year month day : Int}
    (h : (⟨year, month, day⟩ : Gregorian.YMD).IsValid) :
    ofYMD year month day = some (Gregorian.julianDayFromDate ⟨year, month, day⟩) :=
  if_pos h

theorem ofYMD_year_month_day (jd : Int) :
    ofYMD (year (some jd)) (month (some jd)) (day (some jd)) = some jd :=
  (ofYMD_of_isValid (Gregorian.getDateFromJulianDay_isValid jd)).trans
    (congrArg some (Gregorian.julianDayFromDate_getDateFromJulianDay jd))

end QDate

/-! ### Points in time -/

structure QDateTime where
  msecs : Int
  isValid : Bool := true
deriving DecidableEq, Repr

namespace QDateTime

/-- `QDateTime::currentDateTime()` when the system clock shows `now` milliseconds
    since the epoch. -/
def currentDateTime (now : Nat) : QDateTime := ⟨now, true⟩

/-- `QDateTime(date, time)`: invalid when the date is. -/
def ofDateTime (d : QDate) (t : QTime) : QDateTime :=
  match d with
  | some jd => ⟨(jd - JULIAN_DAY_FOR_EPOCH) * MSECS_PER_DAY + t.msecs, true⟩
  | none => ⟨t.msecs, false⟩

def date (dt : QDateTime) : QDate :=
  if dt.isValid then some (dt.msecs / MSECS_PER_DAY + JULIAN_DAY_FOR_EPOCH) else none

def time (dt : QDateTime) : QTime where
  msecs := dt.msecs % MSECS_PER_DAY
  nonneg := Int.emod_nonneg _ (by decide)
  lt := Int.emod_lt_of_pos _ (by decide)

def addSecs (dt : QDateTime) (s : Int) : QDateTime := { dt with msecs := dt.msecs + s * 1000 }

/-- The same point in time without its fraction of a second. -/
def truncSec (dt : QDateTime) : QDateTime := { dt with msecs := dt.msecs - dt.msecs % 1000 }

instance : LE QDateTime := ⟨fun a b => a.msecs ≤ b.msecs⟩
instance : LT QDateTime := ⟨fun a b => a.msecs < b.msecs⟩
instance (a b : QDateTime) : Decidable (a ≤ b) := inferInstanceAs (Decidable (a.msecs ≤ b.msecs))
instance (a b : QDateTime) : Decidable (a < b) := inferInstanceAs (Decidable (a.msecs < b.msecs))

theorem le_def {a b : QDateTime} : a ≤ b ↔ a.msecs ≤ b.msecs := Iff.rfl
theorem lt_def {a b : QDateTime} : a < b ↔ a.msecs < b.msecs := Iff.rfl
theorem not_le {a b : QDateTime} : ¬ a ≤ b ↔ b < a := by
  rw [le_def, lt_def]
  omega

@[simp] theorem currentDateTime_isValid (now : Nat) : (currentDateTime now).isValid = true := rfl
@[simp] theorem currentDateTime_msecs (now : Nat) : (currentDateTime now).msecs = now := rfl
@[simp] theorem truncSec_isValid (dt : QDateTime) : dt.truncSec.isValid = dt.isValid := rfl
@[simp] theorem truncSec_msecs (dt : QDateTime) :
    dt.truncSec.msecs = dt.msecs - dt.msecs % 1000 := rfl

theorem ofDateTime_some_msecs (jd : Int) (t : QTime) :
    (ofDateTime (some jd) t).msecs = (jd - 2440588) * 86400000 + t.msecs := rfl

theorem date_of_isValid {dt : QDateTime} (h : dt.isValid = true) :
    dt.date = some (dt.msecs / 86400000 + 2440588) := by
  unfold date
  rw [if_pos h]
  rfl

theorem time_msecs (dt : QDateTime) : dt.time.msecs = dt.msecs % 86400000 := rfl

/-- A valid point in time is its date together with its time of day. -/
theorem ofDateTime_date_time {dt : QDateTime} (h : dt.isValid = true) :
    ofDateTime dt.date dt.time = dt := by
  rw [date_of_isValid h]
  obtain ⟨msecs, valid⟩ := dt
  subst h
  simp only [ofDateTime, JULIAN_DAY_FOR_EPOCH, MSECS_PER_DAY, time, QDateTime.mk.injEq, and_true]
  omega

@[simp] theorem date_ofDateTime (jd : Int) (t : QTime) :
    (ofDateTime (some jd) t).date = some jd := by
  have h0 := t.nonneg
  have h1 := t.lt
  rw [date_of_isValid rfl, ofDateTime_some_msecs]
  congr 1
  omega

@[simp] theorem time_ofDateTime (d : QDate) (t : QTime) : (ofDateTime d t).time = t := by
  have h0 := t.nonneg
  have h1 := t.lt
  apply QTime.ext
  rw [time_msecs]
  cases d with
  | none => simp only [ofDateTime]; omega
  | some jd => rw [ofDateTime_some_msecs]; omega

theorem truncSec_truncSec (dt : QDateTime) : dt.truncSec.truncSec = dt.truncSec := by
  simp only [truncSec, QDateTime.mk.injEq, and_true]
  omega

/-! ### The common era -/

/-- The date-time exists and is not before the year 1. -/
def InCommonEra (dt : QDateTime) : Prop :=
  dt.isValid = true ∧ Gregorian.firstDay ≤ dt.msecs / 86400000 + 2440588

theorem InCommonEra.date {dt : QDateTime} (h : dt.InCommonEra) :
    ∃ jd, dt.date = some jd ∧ Gregorian.firstDay ≤ jd :=
  ⟨_, date_of_isValid h.1, h.2⟩

theorem inCommonEra_currentDateTime (now : Nat) : (currentDateTime now).InCommonEra := by
  refine ⟨rfl, ?_⟩
  unfold Gregorian.firstDay
  rw [currentDateTime_msecs]
  omega

theorem inCommonEra_ofDateTime {jd : Int} (h : Gregorian.firstDay ≤ jd) (t : QTime) :
    (ofDateTime (some jd) t).InCommonEra := by
  have h0 := t.nonneg
  have h1 := t.lt
  refine ⟨rfl, ?_⟩
  rw [ofDateTime_some_msecs]
  omega

theorem InCommonEra.of_lt {now dt : QDateTime} (h : now.InCommonEra) (hvalid : dt.isValid = true)
    (hlt : now < dt) : dt.InCommonEra := by
  refine ⟨hvalid, Int.le_trans h.2 ?_⟩
  have := lt_def.mp hlt
  omega

theorem InCommonEra.truncSec {dt : QDateTime} (h : dt.InCommonEra) : dt.truncSec.InCommonEra := by
  refine ⟨h.1, Int.le_trans h.2 ?_⟩
  rw [truncSec_msecs]
  omega

end QDateTime

end AlarmClock
