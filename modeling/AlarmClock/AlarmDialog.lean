import AlarmClock.Schedule
import Mathlib.Data.Fintype.Pi

/-!
# The alarm editor

`AlarmDialog` from its construction through every press, the nested calendar dialog
included, to `onConfirm`. Presses that a debounce timer swallows change nothing, so
they are left out of a press list. The three time fields carry their ranges, so
`selectedTime` is a time of day by construction.
-/

namespace AlarmClock

/-- The value fits the `int` of the target. -/
def IsInt (n : Int) : Prop := -2147483648 ≤ n ∧ n ≤ 2147483647

instance (n : Int) : Decidable (IsInt n) := by unfold IsInt; infer_instance

inductive DismissMode where
  | DismissSimple
  | DismissGame
  | DismissButton
  | DismissCamera
deriving DecidableEq, Repr

def DismissMode.toInt : DismissMode → Int
  | .DismissSimple => 0
  | .DismissGame => 1
  | .DismissButton => 2
  | .DismissCamera => 3

inductive GameType where
  | GameNumberOrder
  | GameColorMemory
  | GameUltrasonic
deriving DecidableEq, Repr

def GameType.toInt : GameType → Int
  | .GameNumberOrder => 0
  | .GameColorMemory => 1
  | .GameUltrasonic => 2

theorem DismissMode.isInt_toInt (m : DismissMode) : IsInt m.toInt := by
  cases m <;> decide

theorem GameType.isInt_toInt (g : GameType) : IsInt g.toInt := by
  cases g <;> decide

/-- The sounds are numbered from 0. -/
instance neZero_three : NeZero 3 := ⟨by decide⟩

/-- So are the days of the week. -/
instance neZero_seven : NeZero 7 := ⟨by decide⟩

/-- The sounds offered by the editor and by the +5s dialog. -/
def soundData (home : QString) : Fin 3 → QString
  | 0 => home ++ "/test_contents/good_morning.wav".toList
  | 1 => home ++ "/test_contents/napal.wav".toList
  | 2 => home ++ "/test_contents/Tetris.wav".toList

/-! ### The time fields -/

structure TimeFields where
  ampm : Int
  hour12 : Int
  minute : Int
  ampm_range : 0 ≤ ampm ∧ ampm ≤ 1
  hour_range : 1 ≤ hour12 ∧ hour12 ≤ 12
  minute_range : 0 ≤ minute ∧ minute ≤ 59
deriving DecidableEq

namespace TimeFields

def increaseAmPm (f : TimeFields) : TimeFields :=
  { f with ampm := 1 - f.ampm, ampm_range := by have := f.ampm_range; omega }

def decreaseAmPm (f : TimeFields) : TimeFields :=
  { f with ampm := 1 - f.ampm, ampm_range := by have := f.ampm_range; omega }

def increaseHour (f : TimeFields) : TimeFields :=
  { f with
    hour12 := if f.hour12 + 1 > 12 then 1 else f.hour12 + 1
    hour_range := by have := f.hour_range; split <;> omega }

def decreaseHour (f : TimeFields) : TimeFields :=
  { f with
    hour12 := if f.hour12 - 1 < 1 then 12 else f.hour12 - 1
    hour_range := by have := f.hour_range; split <;> omega }

def increaseMinute (f : TimeFields) : TimeFields :=
  { f with
    minute := if f.minute + 1 > 59 then 0 else f.minute + 1
    minute_range := by have := f.minute_range; split <;> omega }

def decreaseMinute (f : TimeFields) : TimeFields :=
  { f with
    minute := if f.minute - 1 < 0 then 59 else f.minute - 1
    minute_range := by have := f.minute_range; split <;> omega }

def setTimeFromDateTime (dt : QDateTime) : TimeFields where
  ampm := if dt.time.hour ≥ 12 then 1 else 0
  hour12 := if dt.time.hour = 0 then 12
    else if dt.time.hour > 12 then dt.time.hour - 12 else dt.time.hour
  minute := dt.time.minute
  ampm_range := by split <;> omega
  hour_range := by
    have h0 := dt.time.nonneg
    have h1 := dt.time.lt
    unfold QTime.hour
    split
    · omega
    · split <;> omega
  minute_range := by unfold QTime.minute; omega

/-- The hour of the day that the fields show. -/
def hour24 (f : TimeFields) : Int :=
  if f.hour12 = 12 then (if f.ampm = 1 then 12 else 0)
  else if f.ampm = 1 then f.hour12 + 12 else f.hour12

theorem hour24_range (f : TimeFields) : 0 ≤ f.hour24 ∧ f.hour24 ≤ 23 := by
  have := f.hour_range
  unfold hour24
  split <;> split <;> omega

/-- `QTime(h, m_minute, 0)`. -/
def selectedTime (f : TimeFields) : QTime where
  msecs := f.hour24 * 3600000 + f.minute * 60000
  nonneg := by have := f.hour24_range; have := f.minute_range; omega
  lt := by have := f.hour24_range; have := f.minute_range; omega

theorem selectedTime_wholeMinute (f : TimeFields) : f.selectedTime.msecs % 60000 = 0 := by
  simp only [selectedTime]
  omega

end TimeFields

/-! ### The calendar dialog -/

structure CalendarDialog where
  year : Int
  month : Int
  day : Int
deriving DecidableEq, Repr

namespace CalendarDialog

/-- `QDate(year, month, 1).daysInMonth()`: 0 when there is no such month. -/
def daysInMonth (year month : Int) : Int :=
  if (QDate.ofYMD year month 1).isValid then Gregorian.monthDays year month else 0

def refresh (c : CalendarDialog) : CalendarDialog :=
  let maxDay := daysInMonth c.year c.month
  let day := if c.day > maxDay then maxDay else c.day
  { c with day := if day < 1 then 1 else day }

inductive Press where
  | yearPlus
  | yearMinus
  | monthPlus
  | monthMinus
  | dayPlus
  | dayMinus
deriving DecidableEq, Repr

def press (c : CalendarDialog) : Press → CalendarDialog
  | .yearPlus => refresh { c with year := if c.year + 1 > 2099 then 2000 else c.year + 1 }
  | .yearMinus => refresh { c with year := if c.year - 1 < 2000 then 2099 else c.year - 1 }
  | .monthPlus => refresh { c with month := if c.month + 1 > 12 then 1 else c.month + 1 }
  | .monthMinus => refresh { c with month := if c.month - 1 < 1 then 12 else c.month - 1 }
  | .dayPlus =>
    refresh { c with day := if c.day + 1 > daysInMonth c.year c.month then 1 else c.day + 1 }
  | .dayMinus =>
    refresh { c with day := if c.day - 1 < 1 then daysInMonth c.year c.month else c.day - 1 }

inductive Close where
  | setDate
  | useAutoDate
  | cancel
deriving DecidableEq, Repr

/-- The three fields name a date of the common era that exists. -/
def Ok (c : CalendarDialog) : Prop :=
  1 ≤ c.year ∧ (⟨c.year, c.month, c.day⟩ : Gregorian.YMD).IsValid

theorem daysInMonth_eq {year month : Int} (hy : 1 ≤ year) (h1 : 1 ≤ month) (h12 : month ≤ 12) :
    daysInMonth year month = Gregorian.monthDays year month ∧
      1 ≤ Gregorian.monthDays year month := by
  have hpos : 1 ≤ Gregorian.monthDays year month := by
    unfold Gregorian.monthDays
    split
    · split <;> omega
    · split
      · omega
      · rw [if_pos ⟨h1, h12⟩]
        omega
  have hvalid : (⟨year, month, 1⟩ : Gregorian.YMD).IsValid :=
    ⟨by dsimp only; omega, h1, h12, by dsimp only; omega, hpos⟩
  have hsome : (QDate.ofYMD year month 1).isValid = true := by
    rw [QDate.ofYMD_of_isValid hvalid]
    rfl
  exact ⟨if_pos hsome, hpos⟩

/-- `refresh` clamps the day, whatever it was. -/
theorem refresh_ok {c : CalendarDialog} (hy : 1 ≤ c.year) (h1 : 1 ≤ c.month)
    (h12 : c.month ≤ 12) : c.refresh.Ok := by
  obtain ⟨hdays, hpos⟩ := daysInMonth_eq hy h1 h12
  refine ⟨hy, ?_, h1, h12, ?_, ?_⟩
  · show c.year ≠ 0
    omega
  · simp only [refresh, hdays]
    split <;> omega
  · simp only [refresh, hdays]
    split
    · omega
    · split <;> omega

theorem press_ok {c : CalendarDialog} (h : c.Ok) (p : Press) : (c.press p).Ok := by
  obtain ⟨hy, -, h1, h12, -, -⟩ := h
  simp only at h1 h12
  cases p with
  | yearPlus => exact refresh_ok (by dsimp only; split <;> omega) h1 h12
  | yearMinus => exact refresh_ok (by dsimp only; split <;> omega) h1 h12
  | monthPlus =>
    exact refresh_ok hy (by dsimp only; split <;> omega) (by dsimp only; split <;> omega)
  | monthMinus =>
    exact refresh_ok hy (by dsimp only; split <;> omega) (by dsimp only; split <;> omega)
  | dayPlus => exact refresh_ok hy h1 h12
  | dayMinus => exact refresh_ok hy h1 h12

theorem foldl_press_ok {c : CalendarDialog} (h : c.Ok) (ps : List Press) :
    (ps.foldl press c).Ok := by
  induction ps generalizing c with
  | nil => exact h
  | cons p ps ih => exact ih (press_ok h p)

end CalendarDialog

/-! ### The dialog -/

structure AlarmDialog where
  soundIndex : Fin 3
  dismissMode : Int
  gameType : Int
  weekdayButtons : Fin 7 → Bool
  useSpecificDate : Bool
  specificDate : QDate
  time : TimeFields
deriving DecidableEq

namespace AlarmDialog

/-- The weekday buttons checked for a mask, and the mask of the checked buttons. -/
def setRepeatButtonsFromMask (mask : Int) : Fin 7 → Bool := fun i => mask.testBit i

def repeatMaskFromButtons (buttons : Fin 7 → Bool) : Int :=
  ((List.finRange 7).foldl (fun mask i => if buttons i then mask ||| (1 <<< i.val) else mask)
    (0 : Nat) : Nat)

/-- `m_soundCombo->findData(sound)`, or the first item when it is not offered. -/
def findSound (home sound : QString) : Fin 3 :=
  ((List.finRange 3).find? fun i => soundData home i == sound).getD 0

/-- The constructor; `current` is the clock when the dialog opens. -/
def new (home : QString) (current initialDt : QDateTime) (initialSound : QString)
    (initialDismissMode initialGameType initialRepeatMask : Int)
    (initialUseSpecificDate : Bool) : AlarmDialog where
  soundIndex := findSound home (if initialSound.isEmpty then soundData home 0 else initialSound)
  dismissMode := initialDismissMode
  gameType := initialGameType
  weekdayButtons := setRepeatButtonsFromMask initialRepeatMask
  useSpecificDate := initialUseSpecificDate
  specificDate := if initialDt.isValid then initialDt.date else current.date
  time := TimeFields.setTimeFromDateTime (if initialDt.isValid then initialDt else current)

/-- `AlarmDialog(this)`: the dialog that adds an alarm. -/
def forAdd (home : QString) (current : QDateTime) : AlarmDialog :=
  new home current ⟨0, false⟩ [] DismissMode.DismissSimple.toInt GameType.GameNumberOrder.toInt 0
    false

inductive Press where
  | increaseAmPm
  | decreaseAmPm
  | increaseHour
  | decreaseHour
  | increaseMinute
  | decreaseMinute
  | weekday (i : Fin 7)
  | sound (i : Fin 3)
  | mode (m : DismissMode)
  | game (g : GameType)
  | calendar (presses : List CalendarDialog.Press) (close : CalendarDialog.Close)
deriving DecidableEq, Repr

/-- The calendar dialog from opening to closing. -/
def openCalendarDialog (d : AlarmDialog) (presses : List CalendarDialog.Press)
    (close : CalendarDialog.Close) : AlarmDialog :=
  let opened : CalendarDialog :=
    CalendarDialog.refresh ⟨d.specificDate.year, d.specificDate.month, d.specificDate.day⟩
  let c := presses.foldl CalendarDialog.press opened
  match close with
  | .setDate => { d with specificDate := QDate.ofYMD c.year c.month c.day, useSpecificDate := true }
  | .useAutoDate => { d with useSpecificDate := false }
  | .cancel => d

def press (d : AlarmDialog) : Press → AlarmDialog
  | .increaseAmPm => { d with time := d.time.increaseAmPm }
  | .decreaseAmPm => { d with time := d.time.decreaseAmPm }
  | .increaseHour => { d with time := d.time.increaseHour }
  | .decreaseHour => { d with time := d.time.decreaseHour }
  | .increaseMinute => { d with time := d.time.increaseMinute }
  | .decreaseMinute => { d with time := d.time.decreaseMinute }
  | .weekday i =>
    { d with weekdayButtons := fun j => if j = i then !d.weekdayButtons i else d.weekdayButtons j }
  | .sound i => { d with soundIndex := i }
  | .mode m => { d with dismissMode := m.toInt }
  | .game g => { d with gameType := g.toInt }
  | .calendar presses close => d.openCalendarDialog presses close

/-- What the accepted dialog hands back. -/
structure Accepted where
  dateTime : QDateTime
  soundFile : QString
  dismissMode : Int
  gameType : Int
  repeatMask : Int
  useSpecificDate : Bool
deriving DecidableEq

/-- Today at `t`, or tomorrow when that has passed. -/
def todayOrTomorrow (now : QDateTime) (t : QTime) : QDateTime :=
  let d := now.date
  let d := if t ≤ now.time then d.addDays 1 else d
  QDateTime.ofDateTime d t

def onConfirm (home : QString) (now : QDateTime) (d : AlarmDialog) : Accepted :=
  let repeatMask := repeatMaskFromButtons d.weekdayButtons
  let useSpecificDate := if repeatMask ≠ 0 then false else d.useSpecificDate
  let t := d.time.selectedTime
  { dateTime :=
      if repeatMask ≠ 0 then computeNextForRepeat now t repeatMask
      else if useSpecificDate then QDateTime.ofDateTime d.specificDate t
      else todayOrTomorrow now t
    soundFile := soundData home d.soundIndex
    dismissMode := d.dismissMode
    gameType := d.gameType
    repeatMask := repeatMask
    useSpecificDate := useSpecificDate }

/-! ### What the dialog keeps -/

/-- The fixed date exists, in the common era, and the two codes fit an `int`. -/
structure Ok (d : AlarmDialog) : Prop where
  date : ∃ jd, d.specificDate = some jd ∧ Gregorian.firstDay ≤ jd
  mode : IsInt d.dismissMode
  game : IsInt d.gameType

theorem openCalendarDialog_ok {d : AlarmDialog} (h : d.Ok) (presses : List CalendarDialog.Press)
    (close : CalendarDialog.Close) : (d.openCalendarDialog presses close).Ok := by
  obtain ⟨jd, hjd, hfirst⟩ := h.date
  cases close with
  | setDate =>
    have hopened : (CalendarDialog.refresh
        ⟨d.specificDate.year, d.specificDate.month, d.specificDate.day⟩).Ok := by
      have hvalid := Gregorian.getDateFromJulianDay_isValid jd
      rw [hjd]
      exact CalendarDialog.refresh_ok ((Gregorian.firstDay_le_iff jd).mp hfirst)
        hvalid.2.1 hvalid.2.2.1
    obtain ⟨hyear, hdate⟩ := CalendarDialog.foldl_press_ok hopened presses
    exact ⟨⟨_, QDate.ofYMD_of_isValid hdate, Gregorian.firstDay_le_julianDayFromDate hdate hyear⟩,
      h.mode, h.game⟩
  | useAutoDate => exact ⟨h.date, h.mode, h.game⟩
  | cancel => exact h

theorem press_ok {d : AlarmDialog} (h : d.Ok) (p : Press) : (d.press p).Ok := by
  cases p with
  | calendar presses close => exact openCalendarDialog_ok h presses close
  | mode m => exact ⟨h.date, m.isInt_toInt, h.game⟩
  | game g => exact ⟨h.date, h.mode, g.isInt_toInt⟩
  | _ => exact ⟨h.date, h.mode, h.game⟩

theorem foldl_press_ok {d : AlarmDialog} (h : d.Ok) (ps : List Press) : (ps.foldl press d).Ok := by
  induction ps generalizing d with
  | nil => exact h
  | cons p ps ih => exact ih (press_ok h p)

theorem forAdd_ok (home : QString) (opened : Nat) :
    (forAdd home (QDateTime.currentDateTime opened)).Ok :=
  ⟨(QDateTime.inCommonEra_currentDateTime opened).date, DismissMode.DismissSimple.isInt_toInt,
    GameType.GameNumberOrder.isInt_toInt⟩

theorem new_ok {home : QString} {current initialDt : QDateTime} {initialSound : QString}
    {initialDismissMode initialGameType initialRepeatMask : Int} {initialUseSpecificDate : Bool}
    (hdt : initialDt.InCommonEra) (hmode : IsInt initialDismissMode)
    (hgame : IsInt initialGameType) :
    (new home current initialDt initialSound initialDismissMode initialGameType
      initialRepeatMask initialUseSpecificDate).Ok := by
  obtain ⟨jd, hjd, hfirst⟩ := hdt.date
  exact ⟨⟨jd, (if_pos hdt.1).trans hjd, hfirst⟩, hmode, hgame⟩

/-! ### What the dialog hands back -/

theorem foldl_lor_lt (buttons : Fin 7 → Bool) (l : List (Fin 7)) {mask : Nat} (h : mask < 2 ^ 7) :
    l.foldl (fun mask i => if buttons i then mask ||| (1 <<< i.val) else mask) mask < 2 ^ 7 := by
  induction l generalizing mask with
  | nil => exact h
  | cons i l ih =>
    apply ih
    dsimp only
    split
    · apply Nat.or_lt_two_pow h
      rw [Nat.one_shiftLeft]
      exact Nat.pow_lt_pow_right (by omega) i.isLt
    · exact h

theorem repeatMaskFromButtons_range (buttons : Fin 7 → Bool) :
    0 ≤ repeatMaskFromButtons buttons ∧ repeatMaskFromButtons buttons ≤ 127 := by
  have h := foldl_lor_lt buttons (List.finRange 7) (show 0 < 2 ^ 7 by decide)
  unfold repeatMaskFromButtons
  omega

theorem todayOrTomorrow_spec {now : QDateTime} (hnow : now.isValid = true) (t : QTime) :
    (todayOrTomorrow now t).isValid = true ∧ now < todayOrTomorrow now t ∧
      (todayOrTomorrow now t).time = t := by
  have ht0 := t.nonneg
  have ht1 := t.lt
  simp only [todayOrTomorrow, QDateTime.date_of_isValid hnow, QTime.le_def, QDateTime.time_msecs]
  by_cases hle : t.msecs ≤ now.msecs % 86400000
  · rw [if_pos hle]
    refine ⟨rfl, ?_, QDateTime.time_ofDateTime _ _⟩
    simp only [QDate.addDays, Option.map_some, QDateTime.lt_def, QDateTime.ofDateTime_some_msecs]
    omega
  · rw [if_neg hle]
    refine ⟨rfl, ?_, QDateTime.time_ofDateTime _ _⟩
    simp only [QDateTime.lt_def, QDateTime.ofDateTime_some_msecs]
    omega

/-- An accepted result is in step with itself: what every alarm must satisfy. -/
structure Accepted.Ok (r : Accepted) : Prop where
  era : r.dateTime.InCommonEra
  mask : 0 ≤ r.repeatMask ∧ r.repeatMask ≤ 127
  weekday : r.repeatMask ≠ 0 →
    r.repeatMask.testBit (weekdayIndexFromDate r.dateTime.date) = true
  specific : r.repeatMask ≠ 0 → r.useSpecificDate = false
  minute : r.repeatMask ≠ 0 → r.dateTime.time.msecs % 60000 = 0
  mode : IsInt r.dismissMode
  game : IsInt r.gameType

/-- The three rules of `onConfirm`, one for each kind of alarm. -/
theorem onConfirm_dateTime (home : QString) (now : QDateTime) (d : AlarmDialog) :
    (d.onConfirm home now).dateTime =
      if (d.onConfirm home now).repeatMask ≠ 0 then
        computeNextForRepeat now d.time.selectedTime (d.onConfirm home now).repeatMask
      else if (d.onConfirm home now).useSpecificDate then
        QDateTime.ofDateTime d.specificDate d.time.selectedTime
      else todayOrTomorrow now d.time.selectedTime := rfl

theorem onConfirm_specific {home : QString} {now : QDateTime} {d : AlarmDialog}
    (hmask : (d.onConfirm home now).repeatMask ≠ 0) :
    (d.onConfirm home now).useSpecificDate = false :=
  if_pos hmask

theorem onConfirm_isFirst {home : QString} {now : QDateTime} {d : AlarmDialog}
    (hnow : now.isValid = true) (hmask : (d.onConfirm home now).repeatMask ≠ 0) :
    IsFirstOccurrence now d.time.selectedTime (d.onConfirm home now).repeatMask
      (d.onConfirm home now).dateTime := by
  obtain ⟨h0, h127⟩ := repeatMaskFromButtons_range d.weekdayButtons
  rw [onConfirm_dateTime, if_pos hmask]
  exact computeNextRepeatDateTime_isFirst hnow h0 h127 hmask

theorem onConfirm_time {home : QString} {now : QDateTime} (hnow : now.isValid = true)
    (d : AlarmDialog) : (d.onConfirm home now).dateTime.time = d.time.selectedTime := by
  by_cases hmask : (d.onConfirm home now).repeatMask ≠ 0
  · exact (onConfirm_isFirst hnow hmask).time_eq
  · rw [onConfirm_dateTime, if_neg hmask]
    split_ifs
    · exact QDateTime.time_ofDateTime _ _
    · exact (todayOrTomorrow_spec hnow _).2.2

theorem onConfirm_ok {d : AlarmDialog} (h : d.Ok) (home : QString) (now : Nat) :
    (d.onConfirm home (QDateTime.currentDateTime now)).Ok := by
  have hnow := QDateTime.inCommonEra_currentDateTime now
  refine ⟨?_, repeatMaskFromButtons_range _, ?_, fun hmask => onConfirm_specific hmask, ?_, h.mode,
    h.game⟩
  · by_cases hmask : (d.onConfirm home (QDateTime.currentDateTime now)).repeatMask ≠ 0
    · have hfirst := onConfirm_isFirst hnow.1 hmask
      exact hnow.of_lt hfirst.valid hfirst.after
    · rw [onConfirm_dateTime, if_neg hmask]
      split
      · obtain ⟨jd, hjd, hfirst⟩ := h.date
        rw [hjd]
        exact QDateTime.inCommonEra_ofDateTime hfirst _
      · obtain ⟨hvalid, hafter, -⟩ := todayOrTomorrow_spec hnow.1 d.time.selectedTime
        exact hnow.of_lt hvalid hafter
  · intro hmask
    exact (onConfirm_isFirst hnow.1 hmask).weekday
  · intro hmask
    rw [(onConfirm_isFirst hnow.1 hmask).time_eq]
    exact d.time.selectedTime_wholeMinute

/-- No weekday is checked, and the fixed date in use has passed at the time of day shown. -/
def PastDate (d : AlarmDialog) (now : QDateTime) : Prop :=
  repeatMaskFromButtons d.weekdayButtons = 0 ∧ d.useSpecificDate = true ∧
    QDateTime.ofDateTime d.specificDate d.time.selectedTime ≤ now

/-- The date-time handed back is after now, except where `onConfirm` takes a fixed date as
    it is. -/
theorem onConfirm_after {d : AlarmDialog} {home : QString} {now : QDateTime}
    (hnow : now.isValid = true) : now < (d.onConfirm home now).dateTime ↔ ¬ d.PastDate now := by
  by_cases hmask : repeatMaskFromButtons d.weekdayButtons ≠ 0
  · exact ⟨fun _ h => hmask h.1, fun _ => (onConfirm_isFirst hnow hmask).after⟩
  · have hzero := not_not.mp hmask
    have hkept : (d.onConfirm home now).useSpecificDate = d.useSpecificDate := if_neg hmask
    have hnone : ¬ (d.onConfirm home now).repeatMask ≠ 0 := hmask
    rw [onConfirm_dateTime, if_neg hnone, hkept]
    by_cases hspecific : d.useSpecificDate = true
    · rw [if_pos hspecific, ← QDateTime.not_le]
      simp only [PastDate, hzero, hspecific, true_and]
    · rw [if_neg hspecific]
      exact ⟨fun _ h => hspecific h.2.1, fun _ => (todayOrTomorrow_spec hnow _).2.1⟩

end AlarmDialog

end AlarmClock
