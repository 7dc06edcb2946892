import AlarmClock.DateTimeText
import AlarmClock.QString

/-!
# The statistics dialog

`populateList` reads a log, line by line, into rows and, when no day is selected, into
the colours of the calendar. The loop is taken apart into the records of the text, in
order, and the two views of them.
-/

namespace AlarmClock

namespace StatDialog

/-! ### Records -/

/-- One record of a log: the texts of its fields, and what they parse to. -/
structure Record where
  alarmTime : QString := []
  dismissTime : QString := []
  photoPath : QString := []
  alarmDt : QDateTime := ⟨0, false⟩
  dismissDt : QDateTime := ⟨0, false⟩
deriving DecidableEq, Repr

/-- One part of a line; a part that begins with none of the words is passed over. -/
def readPart (r : Record) (part : QString) : Record :=
  if part.startsWith "ALARM: ".toList then { r with alarmTime := (part.mid 7).trimmed }
  else if part.startsWith "DISMISSED: ".toList then { r with dismissTime := (part.mid 11).trimmed }
  else if part.startsWith "PHOTO: ".toList then { r with photoPath := (part.mid 7).trimmed }
  else r

/-- The texts of a line. A line without an alarm time stands for its own. -/
def readTexts (line : QString) : Record :=
  let r := (line.splitSkipEmptyParts " | ".toList).foldl readPart {}
  if r.alarmTime.isEmpty then { r with alarmTime := line } else r

/-- Parse datetimes, when both are there. -/
def parseDates (r : Record) : Record :=
  if r.alarmTime.isEmpty ∨ r.dismissTime.isEmpty then r
  else { r with
    alarmDt := QDateTime.fromString minuteFormat r.alarmTime
    dismissDt := QDateTime.fromString secondFormat r.dismissTime }

def readLine (line : QString) : Record := parseDates (readTexts line)

/-- The records of a log, in order; a blank line is none. -/
def records (logData : QString) : List Record :=
  (((Text.lines '\n' logData).map QString.trimmed).filter (· ≠ [])).map readLine

/-! ### The two views -/

/-- The day filter: everything passes the null date. -/
def passes (filterDate : QDate) (r : Record) : Bool :=
  !filterDate.isValid || (r.dismissDt.isValid && r.dismissDt.date == filterDate)

/-- `alarmDt.secsTo(dismissDt)` in an `int`. -/
def reactionSecs (r : Record) : Int :=
  Int.bmod ((r.dismissDt.msecs - r.alarmDt.msecs).tdiv 1000) 4294967296

/-- The colour of a reaction time. -/
def colorVal (secs : Int) : Int :=
  if secs ≤ 30 then 1 else if secs ≤ 120 then 2 else 3

/-- `QMap<QDate, int>` -/
abbrev CalendarData := QDate → Option Int

/-- `calData[date] = qMax(calData.value(date, 0), colorVal)` for one record. -/
def addColor (filterDate : QDate) (calData : CalendarData) (r : Record) : CalendarData :=
  if !filterDate.isValid && r.alarmDt.isValid && r.dismissDt.isValid then
    let date := r.dismissDt.date
    fun d =>
      if d = date then some (max ((calData date).getD 0) (colorVal (reactionSecs r)))
      else calData d
  else calData

/-- A row of the list: its number, its record, and whether it has a View button. -/
structure Row where
  number : Nat
  record : Record
  hasPhoto : Bool
deriving DecidableEq, Repr

def Row.dismissLabel (row : Row) : QString :=
  if row.record.dismissTime.isEmpty then "(no record)".toList else row.record.dismissTime

/-- The locals of the loop of `populateList`. -/
structure Loop where
  count : Nat := 0
  calData : CalendarData := fun _ => none
  rows : List Row := []

end StatDialog

/-- The dialog: the address of the friend, empty for the local log, the log, and the
    contents of the widgets. `emptyText` is the entry that an empty list shows. -/
structure StatDialog where
  friendIp : QString := []
  logData : QString := []
  rows : List StatDialog.Row := []
  emptyText : Option QString := none
  summary : QString := []
  calendar : StatDialog.CalendarData := fun _ => none

namespace StatDialog

variable (fileExists : QString → Bool)

/-- One round of the loop, on a line. -/
def addLine (isFriend : Bool) (filterDate : QDate) (s : Loop) (line : QString) : Loop :=
  let line := line.trimmed
  if line.isEmpty then s
  else
    let r := readLine line
    if !passes filterDate r then s
    else
      let count := s.count + 1
      { count := count
        calData := addColor filterDate s.calData r
        rows := s.rows ++ [
          { number := count
            record := r
            hasPhoto := !r.photoPath.isEmpty && (isFriend || fileExists r.photoPath) }] }

def populateList (logData : QString) (filterDate : QDate) (d : StatDialog) : StatDialog :=
  let isFriend := !d.friendIp.isEmpty
  let s := (Text.lines '\n' logData).foldl (addLine fileExists isFriend filterDate) {}
  { d with
    logData := logData
    rows := s.rows
    emptyText :=
      if s.count = 0 then
        some (if filterDate.isValid then "No records found for this date.".toList
          else if isFriend then
            "No records found (check connection or friend has no alarms yet).".toList
          else "No records found.".toList)
      else none
    summary :=
      if 0 < s.count then
        "Total ".toList ++ TextFormat.decimal s.count ++ " record(s)".toList
      else if filterDate.isValid then "No records for this date.".toList
      else "Log file is empty or not found.".toList
    calendar := if filterDate.isValid then d.calendar else s.calData }

/-! ### The loop is a fold over the records -/

/-- One round on a record that passes the filter. -/
def addRecord (isFriend : Bool) (filterDate : QDate) (s : Loop) (r : Record) : Loop where
  count := s.count + 1
  calData := addColor filterDate s.calData r
  rows := s.rows ++ [
    { number := s.count + 1
      record := r
      hasPhoto := !r.photoPath.isEmpty && (isFriend || fileExists r.photoPath) }]

variable {fileExists}

theorem foldl_addLine (isFriend : Bool) (filterDate : QDate) (lines : List QString) (s : Loop) :
    lines.foldl (addLine fileExists isFriend filterDate) s =
      ((((lines.map QString.trimmed).filter (· ≠ [])).map readLine).filter
        (passes filterDate)).foldl (addRecord fileExists isFriend filterDate) s := by
  induction lines generalizing s with
  | nil => rfl
  | cons line lines ih =>
    rw [List.foldl_cons, ih, List.map_cons]
    by_cases hempty : line.trimmed = []
    · have hround : addLine fileExists isFriend filterDate s line = s := by
        simp [addLine, hempty]
      rw [hround, List.filter_cons_of_neg (by simpa using hempty)]
    · rw [List.filter_cons_of_pos (by simpa using hempty), List.map_cons]
      by_cases hpasses : passes filterDate (readLine line.trimmed) = true
      · have hround : addLine fileExists isFriend filterDate s line =
            addRecord fileExists isFriend filterDate s (readLine line.trimmed) := by
          simp [addLine, addRecord, hempty, hpasses]
        rw [hround, List.filter_cons_of_pos hpasses, List.foldl_cons]
      · have hround : addLine fileExists isFriend filterDate s line = s := by
          simp [addLine, hempty, hpasses]
        rw [hround, List.filter_cons_of_neg hpasses]

theorem rows_foldl_addRecord (isFriend : Bool) (filterDate : QDate) (rs : List Record) (s : Loop) :
    (rs.foldl (addRecord fileExists isFriend filterDate) s).rows.map (·.record) =
      s.rows.map (·.record) ++ rs := by
  induction rs generalizing s with
  | nil => simp
  | cons r rs ih =>
    rw [List.foldl_cons, ih]
    simp [addRecord]

theorem records_append (l l' : QString) :
    records (l ++ '\n' :: l') =
      (((l.splitOn '\n').map QString.trimmed).filter (· ≠ [])).map readLine ++ records l' := by
  unfold records
  rw [Text.lines_append, List.map_append, List.filter_append, List.map_append]

/-- A log that ends with the end of a line. -/
def Whole (logData : QString) : Prop := logData = [] ∨ logData.getLast? = some '\n'

instance (logData : QString) : Decidable (Whole logData) :=
  inferInstanceAs (Decidable (_ ∨ _))

/-- What is appended to whole lines is read by itself. -/
theorem Whole.records_append {logData : QString} (h : Whole logData) (rest : QString) :
    records (logData ++ rest) = records logData ++ records rest := by
  rcases h with rfl | hlast
  · rfl
  · obtain ⟨l, rfl⟩ := List.getLast?_eq_some_iff.mp hlast
    have hnil : records [] = [] := rfl
    rw [List.append_assoc, List.singleton_append, StatDialog.records_append,
      StatDialog.records_append l [], hnil, List.append_nil]

/-- **The rows of the list** are the records of the text that pass the filter, in order. -/
theorem records_populateList (logData : QString) (filterDate : QDate) (d : StatDialog) :
    (populateList fileExists logData filterDate d).rows.map (·.record) =
      (records logData).filter (passes filterDate) := by
  show (((Text.lines '\n' logData).foldl (addLine fileExists (!d.friendIp.isEmpty) filterDate)
    {}).rows.map _) = _
  rw [foldl_addLine]
  exact rows_foldl_addRecord (!d.friendIp.isEmpty) filterDate _ {}

/-- With no day selected every record has its row. -/
theorem records_populateList_all (logData : QString) (d : StatDialog) :
    (populateList fileExists logData none d).rows.map (·.record) = records logData := by
  rw [records_populateList]
  exact List.filter_eq_self.mpr fun _ _ => rfl

end StatDialog

end AlarmClock
