import AlarmClock.CalendarColors
import AlarmClock.Lib.Machine

/-!
# The list and the calendar of a log

The statistics dialog shows a log as a list, of all records or of one day, and as a calendar
whose coloured days can be clicked. The list asks for a dismissal time that was read, the
calendar for both times. A click filters the text that the dialog holds then, by a day that
the calendar took from the text before; the dialog keeps the two together.
-/

namespace AlarmClock

namespace StatDialog

/-- The dismissal time of the record was read, and it is on the day. -/
def fallsOn (d : QDate) (r : Record) : Bool := r.dismissDt.isValid && r.dismissDt.date == d

theorem passes_some (jd : Int) (r : Record) : passes (some jd) r = fallsOn (some jd) r := rfl

/-- A record that colours a day falls on it. -/
theorem fallsOn_of_countsFor {d : QDate} {r : Record} (h : countsFor d r = true) :
    fallsOn d r = true := by
  obtain ⟨htimes, hdate⟩ := Bool.and_eq_true_iff.mp h
  obtain ⟨-, hdismiss⟩ := Bool.and_eq_true_iff.mp htimes
  exact Bool.and_eq_true_iff.mpr ⟨hdismiss, beq_iff_eq.mpr (of_decide_eq_true hdate)⟩

theorem date_of_fallsOn {d : QDate} {r : Record} (h : fallsOn d r = true) :
    r.dismissDt.date = d :=
  beq_iff_eq.mp (Bool.and_eq_true_iff.mp h).2

theorem isValid_of_fallsOn {d : QDate} {r : Record} (h : fallsOn d r = true) :
    ∃ jd, d = some jd := by
  obtain ⟨hvalid, -⟩ := Bool.and_eq_true_iff.mp h
  exact ⟨_, (date_of_fallsOn h).symm.trans (QDateTime.date_of_isValid hvalid)⟩

/-! ### The calendar -/

/-- A cell of the calendar: its day, and the value that colours it. -/
structure Cell where
  date : QDate
  val : Int
deriving DecidableEq, Repr

def Cell.clickable (cell : Cell) : Bool := decide (0 < cell.val)

/-- The cells of a month: `CalendarWidget::rebuild`. -/
def rebuild (month : QDate) (data : CalendarData) : List Cell :=
  (List.range (Gregorian.monthDays month.year month.month).toNat).map fun i =>
    let d := QDate.ofYMD month.year month.month (i + 1)
    { date := d, val := (data d).getD 0 }

theorem val_of_mem_rebuild {month : QDate} {data : CalendarData} {cell : Cell}
    (h : cell ∈ rebuild month data) : cell.val = (data cell.date).getD 0 := by
  obtain ⟨i, -, rfl⟩ := List.mem_map.mp h
  rfl

variable {fileExists : QString → Bool}

/-- The records of the list. -/
def shown (s : StatDialog) : List Record := s.rows.map (·.record)

theorem shown_day (logData : QString) (jd : Int) (s : StatDialog) :
    (populateList fileExists logData (some jd) s).shown =
      (populateList fileExists logData none s).shown.filter (fallsOn (some jd)) := by
  rw [shown, shown, records_populateList, records_populateList_all]
  exact List.filter_congr fun r _ => passes_some jd r

/-- **A clickable day.** Some record of the text colours it. -/
theorem exists_countsFor {logData : QString} {s : StatDialog} {month : QDate} {cell : Cell}
    (hcell : cell ∈ rebuild month (populateList fileExists logData none s).calendar)
    (hclickable : cell.clickable = true) :
    ∃ r ∈ records logData, countsFor cell.date r = true := by
  have hpos : 0 < cell.val := of_decide_eq_true hclickable
  rw [val_of_mem_rebuild hcell, calendar_populateList] at hpos
  cases hfilter : (records logData).filter (countsFor cell.date) with
  | nil => simp [hfilter] at hpos
  | cons r rs =>
    have hr : r ∈ (records logData).filter (countsFor cell.date) := by
      rw [hfilter]
      exact List.mem_cons_self
    exact ⟨r, List.mem_of_mem_filter hr, List.of_mem_filter hr⟩

/-- The list of a day that can be clicked. -/
theorem shown_clickable {logData : QString} {s : StatDialog} {month : QDate} {cell : Cell}
    (hcell : cell ∈ rebuild month (populateList fileExists logData none s).calendar)
    (hclickable : cell.clickable = true) :
    (populateList fileExists logData cell.date s).shown ≠ [] ∧
      ∀ r ∈ (populateList fileExists logData none s).shown, countsFor cell.date r = true →
        r ∈ (populateList fileExists logData cell.date s).shown := by
  obtain ⟨r₀, hr₀, hcounts₀⟩ := exists_countsFor hcell hclickable
  obtain ⟨jd, hjd⟩ := isValid_of_fallsOn (fallsOn_of_countsFor hcounts₀)
  have hlisted : ∀ r ∈ (populateList fileExists logData none s).shown,
      countsFor cell.date r = true →
        r ∈ (populateList fileExists logData cell.date s).shown := by
    intro r hr hcounts
    rw [hjd, shown_day]
    exact List.mem_filter.mpr ⟨hr, hjd ▸ fallsOn_of_countsFor hcounts⟩
  refine ⟨?_, hlisted⟩
  have hall : r₀ ∈ (populateList fileExists logData none s).shown := by
    rw [shown, records_populateList_all]
    exact hr₀
  exact List.ne_nil_of_mem (hlisted r₀ hall hcounts₀)

/-- **List and calendar agree.** For every log, the list of a day is what falls on it of the
    list of all records, in order; the list of a day that can be clicked is not empty and has
    every record that colours the day; and no record is in the lists of two days. -/
theorem log_views (fileExists : QString → Bool) (logData : QString) (s : StatDialog) :
    (∀ jd, (populateList fileExists logData (some jd) s).shown =
      (populateList fileExists logData none s).shown.filter (fallsOn (some jd))) ∧
    (∀ month, ∀ cell ∈ rebuild month (populateList fileExists logData none s).calendar,
      cell.clickable = true →
        (populateList fileExists logData cell.date s).shown ≠ [] ∧
        ∀ r ∈ (populateList fileExists logData none s).shown, countsFor cell.date r = true →
          r ∈ (populateList fileExists logData cell.date s).shown) ∧
    ∀ jd jd', jd ≠ jd' →
      (populateList fileExists logData (some jd) s).shown.Disjoint
        (populateList fileExists logData (some jd') s).shown := by
  refine ⟨fun jd => shown_day logData jd s, ?_, ?_⟩
  · intro month cell hcell hclickable
    exact shown_clickable hcell hclickable
  · intro jd jd' hne r hr hr'
    rw [shown_day] at hr hr'
    have hdate := date_of_fallsOn (List.mem_filter.mp hr).2
    have hdate' := date_of_fallsOn (List.mem_filter.mp hr').2
    exact hne (Option.some.inj (hdate.symm.trans hdate'))

/-! ### The open dialog -/

/-- The dialog with what its list is filtered by, and the page of the stack. -/
structure Opened where
  dialog : StatDialog
  filterDate : QDate := none
  onCalendar : Bool := true

/-- `day` is a click on a cell of the month that the calendar has been turned to. A click that
    comes less than 300 ms after the last is no event. -/
inductive Event where
  | day (month : QDate) (i : Nat)
  | graphBtn
  | refresh (data : QString)
deriving DecidableEq, Repr

namespace Opened

/-- The dialog as its constructors leave it. -/
def initial (fileExists : QString → Bool) (friendIp logData : QString) : Opened where
  dialog := populateList fileExists logData none { friendIp := friendIp }

def populate (fileExists : QString → Bool) (logData : QString) (filterDate : QDate)
    (onCalendar : Bool) (v : Opened) : Opened where
  dialog := populateList fileExists logData filterDate v.dialog
  filterDate := filterDate
  onCalendar := onCalendar

def step (fileExists : QString → Bool) (v : Opened) : Event → Option Opened
  | .day month i =>
    match (rebuild month v.dialog.calendar)[i]? with
    | some cell =>
      if v.onCalendar ∧ cell.clickable then
        some (v.populate fileExists v.dialog.logData cell.date false)
      else none
    | none => none
  | .graphBtn =>
    some (if v.onCalendar then v.populate fileExists v.dialog.logData none false
      else { v with onCalendar := true })
  | .refresh data =>
    if v.dialog.friendIp ≠ [] then some (v.populate fileExists data none true) else none

/-- The calendar is that of the text that the dialog holds, and so is the list. -/
structure Inv (fileExists : QString → Bool) (v : Opened) : Prop where
  calendar : v.dialog.calendar = (populateList fileExists v.dialog.logData none v.dialog).calendar
  list : v.dialog.shown = (records v.dialog.logData).filter (passes v.filterDate)

theorem Inv.populate {v : Opened} (hi : v.Inv fileExists) (logData : QString)
    (filterDate : QDate) (onCalendar : Bool)
    (hdate : filterDate.isValid = true → logData = v.dialog.logData) :
    (v.populate fileExists logData filterDate onCalendar).Inv fileExists := by
  refine ⟨?_, records_populateList logData filterDate v.dialog⟩
  rw [calendar_populateList_eq]
  cases filterDate with
  | none => exact calendar_populateList_eq fileExists logData v.dialog
  | some jd =>
    -- a filtered list leaves the calendar as it is
    obtain rfl := hdate rfl
    exact hi.calendar.trans (calendar_populateList_eq fileExists _ _)

theorem inv_step {v v' : Opened} {e : Event} (hi : v.Inv fileExists)
    (hstep : v.step fileExists e = some v') : v'.Inv fileExists := by
  cases e with
  | day month i =>
    simp only [step] at hstep
    split at hstep
    · obtain ⟨-, rfl⟩ := Machine.guarded_eq_some hstep
      exact hi.populate _ _ _ fun _ => rfl
    · cases hstep
  | graphBtn =>
    obtain rfl := Option.some.inj hstep
    split_ifs
    · exact hi.populate _ _ _ nofun
    · exact ⟨hi.calendar, hi.list⟩
  | refresh data =>
    obtain ⟨-, rfl⟩ := Machine.guarded_eq_some hstep
    exact hi.populate _ _ _ nofun

theorem inv_initial (friendIp logData : QString) :
    (initial fileExists friendIp logData).Inv fileExists := by
  refine ⟨?_, records_populateList logData none _⟩
  rw [calendar_populateList_eq]
  exact calendar_populateList_eq fileExists logData _

end Opened

/-- **A click on a day.** In every state of the open dialog, whatever was clicked and fetched
    before, a click on a coloured day shows the records of the text that fall on it, and there
    is one. -/
theorem shown_click {friendIp logData : QString} {es : List Event} {v v' : Opened}
    (hrun : Machine.run (Opened.step fileExists) (Opened.initial fileExists friendIp logData) es =
      some v) {month : QDate} {i : Nat} (hclick : v.step fileExists (.day month i) = some v') :
    v'.dialog.shown = (records v'.dialog.logData).filter (fallsOn v'.filterDate) ∧
      v'.dialog.shown ≠ [] := by
  have hi : v.Inv fileExists :=
    Machine.run_invariant (fun _ _ _ hi hstep => Opened.inv_step hi hstep)
      (Opened.inv_initial friendIp logData) hrun
  have hi' := Opened.inv_step hi hclick
  simp only [Opened.step] at hclick
  split at hclick
  · next cell hcell =>
    obtain ⟨⟨-, hclickable⟩, rfl⟩ := Machine.guarded_eq_some hclick
    have hmem := List.mem_of_getElem? hcell
    rw [hi.calendar] at hmem
    obtain ⟨r, hr, hcounts⟩ := exists_countsFor hmem hclickable
    obtain ⟨jd, hjd⟩ := isValid_of_fallsOn (fallsOn_of_countsFor hcounts)
    refine ⟨?_, (shown_clickable hmem hclickable).1⟩
    refine hi'.list.trans (List.filter_congr fun r _ => ?_)
    show passes cell.date r = fallsOn cell.date r
    rw [hjd]
    exact passes_some jd r
  · cases hclick

end StatDialog

end AlarmClock
