import AlarmClock.UntouchedEdit
import AlarmClock.Lib.Controls

/-!
# The alarm editor as it is used

`AlarmDialog` takes presses as its slots accept them and has no face. Here is what lies
between the finger and the slots: the buttons that repeat while they are held, the locks
that swallow phantom clicks, the calendar dialog while it is open, and the labels, which
every slot refreshes in part.
-/

namespace AlarmClock

open QDateTime TextFormat

/-! ### What the editor shows -/

/-- `yyyy-MM-dd` -/
def dateFormat : List TextFormat.Field := [.digits 4, .lit '-', .digits 2, .lit '-', .digits 2]

/-- The labels, the mode button that is lit, the page of the game option, and the item of the
    game combo box. -/
structure EditorView where
  ampmValueLabel : QString := []
  hourValueLabel : QString := []
  minuteValueLabel : QString := []
  dateSummaryLabel : QString := []
  litMode : DismissMode → Bool := fun _ => false
  gameOptionStack : Nat := 0
  gameCombo : GameType

namespace AlarmDialog

/-- `m_gameCombo->findData(m_gameType)`, or the first item when it is not offered. -/
def findGame (gameType : Int) : GameType :=
  ([.GameNumberOrder, .GameColorMemory, .GameUltrasonic].find? fun g =>
    g.toInt == gameType).getD .GameNumberOrder

theorem findGame_toInt (g : GameType) : findGame g.toInt = g := by
  cases g <;> rfl

def dateSummary (d : AlarmDialog) : QString :=
  if repeatMaskFromButtons d.weekdayButtons ≠ 0 then "Weekly repeat enabled".toList
  else if d.useSpecificDate then
    "Date: ".toList ++
      if d.specificDate.isValid then render dateFormat d.specificDate.fields else []
  else []

/-- Everything at once: what the labels of the dialog should show. -/
def view (d : AlarmDialog) : EditorView where
  ampmValueLabel := if d.time.ampm = 0 then "AM".toList else "PM".toList
  hourValueLabel := decimal d.time.hour12
  minuteValueLabel := padded 2 d.time.minute.toNat
  dateSummaryLabel := d.dateSummary
  litMode := fun m => decide (d.dismissMode = m.toInt)
  gameOptionStack := if d.dismissMode = DismissMode.DismissGame.toInt then 1 else 0
  gameCombo := findGame d.gameType

end AlarmDialog

/-! ### The calendar dialog while it is open -/

/-- The fields, their labels, and the buttons; `presses` are the actions so far. -/
structure CalendarSession where
  fields : CalendarDialog
  yearValue : QString := []
  monthValue : QString := []
  dayValue : QString := []
  button : LongPress CalendarDialog.Press := {}
  presses : List CalendarDialog.Press := []

namespace CalendarSession

/-- The labels that `refresh` sets, after it has clamped the day. -/
def refreshLabels (c : CalendarSession) : CalendarSession :=
  { c with
    yearValue := decimal c.fields.year
    monthValue := decimal c.fields.month
    dayValue := decimal c.fields.day }

def opened (d : AlarmDialog) : CalendarSession :=
  refreshLabels
    { fields := CalendarDialog.refresh ⟨d.specificDate.year, d.specificDate.month,
        d.specificDate.day⟩ }

def act (c : CalendarSession) (p : CalendarDialog.Press) : CalendarSession :=
  refreshLabels { c with fields := c.fields.press p, presses := c.presses ++ [p] }

def step (c : CalendarSession) (e : LongPress.Event CalendarDialog.Press) :
    Option CalendarSession :=
  (c.button.step 600 150 e).map fun x =>
    let c := { c with button := x.1 }
    x.2.elim c c.act

end CalendarSession

/-! ### The editor -/

/-- The buttons of `connectRepeatButton`. -/
inductive TimeButton where
  | hourPlus
  | hourMinus
  | minutePlus
  | minuteMinus
deriving DecidableEq, Repr

def TimeButton.action : TimeButton → AlarmDialog.Press
  | .hourPlus => .increaseHour
  | .hourMinus => .decreaseHour
  | .minutePlus => .increaseMinute
  | .minuteMinus => .decreaseMinute

/-- The controls that are disabled for a moment when they are used. -/
inductive EditorControl where
  | ampmPlus
  | ampmMinus
  | mode (m : DismissMode)
  | calendarToggle
  | gameCombo
  | soundCombo
deriving DecidableEq, Repr

/-- The dialog with its face; `log` are the presses that its slots have accepted. -/
structure AlarmSession where
  dialog : AlarmDialog
  view : EditorView
  button : LongPress TimeButton := {}
  disabled : Lockout EditorControl := {}
  weekdayLocked : Lockout (Fin 7) := {}
  calendar : Option CalendarSession := none
  log : List AlarmDialog.Press := []

namespace AlarmSession

def refreshTimeLabels (s : AlarmSession) : AlarmSession :=
  { s with view := { s.view with
      ampmValueLabel := if s.dialog.time.ampm = 0 then "AM".toList else "PM".toList
      hourValueLabel := decimal s.dialog.time.hour12
      minuteValueLabel := padded 2 s.dialog.time.minute.toNat } }

def refreshModeStyle (s : AlarmSession) : AlarmSession :=
  { s with view := { s.view with
      litMode := fun m => decide (s.dialog.dismissMode = m.toInt)
      gameOptionStack := if s.dialog.dismissMode = DismissMode.DismissGame.toInt then 1 else 0 } }

def refreshDateSummary (s : AlarmSession) : AlarmSession :=
  { s with view := { s.view with dateSummaryLabel := s.dialog.dateSummary } }

/-- The end of the constructor. -/
def opened (d : AlarmDialog) : AlarmSession :=
  refreshDateSummary (refreshModeStyle (refreshTimeLabels
    { dialog := d, view := { gameCombo := AlarmDialog.findGame d.gameType } }))

/-- A slot changes the members. -/
def accept (p : AlarmDialog.Press) (s : AlarmSession) : AlarmSession :=
  { s with dialog := s.dialog.press p, log := s.log ++ [p] }

def disable (c : EditorControl) (s : AlarmSession) : AlarmSession :=
  { s with disabled := s.disabled.lock c }

/-- `m_weekdayButtons[i]->setChecked(checked)` -/
def setChecked (i : Fin 7) (checked : Bool) (s : AlarmSession) : AlarmSession :=
  { s with dialog := { s.dialog with
      weekdayButtons := Function.update s.dialog.weekdayButtons i checked } }

/-- The slot of a weekday button, which the click has toggled already. -/
def clickWeekday (i : Fin 7) (s : AlarmSession) : AlarmSession :=
  let checked := !s.dialog.weekdayButtons i
  let s := s.setChecked i checked
  if s.weekdayLocked.locked i then
    -- revert the toggle
    s.setChecked i !checked
  else
    refreshDateSummary
      { s with weekdayLocked := s.weekdayLocked.lock i, log := s.log ++ [.weekday i] }

/-- A click on one of the controls that are disabled by it. -/
inductive Click where
  | ampmPlus
  | ampmMinus
  | mode (m : DismissMode)
  | calendarToggle
  | game (g : GameType)
  | sound (i : Fin 3)
deriving DecidableEq, Repr

def Click.control : Click → EditorControl
  | .ampmPlus => .ampmPlus
  | .ampmMinus => .ampmMinus
  | .mode m => .mode m
  | .calendarToggle => .calendarToggle
  | .game _ => .gameCombo
  | .sound _ => .soundCombo

/-- The game combo box is on the second page of its stack. -/
def Click.visible (s : AlarmSession) : Click → Bool
  | .game _ => s.view.gameOptionStack == 1
  | _ => true

/-- The slots, after the control was disabled. -/
def clicked (s : AlarmSession) : Click → AlarmSession
  | .ampmPlus => refreshTimeLabels (s.accept .increaseAmPm)
  | .ampmMinus => refreshTimeLabels (s.accept .decreaseAmPm)
  | .mode m => refreshModeStyle (s.accept (.mode m))
  | .calendarToggle => { s with calendar := some (CalendarSession.opened s.dialog) }
  | .game g => { s.accept (.game g) with view := { s.view with gameCombo := g } }
  | .sound i => s.accept (.sound i)

/-- The calendar dialog closes; it was accepted unless it was cancelled. -/
def closeCalendar (s : AlarmSession) (c : CalendarSession) (close : CalendarDialog.Close) :
    AlarmSession :=
  let s := { s.accept (.calendar c.presses close) with calendar := none }
  if close = .cancel then s else refreshDateSummary s

inductive Event where
  | time (e : LongPress.Event TimeButton)
  | click (c : Click)
  | weekday (i : Fin 7)
  | calendar (e : LongPress.Event CalendarDialog.Press)
  | close (close : CalendarDialog.Close)
  | enable (c : EditorControl)
  | unlock (i : Fin 7)
deriving DecidableEq, Repr

/-- The pointer is free for a click on the editor: the calendar dialog is modal, and a button
    that is held has the pointer. -/
def free (s : AlarmSession) : Bool := s.calendar.isNone && s.button.held.isNone

/-- Timers run in the nested loop of the calendar dialog too. -/
def step (s : AlarmSession) : Event → Option AlarmSession
  | .time e =>
    if s.calendar.isNone ∨ e = .timeout then
      (s.button.step 600 150 e).map fun x =>
        let s := { s with button := x.1 }
        x.2.elim s fun b => refreshTimeLabels (s.accept b.action)
    else none
  | .click c =>
    if s.free ∧ c.visible s ∧ s.disabled.locked c.control = false then
      some (clicked (s.disable c.control) c)
    else none
  | .weekday i => if s.free then some (s.clickWeekday i) else none
  | .calendar e => s.calendar.bind fun c => (c.step e).map fun c => { s with calendar := some c }
  | .close close => s.calendar.map fun c => s.closeCalendar c close
  | .enable c => (s.disabled.timeout c).map fun disabled => { s with disabled := disabled }
  | .unlock i =>
    (s.weekdayLocked.timeout i).map fun weekdayLocked => { s with weekdayLocked := weekdayLocked }

/-! ### What every event keeps -/

end AlarmSession

/-- The labels of the calendar dialog are up to date, its fields come from its presses, and a
    button acts only while it is held. -/
structure CalendarSession.Inv (d : AlarmDialog) (c : CalendarSession) : Prop where
  fields : c.fields = c.presses.foldl CalendarDialog.press
    (CalendarDialog.refresh ⟨d.specificDate.year, d.specificDate.month, d.specificDate.day⟩)
  year : c.yearValue = decimal c.fields.year
  month : c.monthValue = decimal c.fields.month
  day : c.dayValue = decimal c.fields.day
  button : c.button.Inv 600 150

namespace CalendarSession

variable {d : AlarmDialog} {c c' : CalendarSession}

theorem inv_opened (d : AlarmDialog) : Inv d (opened d) :=
  ⟨rfl, rfl, rfl, rfl, LongPress.inv_init⟩

theorem inv_step (hi : Inv d c) {e : LongPress.Event CalendarDialog.Press}
    (h : c.step e = some c') : Inv d c' := by
  obtain ⟨⟨button, acts⟩, hbutton, rfl⟩ := Option.map_eq_some_iff.mp h
  obtain ⟨hnext, -⟩ := LongPress.step_cases hi.button hbutton
  cases acts with
  | none => exact ⟨hi.fields, hi.year, hi.month, hi.day, hnext⟩
  | some p =>
    refine ⟨?_, rfl, rfl, rfl, hnext⟩
    show c.fields.press p = (c.presses ++ [p]).foldl CalendarDialog.press _
    rw [List.foldl_append, ← hi.fields]
    rfl

end CalendarSession

namespace AlarmSession

/-- The face agrees with the members, the members come from the accepted presses, and the
    locks and the buttons are in order. -/
structure Inv (d₀ : AlarmDialog) (s : AlarmSession) : Prop where
  view : s.view = s.dialog.view
  log : s.dialog = s.log.foldl AlarmDialog.press d₀
  button : s.button.Inv 600 150
  disabled : s.disabled.Inv
  weekdayLocked : s.weekdayLocked.Inv
  calendar : ∀ c, s.calendar = some c → c.Inv s.dialog ∧ s.button.held = none

variable {d₀ : AlarmDialog} {s s' : AlarmSession}

theorem inv_opened (d : AlarmDialog) : Inv d (opened d) := by
  refine ⟨rfl, rfl, LongPress.inv_init, Lockout.inv_init, Lockout.inv_init, ?_⟩
  intro c hc
  cases hc

theorem log_accept (hlog : s.dialog = s.log.foldl AlarmDialog.press d₀) (p : AlarmDialog.Press) :
    (s.accept p).dialog = (s.accept p).log.foldl AlarmDialog.press d₀ := by
  show s.dialog.press p = (s.log ++ [p]).foldl AlarmDialog.press d₀
  rw [List.foldl_append, ← hlog]
  rfl

/-- The time labels are all that a change of the time needs. -/
theorem view_refreshTimeLabels {d : AlarmDialog} {t : TimeFields} (hview : s.view = d.view)
    (hdialog : s.dialog = { d with time := t }) :
    (refreshTimeLabels s).view = (refreshTimeLabels s).dialog.view := by
  unfold refreshTimeLabels
  rw [hview, hdialog]
  rfl

theorem view_refreshModeStyle {d : AlarmDialog} {mode : Int} (hview : s.view = d.view)
    (hdialog : s.dialog = { d with dismissMode := mode }) :
    (refreshModeStyle s).view = (refreshModeStyle s).dialog.view := by
  unfold refreshModeStyle
  rw [hview, hdialog]
  rfl

/-- The summary is all that a change of the weekdays or of the date needs. -/
theorem view_refreshDateSummary {d : AlarmDialog} {buttons : Fin 7 → Bool} {specific : Bool}
    {date : QDate} (hview : s.view = d.view)
    (hdialog : s.dialog = { d with
      weekdayButtons := buttons
      useSpecificDate := specific
      specificDate := date }) :
    (refreshDateSummary s).view = (refreshDateSummary s).dialog.view := by
  unfold refreshDateSummary
  rw [hview, hdialog]
  rfl

/-- A press that is accepted while no calendar dialog is open, with the labels that go with
    it. -/
theorem inv_accept (hi : Inv d₀ s) (hcalendar : s.calendar = none) (p : AlarmDialog.Press)
    {view : EditorView} (hview : view = (s.dialog.press p).view) :
    Inv d₀ { s.accept p with view := view } := by
  refine ⟨hview, log_accept hi.log p, hi.button, hi.disabled, hi.weekdayLocked, ?_⟩
  intro c hc
  cases hcalendar.symm.trans hc

/-- A button that is held changes a time field. -/
theorem inv_action (hi : Inv d₀ s) (hcalendar : s.calendar = none) (b : TimeButton) :
    Inv d₀ (refreshTimeLabels (s.accept b.action)) := by
  refine inv_accept hi hcalendar b.action ?_
  cases b with
  | hourPlus | hourMinus | minutePlus | minuteMinus =>
    exact view_refreshTimeLabels (d := s.dialog) hi.view rfl

theorem inv_clicked (hi : Inv d₀ s) (hcalendar : s.calendar = none) (hheld : s.button.held = none)
    (c : Click) : Inv d₀ (clicked s c) := by
  cases c with
  | ampmPlus =>
    exact inv_accept hi hcalendar .increaseAmPm
      (view_refreshTimeLabels (d := s.dialog) hi.view rfl)
  | ampmMinus =>
    exact inv_accept hi hcalendar .decreaseAmPm
      (view_refreshTimeLabels (d := s.dialog) hi.view rfl)
  | mode m =>
    exact inv_accept hi hcalendar (.mode m) (view_refreshModeStyle (d := s.dialog) hi.view rfl)
  | calendarToggle =>
    refine ⟨hi.view, hi.log, hi.button, hi.disabled, hi.weekdayLocked, ?_⟩
    intro c hc
    obtain rfl := Option.some.inj hc
    exact ⟨CalendarSession.inv_opened s.dialog, hheld⟩
  | game g =>
    refine inv_accept hi hcalendar (.game g) ?_
    rw [hi.view]
    simp only [AlarmDialog.view, AlarmDialog.press, AlarmDialog.findGame_toInt]
    rfl
  | sound i => exact inv_accept hi hcalendar (.sound i) hi.view

theorem press_weekday (d : AlarmDialog) (i : Fin 7) :
    d.press (.weekday i) =
      { d with weekdayButtons := Function.update d.weekdayButtons i (!d.weekdayButtons i) } := by
  have hbuttons : Function.update d.weekdayButtons i (!d.weekdayButtons i) =
      fun j => if j = i then !d.weekdayButtons i else d.weekdayButtons j :=
    funext fun j => Function.update_apply _ _ _ j
  rw [hbuttons]
  rfl

/-- A click on a locked button is taken back, and nothing else happens. -/
theorem clickWeekday_eq (i : Fin 7) (s : AlarmSession) :
    s.clickWeekday i =
      if s.weekdayLocked.locked i then s
      else refreshDateSummary { s.accept (.weekday i) with
        weekdayLocked := s.weekdayLocked.lock i } := by
  have hback : (s.setChecked i (!s.dialog.weekdayButtons i)).setChecked i
      (s.dialog.weekdayButtons i) = s := by
    simp only [setChecked, Function.update_idem, Function.update_eq_self]
  unfold clickWeekday accept
  dsimp only
  rw [Bool.not_not, hback, press_weekday]
  rfl

theorem inv_closeCalendar (hi : Inv d₀ s) {c : CalendarSession} (close : CalendarDialog.Close) :
    Inv d₀ (s.closeCalendar c close) := by
  have hlog := log_accept hi.log (.calendar c.presses close)
  have hnone : ∀ (d : AlarmDialog) (c' : CalendarSession), none = some c' →
      c'.Inv d ∧ s.button.held = none := by
    intro d c' hc'
    cases hc'
  cases close with
  | setDate =>
    exact ⟨view_refreshDateSummary (d := s.dialog) hi.view rfl, hlog, hi.button, hi.disabled,
      hi.weekdayLocked, hnone _⟩
  | useAutoDate =>
    exact ⟨view_refreshDateSummary (d := s.dialog) hi.view rfl, hlog, hi.button, hi.disabled,
      hi.weekdayLocked, hnone _⟩
  | cancel => exact ⟨hi.view, hlog, hi.button, hi.disabled, hi.weekdayLocked, hnone _⟩

/-- Every event, with what it finds and what it leaves. -/
inductive StepTo (s : AlarmSession) : Event → AlarmSession → Prop where
  | button (e : LongPress.Event TimeButton) (button : LongPress TimeButton)
      (hstep : s.button.step 600 150 e = some (button, none)) :
      StepTo s (.time e) { s with button := button }
  | action (e : LongPress.Event TimeButton) (button : LongPress TimeButton) (b : TimeButton)
      (hstep : s.button.step 600 150 e = some (button, some b)) (hcalendar : s.calendar = none) :
      StepTo s (.time e) (refreshTimeLabels (accept b.action { s with button := button }))
  | click (c : Click) (hcalendar : s.calendar = none) (hheld : s.button.held = none)
      (henabled : s.disabled.locked c.control = false) :
      StepTo s (.click c) (clicked (s.disable c.control) c)
  | swallowed (i : Fin 7) (hlocked : s.weekdayLocked.locked i = true) : StepTo s (.weekday i) s
  | weekday (i : Fin 7) (hcalendar : s.calendar = none)
      (hunlocked : s.weekdayLocked.locked i = false) :
      StepTo s (.weekday i) (refreshDateSummary { s.accept (.weekday i) with
        weekdayLocked := s.weekdayLocked.lock i })
  | calendar (e : LongPress.Event CalendarDialog.Press) (c c' : CalendarSession)
      (hcalendar : s.calendar = some c) (hstep : c.step e = some c') :
      StepTo s (.calendar e) { s with calendar := some c' }
  | close (close : CalendarDialog.Close) (c : CalendarSession) (hcalendar : s.calendar = some c) :
      StepTo s (.close close) (s.closeCalendar c close)
  | enable (c : EditorControl) (disabled : Lockout EditorControl)
      (htimeout : s.disabled.timeout c = some disabled) :
      StepTo s (.enable c) { s with disabled := disabled }
  | unlock (i : Fin 7) (weekdayLocked : Lockout (Fin 7))
      (htimeout : s.weekdayLocked.timeout i = some weekdayLocked) :
      StepTo s (.unlock i) { s with weekdayLocked := weekdayLocked }

theorem free_iff : s.free = true ↔ s.calendar = none ∧ s.button.held = none := by
  simp [free]

theorem step_cases (hi : Inv d₀ s) {e : Event} (h : step s e = some s') : StepTo s e s' := by
  cases e with
  | time e =>
    simp only [step] at h
    split_ifs at h with hmodal
    obtain ⟨⟨button, acts⟩, hstep, rfl⟩ := Option.map_eq_some_iff.mp h
    cases acts with
    | none => exact .button e button hstep
    | some b =>
      refine .action e button b hstep ?_
      -- the timer does not run while the calendar dialog is open
      rcases hmodal with hnone | rfl
      · exact Option.isNone_iff_eq_none.mp hnone
      · obtain ⟨-, ⟨_, he, -⟩ | ⟨he, -⟩ | ⟨_, -, hheld, -⟩⟩ := LongPress.step_cases hi.button hstep
        · cases he
        · cases he
        · cases hcalendar : s.calendar with
          | none => rfl
          | some c => cases hheld.symm.trans (hi.calendar c hcalendar).2
  | click c =>
    obtain ⟨⟨hfree, -, henabled⟩, rfl⟩ := Machine.guarded_eq_some h
    obtain ⟨hcalendar, hheld⟩ := free_iff.mp hfree
    exact .click c hcalendar hheld henabled
  | weekday i =>
    obtain ⟨hfree, rfl⟩ := Machine.guarded_eq_some h
    rw [clickWeekday_eq]
    split_ifs with hlocked
    · exact .swallowed i hlocked
    · exact .weekday i (free_iff.mp hfree).1 (Bool.eq_false_iff.mpr hlocked)
  | calendar e =>
    obtain ⟨c, hcalendar, hrest⟩ := Option.bind_eq_some_iff.mp h
    obtain ⟨c', hstep, rfl⟩ := Option.map_eq_some_iff.mp hrest
    exact .calendar e c c' hcalendar hstep
  | close close =>
    obtain ⟨c, hcalendar, rfl⟩ := Option.map_eq_some_iff.mp h
    exact .close close c hcalendar
  | enable c =>
    obtain ⟨disabled, htimeout, rfl⟩ := Option.map_eq_some_iff.mp h
    exact .enable c disabled htimeout
  | unlock i =>
    obtain ⟨weekdayLocked, htimeout, rfl⟩ := Option.map_eq_some_iff.mp h
    exact .unlock i weekdayLocked htimeout

theorem inv_step (hi : Inv d₀ s) {e : Event} (h : step s e = some s') : Inv d₀ s' := by
  cases step_cases hi h with
  | button e button hstep =>
    obtain ⟨hbutton, hcases⟩ := LongPress.step_cases hi.button hstep
    refine ⟨hi.view, hi.log, hbutton, hi.disabled, hi.weekdayLocked, ?_⟩
    intro c hc
    refine ⟨(hi.calendar c hc).1, ?_⟩
    rcases hcases with ⟨_, -, -, -, hacts⟩ | ⟨-, hheld, -⟩ | ⟨_, -, -, -, hacts⟩
    · cases hacts
    · exact hheld
    · cases hacts
  | action e button b hstep hcalendar =>
    obtain ⟨hbutton, -⟩ := LongPress.step_cases hi.button hstep
    have hi' : Inv d₀ { s with button := button } := by
      refine ⟨hi.view, hi.log, hbutton, hi.disabled, hi.weekdayLocked, ?_⟩
      intro c hc
      cases hcalendar.symm.trans hc
    exact inv_action hi' hcalendar b
  | click c hcalendar hheld henabled =>
    have hi' : Inv d₀ (s.disable c.control) :=
      ⟨hi.view, hi.log, hi.button, Lockout.inv_lock hi.disabled henabled, hi.weekdayLocked,
        hi.calendar⟩
    exact inv_clicked hi' hcalendar hheld c
  | swallowed => exact hi
  | weekday i hcalendar hunlocked =>
    refine ⟨view_refreshDateSummary (d := s.dialog) hi.view rfl, log_accept hi.log (.weekday i),
      hi.button, hi.disabled, Lockout.inv_lock hi.weekdayLocked hunlocked, ?_⟩
    intro c hc
    cases hcalendar.symm.trans hc
  | calendar e c c' hcalendar hstep =>
    refine ⟨hi.view, hi.log, hi.button, hi.disabled, hi.weekdayLocked, ?_⟩
    intro c₁ hc₁
    obtain rfl := Option.some.inj hc₁
    obtain ⟨hc, hheld⟩ := hi.calendar c hcalendar
    exact ⟨CalendarSession.inv_step hc hstep, hheld⟩
  | close close c => exact inv_closeCalendar hi close
  | enable c disabled htimeout =>
    exact ⟨hi.view, hi.log, hi.button, (Lockout.timeout_cases hi.disabled htimeout).1,
      hi.weekdayLocked, hi.calendar⟩
  | unlock i weekdayLocked htimeout =>
    exact ⟨hi.view, hi.log, hi.button, hi.disabled,
      (Lockout.timeout_cases hi.weekdayLocked htimeout).1, hi.calendar⟩

/-! ### Phantom clicks -/

/-- The state of a weekday button is the parity of its accepted clicks. -/
theorem weekdayButtons_foldl (ps : List AlarmDialog.Press) (d : AlarmDialog) (i : Fin 7) :
    (ps.foldl AlarmDialog.press d).weekdayButtons i =
      (d.weekdayButtons i ^^ (ps.count (.weekday i)).bodd) := by
  induction ps generalizing d with
  | nil => simp
  | cons p ps ih =>
    rw [List.foldl_cons, ih, List.count_cons]
    by_cases hp : p = .weekday i
    · subst hp
      have htoggled : (d.press (.weekday i)).weekdayButtons i = !d.weekdayButtons i := if_pos rfl
      rw [htoggled]
      simp
    · have hkept : (d.press p).weekdayButtons i = d.weekdayButtons i := by
        cases p with
        | weekday j =>
          have hij : i ≠ j := fun hij => hp (by rw [hij])
          exact if_neg hij
        | calendar presses close => cases close <;> rfl
        | increaseAmPm | decreaseAmPm | increaseHour | decreaseHour | increaseMinute
          | decreaseMinute | sound | mode | game => rfl
      rw [hkept]
      simp [hp]

/-- Every accepted click of a weekday button has locked it, and it is unlocked once for each. -/
def Debounced (es : List Event) (s : AlarmSession) (i : Fin 7) : Prop :=
  s.log.count (.weekday i) = es.count (.unlock i) + (s.weekdayLocked.locked i).toNat

theorem count_concat (log : List AlarmDialog.Press) (p : AlarmDialog.Press) (i : Fin 7) :
    (log ++ [p]).count (.weekday i) =
      log.count (.weekday i) + if p = .weekday i then 1 else 0 := by
  rw [List.count_append, List.count_singleton]
  simp

theorem count_clicked (s : AlarmSession) (c : Click) (i : Fin 7) :
    (clicked s c).log.count (.weekday i) = s.log.count (.weekday i) ∧
      (clicked s c).weekdayLocked = s.weekdayLocked := by
  cases c with
  | ampmPlus | ampmMinus | mode | game | sound => exact ⟨count_concat s.log _ i, rfl⟩
  | calendarToggle => exact ⟨rfl, rfl⟩

theorem count_closeCalendar (s : AlarmSession) (c : CalendarSession)
    (close : CalendarDialog.Close) (i : Fin 7) :
    (s.closeCalendar c close).log.count (.weekday i) = s.log.count (.weekday i) ∧
      (s.closeCalendar c close).weekdayLocked = s.weekdayLocked := by
  cases close with
  | setDate | useAutoDate | cancel => exact ⟨count_concat s.log _ i, rfl⟩

theorem debounced_step {es : List Event} (hi : Inv d₀ s) {i : Fin 7} (hd : Debounced es s i)
    {e : Event} (h : step s e = some s') : Debounced (es ++ [e]) s' i := by
  have hcount : (es ++ [e]).count (.unlock i) =
      es.count (.unlock i) + if e = .unlock i then 1 else 0 := by
    rw [List.count_append, List.count_singleton]
    simp
  unfold Debounced at hd ⊢
  rw [hcount]
  cases step_cases hi h with
  | button => simpa using hd
  | action e button b =>
    have hlog : (s.log ++ [b.action]).count (.weekday i) = s.log.count (.weekday i) := by
      rw [count_concat]
      cases b <;> rfl
    show (s.log ++ [b.action]).count (.weekday i) = _ + (s.weekdayLocked.locked i).toNat
    rw [hlog, hd]
    simp
  | click c =>
    obtain ⟨hlog, hlocked⟩ := count_clicked (s.disable c.control) c i
    rw [hlog, hlocked]
    show s.log.count (.weekday i) = _ + (s.weekdayLocked.locked i).toNat
    simpa using hd
  | swallowed => simpa using hd
  | weekday j hcalendar hunlocked =>
    show (s.log ++ [AlarmDialog.Press.weekday j]).count (.weekday i) =
      _ + (Function.update s.weekdayLocked.locked j true i).toNat
    rw [count_concat, hd]
    by_cases hij : i = j
    · subst hij
      simp [hunlocked]
    · rw [Function.update_of_ne hij]
      have hji : j ≠ i := fun hji => hij hji.symm
      simp [hji]
  | calendar => simpa using hd
  | close close c =>
    obtain ⟨hlog, hlocked⟩ := count_closeCalendar s c close i
    rw [hlog, hlocked]
    simpa using hd
  | enable => simpa using hd
  | unlock j weekdayLocked htimeout =>
    obtain ⟨-, hlocked, hupdate⟩ := Lockout.timeout_cases hi.weekdayLocked htimeout
    show s.log.count (.weekday i) = _ + (weekdayLocked.locked i).toNat
    rw [hupdate, hd]
    by_cases hij : i = j
    · subst hij
      simp [hlocked]
    · rw [Function.update_of_ne hij]
      have hji : j ≠ i := fun hji => hij hji.symm
      simp [hji]

/-- **The editor in use.** After any clicks, held buttons, ticks of timers and visits to the
    calendar dialog, the labels show the members, and the members come from the presses that
    the slots have accepted, in order. Of the clicks on a weekday button one is accepted for
    each time that its lock has opened. A timer repeats the button that is held and none else,
    and no control stays disabled. -/
theorem editor_run {es : List Event} (hrun : Machine.run step (opened d₀) es = some s) :
    s.view = s.dialog.view ∧ s.dialog = s.log.foldl AlarmDialog.press d₀ ∧
      (∀ c, s.calendar = some c → c.Inv s.dialog) ∧ s.button.Inv 600 150 ∧
      (∀ i, s.log.count (.weekday i) = es.count (.unlock i) + (s.weekdayLocked.locked i).toNat ∧
        s.dialog.weekdayButtons i =
          (d₀.weekdayButtons i ^^ (s.log.count (.weekday i)).bodd)) ∧
      ∀ c, s.disabled.locked c = true →
        ∃ s', step s (.enable c) = some s' ∧ s'.disabled.locked c = false := by
  have hi : Inv d₀ s := Machine.run_invariant (fun _ _ _ hs h => inv_step hs h)
    (inv_opened d₀) hrun
  refine ⟨hi.view, hi.log, fun c hc => (hi.calendar c hc).1, hi.button, fun i => ⟨?_, ?_⟩, ?_⟩
  · have hstart : Debounced [] (opened d₀) i := rfl
    refine Machine.run_history (I := fun es s => Debounced es s i) hstart ?_ hrun
    intro pre t e t' hpre hd h
    exact debounced_step (Machine.run_invariant (fun _ _ _ hs h => inv_step hs h)
      (inv_opened d₀) hpre) hd h
  · conv_lhs => rw [hi.log]
    exact weekdayButtons_foldl s.log d₀ i
  · intro c hc
    obtain ⟨disabled, htimeout, henabled⟩ := Lockout.exists_timeout hi.disabled hc
    exact ⟨{ s with disabled := disabled }, Option.map_eq_some_iff.mpr ⟨disabled, htimeout, rfl⟩,
      henabled⟩

/-- A button that is held for two ticks, a phantom click, and a day of the calendar. -/
def oneEdit : List Event :=
  [.time (.pressed .hourPlus), .time .timeout, .time .timeout, .time .released, .weekday 1,
    .weekday 1, .unlock 1, .weekday 1, .click .calendarToggle, .calendar (.pressed .dayPlus),
    .calendar .released, .enable .calendarToggle, .close .setDate]

theorem editor_run_once :
    ∃ s, Machine.run step (opened (.forAdd [] (currentDateTime 0))) oneEdit = some s ∧
      s.view.hourValueLabel = "3".toList ∧ s.view.dateSummaryLabel = "Date: 1970-01-02".toList ∧
      s.view = s.dialog.view ∧
      s.dialog = s.log.foldl AlarmDialog.press (.forAdd [] (currentDateTime 0)) := by
  have hlabels : (Machine.run step (opened (.forAdd [] (currentDateTime 0))) oneEdit).map
      (fun s => (s.view.hourValueLabel, s.view.dateSummaryLabel)) =
        some ("3".toList, "Date: 1970-01-02".toList) := by
    decide +kernel
  obtain ⟨s, hrun, hs⟩ := Option.map_eq_some_iff.mp hlabels
  obtain ⟨hview, hlog, -⟩ := editor_run hrun
  exact ⟨s, hrun, congrArg Prod.fst hs, congrArg Prod.snd hs, hview, hlog⟩

end AlarmSession

/-! ### What was on the screen comes back -/

namespace AlarmDialog

theorem testBit_foldl_lor (buttons : Fin 7 → Bool) (l : List (Fin 7)) (mask : Nat) (i : Fin 7) :
    (l.foldl (fun mask i => if buttons i then mask ||| (1 <<< i.val) else mask) mask).testBit
        i.val =
      (mask.testBit i.val || (decide (i ∈ l) && buttons i)) := by
  induction l generalizing mask with
  | nil => simp
  | cons j l ih =>
    rw [List.foldl_cons, ih]
    by_cases hij : i = j
    · subst hij
      by_cases hi : buttons i = true
      · simp [hi, Nat.testBit_or, Nat.one_shiftLeft]
      · simp [hi]
    · have hne : j.val ≠ i.val := fun h => hij (Fin.ext h.symm)
      by_cases hj : buttons j = true
      · simp [hj, hij, hne, Nat.testBit_or, Nat.one_shiftLeft]
      · simp [hj, hij]

/-- The mask of the buttons checks the buttons again. -/
theorem setRepeatButtonsFromMask_repeatMaskFromButtons (buttons : Fin 7 → Bool) :
    setRepeatButtonsFromMask (repeatMaskFromButtons buttons) = buttons := by
  funext i
  show Nat.testBit _ i.val = buttons i
  rw [testBit_foldl_lor]
  simp

/-- The fields of a time of day are the fields that it was made of. -/
theorem setTimeFromDateTime_selectedTime {dt : QDateTime} {f : TimeFields}
    (h : dt.time = f.selectedTime) : TimeFields.setTimeFromDateTime dt = f := by
  have hampm := f.ampm_range
  have hhour := f.hour_range
  have hminute := f.minute_range
  have htime : dt.time.msecs = f.hour24 * 3600000 + f.minute * 60000 := congrArg QTime.msecs h
  have hh : dt.time.hour = f.hour24 := by
    unfold QTime.hour
    omega
  have hm : dt.time.minute = f.minute := by
    unfold QTime.minute
    omega
  have hfields : (TimeFields.setTimeFromDateTime dt).ampm = f.ampm ∧
      (TimeFields.setTimeFromDateTime dt).hour12 = f.hour12 ∧
      (TimeFields.setTimeFromDateTime dt).minute = f.minute := by
    refine ⟨?_, ?_, hm⟩
    · simp only [TimeFields.setTimeFromDateTime, hh, TimeFields.hour24]
      split_ifs <;> omega
    · simp only [TimeFields.setTimeFromDateTime, hh, TimeFields.hour24]
      split_ifs <;> omega
  generalize TimeFields.setTimeFromDateTime dt = g at hfields
  cases f
  cases g
  simpa using hfields

/-- **The editor on its own result** is the editor as it was confirmed, up to the date. -/
theorem new_onConfirm {d : AlarmDialog} (h : d.Ok) (home : QString) (now : Nat)
    (current : QDateTime) :
    let r := d.onConfirm home (currentDateTime now)
    new home current r.dateTime r.soundFile r.dismissMode r.gameType r.repeatMask
        r.useSpecificDate =
      { d with useSpecificDate := r.useSpecificDate, specificDate := r.dateTime.date } := by
  intro r
  have hvalid : r.dateTime.isValid = true := (onConfirm_ok h home now).era.1
  have hsound : findSound home (if r.soundFile.isEmpty then soundData home 0 else r.soundFile) =
      d.soundIndex := by
    have hne : r.soundFile.isEmpty = false := soundData_ne_nil home d.soundIndex
    rw [hne, if_neg Bool.false_ne_true]
    exact findSound_soundData home d.soundIndex
  have hbuttons : setRepeatButtonsFromMask r.repeatMask = d.weekdayButtons :=
    setRepeatButtonsFromMask_repeatMaskFromButtons d.weekdayButtons
  have htime : TimeFields.setTimeFromDateTime r.dateTime = d.time :=
    setTimeFromDateTime_selectedTime (onConfirm_time (currentDateTime_isValid now) d)
  unfold new
  rw [hsound, hbuttons, if_pos hvalid, if_pos hvalid, htime]
  rfl

/-- The summary does not change with the date fields that a confirmation returns. -/
theorem dateSummary_onConfirm {d : AlarmDialog} (h : d.Ok) (home : QString) (now : QDateTime) :
    let r := d.onConfirm home now
    dateSummary { d with useSpecificDate := r.useSpecificDate, specificDate := r.dateTime.date } =
      d.dateSummary := by
  intro r
  unfold dateSummary
  by_cases hmask : repeatMaskFromButtons d.weekdayButtons ≠ 0
  · rw [if_pos hmask, if_pos hmask]
  · rw [if_neg hmask, if_neg hmask]
    have hkept : r.useSpecificDate = d.useSpecificDate := if_neg hmask
    have hdate : r.dateTime = if d.useSpecificDate then
        QDateTime.ofDateTime d.specificDate d.time.selectedTime
        else todayOrTomorrow now d.time.selectedTime := by
      rw [← hkept]
      exact if_neg hmask
    by_cases hspecific : d.useSpecificDate = true
    · obtain ⟨jd, hjd, -⟩ := h.date
      rw [if_pos hspecific, hjd] at hdate
      rw [hkept, if_pos hspecific, if_pos hspecific, hdate, date_ofDateTime, hjd]
    · rw [hkept, if_neg hspecific, if_neg hspecific]

end AlarmDialog

namespace AlarmSession

variable {d₀ : AlarmDialog} {s : AlarmSession}

/-- **What was on the screen comes back.** However the editor was used, the alarm that its
    confirmation makes or changes opens the editor, at any later time, with the same labels,
    the same buttons and the same items. -/
theorem editor_reopens {home : QString} (hok : d₀.Ok) {es : List Event}
    (hrun : Machine.run step (opened d₀) es = some s) (now later : Nat) {e : AlarmEntry}
    (he : (∃ alarmId, e = .created home alarmId (s.dialog.onConfirm home (currentDateTime now))) ∨
      ∃ e', e = .edited (s.dialog.onConfirm home (currentDateTime now)) e') :
    (opened (e.editor home (currentDateTime later))).view = s.view ∧
      (e.editor home (currentDateTime later)).weekdayButtons = s.dialog.weekdayButtons ∧
      (e.editor home (currentDateTime later)).soundIndex = s.dialog.soundIndex := by
  have hi : Inv d₀ s := Machine.run_invariant (fun _ _ _ hs h => inv_step hs h)
    (inv_opened d₀) hrun
  have hd : s.dialog.Ok := by
    rw [hi.log]
    exact AlarmDialog.foldl_press_ok hok s.log
  have heditor : e.editor home (currentDateTime later) = { s.dialog with
      useSpecificDate := (s.dialog.onConfirm home (currentDateTime now)).useSpecificDate
      specificDate := (s.dialog.onConfirm home (currentDateTime now)).dateTime.date } := by
    rcases he with ⟨alarmId, rfl⟩ | ⟨e', rfl⟩
    · exact AlarmDialog.new_onConfirm hd home now (currentDateTime later)
    · exact AlarmDialog.new_onConfirm hd home now (currentDateTime later)
  refine ⟨?_, ?_, ?_⟩
  · rw [(inv_opened _).view, hi.view]
    show (e.editor home (currentDateTime later)).view = s.dialog.view
    rw [heditor]
    unfold AlarmDialog.view
    rw [AlarmDialog.dateSummary_onConfirm hd home (currentDateTime now)]
  · rw [heditor]
  · rw [heditor]

/-- The alarm of the editor above. -/
theorem editor_reopens_once :
    ∃ s, Machine.run step (opened (.forAdd [] (currentDateTime 0))) oneEdit = some s ∧
      (opened ((AlarmEntry.created [] 0 (s.dialog.onConfirm [] (currentDateTime 5))).editor []
        (currentDateTime 7))).view = s.view := by
  have hruns : (Machine.run step (opened (.forAdd [] (currentDateTime 0))) oneEdit).isSome := by
    decide +kernel
  obtain ⟨s, hrun⟩ := Option.isSome_iff_exists.mp hruns
  exact ⟨s, hrun, (editor_reopens (AlarmDialog.forAdd_ok [] 0) hrun 5 7 (.inl ⟨0, rfl⟩)).1⟩

end AlarmSession

end AlarmClock
