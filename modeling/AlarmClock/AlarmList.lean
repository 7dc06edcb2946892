import AlarmClock.Invariant

/-!
# The list on screen

The list widget beside the list in memory. `refreshAlarmList` clears the widget and draws
one row for every alarm; the handlers of a row's buttons keep the index of the row. The
dialogs of the window run event loops of their own, in which the clock ticks on and alarms
ring: a step of the screen is one event of the innermost loop.
-/

namespace AlarmClock

open QDateTime TextFormat

/-! ### The texts of a row -/

def weekdayNames : List String := ["Sun", "Mon", "Tue", "Wed", "Thu", "Fri", "Sat"]

def repeatMaskToText (repeatMask : Int) : QString :=
  if repeatMask = 0 then []
  else
    [','].intercalate (weekdayNames.zipIdx.filterMap fun (name, i) =>
      if repeatMask.testBit i then some name.toList else none)

def formatRemaining (secs : Int) : QString :=
  let secs := if secs < 0 then 0 else secs
  let days := secs / 86400
  let secs := secs % 86400
  let hours := secs / 3600
  let secs := secs % 3600
  let mins := secs / 60
  let s := secs % 60
  if 0 < days then
    "in ".toList ++ decimal days ++ "d ".toList ++ decimal hours ++ "h ".toList ++ decimal mins ++
      "m".toList
  else
    "in ".toList ++ decimal hours ++ "h ".toList ++ decimal mins ++ "m ".toList ++ decimal s ++
      "s".toList

namespace QDateTime

/-- `yyyy-MM-dd  hh:mm`, with two spaces. -/
def toRowText (dt : QDateTime) : QString :=
  if dt.isValid then
    render [.digits 4, .lit '-', .digits 2, .lit '-', .digits 2, .lit ' ', .lit ' ', .digits 2,
      .lit ':', .digits 2] dt.minuteNumbers
  else []

/-- `hh:mm` -/
def toTimeText (dt : QDateTime) : QString :=
  if dt.isValid then
    render [.digits 2, .lit ':', .digits 2] [dt.time.hour.toNat, dt.time.minute.toNat]
  else []

def secsTo (a b : QDateTime) : Int :=
  if a.isValid ∧ b.isValid then (b.msecs - a.msecs).tdiv 1000 else 0

end QDateTime

inductive RowButton where
  | Enable
  | Disable
deriving DecidableEq, Repr

/-- What the handler of the button writes. -/
def RowButton.write (now : QDateTime) : RowButton → AlarmEntry → AlarmEntry
  | .Enable => AlarmEntry.enable now
  | .Disable => AlarmEntry.disable

theorem RowButton.write_alarmId (now : QDateTime) (button : RowButton) (e : AlarmEntry) :
    (button.write now e).alarmId = e.alarmId := by
  cases button with
  | Enable => exact AlarmEntry.enable_alarmId now e
  | Disable => rfl

/-- One row of the widget; `index` is what its handlers have captured. -/
structure Row where
  mainText : QString
  subText : QString
  button : RowButton
  index : Nat
deriving DecidableEq, Repr

def drawRow (now : QDateTime) (i : Nat) (e : AlarmEntry) : Row where
  mainText :=
    let repeatText := repeatMaskToText e.repeatMask
    decimal (i + 1) ++ "   ".toList ++ e.dateTime.toRowText ++
      if repeatText.isEmpty then [] else "   [".toList ++ repeatText ++ "]".toList
  subText := if e.enabled then formatRemaining (now.secsTo e.dateTime) else "disabled".toList
  button := if e.enabled then .Disable else .Enable
  index := i

def drawRows (now : QDateTime) (alarms : List AlarmEntry) : List Row :=
  alarms.zipIdx.map fun (e, i) => drawRow now i e

def alarmCountText (alarms : List AlarmEntry) : QString :=
  if alarms.isEmpty then "No alarms".toList
  else
    decimal alarms.length ++ " alarm(s)  —  ".toList ++
      decimal (alarms.countP (·.enabled)) ++ " active".toList

/-! ### The screen -/

/-- The dialogs that the user opens, each with the locals of its function. -/
inductive UserDialog where
  | add (dlg : AlarmDialog)
  | edit (row : Nat) (dlg : AlarmDialog)
  | plus5Sec
  | stat (logPath title : QString)
  | friends
  | alert (title message : QString)
deriving DecidableEq

/-- `currentRow` is -1 when no row is current. -/
structure Screen where
  window : MainWindow
  rows : List Row := []
  alarmCount : QString := "No alarms".toList
  currentRow : Int := -1
  dialog : Option UserDialog := none
deriving DecidableEq

/-- The comparison by which `openAddDialog` looks for the new alarm. -/
def sameFields (entry e : AlarmEntry) : Bool :=
  e.dateTime.msecs == entry.dateTime.msecs && e.enabled == entry.enabled &&
    e.dismissMode == entry.dismissMode && e.gameType == entry.gameType &&
    e.repeatMask == entry.repeatMask

namespace Screen

variable (P : Platform)

/-- `refreshAlarmList` from the sorted list on: clear the widget, draw the rows, and restore
    the selection if possible. -/
def redraw (now : QDateTime) (m : MainWindow) (s : Screen) : Screen :=
  { s with
    window := m
    rows := drawRows now m.alarms
    alarmCount := alarmCountText m.alarms
    currentRow := if 0 ≤ s.currentRow ∧ s.currentRow < m.alarms.length then s.currentRow else -1 }

/-- The constructor. -/
def launch (disk : Disk) (now : Nat) : Option Screen :=
  (MainWindow.launch P disk now).map fun m => redraw (currentDateTime now) m { window := m }

/-- The row that Edit and Delete act on. -/
def selectedRow (s : Screen) : Option Nat :=
  if 0 ≤ s.currentRow ∧ s.currentRow < s.window.alarms.length then some s.currentRow.toNat
  else none

/-- The handler of a row's Enable or Disable button. -/
def clickEnableBtn (now : QDateTime) (row : Row) (s : Screen) : Screen :=
  match s.window.alarms[row.index]? with
  | none => s
  | some entry =>
    match row.button with
    | .Disable => s.redraw now (s.window.disableRow P row.index)
    | .Enable =>
      if entry.enabled then s else s.redraw now (s.window.enableRow P now row.index)

def openAlarmStatDialog (alarmIndex : Nat) (s : Screen) : Screen :=
  match s.window.alarms[alarmIndex]? with
  | none => s
  | some e =>
    let logPath := if e.logFile.isEmpty then alarmLogPath P.home e.alarmId else e.logFile
    let repeatText := repeatMaskToText e.repeatMask
    let repeats := if repeatText.isEmpty then [] else "  [".toList ++ repeatText ++ "]".toList
    let title := "Alarm #".toList ++ decimal (alarmIndex + 1) ++ " (".toList ++
      e.dateTime.toTimeText ++ repeats ++ ") Statistics".toList
    { s with dialog := some (.stat logPath title) }

/-- `openAddDialog` up to `dlg.exec()`. -/
def openAddDialog (now : QDateTime) (s : Screen) : Screen :=
  { s with dialog := some (.add (AlarmDialog.forAdd P.home now)) }

/-- The loop at the end of `openAddDialog`. -/
def selectAdded (entry : AlarmEntry) (s : Screen) : Screen :=
  match s.window.alarms.findIdx? (sameFields entry) with
  | none => s
  | some i => { s with currentRow := i }

/-- `openAddDialog` from the accepted `dlg.exec()` on. -/
def acceptAdd (now : QDateTime) (r : AlarmDialog.Accepted) (s : Screen) : Option Screen :=
  (s.window.appendAlarm P r).map fun m =>
    (s.redraw now m).selectAdded (AlarmEntry.created P.home s.window.nextAlarmId r)

/-- `setDebugAlarmPlus5Sec` from the accepted `dlg.exec()` on. -/
def acceptPlus5Sec (now : QDateTime) (r : AlarmDialog.Accepted) (s : Screen) : Option Screen :=
  (s.window.appendAlarm P r).map fun m => s.redraw now m

/-- `openEditDialog` up to `dlg.exec()`. -/
def openEditDialog (now : QDateTime) (s : Screen) : Screen :=
  match s.selectedRow with
  | none =>
    { s with dialog := some (.alert "No Alarm Selected".toList
        "Please select an alarm from the list to edit.".toList) }
  | some row => { s with dialog := (s.window.openEditDialog P now row).map (.edit row) }

def deleteSelectedAlarm (now : QDateTime) (s : Screen) : Screen :=
  match s.selectedRow with
  | none => s
  | some row => s.redraw now (s.window.deleteSelectedAlarm P row)

end Screen

/-! ### Steps -/

namespace Screen

/-- One event of the innermost event loop. `accept` and `addPlus5Sec` are the OK buttons of
    the dialogs, `reject` closes one in any other way. -/
inductive Event where
  | tick (now : Nat)
  | dismiss (now : Nat) (capturedPhotoPath : QString)
  | select (row : Nat)
  | clickEnableBtn (now row : Nat)
  | clickStatBtn (row : Nat)
  | openAddDialog (now : Nat)
  | openEditDialog (now : Nat)
  | deleteSelectedAlarm (now : Nat)
  | setDebugAlarmPlus5Sec
  | openStatDialog
  | openFriendStatDialog
  | press (p : AlarmDialog.Press)
  | accept (now : Nat)
  | addPlus5Sec (now : Nat) (sound : Fin 3) (mode : DismissMode) (game : GameType)
  | reject
deriving DecidableEq, Repr

variable (P : Platform)

def clockAt (now : Nat) (s : Screen) : Option Screen :=
  (MainWindow.clockAt now s.window).map fun m => { s with window := m }

/-- The user reaches the window when no dialog is open. -/
def unblocked (s : Screen) : Option Screen :=
  if s.dialog.isNone ∧ s.window.frame.isNone then some s else none

/-- The user reaches his dialog when no dismiss dialog is open over it. -/
def openDialog (s : Screen) : Option UserDialog :=
  if s.window.frame.isNone then s.dialog else none

/-- A press inside the editor. -/
def press (p : AlarmDialog.Press) (s : Screen) : UserDialog → Option Screen
  | .add dlg => some { s with dialog := some (.add (dlg.press p)) }
  | .edit row dlg => some { s with dialog := some (.edit row (dlg.press p)) }
  | _ => none

/-- OK inside the editor. -/
def accept (now : QDateTime) (s : Screen) : UserDialog → Option Screen
  | .add dlg => { s with dialog := none }.acceptAdd P now (dlg.onConfirm P.home now)
  | .edit row dlg =>
    some ({ s with dialog := none }.redraw now
      (s.window.acceptEdit P row (dlg.onConfirm P.home now)))
  | _ => none

def step (s : Screen) : Event → Option Screen
  | .tick now =>
    (clockAt now s).map fun s =>
      s.redraw (currentDateTime now) (s.window.updateCurrentTime P (currentDateTime now))
  | .dismiss now capturedPhotoPath =>
    if s.window.frame.isSome then
      (clockAt now s).map fun s =>
        s.redraw (currentDateTime now)
          (s.window.afterExec P (currentDateTime now) capturedPhotoPath)
    else none
  | .select row => do
    let s ← unblocked s
    if row < s.rows.length then some { s with currentRow := row } else none
  | .clickEnableBtn now row => do
    let s ← unblocked s
    let s ← clockAt now s
    (s.rows[row]?).map fun row => s.clickEnableBtn P (currentDateTime now) row
  | .clickStatBtn row => do
    let s ← unblocked s
    (s.rows[row]?).map fun row => s.openAlarmStatDialog P row.index
  | .openAddDialog now => do
    let s ← unblocked s
    (clockAt now s).map fun s => s.openAddDialog P (currentDateTime now)
  | .openEditDialog now => do
    let s ← unblocked s
    (clockAt now s).map fun s => s.openEditDialog P (currentDateTime now)
  | .deleteSelectedAlarm now => do
    let s ← unblocked s
    (clockAt now s).map fun s => s.deleteSelectedAlarm P (currentDateTime now)
  | .setDebugAlarmPlus5Sec => do
    let s ← unblocked s
    some { s with dialog := some .plus5Sec }
  | .openStatDialog => do
    let s ← unblocked s
    some { s with dialog := some (.stat (P.home ++ "/alarm.txt".toList) []) }
  | .openFriendStatDialog => do
    let s ← unblocked s
    some { s with dialog := some .friends }
  | .press p => s.openDialog.bind (s.press p)
  | .accept now => do
    let dialog ← s.openDialog
    let s ← clockAt now s
    s.accept P (currentDateTime now) dialog
  | .addPlus5Sec now sound mode game =>
    if s.openDialog = some .plus5Sec then do
      let s ← clockAt now s
      { s with dialog := none }.acceptPlus5Sec P (currentDateTime now)
        ((Creation.setDebugAlarmPlus5Sec now sound mode game).accepted P.home)
    else none
  | .reject => s.openDialog.map fun _ => { s with dialog := none }

/-! ### What a step can do -/

def atClock (now : Nat) (s : Screen) : Screen := { s with window := { s.window with clock := now } }

/-- Every step, with its guards and its result. -/
inductive StepTo (s : Screen) : Event → Screen → Prop where
  | tick (now : Nat) (hclock : s.window.clock ≤ now) :
      StepTo s (.tick now)
        ((s.atClock now).redraw (currentDateTime now)
          ((s.atClock now).window.updateCurrentTime P (currentDateTime now)))
  | dismiss (now : Nat) (capturedPhotoPath : QString) (frame : DismissFrame)
      (hframe : s.window.frame = some frame) (hclock : s.window.clock ≤ now) :
      StepTo s (.dismiss now capturedPhotoPath)
        ((s.atClock now).redraw (currentDateTime now)
          ((s.atClock now).window.afterExec P (currentDateTime now) capturedPhotoPath))
  | select (row : Nat) (hdialog : s.dialog = none) (hrow : row < s.rows.length) :
      StepTo s (.select row) { s with currentRow := row }
  | clickEnableBtn (now i : Nat) (row : Row) (hdialog : s.dialog = none)
      (hrow : s.rows[i]? = some row) (hclock : s.window.clock ≤ now) :
      StepTo s (.clickEnableBtn now i)
        ((s.atClock now).clickEnableBtn P (currentDateTime now) row)
  | clickStatBtn (i : Nat) (row : Row) (hdialog : s.dialog = none) (hrow : s.rows[i]? = some row) :
      StepTo s (.clickStatBtn i) (s.openAlarmStatDialog P row.index)
  | openAddDialog (now : Nat) (hdialog : s.dialog = none) (hclock : s.window.clock ≤ now) :
      StepTo s (.openAddDialog now) ((s.atClock now).openAddDialog P (currentDateTime now))
  | openEditDialog (now : Nat) (hdialog : s.dialog = none) (hclock : s.window.clock ≤ now) :
      StepTo s (.openEditDialog now) ((s.atClock now).openEditDialog P (currentDateTime now))
  | deleteSelectedAlarm (now : Nat) (hdialog : s.dialog = none) (hclock : s.window.clock ≤ now) :
      StepTo s (.deleteSelectedAlarm now)
        ((s.atClock now).deleteSelectedAlarm P (currentDateTime now))
  | setDebugAlarmPlus5Sec (hdialog : s.dialog = none) :
      StepTo s .setDebugAlarmPlus5Sec { s with dialog := some .plus5Sec }
  | openStatDialog (hdialog : s.dialog = none) :
      StepTo s .openStatDialog
        { s with dialog := some (.stat (P.home ++ "/alarm.txt".toList) []) }
  | openFriendStatDialog (hdialog : s.dialog = none) :
      StepTo s .openFriendStatDialog { s with dialog := some .friends }
  | pressAdd (p : AlarmDialog.Press) (dlg : AlarmDialog) (hdialog : s.dialog = some (.add dlg)) :
      StepTo s (.press p) { s with dialog := some (.add (dlg.press p)) }
  | pressEdit (p : AlarmDialog.Press) (row : Nat) (dlg : AlarmDialog)
      (hdialog : s.dialog = some (.edit row dlg)) :
      StepTo s (.press p) { s with dialog := some (.edit row (dlg.press p)) }
  | acceptAdd (now : Nat) (dlg : AlarmDialog) (m : MainWindow)
      (hdialog : s.dialog = some (.add dlg))
      (happend : (s.atClock now).window.appendAlarm P (dlg.onConfirm P.home (currentDateTime now)) =
        some m) (hclock : s.window.clock ≤ now) :
      StepTo s (.accept now)
        (({ s.atClock now with dialog := none }.redraw (currentDateTime now) m).selectAdded
          (AlarmEntry.created P.home s.window.nextAlarmId
            (dlg.onConfirm P.home (currentDateTime now))))
  | acceptEdit (now row : Nat) (dlg : AlarmDialog) (hdialog : s.dialog = some (.edit row dlg))
      (hclock : s.window.clock ≤ now) :
      StepTo s (.accept now)
        ({ s.atClock now with dialog := none }.redraw (currentDateTime now)
          ((s.atClock now).window.acceptEdit P row (dlg.onConfirm P.home (currentDateTime now))))
  | addPlus5Sec (now : Nat) (sound : Fin 3) (mode : DismissMode) (game : GameType) (m : MainWindow)
      (hdialog : s.dialog = some .plus5Sec)
      (happend : (s.atClock now).window.appendAlarm P
        ((Creation.setDebugAlarmPlus5Sec now sound mode game).accepted P.home) = some m)
      (hclock : s.window.clock ≤ now) :
      StepTo s (.addPlus5Sec now sound mode game)
        ({ s.atClock now with dialog := none }.redraw (currentDateTime now) m)
  | reject : StepTo s .reject { s with dialog := none }

variable {P}
variable {s s' : Screen}

theorem clockAt_eq_some {now : Nat} :
    clockAt now s = some s' ↔ s.window.clock ≤ now ∧ s' = s.atClock now := by
  simp only [clockAt, Option.map_eq_some_iff, MainWindow.clockAt_eq_some, atClock]
  constructor
  · rintro ⟨m, ⟨hclock, rfl⟩, rfl⟩
    exact ⟨hclock, rfl⟩
  · rintro ⟨hclock, rfl⟩
    exact ⟨_, ⟨hclock, rfl⟩, rfl⟩

theorem unblocked_eq_some : unblocked s = some s' ↔
    s.dialog = none ∧ s.window.frame = none ∧ s' = s := by
  unfold unblocked
  split
  · next h =>
    simp only [Option.isNone_iff_eq_none] at h
    simp only [h, true_and, Option.some.injEq, eq_comm]
  · next h =>
    simp only [Option.isNone_iff_eq_none] at h
    simp only [reduceCtorEq, false_iff]
    exact fun hall => h ⟨hall.1, hall.2.1⟩

theorem openDialog_eq_some {dialog : UserDialog} (h : s.openDialog = some dialog) :
    s.dialog = some dialog := by
  unfold openDialog at h
  split at h
  · exact h
  · cases h

/-- What the user does in the window goes on in the state it finds. -/
theorem unblocked_bind {f : Screen → Option Screen} (h : (unblocked s).bind f = some s') :
    s.dialog = none ∧ f s = some s' := by
  obtain ⟨s₁, h₁, h'⟩ := Option.bind_eq_some_iff.mp h
  obtain ⟨hdialog, -, rfl⟩ := unblocked_eq_some.mp h₁
  exact ⟨hdialog, h'⟩

theorem clockAt_bind {now : Nat} {f : Screen → Option Screen}
    (h : (clockAt now s).bind f = some s') :
    s.window.clock ≤ now ∧ f (s.atClock now) = some s' := by
  obtain ⟨s₁, h₁, h'⟩ := Option.bind_eq_some_iff.mp h
  obtain ⟨hclock, rfl⟩ := clockAt_eq_some.mp h₁
  exact ⟨hclock, h'⟩

theorem clockAt_map {now : Nat} {f : Screen → Screen} (h : (clockAt now s).map f = some s') :
    s.window.clock ≤ now ∧ s' = f (s.atClock now) := by
  obtain ⟨s₁, h₁, rfl⟩ := Option.map_eq_some_iff.mp h
  obtain ⟨hclock, rfl⟩ := clockAt_eq_some.mp h₁
  exact ⟨hclock, rfl⟩

/-- **Every step is one of `StepTo`.** -/
theorem step_cases {ev : Event} (h : step P s ev = some s') : StepTo P s ev s' := by
  cases ev with
  | tick now =>
    obtain ⟨hclock, rfl⟩ := clockAt_map h
    exact .tick now hclock
  | dismiss now photo =>
    simp only [step] at h
    split at h
    · next hsome =>
      obtain ⟨frame, hframe⟩ := Option.isSome_iff_exists.mp hsome
      obtain ⟨hclock, rfl⟩ := clockAt_map h
      exact .dismiss now photo frame hframe hclock
    · cases h
  | select row =>
    obtain ⟨hdialog, h⟩ := unblocked_bind h
    split at h
    · next hrow =>
      obtain rfl := Option.some.inj h
      exact .select row hdialog hrow
    · cases h
  | clickEnableBtn now i =>
    obtain ⟨hdialog, h⟩ := unblocked_bind h
    obtain ⟨hclock, h⟩ := clockAt_bind h
    obtain ⟨row, hrow, rfl⟩ := Option.map_eq_some_iff.mp h
    exact .clickEnableBtn now i row hdialog hrow hclock
  | clickStatBtn i =>
    obtain ⟨hdialog, h⟩ := unblocked_bind h
    obtain ⟨row, hrow, rfl⟩ := Option.map_eq_some_iff.mp h
    exact .clickStatBtn i row hdialog hrow
  | openAddDialog now =>
    obtain ⟨hdialog, h⟩ := unblocked_bind h
    obtain ⟨hclock, rfl⟩ := clockAt_map h
    exact .openAddDialog now hdialog hclock
  | openEditDialog now =>
    obtain ⟨hdialog, h⟩ := unblocked_bind h
    obtain ⟨hclock, rfl⟩ := clockAt_map h
    exact .openEditDialog now hdialog hclock
  | deleteSelectedAlarm now =>
    obtain ⟨hdialog, h⟩ := unblocked_bind h
    obtain ⟨hclock, rfl⟩ := clockAt_map h
    exact .deleteSelectedAlarm now hdialog hclock
  | setDebugAlarmPlus5Sec =>
    obtain ⟨hdialog, h⟩ := unblocked_bind h
    obtain rfl := Option.some.inj h
    exact .setDebugAlarmPlus5Sec hdialog
  | openStatDialog =>
    obtain ⟨hdialog, h⟩ := unblocked_bind h
    obtain rfl := Option.some.inj h
    exact .openStatDialog hdialog
  | openFriendStatDialog =>
    obtain ⟨hdialog, h⟩ := unblocked_bind h
    obtain rfl := Option.some.inj h
    exact .openFriendStatDialog hdialog
  | press p =>
    obtain ⟨dialog, hdialog, h⟩ := Option.bind_eq_some_iff.mp h
    have hdialog := openDialog_eq_some hdialog
    cases dialog with
    | add dlg =>
      obtain rfl := Option.some.inj h
      exact .pressAdd p dlg hdialog
    | edit row dlg =>
      obtain rfl := Option.some.inj h
      exact .pressEdit p row dlg hdialog
    | plus5Sec | stat _ _ | friends | alert _ _ => cases h
  | accept now =>
    obtain ⟨dialog, hdialog, h⟩ := Option.bind_eq_some_iff.mp h
    have hdialog := openDialog_eq_some hdialog
    obtain ⟨hclock, h⟩ := clockAt_bind h
    cases dialog with
    | add dlg =>
      obtain ⟨m, happend, rfl⟩ := Option.map_eq_some_iff.mp h
      exact .acceptAdd now dlg m hdialog happend hclock
    | edit row dlg =>
      obtain rfl := Option.some.inj h
      exact .acceptEdit now row dlg hdialog hclock
    | plus5Sec | stat _ _ | friends | alert _ _ => cases h
  | addPlus5Sec now sound mode game =>
    simp only [step] at h
    split at h
    · next hdialog =>
      obtain ⟨hclock, h⟩ := clockAt_bind h
      obtain ⟨m, happend, rfl⟩ := Option.map_eq_some_iff.mp h
      exact .addPlus5Sec now sound mode game m (openDialog_eq_some hdialog) happend hclock
    · cases h
  | reject =>
    obtain ⟨-, -, rfl⟩ := Option.map_eq_some_iff.mp h
    exact .reject

/-! ### What becomes of the list -/

/-- The list with the writes of a step, before it is sorted; nothing when the list is left
    alone. -/
def written (P : Platform) (s : Screen) : Event → Option (List AlarmEntry)
  | .tick _ => some s.window.alarms
  | .dismiss now _ => s.window.frame.map fun frame =>
      settleTriggered (currentDateTime now) frame.triggered s.window.alarms
  | .clickEnableBtn now i => do
    let row ← s.rows[i]?
    let entry ← s.window.alarms[row.index]?
    if row.button = .Enable ∧ entry.enabled then none
    else some (s.window.alarms.modify row.index (row.button.write (currentDateTime now)))
  | .deleteSelectedAlarm _ => s.selectedRow.map s.window.alarms.eraseIdx
  | .accept now =>
    match s.dialog with
    | some (.add dlg) => some (s.window.alarms ++
        [AlarmEntry.created P.home s.window.nextAlarmId
          (dlg.onConfirm P.home (currentDateTime now))])
    | some (.edit row dlg) =>
      some (s.window.alarms.modify row (·.edited (dlg.onConfirm P.home (currentDateTime now))))
    | _ => none
  | .addPlus5Sec now sound mode game => some (s.window.alarms ++
      [AlarmEntry.created P.home s.window.nextAlarmId
        ((Creation.setDebugAlarmPlus5Sec now sound mode game).accepted P.home)])
  | _ => none

/-- `l'` is `l` sorted, once or twice over. -/
def SortsTo (P : Platform) (l l' : List AlarmEntry) : Prop :=
  l' = P.sort.sort l ∨ l' = P.sort.sort (P.sort.sort l)

theorem SortsTo.sorted {l l' : List AlarmEntry} (h : SortsTo P l l') :
    l'.Pairwise fun a b => a.dateTime.msecs ≤ b.dateTime.msecs := by
  rcases h with rfl | rfl
  · exact P.sort.sorted l
  · exact P.sort.sorted _

theorem SortsTo.perm {l l' : List AlarmEntry} (h : SortsTo P l l') : l'.Perm l := by
  rcases h with rfl | rfl
  · exact P.sort.perm l
  · exact (P.sort.perm _).trans (P.sort.perm l)

/-- The window after `refreshAlarmList` on the written list. -/
structure Redrawn (P : Platform) (s : Screen) (l : List AlarmEntry) (s' : Screen) : Prop where
  sorts : SortsTo P l s'.window.alarms
  rows : ∃ now, s'.rows = drawRows now s'.window.alarms
  currentRow : s'.currentRow =
    if 0 ≤ s.currentRow ∧ s.currentRow < s'.window.alarms.length then s.currentRow else -1

theorem redrawn_redraw (s₀ : Screen) {l : List AlarmEntry} {now : QDateTime} {m : MainWindow}
    (hcurrent : s₀.currentRow = s.currentRow) (h : SortsTo P l m.alarms) :
    Redrawn P s l (s₀.redraw now m) where
  sorts := h
  rows := ⟨now, rfl⟩
  currentRow := by
    rw [← hcurrent]
    rfl

/-- What a step does to the list and the widget: nothing, or it writes and draws anew, or it
    moves the selection. -/
inductive Outcome (P : Platform) (s : Screen) (ev : Event) (s' : Screen) : Prop where
  | quiet (hev : (∀ row, ev ≠ .select row) ∧ ∀ now, ev ≠ .accept now)
      (hl : s.written P ev = none) (halarms : s'.window.alarms = s.window.alarms)
      (hrows : s'.rows = s.rows) (hcurrent : s'.currentRow = s.currentRow)
  | selected (row : Nat) (hev : ev = .select row) (hrow : row < s.rows.length)
      (hs' : s' = { s with currentRow := row })
  | redrawn (l : List AlarmEntry) (hev : ∀ now dlg, ev = .accept now → s.dialog ≠ some (.add dlg))
      (hl : s.written P ev = some l) (h : Redrawn P s l s')
  | added (now : Nat) (dlg : AlarmDialog) (l : List AlarmEntry) (s₁ : Screen)
      (hev : ev = .accept now) (hdialog : s.dialog = some (.add dlg))
      (hl : s.written P ev = some l) (h : Redrawn P s l s₁)
      (hs' : s' = s₁.selectAdded (AlarmEntry.created P.home s.window.nextAlarmId
        (dlg.onConfirm P.home (currentDateTime now))))

theorem lt_of_selectedRow {row : Nat} (h : s.selectedRow = some row) :
    row < s.window.alarms.length := by
  unfold selectedRow at h
  split at h
  · obtain rfl := Option.some.inj h
    omega
  · cases h

section Lists

variable {m m' : MainWindow}

theorem alarms_disableRow {row : Nat} (h : row < m.alarms.length) :
    (m.disableRow P row).alarms = P.sort.sort (m.alarms.modify row (·.disable)) := by
  unfold MainWindow.disableRow
  rw [if_pos h]
  rfl

theorem alarms_enableRow {row : Nat} {e : AlarmEntry} (h : m.alarms[row]? = some e)
    (hdisabled : ¬ e.enabled = true) (now : QDateTime) :
    (m.enableRow P now row).alarms = P.sort.sort (m.alarms.modify row (·.enable now)) := by
  simp only [MainWindow.enableRow, h, if_neg hdisabled]
  rfl

theorem alarms_deleteSelectedAlarm {row : Nat} (h : row < m.alarms.length) :
    (m.deleteSelectedAlarm P row).alarms = P.sort.sort (m.alarms.eraseIdx row) := by
  unfold MainWindow.deleteSelectedAlarm
  rw [if_pos h]
  rfl

theorem alarms_appendAlarm {r : AlarmDialog.Accepted} (h : m.appendAlarm P r = some m') :
    m'.alarms = P.sort.sort
      (P.sort.sort (m.alarms ++ [AlarmEntry.created P.home m.nextAlarmId r])) := by
  obtain ⟨next, -, rfl⟩ := Option.map_eq_some_iff.mp h
  rfl

end Lists

theorem openAlarmStatDialog_frame (P : Platform) (i : Nat) (s : Screen) :
    ∃ dialog, s.openAlarmStatDialog P i = { s with dialog := dialog } := by
  unfold openAlarmStatDialog
  split
  · exact ⟨_, rfl⟩
  · exact ⟨_, rfl⟩

theorem openEditDialog_frame (P : Platform) (now : QDateTime) (s : Screen) :
    ∃ dialog, s.openEditDialog P now = { s with dialog := dialog } := by
  unfold openEditDialog
  split
  · exact ⟨_, rfl⟩
  · exact ⟨_, rfl⟩

theorem dialog_selectAdded (entry : AlarmEntry) (s : Screen) :
    (s.selectAdded entry).dialog = s.dialog := by
  unfold selectAdded
  split
  · rfl
  · rfl

theorem window_selectAdded (entry : AlarmEntry) (s : Screen) :
    (s.selectAdded entry).window = s.window := by
  unfold selectAdded
  split
  · rfl
  · rfl

theorem outcome_clickEnableBtn (now i : Nat) {row : Row} (hrow : s.rows[i]? = some row) :
    Outcome P s (.clickEnableBtn now i)
      ((s.atClock now).clickEnableBtn P (currentDateTime now) row) := by
  have hwritten : s.written P (.clickEnableBtn now i) =
      (s.window.alarms[row.index]?).bind fun entry =>
        if row.button = .Enable ∧ entry.enabled then none
        else some (s.window.alarms.modify row.index (row.button.write (currentDateTime now))) := by
    simp only [written, hrow, bind, Option.bind_some]
  unfold clickEnableBtn
  cases hentry : s.window.alarms[row.index]? with
  | none =>
    rw [show (s.atClock now).window.alarms[row.index]? = none from hentry]
    rw [hentry] at hwritten
    exact .quiet ⟨nofun, nofun⟩ hwritten rfl rfl rfl
  | some entry =>
    rw [show (s.atClock now).window.alarms[row.index]? = some entry from hentry]
    rw [hentry, Option.bind_some] at hwritten
    obtain ⟨hindex, -⟩ := List.getElem?_eq_some_iff.mp hentry
    cases hbutton : row.button with
    | Disable =>
      rw [hbutton, if_neg (by simp)] at hwritten
      have halarms := alarms_disableRow (P := P) (m := (s.atClock now).window) hindex
      exact .redrawn _ (fun _ _ h => nomatch h) hwritten
        (redrawn_redraw (s.atClock now) rfl (.inl halarms))
    | Enable =>
      rw [hbutton] at hwritten
      by_cases henabled : entry.enabled = true
      · rw [if_pos ⟨rfl, henabled⟩] at hwritten
        simp only [henabled, if_true]
        exact .quiet ⟨nofun, nofun⟩ hwritten rfl rfl rfl
      · rw [if_neg fun h => henabled h.2] at hwritten
        simp only [if_neg henabled]
        have halarms := alarms_enableRow (P := P) (m := (s.atClock now).window) hentry henabled
          (currentDateTime now)
        exact .redrawn _ (fun _ _ h => nomatch h) hwritten
          (redrawn_redraw (s.atClock now) rfl (.inl halarms))

theorem outcome_deleteSelectedAlarm (now : Nat) :
    Outcome P s (.deleteSelectedAlarm now)
      ((s.atClock now).deleteSelectedAlarm P (currentDateTime now)) := by
  unfold deleteSelectedAlarm
  cases hrow : s.selectedRow with
  | none =>
    rw [show (s.atClock now).selectedRow = none from hrow]
    refine .quiet ⟨nofun, nofun⟩ ?_ rfl rfl rfl
    simp only [written, hrow, Option.map_none]
  | some row =>
    rw [show (s.atClock now).selectedRow = some row from hrow]
    have halarms := alarms_deleteSelectedAlarm (P := P) (m := (s.atClock now).window)
      (lt_of_selectedRow hrow)
    refine .redrawn _ (fun _ _ h => nomatch h) ?_
      (redrawn_redraw (s.atClock now) rfl (.inl halarms))
    simp only [written, hrow, Option.map_some]
    rfl

/-- **Every step is one of the four.** -/
theorem step_outcome {ev : Event} (h : step P s ev = some s') : Outcome P s ev s' := by
  cases step_cases h with
  | tick now hclock =>
    have halarms := (MainWindow.updateCurrentTime_fields (P := P) (currentDateTime now)
      (s.atClock now).window).1
    exact .redrawn _ (fun _ _ h => nomatch h) rfl
      (redrawn_redraw (s.atClock now) rfl (.inl halarms))
  | dismiss now photo frame hframe hclock =>
    have halarms := (MainWindow.afterExec_fields (P := P) hframe (currentDateTime now) photo now).1
    refine .redrawn _ (fun _ _ h => nomatch h) ?_
      (redrawn_redraw (s.atClock now) rfl (.inl halarms))
    simp only [written, hframe, Option.map_some]
  | select row hdialog hrow => exact .selected row rfl hrow rfl
  | clickEnableBtn now i row hdialog hrow => exact outcome_clickEnableBtn now i hrow
  | clickStatBtn i row hdialog hrow =>
    obtain ⟨dialog, hframe⟩ := openAlarmStatDialog_frame P row.index s
    rw [hframe]
    exact .quiet ⟨nofun, nofun⟩ rfl rfl rfl rfl
  | openAddDialog now hdialog => exact .quiet ⟨nofun, nofun⟩ rfl rfl rfl rfl
  | openEditDialog now hdialog =>
    obtain ⟨dialog, hframe⟩ := openEditDialog_frame P (currentDateTime now) (s.atClock now)
    rw [hframe]
    exact .quiet ⟨nofun, nofun⟩ rfl rfl rfl rfl
  | deleteSelectedAlarm now hdialog => exact outcome_deleteSelectedAlarm now
  | setDebugAlarmPlus5Sec hdialog => exact .quiet ⟨nofun, nofun⟩ rfl rfl rfl rfl
  | openStatDialog hdialog => exact .quiet ⟨nofun, nofun⟩ rfl rfl rfl rfl
  | openFriendStatDialog hdialog => exact .quiet ⟨nofun, nofun⟩ rfl rfl rfl rfl
  | pressAdd p dlg hdialog => exact .quiet ⟨nofun, nofun⟩ rfl rfl rfl rfl
  | pressEdit p row dlg hdialog => exact .quiet ⟨nofun, nofun⟩ rfl rfl rfl rfl
  | acceptAdd now dlg m hdialog happend =>
    have halarms := alarms_appendAlarm happend
    refine .added now dlg _ _ rfl hdialog ?_
      (redrawn_redraw { s.atClock now with dialog := none } rfl (.inr halarms)) rfl
    simp only [written, hdialog]
    rfl
  | acceptEdit now row dlg hdialog =>
    refine .redrawn _ ?_ ?_ (redrawn_redraw { s.atClock now with dialog := none } rfl (.inr rfl))
    · intro _ _ _ hadd
      cases hdialog.symm.trans hadd
    · simp only [written, hdialog]
      rfl
  | addPlus5Sec now sound mode game m hdialog happend =>
    have halarms := alarms_appendAlarm happend
    exact .redrawn _ (fun _ _ h => nomatch h) rfl
      (redrawn_redraw { s.atClock now with dialog := none } rfl (.inr halarms))
  | reject => exact .quiet ⟨nofun, nofun⟩ rfl rfl rfl rfl

/-! ### What the widget shows -/

theorem getElem?_drawRows (now : QDateTime) (alarms : List AlarmEntry) (i : Nat) :
    (drawRows now alarms)[i]? = alarms[i]?.map (drawRow now i) := by
  rw [drawRows, List.getElem?_map, List.getElem?_zipIdx, Option.map_map, Nat.zero_add]
  rfl

/-- The rows are those of the list in memory, in order. -/
structure Drawn (s : Screen) : Prop where
  sorted : s.window.alarms.Pairwise fun a b => a.dateTime.msecs ≤ b.dateTime.msecs
  rows : ∃ now, s.rows = drawRows now s.window.alarms

/-- What leaves the list and the rows alone keeps them together. -/
theorem Drawn.of_eq (h : s.Drawn) (halarms : s'.window.alarms = s.window.alarms)
    (hrows : s'.rows = s.rows) : s'.Drawn := by
  obtain ⟨now, hnow⟩ := h.rows
  exact ⟨halarms ▸ h.sorted, now, by rw [hrows, halarms, hnow]⟩

theorem drawn_redraw (now : QDateTime) {m : MainWindow} (s : Screen)
    (h : m.alarms.Pairwise fun a b => a.dateTime.msecs ≤ b.dateTime.msecs) :
    (s.redraw now m).Drawn :=
  ⟨h, now, rfl⟩

theorem Drawn.selectAdded (h : s.Drawn) (entry : AlarmEntry) : (s.selectAdded entry).Drawn := by
  unfold Screen.selectAdded
  split
  · exact h
  · exact h.of_eq rfl rfl

/-- The row of an entry, with the entry it was drawn from. -/
theorem Drawn.getElem? (h : s.Drawn) {i : Nat} {row : Row} (hrow : s.rows[i]? = some row) :
    row.index = i ∧ ∃ now e, s.window.alarms[i]? = some e ∧ row = drawRow now i e := by
  obtain ⟨now, hnow⟩ := h.rows
  rw [hnow, getElem?_drawRows] at hrow
  obtain ⟨e, he, rfl⟩ := Option.map_eq_some_iff.mp hrow
  exact ⟨rfl, now, e, he, rfl⟩

theorem drawn_launch {disk : Disk} {now : Nat} (h : launch P disk now = some s) : s.Drawn := by
  obtain ⟨m, hm, rfl⟩ := Option.map_eq_some_iff.mp h
  apply drawn_redraw
  unfold MainWindow.launch MainWindow.loadAlarms at hm
  split at hm
  · obtain ⟨loaded, -, rfl⟩ := Option.map_eq_some_iff.mp hm
    exact P.sort.sorted _
  · obtain rfl := Option.some.inj hm
    exact List.Pairwise.nil

theorem Redrawn.drawn {l : List AlarmEntry} (h : Redrawn P s l s') : s'.Drawn :=
  ⟨h.sorts.sorted, h.rows⟩

theorem drawn_step {ev : Event} (hd : s.Drawn) (h : step P s ev = some s') : s'.Drawn := by
  cases step_outcome h with
  | quiet _ _ halarms hrows _ => exact hd.of_eq halarms hrows
  | selected row _ _ hs' =>
    subst hs'
    exact hd.of_eq rfl rfl
  | redrawn l _ _ hredrawn => exact hredrawn.drawn
  | added now dlg l s₁ _ _ _ hredrawn hs' =>
    subst hs'
    exact hredrawn.drawn.selectAdded _

/-- What a click on the button of an entry's row makes of the entry. -/
def toggled (now : QDateTime) (e : AlarmEntry) : AlarmEntry :=
  if e.enabled then e.disable else e.enable now

theorem clickEnableBtn_drawRow {now drawn : QDateTime} {i : Nat} {e : AlarmEntry}
    (h : s.window.alarms[i]? = some e) :
    (s.clickEnableBtn P now (drawRow drawn i e)).window.alarms.Perm
      (toggled now e :: s.window.alarms.eraseIdx i) := by
  obtain ⟨hi, -⟩ := List.getElem?_eq_some_iff.mp h
  have hentry : s.window.alarms[(drawRow drawn i e).index]? = some e := h
  unfold clickEnableBtn
  rw [hentry]
  cases henabled : e.enabled with
  | true =>
    have hbutton : (drawRow drawn i e).button = .Disable := if_pos henabled
    simp only [hbutton, toggled, henabled, if_true]
    refine (List.Perm.of_eq (alarms_disableRow hi)).trans ?_
    exact (P.sort.perm _).trans (IndexedUpdate.modify_perm_cons_eraseIdx h)
  | false =>
    have hdisabled : ¬ e.enabled = true := by simp [henabled]
    have hbutton : (drawRow drawn i e).button = .Enable := if_neg hdisabled
    simp only [hbutton, toggled, henabled, Bool.false_eq_true, if_false]
    refine (List.Perm.of_eq (alarms_enableRow h hdisabled now)).trans ?_
    exact (P.sort.perm _).trans (IndexedUpdate.modify_perm_cons_eraseIdx h)

end Screen

open Screen

/-- **The list on screen is the list in memory.** Whatever the files and whatever the sort
    does with equal date-times, whenever an event loop waits: the list is in order, the rows
    are those of the list, the handlers of row `i` have captured `i`, a click on its Enable
    or Disable button changes the alarm shown there and no other, and its Stat button opens
    the statistics of that alarm. -/
theorem list_on_screen {P : Platform} {disk : Disk} {now : Nat} {s₀ s : Screen}
    {evs : List Screen.Event} (hlaunch : launch P disk now = some s₀)
    (hrun : Machine.run (step P) s₀ evs = some s) :
    (s.window.alarms.Pairwise fun a b => a.dateTime.msecs ≤ b.dateTime.msecs) ∧
    (∃ drawn, s.rows = drawRows drawn s.window.alarms) ∧
    (∀ i row, s.rows[i]? = some row → row.index = i ∧ i < s.window.alarms.length) ∧
    (∀ t i s', step P s (.clickEnableBtn t i) = some s' →
      ∃ e, s.window.alarms[i]? = some e ∧
        s'.window.alarms.Perm (toggled (currentDateTime t) e :: s.window.alarms.eraseIdx i)) ∧
    (∀ i s', step P s (.clickStatBtn i) = some s' →
      ∃ e, s.window.alarms[i]? = some e ∧ s' = s.openAlarmStatDialog P i) := by
  have hd : s.Drawn :=
    Machine.run_invariant (fun _ _ _ hd hs => drawn_step hd hs) (drawn_launch hlaunch) hrun
  refine ⟨hd.sorted, hd.rows, ?_, ?_, ?_⟩
  · intro i row hrow
    obtain ⟨hindex, drawn, e, he, -⟩ := hd.getElem? hrow
    obtain ⟨hi, -⟩ := List.getElem?_eq_some_iff.mp he
    exact ⟨hindex, hi⟩
  · intro t i s' hs'
    cases step_cases hs' with
    | clickEnableBtn t i row hdialog hrow =>
      obtain ⟨-, drawn, e, he, rfl⟩ := hd.getElem? hrow
      exact ⟨e, he, clickEnableBtn_drawRow (s := s.atClock t) he⟩
  · intro i s' hs'
    cases step_cases hs' with
    | clickStatBtn i row hdialog hrow =>
      obtain ⟨rfl, drawn, e, he, -⟩ := hd.getElem? hrow
      exact ⟨e, he, rfl⟩

/-- A fresh installation: an alarm is added, a +5s alarm rings behind the open editor and is
    dismissed, and the rows are clicked. -/
theorem list_on_screen_fresh :
    ∃ s₀ s, launch (Platform.stable "/root".toList) {} 0 = some s₀ ∧
      Machine.run (step (Platform.stable "/root".toList)) s₀
        [.tick 0, .openAddDialog 1000, .press .increaseHour, .accept 2000, .setDebugAlarmPlus5Sec,
          .addPlus5Sec 3000 0 .DismissSimple .GameNumberOrder, .openEditDialog 4000, .tick 9000,
          .dismiss 9500 [], .reject] = some s ∧
      ∀ t i s', step (Platform.stable "/root".toList) s (.clickEnableBtn t i) = some s' →
        ∃ e, s.window.alarms[i]? = some e ∧
          s'.window.alarms.Perm (toggled (currentDateTime t) e :: s.window.alarms.eraseIdx i) := by
  have hsome : ((launch (Platform.stable "/root".toList) {} 0).bind fun s₀ =>
      Machine.run (step (Platform.stable "/root".toList)) s₀
        [.tick 0, .openAddDialog 1000, .press .increaseHour, .accept 2000, .setDebugAlarmPlus5Sec,
          .addPlus5Sec 3000 0 .DismissSimple .GameNumberOrder, .openEditDialog 4000, .tick 9000,
          .dismiss 9500 [], .reject]).isSome := by decide +kernel
  obtain ⟨s, hs⟩ := Option.isSome_iff_exists.mp hsome
  obtain ⟨s₀, hlaunch, hrun⟩ := Option.bind_eq_some_iff.mp hs
  exact ⟨s₀, s, hlaunch, hrun, (list_on_screen hlaunch hrun).2.2.2.1⟩

end AlarmClock
