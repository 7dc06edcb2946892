import AlarmClock.Lib.KeySort
import AlarmClock.Lib.Machine
import AlarmClock.Storage

/-!
# The main window

The alarm list with everything that writes it: the one-second tick with the dismiss
dialog it opens, the end of that dialog, the editor, the row buttons, the +5s button,
saving and loading. Each is a function on the window under the source's name; `step`
puts them under one clock that never goes back.

A dismiss dialog runs a nested event loop. While it is open the window holds the frame
of the suspended `updateCurrentTime`, further ticks run, and the user reaches nothing
else: the dialog is application-modal. A restart may come at any time.
-/

namespace AlarmClock

/-- What the window runs on: the home directory, and the library's sort. -/
structure Platform where
  home : QString
  sort : KeySort fun e : AlarmEntry => e.dateTime.msecs

/-- The platform whose sort keeps entries with equal date-times in order. -/
def Platform.stable (home : QString) : Platform := ⟨home, KeySort.stable _⟩

/-! ### Ringing -/

structure TriggeredInfo where
  index : Nat
  alarmId : Int
  alarmTime : QString
  soundFile : QString
  dismissMode : Int
  gameType : Int
deriving DecidableEq, Repr

/-- The due alarm info of one entry. -/
def triggeredInfo (index : Nat) (entry : AlarmEntry) : TriggeredInfo where
  index := index
  alarmId := entry.alarmId
  alarmTime := entry.dateTime.toMinuteText
  soundFile := entry.soundFile
  dismissMode := entry.dismissMode
  gameType := entry.gameType

/-- The loop that collects the due alarms, by list index. -/
def collectTriggered (now : QDateTime) (alarms : List AlarmEntry) : List TriggeredInfo :=
  alarms.zipIdx.filterMap fun (entry, i) =>
    if entry.due now then some (triggeredInfo i entry) else none

namespace DismissDialog

inductive Mode where
  | Simple
  | Game
  | Button
  | Camera
deriving DecidableEq, Repr

inductive GameType where
  | NumberOrder
  | ColorMemory
  | Ultrasonic
deriving DecidableEq, Repr

end DismissDialog

/-- Mode priority: Camera > Button > Game > Simple. -/
def dismissMode (triggered : List TriggeredInfo) : DismissDialog.Mode :=
  let need (m : DismissMode) : Bool := triggered.any fun t => t.dismissMode == m.toInt
  if need .DismissCamera then .Camera
  else if need .DismissButton then .Button
  else if need .DismissGame then .Game
  else .Simple

/-- The game of the last alarm that asks for one. -/
def selectedGameType (triggered : List TriggeredInfo) : DismissDialog.GameType :=
  triggered.foldl (fun selected t =>
    if t.dismissMode = DismissMode.DismissGame.toInt then
      if t.gameType = GameType.GameColorMemory.toInt then .ColorMemory
      else if t.gameType = GameType.GameUltrasonic.toInt then .Ultrasonic
      else .NumberOrder
    else selected) .NumberOrder

/-- The first camera alarm names the photo; -1 outside camera mode. -/
def dismissAlarmId (triggered : List TriggeredInfo) : Int :=
  if dismissMode triggered = .Camera then
    ((triggered.find? fun t => t.dismissMode == DismissMode.DismissCamera.toInt).map
      (·.alarmId)).getD (-1)
  else -1

/-- The locals of `updateCurrentTime` while its dialog is open. -/
structure DismissFrame where
  now : QDateTime
  triggered : List TriggeredInfo
  soundFile : QString
  alarmTimes : List QString
  mode : DismissDialog.Mode
  gameType : DismissDialog.GameType
  alarmId : Int
deriving DecidableEq, Repr

def openDismissDialog (now : QDateTime) (triggered : List TriggeredInfo) : DismissFrame where
  now := now
  triggered := triggered
  soundFile := (triggered.head?.map (·.soundFile)).getD []
  alarmTimes := triggered.map (·.alarmTime)
  mode := dismissMode triggered
  gameType := selectedGameType triggered
  alarmId := dismissAlarmId triggered

/-! ### The dismiss record -/

/-- One line of a log. -/
def logLine (t : TriggeredInfo) (dismissTime capturedPhotoPath : QString) : QString :=
  "ALARM: ".toList ++ t.alarmTime ++ " | DISMISSED: ".toList ++ dismissTime ++
    (if t.dismissMode = DismissMode.DismissCamera.toInt ∧ ¬ capturedPhotoPath.isEmpty then
      " | PHOTO: ".toList ++ capturedPhotoPath
    else []) ++ "\n".toList

/-- The text appended to `alarm.txt`. -/
def globalRecords (triggered : List TriggeredInfo) (dismissTime capturedPhotoPath : QString) :
    QString :=
  triggered.flatMap fun t => logLine t dismissTime capturedPhotoPath

/-- The appends to the per-alarm files, each a path and a text; the path is looked up by
    the index that was remembered. -/
def alarmRecords (alarms : List AlarmEntry) (triggered : List TriggeredInfo)
    (dismissTime capturedPhotoPath : QString) : List (QString × QString) :=
  triggered.filterMap fun t =>
    match alarms[t.index]? with
    | none => none
    | some e =>
      if e.logFile.isEmpty then none
      else some (e.logFile, logLine t dismissTime capturedPhotoPath)

/-- Where every alarm that is found has a file, nothing is left out. -/
theorem alarmRecords_of_paths {alarms : List AlarmEntry} {triggered : List TriggeredInfo}
    (hpath : ∀ t ∈ triggered, ∀ e, alarms[t.index]? = some e → ¬ e.logFile.isEmpty)
    (dismissTime capturedPhotoPath : QString) :
    alarmRecords alarms triggered dismissTime capturedPhotoPath =
      triggered.filterMap fun t =>
        alarms[t.index]?.map fun e => (e.logFile, logLine t dismissTime capturedPhotoPath) := by
  unfold alarmRecords
  apply List.filterMap_congr
  intro t ht
  cases he : alarms[t.index]? with
  | none => rfl
  | some e => exact if_neg (hpath t ht e he)

/-- The loop that reschedules or disables what rang. -/
def settleTriggered (postDismissNow : QDateTime) (triggered : List TriggeredInfo)
    (alarms : List AlarmEntry) : List AlarmEntry :=
  triggered.foldl (fun alarms t => alarms.modify t.index (·.afterDismiss postDismissNow)) alarms

/-! ### The window -/

/-- The files. `appended` is the journal of appends to the logs, oldest first. -/
structure Disk where
  alarmCounter : Option QString := none
  alarmsSave : Option QJsonDocument := none
  appended : List (QString × QString) := []
deriving DecidableEq, Repr

structure MainWindow where
  alarms : List AlarmEntry := []
  nextAlarmId : Int := 1
  alarmHandling : Bool := false
  frame : Option DismissFrame := none
  disk : Disk := {}
  clock : Nat := 0
deriving DecidableEq, Repr

namespace MainWindow

variable (P : Platform)

def sortAlarmsByTime (m : MainWindow) : MainWindow := { m with alarms := P.sort.sort m.alarms }

/-- The rows of the list widget are drawn from the sorted list. -/
def refreshAlarmList (m : MainWindow) : MainWindow := sortAlarmsByTime P m

def saveAlarmCounter (m : MainWindow) : MainWindow :=
  { m with disk := { m.disk with alarmCounter := some (TextFormat.decimal m.nextAlarmId) } }

def saveAlarms (m : MainWindow) : MainWindow :=
  { m with disk := { m.disk with alarmsSave := some (.array (alarmsArray m.alarms)) } }

def loadAlarmCounter (m : MainWindow) : MainWindow :=
  { m with nextAlarmId := readCounter m.disk.alarmCounter m.nextAlarmId }

def loadAlarms (now : QDateTime) (m : MainWindow) : Option MainWindow :=
  match m.disk.alarmsSave with
  | some (.array arr) =>
    (arr.foldlM (loadElement P.home now) (m.alarms, m.nextAlarmId)).map fun loaded =>
      refreshAlarmList P (sortAlarmsByTime P
        { m with alarms := loaded.1, nextAlarmId := loaded.2 })
  | _ => some m

/-- The constructor on the files of an earlier run. -/
def launch (disk : Disk) (now : Nat) : Option MainWindow :=
  loadAlarms P (QDateTime.currentDateTime now) (loadAlarmCounter { disk := disk, clock := now })

/-- `updateCurrentTime` up to `dlg.exec()`. -/
def updateCurrentTime (now : QDateTime) (m : MainWindow) : MainWindow :=
  let m := refreshAlarmList P m
  let triggered := collectTriggered now m.alarms
  if triggered.isEmpty then m
  else if m.alarmHandling then m
  else { m with alarmHandling := true, frame := some (openDismissDialog now triggered) }

/-- Write dismiss record to log. -/
def writeDismissRecord (triggered : List TriggeredInfo) (dismissTime capturedPhotoPath : QString)
    (m : MainWindow) : MainWindow :=
  { m with disk := { m.disk with
      appended := m.disk.appended ++
        (P.home ++ "/alarm.txt".toList, globalRecords triggered dismissTime capturedPhotoPath) ::
          alarmRecords m.alarms triggered dismissTime capturedPhotoPath } }

/-- `updateCurrentTime` from the return of `dlg.exec()` on. -/
def afterExec (now : QDateTime) (capturedPhotoPath : QString) (m : MainWindow) : MainWindow :=
  match m.frame with
  | none => m
  | some frame =>
    let m := writeDismissRecord P frame.triggered now.toSecondText capturedPhotoPath m
    let m := { m with alarms := settleTriggered now frame.triggered m.alarms }
    let m := refreshAlarmList P (saveAlarms m)
    { m with alarmHandling := false, frame := none }

/-- The end of `openAddDialog` and of `setDebugAlarmPlus5Sec`: the new entry takes the
    next id. There is no next id after the largest `int`. -/
def appendAlarm (r : AlarmDialog.Accepted) (m : MainWindow) : Option MainWindow :=
  (succInt m.nextAlarmId).map fun next =>
    let entry := AlarmEntry.created P.home m.nextAlarmId r
    let m := { m with nextAlarmId := next, alarms := m.alarms ++ [entry] }
    refreshAlarmList P (sortAlarmsByTime P (saveAlarms (saveAlarmCounter m)))

/-- The dialog that `openEditDialog` opens on a row. -/
def openEditDialog (opened : QDateTime) (row : Nat) (m : MainWindow) : Option AlarmDialog :=
  m.alarms[row]?.map fun e => e.editor P.home opened

/-- `openEditDialog` from the accepted `dlg.exec()` on. -/
def acceptEdit (row : Nat) (r : AlarmDialog.Accepted) (m : MainWindow) : MainWindow :=
  let m := { m with alarms := m.alarms.modify row (·.edited r) }
  refreshAlarmList P (saveAlarms (sortAlarmsByTime P m))

def deleteSelectedAlarm (row : Nat) (m : MainWindow) : MainWindow :=
  if row < m.alarms.length then
    refreshAlarmList P (saveAlarms { m with alarms := m.alarms.eraseIdx row })
  else m

/-- The Disable button of a row. -/
def disableRow (row : Nat) (m : MainWindow) : MainWindow :=
  if row < m.alarms.length then
    refreshAlarmList P (saveAlarms { m with alarms := m.alarms.modify row (·.disable) })
  else m

/-- The Enable button of a row. -/
def enableRow (now2 : QDateTime) (row : Nat) (m : MainWindow) : MainWindow :=
  match m.alarms[row]? with
  | none => m
  | some entry =>
    if entry.enabled then m
    else refreshAlarmList P (saveAlarms { m with alarms := m.alarms.modify row (·.enable now2) })

end MainWindow

/-! ### Steps -/

/-- The two ways an alarm is made. -/
inductive Creation where
  | openAddDialog (opened now : Nat) (presses : List AlarmDialog.Press)
  | setDebugAlarmPlus5Sec (now : Nat) (sound : Fin 3) (mode : DismissMode) (game : GameType)
deriving DecidableEq, Repr

namespace Creation

def opened : Creation → Nat
  | openAddDialog opened _ _ => opened
  | setDebugAlarmPlus5Sec now _ _ _ => now

def now : Creation → Nat
  | openAddDialog _ now _ => now
  | setDebugAlarmPlus5Sec now _ _ _ => now

def accepted (home : QString) : Creation → AlarmDialog.Accepted
  | openAddDialog opened now presses =>
    let dlg := AlarmDialog.forAdd home (QDateTime.currentDateTime opened)
    (presses.foldl AlarmDialog.press dlg).onConfirm home (QDateTime.currentDateTime now)
  | setDebugAlarmPlus5Sec now sound mode game =>
    { dateTime := (QDateTime.currentDateTime now).addSecs 5
      soundFile := soundData home sound
      dismissMode := mode.toInt
      gameType := game.toInt
      repeatMask := 0
      useSpecificDate := false }

end Creation

/-- What can happen to the window. Cancelled dialogs change nothing and are left out.
    `createCut` is a creation cut short: the application restarts after
    `saveAlarmCounter` and before `saveAlarms`. -/
inductive Event where
  | tick (now : Nat)
  | dismiss (now : Nat) (capturedPhotoPath : QString)
  | create (c : Creation)
  | createCut (c : Creation) (restartAt : Nat)
  | edit (row opened now : Nat) (presses : List AlarmDialog.Press)
  | delete (row : Nat)
  | disable (row : Nat)
  | enable (now row : Nat)
  | restart (now : Nat)
deriving DecidableEq, Repr

namespace MainWindow

variable (P : Platform)

/-- The clock shows `now`, which is not before its last reading. -/
def clockAt (now : Nat) (m : MainWindow) : Option MainWindow :=
  if m.clock ≤ now then some { m with clock := now } else none

/-- The user reaches the window when no dismiss dialog is open. -/
def unblocked (m : MainWindow) : Option MainWindow :=
  if m.frame.isNone then some m else none

def step (m : MainWindow) : Event → Option MainWindow
  | .tick now =>
    (clockAt now m).map (updateCurrentTime P (QDateTime.currentDateTime now))
  | .dismiss now capturedPhotoPath =>
    if m.frame.isSome then
      (clockAt now m).map (afterExec P (QDateTime.currentDateTime now) capturedPhotoPath)
    else none
  | .create c => do
    let m ← unblocked m
    let m ← clockAt c.opened m
    let m ← clockAt c.now m
    appendAlarm P (c.accepted P.home) m
  | .createCut c restartAt => do
    let m ← unblocked m
    let m ← clockAt c.opened m
    let m ← clockAt c.now m
    let m ← clockAt restartAt m
    let next ← succInt m.nextAlarmId
    launch P (saveAlarmCounter { m with nextAlarmId := next }).disk restartAt
  | .edit row opened now presses => do
    let m ← unblocked m
    let m ← clockAt opened m
    match openEditDialog P (QDateTime.currentDateTime opened) row m with
    | none => some m
    | some dlg =>
      let m ← clockAt now m
      let r := (presses.foldl AlarmDialog.press dlg).onConfirm P.home
        (QDateTime.currentDateTime now)
      some (acceptEdit P row r m)
  | .delete row => (unblocked m).map (deleteSelectedAlarm P row)
  | .disable row => (unblocked m).map (disableRow P row)
  | .enable now row => do
    let m ← unblocked m
    let m ← clockAt now m
    some (enableRow P (QDateTime.currentDateTime now) row m)
  | .restart now => (clockAt now m).bind fun m => launch P m.disk now

/-! ### What a step can do -/

/-- The entry that a creation appends, the window it leaves, and the files between its
    two writes. -/
def entryOf (c : Creation) (m : MainWindow) : AlarmEntry :=
  AlarmEntry.created P.home m.nextAlarmId (c.accepted P.home)

def afterCreate (c : Creation) (m : MainWindow) : MainWindow :=
  refreshAlarmList P (sortAlarmsByTime P (saveAlarms (saveAlarmCounter
    { m with
      nextAlarmId := m.nextAlarmId + 1
      alarms := m.alarms ++ [entryOf P c m]
      clock := c.now })))

def diskBetween (m : MainWindow) : Disk :=
  { m.disk with alarmCounter := some (TextFormat.decimal (m.nextAlarmId + 1)) }

/-- What the editor hands back when it is opened on an entry. -/
def editResult (opened now : Nat) (presses : List AlarmDialog.Press) (e : AlarmEntry) :
    AlarmDialog.Accepted :=
  (presses.foldl AlarmDialog.press (e.editor P.home (QDateTime.currentDateTime opened))).onConfirm
    P.home (QDateTime.currentDateTime now)

/-- Every step, with its guards and its result. -/
inductive StepTo (m : MainWindow) : Event → MainWindow → Prop where
  | tick (now : Nat) (hclock : m.clock ≤ now) :
      StepTo m (.tick now)
        (updateCurrentTime P (QDateTime.currentDateTime now) { m with clock := now })
  | dismiss (now : Nat) (capturedPhotoPath : QString) (frame : DismissFrame)
      (hframe : m.frame = some frame) (hclock : m.clock ≤ now) :
      StepTo m (.dismiss now capturedPhotoPath)
        (afterExec P (QDateTime.currentDateTime now) capturedPhotoPath { m with clock := now })
  | create (c : Creation) (hframe : m.frame = none) (hclock : m.clock ≤ c.now)
      (hroom : m.nextAlarmId < 2147483647) : StepTo m (.create c) (afterCreate P c m)
  | createCut (c : Creation) (restartAt : Nat) (m' : MainWindow) (hframe : m.frame = none)
      (hclock : m.clock ≤ c.now) (hrestart : c.now ≤ restartAt)
      (hroom : m.nextAlarmId < 2147483647)
      (hlaunch : launch P (diskBetween m) restartAt = some m') :
      StepTo m (.createCut c restartAt) m'
  | noEdit (row opened now : Nat) (presses : List AlarmDialog.Press) (hframe : m.frame = none)
      (hclock : m.clock ≤ opened) (hrow : m.alarms[row]? = none) :
      StepTo m (.edit row opened now presses) { m with clock := opened }
  | edit (row opened now : Nat) (presses : List AlarmDialog.Press) (e : AlarmEntry)
      (hframe : m.frame = none) (hclock : m.clock ≤ now) (hrow : m.alarms[row]? = some e) :
      StepTo m (.edit row opened now presses)
        (acceptEdit P row (editResult P opened now presses e) { m with clock := now })
  | delete (row : Nat) (hframe : m.frame = none) :
      StepTo m (.delete row) (deleteSelectedAlarm P row m)
  | disable (row : Nat) (hframe : m.frame = none) :
      StepTo m (.disable row) (disableRow P row m)
  | enable (now row : Nat) (hframe : m.frame = none) (hclock : m.clock ≤ now) :
      StepTo m (.enable now row)
        (enableRow P (QDateTime.currentDateTime now) row { m with clock := now })
  | restart (now : Nat) (m' : MainWindow) (hclock : m.clock ≤ now)
      (hlaunch : launch P m.disk now = some m') : StepTo m (.restart now) m'

variable {P}
variable {m m' : MainWindow}

theorem clockAt_eq_some {now : Nat} :
    clockAt now m = some m' ↔ m.clock ≤ now ∧ m' = { m with clock := now } := by
  unfold clockAt
  split
  · next h => simp only [h, true_and, Option.some.injEq, eq_comm]
  · next h => simp only [h, false_and, reduceCtorEq]

theorem unblocked_eq_some : unblocked m = some m' ↔ m.frame = none ∧ m' = m := by
  unfold unblocked
  split
  · next h => simp only [Option.isNone_iff_eq_none.mp h, true_and, Option.some.injEq, eq_comm]
  · next h =>
    have hne : m.frame ≠ none := fun hnone => h (by rw [hnone]; rfl)
    simp only [hne, false_and, reduceCtorEq]

theorem succInt_eq_some {n next : Int} : succInt n = some next ↔ n < 2147483647 ∧ next = n + 1 := by
  unfold succInt
  split
  · next h => simp only [h, true_and, Option.some.injEq, eq_comm]
  · next h => simp only [h, false_and, reduceCtorEq]

theorem clockAt_opened_now {c : Creation} {m₁ m₂ : MainWindow}
    (h₁ : clockAt c.opened m = some m₁) (h₂ : clockAt c.now m₁ = some m₂) :
    m.clock ≤ c.now ∧ m₂ = { m with clock := c.now } := by
  obtain ⟨hopened, rfl⟩ := clockAt_eq_some.mp h₁
  obtain ⟨hnow, rfl⟩ := clockAt_eq_some.mp h₂
  exact ⟨Nat.le_trans hopened hnow, rfl⟩

/-- **Every step is one of `StepTo`.** -/
theorem step_cases {ev : Event} (h : step P m ev = some m') : StepTo P m ev m' := by
  cases ev with
  | tick now =>
    obtain ⟨m₁, h₁, rfl⟩ := Option.map_eq_some_iff.mp h
    obtain ⟨hclock, rfl⟩ := clockAt_eq_some.mp h₁
    exact .tick now hclock
  | dismiss now capturedPhotoPath =>
    simp only [step] at h
    split at h
    · next hsome =>
      obtain ⟨frame, hframe⟩ := Option.isSome_iff_exists.mp hsome
      obtain ⟨m₁, h₁, rfl⟩ := Option.map_eq_some_iff.mp h
      obtain ⟨hclock, rfl⟩ := clockAt_eq_some.mp h₁
      exact .dismiss now capturedPhotoPath frame hframe hclock
    · cases h
  | create c =>
    simp only [step, bind, Option.bind_eq_some_iff] at h
    obtain ⟨m₀, h₀, m₁, h₁, m₂, h₂, h₃⟩ := h
    obtain ⟨hframe, rfl⟩ := unblocked_eq_some.mp h₀
    obtain ⟨hclock, rfl⟩ := clockAt_opened_now h₁ h₂
    obtain ⟨next, hnext, rfl⟩ := Option.map_eq_some_iff.mp h₃
    obtain ⟨hroom, rfl⟩ := succInt_eq_some.mp hnext
    exact .create c hframe hclock hroom
  | createCut c restartAt =>
    simp only [step, bind, Option.bind_eq_some_iff] at h
    obtain ⟨m₀, h₀, m₁, h₁, m₂, h₂, m₃, h₃, next, hnext, hlaunch⟩ := h
    obtain ⟨hframe, rfl⟩ := unblocked_eq_some.mp h₀
    obtain ⟨hclock, rfl⟩ := clockAt_opened_now h₁ h₂
    obtain ⟨hrestart, rfl⟩ := clockAt_eq_some.mp h₃
    obtain ⟨hroom, rfl⟩ := succInt_eq_some.mp hnext
    exact .createCut c restartAt m' hframe hclock hrestart hroom hlaunch
  | edit row opened now presses =>
    simp only [step, bind, Option.bind_eq_some_iff] at h
    obtain ⟨m₀, h₀, m₁, h₁, h⟩ := h
    obtain ⟨hframe, rfl⟩ := unblocked_eq_some.mp h₀
    obtain ⟨hopened, rfl⟩ := clockAt_eq_some.mp h₁
    cases hrow : m₀.alarms[row]? with
    | none =>
      simp only [openEditDialog, hrow, Option.map_none, Option.some.injEq] at h
      exact h ▸ .noEdit row opened now presses hframe hopened hrow
    | some e =>
      simp only [openEditDialog, hrow, Option.map_some, Option.bind_eq_some_iff,
        Option.some.injEq] at h
      obtain ⟨m₂, h₂, rfl⟩ := h
      obtain ⟨hclock, rfl⟩ := clockAt_eq_some.mp h₂
      exact .edit row opened now presses e hframe (Nat.le_trans hopened hclock) hrow
  | delete row =>
    obtain ⟨m₁, h₁, rfl⟩ := Option.map_eq_some_iff.mp h
    obtain ⟨hframe, rfl⟩ := unblocked_eq_some.mp h₁
    exact .delete row hframe
  | disable row =>
    obtain ⟨m₁, h₁, rfl⟩ := Option.map_eq_some_iff.mp h
    obtain ⟨hframe, rfl⟩ := unblocked_eq_some.mp h₁
    exact .disable row hframe
  | enable now row =>
    simp only [step, bind, Option.bind_eq_some_iff, Option.some.injEq] at h
    obtain ⟨m₀, h₀, m₁, h₁, rfl⟩ := h
    obtain ⟨hframe, rfl⟩ := unblocked_eq_some.mp h₀
    obtain ⟨hclock, rfl⟩ := clockAt_eq_some.mp h₁
    exact .enable now row hframe hclock
  | restart now =>
    simp only [step, Option.bind_eq_some_iff] at h
    obtain ⟨m₁, h₁, hlaunch⟩ := h
    obtain ⟨hclock, rfl⟩ := clockAt_eq_some.mp h₁
    exact .restart now m' hclock hlaunch

end MainWindow

end AlarmClock
