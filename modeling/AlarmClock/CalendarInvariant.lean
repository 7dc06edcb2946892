import AlarmClock.EditSession

/-!
# The calendar invariant of the alarm store

Six operations write the date-time, the mask and the flag of an entry, each through its
own code, and the clock ticks on while their dialogs are open. In every state of every run
the three agree. The time of day of a weekly alarm is left alone by everything but an
accepted editor, and that is an edit of the alarm as long as the row of the editor is the
row of the alarm that it was opened on.
-/

namespace AlarmClock

open QDateTime

/-! ### The time of day -/

/-- `e'` is `e` at a later time: the same alarm, at the same time of day when weekly. -/
def KeepsTime (e e' : AlarmEntry) : Prop :=
  e'.alarmId = e.alarmId ∧
    (e.repeatMask ≠ 0 → e'.repeatMask = e.repeatMask ∧ e'.dateTime.time = e.dateTime.time)

namespace KeepsTime

theorem refl (e : AlarmEntry) : KeepsTime e e := ⟨rfl, fun _ => ⟨rfl, rfl⟩⟩

theorem trans {a b c : AlarmEntry} (hab : KeepsTime a b) (hbc : KeepsTime b c) : KeepsTime a c := by
  refine ⟨hbc.1.trans hab.1, ?_⟩
  intro hmask
  obtain ⟨hmask', htime⟩ := hab.2 hmask
  obtain ⟨hmask'', htime'⟩ := hbc.2 (by rw [hmask']; exact hmask)
  exact ⟨hmask''.trans hmask', htime'.trans htime⟩

variable {home : QString} {e : AlarmEntry}

theorem disable (e : AlarmEntry) : KeepsTime e e.disable := ⟨rfl, fun _ => ⟨rfl, rfl⟩⟩

theorem enable (h : e.InCalendar) {now : QDateTime} (hnow : now.isValid = true) :
    KeepsTime e (e.enable now) := by
  refine ⟨AlarmEntry.enable_alarmId now e, ?_⟩
  intro hmask
  rw [AlarmEntry.enable, if_pos hmask]
  exact ⟨rfl, (h.isFirst hmask hnow).time_eq⟩

theorem afterDismiss (h : e.InCalendar) {now : QDateTime} (hnow : now.isValid = true) :
    KeepsTime e (e.afterDismiss now) := by
  refine ⟨AlarmEntry.afterDismiss_alarmId now e, ?_⟩
  intro hmask
  rw [AlarmEntry.afterDismiss, if_pos hmask]
  exact ⟨rfl, (h.isFirst hmask hnow).time_eq⟩

theorem advance (h : e.InCalendar) {now : QDateTime} (hnow : now.isValid = true) :
    KeepsTime e (e.advance now) := by
  refine ⟨AlarmEntry.advance_alarmId now e, ?_⟩
  intro hmask
  rcases AlarmEntry.advance_cases now e with ⟨-, heq⟩ | ⟨-, hzero, -⟩ | ⟨-, -, heq⟩
  · rw [heq]
    exact ⟨rfl, rfl⟩
  · exact absurd hzero hmask
  · rw [heq]
    exact ⟨rfl, (h.isFirst hmask hnow).time_eq⟩

theorem normalise (h : e.Ok home) {now : QDateTime} (hnow : now.isValid = true) :
    KeepsTime e (e.normalise now) := by
  have hsec : KeepsTime e e.truncSec :=
    ⟨rfl, fun hmask => by rw [h.truncSec_eq hmask]; exact ⟨rfl, rfl⟩⟩
  exact hsec.trans (advance h.truncSec.toInCalendar hnow)

end KeepsTime

namespace MainWindow

variable {P : Platform} {m m' : MainWindow}

/-- What the end of a dialog lists are the entries from before, at their times of day. -/
theorem keepsTime_settleTriggered (h : Inv P m) {now : QDateTime} (hnow : now.InCommonEra)
    {triggered : List TriggeredInfo} {x : AlarmEntry}
    (hx : x ∈ settleTriggered now triggered m.alarms) : ∃ e ∈ m.alarms, KeepsTime e x := by
  rw [settleTriggered_eq] at hx
  obtain ⟨e, he, hex⟩ := IndexedUpdate.exists_of_mem_foldl_modify
    (R := fun e y => e.Ok P.home → y.Ok P.home ∧ KeepsTime e y)
    (fun e hok => ⟨hok, KeepsTime.refl e⟩)
    (fun e y hey hok => by
      obtain ⟨hyok, hkeeps⟩ := hey hok
      exact ⟨hyok.afterDismiss hnow,
        hkeeps.trans (KeepsTime.afterDismiss hyok.toInCalendar hnow.1)⟩) _ hx
  exact ⟨e, he, (hex (h.entries.ok e he)).2⟩

end MainWindow

/-- What the dialog writes when it is accepted is an alarm. -/
def UserDialog.Ok : UserDialog → Prop
  | .add dlg => dlg.Ok
  | .edit _ dlg => dlg.Ok
  | _ => True

namespace Screen

variable {P : Platform} {s s' : Screen}

/-! ### One event of the screen -/

theorem clickEnableBtn_cases (now : QDateTime) (row : Row) :
    s.clickEnableBtn P now row = s ∨
    s.clickEnableBtn P now row = s.redraw now (s.window.disableRow P row.index) ∨
    s.clickEnableBtn P now row = s.redraw now (s.window.enableRow P now row.index) := by
  unfold clickEnableBtn
  split
  · exact .inl rfl
  · split
    · exact .inr (.inl rfl)
    · split
      · exact .inl rfl
      · exact .inr (.inr rfl)

theorem deleteSelectedAlarm_cases (now : QDateTime) :
    s.deleteSelectedAlarm P now = s ∨
    ∃ row, s.deleteSelectedAlarm P now = s.redraw now (s.window.deleteSelectedAlarm P row) := by
  unfold deleteSelectedAlarm
  split
  · exact .inl rfl
  · next row _ => exact .inr ⟨row, rfl⟩

/-- The editor is opened on an entry. -/
theorem openEditDialog_ok (hok : ∀ e ∈ s.window.alarms, e.Ok P.home) (now : QDateTime) :
    ∀ d ∈ (s.openEditDialog P now).dialog, d.Ok := by
  unfold openEditDialog
  split
  · intro d hd
    obtain rfl := Option.some.inj hd
    trivial
  · next row _ =>
    intro d hd
    obtain ⟨dlg, hdlg, rfl⟩ := Option.map_eq_some_iff.mp hd
    obtain ⟨e, he, rfl⟩ := Option.map_eq_some_iff.mp hdlg
    exact (hok e (List.mem_of_getElem? he)).editor now

/-- **Every event keeps the invariant**, with the open editor. -/
theorem inv_step (h : Inv P s.window) (hdialog : ∀ d ∈ s.dialog, d.Ok) {ev : Event}
    (hstep : step P s ev = some s') : Inv P s'.window ∧ ∀ d ∈ s'.dialog, d.Ok := by
  have hlater : ∀ now, s.window.clock ≤ now → Inv P (s.atClock now).window := fun now hclock =>
    MainWindow.inv_of_perm h hclock (List.Perm.refl _) rfl rfl rfl h.handling
  have hclosed : ∀ d ∈ (none : Option UserDialog), d.Ok := by simp
  have hother : ∀ dialog : UserDialog, dialog.Ok → ∀ d ∈ some dialog, d.Ok := by
    intro dialog hok d hd
    obtain rfl := Option.some.inj hd
    exact hok
  cases step_cases hstep with
  | tick now hclock => exact ⟨MainWindow.inv_updateCurrentTime h hclock, hdialog⟩
  | dismiss now photo frame hframe hclock =>
    exact ⟨MainWindow.inv_afterExec (hlater now hclock) (inCommonEra_currentDateTime now) photo,
      hdialog⟩
  | select row hnone hrow => exact ⟨h, hdialog⟩
  | clickEnableBtn now i row hnone hrow hclock =>
    have h' := hlater now hclock
    rcases clickEnableBtn_cases (P := P) (s := s.atClock now) (currentDateTime now) row with
      heq | heq | heq
    · rw [heq]
      exact ⟨h', hdialog⟩
    · rw [heq]
      refine ⟨MainWindow.inv_of_row h' (MainWindow.disableRow_row row.index _) ?_, hdialog⟩
      exact h'.entries.modify AlarmEntry.disable_alarmId (fun _ hx => hx.disable) row.index
    · rw [heq]
      refine ⟨MainWindow.inv_of_row h' (MainWindow.enableRow_row (currentDateTime now) row.index _)
        ?_, hdialog⟩
      exact h'.entries.modify (AlarmEntry.enable_alarmId _)
        (fun _ hx => hx.enable (inCommonEra_currentDateTime now)) row.index
  | clickStatBtn i row hnone hrow =>
    unfold openAlarmStatDialog
    split
    · exact ⟨h, hdialog⟩
    · exact ⟨h, hother _ trivial⟩
  | openAddDialog now hnone hclock =>
    exact ⟨hlater now hclock, hother _ (AlarmDialog.forAdd_ok P.home now)⟩
  | openEditDialog now hnone hclock =>
    obtain ⟨dialog, heq⟩ := openEditDialog_frame P (currentDateTime now) (s.atClock now)
    refine ⟨?_, openEditDialog_ok (hlater now hclock).entries.ok (currentDateTime now)⟩
    rw [heq]
    exact hlater now hclock
  | deleteSelectedAlarm now hnone hclock =>
    have h' := hlater now hclock
    rcases deleteSelectedAlarm_cases (P := P) (s := s.atClock now) (currentDateTime now) with
      heq | ⟨row, heq⟩
    · rw [heq]
      exact ⟨h', hdialog⟩
    · rw [heq]
      exact ⟨MainWindow.inv_of_row h' (MainWindow.deleteSelectedAlarm_row row _)
        (h'.entries.eraseIdx row), hdialog⟩
  | setDebugAlarmPlus5Sec hnone => exact ⟨h, hother _ trivial⟩
  | openStatDialog hnone => exact ⟨h, hother _ trivial⟩
  | openFriendStatDialog hnone => exact ⟨h, hother _ trivial⟩
  | pressAdd p dlg hadd =>
    exact ⟨h, hother (.add (dlg.press p)) (AlarmDialog.press_ok (hdialog (.add dlg) hadd) p)⟩
  | pressEdit p row dlg hedit =>
    exact ⟨h, hother (.edit row (dlg.press p))
      (AlarmDialog.press_ok (hdialog (.edit row dlg) hedit) p)⟩
  | acceptAdd now dlg m hadd happend hclock =>
    have hr := AlarmDialog.onConfirm_ok (hdialog (.add dlg) hadd) P.home now
    rw [window_selectAdded, dialog_selectAdded]
    exact ⟨MainWindow.inv_appendAlarm (hlater now hclock) hr happend, hclosed⟩
  | acceptEdit now row dlg hedit hclock =>
    have hr := AlarmDialog.onConfirm_ok (hdialog (.edit row dlg) hedit) P.home now
    have hl := h.entries.modify (f := (·.edited (dlg.onConfirm P.home (currentDateTime now))))
      (fun _ => rfl) (fun _ hx => hx.edited hr) row
    exact ⟨MainWindow.inv_of_write (hlater now hclock) (hl.perm (P.sort.perm _)), hclosed⟩
  | addPlus5Sec now sound mode game m hplus happend hclock =>
    exact ⟨MainWindow.inv_appendAlarm (hlater now hclock)
      (MainWindow.accepted_ok P.home (.setDebugAlarmPlus5Sec now sound mode game)) happend, hclosed⟩
  | reject => exact ⟨h, hclosed⟩

/-- **One event.** Every entry listed after it is an entry listed before, at its time of day,
    or has a new id, or was written by the accepted editor. -/
theorem keepsTime_step (h : Inv P s.window) {ev : Event} (hstep : step P s ev = some s')
    {x : AlarmEntry} (hx : x ∈ s'.window.alarms) :
    (∃ e ∈ s.window.alarms, KeepsTime e x) ∨ x.alarmId = s.window.nextAlarmId ∨
      ∃ now row dlg e, ev = .accept now ∧ s.dialog = some (.edit row dlg) ∧
        s.window.alarms[row]? = some e ∧
        x = e.edited (dlg.onConfirm P.home (currentDateTime now)) := by
  have hkept : ∀ e, e ∈ s.window.alarms → ∃ e' ∈ s.window.alarms, KeepsTime e' e :=
    fun e he => ⟨e, he, KeepsTime.refl e⟩
  have happended : ∀ {m m' : MainWindow} {r : AlarmDialog.Accepted},
      m.appendAlarm P r = some m' → m.alarms = s.window.alarms →
      m.nextAlarmId = s.window.nextAlarmId → x ∈ m'.alarms →
      (∃ e ∈ s.window.alarms, KeepsTime e x) ∨ x.alarmId = s.window.nextAlarmId := by
    intro m m' r happend halarms hnext hx
    rw [alarms_appendAlarm happend, P.sort.mem_sort, P.sort.mem_sort, halarms] at hx
    rcases List.mem_append.mp hx with hx | hx
    · exact .inl (hkept x hx)
    · refine .inr ?_
      rw [List.mem_singleton.mp hx]
      exact hnext
  cases step_cases hstep with
  | tick now hclock =>
    have hx' : x ∈ ((s.atClock now).window.updateCurrentTime P (currentDateTime now)).alarms := hx
    rw [(MainWindow.updateCurrentTime_fields _ _).1, P.sort.mem_sort] at hx'
    exact .inl (hkept x hx')
  | dismiss now photo frame hframe hclock =>
    have halarms := (MainWindow.afterExec_fields (P := P) hframe (currentDateTime now) photo now).1
    have hx' : x ∈ ((s.atClock now).window.afterExec P (currentDateTime now) photo).alarms := hx
    rw [show (s.atClock now).window = { s.window with clock := now } from rfl, halarms,
      P.sort.mem_sort] at hx'
    exact .inl (MainWindow.keepsTime_settleTriggered h (inCommonEra_currentDateTime now) hx')
  | clickEnableBtn now i row hnone hrow hclock =>
    rcases clickEnableBtn_cases (P := P) (s := s.atClock now) (currentDateTime now) row with
      heq | heq | heq
    · rw [heq] at hx
      exact .inl (hkept x hx)
    · rw [heq] at hx
      rcases MainWindow.mem_disableRow hx with hx | ⟨e, he, rfl⟩
      · exact .inl (hkept x hx)
      · exact .inl ⟨e, List.mem_of_getElem? he, KeepsTime.disable e⟩
    · rw [heq] at hx
      rcases MainWindow.mem_enableRow hx with hx | ⟨e, he, -, rfl⟩
      · exact .inl (hkept x hx)
      · have hmem : e ∈ s.window.alarms := List.mem_of_getElem? he
        exact .inl ⟨e, hmem, KeepsTime.enable (h.entries.ok e hmem).toInCalendar rfl⟩
  | deleteSelectedAlarm now hnone hclock =>
    rcases deleteSelectedAlarm_cases (P := P) (s := s.atClock now) (currentDateTime now) with
      heq | ⟨row, heq⟩
    · rw [heq] at hx
      exact .inl (hkept x hx)
    · rw [heq] at hx
      have hmem : x ∈ (s.atClock now).window.alarms := MainWindow.mem_deleteSelectedAlarm hx
      exact .inl (hkept x hmem)
  | clickStatBtn i row hnone hrow =>
    obtain ⟨dialog, heq⟩ := openAlarmStatDialog_frame P row.index s
    rw [heq] at hx
    exact .inl (hkept x hx)
  | openEditDialog now hnone hclock =>
    obtain ⟨dialog, heq⟩ := openEditDialog_frame P (currentDateTime now) (s.atClock now)
    rw [heq] at hx
    exact .inl (hkept x hx)
  | acceptAdd now dlg m hadd happend hclock =>
    rw [window_selectAdded] at hx
    exact (happended happend rfl rfl hx).imp_right .inl
  | acceptEdit now row dlg hedit hclock =>
    have hx' := P.sort.mem_sort.mp (P.sort.mem_sort.mp hx)
    rcases IndexedUpdate.mem_modify hx' with hx' | ⟨e, he, rfl⟩
    · exact .inl (hkept x hx')
    · exact .inr (.inr ⟨now, row, dlg, e, rfl, hedit, he, rfl⟩)
  | addPlus5Sec now sound mode game m hplus happend hclock =>
    exact (happended happend rfl rfl hx).imp_right .inl
  | select | openAddDialog | setDebugAlarmPlus5Sec | openStatDialog | openFriendStatDialog
  | pressAdd | pressEdit | reject => exact .inl (hkept x hx)

end Screen

/-! ### From start to start -/

/-- The application, and the id of the alarm that its editor was last opened on. -/
structure Application where
  screen : Screen
  opened : Option Int := none

namespace Application

/-- An event of the screen, or another start of the application, each with what the sort does
    in it. `cut` is a start after an add that was cut off between its two writes. -/
inductive Event where
  | screen (ev : Screen.Event) (sort : SortChoice)
  | restart (now : Nat) (sort : SortChoice)
  | cut (now : Nat) (sort : SortChoice)

/-- The alarm that the editor is opened on. -/
def openedBy (a : Application) : Screen.Event → Option Int
  | .openEditDialog _ =>
    (a.screen.selectedRow.bind (a.screen.window.alarms[·]?)).map (·.alarmId)
  | _ => a.opened

/-- A dialog is open whose OK button adds an alarm, and there is an id for it. -/
def adds (a : Application) : Bool :=
  decide (a.screen.window.nextAlarmId < 2147483647) &&
    match a.screen.openDialog with
    | some (.add _) | some .plus5Sec => true
    | _ => false

def step (home : QString) (a : Application) : Event → Option Application
  | .screen ev sort => (Screen.step ⟨home, sort⟩ a.screen ev).map fun s => ⟨s, a.openedBy ev⟩
  | .restart now sort =>
    if a.screen.window.clock ≤ now then
      (Screen.launch ⟨home, sort⟩ a.screen.window.disk now).map fun s => { screen := s }
    else none
  | .cut now sort =>
    if a.adds ∧ a.screen.window.clock ≤ now then
      (Screen.launch ⟨home, sort⟩ (MainWindow.diskBetween a.screen.window) now).map
        fun s => { screen := s }
    else none

/-- The application starts on files that it wrote before, or on none. -/
def Start (home : QString) (a : Application) : Prop :=
  ∃ disk now sort, SavedDisk ⟨home, sort⟩ disk ∧
    Screen.launch ⟨home, sort⟩ disk now = some a.screen ∧ a.opened = none

structure Inv (home : QString) (a : Application) : Prop where
  window : AlarmClock.Inv (Platform.stable home) a.screen.window
  dialog : ∀ d ∈ a.screen.dialog, d.Ok

/-- The step changes the time of day of a repeating alarm only when it accepts an editor that
    was opened on that alarm. -/
def ChangesByEdit (home : QString) (a : Application) (ev : Event) : Prop :=
  ∀ a', a.step home ev = some a' →
    ∀ e ∈ a.screen.window.alarms, ∀ e' ∈ a'.screen.window.alarms, e'.alarmId = e.alarmId →
      e.repeatMask ≠ 0 → e'.dateTime.time ≠ e.dateTime.time →
      ∃ now sort row dlg, ev = .screen (.accept now) sort ∧
        a.screen.dialog = some (.edit row dlg) ∧ a.opened = some e.alarmId

/-- An editor that is accepted has at its row the alarm that it was opened on, or one that does
    not repeat, or one that is for the time of day entered. -/
def EditsOwn (a : Application) : Event → Prop
  | .screen (.accept now) _ =>
    a.screen.window.frame = none → a.screen.window.clock ≤ now →
      ∀ p ∈ a.screen.dialog.bind UserDialog.editing, ∀ e ∈ a.screen.window.alarms[p.1]?,
        a.opened = some e.alarmId ∨ e.repeatMask = 0 ∨
          p.2.time.selectedTime = e.dateTime.time
  | _ => True

instance (a : Application) : ∀ ev, Decidable (a.EditsOwn ev)
  | .screen (.accept _) _ => by unfold EditsOwn; infer_instance
  | .screen (.tick _) _ | .screen (.dismiss _ _) _ | .screen (.select _) _
  | .screen (.clickEnableBtn _ _) _ | .screen (.clickStatBtn _) _ | .screen (.openAddDialog _) _
  | .screen (.openEditDialog _) _ | .screen (.deleteSelectedAlarm _) _
  | .screen .setDebugAlarmPlus5Sec _ | .screen .openStatDialog _ | .screen .openFriendStatDialog _
  | .screen (.press _) _ | .screen (.addPlus5Sec _ _ _ _) _ | .screen .reject _
  | .restart _ _ | .cut _ _ => .isTrue trivial

variable {home : QString} {a a' : Application}

/-! ### Every step -/

theorem inv_launch {disk : Disk} {now : Nat} {sort : SortChoice} {s : Screen}
    (h : SavedDisk (Platform.stable home) disk)
    (hlaunch : Screen.launch ⟨home, sort⟩ disk now = some s) : Inv home { screen := s } := by
  obtain ⟨m, hm, rfl⟩ := Option.map_eq_some_iff.mp hlaunch
  have hinv : AlarmClock.Inv ⟨home, sort⟩ m := MainWindow.inv_launch h hm
  refine ⟨⟨hinv.entries, hinv.range, hinv.counter, hinv.saved, hinv.handling⟩, ?_⟩
  intro d hd
  cases hd

/-- The invariant does not look at the sort. -/
theorem Inv.platform (h : Inv home a) (sort : SortChoice) :
    AlarmClock.Inv ⟨home, sort⟩ a.screen.window :=
  ⟨h.window.entries, h.window.range, h.window.counter, h.window.saved, h.window.handling⟩

theorem inv_start (h : Start home a) : Inv home a := by
  obtain ⟨disk, now, sort, hdisk, hlaunch, -⟩ := h
  obtain ⟨hwindow, hdialog⟩ := inv_launch hdisk hlaunch
  exact ⟨hwindow, hdialog⟩

/-- A step is an event of the screen, or a start on files with the same alarms. -/
theorem step_cases (h : Inv home a) {ev : Event} (hstep : a.step home ev = some a') :
    (∃ ev' sort, ev = .screen ev' sort ∧ Screen.step ⟨home, sort⟩ a.screen ev' = some a'.screen) ∨
    ∃ disk now sort, SavedDisk (Platform.stable home) disk ∧
      disk.alarmsSave = a.screen.window.disk.alarmsSave ∧
      a.screen.window.nextAlarmId ≤ readCounter disk.alarmCounter 1 ∧
      a.screen.window.clock ≤ now ∧ Screen.launch ⟨home, sort⟩ disk now = some a'.screen := by
  cases ev with
  | screen ev sort =>
    obtain ⟨s, hs, rfl⟩ := Option.map_eq_some_iff.mp hstep
    exact .inl ⟨ev, sort, rfl, hs⟩
  | restart now sort =>
    simp only [step] at hstep
    split at hstep
    · next hclock =>
      obtain ⟨s, hs, rfl⟩ := Option.map_eq_some_iff.mp hstep
      exact .inr ⟨_, now, sort, MainWindow.savedDisk_of_inv h.window, rfl,
        Int.le_of_eq h.window.counter.symm, hclock, hs⟩
    · cases hstep
  | cut now sort =>
    simp only [step] at hstep
    split at hstep
    · next hguard =>
      obtain ⟨s, hs, rfl⟩ := Option.map_eq_some_iff.mp hstep
      have hroom := of_decide_eq_true (Bool.and_eq_true_iff.mp hguard.1).1
      have hcounter := MainWindow.readCounter_between h.window
      exact .inr ⟨_, now, sort, MainWindow.savedDisk_between h.window hroom, rfl,
        by omega, hguard.2, hs⟩
    · cases hstep

/-- **Every step keeps the invariant.** -/
theorem inv_step (h : Inv home a) {ev : Event} (hstep : a.step home ev = some a') :
    Inv home a' := by
  rcases step_cases h hstep with ⟨ev', sort, -, hstep'⟩ | ⟨disk, now, sort, hdisk, -, -, -, hlaunch⟩
  · obtain ⟨hwindow, hdialog⟩ := Screen.inv_step (h.platform sort) h.dialog hstep'
    exact ⟨⟨hwindow.entries, hwindow.range, hwindow.counter, hwindow.saved, hwindow.handling⟩,
      hdialog⟩
  · obtain ⟨hwindow, hdialog⟩ := inv_launch hdisk hlaunch
    exact ⟨hwindow, hdialog⟩

theorem inv_run {evs : List Event} (h : Inv home a)
    (hrun : Machine.run (step home) a evs = some a') : Inv home a' :=
  Machine.run_invariant (fun _ _ _ hi hs => inv_step hi hs) h hrun

/-- An accepted editor puts its time of day into the entry at its row. -/
theorem exists_edited (home : QString) (sort : SortChoice) {now row : Nat} {dlg : AlarmDialog}
    {e : AlarmEntry} (hdialog : a.screen.dialog = some (.edit row dlg))
    (hframe : a.screen.window.frame = none) (hclock : a.screen.window.clock ≤ now)
    (he : a.screen.window.alarms[row]? = some e) :
    ∃ a', a.step home (.screen (.accept now) sort) = some a' ∧
      ∃ e' ∈ a'.screen.window.alarms, e'.alarmId = e.alarmId ∧
        e'.dateTime.time = dlg.time.selectedTime := by
  have htime : (dlg.onConfirm home (currentDateTime now)).dateTime.time = dlg.time.selectedTime :=
    AlarmDialog.onConfirm_time (currentDateTime_isValid now) dlg
  obtain ⟨s', hs'⟩ := (Screen.step_accept home sort hdialog).mpr ⟨hframe, hclock⟩
  have hstep : a.step home (.screen (.accept now) sort) = some ⟨s', a.openedBy (.accept now)⟩ :=
    congrArg (Option.map _) hs'
  refine ⟨_, hstep, e.edited (dlg.onConfirm home (currentDateTime now)), ?_, rfl, htime⟩
  cases Screen.step_cases hs' with
  | acceptAdd now dlg' m hadd => cases hdialog.symm.trans hadd
  | acceptEdit now row' dlg' hedit =>
    obtain ⟨rfl, rfl⟩ := UserDialog.edit.inj (Option.some.inj (hdialog.symm.trans hedit))
    apply sort.mem_sort.mpr
    apply sort.mem_sort.mpr
    apply List.mem_of_getElem? (i := row)
    show (a.screen.window.alarms.modify row _)[row]? = _
    rw [List.getElem?_modify_eq, he]
    rfl

/-- **One step.** It changes no time of day but that of its own alarm exactly when the editor
    that it accepts, if any, is at the row of its own alarm or changes none. -/
theorem changesByEdit_iff (h : Inv home a) (ev : Event) :
    ChangesByEdit home a ev ↔ a.EditsOwn ev := by
  constructor
  · intro hchanges
    cases ev with
    | restart | cut => trivial
    | screen ev sort =>
      cases ev with
      | accept now =>
        rintro hframe hclock ⟨row, dlg⟩ hp e he
        obtain ⟨dialog, hdialog, hedits⟩ := Option.bind_eq_some_iff.mp hp
        obtain rfl := UserDialog.editing_eq_some.mp hedits
        by_cases hmask : e.repeatMask = 0
        · exact .inr (.inl hmask)
        by_cases htime : dlg.time.selectedTime = e.dateTime.time
        · exact .inr (.inr htime)
        obtain ⟨a', hstep, e', he', hid, htime'⟩ :=
          exists_edited home sort hdialog hframe hclock he
        obtain ⟨-, -, -, -, -, -, hopened⟩ := hchanges a' hstep e (List.mem_of_getElem? he) e' he'
          hid hmask (by rw [htime']; exact htime)
        exact .inl hopened
      | _ => trivial
  · intro hown a' hstep e he e' he' hid hmask htime
    -- the entry from before with this id is `e`
    have hkept : ¬ ∃ x ∈ a.screen.window.alarms, KeepsTime x e' := by
      rintro ⟨x, hx, hkeeps⟩
      obtain rfl := h.window.entries.eq_of_alarmId hx he (hkeeps.1.symm.trans hid)
      exact htime (hkeeps.2 hmask).2
    rcases step_cases h hstep with ⟨ev', sort, rfl, hstep'⟩ |
      ⟨disk, now, sort, -, hfile, hcounter, hclock, hlaunch⟩
    · rcases Screen.keepsTime_step (h.platform sort) hstep' he' with
        hsame | hnew | ⟨now, row, dlg, x, rfl, hdialog, hx, rfl⟩
      · exact absurd hsame hkept
      · have := (h.window.entries.ids e he).2
        omega
      · obtain rfl := h.window.entries.eq_of_alarmId (List.mem_of_getElem? hx) he hid
        have htime' : (dlg.onConfirm home (currentDateTime now)).dateTime.time =
            dlg.time.selectedTime :=
          AlarmDialog.onConfirm_time (currentDateTime_isValid now) dlg
        obtain ⟨hframe, hclock⟩ := (Screen.step_accept home sort hdialog).mp ⟨_, hstep'⟩
        have hediting : a.screen.dialog.bind UserDialog.editing = some (row, dlg) := by
          rw [hdialog]
          rfl
        rcases hown hframe hclock (row, dlg) hediting x hx with hopened | hzero | hsame
        · exact ⟨now, sort, row, dlg, rfl, hdialog, hopened⟩
        · exact absurd hzero hmask
        · exact absurd (htime'.trans hsame) htime
    · obtain ⟨m, hm, hscreen⟩ := Option.map_eq_some_iff.mp hlaunch
      have hlisted : e' ∈ m.alarms := by
        rw [← hscreen] at he'
        exact he'
      obtain ⟨x, hx, rfl⟩ :=
        MainWindow.mem_launch (h.platform sort) hfile hcounter hclock hm hlisted
      exact absurd ⟨x, hx, KeepsTime.normalise (h.window.entries.ok x hx) rfl⟩ hkept

/-- Events of the screen, under the stable sort. -/
def stably (evs : List Screen.Event) : List Event := evs.map (.screen · (KeySort.stable _))

end Application

open Application

/-- **The calendar invariant.** In every state of every run, with the clock ticking under the
    dialogs and whatever the sorts do, each entry exists in the calendar, with its mask in
    range, on one of its weekdays and without a fixed date when it repeats. A step changes the
    time of day of a repeating alarm only by an edit of that alarm exactly when no editor is
    accepted at the row of another; so does a run. -/
theorem calendar_run {home : QString} {a₀ : Application} (hstart : Application.Start home a₀)
    (evs : List Application.Event) :
    (∀ a, Machine.run (step home) a₀ evs = some a →
      (∀ e ∈ a.screen.window.alarms,
        e.dateTime.isValid = true ∧ 0 ≤ e.repeatMask ∧ e.repeatMask ≤ 127 ∧
        (e.repeatMask ≠ 0 →
          e.repeatMask.testBit (weekdayIndexFromDate e.dateTime.date) = true ∧
          e.useSpecificDate = false)) ∧
      ∀ ev, ChangesByEdit home a ev ↔ a.EditsOwn ev) ∧
    (Machine.Along (step home) (ChangesByEdit home) a₀ evs ↔
      Machine.Along (step home) EditsOwn a₀ evs) := by
  refine ⟨?_, ?_⟩
  · intro a hrun
    have hinv := Application.inv_run (inv_start hstart) hrun
    refine ⟨fun e he => ?_, changesByEdit_iff hinv⟩
    have hok := hinv.window.entries.ok e he
    exact ⟨hok.valid, hok.mask.1, hok.mask.2,
      fun hmask => ⟨hok.weekday hmask, hok.specific hmask⟩⟩
  · exact Machine.along_congr (I := Application.Inv home) (P := fun _ => True)
      (fun _ _ _ _ hi hs => inv_step hi hs) (fun _ ev _ hi => changesByEdit_iff hi ev)
      (inv_start hstart) fun _ _ => trivial

/-- A weekly alarm for 00:01 that rings, is moved by a week and is edited, with a tick under
    the editor, and another start. -/
def weeklyEdit : List Application.Event :=
  stably [.openAddDialog 1000, .press .increaseMinute, .press (.weekday 4), .accept 2000,
    .tick 60000, .dismiss 62000 [], .select 0, .openEditDialog 63000, .press .increaseHour,
    .tick 64000, .accept 70000] ++ [.restart 80000 (KeySort.stable _)]

theorem calendar_run_weekly : ∃ s₀ a,
    Screen.launch (Platform.stable "/root".toList) {} 0 = some s₀ ∧
    Machine.run (step "/root".toList) { screen := s₀ } weeklyEdit = some a ∧
    a.screen.window.alarms.map (·.repeatMask) = [16] ∧
    (∀ e ∈ a.screen.window.alarms,
      e.dateTime.isValid = true ∧ 0 ≤ e.repeatMask ∧ e.repeatMask ≤ 127 ∧
      (e.repeatMask ≠ 0 →
        e.repeatMask.testBit (weekdayIndexFromDate e.dateTime.date) = true ∧
        e.useSpecificDate = false)) ∧
    Machine.Along (step "/root".toList) (ChangesByEdit "/root".toList) { screen := s₀ }
      weeklyEdit := by
  obtain ⟨s₀, hs₀⟩ : ∃ s₀, Screen.launch (Platform.stable "/root".toList) {} 0 = some s₀ :=
    Option.isSome_iff_exists.mp (by decide +kernel)
  have hruns : ∀ s₀ ∈ Screen.launch (Platform.stable "/root".toList) {} 0,
      (Machine.run (step "/root".toList) { screen := s₀ } weeklyEdit).map
        (·.screen.window.alarms.map (·.repeatMask)) = some [16] ∧
      Machine.Along (step "/root".toList) EditsOwn { screen := s₀ } weeklyEdit := by
    decide +kernel
  obtain ⟨hmasks, hown⟩ := hruns s₀ hs₀
  obtain ⟨a, hrun, hmasks⟩ := Option.map_eq_some_iff.mp hmasks
  have hstart : Application.Start "/root".toList { screen := s₀ } :=
    ⟨{}, 0, _, MainWindow.savedDisk_of_inv (MainWindow.inv_fresh 0), hs₀, rfl⟩
  exact ⟨s₀, a, hs₀, hrun, hmasks, ((calendar_run hstart weeklyEdit).1 a hrun).1,
    (calendar_run hstart weeklyEdit).2.mpr hown⟩

/-- **A weekly alarm that rings under the editor of another.** It is moved behind that one, to
    the row of the editor, and the accepted editor moves it from 00:01 to 02:00. -/
theorem calendar_fails : ∃ s₀ a a',
    Screen.launch (Platform.stable "/root".toList) {} 0 = some s₀ ∧
    Machine.run (step "/root".toList) { screen := s₀ }
      (stably [.openAddDialog 1000, .press .increaseMinute, .press (.weekday 4), .accept 2000,
        .openAddDialog 3000, .press .increaseHour, .accept 4000, .select 1, .openEditDialog 55000,
        .tick 60000, .dismiss 62000 [], .press .increaseHour]) = some a ∧
    a.opened = some 2 ∧
    a.step "/root".toList (.screen (.accept 70000) (KeySort.stable _)) = some a' ∧
    (∃ e ∈ a.screen.window.alarms, ∃ e' ∈ a'.screen.window.alarms,
      e.alarmId = 1 ∧ e'.alarmId = 1 ∧ e.repeatMask = 16 ∧ e.dateTime.time.msecs = 60000 ∧
      e'.dateTime.time.msecs = 7200000) ∧
    ¬ ChangesByEdit "/root".toList a (.screen (.accept 70000) (KeySort.stable _)) := by
  obtain ⟨s₀, hs₀⟩ : ∃ s₀, Screen.launch (Platform.stable "/root".toList) {} 0 = some s₀ :=
    Option.isSome_iff_exists.mp (by decide +kernel)
  have hmoved : ∀ s₀ ∈ Screen.launch (Platform.stable "/root".toList) {} 0,
      ((Machine.run (step "/root".toList) { screen := s₀ }
        (stably [.openAddDialog 1000, .press .increaseMinute, .press (.weekday 4), .accept 2000,
          .openAddDialog 3000, .press .increaseHour, .accept 4000, .select 1, .openEditDialog 55000,
          .tick 60000, .dismiss 62000 [], .press .increaseHour])).any fun a =>
        (a.step "/root".toList (.screen (.accept 70000) (KeySort.stable _))).any fun a' =>
          decide (a.opened = some 2 ∧ ∃ e ∈ a.screen.window.alarms,
            ∃ e' ∈ a'.screen.window.alarms, e.alarmId = 1 ∧ e'.alarmId = 1 ∧ e.repeatMask = 16 ∧
              e.dateTime.time.msecs = 60000 ∧ e'.dateTime.time.msecs = 7200000)) = true := by
    decide +kernel
  obtain ⟨a, hrun, hmoved⟩ := (Option.any_eq_true _ _).mp (hmoved s₀ hs₀)
  obtain ⟨a', hstep, hmoved⟩ := (Option.any_eq_true _ _).mp hmoved
  obtain ⟨hopened, e, he, e', he', hid, hid', hmask, htime, htime'⟩ := of_decide_eq_true hmoved
  refine ⟨s₀, a, a', hs₀, hrun, hopened, hstep, ⟨e, he, e', he', hid, hid', hmask, htime, htime'⟩,
    ?_⟩
  intro hchanges
  have hdiffer : e'.dateTime.time ≠ e.dateTime.time := by
    intro hsame
    rw [hsame, htime] at htime'
    cases htime'
  obtain ⟨-, -, -, -, -, -, hown⟩ := hchanges a' hstep e he e' he' (hid'.trans hid.symm)
    (by rw [hmask]; decide) hdiffer
  rw [hopened, hid] at hown
  cases hown

end AlarmClock
