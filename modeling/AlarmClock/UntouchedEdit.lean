import AlarmClock.FutureAlarms
import Mathlib.Tactic.FinCases

/-!
# Saving an edit that changes nothing

The editor is opened on an alarm and OK is pressed. What comes back was converted to the
fields of the dialog and again from them, and the date-time was computed anew by the rule of
the alarm's kind. It is the date-time of the alarm as long as the alarm has not rung since
that rule gave it out: a weekly alarm stands on the first occurrence after that time, and an
alarm for today or tomorrow at most a day after it.
-/

namespace AlarmClock

open QDateTime

/-! ### The fields of the dialog -/

namespace AlarmDialog

theorem soundData_injective (home : QString) : Function.Injective (soundData home) := by
  intro i j h
  fin_cases i <;> fin_cases j <;> first | rfl | exact absurd (List.append_cancel_left h) (by decide)

theorem soundData_ne_nil (home : QString) (i : Fin 3) : (soundData home i).isEmpty = false := by
  fin_cases i <;> simp [soundData]

/-- An offered sound is found under its own index. -/
theorem findSound_soundData (home : QString) (i : Fin 3) :
    findSound home (soundData home i) = i := by
  unfold findSound
  have hfound : (List.finRange 3).find? (fun j => soundData home j == soundData home i) =
      (List.finRange 3).find? (fun j => j == i) := by
    congr 1
    funext j
    rw [Bool.eq_iff_iff]
    simp only [beq_iff_eq, (soundData_injective home).eq_iff]
  rw [hfound]
  fin_cases i <;> rfl

/-- The buttons of a mask give the mask back. -/
theorem repeatMaskFromButtons_setRepeatButtonsFromMask {mask : Int} (h0 : 0 ≤ mask)
    (h127 : mask ≤ 127) : repeatMaskFromButtons (setRepeatButtonsFromMask mask) = mask := by
  have hall : ∀ n : Fin 128,
      repeatMaskFromButtons (setRepeatButtonsFromMask (n.val : Int)) = n.val := by decide +kernel
  obtain ⟨n, rfl⟩ := Int.eq_ofNat_of_zero_le h0
  exact hall ⟨n, by omega⟩

/-- Twelve hours and a half of the day are the hour. -/
theorem hour24_setTimeFromDateTime (dt : QDateTime) :
    (TimeFields.setTimeFromDateTime dt).hour24 = dt.time.hour := by
  have h0 := dt.time.nonneg
  have h1 := dt.time.lt
  have hhour : 0 ≤ dt.time.hour ∧ dt.time.hour ≤ 23 := by
    unfold QTime.hour
    omega
  simp only [TimeFields.hour24, TimeFields.setTimeFromDateTime]
  split_ifs <;> omega

/-- A whole minute survives the fields of the dialog. -/
theorem selectedTime_setTimeFromDateTime {dt : QDateTime} (h : dt.msecs % 60000 = 0) :
    (TimeFields.setTimeFromDateTime dt).selectedTime = dt.time := by
  apply QTime.ext
  have hminute : dt.time.msecs % 60000 = 0 := by
    rw [QDateTime.time_msecs]
    omega
  simp only [TimeFields.selectedTime, hour24_setTimeFromDateTime]
  simp only [TimeFields.setTimeFromDateTime, QTime.hour, QTime.minute]
  omega

/-- The date-time after now, a day ahead at most, with its time of day. -/
theorem todayOrTomorrow_eq {now dt : QDateTime} (hnow : now.isValid = true)
    (hvalid : dt.isValid = true) (hafter : now < dt) (hday : dt.msecs ≤ now.msecs + 86400000) :
    todayOrTomorrow now dt.time = dt := by
  rw [lt_def] at hafter
  have htime : todayOrTomorrow now dt.time = QDateTime.ofDateTime dt.date dt.time := by
    unfold todayOrTomorrow
    dsimp only
    congr 1
    simp only [QDateTime.date_of_isValid hnow, QDateTime.date_of_isValid hvalid, QTime.le_def,
      QDateTime.time_msecs]
    split
    · simp only [QDate.addDays, Option.map_some, Option.some.injEq]
      omega
    · simp only [Option.some.injEq]
      omega
  rw [htime, QDateTime.ofDateTime_date_time hvalid]

theorem todayOrTomorrow_le {now : QDateTime} (hnow : now.isValid = true) (t : QTime) :
    (todayOrTomorrow now t).msecs ≤ now.msecs + 86400000 := by
  have h0 := t.nonneg
  have h1 := t.lt
  unfold todayOrTomorrow
  dsimp only
  simp only [QDateTime.date_of_isValid hnow, QTime.le_def, QDateTime.time_msecs]
  split
  · simp only [QDate.addDays, Option.map_some, ofDateTime_some_msecs]
    omega
  · simp only [ofDateTime_some_msecs]
    omega

end AlarmDialog

/-! ### When an alarm was last scheduled -/

/-- The times at which the entries, by their ids, were last given a date-time. -/
abbrev ScheduleTimes := Int → Nat

/-- The ids of the entries that an operation gives a date-time. A load gives one to the
    weekly alarms that it finds due. -/
def rescheduled (m : MainWindow) : Event → List Int
  | .dismiss _ _ => m.frame.elim [] fun frame => frame.triggered.filterMap fun t =>
      (m.alarms[t.index]?).map (·.alarmId)
  | .create _ => [m.nextAlarmId]
  | .edit row _ _ _ => (m.alarms[row]?).toList.map (·.alarmId)
  | .enable _ row => ((m.alarms[row]?).toList.filter fun e => !e.enabled).map (·.alarmId)
  | .createCut _ restartAt => dueWeekly restartAt
  | .restart now => dueWeekly now
  | _ => []
where
  dueWeekly (now : Nat) : List Int :=
    (m.alarms.filter fun e => e.due (currentDateTime now) && (e.repeatMask != 0)).map (·.alarmId)

/-- What a step notes. -/
def noteSchedule (m : MainWindow) (ev : Event) (times : ScheduleTimes) : ScheduleTimes :=
  fun id => if id ∈ rescheduled m ev then ev.time.getD (times id) else times id

/-- The date-time is the one that the rule of its kind gave out at `t`, as far as an edit
    can tell. -/
structure ScheduledAt (t : Nat) (e : AlarmEntry) : Prop where
  weekly : e.repeatMask ≠ 0 →
    IsFirstOccurrence (currentDateTime t) e.dateTime.time e.repeatMask e.dateTime
  automatic : e.repeatMask = 0 → e.useSpecificDate = false → e.dateTime.msecs ≤ t + 86400000

/-- **The editor gives back what it was opened with**, at any time from the scheduling on
    until the alarm rings. -/
theorem editResult_untouched {P : Platform} {e : AlarmEntry} {t : Nat} (hok : e.Ok P.home)
    (hscheduled : ScheduledAt t e) (hminute : e.dateTime.msecs % 60000 = 0)
    (hsound : ∃ i, e.soundFile = soundData P.home i) (opened : Nat) {now : Nat} (hle : t ≤ now)
    (hlt : currentDateTime now < e.dateTime) :
    MainWindow.editResult P opened now [] e =
      { dateTime := e.dateTime
        soundFile := e.soundFile
        dismissMode := e.dismissMode
        gameType := e.gameType
        repeatMask := e.repeatMask
        useSpecificDate := e.useSpecificDate } := by
  obtain ⟨i, hi⟩ := hsound
  have hmask : AlarmDialog.repeatMaskFromButtons
      (e.editor P.home (currentDateTime opened)).weekdayButtons = e.repeatMask :=
    AlarmDialog.repeatMaskFromButtons_setRepeatButtonsFromMask hok.mask.1 hok.mask.2
  have hdialog :
      (e.editor P.home (currentDateTime opened)).time.selectedTime = e.dateTime.time := by
    simp only [AlarmEntry.editor, AlarmDialog.new, hok.valid, if_true]
    exact AlarmDialog.selectedTime_setTimeFromDateTime hminute
  have hdate : (e.editor P.home (currentDateTime opened)).specificDate = e.dateTime.date := by
    simp only [AlarmEntry.editor, AlarmDialog.new, hok.valid, if_true]
  have hsoundIndex : soundData P.home (e.editor P.home (currentDateTime opened)).soundIndex =
      e.soundFile := by
    simp only [AlarmEntry.editor, AlarmDialog.new, hi, AlarmDialog.soundData_ne_nil,
      AlarmDialog.findSound_soundData, Bool.false_eq_true, if_false]
  have hspecific : (if e.repeatMask ≠ 0 then false else e.useSpecificDate) = e.useSpecificDate := by
    split
    · next hne => exact (hok.specific hne).symm
    · rfl
  have hdateTime : (if e.repeatMask ≠ 0 then
        computeNextForRepeat (currentDateTime now) e.dateTime.time e.repeatMask
      else if e.useSpecificDate = true then QDateTime.ofDateTime e.dateTime.date e.dateTime.time
      else AlarmDialog.todayOrTomorrow (currentDateTime now) e.dateTime.time) = e.dateTime := by
    split
    · next hne =>
      have hfirst := (hscheduled.weekly hne).later (le_def.mpr (by simpa using hle)) hlt
      exact (hok.isFirst hne (currentDateTime_isValid now)).unique hfirst
    · next hzero =>
      split
      · exact QDateTime.ofDateTime_date_time hok.valid
      · next hauto =>
        have hday := hscheduled.automatic (not_not.mp hzero) (by simpa using hauto)
        apply AlarmDialog.todayOrTomorrow_eq (currentDateTime_isValid now) hok.valid hlt
        rw [currentDateTime_msecs]
        omega
  have huse : (e.editor P.home (currentDateTime opened)).useSpecificDate = e.useSpecificDate := rfl
  simp only [MainWindow.editResult, List.foldl_nil, AlarmDialog.onConfirm, hmask, hdialog, hdate,
    hsoundIndex, huse, hspecific, hdateTime]
  rfl

/-! ### Every rule schedules -/

namespace ScheduledAt

variable {home : QString} {e : AlarmEntry}

/-- An accepted dialog schedules the alarm it is written to. -/
theorem edited_onConfirm (d : AlarmDialog) (now : Nat) (e : AlarmEntry) :
    ScheduledAt now (e.edited (d.onConfirm home (currentDateTime now))) := by
  constructor
  · intro hmask
    have hfirst : IsFirstOccurrence (currentDateTime now) d.time.selectedTime
        (d.onConfirm home (currentDateTime now)).repeatMask
        (d.onConfirm home (currentDateTime now)).dateTime :=
      AlarmDialog.onConfirm_isFirst (currentDateTime_isValid now) hmask
    rw [← hfirst.time_eq] at hfirst
    exact hfirst
  · intro hmask hauto
    have hnone : ¬ (d.onConfirm home (currentDateTime now)).repeatMask ≠ 0 := not_not.mpr hmask
    have hnot : ¬ (d.onConfirm home (currentDateTime now)).useSpecificDate = true := by
      rw [Bool.not_eq_true]
      exact hauto
    show (d.onConfirm home (currentDateTime now)).dateTime.msecs ≤ now + 86400000
    rw [AlarmDialog.onConfirm_dateTime, if_neg hnone, if_neg hnot]
    exact AlarmDialog.todayOrTomorrow_le (currentDateTime_isValid now) _

theorem entryOf (P : Platform) (c : Creation) (m : MainWindow) :
    ScheduledAt c.now (MainWindow.entryOf P c m) := by
  cases c with
  | openAddDialog opened now presses =>
    exact edited_onConfirm _ now (MainWindow.entryOf P (.openAddDialog opened now presses) m)
  | setDebugAlarmPlus5Sec now sound mode game =>
    refine ⟨fun hmask => absurd rfl hmask, fun _ _ => ?_⟩
    show (now : Int) + 5 * 1000 ≤ now + 86400000
    omega

/-- The weekly search schedules, from whatever time of day it starts. -/
theorem reschedule (h : e.InCalendar) (hmask : e.repeatMask ≠ 0) (now : Nat) {e' : AlarmEntry}
    (hmask' : e'.repeatMask = e.repeatMask)
    (hdateTime : e'.dateTime =
      computeNextRepeatDateTime (currentDateTime now) e.dateTime.time e.repeatMask) :
    ScheduledAt now e' := by
  have hfirst := h.isFirst hmask (currentDateTime_isValid now)
  refine ⟨fun _ => ?_, fun hzero => absurd (hmask'.symm.trans hzero) hmask⟩
  rw [hmask', hdateTime, hfirst.time_eq]
  exact hfirst

theorem enable (h : e.InCalendar) (now : Nat) :
    ScheduledAt now (e.enable (currentDateTime now)) := by
  unfold AlarmEntry.enable
  split
  · next hmask => exact reschedule h hmask now rfl rfl
  · next hmask =>
    exact ⟨fun hne => absurd hne hmask,
      fun _ _ => AlarmDialog.todayOrTomorrow_le (currentDateTime_isValid now) _⟩

theorem afterDismiss (h : e.InCalendar) {now : Nat}
    (henabled : (e.afterDismiss (currentDateTime now)).enabled = true) :
    ScheduledAt now (e.afterDismiss (currentDateTime now)) := by
  unfold AlarmEntry.afterDismiss at henabled ⊢
  split at henabled
  · next hmask =>
    rw [if_pos hmask]
    exact reschedule h hmask now rfl rfl
  · cases henabled

/-- A save and a load at most drop a fraction of a second. -/
theorem truncSec {t : Nat} (hok : e.Ok home) (h : ScheduledAt t e) : ScheduledAt t e.truncSec := by
  by_cases hmask : e.repeatMask ≠ 0
  · rw [hok.truncSec_eq hmask]
    exact h
  · refine ⟨fun hne => absurd hne hmask, fun hzero hauto => ?_⟩
    have hday := h.automatic hzero hauto
    show e.dateTime.truncSec.msecs ≤ t + 86400000
    rw [truncSec_msecs]
    omega

end ScheduledAt

/-! ### Along a run -/

namespace MainWindow

variable {P : Platform} {m m' : MainWindow}

/-- An id stands at one index only. -/
theorem index_eq_of_alarmId (h : Inv P m) {i j : Nat} {x y : AlarmEntry}
    (hx : m.alarms[i]? = some x) (hy : m.alarms[j]? = some y) (hid : x.alarmId = y.alarmId) :
    i = j := by
  have hlt := (List.getElem?_eq_some_iff.mp hx).1
  rw [← List.getElem?_inj (by simpa using hlt) h.entries.nodup, List.getElem?_map, hx,
    List.getElem?_map, hy]
  simp [hid]

/-- What an entry is scheduled by after a step: the step itself, or what it was scheduled by
    before. -/
def Origin (m : MainWindow) (ev : Event) (x : AlarmEntry) : Prop :=
  (x.alarmId ∈ rescheduled m ev ∧ ∃ t, ev.time = some t ∧ ScheduledAt t x) ∨
    x.alarmId ∉ rescheduled m ev ∧ ∃ e ∈ m.alarms, e.enabled = true ∧ e.alarmId = x.alarmId ∧
      ∀ t, ScheduledAt t e → ScheduledAt t x

theorem Origin.kept {ev : Event} {x : AlarmEntry} (hx : x ∈ m.alarms) (henabled : x.enabled = true)
    (hnot : x.alarmId ∉ rescheduled m ev) : Origin m ev x :=
  .inr ⟨hnot, x, hx, henabled, rfl, fun _ => id⟩

/-- The weekly alarms that a load finds due are rescheduled by it, and no others. -/
theorem mem_dueWeekly (h : Inv P m) {e : AlarmEntry} (he : e ∈ m.alarms) {now : Nat} :
    e.alarmId ∈ rescheduled.dueWeekly m now ↔
      e.due (currentDateTime now) = true ∧ e.repeatMask ≠ 0 := by
  unfold rescheduled.dueWeekly
  simp only [List.mem_map, List.mem_filter, Bool.and_eq_true, bne_iff_ne]
  constructor
  · rintro ⟨y, ⟨hy, hdue, hmask⟩, hid⟩
    obtain rfl := h.entries.eq_of_alarmId hy he hid
    exact ⟨hdue, hmask⟩
  · rintro ⟨hdue, hmask⟩
    exact ⟨e, ⟨he, hdue, hmask⟩, rfl⟩

theorem origin_normalise (h : Inv P m) {e : AlarmEntry} (he : e ∈ m.alarms) {now : Nat} {ev : Event}
    (hev : rescheduled m ev = rescheduled.dueWeekly m now) (htime : ev.time = some now)
    (henabled : (e.normalise (currentDateTime now)).enabled = true) :
    Origin m ev (e.normalise (currentDateTime now)) := by
  have hok := h.entries.ok e he
  unfold Origin
  rw [hev, AlarmEntry.normalise_alarmId, mem_dueWeekly h he]
  unfold AlarmEntry.normalise at henabled ⊢
  by_cases hmask : e.repeatMask ≠ 0
  · rw [hok.truncSec_eq hmask] at henabled ⊢
    rcases AlarmEntry.advance_cases (currentDateTime now) e with
      ⟨hdue, heq⟩ | ⟨-, hzero, -⟩ | ⟨hdue, -, heq⟩
    · rw [heq] at henabled ⊢
      exact .inr ⟨fun hd => hdue hd.1, e, he, henabled, rfl, fun _ => id⟩
    · exact absurd hzero hmask
    · refine .inl ⟨⟨hdue, hmask⟩, now, htime, ?_⟩
      rw [heq]
      exact ScheduledAt.reschedule hok.toInCalendar hmask now rfl rfl
  · rcases AlarmEntry.advance_cases (currentDateTime now) e.truncSec with
      ⟨-, heq⟩ | ⟨-, -, heq⟩ | ⟨-, hne, -⟩
    · rw [heq] at henabled ⊢
      exact .inr ⟨fun hd => hmask hd.2, e, he, henabled, rfl, fun t ht => ht.truncSec hok⟩
    · rw [heq] at henabled
      cases henabled
    · exact absurd hne hmask

theorem origin_settleTriggered (h : Inv P m) {frame : DismissFrame} (hframe : m.frame = some frame)
    (now : Nat) (photo : QString) {x : AlarmEntry}
    (hx : x ∈ settleTriggered (currentDateTime now) frame.triggered m.alarms)
    (henabled : x.enabled = true) : Origin m (.dismiss now photo) x := by
  obtain ⟨j, hj⟩ := List.mem_iff_getElem?.mp hx
  rw [settleTriggered_eq] at hj
  have hmem : ∀ id, id ∈ rescheduled m (.dismiss now photo) ↔
      ∃ t ∈ frame.triggered, ∃ y, m.alarms[t.index]? = some y ∧ y.alarmId = id := by
    intro id
    simp only [rescheduled, hframe, Option.elim_some, List.mem_filterMap, Option.map_eq_some_iff]
  by_cases htouched : j ∈ frame.triggered.map (·.index)
  · obtain ⟨t, ht, rfl⟩ := List.mem_map.mp htouched
    refine .inl ⟨(hmem _).mpr ⟨t, ht, ?_⟩, now, rfl, ?_⟩
    · -- the ids stay where they are
      have hids := IndexedUpdate.map_foldl_modify
        (AlarmEntry.afterDismiss_alarmId (currentDateTime now)) m.alarms
        (frame.triggered.map (·.index))
      have hid := congrArg (·[t.index]?) hids
      simp only [List.getElem?_map, hj, Option.map_some] at hid
      exact Option.map_eq_some_iff.mp hid.symm
    · exact IndexedUpdate.forall_getElem?_foldl_modify
        (Q := fun y : AlarmEntry => y.enabled = true → ScheduledAt now y)
        (R := fun y : AlarmEntry => y.Ok P.home)
        (fun y hy => hy.afterDismiss (inCommonEra_currentDateTime now))
        (fun y hy => ScheduledAt.afterDismiss hy.toInCalendar) h.entries.ok htouched hj henabled
  · rw [IndexedUpdate.getElem?_foldl_modify_of_not_mem htouched] at hj
    apply Origin.kept (List.mem_of_getElem? hj) henabled
    rw [hmem]
    rintro ⟨t, ht, y, hy, hid⟩
    exact htouched (List.mem_map.mpr ⟨t, ht, index_eq_of_alarmId h hy hj hid⟩)

/-- An update of one row. -/
theorem origin_modify (h : Inv P m) {ev : Event} {row : Nat} {f : AlarmEntry → AlarmEntry}
    {e : AlarmEntry} (hrow : m.alarms[row]? = some e)
    (hids : ∀ id, id ∈ rescheduled m ev → id = e.alarmId)
    (horigin : (f e).enabled = true → Origin m ev (f e)) {x : AlarmEntry}
    (hx : x ∈ m.alarms.modify row f) (henabled : x.enabled = true) : Origin m ev x := by
  rcases IndexedUpdate.mem_modify_getElem? hx with ⟨j, hne, hj⟩ | ⟨y, hy, rfl⟩
  · apply Origin.kept (List.mem_of_getElem? hj) henabled
    intro hid
    exact hne (index_eq_of_alarmId h hj hrow (hids _ hid))
  · obtain rfl : e = y := by simpa [hrow] using hy
    exact horigin henabled

/-- **One step.** Every enabled entry after it was scheduled by it, or as before. -/
theorem origin_step (h : Inv P m) {ev : Event} (hstep : step P m ev = some m') {x : AlarmEntry}
    (hx : x ∈ m'.alarms) (henabled : x.enabled = true) : Origin m ev x := by
  cases step_cases hstep with
  | tick now hclock =>
    rw [(updateCurrentTime_fields _ _).1, P.sort.mem_sort] at hx
    exact Origin.kept hx henabled (by simp [rescheduled])
  | dismiss now photo frame hframe hclock =>
    rw [(afterExec_fields hframe _ _ _).1] at hx
    exact origin_settleTriggered h hframe now photo (P.sort.mem_sort.mp hx) henabled
  | create c hframe hclock hroom =>
    have hx' := P.sort.mem_sort.mp (P.sort.mem_sort.mp hx)
    rcases List.mem_append.mp hx' with hx' | hx'
    · apply Origin.kept hx' henabled
      have := (h.entries.ids x hx').2
      simp only [rescheduled, List.mem_singleton]
      omega
    · obtain rfl := List.mem_singleton.mp hx'
      refine .inl ⟨?_, c.now, rfl, ScheduledAt.entryOf P c m⟩
      exact List.mem_singleton.mpr rfl
  | createCut c restartAt m' hframe hclock hrestart hroom hlaunch =>
    have hfile : (diskBetween m).alarmsSave = m.disk.alarmsSave := rfl
    have hcounter := readCounter_between h
    obtain ⟨e, he, rfl⟩ := mem_launch h hfile (by omega) (by omega) hlaunch hx
    exact origin_normalise h he rfl rfl henabled
  | noEdit row opened now presses hframe hclock hrow =>
    exact Origin.kept hx henabled (by simp [rescheduled, hrow])
  | edit row opened now presses e hframe hclock hrow =>
    have hids : ∀ id, id ∈ rescheduled m (.edit row opened now presses) ↔ id = e.alarmId := by
      intro id
      simp [rescheduled, hrow]
    apply origin_modify h hrow (fun id hid => (hids id).mp hid) _
      (P.sort.mem_sort.mp (P.sort.mem_sort.mp hx)) henabled
    intro _
    exact .inl ⟨(hids _).mpr rfl, now, rfl, ScheduledAt.edited_onConfirm _ now e⟩
  | delete row hframe =>
    exact Origin.kept (mem_deleteSelectedAlarm hx) henabled (by simp [rescheduled])
  | disable row hframe =>
    rcases mem_disableRow hx with hx | ⟨e, -, rfl⟩
    · exact Origin.kept hx henabled (by simp [rescheduled])
    · cases henabled
  | enable now row hframe hclock =>
    have hids : ∀ id, id ∈ rescheduled m (.enable now row) ↔
        ∃ e, m.alarms[row]? = some e ∧ e.enabled = false ∧ e.alarmId = id := by
      intro id
      simp [rescheduled, and_assoc]
    rcases mem_enableRow hx with hx | ⟨e, hrow, hdisabled, rfl⟩
    · apply Origin.kept (m := m) hx henabled
      rw [hids]
      rintro ⟨e, hrow, hdisabled, hid⟩
      obtain rfl := h.entries.eq_of_alarmId (List.mem_of_getElem? hrow) hx hid
      exact Bool.false_ne_true (hdisabled.symm.trans henabled)
    · refine .inl ⟨(hids _).mpr ⟨e, hrow, hdisabled, ?_⟩, now, rfl, ?_⟩
      · exact (AlarmEntry.enable_alarmId _ e).symm
      · exact ScheduledAt.enable (h.entries.ok e (List.mem_of_getElem? hrow)).toInCalendar now
  | restart now m' hclock hlaunch =>
    obtain ⟨e, he, rfl⟩ := mem_launch h rfl (Int.le_of_eq h.counter.symm) hclock hlaunch hx
    exact origin_normalise h he rfl rfl henabled

/-- Every enabled entry stands where its last scheduling put it. -/
def InSchedule (m : MainWindow) (times : ScheduleTimes) : Prop :=
  ∀ e ∈ m.alarms, e.enabled = true → ScheduledAt (times e.alarmId) e

theorem inSchedule_step {times : ScheduleTimes} {ev : Event} (h : Inv P m)
    (hs : InSchedule m times) (hstep : step P m ev = some m') :
    InSchedule m' (noteSchedule m ev times) := by
  intro x hx henabled
  rw [noteSchedule]
  rcases origin_step h hstep hx henabled with
    ⟨hmem, time, htime, hat⟩ | ⟨hnot, e, he, hon, hid, hkeep⟩
  · rw [if_pos hmem, htime]
    exact hat
  · rw [if_neg hnot, ← hid]
    exact hkeep _ (hs e he hon)

variable (P) in
/-- When the entries were last scheduled in a run from a fresh installation. -/
def lastScheduled (clock : Nat) (evs : List Event) : ScheduleTimes :=
  Machine.noted (step P) noteSchedule { clock := clock } (fun _ => 0) evs

theorem inSchedule_run {clock : Nat} {evs : List Event}
    (hrun : Machine.run (step P) { clock := clock } evs = some m) :
    Inv P m ∧ InSchedule m (lastScheduled P clock evs) := by
  refine Machine.run_noted (I := fun m times => Inv P m ∧ InSchedule m times) ?_
    ⟨inv_fresh clock, fun e he => by cases he⟩ hrun
  rintro m times ev m' ⟨hinv, hs⟩ hstep
  exact ⟨inv_step hinv hstep, inSchedule_step hinv hs hstep⟩

end MainWindow

open MainWindow

/-- **Saving an untouched edit changes nothing**, in every reachable state, for every enabled
    alarm on a whole minute, at any time from its last scheduling until it rings. -/
theorem untouched_edit (P : Platform) (clock : Nat) (evs : List Event) (m : MainWindow)
    (hrun : Machine.run (step P) { clock := clock } evs = some m) (e : AlarmEntry)
    (he : e ∈ m.alarms) (henabled : e.enabled = true) (hminute : e.dateTime.msecs % 60000 = 0)
    (hsound : ∃ i, e.soundFile = soundData P.home i) (opened now : Nat)
    (hle : lastScheduled P clock evs e.alarmId ≤ now) (hlt : currentDateTime now < e.dateTime) :
    editResult P opened now [] e =
        { dateTime := e.dateTime
          soundFile := e.soundFile
          dismissMode := e.dismissMode
          gameType := e.gameType
          repeatMask := e.repeatMask
          useSpecificDate := e.useSpecificDate } ∧
      e.edited (editResult P opened now [] e) = e := by
  obtain ⟨hinv, hschedule⟩ := inSchedule_run hrun
  have hresult := editResult_untouched (hinv.entries.ok e he) (hschedule e he henabled) hminute
    hsound opened hle hlt
  refine ⟨hresult, ?_⟩
  rw [hresult]
  obtain ⟨alarmId, dateTime, enabled, soundFile, dismissMode, gameType, repeatMask, specific,
    logFile⟩ := e
  obtain rfl : enabled = true := henabled
  rfl

/-- A weekly alarm, an edit of it two hours later. -/
theorem untouched_edit_weekly :
    let P := Platform.stable "/root".toList
    ∃ m e, Machine.run (step P) { clock := 0 }
        [.create (.openAddDialog 1000 2000 [.weekday 1, .weekday 5])] = some m ∧ e ∈ m.alarms ∧
      e.repeatMask = 34 ∧ lastScheduled P 0
        [.create (.openAddDialog 1000 2000 [.weekday 1, .weekday 5])] e.alarmId = 2000 ∧
      e.edited (editResult P 7200000 7260000 [] e) = e := by
  have hrun : Machine.run (step (Platform.stable "/root".toList)) { clock := 0 }
      [.create (.openAddDialog 1000 2000 [.weekday 1, .weekday 5])] = some _ := rfl
  refine ⟨_, entryOf (Platform.stable "/root".toList)
      (.openAddDialog 1000 2000 [.weekday 1, .weekday 5]) { clock := 0 }, hrun, ?_, ?_, ?_, ?_⟩
  · exact List.mem_singleton.mpr rfl
  · decide +kernel
  · decide +kernel
  · exact (untouched_edit (Platform.stable "/root".toList) 0 _ _ hrun _
      (List.mem_singleton.mpr rfl) rfl (by decide +kernel) ⟨0, by decide +kernel⟩ 7200000 7260000
      (by decide +kernel) (by decide +kernel)).2

end AlarmClock
