import AlarmClock.Invariant

/-!
# Alarms that are already due

Every operation that leaves an alarm enabled means it to ring later: the weekly search,
the today-or-tomorrow rule, the Enable button and the load all look for a date-time
after now. The editor takes a fixed date as it is, without looking at the clock.
-/

namespace AlarmClock

open QDateTime

/-- When an operation is carried out. -/
def Event.time : Event → Option Nat
  | .tick now => some now
  | .dismiss now _ => some now
  | .create c => some c.now
  | .createCut _ restartAt => some restartAt
  | .edit _ _ now _ => some now
  | .delete _ => none
  | .disable _ => none
  | .enable now _ => some now
  | .restart now => some now

namespace MainWindow

variable (P : Platform)

/-- The entries that an operation creates, enables or reschedules, as it leaves them. -/
def written (m : MainWindow) : Event → List AlarmEntry
  | .dismiss now _ =>
    m.frame.elim [] fun frame => frame.triggered.filterMap fun t =>
      (settleTriggered (currentDateTime now) frame.triggered m.alarms)[t.index]?
  | .create c => [entryOf P c m]
  | .createCut _ restartAt => (launch P (diskBetween m) restartAt).elim [] (·.alarms)
  | .edit row opened now presses =>
    (m.alarms[row]?).elim [] fun e => [e.edited (editResult P opened now presses e)]
  | .enable now row =>
    (m.alarms[row]?).elim [] fun e => if e.enabled then [] else [e.enable (currentDateTime now)]
  | .restart now => (launch P m.disk now).elim [] (·.alarms)
  | _ => []

/-- No written entry is left enabled and due. -/
def LeavesFuture (m : MainWindow) (ev : Event) : Prop :=
  ∀ x ∈ written P m ev, ∀ now, ev.time = some now → x.enabled = true →
    currentDateTime now < x.dateTime

/-- The editor of an add or of an edit is confirmed with a fixed date that has passed. -/
def PastDate (m : MainWindow) : Event → Prop
  | .create (.openAddDialog opened now presses) =>
    (presses.foldl AlarmDialog.press
      (AlarmDialog.forAdd P.home (currentDateTime opened))).PastDate (currentDateTime now)
  | .edit row opened now presses =>
    ∃ e, m.alarms[row]? = some e ∧
      (presses.foldl AlarmDialog.press
        (e.editor P.home (currentDateTime opened))).PastDate (currentDateTime now)
  | _ => False

variable {P}
variable {m m' : MainWindow}

/-! ### The rules that look at the clock -/

theorem future_advance {e : AlarmEntry} (h : e.InCalendar) {now : QDateTime}
    (hnow : now.isValid = true) (henabled : (e.advance now).enabled = true) :
    now < (e.advance now).dateTime := by
  rcases AlarmEntry.advance_cases now e with ⟨hdue, heq⟩ | ⟨-, -, heq⟩ | ⟨-, hmask, heq⟩
  · rw [heq] at henabled ⊢
    rw [← QDateTime.not_le]
    intro hle
    exact hdue (AlarmEntry.due_iff.mpr ⟨henabled, hle⟩)
  · rw [heq] at henabled
    cases henabled
  · rw [heq]
    exact (h.isFirst hmask hnow).after

/-- Nothing that a load lists is enabled and due. -/
theorem future_launch (h : Inv P m) {disk : Disk} (hfile : disk.alarmsSave = m.disk.alarmsSave)
    (hcounter : m.nextAlarmId ≤ readCounter disk.alarmCounter 1) {now : Nat} {x : AlarmEntry}
    (hx : x ∈ (launch P disk now).elim [] (·.alarms)) (henabled : x.enabled = true) :
    currentDateTime now < x.dateTime := by
  obtain ⟨saved, hholds, hsaved, -⟩ := h.saved
  obtain ⟨alarms, halarms, -, hspec⟩ := launch_spec (hfile ▸ hholds) (hsaved.mono hcounter) now
  rw [hspec] at hx
  have hx' : x ∈ saved.filterMap (AlarmEntry.reload (currentDateTime now)) :=
    halarms.mem_iff.mp hx
  rw [AlarmEntry.filterMap_reload] at hx'
  obtain ⟨e, he, rfl⟩ := List.mem_map.mp hx'
  exact future_advance (hsaved.ok e (List.mem_filter.mp he).1).truncSec.toInCalendar rfl henabled

/-! ### The editor, which does not -/

theorem future_accepted_iff (c : Creation) :
    currentDateTime c.now < (c.accepted P.home).dateTime ↔ ¬ PastDate P m (.create c) := by
  cases c with
  | openAddDialog opened now presses => exact AlarmDialog.onConfirm_after rfl
  | setDebugAlarmPlus5Sec now sound mode game =>
    apply iff_of_true _ id
    show (now : Int) < now + 5 * 1000
    omega

theorem future_editResult_iff (opened now : Nat) (presses : List AlarmDialog.Press)
    (e : AlarmEntry) :
    currentDateTime now < (editResult P opened now presses e).dateTime ↔
      ¬ (presses.foldl AlarmDialog.press (e.editor P.home (currentDateTime opened))).PastDate
        (currentDateTime now) :=
  AlarmDialog.onConfirm_after rfl

/-- **One operation.** It leaves an enabled entry due exactly when the editor is confirmed
    with a fixed date that has passed. -/
theorem leavesFuture_iff (h : Inv P m) (ev : Event) :
    LeavesFuture P m ev ↔ ¬ PastDate P m ev := by
  cases ev with
  | tick now =>
    apply iff_of_true _ id
    intro x hx
    simp [written] at hx
  | delete row =>
    apply iff_of_true _ id
    intro x hx
    simp [written] at hx
  | disable row =>
    apply iff_of_true _ id
    intro x hx
    simp [written] at hx
  | dismiss now photo =>
    apply iff_of_true _ id
    rintro x hx now' ⟨rfl⟩ henabled
    cases hframe : m.frame with
    | none => simp [written, hframe] at hx
    | some frame =>
      simp only [written, hframe, Option.elim_some] at hx
      -- a rung entry has been settled at its index, as often as the index was remembered
      obtain ⟨t, ht, hx⟩ := List.mem_filterMap.mp hx
      rw [settleTriggered_eq] at hx
      refine IndexedUpdate.forall_getElem?_foldl_modify
        (Q := fun y : AlarmEntry => y.enabled = true → currentDateTime now < y.dateTime)
        (R := fun y : AlarmEntry => y.Ok P.home)
        (fun y hy => hy.afterDismiss (inCommonEra_currentDateTime now))
        (fun y hy => AlarmEntry.after_afterDismiss hy.mask rfl) h.entries.ok
        (List.mem_map_of_mem ht) hx henabled
  | create c =>
    rw [← future_accepted_iff c]
    constructor
    · intro hfuture
      exact hfuture (entryOf P c m) (by simp [written]) c.now rfl rfl
    · rintro hafter x hx now ⟨rfl⟩ -
      obtain rfl : x = entryOf P c m := by simpa [written] using hx
      exact hafter
  | createCut c restartAt =>
    apply iff_of_true _ id
    rintro x hx now ⟨rfl⟩ henabled
    have hfile : (diskBetween m).alarmsSave = m.disk.alarmsSave := rfl
    have hcounter := readCounter_between h
    exact future_launch h hfile (by omega) hx henabled
  | edit row opened now presses =>
    cases hrow : m.alarms[row]? with
    | none =>
      apply iff_of_true
      · intro x hx
        simp [written, hrow] at hx
      · rintro ⟨e, he, -⟩
        simp [hrow] at he
    | some e =>
      constructor
      · rintro hfuture ⟨e', he', hpast⟩
        obtain rfl : e = e' := by simpa [hrow] using he'
        have hafter := hfuture (e.edited (editResult P opened now presses e))
          (by simp [written, hrow]) now rfl rfl
        exact (future_editResult_iff opened now presses e).mp hafter hpast
      · rintro hpast x hx now' ⟨rfl⟩ -
        obtain rfl : x = e.edited (editResult P opened now presses e) := by
          simpa [written, hrow] using hx
        exact (future_editResult_iff opened now presses e).mpr fun h' => hpast ⟨e, hrow, h'⟩
  | enable now row =>
    apply iff_of_true _ id
    rintro x hx now' ⟨rfl⟩ -
    cases hrow : m.alarms[row]? with
    | none => simp [written, hrow] at hx
    | some e =>
      by_cases henabled : e.enabled = true
      · simp [written, hrow, henabled] at hx
      · obtain rfl : x = e.enable (currentDateTime now) := by
          simpa [written, hrow, henabled] using hx
        exact AlarmEntry.after_enable (h.entries.ok e (List.mem_of_getElem? hrow)).mask rfl
  | restart now =>
    apply iff_of_true _ id
    rintro x hx now' ⟨rfl⟩ henabled
    exact future_launch h rfl (Int.le_of_eq h.counter.symm) hx henabled

/-! ### Nothing else is written -/

/-- An entry listed after a step was written by it, or was listed before, or is disabled. -/
theorem mem_step {ev : Event} (hstep : step P m ev = some m') {x : AlarmEntry}
    (hx : x ∈ m'.alarms) : x ∈ written P m ev ∨ x ∈ m.alarms ∨ x.enabled = false := by
  cases step_cases hstep with
  | tick now hclock =>
    rw [(updateCurrentTime_fields _ _).1, P.sort.mem_sort] at hx
    exact .inr (.inl hx)
  | dismiss now photo frame hframe hclock =>
    rw [(afterExec_fields hframe _ _ _).1] at hx
    obtain ⟨j, hj⟩ := List.mem_iff_getElem?.mp (P.sort.mem_sort.mp hx)
    by_cases hmem : j ∈ frame.triggered.map (·.index)
    · obtain ⟨t, ht, rfl⟩ := List.mem_map.mp hmem
      left
      simp only [written, hframe, Option.elim_some]
      exact List.mem_filterMap.mpr ⟨t, ht, hj⟩
    · -- an index that was not remembered is not touched
      rw [settleTriggered_eq, IndexedUpdate.getElem?_foldl_modify_of_not_mem hmem] at hj
      exact .inr (.inl (List.mem_of_getElem? hj))
  | create c hframe hclock hroom =>
    have hx' := P.sort.mem_sort.mp (P.sort.mem_sort.mp hx)
    rcases List.mem_append.mp hx' with hx' | hx'
    · exact .inr (.inl hx')
    · exact .inl hx'
  | createCut c restartAt m' hframe hclock hrestart hroom hlaunch =>
    left
    simp only [written, hlaunch, Option.elim_some]
    exact hx
  | noEdit row opened now presses hframe hclock hrow => exact .inr (.inl hx)
  | edit row opened now presses e hframe hclock hrow =>
    have hx' := P.sort.mem_sort.mp (P.sort.mem_sort.mp hx)
    rcases IndexedUpdate.mem_modify hx' with hx' | ⟨y, hy, rfl⟩
    · exact .inr (.inl hx')
    · obtain rfl : e = y := by simpa [hrow] using hy
      simp [written, hrow]
  | delete row hframe => exact .inr (.inl (mem_deleteSelectedAlarm hx))
  | disable row hframe =>
    rcases mem_disableRow hx with hx | ⟨e, -, rfl⟩
    · exact .inr (.inl hx)
    · exact .inr (.inr rfl)
  | enable now row hframe hclock =>
    rcases mem_enableRow hx with hx | ⟨e, hrow, hdisabled, rfl⟩
    · exact .inr (.inl hx)
    · have hrow' : m.alarms[row]? = some e := hrow
      simp [written, hrow', hdisabled]
  | restart now m' hclock hlaunch =>
    left
    simp only [written, hlaunch, Option.elim_some]
    exact hx

end MainWindow

open MainWindow

/-- **Where enabled alarms are left due.** In every reachable state an operation leaves an
    enabled alarm already due exactly when the editor is confirmed with a fixed date that
    has passed; so a run leaves none exactly when the editor is never so confirmed. -/
theorem future_run {P : Platform} {m₀ : MainWindow} (hstart : Start P m₀) (evs : List Event) :
    (∀ m, Machine.run (step P) m₀ evs = some m →
      ∀ ev, LeavesFuture P m ev ↔ ¬ PastDate P m ev) ∧
    (Machine.Along (step P) (LeavesFuture P) m₀ evs ↔
      Machine.Along (step P) (fun m ev => ¬ PastDate P m ev) m₀ evs) :=
  ⟨fun _ hrun ev => leavesFuture_iff (inv_run hstart.inv hrun) ev,
    Machine.along_congr (I := Inv P) (P := fun _ => True) (fun _ _ _ _ hi hs => inv_step hi hs)
      (fun _ ev _ hi => leavesFuture_iff hi ev) hstart.inv fun _ _ => trivial⟩

/-- Weekdays, a +5s alarm that rings and is set again, and a fixed date that is still to
    come. -/
theorem future_run_fresh :
    Machine.Along (step (Platform.stable "/root".toList))
      (LeavesFuture (Platform.stable "/root".toList)) { clock := 0 }
      [.create (.openAddDialog 1000 2000 [.weekday 1, .weekday 5]),
        .create (.setDebugAlarmPlus5Sec 3500 0 .DismissSimple .GameNumberOrder), .tick 9000,
        .dismiss 9500 [], .enable 9600 0,
        .create (.openAddDialog 9700 9800 [.calendar [.dayPlus] .setDate])] := by
  have hweekdays : ¬ PastDate (Platform.stable "/root".toList) { clock := 0 }
      (.create (.openAddDialog 1000 2000 [.weekday 1, .weekday 5])) := by
    rintro ⟨hmask, -⟩
    exact absurd hmask (by decide +kernel)
  have hdate : ∀ m, ¬ PastDate (Platform.stable "/root".toList) m
      (.create (.openAddDialog 9700 9800 [.calendar [.dayPlus] .setDate])) := by
    rintro m ⟨-, -, hpast⟩
    exact absurd hpast (by decide +kernel)
  apply (future_run (Start.fresh _ 0) _).2.mpr
  exact ⟨hweekdays, fun _ _ => ⟨id, fun _ _ => ⟨id, fun _ _ => ⟨id, fun _ _ => ⟨id, fun m _ =>
    ⟨hdate m, fun _ _ => trivial⟩⟩⟩⟩⟩⟩

/-- At 2026-07-24T14:30:40 the user adds an alarm, opens the calendar and presses Set Date
    at once, then OK: the alarm is for 14:30 of the same day, and the next tick rings. -/
theorem future_fails :
    ¬ LeavesFuture (Platform.stable "/root".toList) { clock := 0 }
      (.create (.openAddDialog 1784903440000 1784903440000 [.calendar [] .setDate])) ∧
    ∃ m, Machine.run (step (Platform.stable "/root".toList)) { clock := 0 }
      [.create (.openAddDialog 1784903440000 1784903440000 [.calendar [] .setDate]),
        .tick 1784903441000] = some m ∧ m.frame.isSome := by
  refine ⟨?_, _, rfl, by decide +kernel⟩
  intro h
  have hafter := h _ (by simp only [written, List.mem_singleton]; rfl) 1784903440000 rfl rfl
  exact absurd hafter (by decide +kernel)

end AlarmClock
