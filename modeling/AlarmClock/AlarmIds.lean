import AlarmClock.Invariant

/-!
# Alarm ids are never reused

Three things hold an id: the counter in memory, the counter file, and the entries. Over
every run, restarts between the two writes of a creation included, the ids that
creations give out increase, so no two alarms share a log file.
-/

namespace AlarmClock

namespace MainWindow

variable {P : Platform} {m m' : MainWindow}

/-- The ids that an event gives out: that of the new entry. -/
def idsGivenBy (P : Platform) (m : MainWindow) : Event → List Int
  | .create c => [(entryOf P c m).alarmId]
  | .createCut c _ => [(entryOf P c m).alarmId]
  | _ => []

/-- The ids given out along a run, in order. -/
def idsGiven (P : Platform) : MainWindow → List Event → List Int
  | _, [] => []
  | m, ev :: evs => idsGivenBy P m ev ++ (step P m ev).elim [] fun m' => idsGiven P m' evs

theorem idsGiven_cons {ev : Event} (evs : List Event) (h : step P m ev = some m') :
    idsGiven P m (ev :: evs) = idsGivenBy P m ev ++ idsGiven P m' evs := by
  rw [idsGiven, h]
  rfl

theorem nextAlarmId_launch {disk : Disk} (h : SavedDisk P disk) {now : Nat}
    (hlaunch : launch P disk now = some m') :
    m'.nextAlarmId = readCounter disk.alarmCounter 1 := by
  obtain ⟨saved, hfile, hsaved, -⟩ := h
  obtain ⟨alarms, -, -, hspec⟩ := launch_spec hfile hsaved now
  obtain rfl := Option.some.inj (hspec.symm.trans hlaunch)
  rfl

/-- **One step.** It gives out the counter and counts up, or it leaves the counter alone. -/
theorem nextAlarmId_step (h : Inv P m) {ev : Event} (hstep : step P m ev = some m') :
    (idsGivenBy P m ev = [] ∧ m'.nextAlarmId = m.nextAlarmId) ∨
      (idsGivenBy P m ev = [m.nextAlarmId] ∧ m'.nextAlarmId = m.nextAlarmId + 1) := by
  cases step_cases hstep with
  | tick now hclock => exact .inl ⟨rfl, (updateCurrentTime_fields _ _).2.1⟩
  | dismiss now photo frame hframe hclock => exact .inl ⟨rfl, (afterExec_fields hframe _ _ _).2.1⟩
  | create c hframe hclock hroom => exact .inr ⟨rfl, rfl⟩
  | createCut c restartAt m' hframe hclock hrestart hroom hlaunch =>
    refine .inr ⟨rfl, ?_⟩
    rw [nextAlarmId_launch (savedDisk_between h hroom) hlaunch, readCounter_between h]
  | noEdit row opened now presses hframe hclock hrow => exact .inl ⟨rfl, rfl⟩
  | edit row opened now presses e hframe hclock hrow => exact .inl ⟨rfl, rfl⟩
  | delete row hframe => exact .inl ⟨rfl, (deleteSelectedAlarm_row row m).fields.2.1⟩
  | disable row hframe => exact .inl ⟨rfl, (disableRow_row row m).fields.2.1⟩
  | enable now row hframe hclock =>
    exact .inl ⟨rfl, (enableRow_row (QDateTime.currentDateTime now) row _).fields.2.1⟩
  | restart now m' hclock hlaunch =>
    refine .inl ⟨rfl, ?_⟩
    rw [nextAlarmId_launch (savedDisk_of_inv h) hlaunch, h.counter]

/-- **A run.** The ids it gives out increase, and they are the numbers that the counter
    has run through. -/
theorem idsGiven_run {evs : List Event} (h : Inv P m)
    (hrun : Machine.run (step P) m evs = some m') :
    (idsGiven P m evs).Pairwise (· < ·) ∧
      (∀ i, i ∈ idsGiven P m evs ↔ m.nextAlarmId ≤ i ∧ i < m'.nextAlarmId) ∧
      m'.nextAlarmId = m.nextAlarmId + (idsGiven P m evs).length := by
  induction evs generalizing m with
  | nil =>
    obtain rfl : m = m' := by simpa using hrun
    refine ⟨List.Pairwise.nil, ?_, by simp [idsGiven]⟩
    intro i
    simp only [idsGiven, List.not_mem_nil, false_iff]
    omega
  | cons ev evs ih =>
    obtain ⟨m₁, hstep, hrest⟩ := Machine.run_cons_eq_some.mp hrun
    obtain ⟨hsorted, hmem, hlength⟩ := ih (inv_step h hstep) hrest
    rw [idsGiven_cons evs hstep]
    rcases nextAlarmId_step h hstep with ⟨hgiven, hnext⟩ | ⟨hgiven, hnext⟩
    · rw [hgiven, List.nil_append, ← hnext]
      exact ⟨hsorted, hmem, hlength⟩
    · -- the id given first lies below all that the counter reaches later
      rw [hgiven, List.singleton_append, List.pairwise_cons]
      refine ⟨⟨fun i hi => ?_, hsorted⟩, fun i => ?_, ?_⟩
      · have := (hmem i).mp hi
        omega
      · rw [List.mem_cons, hmem i]
        omega
      · rw [List.length_cons]
        omega

end MainWindow

open MainWindow

/-- **Ids are never reused.** From a fresh installation, whatever happens: no id is given
    out twice, no two of the ids given out have the same log file, the ids in the list
    are distinct, were given out and lie below the counter, and as long as fewer than
    2^31 - 1 alarms have been made the next one can be made. -/
theorem alarmIds_run {P : Platform} {start : Nat} {m : MainWindow} {evs : List Event}
    (hrun : Machine.run (step P) { clock := start } evs = some m) :
    (idsGiven P { clock := start } evs).Nodup ∧
    ((idsGiven P { clock := start } evs).map (alarmLogPath P.home)).Nodup ∧
    (m.alarms.map (·.alarmId)).Nodup ∧
    (∀ e ∈ m.alarms, e.alarmId ∈ idsGiven P { clock := start } evs ∧
      e.alarmId < m.nextAlarmId ∧ e.logFile = alarmLogPath P.home e.alarmId) ∧
    ((idsGiven P { clock := start } evs).length + 1 < 2147483647 →
      ∀ c : Creation, m.frame = none → m.clock ≤ c.opened → c.opened ≤ c.now →
        (step P m (.create c)).isSome) := by
  have hfresh : Inv P { clock := start } := inv_fresh start
  have hinv := inv_run hfresh hrun
  obtain ⟨hsorted, hmem, hlength⟩ := idsGiven_run hfresh hrun
  have hnodup : (idsGiven P { clock := start } evs).Nodup := hsorted.imp Int.ne_of_lt
  have hstart : ({ clock := start } : MainWindow).nextAlarmId = 1 := rfl
  refine ⟨hnodup, hnodup.map (alarmLogPath_injective P.home), hinv.entries.nodup,
    fun e he => ⟨(hmem _).mpr (hinv.entries.ids e he), (hinv.entries.ids e he).2,
      (hinv.entries.ok e he).log⟩, ?_⟩
  intro hfew c hframe hopened hnow
  have hroom : m.nextAlarmId < 2147483647 := by omega
  simp [step, unblocked, clockAt, appendAlarm, succInt, hframe, hopened, hnow, hroom]

/-- Two creations, the first cut short by a restart, a deletion and a third creation. -/
theorem alarmIds_run_cut : ∃ m,
    Machine.run (step (Platform.stable "/root".toList)) { clock := 0 }
      [.createCut (.setDebugAlarmPlus5Sec 1000 0 .DismissSimple .GameNumberOrder) 2000,
        .create (.setDebugAlarmPlus5Sec 3000 1 .DismissCamera .GameUltrasonic), .delete 0,
        .create (.setDebugAlarmPlus5Sec 4000 2 .DismissGame .GameColorMemory)] = some m ∧
    m.nextAlarmId = 4 ∧ (m.alarms.map (·.alarmId)).Nodup := by
  have hrun : Machine.run (step (Platform.stable "/root".toList)) { clock := 0 }
      [.createCut (.setDebugAlarmPlus5Sec 1000 0 .DismissSimple .GameNumberOrder) 2000,
        .create (.setDebugAlarmPlus5Sec 3000 1 .DismissCamera .GameUltrasonic), .delete 0,
        .create (.setDebugAlarmPlus5Sec 4000 2 .DismissGame .GameColorMemory)] = some _ := rfl
  exact ⟨_, hrun, by decide +kernel, (alarmIds_run hrun).2.2.1⟩

end AlarmClock
