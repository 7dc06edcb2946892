import AlarmClock.Invariant

/-!
# A restart is transparent

Eight operations write the list, each saving it at its own moment, and a load changes
entries that it does not save. Whatever has happened, a load of the file as it stands
lists what the list in memory would have become: whole seconds, expired one-shots
disabled, passed weekly alarms at their next occurrence.
-/

namespace AlarmClock

open QDateTime

/-- What a restart at `now` should make of an entry `e` of the list in memory. -/
inductive Restarted (now : QDateTime) (e : AlarmEntry) : AlarmEntry → Prop where
  | waiting (h : ¬ (e.enabled = true ∧ e.dateTime.truncSec ≤ now)) :
      Restarted now e { e with dateTime := e.dateTime.truncSec }
  | expired (h : e.enabled = true ∧ e.dateTime.truncSec ≤ now) (hmask : e.repeatMask = 0) :
      Restarted now e { e with dateTime := e.dateTime.truncSec, enabled := false }
  | moved (h : e.enabled = true ∧ e.dateTime.truncSec ≤ now) (hmask : e.repeatMask ≠ 0)
      (dt : QDateTime) (hdt : IsFirstOccurrence now e.dateTime.truncSec.time e.repeatMask dt) :
      Restarted now e { e with dateTime := dt }

theorem restarted_normalise {home : QString} {e : AlarmEntry} (h : e.Ok home) {now : QDateTime}
    (hnow : now.isValid = true) : Restarted now e (e.normalise now) := by
  unfold AlarmEntry.normalise
  rcases AlarmEntry.advance_cases now e.truncSec with ⟨hdue, heq⟩ | ⟨hdue, hmask, heq⟩ |
    ⟨hdue, hmask, heq⟩
  · rw [heq]
    exact .waiting fun h' => hdue (AlarmEntry.due_iff.mpr h')
  · rw [heq]
    exact .expired (AlarmEntry.due_iff.mp hdue) hmask
  · rw [heq]
    have hfirst := h.truncSec.isFirst hmask hnow
    exact Restarted.moved (e := e) (AlarmEntry.due_iff.mp hdue) hmask _ hfirst

open MainWindow

/-- **A restart is transparent.** In every state of every run from a fresh installation,
    a start on the files as last written, at any time from now on, lists exactly the
    entries of the list in memory, each as `Restarted` says, in the order of their
    date-times; the counter is ahead of every id, and the files are left as they are. The
    years are those that `Qt::ISODate` can write. -/
theorem restart_run {P : Platform} {start : Nat} {m : MainWindow} {evs : List Event}
    (hrun : Machine.run (step P) { clock := start } evs = some m)
    (hyear : ∀ e ∈ m.alarms, e.dateTime.HasFourDigitYear) {now : Nat} (hlater : m.clock ≤ now) :
    ∃ m', launch P m.disk now = some m' ∧
      (∃ expected, List.Forall₂ (Restarted (currentDateTime now)) m.alarms expected ∧
        m'.alarms.Perm expected) ∧
      (m'.alarms.Pairwise fun a b => a.dateTime ≤ b.dateTime) ∧
      (∀ e ∈ m'.alarms, e.alarmId < m'.nextAlarmId) ∧ m'.disk = m.disk := by
  have hinv := inv_run (inv_fresh start) hrun
  obtain ⟨saved, hfile, hsaved, hmatches⟩ := hinv.saved
  obtain ⟨alarms, halarms, hsorted, hlaunch⟩ := launch_spec hfile (hinv.counter.symm ▸ hsaved) now
  refine ⟨_, hlaunch, ⟨m.alarms.map (AlarmEntry.normalise (currentDateTime now)), ?_, ?_⟩,
    hsorted, ?_, rfl⟩
  · rw [List.forall₂_map_right_iff, List.forall₂_same]
    intro e he
    exact restarted_normalise (hinv.entries.ok e he) rfl
  · exact halarms.trans (hmatches.filterMap_reload hlater hyear)
  · intro e he
    have hloaded := hsaved.filterMap_reload (inCommonEra_currentDateTime now)
    rw [hinv.counter]
    exact (hloaded.ids e (halarms.mem_iff.mp he)).2

/-- A weekly alarm and a +5s alarm, restarted after both have passed. -/
theorem restart_run_passed : ∃ m m',
    Machine.run (step (Platform.stable "/root".toList)) { clock := 0 }
      [.create (.openAddDialog 1000 2000 [.weekday 1, .weekday 5]),
        .create (.setDebugAlarmPlus5Sec 3500 0 .DismissSimple .GameNumberOrder)] = some m ∧
    launch (Platform.stable "/root".toList) m.disk 400000000 = some m' ∧ ∃ expected,
      List.Forall₂ (Restarted (currentDateTime 400000000)) m.alarms expected ∧
      m'.alarms.Perm expected := by
  have hrun : Machine.run (step (Platform.stable "/root".toList)) { clock := 0 }
      [.create (.openAddDialog 1000 2000 [.weekday 1, .weekday 5]),
        .create (.setDebugAlarmPlus5Sec 3500 0 .DismissSimple .GameNumberOrder)] = some _ := rfl
  obtain ⟨m', hlaunch, hexpected, -⟩ := restart_run hrun (by decide +kernel)
    (by decide +kernel : _ ≤ 400000000)
  exact ⟨_, m', hrun, hlaunch, hexpected⟩

end AlarmClock
