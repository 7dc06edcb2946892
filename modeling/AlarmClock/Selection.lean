import AlarmClock.AlarmList
import AlarmClock.EditSession

/-!
# The selected alarm

The widget remembers its selection as a row number, and every refresh restores the number.
Beside the screen stands the id of the alarm that the user has chosen, by selecting a row
or by adding an alarm. The selection is still on that alarm as long as no step moves
another alarm across it, and no added alarm looks like one that is there already.
-/

namespace AlarmClock

open QDateTime

namespace Screen

/-- The screen, and the id of the alarm that the user has chosen. -/
structure Session where
  screen : Screen
  chosen : Option Int := none

/-- The user chooses an alarm by selecting its row and by adding it; a deleted alarm is no
    longer chosen. -/
def choose (s : Screen) (chosen : Option Int) : Event → Option Int
  | .select row => (s.window.alarms[row]?).map (·.alarmId)
  | .accept _ =>
    match s.dialog with
    | some (.add _) => some s.window.nextAlarmId
    | _ => chosen
  | .deleteSelectedAlarm _ => none
  | _ => chosen

def Session.step (P : Platform) (w : Session) (ev : Event) : Option Session :=
  (Screen.step P w.screen ev).map fun s => ⟨s, w.screen.choose w.chosen ev⟩

/-- The selection designates the chosen alarm, and the editor was opened on the selection. -/
structure Follows (w : Session) : Prop where
  selected : ∀ id, w.chosen = some id → ∃ row e, w.screen.selectedRow = some row ∧
    w.screen.window.alarms[row]? = some e ∧ e.alarmId = id
  editing : ∀ row dlg, w.screen.dialog = some (.edit row dlg) → w.screen.selectedRow = some row

/-- A step leaves the selection on its alarm: an accepted add finds no alarm that looks like
    the new one, and any other step that writes the list moves no alarm across the selected
    one. -/
structure KeepsSelection (P : Platform) (w : Session) (ev : Event) : Prop where
  added : ∀ now dlg, ev = .accept now → w.screen.dialog = some (.add dlg) →
    ∀ e ∈ w.screen.window.alarms, sameFields (AlarmEntry.created P.home
      w.screen.window.nextAlarmId (dlg.onConfirm P.home (currentDateTime now))) e = false
  rests : ∀ id row l, w.screen.choose w.chosen ev = some id → w.chosen = some id →
    w.screen.selectedRow = some row → w.screen.written P ev = some l → P.sort.Rests l row

/-! ### One step -/

variable {P : Platform} {s s' : Screen}

/-- What does not write the list keeps the selection. -/
theorem keepsSelection_of_quiet {w : Session} {ev : Event} (hev : ∀ now, ev ≠ .accept now)
    (hl : w.screen.written P ev = none) : KeepsSelection P w ev where
  added now _ haccept := absurd haccept (hev now)
  rests _ _ _ _ _ _ hsome := by cases hl.symm.trans hsome

theorem keepsSelection_of_rests {w : Session} {ev : Event} {row : Nat} {l : List AlarmEntry}
    (hev : ∀ now, ev ≠ .accept now) (hrow : w.screen.selectedRow = some row)
    (hl : w.screen.written P ev = some l) (hrests : P.sort.Rests l row) :
    KeepsSelection P w ev where
  added now _ haccept := absurd haccept (hev now)
  rests _ _ _ _ _ hrow' hl' := by
    cases hrow.symm.trans hrow'
    cases hl.symm.trans hl'
    exact hrests

theorem selectedRow_eq_some {row : Nat} :
    s.selectedRow = some row ↔ s.currentRow = row ∧ row < s.window.alarms.length := by
  unfold selectedRow
  split
  · next h =>
    rw [Option.some.injEq]
    constructor
    · rintro rfl
      omega
    · rintro ⟨hrow, -⟩
      omega
  · next h =>
    simp only [reduceCtorEq, false_iff]
    rintro ⟨hrow, hlt⟩
    omega

/-- A refresh restores the row number as long as the list has such a row. -/
theorem Redrawn.selectedRow {l : List AlarmEntry} (h : Redrawn P s l s') {row : Nat}
    (hrow : s.selectedRow = some row) (hlt : row < l.length) : s'.selectedRow = some row := by
  obtain ⟨hcurrent, -⟩ := selectedRow_eq_some.mp hrow
  have hlength : s'.window.alarms.length = l.length := h.sorts.perm.length_eq
  rw [selectedRow_eq_some, h.currentRow, hcurrent, hlength, if_pos (by omega)]
  exact ⟨rfl, hlt⟩

/-- The entry at the selected row stays there. -/
theorem Redrawn.getElem? {l : List AlarmEntry} (h : Redrawn P s l s') {row : Nat} {e : AlarmEntry}
    (he : l[row]? = some e) (hrests : P.sort.Rests l row) : s'.window.alarms[row]? = some e := by
  have honce := hrests.getElem?_sort he
  rcases h.sorts with hsorts | hsorts
  · rw [hsorts]
    exact honce
  · rw [hsorts]
    exact (hrests.again he).getElem?_sort honce

theorem written_clickEnableBtn {now i : Nat} {l : List AlarmEntry}
    (hl : s.written P (.clickEnableBtn now i) = some l) :
    ∃ (row : Nat) (button : RowButton),
      l = s.window.alarms.modify row (button.write (currentDateTime now)) := by
  simp only [written, bind, Option.bind_eq_some_iff] at hl
  obtain ⟨row, -, entry, -, hl⟩ := hl
  split at hl
  · cases hl
  · exact ⟨row.index, row.button, (Option.some.inj hl).symm⟩

/-- The ids after the writes of a step: as before, or with that of a new alarm at the end, or
    without that of a deleted one. -/
theorem written_cases {ev : Event} {l : List AlarmEntry} (hl : s.written P ev = some l) :
    l.map (·.alarmId) = s.window.alarms.map (·.alarmId) ∨
      (∃ r, l = s.window.alarms ++ [AlarmEntry.created P.home s.window.nextAlarmId r]) ∨
      ∃ now row, ev = .deleteSelectedAlarm now ∧ l = s.window.alarms.eraseIdx row := by
  cases ev with
  | tick now =>
    obtain rfl := Option.some.inj hl
    exact .inl rfl
  | dismiss now photo =>
    obtain ⟨frame, -, rfl⟩ := Option.map_eq_some_iff.mp hl
    left
    rw [settleTriggered_eq]
    exact IndexedUpdate.map_foldl_modify (AlarmEntry.afterDismiss_alarmId _) _ _
  | clickEnableBtn now i =>
    obtain ⟨row, button, rfl⟩ := written_clickEnableBtn hl
    exact .inl (IndexedUpdate.map_modify (RowButton.write_alarmId _ _) _ _)
  | deleteSelectedAlarm now =>
    obtain ⟨row, -, rfl⟩ := Option.map_eq_some_iff.mp hl
    exact .inr (.inr ⟨now, row, rfl, rfl⟩)
  | accept now =>
    simp only [written] at hl
    split at hl
    · obtain rfl := Option.some.inj hl
      exact .inr (.inl ⟨_, rfl⟩)
    · obtain rfl := Option.some.inj hl
      exact .inl (IndexedUpdate.map_modify (AlarmEntry.edited_alarmId _) _ _)
    · cases hl
  | addPlus5Sec now sound mode game =>
    obtain rfl := Option.some.inj hl
    exact .inr (.inl ⟨_, rfl⟩)
  | select | clickStatBtn | openAddDialog | openEditDialog | setDebugAlarmPlus5Sec | openStatDialog
  | openFriendStatDialog | press | reject => cases hl

/-- The writes of a step, other than a deletion, leave every entry its row and its id. -/
theorem written_alarmId {ev : Event} (hev : ∀ now, ev ≠ .deleteSelectedAlarm now)
    {l : List AlarmEntry} (hl : s.written P ev = some l) {row : Nat} {e : AlarmEntry}
    (he : s.window.alarms[row]? = some e) : ∃ e', l[row]? = some e' ∧ e'.alarmId = e.alarmId := by
  rcases written_cases hl with hids | ⟨r, rfl⟩ | ⟨now, row', hdelete, rfl⟩
  · have hid : (l.map (·.alarmId))[row]? = some e.alarmId := by
      rw [hids, List.getElem?_map, he]
      rfl
    rw [List.getElem?_map] at hid
    exact Option.map_eq_some_iff.mp hid
  · obtain ⟨hlt, -⟩ := List.getElem?_eq_some_iff.mp he
    exact ⟨e, (List.getElem?_append_left hlt).trans he, rfl⟩
  · exact absurd hdelete (hev now)

/-! ### The editor -/

/-- A refresh of a list that is as long as before keeps the selected row. -/
theorem selectedRow_redraw {now : QDateTime} {m : MainWindow} {row : Nat}
    (hrow : s.selectedRow = some row) (hlength : m.alarms.length = s.window.alarms.length) :
    (s.redraw now m).selectedRow = some row := by
  obtain ⟨hcurrent, hlt⟩ := selectedRow_eq_some.mp hrow
  refine selectedRow_eq_some.mpr ⟨?_, hlength ▸ hlt⟩
  show (if 0 ≤ s.currentRow ∧ s.currentRow < m.alarms.length then s.currentRow else -1) = row
  rw [if_pos (by omega)]
  exact hcurrent

theorem dialog_clickEnableBtn (now : QDateTime) (row : Row) (s : Screen) :
    (s.clickEnableBtn P now row).dialog = s.dialog := by
  unfold clickEnableBtn
  split
  · rfl
  · split
    · rfl
    · split
      · rfl
      · rfl

theorem dialog_deleteSelectedAlarm (now : QDateTime) (s : Screen) :
    (s.deleteSelectedAlarm P now).dialog = s.dialog := by
  unfold deleteSelectedAlarm
  split
  · rfl
  · rfl

/-- The editor stays on the selected row. -/
theorem editing_step {ev : Event} (h : step P s ev = some s')
    (hediting : ∀ row dlg, s.dialog = some (.edit row dlg) → s.selectedRow = some row) {row : Nat}
    {dlg : AlarmDialog} (hdialog : s'.dialog = some (.edit row dlg)) :
    s'.selectedRow = some row := by
  cases step_cases h with
  | tick now hclock =>
    refine selectedRow_redraw (s := s.atClock now) (hediting row dlg hdialog) ?_
    rw [(MainWindow.updateCurrentTime_fields (P := P) _ _).1]
    exact (P.sort.perm _).length_eq
  | dismiss now photo frame hframe hclock =>
    refine selectedRow_redraw (s := s.atClock now) (hediting row dlg hdialog) ?_
    refine (congrArg List.length
      (MainWindow.afterExec_fields (P := P) hframe (currentDateTime now) photo now).1).trans ?_
    refine (P.sort.perm _).length_eq.trans ?_
    rw [settleTriggered_eq, ← List.length_map (·.alarmId),
      IndexedUpdate.map_foldl_modify (AlarmEntry.afterDismiss_alarmId _), List.length_map]
    rfl
  | select row' hnone hrow => cases hnone.symm.trans hdialog
  | clickEnableBtn now i row' hnone hrow =>
    rw [dialog_clickEnableBtn] at hdialog
    cases hnone.symm.trans hdialog
  | clickStatBtn i row' hnone hrow =>
    unfold openAlarmStatDialog at hdialog
    split at hdialog
    · cases hnone.symm.trans hdialog
    · cases hdialog
  | openAddDialog now hnone => cases hdialog
  | openEditDialog now hnone =>
    unfold openEditDialog at hdialog ⊢
    cases hrow : (s.atClock now).selectedRow with
    | none =>
      rw [hrow] at hdialog
      cases hdialog
    | some row' =>
      rw [hrow] at hdialog
      obtain ⟨dlg', -, hedit⟩ := Option.map_eq_some_iff.mp hdialog
      cases hedit
      exact hrow
  | deleteSelectedAlarm now hnone =>
    rw [dialog_deleteSelectedAlarm] at hdialog
    cases hnone.symm.trans hdialog
  | setDebugAlarmPlus5Sec hnone => cases hdialog
  | openStatDialog hnone => cases hdialog
  | openFriendStatDialog hnone => cases hdialog
  | pressAdd p dlg hadd => cases hdialog
  | pressEdit p row' dlg' hedit =>
    cases hdialog
    exact hediting row dlg' hedit
  | acceptAdd now dlg' m hadd happend =>
    rw [dialog_selectAdded] at hdialog
    cases hdialog
  | acceptEdit now row' dlg' hedit => cases hdialog
  | addPlus5Sec now sound mode game m hplus happend => cases hdialog
  | reject => cases hdialog

/-! ### The chosen alarm -/

theorem sameFields_self (entry : AlarmEntry) : sameFields entry entry = true := by
  simp only [sameFields, beq_self_eq_true, Bool.and_self]

theorem selectAdded_of_findIdx? {entry : AlarmEntry} {i : Nat}
    (hfind : s.window.alarms.findIdx? (sameFields entry) = some i) :
    s.selectAdded entry = { s with currentRow := i } := by
  simp only [selectAdded, hfind]

/-- The loop after an add finds the new alarm when no other looks like it. -/
theorem selectAdded_new {l : List AlarmEntry} {entry : AlarmEntry}
    (hperm : s.window.alarms.Perm (l ++ [entry])) (hnew : ∀ e ∈ l, sameFields entry e = false) :
    ∃ row, (s.selectAdded entry).selectedRow = some row ∧
      (s.selectAdded entry).window.alarms[row]? = some entry := by
  have hmem : entry ∈ s.window.alarms := hperm.mem_iff.mpr (by simp)
  cases hfind : s.window.alarms.findIdx? (sameFields entry) with
  | none =>
    have hnone := List.findIdx?_eq_none_iff.mp hfind entry hmem
    rw [sameFields_self] at hnone
    cases hnone
  | some i =>
    obtain ⟨hi, hsame, -⟩ := List.findIdx?_eq_some_iff_getElem.mp hfind
    -- what the loop stops at is the new alarm, since it is none of the others
    have hentry : s.window.alarms[i] = entry := by
      rcases List.mem_append.mp (hperm.mem_iff.mp (List.getElem_mem hi)) with hold | hlast
      · rw [hnew _ hold] at hsame
        cases hsame
      · exact List.mem_singleton.mp hlast
    rw [selectAdded_of_findIdx? hfind]
    refine ⟨i, selectedRow_eq_some.mpr ⟨rfl, hi⟩, ?_⟩
    exact (List.getElem?_eq_getElem hi).trans (congrArg some hentry)

/-- Apart from a selection and an add, a step that leaves an alarm chosen has found it
    chosen and is no deletion. -/
theorem chosen_of_choose {chosen : Option Int} {ev : Event} {id : Int}
    (hselect : ∀ row, ev ≠ .select row)
    (hadd : ∀ now dlg, ev = .accept now → s.dialog ≠ some (.add dlg))
    (h : s.choose chosen ev = some id) :
    chosen = some id ∧ ∀ now, ev ≠ .deleteSelectedAlarm now := by
  cases ev with
  | select row => exact absurd rfl (hselect row)
  | deleteSelectedAlarm now => cases h
  | accept now =>
    simp only [choose] at h
    split at h
    · next dlg hdialog => exact absurd hdialog (hadd now dlg rfl)
    · exact ⟨h, fun _ hdelete => nomatch hdelete⟩
  | tick | dismiss | clickEnableBtn | clickStatBtn | openAddDialog | openEditDialog
  | setDebugAlarmPlus5Sec | openStatDialog | openFriendStatDialog | press | addPlus5Sec | reject =>
    exact ⟨h, fun _ hdelete => nomatch hdelete⟩

/-- **One step keeps the selection on the chosen alarm.** -/
theorem follows_step {w w' : Session} {ev : Event} (hw : Follows w)
    (hkeep : KeepsSelection P w ev) (h : w.step P ev = some w') : Follows w' := by
  obtain ⟨s', hs', rfl⟩ := Option.map_eq_some_iff.mp h
  refine ⟨?_, fun row dlg hdialog => editing_step hs' hw.editing hdialog⟩
  intro id hid
  cases step_outcome hs' with
  | quiet hev _ halarms hrows hcurrent =>
    obtain ⟨hchosen, -⟩ :=
      chosen_of_choose hev.1 (fun now _ haccept => absurd haccept (hev.2 now)) hid
    obtain ⟨row, e, hrow, he, hide⟩ := hw.selected id hchosen
    refine ⟨row, e, ?_, halarms ▸ he, hide⟩
    rw [selectedRow_eq_some] at hrow ⊢
    rw [hcurrent, halarms]
    exact hrow
  | selected row hev hrow hs'' =>
    subst hev hs''
    obtain ⟨e, he, hide⟩ := Option.map_eq_some_iff.mp hid
    obtain ⟨hlt, -⟩ := List.getElem?_eq_some_iff.mp he
    exact ⟨row, e, selectedRow_eq_some.mpr ⟨rfl, hlt⟩, he, hide⟩
  | redrawn l hev hl hredrawn =>
    have hselect : ∀ row, ev ≠ .select row := by
      rintro row rfl
      cases hl
    obtain ⟨hchosen, hdelete⟩ := chosen_of_choose hselect hev hid
    obtain ⟨row, e, hrow, he, hide⟩ := hw.selected id hchosen
    obtain ⟨e', he', hide'⟩ := written_alarmId hdelete hl he
    obtain ⟨hlt, -⟩ := List.getElem?_eq_some_iff.mp he'
    have hrests := hkeep.rests id row l hid hchosen hrow hl
    exact ⟨row, e', hredrawn.selectedRow hrow hlt, hredrawn.getElem? he' hrests,
      hide'.trans hide⟩
  | added now dlg l s₁ hev hdialog hl hredrawn hs'' =>
    subst hev hs''
    simp only [written, hdialog, Option.some.injEq] at hl
    simp only [choose, hdialog, Option.some.injEq] at hid
    subst hl
    obtain ⟨row, hrow, he⟩ :=
      selectAdded_new hredrawn.sorts.perm (hkeep.added now dlg rfl hdialog)
    exact ⟨row, _, hrow, he, hid⟩

/-! ### The condition is needed -/

section Stable

variable {home : QString}

theorem SortsTo.eq_sort {l l' : List AlarmEntry} (h : SortsTo (Platform.stable home) l l') :
    l' = (Platform.stable home).sort.sort l := by
  rcases h with rfl | rfl
  · rfl
  · exact KeySort.stable_sort_of_sorted (KeySort.sorted _ l)

/-- The loop after an add stops at an alarm that looks like the new one and was there
    before. -/
theorem selectAdded_old {l : List AlarmEntry} {entry e : AlarmEntry}
    (hsort : s.window.alarms = (Platform.stable home).sort.sort (l ++ [entry])) (he : e ∈ l)
    (hsame : sameFields entry e = true) :
    ∃ row row', (s.selectAdded entry).selectedRow = some row ∧ row < row' ∧
      (s.selectAdded entry).window.alarms[row']? = some entry := by
  obtain ⟨l₁, l₂, rfl⟩ := List.append_of_mem he
  have hsplit : (l₁ ++ e :: l₂) ++ [entry] = l₁ ++ e :: (l₂ ++ entry :: []) := by simp
  rw [hsplit] at hsort
  have hkey : e.dateTime.msecs ≤ entry.dateTime.msecs := by
    simp only [sameFields, Bool.and_eq_true, beq_iff_eq] at hsame
    omega
  -- the older alarm comes first, and the loop stops there at the latest
  obtain ⟨old, new, hbefore, hold, hnew⟩ : ∃ old new : Nat, old < new ∧
      s.window.alarms[old]? = some e ∧ s.window.alarms[new]? = some entry := by
    refine ⟨_, _,
      KeySort.rank_lt_rank (fun e : AlarmEntry => e.dateTime.msecs) l₁ l₂ [] hkey, ?_, ?_⟩
    · rw [hsort]
      exact KeySort.getElem?_stable_rank (by simp)
    · rw [hsort]
      exact KeySort.getElem?_stable_rank (by simp)
  obtain ⟨hlt, hget⟩ := List.getElem?_eq_some_iff.mp hold
  cases hfind : s.window.alarms.findIdx? (sameFields entry) with
  | none =>
    have hnone := List.findIdx?_eq_none_iff.mp hfind e (List.mem_of_getElem? hold)
    rw [hsame] at hnone
    cases hnone
  | some i =>
    obtain ⟨hi, -, hfirst⟩ := List.findIdx?_eq_some_iff_getElem.mp hfind
    have hle : i ≤ old := by
      apply Nat.le_of_not_lt
      intro hlater
      have hskip := hfirst _ hlater
      rw [hget, hsame] at hskip
      exact hskip rfl
    rw [selectAdded_of_findIdx? hfind]
    exact ⟨i, _, selectedRow_eq_some.mpr ⟨rfl, hi⟩, Nat.lt_of_le_of_lt hle hbefore, hnew⟩

theorem written_nodup {ev : Event} {l : List AlarmEntry} (hl : s.written P ev = some l)
    (hids : (s.window.alarms.map (·.alarmId)).Nodup)
    (hnext : ∀ e ∈ s.window.alarms, e.alarmId < s.window.nextAlarmId) :
    (l.map (·.alarmId)).Nodup := by
  rcases written_cases hl with hsame | ⟨r, rfl⟩ | ⟨now, row, -, rfl⟩
  · rw [hsame]
    exact hids
  · exact AlarmEntry.nodup_append_created hids hnext
  · exact hids.sublist ((List.eraseIdx_sublist _ row).map _)

section Exact

variable {w w' : Session} {ev : Event}

/-- An add after which the new alarm is selected has found no alarm that looks like it. -/
theorem added_of_follows (hids : (w.screen.window.alarms.map (·.alarmId)).Nodup)
    (hnext : ∀ e ∈ w.screen.window.alarms, e.alarmId < w.screen.window.nextAlarmId)
    (h : w.step (Platform.stable home) ev = some w') (hw' : Follows w') {now : Nat}
    {dlg : AlarmDialog} (hev : ev = .accept now) (hdialog : w.screen.dialog = some (.add dlg))
    {e : AlarmEntry} (he : e ∈ w.screen.window.alarms) :
    sameFields (AlarmEntry.created home w.screen.window.nextAlarmId
      (dlg.onConfirm home (currentDateTime now))) e = false := by
  obtain ⟨s', hs', rfl⟩ := Option.map_eq_some_iff.mp h
  cases step_outcome hs' with
  | quiet hev' _ _ _ _ => exact absurd hev (hev'.2 now)
  | selected row hev' _ _ => cases hev.symm.trans hev'
  | redrawn l hev' _ _ => exact absurd hdialog (hev' now dlg hev)
  | added now' dlg' l s₁ hev' hdialog' hl hredrawn hs'' =>
    cases hev.symm.trans hev'
    cases hdialog.symm.trans hdialog'
    subst hev hs''
    have hids' := (hredrawn.sorts.perm.map (·.alarmId)).nodup_iff.mpr
      (written_nodup hl hids hnext)
    simp only [written, hdialog, Option.some.injEq] at hl
    subst hl
    by_contra hsame
    obtain ⟨row, row', hrow, hlt, hentry⟩ :=
      selectAdded_old hredrawn.sorts.eq_sort he (Bool.eq_true_of_not_eq_false hsame)
    -- the selected row and the row of the new alarm would be one
    have hchosen : w.screen.choose w.chosen (.accept now) =
        some w.screen.window.nextAlarmId := by
      simp only [choose, hdialog]
    obtain ⟨row₂, e₂, hrow₂, he₂, hid₂⟩ := hw'.selected w.screen.window.nextAlarmId hchosen
    obtain rfl : row = row₂ := Option.some.inj (hrow.symm.trans hrow₂)
    rw [window_selectAdded] at hentry he₂
    have heq := (MainWindow.alarmId_at_iff hids' hentry).mp ⟨e₂, he₂, hid₂⟩
    omega

/-- A write after which the chosen alarm is still selected has left it at its row. -/
theorem rests_of_follows (hw : Follows w)
    (hids : (w.screen.window.alarms.map (·.alarmId)).Nodup)
    (hnext : ∀ e ∈ w.screen.window.alarms, e.alarmId < w.screen.window.nextAlarmId)
    (h : w.step (Platform.stable home) ev = some w') (hw' : Follows w') {id : Int} {row : Nat}
    {l : List AlarmEntry} (hid : w.screen.choose w.chosen ev = some id)
    (hchosen : w.chosen = some id) (hrow : w.screen.selectedRow = some row)
    (hl : w.screen.written (Platform.stable home) ev = some l) :
    (Platform.stable home).sort.Rests l row := by
  obtain ⟨s', hs', rfl⟩ := Option.map_eq_some_iff.mp h
  obtain ⟨row₀, e₀, hrow₀, he₀, hid₀⟩ := hw.selected id hchosen
  obtain rfl : row = row₀ := Option.some.inj (hrow.symm.trans hrow₀)
  cases step_outcome hs' with
  | quiet _ hnone _ _ _ => cases hnone.symm.trans hl
  | selected row' hev _ _ =>
    subst hev
    cases hl
  | redrawn l' hev hl' hredrawn =>
    obtain rfl : l = l' := Option.some.inj (hl.symm.trans hl')
    have hselect : ∀ row, ev ≠ .select row := by
      rintro row' rfl
      cases hl
    obtain ⟨-, hdelete⟩ := chosen_of_choose hselect hev hid
    obtain ⟨x, hx, hxid⟩ := written_alarmId hdelete hl he₀
    obtain ⟨hlt, -⟩ := List.getElem?_eq_some_iff.mp hx
    obtain ⟨row₁, e₁, hrow₁, he₁, hid₁⟩ := hw'.selected id hid
    obtain rfl : row = row₁ := Option.some.inj ((hredrawn.selectedRow hrow hlt).symm.trans hrow₁)
    have hids' := (hredrawn.sorts.perm.map (·.alarmId)).nodup_iff.mpr
      (written_nodup hl hids hnext)
    have hrank : s'.window.alarms[KeySort.rank (fun e : AlarmEntry => e.dateTime.msecs) l row]? =
        some x := by
      rw [hredrawn.sorts.eq_sort]
      exact KeySort.getElem?_stable_rank hx
    exact ⟨(MainWindow.alarmId_at_iff hids' hrank).mp
      ⟨e₁, he₁, hid₁.trans (hid₀.symm.trans hxid.symm)⟩, .inl rfl⟩
  | added now dlg l' s₁ hev hdialog hl' hredrawn hs'' =>
    subst hev
    simp only [choose, hdialog, Option.some.injEq] at hid
    have := hnext e₀ (List.mem_of_getElem? he₀)
    omega

/-- **The condition is exact.** With a sort that keeps equal date-times in order and with
    distinct ids, a step leaves the selection on the chosen alarm exactly when it keeps the
    selection. -/
theorem follows_step_iff (hw : Follows w)
    (hids : (w.screen.window.alarms.map (·.alarmId)).Nodup)
    (hnext : ∀ e ∈ w.screen.window.alarms, e.alarmId < w.screen.window.nextAlarmId)
    (h : w.step (Platform.stable home) ev = some w') :
    Follows w' ↔ KeepsSelection (Platform.stable home) w ev := by
  constructor
  · intro hw'
    constructor
    · intro now dlg hev hdialog e he
      exact added_of_follows hids hnext h hw' hev hdialog he
    · intro id row l hid hchosen hrow hl
      exact rests_of_follows hw hids hnext h hw' hid hchosen hrow hl
  · intro hkeep
    exact follows_step hw hkeep h

end Exact

end Stable

/-! ### Runs -/

theorem follows_start (h : s.dialog = none) : Follows ⟨s, none⟩ where
  selected := nofun
  editing := by
    intro row dlg hedit
    cases h.symm.trans hedit

/-- The screen of a session is the screen. -/
theorem run_screen {w w' : Session} {evs : List Event}
    (h : Machine.run (Session.step P) w evs = some w') :
    Machine.run (step P) w.screen evs = some w'.screen := by
  apply Machine.run_map (f := Session.screen) _ h
  intro w ev w' hstep
  obtain ⟨s', hs', rfl⟩ := Option.map_eq_some_iff.mp hstep
  exact hs'

/-- Delete takes the entry of the selected row away, and nothing else. -/
theorem delete_step {t row : Nat} {e : AlarmEntry} (hrow : s.selectedRow = some row)
    (he : s.window.alarms[row]? = some e) (h : step P s (.deleteSelectedAlarm t) = some s') :
    s.window.alarms.Perm (e :: s'.window.alarms) := by
  cases step_cases h with
  | deleteSelectedAlarm t hnone =>
    unfold deleteSelectedAlarm
    rw [show (s.atClock t).selectedRow = some row from hrow]
    have halarms := alarms_deleteSelectedAlarm (P := P) (m := (s.atClock t).window)
      (lt_of_selectedRow hrow)
    have hperm : (P.sort.sort (s.window.alarms.eraseIdx row)).Perm (s.window.alarms.eraseIdx row) :=
      P.sort.perm _
    refine (IndexedUpdate.perm_cons_eraseIdx he).trans (List.Perm.cons e ?_)
    exact ((List.Perm.of_eq halarms).trans hperm).symm

/-- OK in the editor overwrites the entry of the row that it was opened on, and nothing
    else. -/
theorem edit_step {t row : Nat} {dlg : AlarmDialog} {e : AlarmEntry}
    (hdialog : s.dialog = some (.edit row dlg)) (he : s.window.alarms[row]? = some e)
    (h : step P s (.accept t) = some s') :
    s'.window.alarms.Perm
      (e.edited (dlg.onConfirm P.home (currentDateTime t)) :: s.window.alarms.eraseIdx row) := by
  cases step_cases h with
  | acceptAdd t dlg' m hadd happend => cases hdialog.symm.trans hadd
  | acceptEdit t row' dlg' hedit =>
    cases hdialog.symm.trans hedit
    have hperm := IndexedUpdate.modify_perm_cons_eraseIdx
      (f := (·.edited (dlg.onConfirm P.home (currentDateTime t)))) he
    exact ((P.sort.perm _).trans (P.sort.perm _)).trans hperm

end Screen

open Screen

/-- **The selection and the chosen alarm.** Take any list, any sort, and any run whose steps
    all keep the selection. In every state that it reaches in which an alarm is chosen, the
    selected row is that of the chosen alarm; Delete takes away that alarm, and OK in an
    editor overwrites that alarm. -/
theorem selection_run {P : Platform} {s : Screen} {evs : List Screen.Event} {w : Session}
    (hdialog : s.dialog = none) (hrun : Machine.run (Session.step P) ⟨s, none⟩ evs = some w)
    (hkeep : Machine.Along (Session.step P) (KeepsSelection P) ⟨s, none⟩ evs) {id : Int}
    (hid : w.chosen = some id) :
    ∃ row e, w.screen.selectedRow = some row ∧ w.screen.window.alarms[row]? = some e ∧
      e.alarmId = id ∧
      (∀ t s', step P w.screen (.deleteSelectedAlarm t) = some s' →
        w.screen.window.alarms.Perm (e :: s'.window.alarms)) ∧
      ∀ t row' dlg s', w.screen.dialog = some (.edit row' dlg) →
        step P w.screen (.accept t) = some s' →
        s'.window.alarms.Perm (e.edited (dlg.onConfirm P.home (currentDateTime t)) ::
          w.screen.window.alarms.eraseIdx row) := by
  have hw : Follows w :=
    Machine.run_invariant_along (fun _ _ _ hw hk hs => follows_step hw hk hs)
      (follows_start hdialog) hkeep hrun
  obtain ⟨row, e, hrow, he, hide⟩ := hw.selected id hid
  refine ⟨row, e, hrow, he, hide, fun t s' hs' => delete_step hrow he hs', ?_⟩
  intro t row' dlg s' hedit hs'
  have hrow' := hw.editing row' dlg hedit
  obtain rfl : row = row' := Option.some.inj (hrow.symm.trans hrow')
  exact edit_step hedit he hs'

/-- Two alarms an hour apart, the earlier of them still to ring today. -/
def twoRows : Screen :=
  let e : AlarmEntry :=
    { alarmId := 1, dateTime := currentDateTime 3600000, enabled := true, soundFile := [],
      dismissMode := 0, gameType := 0, repeatMask := 0, useSpecificDate := false, logFile := [] }
  Screen.redraw (currentDateTime 0)
    { alarms := [e, { e with alarmId := 2, dateTime := currentDateTime 7200000 }]
      nextAlarmId := 3 }
    { window := {} }

/-- The user selects the second row and disables the alarm of the first. -/
theorem selection_run_disable :
    ∃ w, Machine.run (Session.step (Platform.stable "/root".toList)) ⟨twoRows, none⟩
        [.select 1, .clickEnableBtn 5000 0, .tick 6000] = some w ∧
      ∃ row e, w.screen.selectedRow = some row ∧ w.screen.window.alarms[row]? = some e ∧
        e.alarmId = 2 := by
  have hrun : Machine.run (Session.step (Platform.stable "/root".toList)) ⟨twoRows, none⟩
      [.select 1, .clickEnableBtn 5000 0, .tick 6000] = some _ := rfl
  have hkeep : Machine.Along (Session.step (Platform.stable "/root".toList))
      (KeepsSelection (Platform.stable "/root".toList)) ⟨twoRows, none⟩
      [.select 1, .clickEnableBtn 5000 0, .tick 6000] :=
    .cons (keepsSelection_of_quiet nofun rfl) rfl
      (.cons (keepsSelection_of_rests nofun rfl rfl ⟨by decide, .inl rfl⟩) rfl
        (.cons (keepsSelection_of_rests nofun rfl rfl ⟨by decide, .inl rfl⟩) rfl trivial))
  obtain ⟨row, e, hrow, he, hid, -⟩ := selection_run rfl hrun hkeep rfl
  exact ⟨_, hrun, row, e, hrow, he, hid⟩

/-- The user selects the first of two alarms and adds a +5s alarm: the selection is on the
    new alarm, and Delete takes that one away. The user adds an alarm twice: the selection is
    on the old one. -/
theorem selection_lost :
    ((Machine.run (Session.step (Platform.stable "/root".toList)) ⟨twoRows, none⟩
        [.select 0, .setDebugAlarmPlus5Sec,
          .addPlus5Sec 5000 0 .DismissSimple .GameNumberOrder]).map fun w =>
      (w.chosen, w.screen.currentRow, w.screen.window.alarms.map (·.alarmId))) =
        some (some 1, 0, [3, 1, 2]) ∧
    ((Machine.run (Session.step (Platform.stable "/root".toList)) ⟨twoRows, none⟩
        [.select 0, .setDebugAlarmPlus5Sec,
          .addPlus5Sec 5000 0 .DismissSimple .GameNumberOrder, .deleteSelectedAlarm 6000]).map
      fun w => w.screen.window.alarms.map (·.alarmId)) = some [1, 2] ∧
    ((Machine.run (Session.step (Platform.stable "/root".toList)) ⟨twoRows, none⟩
        [.openAddDialog 1000, .accept 2000, .openAddDialog 3000, .accept 4000]).map fun w =>
      (w.chosen, w.screen.currentRow, w.screen.window.alarms.map (·.alarmId))) =
        some (some 4, 2, [1, 2, 3, 4]) := by
  refine ⟨by decide +kernel, by decide +kernel, by decide +kernel⟩

end AlarmClock
