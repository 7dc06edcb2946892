import AlarmClock.Lib.IndexedUpdate
import AlarmClock.MainWindow

/-!
# What every run keeps

`Inv` holds of a fresh installation, of every start on files that the application
wrote, and after every step: the entries are in order, their ids lie below the
counter, the counter file holds the counter, and the list file holds what a load
cannot tell apart from the list in memory.
-/

namespace AlarmClock

open QDateTime

/-- The loop over what rang updates the entries at the remembered indices. -/
theorem settleTriggered_eq (now : QDateTime) (triggered : List TriggeredInfo)
    (alarms : List AlarmEntry) :
    settleTriggered now triggered alarms =
      (triggered.map (·.index)).foldl (fun l i => l.modify i (·.afterDismiss now)) alarms := by
  rw [List.foldl_map]
  rfl

/-! ### Lists of entries -/

/-- The ids of a list with a new alarm. -/
theorem AlarmEntry.nodup_append_created {home : QString} {l : List AlarmEntry} {next : Int}
    {r : AlarmDialog.Accepted} (hids : (l.map (·.alarmId)).Nodup)
    (hnext : ∀ e ∈ l, e.alarmId < next) :
    ((l ++ [AlarmEntry.created home next r]).map (·.alarmId)).Nodup := by
  rw [List.map_append, List.nodup_append]
  refine ⟨hids, List.nodup_singleton _, ?_⟩
  rintro i hi j hj rfl
  obtain ⟨e, he, rfl⟩ := List.mem_map.mp hi
  have heq : e.alarmId = next := List.mem_singleton.mp hj
  have := hnext e he
  omega

/-- A list that the application may hold when the next id is `next`. -/
structure Entries (home : QString) (next : Int) (l : List AlarmEntry) : Prop where
  ok : ∀ e ∈ l, e.Ok home
  ids : ∀ e ∈ l, 1 ≤ e.alarmId ∧ e.alarmId < next
  nodup : (l.map (·.alarmId)).Nodup

namespace Entries

variable {home : QString} {next : Int} {l l' : List AlarmEntry}

theorem nil : Entries home next [] :=
  ⟨fun _ h => by simp at h, fun _ h => by simp at h, List.nodup_nil⟩

/-- The id names the entry. -/
theorem eq_of_alarmId (h : Entries home next l) {e e' : AlarmEntry} (he : e ∈ l) (he' : e' ∈ l)
    (hid : e.alarmId = e'.alarmId) : e = e' :=
  List.inj_on_of_nodup_map h.nodup he he' hid

theorem perm (h : Entries home next l) (hp : l'.Perm l) : Entries home next l' :=
  ⟨fun e he => h.ok e (hp.mem_iff.mp he), fun e he => h.ids e (hp.mem_iff.mp he),
    (hp.map _).nodup_iff.mpr h.nodup⟩

theorem mono (h : Entries home next l) {next' : Int} (hle : next ≤ next') :
    Entries home next' l :=
  ⟨h.ok, fun e he => by have := h.ids e he; omega, h.nodup⟩

theorem eraseIdx (h : Entries home next l) (row : Nat) : Entries home next (l.eraseIdx row) :=
  ⟨fun e he => h.ok e (List.mem_of_mem_eraseIdx he),
    fun e he => h.ids e (List.mem_of_mem_eraseIdx he),
    h.nodup.sublist ((List.eraseIdx_sublist l row).map _)⟩

/-- Updates that keep the id, at any indices. -/
theorem foldl_modify (h : Entries home next l) {f : AlarmEntry → AlarmEntry}
    (hid : ∀ e, (f e).alarmId = e.alarmId) (hok : ∀ e : AlarmEntry, e.Ok home → (f e).Ok home)
    (is : List Nat) : Entries home next (is.foldl (fun l i => l.modify i f) l) := by
  refine ⟨IndexedUpdate.forall_mem_foldl_modify hok h.ok is, ?_, ?_⟩
  · exact IndexedUpdate.forall_mem_foldl_modify (fun e he => by rw [hid]; exact he) h.ids is
  · have hids : (is.foldl (fun l i => l.modify i f) l).map (·.alarmId) = l.map (·.alarmId) :=
      IndexedUpdate.map_foldl_modify hid l is
    rw [hids]
    exact h.nodup

theorem modify (h : Entries home next l) {f : AlarmEntry → AlarmEntry}
    (hid : ∀ e, (f e).alarmId = e.alarmId) (hok : ∀ e : AlarmEntry, e.Ok home → (f e).Ok home)
    (row : Nat) : Entries home next (l.modify row f) :=
  h.foldl_modify hid hok [row]

theorem settleTriggered (h : Entries home next l) {now : QDateTime} (hnow : now.InCommonEra)
    (triggered : List TriggeredInfo) :
    Entries home next (AlarmClock.settleTriggered now triggered l) := by
  rw [settleTriggered_eq]
  exact h.foldl_modify (AlarmEntry.afterDismiss_alarmId now) (fun e he => he.afterDismiss hnow) _

/-- The new entry takes the next id. -/
theorem append_created (h : Entries home next l) (hrange : 1 ≤ next ∧ next ≤ 2147483647)
    {r : AlarmDialog.Accepted} (hr : r.Ok) :
    Entries home (next + 1) (l ++ [AlarmEntry.created home next r]) := by
  refine ⟨?_, ?_, ?_⟩
  · intro e he
    rcases List.mem_append.mp he with he | he
    · exact h.ok e he
    · rw [List.mem_singleton.mp he]
      exact AlarmEntry.created_ok ⟨by omega, hrange.2⟩ hr
  · intro e he
    rcases List.mem_append.mp he with he | he
    · have := h.ids e he
      omega
    · rw [List.mem_singleton.mp he]
      show 1 ≤ next ∧ next < next + 1
      omega
  · exact AlarmEntry.nodup_append_created h.nodup fun e he => (h.ids e he).2

theorem filterMap_reload (h : Entries home next l) {now : QDateTime} (hnow : now.InCommonEra) :
    Entries home next (l.filterMap (AlarmEntry.reload now)) := by
  rw [AlarmEntry.filterMap_reload]
  have hmem : ∀ x ∈ (l.filter fun e => decide e.dateTime.HasFourDigitYear).map
      (AlarmEntry.normalise now), ∃ e ∈ l, x = e.normalise now := by
    intro x hx
    obtain ⟨e, he, rfl⟩ := List.mem_map.mp hx
    exact ⟨e, (List.mem_filter.mp he).1, rfl⟩
  refine ⟨?_, ?_, ?_⟩
  · intro x hx
    obtain ⟨e, he, rfl⟩ := hmem x hx
    exact (h.ok e he).normalise hnow
  · intro x hx
    obtain ⟨e, he, rfl⟩ := hmem x hx
    rw [AlarmEntry.normalise_alarmId]
    exact h.ids e he
  · have hids : ((l.filter fun e => decide e.dateTime.HasFourDigitYear).map
        (AlarmEntry.normalise now)).map (·.alarmId) =
        (l.filter fun e => decide e.dateTime.HasFourDigitYear).map (·.alarmId) := by
      rw [List.map_map]
      exact List.map_congr_left fun e _ => AlarmEntry.normalise_alarmId now e
    rw [hids]
    exact h.nodup.sublist (List.filter_sublist.map _)

end Entries

/-! ### The saved list -/

/-- The list file holds `saved`, or there is no file yet. -/
def FileHolds (file : Option QJsonDocument) (saved : List AlarmEntry) : Prop :=
  file = some (.array (alarmsArray saved)) ∨ (file = none ∧ saved = [])

/-- No load from `clock` on tells the two entries apart. -/
def SameWhenLoaded (clock : Nat) (d e : AlarmEntry) : Prop :=
  (e.dateTime.HasFourDigitYear → d.dateTime.HasFourDigitYear) ∧
    ∀ now, clock ≤ now →
      d.normalise (currentDateTime now) = e.normalise (currentDateTime now)

/-- The saved entries are counterparts of the current ones, one for each; what is saved
    beside them is lost by every load. -/
def Matches (clock : Nat) (saved alarms : List AlarmEntry) : Prop :=
  ∃ (pairs : List (AlarmEntry × AlarmEntry)) (lost : List AlarmEntry),
    saved.Perm (pairs.map Prod.fst ++ lost) ∧ alarms.Perm (pairs.map Prod.snd) ∧
      (∀ d ∈ lost, ¬ d.dateTime.HasFourDigitYear) ∧ ∀ p ∈ pairs, SameWhenLoaded clock p.1 p.2

namespace Matches

variable {clock : Nat} {saved alarms : List AlarmEntry}

/-- Right after a save. -/
theorem of_perm (h : saved.Perm alarms) : Matches clock saved alarms := by
  refine ⟨saved.map fun e => (e, e), [], ?_, ?_, by simp, ?_⟩
  · rw [List.map_map, List.append_nil]
    exact List.Perm.of_eq (List.map_id saved).symm
  · rw [List.map_map]
    exact h.symm.trans (List.Perm.of_eq (List.map_id saved).symm)
  · intro p hp
    obtain ⟨e, -, rfl⟩ := List.mem_map.mp hp
    exact ⟨id, fun _ _ => rfl⟩

theorem mono (h : Matches clock saved alarms) {clock' : Nat} {alarms' : List AlarmEntry}
    (hclock : clock ≤ clock') (hp : alarms'.Perm alarms) : Matches clock' saved alarms' := by
  obtain ⟨pairs, lost, hsaved, halarms, hlost, hsame⟩ := h
  exact ⟨pairs, lost, hsaved, hp.trans halarms, hlost,
    fun p hmem => ⟨(hsame p hmem).1, fun now hle => (hsame p hmem).2 now (by omega)⟩⟩

/-- Right after a load, which leaves the file alone. -/
theorem of_load {home : QString} (hok : ∀ d ∈ saved, d.Ok home) {now : Nat}
    (h : alarms.Perm (saved.filterMap (AlarmEntry.reload (currentDateTime now)))) :
    Matches now saved alarms := by
  rw [AlarmEntry.filterMap_reload] at h
  refine ⟨(saved.filter fun d => decide d.dateTime.HasFourDigitYear).map
      fun d => (d, d.normalise (currentDateTime now)),
    saved.filter fun d => !decide d.dateTime.HasFourDigitYear, ?_, ?_, ?_, ?_⟩
  · rw [List.map_map]
    refine List.Perm.trans ?_ (List.Perm.append_right _ (List.Perm.of_eq (List.map_id _).symm))
    exact (List.filter_append_perm _ saved).symm
  · rw [List.map_map]
    exact h
  · intro d hd
    simpa using (List.mem_filter.mp hd).2
  · intro p hp
    obtain ⟨d, hd, rfl⟩ := List.mem_map.mp hp
    obtain ⟨hmem, hyear⟩ := List.mem_filter.mp hd
    refine ⟨fun _ => by simpa using hyear, ?_⟩
    intro now' hle
    exact ((hok d hmem).normalise_normalise (inCommonEra_currentDateTime now)
      (inCommonEra_currentDateTime now') (by rw [le_def]; simpa using hle)).symm

/-- What a load yields are current entries, normalised. -/
theorem exists_current (h : Matches clock saved alarms) {now : Nat} (hle : clock ≤ now)
    {x : AlarmEntry} (hx : x ∈ saved.filterMap (AlarmEntry.reload (currentDateTime now))) :
    ∃ e ∈ alarms, x = e.normalise (currentDateTime now) := by
  obtain ⟨pairs, lost, hsaved, halarms, hlost, hsame⟩ := h
  rw [AlarmEntry.filterMap_reload] at hx
  obtain ⟨d, hd, rfl⟩ := List.mem_map.mp hx
  obtain ⟨hmem, hyear⟩ := List.mem_filter.mp hd
  rcases List.mem_append.mp (hsaved.mem_iff.mp hmem) with hpair | hd
  · obtain ⟨p, hp, rfl⟩ := List.mem_map.mp hpair
    exact ⟨p.2, halarms.mem_iff.mpr (List.mem_map_of_mem hp), (hsame p hp).2 now hle⟩
  · exact absurd (by simpa using hyear) (hlost d hd)

/-- A load yields every current entry, normalised, when their years can be written. -/
theorem filterMap_reload (h : Matches clock saved alarms) {now : Nat} (hle : clock ≤ now)
    (hyear : ∀ e ∈ alarms, e.dateTime.HasFourDigitYear) :
    (saved.filterMap (AlarmEntry.reload (currentDateTime now))).Perm
      (alarms.map (AlarmEntry.normalise (currentDateTime now))) := by
  obtain ⟨pairs, lost, hsaved, halarms, hlost, hsame⟩ := h
  have hread : ∀ d ∈ pairs.map Prod.fst, d.dateTime.HasFourDigitYear := by
    intro d hd
    obtain ⟨p, hp, rfl⟩ := List.mem_map.mp hd
    exact (hsame p hp).1 (hyear p.2 (halarms.mem_iff.mpr (List.mem_map_of_mem hp)))
  have hkept : (pairs.map Prod.fst).filter (fun d => decide d.dateTime.HasFourDigitYear) =
      pairs.map Prod.fst := List.filter_eq_self.mpr fun d hd => by simpa using hread d hd
  have hgone : lost.filter (fun d => decide d.dateTime.HasFourDigitYear) = [] :=
    List.filter_eq_nil_iff.mpr fun d hd => by simpa using hlost d hd
  have hsame' :
      ((pairs.map Prod.fst ++ lost).filter fun d => decide d.dateTime.HasFourDigitYear).map
        (AlarmEntry.normalise (currentDateTime now)) =
      (pairs.map Prod.snd).map (AlarmEntry.normalise (currentDateTime now)) := by
    rw [List.filter_append, hkept, hgone, List.append_nil, List.map_map, List.map_map]
    exact List.map_congr_left fun p hp => (hsame p hp).2 now hle
  rw [AlarmEntry.filterMap_reload]
  apply ((hsaved.filter _).map _).trans
  rw [hsame']
  exact (halarms.map _).symm

end Matches

/-! ### The invariant -/

structure Inv (P : Platform) (m : MainWindow) : Prop where
  entries : Entries P.home m.nextAlarmId m.alarms
  range : 1 ≤ m.nextAlarmId ∧ m.nextAlarmId ≤ 2147483647
  counter : readCounter m.disk.alarmCounter 1 = m.nextAlarmId
  saved : ∃ saved, FileHolds m.disk.alarmsSave saved ∧ Entries P.home m.nextAlarmId saved ∧
    Matches m.clock saved m.alarms
  handling : m.alarmHandling = m.frame.isSome

/-- Files that the application has written. -/
def SavedDisk (P : Platform) (disk : Disk) : Prop :=
  ∃ saved, FileHolds disk.alarmsSave saved ∧
    Entries P.home (readCounter disk.alarmCounter 1) saved ∧
    1 ≤ readCounter disk.alarmCounter 1 ∧ readCounter disk.alarmCounter 1 ≤ 2147483647

namespace MainWindow

variable {P : Platform} {m m' : MainWindow}

theorem inv_fresh (now : Nat) : Inv P { clock := now } where
  entries := .nil
  range := (by decide : (1 : Int) ≤ 1 ∧ (1 : Int) ≤ 2147483647)
  counter := rfl
  saved := ⟨[], .inr ⟨rfl, rfl⟩, .nil, Matches.of_perm (List.Perm.refl _)⟩
  handling := rfl

theorem savedDisk_of_inv (h : Inv P m) : SavedDisk P m.disk := by
  obtain ⟨saved, hfile, hsaved, -⟩ := h.saved
  unfold SavedDisk
  rw [h.counter]
  exact ⟨saved, hfile, hsaved, h.range⟩

/-- A start on files that hold `saved`: the list is what reloads of it, in order. -/
theorem launch_spec {disk : Disk} {saved : List AlarmEntry}
    (hfile : FileHolds disk.alarmsSave saved)
    (hsaved : Entries P.home (readCounter disk.alarmCounter 1) saved) (now : Nat) :
    ∃ alarms, alarms.Perm (saved.filterMap (AlarmEntry.reload (currentDateTime now))) ∧
      (alarms.Pairwise fun a b => a.dateTime.msecs ≤ b.dateTime.msecs) ∧
      launch P disk now = some
        { alarms := alarms, nextAlarmId := readCounter disk.alarmCounter 1, disk := disk,
          clock := now } := by
  rcases hfile with hfile | ⟨hfile, rfl⟩
  · refine ⟨P.sort.sort (P.sort.sort (saved.filterMap (AlarmEntry.reload (currentDateTime now)))),
      (P.sort.perm _).trans (P.sort.perm _), P.sort.sorted _, ?_⟩
    have hload := AlarmEntry.foldlM_loadElement hsaved.ok (fun e he => (hsaved.ids e he).2)
      (currentDateTime now) []
    simp only [launch, loadAlarms, loadAlarmCounter, hfile, hload]
    rfl
  · refine ⟨[], List.Perm.refl _, List.Pairwise.nil, ?_⟩
    simp only [launch, loadAlarms, loadAlarmCounter, hfile]

/-- A start on files that the application wrote succeeds, and the invariant holds. -/
theorem launch_inv {disk : Disk} (h : SavedDisk P disk) (now : Nat) :
    ∃ m, launch P disk now = some m ∧ Inv P m := by
  obtain ⟨saved, hfile, hsaved, hrange⟩ := h
  obtain ⟨alarms, halarms, -, hlaunch⟩ := launch_spec hfile hsaved now
  refine ⟨_, hlaunch, ?_, hrange, rfl, ⟨saved, hfile, hsaved, ?_⟩, rfl⟩
  · exact (hsaved.filterMap_reload (inCommonEra_currentDateTime now)).perm halarms
  · exact Matches.of_load hsaved.ok halarms

/-- Sorting the list and letting time pass keep the invariant. -/
theorem inv_of_perm (h : Inv P m) (hclock : m.clock ≤ m'.clock) (halarms : m'.alarms.Perm m.alarms)
    (hnext : m'.nextAlarmId = m.nextAlarmId) (hcounter : m'.disk.alarmCounter = m.disk.alarmCounter)
    (hfile : m'.disk.alarmsSave = m.disk.alarmsSave)
    (hhandling : m'.alarmHandling = m'.frame.isSome) : Inv P m' := by
  obtain ⟨saved, hholds, hsaved, hmatches⟩ := h.saved
  refine ⟨?_, ?_, ?_, ⟨saved, ?_, ?_, ?_⟩, hhandling⟩
  · rw [hnext]
    exact h.entries.perm halarms
  · rw [hnext]
    exact h.range
  · rw [hnext, hcounter]
    exact h.counter
  · rw [hfile]
    exact hholds
  · rw [hnext]
    exact hsaved
  · exact hmatches.mono hclock halarms

/-- Writing a list of entries, in memory and to the file, keeps the invariant. -/
theorem inv_of_write (h : Inv P m) {l : List AlarmEntry} (hl : Entries P.home m.nextAlarmId l) :
    Inv P (refreshAlarmList P (saveAlarms { m with alarms := l })) where
  entries := hl.perm (P.sort.perm l)
  range := h.range
  counter := h.counter
  saved := ⟨l, .inl rfl, hl, Matches.of_perm (P.sort.perm l).symm⟩
  handling := h.handling

/-! ### Every step keeps it -/

theorem accepted_ok (home : QString) (c : Creation) : (c.accepted home).Ok := by
  cases c with
  | openAddDialog opened now presses =>
    exact AlarmDialog.onConfirm_ok
      (AlarmDialog.foldl_press_ok (AlarmDialog.forAdd_ok home opened) presses) home now
  | setDebugAlarmPlus5Sec now sound mode game =>
    have hlater : currentDateTime now < (currentDateTime now).addSecs 5 := by
      show (now : Int) < now + 5 * 1000
      omega
    exact {
      era := (inCommonEra_currentDateTime now).of_lt rfl hlater
      mask := (by decide : (0 : Int) ≤ 0 ∧ (0 : Int) ≤ 127)
      weekday := fun h => absurd rfl h
      specific := fun h => absurd rfl h
      minute := fun h => absurd rfl h
      mode := mode.isInt_toInt
      game := game.isInt_toInt }

theorem editResult_ok {e : AlarmEntry} (h : e.Ok P.home) (opened now : Nat)
    (presses : List AlarmDialog.Press) : (editResult P opened now presses e).Ok :=
  AlarmDialog.onConfirm_ok (AlarmDialog.foldl_press_ok (h.editor _) presses) P.home now

/-- What a button of a row leaves: the window as it was, or with a list that it wrote. -/
inductive RowTo (P : Platform) (m : MainWindow) (l : List AlarmEntry) : MainWindow → Prop where
  | idle : RowTo P m l m
  | written : RowTo P m l (refreshAlarmList P (saveAlarms { m with alarms := l }))

theorem deleteSelectedAlarm_row (row : Nat) (m : MainWindow) :
    RowTo P m (m.alarms.eraseIdx row) (deleteSelectedAlarm P row m) := by
  unfold deleteSelectedAlarm
  split
  · exact .written
  · exact .idle

theorem disableRow_row (row : Nat) (m : MainWindow) :
    RowTo P m (m.alarms.modify row (·.disable)) (disableRow P row m) := by
  unfold disableRow
  split
  · exact .written
  · exact .idle

theorem enableRow_row (now2 : QDateTime) (row : Nat) (m : MainWindow) :
    RowTo P m (m.alarms.modify row (·.enable now2)) (enableRow P now2 row m) := by
  unfold enableRow
  split
  · exact .idle
  · split
    · exact .idle
    · exact .written

/-- A button of a row writes the alarms, and nothing else. -/
theorem RowTo.fields {l : List AlarmEntry} (h : RowTo P m l m') :
    m'.frame = m.frame ∧ m'.nextAlarmId = m.nextAlarmId ∧
      m'.disk.appended = m.disk.appended := by
  cases h with
  | idle => exact ⟨rfl, rfl, rfl⟩
  | written => exact ⟨rfl, rfl, rfl⟩

theorem RowTo.mem {l : List AlarmEntry} (h : RowTo P m l m') {x : AlarmEntry}
    (hx : x ∈ m'.alarms) : x ∈ m.alarms ∨ x ∈ l := by
  cases h with
  | idle => exact .inl hx
  | written => exact .inr (P.sort.mem_sort.mp hx)

theorem mem_deleteSelectedAlarm {row : Nat} {x : AlarmEntry}
    (hx : x ∈ (deleteSelectedAlarm P row m).alarms) : x ∈ m.alarms := by
  rcases (deleteSelectedAlarm_row row m).mem hx with hx | hx
  · exact hx
  · exact List.mem_of_mem_eraseIdx hx

theorem mem_disableRow {row : Nat} {x : AlarmEntry} (hx : x ∈ (disableRow P row m).alarms) :
    x ∈ m.alarms ∨ ∃ e, m.alarms[row]? = some e ∧ x = e.disable := by
  rcases (disableRow_row row m).mem hx with hx | hx
  · exact .inl hx
  · exact IndexedUpdate.mem_modify hx

/-- The Enable button touches an alarm that is disabled. -/
theorem mem_enableRow {now2 : QDateTime} {row : Nat} {x : AlarmEntry}
    (hx : x ∈ (enableRow P now2 row m).alarms) :
    x ∈ m.alarms ∨ ∃ e, m.alarms[row]? = some e ∧ e.enabled = false ∧ x = e.enable now2 := by
  unfold enableRow at hx
  split at hx
  · exact .inl hx
  · next e hrow =>
    split at hx
    · exact .inl hx
    · next hdisabled =>
      rcases IndexedUpdate.mem_modify (P.sort.mem_sort.mp hx) with hx | ⟨y, hy, rfl⟩
      · exact .inl hx
      · obtain rfl := Option.some.inj (hrow.symm.trans hy)
        exact .inr ⟨e, hrow, Bool.not_eq_true _ ▸ hdisabled, rfl⟩

theorem updateCurrentTime_fields (now : QDateTime) (m : MainWindow) :
    (updateCurrentTime P now m).alarms = P.sort.sort m.alarms ∧
      (updateCurrentTime P now m).nextAlarmId = m.nextAlarmId ∧
      (updateCurrentTime P now m).disk = m.disk ∧
      (updateCurrentTime P now m).clock = m.clock ∧
      (m.alarmHandling = m.frame.isSome → (updateCurrentTime P now m).alarmHandling =
        (updateCurrentTime P now m).frame.isSome) := by
  unfold updateCurrentTime
  dsimp only
  split
  · exact ⟨rfl, rfl, rfl, rfl, id⟩
  · split
    · exact ⟨rfl, rfl, rfl, rfl, id⟩
    · exact ⟨rfl, rfl, rfl, rfl, fun _ => rfl⟩

/-- The end of a dialog, field by field. -/
theorem afterExec_fields {frame : DismissFrame} (hframe : m.frame = some frame) (now : QDateTime)
    (capturedPhotoPath : QString) (t : Nat) :
    (afterExec P now capturedPhotoPath { m with clock := t }).alarms =
        P.sort.sort (settleTriggered now frame.triggered m.alarms) ∧
      (afterExec P now capturedPhotoPath { m with clock := t }).nextAlarmId = m.nextAlarmId ∧
      (afterExec P now capturedPhotoPath { m with clock := t }).alarmHandling = false ∧
      (afterExec P now capturedPhotoPath { m with clock := t }).frame = none ∧
      (afterExec P now capturedPhotoPath { m with clock := t }).clock = t := by
  simp only [afterExec, hframe]
  exact ⟨rfl, rfl, trivial, trivial, rfl⟩

theorem inv_updateCurrentTime (h : Inv P m) {now : Nat} (hclock : m.clock ≤ now) :
    Inv P (updateCurrentTime P (currentDateTime now) { m with clock := now }) := by
  obtain ⟨halarms, hnext, hdisk, hclock', hhandling⟩ :=
    updateCurrentTime_fields (P := P) (currentDateTime now) { m with clock := now }
  refine inv_of_perm h ?_ ?_ hnext (by rw [hdisk]) (by rw [hdisk]) (hhandling h.handling)
  · rw [hclock']
    exact hclock
  · rw [halarms]
    exact P.sort.perm _

theorem inv_afterExec (h : Inv P m) {now : QDateTime} (hnow : now.InCommonEra)
    (capturedPhotoPath : QString) : Inv P (afterExec P now capturedPhotoPath m) := by
  unfold afterExec
  split
  · exact h
  · next frame _ =>
    have hlogged :
        Inv P (writeDismissRecord P frame.triggered now.toSecondText capturedPhotoPath m) :=
      inv_of_perm h (Nat.le_refl _) (List.Perm.refl _) rfl rfl rfl h.handling
    have hwritten := inv_of_write hlogged
      (h.entries.settleTriggered hnow frame.triggered)
    exact inv_of_perm hwritten (Nat.le_refl _) (List.Perm.refl _) rfl rfl rfl rfl

theorem inv_appendAlarm (h : Inv P m) {r : AlarmDialog.Accepted} (hr : r.Ok)
    (happend : appendAlarm P r m = some m') : Inv P m' := by
  obtain ⟨next, hnext, rfl⟩ := Option.map_eq_some_iff.mp happend
  obtain ⟨hroom, rfl⟩ := succInt_eq_some.mp hnext
  have hrange : 1 ≤ m.nextAlarmId + 1 ∧ m.nextAlarmId + 1 ≤ 2147483647 := by
    have := h.range
    omega
  have hl := h.entries.append_created h.range hr
  have hsorted := (P.sort.perm (P.sort.sort (m.alarms ++
    [AlarmEntry.created P.home m.nextAlarmId r]))).trans (P.sort.perm _)
  have hpos : 0 < m.nextAlarmId + 1 := by omega
  exact ⟨hl.perm hsorted, hrange, readCounter_decimal hpos 1,
    ⟨_, .inl rfl, hl, Matches.of_perm hsorted.symm⟩, h.handling⟩

theorem inv_afterCreate (h : Inv P m) {c : Creation} (hclock : m.clock ≤ c.now)
    (hroom : m.nextAlarmId < 2147483647) : Inv P (afterCreate P c m) := by
  have hlater : Inv P { m with clock := c.now } :=
    inv_of_perm h hclock (List.Perm.refl _) rfl rfl rfl h.handling
  exact inv_appendAlarm hlater (accepted_ok P.home c)
    (congrArg (Option.map _) (succInt_eq_some.mpr ⟨hroom, rfl⟩))

theorem readCounter_between (h : Inv P m) :
    readCounter (diskBetween m).alarmCounter 1 = m.nextAlarmId + 1 :=
  readCounter_decimal (by have := h.range; omega) 1

theorem savedDisk_between (h : Inv P m) (hroom : m.nextAlarmId < 2147483647) :
    SavedDisk P (diskBetween m) := by
  obtain ⟨saved, hfile, hsaved, -⟩ := h.saved
  refine ⟨saved, hfile, ?_, ?_⟩
  · rw [readCounter_between h]
    exact hsaved.mono (by omega)
  · rw [readCounter_between h]
    have := h.range
    omega

theorem inv_launch {disk : Disk} (h : SavedDisk P disk) {now : Nat}
    (hlaunch : launch P disk now = some m') : Inv P m' := by
  obtain ⟨m'', hm'', hinv⟩ := launch_inv h now
  rw [hm''] at hlaunch
  exact Option.some.inj hlaunch ▸ hinv

/-- What a restart lists are the current entries, normalised. -/
theorem mem_launch (h : Inv P m) {disk : Disk} (hfile : disk.alarmsSave = m.disk.alarmsSave)
    (hcounter : m.nextAlarmId ≤ readCounter disk.alarmCounter 1) {now : Nat}
    (hclock : m.clock ≤ now) (hlaunch : launch P disk now = some m') {x : AlarmEntry}
    (hx : x ∈ m'.alarms) : ∃ e ∈ m.alarms, x = e.normalise (currentDateTime now) := by
  obtain ⟨saved, hholds, hsaved, hmatches⟩ := h.saved
  obtain ⟨alarms, halarms, -, hspec⟩ := launch_spec (hfile ▸ hholds) (hsaved.mono hcounter) now
  obtain rfl := Option.some.inj (hspec.symm.trans hlaunch)
  exact hmatches.exists_current hclock (halarms.mem_iff.mp hx)

theorem inv_of_row (h : Inv P m) {l : List AlarmEntry} (hrow : RowTo P m l m')
    (hl : Entries P.home m.nextAlarmId l) : Inv P m' := by
  cases hrow with
  | idle => exact h
  | written => exact inv_of_write h hl

/-- **Every step keeps the invariant.** -/
theorem inv_step {ev : Event} (h : Inv P m) (hstep : step P m ev = some m') : Inv P m' := by
  have hlater : ∀ now, m.clock ≤ now → Inv P { m with clock := now } := fun now hclock =>
    inv_of_perm h hclock (List.Perm.refl _) rfl rfl rfl h.handling
  cases step_cases hstep with
  | tick now hclock => exact inv_updateCurrentTime h hclock
  | dismiss now photo frame hframe hclock =>
    exact inv_afterExec (hlater now hclock) (inCommonEra_currentDateTime now) photo
  | create c hframe hclock hroom => exact inv_afterCreate h hclock hroom
  | createCut c restartAt m' hframe hclock hrestart hroom hlaunch =>
    exact inv_launch (savedDisk_between h hroom) hlaunch
  | noEdit row opened now presses hframe hclock hrow => exact hlater opened hclock
  | edit row opened now presses e hframe hclock hrow =>
    have hr := editResult_ok (h.entries.ok e (List.mem_of_getElem? hrow)) opened now presses
    have hl := h.entries.modify (f := (·.edited (editResult P opened now presses e)))
      (fun _ => rfl) (fun _ hx => hx.edited hr) row
    exact inv_of_write (hlater now hclock) (hl.perm (P.sort.perm _))
  | delete row hframe =>
    exact inv_of_row h (deleteSelectedAlarm_row row m) (h.entries.eraseIdx row)
  | disable row hframe =>
    apply inv_of_row h (disableRow_row row m)
    exact h.entries.modify AlarmEntry.disable_alarmId (fun _ hx => hx.disable) row
  | enable now row hframe hclock =>
    apply inv_of_row (hlater now hclock) (enableRow_row (currentDateTime now) row _)
    exact h.entries.modify (AlarmEntry.enable_alarmId _)
      (fun _ hx => hx.enable (inCommonEra_currentDateTime now)) row
  | restart now m' hclock hlaunch => exact inv_launch (savedDisk_of_inv h) hlaunch

/-- **Every run keeps the invariant.** -/
theorem inv_run {evs : List Event} (h : Inv P m) (hrun : Machine.run (step P) m evs = some m') :
    Inv P m' :=
  Machine.run_invariant (I := Inv P) (fun _ _ _ hi hs => inv_step hi hs) h hrun

/-! ### The dialog and the logs -/

/-- A start leaves the files alone and opens no dialog. -/
theorem launch_fields {disk : Disk} {now : Nat} (h : launch P disk now = some m) :
    m.disk = disk ∧ m.frame = none := by
  unfold launch loadAlarms at h
  split at h
  · obtain ⟨loaded, -, rfl⟩ := Option.map_eq_some_iff.mp h
    exact ⟨rfl, rfl⟩
  · obtain rfl := Option.some.inj h
    exact ⟨rfl, rfl⟩

/-- A tick opens the dialog on what is due in the sorted list, or leaves it as it was. -/
theorem frame_updateCurrentTime (hhandling : m.alarmHandling = m.frame.isSome) (now : QDateTime) :
    (updateCurrentTime P now m).frame = m.frame ∨
      m.frame = none ∧ (updateCurrentTime P now m).frame =
        some (openDismissDialog now (collectTriggered now (updateCurrentTime P now m).alarms)) := by
  rw [(updateCurrentTime_fields now m).1]
  unfold updateCurrentTime
  dsimp only
  split
  · exact .inl rfl
  · split
    · exact .inl rfl
    · next hnot =>
      refine .inr ⟨?_, rfl⟩
      have hidle : m.alarmHandling = false := Bool.not_eq_true _ ▸ hnot
      simpa using hhandling.symm.trans hidle

/-- The dialog after a step was open before, or has just opened on what is due. -/
theorem frame_step {ev : Event} (h : Inv P m) (hstep : step P m ev = some m')
    {frame : DismissFrame} (hframe' : m'.frame = some frame) :
    m.frame = some frame ∨
      m.frame = none ∧ ∃ now, frame = openDismissDialog now (collectTriggered now m'.alarms) := by
  cases step_cases hstep with
  | tick now hclock =>
    rcases frame_updateCurrentTime (P := P) (m := { m with clock := now }) h.handling
      (currentDateTime now) with hsame | ⟨hnone, hopened⟩
    · exact .inl (hsame.symm.trans hframe')
    · exact .inr ⟨hnone, _, Option.some.inj (hframe'.symm.trans hopened)⟩
  | dismiss now photo frame' hframe hclock =>
    rw [(afterExec_fields hframe _ photo now).2.2.2.1] at hframe'
    cases hframe'
  | create c hframe hclock hroom => exact .inl hframe'
  | createCut c restartAt m' hframe hclock hrestart hroom hlaunch =>
    rw [(launch_fields hlaunch).2] at hframe'
    cases hframe'
  | noEdit row opened now presses hframe hclock hrow => exact .inl hframe'
  | edit row opened now presses e hframe hclock hrow => exact .inl hframe'
  | delete row hframe =>
    left
    rw [← (deleteSelectedAlarm_row row m).fields.1]
    exact hframe'
  | disable row hframe =>
    left
    rw [← (disableRow_row row m).fields.1]
    exact hframe'
  | enable now row hframe hclock =>
    rw [(enableRow_row (currentDateTime now) row _).fields.1] at hframe'
    exact .inl hframe'
  | restart now m' hclock hlaunch =>
    rw [(launch_fields hlaunch).2] at hframe'
    cases hframe'

/-- Only the end of a dialog writes to the logs. -/
theorem appended_step {ev : Event} (hstep : step P m ev = some m') :
    (∃ now photo frame, ev = .dismiss now photo ∧ m.frame = some frame ∧ m'.disk.appended =
      m.disk.appended ++ (P.home ++ "/alarm.txt".toList,
        globalRecords frame.triggered (currentDateTime now).toSecondText photo) ::
          alarmRecords m.alarms frame.triggered (currentDateTime now).toSecondText photo) ∨
    (∀ now photo, ev ≠ .dismiss now photo) ∧ m'.disk.appended = m.disk.appended := by
  cases step_cases hstep with
  | tick now hclock =>
    right
    refine ⟨by simp, ?_⟩
    rw [(updateCurrentTime_fields _ _).2.2.1]
  | dismiss now photo frame hframe hclock =>
    left
    refine ⟨now, photo, frame, rfl, hframe, ?_⟩
    simp only [afterExec, hframe]
    rfl
  | create c hframe hclock hroom => exact .inr ⟨by simp, rfl⟩
  | createCut c restartAt m' hframe hclock hrestart hroom hlaunch =>
    refine .inr ⟨by simp, ?_⟩
    rw [(launch_fields hlaunch).1]
    rfl
  | noEdit row opened now presses hframe hclock hrow => exact .inr ⟨by simp, rfl⟩
  | edit row opened now presses e hframe hclock hrow => exact .inr ⟨by simp, rfl⟩
  | delete row hframe => exact .inr ⟨by simp, (deleteSelectedAlarm_row row m).fields.2.2⟩
  | disable row hframe => exact .inr ⟨by simp, (disableRow_row row m).fields.2.2⟩
  | enable now row hframe hclock =>
    exact .inr ⟨by simp, (enableRow_row (currentDateTime now) row _).fields.2.2⟩
  | restart now m' hclock hlaunch =>
    refine .inr ⟨by simp, ?_⟩
    rw [(launch_fields hlaunch).1]

end MainWindow

/-! ### Where runs start -/

/-- The application starts on files that it wrote before, or on none. -/
def Start (P : Platform) (m : MainWindow) : Prop :=
  ∃ disk now, SavedDisk P disk ∧ MainWindow.launch P disk now = some m

open MainWindow

theorem Start.inv {P : Platform} {m : MainWindow} (h : Start P m) : Inv P m := by
  obtain ⟨disk, now, hdisk, hlaunch⟩ := h
  exact inv_launch hdisk hlaunch

theorem Start.frame_eq_none {P : Platform} {m : MainWindow} (h : Start P m) : m.frame = none := by
  obtain ⟨disk, now, -, hlaunch⟩ := h
  exact (launch_fields hlaunch).2

/-- A fresh installation is a start without files. -/
theorem Start.fresh (P : Platform) (now : Nat) : Start P { clock := now } :=
  ⟨{}, now, ⟨[], .inr ⟨rfl, rfl⟩, .nil, by decide, by decide⟩, rfl⟩

end AlarmClock
