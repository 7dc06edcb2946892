import AlarmClock.Ringing

/-!
# A sort that does what it likes with ties

`std::sort` promises an ordered permutation and nothing about equal date-times, and every
tick inside a dismiss dialog sorts the list anew. What rang is remembered by index all
the same. Here each of these sorts is a choice of its own, and the end of the dialog is
set against the entries that were due when it opened.
-/

namespace AlarmClock

open QDateTime MainWindow

/-! ### The dialog with a choice at every tick -/

/-- What the sort does this time. -/
abbrev SortChoice := KeySort fun e : AlarmEntry => e.dateTime.msecs

/-- A tick inside the dialog. -/
structure NestedTick where
  sort : SortChoice
  now : QDateTime

/-- The ticks that run while `dlg.exec()` waits. -/
def nestedTicks (home : QString) (ticks : List NestedTick) (m : MainWindow) : MainWindow :=
  ticks.foldl (fun m t => updateCurrentTime ⟨home, t.sort⟩ t.now m) m

/-- A whole `updateCurrentTime` that rings: the sort before the entries are collected, the
    ticks inside the dialog, its end with the photo, and the sort after it. -/
structure RingingTick where
  sort : SortChoice
  ticks : List NestedTick
  dismissed : QDateTime
  capturedPhotoPath : QString
  sortAfter : SortChoice

/-- The window when `dlg.exec()` returns. -/
def RingingTick.beforeEnd (c : RingingTick) (home : QString) (now : QDateTime) (m : MainWindow) :
    MainWindow :=
  nestedTicks home c.ticks (updateCurrentTime ⟨home, c.sort⟩ now m)

def RingingTick.run (c : RingingTick) (home : QString) (now : QDateTime) (m : MainWindow) :
    MainWindow :=
  afterExec ⟨home, c.sortAfter⟩ c.dismissed c.capturedPhotoPath (c.beforeEnd home now m)

/-- The end of the dialog sees to the entries that were due when it opened, and to no other:
    one record in the log of each of them, and they are what is disabled or rescheduled. -/
structure SeesToTheDue (home : QString) (now : QDateTime) (m : MainWindow) (c : RingingTick) :
    Prop where
  logged : ∃ globalRecord records,
    (c.run home now m).disk.appended =
      m.disk.appended ++ (home ++ "/alarm.txt".toList, globalRecord) :: records ∧
    (records.map (·.1)).Perm
      ((m.alarms.filter (·.due now)).map fun e => alarmLogPath home e.alarmId)
  settled : (c.run home now m).alarms.Perm
    (m.alarms.map fun e => if e.due now then e.afterDismiss c.dismissed else e)

/-! ### What the dialog leaves as it was -/

variable {home : QString} {now : QDateTime} {m : MainWindow}

/-- The tick that opens the dialog. -/
theorem updateCurrentTime_of_due (sort : SortChoice) (hhandling : m.alarmHandling = false)
    (hdue : ∃ e ∈ m.alarms, e.due now = true) :
    updateCurrentTime ⟨home, sort⟩ now m =
      { m with
        alarms := sort.sort m.alarms
        alarmHandling := true
        frame := some (openDismissDialog now (collectTriggered now (sort.sort m.alarms))) } := by
  obtain ⟨e, he, hdue⟩ := hdue
  obtain ⟨i, hi⟩ := List.mem_iff_getElem?.mp (sort.mem_sort.mpr he)
  have hne : ¬ (collectTriggered now (sort.sort m.alarms)).isEmpty = true := by
    rw [List.isEmpty_iff]
    exact List.ne_nil_of_mem (mem_collectTriggered.mpr ⟨i, e, hi, hdue, rfl⟩)
  refine (if_neg hne).trans ?_
  exact if_neg (by simp [refreshAlarmList, sortAlarmsByTime, hhandling])

/-- A tick inside the dialog sorts the list and does nothing else. -/
theorem updateCurrentTime_of_handling (home : QString) (sort : SortChoice)
    (hhandling : m.alarmHandling = true) (now : QDateTime) :
    updateCurrentTime ⟨home, sort⟩ now m = { m with alarms := sort.sort m.alarms } := by
  unfold updateCurrentTime
  dsimp only
  split
  · rfl
  · exact if_pos hhandling

/-- However the ticks sort, the list stays an ordered permutation of itself. -/
theorem nestedTicks_eq (home : QString) (ticks : List NestedTick)
    (hhandling : m.alarmHandling = true)
    (hsorted : m.alarms.Pairwise fun a b => a.dateTime.msecs ≤ b.dateTime.msecs) :
    ∃ l, l.Perm m.alarms ∧ (l.Pairwise fun a b => a.dateTime.msecs ≤ b.dateTime.msecs) ∧
      nestedTicks home ticks m = { m with alarms := l } := by
  induction ticks generalizing m with
  | nil => exact ⟨m.alarms, List.Perm.refl _, hsorted, rfl⟩
  | cons t ticks ih =>
    have htick := updateCurrentTime_of_handling home t.sort hhandling t.now
    obtain ⟨l, hperm, hl, heq⟩ := ih (m := { m with alarms := t.sort.sort m.alarms }) hhandling
      (t.sort.sorted m.alarms)
    refine ⟨l, hperm.trans (t.sort.perm _), hl, ?_⟩
    show nestedTicks home ticks (updateCurrentTime ⟨home, t.sort⟩ t.now m) = _
    rw [htick, heq]

/-- When `dlg.exec()` returns. -/
theorem beforeEnd_eq (home : QString) (c : RingingTick) (hhandling : m.alarmHandling = false)
    (hdue : ∃ e ∈ m.alarms, e.due now = true) :
    ∃ l, l.Perm m.alarms ∧ (l.Pairwise fun a b => a.dateTime.msecs ≤ b.dateTime.msecs) ∧
      c.beforeEnd home now m =
        { m with
          alarms := l
          alarmHandling := true
          frame := some (openDismissDialog now
            (collectTriggered now (c.sort.sort m.alarms))) } := by
  unfold RingingTick.beforeEnd
  rw [updateCurrentTime_of_due c.sort hhandling hdue]
  obtain ⟨l, hperm, hl, heq⟩ := nestedTicks_eq home c.ticks
    (m := { m with
      alarms := c.sort.sort m.alarms
      alarmHandling := true
      frame := some (openDismissDialog now (collectTriggered now (c.sort.sort m.alarms))) })
    rfl (c.sort.sorted m.alarms)
  exact ⟨l, hperm.trans (c.sort.perm _), hl, heq⟩

/-! ### The end of the dialog -/

/-- The logs that the end of the dialog appends to: those of the entries that now stand at
    the remembered indices. -/
theorem paths_alarmRecords {alarms : List AlarmEntry}
    (hlog : ∀ e ∈ alarms, e.logFile = alarmLogPath home e.alarmId)
    (triggered : List TriggeredInfo) (dismissTime capturedPhotoPath : QString) :
    (alarmRecords alarms triggered dismissTime capturedPhotoPath).map (·.1) =
      ((triggered.map (·.index)).filterMap (fun i => alarms[i]?)).map
        fun e => alarmLogPath home e.alarmId := by
  have hpath : ∀ t ∈ triggered, ∀ e, alarms[t.index]? = some e → ¬ e.logFile.isEmpty := by
    intro t _ e he
    simp [hlog e (List.mem_of_getElem? he), alarmLogPath]
  rw [alarmRecords_of_paths hpath, List.map_filterMap, List.filterMap_map, List.map_filterMap]
  apply List.filterMap_congr
  intro t _
  simp only [Function.comp_apply, Option.map_map]
  apply Option.map_congr
  intro e he
  exact hlog e (List.mem_of_getElem? he)

/-- What the end of the dialog appends and what it leaves in the list, from the list as it
    stands then and the indices remembered from the list as it stood. -/
theorem run_fields (c : RingingTick)
    (hlog : ∀ e ∈ m.alarms, e.logFile = alarmLogPath home e.alarmId) {l : List AlarmEntry}
    (hl : l.Perm m.alarms)
    (hbefore : c.beforeEnd home now m =
      { m with
        alarms := l
        alarmHandling := true
        frame := some (openDismissDialog now (collectTriggered now (c.sort.sort m.alarms))) }) :
    (∃ globalRecord records,
      (c.run home now m).disk.appended =
        m.disk.appended ++ (home ++ "/alarm.txt".toList, globalRecord) :: records ∧
      records.map (·.1) = ((IndexedUpdate.marked (·.due now) 0 (c.sort.sort m.alarms)).filterMap
        (fun i => l[i]?)).map fun e => alarmLogPath home e.alarmId) ∧
    (c.run home now m).alarms.Perm
      ((IndexedUpdate.marked (·.due now) 0 (c.sort.sort m.alarms)).foldl
        (fun l i => l.modify i (·.afterDismiss c.dismissed)) l) := by
  have hlog' : ∀ e ∈ l, e.logFile = alarmLogPath home e.alarmId :=
    fun e he => hlog e (hl.mem_iff.mp he)
  rw [← index_collectTriggered]
  constructor
  · refine ⟨globalRecords (collectTriggered now (c.sort.sort m.alarms)) c.dismissed.toSecondText
      c.capturedPhotoPath, _, ?_,
      paths_alarmRecords hlog' _ c.dismissed.toSecondText c.capturedPhotoPath⟩
    unfold RingingTick.run
    rw [hbefore]
    rfl
  · rw [← settleTriggered_eq]
    unfold RingingTick.run
    rw [hbefore]
    exact c.sortAfter.perm _

/-! ### When nothing can go wrong -/

/-- An entry that is due shares its date-time with enabled entries only. -/
def NoMixedTie (now : QDateTime) (l : List AlarmEntry) : Prop :=
  ∀ a ∈ l, ∀ b ∈ l, a.due now = true → b.dateTime.msecs = a.dateTime.msecs → b.enabled = true

instance (now : QDateTime) (l : List AlarmEntry) : Decidable (NoMixedTie now l) := by
  unfold NoMixedTie; infer_instance

/-- Without mixed ties entries of one date-time are due together. -/
theorem NoMixedTie.due_eq {l : List AlarmEntry} (htie : NoMixedTie now l) {a b : AlarmEntry}
    (ha : a ∈ l) (hb : b ∈ l) (hkey : a.dateTime.msecs = b.dateTime.msecs) :
    a.due now = b.due now := by
  have hdue : ∀ a ∈ l, ∀ b ∈ l, a.dateTime.msecs = b.dateTime.msecs → a.due now = true →
      b.due now = true := by
    intro a ha b hb heq hdue
    have hle := (AlarmEntry.due_iff.mp hdue).2
    rw [le_def] at hle
    refine AlarmEntry.due_iff.mpr ⟨htie a ha b hb hdue heq.symm, ?_⟩
    rw [le_def, ← heq]
    exact hle
  exact Bool.eq_iff_iff.mpr ⟨hdue a ha b hb hkey, hdue b hb a ha hkey.symm⟩

/-- Any two ordered permutations then have due entries at the same indices. -/
theorem map_due_eq {l l₀ l₁ : List AlarmEntry} (htie : NoMixedTie now l) (h₀ : l₀.Perm l)
    (h₁ : l₁.Perm l) (hs₀ : l₀.Pairwise fun a b => a.dateTime.msecs ≤ b.dateTime.msecs)
    (hs₁ : l₁.Pairwise fun a b => a.dateTime.msecs ≤ b.dateTime.msecs) :
    l₀.map (·.due now) = l₁.map (·.due now) := by
  have hkeys : l₀.map (fun e => e.dateTime.msecs) = l₁.map fun e => e.dateTime.msecs :=
    KeySort.map_key_eq_of_perm (h₀.trans h₁.symm) hs₀ hs₁
  apply List.ext_getElem?
  intro i
  have hkey := congrArg (fun ks => ks[i]?) hkeys
  simp only [List.getElem?_map] at hkey ⊢
  cases hi₀ : l₀[i]? with
  | none =>
    rw [hi₀] at hkey
    rw [Option.map_eq_none_iff.mp hkey.symm]
  | some a =>
    rw [hi₀] at hkey
    obtain ⟨b, hi₁, hb⟩ := Option.map_eq_some_iff.mp hkey.symm
    rw [hi₁]
    have ha := h₀.mem_iff.mp (List.mem_of_getElem? hi₀)
    have hb' := h₁.mem_iff.mp (List.mem_of_getElem? hi₁)
    exact congrArg some (htie.due_eq ha hb' hb.symm)

theorem seesToTheDue_of_noMixedTie (c : RingingTick) (hhandling : m.alarmHandling = false)
    (hdue : ∃ e ∈ m.alarms, e.due now = true)
    (hlog : ∀ e ∈ m.alarms, e.logFile = alarmLogPath home e.alarmId)
    (htie : NoMixedTie now m.alarms) : SeesToTheDue home now m c := by
  obtain ⟨l, hl, hsorted, hbefore⟩ := beforeEnd_eq home c hhandling hdue
  obtain ⟨⟨globalRecord, records, happended, hpaths⟩, halarms⟩ :=
    run_fields c hlog hl hbefore
  have hmarked : IndexedUpdate.marked (·.due now) 0 (c.sort.sort m.alarms) =
      IndexedUpdate.marked (·.due now) 0 l :=
    IndexedUpdate.marked_congr
      (map_due_eq htie (c.sort.perm _) hl (c.sort.sorted _) hsorted) 0
  refine ⟨⟨globalRecord, records, happended, ?_⟩, ?_⟩
  · rw [hpaths, hmarked, IndexedUpdate.filterMap_marked]
    exact (hl.filter _).map _
  · rw [hmarked, IndexedUpdate.foldl_modify_marked] at halarms
    exact halarms.trans (hl.map _)

/-! ### When something can -/

/-- Enabled entries first. -/
def enabledFirst : SortChoice := KeySort.byTies _ fun e => !e.enabled

/-- Disabled entries first. -/
def disabledFirst : SortChoice := KeySort.byTies _ fun e => e.enabled

/-- The list is collected with enabled entries first, and sorted once inside the dialog with
    disabled entries first. -/
def swapTies (dismissed : QDateTime) : RingingTick where
  sort := enabledFirst
  ticks := [⟨disabledFirst, dismissed⟩]
  dismissed := dismissed
  capturedPhotoPath := []
  sortAfter := disabledFirst

theorem not_seesToTheDue_of_mixedTie (dismissed : QDateTime) (hhandling : m.alarmHandling = false)
    (hids : (m.alarms.map (·.alarmId)).Nodup)
    (hlog : ∀ e ∈ m.alarms, e.logFile = alarmLogPath home e.alarmId) {a b : AlarmEntry}
    (ha : a ∈ m.alarms) (hb : b ∈ m.alarms) (hdue : a.due now = true)
    (htie : b.dateTime.msecs = a.dateTime.msecs) (hdisabled : b.enabled = false) :
    ¬ SeesToTheDue home now m (swapTies dismissed) := by
  obtain ⟨henabled, hle⟩ := AlarmEntry.due_iff.mp hdue
  -- the first entry of the tie, in the two orders
  obtain ⟨x, hx, hxkey, hxtie⟩ := KeySort.getElem?_byTies
    (fun e : AlarmEntry => e.dateTime.msecs) (fun e => !e.enabled) ha
    (fun e _ _ => by simp [henabled])
  have hb' : b ∈ enabledFirst.sort m.alarms := enabledFirst.mem_sort.mpr hb
  obtain ⟨y, hy, -, hytie⟩ := KeySort.getElem?_byTies
    (fun e : AlarmEntry => e.dateTime.msecs) (fun e => e.enabled) hb'
    (fun e _ _ => by simp [hdisabled])
  rw [(enabledFirst.perm m.alarms).countP_eq, htie] at hy
  obtain ⟨l, hl⟩ : ∃ l, l = disabledFirst.sort (enabledFirst.sort m.alarms) := ⟨_, rfl⟩
  have hperm : l.Perm m.alarms := hl ▸ (disabledFirst.perm _).trans (enabledFirst.perm _)
  have hbefore : (swapTies dismissed).beforeEnd home now m =
      { m with
        alarms := l
        alarmHandling := true
        frame := some (openDismissDialog now
          (collectTriggered now (enabledFirst.sort m.alarms))) } := by
    unfold RingingTick.beforeEnd
    rw [updateCurrentTime_of_due _ hhandling ⟨a, ha, hdue⟩, hl]
    exact updateCurrentTime_of_handling _ disabledFirst rfl dismissed
  obtain ⟨⟨globalRecord, records, happended, hpaths⟩, -⟩ := run_fields _ hlog hperm hbefore
  rintro ⟨⟨globalRecord', records', happended', hpaths'⟩, -⟩
  -- the index of the first entry of the tie is remembered, and a disabled entry stands there
  have hxdue : x.due now = true := by
    refine AlarmEntry.due_iff.mpr ⟨by simpa [henabled] using hxtie, ?_⟩
    rw [le_def, hxkey]
    exact hle
  have hmarked := IndexedUpdate.mem_marked_of_getElem? hx hxdue
  have hmem : alarmLogPath home y.alarmId ∈ records.map (·.1) := by
    rw [hpaths]
    exact List.mem_map_of_mem (List.mem_filterMap.mpr ⟨_, hmarked, hl ▸ hy⟩)
  have hsame : records = records' := by
    have happend := List.append_cancel_left (happended.symm.trans happended')
    exact (List.cons.inj happend).2
  rw [hsame] at hmem
  obtain ⟨e, he, hpath⟩ := List.mem_map.mp (hpaths'.mem_iff.mp hmem)
  obtain ⟨he, hedue⟩ := List.mem_filter.mp he
  have hy' : y ∈ m.alarms := hperm.mem_iff.mp (hl ▸ List.mem_of_getElem? hy)
  obtain rfl : e = y := List.inj_on_of_nodup_map hids he hy' (alarmLogPath_injective home hpath)
  have hyenabled := (AlarmEntry.due_iff.mp hedue).1
  rw [hytie, hdisabled] at hyenabled
  cases hyenabled

/-! ### The condition -/

/-- **The alarms updated are the ones that rang**, for every choice of the sorts around and
    inside the dialog, exactly when no due entry shares its date-time with a disabled one. -/
theorem seesToTheDue_iff {home : QString} {now : QDateTime} {m : MainWindow}
    (hhandling : m.alarmHandling = false) (hids : (m.alarms.map (·.alarmId)).Nodup)
    (hlog : ∀ e ∈ m.alarms, e.logFile = alarmLogPath home e.alarmId) :
    (∀ c, (∃ e ∈ m.alarms, e.due now = true) → SeesToTheDue home now m c) ↔
      NoMixedTie now m.alarms := by
  constructor
  · intro hall a ha b hb hdue htie
    by_contra hdisabled
    exact not_seesToTheDue_of_mixedTie now hhandling hids hlog ha hb hdue htie
      (by simpa using hdisabled) (hall (swapTies now) ⟨a, ha, hdue⟩)
  · intro htie c hdue
    exact seesToTheDue_of_noMixedTie c hhandling hdue hlog htie

/-- Two alarms at the same minute. -/
def twoAtOnce (secondEnabled : Bool) : MainWindow where
  alarms := [1, 2].map fun id : Int =>
    { alarmId := id
      dateTime := ⟨1784903400000, true⟩
      enabled := id == 1 || secondEnabled
      soundFile := []
      dismissMode := DismissMode.DismissSimple.toInt
      gameType := 0
      repeatMask := 0
      useSpecificDate := false
      logFile := alarmLogPath "/root".toList id }

/-- Both enabled, both are seen to, though the sorts swap them. -/
theorem seesToTheDue_iff_twoEnabled :
    SeesToTheDue "/root".toList ⟨1784903400000, true⟩ (twoAtOnce true)
      (swapTies ⟨1784903425000, true⟩) := by
  have hall : ∀ c, (∃ e ∈ (twoAtOnce true).alarms, e.due ⟨1784903400000, true⟩ = true) →
      SeesToTheDue "/root".toList ⟨1784903400000, true⟩ (twoAtOnce true) c :=
    (seesToTheDue_iff rfl (by decide) (by decide)).mpr (by decide)
  exact hall _ (by decide)

/-- The second one disabled, only the first rings; but it is the second that is disabled
    then, and the first would ring again. -/
theorem not_seesToTheDue_twoAtOnce :
    ¬ SeesToTheDue "/root".toList ⟨1784903400000, true⟩ (twoAtOnce false)
      (swapTies ⟨1784903425000, true⟩) := by
  intro h
  have hsettled := h.settled
  revert hsettled
  decide +kernel

end AlarmClock
