import AlarmClock.Invariant
import AlarmClock.Lib.Agenda

/-!
# No alarm is lost and none rings twice

The window remembers what rings by list index, while the ticks inside the dialog sort
that list again and again. With a stable sort it does what an `Agenda` does, which has
neither indices nor an order: each step of the window is a step of the agenda of its
entries. What holds of every agenda then holds of every run of the window.
-/

namespace AlarmClock

open QDateTime

/-! ### The remembered indices -/

theorem index_collectTriggered (now : QDateTime) (alarms : List AlarmEntry) :
    (collectTriggered now alarms).map (·.index) =
      IndexedUpdate.marked (fun e => e.due now) 0 alarms := by
  unfold collectTriggered IndexedUpdate.marked
  rw [List.map_filterMap]
  congr 1
  funext x
  dsimp only
  split <;> rfl

theorem mem_collectTriggered {now : QDateTime} {alarms : List AlarmEntry} {t : TriggeredInfo} :
    t ∈ collectTriggered now alarms ↔
      ∃ i e, alarms[i]? = some e ∧ e.due now = true ∧ t = triggeredInfo i e := by
  simp only [collectTriggered, List.mem_filterMap, List.mem_zipIdx_iff_getElem?]
  constructor
  · rintro ⟨⟨e, i⟩, he, ht⟩
    split at ht
    · next hdue =>
      exact ⟨i, e, he, hdue, (Option.some.inj ht).symm⟩
    · cases ht
  · rintro ⟨i, e, he, hdue, rfl⟩
    exact ⟨(e, i), he, if_pos hdue⟩

/-- Settling at the remembered indices is settling what was due. -/
theorem settleTriggered_collectTriggered (now postDismissNow : QDateTime)
    (alarms : List AlarmEntry) :
    settleTriggered postDismissNow (collectTriggered now alarms) alarms =
      alarms.map fun e => if e.due now then e.afterDismiss postDismissNow else e := by
  rw [settleTriggered_eq, index_collectTriggered]
  exact IndexedUpdate.foldl_modify_marked _ _ alarms

/-- Settling at the indices that were remembered from another list. -/
theorem settleTriggered_of_length (now postDismissNow : QDateTime) {stood alarms : List AlarmEntry}
    (h : stood.length = alarms.length) :
    settleTriggered postDismissNow (collectTriggered now stood) alarms =
      List.zipWith (fun e' e => if e'.due now then e.afterDismiss postDismissNow else e) stood
        alarms := by
  rw [settleTriggered_eq, index_collectTriggered]
  exact IndexedUpdate.foldl_modify_marked_zipWith _ _ h

/-- The frame holds one record for each entry of the list that was due when it began to
    ring, and nothing else. -/
def RungExactly (frame : DismissFrame) (alarms : List AlarmEntry) : Prop :=
  (∀ t, t ∈ frame.triggered ↔
    ∃ i e, alarms[i]? = some e ∧ e.due frame.now = true ∧ t = triggeredInfo i e) ∧
  (frame.triggered.map (·.index)).Nodup

theorem rungExactly_collectTriggered (now : QDateTime) (alarms : List AlarmEntry) :
    RungExactly (openDismissDialog now (collectTriggered now alarms)) alarms := by
  refine ⟨fun t => mem_collectTriggered, ?_⟩
  show ((collectTriggered now alarms).map (·.index)).Nodup
  rw [index_collectTriggered]
  exact IndexedUpdate.nodup_marked _ _ _

namespace MainWindow

variable {home : QString} {m m' : MainWindow}

/-! ### The invariant of ringing -/

/-- While a dialog is open the list is in order, so that further ticks leave it alone, and
    the remembered indices still point at what was due. -/
structure FrameInv (m : MainWindow) : Prop where
  handling : m.alarmHandling = m.frame.isSome
  ringing : ∀ frame, m.frame = some frame →
    (m.alarms.Pairwise fun a b => a.dateTime.msecs ≤ b.dateTime.msecs) ∧
    ∃ t : Nat, t ≤ m.clock ∧ frame =
      openDismissDialog (currentDateTime t) (collectTriggered (currentDateTime t) m.alarms)

structure RingInv (m : MainWindow) : Prop extends FrameInv m where
  masks : ∀ e ∈ m.alarms, 0 ≤ e.repeatMask ∧ e.repeatMask ≤ 127

/-- The steps of a run without restarts. -/
def Ordinary : Event → Prop
  | .createCut _ _ => False
  | .restart _ => False
  | _ => True

/-- A tick is quiet, or it rings, or it is nested in a dialog and changes nothing. -/
theorem tick_cases (home : QString) (h : FrameInv m) (now : Nat) :
    (m.frame = none ∧ (∀ e ∈ m.alarms, e.due (currentDateTime now) = false) ∧
      updateCurrentTime (Platform.stable home) (currentDateTime now) { m with clock := now } =
        { m with clock := now, alarms := (Platform.stable home).sort.sort m.alarms }) ∨
    (m.frame = none ∧ (∃ e ∈ m.alarms, e.due (currentDateTime now) = true) ∧
      updateCurrentTime (Platform.stable home) (currentDateTime now) { m with clock := now } =
        { m with
          clock := now
          alarms := (Platform.stable home).sort.sort m.alarms
          alarmHandling := true
          frame := some (openDismissDialog (currentDateTime now) (collectTriggered
            (currentDateTime now) ((Platform.stable home).sort.sort m.alarms))) }) ∨
    (∃ frame, m.frame = some frame ∧
      updateCurrentTime (Platform.stable home) (currentDateTime now) { m with clock := now } =
        { m with clock := now }) := by
  have hempty : (collectTriggered (currentDateTime now)
      ((Platform.stable home).sort.sort m.alarms)).isEmpty = true ↔
      ∀ e ∈ m.alarms, e.due (currentDateTime now) = false := by
    rw [List.isEmpty_iff, List.eq_nil_iff_forall_not_mem]
    constructor
    · intro hnone e he
      by_contra hdue
      obtain ⟨i, hi⟩ := List.mem_iff_getElem?.mp ((Platform.stable home).sort.mem_sort.mpr he)
      exact hnone _ (mem_collectTriggered.mpr ⟨i, e, hi, by simpa using hdue, rfl⟩)
    · intro hnone t ht
      obtain ⟨i, e, hi, hdue, -⟩ := mem_collectTriggered.mp ht
      have he := (Platform.stable home).sort.mem_sort.mp (List.mem_of_getElem? hi)
      rw [hnone e he] at hdue
      cases hdue
  rcases Option.eq_none_or_eq_some m.frame with hframe | ⟨frame, hframe⟩
  · have hhandling : m.alarmHandling = false := by rw [h.handling, hframe]; rfl
    by_cases hdue : ∀ e ∈ m.alarms, e.due (currentDateTime now) = false
    · left
      exact ⟨hframe, hdue, if_pos (hempty.mpr hdue)⟩
    · right
      left
      refine ⟨hframe, by simpa using hdue, ?_⟩
      refine (if_neg fun hnil => hdue (hempty.mp hnil)).trans ?_
      exact if_neg (by simp [refreshAlarmList, sortAlarmsByTime, hhandling])
  · right
    right
    refine ⟨frame, hframe, ?_⟩
    have hsorted : (Platform.stable home).sort.sort m.alarms = m.alarms :=
      KeySort.stable_sort_of_sorted (h.ringing frame hframe).1
    have hhandling : m.alarmHandling = true := by rw [h.handling, hframe]; rfl
    have hrefresh : refreshAlarmList (Platform.stable home) { m with clock := now } =
        { m with clock := now } := by
      simp only [refreshAlarmList, sortAlarmsByTime, hsorted]
    simp only [updateCurrentTime, hrefresh]
    by_cases hnil : (collectTriggered (currentDateTime now) m.alarms).isEmpty = true
    · exact if_pos hnil
    · exact (if_neg hnil).trans (if_pos hhandling)

/-! ### The window is an agenda -/

/-- Alarms as agenda entries; times are clock readings. -/
def policy : Agenda.Policy AlarmEntry Nat where
  due now e := e.due (currentDateTime now)
  settle now e := e.afterDismiss (currentDateTime now)

def agenda (m : MainWindow) : Agenda.State AlarmEntry Nat where
  entries := m.alarms
  ringing := m.frame.map fun frame => frame.now.msecs.toNat
  clock := m.clock

/-- What an event does to the agenda: the entry of the row that it names is replaced. -/
def label (P : Platform) (m : MainWindow) : Event → Agenda.Label AlarmEntry
  | .dismiss _ _ => .dismiss
  | .create c => .write 0 {entryOf P c m}
  | .edit row opened now presses =>
    m.alarms[row]?.elim (.write 0 0) fun e =>
      .write {e} {e.edited (editResult P opened now presses e)}
  | .delete row => m.alarms[row]?.elim (.write 0 0) fun e => .write {e} 0
  | .disable row => m.alarms[row]?.elim (.write 0 0) fun e => .write {e} {e.disable}
  | .enable now row =>
    m.alarms[row]?.elim (.write 0 0) fun e =>
      if e.enabled then .write 0 0 else .write {e} {e.enable (currentDateTime now)}
  | _ => .tick

/-- The user's operation on a row. -/
def NamesRow (row : Nat) : Event → Prop
  | .edit r _ _ _ => r = row
  | .delete r => r = row
  | .disable r => r = row
  | .enable _ r => r = row
  | _ => False

/-- The labels, one for each kind of event; a row that is not listed is left alone. -/
inductive LabelOf (P : Platform) (m : MainWindow) : Event → Agenda.Label AlarmEntry → Prop where
  | tick (ev : Event) : LabelOf P m ev .tick
  | dismiss (now : Nat) (photo : QString) : LabelOf P m (.dismiss now photo) .dismiss
  | create (c : Creation) : LabelOf P m (.create c) (.write 0 {entryOf P c m})
  | idle (ev : Event) : LabelOf P m ev (.write 0 0)
  | edit (row opened now : Nat) (presses : List AlarmDialog.Press) (e : AlarmEntry)
      (hrow : m.alarms[row]? = some e) :
      LabelOf P m (.edit row opened now presses)
        (.write {e} {e.edited (editResult P opened now presses e)})
  | delete (row : Nat) (e : AlarmEntry) (hrow : m.alarms[row]? = some e) :
      LabelOf P m (.delete row) (.write {e} 0)
  | disable (row : Nat) (e : AlarmEntry) (hrow : m.alarms[row]? = some e) :
      LabelOf P m (.disable row) (.write {e} {e.disable})
  | enable (now row : Nat) (e : AlarmEntry) (hrow : m.alarms[row]? = some e) :
      LabelOf P m (.enable now row) (.write {e} {e.enable (currentDateTime now)})

theorem label_cases (P : Platform) (m : MainWindow) (ev : Event) :
    LabelOf P m ev (label P m ev) := by
  cases ev with
  | tick now => exact .tick _
  | dismiss now photo => exact .dismiss now photo
  | create c => exact .create c
  | createCut c restartAt => exact .tick _
  | restart now => exact .tick _
  | edit row opened now presses =>
    rcases Option.eq_none_or_eq_some m.alarms[row]? with hrow | ⟨e, hrow⟩
    · simp only [label, hrow, Option.elim_none]
      exact .idle _
    · simp only [label, hrow, Option.elim_some]
      exact .edit row opened now presses e hrow
  | delete row =>
    rcases Option.eq_none_or_eq_some m.alarms[row]? with hrow | ⟨e, hrow⟩
    · simp only [label, hrow, Option.elim_none]
      exact .idle _
    · simp only [label, hrow, Option.elim_some]
      exact .delete row e hrow
  | disable row =>
    rcases Option.eq_none_or_eq_some m.alarms[row]? with hrow | ⟨e, hrow⟩
    · simp only [label, hrow, Option.elim_none]
      exact .idle _
    · simp only [label, hrow, Option.elim_some]
      exact .disable row e hrow
  | enable now row =>
    rcases Option.eq_none_or_eq_some m.alarms[row]? with hrow | ⟨e, hrow⟩
    · simp only [label, hrow, Option.elim_none]
      exact .idle _
    · simp only [label, hrow, Option.elim_some]
      split
      · exact .idle _
      · exact .enable now row e hrow

theorem ringing_agenda {t : Nat} {frame : DismissFrame} (hframe : m.frame = some frame)
    (hnow : frame.now = currentDateTime t) : (agenda m).ringing = some t := by
  simp only [agenda, hframe, Option.map_some, hnow, currentDateTime_msecs, Int.toNat_natCast]

/-- A write to a window without a dialog, on lists that agree up to their order. -/
theorem agenda_write (hframe : m.frame = none) (hframe' : m'.frame = m.frame)
    (hclock : m.clock ≤ m'.clock) (rest removed added : List AlarmEntry)
    (hbefore : m.alarms.Perm (rest ++ removed)) (hafter : m'.alarms.Perm (rest ++ added)) :
    Agenda.Step policy (agenda m) (.write removed added) (agenda m') := by
  have hsplit : (agenda m).entries = (rest : Multiset AlarmEntry) + removed := by
    rw [Multiset.coe_add]
    exact Multiset.coe_eq_coe.mpr hbefore
  have hresult : agenda m' =
      { entries := (rest : Multiset AlarmEntry) + added, ringing := none, clock := m'.clock } := by
    rw [Multiset.coe_add]
    unfold agenda
    rw [hframe', hframe, Multiset.coe_eq_coe.mpr hafter]
    rfl
  have hidle : (agenda m).ringing = none := by
    unfold agenda
    rw [hframe]
    rfl
  rw [hresult]
  exact .write hclock hidle hsplit

/-- A write that replaces the entry of a row. -/
theorem agenda_replace (hframe : m.frame = none) (hframe' : m'.frame = m.frame)
    (hclock : m.clock ≤ m'.clock) {row : Nat} {e : AlarmEntry} (hrow : m.alarms[row]? = some e)
    {f : AlarmEntry → AlarmEntry} (hafter : m'.alarms.Perm (m.alarms.modify row f)) :
    Agenda.Step policy (agenda m) (.write {e} {f e}) (agenda m') := by
  have hbefore := IndexedUpdate.perm_cons_eraseIdx hrow
  have hmodified := hafter.trans (IndexedUpdate.modify_perm_cons_eraseIdx (f := f) hrow)
  exact agenda_write hframe hframe' hclock (m.alarms.eraseIdx row) [e] [f e]
    (hbefore.trans (List.perm_append_singleton e _).symm)
    (hmodified.trans (List.perm_append_singleton (f e) _).symm)

/-- A write that changes nothing. -/
theorem agenda_idle (hframe : m.frame = none) (hframe' : m'.frame = m.frame)
    (hclock : m.clock ≤ m'.clock) (hafter : m'.alarms = m.alarms) :
    Agenda.Step policy (agenda m) (.write 0 0) (agenda m') :=
  agenda_write hframe hframe' hclock m.alarms [] [] (by simp) (by simp [hafter])

theorem sort_perm (home : QString) (l : List AlarmEntry) :
    ((Platform.stable home).sort.sort l).Perm l :=
  (Platform.stable home).sort.perm l

/-- A tick is quiet, or it rings, or it is nested. -/
theorem agenda_tick (h : RingInv m) {now : Nat} (hclock : m.clock ≤ now) :
    Agenda.Step policy (agenda m) .tick
      (agenda (updateCurrentTime (Platform.stable home) (currentDateTime now)
        { m with clock := now })) := by
  have hsort : ((Platform.stable home).sort.sort m.alarms : Multiset AlarmEntry) = m.alarms :=
    Multiset.coe_eq_coe.mpr (sort_perm home m.alarms)
  rcases tick_cases home h.toFrameInv now with ⟨hframe, hnone, heq⟩ | ⟨hframe, hsome, heq⟩ |
    ⟨frame, hframe, heq⟩
  · have hquiet : agenda { m with
        clock := now, alarms := (Platform.stable home).sort.sort m.alarms } =
        { agenda m with clock := now } := by
      simp only [agenda, hsort]
    rw [heq, hquiet]
    exact .quiet hclock (by simp only [agenda, hframe, Option.map_none]) hnone
  · have hrings : agenda { m with
        clock := now
        alarms := (Platform.stable home).sort.sort m.alarms
        alarmHandling := true
        frame := some (openDismissDialog (currentDateTime now) (collectTriggered
          (currentDateTime now) ((Platform.stable home).sort.sort m.alarms))) } =
        { agenda m with clock := now, ringing := some now } := by
      simp only [agenda, hsort, Option.map_some, openDismissDialog, currentDateTime_msecs,
        Int.toNat_natCast]
    rw [heq, hrings]
    exact .rings hclock (by simp only [agenda, hframe, Option.map_none]) hsome
  · obtain ⟨-, t, ht, hopened⟩ := h.ringing frame hframe
    rw [heq]
    exact .nested hclock (ringing_agenda hframe (by rw [hopened]; rfl))

/-- The end of the dialog settles what was due when it opened. -/
theorem agenda_dismiss (h : RingInv m) {frame : DismissFrame} (hframe : m.frame = some frame)
    {now : Nat} (hclock : m.clock ≤ now) (photo : QString) :
    Agenda.Step policy (agenda m) .dismiss
      (agenda (afterExec (Platform.stable home) (currentDateTime now) photo
        { m with clock := now })) := by
  obtain ⟨-, t, ht, hopened⟩ := h.ringing frame hframe
  obtain ⟨halarms, -, -, hframe', hclock'⟩ :=
    afterExec_fields (P := Platform.stable home) hframe (currentDateTime now) photo now
  have hsettled : settleTriggered (currentDateTime now) frame.triggered m.alarms =
      m.alarms.map fun e => if e.due (currentDateTime t) then
        e.afterDismiss (currentDateTime now) else e := by
    rw [hopened]
    exact settleTriggered_collectTriggered _ _ _
  have hresult : agenda (afterExec (Platform.stable home) (currentDateTime now) photo
      { m with clock := now }) =
      { entries := (m.alarms : Multiset AlarmEntry).map fun e =>
          if policy.due t e then policy.settle now e else e
        ringing := none
        clock := now } := by
    unfold agenda
    rw [halarms, hframe', hclock', hsettled, Multiset.map_coe,
      Multiset.coe_eq_coe.mpr (sort_perm home _)]
    rfl
  rw [hresult]
  exact .dismiss hclock (ringing_agenda hframe (by rw [hopened]; rfl))

/-- **The window is an agenda.** Each of its steps is a step of the agenda of its entries. -/
theorem step_agenda (h : RingInv m) {ev : Event} (hord : Ordinary ev)
    (hstep : step (Platform.stable home) m ev = some m') :
    Agenda.Step policy (agenda m) (label (Platform.stable home) m ev) (agenda m') := by
  cases step_cases hstep with
  | tick now hclock => exact agenda_tick h hclock
  | dismiss now photo frame hframe hclock => exact agenda_dismiss h hframe hclock photo
  | create c hframe hclock hroom =>
    refine agenda_write hframe ?_ ?_ m.alarms [] [entryOf (Platform.stable home) c m] (by simp) ?_
    · rfl
    · exact hclock
    · exact (sort_perm home _).trans (sort_perm home _)
  | createCut c restartAt m' hframe hclock hrestart hroom hlaunch => exact absurd hord id
  | noEdit row opened now presses hframe hclock hrow =>
    simp only [label, hrow, Option.elim_none]
    exact agenda_idle hframe rfl hclock rfl
  | edit row opened now presses e hframe hclock hrow =>
    simp only [label, hrow, Option.elim_some]
    refine agenda_replace hframe ?_ ?_ hrow ?_
    · rfl
    · exact hclock
    · exact (sort_perm home _).trans (sort_perm home _)
  | delete row hframe =>
    unfold deleteSelectedAlarm
    cases hrow : m.alarms[row]? with
    | none =>
      simp only [label, hrow, Option.elim_none]
      rw [if_neg (Nat.not_lt.mpr (List.getElem?_eq_none_iff.mp hrow))]
      exact agenda_idle hframe rfl (Nat.le_refl _) rfl
    | some e =>
      simp only [label, hrow, Option.elim_some]
      rw [if_pos (List.getElem?_eq_some_iff.mp hrow).1]
      refine agenda_write hframe ?_ ?_ (m.alarms.eraseIdx row) [e] [] ?_ ?_
      · rfl
      · exact Nat.le_refl _
      · exact (IndexedUpdate.perm_cons_eraseIdx hrow).trans (List.perm_append_singleton e _).symm
      · rw [List.append_nil]
        exact sort_perm home _
  | disable row hframe =>
    unfold disableRow
    cases hrow : m.alarms[row]? with
    | none =>
      simp only [label, hrow, Option.elim_none]
      rw [if_neg (Nat.not_lt.mpr (List.getElem?_eq_none_iff.mp hrow))]
      exact agenda_idle hframe rfl (Nat.le_refl _) rfl
    | some e =>
      simp only [label, hrow, Option.elim_some]
      rw [if_pos (List.getElem?_eq_some_iff.mp hrow).1]
      refine agenda_replace hframe ?_ ?_ hrow ?_
      · rfl
      · exact Nat.le_refl _
      · exact sort_perm home _
  | enable now row hframe hclock =>
    unfold enableRow
    cases hrow : m.alarms[row]? with
    | none =>
      simp only [label, hrow, Option.elim_none]
      exact agenda_idle hframe rfl hclock rfl
    | some e =>
      simp only [label, hrow, Option.elim_some]
      by_cases henabled : e.enabled = true
      · rw [if_pos henabled, if_pos henabled]
        exact agenda_idle hframe rfl hclock rfl
      · rw [if_neg henabled, if_neg henabled]
        refine agenda_replace hframe ?_ ?_ hrow ?_
        · rfl
        · exact hclock
        · exact sort_perm home _
  | restart now m' hclock hlaunch => exact absurd hord id

/-! ### Every step keeps the invariant of ringing -/

theorem masks_modify {f : AlarmEntry → AlarmEntry} {l : List AlarmEntry}
    (hl : ∀ e ∈ l, 0 ≤ e.repeatMask ∧ e.repeatMask ≤ 127)
    (hf : ∀ e : AlarmEntry, 0 ≤ e.repeatMask ∧ e.repeatMask ≤ 127 →
      0 ≤ (f e).repeatMask ∧ (f e).repeatMask ≤ 127) (row : Nat) :
    ∀ e ∈ l.modify row f, 0 ≤ e.repeatMask ∧ e.repeatMask ≤ 127 :=
  IndexedUpdate.forall_mem_foldl_modify hf hl [row]

theorem frameInv_of_idle (hhandling : m.alarmHandling = false) (hframe : m.frame = none) :
    FrameInv m := by
  constructor
  · rw [hhandling, hframe]
    rfl
  · intro frame hopen
    rw [hframe] at hopen
    cases hopen

theorem ringInv_of_idle (hmasks : ∀ e ∈ m.alarms, 0 ≤ e.repeatMask ∧ e.repeatMask ≤ 127)
    (hhandling : m.alarmHandling = false) (hframe : m.frame = none) : RingInv m :=
  ⟨frameInv_of_idle hhandling hframe, hmasks⟩

theorem frameInv_tick (h : FrameInv m) {now : Nat} (hclock : m.clock ≤ now) :
    FrameInv (updateCurrentTime (Platform.stable home) (currentDateTime now)
      { m with clock := now }) := by
  rcases tick_cases home h now with ⟨hframe, -, heq⟩ | ⟨hframe, -, heq⟩ |
    ⟨frame, hframe, heq⟩
  · rw [heq]
    exact frameInv_of_idle (by rw [h.handling, hframe]; rfl) hframe
  · rw [heq]
    refine ⟨rfl, ?_⟩
    intro frame hopen
    obtain rfl := Option.some.inj hopen
    exact ⟨(Platform.stable home).sort.sorted _, now, Nat.le_refl _, rfl⟩
  · rw [heq]
    refine ⟨h.handling, ?_⟩
    intro frame' hopen
    obtain ⟨hsorted, t, ht, hopened⟩ := h.ringing frame' hopen
    exact ⟨hsorted, t, Nat.le_trans ht hclock, hopened⟩

/-- A step outside a dialog that leaves the flags alone. -/
theorem ringInv_of_write (h : RingInv m) (hframe : m.frame = none) (hframe' : m'.frame = m.frame)
    (hhandling : m'.alarmHandling = m.alarmHandling) {l : List AlarmEntry}
    (halarms : m'.alarms.Perm l)
    (hl : ∀ e ∈ l, 0 ≤ e.repeatMask ∧ e.repeatMask ≤ 127) : RingInv m' := by
  apply ringInv_of_idle
  · intro e he
    exact hl e (halarms.mem_iff.mp he)
  · rw [hhandling, h.handling, hframe]
    rfl
  · rw [hframe', hframe]

theorem ringInv_of_row (h : RingInv m) (hframe : m.frame = none) {l : List AlarmEntry}
    (hrow : RowTo (Platform.stable home) m l m')
    (hl : ∀ e ∈ l, 0 ≤ e.repeatMask ∧ e.repeatMask ≤ 127) : RingInv m' := by
  cases hrow with
  | idle => exact h
  | written =>
    refine ringInv_of_write h hframe ?_ ?_ (sort_perm home l) hl
    · rfl
    · rfl

theorem ringInv_step (h : RingInv m) {ev : Event} (hord : Ordinary ev)
    (hstep : step (Platform.stable home) m ev = some m') : RingInv m' := by
  cases step_cases hstep with
  | tick now hclock =>
    refine ⟨frameInv_tick h.toFrameInv hclock, ?_⟩
    have halarms := (updateCurrentTime_fields (P := Platform.stable home) (currentDateTime now)
      { m with clock := now }).1
    rw [halarms]
    intro e he
    exact h.masks e ((sort_perm home _).mem_iff.mp he)
  | dismiss now photo frame hframe hclock =>
    obtain ⟨halarms, -, hhandling', hframe', -⟩ :=
      afterExec_fields (P := Platform.stable home) hframe (currentDateTime now) photo now
    refine ringInv_of_idle ?_ hhandling' hframe'
    rw [halarms, settleTriggered_eq]
    intro e he
    refine IndexedUpdate.forall_mem_foldl_modify (fun x hx => ?_) h.masks _ e
      ((sort_perm home _).mem_iff.mp he)
    unfold AlarmEntry.afterDismiss
    split
    · exact hx
    · exact hx
  | create c hframe hclock hroom =>
    have hnew : ∀ e ∈ m.alarms ++ [entryOf (Platform.stable home) c m],
        0 ≤ e.repeatMask ∧ e.repeatMask ≤ 127 := by
      intro e he
      rcases List.mem_append.mp he with he | he
      · exact h.masks e he
      · rw [List.mem_singleton.mp he]
        exact (accepted_ok home c).mask
    refine ringInv_of_write h hframe ?_ ?_ ((sort_perm home _).trans (sort_perm home _)) hnew
    · rfl
    · rfl
  | createCut c restartAt m' hframe hclock hrestart hroom hlaunch => exact absurd hord id
  | noEdit row opened now presses hframe hclock hrow =>
    exact ringInv_of_idle h.masks (by rw [h.handling, hframe]; rfl) hframe
  | edit row opened now presses e hframe hclock hrow =>
    refine ringInv_of_write h hframe ?_ ?_ ((sort_perm home _).trans (sort_perm home _))
      (masks_modify h.masks (fun _ _ => AlarmDialog.repeatMaskFromButtons_range _) row)
    · rfl
    · rfl
  | delete row hframe =>
    apply ringInv_of_row h hframe (deleteSelectedAlarm_row row m)
    exact fun e he => h.masks e (List.mem_of_mem_eraseIdx he)
  | disable row hframe =>
    apply ringInv_of_row h hframe (disableRow_row row m)
    exact masks_modify (f := (·.disable)) h.masks (fun _ hx => hx) row
  | enable now row hframe hclock =>
    have hidle : RingInv { m with clock := now } :=
      ringInv_of_idle h.masks (by rw [h.handling, hframe]; rfl) hframe
    apply ringInv_of_row hidle hframe (enableRow_row (currentDateTime now) row _)
    refine masks_modify h.masks (fun x hx => ?_) row
    unfold AlarmEntry.enable
    split
    · exact hx
    · exact hx
  | restart now m' hclock hlaunch => exact absurd hord id

theorem ringInv_run {evs : List Event} (h : RingInv m) (hord : ∀ ev ∈ evs, Ordinary ev)
    (hrun : Machine.run (step (Platform.stable home)) m evs = some m') : RingInv m' :=
  Machine.run_invariant_along (fun _ _ _ hi hq hs => ringInv_step hi hq hs) h
    (Machine.along_of_forall hord m) hrun

/-! ### What holds of every run -/

/-- The entry rings in the open dialog. -/
def Rings (m : MainWindow) (e : AlarmEntry) : Prop :=
  ∃ frame, m.frame = some frame ∧ ∃ t ∈ frame.triggered, m.alarms[t.index]? = some e

/-- The event dismisses the dialog in which the entry rings, or is an operation on its row. -/
def Takes (m : MainWindow) (ev : Event) (e : AlarmEntry) : Prop :=
  (∃ now photo, ev = .dismiss now photo ∧ Rings m e) ∨
    ∃ row, m.alarms[row]? = some e ∧ NamesRow row ev

/-- The entry is what the editor, or the +5s dialog, has just made. -/
def UserSets (P : Platform) (m : MainWindow) (ev : Event) (e : AlarmEntry) : Prop :=
  (∃ c, ev = .create c ∧ e = entryOf P c m) ∨
    ∃ row opened now presses x, ev = .edit row opened now presses ∧ m.alarms[row]? = some x ∧
      e = x.edited (editResult P opened now presses x)

theorem rungExactly_of_ringInv (h : RingInv m) {frame : DismissFrame}
    (hframe : m.frame = some frame) : RungExactly frame m.alarms := by
  obtain ⟨-, t, -, rfl⟩ := h.ringing frame hframe
  exact rungExactly_collectTriggered _ _

theorem label_eq_dismiss {P : Platform} {ev : Event} (h : label P m ev = .dismiss) :
    ∃ now photo, ev = .dismiss now photo := by
  have hlabel := label_cases P m ev
  rw [h] at hlabel
  cases hlabel with
  | dismiss now photo => exact ⟨now, photo, rfl⟩

/-- What an event removes from the agenda is the entry of the row that it names. -/
theorem mem_removed {P : Platform} {ev : Event} {l : Agenda.Label AlarmEntry}
    (hlabel : LabelOf P m ev l) {e : AlarmEntry} (h : e ∈ l.removed) :
    ∃ row, m.alarms[row]? = some e ∧ NamesRow row ev := by
  cases hlabel with
  | tick => exact absurd h (Multiset.notMem_zero e)
  | dismiss => exact absurd h (Multiset.notMem_zero e)
  | create => exact absurd h (Multiset.notMem_zero e)
  | idle => exact absurd h (Multiset.notMem_zero e)
  | edit row opened now presses x hrow =>
    obtain rfl := Multiset.mem_singleton.mp h
    exact ⟨row, hrow, rfl⟩
  | delete row x hrow =>
    obtain rfl := Multiset.mem_singleton.mp h
    exact ⟨row, hrow, rfl⟩
  | disable row x hrow =>
    obtain rfl := Multiset.mem_singleton.mp h
    exact ⟨row, hrow, rfl⟩
  | enable now row x hrow =>
    obtain rfl := Multiset.mem_singleton.mp h
    exact ⟨row, hrow, rfl⟩

/-- **An entry stays**, one step. -/
theorem stays_step (h : RingInv m) {ev : Event} (hord : Ordinary ev)
    (hstep : step (Platform.stable home) m ev = some m') {e : AlarmEntry} (he : e ∈ m.alarms) :
    e ∈ m'.alarms ∨ Takes m ev e := by
  have hagenda := step_agenda h hord hstep
  rcases hagenda.stays (Multiset.mem_coe.mpr he) with hstay | ⟨hlabel, t, hringing, hdue⟩ |
    hremoved
  · exact .inl (Multiset.mem_coe.mp hstay)
  · -- the dialog in which it rang is dismissed
    obtain ⟨now, photo, rfl⟩ := label_eq_dismiss hlabel
    obtain ⟨frame, hframe, hnow⟩ := Option.map_eq_some_iff.mp hringing
    obtain ⟨-, t', -, rfl⟩ := h.ringing frame hframe
    obtain rfl : t' = t := by simpa [openDismissDialog] using hnow
    obtain ⟨i, hi⟩ := List.mem_iff_getElem?.mp he
    exact .inr (.inl ⟨now, photo, rfl, _, hframe, _,
      mem_collectTriggered.mpr ⟨i, e, hi, hdue, rfl⟩, hi⟩)
  · exact .inr (.inr (mem_removed (label_cases _ m ev) hremoved))

/-- Settling an entry at a later time leaves it not due at an earlier one. -/
theorem settle_not_due (h : RingInv m) {t : Nat} (ht : t ≤ m.clock) :
    ∀ e ∈ (agenda m).entries, ∀ now, m.clock ≤ now →
      policy.due t (policy.settle now e) = false := by
  intro e he now hnow
  have hmask := h.masks e (Multiset.mem_coe.mp he)
  have hnot : ¬ (e.afterDismiss (currentDateTime now)).due (currentDateTime t) = true := by
    intro hdue
    obtain ⟨henabled, hle⟩ := AlarmEntry.due_iff.mp hdue
    have hafter := AlarmEntry.after_afterDismiss hmask rfl henabled
    simp only [lt_def, le_def, currentDateTime_msecs] at hafter hle
    omega
  simpa [policy] using hnot

/-- **What has rung does not come back**, one step. -/
theorem returns_step (h : RingInv m) {ev : Event} (hord : Ordinary ev)
    (hstep : step (Platform.stable home) m ev = some m') {t : Nat} (ht : t ≤ m.clock)
    {e : AlarmEntry} (hdue : e.due (currentDateTime t) = true) (hnot : e ∉ m.alarms)
    (he : e ∈ m'.alarms) : UserSets (Platform.stable home) m ev e := by
  have hadded := (step_agenda h hord hstep).returns (settle_not_due h ht) hdue
    (fun hmem => hnot (Multiset.mem_coe.mp hmem)) (Multiset.mem_coe.mpr he)
  obtain ⟨henabled, hle⟩ := AlarmEntry.due_iff.mp hdue
  generalize hl : label (Platform.stable home) m ev = l at hadded
  have hlabel : LabelOf (Platform.stable home) m ev l := hl ▸ label_cases _ m ev
  cases hlabel with
  | tick => exact absurd hadded (Multiset.notMem_zero e)
  | dismiss => exact absurd hadded (Multiset.notMem_zero e)
  | idle => exact absurd hadded (Multiset.notMem_zero e)
  | delete => exact absurd hadded (Multiset.notMem_zero e)
  | create c => exact .inl ⟨c, rfl, Multiset.mem_singleton.mp hadded⟩
  | edit row opened now presses x hrow =>
    exact .inr ⟨row, opened, now, presses, x, rfl, hrow, Multiset.mem_singleton.mp hadded⟩
  | disable row x hrow =>
    obtain rfl := Multiset.mem_singleton.mp hadded
    cases henabled
  | enable now row x hrow =>
    -- the Enable button looks past its own time, which is not before `t`
    obtain rfl := Multiset.mem_singleton.mp hadded
    cases step_cases hstep with
    | enable now row hframe hclock =>
      have hafter := AlarmEntry.after_enable (h.masks x (List.mem_of_getElem? hrow))
        (currentDateTime_isValid now)
      simp only [lt_def, le_def, currentDateTime_msecs] at hafter hle
      omega

theorem mono_clock {ev : Event} (hord : Ordinary ev)
    (hstep : step (Platform.stable home) m ev = some m') (h : RingInv m) : m.clock ≤ m'.clock :=
  (step_agenda h hord hstep).clock_le

/-- An entry of the list stays as it is, along any run, up to a dismissal of a dialog in
    which it rings or an operation on its row. -/
def Stays (home : QString) (m : MainWindow) : Prop :=
  ∀ e ∈ m.alarms, ∀ evs m', (∀ ev ∈ evs, Ordinary ev) →
    Machine.run (step (Platform.stable home)) m evs = some m' →
    e ∈ m'.alarms ∨ ∃ before ev after s, evs = before ++ ev :: after ∧
      Machine.run (step (Platform.stable home)) m before = some s ∧ e ∈ s.alarms ∧ Takes s ev e

/-- A tick inside a dialog changes nothing; outside, it opens a dialog when something is
    due, and the dialog rings exactly what is due. -/
def TickRings (home : QString) (m : MainWindow) : Prop :=
  ∀ now m', step (Platform.stable home) m (.tick now) = some m' →
    m'.alarms.Perm m.alarms ∧
    (∀ frame, m.frame = some frame → m'.frame = some frame ∧ m'.alarms = m.alarms) ∧
    (m.frame = none → (∀ e ∈ m.alarms, e.due (currentDateTime now) = false) → m'.frame = none) ∧
    (m.frame = none → (∃ e ∈ m.alarms, e.due (currentDateTime now) = true) →
      ∃ frame, m'.frame = some frame ∧ frame.now = currentDateTime now ∧
        RungExactly frame m'.alarms)

/-- What a dismissal should make of an entry that rang. -/
inductive Dismissed (now : QDateTime) (e : AlarmEntry) : AlarmEntry → Prop where
  | moved (hmask : e.repeatMask ≠ 0) (dt : QDateTime)
      (hdt : IsFirstOccurrence now e.dateTime.time e.repeatMask dt) :
      Dismissed now e { e with enabled := true, useSpecificDate := false, dateTime := dt }
  | disabled (hmask : e.repeatMask = 0) : Dismissed now e { e with enabled := false }

/-- A dismissal settles the entries that rang, and no other entry. -/
def DismissSettles (home : QString) (m : MainWindow) : Prop :=
  ∀ now photo m', step (Platform.stable home) m (.dismiss now photo) = some m' →
    ∃ frame l, m.frame = some frame ∧ RungExactly frame m.alarms ∧ m'.frame = none ∧
      m'.alarms.Perm l ∧
      List.Forall₂ (fun e x => if e.due frame.now then Dismissed (currentDateTime now) e x
        else x = e) m.alarms l

/-- Once a dialog is dismissed, no alarm that is due at the time of its ring is listed
    again, unless the user sets one. -/
def RingsOnce (home : QString) (m : MainWindow) : Prop :=
  ∀ frame now photo m', m.frame = some frame →
    step (Platform.stable home) m (.dismiss now photo) = some m' →
    ∀ evs m'', (∀ ev ∈ evs, Ordinary ev) →
      Machine.run (step (Platform.stable home)) m' evs = some m'' →
      ∀ e ∈ m''.alarms, e.due frame.now = true →
        ∃ before ev after s, evs = before ++ ev :: after ∧
          Machine.run (step (Platform.stable home)) m' before = some s ∧
          UserSets (Platform.stable home) s ev e

theorem stays_of_ringInv (h : RingInv m) : Stays home m := by
  intro e he evs m' hord hrun
  have hnext : ∀ s ev s', Ordinary ev → (RingInv s ∧ e ∈ s.alarms) →
      step (Platform.stable home) s ev = some s' →
      (RingInv s' ∧ e ∈ s'.alarms) ∨ Takes s ev e := by
    intro s ev s' hq hs hstep
    rcases stays_step hs.1 hq hstep hs.2 with hstay | htakes
    · exact .inl ⟨ringInv_step hs.1 hq hstep, hstay⟩
    · exact .inr htakes
  rcases Machine.run_until hnext hord ⟨h, he⟩ hrun with
    hstay | ⟨before, ev, after, s, hsplit, hbefore, hs, htakes⟩
  · exact .inl hstay.2
  · exact .inr ⟨before, ev, after, s, hsplit, hbefore, hs.2, htakes⟩

theorem tickRings_of_ringInv (h : RingInv m) : TickRings home m := by
  intro now m' hstep
  cases step_cases hstep with
  | tick now hclock =>
    rcases tick_cases home h.toFrameInv now with ⟨hframe, hnone, heq⟩ | ⟨hframe, hsome, heq⟩ |
      ⟨frame, hframe, heq⟩
    · rw [heq]
      refine ⟨sort_perm home _, ?_, ?_, ?_⟩
      · intro frame hopen
        rw [hframe] at hopen
        cases hopen
      · intro _ _
        exact hframe
      · rintro - ⟨e, he, hdue⟩
        rw [hnone e he] at hdue
        cases hdue
    · rw [heq]
      refine ⟨sort_perm home _, ?_, ?_, ?_⟩
      · intro frame hopen
        rw [hframe] at hopen
        cases hopen
      · intro _ hnone
        obtain ⟨e, he, hdue⟩ := hsome
        rw [hnone e he] at hdue
        cases hdue
      · intro _ _
        exact ⟨_, rfl, rfl, rungExactly_collectTriggered _ _⟩
    · rw [heq]
      refine ⟨List.Perm.refl _, fun _ hopen => ⟨hopen, rfl⟩, ?_, ?_⟩
      · intro hnone
        exact absurd (hnone.symm.trans hframe) (by simp)
      · intro hnone
        exact absurd (hnone.symm.trans hframe) (by simp)

theorem dismissSettles_of_ringInv (h : RingInv m) : DismissSettles home m := by
  intro now photo m' hstep
  cases step_cases hstep with
  | dismiss now photo frame hframe hclock =>
    obtain ⟨halarms, -, -, hframe', -⟩ :=
      afterExec_fields (P := Platform.stable home) hframe (currentDateTime now) photo now
    obtain ⟨-, t, -, hopened⟩ := h.ringing frame hframe
    have hrung := rungExactly_of_ringInv h hframe
    have hperm := sort_perm home (settleTriggered (currentDateTime now) frame.triggered m.alarms)
    rw [← halarms] at hperm
    refine ⟨frame, _, hframe, hrung, hframe', hperm, ?_⟩
    have hsettled : settleTriggered (currentDateTime now) frame.triggered m.alarms =
        m.alarms.map fun e =>
          if e.due frame.now then e.afterDismiss (currentDateTime now) else e := by
      rw [hopened]
      exact settleTriggered_collectTriggered _ _ _
    rw [hsettled, List.forall₂_map_right_iff, List.forall₂_same]
    intro e he
    by_cases hdue : e.due frame.now = true
    · rw [if_pos hdue, if_pos hdue]
      by_cases hmask : e.repeatMask = 0
      · rw [AlarmEntry.afterDismiss, if_neg (fun hne => hne hmask)]
        exact .disabled hmask
      · rw [AlarmEntry.afterDismiss, if_pos hmask]
        have hrange := h.masks e he
        exact .moved hmask _ (computeNextRepeatDateTime_isFirst rfl hrange.1 hrange.2 hmask)
    · rw [if_neg hdue, if_neg hdue]

theorem ringsOnce_of_ringInv (h : RingInv m) : RingsOnce home m := by
  intro frame now photo m' hframe hstep evs m'' hord hrun e he hdue
  obtain ⟨-, t, ht, hopened⟩ := h.ringing frame hframe
  have hnow : frame.now = currentDateTime t := by rw [hopened]; rfl
  rw [hnow] at hdue
  have hring : (agenda m).ringing = some t := ringing_agenda hframe hnow
  -- nothing that was due when the dialog opened is listed after it is dismissed
  have hdismiss : Ordinary (.dismiss now photo) := trivial
  have hsettled := (step_agenda h hdismiss hstep).dismissed hring (settle_not_due h ht)
  have hgone : e ∉ m'.alarms := by
    intro hmem
    have hnot := hsettled e (Multiset.mem_coe.mpr hmem)
    exact absurd (hnot.symm.trans hdue) (by simp)
  have hclock : t ≤ m'.clock := Nat.le_trans ht (mono_clock hdismiss hstep h)
  -- and from there it stays away, unless the user sets it
  have hnext : ∀ s ev s', Ordinary ev → (RingInv s ∧ t ≤ s.clock ∧ e ∉ s.alarms) →
      step (Platform.stable home) s ev = some s' →
      (RingInv s' ∧ t ≤ s'.clock ∧ e ∉ s'.alarms) ∨ UserSets (Platform.stable home) s ev e := by
    intro s ev s' hq hs hstep'
    by_cases hmem : e ∈ s'.alarms
    · exact .inr (returns_step hs.1 hq hstep' hs.2.1 hdue hs.2.2 hmem)
    · exact .inl ⟨ringInv_step hs.1 hq hstep',
        Nat.le_trans hs.2.1 (mono_clock hq hstep' hs.1), hmem⟩
  rcases Machine.run_until hnext hord ⟨ringInv_step h hdismiss hstep, hclock, hgone⟩ hrun with
    hend | ⟨before, ev, after, s, hsplit, hbefore, -, hsets⟩
  · exact absurd he hend.2.2
  · exact ⟨before, ev, after, s, hsplit, hbefore, hsets⟩

end MainWindow

open MainWindow

/-- **No alarm is lost and none rings twice.** Take any list with masks in range and no
    dialog open, and any run of ticks, dialogs and operations of the user. In the state it
    reaches, an entry stays until its ring is dismissed or its row is operated on; a tick
    rings exactly what is due, and nothing inside a dialog; a dismissal settles exactly
    what rang; and what has rung does not ring again unless the user sets it. -/
theorem ringing_run {home : QString} {m₀ m : MainWindow} {evs : List Event}
    (hmasks : ∀ e ∈ m₀.alarms, 0 ≤ e.repeatMask ∧ e.repeatMask ≤ 127)
    (hhandling : m₀.alarmHandling = false) (hframe : m₀.frame = none)
    (hord : ∀ ev ∈ evs, Ordinary ev)
    (hrun : Machine.run (step (Platform.stable home)) m₀ evs = some m) :
    Stays home m ∧ TickRings home m ∧ DismissSettles home m ∧ RingsOnce home m := by
  have hinv := ringInv_run (ringInv_of_idle hmasks hhandling hframe) hord hrun
  exact ⟨stays_of_ringInv hinv, tickRings_of_ringInv hinv, dismissSettles_of_ringInv hinv,
    ringsOnce_of_ringInv hinv⟩

/-- A +5s alarm and a weekly one; the first rings, and the second is reached inside the
    dialog. -/
theorem ringing_run_nested :
    ∃ m, Machine.run (step (Platform.stable "/root".toList)) { clock := 0 }
      [.create (.openAddDialog 0 50000 [.weekday 4, .increaseMinute]),
        .create (.setDebugAlarmPlus5Sec 50000 0 .DismissSimple .GameNumberOrder),
        .tick 56000, .tick 61000] = some m ∧
      m.frame.map (·.triggered.length) = some 1 ∧ DismissSettles "/root".toList m := by
  have hrun : Machine.run (step (Platform.stable "/root".toList)) { clock := 0 }
      [.create (.openAddDialog 0 50000 [.weekday 4, .increaseMinute]),
        .create (.setDebugAlarmPlus5Sec 50000 0 .DismissSimple .GameNumberOrder),
        .tick 56000, .tick 61000] = some _ := rfl
  refine ⟨_, hrun, by decide +kernel, ?_⟩
  exact (ringing_run (by simp) rfl rfl (by simp [Ordinary]) hrun).2.2.1

end AlarmClock
