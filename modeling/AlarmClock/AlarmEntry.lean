import AlarmClock.AlarmDialog

/-!
# Alarm entries

One entry of `m_alarms` and the ways the main window writes it: creation, an
accepted edit, the two row buttons, the end of a dismissal and the normalisation
of a load. `Ok` is what all of them keep.
-/

namespace AlarmClock

structure AlarmEntry where
  alarmId : Int
  dateTime : QDateTime
  enabled : Bool
  soundFile : QString
  dismissMode : Int
  gameType : Int
  repeatMask : Int
  useSpecificDate : Bool
  logFile : QString
deriving DecidableEq, Repr

def alarmLogPath (home : QString) (alarmId : Int) : QString :=
  home ++ "/capture/alarm_".toList ++ TextFormat.decimal alarmId ++ ".txt".toList

theorem alarmLogPath_injective (home : QString) : Function.Injective (alarmLogPath home) := by
  intro i j h
  have h' := List.append_cancel_right h
  exact TextFormat.decimal_injective (List.append_cancel_left h')

namespace AlarmEntry

/-! ### The writes -/

/-- The entry that an add or a +5s appends. -/
def created (home : QString) (alarmId : Int) (r : AlarmDialog.Accepted) : AlarmEntry where
  alarmId := alarmId
  dateTime := r.dateTime
  enabled := true
  soundFile := r.soundFile
  dismissMode := r.dismissMode
  gameType := r.gameType
  repeatMask := r.repeatMask
  useSpecificDate := r.useSpecificDate
  logFile := alarmLogPath home alarmId

/-- An accepted edit. -/
def edited (r : AlarmDialog.Accepted) (e : AlarmEntry) : AlarmEntry :=
  { e with
    dateTime := r.dateTime
    enabled := true
    soundFile := r.soundFile
    dismissMode := r.dismissMode
    gameType := r.gameType
    repeatMask := r.repeatMask
    useSpecificDate := r.useSpecificDate }

/-- The Disable button. -/
def disable (e : AlarmEntry) : AlarmEntry := { e with enabled := false }

/-- The Enable button, pressed at `now2` on a disabled entry; its today-or-tomorrow rule
    is the editor's. -/
def enable (now2 : QDateTime) (e : AlarmEntry) : AlarmEntry :=
  if e.repeatMask ≠ 0 then
    { e with
      enabled := true
      dateTime := computeNextRepeatDateTime now2 e.dateTime.time e.repeatMask }
  else
    { e with
      enabled := true
      dateTime := AlarmDialog.todayOrTomorrow now2 e.dateTime.time
      useSpecificDate := false }

/-- What the end of a dismissal does to an entry that rang. -/
def afterDismiss (postDismissNow : QDateTime) (e : AlarmEntry) : AlarmEntry :=
  if e.repeatMask ≠ 0 then
    { e with
      enabled := true
      useSpecificDate := false
      dateTime := computeNextRepeatDateTime postDismissNow e.dateTime.time e.repeatMask }
  else { e with enabled := false }

/-- What a load at `now` does to an entry that it has read: the two tests, in order. -/
def advance (now : QDateTime) (e : AlarmEntry) : AlarmEntry :=
  let e :=
    if e.repeatMask = 0 ∧ e.enabled ∧ e.dateTime ≤ now then { e with enabled := false } else e
  if e.repeatMask ≠ 0 ∧ e.enabled ∧ e.dateTime ≤ now then
    { e with dateTime := computeNextRepeatDateTime now e.dateTime.time e.repeatMask }
  else e

/-- `AlarmDialog` as `openEditDialog` opens it on an entry. -/
def editor (home : QString) (opened : QDateTime) (e : AlarmEntry) : AlarmDialog :=
  AlarmDialog.new home opened e.dateTime e.soundFile e.dismissMode e.gameType e.repeatMask
    e.useSpecificDate

/-- The entry rings at `now`. -/
def due (now : QDateTime) (e : AlarmEntry) : Bool := e.enabled && decide (e.dateTime ≤ now)

theorem due_iff {now : QDateTime} {e : AlarmEntry} :
    e.due now = true ↔ e.enabled = true ∧ e.dateTime ≤ now := by
  simp [due]

/-! ### What the writes leave alone -/

@[simp] theorem disable_alarmId (e : AlarmEntry) : e.disable.alarmId = e.alarmId := rfl
@[simp] theorem edited_alarmId (r : AlarmDialog.Accepted) (e : AlarmEntry) :
    (e.edited r).alarmId = e.alarmId := rfl

@[simp] theorem enable_alarmId (now2 : QDateTime) (e : AlarmEntry) :
    (e.enable now2).alarmId = e.alarmId := by
  unfold enable
  split <;> rfl

@[simp] theorem afterDismiss_alarmId (now : QDateTime) (e : AlarmEntry) :
    (e.afterDismiss now).alarmId = e.alarmId := by
  unfold afterDismiss
  split <;> rfl

theorem advance_of_not_due {now : QDateTime} {e : AlarmEntry} (h : ¬ e.due now = true) :
    e.advance now = e := by
  have hnot : ¬ (e.enabled = true ∧ e.dateTime ≤ now) := fun h' => h (due_iff.mpr h')
  have hfirst : (if e.repeatMask = 0 ∧ e.enabled ∧ e.dateTime ≤ now then { e with enabled := false }
      else e) = e := if_neg fun h' => hnot h'.2
  simp only [advance, hfirst]
  exact if_neg fun h' => hnot h'.2

theorem advance_once {now : QDateTime} {e : AlarmEntry} (hdue : e.due now = true)
    (hmask : e.repeatMask = 0) : e.advance now = { e with enabled := false } := by
  have hfirst : (if e.repeatMask = 0 ∧ e.enabled ∧ e.dateTime ≤ now then { e with enabled := false }
      else e) = { e with enabled := false } := if_pos ⟨hmask, due_iff.mp hdue⟩
  simp only [advance, hfirst]
  exact if_neg fun h' => h'.1 hmask

theorem advance_repeat {now : QDateTime} {e : AlarmEntry} (hdue : e.due now = true)
    (hmask : e.repeatMask ≠ 0) :
    e.advance now =
      { e with dateTime := computeNextRepeatDateTime now e.dateTime.time e.repeatMask } := by
  have hfirst : (if e.repeatMask = 0 ∧ e.enabled ∧ e.dateTime ≤ now then { e with enabled := false }
      else e) = e := if_neg fun h' => hmask h'.1
  simp only [advance, hfirst]
  exact if_pos ⟨hmask, due_iff.mp hdue⟩

/-- An entry that a load finds due is a one-shot or a weekly alarm; any other is kept. -/
theorem advance_cases (now : QDateTime) (e : AlarmEntry) :
    (¬ e.due now = true ∧ e.advance now = e) ∨
    (e.due now = true ∧ e.repeatMask = 0 ∧ e.advance now = { e with enabled := false }) ∨
    (e.due now = true ∧ e.repeatMask ≠ 0 ∧ e.advance now =
      { e with dateTime := computeNextRepeatDateTime now e.dateTime.time e.repeatMask }) := by
  by_cases hdue : e.due now = true
  · by_cases hmask : e.repeatMask = 0
    · exact .inr (.inl ⟨hdue, hmask, advance_once hdue hmask⟩)
    · exact .inr (.inr ⟨hdue, hmask, advance_repeat hdue hmask⟩)
  · exact .inl ⟨hdue, advance_of_not_due hdue⟩

@[simp] theorem advance_alarmId (now : QDateTime) (e : AlarmEntry) :
    (e.advance now).alarmId = e.alarmId := by
  rcases advance_cases now e with ⟨-, h⟩ | ⟨-, -, h⟩ | ⟨-, -, h⟩ <;> rw [h]

/-! ### What the writes look forward to -/

/-- An alarm that a dismissal leaves enabled is after the dismissal. -/
theorem after_afterDismiss {e : AlarmEntry} (hmask : 0 ≤ e.repeatMask ∧ e.repeatMask ≤ 127)
    {now : QDateTime} (hnow : now.isValid = true)
    (henabled : (e.afterDismiss now).enabled = true) : now < (e.afterDismiss now).dateTime := by
  unfold afterDismiss at henabled ⊢
  split at henabled
  · next hne =>
    rw [if_pos hne]
    exact (computeNextRepeatDateTime_isFirst hnow hmask.1 hmask.2 hne).after
  · cases henabled

theorem after_enable {e : AlarmEntry} (hmask : 0 ≤ e.repeatMask ∧ e.repeatMask ≤ 127)
    {now : QDateTime} (hnow : now.isValid = true) : now < (e.enable now).dateTime := by
  unfold enable
  split
  · next hne => exact (computeNextRepeatDateTime_isFirst hnow hmask.1 hmask.2 hne).after
  · exact (AlarmDialog.todayOrTomorrow_spec hnow e.dateTime.time).2.1

/-! ### What the writes keep -/

/-- The entry agrees with the calendar: its date exists, and a weekly alarm stands on
    one of its weekdays and on no fixed date. -/
structure InCalendar (e : AlarmEntry) : Prop where
  valid : e.dateTime.isValid = true
  mask : 0 ≤ e.repeatMask ∧ e.repeatMask ≤ 127
  weekday : e.repeatMask ≠ 0 →
    e.repeatMask.testBit (weekdayIndexFromDate e.dateTime.date) = true
  specific : e.repeatMask ≠ 0 → e.useSpecificDate = false

/-- An entry that the application has written. -/
structure Ok (home : QString) (e : AlarmEntry) : Prop extends InCalendar e where
  era : e.dateTime.InCommonEra
  minute : e.repeatMask ≠ 0 → e.dateTime.time.msecs % 60000 = 0
  id : IsInt e.alarmId
  mode : IsInt e.dismissMode
  game : IsInt e.gameType
  log : e.logFile = alarmLogPath home e.alarmId

variable {home : QString} {e : AlarmEntry}

theorem Ok.withEnabled (h : e.Ok home) (b : Bool) :
    ({ e with enabled := b } : AlarmEntry).Ok home :=
  ⟨⟨h.valid, h.mask, h.weekday, h.specific⟩, h.era, h.minute, h.id, h.mode, h.game, h.log⟩

theorem Ok.withoutSpecificDate (h : e.Ok home) :
    ({ e with useSpecificDate := false } : AlarmEntry).Ok home :=
  ⟨⟨h.valid, h.mask, h.weekday, fun _ => rfl⟩, h.era, h.minute, h.id, h.mode, h.game, h.log⟩

/-- A date-time may replace another one; that of a weekly alarm must be an occurrence. -/
theorem Ok.withDateTime (h : e.Ok home) {dt : QDateTime} (hera : dt.InCommonEra)
    (hocc : e.repeatMask ≠ 0 →
      ∃ now, IsOccurrence now e.dateTime.time e.repeatMask dt) :
    ({ e with dateTime := dt } : AlarmEntry).Ok home := by
  refine ⟨⟨hera.1, h.mask, fun hmask => ?_, h.specific⟩, hera, fun hmask => ?_, h.id, h.mode,
    h.game, h.log⟩
  · obtain ⟨now, hdt⟩ := hocc hmask
    exact hdt.weekday
  · obtain ⟨now, hdt⟩ := hocc hmask
    show dt.time.msecs % 60000 = 0
    rw [hdt.time_eq]
    exact h.minute hmask

theorem InCalendar.isFirst (h : e.InCalendar) (hmask : e.repeatMask ≠ 0) {now : QDateTime}
    (hnow : now.isValid = true) :
    IsFirstOccurrence now e.dateTime.time e.repeatMask
      (computeNextRepeatDateTime now e.dateTime.time e.repeatMask) :=
  computeNextRepeatDateTime_isFirst hnow h.mask.1 h.mask.2 hmask

/-- A weekly alarm may be moved to the next occurrence after any time. -/
theorem Ok.reschedule (h : e.Ok home) (hmask : e.repeatMask ≠ 0) {now : QDateTime}
    (hnow : now.InCommonEra) :
    ({ e with
      dateTime := computeNextRepeatDateTime now e.dateTime.time e.repeatMask } : AlarmEntry).Ok
        home := by
  have hfirst := h.isFirst hmask hnow.1
  exact h.withDateTime (hnow.of_lt hfirst.valid hfirst.after) fun _ => ⟨now, hfirst.toIsOccurrence⟩

theorem created_ok {alarmId : Int} {r : AlarmDialog.Accepted} (hid : IsInt alarmId) (hr : r.Ok) :
    (created home alarmId r).Ok home :=
  ⟨⟨hr.era.1, hr.mask, hr.weekday, hr.specific⟩, hr.era, hr.minute, hid, hr.mode, hr.game, rfl⟩

theorem Ok.edited (h : e.Ok home) {r : AlarmDialog.Accepted} (hr : r.Ok) : (e.edited r).Ok home :=
  ⟨⟨hr.era.1, hr.mask, hr.weekday, hr.specific⟩, hr.era, hr.minute, h.id, hr.mode, hr.game, h.log⟩

theorem Ok.disable (h : e.Ok home) : e.disable.Ok home := h.withEnabled false

theorem Ok.enable (h : e.Ok home) {now : QDateTime} (hnow : now.InCommonEra) :
    (e.enable now).Ok home := by
  unfold AlarmEntry.enable
  split
  · next hmask => exact (h.reschedule hmask hnow).withEnabled true
  · next hmask =>
    obtain ⟨hvalid, hafter, -⟩ := AlarmDialog.todayOrTomorrow_spec hnow.1 e.dateTime.time
    have hmoved := h.withDateTime (hnow.of_lt hvalid hafter) fun hne => absurd hne hmask
    exact (hmoved.withEnabled true).withoutSpecificDate

theorem Ok.afterDismiss (h : e.Ok home) {now : QDateTime} (hnow : now.InCommonEra) :
    (e.afterDismiss now).Ok home := by
  unfold AlarmEntry.afterDismiss
  split
  · next hmask => exact ((h.reschedule hmask hnow).withEnabled true).withoutSpecificDate
  · exact h.withEnabled false

theorem Ok.advance (h : e.Ok home) {now : QDateTime} (hnow : now.InCommonEra) :
    (e.advance now).Ok home := by
  rcases advance_cases now e with ⟨-, heq⟩ | ⟨-, -, heq⟩ | ⟨-, hmask, heq⟩
  · exact heq.symm ▸ h
  · exact heq.symm ▸ h.withEnabled false
  · exact heq.symm ▸ h.reschedule hmask hnow

theorem Ok.editor (h : e.Ok home) (opened : QDateTime) : (e.editor home opened).Ok :=
  AlarmDialog.new_ok h.era h.mode h.game

/-- Dropping the fraction of a second, as a save and a load do. -/
def truncSec (e : AlarmEntry) : AlarmEntry := { e with dateTime := e.dateTime.truncSec }

/-- A weekly alarm stands on a whole minute, so a save and a load do not move it. -/
theorem Ok.truncSec_eq (h : e.Ok home) (hmask : e.repeatMask ≠ 0) : e.truncSec = e := by
  have hminute := h.minute hmask
  rw [QDateTime.time_msecs] at hminute
  obtain ⟨alarmId, ⟨msecs, valid⟩, enabled, soundFile, dismissMode, gameType, repeatMask, specific,
    logFile⟩ := e
  simp only [truncSec, QDateTime.truncSec, AlarmEntry.mk.injEq, QDateTime.mk.injEq, true_and,
    and_true]
  simp only at hminute
  omega

theorem Ok.truncSec (h : e.Ok home) : e.truncSec.Ok home := by
  by_cases hmask : e.repeatMask ≠ 0
  · exact (h.truncSec_eq hmask).symm ▸ h
  · exact h.withDateTime h.era.truncSec fun hne => absurd hne hmask

@[simp] theorem truncSec_alarmId (e : AlarmEntry) : e.truncSec.alarmId = e.alarmId := rfl

theorem truncSec_truncSec (e : AlarmEntry) : e.truncSec.truncSec = e.truncSec := by
  simp only [truncSec, QDateTime.truncSec_truncSec]

/-! ### A load after a load -/

/-- Normalising at `t` and again at `t'` is normalising once at `t'`. -/
theorem InCalendar.advance_advance (h : e.InCalendar) {t t' : QDateTime} (ht : t.isValid = true)
    (ht' : t'.isValid = true) (hle : t ≤ t') : (e.advance t).advance t' = e.advance t' := by
  by_cases hdue : e.due t = true
  · obtain ⟨henabled, hdt⟩ := due_iff.mp hdue
    have hdue' : e.due t' = true :=
      due_iff.mpr ⟨henabled, Int.le_trans (QDateTime.le_def.mp hdt) (QDateTime.le_def.mp hle)⟩
    by_cases hmask : e.repeatMask = 0
    · rw [advance_once hdue hmask, advance_once hdue' hmask]
      exact advance_of_not_due fun hd => Bool.noConfusion (due_iff.mp hd).1
    · rw [advance_repeat hdue hmask, advance_repeat hdue' hmask]
      have hfirst := h.isFirst hmask ht
      by_cases hreached : computeNextRepeatDateTime t e.dateTime.time e.repeatMask ≤ t'
      · -- the occurrence of the first load has passed: the second load searches again
        have hagain : ({ e with
            dateTime := computeNextRepeatDateTime t e.dateTime.time e.repeatMask }
            : AlarmEntry).due t' = true := due_iff.mpr ⟨henabled, hreached⟩
        rw [advance_repeat hagain hmask]
        simp only [hfirst.time_eq]
      · -- it has not: it is the first occurrence after the second load as well
        have hwaits : ¬ ({ e with
            dateTime := computeNextRepeatDateTime t e.dateTime.time e.repeatMask }
            : AlarmEntry).due t' = true := fun hd => hreached (due_iff.mp hd).2
        rw [advance_of_not_due hwaits,
          (hfirst.later hle (QDateTime.not_le.mp hreached)).unique (h.isFirst hmask ht')]
  · rw [advance_of_not_due hdue]

end AlarmEntry

end AlarmClock
