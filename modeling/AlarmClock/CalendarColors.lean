import AlarmClock.Lib.KeyedMax
import AlarmClock.StatDialog

/-!
# The colours of the calendar

A day is coloured by the slowest dismissal on it: green up to 30 seconds, orange up to
two minutes, red above. What `populateList` stores for a day is set against `dayColor`,
which takes the times of the records as they are: the code puts the seconds into an
`int` first, so the two agree only when that does not move the slowest one.
-/

namespace AlarmClock

namespace StatDialog

/-! ### What a day should show -/

/-- Both times of the record were read. -/
def hasTimes (r : Record) : Bool := r.alarmDt.isValid && r.dismissDt.isValid

/-- The record has its times and was dismissed on the day. -/
def countsFor (d : QDate) (r : Record) : Bool := hasTimes r && decide (r.dismissDt.date = d)

/-- The seconds from the alarm to the dismissal, of any size. -/
def elapsedSecs (r : Record) : Int := (r.dismissDt.msecs - r.alarmDt.msecs) / 1000

/-- The colour of the slowest dismissal of the day. -/
def dayColor (rs : List Record) (d : QDate) : Option Int :=
  ((rs.filter (countsFor d)).map fun r => colorVal (elapsedSecs r)).max?

/-! ### What the calendar is given -/

theorem colorVal_pos (secs : Int) : 1 ≤ colorVal secs := by
  unfold colorVal
  split_ifs <;> decide

/-- The days of the records that colour one, each with its colour. -/
def colors (rs : List Record) : List (QDate × Int) :=
  (rs.filter hasTimes).map fun r => (r.dismissDt.date, colorVal (reactionSecs r))

/-- A colour is never below the 0 that stands for no colour yet. -/
theorem addColor_of_hasTimes {r : Record} (h : hasTimes r = true) (calData : CalendarData) :
    addColor none calData r =
      KeyedMax.raise calData r.dismissDt.date (colorVal (reactionSecs r)) := by
  obtain ⟨halarm, hdismiss⟩ := Bool.and_eq_true_iff.mp h
  have hmax : max 0 (colorVal (reactionSecs r)) = colorVal (reactionSecs r) :=
    Int.max_eq_right (Int.le_trans (by decide) (colorVal_pos _))
  funext d
  simp only [addColor, KeyedMax.raise, QDate.isValid, Option.isSome_none, halarm, hdismiss]
  cases calData r.dismissDt.date with
  | none => simp [hmax]
  | some w => simp

theorem addColor_of_not_hasTimes {r : Record} (h : ¬ hasTimes r = true)
    (calData : CalendarData) : addColor none calData r = calData := by
  simp only [addColor, QDate.isValid, Option.isSome_none, Bool.not_false, Bool.true_and]
  exact if_neg h

theorem foldl_addColor (rs : List Record) (calData : CalendarData) :
    rs.foldl (addColor none) calData =
      (colors rs).foldl (fun m p => KeyedMax.raise m p.1 p.2) calData := by
  induction rs generalizing calData with
  | nil => rfl
  | cons r rs ih =>
    rw [List.foldl_cons, ih]
    by_cases h : hasTimes r = true
    · rw [addColor_of_hasTimes h, colors, colors, List.filter_cons_of_pos h]
      rfl
    · rw [addColor_of_not_hasTimes h, colors, colors, List.filter_cons_of_neg h]

theorem values_colors (rs : List Record) (d : QDate) :
    KeyedMax.values (colors rs) d =
      (rs.filter (countsFor d)).map fun r => colorVal (reactionSecs r) := by
  simp only [KeyedMax.values, colors, List.filter_map, List.filter_filter, List.map_map]
  congr 1
  apply List.filter_congr
  intro r _
  simp only [countsFor, Function.comp]
  rw [Bool.and_comm]

theorem calData_foldl_addRecord (fileExists : QString → Bool) (isFriend : Bool)
    (filterDate : QDate) (rs : List Record) (s : Loop) :
    (rs.foldl (addRecord fileExists isFriend filterDate) s).calData =
      rs.foldl (addColor filterDate) s.calData := by
  induction rs generalizing s with
  | nil => rfl
  | cons r rs ih => rw [List.foldl_cons, List.foldl_cons, ih, addRecord]

theorem calendar_populateList_eq (fileExists : QString → Bool) (logData : QString)
    (s : StatDialog) :
    (populateList fileExists logData none s).calendar =
      (colors (records logData)).foldl (fun m p => KeyedMax.raise m p.1 p.2) fun _ => none := by
  show ((Text.lines '\n' logData).foldl (addLine fileExists (!s.friendIp.isEmpty) none)
    {}).calData = _
  rw [foldl_addLine, calData_foldl_addRecord, foldl_addColor]
  congr 2
  exact List.filter_eq_self.mpr fun _ _ => rfl

/-- **The value of a day** is the largest colour of its records, by the seconds in the `int`. -/
theorem calendar_populateList (fileExists : QString → Bool) (logData : QString) (s : StatDialog)
    (d : QDate) :
    (populateList fileExists logData none s).calendar d =
      (((records logData).filter (countsFor d)).map fun r => colorVal (reactionSecs r)).max? := by
  rw [calendar_populateList_eq, KeyedMax.foldl_raise_empty, values_colors]

/-- **The order of the records does not matter.** -/
theorem calendar_populateList_perm (fileExists : QString → Bool) {logData logData' : QString}
    (h : (records logData).Perm (records logData')) (s : StatDialog) :
    (populateList fileExists logData none s).calendar =
      (populateList fileExists logData' none s).calendar := by
  rw [calendar_populateList_eq, calendar_populateList_eq]
  exact KeyedMax.foldl_raise_perm ((h.filter _).map _)

/-! ### The seconds of a record -/

theorem msecs_ofDateTime_dvd (d : QDate) {t : QTime} (h : (1000 : Int) ∣ t.msecs) :
    (1000 : Int) ∣ (QDateTime.ofDateTime d t).msecs := by
  cases d with
  | none => exact h
  | some jd =>
    rw [QDateTime.ofDateTime_some_msecs]
    omega

/-- What is read of a date-time is a whole number of seconds. -/
theorem msecs_fromString_dvd (format : List TextFormat.Field) (text : QString) :
    (1000 : Int) ∣ (QDateTime.fromString format text).msecs := by
  unfold QDateTime.fromString
  cases TextFormat.scan format text with
  | none => exact Int.dvd_zero 1000
  | some numbers =>
    show (1000 : Int) ∣ (QDateTime.ofNumbers numbers).msecs
    unfold QDateTime.ofNumbers
    split
    · split_ifs with h
      · apply msecs_ofDateTime_dvd
        simp only
        omega
      · exact Int.dvd_zero 1000
    · exact Int.dvd_zero 1000

/-- The times of the record are whole seconds. -/
def WholeSecs (r : Record) : Prop :=
  (1000 : Int) ∣ r.alarmDt.msecs ∧ (1000 : Int) ∣ r.dismissDt.msecs

theorem WholeSecs.readPart {r : Record} (h : WholeSecs r) (part : QString) :
    WholeSecs (readPart r part) := by
  unfold StatDialog.readPart
  split_ifs <;> exact h

theorem wholeSecs_readTexts (line : QString) : WholeSecs (readTexts line) := by
  have hparts : ∀ (parts : List QString) (r : Record), WholeSecs r →
      WholeSecs (parts.foldl readPart r) := by
    intro parts
    induction parts with
    | nil => exact fun r hr => hr
    | cons part parts ih => exact fun r hr => ih _ (hr.readPart part)
  have hempty : WholeSecs {} := ⟨Int.dvd_zero 1000, Int.dvd_zero 1000⟩
  unfold readTexts
  simp only
  split_ifs
  · exact hparts _ _ hempty
  · exact hparts _ _ hempty

theorem wholeSecs_readLine (line : QString) : WholeSecs (readLine line) := by
  unfold readLine parseDates
  split_ifs
  · exact wholeSecs_readTexts line
  · exact ⟨msecs_fromString_dvd _ _, msecs_fromString_dvd _ _⟩

theorem wholeSecs_of_mem {logData : QString} {r : Record} (hr : r ∈ records logData) :
    WholeSecs r := by
  obtain ⟨line, -, rfl⟩ := List.mem_map.mp hr
  exact wholeSecs_readLine line

/-- Seconds that, put into an `int`, come out above `t`. -/
def ReadsAbove (t secs : Int) : Prop := t < secs % 4294967296 ∧ secs % 4294967296 < 2147483648

instance (t secs : Int) : Decidable (ReadsAbove t secs) := by
  unfold ReadsAbove; infer_instance

theorem lt_reactionSecs_iff {r : Record} (h : WholeSecs r) {t : Int} (ht : 0 ≤ t) :
    t < reactionSecs r ↔ ReadsAbove t (elapsedSecs r) := by
  obtain ⟨halarm, hdismiss⟩ := h
  have hsub : r.dismissDt.msecs - r.alarmDt.msecs = 1000 * elapsedSecs r := by
    unfold elapsedSecs
    omega
  rw [reactionSecs, hsub, Int.mul_tdiv_cancel_left _ (by decide), ReadsAbove, Int.bmod_def]
  split_ifs <;> omega

/-! ### The largest colour -/

theorem colorVal_le_iff (secs b : Int) :
    colorVal secs ≤ b ↔ 3 ≤ b ∨ b = 2 ∧ ¬ 120 < secs ∨ b = 1 ∧ ¬ 30 < secs := by
  unfold colorVal
  split_ifs <;> omega

/-- Two differences have the same colour when they lie on the same side of both thresholds. -/
theorem colorVal_congr {a b : Int} (h : ∀ t ∈ [(30 : Int), 120], t < a ↔ t < b) :
    colorVal a = colorVal b := by
  have h30 := h 30 (by simp)
  have h120 := h 120 (by simp)
  unfold colorVal
  split_ifs <;> omega

/-- Two ways to take the seconds of the same records give the same largest colour when, for
    both thresholds, they agree on whether any record is above it. -/
theorem max?_colorVal_eq_iff (rs : List Record) (f g : Record → Int) :
    (rs.map fun r => colorVal (f r)).max? = (rs.map fun r => colorVal (g r)).max? ↔
      ∀ t ∈ [(30 : Int), 120], (∃ r ∈ rs, t < f r) ↔ ∃ r ∈ rs, t < g r := by
  have hnone : ∀ (h : Record → Int) (t : Int),
      (∀ r ∈ rs, ¬ t < h r) ↔ ¬ ∃ r ∈ rs, t < h r := fun h t => by simp
  rw [KeyedMax.max?_map_eq_iff]
  simp only [colorVal_le_iff]
  constructor
  · intro hbound t ht
    rcases List.mem_pair.mp ht with rfl | rfl
    · have := hbound 1
      simp only [Int.reduceLE, Int.reduceEq, false_and, true_and, false_or, hnone] at this
      exact not_iff_not.mp this
    · have := hbound 2
      simp only [Int.reduceLE, Int.reduceEq, false_and, true_and, false_or, or_false, hnone]
        at this
      exact not_iff_not.mp this
  · intro hthreshold b
    by_cases h3 : 3 ≤ b
    · simp [h3]
    · by_cases h2 : b = 2
      · subst h2
        simp only [Int.reduceLE, Int.reduceEq, false_and, true_and, false_or, or_false, hnone]
        rw [hthreshold 120 (by simp)]
      · by_cases h1 : b = 1
        · subst h1
          simp only [Int.reduceLE, Int.reduceEq, false_and, true_and, false_or, hnone]
          rw [hthreshold 30 (by simp)]
        · simp [h3, h2, h1]

/-! ### The calendar and the day -/

/-- What the calendar should hold for a day: the colour of its slowest dismissal, and the
    same for every log with the same records in another order. -/
def ColorsDay (fileExists : QString → Bool) (logData : QString) (s : StatDialog) (d : QDate) :
    Prop :=
  (populateList fileExists logData none s).calendar d = dayColor (records logData) d ∧
    ∀ logData', (records logData').Perm (records logData) →
      (populateList fileExists logData' none s).calendar d =
        (populateList fileExists logData none s).calendar d

/-- **The calendar colours a day by its slowest dismissal** exactly when, for both
    thresholds, a record of the day is above it just when some record of the day reads as
    above it in 32 bits. -/
theorem colorsDay_iff (fileExists : QString → Bool) (logData : QString) (s : StatDialog)
    (d : QDate) :
    ColorsDay fileExists logData s d ↔
      ∀ t ∈ [(30 : Int), 120],
        (∃ r ∈ (records logData).filter (countsFor d), t < elapsedSecs r) ↔
          ∃ r ∈ (records logData).filter (countsFor d), ReadsAbove t (elapsedSecs r) := by
  have hreads : ∀ t ∈ [(30 : Int), 120],
      (∃ r ∈ (records logData).filter (countsFor d), t < reactionSecs r) ↔
        ∃ r ∈ (records logData).filter (countsFor d), ReadsAbove t (elapsedSecs r) := by
    intro t ht
    have ht0 : 0 ≤ t := by rcases List.mem_pair.mp ht with rfl | rfl <;> decide
    apply exists_congr
    intro r
    apply and_congr_right
    intro hr
    exact lt_reactionSecs_iff (wholeSecs_of_mem (List.mem_of_mem_filter hr)) ht0
  have hperm : ∀ logData', (records logData').Perm (records logData) →
      (populateList fileExists logData' none s).calendar d =
        (populateList fileExists logData none s).calendar d := fun _ h => by
    rw [calendar_populateList_perm fileExists h s]
  rw [ColorsDay, and_iff_left hperm, calendar_populateList, dayColor, max?_colorVal_eq_iff]
  apply forall₂_congr
  intro t ht
  rw [hreads t ht]
  exact Iff.comm

/-- A record dismissed seventy years after its alarm colours its day green. -/
theorem not_colorsDay_decades :
    ¬ ColorsDay (fun _ => false)
      "ALARM: 2000-01-01 00:00 | DISMISSED: 2070-01-01 00:00:00".toList {}
      (QDate.ofYMD 2070 1 1) := by
  intro h
  have hvalue := h.1
  revert hvalue
  decide +kernel

end StatDialog

end AlarmClock
