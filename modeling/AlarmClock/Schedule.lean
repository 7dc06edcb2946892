import AlarmClock.DateTime
import Mathlib.Data.Int.Bitwise

/-!
# The next occurrence of a weekly alarm

`repeatMask` has one bit for each weekday, Sunday first. The main window and the
alarm editor each search the next seven days for the first date-time after now that
falls on a weekday of the mask; the search is the same, written twice. Against it
stands `IsFirstOccurrence`, which does not mention a search.
-/

namespace AlarmClock

/-! ### The search -/

/-- Mon=1..Sun=7 becomes Sun=0..Sat=6. -/
def weekdayIndexFromDate (date : QDate) : Nat := (date.dayOfWeek % 7).toNat

/-- The loop over the day offsets, `remaining` of them from `offset` on. -/
def searchFrom (now : QDateTime) (time : QTime) (repeatMask : Int) : Nat → Int → QDateTime
  | 0, _ => QDateTime.ofDateTime (now.date.addDays 1) time
  | remaining + 1, offset =>
    let candidateDate := now.date.addDays offset
    let idx := weekdayIndexFromDate candidateDate
    if repeatMask.testBit idx = false then searchFrom now time repeatMask remaining (offset + 1)
    else
      let candidate := QDateTime.ofDateTime candidateDate time
      if now < candidate then candidate
      else searchFrom now time repeatMask remaining (offset + 1)

/-- The search of `mainwindow.cpp`. -/
def computeNextRepeatDateTime (now : QDateTime) (time : QTime) (repeatMask : Int) : QDateTime :=
  searchFrom now time repeatMask 8 0

/-- The search of `alarmdialog.cpp`. -/
def computeNextForRepeat (now : QDateTime) (time : QTime) (mask : Int) : QDateTime :=
  searchFrom now time mask 8 0

/-! ### What is searched for -/

/-- `dt` is a date-time after `now` with the time of day `time` on a weekday of the mask. -/
structure IsOccurrence (now : QDateTime) (time : QTime) (mask : Int) (dt : QDateTime) : Prop where
  after : now < dt
  valid : dt.isValid = true
  time_eq : dt.time = time
  weekday : mask.testBit (weekdayIndexFromDate dt.date) = true

/-- `dt` is the earliest of them. -/
structure IsFirstOccurrence (now : QDateTime) (time : QTime) (mask : Int) (dt : QDateTime) :
    Prop extends IsOccurrence now time mask dt where
  first : ∀ x, IsOccurrence now time mask x → dt ≤ x

theorem IsFirstOccurrence.unique {now : QDateTime} {time : QTime} {mask : Int} {x y : QDateTime}
    (hx : IsFirstOccurrence now time mask x) (hy : IsFirstOccurrence now time mask y) : x = y := by
  have hxy := QDateTime.le_def.mp (hx.first y hy.toIsOccurrence)
  have hyx := QDateTime.le_def.mp (hy.first x hx.toIsOccurrence)
  obtain ⟨mx, vx⟩ := x
  obtain ⟨my, vy⟩ := y
  have hvx : vx = true := hx.valid
  have hvy : vy = true := hy.valid
  simp only at hxy hyx
  rw [hvx, hvy, Int.le_antisymm hxy hyx]

/-- The first occurrence stays the first one until it is reached. -/
theorem IsFirstOccurrence.later {now now' : QDateTime} {time : QTime} {mask : Int} {x : QDateTime}
    (hx : IsFirstOccurrence now time mask x) (hle : now ≤ now') (hlt : now' < x) :
    IsFirstOccurrence now' time mask x := by
  refine ⟨⟨hlt, hx.valid, hx.time_eq, hx.weekday⟩, ?_⟩
  intro y hy
  refine hx.first y ⟨?_, hy.valid, hy.time_eq, hy.weekday⟩
  have := QDateTime.le_def.mp hle
  have := QDateTime.lt_def.mp hy.after
  rw [QDateTime.lt_def]
  omega

/-! ### The search finds it -/

theorem weekdayIndexFromDate_some (jd : Int) :
    (weekdayIndexFromDate (some jd) : Int) = (jd + 1) % 7 := by
  simp only [weekdayIndexFromDate, QDate.dayOfWeek, Option.elim]
  omega

/-- A mask of the seven weekdays that is not empty has one of their bits. -/
theorem exists_weekday {mask : Int} (h0 : 0 ≤ mask) (h127 : mask ≤ 127) (hne : mask ≠ 0) :
    ∃ i < 7, mask.testBit i = true := by
  obtain ⟨n, rfl⟩ := Int.eq_ofNat_of_zero_le h0
  have hn : n ≠ 0 := by omega
  obtain ⟨i, hi⟩ := Nat.exists_testBit_of_ne_zero hn
  refine ⟨i, ?_, hi⟩
  by_contra hge
  have hpow : 2 ^ 7 ≤ 2 ^ i := Nat.pow_le_pow_right (by omega) (by omega)
  rw [Nat.testBit_lt_two_pow (by omega)] at hi
  exact Bool.noConfusion hi

/-- An occurrence is the candidate of its own day. -/
theorem IsOccurrence.eq_candidate {now : QDateTime} {time : QTime} {mask : Int} {x : QDateTime}
    (hx : IsOccurrence now time mask x) :
    x = QDateTime.ofDateTime (some (x.msecs / 86400000 + 2440588)) time := by
  rw [← QDateTime.date_of_isValid hx.valid, ← hx.time_eq,
    QDateTime.ofDateTime_date_time hx.valid]

/-- **The loop.** When no occurrence lies before the current offset and some
    remaining offset has one, the loop returns the first occurrence. -/
theorem searchFrom_isFirst {now : QDateTime} {time : QTime} {mask : Int} {jd : Int}
    (hdate : now.date = some jd) (remaining : Nat) (offset : Int)
    (hnone : ∀ x, IsOccurrence now time mask x → jd + offset ≤ x.msecs / 86400000 + 2440588)
    (hsome : ∃ k, offset ≤ k ∧ k < offset + remaining ∧
      IsOccurrence now time mask (QDateTime.ofDateTime (some (jd + k)) time)) :
    IsFirstOccurrence now time mask (searchFrom now time mask remaining offset) := by
  induction remaining generalizing offset with
  | zero =>
    obtain ⟨k, hk, hk', -⟩ := hsome
    omega
  | succ remaining ih =>
    have hcand : now.date.addDays offset = some (jd + offset) := by rw [hdate]; rfl
    by_cases hocc : IsOccurrence now time mask (QDateTime.ofDateTime (some (jd + offset)) time)
    · -- this offset has an occurrence, and no earlier day does
      have hbit : ¬ mask.testBit (weekdayIndexFromDate (some (jd + offset))) = false := by
        have := hocc.weekday
        rw [QDateTime.date_ofDateTime] at this
        simp [this]
      simp only [searchFrom, hcand]
      rw [if_neg hbit, if_pos hocc.after]
      refine ⟨hocc, ?_⟩
      intro x hx
      have hday := hnone x hx
      rw [hx.eq_candidate]
      simp only [QDateTime.le_def, QDateTime.ofDateTime_some_msecs]
      omega
    · -- the offset is passed over, whichever of the two tests fails
      have hnext : searchFrom now time mask (remaining + 1) offset =
          searchFrom now time mask remaining (offset + 1) := by
        simp only [searchFrom, hcand]
        by_cases hbit : mask.testBit (weekdayIndexFromDate (some (jd + offset))) = false
        · rw [if_pos hbit]
        · rw [if_neg hbit, if_neg]
          intro hafter
          exact hocc ⟨hafter, rfl, QDateTime.time_ofDateTime _ _, by
            rw [QDateTime.date_ofDateTime]; simpa using hbit⟩
      rw [hnext]
      refine ih (offset + 1) (fun x hx => ?_) ?_
      · have hday := hnone x hx
        have hne : x.msecs / 86400000 + 2440588 ≠ jd + offset := by
          intro heq
          have hxc := hx.eq_candidate
          rw [heq] at hxc
          exact hocc (hxc ▸ hx)
        omega
      · obtain ⟨k, hk, hk', hkocc⟩ := hsome
        have hne : k ≠ offset := by
          rintro rfl
          exact hocc hkocc
        exact ⟨k, by omega, by omega, hkocc⟩

/-- One of the next seven days is an occurrence: the first that falls on a set bit. -/
theorem exists_occurrence {now : QDateTime} (time : QTime) {mask : Int} {jd : Int}
    (hjd : jd = now.msecs / 86400000 + 2440588) (hmask : ∃ i < 7, mask.testBit i = true) :
    ∃ k, 1 ≤ k ∧ k ≤ 7 ∧
      IsOccurrence now time mask (QDateTime.ofDateTime (some (jd + k)) time) := by
  obtain ⟨i, hi, hbit⟩ := hmask
  obtain ⟨k, hk⟩ : ∃ k, k = (i - jd - 2) % 7 + 1 := ⟨_, rfl⟩
  have hday : weekdayIndexFromDate (some (jd + k)) = i := by
    have := weekdayIndexFromDate_some (jd + k)
    omega
  have ht0 := time.nonneg
  have ht1 := time.lt
  refine ⟨k, by omega, by omega, ⟨?_, rfl, QDateTime.time_ofDateTime _ _, ?_⟩⟩
  · rw [QDateTime.lt_def, QDateTime.ofDateTime_some_msecs]
    omega
  · rw [QDateTime.date_ofDateTime, hday]
    exact hbit

/-- **The search finds the first occurrence**, whatever the bits above the seven days are. -/
theorem computeNextRepeatDateTime_isFirst_of_bit {now : QDateTime} {time : QTime} {mask : Int}
    (hnow : now.isValid = true) (hmask : ∃ i < 7, mask.testBit i = true) :
    IsFirstOccurrence now time mask (computeNextRepeatDateTime now time mask) := by
  obtain ⟨jd, hjd⟩ : ∃ jd, jd = now.msecs / 86400000 + 2440588 := ⟨_, rfl⟩
  have hdate : now.date = some jd := by rw [QDateTime.date_of_isValid hnow, hjd]
  apply searchFrom_isFirst hdate 8 0
  · intro x hx
    have := QDateTime.lt_def.mp hx.after
    omega
  · obtain ⟨k, hk, hk', hocc⟩ := exists_occurrence time hjd hmask
    exact ⟨k, by omega, by omega, hocc⟩

/-- The masks of the application are those of the seven weekdays. -/
theorem computeNextRepeatDateTime_isFirst {now : QDateTime} {time : QTime} {mask : Int}
    (hnow : now.isValid = true) (h0 : 0 ≤ mask) (h127 : mask ≤ 127) (hne : mask ≠ 0) :
    IsFirstOccurrence now time mask (computeNextRepeatDateTime now time mask) :=
  computeNextRepeatDateTime_isFirst_of_bit hnow (exists_weekday h0 h127 hne)

/-! ### The loop returns by itself

The `return` below the loop is never reached, and the day found is at most a week ahead. -/

/-- The offset at which the loop returns; `none` when it runs out. -/
def foundAt (now : QDateTime) (time : QTime) (repeatMask : Int) : Nat → Int → Option Int
  | 0, _ => none
  | remaining + 1, offset =>
    let candidateDate := now.date.addDays offset
    if repeatMask.testBit (weekdayIndexFromDate candidateDate) = true ∧
        now < QDateTime.ofDateTime candidateDate time then some offset
    else foundAt now time repeatMask remaining (offset + 1)

/-- The search is the loop, and the fallback after it. -/
theorem searchFrom_eq_foundAt (now : QDateTime) (time : QTime) (mask : Int) (remaining : Nat)
    (offset : Int) :
    searchFrom now time mask remaining offset =
      QDateTime.ofDateTime
        (now.date.addDays ((foundAt now time mask remaining offset).getD 1)) time := by
  induction remaining generalizing offset with
  | zero => rfl
  | succ remaining ih =>
    rw [searchFrom, foundAt]
    rcases Bool.eq_false_or_eq_true
      (mask.testBit (weekdayIndexFromDate (now.date.addDays offset))) with hbit | hbit
    · by_cases hafter : now < QDateTime.ofDateTime (now.date.addDays offset) time
      · simp [hbit, hafter]
      · simp [hbit, hafter, ih]
    · simp [hbit, ih]

/-- The loop stays within its offsets. -/
theorem foundAt_bounds {now : QDateTime} {time : QTime} {mask : Int} {remaining : Nat}
    {offset k : Int} (hfound : foundAt now time mask remaining offset = some k) :
    offset ≤ k ∧ k < offset + remaining := by
  induction remaining generalizing offset with
  | zero => simp [foundAt] at hfound
  | succ remaining ih =>
    rw [foundAt] at hfound
    split_ifs at hfound with htest
    · obtain rfl := Option.some.inj hfound
      constructor <;> omega
    · obtain ⟨hle, hlt⟩ := ih hfound
      constructor <;> omega

/-- It does not run past a day that has an occurrence. -/
theorem exists_foundAt {now : QDateTime} {time : QTime} {mask : Int} {jd k : Int}
    (hdate : now.date = some jd)
    (hocc : IsOccurrence now time mask (QDateTime.ofDateTime (some (jd + k)) time))
    (remaining : Nat) (offset : Int) (hle : offset ≤ k) (hlt : k < offset + remaining) :
    ∃ j, foundAt now time mask remaining offset = some j := by
  induction remaining generalizing offset with
  | zero => omega
  | succ remaining ih =>
    rw [foundAt]
    split_ifs with htest
    · exact ⟨offset, rfl⟩
    · apply ih (offset + 1) _ (by omega)
      rcases Int.lt_or_eq_of_le hle with hlt' | rfl
      · exact hlt'
      · have hcand : now.date.addDays offset = some (jd + offset) := by rw [hdate]; rfl
        have hbit := hocc.weekday
        rw [QDateTime.date_ofDateTime] at hbit
        rw [hcand] at htest
        exact absurd ⟨hbit, hocc.after⟩ htest

/-- Days of the week by the calendar, Sunday first: the day 2440588 was a Thursday. -/
def daysFromSunday (jd : Int) : Nat := ((jd - 2440588 + 4) % 7).toNat

theorem weekdayIndexFromDate_eq (jd : Int) :
    weekdayIndexFromDate (some jd) = daysFromSunday jd := by
  have := weekdayIndexFromDate_some jd
  unfold daysFromSunday
  omega

/-- **The next occurrence.** Both searches return, from inside the loop, the first
    date-time after now at the time of day on a weekday of the mask, a week ahead at most. -/
theorem computeNextRepeatDateTime_spec (now : QDateTime) (time : QTime) (mask : Int)
    (hnow : now.isValid = true) (hmask : ∃ i < 7, mask.testBit i = true) :
    ∃ today k, now.date = some today ∧ 0 ≤ k ∧ k ≤ 7 ∧
      foundAt now time mask 8 0 = some k ∧
      computeNextRepeatDateTime now time mask = QDateTime.ofDateTime (some (today + k)) time ∧
      computeNextForRepeat now time mask = computeNextRepeatDateTime now time mask ∧
      now < computeNextRepeatDateTime now time mask ∧
      (computeNextRepeatDateTime now time mask).time = time ∧
      (computeNextRepeatDateTime now time mask).date = some (today + k) ∧
      mask.testBit (daysFromSunday (today + k)) = true ∧
      ∀ jd t, now < QDateTime.ofDateTime (some jd) t → t = time →
        mask.testBit (daysFromSunday jd) = true →
        computeNextRepeatDateTime now time mask ≤ QDateTime.ofDateTime (some jd) t := by
  obtain ⟨today, htoday⟩ : ∃ jd, jd = now.msecs / 86400000 + 2440588 := ⟨_, rfl⟩
  have hdate : now.date = some today := by rw [QDateTime.date_of_isValid hnow, htoday]
  obtain ⟨j, hj, hj', hocc⟩ := exists_occurrence time htoday hmask
  obtain ⟨k, hfound⟩ := exists_foundAt hdate hocc 8 0 (by omega) (by omega)
  obtain ⟨hk, hk'⟩ := foundAt_bounds hfound
  have hvalue : computeNextRepeatDateTime now time mask =
      QDateTime.ofDateTime (some (today + k)) time := by
    rw [computeNextRepeatDateTime, searchFrom_eq_foundAt, hfound, hdate]
    rfl
  have hfirst : IsFirstOccurrence now time mask (computeNextRepeatDateTime now time mask) :=
    computeNextRepeatDateTime_isFirst_of_bit hnow hmask
  have hday : (computeNextRepeatDateTime now time mask).date = some (today + k) := by
    rw [hvalue, QDateTime.date_ofDateTime]
  refine ⟨today, k, hdate, hk, by omega, hfound, hvalue, rfl, hfirst.after, hfirst.time_eq,
    hday, ?_, ?_⟩
  · have hbit := hfirst.weekday
    rwa [hday, weekdayIndexFromDate_eq] at hbit
  · rintro jd t hafter rfl hbit
    refine hfirst.first _ ⟨hafter, rfl, QDateTime.time_ofDateTime _ _, ?_⟩
    rw [QDateTime.date_ofDateTime, weekdayIndexFromDate_eq]
    exact hbit

/-- Sundays only, on a Sunday at the very minute: the alarm is a week ahead. -/
theorem computeNextRepeatDateTime_spec_sunday :
    ∃ today k, QDateTime.date ⟨259200000, true⟩ = some today ∧ 0 ≤ k ∧ k ≤ 7 ∧
      foundAt ⟨259200000, true⟩ ⟨0, by decide, by decide⟩ 1 8 0 = some k ∧
      computeNextRepeatDateTime ⟨259200000, true⟩ ⟨0, by decide, by decide⟩ 1 =
        ⟨864000000, true⟩ := by
  obtain ⟨today, k, hdate, hk, hk', hfound, -⟩ := computeNextRepeatDateTime_spec
    ⟨259200000, true⟩ ⟨0, by decide, by decide⟩ 1 rfl ⟨0, by decide, by decide⟩
  exact ⟨today, k, hdate, hk, hk', hfound, by decide⟩

end AlarmClock
