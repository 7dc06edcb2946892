import AlarmClock.Ultrasonic
import Mathlib.Data.Int.ConditionallyCompleteOrder
import Mathlib.Data.List.Forall2
import Mathlib.Data.Nat.Find
import Mathlib.Order.ConditionallyCompleteLattice.Basic
import Mathlib.Order.Monotone.Basic

/-!
# Measuring a distance

`hcsr04_measure_one` times the echo of a sensor: it polls the pin for the rise and for the
fall, each for thirty milliseconds at most, and reads the clock at both. Every access to the
clock or to the pin is an instant of its own, so that anything can happen in between; time
does not run backwards, and does not stop.
-/

namespace AlarmClock

namespace Hcsr04

/-! ### The measurement -/

/-- What the accesses find: the clock in nanoseconds, and the level of the echo pin. -/
structure Board where
  clock : Nat → Int
  level : Nat → Bool

inductive MeasureErrno where
  | ETIMEDOUT
  | EIO
  | ERANGE
deriving DecidableEq, Repr

def UINT_MAX : Nat := 4294967295

/-- `ktime_us_delta` -/
def ktimeUsDelta (later earlier : Int) : Int := (later - earlier).tdiv 1000

/-- The loop of `hcsr04_wait_for_level` at an instant: the time of the level, or an error, and
    the instant after the return. -/
def waitLoop (b : Board) (target : Bool) (timeout_us start : Int) :
    Nat → Nat → Option (Except MeasureErrno Int × Nat)
  | 0, _ => none
  | fuel + 1, n =>
    if b.level n = target then some (.ok (b.clock (n + 1)), n + 2)
    else if timeout_us ≤ ktimeUsDelta (b.clock (n + 1)) start then some (.error .ETIMEDOUT, n + 2)
    else waitLoop b target timeout_us start fuel (n + 2)

def waitForLevel (b : Board) (target : Bool) (timeout_us : Int) (fuel n : Nat) :
    Option (Except MeasureErrno Int × Nat) :=
  waitLoop b target timeout_us (b.clock n) fuel (n + 1)

/-- What becomes of the length of a pulse. -/
def distanceOf (pulse_us : Int) : Except MeasureErrno Nat :=
  if pulse_us ≤ 0 then .error MeasureErrno.EIO
  else
    let dist := pulse_us.toNat / 58
    if dist > UINT_MAX then .error .ERANGE else .ok dist

/-- `hcsr04_measure_one` from the end of the trigger pulse on. -/
def measureOne (b : Board) (fuel n : Nat) : Option (Except MeasureErrno Nat × Nat) :=
  match waitForLevel b true 30000 fuel n with
  | none => none
  | some (.error e, n) => some (.error e, n)
  | some (.ok rise_ts, n) =>
    match waitForLevel b false 30000 fuel n with
    | none => none
    | some (.error e, n) => some (.error e, n)
    | some (.ok fall_ts, n) => some (distanceOf (ktimeUsDelta fall_ts rise_ts), n)

/-! ### The loop -/

variable {b : Board} {target : Bool} {timeout_us start : Int}

/-- The loop stops in its `k`-th round: the level is there, or the time is over. -/
def Stops (b : Board) (target : Bool) (timeout_us start : Int) (n k : Nat) : Prop :=
  b.level (n + 2 * k) = target ∨ timeout_us ≤ ktimeUsDelta (b.clock (n + 2 * k + 1)) start

instance decidableStops (b : Board) (target : Bool) (timeout_us start : Int) (n k : Nat) :
    Decidable (Stops b target timeout_us start n k) := by
  unfold Stops
  infer_instance

/-- What the loop returns when it stops in its `k`-th round. -/
def outcome (b : Board) (target : Bool) (n k : Nat) : Except MeasureErrno Int × Nat :=
  (if b.level (n + 2 * k) = target then .ok (b.clock (n + 2 * k + 1)) else .error .ETIMEDOUT,
    n + 2 * k + 2)

/-- **The loop** returns what its first round that stops finds. -/
theorem waitLoop_first {k : Nat} {n fuel : Nat}
    (hbefore : ∀ j < k, ¬ Stops b target timeout_us start n j)
    (hstops : Stops b target timeout_us start n k) (hfuel : k < fuel) :
    waitLoop b target timeout_us start fuel n = some (outcome b target n k) := by
  induction k generalizing n fuel with
  | zero =>
    obtain ⟨fuel, rfl⟩ := Nat.exists_eq_add_of_lt hfuel
    have hzero : outcome b target n 0 =
        (if b.level n = target then .ok (b.clock (n + 1)) else .error .ETIMEDOUT, n + 2) := rfl
    rw [Nat.zero_add, waitLoop, hzero]
    by_cases hlevel : b.level n = target
    · rw [if_pos hlevel, if_pos hlevel]
    · have htime : timeout_us ≤ ktimeUsDelta (b.clock (n + 1)) start := hstops.resolve_left hlevel
      rw [if_neg hlevel, if_pos htime, if_neg hlevel]
  | succ k ih =>
    obtain ⟨fuel, rfl⟩ : ∃ m, fuel = m + 1 := ⟨fuel - 1, by omega⟩
    have hfirst := hbefore 0 (Nat.succ_pos k)
    unfold Stops at hfirst
    rw [Nat.mul_zero, Nat.add_zero, not_or] at hfirst
    have hshift : ∀ j, n + 2 + 2 * j = n + 2 * (j + 1) := fun j => by omega
    have hlater := @ih (n + 2) fuel
    rw [waitLoop, if_neg hfirst.1, if_neg hfirst.2, hlater ?_ ?_ (by omega)]
    · unfold outcome
      rw [hshift]
    · intro j hj
      have hnot := hbefore (j + 1) (by omega)
      unfold Stops at hnot ⊢
      rwa [hshift]
    · unfold Stops at hstops ⊢
      rwa [hshift]

theorem ktimeUsDelta_of_le {later earlier : Int} (h : earlier ≤ later) :
    ktimeUsDelta later earlier = (later - earlier) / 1000 :=
  Int.tdiv_eq_ediv_of_nonneg (by omega)

/-- Time that goes on stops every wait. -/
theorem exists_first_stop (hmono : Monotone b.clock) (hunbounded : ∀ t, ∃ n, t ≤ b.clock n)
    (target : Bool) (timeout_us start : Int) (n : Nat) (hstart : start ≤ b.clock n) :
    ∃ k, (∀ j < k, ¬ Stops b target timeout_us start n j) ∧
      Stops b target timeout_us start n k := by
  have hsome : ∃ k, Stops b target timeout_us start n k := by
    obtain ⟨m, hm⟩ := hunbounded (start + timeout_us * 1000)
    refine ⟨m, .inr ?_⟩
    have hlater : b.clock m ≤ b.clock (n + 2 * m + 1) := hmono (by omega)
    have hafter : b.clock n ≤ b.clock (n + 2 * m + 1) := hmono (by omega)
    rw [ktimeUsDelta_of_le (by omega)]
    omega
  exact ⟨Nat.find hsome, fun j hj => Nat.find_min hsome hj, Nat.find_spec hsome⟩

/-! ### One measurement -/

/-- The pin is polled at the `k`-th round of a wait that starts at an instant. -/
def poll (n k : Nat) : Nat := n + 1 + 2 * k

/-- A wait from an instant on, in which the level is polled in the `k`-th round for the first
    time, and before the time is over. -/
structure Seen (b : Board) (target : Bool) (n k : Nat) : Prop where
  before : ∀ j < k, b.level (poll n j) ≠ target ∧
    ktimeUsDelta (b.clock (poll n j + 1)) (b.clock n) < 30000
  level : b.level (poll n k) = target

/-- A wait in which the level is not polled until the time is over. -/
structure Missed (b : Board) (target : Bool) (n k : Nat) : Prop where
  level : ∀ j ≤ k, b.level (poll n j) ≠ target
  before : ∀ j < k, ktimeUsDelta (b.clock (poll n j + 1)) (b.clock n) < 30000
  time : 30000 ≤ ktimeUsDelta (b.clock (poll n k + 1)) (b.clock n)

theorem Seen.wait {n k fuel : Nat} (h : Seen b target n k) (hfuel : k < fuel) :
    waitForLevel b target 30000 fuel n = some (.ok (b.clock (poll n k + 1)), poll n k + 2) := by
  unfold waitForLevel
  have hlevel : b.level (n + 1 + 2 * k) = target := h.level
  rw [waitLoop_first (k := k) ?_ (.inl h.level) hfuel, outcome, if_pos hlevel]
  · rfl
  · intro j hj
    obtain ⟨hlevel, htime⟩ := h.before j hj
    rintro (hstop | hstop)
    · exact hlevel hstop
    · exact absurd hstop (Int.not_le.mpr htime)

theorem Missed.wait {n k fuel : Nat} (h : Missed b target n k) (hfuel : k < fuel) :
    waitForLevel b target 30000 fuel n = some (.error .ETIMEDOUT, poll n k + 2) := by
  unfold waitForLevel
  have hlevel : ¬ b.level (n + 1 + 2 * k) = target := h.level k (Nat.le_refl k)
  rw [waitLoop_first (k := k) ?_ (.inr h.time) hfuel, outcome, if_neg hlevel]
  · rfl
  · intro j hj
    rintro (hstop | hstop)
    · exact h.level j (Nat.le_of_lt hj) hstop
    · exact absurd hstop (Int.not_le.mpr (h.before j hj))

/-- Every wait sees the level or misses it. -/
theorem seen_or_missed (hmono : Monotone b.clock) (hunbounded : ∀ t, ∃ n, t ≤ b.clock n)
    (target : Bool) (n : Nat) : ∃ k, Seen b target n k ∨ Missed b target n k := by
  obtain ⟨k, hbefore, hstops⟩ := exists_first_stop hmono hunbounded target 30000 (b.clock n)
    (n + 1) (hmono (by omega))
  have hnot : ∀ j < k, b.level (poll n j) ≠ target ∧
      ktimeUsDelta (b.clock (poll n j + 1)) (b.clock n) < 30000 := by
    intro j hj
    have hround := hbefore j hj
    rw [Stops, not_or] at hround
    exact ⟨hround.1, Int.not_le.mp hround.2⟩
  by_cases hlevel : b.level (poll n k) = target
  · exact ⟨k, .inl ⟨hnot, hlevel⟩⟩
  · refine ⟨k, .inr ⟨?_, fun j hj => (hnot j hj).2, hstops.resolve_left hlevel⟩⟩
    intro j hj
    rcases Nat.lt_or_eq_of_le hj with hlt | rfl
    · exact (hnot j hlt).1
    · exact hlevel

/-- What a measurement that starts at an instant has seen, and what it returns: no rise, no
    fall after a rise, or a pulse. -/
inductive Measured (b : Board) (n : Nat) : Except MeasureErrno Nat → Prop where
  | noRise (k : Nat) (hrise : Missed b true n k) : Measured b n (.error .ETIMEDOUT)
  | noFall (k m : Nat) (hrise : Seen b true n k) (hfall : Missed b false (poll n k + 2) m) :
      Measured b n (.error .ETIMEDOUT)
  | pulse (k m : Nat) (hrise : Seen b true n k) (hfall : Seen b false (poll n k + 2) m) :
      Measured b n (distanceOf (ktimeUsDelta (b.clock (poll (poll n k + 2) m + 1))
        (b.clock (poll n k + 1))))

/-- **A measurement returns**, whatever the pin does: from some number of rounds on the result
    is the same, and it is what was seen. -/
theorem measureOne_returns (hmono : Monotone b.clock) (hunbounded : ∀ t, ∃ n, t ≤ b.clock n)
    (n : Nat) :
    ∃ rounds r n', (∀ fuel, rounds < fuel → measureOne b fuel n = some (r, n')) ∧ n < n' ∧
      Measured b n r := by
  obtain ⟨k, hrise | hrise⟩ := seen_or_missed hmono hunbounded true n
  · obtain ⟨m, hfall | hfall⟩ := seen_or_missed hmono hunbounded false (poll n k + 2)
    · refine ⟨max k m, _, poll (poll n k + 2) m + 2, ?_, ?_, .pulse k m hrise hfall⟩
      · intro fuel hfuel
        rw [measureOne, hrise.wait (by omega)]
        dsimp only
        rw [hfall.wait (by omega)]
      · unfold poll
        omega
    · refine ⟨max k m, _, poll (poll n k + 2) m + 2, ?_, ?_, .noFall k m hrise hfall⟩
      · intro fuel hfuel
        rw [measureOne, hrise.wait (by omega)]
        dsimp only
        rw [hfall.wait (by omega)]
      · unfold poll
        omega
  · refine ⟨k, _, poll n k + 2, ?_, ?_, .noRise k hrise⟩
    · intro fuel hfuel
      rw [measureOne, hrise.wait hfuel]
    · unfold poll
      omega

/-- An echo from half a millisecond on, of 1.16 milliseconds, with a clock that goes on by a
    microsecond from one access to the next. -/
def echoBoard : Board where
  clock n := 1000 * n
  level n := decide (500 ≤ n ∧ n < 1660)

theorem monotone_echoBoard : Monotone echoBoard.clock := by
  intro m n h
  show (1000 * m : Int) ≤ 1000 * n
  omega

theorem unbounded_echoBoard (t : Int) : ∃ n, t ≤ echoBoard.clock n := by
  refine ⟨t.toNat, ?_⟩
  show t ≤ 1000 * (t.toNat : Int)
  omega

theorem measureOne_returns_echo :
    ∃ rounds r n', (∀ fuel, rounds < fuel → measureOne echoBoard fuel 0 = some (r, n')) ∧
      0 < n' ∧ Measured echoBoard 0 r :=
  measureOne_returns monotone_echoBoard unbounded_echoBoard 0

/-- A distance is the centimetres of a pulse, rounded down. -/
theorem distanceOf_eq_ok {pulse_us : Int} {d : Nat} (h : distanceOf pulse_us = .ok d) :
    0 < pulse_us ∧ 58 * (d : Int) ≤ pulse_us ∧ pulse_us < 58 * (d + 1) := by
  unfold distanceOf at h
  dsimp only at h
  split_ifs at h with hpos hrange
  obtain rfl := Except.ok.inj h
  have hcast : (pulse_us.toNat : Int) = pulse_us := Int.toNat_of_nonneg (by omega)
  omega

theorem distanceOf_of_range {pulse_us : Int} (hpos : 0 < pulse_us)
    (hrange : pulse_us < 58 * (UINT_MAX + 1)) :
    distanceOf pulse_us = .ok (pulse_us.toNat / 58) := by
  unfold distanceOf
  dsimp only
  have hmax : ((UINT_MAX : Nat) : Int) = 4294967295 := rfl
  rw [if_neg (by omega), if_neg]
  unfold UINT_MAX
  omega

/-! ### An echo -/

/-- The pin is high from one moment to another. -/
structure Echo (b : Board) (rise fall : Int) : Prop where
  level : ∀ n, b.level n = true ↔ rise ≤ b.clock n ∧ b.clock n < fall

/-- From one access to the next no more than `gap` nanoseconds pass. -/
structure Paced (b : Board) (gap : Int) : Prop where
  mono : Monotone b.clock
  gap : ∀ n, b.clock (n + 1) ≤ b.clock n + gap

theorem Paced.gap_nonneg {gap : Int} (h : Paced b gap) : 0 ≤ gap := by
  have hstep := h.gap 0
  have hmono : b.clock 0 ≤ b.clock (0 + 1) := h.mono (Nat.le_succ 0)
  omega

theorem Paced.two {gap : Int} (h : Paced b gap) (n : Nat) :
    b.clock (n + 2) ≤ b.clock n + 2 * gap := by
  have h₁ := h.gap n
  have h₂ : b.clock (n + 2) ≤ b.clock (n + 1) + gap := h.gap (n + 1)
  omega

/-- A moment that lies ahead is passed by some poll of a wait for the first time. -/
theorem exists_first_poll (hunbounded : ∀ t, ∃ n, t ≤ b.clock n) (hmono : Monotone b.clock)
    (moment : Int) (n : Nat) :
    ∃ k, (∀ j < k, b.clock (poll n j) < moment) ∧ moment ≤ b.clock (poll n k) := by
  have hsome : ∃ k, moment ≤ b.clock (poll n k) := by
    obtain ⟨m, hm⟩ := hunbounded moment
    refine ⟨m, hm.trans (hmono ?_)⟩
    unfold poll
    omega
  exact ⟨Nat.find hsome, fun j hj => Int.not_le.mp (Nat.find_min hsome hj), Nat.find_spec hsome⟩

/-- The poll that passes a moment comes no later than two accesses after it, or it is the
    first. -/
theorem Paced.poll_le {gap : Int} (h : Paced b gap) {moment : Int} {n k : Nat}
    (hbefore : ∀ j < k, b.clock (poll n j) < moment) :
    k = 0 ∨ b.clock (poll n k) < moment + 2 * gap := by
  cases k with
  | zero => exact .inl rfl
  | succ k =>
    have hlast := hbefore k (Nat.lt_succ_self k)
    have htwo : b.clock (poll n (k + 1)) ≤ b.clock (poll n k) + 2 * gap := h.two (poll n k)
    exact .inr (by omega)

/-- A poll before a moment finds the time not over, if the moment is near enough. -/
theorem Paced.in_time {gap : Int} (h : Paced b gap) {moment : Int} {n k : Nat}
    (hbefore : b.clock (poll n k) < moment) (hnear : moment + gap - b.clock n ≤ 30000000) :
    ktimeUsDelta (b.clock (poll n k + 1)) (b.clock n) < 30000 := by
  have hnext := h.gap (poll n k)
  have hafter : b.clock n ≤ b.clock (poll n k + 1) := h.mono (by unfold poll; omega)
  rw [ktimeUsDelta_of_le hafter]
  omega

variable {gap rise fall : Int}

/-- The rise of an echo is seen. -/
theorem Echo.seen_rise (hecho : Echo b rise fall) (hpaced : Paced b gap)
    (hunbounded : ∀ t, ∃ n, t ≤ b.clock n) {n : Nat} (hstart : b.clock n ≤ rise)
    (hsoon : rise + gap - b.clock n ≤ 30000000) (hlong : 3 * gap + 1000 ≤ fall - rise) :
    ∃ k, Seen b true n k ∧ rise ≤ b.clock (poll n k) ∧
      b.clock (poll n k) ≤ rise + 2 * gap := by
  obtain ⟨k, hbefore, hpassed⟩ := exists_first_poll hunbounded hpaced.mono rise n
  have hgap := hpaced.gap_nonneg
  have hle : b.clock (poll n k) ≤ rise + 2 * gap := by
    rcases hpaced.poll_le hbefore with rfl | hlt
    · have hfirst : b.clock (poll n 0) ≤ b.clock n + gap := hpaced.gap n
      omega
    · exact Int.le_of_lt hlt
  refine ⟨k, ⟨?_, (hecho.level _).mpr ⟨hpassed, by omega⟩⟩, hpassed, hle⟩
  intro j hj
  refine ⟨?_, hpaced.in_time (hbefore j hj) hsoon⟩
  intro hhigh
  exact absurd ((hecho.level _).mp hhigh).1 (Int.not_le.mpr (hbefore j hj))

/-- Its fall is seen after that. -/
theorem Echo.seen_fall (hecho : Echo b rise fall) (hpaced : Paced b gap)
    (hunbounded : ∀ t, ∃ n, t ≤ b.clock n) {i : Nat} (hrise : rise ≤ b.clock i)
    (hhigh : b.clock i < fall) (hshort : fall - rise + gap ≤ 30000000) :
    ∃ m, Seen b false (i + 2) m ∧ fall ≤ b.clock (poll (i + 2) m) ∧
      b.clock (poll (i + 2) m) < fall + 3 * gap := by
  obtain ⟨m, hbefore, hpassed⟩ := exists_first_poll hunbounded hpaced.mono fall (i + 2)
  have hgap := hpaced.gap_nonneg
  have hlt : b.clock (poll (i + 2) m) < fall + 3 * gap := by
    rcases hpaced.poll_le hbefore with rfl | hlt
    · have htwo := hpaced.two i
      have hthird : b.clock (poll (i + 2) 0) ≤ b.clock (i + 2) + gap := hpaced.gap (i + 2)
      omega
    · omega
  have hlater : b.clock i ≤ b.clock (i + 2) := hpaced.mono (by omega)
  refine ⟨m, ⟨?_, ?_⟩, hpassed, hlt⟩
  · intro j hj
    refine ⟨?_, hpaced.in_time (hbefore j hj) (by omega)⟩
    have hafter : b.clock i ≤ b.clock (poll (i + 2) j) := hpaced.mono (by unfold poll; omega)
    rw [(hecho.level _).mpr ⟨by omega, hbefore j hj⟩]
    decide
  · rw [Bool.eq_false_iff]
    intro hlevel
    exact absurd ((hecho.level _).mp hlevel).2 (Int.not_lt.mpr hpassed)

/-- **The distance of an echo.** When an echo comes in time and is long enough to be seen and
    short enough not to be given up, its distance is measured, up to the pace of the
    accesses: 58 microseconds of it are a centimetre, rounded down. -/
theorem measureOne_echo (hpaced : Paced b gap) (hunbounded : ∀ t, ∃ n, t ≤ b.clock n)
    (hecho : Echo b rise fall) {n : Nat} (hstart : b.clock n ≤ rise)
    (hsoon : rise + gap - b.clock n ≤ 30000000) (hlong : 3 * gap + 1000 ≤ fall - rise)
    (hshort : fall - rise + gap ≤ 30000000) :
    ∃ rounds d n', (∀ fuel, rounds < fuel → measureOne b fuel n = some (.ok d, n')) ∧
      58000 * (d : Int) < fall - rise + 4 * gap ∧
      fall - rise - 3 * gap < 58000 * ((d : Int) + 1) := by
  obtain ⟨k, hseen, hrise, hrise'⟩ := hecho.seen_rise hpaced hunbounded hstart hsoon hlong
  have hhigh := ((hecho.level _).mp hseen.level).2
  obtain ⟨m, hseen', hfall, hfall'⟩ := hecho.seen_fall hpaced hunbounded hrise hhigh hshort
  -- the two times are read one access after the polls
  have hts := hpaced.gap (poll n k)
  have hts_ge : b.clock (poll n k) ≤ b.clock (poll n k + 1) := hpaced.mono (Nat.le_succ _)
  have hts' := hpaced.gap (poll (poll n k + 2) m)
  have hts'_ge : b.clock (poll (poll n k + 2) m) ≤ b.clock (poll (poll n k + 2) m + 1) :=
    hpaced.mono (Nat.le_succ _)
  have hpulse : ktimeUsDelta (b.clock (poll (poll n k + 2) m + 1)) (b.clock (poll n k + 1)) =
      (b.clock (poll (poll n k + 2) m + 1) - b.clock (poll n k + 1)) / 1000 :=
    ktimeUsDelta_of_le (by omega)
  generalize hpulse_us : ktimeUsDelta (b.clock (poll (poll n k + 2) m + 1))
    (b.clock (poll n k + 1)) = pulse_us at hpulse
  have hmax : ((UINT_MAX : Nat) : Int) = 4294967295 := rfl
  have hdistance : distanceOf pulse_us = .ok (pulse_us.toNat / 58) :=
    distanceOf_of_range (by omega) (by omega)
  obtain ⟨-, hlower, hupper⟩ := distanceOf_eq_ok hdistance
  refine ⟨max k m, pulse_us.toNat / 58, poll (poll n k + 2) m + 2, ?_, by omega, by omega⟩
  intro fuel hfuel
  rw [measureOne, hseen.wait (by omega)]
  dsimp only
  rw [hseen'.wait (by omega)]
  dsimp only
  rw [hpulse_us, hdistance]

theorem measureOne_echo_twenty :
    ∃ rounds d n', (∀ fuel, rounds < fuel → measureOne echoBoard fuel 0 = some (.ok d, n')) ∧
      58000 * (d : Int) < 1660000 - 500000 + 4 * 1000 ∧
      1660000 - 500000 - 3 * 1000 < 58000 * ((d : Int) + 1) := by
  have hpaced : Paced echoBoard 1000 := by
    refine ⟨monotone_echoBoard, fun n => ?_⟩
    show (1000 * (n + 1 : Nat) : Int) ≤ 1000 * n + 1000
    omega
  have hecho : Echo echoBoard 500000 1660000 := by
    refine ⟨fun n => ?_⟩
    show decide (500 ≤ n ∧ n < 1660) = true ↔ (500000 : Int) ≤ 1000 * n ∧ (1000 * n : Int) < 1660000
    rw [decide_eq_true_iff]
    omega
  exact measureOne_echo hpaced unbounded_echoBoard hecho (by decide) (by decide)
    (by decide) (by decide)

/-- No distance is longer than thirty milliseconds of echo. -/
theorem Measured.distance_lt (hpaced : Paced b gap) {n d : Nat} (h : Measured b n (.ok d)) :
    58000 * (d : Int) < 30000000 + 3 * gap := by
  have hgap := hpaced.gap_nonneg
  generalize hr : (Except.ok d : Except MeasureErrno Nat) = r at h
  cases h with
  | noRise => cases hr
  | noFall => cases hr
  | pulse k m hrise hfall =>
    obtain ⟨hpos, hlower, -⟩ := distanceOf_eq_ok hr.symm
    have hstart : b.clock (poll n k + 2) ≤ b.clock (poll n k + 1) + gap :=
      hpaced.gap (poll n k + 1)
    have hend : b.clock (poll (poll n k + 2) m + 1) <
        b.clock (poll n k + 2) + 30000000 + 2 * gap := by
      cases m with
      | zero =>
        have htwo : b.clock (poll (poll n k + 2) 0 + 1) ≤ b.clock (poll n k + 2) + 2 * gap :=
          hpaced.two (poll n k + 2)
        omega
      | succ m =>
        have htwo : b.clock (poll (poll n k + 2) (m + 1) + 1) ≤
            b.clock (poll (poll n k + 2) m + 1) + 2 * gap :=
          hpaced.two (poll (poll n k + 2) m + 1)
        have hlast := (hfall.before m (Nat.lt_succ_self m)).2
        have hafter : b.clock (poll n k + 2) ≤ b.clock (poll (poll n k + 2) m + 1) :=
          hpaced.mono (by unfold poll; omega)
        rw [ktimeUsDelta_of_le hafter] at hlast
        omega
    have hafter : b.clock (poll n k + 1) ≤ b.clock (poll (poll n k + 2) m + 1) :=
      hpaced.mono (by unfold poll; omega)
    rw [ktimeUsDelta_of_le hafter] at hlower
    omega

/-! ### All sensors, to the application -/

/-- The loop of `hcsr04_measure_all`: what the measurements come to, one after the other. Each
    sensor has a pin of its own; `sleep` are the instants between two measurements. -/
def measureAllFrom (clock : Nat → Int) (sleep fuel : Nat) :
    List (Nat → Bool) → Nat → Option (List (Except MeasureErrno Nat))
  | [], _ => some []
  | level :: levels, n =>
    match measureOne { clock := clock, level := level } fuel n with
    | none => none
    | some (r, n) => (measureAllFrom clock sleep fuel levels (n + sleep)).map (r :: ·)

def MeasureErrno.code : MeasureErrno → ErrorCode
  | .ETIMEDOUT => ⟨-110, by decide, by decide⟩
  | MeasureErrno.EIO => ⟨-5, by decide, by decide⟩
  | .ERANGE => ⟨-34, by decide, by decide⟩

/-- What a sensor has seen in some measurement of its own. -/
def Measures (clock : Nat → Int) (level : Nat → Bool) (r : Except MeasureErrno Nat) : Prop :=
  ∃ n, Measured { clock := clock, level := level } n r

/-- What the application is told of a measurement. -/
def valueOf : Except MeasureErrno Nat → Int
  | .ok d => d
  | .error _ => -1

theorem measureAllFrom_returns {clock : Nat → Int} (hmono : Monotone clock)
    (hunbounded : ∀ t, ∃ n, t ≤ clock n) (sleep : Nat) (levels : List (Nat → Bool)) (n : Nat) :
    ∃ rounds rs, (∀ fuel, rounds < fuel →
      measureAllFrom clock sleep fuel levels n = some rs) ∧
      List.Forall₂ (Measures clock) levels rs := by
  induction levels generalizing n with
  | nil => exact ⟨0, [], fun _ _ => rfl, .nil⟩
  | cons level levels ih =>
    obtain ⟨rounds, r, n', hone, -, hmeasured⟩ :=
      measureOne_returns (b := { clock := clock, level := level }) hmono hunbounded n
    obtain ⟨rounds', rs, hrest, hall⟩ := ih (n' + sleep)
    refine ⟨max rounds rounds', r :: rs, ?_, .cons ⟨n, hmeasured⟩ hall⟩
    intro fuel hfuel
    rw [measureAllFrom, hone fuel (by omega)]
    dsimp only
    rw [hrest fuel (by omega)]
    rfl

/-- What `hcsr04_measure_all` is given for a result. -/
inductive Outcome : Except MeasureErrno Nat → Measurement → Prop where
  | distance (d : Nat) (h : d < 2147483648) : Outcome (.ok d) (.distance ⟨d, h⟩)
  | error (e : MeasureErrno) : Outcome (.error e) (.error e.code)

theorem Outcome.value_eq {r : Except MeasureErrno Nat} {o : Measurement} (h : Outcome r o) :
    o.value = valueOf r := by
  cases h with
  | distance d h => rfl
  | error e => rfl

/-- Distances that were measured fit into an `int`, unless an access takes hours. -/
theorem exists_outcomes {clock : Nat → Int} (hmono : Monotone clock)
    (hgap : ∀ n, clock (n + 1) ≤ clock n + 3600000000000) {levels : List (Nat → Bool)}
    {rs : List (Except MeasureErrno Nat)} (h : List.Forall₂ (Measures clock) levels rs) :
    ∃ os, List.Forall₂ Outcome rs os := by
  induction h with
  | nil => exact ⟨[], .nil⟩
  | @cons level r _ _ hhead _ ih =>
    obtain ⟨os, hos⟩ := ih
    obtain ⟨n, hmeasured⟩ := hhead
    cases r with
    | ok d =>
      have hlt := hmeasured.distance_lt (show Paced _ 3600000000000 from ⟨hmono, hgap⟩)
      exact ⟨_, .cons (.distance d (by omega)) hos⟩
    | error e => exact ⟨_, .cons (.error e) hos⟩

theorem map_value {rs : List (Except MeasureErrno Nat)} {os : List Measurement}
    (h : List.Forall₂ Outcome rs os) : os.map (·.value) = rs.map valueOf := by
  induction h with
  | nil => rfl
  | cons hhead _ ih => rw [List.map_cons, List.map_cons, hhead.value_eq, ih]

/-- **From the pins to the application.** When two accesses are never more than an hour
    apart, a read of the device returns, whatever the four pins do, and the worker emits for
    each sensor the distance that was measured on its own pin in this read, or -1 when that
    measurement failed; what was measured before does not show. -/
theorem read_measures {clock : Nat → Int} (hmono : Monotone clock)
    (hunbounded : ∀ t, ∃ n, t ≤ clock n) (hgap : ∀ n, clock (n + 1) ≤ clock n + 3600000000000)
    (levels : Vector (Nat → Bool) HCSR04_MAX_SENSORS) (data : ArrayData) (sleep n : Nat) :
    ∃ rounds rs, (∀ fuel, rounds < fuel →
      measureAllFrom clock sleep fuel levels.toList n = some rs) ∧
      List.Forall₂ (Measures clock) levels.toList rs ∧
      ∃ outcomes : Vector Measurement HCSR04_MAX_SENSORS,
        List.Forall₂ Outcome rs outcomes.toList ∧
        UltrasonicWorker.poll (some (arrayRead data outcomes 255 0 false).2) =
          rs.map valueOf := by
  obtain ⟨rounds, rs, hreturns, hmeasures⟩ :=
    measureAllFrom_returns hmono hunbounded sleep levels.toList n
  obtain ⟨os, hos⟩ := exists_outcomes hmono hgap hmeasures
  have hfour : os.length = HCSR04_MAX_SENSORS := by
    rw [← hos.length_eq, ← hmeasures.length_eq, Vector.length_toList]
  refine ⟨rounds, rs, hreturns, hmeasures, ⟨os.toArray, hfour⟩, hos, ?_⟩
  rw [poll_arrayRead]
  exact map_value hos

/-- Two sensors see nothing, one the echo, and the pin of one is always high. -/
theorem read_measures_four :
    ∃ rounds rs, (∀ fuel, rounds < fuel →
      measureAllFrom echoBoard.clock 60 fuel
        [echoBoard.level, fun _ => false, fun _ => true, fun _ => false] 0 = some rs) ∧
      List.Forall₂ (Measures echoBoard.clock)
        [echoBoard.level, fun _ => false, fun _ => true, fun _ => false] rs ∧
      ∃ outcomes : Vector Measurement HCSR04_MAX_SENSORS,
        List.Forall₂ Outcome rs outcomes.toList ∧
        UltrasonicWorker.poll
          (some (arrayRead ⟨Vector.replicate 4 ⟨0, 0⟩⟩ outcomes 255 0 false).2) =
            rs.map valueOf := by
  have hgap : ∀ n, echoBoard.clock (n + 1) ≤ echoBoard.clock n + 3600000000000 := by
    intro n
    show (1000 * (n + 1 : Nat) : Int) ≤ 1000 * n + 3600000000000
    omega
  exact read_measures monotone_echoBoard unbounded_echoBoard hgap
    ⟨#[echoBoard.level, fun _ => false, fun _ => true, fun _ => false], rfl⟩
    ⟨Vector.replicate 4 ⟨0, 0⟩⟩ 60 0

end Hcsr04

end AlarmClock
