import AlarmClock.Lib.CText

/-!
# The ultrasonic sensors, from the driver to the application

One read of `/dev/hcsr04_array` measures all four sensors and formats them into a buffer
of 256 characters, a line for each: a distance, or an error. The worker asks for 255 and
takes the lines apart with `strchr` and `sscanf`, and an error line is to fail on its
second number. Driver and worker are set against the outcomes of the measurements alone.
-/

namespace AlarmClock

open CText

/-! ### The driver -/

namespace Hcsr04

def HCSR04_MAX_SENSORS : Nat := 4
def READ_BUF_SIZE : Nat := 256

inductive Errno where
  | ENOSPC
  | EINVAL
  | EFAULT
deriving DecidableEq, Repr

/-- A distance that an `int` can hold. -/
structure Distance where
  cm : Nat
  lt : cm < 2147483648
deriving DecidableEq, Repr

/-- A negative `int`. -/
structure ErrorCode where
  ret : Int
  ge : -2147483648 ≤ ret
  neg : ret < 0
deriving DecidableEq, Repr

/-- What `hcsr04_measure_one` comes to: 0 and a distance, or a code. -/
inductive Measurement where
  | distance (d : Distance)
  | error (e : ErrorCode)
deriving DecidableEq, Repr

/-- `struct hcsr04_sensor`, without its pins. -/
structure Sensor where
  last_distance_cm : Nat
  last_error : Int
deriving DecidableEq, Repr

/-- `struct hcsr04_array_data`; `num_sensors` is always the length of the array. -/
structure ArrayData where
  sensors : Vector Sensor HCSR04_MAX_SENSORS
deriving DecidableEq, Repr

/-- One round of `hcsr04_measure_all`: a failure leaves the last distance as it was. -/
def Sensor.measure (s : Sensor) : Measurement → Sensor
  | .distance d => { last_distance_cm := d.cm, last_error := 0 }
  | .error e => { s with last_error := e.ret }

/-- `hcsr04_measure_all`, with the outcomes of its measurements. -/
def measureAll (data : ArrayData) (outcomes : Vector Measurement HCSR04_MAX_SENSORS) : ArrayData :=
  { data with sensors := Vector.zipWith Sensor.measure data.sensors outcomes }

/-- `"sensor%u:error=%d\n"` -/
def errorFormat : List Directive :=
  lits "sensor".toList ++ .int :: (lits ":error=".toList ++ [.int, .lit '\n'])

/-- `"sensor%u:%u\n"` -/
def distanceFormat : List Directive :=
  lits "sensor".toList ++ [.int, .lit ':', .int, .lit '\n']

/-- What is printed for a sensor. -/
def Sensor.line (i : Nat) (s : Sensor) : List Char :=
  if s.last_error ≠ 0 then sprintf errorFormat [i, s.last_error]
  else sprintf distanceFormat [i, s.last_distance_cm]

/-- The loop over the sensors, from the `i`-th on; `kbuf` is what has been written so far,
    and its length is `len`. -/
def formatFrom : Nat → List Sensor → List Char → Except Errno (List Char)
  | _, [], kbuf => .ok kbuf
  | i, s :: sensors, kbuf =>
    let kbuf := kbuf ++ scnprintf (READ_BUF_SIZE - kbuf.length) (s.line i)
    if READ_BUF_SIZE ≤ kbuf.length then .error .ENOSPC else formatFrom (i + 1) sensors kbuf

/-- `hcsr04_array_read` on a file at position `ppos`. `fault` says that the caller's buffer
    cannot be written. -/
def arrayRead (data : ArrayData) (outcomes : Vector Measurement HCSR04_MAX_SENSORS)
    (count ppos : Nat) (fault : Bool) : ArrayData × Except Errno (List Char) :=
  if ppos ≠ 0 then (data, .ok [])
  else
    let data := measureAll data outcomes
    (data, do
      let kbuf ← formatFrom 0 data.sensors.toList []
      if count < kbuf.length then throw .EINVAL
      if fault then throw .EFAULT
      return kbuf)

end Hcsr04

/-! ### The worker -/

namespace UltrasonicWorker

/-- `"sensor%d:%d"` -/
def lineFormat : List Directive := lits "sensor".toList ++ [.int, .lit ':', .int]

/-- One line of the buffer. -/
def parseLine (distances : List Int) (line : List Char) : List Int :=
  match sscanf lineFormat line with
  | [idx, dist] => if 0 ≤ idx ∧ idx < 4 then distances.set idx.toNat dist else distances
  | _ => distances

/-- The loop over the lines; `line` is the text from the current line up to the NUL, and
    `next` what `strchr` finds. -/
def parseLines (line : List Char) (distances : List Int) : List Int :=
  if line = [] then distances
  else
    let distances := parseLine distances (line.takeWhile (· ≠ '\n'))
    let next := line.dropWhile (· ≠ '\n')
    if next = [] then distances else parseLines next.tail distances
termination_by line.length
decreasing_by
  next hne _ =>
    have hle := (List.dropWhile_sublist (fun c => decide (c ≠ '\n')) (l := line)).length_le
    have hpos := List.length_pos_iff.mpr hne
    rw [List.length_tail]
    omega

/-- What is emitted after one round: `none` when the device cannot be opened, else what
    `read` into a zeroed buffer of 256 characters came to. -/
def poll : Option (Except Hcsr04.Errno (List Char)) → List Int
  | none => List.replicate 4 (-1)
  | some (.error _) => List.replicate 4 (-1)
  | some (.ok []) => List.replicate 4 (-1)
  | some (.ok text) => parseLines (text.takeWhile (· ≠ '\x00')) (List.replicate 4 (-1))

end UltrasonicWorker

/-! ### What is written -/

namespace Hcsr04

namespace Measurement

/-- What the application is to see of an outcome. -/
def value : Measurement → Int
  | distance d => d.cm
  | error _ => -1

/-- What stands behind the colon. -/
def text : Measurement → List Char
  | distance d => TextFormat.decimal d.cm
  | error e => "error=".toList ++ TextFormat.decimal e.ret

/-- The line of an outcome, without its end. -/
def body (i : Nat) (o : Measurement) : List Char :=
  "sensor".toList ++ (TextFormat.decimal i ++ ':' :: o.text)

/-- The lines of the outcomes from the `i`-th on. -/
def lines (i : Nat) (outcomes : List Measurement) : List Char :=
  (outcomes.zipIdx i).flatMap fun x => x.1.body x.2 ++ ['\n']

theorem lines_cons (i : Nat) (o : Measurement) (outcomes : List Measurement) :
    lines i (o :: outcomes) = o.body i ++ '\n' :: lines (i + 1) outcomes := by
  simp [lines]

theorem length_decimal_index {i : Nat} (h : i < HCSR04_MAX_SENSORS) :
    (TextFormat.decimal i).length ≤ 1 :=
  length_decimal_le (by decide) (Nat.lt_trans h (by decide))

/-- No line is longer than `sensor0:error=-2147483648`. -/
theorem length_text_le (o : Measurement) : o.text.length ≤ 17 := by
  cases o with
  | distance d =>
    have hlt := d.lt
    have hcm : (TextFormat.decimal d.cm).length ≤ 10 := length_decimal_le (by decide) (by omega)
    exact Nat.le_trans hcm (by decide)
  | error e =>
    have hge := e.ge
    have hret : (TextFormat.decimal e.ret).length ≤ 10 + 1 :=
      length_decimal_neg_le (by decide) e.neg (by omega)
    show ("error=".toList ++ TextFormat.decimal e.ret).length ≤ 17
    rw [List.length_append]
    exact Nat.add_le_add_left hret 6

theorem length_body_le {i : Nat} (h : i < HCSR04_MAX_SENSORS) (o : Measurement) :
    (o.body i).length ≤ 25 := by
  have hi := length_decimal_index h
  have htext := o.length_text_le
  unfold body
  rw [List.length_append, List.length_append, List.length_cons]
  have hword : "sensor".toList.length = 6 := rfl
  omega

theorem length_lines_le {i : Nat} {outcomes : List Measurement}
    (h : i + outcomes.length ≤ HCSR04_MAX_SENSORS) :
    (lines i outcomes).length ≤ 26 * outcomes.length := by
  induction outcomes generalizing i with
  | nil => exact Nat.le_refl 0
  | cons o outcomes ih =>
    rw [List.length_cons] at h
    have hrest := @ih (i + 1) (by omega)
    have hbody := length_body_le (show i < HCSR04_MAX_SENSORS by omega) o
    rw [lines_cons, List.length_append, List.length_cons, List.length_cons]
    omega

end Measurement

/-- A measured sensor prints its outcome; what it measured before does not show. -/
theorem line_measure (i : Nat) (s : Sensor) (o : Measurement) :
    (s.measure o).line i = o.body i ++ ['\n'] := by
  cases o with
  | distance d =>
    have heq : (s.measure (.distance d)).last_error = 0 := rfl
    unfold Sensor.line
    rw [if_neg (not_not_intro heq)]
    unfold distanceFormat Measurement.body
    rw [sprintf_lits]
    simp [sprintf, Sensor.measure]
    rfl
  | error e =>
    have hne : (s.measure (.error e)).last_error ≠ 0 := Int.ne_of_lt e.neg
    unfold Sensor.line
    rw [if_pos hne]
    unfold errorFormat Measurement.body
    rw [sprintf_lits]
    simp only [sprintf]
    rw [sprintf_lits]
    simp [sprintf, Sensor.measure]
    rfl

/-- **The loop of the driver** writes every line whole, when there is room for all. -/
theorem formatFrom_measure (i : Nat) (sensors : List Sensor) (outcomes : List Measurement)
    (hlen : sensors.length = outcomes.length) (kbuf : List Char)
    (hroom : kbuf.length + (Measurement.lines i outcomes).length < READ_BUF_SIZE) :
    formatFrom i (List.zipWith Sensor.measure sensors outcomes) kbuf =
      .ok (kbuf ++ Measurement.lines i outcomes) := by
  induction outcomes generalizing i sensors kbuf with
  | nil => simp [formatFrom, Measurement.lines]
  | cons o outcomes ih =>
    cases sensors with
    | nil => cases hlen
    | cons s sensors =>
      rw [Measurement.lines_cons] at hroom ⊢
      simp only [List.length_append, List.length_cons] at hroom
      have hwhole : scnprintf (READ_BUF_SIZE - kbuf.length) ((s.measure o).line i) =
          o.body i ++ ['\n'] := by
        rw [line_measure]
        apply scnprintf_of_lt
        rw [List.length_append, List.length_singleton]
        omega
      rw [List.zipWith_cons_cons, formatFrom]
      simp only [hwhole]
      rw [if_neg (by simp only [List.length_append, List.length_singleton]; omega),
        ih (i + 1) sensors (by simpa using hlen) _
          (by simp only [List.length_append, List.length_singleton]; omega)]
      simp

end Hcsr04

/-! ### What is read -/

namespace UltrasonicWorker

open Hcsr04

theorem poll_ok (text : List Char) :
    poll (some (.ok text)) =
      parseLines (text.takeWhile (· ≠ '\x00')) (List.replicate 4 (-1)) := by
  cases text with
  | nil =>
    rw [List.takeWhile_nil, parseLines]
    rfl
  | cons c text => rfl

/-- A line and its end are taken off the front. -/
theorem parseLines_line {line : List Char} (h : '\n' ∉ line) (rest : List Char)
    (distances : List Int) :
    parseLines (line ++ '\n' :: rest) distances = parseLines rest (parseLine distances line) := by
  have hpos : ∀ c ∈ line, decide (c ≠ '\n') = true := by
    rintro c hc
    exact decide_eq_true fun heq => h (heq ▸ hc)
  have htake : (line ++ '\n' :: rest).takeWhile (· ≠ '\n') = line := by
    rw [List.takeWhile_append_of_pos hpos]
    simp
  have hdrop : (line ++ '\n' :: rest).dropWhile (· ≠ '\n') = '\n' :: rest := by
    rw [List.dropWhile_append_of_pos hpos]
    simp
  rw [parseLines, if_neg (by simp)]
  simp only [htake, hdrop]
  rw [if_neg (by simp), List.tail_cons]

/-- The two numbers of a line; an error has only the first. -/
theorem sscanf_body (i : Nat) (o : Measurement) :
    sscanf lineFormat (o.body i) = (i : Int) :: sscanf [.int] o.text := by
  unfold lineFormat Measurement.body
  rw [sscanf_lits, sscanf_decimal i _ (by simp)]
  rfl

/-- What a line does to the distances: its outcome is stored, unless it is an error. -/
theorem parseLine_body {i : Nat} (h : i < HCSR04_MAX_SENSORS) (o : Measurement)
    (distances : List Int) (hrest : distances[i]? = some (-1)) :
    parseLine distances (o.body i) = distances.set i o.value := by
  unfold parseLine
  rw [sscanf_body]
  cases o with
  | distance d =>
    have hread : sscanf [.int] (Measurement.distance d).text = [(d.cm : Int)] := by
      show sscanf [.int] (TextFormat.decimal d.cm) = _
      rw [← List.append_nil (TextFormat.decimal (d.cm : Int)), sscanf_decimal d.cm _ (by simp)]
      rfl
    have hindex : (0 : Int) ≤ i ∧ (i : Int) < 4 := by
      unfold HCSR04_MAX_SENSORS at h
      omega
    rw [hread]
    dsimp only
    rw [if_pos hindex]
    rfl
  | error e =>
    have hstop : sscanf [.int] (Measurement.error e).text = [] :=
      sscanf_int_stop [] (by decide) (by decide) (by decide) _
    rw [hstop]
    obtain ⟨hi, hget⟩ := List.getElem?_eq_some_iff.mp hrest
    show distances = distances.set i (-1)
    rw [← hget, List.set_getElem_self]

/-- A line has the letters of its two words, digits, a minus sign and a colon. -/
theorem not_mem_body {c : Char} (hword : c ∉ "sensor:error=-".toList) (hdigit : c.isDigit = false)
    (i : Nat) (o : Measurement) : c ∉ o.body i := by
  have hdecimal : ∀ n, c ∉ TextFormat.decimal n := by
    intro n hc
    rcases mem_decimal hc with rfl | hdigit'
    · exact hword (by decide)
    · rw [hdigit] at hdigit'
      cases hdigit'
  have hsensor : "sensor".toList ⊆ "sensor:error=-".toList := by decide
  have herror : "error=".toList ⊆ "sensor:error=-".toList := by decide
  have htext : c ∉ o.text := by
    cases o with
    | distance d => exact hdecimal d.cm
    | error e =>
      intro hc
      rcases List.mem_append.mp hc with hc | hc
      · exact hword (herror hc)
      · exact hdecimal _ hc
  intro hc
  rcases List.mem_append.mp hc with hc | hc
  · exact hword (hsensor hc)
  · rcases List.mem_append.mp hc with hc | hc
    · exact hdecimal _ hc
    · rcases List.mem_cons.mp hc with rfl | hc
      · exact hword (by decide)
      · exact htext hc

/-- **The loop of the worker** puts the outcomes behind the distances read so far. -/
theorem parseLines_lines (done : List Int) (outcomes : List Measurement)
    (h : done.length + outcomes.length ≤ HCSR04_MAX_SENSORS) :
    parseLines (Measurement.lines done.length outcomes)
      (done ++ List.replicate outcomes.length (-1)) = done ++ outcomes.map (·.value) := by
  induction outcomes generalizing done with
  | nil => simp [Measurement.lines, parseLines]
  | cons o outcomes ih =>
    rw [List.length_cons] at h
    have hset : (done ++ List.replicate (outcomes.length + 1) (-1)).set done.length o.value =
        (done ++ [o.value]) ++ List.replicate outcomes.length (-1) := by
      rw [List.set_append_right _ _ (Nat.le_refl _), List.replicate_succ]
      simp
    have hnext := ih (done ++ [o.value]) (by rw [List.length_append, List.length_singleton]; omega)
    rw [List.length_append, List.length_singleton] at hnext
    rw [Measurement.lines_cons, parseLines_line (not_mem_body (by decide) (by decide) _ o),
      List.length_cons, parseLine_body (by omega) o _ (by simp [List.replicate_succ]), hset, hnext]
    simp

end UltrasonicWorker

open Hcsr04

/-- No line has a NUL in it. -/
theorem nul_not_mem_lines (i : Nat) (outcomes : List Measurement) :
    '\x00' ∉ Measurement.lines i outcomes := by
  intro h
  obtain ⟨x, -, hx⟩ := List.mem_flatMap.mp h
  rcases List.mem_append.mp hx with hx | hx
  · exact UltrasonicWorker.not_mem_body (by decide) (by decide) _ _ hx
  · exact absurd hx (by decide)

/-- The read of all four sensors is neither cut nor refused. -/
theorem arrayRead_eq (data : ArrayData) (outcomes : Vector Measurement HCSR04_MAX_SENSORS)
    (hlength : (Measurement.lines 0 outcomes.toList).length ≤ 255) :
    (arrayRead data outcomes 255 0 false).2 = .ok (Measurement.lines 0 outcomes.toList) := by
  have hformat := formatFrom_measure 0 data.sensors.toList outcomes.toList
    (by rw [Vector.length_toList, Vector.length_toList]) []
    (by rw [List.length_nil, READ_BUF_SIZE]; omega)
  simp only [arrayRead, measureAll, Vector.toList_zipWith, hformat, ne_eq, not_true_eq_false,
    if_false, List.nil_append, bind, Except.bind, pure, Except.pure, Bool.false_eq_true]
  rw [if_neg (by omega)]

/-- What the worker makes of the text of a read. -/
theorem poll_arrayRead (data : ArrayData) (outcomes : Vector Measurement HCSR04_MAX_SENSORS) :
    UltrasonicWorker.poll (some (arrayRead data outcomes 255 0 false).2) =
      outcomes.toList.map (·.value) := by
  have hfour : outcomes.toList.length = 4 := outcomes.length_toList
  have hlength := Measurement.length_lines_le (i := 0)
    (show 0 + outcomes.toList.length ≤ 4 by omega)
  have hnul : (Measurement.lines 0 outcomes.toList).takeWhile (· ≠ '\x00') =
      Measurement.lines 0 outcomes.toList := by
    rw [List.takeWhile_eq_self_iff]
    intro c hc
    exact decide_eq_true fun heq => nul_not_mem_lines 0 outcomes.toList (heq ▸ hc)
  have hparse := UltrasonicWorker.parseLines_lines [] outcomes.toList
    (show 0 + outcomes.toList.length ≤ 4 by omega)
  rw [hfour] at hparse
  rw [arrayRead_eq data outcomes (by omega), UltrasonicWorker.poll_ok, hnul]
  exact hparse

/-- **Driver and application agree on the format.** Whatever the four measurements come to
    and whatever the sensors measured before, the text of a read is its four lines, whole;
    it fits into the buffer and into what the worker asks for; and the worker turns it into
    the distances, with -1 for each sensor that failed. -/
theorem arrayRead_poll (data : ArrayData) (outcomes : Vector Measurement HCSR04_MAX_SENSORS) :
    (Measurement.lines 0 outcomes.toList).length < READ_BUF_SIZE ∧
    (Measurement.lines 0 outcomes.toList).length ≤ 255 ∧
    (arrayRead data outcomes 255 0 false).2 = .ok (Measurement.lines 0 outcomes.toList) ∧
    UltrasonicWorker.poll (some (arrayRead data outcomes 255 0 false).2) =
      outcomes.toList.map (·.value) := by
  have hfour : outcomes.toList.length = 4 := outcomes.length_toList
  have hlength : (Measurement.lines 0 outcomes.toList).length ≤ 104 := by
    have hle := Measurement.length_lines_le (i := 0) (show 0 + outcomes.toList.length ≤ 4 by omega)
    omega
  exact ⟨Nat.lt_of_le_of_lt hlength (by decide), by omega,
    arrayRead_eq data outcomes (by omega), poll_arrayRead data outcomes⟩

end AlarmClock
