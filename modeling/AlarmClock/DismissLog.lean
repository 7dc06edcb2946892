import AlarmClock.MainWindow
import AlarmClock.StatDialog

/-!
# The dismissal log, written and read

`updateCurrentTime` writes one line for each alarm that rang, to the common log and to
the log of the alarm; `StatDialog` reads the lines back. Writer and reader agree on the
words, the separator and the two formats of time, and on nothing else: a photo path
that begins with a bar and a blank is cut off.
-/

namespace AlarmClock

open StatDialog

/-! ### Texts that the reader takes whole -/

theorem isSpace_of_isDigit {c : Char} (h : c.isDigit = true) : isSpace c = false := by
  have hrange : 48 ≤ c.toNat ∧ c.toNat ≤ 57 := by
    simpa [Char.isDigit, UInt32.le_iff_toNat_le] using h
  simp only [isSpace, Bool.or_eq_false_iff, beq_eq_false_iff_ne, Bool.and_eq_false_iff,
    decide_eq_false_iff_not]
  omega

/-- A field of a record: not empty, no bar, no end of line, no blank at either end. -/
structure Field (s : QString) : Prop where
  ne_nil : s ≠ []
  trimmed : Text.Trimmed isSpace s
  bar : '|' ∉ s
  eol : '\n' ∉ s

/-- A format that begins and ends with a number, and has no bar and no end of line. -/
theorem field_render {w v : Nat} (fields : List TextFormat.Field) (hw : 0 < w) (hv : 0 < v)
    (hbar : .lit '|' ∉ fields) (heol : .lit '\n' ∉ fields) (ns : List Nat) :
    Field (TextFormat.render (.digits w :: fields ++ [.digits v]) ns) := by
  obtain ⟨c, hc, hfirst⟩ := TextFormat.head?_render hw (fields ++ [.digits v]) ns
  obtain ⟨d, hd, hlast⟩ := TextFormat.getLast?_render hv (.digits w :: fields) ns
  refine ⟨?_, ⟨?_, ?_⟩, ?_, ?_⟩
  · intro hnil
    rw [hnil] at hd
    cases hd
  · intro x hx
    obtain rfl := Option.some.inj (hc.symm.trans hx)
    exact isSpace_of_isDigit hfirst
  · intro x hx
    obtain rfl := Option.some.inj (hd.symm.trans hx)
    exact isSpace_of_isDigit hlast
  · intro hmem
    rcases TextFormat.mem_render hmem with hdigit | hlit
    · exact absurd hdigit (by decide)
    · exact hbar (by simpa using hlit)
  · intro hmem
    rcases TextFormat.mem_render hmem with hdigit | hlit
    · exact absurd hdigit (by decide)
    · exact heol (by simpa using hlit)

theorem field_toMinuteText {dt : QDateTime} (h : dt.isValid = true) : Field dt.toMinuteText := by
  rw [QDateTime.toMinuteText, if_pos h]
  exact field_render (w := 4) (v := 2) minuteFormat.tail.dropLast (by decide) (by decide)
    (by decide) (by decide) _

theorem field_toSecondText {dt : QDateTime} (h : dt.isValid = true) : Field dt.toSecondText := by
  rw [QDateTime.toSecondText, if_pos h]
  exact field_render (w := 4) (v := 2) secondFormat.tail.dropLast (by decide) (by decide)
    (by decide) (by decide) _

/-- A photo path that the reader takes whole: no end of line, no separator, no blank at
    either end, and no separator once it stands behind the word. -/
structure PhotoPath (photo : QString) : Prop where
  eol : '\n' ∉ photo
  separator : ¬ " | ".toList <:+: photo
  trimmed : Text.Trimmed isSpace photo
  start : ¬ "| ".toList <+: photo

theorem photoPath_nil : PhotoPath [] := ⟨by simp, by decide, by decide, by decide⟩

theorem PhotoPath.not_infix {photo : QString} (h : PhotoPath photo) :
    ¬ " | ".toList <:+: "PHOTO: ".toList ++ photo := by
  intro hinfix
  have hcases : " | ".toList <+: ' ' :: photo ∨ " | ".toList <:+: photo := by
    simpa [List.infix_cons_iff, List.cons_prefix_cons] using hinfix
  rcases hcases with hstart | hinfix
  · exact h.start (List.cons_prefix_cons.mp hstart).2
  · exact h.separator hinfix

/-! ### One line -/

/-- The photo that a line names. -/
def photoOf (t : TriggeredInfo) (capturedPhotoPath : QString) : QString :=
  if t.dismissMode = DismissMode.DismissCamera.toInt then capturedPhotoPath else []

/-- A line without its end. -/
def logBody (alarmTime dismissTime photo : QString) : QString :=
  "ALARM: ".toList ++ alarmTime ++ " | ".toList ++ ("DISMISSED: ".toList ++ dismissTime ++
    if photo = [] then [] else " | ".toList ++ ("PHOTO: ".toList ++ photo))

theorem logLine_eq (t : TriggeredInfo) (dismissTime capturedPhotoPath : QString) :
    logLine t dismissTime capturedPhotoPath =
      logBody t.alarmTime dismissTime (photoOf t capturedPhotoPath) ++ ['\n'] := by
  unfold logLine logBody photoOf
  by_cases hmode : t.dismissMode = DismissMode.DismissCamera.toInt
  · cases capturedPhotoPath with
    | nil => simp
    | cons c path => simp [hmode]
  · simp [hmode]

section Line

variable {alarmTime dismissTime photo : QString}

theorem logBody_nil : logBody alarmTime dismissTime [] =
    "ALARM: ".toList ++ alarmTime ++ " | ".toList ++ ("DISMISSED: ".toList ++ dismissTime) := by
  unfold logBody
  rw [if_pos (rfl : ([] : QString) = [])]
  exact congrArg _ (List.append_nil _)

theorem logBody_photo (h : photo ≠ []) : logBody alarmTime dismissTime photo =
    "ALARM: ".toList ++ alarmTime ++ " | ".toList ++
      ("DISMISSED: ".toList ++ dismissTime ++ " | ".toList ++ ("PHOTO: ".toList ++ photo)) := by
  unfold logBody
  rw [if_neg h]
  exact congrArg _ (List.append_assoc _ _ _).symm

/-- The reader cuts the two times off, whatever stands behind them. -/
theorem split_logBody_append (halarm : Field alarmTime) (hdismiss : Field dismissTime)
    (rest : QString) :
    Text.split " | ".toList ("ALARM: ".toList ++ alarmTime ++ " | ".toList ++
        ("DISMISSED: ".toList ++ dismissTime ++ " | ".toList ++ rest)) =
      ("ALARM: ".toList ++ alarmTime) :: ("DISMISSED: ".toList ++ dismissTime) ::
        Text.split " | ".toList rest := by
  have hbar₁ : '|' ∉ "ALARM: ".toList ++ alarmTime := by
    simpa using halarm.bar
  have hbar₂ : '|' ∉ "DISMISSED: ".toList ++ dismissTime := by
    simpa using hdismiss.bar
  have hfirst := Text.split_append (x := ' ') (c := '|') (s := [' ']) (by decide) hbar₁
    ("DISMISSED: ".toList ++ dismissTime ++ " | ".toList ++ rest)
  have hsecond := Text.split_append (x := ' ') (c := '|') (s := [' ']) (by decide) hbar₂ rest
  exact hfirst.trans (congrArg _ hsecond)

theorem split_logBody (halarm : Field alarmTime) (hdismiss : Field dismissTime)
    (hphoto : PhotoPath photo) :
    Text.split " | ".toList (logBody alarmTime dismissTime photo) =
      ("ALARM: ".toList ++ alarmTime) :: ("DISMISSED: ".toList ++ dismissTime) ::
        if photo = [] then [] else ["PHOTO: ".toList ++ photo] := by
  by_cases hnil : photo = []
  · have hbar₁ : '|' ∉ "ALARM: ".toList ++ alarmTime := by
      simpa using halarm.bar
    have hnone : ¬ " | ".toList <:+: "DISMISSED: ".toList ++ dismissTime := by
      intro hbars
      have hbar : '|' ∈ "DISMISSED: ".toList ++ dismissTime := hbars.subset (by decide)
      exact hdismiss.bar (by simpa using hbar)
    have hfirst := Text.split_append (x := ' ') (c := '|') (s := [' ']) (by decide) hbar₁
      ("DISMISSED: ".toList ++ dismissTime)
    rw [if_pos hnil, hnil, logBody_nil]
    exact hfirst.trans (congrArg _ (Text.split_of_not_infix hnone))
  · rw [if_neg hnil, logBody_photo hnil, split_logBody_append halarm hdismiss,
      Text.split_of_not_infix hphoto.not_infix]

theorem readPart_alarm (r : Record) {s : QString} (h : Text.Trimmed isSpace s) :
    readPart r ("ALARM: ".toList ++ s) = { r with alarmTime := s } := by
  have hmid : (QString.mid ("ALARM: ".toList ++ s) 7).trimmed = s := Text.trim_of_trimmed h
  unfold readPart
  rw [if_pos (by rfl), hmid]

theorem readPart_dismissed (r : Record) {s : QString} (h : Text.Trimmed isSpace s) :
    readPart r ("DISMISSED: ".toList ++ s) = { r with dismissTime := s } := by
  have hmid : (QString.mid ("DISMISSED: ".toList ++ s) 11).trimmed = s := Text.trim_of_trimmed h
  unfold readPart
  rw [if_neg (by simp [QString.startsWith]), if_pos (by rfl), hmid]

theorem readPart_photo (r : Record) {s : QString} (h : Text.Trimmed isSpace s) :
    readPart r ("PHOTO: ".toList ++ s) = { r with photoPath := s } := by
  have hmid : (QString.mid ("PHOTO: ".toList ++ s) 7).trimmed = s := Text.trim_of_trimmed h
  unfold readPart
  rw [if_neg (by simp [QString.startsWith]), if_neg (by simp [QString.startsWith]),
    if_pos (by rfl), hmid]

/-- **A line is read back.** -/
theorem readLine_logBody (halarm : Field alarmTime) (hdismiss : Field dismissTime)
    (hphoto : PhotoPath photo) :
    readLine (logBody alarmTime dismissTime photo) =
      { alarmTime := alarmTime
        dismissTime := dismissTime
        photoPath := photo
        alarmDt := QDateTime.fromString minuteFormat alarmTime
        dismissDt := QDateTime.fromString secondFormat dismissTime } := by
  have hparts : QString.splitSkipEmptyParts (logBody alarmTime dismissTime photo) " | ".toList =
      ("ALARM: ".toList ++ alarmTime) :: ("DISMISSED: ".toList ++ dismissTime) ::
        if photo = [] then [] else ["PHOTO: ".toList ++ photo] := by
    unfold QString.splitSkipEmptyParts
    rw [split_logBody halarm hdismiss hphoto]
    by_cases hnil : photo = []
    · simp [hnil]
    · simp [hnil]
  have htexts : readTexts (logBody alarmTime dismissTime photo) =
      { alarmTime := alarmTime, dismissTime := dismissTime, photoPath := photo } := by
    unfold readTexts
    rw [hparts, List.foldl_cons, List.foldl_cons, readPart_alarm _ halarm.trimmed,
      readPart_dismissed _ hdismiss.trimmed]
    by_cases hnil : photo = []
    · rw [if_pos hnil, hnil]
      exact if_neg (by simp [halarm.ne_nil])
    · rw [if_neg hnil, List.foldl_cons, List.foldl_nil, readPart_photo _ hphoto.trimmed]
      exact if_neg (by simp [halarm.ne_nil])
  unfold readLine parseDates
  rw [htexts, if_neg (by simp [halarm.ne_nil, hdismiss.ne_nil])]

theorem trimmed_logBody (hdismiss : Field dismissTime) (hphoto : PhotoPath photo) :
    Text.Trimmed isSpace (logBody alarmTime dismissTime photo) := by
  constructor
  · intro x hx
    obtain rfl : 'A' = x := Option.some.inj hx
    decide
  · by_cases hnil : photo = []
    · rw [hnil, logBody_nil, ← List.append_assoc, List.getLast?_append_of_ne_nil _ hdismiss.ne_nil]
      exact hdismiss.trimmed.2
    · rw [logBody_photo hnil, ← List.append_assoc, ← List.append_assoc,
        List.getLast?_append_of_ne_nil _ hnil]
      exact hphoto.trimmed.2

theorem eol_not_mem_logBody (halarm : Field alarmTime) (hdismiss : Field dismissTime)
    (hphoto : PhotoPath photo) : '\n' ∉ logBody alarmTime dismissTime photo := by
  have h₁ := halarm.eol
  have h₂ := hdismiss.eol
  have h₃ := hphoto.eol
  by_cases hnil : photo = []
  · rw [hnil, logBody_nil]
    simp [h₁, h₂]
  · rw [logBody_photo hnil]
    simp [h₁, h₂, h₃]

end Line

/-- **A log of lines is read back line by line.** -/
theorem records_flatMap {bodies : List QString}
    (h : ∀ b ∈ bodies, b ≠ [] ∧ Text.Trimmed isSpace b ∧ '\n' ∉ b) :
    records (bodies.flatMap (· ++ ['\n'])) = bodies.map readLine := by
  have htrimmed : bodies.map QString.trimmed = bodies :=
    (List.map_congr_left fun b hb => Text.trim_of_trimmed (h b hb).2.1).trans (List.map_id _)
  unfold records
  rw [Text.lines_flatMap fun b hb => (h b hb).2.2, htrimmed,
    List.filter_eq_self.mpr fun b hb => by simpa using (h b hb).1]

/-! ### A whole log -/

/-- A dismissal: the list, what rang with its indices, the time, and the photo, which is
    empty when there is none. -/
structure Dismissal where
  alarms : List AlarmEntry
  rung : List (Nat × AlarmEntry)
  now : QDateTime
  capturedPhotoPath : QString

namespace Dismissal

def triggered (d : Dismissal) : List TriggeredInfo := d.rung.map fun x => triggeredInfo x.1 x.2

/-- The photo of a record: there is one when the alarm is in camera mode and a photo was
    captured. -/
def photo (d : Dismissal) (e : AlarmEntry) : QString :=
  if e.dismissMode = DismissMode.DismissCamera.toInt then d.capturedPhotoPath else []

/-- The record to be read back for an alarm that rang: its time to the minute, the
    dismissal to the second, and the photo. -/
def record (d : Dismissal) (e : AlarmEntry) : Record where
  alarmTime := e.dateTime.toMinuteText
  dismissTime := d.now.toSecondText
  photoPath := d.photo e
  alarmDt := e.dateTime.truncMin
  dismissDt := d.now.truncSec

/-- The records of a dismissal in the order of the list, each with the id of its alarm. -/
def logged (d : Dismissal) : List (Int × Record) :=
  d.rung.map fun x => (x.2.alarmId, d.record x.2)

/-- What rang is still in the list at its index, with a year of four digits and a log of
    its own; the dismissal has a year of four digits. -/
structure Ok (home : QString) (d : Dismissal) : Prop where
  unchanged : ∀ x ∈ d.rung, d.alarms[x.1]? = some x.2
  era : ∀ x ∈ d.rung, x.2.dateTime.InCommonEra ∧ x.2.dateTime.HasFourDigitYear
  log : ∀ x ∈ d.rung, x.2.logFile = alarmLogPath home x.2.alarmId
  now_era : d.now.InCommonEra ∧ d.now.HasFourDigitYear

/-- The appends of a dismissal. -/
def appends (home : QString) (d : Dismissal) : List (QString × QString) :=
  (home ++ "/alarm.txt".toList, globalRecords d.triggered d.now.toSecondText d.capturedPhotoPath) ::
    alarmRecords d.alarms d.triggered d.now.toSecondText d.capturedPhotoPath

/-- The lines of a dismissal without their ends, each with the id of its alarm. -/
def bodies (d : Dismissal) : List (Int × QString) :=
  d.rung.map fun x =>
    (x.2.alarmId, logBody x.2.dateTime.toMinuteText d.now.toSecondText (d.photo x.2))

/-- The times of a dismissal are in years that the formats of the log can hold. -/
structure Dated (d : Dismissal) : Prop where
  era : ∀ x ∈ d.rung, x.2.dateTime.InCommonEra ∧ x.2.dateTime.HasFourDigitYear
  now_era : d.now.InCommonEra ∧ d.now.HasFourDigitYear

variable {home : QString} {d : Dismissal}

theorem Ok.dated (h : d.Ok home) : d.Dated := ⟨h.era, h.now_era⟩

theorem logLine_triggeredInfo (d : Dismissal) (x : Nat × AlarmEntry) :
    logLine (triggeredInfo x.1 x.2) d.now.toSecondText d.capturedPhotoPath =
      logBody x.2.dateTime.toMinuteText d.now.toSecondText (d.photo x.2) ++ ['\n'] :=
  logLine_eq _ _ _

theorem globalRecords_eq (d : Dismissal) :
    globalRecords d.triggered d.now.toSecondText d.capturedPhotoPath =
      (d.bodies.map (·.2)).flatMap (· ++ ['\n']) := by
  unfold globalRecords triggered bodies
  rw [List.flatMap_map, List.map_map, List.flatMap_map]
  congr 1
  funext x
  exact logLine_triggeredInfo d x

theorem alarmRecords_eq (h : d.Ok home) :
    alarmRecords d.alarms d.triggered d.now.toSecondText d.capturedPhotoPath =
      d.bodies.map fun b => (alarmLogPath home b.1, b.2 ++ ['\n']) := by
  have hpath : ∀ t ∈ d.triggered, ∀ e, d.alarms[t.index]? = some e → ¬ e.logFile.isEmpty := by
    intro t ht e he
    obtain ⟨x, hx, rfl⟩ := List.mem_map.mp ht
    obtain rfl := Option.some.inj ((h.unchanged x hx).symm.trans he)
    simp [h.log x hx, alarmLogPath]
  rw [alarmRecords_of_paths hpath]
  unfold triggered bodies
  rw [List.filterMap_map, List.map_map, ← List.filterMap_eq_map]
  apply List.filterMap_congr
  intro x hx
  simp only [Function.comp_apply, triggeredInfo]
  rw [h.unchanged x hx, Option.map_some, h.log x hx]
  exact congrArg (fun line => some (alarmLogPath home x.2.alarmId, line))
    (logLine_triggeredInfo d x)

theorem photoPath_photo (hphoto : PhotoPath d.capturedPhotoPath) (e : AlarmEntry) :
    PhotoPath (d.photo e) := by
  unfold photo
  split
  · exact hphoto
  · exact photoPath_nil

/-- Every line reads back as its record. -/
theorem readLine_bodies (h : d.Dated) (hphoto : PhotoPath d.capturedPhotoPath) :
    d.bodies.map (fun b => (b.1, readLine b.2)) = d.logged := by
  unfold bodies logged
  rw [List.map_map]
  apply List.map_congr_left
  intro x hx
  obtain ⟨hera, hyear⟩ := h.era x hx
  have hline := readLine_logBody (field_toMinuteText hera.1) (field_toSecondText h.now_era.1.1)
    (photoPath_photo hphoto x.2)
  rw [QDateTime.fromString_toMinuteText hera hyear,
    QDateTime.fromString_toSecondText h.now_era.1 h.now_era.2] at hline
  exact congrArg (Prod.mk x.2.alarmId) hline

theorem bodies_ok (h : d.Dated) (hphoto : PhotoPath d.capturedPhotoPath) :
    ∀ b ∈ d.bodies, b.2 ≠ [] ∧ Text.Trimmed isSpace b.2 ∧ '\n' ∉ b.2 := by
  intro b hb
  obtain ⟨x, hx, rfl⟩ := List.mem_map.mp hb
  have halarm := field_toMinuteText (h.era x hx).1.1
  have hdismiss := field_toSecondText h.now_era.1.1
  have hphoto' := photoPath_photo hphoto x.2
  refine ⟨?_, trimmed_logBody hdismiss hphoto', eol_not_mem_logBody halarm hdismiss hphoto'⟩
  exact List.cons_ne_nil _ _

end Dismissal

/-- The window writes the dismissals one after the other. -/
def writeDismissRecords (P : Platform) (ds : List Dismissal) (m : MainWindow) : MainWindow :=
  ds.foldl (fun m d => MainWindow.writeDismissRecord P d.triggered d.now.toSecondText
    d.capturedPhotoPath { m with alarms := d.alarms }) m

theorem appended_writeDismissRecords (P : Platform) (ds : List Dismissal) (m : MainWindow) :
    (writeDismissRecords P ds m).disk.appended =
      m.disk.appended ++ ds.flatMap (·.appends P.home) := by
  induction ds generalizing m with
  | nil => simp [writeDismissRecords]
  | cons d ds ih =>
    have hrest := ih (MainWindow.writeDismissRecord P d.triggered d.now.toSecondText
      d.capturedPhotoPath { m with alarms := d.alarms })
    rw [List.flatMap_cons, ← List.append_assoc]
    exact hrest

/-! ### The two logs -/

/-- The text that the appends leave in a file. -/
def textOf (path : QString) (appends : List (QString × QString)) : QString :=
  (appends.filter fun a => a.1 = path).flatMap (·.2)

theorem textOf_cons_self (path text : QString) (appends : List (QString × QString)) :
    textOf path ((path, text) :: appends) = text ++ textOf path appends := by
  simp [textOf]

theorem textOf_cons_of_ne {path path' : QString} (h : path' ≠ path) (text : QString)
    (appends : List (QString × QString)) :
    textOf path ((path', text) :: appends) = textOf path appends := by
  simp [textOf, h]

theorem textOf_eq_nil {path : QString} {appends : List (QString × QString)}
    (h : ∀ a ∈ appends, a.1 ≠ path) : textOf path appends = [] := by
  have hnone : appends.filter (fun a => a.1 = path) = [] :=
    List.filter_eq_nil_iff.mpr fun a ha => by simpa using h a ha
  rw [textOf, hnone]
  rfl

theorem textOf_append (path : QString) (before after : List (QString × QString)) :
    textOf path (before ++ after) = textOf path before ++ textOf path after := by
  unfold textOf
  rw [List.filter_append, List.flatMap_append]

theorem textOf_flatMap (path : QString) (ds : List Dismissal)
    (f : Dismissal → List (QString × QString)) :
    textOf path (ds.flatMap f) = ds.flatMap fun d => textOf path (f d) := by
  unfold textOf
  rw [List.filter_flatMap, List.flatMap_assoc]

section Logs

variable {home : QString} {d : Dismissal}

theorem alarmLogPath_ne (home : QString) (alarmId : Int) :
    alarmLogPath home alarmId ≠ home ++ "/alarm.txt".toList := by
  unfold alarmLogPath
  rw [List.append_assoc, List.append_assoc]
  intro h
  have hslash := List.append_cancel_left h
  injection hslash with _ hletter
  injection hletter with hletter _
  exact absurd hletter (by decide)

/-- The common log takes every line, as long as no alarm has it for its own. -/
theorem textOf_alarm (hown : ∀ a ∈ alarmRecords d.alarms d.triggered d.now.toSecondText
      d.capturedPhotoPath, a.1 ≠ home ++ "/alarm.txt".toList) :
    textOf (home ++ "/alarm.txt".toList) (d.appends home) =
      (d.bodies.map (·.2)).flatMap (· ++ ['\n']) := by
  unfold Dismissal.appends
  rw [textOf_cons_self, textOf_eq_nil hown, List.append_nil]
  exact d.globalRecords_eq

/-- The log of an alarm takes the lines that are written to it. -/
theorem textOf_alarmLogPath {bodies : List (Int × QString)}
    (h : alarmRecords d.alarms d.triggered d.now.toSecondText d.capturedPhotoPath =
      bodies.map fun b => (alarmLogPath home b.1, b.2 ++ ['\n'])) (id : Int) :
    textOf (alarmLogPath home id) (d.appends home) =
      ((bodies.filter fun b => b.1 = id).map (·.2)).flatMap (· ++ ['\n']) := by
  have hpath : ∀ b : Int × QString, (alarmLogPath home b.1 = alarmLogPath home id) = (b.1 = id) :=
    fun b => propext (alarmLogPath_injective home).eq_iff
  unfold Dismissal.appends
  rw [h, textOf_cons_of_ne (alarmLogPath_ne home id).symm]
  unfold textOf
  rw [List.filter_map, List.flatMap_map, List.flatMap_map]
  simp only [Function.comp_def, hpath]

end Logs

/-- The lines of several dismissals, as far as the ids pass. -/
theorem records_bodies {ds : List Dismissal} (h : ∀ d ∈ ds, d.Dated)
    (hphoto : ∀ d ∈ ds, PhotoPath d.capturedPhotoPath) (p : Int → Bool) :
    records (ds.flatMap fun d =>
        ((d.bodies.filter fun b => p b.1).map (·.2)).flatMap (· ++ ['\n'])) =
      ((ds.flatMap (·.logged)).filter fun x => p x.1).map (·.2) := by
  have hlogged : ∀ d ∈ ds, (d.logged.filter fun x => p x.1).map (·.2) =
      ((d.bodies.filter fun b => p b.1).map (·.2)).map readLine := by
    intro d hd
    rw [← Dismissal.readLine_bodies (h d hd) (hphoto d hd), List.filter_map, List.map_map,
      List.map_map]
    rfl
  have hlines : ∀ b ∈ ds.flatMap fun d => (d.bodies.filter fun b => p b.1).map (·.2),
      b ≠ [] ∧ Text.Trimmed isSpace b ∧ '\n' ∉ b := by
    intro b hb
    obtain ⟨d, hd, hb⟩ := List.mem_flatMap.mp hb
    obtain ⟨x, hx, rfl⟩ := List.mem_map.mp hb
    exact Dismissal.bodies_ok (h d hd) (hphoto d hd) x (List.mem_filter.mp hx).1
  rw [← List.flatMap_assoc, records_flatMap hlines, List.filter_flatMap, List.map_flatMap,
    List.map_flatMap]
  exact (List.flatMap_congr hlogged).symm

/-! ### The dismissals of the window -/

/-- What rings at `now`, with its indices. -/
def rungAt (now : QDateTime) (alarms : List AlarmEntry) : List (Nat × AlarmEntry) :=
  (alarms.zipIdx.filter fun x => x.1.due now).map fun x => (x.2, x.1)

theorem triggered_rungAt (now : QDateTime) (alarms : List AlarmEntry) :
    ((rungAt now alarms).map fun x => triggeredInfo x.1 x.2) = collectTriggered now alarms := by
  unfold rungAt collectTriggered
  induction alarms.zipIdx with
  | nil => rfl
  | cons x xs ih =>
    by_cases hdue : x.1.due now = true
    · simpa [hdue] using ih
    · simpa [hdue] using ih

theorem mem_rungAt {now : QDateTime} {alarms : List AlarmEntry} {x : Nat × AlarmEntry} :
    x ∈ rungAt now alarms ↔ alarms[x.1]? = some x.2 ∧ x.2.due now = true := by
  unfold rungAt
  simp only [List.mem_map, List.mem_filter, List.mem_zipIdx_iff_getElem?, Prod.exists]
  constructor
  · rintro ⟨e, i, ⟨hi, hdue⟩, rfl⟩
    exact ⟨hi, hdue⟩
  · rintro ⟨hi, hdue⟩
    exact ⟨x.2, x.1, ⟨hi, hdue⟩, rfl⟩

/-- The dismissal of a window whose dialog began to ring at `now`. -/
def dismissalOf (alarms : List AlarmEntry) (now dismissed : QDateTime)
    (capturedPhotoPath : QString) : Dismissal where
  alarms := alarms
  rung := rungAt now alarms
  now := dismissed
  capturedPhotoPath := capturedPhotoPath

/-- **The dismissal log is read back.** Whatever the dismissals, the statistics dialog
    finds in the common log the record of every alarm that rang, in the order in which
    they were written, and in the log of an alarm the records of that alarm. -/
theorem dismissLog_roundTrip (P : Platform) {ds : List Dismissal} (h : ∀ d ∈ ds, d.Ok P.home)
    (hphoto : ∀ d ∈ ds, PhotoPath d.capturedPhotoPath) (m : MainWindow)
    (fileExists : QString → Bool) (dlg : StatDialog) :
    ∃ appends, (writeDismissRecords P ds m).disk.appended = m.disk.appended ++ appends ∧
      (populateList fileExists (textOf (P.home ++ "/alarm.txt".toList) appends) none dlg).rows.map
          (·.record) = (ds.flatMap (·.logged)).map (·.2) ∧
      ∀ id, (populateList fileExists (textOf (alarmLogPath P.home id) appends) none dlg).rows.map
          (·.record) = ((ds.flatMap (·.logged)).filter fun x => x.1 = id).map (·.2) := by
  have hdated : ∀ d ∈ ds, d.Dated := fun d hd => (h d hd).dated
  have hown : ∀ d ∈ ds, ∀ a ∈ alarmRecords d.alarms d.triggered d.now.toSecondText
      d.capturedPhotoPath, a.1 ≠ P.home ++ "/alarm.txt".toList := by
    intro d hd a ha
    rw [Dismissal.alarmRecords_eq (h d hd)] at ha
    obtain ⟨b, -, rfl⟩ := List.mem_map.mp ha
    exact alarmLogPath_ne P.home b.1
  refine ⟨_, appended_writeDismissRecords P ds m, ?_, fun id => ?_⟩
  · rw [records_populateList_all, textOf_flatMap,
      List.flatMap_congr fun d hd => textOf_alarm (hown d hd)]
    have hall := records_bodies hdated hphoto fun _ => true
    simpa only [List.filter_true] using hall
  · rw [records_populateList_all, textOf_flatMap, List.flatMap_congr fun d hd =>
      textOf_alarmLogPath (Dismissal.alarmRecords_eq (h d hd)) id]
    exact records_bodies hdated hphoto fun i => i = id

/-- Two alarms ring together, the second in camera mode. -/
def twoRung (capturedPhotoPath : QString) : Dismissal :=
  let e (id : Int) (mode : DismissMode) : AlarmEntry :=
    { alarmId := id
      dateTime := ⟨1784903400000, true⟩
      enabled := true
      soundFile := []
      dismissMode := mode.toInt
      gameType := 0
      repeatMask := 0
      useSpecificDate := false
      logFile := alarmLogPath "/root".toList id }
  dismissalOf [e 1 .DismissSimple, e 2 .DismissCamera] ⟨1784903400000, true⟩ ⟨1784903425000, true⟩
    capturedPhotoPath

theorem twoRung_ok (capturedPhotoPath : QString) :
    (twoRung capturedPhotoPath).Ok "/root".toList := by
  have hera : ∀ msecs, 0 ≤ msecs → (⟨msecs, true⟩ : QDateTime).InCommonEra := by
    intro msecs h
    refine ⟨rfl, ?_⟩
    unfold Gregorian.firstDay
    dsimp only
    omega
  have hrung : (twoRung capturedPhotoPath).rung = (twoRung []).rung := rfl
  refine ⟨?_, ?_, ?_, hera _ (by decide), ?_⟩
  · rw [hrung]
    show ∀ x ∈ (twoRung []).rung, (twoRung []).alarms[x.1]? = some x.2
    decide +kernel
  · rw [hrung]
    have htime : ∀ x ∈ (twoRung []).rung, x.2.dateTime = ⟨1784903400000, true⟩ := by decide +kernel
    intro x hx
    rw [htime x hx]
    exact ⟨hera _ (by decide), by decide +kernel⟩
  · rw [hrung]
    decide +kernel
  · show (⟨1784903425000, true⟩ : QDateTime).HasFourDigitYear
    decide +kernel

/-- Two lines, the second with the photo. -/
theorem dismissLog_roundTrip_two :
    (twoRung "/root/capture/2.jpg".toList).logged.map (fun x => (x.1, x.2.photoPath)) =
      [(1, []), (2, "/root/capture/2.jpg".toList)] ∧
    ∃ appends, (writeDismissRecords (Platform.stable "/root".toList)
        [twoRung "/root/capture/2.jpg".toList] {}).disk.appended = [] ++ appends ∧
      (populateList (fun _ => true) (textOf ("/root".toList ++ "/alarm.txt".toList) appends) none
          {}).rows.map (·.record) =
        ([twoRung "/root/capture/2.jpg".toList].flatMap (·.logged)).map (·.2) := by
  have hok : ∀ d ∈ [twoRung "/root/capture/2.jpg".toList], d.Ok "/root".toList :=
    fun d hd => List.mem_singleton.mp hd ▸ twoRung_ok _
  have hphoto : ∀ d ∈ [twoRung "/root/capture/2.jpg".toList], PhotoPath d.capturedPhotoPath := by
    intro d hd
    rw [List.mem_singleton.mp hd]
    exact ⟨by decide, by decide, by decide, by decide⟩
  obtain ⟨appends, hwritten, hcommon, -⟩ :=
    dismissLog_roundTrip (Platform.stable "/root".toList) hok hphoto {} (fun _ => true) {}
  exact ⟨by decide +kernel, appends, hwritten, hcommon⟩

/-- **A photo path that begins with a bar is not read back**, though it has no separator in
    it: the blank before it belongs to the line. -/
theorem dismissLog_fails :
    ∃ d : Dismissal, d.Ok "/root".toList ∧ d.rung ≠ [] ∧ '\n' ∉ d.capturedPhotoPath ∧
      ¬ " | ".toList <:+: d.capturedPhotoPath ∧ Text.Trimmed isSpace d.capturedPhotoPath ∧
      (populateList (fun _ => true) (textOf ("/root".toList ++ "/alarm.txt".toList)
          (d.appends "/root".toList)) none {}).rows.map (·.record) ≠ d.logged.map (·.2) := by
  refine ⟨twoRung "| x".toList, twoRung_ok _, ?_, ?_, ?_, ?_, ?_⟩
  · decide +kernel
  · decide +kernel
  · decide +kernel
  · decide +kernel
  · decide +kernel

end AlarmClock
