import AlarmClock.CalendarColors
import AlarmClock.DismissLog
import AlarmClock.Invariant

/-!
# The colour of a day and the real reaction times

The window is watched as it runs: beside it stand the scheduled times of what rings in
the open dialog, and every alarm dismissed so far with both its times. The calendar is
computed from the log instead, which keeps the scheduled time to the minute. A day gets
its colour right when no threshold lies between the two ways to take the seconds.
-/

namespace AlarmClock

open QDateTime StatDialog

/-! ### Reactions -/

/-- An alarm that was dismissed: when it was to ring, and when it was dismissed. -/
structure Reaction where
  scheduled : QDateTime
  dismissed : QDateTime
deriving DecidableEq, Repr

namespace Reaction

/-- The whole seconds from the scheduled time to the dismissal. -/
def secs (r : Reaction) : Int := (r.dismissed.msecs - r.scheduled.msecs) / 1000

/-- The seconds to the dismissal from the start of the scheduled minute. -/
def secsOfMinute (r : Reaction) : Int :=
  r.dismissed.msecs / 1000 - r.scheduled.msecs / 60000 * 60

/-- No threshold of the colours lies between the two. -/
def ReadsRight (r : Reaction) : Prop :=
  ∀ t ∈ [(30 : Int), 120], t < r.secs ↔ ReadsAbove t r.secsOfMinute

instance (r : Reaction) : Decidable r.ReadsRight := by
  unfold ReadsRight; infer_instance

/-- What a log keeps of the two times. -/
def logged (r : Reaction) : Record where
  alarmDt := r.scheduled.truncMin
  dismissDt := r.dismissed.truncSec

/-- An alarm that was scheduled on a whole minute. -/
theorem readsRight_of_wholeMinute {r : Reaction} (h : r.scheduled.msecs % 60000 = 0)
    (h0 : 0 ≤ r.secs) (hsmall : r.secs < 2147483648) : r.ReadsRight := by
  have heq : r.secsOfMinute = r.secs := by
    unfold secsOfMinute secs
    omega
  intro t ht
  rw [heq, ReadsAbove]
  omega

theorem elapsedSecs_logged (r : Reaction) : elapsedSecs r.logged = r.secsOfMinute := by
  unfold elapsedSecs logged secsOfMinute QDateTime.truncMin QDateTime.truncSec
  dsimp only
  omega

theorem wholeSecs_logged (r : Reaction) : WholeSecs r.logged := by
  unfold WholeSecs logged QDateTime.truncMin QDateTime.truncSec
  dsimp only
  omega

theorem colorVal_logged {r : Reaction} (h : r.ReadsRight) :
    colorVal (reactionSecs r.logged) = colorVal r.secs := by
  apply colorVal_congr
  intro t ht
  have ht0 : 0 ≤ t := by rcases List.mem_pair.mp ht with rfl | rfl <;> decide
  rw [lt_reactionSecs_iff r.wholeSecs_logged ht0, r.elapsedSecs_logged]
  exact (h t ht).symm

end Reaction

/-- The colour of the slowest reaction of a day. -/
def reactionColor (rs : List Reaction) (d : QDate) : Option Int :=
  ((rs.filter fun r => decide (r.dismissed.date = d)).map fun r => colorVal r.secs).max?

/-! ### The calendar sees a record through its two times -/

/-- The two times of the records that have both. -/
def timesOf (rs : List Record) : List (QDateTime × QDateTime) :=
  (rs.filter hasTimes).map fun r => (r.alarmDt, r.dismissDt)

theorem timesOf_append (rs rs' : List Record) :
    timesOf (rs ++ rs') = timesOf rs ++ timesOf rs' := by
  unfold timesOf
  rw [List.filter_append, List.map_append]

theorem colors_eq_timesOf (rs : List Record) (d : QDate) :
    (rs.filter (countsFor d)).map (fun r => colorVal (reactionSecs r)) =
      ((timesOf rs).filter fun t => decide (t.2.date = d)).map fun t =>
        colorVal (reactionSecs { alarmDt := t.1, dismissDt := t.2 }) := by
  have hfilter : rs.filter (countsFor d) =
      (rs.filter hasTimes).filter fun r => decide (r.dismissDt.date = d) := by
    rw [List.filter_filter]
    apply List.filter_congr
    intro r _
    exact Bool.and_comm _ _
  unfold timesOf
  rw [hfilter, List.filter_map, List.map_map]
  rfl

theorem colors_congr {rs rs' : List Record} (d : QDate) (h : timesOf rs = timesOf rs') :
    (rs.filter (countsFor d)).map (fun r => colorVal (reactionSecs r)) =
      (rs'.filter (countsFor d)).map fun r => colorVal (reactionSecs r) := by
  rw [colors_eq_timesOf, colors_eq_timesOf, h]

/-- Records that keep what a log keeps of the reactions colour the days by the reactions. -/
theorem max?_colors_logged {rs : List Reaction}
    (hvalid : ∀ r ∈ rs, r.scheduled.isValid = true ∧ r.dismissed.isValid = true)
    (hright : ∀ r ∈ rs, r.ReadsRight) (d : QDate) :
    (((rs.map Reaction.logged).filter (countsFor d)).map fun r => colorVal (reactionSecs r)).max? =
      reactionColor rs d := by
  have hfilter : (rs.map Reaction.logged).filter (countsFor d) =
      (rs.filter fun r => decide (r.dismissed.date = d)).map Reaction.logged := by
    rw [List.filter_map]
    congr 1
    apply List.filter_congr
    intro r hr
    obtain ⟨hscheduled, hdismissed⟩ := hvalid r hr
    have hdate : r.dismissed.truncSec.date = r.dismissed.date := by
      have hvalid' : r.dismissed.truncSec.isValid = true := hdismissed
      rw [date_of_isValid hdismissed, date_of_isValid hvalid', truncSec_msecs]
      congr 1
      omega
    have htimes : hasTimes r.logged = true :=
      Bool.and_eq_true_iff.mpr ⟨hscheduled, hdismissed⟩
    show (hasTimes r.logged && decide (r.dismissed.truncSec.date = d)) = _
    rw [htimes, hdate, Bool.true_and]
  rw [hfilter, List.map_map, reactionColor]
  congr 1
  apply List.map_congr_left
  intro r hr
  exact Reaction.colorVal_logged (hright r (List.mem_of_mem_filter hr))

/-! ### A photo behind the two times -/

/-- Read for itself, a line has a part that begins with the word. -/
def HasPart (word line : QString) : Prop :=
  ∃ part ∈ line.trimmed.splitSkipEmptyParts " | ".toList, part.startsWith word = true

instance (word line : QString) : Decidable (HasPart word line) := by
  unfold HasPart; infer_instance

/-- The lines that a photo makes of its record, the first of them behind the two times. -/
def photoLines (photo : QString) : List QString := ("PHOTO: ".toList ++ photo).splitOn '\n'

/-- The photo leaves the times of its record as they are: in its first line no part begins
    like a time, and no other line of it has both times. -/
def KeepsTimes (photo : QString) : Prop :=
  (∀ line ∈ (photoLines photo).head?, ¬ HasPart "ALARM: ".toList line ∧
    ¬ HasPart "DISMISSED: ".toList line) ∧
  ∀ line ∈ (photoLines photo).tail, ¬ (HasPart "ALARM: ".toList line ∧
    HasPart "DISMISSED: ".toList line)

instance (photo : QString) : Decidable (KeepsTimes photo) := by
  unfold KeepsTimes; infer_instance

theorem readPart_cases (r : Record) (part : QString) :
    ((readPart r part).alarmTime = r.alarmTime ∨ part.startsWith "ALARM: ".toList = true) ∧
    ((readPart r part).dismissTime = r.dismissTime ∨
      part.startsWith "DISMISSED: ".toList = true) ∧
    (readPart r part).alarmDt = r.alarmDt ∧ (readPart r part).dismissDt = r.dismissDt := by
  unfold readPart
  split_ifs with halarm hdismissed hphoto
  · exact ⟨.inr halarm, .inl rfl, rfl, rfl⟩
  · exact ⟨.inl rfl, .inr hdismissed, rfl, rfl⟩
  · exact ⟨.inl rfl, .inl rfl, rfl, rfl⟩
  · exact ⟨.inl rfl, .inl rfl, rfl, rfl⟩

/-- What the parts of a line change. -/
theorem foldl_readPart (parts : List QString) (r : Record) :
    ((parts.foldl readPart r).alarmTime = r.alarmTime ∨
      ∃ part ∈ parts, part.startsWith "ALARM: ".toList = true) ∧
    ((parts.foldl readPart r).dismissTime = r.dismissTime ∨
      ∃ part ∈ parts, part.startsWith "DISMISSED: ".toList = true) ∧
    (parts.foldl readPart r).alarmDt = r.alarmDt ∧
      (parts.foldl readPart r).dismissDt = r.dismissDt := by
  induction parts generalizing r with
  | nil => exact ⟨.inl rfl, .inl rfl, rfl, rfl⟩
  | cons part parts ih =>
    obtain ⟨halarm, hdismiss, halarmDt, hdismissDt⟩ := ih (readPart r part)
    obtain ⟨halarm', hdismiss', halarmDt', hdismissDt'⟩ := readPart_cases r part
    refine ⟨?_, ?_, halarmDt.trans halarmDt', hdismissDt.trans hdismissDt'⟩
    · rcases halarm with hsame | ⟨part', hmem, hstarts⟩
      · rcases halarm' with hsame' | hstarts
        · exact .inl (hsame.trans hsame')
        · exact .inr ⟨part, List.mem_cons_self, hstarts⟩
      · exact .inr ⟨part', List.mem_cons_of_mem _ hmem, hstarts⟩
    · rcases hdismiss with hsame | ⟨part', hmem, hstarts⟩
      · rcases hdismiss' with hsame' | hstarts
        · exact .inl (hsame.trans hsame')
        · exact .inr ⟨part, List.mem_cons_self, hstarts⟩
      · exact .inr ⟨part', List.mem_cons_of_mem _ hmem, hstarts⟩

/-- A line with both times names them. -/
theorem hasPart_of_hasTimes {line : QString} (h : hasTimes (readLine line.trimmed) = true) :
    HasPart "ALARM: ".toList line ∧ HasPart "DISMISSED: ".toList line := by
  obtain ⟨halarm, hdismiss, halarmDt, hdismissDt⟩ :=
    foldl_readPart (line.trimmed.splitSkipEmptyParts " | ".toList) {}
  have hnone : ∀ {dt : QDateTime}, dt = ({} : Record).alarmDt → dt.isValid ≠ true := by
    rintro _ rfl hvalid
    cases hvalid
  have hdates : (readTexts line.trimmed).alarmDt = ({} : Record).alarmDt := by
    unfold readTexts
    dsimp only
    split_ifs
    · exact halarmDt
    · exact halarmDt
  have htimes := Bool.and_eq_true_iff.mp h
  have hread : ¬ ((readTexts line.trimmed).alarmTime.isEmpty = true ∨
      (readTexts line.trimmed).dismissTime.isEmpty = true) := by
    intro hempty
    have hsame : readLine line.trimmed = readTexts line.trimmed := if_pos hempty
    rw [hsame] at htimes
    exact hnone hdates htimes.1
  have hnames : HasPart "DISMISSED: ".toList line := by
    rcases hdismiss with hsame | hnames
    · have hdismissTime : (readTexts line.trimmed).dismissTime = [] := by
        unfold readTexts
        dsimp only
        split_ifs
        · exact hsame
        · exact hsame
      exact absurd (.inr (by rw [hdismissTime]; rfl)) hread
    · exact hnames
  refine ⟨?_, hnames⟩
  rcases halarm with hsame | hnames'
  · -- the line stands for its own alarm time, and is none: it has the word DISMISSED in it
    have halarmTime : (readTexts line.trimmed).alarmTime = line.trimmed := by
      unfold readTexts
      dsimp only
      rw [if_pos (by rw [hsame]; rfl)]
    have hparsed : readLine line.trimmed = { readTexts line.trimmed with
        alarmDt := QDateTime.fromString minuteFormat (readTexts line.trimmed).alarmTime
        dismissDt := QDateTime.fromString secondFormat (readTexts line.trimmed).dismissTime } :=
      if_neg hread
    have hvalid := htimes.1
    rw [hparsed, halarmTime] at hvalid
    cases hscan : TextFormat.scan minuteFormat line.trimmed with
    | none =>
      rw [QDateTime.fromString, hscan] at hvalid
      cases hvalid
    | some ns =>
      obtain ⟨part, hpart, hstarts⟩ := hnames
      obtain ⟨rest, hrest⟩ := QString.startsWith_iff.mp hstarts
      have hletter : 'D' ∈ line.trimmed := by
        apply Text.split_subset (List.mem_of_mem_filter hpart)
        rw [hrest]
        exact List.mem_cons_self
      exact absurd (TextFormat.mem_scan hscan 'D' hletter) (by decide)
  · exact hnames'

section Line

variable {alarmTime dismissTime photo : QString}

/-- The line up to its photo. -/
theorem readLine_of_not_hasPart (halarm : Field alarmTime) (hdismiss : Field dismissTime)
    {line : QString}
    (hline : ¬ HasPart "ALARM: ".toList line ∧ ¬ HasPart "DISMISSED: ".toList line) :
    (readLine ("ALARM: ".toList ++ alarmTime ++ " | ".toList ++
        ("DISMISSED: ".toList ++ dismissTime ++ " | ".toList ++ line.trimmed))).alarmDt =
      QDateTime.fromString minuteFormat alarmTime ∧
    (readLine ("ALARM: ".toList ++ alarmTime ++ " | ".toList ++
        ("DISMISSED: ".toList ++ dismissTime ++ " | ".toList ++ line.trimmed))).dismissDt =
      QDateTime.fromString secondFormat dismissTime := by
  generalize hwhole : "ALARM: ".toList ++ alarmTime ++ " | ".toList ++
    ("DISMISSED: ".toList ++ dismissTime ++ " | ".toList ++ line.trimmed) = whole
  have hparts : QString.splitSkipEmptyParts whole " | ".toList =
      ("ALARM: ".toList ++ alarmTime) :: ("DISMISSED: ".toList ++ dismissTime) ::
        line.trimmed.splitSkipEmptyParts " | ".toList := by
    unfold QString.splitSkipEmptyParts
    rw [← hwhole, split_logBody_append halarm hdismiss, List.filter_cons_of_pos (by simp),
      List.filter_cons_of_pos (by simp)]
  obtain ⟨halarmTime, hdismissTime, -⟩ :=
    foldl_readPart (line.trimmed.splitSkipEmptyParts " | ".toList)
      { alarmTime := alarmTime, dismissTime := dismissTime }
  have hsameAlarm := halarmTime.resolve_right hline.1
  have hsameDismiss := hdismissTime.resolve_right hline.2
  have htexts : readTexts whole =
      (line.trimmed.splitSkipEmptyParts " | ".toList).foldl readPart
        { alarmTime := alarmTime, dismissTime := dismissTime } := by
    unfold readTexts
    rw [hparts, List.foldl_cons, List.foldl_cons, readPart_alarm _ halarm.trimmed,
      readPart_dismissed _ hdismiss.trimmed]
    exact if_neg (by rw [hsameAlarm]; simp [halarm.ne_nil])
  have hboth : ¬ ((readTexts whole).alarmTime.isEmpty = true ∨
      (readTexts whole).dismissTime.isEmpty = true) := by
    rw [htexts, hsameAlarm, hsameDismiss]
    simp [halarm.ne_nil, hdismiss.ne_nil]
  unfold readLine parseDates
  rw [if_neg hboth, htexts, hsameAlarm, hsameDismiss]
  exact ⟨rfl, rfl⟩

/-- Lines without times. -/
theorem timesOf_eq_nil {lines : List QString}
    (h : ∀ line ∈ lines, ¬ (HasPart "ALARM: ".toList line ∧ HasPart "DISMISSED: ".toList line)) :
    timesOf (((lines.map QString.trimmed).filter (· ≠ [])).map readLine) = [] := by
  unfold timesOf
  rw [List.map_eq_nil_iff, List.filter_eq_nil_iff]
  intro r hr htimes
  obtain ⟨text, htext, rfl⟩ := List.mem_map.mp hr
  obtain ⟨line, hline, rfl⟩ := List.mem_map.mp (List.mem_of_mem_filter htext)
  exact h line hline (hasPart_of_hasTimes htimes)

/-- **The times of a record**, whatever the name of its photo does to the rest of it. -/
theorem timesOf_logBody (halarm : Field alarmTime) (hdismiss : Field dismissTime)
    (halarmDt : (QDateTime.fromString minuteFormat alarmTime).isValid = true)
    (hdismissDt : (QDateTime.fromString secondFormat dismissTime).isValid = true)
    (hphoto : KeepsTimes photo) (rest : QString) :
    timesOf (records (logBody alarmTime dismissTime photo ++ '\n' :: rest)) =
      (QDateTime.fromString minuteFormat alarmTime,
        QDateTime.fromString secondFormat dismissTime) :: timesOf (records rest) := by
  have hone : ∀ r : Record, r.alarmDt = QDateTime.fromString minuteFormat alarmTime →
      r.dismissDt = QDateTime.fromString secondFormat dismissTime →
      timesOf [r] = [(QDateTime.fromString minuteFormat alarmTime,
        QDateTime.fromString secondFormat dismissTime)] := by
    intro r hr hr'
    have htimes : hasTimes r = true := by
      unfold hasTimes
      rw [hr, hr', halarmDt, hdismissDt]
      rfl
    unfold timesOf
    rw [List.filter_cons_of_pos htimes, List.map_cons, hr, hr']
    rfl
  rw [records_append, timesOf_append, ← List.singleton_append]
  refine congrArg (· ++ timesOf (records rest)) ?_
  by_cases hnil : photo = []
  · have hpath : PhotoPath photo := hnil ▸ ⟨by simp, by decide, by decide, by decide⟩
    have hne : logBody alarmTime dismissTime photo ≠ [] := List.cons_ne_nil _ _
    have halarmTime : (readLine (logBody alarmTime dismissTime photo)).alarmDt =
        QDateTime.fromString minuteFormat alarmTime := by
      rw [readLine_logBody halarm hdismiss hpath]
    have hdismissTime : (readLine (logBody alarmTime dismissTime photo)).dismissDt =
        QDateTime.fromString secondFormat dismissTime := by
      rw [readLine_logBody halarm hdismiss hpath]
    have hkept : QString.trimmed (logBody alarmTime dismissTime photo) =
        logBody alarmTime dismissTime photo :=
      Text.trim_of_trimmed (trimmed_logBody hdismiss hpath)
    have hall : ∀ b ∈ [logBody alarmTime dismissTime photo], decide (b ≠ []) = true := by
      intro b hb
      rw [List.mem_singleton.mp hb]
      exact decide_eq_true hne
    rw [List.splitOn_eq_singleton (eol_not_mem_logBody halarm hdismiss hpath), List.map_singleton,
      hkept, List.filter_eq_self.mpr hall]
    exact hone _ halarmTime hdismissTime
  · -- the first line ends where the first line of the photo does
    have hne : ("PHOTO: ".toList ++ photo).splitOn '\n' ≠ [] := Text.splitOn_ne_nil _
    obtain ⟨line, lines, hlines⟩ := List.exists_cons_of_ne_nil hne
    obtain ⟨hfirst, hlater⟩ := hphoto
    unfold photoLines at hfirst hlater
    rw [hlines] at hfirst hlater
    rw [List.tail_cons] at hlater
    obtain ⟨begin, hbegin⟩ : ∃ begin, line = 'P' :: begin := by
      have hhead : line.head? = some 'P' := Text.head?_splitOn (by decide) hlines
      exact List.head?_eq_some_iff.mp hhead
    have hsplit : (logBody alarmTime dismissTime photo).splitOn '\n' =
        ("ALARM: ".toList ++ alarmTime ++ " | ".toList ++
          ("DISMISSED: ".toList ++ dismissTime ++ " | ".toList ++ line)) :: lines := by
      have hnot : '\n' ∉ "ALARM: ".toList ++ alarmTime ++ " | ".toList ++
          ("DISMISSED: ".toList ++ dismissTime ++ " | ".toList) := by
        have h₁ := halarm.eol
        have h₂ := hdismiss.eol
        simp [h₁, h₂]
      have hsplit := Text.splitOn_append_of_not_mem hnot hlines
      rw [logBody_photo hnil]
      simpa only [List.append_assoc] using hsplit
    have htrim : QString.trimmed ("ALARM: ".toList ++ alarmTime ++ " | ".toList ++
          ("DISMISSED: ".toList ++ dismissTime ++ " | ".toList ++ line)) =
        "ALARM: ".toList ++ alarmTime ++ " | ".toList ++
          ("DISMISSED: ".toList ++ dismissTime ++ " | ".toList ++ QString.trimmed line) := by
      have htrim : Text.trim isSpace ("ALARM: ".toList ++ alarmTime ++ " | ".toList ++
          ("DISMISSED: ".toList ++ dismissTime ++ " | ".toList) ++ line) = _ :=
        Text.trim_append (by simp) (by simp [isSpace]) (by simp [hbegin])
          (by simp [hbegin, isSpace])
      unfold QString.trimmed
      simpa only [List.append_assoc] using htrim
    obtain ⟨halarmTime, hdismissTime⟩ :=
      readLine_of_not_hasPart halarm hdismiss (hfirst line rfl)
    rw [hsplit, List.map_cons, htrim, List.filter_cons_of_pos (by simp), List.map_cons,
      ← List.singleton_append, timesOf_append, hone _ halarmTime hdismissTime,
      timesOf_eq_nil hlater]
    rfl

end Line

/-! ### The window, watched -/

/-- The window, the scheduled times of what rings in the open dialog, and the alarms
    dismissed so far. -/
structure Watched where
  window : MainWindow
  rang : List QDateTime := []
  reactions : List Reaction := []

namespace Watched

/-- What rings after a step: what is due in the list when the dialog opens. -/
def rangAfter (w : Watched) (m : MainWindow) : List QDateTime :=
  match w.window.frame, m.frame with
  | _, none => []
  | none, some frame => (m.alarms.filter (·.due frame.now)).map (·.dateTime)
  | some _, some _ => w.rang

/-- What a step dismisses. -/
def dismissedBy (w : Watched) : Event → List Reaction
  | .dismiss now _ => w.rang.map fun scheduled => ⟨scheduled, currentDateTime now⟩
  | _ => []

def step (P : Platform) (w : Watched) (ev : Event) : Option Watched :=
  (MainWindow.step P w.window ev).map fun m =>
    { window := m
      rang := w.rangAfter m
      reactions := w.reactions ++ w.dismissedBy ev }

/-- The dismissal of an event is written so that it reads back with the same colours: the
    photo of a line leaves its two times as they are, the years have four digits, and every
    reaction reads right. -/
def WritesRight (w : Watched) : Event → Prop
  | .dismiss now capturedPhotoPath =>
    (∀ frame, w.window.frame = some frame →
      ∀ t ∈ frame.triggered, KeepsTimes (photoOf t capturedPhotoPath)) ∧
    (currentDateTime now).HasFourDigitYear ∧
    ∀ scheduled ∈ w.rang, scheduled.HasFourDigitYear ∧
      (⟨scheduled, currentDateTime now⟩ : Reaction).ReadsRight
  | _ => True

end Watched

/-! ### The log and the reactions -/

/-- The text has a record for each reaction with what a log keeps of its times, and nothing
    else that has times; and its last line is ended. -/
structure Written (text : QString) (rs : List Reaction) : Prop where
  append : ∀ rest, timesOf (records (text ++ rest)) =
    (rs.map fun r => (r.logged.alarmDt, r.logged.dismissDt)) ++ timesOf (records rest)
  valid : ∀ r ∈ rs, r.scheduled.isValid = true ∧ r.dismissed.isValid = true
  right : ∀ r ∈ rs, r.ReadsRight

namespace Written

variable {text text' : QString} {rs rs' : List Reaction}

theorem nil : Written [] [] := ⟨fun _ => rfl, by simp, by simp⟩

theorem concat (h : Written text rs) (h' : Written text' rs') :
    Written (text ++ text') (rs ++ rs') := by
  refine ⟨?_, ?_, ?_⟩
  · intro rest
    rw [List.append_assoc, h.append, h'.append, List.map_append, List.append_assoc]
  · intro r hr
    rcases List.mem_append.mp hr with hr | hr
    · exact h.valid r hr
    · exact h'.valid r hr
  · intro r hr
    rcases List.mem_append.mp hr with hr | hr
    · exact h.right r hr
    · exact h'.right r hr

/-- **The calendar of such a log** colours the days by the reactions. -/
theorem calendar_eq (h : Written text rs) (fileExists : QString → Bool) (dlg : StatDialog)
    (d : QDate) :
    (populateList fileExists text none dlg).calendar d = reactionColor rs d := by
  have htimes : timesOf (records text) = timesOf (rs.map Reaction.logged) := by
    have hall : rs.map Reaction.logged = (rs.map Reaction.logged).filter hasTimes := by
      rw [List.filter_eq_self.mpr]
      intro r hr
      obtain ⟨reaction, hreaction, rfl⟩ := List.mem_map.mp hr
      exact Bool.and_eq_true_iff.mpr (h.valid reaction hreaction)
    have hwritten := h.append []
    rw [List.append_nil, show timesOf (records []) = [] from rfl, List.append_nil] at hwritten
    rw [hwritten, timesOf, ← hall, List.map_map]
    rfl
  rw [calendar_populateList, ← max?_colors_logged h.valid h.right, colors_congr d htimes]

end Written

/-- The lines of one dismissal. -/
theorem written_globalRecords {triggered : List TriggeredInfo} {rang : List QDateTime}
    {now : QDateTime} {capturedPhotoPath : QString}
    (htimes : triggered.map (·.alarmTime) = rang.map (·.toMinuteText))
    (hphoto : ∀ t ∈ triggered, KeepsTimes (photoOf t capturedPhotoPath))
    (hnow : now.InCommonEra ∧ now.HasFourDigitYear)
    (hrang : ∀ s ∈ rang, s.InCommonEra ∧ s.HasFourDigitYear)
    (hright : ∀ s ∈ rang, (⟨s, now⟩ : Reaction).ReadsRight) :
    Written (globalRecords triggered now.toSecondText capturedPhotoPath)
      (rang.map fun s => ⟨s, now⟩) := by
  refine ⟨?_, ?_, ?_⟩
  · intro rest
    unfold globalRecords
    induction triggered generalizing rang with
    | nil =>
      have hnone : rang = [] := by simpa using htimes.symm
      rw [hnone]
      rfl
    | cons t triggered ih =>
      cases rang with
      | nil => cases htimes
      | cons s rang =>
        obtain ⟨hhead, htimes⟩ := List.cons.inj htimes
        have htime : t.alarmTime = s.toMinuteText := hhead
        obtain ⟨hera, hyear⟩ := hrang s List.mem_cons_self
        have hscheduled : QDateTime.fromString minuteFormat t.alarmTime = s.truncMin := by
          rw [htime, fromString_toMinuteText hera hyear]
        have hdismissed : QDateTime.fromString secondFormat now.toSecondText = now.truncSec :=
          fromString_toSecondText hnow.1 hnow.2
        have hfield : Field t.alarmTime := htime.symm ▸ field_toMinuteText hera.1
        have hline := timesOf_logBody hfield (field_toSecondText hnow.1.1)
          (by rw [hscheduled]; exact hera.1) (by rw [hdismissed]; exact hnow.1.1)
          (hphoto t List.mem_cons_self)
          (triggered.flatMap (logLine · now.toSecondText capturedPhotoPath) ++ rest)
        have hlater := ih htimes (fun t ht => hphoto t (List.mem_cons_of_mem _ ht))
          (fun s hs => hrang s (List.mem_cons_of_mem _ hs))
          (fun s hs => hright s (List.mem_cons_of_mem _ hs))
        rw [List.flatMap_cons, logLine_eq, List.append_assoc, List.append_assoc,
          List.singleton_append, hline, hlater, hscheduled, hdismissed]
        rfl
  · intro r hr
    obtain ⟨s, hs, rfl⟩ := List.mem_map.mp hr
    exact ⟨(hrang s hs).1.1, hnow.1.1⟩
  · intro r hr
    obtain ⟨s, hs, rfl⟩ := List.mem_map.mp hr
    exact hright s hs

/-- A dismissal writes its lines to the common log, and the rest elsewhere. -/
theorem textOf_dismiss {home : QString} {alarms : List AlarmEntry}
    (hlog : ∀ e ∈ alarms, e.logFile = alarmLogPath home e.alarmId)
    (appended : List (QString × QString)) (triggered : List TriggeredInfo)
    (dismissTime capturedPhotoPath : QString) :
    textOf (home ++ "/alarm.txt".toList) (appended ++
        (home ++ "/alarm.txt".toList, globalRecords triggered dismissTime capturedPhotoPath) ::
          alarmRecords alarms triggered dismissTime capturedPhotoPath) =
      textOf (home ++ "/alarm.txt".toList) appended ++
        globalRecords triggered dismissTime capturedPhotoPath := by
  have helse : ∀ a ∈ alarmRecords alarms triggered dismissTime capturedPhotoPath,
      a.1 ≠ home ++ "/alarm.txt".toList := by
    intro a ha
    obtain ⟨t, -, hwritten⟩ := List.mem_filterMap.mp ha
    split at hwritten
    · cases hwritten
    · next e he =>
      split at hwritten
      · cases hwritten
      · obtain rfl := Option.some.inj hwritten
        rw [hlog e (List.mem_of_getElem? he)]
        exact alarmLogPath_ne home e.alarmId
  have hsplit : ∀ tail, textOf (home ++ "/alarm.txt".toList) (appended ++ tail) =
      textOf (home ++ "/alarm.txt".toList) appended ++
        textOf (home ++ "/alarm.txt".toList) tail := by
    intro tail
    unfold textOf
    rw [List.filter_append, List.flatMap_append]
  rw [hsplit, textOf_cons_self, textOf_eq_nil helse, List.append_nil]

/-! ### Every run -/

theorem alarmTime_collectTriggered (now : QDateTime) (alarms : List AlarmEntry) :
    (collectTriggered now alarms).map (·.alarmTime) =
      ((alarms.filter (·.due now)).map (·.dateTime)).map (·.toMinuteText) := by
  have hfst : alarms = alarms.zipIdx.map (·.1) := (List.zipIdx_map_fst 0 alarms).symm
  unfold collectTriggered
  conv_rhs => rw [hfst]
  induction alarms.zipIdx with
  | nil => rfl
  | cons x xs ih =>
    by_cases hdue : x.1.due now = true
    · simpa [hdue, triggeredInfo] using ih
    · simpa [hdue] using ih

namespace Watched

variable {P : Platform} {w w' : Watched}

/-- While a dialog is open its lines carry the times of what rings; the common log is
    written for the reactions so far. -/
structure WatchInv (P : Platform) (w : Watched) : Prop where
  inv : Inv P w.window
  rang : ∀ frame, w.window.frame = some frame →
    frame.triggered.map (·.alarmTime) = w.rang.map (·.toMinuteText) ∧
      ∀ s ∈ w.rang, s.InCommonEra
  written : Written (textOf (P.home ++ "/alarm.txt".toList) w.window.disk.appended) w.reactions

theorem step_eq_some {ev : Event} :
    step P w ev = some w' ↔ ∃ m, MainWindow.step P w.window ev = some m ∧
      w' = { window := m
             rang := w.rangAfter m
             reactions := w.reactions ++ w.dismissedBy ev } := by
  unfold step
  rw [Option.map_eq_some_iff]
  simp only [eq_comm]

/-- The watched window is the window. -/
theorem run_window {evs : List Event} (h : Machine.run (step P) w evs = some w') :
    Machine.run (MainWindow.step P) w.window evs = some w'.window := by
  apply Machine.run_map (f := Watched.window) _ h
  intro w ev w' hstep
  obtain ⟨m, hm, rfl⟩ := step_eq_some.mp hstep
  exact hm

theorem watchInv_start {m₀ : MainWindow} (hstart : Start P m₀) (hempty : m₀.disk.appended = []) :
    WatchInv P { window := m₀ } := by
  refine ⟨hstart.inv, ?_, ?_⟩
  · intro frame hframe
    rw [hstart.frame_eq_none] at hframe
    cases hframe
  · show Written (textOf _ m₀.disk.appended) []
    rw [hempty]
    exact Written.nil

/-- What rings after a step is what the dialog was opened on. -/
theorem rang_step (h : WatchInv P w) {ev : Event} {m : MainWindow}
    (hstep : MainWindow.step P w.window ev = some m) (hinv : Inv P m) {frame : DismissFrame}
    (hframe : m.frame = some frame) :
    frame.triggered.map (·.alarmTime) = (w.rangAfter m).map (·.toMinuteText) ∧
      ∀ s ∈ w.rangAfter m, s.InCommonEra := by
  rcases MainWindow.frame_step h.inv hstep hframe with hopen | ⟨hnone, now, rfl⟩
  · have hsame : w.rangAfter m = w.rang := by
      unfold rangAfter
      rw [hopen, hframe]
    rw [hsame]
    exact h.rang frame hopen
  · have hrang : w.rangAfter m = (m.alarms.filter (·.due now)).map (·.dateTime) := by
      unfold rangAfter
      rw [hnone, hframe]
      rfl
    rw [hrang]
    refine ⟨alarmTime_collectTriggered now m.alarms, ?_⟩
    intro s hs
    obtain ⟨e, he, rfl⟩ := List.mem_map.mp hs
    exact (hinv.entries.ok e (List.mem_of_mem_filter he)).era

theorem watchInv_step (h : WatchInv P w) {ev : Event} (hright : WritesRight w ev)
    (hstep : step P w ev = some w') : WatchInv P w' := by
  obtain ⟨m, hm, rfl⟩ := step_eq_some.mp hstep
  have hinv := MainWindow.inv_step h.inv hm
  refine ⟨hinv, fun frame hframe => rang_step h hm hinv hframe, ?_⟩
  rcases MainWindow.appended_step hm with
    ⟨now, photo, frame, rfl, hframe, happended⟩ | ⟨hnot, happended⟩
  · obtain ⟨hphoto, hyear, hrang⟩ := hright
    obtain ⟨htimes, hera⟩ := h.rang frame hframe
    show Written (textOf _ m.disk.appended) _
    rw [happended, textOf_dismiss fun e he => (h.inv.entries.ok e he).log]
    apply h.written.concat
    exact written_globalRecords htimes (hphoto frame hframe)
      ⟨inCommonEra_currentDateTime now, hyear⟩ (fun s hs => ⟨hera s hs, (hrang s hs).1⟩)
      fun s hs => (hrang s hs).2
  · have hnone : w.dismissedBy ev = [] := by
      cases ev with
      | dismiss now photo => exact absurd rfl (hnot now photo)
      | _ => rfl
    show Written (textOf _ m.disk.appended) (w.reactions ++ w.dismissedBy ev)
    rw [happended, hnone, List.append_nil]
    exact h.written

end Watched

open Watched

/-- **The day colour reflects the real reaction time** when every dismissal is written so
    that it reads back with the same colours. From a start with empty logs, whatever the
    sort does with ties, the calendar then holds for every day the largest colour of the
    alarms dismissed on it, by the whole seconds from the scheduled time. -/
theorem reactionColor_run (P : Platform) {m₀ : MainWindow} (hstart : Start P m₀)
    (hempty : m₀.disk.appended = []) {evs : List Event} {w : Watched}
    (hrun : Machine.run (Watched.step P) { window := m₀ } evs = some w)
    (hright : Machine.Along (Watched.step P) WritesRight { window := m₀ } evs)
    (fileExists : QString → Bool) (dlg : StatDialog) (d : QDate) :
    (populateList fileExists (textOf (P.home ++ "/alarm.txt".toList) w.window.disk.appended) none
      dlg).calendar d = reactionColor w.reactions d := by
  have hinv : WatchInv P w := Machine.run_invariant_along (I := WatchInv P)
    (fun _ _ _ hI hQ hs => watchInv_step hI hQ hs) (watchInv_start hstart hempty) hright hrun
  exact hinv.written.calendar_eq fileExists dlg d

/-- The run of a +5s alarm that is made 35 seconds into a minute and dismissed `delay`
    milliseconds after it rings. -/
def plus5SecRun (mode : DismissMode) (delay : Nat) (photo : QString) : List Event :=
  [.create (.setDebugAlarmPlus5Sec 1784903435000 0 mode .GameNumberOrder),
    .tick 1784903440000, .dismiss (1784903440000 + delay) photo]

/-- Dismissed after 35 seconds, which the log makes 75: the day is coloured right, though the
    path of the photo has the separator in it. -/
theorem reactionColor_run_plus5Sec :
    ∃ w, Machine.run (Watched.step (Platform.stable "/root".toList)) { window := { clock := 0 } }
        (plus5SecRun .DismissCamera 35000 "/a | b/1.jpg".toList) = some w ∧
      w.reactions.map (·.secs) = [35] ∧
      (populateList (fun _ => false) (textOf ("/root".toList ++ "/alarm.txt".toList)
        w.window.disk.appended) none {}).calendar (QDate.ofYMD 2026 7 24) =
          reactionColor w.reactions (QDate.ofYMD 2026 7 24) := by
  have hrun : Machine.run (Watched.step (Platform.stable "/root".toList))
      { window := { clock := 0 } }
      (plus5SecRun .DismissCamera 35000 "/a | b/1.jpg".toList) = some _ := rfl
  refine ⟨_, hrun, by decide +kernel, ?_⟩
  refine reactionColor_run (Platform.stable "/root".toList) (Start.fresh _ 0) rfl hrun ?_ _ _ _
  refine .cons trivial rfl (.cons trivial rfl (.cons ⟨?_, ?_, ?_⟩ rfl trivial))
  · intro frame _ t _
    unfold photoOf
    split_ifs
    · decide +kernel
    · decide +kernel
  · decide +kernel
  · decide +kernel

/-- Ten seconds after it rang the alarm is dismissed, and the day is orange, not green. -/
theorem reactionColor_plus5Sec_ne :
    Start (Platform.stable "/root".toList) { clock := 0 } ∧
    ∃ w, Machine.run (Watched.step (Platform.stable "/root".toList))
        { window := { clock := 0 } } (plus5SecRun .DismissSimple 10000 []) = some w ∧
      w.reactions.map (·.secs) = [10] ∧
      reactionColor w.reactions (QDate.ofYMD 2026 7 24) = some 1 ∧
      (populateList (fun _ => false) (textOf ("/root".toList ++ "/alarm.txt".toList)
        w.window.disk.appended) none {}).calendar (QDate.ofYMD 2026 7 24) = some 2 := by
  have hrun : Machine.run (Watched.step (Platform.stable "/root".toList))
      { window := { clock := 0 } } (plus5SecRun .DismissSimple 10000 []) = some _ := rfl
  exact ⟨Start.fresh _ 0, _, hrun, by decide +kernel, by decide +kernel, by decide +kernel⟩

end AlarmClock
