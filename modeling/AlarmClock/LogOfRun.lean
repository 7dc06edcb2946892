import AlarmClock.LogTies
import AlarmClock.RingingWindow

/-!
# The log of a run

What the statistics show after any run of the window and its dialogs, in terms of what was
dismissed in it. The reader of the log takes a photo path whole that is free of separators;
the paths that the camera dialog makes are, if the home directory is.
-/

namespace AlarmClock

open StatDialog

/-! ### The paths of the photos -/

theorem isDigit_or_minus {n : Int} {c : Char} (h : c ∈ TextFormat.decimal n) :
    c.isDigit = true ∨ c = '-' := by
  cases n with
  | ofNat n => exact .inl (TextFormat.isDigit_of_mem_toDigits h)
  | negSucc n =>
    rcases List.mem_cons.mp h with rfl | h
    · exact .inr rfl
    · exact .inl (TextFormat.isDigit_of_mem_toDigits h)

/-- A letter that a reader of the log passes over. -/
def Plain (c : Char) : Prop := c ≠ ' ' ∧ c ≠ '|' ∧ c ≠ '\n'

instance (c : Char) : Decidable (Plain c) := inferInstanceAs (Decidable (_ ∧ _ ∧ _))

theorem plain_of_isDigit {c : Char} (h : c.isDigit = true) : Plain c := by
  refine ⟨?_, ?_, ?_⟩ <;> rintro rfl <;> exact absurd h (by decide)

/-- What follows the home directory, in a path of plain letters, changes nothing for the
    reader. -/
theorem photoPath_append {home rest : QString} (h : PhotoPath home) (hne : rest ≠ [])
    (hplain : ∀ c ∈ rest, Plain c) (hhead : ∀ c ∈ rest.head?, isSpace c = false)
    (hlast : ∀ c ∈ rest.getLast?, isSpace c = false) : PhotoPath (home ++ rest) := by
  have hblank : ' ' ∉ rest := fun hmem => (hplain _ hmem).1 rfl
  have hbar : '|' ∉ rest := fun hmem => (hplain _ hmem).2.1 rfl
  constructor
  · intro hmem
    rcases List.mem_append.mp hmem with hmem | hmem
    · exact h.eol hmem
    · exact (hplain _ hmem).2.2 rfl
  · intro hinfix
    refine h.separator (Text.infix_of_infix_append (by decide) ?_ hinfix)
    simpa using ⟨hblank, hbar, hblank⟩
  · constructor
    · cases home with
      | nil => exact hhead
      | cons c home => exact h.trimmed.1
    · rw [List.getLast?_append_of_ne_nil _ hne]
      exact hlast
  · intro hprefix
    refine h.start (Text.prefix_of_prefix_append ?_ hprefix)
    simpa using ⟨hbar, hblank⟩

/-- The paths of the camera dialog are read whole. -/
theorem photoPath_photoPath {home : QString} (h : PhotoPath home) (now : QDateTime)
    (d : CameraDialog) : PhotoPath (CameraSystem.photoPath home now d) := by
  have hstamp : ∀ c ∈ TextFormat.render CameraSystem.stampFormat now.secondNumbers, Plain c := by
    intro c hc
    rcases TextFormat.mem_render hc with hdigit | hlit
    · exact plain_of_isDigit hdigit
    · have hunderscore : c = '_' := by simpa [CameraSystem.stampFormat] using hlit
      subst hunderscore
      decide
  have hid : ∀ c ∈ TextFormat.decimal d.alarmId, Plain c := by
    intro c hc
    rcases isDigit_or_minus hc with hdigit | rfl
    · exact plain_of_isDigit hdigit
    · decide
  have hword : ∀ word ∈ ["/capture/".toList, "alarm_".toList, "_".toList, ".jpg".toList],
      ∀ c ∈ word, Plain c := by
    have hall : ∀ word ∈ ["/capture/".toList, "alarm_".toList, "_".toList, ".jpg".toList],
        word.all (fun c => decide (Plain c)) = true := by decide
    intro word hmem c hc
    exact of_decide_eq_true (List.all_eq_true.mp (hall word hmem) c hc)
  obtain ⟨name, hpath, hname⟩ : ∃ name : QString, CameraSystem.photoPath home now d =
      home ++ ("/capture/".toList ++ (name ++ ".jpg".toList)) ∧ ∀ c ∈ name, Plain c := by
    by_cases hnumbered : d.alarmId ≥ 0
    · refine ⟨"alarm_".toList ++ TextFormat.decimal d.alarmId ++ "_".toList ++
        TextFormat.render CameraSystem.stampFormat now.secondNumbers, ?_, ?_⟩
      · simp only [CameraSystem.photoPath, if_pos hnumbered, List.append_assoc]
      · intro c hc
        rcases List.mem_append.mp hc with hc | hc
        · rcases List.mem_append.mp hc with hc | hc
          · rcases List.mem_append.mp hc with hc | hc
            · exact hword _ (by simp) c hc
            · exact hid c hc
          · exact hword _ (by simp) c hc
        · exact hstamp c hc
    · refine ⟨TextFormat.render CameraSystem.stampFormat now.secondNumbers, ?_, hstamp⟩
      simp only [CameraSystem.photoPath, if_neg hnumbered, List.append_assoc]
  rw [hpath]
  apply photoPath_append h
  · simp
  · intro c hc
    rcases List.mem_append.mp hc with hc | hc
    · exact hword _ (by simp) c hc
    · rcases List.mem_append.mp hc with hc | hc
      · exact hname c hc
      · exact hword _ (by simp) c hc
  · intro c hc
    obtain rfl : '/' = c := Option.some.inj hc
    decide
  · intro c hc
    rw [← List.append_assoc, List.getLast?_append_of_ne_nil _ (by decide)] at hc
    obtain rfl : 'g' = c := Option.some.inj hc
    decide

/-! ### What is written -/

/-- A dismissal of a run, with the times of the presses of the physical button in its dialog. -/
structure Attended extends Dismissal where
  presses : List Nat

namespace Attended

/-- There is a photo where a camera alarm rang; it is named for the first that did, and was
    asked for by a press in the dialog. -/
def OwnPhoto (home : QString) (d : Attended) : Prop :=
  (d.capturedPhotoPath ≠ [] → ∃ x ∈ d.rung,
    x.2.dismissMode = DismissMode.DismissCamera.toInt) ∧
  ∀ x ∈ d.rung, x.2.dismissMode = DismissMode.DismissCamera.toInt → ∃ first,
    d.rung.find? (fun y => y.2.dismissMode == DismissMode.DismissCamera.toInt) = some first ∧
    ∃ taken ∈ d.presses, d.capturedPhotoPath = CameraSystem.photoPath home
      (QDateTime.currentDateTime taken) { alarmId := first.2.alarmId }

theorem OwnPhoto.photoPath {home : QString} (hhome : PhotoPath home) {d : Attended}
    (h : d.OwnPhoto home) : PhotoPath d.capturedPhotoPath := by
  by_cases hnone : d.capturedPhotoPath = []
  · rw [hnone]
    exact photoPath_nil
  · obtain ⟨x, hx, hcamera⟩ := h.1 hnone
    obtain ⟨first, -, taken, -, hpath⟩ := h.2 x hx hcamera
    rw [hpath]
    exact photoPath_photoPath hhome _ _

end Attended

namespace RingingWindow

/-- What is remembered of a run: what rang last with its indices, the presses since, and the
    dismissals, oldest first. -/
structure Account where
  rung : List (Nat × AlarmEntry) := []
  presses : List Nat := []
  dismissals : List Attended := []

def note (P : Platform) (s : RingingWindow) (e : Event) (a : Account) : Account :=
  match e, s.window.frame with
  | .window (.tick now) _, none =>
    { a with
      rung := rungAt (QDateTime.currentDateTime now) (P.sort.sort s.window.alarms)
      presses := [] }
  | .window (.dismiss now photo) _, some _ =>
    { a with
      dismissals := a.dismissals ++ [{
        alarms := s.window.alarms
        rung := a.rung
        now := QDateTime.currentDateTime now
        capturedPhotoPath := photo
        presses := a.presses }] }
  | .dialog e, _ => { a with presses := a.presses ++ DismissDialog.pressed e }
  | _, _ => a

/-- The dismissals of a run. -/
def dismissals (P : Platform) (m : MainWindow) (es : List Event) : List Attended :=
  (Machine.noted (step P) (note P) ⟨m, none⟩ {} es).dismissals

/-- What is remembered of the open dialog. -/
structure Opened (P : Platform) (m : MainWindow) (frame : DismissFrame)
    (rung : List (Nat × AlarmEntry)) : Prop where
  triggered : frame.triggered = rung.map fun x => triggeredInfo x.1 x.2
  rung : ∃ now before, P.sort.Resorted before m.alarms ∧ rung = rungAt now before

/-- What the logs hold at a moment of a run, after what they held before it. -/
structure Logged (P : Platform) (old : List (QString × QString)) (s : RingingWindow)
    (a : Account) : Prop where
  window : Inv P s
  asked : ∀ d, s.dialog = some d → d.Asked P.home a.presses
  opened : ∀ frame, s.window.frame = some frame → Opened P s.window frame a.rung
  appended : s.window.disk.appended = old ++ a.dismissals.flatMap (·.appends P.home)
  written : ∀ d ∈ a.dismissals, d.Written P
  own : ∀ d ∈ a.dismissals, d.OwnPhoto P.home

variable {P : Platform} {s s' : RingingWindow} {old : List (QString × QString)} {a : Account}

theorem opened_sort (P : Platform) (m : MainWindow) (now : QDateTime) {window : MainWindow}
    (halarms : window.alarms = P.sort.sort m.alarms) :
    Opened P window (openDismissDialog now (collectTriggered now window.alarms))
      (rungAt now (P.sort.sort m.alarms)) := by
  rw [halarms]
  refine ⟨(triggered_rungAt now _).symm, now, P.sort.sort m.alarms, ?_, rfl⟩
  rw [halarms]
  exact P.sort.resorted_sort m.alarms

theorem Opened.again {m window : MainWindow} {frame : DismissFrame}
    {rung : List (Nat × AlarmEntry)} (h : Opened P m frame rung)
    (halarms : window.alarms = P.sort.sort m.alarms) : Opened P window frame rung := by
  obtain ⟨now, before, hresorted, hrung⟩ := h.rung
  refine ⟨h.triggered, now, before, ?_, hrung⟩
  rw [halarms]
  exact hresorted.again

/-- What a tick does to the list and to the dialog. -/
theorem tick_cases {m window : MainWindow} (hm : AlarmClock.Inv P m) {now : Nat}
    (hstep : MainWindow.step P m (.tick now) = some window) :
    window.alarms = P.sort.sort m.alarms ∧ (window.frame = m.frame ∨ m.frame = none ∧
      window.frame = some (openDismissDialog (QDateTime.currentDateTime now)
        (collectTriggered (QDateTime.currentDateTime now) window.alarms))) := by
  cases MainWindow.step_cases hstep with
  | tick now hclock =>
    exact ⟨(MainWindow.updateCurrentTime_fields _ _).1, MainWindow.frame_updateCurrentTime
      (P := P) (m := { m with clock := now }) hm.handling (QDateTime.currentDateTime now)⟩

/-- A tick: the dialog opens, or the list is sorted anew under it. -/
theorem logged_tick (hl : Logged P old s a) {now : Nat} {draws : DismissDialog.Draws}
    (h : step P s (.window (.tick now) draws) = some s') :
    Logged P old s' (note P s (.window (.tick now) draws) a) := by
  have hinv := inv_step hl.window h
  cases step_cases h with
  | window _ _ window dialog hreturned hwindow hclock hdialog =>
    have happended : window.disk.appended = s.window.disk.appended := by
      rcases MainWindow.appended_step hwindow with ⟨_, _, _, hdismiss, -, -⟩ | ⟨-, hsame⟩
      · cases hdismiss
      · exact hsame
    obtain ⟨halarms, hframes⟩ := tick_cases hl.window.window hwindow
    cases hframe : s.window.frame with
    | none =>
      have hnote : note P s (.window (.tick now) draws) a =
          { a with
            rung := rungAt (QDateTime.currentDateTime now) (P.sort.sort s.window.alarms)
            presses := [] } := by
        simp only [note, hframe]
      rw [hnote]
      refine ⟨hinv, ?_, ?_, happended.trans hl.appended, hl.written, hl.own⟩
      · intro d hd
        obtain rfl : dialog = some d := hd
        simp only [follow, hframe] at hdialog
        split at hdialog
        · obtain ⟨d', hd', hsome⟩ := Option.map_eq_some_iff.mp hdialog
          obtain rfl := Option.some.inj hsome
          exact DismissDialog.asked_build hd'
        · next heq _ => cases heq
        · rw [hl.window.idle hframe] at hdialog
          cases hdialog
      · intro frame hopen
        rcases hframes with hsame | ⟨-, hopened⟩
        · cases hframe.symm.trans (hsame.symm.trans hopen)
        · obtain rfl := Option.some.inj (hopen.symm.trans hopened)
          exact opened_sort P s.window _ halarms
    | some frame =>
      have hnote : note P s (.window (.tick now) draws) a = a := by
        simp only [note, hframe]
      have hsame : window.frame = some frame := by
        rcases hframes with hsame | ⟨hnone, -⟩
        · exact hsame.trans hframe
        · cases hnone.symm.trans hframe
      rw [hnote]
      refine ⟨hinv, ?_, ?_, happended.trans hl.appended, hl.written, hl.own⟩
      · simp only [follow, hframe, hsame] at hdialog
        obtain rfl := Option.some.inj hdialog
        exact hl.asked
      · intro frame' hopen
        obtain rfl := Option.some.inj (hsame.symm.trans hopen)
        exact (hl.opened frame hframe).again halarms

/-- What stands in the logs stays true of what was dismissed when no dialog is left open. -/
theorem logged_of_idle (hinv : Inv P s') (hidle : s'.window.frame = none)
    (happended : s'.window.disk.appended = old ++ a.dismissals.flatMap (·.appends P.home))
    (hwritten : ∀ d ∈ a.dismissals, d.Written P) (hown : ∀ d ∈ a.dismissals, d.OwnPhoto P.home) :
    Logged P old s' a := by
  refine ⟨hinv, ?_, ?_, happended, hwritten, hown⟩
  · intro d hd
    cases (hinv.idle hidle).symm.trans hd
  · intro frame hopen
    cases hidle.symm.trans hopen

/-- The photo of a dismissal is that of its dialog. -/
theorem ownPhoto_of_returned (hl : Logged P old s a) {now : Nat} {photo : QString}
    (hreturned : Returned s.dialog (.dismiss now photo)) {frame : DismissFrame}
    (hframe : s.window.frame = some frame) {d : Attended} (hrung : d.rung = a.rung)
    (hphoto : d.capturedPhotoPath = photo) (hpresses : d.presses = a.presses) :
    d.OwnPhoto P.home := by
  obtain ⟨hother, hcamera⟩ := photo_of_returned hl.window hl.asked hreturned hframe
  rw [(hl.opened frame hframe).triggered, ← hrung, ← hphoto] at hother
  rw [(hl.opened frame hframe).triggered, ← hrung, ← hphoto, ← hpresses] at hcamera
  constructor
  · intro hne
    obtain ⟨t, ht, ht'⟩ := dismissMode_eq_camera.mp (not_not.mp (mt hother hne))
    obtain ⟨x, hx, rfl⟩ := List.mem_map.mp ht
    exact ⟨x, hx, ht'⟩
  · intro x hx hx'
    obtain ⟨first, hfirst, taken, htaken, hpath⟩ :=
      hcamera (dismissMode_eq_camera.mpr ⟨_, List.mem_map_of_mem hx, hx'⟩)
    rw [List.find?_map, Option.map_eq_some_iff] at hfirst
    obtain ⟨y, hy, rfl⟩ := hfirst
    exact ⟨y, hy, taken, htaken, hpath⟩

/-- The end of a dialog writes the lines of what it was opened on. -/
theorem logged_dismiss (hl : Logged P old s a) {now : Nat} {photo : QString}
    {draws : DismissDialog.Draws}
    (h : step P s (.window (.dismiss now photo) draws) = some s') :
    Logged P old s' (note P s (.window (.dismiss now photo) draws) a) := by
  have hinv := inv_step hl.window h
  cases step_cases h with
  | window _ _ window dialog hreturned hwindow hclock hdialog =>
    cases MainWindow.step_cases hwindow with
    | dismiss now photo frame hframe hnow =>
      have hopened := hl.opened frame hframe
      have hfields := MainWindow.afterExec_fields (P := P) hframe
        (QDateTime.currentDateTime now) photo now
      let d : Attended :=
        { alarms := s.window.alarms
          rung := a.rung
          now := QDateTime.currentDateTime now
          capturedPhotoPath := photo
          presses := a.presses }
      have hnote : note P s (.window (.dismiss now photo) draws) a =
          { a with dismissals := a.dismissals ++ [d] } := by
        simp only [note, hframe, d]
      have hwritten : d.Written P :=
        ⟨hl.window.window.entries.ok, hl.window.window.entries.nodup,
          QDateTime.inCommonEra_currentDateTime now, hopened.rung⟩
      rw [hnote]
      apply logged_of_idle hinv hfields.2.2.2.1
      · have happended : (MainWindow.afterExec P (QDateTime.currentDateTime now) photo
            { s.window with clock := now }).disk.appended =
              s.window.disk.appended ++ d.appends P.home := by
          simp only [MainWindow.afterExec, hframe, hopened.triggered]
          rfl
        rw [happended, hl.appended, List.flatMap_append, List.flatMap_singleton,
          List.append_assoc]
      · intro d' hd'
        rcases List.mem_append.mp hd' with hd' | hd'
        · exact hl.written d' hd'
        · rw [List.mem_singleton.mp hd']
          exact hwritten
      · intro d' hd'
        rcases List.mem_append.mp hd' with hd' | hd'
        · exact hl.own d' hd'
        · rw [List.mem_singleton.mp hd']
          exact ownPhoto_of_returned hl hreturned hframe rfl rfl rfl

theorem note_of_other {e : AlarmClock.Event} (htick : ∀ now, e ≠ .tick now)
    (hdismiss : ∀ now photo, e ≠ .dismiss now photo) (draws : DismissDialog.Draws) :
    note P s (.window e draws) a = a := by
  cases e with
  | tick now => exact absurd rfl (htick now)
  | dismiss now photo => exact absurd rfl (hdismiss now photo)
  | _ => rfl

/-- **One step** keeps the log in step with the dismissals. -/
theorem logged_step (hl : Logged P old s a) {e : Event} (h : step P s e = some s') :
    Logged P old s' (note P s e a) := by
  have hinv := inv_step hl.window h
  cases step_cases h with
  | dialog e d d' hd hclock hstep =>
    refine ⟨hinv, ?_, hl.opened, hl.appended, hl.written, hl.own⟩
    intro d₁ hd₁
    obtain rfl := Option.some.inj hd₁
    exact DismissDialog.asked_step (hl.asked d hd) hstep
  | window e draws window dialog hreturned hwindow hclock hdialog =>
    by_cases htick : ∃ now, e = .tick now
    · obtain ⟨now, rfl⟩ := htick
      exact logged_tick hl h
    · rcases MainWindow.appended_step hwindow with ⟨now, photo, _, rfl, -, -⟩ | ⟨hnot, happended⟩
      · exact logged_dismiss hl h
      · rw [note_of_other (fun now heq => htick ⟨now, heq⟩) hnot]
        exact logged_of_idle hinv ((tick_or_idle hwindow).resolve_left htick)
          (happended.trans hl.appended) hl.written hl.own

/-- **What the statistics show of a run**, behind what they showed of whole lines before it, in
    years of four digits. In the view of all alarms: for every dismissal, in order, a record of
    each alarm that rang, whatever the sort does. In the view of an alarm: its own records, if
    for every dismissal the sort leaves the list alone, as a stable one does, or what shared the
    date-time of an alarm that rang was enabled, and in camera mode with it. And the records of
    camera alarms have a photo, and no others have one: it is named for the first of them, and
    was asked for by a press in the dialog that was dismissed. -/
theorem log_of_run {P : Platform} (hhome : PhotoPath P.home) {m : MainWindow}
    (hstart : Start P m) (hwhole : ∀ path, Whole (textOf path m.disk.appended)) {es : List Event}
    {s : RingingWindow} (hrun : Machine.run (step P) ⟨m, none⟩ es = some s)
    (hyears : ∀ d ∈ dismissals P m es, d.FourDigits) (fileExists : QString → Bool)
    (dlg : StatDialog) :
    (populateList fileExists (textOf (P.home ++ "/alarm.txt".toList) s.window.disk.appended) none
        dlg).rows.map (·.record) =
      records (textOf (P.home ++ "/alarm.txt".toList) m.disk.appended) ++
        ((dismissals P m es).flatMap (·.logged)).map (·.2) ∧
      ((∀ d ∈ dismissals P m es, P.sort.Keeps d.alarms ∨ d.TiesAlike) → ∀ id,
        (populateList fileExists (textOf (alarmLogPath P.home id) s.window.disk.appended) none
          dlg).rows.map (·.record) =
        records (textOf (alarmLogPath P.home id) m.disk.appended) ++
          (((dismissals P m es).flatMap (·.logged)).filter fun x => x.1 = id).map (·.2)) ∧
      ∀ d ∈ dismissals P m es, d.OwnPhoto P.home := by
  have hstart' : Logged P m.disk.appended ⟨m, none⟩ {} :=
    logged_of_idle (inv_start hstart) hstart.frame_eq_none (List.append_nil _).symm
      (List.forall_mem_nil _) (List.forall_mem_nil _)
  have hl : Logged P m.disk.appended s (Machine.noted (step P) (note P) ⟨m, none⟩ {} es) :=
    Machine.run_noted (I := Logged P m.disk.appended)
      (fun _ _ e _ hl hstep => logged_step (e := e) hl hstep) hstart' hrun
  have happended : s.window.disk.appended = m.disk.appended ++
      ((dismissals P m es).map (·.toDismissal)).flatMap (·.appends P.home) := by
    rw [List.flatMap_map]
    exact hl.appended
  have hlogged : ((dismissals P m es).map (·.toDismissal)).flatMap (·.logged) =
      (dismissals P m es).flatMap (·.logged) := List.flatMap_map ..
  have hwritten : ∀ d ∈ (dismissals P m es).map (·.toDismissal), d.Written P :=
    List.forall_mem_map.mpr hl.written
  have hyears' : ∀ d ∈ (dismissals P m es).map (·.toDismissal), d.FourDigits :=
    List.forall_mem_map.mpr hyears
  have hphoto : ∀ d ∈ (dismissals P m es).map (·.toDismissal), PhotoPath d.capturedPhotoPath :=
    List.forall_mem_map.mpr fun d hd => (hl.own d hd).photoPath hhome
  refine ⟨?_, fun hties id => ?_, hl.own⟩
  · rw [records_populateList_all, happended, textOf_append, (hwhole _).records_append,
      records_alarm hwritten hyears' hphoto, hlogged]
  · rw [records_populateList_all, happended, textOf_append, (hwhole _).records_append,
      records_alarmLogPath hwritten hyears' hphoto (List.forall_mem_map.mpr hties) id, hlogged]

/-- A stable sort leaves every list alone that is in order. -/
example (home : QString) (d : Dismissal) : (Platform.stable home).sort.Keeps d.alarms :=
  KeySort.stable_keeps d.alarms

/-- A sort that turns every tie around. -/
def turning (home : QString) : Platform where
  home := home
  sort :=
    { sort := fun l => (KeySort.stable _).sort l.reverse
      perm := fun _ => ((KeySort.stable _).perm _).trans (List.reverse_perm _)
      sorted := fun _ => (KeySort.stable _).sorted _ }

/-- A window that finds one line in the common log. -/
def yesterday : MainWindow where
  disk :=
    { appended := [("/root/alarm.txt".toList,
        "ALARM: 2026-07-23 07:00 | DISMISSED: 2026-07-23 07:00:12\n".toList)] }

/-- Two camera alarms ring at once, the list is sorted anew before a photo is taken, and then a
    third one rings alone. -/
def twoDialogs : List Event :=
  [.window (.create
      (.setDebugAlarmPlus5Sec 1784903435000 0 .DismissCamera .GameNumberOrder)) default,
    .window (.create
      (.setDebugAlarmPlus5Sec 1784903435000 1 .DismissCamera .GameNumberOrder)) default,
    .window (.tick 1784903440000) default,
    .dialog ⟨1784903440000, .thread (.initBH1750 false)⟩,
    .dialog ⟨1784903440000, .thread (.initCapture true)⟩,
    .dialog ⟨1784903440000, .thread (.startCapture true)⟩,
    .window (.tick 1784903441000) default,
    .dialog ⟨1784903441000, .buttonPressed⟩,
    .dialog ⟨1784903441000, .thread (.select .readable)⟩,
    .dialog ⟨1784903441000, .thread (.dequeue .frame)⟩,
    .dialog ⟨1784903441000, .thread .takePending⟩,
    .dialog ⟨1784903441000, .thread .testAndSet⟩,
    .dialog ⟨1784903441000, .thread .convert⟩,
    .dialog ⟨1784903441000, .thread (.answer none true)⟩,
    .dialog ⟨1784903441000, .deliver⟩,
    .dialog ⟨1784903441000, .deliver⟩,
    .dialog ⟨1784903441000, .deliver⟩,
    .window (.dismiss 1784903442000 "/root/capture/alarm_2_20260724_143041.jpg".toList) default,
    .window (.create
      (.setDebugAlarmPlus5Sec 1784903450000 0 .DismissSimple .GameNumberOrder)) default,
    .window (.tick 1784903455000) default,
    .window (.tick 1784903456000) default,
    .dialog ⟨1784903456000, .clicked⟩,
    .window (.dismiss 1784903456000 []) default]

/-- At the end of the first dialog other entries stand where the two alarms stood that rang. -/
theorem log_of_run_twoDialogs : ∃ s,
    Machine.run (step (turning "/root".toList)) ⟨yesterday, none⟩ twoDialogs = some s ∧
    (∃ d ∈ dismissals (turning "/root".toList) yesterday twoDialogs,
      ∀ x ∈ d.rung, d.alarms[x.1]? ≠ some x.2) ∧
    ((dismissals (turning "/root".toList) yesterday twoDialogs).flatMap (·.logged)).map
        (fun x => (x.1, x.2.photoPath)) =
      [(2, "/root/capture/alarm_2_20260724_143041.jpg".toList),
        (1, "/root/capture/alarm_2_20260724_143041.jpg".toList), (3, [])] ∧
    (populateList (fun _ => true) (textOf ("/root".toList ++ "/alarm.txt".toList)
        s.window.disk.appended) none {}).rows.map (·.record) =
      records "ALARM: 2026-07-23 07:00 | DISMISSED: 2026-07-23 07:00:12\n".toList ++
        ((dismissals (turning "/root".toList) yesterday twoDialogs).flatMap (·.logged)).map (·.2) ∧
    (∀ id, (populateList (fun _ => true) (textOf (alarmLogPath "/root".toList id)
        s.window.disk.appended) none {}).rows.map (·.record) =
      records (textOf (alarmLogPath "/root".toList id) yesterday.disk.appended) ++
        (((dismissals (turning "/root".toList) yesterday twoDialogs).flatMap (·.logged)).filter
          fun x => x.1 = id).map (·.2)) ∧
    ∀ d ∈ dismissals (turning "/root".toList) yesterday twoDialogs, d.OwnPhoto "/root".toList := by
  have hhome : PhotoPath "/root".toList := ⟨by decide, by decide, by decide, by decide⟩
  have hstart : Start (turning "/root".toList) yesterday :=
    ⟨yesterday.disk, 0, ⟨[], .inr ⟨rfl, rfl⟩, .nil, by decide, by decide⟩, rfl⟩
  have hwhole : ∀ path, Whole (textOf path yesterday.disk.appended) := by
    intro path
    by_cases hpath : "/root/alarm.txt".toList = path
    · subst hpath
      decide +kernel
    · exact .inl (textOf_cons_of_ne hpath _ [])
  have hrun : (Machine.run (step (turning "/root".toList)) ⟨yesterday, none⟩
      twoDialogs).isSome = true := by
    decide +kernel
  obtain ⟨s, hrun⟩ := Option.isSome_iff_exists.mp hrun
  obtain ⟨hcommon, hown, hphotos⟩ :=
    log_of_run hhome hstart hwhole hrun (by decide +kernel) (fun _ => true) {}
  refine ⟨s, hrun, by decide +kernel, by decide +kernel, hcommon, ?_, hphotos⟩
  apply hown
  intro d hd
  have halike : ∀ d ∈ dismissals (turning "/root".toList) yesterday twoDialogs, d.TiesAlike := by
    decide +kernel
  exact .inr (halike d hd)

end RingingWindow

end AlarmClock
