import AlarmClock.Invariant

/-!
# The sound of an alarm

The window plays an alarm through a process and a timer that starts it again when it has
ended. Process and timer go their own way beside the window: the process starts and ends
when it likes, and after the alarm it is told to end and may take its time. What the user
is promised is that it sounds while an alarm is on, and only then.
-/

namespace AlarmClock

open QDateTime

/-- `QProcess::state` -/
inductive ProcessState where
  | NotRunning
  | Starting
  | Running
deriving DecidableEq, Repr

/-- `m_alarmPlayer` with the file that its process plays and whether that has been killed, and
    `loopTimer`, while it runs, with the file that its slot has captured. -/
structure AlarmPlayer where
  state : ProcessState := .NotRunning
  soundFile : QString := []
  killed : Bool := false
  loopTimer : Option QString := none
deriving DecidableEq, Repr

namespace AlarmPlayer

/-- `QProcess::start`: a process that is still there is left alone. -/
def start (soundFile : QString) (p : AlarmPlayer) : AlarmPlayer :=
  if p.state = .NotRunning then
    { p with state := .Starting, soundFile := soundFile, killed := false }
  else p

/-- What `updateCurrentTime` does to the player before `dlg.exec()`. -/
def ring (soundFile : QString) (p : AlarmPlayer) : AlarmPlayer :=
  { p.start soundFile with loopTimer := some soundFile }

/-- And after it: `finished` is whether the process ends within the half second that it is
    waited for. Nobody waits for a process that is killed. -/
def stop (finished : Bool) (p : AlarmPlayer) : AlarmPlayer :=
  let p := { p with loopTimer := none }
  if p.state = .NotRunning then p
  else if finished then { p with state := .NotRunning }
  else { p with killed := true }

/-- What the process does by itself. -/
inductive Report where
  | started
  | failedToStart
  | finished
deriving DecidableEq, Repr

def report (p : AlarmPlayer) : Report → Option AlarmPlayer
  | .started => if p.state = .Starting then some { p with state := .Running } else none
  | .failedToStart => if p.state = .Starting then some { p with state := .NotRunning } else none
  | .finished => if p.state = .Running then some { p with state := .NotRunning } else none

/-- The slot of `loopTimer`. -/
def loop (p : AlarmPlayer) : Option AlarmPlayer := p.loopTimer.map p.start

end AlarmPlayer

/-- The window and its player. -/
structure SoundingWindow where
  window : MainWindow
  player : AlarmPlayer := {}
deriving DecidableEq, Repr

namespace SoundingWindow

open MainWindow

variable (P : Platform)

/-- Another start of the application has another player, and takes the process of the old one
    with it. -/
def restarts : AlarmClock.Event → Bool
  | .restart _ | .createCut _ _ => true
  | _ => false

/-- The dialog opens and closes between the halves of `updateCurrentTime`. -/
def follow (before after : Option DismissFrame) (finished : Bool) (p : AlarmPlayer) :
    AlarmPlayer :=
  match before, after with
  | none, some frame => p.ring frame.soundFile
  | some _, none => p.stop finished
  | _, _ => p

inductive Event where
  | window (e : AlarmClock.Event) (finished : Bool)
  | loopTimeout
  | report (r : AlarmPlayer.Report)
deriving DecidableEq, Repr

def step (s : SoundingWindow) : Event → Option SoundingWindow
  | .window e finished => (MainWindow.step P s.window e).map fun window =>
    ⟨window, if restarts e then {} else follow s.window.frame window.frame finished s.player⟩
  | .loopTimeout => s.player.loop.map fun player => { s with player := player }
  | .report r => (s.player.report r).map fun player => { s with player := player }

/-! ### What is played -/

variable {P} {s s' : SoundingWindow}

/-- The sound of the frame is that of an alarm that was due, and none that was due is
    earlier. -/
def Earliest (m : MainWindow) (frame : DismissFrame) : Prop :=
  ∃ e ∈ m.alarms, e.due frame.now = true ∧ frame.soundFile = e.soundFile ∧
    ∀ x ∈ m.alarms, x.due frame.now = true → e.dateTime ≤ x.dateTime

theorem soundFile_collectTriggered (now : QDateTime) (alarms : List AlarmEntry) :
    (collectTriggered now alarms).head?.map (·.soundFile) =
      (alarms.find? (·.due now)).map (·.soundFile) := by
  unfold collectTriggered
  generalize 0 = k
  induction alarms generalizing k with
  | nil => rfl
  | cons e alarms ih =>
    rw [List.zipIdx_cons, List.filterMap_cons]
    dsimp only
    by_cases hdue : e.due now = true
    · rw [List.find?_cons_of_pos hdue, if_pos hdue]
      rfl
    · rw [List.find?_cons_of_neg hdue, if_neg hdue]
      exact ih (k + 1)

/-- In a sorted list the first due alarm is an earliest one. -/
theorem earliest_opened {m : MainWindow} {now : QDateTime}
    (hsorted : m.alarms.Pairwise fun a b => a.dateTime.msecs ≤ b.dateTime.msecs)
    (hsome : collectTriggered now m.alarms ≠ []) :
    Earliest m (openDismissDialog now (collectTriggered now m.alarms)) := by
  have hhead := soundFile_collectTriggered now m.alarms
  cases hfind : m.alarms.find? (·.due now) with
  | none =>
    rw [hfind, Option.map_none, Option.map_eq_none_iff, List.head?_eq_none_iff] at hhead
    exact absurd hhead hsome
  | some e =>
    rw [hfind] at hhead
    obtain ⟨hdue, before, after, hsplit, hbefore⟩ := List.find?_eq_some_iff_append.mp hfind
    refine ⟨e, List.mem_of_find?_eq_some hfind, hdue, ?_, ?_⟩
    · show ((collectTriggered now m.alarms).head?.map (·.soundFile)).getD [] = e.soundFile
      rw [hhead]
      rfl
    · intro x hx hxdue
      rw [hsplit] at hx hsorted
      rcases List.mem_append.mp hx with hx | hx
      · have hnot : x.due now = false := by simpa using hbefore x hx
        cases hxdue.symm.trans hnot
      · rcases List.mem_cons.mp hx with rfl | hx
        · exact QDateTime.le_def.mpr (Int.le_refl _)
        · have hrest := (List.pairwise_append.mp hsorted).2.1
          exact QDateTime.le_def.mpr ((List.pairwise_cons.mp hrest).1 x hx)

theorem Earliest.of_mem {m m' : MainWindow} {frame : DismissFrame} (h : Earliest m frame)
    (hmem : ∀ x, x ∈ m'.alarms ↔ x ∈ m.alarms) : Earliest m' frame := by
  obtain ⟨e, he, hdue, hsound, hfirst⟩ := h
  exact ⟨e, (hmem e).mpr he, hdue, hsound, fun x hx => hfirst x ((hmem x).mp hx)⟩

/-- While a dialog is open the list keeps its alarms, and a dialog opens on its earliest due
    alarm. -/
theorem earliest_step {m m' : MainWindow} (h : AlarmClock.Inv P m)
    (he : ∀ frame, m.frame = some frame → Earliest m frame) {ev : AlarmClock.Event}
    (hstep : MainWindow.step P m ev = some m') :
    ∀ frame, m'.frame = some frame → Earliest m' frame := by
  intro frame hframe'
  cases MainWindow.step_cases hstep with
  | tick now hclock =>
    have hmem : ∀ x,
        x ∈ (updateCurrentTime P (currentDateTime now) { m with clock := now }).alarms ↔
          x ∈ m.alarms := by
      intro x
      rw [(updateCurrentTime_fields _ _).1]
      exact P.sort.mem_sort
    rcases frame_updateCurrentTime (P := P) (m := { m with clock := now }) h.handling
      (currentDateTime now) with hsame | ⟨hnone, hopened⟩
    · exact (he frame (hsame.symm.trans hframe')).of_mem hmem
    · obtain rfl := Option.some.inj (hframe'.symm.trans hopened)
      refine earliest_opened ?_ ?_
      · rw [(updateCurrentTime_fields _ _).1]
        exact P.sort.sorted _
      · intro hempty
        rw [(updateCurrentTime_fields _ _).1] at hempty
        have hquiet : updateCurrentTime P (currentDateTime now) { m with clock := now } =
            refreshAlarmList P { m with clock := now } :=
          if_pos (List.isEmpty_iff.mpr hempty)
        rw [hquiet] at hframe'
        cases hnone.symm.trans hframe'
  | dismiss now photo frame' hframe hclock =>
    rw [(afterExec_fields hframe _ photo now).2.2.2.1] at hframe'
    cases hframe'
  | create c hframe hclock hroom => cases hframe.symm.trans hframe'
  | createCut c restartAt m' hframe hclock hrestart hroom hlaunch =>
    rw [(launch_fields hlaunch).2] at hframe'
    cases hframe'
  | noEdit row opened now presses hframe hclock hrow => cases hframe.symm.trans hframe'
  | edit row opened now presses e hframe hclock hrow => cases hframe.symm.trans hframe'
  | delete row hframe =>
    rw [(deleteSelectedAlarm_row row m).fields.1] at hframe'
    cases hframe.symm.trans hframe'
  | disable row hframe =>
    rw [(disableRow_row row m).fields.1] at hframe'
    cases hframe.symm.trans hframe'
  | enable now row hframe hclock =>
    rw [(enableRow_row (currentDateTime now) row _).fields.1] at hframe'
    cases hframe.symm.trans hframe'
  | restart now m' hclock hlaunch =>
    rw [(launch_fields hlaunch).2] at hframe'
    cases hframe'

/-- The timer runs while the dialog is open, with its sound, and a process that has not been
    killed plays that sound. -/
structure Inv (P : Platform) (s : SoundingWindow) : Prop where
  window : AlarmClock.Inv P s.window
  timer : s.player.loopTimer = s.window.frame.map (·.soundFile)
  sound : s.player.state ≠ .NotRunning → s.player.killed = false →
    ∃ frame, s.window.frame = some frame ∧ s.player.soundFile = frame.soundFile
  earliest : ∀ frame, s.window.frame = some frame → Earliest s.window frame

theorem inv_start {m : MainWindow} (h : Start P m) : Inv P ⟨m, {}⟩ := by
  refine ⟨h.inv, ?_, fun hstate => absurd rfl hstate, ?_⟩
  · rw [h.frame_eq_none]
    rfl
  · intro frame hframe
    cases h.frame_eq_none.symm.trans hframe

/-- What follows from `start`: there is a process, and a new one plays the file. -/
theorem start_cases (soundFile : QString) (p : AlarmPlayer) :
    (p.start soundFile).loopTimer = p.loopTimer ∧ (p.start soundFile).state ≠ .NotRunning ∧
      (p.state = .NotRunning ∧ (p.start soundFile).soundFile = soundFile ∨
        p.state ≠ .NotRunning ∧ p.start soundFile = p) := by
  unfold AlarmPlayer.start
  split_ifs with hstate
  · exact ⟨rfl, by simp, .inl ⟨hstate, rfl⟩⟩
  · exact ⟨rfl, hstate, .inr ⟨hstate, rfl⟩⟩

/-- The timer is stopped, and what still runs has been killed. -/
theorem stop_spec (finished : Bool) (p : AlarmPlayer) :
    (p.stop finished).loopTimer = none ∧
      ((p.stop finished).state ≠ .NotRunning → (p.stop finished).killed = true) := by
  simp only [AlarmPlayer.stop]
  split_ifs with hstate
  · exact ⟨rfl, fun hnot => absurd hstate hnot⟩
  · exact ⟨rfl, fun hnot => absurd rfl hnot⟩
  · exact ⟨rfl, fun _ => rfl⟩

/-- The player follows the window. -/
theorem inv_follow (hi : Inv P s) {finished : Bool} {window : MainWindow}
    (hwindow : AlarmClock.Inv P window)
    (hearliest : ∀ frame, window.frame = some frame → Earliest window frame)
    (hsame : ∀ frame, window.frame = some frame →
      s.window.frame = some frame ∨ s.window.frame = none) :
    Inv P ⟨window, follow s.window.frame window.frame finished s.player⟩ := by
  have hsound := hi.sound
  have htimer := hi.timer
  cases hbefore : s.window.frame with
  | none =>
    rw [hbefore] at hsound htimer
    have hkilled : s.player.state ≠ .NotRunning → s.player.killed = true := by
      intro hstate
      by_contra hnot
      obtain ⟨frame, hframe, -⟩ := hsound hstate (Bool.eq_false_iff.mpr hnot)
      cases hframe
    cases hafter : window.frame with
    | none =>
      refine ⟨hwindow, ?_, ?_, hearliest⟩
      · rw [hafter]
        exact htimer
      · intro hstate halive
        cases halive.symm.trans (hkilled hstate)
    | some frame =>
      obtain ⟨-, -, ⟨-, hfile⟩ | ⟨hold, hkept⟩⟩ := start_cases frame.soundFile s.player
      · refine ⟨hwindow, ?_, fun _ _ => ⟨frame, hafter, hfile⟩, hearliest⟩
        rw [hafter]
        rfl
      · refine ⟨hwindow, ?_, ?_, hearliest⟩
        · rw [hafter]
          rfl
        · intro _ halive
          have halive' : (s.player.start frame.soundFile).killed = false := halive
          rw [hkept, hkilled hold] at halive'
          cases halive'
  | some frame =>
    rw [hbefore] at hsound htimer
    cases hafter : window.frame with
    | none =>
      obtain ⟨hstopped, hkilled⟩ := stop_spec finished s.player
      refine ⟨hwindow, ?_, ?_, hearliest⟩
      · rw [hafter]
        exact hstopped
      · intro hstate halive
        cases halive.symm.trans (hkilled hstate)
    | some frame' =>
      have heq : frame = frame' := by
        rcases hsame frame' hafter with hopen | hnone
        · exact Option.some.inj (hbefore.symm.trans hopen)
        · cases hbefore.symm.trans hnone
      subst heq
      refine ⟨hwindow, ?_, ?_, hearliest⟩
      · rw [hafter]
        exact htimer
      · intro hstate halive
        obtain ⟨frame', hframe', hfile⟩ := hsound hstate halive
        obtain rfl := Option.some.inj hframe'
        exact ⟨frame, hafter, hfile⟩

theorem inv_step (hi : Inv P s) {e : Event} (h : step P s e = some s') : Inv P s' := by
  cases e with
  | window e finished =>
    obtain ⟨window, hwindow, rfl⟩ := Option.map_eq_some_iff.mp h
    have hinv := MainWindow.inv_step hi.window hwindow
    have hearliest := earliest_step hi.window hi.earliest hwindow
    by_cases hrestarts : restarts e = true
    · rw [if_pos hrestarts]
      have hnone : window.frame = none := by
        cases MainWindow.step_cases hwindow with
        | restart now m' hclock hlaunch => exact (launch_fields hlaunch).2
        | createCut c restartAt m' hframe hclock hrestart hroom hlaunch =>
          exact (launch_fields hlaunch).2
        | tick | dismiss | create | noEdit | edit | delete | disable | enable => cases hrestarts
      refine ⟨hinv, ?_, fun hstate => absurd rfl hstate, hearliest⟩
      rw [hnone]
      rfl
    · rw [if_neg hrestarts]
      refine inv_follow hi hinv hearliest fun frame hframe => ?_
      exact (frame_step hi.window hwindow hframe).imp_right And.left
  | loopTimeout =>
    obtain ⟨player, hloop, rfl⟩ := Option.map_eq_some_iff.mp h
    obtain ⟨soundFile, htimer, rfl⟩ := Option.map_eq_some_iff.mp hloop
    obtain ⟨hsame, -, hcases⟩ := start_cases soundFile s.player
    refine ⟨hi.window, hsame.trans hi.timer, ?_, hi.earliest⟩
    intro hstate halive
    rcases hcases with ⟨-, hfile⟩ | ⟨hold, hkept⟩
    · obtain ⟨frame, hframe, rfl⟩ := Option.map_eq_some_iff.mp (hi.timer.symm.trans htimer)
      exact ⟨frame, hframe, hfile⟩
    · have halive' : (s.player.start soundFile).killed = false := halive
      rw [hkept] at halive'
      show ∃ frame, s.window.frame = some frame ∧
        (s.player.start soundFile).soundFile = frame.soundFile
      rw [hkept]
      exact hi.sound hold halive'
  | report r =>
    obtain ⟨player, hreport, rfl⟩ := Option.map_eq_some_iff.mp h
    cases r with
    | started =>
      obtain ⟨hstarting, rfl⟩ := Machine.guarded_eq_some hreport
      refine ⟨hi.window, hi.timer, fun _ halive => hi.sound ?_ halive, hi.earliest⟩
      simp [hstarting]
    | failedToStart | finished =>
      obtain ⟨-, rfl⟩ := Machine.guarded_eq_some hreport
      exact ⟨hi.window, hi.timer, fun hstate => absurd rfl hstate, hi.earliest⟩

/-- What the player and its process do when nothing goes wrong. -/
def Plays (e : Event) : Prop :=
  e = .loopTimeout ∨ e = .report .started ∨ e = .report .finished

/-- From `s` the sound of the frame can be heard, without a hand from the user. -/
def Sounds (P : Platform) (s : SoundingWindow) (frame : DismissFrame) : Prop :=
  ∃ s', Machine.Leads (step P) Plays s s' ∧ s'.window = s.window ∧
    s'.player.state = .Running ∧ s'.player.killed = false ∧
    s'.player.soundFile = frame.soundFile

theorem Sounds.before {frame : DismissFrame} (h : Sounds P s' frame) {e : Event} (he : Plays e)
    (hstep : step P s e = some s') (hwindow : s'.window = s.window) : Sounds P s frame := by
  obtain ⟨t, hleads, hsame, hrest⟩ := h
  exact ⟨t, (Machine.Leads.one he hstep).trans hleads, hsame.trans hwindow, hrest⟩

/-- Once there is no process the timer starts the right one. -/
theorem sounds_of_notRunning {frame : DismissFrame} (hstate : s.player.state = .NotRunning)
    (htimer : s.player.loopTimer = some frame.soundFile) : Sounds P s frame := by
  have hloop : step P s .loopTimeout =
      some { s with player := s.player.start frame.soundFile } := by
    simp only [step, AlarmPlayer.loop, htimer, Option.map_some]
  have hstart : s.player.start frame.soundFile =
      { s.player with state := .Starting, soundFile := frame.soundFile, killed := false } :=
    if_pos hstate
  refine Sounds.before ?_ (.inl rfl) hloop rfl
  rw [hstart]
  exact ⟨_, .one (.inr (.inl rfl)) rfl, rfl, rfl, rfl, rfl⟩

/-- A process that runs plays the right sound, or has been killed and makes room for the one
    that does. -/
theorem sounds_of_running (hi : Inv P s) {frame : DismissFrame}
    (hframe : s.window.frame = some frame) (hstate : s.player.state = .Running) :
    Sounds P s frame := by
  cases hkilled : s.player.killed with
  | false =>
    obtain ⟨frame', hframe', hfile⟩ := hi.sound (by simp [hstate]) hkilled
    obtain rfl := Option.some.inj (hframe.symm.trans hframe')
    exact ⟨s, .refl s, rfl, hstate, hkilled, hfile⟩
  | true =>
    have hfinished : step P s (.report .finished) =
        some { s with player := { s.player with state := .NotRunning } } := by
      simp only [step, AlarmPlayer.report, if_pos hstate, Option.map_some]
    refine Sounds.before ?_ (.inr (.inr rfl)) hfinished rfl
    exact sounds_of_notRunning rfl (hi.timer.trans (congrArg _ hframe))

theorem sounds_of_frame (hi : Inv P s) {frame : DismissFrame}
    (hframe : s.window.frame = some frame) : Sounds P s frame := by
  cases hstate : s.player.state with
  | NotRunning => exact sounds_of_notRunning hstate (hi.timer.trans (congrArg _ hframe))
  | Running => exact sounds_of_running hi hframe hstate
  | Starting =>
    have hstarted : step P s (.report .started) =
        some { s with player := { s.player with state := .Running } } := by
      simp only [step, AlarmPlayer.report, if_pos hstate, Option.map_some]
    exact (sounds_of_running (inv_step hi hstarted) hframe rfl).before (.inr (.inl rfl)) hstarted
      rfl

/-- **An alarm sounds while its dialog is open, and only then.** In every run, whatever the
    process does and when: with a dialog open, its sound is that of an earliest alarm that was
    due, and without a hand from the user a process that plays it runs at last; without one
    nothing is started, and what still runs has been killed. -/
theorem alarm_sounds {P : Platform} {m : MainWindow} (hstart : Start P m) {es : List Event}
    {s : SoundingWindow} (hrun : Machine.run (step P) ⟨m, {}⟩ es = some s) :
    (∀ frame, s.window.frame = some frame → Earliest s.window frame ∧ Sounds P s frame ∧
      (s.player.state ≠ .NotRunning → s.player.killed = false →
        s.player.soundFile = frame.soundFile)) ∧
    (s.window.frame = none → step P s .loopTimeout = none ∧
      (s.player.state ≠ .NotRunning → s.player.killed = true)) := by
  have hi : Inv P s := Machine.run_invariant (fun _ _ _ hs h => inv_step hs h)
    (inv_start hstart) hrun
  refine ⟨fun frame hframe => ⟨hi.earliest frame hframe, sounds_of_frame hi hframe, ?_⟩,
    fun hnone => ⟨?_, fun hstate => ?_⟩⟩
  · intro hstate halive
    obtain ⟨frame', hframe', hfile⟩ := hi.sound hstate halive
    obtain rfl := Option.some.inj (hframe.symm.trans hframe')
    exact hfile
  · have htimer : s.player.loopTimer = none := hi.timer.trans (congrArg _ hnone)
    simp only [step, AlarmPlayer.loop, htimer, Option.map_none]
  · by_contra hnot
    obtain ⟨frame, hframe, -⟩ := hi.sound hstate (Bool.eq_false_iff.mpr hnot)
    cases hnone.symm.trans hframe

/-- The first alarm is dismissed while its process has yet to end, so that the second is heard
    only after it has. -/
def twoAlarms : List Event :=
  [.window (.create (.setDebugAlarmPlus5Sec 1784903435000 0 .DismissSimple .GameNumberOrder)) true,
    .window (.tick 1784903440000) true, .report .started,
    .window (.dismiss 1784903441000 []) false,
    .window (.create (.setDebugAlarmPlus5Sec 1784903442000 0 .DismissSimple .GameNumberOrder)) true,
    .window (.tick 1784903447000) true]

theorem alarm_sounds_two : ∃ s frame,
    Machine.run (step (Platform.stable "/root".toList)) ⟨{ clock := 0 }, {}⟩ twoAlarms = some s ∧
    s.window.frame = some frame ∧ s.player.killed = true ∧
    Sounds (Platform.stable "/root".toList) s frame := by
  have hrun : Machine.run (step (Platform.stable "/root".toList)) ⟨{ clock := 0 }, {}⟩ twoAlarms =
    some _ := rfl
  exact ⟨_, _, hrun, rfl, rfl, ((alarm_sounds (Start.fresh _ 0) hrun).1 _ rfl).2.1⟩

end SoundingWindow

end AlarmClock
