import AlarmClock.DismissDialog
import AlarmClock.Invariant

/-!
# The window and the dialog it waits for

`updateCurrentTime` builds the dialog of its frame, lets it run, and goes on when `exec` has
returned. The window and the dialog are put side by side: the window takes a dismissal from
its dialog and from nowhere else, and the photo with it. So every theorem about the runs of
the window is one about the runs of the two, and what the dialogs promise holds of the alarm
clock: it comes back from every alarm, with one exception.
-/

namespace AlarmClock

open DismissDialog (Draws Helpful)

structure RingingWindow where
  window : MainWindow
  dialog : Option DismissDialog := none

namespace RingingWindow

variable (P : Platform)

inductive Event where
  | window (e : AlarmClock.Event) (draws : Draws)
  | dialog (e : DismissDialog.Event)

def windowEvent : Event → Option AlarmClock.Event
  | .window e _ => some e
  | .dialog _ => none

/-- A dismissal is what `exec` has returned, with the photo of its dialog. -/
def Returned (dialog : Option DismissDialog) : AlarmClock.Event → Prop
  | .dismiss _ capturedPhotoPath =>
    ∃ d, dialog = some d ∧ d.result ≠ none ∧ capturedPhotoPath = d.capturedPhotoPath
  | _ => True

/-- The dialog is built with its frame, and is gone with it. -/
def follow (draws : Draws) (window : MainWindow) (before : Option DismissFrame)
    (dialog : Option DismissDialog) : Option (Option DismissDialog) :=
  match before, window.frame with
  | none, some frame =>
    (DismissDialog.build frame.mode frame.gameType frame.alarmId window.clock draws).map some
  | some _, none => some none
  | _, _ => some dialog

instance (dialog : Option DismissDialog) (e : AlarmClock.Event) : Decidable (Returned dialog e) :=
  match e, dialog with
  | .dismiss _ capturedPhotoPath, some d =>
    decidable_of_iff (d.result ≠ none ∧ capturedPhotoPath = d.capturedPhotoPath)
      (by simp [Returned])
  | .dismiss _ _, none => .isFalse (by simp [Returned])
  | .tick _, _ | .create _, _ | .createCut _ _, _ | .edit _ _ _ _, _ | .delete _, _
  | .disable _, _ | .enable _ _, _ | .restart _, _ => .isTrue trivial

/-- The two have one clock, which does not go back. -/
def step (s : RingingWindow) : Event → Option RingingWindow
  | .window e draws =>
    if Returned s.dialog e then
      (MainWindow.step P s.window e).bind fun window =>
        if ∀ d ∈ s.dialog, d.clock ≤ window.clock then
          (follow draws window s.window.frame s.dialog).map fun dialog => ⟨window, dialog⟩
        else none
    else none
  | .dialog e =>
    if s.window.clock ≤ e.now then
      s.dialog.bind fun d => (d.step P.home e).map fun d => { s with dialog := some d }
    else none

/-! ### What a step does -/

variable {P} {s s' : RingingWindow}

inductive StepTo (P : Platform) (s : RingingWindow) : Event → RingingWindow → Prop where
  | window (e : AlarmClock.Event) (draws : Draws) (window : MainWindow)
      (dialog : Option DismissDialog) (hreturned : Returned s.dialog e)
      (hwindow : MainWindow.step P s.window e = some window)
      (hclock : ∀ d, s.dialog = some d → d.clock ≤ window.clock)
      (hdialog : follow draws window s.window.frame s.dialog = some dialog) :
      StepTo P s (.window e draws) ⟨window, dialog⟩
  | dialog (e : DismissDialog.Event) (d d' : DismissDialog) (hd : s.dialog = some d)
      (hclock : s.window.clock ≤ e.now) (hstep : d.step P.home e = some d') :
      StepTo P s (.dialog e) { s with dialog := some d' }

theorem step_cases {e : Event} (h : step P s e = some s') : StepTo P s e s' := by
  cases e with
  | window e draws =>
    simp only [step] at h
    split at h
    · next hreturned =>
      obtain ⟨window, hwindow, h⟩ := Option.bind_eq_some_iff.mp h
      split at h
      · next hclock =>
        obtain ⟨dialog, hdialog, rfl⟩ := Option.map_eq_some_iff.mp h
        exact .window e draws window dialog hreturned hwindow hclock hdialog
      · cases h
    · cases h
  | dialog e =>
    simp only [step] at h
    split at h
    · next hclock =>
      obtain ⟨d, hd, h⟩ := Option.bind_eq_some_iff.mp h
      obtain ⟨d', hd', rfl⟩ := Option.map_eq_some_iff.mp h
      exact .dialog e d d' hd hclock hd'
    · cases h

/-- A dialog is there while its frame is, and it is the dialog of that frame. -/
structure Inv (P : Platform) (s : RingingWindow) : Prop where
  window : AlarmClock.Inv P s.window
  idle : s.window.frame = none → s.dialog = none
  opened : ∀ frame, s.window.frame = some frame → ∃ d, s.dialog = some d ∧ d.Inv ∧
    d.mode = frame.mode ∧ d.alarmId = frame.alarmId ∧
    ∃ now triggered, frame = openDismissDialog now triggered

theorem inv_start {m : MainWindow} (h : Start P m) : Inv P ⟨m, none⟩ := by
  refine ⟨h.inv, fun _ => rfl, ?_⟩
  intro frame hframe
  cases h.frame_eq_none.symm.trans hframe

theorem inv_step {e : Event} (hs : Inv P s) (h : step P s e = some s') : Inv P s' := by
  cases step_cases h with
  | dialog e d d' hd hclock hstep =>
    refine ⟨hs.window, ?_, ?_⟩
    · intro hframe
      cases hd.symm.trans (hs.idle hframe)
    · intro frame hframe
      obtain ⟨d₁, hd₁, hinv, hmode, hid, hopened⟩ := hs.opened frame hframe
      obtain rfl := Option.some.inj (hd₁.symm.trans hd)
      obtain ⟨hmode', hid'⟩ := DismissDialog.mode_step hstep
      exact ⟨d', rfl, DismissDialog.inv_step hinv hstep, hmode'.trans hmode, hid'.trans hid,
        hopened⟩
  | window e draws window dialog hreturned hwindow hclock hdialog =>
    have hinv := MainWindow.inv_step hs.window hwindow
    cases hafter : window.frame with
    | none =>
      refine ⟨hinv, fun _ => ?_, ?_⟩
      · cases hbefore : s.window.frame with
        | none =>
          simp only [follow, hbefore, hafter] at hdialog
          exact (Option.some.inj hdialog).symm.trans (hs.idle hbefore)
        | some frame =>
          simp only [follow, hbefore, hafter] at hdialog
          exact (Option.some.inj hdialog).symm
      · intro frame hframe
        cases hafter.symm.trans hframe
    | some frame =>
      refine ⟨hinv, ?_, ?_⟩
      · intro hnone
        cases hafter.symm.trans hnone
      · intro frame' hframe'
        obtain rfl := Option.some.inj (hafter.symm.trans hframe')
        rcases MainWindow.frame_step hs.window hwindow hafter with hbefore | ⟨hbefore, now, hopened⟩
        · simp only [follow, hbefore, hafter] at hdialog
          obtain rfl := Option.some.inj hdialog
          exact hs.opened frame hbefore
        · obtain ⟨d, hd, hdinv, hmode, hid, -⟩ := DismissDialog.inv_build frame.mode
            frame.gameType frame.alarmId window.clock draws
          simp only [follow, hbefore, hafter, hd, Option.map_some] at hdialog
          obtain rfl := Option.some.inj hdialog
          exact ⟨d, rfl, hdinv, hmode, hid, now, _, hopened⟩

/-- Events of the dialogs are nothing to the window. -/
theorem window_step {e : Event} (h : step P s e = some s') :
    (windowEvent e).elim (s'.window = s.window)
      fun e => MainWindow.step P s.window e = some s'.window := by
  cases step_cases h with
  | dialog => rfl
  | window e draws window dialog hreturned hwindow => exact hwindow

/-! ### The way back -/

/-- The dialog is finished, and its alarm dismissed. -/
def Finishing : Event → Prop
  | .window (.dismiss _ _) _ => True
  | .window _ _ => False
  | .dialog e => Helpful e.input

/-- What a dialog can be led to, it can be led to where it stands. -/
theorem leads_of_dialog {d d' : DismissDialog} (hd : s.dialog = some d)
    (h : Machine.Leads (DismissDialog.step P.home) (DismissDialog.FinishFrom s.window.clock) d d') :
    ∃ s', Machine.Leads (step P) Finishing s s' ∧ s'.window = s.window ∧ s'.dialog = some d' := by
  refine Machine.leads_lift
    (R := fun (s₁ : RingingWindow) d => s₁.window = s.window ∧ s₁.dialog = some d) ?_ ⟨rfl, hd⟩ h
  rintro s₁ d₁ e d₂ ⟨hnow, hhelpful⟩ ⟨hwindow, hd₁⟩ hstep
  refine ⟨{ s₁ with dialog := some d₂ }, .one (e := .dialog e) hhelpful ?_, hwindow, rfl⟩
  have hclock : s₁.window.clock ≤ e.now := by
    rw [hwindow]
    exact hnow
  simp only [step, if_pos hclock, hd₁, Option.bind_some, hstep, Option.map_some]

/-- When `exec` has returned the window goes on. -/
theorem leads_of_result {d : DismissDialog} {frame : DismissFrame}
    (hframe : s.window.frame = some frame) (hd : s.dialog = some d) (hresult : d.result ≠ none) :
    ∃ s', Machine.Leads (step P) Finishing s s' ∧ s'.window.frame = none := by
  obtain ⟨now, hwindow, hdialog⟩ : ∃ now, s.window.clock ≤ now ∧ d.clock ≤ now :=
    ⟨max s.window.clock d.clock, Nat.le_max_left _ _, Nat.le_max_right _ _⟩
  have hfields := MainWindow.afterExec_fields (P := P) hframe (QDateTime.currentDateTime now)
    d.capturedPhotoPath now
  obtain ⟨window, hstep, hnone, hnow⟩ : ∃ window,
      MainWindow.step P s.window (.dismiss now d.capturedPhotoPath) = some window ∧
        window.frame = none ∧ window.clock = now := by
    have hopen : s.window.frame.isSome = true := by rw [hframe, Option.isSome_some]
    refine ⟨_, (if_pos hopen).trans ?_, hfields.2.2.2.1, hfields.2.2.2.2⟩
    rw [MainWindow.clockAt, if_pos hwindow, Option.map_some]
  have hreturned : Returned s.dialog (.dismiss now d.capturedPhotoPath) := ⟨d, hd, hresult, rfl⟩
  have hclock : ∀ d' ∈ s.dialog, d'.clock ≤ window.clock := by
    intro d' hd'
    obtain rfl := Option.some.inj (hd.symm.trans hd')
    rw [hnow]
    exact hdialog
  refine ⟨⟨window, none⟩, .one
    (e := .window (.dismiss now d.capturedPhotoPath) default) trivial ?_, hnone⟩
  simp only [step, if_pos hreturned, hstep, Option.bind_some, if_pos hclock, follow, hframe, hnone,
    Option.map_some]

/-- An open dialog can be finished, and the alarm dismissed, unless the camera is lost. -/
theorem Inv.leads (hs : Inv P s) {frame : DismissFrame} (hframe : s.window.frame = some frame)
    {d : DismissDialog} (hd : s.dialog = some d) (hlost : d.result = none → ¬ d.ui.Lost) :
    ∃ s', Machine.Leads (step P) Finishing s s' ∧ s'.window.frame = none := by
  by_cases hresult : d.result = none
  · obtain ⟨d₁, hd₁, hinv, -⟩ := hs.opened frame hframe
    obtain rfl := Option.some.inj (hd₁.symm.trans hd)
    obtain ⟨d', hleads, haccepted⟩ := hinv.leads hresult (hlost hresult) s.window.clock
    obtain ⟨s₁, hleads₁, hwindow₁, hd'⟩ := leads_of_dialog hd hleads
    obtain ⟨s₂, hleads₂, hnone⟩ := leads_of_result (P := P) (hwindow₁ ▸ hframe) hd'
      (by simp [haccepted])
    exact ⟨s₂, hleads₁.trans hleads₂, hnone⟩
  · exact leads_of_result hframe hd hresult

/-- The application is not started anew. -/
def GoesOn : Event → Prop
  | .window (.restart _) _ => False
  | _ => True

/-- The window waits for a dialog that has lost its camera. -/
def Waits (frame : DismissFrame) (s : RingingWindow) : Prop :=
  s.window.frame = some frame ∧ ∃ d, s.dialog = some d ∧ d.Stuck

/-- Only a tick leaves a dialog open. -/
theorem tick_or_idle {m m' : MainWindow} {e : AlarmClock.Event}
    (hstep : MainWindow.step P m e = some m') : (∃ now, e = .tick now) ∨ m'.frame = none := by
  cases MainWindow.step_cases hstep with
  | tick now => exact .inl ⟨now, rfl⟩
  | dismiss now photo frame hframe =>
    exact .inr (MainWindow.afterExec_fields hframe _ photo now).2.2.2.1
  | create c hframe => exact .inr hframe
  | createCut c restartAt m' hframe hclock hrestart hroom hlaunch =>
    exact .inr (MainWindow.launch_fields hlaunch).2
  | noEdit row opened now presses hframe => exact .inr hframe
  | edit row opened now presses e hframe => exact .inr hframe
  | delete row hframe =>
    exact .inr ((MainWindow.deleteSelectedAlarm_row row m).fields.1.trans hframe)
  | disable row hframe => exact .inr ((MainWindow.disableRow_row row m).fields.1.trans hframe)
  | enable now row hframe =>
    exact .inr ((MainWindow.enableRow_row (QDateTime.currentDateTime now) row _).fields.1.trans
      hframe)
  | restart now m' hclock hlaunch => exact .inr (MainWindow.launch_fields hlaunch).2

/-- While a dialog is open the window takes a tick, a dismissal or a new start. -/
theorem blocked_cases {m m' : MainWindow} {frame : DismissFrame} (h : AlarmClock.Inv P m)
    (hframe : m.frame = some frame) {e : AlarmClock.Event}
    (hstep : MainWindow.step P m e = some m') :
    m'.frame = some frame ∨ (∃ now photo, e = .dismiss now photo) ∨ ∃ now, e = .restart now := by
  cases MainWindow.step_cases hstep with
  | tick now hclock =>
    left
    rcases MainWindow.frame_updateCurrentTime (P := P) (m := { m with clock := now }) h.handling
      (QDateTime.currentDateTime now) with hsame | ⟨hnone, -⟩
    · exact hsame.trans hframe
    · cases hnone.symm.trans hframe
  | dismiss now photo => exact .inr (.inl ⟨now, photo, rfl⟩)
  | restart now => exact .inr (.inr ⟨now, rfl⟩)
  | create _ hnone | createCut _ _ _ hnone | noEdit _ _ _ _ hnone | edit _ _ _ _ _ hnone
    | delete _ hnone | disable _ hnone | enable _ _ hnone => cases hnone.symm.trans hframe

theorem waits_step {frame : DismissFrame} (hs : Inv P s) (hwaits : Waits frame s) {e : Event}
    (hgoes : GoesOn e) (h : step P s e = some s') : Waits frame s' := by
  obtain ⟨hframe, d, hd, hstuck⟩ := hwaits
  cases step_cases h with
  | dialog e d₁ d' hd₁ hclock hstep =>
    obtain rfl := Option.some.inj (hd₁.symm.trans hd)
    exact ⟨hframe, d', rfl, DismissDialog.stuck_step hstuck hstep⟩
  | window e draws window dialog hreturned hwindow hclock hdialog =>
    rcases blocked_cases hs.window hframe hwindow with hsame | ⟨now, photo, rfl⟩ | ⟨now, rfl⟩
    · refine ⟨hsame, d, ?_, hstuck⟩
      simp only [follow, hframe, hsame] at hdialog
      exact (Option.some.inj hdialog).symm.trans hd
    · obtain ⟨d₁, hd₁, hresult, -⟩ := hreturned
      obtain rfl := Option.some.inj (hd₁.symm.trans hd)
      exact absurd hstuck.opened hresult
    · exact absurd hgoes id

/-- **The alarm clock comes back**, in every run of the window and its dialogs, from a fresh
    start or one on files that it has written. What the window does is a run of the window.
    While it waits it has a dialog, of the mode that the due alarms ask for, and that dialog
    can be finished and the alarm dismissed, whatever was done before; unless it has lost its
    camera, and then the window waits for ever, or until the application is started anew. -/
theorem window_comes_back {P : Platform} {m : MainWindow} (hstart : Start P m) {es : List Event}
    {s : RingingWindow} (hrun : Machine.run (step P) ⟨m, none⟩ es = some s) :
    Machine.run (MainWindow.step P) m (es.filterMap windowEvent) = some s.window ∧
      ∀ frame, s.window.frame = some frame → ∃ d, s.dialog = some d ∧
        d.mode = dismissMode frame.triggered ∧
        ((d.result = none → ¬ d.ui.Lost) →
          ∃ s', Machine.Leads (step P) Finishing s s' ∧ s'.window.frame = none) ∧
        (d.result = none → d.ui.Lost → ∀ later s', (∀ e ∈ later, GoesOn e) →
          Machine.run (step P) s later = some s' → s'.window.frame = some frame) := by
  have hs : Inv P s := Machine.run_invariant (fun _ _ _ => inv_step) (inv_start hstart) hrun
  refine ⟨Machine.run_filterMap (c := windowEvent) (fun _ _ _ => window_step) hrun, ?_⟩
  intro frame hframe
  obtain ⟨d, hd, hinv, hmode, -, now, triggered, rfl⟩ := hs.opened frame hframe
  refine ⟨d, hd, hmode, fun hlost => hs.leads hframe hd hlost, ?_⟩
  intro hopen hlost later s' hgoes hlater
  have hwaits : Waits (openDismissDialog now triggered) s := ⟨hframe, d, hd, hinv, hlost, hopen⟩
  exact (Machine.run_invariant_along
    (I := fun s => Inv P s ∧ Waits (openDismissDialog now triggered) s)
    (fun s e s' h hgoes hstep => ⟨inv_step h.1 hstep, waits_step h.1 h.2 hgoes hstep⟩)
    ⟨hs, hwaits⟩ (Machine.along_of_forall hgoes s) hlater).2.1

/-- A camera alarm rings, and there is no camera. -/
def noCamera : List Event :=
  [.window (.create
      (.setDebugAlarmPlus5Sec 1784903435000 0 .DismissCamera .GameNumberOrder)) default,
    .window (.tick 1784903440000) default,
    .dialog ⟨1784903440000, .thread (.initBH1750 true)⟩,
    .dialog ⟨1784903440000, .thread (.initCapture false)⟩,
    .dialog ⟨1784903440000, .thread .finish⟩]

theorem window_comes_back_noCamera : ∃ s frame d,
    Machine.run (step (Platform.stable "/root".toList)) ⟨{ clock := 0 }, none⟩ noCamera = some s ∧
    s.window.frame = some frame ∧ s.dialog = some d ∧ d.result = none ∧ d.ui.Lost ∧
    ∀ later s', (∀ e ∈ later, GoesOn e) →
      Machine.run (step (Platform.stable "/root".toList)) s later = some s' →
        s'.window.frame = some frame := by
  have hrun : (Machine.run (step (Platform.stable "/root".toList)) ⟨{ clock := 0 }, none⟩
      noCamera).any (fun s => s.window.frame.isSome && s.dialog.any fun d =>
        decide (d.result = none ∧ d.ui.Lost)) = true := by
    decide +kernel
  obtain ⟨s, hrun, hs⟩ := (Option.any_eq_true ..).mp hrun
  obtain ⟨hopen, hdialog⟩ := Bool.and_eq_true_iff.mp hs
  obtain ⟨frame, hframe⟩ := Option.isSome_iff_exists.mp hopen
  obtain ⟨d, hd, -, -, hwaits⟩ := (window_comes_back (Start.fresh _ 0) hrun).2 frame hframe
  obtain ⟨hresult, hlost⟩ : d.result = none ∧ d.ui.Lost := by simpa [hd] using hdialog
  exact ⟨s, frame, d, hrun, hframe, hd, hresult, hlost, hwaits hresult hlost⟩

/-! ### The photo in the records -/

theorem dismissMode_eq_camera {triggered : List TriggeredInfo} :
    dismissMode triggered = .Camera ↔
      ∃ t ∈ triggered, t.dismissMode = DismissMode.DismissCamera.toInt := by
  simp only [dismissMode, List.any_eq_true, beq_iff_eq]
  split_ifs with hcamera <;> simp [hcamera]

/-- A camera frame takes its id from the first camera alarm. -/
theorem alarmId_of_camera (now : QDateTime) {triggered : List TriggeredInfo}
    (hmode : dismissMode triggered = .Camera) :
    ∃ first, triggered.find? (fun t => t.dismissMode == DismissMode.DismissCamera.toInt) =
      some first ∧ (openDismissDialog now triggered).alarmId = first.alarmId := by
  obtain ⟨t, ht, hcamera⟩ := dismissMode_eq_camera.mp hmode
  have hsome : (triggered.find? fun t =>
      t.dismissMode == DismissMode.DismissCamera.toInt).isSome = true :=
    List.find?_isSome.mpr ⟨t, ht, beq_iff_eq.mpr hcamera⟩
  obtain ⟨first, hfirst⟩ := Option.isSome_iff_exists.mp hsome
  refine ⟨first, hfirst, ?_⟩
  simp only [openDismissDialog, dismissAlarmId, if_pos hmode, hfirst, Option.map_some,
    Option.getD_some]

/-- The photo that comes with a dismissal: one for the first camera alarm, asked for in the
    dialog, where there is a camera alarm. -/
theorem photo_of_returned (hs : Inv P s) {presses : List Nat}
    (hasked : ∀ d, s.dialog = some d → d.Asked P.home presses) {now : Nat} {photo : QString}
    (hreturned : Returned s.dialog (.dismiss now photo)) {frame : DismissFrame}
    (hframe : s.window.frame = some frame) :
    (dismissMode frame.triggered ≠ .Camera → photo = []) ∧
      (dismissMode frame.triggered = .Camera → ∃ first,
        frame.triggered.find? (fun t => t.dismissMode == DismissMode.DismissCamera.toInt) =
          some first ∧
        ∃ taken ∈ presses, photo = CameraSystem.photoPath P.home (QDateTime.currentDateTime taken)
          { alarmId := first.alarmId }) := by
  obtain ⟨d, hd, hresult, rfl⟩ := hreturned
  obtain ⟨d₁, hd₁, hinv, hmode, hid, opened, triggered, rfl⟩ := hs.opened frame hframe
  obtain rfl := Option.some.inj (hd₁.symm.trans hd)
  have hmode' : d₁.mode = dismissMode triggered := hmode
  have htriggered : (openDismissDialog opened triggered).triggered = triggered := rfl
  obtain ⟨hnone, hphoto⟩ := (hasked d₁ hd).photo hinv
  rw [htriggered]
  refine ⟨fun hother => hnone (hmode' ▸ hother), fun hcamera => ?_⟩
  have haccepted : d₁.result = some .Accepted := by
    cases hcode : d₁.result with
    | none => exact absurd hcode hresult
    | some code =>
      cases code with
      | Accepted => rfl
      | Rejected =>
        have hsimple := hinv.rejected hcode
        rw [hmode', hcamera] at hsimple
        cases hsimple
  obtain ⟨taken, htaken, hpath⟩ := hphoto (hmode'.trans hcamera) haccepted
  obtain ⟨first, hfirst, hfirstId⟩ := alarmId_of_camera opened hcamera
  exact ⟨first, hfirst, taken, htaken, by rw [hpath, hid, hfirstId]⟩

end RingingWindow

end AlarmClock
