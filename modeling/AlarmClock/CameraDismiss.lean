import AlarmClock.DateTimeText
import AlarmClock.Lib.Machine

/-!
# Dismissing a camera alarm

The dismiss dialog in camera mode, its camera thread, and the queued signals from the
thread to the dialog. The dialog closes on a photo that was saved, and on nothing else:
its member for the thread is set when the dialog is built and never cleared, so that the
branch for a missing camera is never taken. The thread runs down once a camera call
fails, and a request that it does not live to see is never answered.

The dialog stops the thread in its destructor, after it has closed; this is left out.
-/

namespace AlarmClock

open TextFormat

namespace AlarmCameraThread

inductive SelectResult where
  | timeout
  | interrupted
  | error
  | readable
deriving DecidableEq, Repr

inductive DqbufResult where
  | again
  | error
  | frame
deriving DecidableEq, Repr

/-- What the thread does next. `looping` is the head of the loop of `run`, with the call of
    `select`; a path travels from the lock to the answer; `leaving` is what is left of
    `run` after the loop, or after a failed start. -/
inductive Pc where
  | initBH1750
  | initCapture
  | startCapture
  | looping
  | dequeuing
  | locking
  | testing (savePath : QString)
  | converting (savePath : QString) (uiReady : Bool)
  | answering (savePath : QString)
  | leaving
  | finished
deriving DecidableEq, Repr

/-- A step of the thread, with what the system calls in it return. -/
inductive Step where
  | initBH1750 (ok : Bool)
  | initCapture (ok : Bool)
  | startCapture (ok : Bool)
  | select (result : SelectResult)
  | dequeue (result : DqbufResult)
  | takePending
  | testAndSet
  | convert
  | answer (luxRead : Option Nat) (saved : Bool)
  | finish
deriving DecidableEq, Repr

inductive Signal where
  | frameReady
  | captureSaved (path : QString) (ok : Bool) (errorText : QString)
  | cameraError (errorText : QString)
  | captureRejectedLowLight (lux threshold : Int)
  | statusUpdate (msg : QString)
deriving DecidableEq, Repr

end AlarmCameraThread

open AlarmCameraThread in
/-- The members of the thread object that both threads read and write, and the place in
    `run`. `lightSensor` says that `/dev/bh1750` is open. -/
structure AlarmCameraThread where
  pc : Pc := .initBH1750
  running : Bool := false
  lightSensor : Bool := false
  luxThreshold : Int := 50
  pendingCapturePath : QString := []
  uiReady : Int := 1
deriving DecidableEq, Repr

namespace AlarmCameraThread

def requestCapture (savePath : QString) (t : AlarmCameraThread) : AlarmCameraThread :=
  { t with pendingCapturePath := savePath }

/-- -1 when there is no sensor, or when it cannot be read. -/
def readLux (luxRead : Option Nat) (t : AlarmCameraThread) : Int :=
  if t.lightSensor then luxRead.elim (-1) fun lux => lux else -1

/-- The end of `captureFrame` for a capture that was requested. -/
def answer (savePath : QString) (luxRead : Option Nat) (saved : Bool) (t : AlarmCameraThread) :
    Signal :=
  let lux := readLux luxRead t
  if t.lightSensor ∧ 0 ≤ lux ∧ lux < t.luxThreshold then
    .captureRejectedLowLight lux t.luxThreshold
  else .captureSaved savePath saved (if saved then [] else "Failed to save image".toList)

/-- `run`, with `captureFrame` taken apart; the signals of a step are queued. -/
def step (t : AlarmCameraThread) (e : Step) : Option (AlarmCameraThread × List Signal) :=
  match t.pc, e with
  | .initBH1750, .initBH1750 ok => some ({ t with lightSensor := ok, pc := .initCapture }, [])
  | .initCapture, .initCapture true => some ({ t with pc := .startCapture }, [])
  | .initCapture, .initCapture false =>
    some ({ t with pc := .leaving },
      [.cameraError "Camera init failed (/dev/video0, /dev/video1)".toList])
  | .startCapture, .startCapture true =>
    some ({ t with running := true, pc := .looping }, [.statusUpdate "Camera streaming...".toList])
  | .startCapture, .startCapture false =>
    some ({ t with pc := .leaving }, [.cameraError "Camera streaming start failed".toList])
  | .looping, .select result =>
    if t.running then
      match result with
      | .timeout => some (t, [])
      | .interrupted => some (t, [])
      | .error => some ({ t with pc := .leaving }, [])
      | .readable => some ({ t with pc := .dequeuing }, [])
    else some ({ t with pc := .leaving }, [])
  | .dequeuing, .dequeue .again => some ({ t with pc := .looping }, [])
  | .dequeuing, .dequeue .error => some ({ t with pc := .leaving }, [])
  | .dequeuing, .dequeue .frame => some ({ t with pc := .locking }, [])
  | .locking, .takePending =>
    some ({ t with pc := .testing t.pendingCapturePath, pendingCapturePath := [] }, [])
  | .testing savePath, .testAndSet =>
    let uiReady : Bool := t.uiReady = 1
    let t := if uiReady then { t with uiReady := 0 } else t
    if uiReady ∨ ¬ savePath.isEmpty then some ({ t with pc := .converting savePath uiReady }, [])
    else some ({ t with pc := .looping }, [])
  | .converting savePath uiReady, .convert =>
    some ({ t with pc := if savePath.isEmpty then .looping else .answering savePath },
      if uiReady then [.frameReady] else [])
  | .answering savePath, .answer luxRead saved =>
    some ({ t with pc := .looping }, [answer savePath luxRead saved t])
  | .leaving, .finish => some ({ t with pc := .finished }, [])
  | _, _ => none

/-- Every step of the thread, with its guard, its result and its signals. -/
inductive StepTo (t : AlarmCameraThread) : Step → AlarmCameraThread → List Signal → Prop where
  | sensor (ok : Bool) (hpc : t.pc = .initBH1750) :
      StepTo t (.initBH1750 ok) { t with lightSensor := ok, pc := .initCapture } []
  | init (hpc : t.pc = .initCapture) :
      StepTo t (.initCapture true) { t with pc := .startCapture } []
  | initFailed (hpc : t.pc = .initCapture) :
      StepTo t (.initCapture false) { t with pc := .leaving }
        [.cameraError "Camera init failed (/dev/video0, /dev/video1)".toList]
  | start (hpc : t.pc = .startCapture) :
      StepTo t (.startCapture true) { t with running := true, pc := .looping }
        [.statusUpdate "Camera streaming...".toList]
  | startFailed (hpc : t.pc = .startCapture) :
      StepTo t (.startCapture false) { t with pc := .leaving }
        [.cameraError "Camera streaming start failed".toList]
  | stopped (result : SelectResult) (hpc : t.pc = .looping) (hrunning : t.running = false) :
      StepTo t (.select result) { t with pc := .leaving } []
  | waited (result : SelectResult) (hpc : t.pc = .looping) (hrunning : t.running = true)
      (hresult : result = .timeout ∨ result = .interrupted) : StepTo t (.select result) t []
  | selectFailed (hpc : t.pc = .looping) (hrunning : t.running = true) :
      StepTo t (.select .error) { t with pc := .leaving } []
  | readable (hpc : t.pc = .looping) (hrunning : t.running = true) :
      StepTo t (.select .readable) { t with pc := .dequeuing } []
  | again (hpc : t.pc = .dequeuing) : StepTo t (.dequeue .again) { t with pc := .looping } []
  | dequeueFailed (hpc : t.pc = .dequeuing) :
      StepTo t (.dequeue .error) { t with pc := .leaving } []
  | frame (hpc : t.pc = .dequeuing) : StepTo t (.dequeue .frame) { t with pc := .locking } []
  | taken (hpc : t.pc = .locking) :
      StepTo t .takePending
        { t with pc := .testing t.pendingCapturePath, pendingCapturePath := [] } []
  | claimed (savePath : QString) (hpc : t.pc = .testing savePath) (huiReady : t.uiReady = 1) :
      StepTo t .testAndSet { t with uiReady := 0, pc := .converting savePath true } []
  | needed (savePath : QString) (hpc : t.pc = .testing savePath) (huiReady : t.uiReady ≠ 1)
      (hneeded : savePath ≠ []) :
      StepTo t .testAndSet { t with pc := .converting savePath false } []
  | dropped (hpc : t.pc = .testing []) (huiReady : t.uiReady ≠ 1) :
      StepTo t .testAndSet { t with pc := .looping } []
  | converted (savePath : QString) (uiReady : Bool) (hpc : t.pc = .converting savePath uiReady) :
      StepTo t .convert
        { t with pc := if savePath.isEmpty then .looping else .answering savePath }
        (if uiReady then [.frameReady] else [])
  | answered (savePath : QString) (luxRead : Option Nat) (saved : Bool)
      (hpc : t.pc = .answering savePath) :
      StepTo t (.answer luxRead saved) { t with pc := .looping } [answer savePath luxRead saved t]
  | finish (hpc : t.pc = .leaving) : StepTo t .finish { t with pc := .finished } []

theorem step_cases {t t' : AlarmCameraThread} {e : Step} {signals : List Signal}
    (h : t.step e = some (t', signals)) : StepTo t e t' signals := by
  unfold step at h
  split at h
  · next ok hpc =>
    cases h
    exact .sensor ok hpc
  · next hpc =>
    cases h
    exact .init hpc
  · next hpc =>
    cases h
    exact .initFailed hpc
  · next hpc =>
    cases h
    exact .start hpc
  · next hpc =>
    cases h
    exact .startFailed hpc
  · next result hpc =>
    split at h
    · next hrunning =>
      split at h
      · cases h
        exact .waited _ hpc hrunning (.inl rfl)
      · cases h
        exact .waited _ hpc hrunning (.inr rfl)
      · cases h
        exact .selectFailed hpc hrunning
      · cases h
        exact .readable hpc hrunning
    · next hrunning =>
      cases h
      exact .stopped result hpc (Bool.eq_false_iff.mpr hrunning)
  · next hpc =>
    cases h
    exact .again hpc
  · next hpc =>
    cases h
    exact .dequeueFailed hpc
  · next hpc =>
    cases h
    exact .frame hpc
  · next hpc =>
    cases h
    exact .taken hpc
  · next savePath hpc =>
    by_cases huiReady : t.uiReady = 1
    · simp only [huiReady, decide_true, true_or, if_true] at h
      cases h
      exact .claimed savePath hpc huiReady
    · by_cases hempty : savePath = []
      · subst hempty
        simp only [huiReady, decide_false, Bool.false_eq_true, List.isEmpty_nil, not_true_eq_false,
          or_self, if_false] at h
        cases h
        exact .dropped hpc huiReady
      · simp only [huiReady, decide_false, Bool.false_eq_true, List.isEmpty_iff, hempty,
          not_false_eq_true, or_true, if_true, if_false] at h
        cases h
        exact .needed savePath hpc huiReady hempty
  · next savePath uiReady hpc =>
    cases h
    exact .converted savePath uiReady hpc
  · next savePath luxRead saved hpc =>
    cases h
    exact .answered savePath luxRead saved hpc
  · next hpc =>
    cases h
    exact .finish hpc
  · cases h

end AlarmCameraThread

/-! ### The dialog -/

open AlarmCameraThread (Signal)

/-- The dialog in camera mode. `cameraThread` says that `m_cameraThread` is set; `accepted`,
    that the dialog has closed. -/
structure CameraDialog where
  alarmId : Int
  cameraThread : Bool := false
  captureRequested : Bool := false
  capturedPhotoPath : QString := []
  statusLabel : QString := []
  accepted : Bool := false
deriving DecidableEq, Repr

/-- The dialog, its thread, and the signals in flight, oldest first. -/
structure CameraSystem where
  dialog : CameraDialog
  thread : AlarmCameraThread := {}
  queue : List Signal := []
deriving DecidableEq, Repr

namespace CameraSystem

/-- `buildCameraUi`: the thread is made and started. -/
def buildCameraUi (alarmId : Int) : CameraSystem where
  dialog :=
    { alarmId := alarmId
      cameraThread := true
      statusLabel := "Press physical button to capture photo and dismiss".toList }

/-- `yyyyMMdd_HHmmss` -/
def stampFormat : List Field :=
  [.digits 4, .digits 2, .digits 2, .lit '_', .digits 2, .digits 2, .digits 2]

def photoPath (home : QString) (now : QDateTime) (d : CameraDialog) : QString :=
  let ts := render stampFormat now.secondNumbers
  let fileName :=
    if d.alarmId ≥ 0 then "alarm_".toList ++ decimal d.alarmId ++ "_".toList ++ ts ++ ".jpg".toList
    else ts ++ ".jpg".toList
  home ++ "/capture/".toList ++ fileName

def setStatus (text : QString) (s : CameraSystem) : CameraSystem :=
  { s with dialog := { s.dialog with statusLabel := text } }

def accept (s : CameraSystem) : CameraSystem :=
  { s with dialog := { s.dialog with accepted := true } }

/-- A press of the physical button. -/
def captureByButton (home : QString) (now : QDateTime) (s : CameraSystem) : CameraSystem :=
  if s.dialog.captureRequested then s
  else
    let s := { s with dialog := { s.dialog with captureRequested := true } }
    if ¬ s.dialog.cameraThread then
      accept (setStatus "Camera not available. Dismissing without photo.".toList s)
    else
      let s := setStatus "Capturing... keep still".toList s
      { s with thread := s.thread.requestCapture (photoPath home now s.dialog) }

/-- The slots that `buildCameraUi` connects. -/
def slot (s : CameraSystem) : Signal → CameraSystem
  | .frameReady => { s with thread := { s.thread with uiReady := 1 } }
  | .captureSaved path true _ =>
    accept (setStatus "Capture saved. Alarm dismissed.".toList
      { s with dialog := { s.dialog with capturedPhotoPath := path } })
  | .captureSaved _ false errorText =>
    setStatus ("Capture failed: ".toList ++ errorText)
      { s with dialog := { s.dialog with captureRequested := false } }
  | .cameraError msg => setStatus (msg ++ " (button will dismiss without photo)".toList) s
  | .captureRejectedLowLight lux threshold =>
    setStatus ("Too dark to capture (".toList ++ decimal lux ++ ".0 lux, need ".toList ++
        decimal threshold ++ "). Press button again when brighter.".toList)
      { s with dialog := { s.dialog with captureRequested := false } }
  | .statusUpdate msg => setStatus msg s

inductive Event where
  | press (now : Nat)
  | thread (e : AlarmCameraThread.Step)
  | deliver
deriving DecidableEq, Repr

def step (home : QString) (s : CameraSystem) : Event → Option CameraSystem
  | .press now => some (captureByButton home (QDateTime.currentDateTime now) s)
  | .thread e => (s.thread.step e).map fun next =>
    { s with thread := next.1, queue := s.queue ++ next.2 }
  | .deliver =>
    match s.queue with
    | [] => none
    | signal :: queue => some (slot { s with queue := queue } signal)

/-! ### What a step can do -/

/-- A call of the camera that ends the thread. -/
def GivesUp : Event → Prop
  | .thread (.initCapture false) => True
  | .thread (.startCapture false) => True
  | .thread (.select .error) => True
  | .thread (.dequeue .error) => True
  | _ => False

/-- The thread is past its loop. -/
def Gone (t : AlarmCameraThread) : Prop := t.pc = .leaving ∨ t.pc = .finished

/-- The thread is in its loop. -/
def InLoop (t : AlarmCameraThread) : Prop :=
  t.pc ≠ .initBH1750 ∧ t.pc ≠ .initCapture ∧ t.pc ≠ .startCapture ∧ ¬ Gone t

/-- A saved photo is on its way to the dialog. -/
def Saved (queue : List Signal) : Prop :=
  ∃ path errorText, .captureSaved path true errorText ∈ queue

/-- The dialog has closed, or a saved photo is on its way to close it. -/
def Answered (s : CameraSystem) : Prop := s.dialog.accepted = true ∨ Saved s.queue

theorem Gone.not_inLoop {t : AlarmCameraThread} (hgone : Gone t) : ¬ InLoop t :=
  fun hloop => hloop.2.2.2 hgone

theorem saved_append {queue signals : List Signal} :
    Saved (queue ++ signals) ↔ Saved queue ∨ Saved signals := by
  simp only [Saved, List.mem_append, exists_or]

theorem saved_cons {signal : Signal} {queue : List Signal} :
    Saved (signal :: queue) ↔
      (∃ path errorText, signal = .captureSaved path true errorText) ∨ Saved queue := by
  simp only [Saved, List.mem_cons, exists_or, eq_comm]

theorem not_saved_nil : ¬ Saved [] := fun ⟨_, _, h⟩ => List.not_mem_nil h

/-- A thread past its loop only finishes, and sends nothing more. -/
theorem gone_step {t t' : AlarmCameraThread} {e : AlarmCameraThread.Step} {signals : List Signal}
    (hgone : Gone t) (h : t.step e = some (t', signals)) : Gone t' ∧ signals = [] := by
  rcases hgone with hpc | hpc
  · cases e with
    | finish =>
      simp only [AlarmCameraThread.step, hpc] at h
      cases h
      exact ⟨.inr rfl, rfl⟩
    | _ => simp [AlarmCameraThread.step, hpc] at h
  · cases e <;> simp [AlarmCameraThread.step, hpc] at h

/-- A failing call ends the thread, and no photo comes with it. -/
theorem givesUp_step {t t' : AlarmCameraThread} {e : AlarmCameraThread.Step} {signals : List Signal}
    (hend : GivesUp (.thread e)) (h : t.step e = some (t', signals)) :
    Gone t' ∧ ¬ Saved signals := by
  cases AlarmCameraThread.step_cases h with
  | initFailed _ => exact ⟨.inl rfl, by simp [Saved]⟩
  | startFailed _ => exact ⟨.inl rfl, by simp [Saved]⟩
  | selectFailed _ _ => exact ⟨.inl rfl, not_saved_nil⟩
  | dequeueFailed _ => exact ⟨.inl rfl, not_saved_nil⟩
  | stopped result _ _ => exact ⟨.inl rfl, not_saved_nil⟩
  | waited result _ _ hresult =>
    rcases hresult with rfl | rfl
    · exact absurd hend id
    · exact absurd hend id
  | _ => exact absurd hend id

/-- `m_running` is set before the loop is entered, and nothing resets it there. -/
theorem running_step {t t' : AlarmCameraThread} {e : AlarmCameraThread.Step} {signals : List Signal}
    (hrunning : InLoop t → t.running = true) (h : t.step e = some (t', signals)) :
    InLoop t' → t'.running = true := by
  intro hloop
  cases AlarmCameraThread.step_cases h with
  | start _ => rfl
  | sensor _ _ => exact absurd rfl hloop.2.1
  | init _ => exact absurd rfl hloop.2.2.1
  | initFailed _ => exact absurd hloop (Gone.not_inLoop (.inl rfl))
  | startFailed _ => exact absurd hloop (Gone.not_inLoop (.inl rfl))
  | stopped _ _ _ => exact absurd hloop (Gone.not_inLoop (.inl rfl))
  | selectFailed _ _ => exact absurd hloop (Gone.not_inLoop (.inl rfl))
  | dequeueFailed _ => exact absurd hloop (Gone.not_inLoop (.inl rfl))
  | finish _ => exact absurd hloop (Gone.not_inLoop (.inr rfl))
  | waited _ _ hrunning _ => exact hrunning
  | readable _ hrunning => exact hrunning
  -- every other step is taken in the loop
  | _ => exact hrunning (by simp [InLoop, Gone, *])

/-- A running thread leaves its loop only where a call of the camera fails. -/
theorem not_gone_step {t t' : AlarmCameraThread} {e : AlarmCameraThread.Step}
    {signals : List Signal} (hrunning : InLoop t → t.running = true)
    (hstays : ¬ GivesUp (.thread e)) (hgone : ¬ Gone t) (h : t.step e = some (t', signals)) :
    ¬ Gone t' := by
  cases AlarmCameraThread.step_cases h with
  | initFailed _ => exact absurd trivial hstays
  | startFailed _ => exact absurd trivial hstays
  | selectFailed _ _ => exact absurd trivial hstays
  | dequeueFailed _ => exact absurd trivial hstays
  | stopped _ hpc hstopped =>
    have hloop : t.running = true := hrunning (by simp [InLoop, Gone, hpc])
    exact absurd (hstopped.symm.trans hloop) Bool.false_ne_true
  | finish hpc => exact absurd (.inl hpc) hgone
  | waited _ _ _ _ => exact hgone
  | converted savePath _ _ =>
    by_cases hempty : savePath.isEmpty <;> simp [Gone, hempty]
  | _ => simp [Gone]

/-! ### Presses and answers -/

variable {home : QString} {s s' : CameraSystem}

@[simp] theorem slot_queue (signal : Signal) : (slot s signal).queue = s.queue := by
  rcases signal with _ | ⟨_, _ | _, _⟩ | _ | _ | _ <;> rfl

@[simp] theorem slot_cameraThread (signal : Signal) :
    (slot s signal).dialog.cameraThread = s.dialog.cameraThread := by
  rcases signal with _ | ⟨_, _ | _, _⟩ | _ | _ | _ <;> rfl

@[simp] theorem slot_pc (signal : Signal) : (slot s signal).thread.pc = s.thread.pc := by
  rcases signal with _ | ⟨_, _ | _, _⟩ | _ | _ | _ <;> rfl

@[simp] theorem slot_running (signal : Signal) :
    (slot s signal).thread.running = s.thread.running := by
  rcases signal with _ | ⟨_, _ | _, _⟩ | _ | _ | _ <;> rfl

/-- The dialog closes on a saved photo, and on no other signal. -/
theorem slot_accepted (signal : Signal) :
    (slot s signal).dialog.accepted = true ↔
      (∃ path errorText, signal = .captureSaved path true errorText) ∨
        s.dialog.accepted = true := by
  rcases signal with _ | ⟨path, _ | _, errorText⟩ | _ | _ | _ <;>
    simp [slot, setStatus, accept]

/-- Every event, with what it finds and what it leaves. -/
inductive StepTo (home : QString) (s : CameraSystem) : Event → CameraSystem → Prop where
  | ignored (now : Nat) (hrequested : s.dialog.captureRequested = true) :
      StepTo home s (.press now) s
  | unavailable (now : Nat) (hrequested : s.dialog.captureRequested = false)
      (hnone : s.dialog.cameraThread = false) :
      StepTo home s (.press now)
        { s with
          dialog :=
            { s.dialog with
              captureRequested := true
              statusLabel := "Camera not available. Dismissing without photo.".toList
              accepted := true } }
  | requested (now : Nat) (hrequested : s.dialog.captureRequested = false)
      (hsome : s.dialog.cameraThread = true) :
      StepTo home s (.press now)
        { s with
          dialog :=
            { s.dialog with
              captureRequested := true
              statusLabel := "Capturing... keep still".toList }
          thread := s.thread.requestCapture
            (photoPath home (QDateTime.currentDateTime now) s.dialog) }
  | thread (e : AlarmCameraThread.Step) (t' : AlarmCameraThread) (signals : List Signal)
      (hthread : s.thread.step e = some (t', signals)) :
      StepTo home s (.thread e) { s with thread := t', queue := s.queue ++ signals }
  | deliver (signal : Signal) (queue : List Signal) (hqueue : s.queue = signal :: queue) :
      StepTo home s .deliver (slot { s with queue := queue } signal)

theorem step_cases {e : Event} (h : step home s e = some s') : StepTo home s e s' := by
  unfold step at h
  split at h
  · next now =>
    cases h
    simp only [captureByButton]
    split_ifs with hrequested hthread
    · exact .ignored now hrequested
    · exact .requested now (Bool.eq_false_iff.mpr hrequested) hthread
    · exact .unavailable now (Bool.eq_false_iff.mpr hrequested) (Bool.eq_false_iff.mpr hthread)
  · next e =>
    obtain ⟨next, hnext, rfl⟩ := Option.map_eq_some_iff.mp h
    exact .thread e next.1 next.2 hnext
  · split at h
    · cases h
    · next signal queue hqueue =>
      cases h
      exact .deliver signal queue hqueue

/-- The member for the thread is set, and a thread in its loop is running. -/
structure Inv (s : CameraSystem) : Prop where
  cameraThread : s.dialog.cameraThread = true
  running : InLoop s.thread → s.thread.running = true

theorem inv_buildCameraUi (alarmId : Int) : Inv (buildCameraUi alarmId) :=
  ⟨rfl, fun hloop => absurd rfl hloop.1⟩

theorem inv_step {e : Event} (hs : Inv s) (h : step home s e = some s') : Inv s' := by
  cases step_cases h with
  | ignored now _ => exact hs
  | unavailable now _ _ => exact ⟨hs.cameraThread, hs.running⟩
  | requested now _ _ => exact ⟨hs.cameraThread, hs.running⟩
  | thread e t' signals hthread => exact ⟨hs.cameraThread, running_step hs.running hthread⟩
  | deliver signal queue hqueue =>
    exact ⟨by simpa using hs.cameraThread, by simpa [InLoop, Gone] using hs.running⟩

/-- A saved photo stays on its way until it closes the dialog, which then stays closed. -/
theorem answered_step {e : Event} (ha : Answered s) (h : step home s e = some s') :
    Answered s' := by
  cases step_cases h with
  | ignored now _ => exact ha
  | unavailable now _ _ => exact .inl rfl
  | requested now _ _ => exact ha
  | thread e t' signals hthread => exact ha.imp_right fun hsaved => saved_append.mpr (.inl hsaved)
  | deliver signal queue hqueue =>
    unfold Answered at ha ⊢
    rw [hqueue, saved_cons] at ha
    rw [slot_accepted, slot_queue]
    rcases ha with haccepted | hsignal | hsaved
    · exact .inl (.inr haccepted)
    · exact .inl (.inl hsignal)
    · exact .inr hsaved

/-! ### A lost request -/

/-- The thread is past its loop, the dialog is open, and no photo is on its way. -/
def Lost (s : CameraSystem) : Prop := Gone s.thread ∧ ¬ Answered s

/-- No event finds a way out: a press does not see that the thread has ended, the thread
    answers nothing more, and what is in flight does not close the dialog. -/
theorem lost_step {e : Event} (hs : Inv s) (hlost : Lost s) (h : step home s e = some s') :
    Lost s' := by
  obtain ⟨hgone, hopen⟩ := hlost
  cases step_cases h with
  | ignored now _ => exact ⟨hgone, hopen⟩
  | unavailable now _ hnone => exact absurd (hnone.symm.trans hs.cameraThread) Bool.false_ne_true
  | requested now _ _ => exact ⟨hgone, hopen⟩
  | thread e t' signals hthread =>
    obtain ⟨hgone', rfl⟩ := gone_step hgone hthread
    refine ⟨hgone', ?_⟩
    simpa [Answered] using hopen
  | deliver signal queue hqueue =>
    refine ⟨by simpa [Gone] using hgone, ?_⟩
    unfold Answered at hopen ⊢
    rw [hqueue, saved_cons] at hopen
    rw [slot_accepted, slot_queue]
    rintro ((hsignal | haccepted) | hsaved)
    · exact hopen (.inr (.inl hsignal))
    · exact hopen (.inl haccepted)
    · exact hopen (.inr (.inr hsaved))

/-- A camera call that fails while the dialog waits loses the dialog. -/
theorem lost_of_givesUp {e : Event} (hend : ¬ (GivesUp e → Answered s))
    (h : step home s e = some s') : Lost s' := by
  obtain ⟨hgives, hopen⟩ := Classical.not_imp.mp hend
  cases step_cases h with
  | ignored now _ => exact absurd hgives id
  | unavailable now _ _ => exact absurd hgives id
  | requested now _ _ => exact absurd hgives id
  | deliver signal queue hqueue => exact absurd hgives id
  | thread e t' signals hthread =>
    obtain ⟨hgone, hsaved⟩ := givesUp_step hgives hthread
    refine ⟨hgone, ?_⟩
    rintro (haccepted | hqueue)
    · exact hopen (.inl haccepted)
    · rcases saved_append.mp hqueue with hold | hnew
      · exact hopen (.inr hold)
      · exact hsaved hnew

/-- A thread that ends only when the dialog is answered leaves the dialog answered. -/
theorem answered_of_gone_step {e : Event} (hs : Inv s) (hgone : Gone s.thread → Answered s)
    (hend : GivesUp e → Answered s) (h : step home s e = some s') :
    Gone s'.thread → Answered s' := by
  intro hgone'
  apply answered_step _ h
  by_contra hopen
  have hthread : ¬ Gone s.thread := mt hgone hopen
  cases step_cases h with
  | ignored now _ => exact hthread hgone'
  | unavailable now _ _ => exact hthread hgone'
  | requested now _ _ => exact hthread hgone'
  | deliver signal queue hqueue => exact hthread (by simpa [Gone] using hgone')
  | thread e t' signals hstep =>
    exact not_gone_step hs.running (mt hend hopen) hthread hstep hgone'

theorem run_deliver (home : QString) (s : CameraSystem) :
    ∃ s', Machine.run (step home) s (List.replicate s.queue.length .deliver) = some s' ∧
      s'.queue = [] ∧ s'.thread.pc = s.thread.pc := by
  generalize hqueue : s.queue = queue
  induction queue generalizing s with
  | nil => exact ⟨s, rfl, hqueue, rfl⟩
  | cons signal queue ih =>
    obtain ⟨s', hrun, hempty, hpc⟩ := ih (slot { s with queue := queue } signal) (by simp)
    refine ⟨s', Machine.run_cons_eq_some.mpr ⟨_, ?_, hrun⟩, hempty, by simpa using hpc⟩
    simp only [step, hqueue]

theorem run_finish (home : QString) (hgone : Gone s.thread) :
    ∃ es s', Machine.run (step home) s es = some s' ∧ s'.thread.pc = .finished := by
  rcases hgone with hleaving | hfinished
  · refine ⟨[.thread .finish], { s with thread.pc := .finished }, ?_, rfl⟩
    rw [Machine.run_singleton]
    simp only [step, AlarmCameraThread.step, hleaving, Option.map_some, List.append_nil]
  · exact ⟨[], s, rfl, hfinished⟩

/-- The next press closes the dialog, if it is open, its thread has ended, and no signal is
    in flight. -/
def Dismissible (home : QString) (s : CameraSystem) : Prop :=
  s.dialog.accepted = false → s.thread.pc = .finished → s.queue = [] →
    ∀ now s', step home s (.press now) = some s' → s'.dialog.accepted = true

theorem not_dismissible (hs : Inv s) (hlost : Lost s) (hfinished : s.thread.pc = .finished)
    (hqueue : s.queue = []) : ¬ Dismissible home s := by
  intro hdismissible
  have hopen : s.dialog.accepted = false := Bool.eq_false_iff.mpr fun h => hlost.2 (.inl h)
  have hclosed := hdismissible hopen hfinished hqueue 0 _ rfl
  exact (lost_step (e := .press 0) hs hlost rfl).2 (.inl hclosed)

theorem lost_run {es : List Event} (hs : Inv s) (hlost : Lost s)
    (hrun : Machine.run (step home) s es = some s') : Inv s' ∧ Lost s' :=
  Machine.run_invariant (I := fun s => Inv s ∧ Lost s)
    (fun _ _ _ hs h => ⟨inv_step hs.1 h, lost_step hs.1 hs.2 h⟩) ⟨hs, hlost⟩ hrun

/-- **A lost dialog gets stuck**, and no event closes it from then on. -/
theorem lost_stuck (hs : Inv s) (hlost : Lost s) :
    ∃ (more : List Event) (s' : CameraSystem), Machine.run (step home) s more = some s' ∧
      ¬ Dismissible home s' ∧
      ∀ later s'', Machine.run (step home) s' later = some s'' → s''.dialog.accepted = false := by
  obtain ⟨finish, s₁, hfinish, hfinished⟩ := run_finish home hlost.1
  obtain ⟨s₂, hdeliver, hqueue, hpc⟩ := run_deliver home s₁
  have hrun := Machine.run_append_eq_some.mpr ⟨s₁, hfinish, hdeliver⟩
  obtain ⟨hs₂, hlost₂⟩ := lost_run hs hlost hrun
  refine ⟨_, s₂, hrun, not_dismissible hs₂ hlost₂ (hpc.trans hfinished) hqueue, ?_⟩
  intro later s₃ hlater
  exact Bool.eq_false_iff.mpr fun h => (lost_run hs₂ hlost₂ hlater).2.2 (.inl h)

end CameraSystem

/-! ### When the dialog can be dismissed -/

open CameraSystem

/-- **A camera alarm can be dismissed as long as the camera does not fail before the photo.**
    In a run in which every camera call that ends the thread comes after the dialog has closed,
    or while a saved photo is on its way to it, no state is stuck. After any other run the
    events can lead to a stuck state, and then the dialog never closes. -/
theorem camera_run {home : QString} {alarmId : Int} {es : List Event} {s : CameraSystem}
    (hrun : Machine.run (step home) (buildCameraUi alarmId) es = some s) :
    (Machine.Along (step home) (fun s e => GivesUp e → Answered s) (buildCameraUi alarmId) es →
      Dismissible home s) ∧
    (¬ Machine.Along (step home) (fun s e => GivesUp e → Answered s) (buildCameraUi alarmId) es →
      ∃ more s', Machine.run (step home) s more = some s' ∧ ¬ Dismissible home s' ∧
        ∀ later s'', Machine.run (step home) s' later = some s'' →
          s''.dialog.accepted = false) := by
  have hinit := inv_buildCameraUi alarmId
  constructor
  · intro halong hopen hfinished hqueue
    have hkept : Inv s ∧ (Gone s.thread → Answered s) :=
      Machine.run_invariant_along (I := fun s => Inv s ∧ (Gone s.thread → Answered s))
        (fun _ _ _ hs hend h => ⟨inv_step hs.1 h, answered_of_gone_step hs.1 hs.2 hend h⟩)
        ⟨hinit, by rintro (h | h) <;> cases h⟩ halong hrun
    rcases hkept.2 (.inr hfinished) with haccepted | hsaved
    · exact absurd (hopen.symm.trans haccepted) Bool.false_ne_true
    · exact absurd (hqueue ▸ hsaved) not_saved_nil
  · intro hbroken
    have hs : Inv s := Machine.run_invariant (fun _ _ _ hs h => inv_step hs h) hinit hrun
    have hlost : Lost s := (Machine.along_or (fun _ _ _ hs h => inv_step hs h)
      (fun _ _ _ _ hend h => lost_of_givesUp hend h)
      (fun _ _ _ hs hlost h => lost_step hs hlost h) hinit hrun).resolve_left hbroken
    exact lost_stuck hs hlost

/-- The photo is taken in good light at the second press; the first is too dark. -/
theorem camera_run_secondPress :
    ∃ s : CameraSystem,
      Machine.run (step "/root".toList) (buildCameraUi 3)
        [.thread (.initBH1750 true), .thread (.initCapture true), .thread (.startCapture true),
          .deliver, .press 0,
          .thread (.select .readable), .thread (.dequeue .frame), .thread .takePending,
          .thread .testAndSet, .thread .convert, .thread (.answer (some 10) true),
          .deliver, .deliver, .press 1,
          .thread (.select .readable), .thread (.dequeue .frame), .thread .takePending,
          .thread .testAndSet, .thread .convert, .thread (.answer (some 60) true),
          .deliver, .deliver] = some s ∧
      s.dialog.accepted = true ∧ Dismissible "/root".toList s := by
  obtain ⟨s, hrun, haccepted⟩ := Option.map_eq_some_iff.mp (by decide +kernel :
    (Machine.run (step "/root".toList) (buildCameraUi 3)
        [.thread (.initBH1750 true), .thread (.initCapture true), .thread (.startCapture true),
          .deliver, .press 0,
          .thread (.select .readable), .thread (.dequeue .frame), .thread .takePending,
          .thread .testAndSet, .thread .convert, .thread (.answer (some 10) true),
          .deliver, .deliver, .press 1,
          .thread (.select .readable), .thread (.dequeue .frame), .thread .takePending,
          .thread .testAndSet, .thread .convert, .thread (.answer (some 60) true),
          .deliver, .deliver]).map (fun s => s.dialog.accepted) = some true)
  refine ⟨s, hrun, haccepted, (camera_run hrun).1 ?_⟩
  apply (Machine.along_of_forall (Q := fun e => ¬ GivesUp e) _ _).mono
  · intro _ _ hstays hend
    exact absurd hend hstays
  · simp [GivesUp]

/-- There is no camera: the dialog promises that the button dismisses, and it does not. -/
theorem camera_fails :
    ∃ s : CameraSystem,
      Machine.run (step "/root".toList) (buildCameraUi 3)
        [.thread (.initBH1750 true), .thread (.initCapture false), .thread .finish, .deliver] =
          some s ∧
      s.dialog.statusLabel =
        "Camera init failed (/dev/video0, /dev/video1) (button will dismiss without photo)".toList ∧
      ¬ Dismissible "/root".toList s := by
  refine ⟨_, rfl, by decide, ?_⟩
  intro hdismissible
  have hclosed := hdismissible rfl rfl rfl 0 _ rfl
  exact Bool.false_ne_true hclosed

end AlarmClock
