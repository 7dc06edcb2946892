import AlarmClock.CameraDismiss
import AlarmClock.DevTest
import AlarmClock.Lib.IndexedUpdate

/-!
# The lights of the camera

A camera thread that finds its light sensor opens the device of the lights as well. On every
fifteenth frame it reads the sensor and switches the lights; the frames are counted in a
static variable, which all threads share. It also reads the sensor for a capture. A thread
that has streamed switches the lights off before it closes the device. A thread whose camera
does not start closes nothing. The threads come one after the other, since the dialog of an
alarm waits for its thread before it goes.
-/

namespace AlarmClock.LightControl

open AlarmCameraThread (Step)
open CameraSystem (InLoop Gone)

/-- 'k' -/
def LED_IOCTL_MAGIC : UInt32 := 0x6b

def LED_IOCTL_ON : UInt32 := DevTest.ioc 0 LED_IOCTL_MAGIC 4 0
def LED_IOCTL_OFF : UInt32 := DevTest.ioc 0 LED_IOCTL_MAGIC 5 0

/-- The values match those of the driver. -/
theorem led_ioctl : LED_IOCTL_ON = DevTest.MY_IOCTL_CMD_LED_ON ∧
    LED_IOCTL_OFF = DevTest.MY_IOCTL_CMD_LED_OFF := ⟨rfl, rfl⟩

/-! ### The threads -/

section camera

variable {c c' : AlarmCameraThread} {e : Step} {signals : List AlarmCameraThread.Signal}

/-- The loop is entered by the start of the camera. -/
theorem loop_step (h : AlarmCameraThread.StepTo c e c' signals) (hloop : InLoop c') :
    InLoop c ∨ e = .startCapture true := by
  cases h with
  | sensor ok => exact absurd rfl hloop.2.1
  | init => exact absurd rfl hloop.2.2.1
  | start => exact .inr rfl
  | initFailed | startFailed | stopped | selectFailed | dequeueFailed =>
    exact absurd hloop (Gone.not_inLoop (.inl rfl))
  | finish => exact absurd hloop (Gone.not_inLoop (.inr rfl))
  | waited | readable | again | frame | taken | claimed | needed | dropped | converted
  | answered => exact .inl (by simp [InLoop, Gone, *])

theorem finished_step (h : AlarmCameraThread.StepTo c e c' signals) (hpc : c'.pc = .finished) :
    e = .finish := by
  cases h with
  | finish => rfl
  | converted savePath => cases savePath <;> cases hpc
  | waited => simp_all
  | sensor | init | start | initFailed | startFailed | stopped | selectFailed | dequeueFailed
  | readable | again | frame | taken | claimed | needed | dropped | answered => cases hpc

/-- The sensor is opened first of all. -/
theorem sensor_step (h : AlarmCameraThread.StepTo c e c' signals) :
    c'.pc ≠ .initBH1750 ∧ (c.pc = .initBH1750 ∨ c'.lightSensor = c.lightSensor) := by
  cases h with
  | sensor ok hpc => exact ⟨by simp, .inl hpc⟩
  | converted savePath => cases savePath <;> exact ⟨by simp, .inr rfl⟩
  | waited _ hpc => exact ⟨by simp [hpc], .inr rfl⟩
  | finish | init | start | initFailed | startFailed | stopped | selectFailed | dequeueFailed
  | readable | again | frame | taken | claimed | needed | dropped | answered =>
    exact ⟨by simp, .inr rfl⟩

end camera

/-- A camera thread. `led` says that `m_ledFd` is open, `streamed` that the thread has got
    into the loop of `run`, and `interrupted` that `stop` was called. -/
structure Thread where
  camera : AlarmCameraThread := {}
  led : Bool := false
  streamed : Bool := false
  interrupted : Bool := false
deriving DecidableEq, Repr

namespace Thread

/-- The loop of `run` asks for interruptions as well. -/
def asked (t : Thread) : AlarmCameraThread :=
  { t.camera with running := t.camera.running && !t.interrupted }

/-- A step of `run`. -/
def next (e : Step) (t : Thread) : Option Thread :=
  (t.asked.step e).map fun next =>
    { t with camera := next.1, streamed := t.streamed || e == .startCapture true }

/-- `stop`, called by the dialog. -/
def stop (t : Thread) : Thread := { t with interrupted := true }

def requestCapture (savePath : QString) (t : Thread) : Thread :=
  { t with camera := t.camera.requestCapture savePath }

/-- The dialog has shown a frame. -/
def frameReady (t : Thread) : Thread := { t with camera := { t.camera with uiReady := 1 } }

/-- Both files are closed. -/
def closed (t : Thread) : Thread :=
  { t with led := false, camera := { t.camera with lightSensor := false } }

theorem next_eq_some {e : Step} {t t' : Thread} (h : t.next e = some t') :
    ∃ camera signals, AlarmCameraThread.StepTo t.asked e camera signals ∧
      t' = { t with camera := camera, streamed := t.streamed || e == .startCapture true } := by
  obtain ⟨⟨camera, signals⟩, hstep, rfl⟩ := Option.map_eq_some_iff.mp h
  exact ⟨camera, signals, AlarmCameraThread.step_cases hstep, rfl⟩

/-- The lights are opened after the sensor, the loop is reached through a start of the camera,
    and a thread that has got there closes its files. -/
structure Sound (t : Thread) : Prop where
  sensor : t.led = true → t.camera.lightSensor = true
  before : t.camera.pc = .initBH1750 → t.led = false
  loop : InLoop t.camera → t.streamed = true
  finished : t.camera.pc = .finished → t.streamed = true → t.led = false

theorem sound_init : Sound {} where
  sensor h := by cases h
  before _ := rfl
  loop h := absurd rfl h.1
  finished h := by cases h

/-- What the dialog leaves alone in a thread. -/
structure Same (t t' : Thread) : Prop where
  led : t'.led = t.led
  streamed : t'.streamed = t.streamed
  pc : t'.camera.pc = t.camera.pc
  lightSensor : t'.camera.lightSensor = t.camera.lightSensor

theorem same_stop (t : Thread) : t.Same t.stop := ⟨rfl, rfl, rfl, rfl⟩

theorem same_requestCapture (savePath : QString) (t : Thread) :
    t.Same (t.requestCapture savePath) := ⟨rfl, rfl, rfl, rfl⟩

theorem same_frameReady (t : Thread) : t.Same t.frameReady := ⟨rfl, rfl, rfl, rfl⟩

theorem Sound.of_same {t t' : Thread} (h : t.Sound) (hsame : Same t t') : t'.Sound := by
  obtain ⟨hled, hstreamed, hpc, hsensor⟩ := hsame
  refine ⟨?_, ?_, ?_, ?_⟩
  · rw [hled, hsensor]
    exact h.sensor
  · rw [hpc, hled]
    exact h.before
  · unfold InLoop Gone
    rw [hpc, hstreamed]
    exact h.loop
  · rw [hpc, hstreamed, hled]
    exact h.finished

theorem Sound.next {e : Step} {t t' : Thread} (h : t.Sound) (hnext : t.next e = some t')
    (hfinish : e = .finish → t.streamed = false) : t'.Sound := by
  obtain ⟨camera, signals, hstep, rfl⟩ := next_eq_some hnext
  obtain ⟨hpc, hsensor⟩ := sensor_step hstep
  refine ⟨fun hled => ?_, fun hinit => absurd hinit hpc, fun hloop => ?_, fun hdone hstreamed => ?_⟩
  · rcases hsensor with hfirst | hsame
    · cases (h.before hfirst).symm.trans hled
    · exact hsame.trans (h.sensor hled)
  · rcases loop_step hstep hloop with hloop | rfl
    · simp [h.loop hloop]
    · simp
  · obtain rfl := finished_step hstep hdone
    simp [hfinish rfl] at hstreamed

/-- A thread that has found its sensor and opens the lights. -/
theorem sound_opened {t t' : Thread} (hnext : t.next (.initBH1750 true) = some t') :
    Sound { t' with led := true } := by
  obtain ⟨camera, signals, hstep, rfl⟩ := next_eq_some hnext
  cases hstep with
  | sensor =>
    refine ⟨fun _ => rfl, fun hinit => ?_, fun hloop => absurd rfl hloop.2.1, fun hdone => ?_⟩
    · cases hinit
    · cases hdone

theorem sound_closed {t t' : Thread} (hnext : t.next .finish = some t') : t'.closed.Sound := by
  obtain ⟨camera, signals, hstep, rfl⟩ := next_eq_some hnext
  cases hstep with
  | finish =>
    refine ⟨fun hled => ?_, fun _ => rfl, fun hloop => ?_, fun _ _ => rfl⟩
    · cases hled
    · exact absurd hloop (Gone.not_inLoop (.inr rfl))

/-- The lights are open, and the thread will close them. -/
def Streams (t : Thread) : Prop :=
  t.led = true ∧ t.streamed = true ∧ t.camera.pc ≠ .finished

theorem Streams.next {e : Step} {t t' : Thread} (h : t.Streams) (hnext : t.next e = some t')
    (he : e ≠ .finish) : t'.Streams := by
  obtain ⟨camera, signals, hstep, rfl⟩ := next_eq_some hnext
  exact ⟨h.1, by simp [h.2.1], fun hdone => he (finished_step hstep hdone)⟩

/-- A thread that has ended stays as it is. -/
theorem next_finished {t : Thread} (hpc : t.camera.pc = .finished) (e : Step) :
    t.next e = none := by
  simp [Thread.next, asked, AlarmCameraThread.step, hpc]

theorem led_next {e : Step} {t t' : Thread} (hnext : t.next e = some t') : t'.led = t.led := by
  obtain ⟨camera, signals, -, rfl⟩ := next_eq_some hnext
  rfl

end Thread

/-- The driver with what has happened to it, the threads in the order of their starts, and the
    files of others. `frames` are those of threads that have lights and sensor open, and
    `captures` are the readings of the sensor for a capture, among all `readings`. -/
structure State where
  device : DevTest.State := {}
  history : List DevTest.Event := []
  threads : List Thread := []
  others : Nat := 0
  luxCounter : Nat := 0
  frames : Nat := 0
  readings : Nat := 0
  captures : Nat := 0
deriving DecidableEq, Repr

/-- `luxRead` is what a read of the sensor returns, and `opens` whether the device of the
    lights can be opened. Other processes do not switch the lights. -/
inductive Event where
  | start
  | thread (i : Nat) (e : Step) (luxRead : Option Nat) (opens : Bool)
  | stop (i : Nat)
  | requestCapture (i : Nat) (savePath : QString)
  | frameReady (i : Nat)
  | device (e : DevTest.Event)
deriving DecidableEq, Repr

namespace State

def setThread (i : Nat) (t : Thread) (s : State) : State :=
  { s with threads := s.threads.set i t }

/-- The driver takes a step. -/
def drive (e : DevTest.Event) (s : State) : Option State :=
  (s.device.step e).map fun device => { s with device := device, history := s.history ++ [e] }

/-- `++s_luxCounter` -/
def counted (s : State) : State :=
  { s with frames := s.frames + 1, luxCounter := s.luxCounter + 1 }

/-- `s_luxCounter = 0` -/
def reset (s : State) : State := { s with luxCounter := 0, readings := s.readings + 1 }

/-- The sensor is read for a capture. -/
def captured (t : Thread) (s : State) : State :=
  if t.camera.lightSensor then
    { s with readings := s.readings + 1, captures := s.captures + 1 }
  else s

/-- The sensor is read, and the lights are switched unless that fails. -/
def switchLights (t : Thread) (luxRead : Option Nat) (s : State) : Option State :=
  let lux := AlarmCameraThread.readLux luxRead t.camera
  if lux ≥ 0 then
    s.drive (.ioctl (if lux ≥ t.camera.luxThreshold then LED_IOCTL_ON else LED_IOCTL_OFF) false)
  else some s

/-- The part of `captureFrame` behind the lock. -/
def controlLights (t : Thread) (luxRead : Option Nat) (s : State) : Option State :=
  if t.led ∧ t.camera.lightSensor then
    if s.counted.luxCounter ≥ 15 then s.counted.reset.switchLights t luxRead else some s.counted
  else some s

def closeBH1750 (t : Thread) (s : State) : Option State :=
  if t.led then (s.drive (.ioctl LED_IOCTL_OFF false)).bind (drive .release) else some s

/-- What a step of a thread does to the driver, before the thread is what it is then. -/
def thread (i : Nat) (t t' : Thread) (luxRead : Option Nat) (opens : Bool) (s : State) :
    Step → Option State
  | .initBH1750 ok =>
    if ok ∧ opens then (s.drive .openDevice).map (setThread i { t' with led := true })
    else some (s.setThread i t')
  | .takePending => (s.controlLights t luxRead).map (setThread i t')
  | .answer _ _ => some ((s.captured t).setThread i t')
  | .finish =>
    if t.streamed then (s.closeBH1750 t).map (setThread i t'.closed) else some (s.setThread i t')
  | _ => some (s.setThread i t')

/-- The dialog does something to a thread. -/
def touch (i : Nat) (f : Thread → Thread) (s : State) : Option State :=
  s.threads[i]?.map fun t => s.setThread i (f t)

/-- What other processes do to the driver. The calls in progress are theirs. -/
def other (e : DevTest.Event) (s : State) : Option State :=
  match e with
  | .openDevice => (s.drive e).map fun s => { s with others := s.others + 1 }
  | .release =>
    if 0 < s.others ∧ (s.device.calls = [] ∨ 1 < s.others) then
      (s.drive e).map fun s => { s with others := s.others - 1 }
    else none
  | .ioctl cmd _ =>
    if 0 < s.others ∧ cmd ≠ LED_IOCTL_ON ∧ cmd ≠ LED_IOCTL_OFF then s.drive e else none
  | _ => s.drive e

def step (s : State) : Event → Option State
  | .start =>
    if ∀ t ∈ s.threads, t.camera.pc = .finished then some { s with threads := s.threads ++ [{}] }
    else none
  | .thread i e luxRead opens =>
    s.threads[i]?.bind fun t => (t.next e).bind fun t' => s.thread i t t' luxRead opens e
  | .stop i => s.touch i Thread.stop
  | .requestCapture i savePath => s.touch i (Thread.requestCapture savePath)
  | .frameReady i => s.touch i Thread.frameReady
  | .device e => s.other e

/-! ### The driver below -/

open DevTest.State (lamp)

variable {g : DevTest.Gpio} {s s' : State}

/-- What the driver has seen is an orderly run of it. -/
def Follows (g : DevTest.Gpio) (s : State) : Prop :=
  Machine.run DevTest.State.step { gpio := g } s.history = some s.device ∧
    Machine.Along DevTest.State.step DevTest.State.OpensLoaded { gpio := g } s.history

theorem Follows.orderly (h : Follows g s) : s.device.Orderly :=
  (DevTest.State.orderly_run h.1 h.2).1

theorem drive_eq_some {e : DevTest.Event} (h : s.drive e = some s') :
    ∃ device, s.device.step e = some device ∧
      s' = { s with device := device, history := s.history ++ [e] } := by
  obtain ⟨device, hstep, rfl⟩ := Option.map_eq_some_iff.mp h
  exact ⟨device, hstep, rfl⟩

theorem drive_of_step {e : DevTest.Event} {device : DevTest.State}
    (h : s.device.step e = some device) :
    s.drive e = some { s with device := device, history := s.history ++ [e] } := by
  rw [State.drive, h]
  rfl

theorem Follows.drive (h : Follows g s) {e : DevTest.Event}
    (hopens : DevTest.State.OpensLoaded s.device e) (hdrive : s.drive e = some s') :
    Follows g s' := by
  obtain ⟨device, hstep, rfl⟩ := drive_eq_some hdrive
  refine ⟨?_, h.2.concat h.1 hopens⟩
  exact Machine.run_append_eq_some.mpr ⟨s.device, h.1, (Machine.run_singleton _ _).trans hstep⟩

/-- A command goes through as long as a file is open. -/
theorem exists_drive_ioctl (hfiles : 0 < s.device.files) (cmd : UInt32) :
    ∃ s', s.drive (.ioctl cmd false) = some s' := by
  have hstep : s.device.step (.ioctl cmd false) = some (s.device.deviceIoctl cmd false).1 :=
    if_pos hfiles
  exact ⟨_, drive_of_step hstep⟩

/-- The sensor is read on every fifteenth frame, and for captures. -/
def Counts (s : State) : Prop :=
  15 * s.readings + s.luxCounter = s.frames + 15 * s.captures ∧ s.luxCounter < 15

/-- What `captureFrame` and `closeBH1750` do to the system, besides what they do to the lights. -/
structure Beside (g : DevTest.Gpio) (s s' : State) : Prop where
  follows : Follows g s'
  calls : s'.device.calls ≠ [] → s.device.calls ≠ []
  threads : s'.threads = s.threads
  others : s'.others = s.others
  counts : Counts s → Counts s'

theorem Beside.refl (h : Follows g s) : Beside g s s := ⟨h, id, rfl, rfl, id⟩

theorem beside_drive (h : Follows g s) {e : DevTest.Event} (hdrive : s.drive e = some s')
    (hopens : DevTest.State.OpensLoaded s.device e)
    (hlights : ∀ cmd fault, e = .ioctl cmd fault → cmd = LED_IOCTL_ON ∨ cmd = LED_IOCTL_OFF) :
    Beside g s s' := by
  have hfollows := h.drive hopens hdrive
  obtain ⟨device, hstep, rfl⟩ := drive_eq_some hdrive
  refine ⟨hfollows, fun hcalls => ?_, rfl, rfl, id⟩
  rcases DevTest.State.calls_step hstep hcalls with hbefore | ⟨cmd, fault, rfl, hother⟩
  · exact hbefore
  · rcases hlights cmd fault rfl with hcmd | hcmd
    · exact absurd (hcmd.trans led_ioctl.1) hother.1
    · exact absurd (hcmd.trans led_ioctl.2) hother.2

/-- A command of a thread. -/
theorem beside_lights (h : Follows g s) {cmd : UInt32}
    (hcmd : cmd = LED_IOCTL_ON ∨ cmd = LED_IOCTL_OFF)
    (hdrive : s.drive (.ioctl cmd false) = some s') : Beside g s s' := by
  refine beside_drive h hdrive trivial ?_
  rintro cmd' fault ⟨⟩
  exact hcmd

theorem files_drive_ioctl (h : Follows g s) {cmd : UInt32} {fault : Bool}
    (hdrive : s.drive (.ioctl cmd fault) = some s') : s'.device.files = s.device.files := by
  obtain ⟨device, hstep, rfl⟩ := drive_eq_some hdrive
  exact h.orderly.files_step hstep (by simp) (by simp)

theorem lamp_drive {e : DevTest.Event} (hdrive : s.drive e = some s') :
    lamp s'.history = DevTest.State.lampAfter (lamp s.history) e := by
  obtain ⟨device, -, rfl⟩ := drive_eq_some hdrive
  exact DevTest.State.lamp_concat _ _

theorem counts_counted (h : Counts s) (hnot : ¬ s.counted.luxCounter ≥ 15) : Counts s.counted := by
  refine ⟨?_, Nat.lt_of_not_le hnot⟩
  show 15 * s.readings + (s.luxCounter + 1) = s.frames + 1 + 15 * s.captures
  have := h.1
  omega

theorem counts_reset (h : Counts s) (hfull : s.counted.luxCounter ≥ 15) :
    Counts s.counted.reset := by
  refine ⟨?_, Nat.zero_lt_succ 14⟩
  show 15 * (s.readings + 1) + 0 = s.frames + 1 + 15 * s.captures
  have hfull' : s.luxCounter + 1 ≥ 15 := hfull
  obtain ⟨hsum, hlt⟩ := h
  omega

theorem drive_fields {e : DevTest.Event} (hdrive : s.drive e = some s') :
    s'.threads = s.threads ∧ s'.others = s.others ∧ (Counts s → Counts s') := by
  obtain ⟨device, -, rfl⟩ := drive_eq_some hdrive
  exact ⟨rfl, rfl, id⟩

theorem beside_captured (h : Follows g s) (t : Thread) : Beside g s (s.captured t) := by
  unfold captured
  split_ifs
  · refine ⟨h, id, rfl, rfl, fun hs => ⟨?_, hs.2⟩⟩
    show 15 * (s.readings + 1) + s.luxCounter = s.frames + 15 * (s.captures + 1)
    have := hs.1
    omega
  · exact .refl h

/-- The files stay open, and the lights are switched on only for a thread that has them open. -/
theorem switchLights_spec (h : Follows g s) {t : Thread} {luxRead : Option Nat}
    (hled : t.led = true) (hswitch : s.switchLights t luxRead = some s') :
    Beside g s s' ∧ s'.device.files = s.device.files ∧
      (lamp s'.history = some true → lamp s.history = some true ∨ t.led = true) := by
  by_cases hread : AlarmCameraThread.readLux luxRead t.camera ≥ 0
  · simp only [State.switchLights, if_pos hread] at hswitch
    exact ⟨beside_lights h (ite_eq_or_eq _ _ _) hswitch, files_drive_ioctl h hswitch,
      fun _ => .inr hled⟩
  · simp only [State.switchLights, if_neg hread] at hswitch
    obtain rfl := Option.some.inj hswitch
    exact ⟨.refl h, rfl, .inl⟩

theorem controlLights_spec (h : Follows g s) {t : Thread} {luxRead : Option Nat}
    (hcontrol : s.controlLights t luxRead = some s') :
    Beside g s s' ∧ s'.device.files = s.device.files ∧
      (lamp s'.history = some true → lamp s.history = some true ∨ t.led = true) := by
  unfold State.controlLights at hcontrol
  split_ifs at hcontrol with hopen hfull
  · have hcounted : Follows g s.counted.reset := h
    obtain ⟨hbeside, hfiles, hlit⟩ := switchLights_spec hcounted hopen.1 hcontrol
    exact ⟨⟨hbeside.follows, hbeside.calls, hbeside.threads, hbeside.others,
      fun hs => hbeside.counts (counts_reset hs hfull)⟩, hfiles, hlit⟩
  · obtain rfl := Option.some.inj hcontrol
    exact ⟨⟨h, id, rfl, rfl, fun hs => counts_counted hs hfull⟩, rfl, .inl⟩
  · obtain rfl := Option.some.inj hcontrol
    exact ⟨.refl h, rfl, .inl⟩

/-- The lights are off when a thread has closed them, and as they were when it had not. -/
theorem closeBH1750_spec (h : Follows g s) {t : Thread} (hclose : s.closeBH1750 t = some s') :
    Beside g s s' ∧ s'.device.files + (if t.led then 1 else 0) = s.device.files ∧
      (lamp s'.history = some true → lamp s.history = some true ∧ t.led = false) := by
  unfold State.closeBH1750 at hclose
  split_ifs at hclose with hled
  · obtain ⟨u, hoff, hrelease⟩ := Option.bind_eq_some_iff.mp hclose
    obtain ⟨hfollows, hcalls, hthreads, hothers, hcounts⟩ := beside_lights h (.inr rfl) hoff
    obtain ⟨hfollows', hcalls', hthreads', hothers', hcounts'⟩ :=
      beside_drive hfollows hrelease trivial (by simp)
    refine ⟨⟨hfollows', hcalls ∘ hcalls', hthreads'.trans hthreads, hothers'.trans hothers,
      hcounts' ∘ hcounts⟩, ?_, ?_⟩
    · have hfiles := files_drive_ioctl h hoff
      obtain ⟨device, hstep, rfl⟩ := drive_eq_some hrelease
      obtain ⟨⟨hopen, -⟩, rfl⟩ := Machine.guarded_eq_some hstep
      show u.device.files - 1 + (if t.led then 1 else 0) = s.device.files
      rw [if_pos hled]
      omega
    · intro hlit
      rw [lamp_drive hrelease, lamp_drive hoff] at hlit
      cases hlit
  · obtain rfl := Option.some.inj hclose
    exact ⟨.refl h, by simp [hled], fun hlit => ⟨hlit, Bool.eq_false_iff.mpr hled⟩⟩

/-! ### The whole system -/

def opensLights : Event → Bool
  | .thread _ (.initBH1750 true) _ true => true
  | .device .openDevice => true
  | _ => false

/-- Nobody opens the lights before their driver is loaded. -/
def OpensLoaded (s : State) (e : Event) : Prop := opensLights e = true → s.device.phase = .loaded

instance (s : State) (e : Event) : Decidable (OpensLoaded s e) :=
  inferInstanceAs (Decidable (_ → _))

/-- The files of the driver are those of the threads and of the others, and the lights shine
    only for a thread that will switch them off. -/
structure Inv (g : DevTest.Gpio) (s : State) : Prop where
  follows : Follows g s
  files : s.device.files = s.others + s.threads.countP (·.led)
  calls : s.device.calls ≠ [] → 0 < s.others
  sound : ∀ t ∈ s.threads, t.Sound
  lit : lamp s.history = some true → ∃ t ∈ s.threads, t.Streams
  counts : Counts s

theorem inv_init (g : DevTest.Gpio) : Inv g { device := { gpio := g } } where
  follows := ⟨rfl, trivial⟩
  files := rfl
  calls h := absurd rfl h
  sound _ ht := by cases ht
  lit h := by cases h
  counts := ⟨rfl, Nat.zero_lt_succ 14⟩

/-- A thread is replaced by what it is after a step. -/
theorem inv_set (hi : Inv g s) {u : State} {i : Nat} {t t' : Thread}
    (hthread : s.threads[i]? = some t) (hbeside : Beside g s u)
    (hfiles : u.device.files + (if t.led then 1 else 0) =
      s.device.files + if t'.led then 1 else 0)
    (hsound : t'.Sound)
    (hlit : lamp u.history = some true →
      lamp s.history = some true ∧ (t.Streams → t'.Streams) ∨ t'.Streams) :
    Inv g (u.setThread i t') := by
  obtain ⟨hi', -⟩ := List.getElem?_eq_some_iff.mp hthread
  have hmem : t' ∈ s.threads.set i t' := List.mem_set hi' t'
  have hcount := IndexedUpdate.countP_set (·.led) hthread t'
  refine ⟨hbeside.follows, ?_, ?_, ?_, ?_, hbeside.counts hi.counts⟩
  · show u.device.files = u.others + (u.threads.set i t').countP (·.led)
    have := hi.files
    rw [hbeside.others, hbeside.threads]
    omega
  · intro hcalls
    show 0 < u.others
    rw [hbeside.others]
    exact hi.calls (hbeside.calls hcalls)
  · intro x hx
    have hx' : x ∈ u.threads.set i t' := hx
    rw [hbeside.threads] at hx'
    rcases List.mem_or_eq_of_mem_set hx' with hx' | rfl
    · exact hi.sound x hx'
    · exact hsound
  · intro hlamp
    show ∃ x ∈ u.threads.set i t', x.Streams
    rw [hbeside.threads]
    rcases hlit hlamp with ⟨hbefore, hkeeps⟩ | hstreams
    · obtain ⟨x, hx, hstreams⟩ := hi.lit hbefore
      obtain ⟨j, hj⟩ := List.mem_iff_getElem?.mp hx
      by_cases hij : i = j
      · subst hij
        obtain rfl := Option.some.inj (hthread.symm.trans hj)
        exact ⟨t', hmem, hkeeps hstreams⟩
      · refine ⟨x, List.mem_of_getElem? (i := j) ?_, hstreams⟩
        rw [List.getElem?_set_ne hij, hj]
    · exact ⟨t', hmem, hstreams⟩

/-- A step that the driver does not see. -/
theorem inv_plain (hi : Inv g s) {i : Nat} {t t' : Thread} (hthread : s.threads[i]? = some t)
    (hled : t'.led = t.led) (hsound : t'.Sound) (hstreams : t.Streams → t'.Streams) :
    Inv g (s.setThread i t') :=
  inv_set hi hthread (.refl hi.follows) (by rw [hled]) hsound fun hlit => .inl ⟨hlit, hstreams⟩

theorem inv_thread (hi : Inv g s) {i : Nat} {t t' : Thread} (hthread : s.threads[i]? = some t)
    {e : Step} (hnext : t.next e = some t') {luxRead : Option Nat} {opens : Bool}
    (hopens : OpensLoaded s (.thread i e luxRead opens))
    (h : s.thread i t t' luxRead opens e = some s') : Inv g s' := by
  have hsound := hi.sound t (List.mem_of_getElem? hthread)
  have hplain : e ≠ .finish → Inv g (s.setThread i t') := fun he =>
    inv_plain hi hthread (Thread.led_next hnext)
      (hsound.next hnext fun hfinish => absurd hfinish he) fun hstreams => hstreams.next hnext he
  cases e with
  | initBH1750 ok =>
    simp only [State.thread] at h
    split_ifs at h with hled
    · obtain ⟨rfl, rfl⟩ := hled
      obtain ⟨u, hdrive, rfl⟩ := Option.map_eq_some_iff.mp h
      have hnot : t.led = false := by
        obtain ⟨camera, signals, hstep, -⟩ := Thread.next_eq_some hnext
        cases hstep with
        | sensor ok hpc => exact hsound.before hpc
      refine inv_set hi hthread (beside_drive hi.follows hdrive (hopens rfl) (by simp)) ?_
        (Thread.sound_opened hnext) ?_
      · obtain ⟨device, hstep, rfl⟩ := drive_eq_some hdrive
        obtain ⟨-, rfl⟩ := Machine.guarded_eq_some hstep
        simp [hnot]
      · intro hlit
        rw [lamp_drive hdrive] at hlit
        refine .inl ⟨hlit, fun hstreams => ?_⟩
        cases hnot.symm.trans hstreams.1
    · obtain rfl := Option.some.inj h
      exact hplain (by simp)
  | takePending =>
    obtain ⟨u, hcontrol, rfl⟩ := Option.map_eq_some_iff.mp h
    obtain ⟨hbeside, hfiles, hlit⟩ := controlLights_spec hi.follows hcontrol
    have hled := Thread.led_next hnext
    refine inv_set hi hthread hbeside (by rw [hled, hfiles])
      (hsound.next hnext (by simp)) fun hlamp => ?_
    rcases hlit hlamp with hbefore | hopen
    · exact .inl ⟨hbefore, fun hstreams => hstreams.next hnext (by simp)⟩
    · -- a thread that looks at its light is in the loop, so it has streamed
      obtain ⟨camera, signals, hstep, rfl⟩ := Thread.next_eq_some hnext
      cases hstep with
      | taken hpc =>
        have hpc' : t.camera.pc = .locking := hpc
        have hstreamed := hsound.loop (by simp [InLoop, Gone, hpc'])
        exact .inr ⟨hopen, by simp [hstreamed], by simp⟩
  | finish =>
    simp only [State.thread] at h
    split_ifs at h with hstreamed
    · obtain ⟨u, hclose, rfl⟩ := Option.map_eq_some_iff.mp h
      obtain ⟨hbeside, hfiles, hlit⟩ := closeBH1750_spec hi.follows hclose
      refine inv_set hi hthread hbeside ?_ (Thread.sound_closed hnext) fun hlamp => ?_
      · rw [hfiles]
        rfl
      · obtain ⟨hbefore, hnot⟩ := hlit hlamp
        refine .inl ⟨hbefore, fun hstreams => ?_⟩
        cases hnot.symm.trans hstreams.1
    · obtain rfl := Option.some.inj h
      have hnot := Bool.eq_false_iff.mpr hstreamed
      refine inv_plain hi hthread (Thread.led_next hnext) (hsound.next hnext fun _ => hnot) ?_
      intro hstreams
      cases hnot.symm.trans hstreams.2.1
  | answer =>
    obtain rfl := Option.some.inj h
    have hstreams : t.Streams → t'.Streams := fun hstreams => hstreams.next hnext (by simp)
    have hdevice : (s.captured t).device = s.device ∧ (s.captured t).history = s.history := by
      unfold captured
      split_ifs
      · exact ⟨rfl, rfl⟩
      · exact ⟨rfl, rfl⟩
    refine inv_set hi hthread (beside_captured hi.follows t) ?_ (hsound.next hnext (by simp)) ?_
    · rw [hdevice.1, Thread.led_next hnext]
    · rw [hdevice.2]
      exact fun hlit => .inl ⟨hlit, hstreams⟩
  | initCapture | startCapture | select | dequeue | testAndSet | convert =>
    obtain rfl := Option.some.inj h
    exact hplain (by simp)

/-- The threads stay what they are, and the lights are not switched on. -/
theorem inv_beside (hi : Inv g s) (hfollows : Follows g s') (hthreads : s'.threads = s.threads)
    (hfiles : s'.device.files + s.others = s.device.files + s'.others)
    (hcalls : s'.device.calls ≠ [] → 0 < s'.others)
    (hlit : lamp s'.history = some true → lamp s.history = some true)
    (hcounts : Counts s → Counts s') : Inv g s' := by
  refine ⟨hfollows, ?_, hcalls, ?_, ?_, hcounts hi.counts⟩
  · have := hi.files
    rw [hthreads]
    omega
  · rw [hthreads]
    exact hi.sound
  · intro hlamp
    rw [hthreads]
    exact hi.lit (hlit hlamp)

/-- A step of the driver that opens and closes no file and does not switch the lights on. -/
theorem inv_drive (hi : Inv g s) {e : DevTest.Event} (hdrive : s.drive e = some s')
    (hopen : e ≠ .openDevice) (hrelease : e ≠ .release)
    (hcommand : ∀ cmd fault, e = .ioctl cmd fault → 0 < s.others)
    (hlit : DevTest.State.lampAfter (lamp s.history) e = some true →
      lamp s.history = some true) : Inv g s' := by
  have hopens : DevTest.State.OpensLoaded s.device e := by
    cases e with
    | openDevice => exact absurd rfl hopen
    | _ => trivial
  obtain ⟨hthreads, hothers, hcounts⟩ := drive_fields hdrive
  refine inv_beside hi (hi.follows.drive hopens hdrive) hthreads ?_ ?_ ?_ hcounts
  · obtain ⟨device, hstep, rfl⟩ := drive_eq_some hdrive
    exact congrArg (· + s.others) (hi.follows.orderly.files_step hstep hopen hrelease)
  · obtain ⟨device, hstep, rfl⟩ := drive_eq_some hdrive
    intro hcalls
    rcases DevTest.State.calls_step hstep hcalls with hbefore | ⟨cmd, fault, he, -⟩
    · exact hi.calls hbefore
    · exact hcommand cmd fault he
  · rw [lamp_drive hdrive]
    exact hlit

theorem inv_other (hi : Inv g s) {e : DevTest.Event} (hopens : OpensLoaded s (.device e))
    (h : s.other e = some s') : Inv g s' := by
  cases e with
  | openDevice =>
    obtain ⟨u, hdrive, rfl⟩ := Option.map_eq_some_iff.mp h
    have hloaded : DevTest.State.OpensLoaded s.device .openDevice := hopens rfl
    obtain ⟨hthreads, -, hcounts⟩ := drive_fields hdrive
    have hfollows := hi.follows.drive hloaded hdrive
    refine inv_beside hi hfollows hthreads ?_ (fun _ => Nat.succ_pos _) ?_ hcounts
    · obtain ⟨device, hstep, rfl⟩ := drive_eq_some hdrive
      obtain ⟨-, rfl⟩ := Machine.guarded_eq_some hstep
      show s.device.files + 1 + s.others = s.device.files + (s.others + 1)
      omega
    · show lamp u.history = some true → _
      rw [lamp_drive hdrive]
      exact id
  | release =>
    simp only [State.other] at h
    split_ifs at h with hguard
    obtain ⟨hothers, hidle⟩ := hguard
    obtain ⟨u, hdrive, rfl⟩ := Option.map_eq_some_iff.mp h
    have hloaded : DevTest.State.OpensLoaded s.device .release := trivial
    obtain ⟨hthreads, -, hcounts⟩ := drive_fields hdrive
    have hfollows := hi.follows.drive hloaded hdrive
    refine inv_beside hi hfollows hthreads ?_ ?_ ?_ hcounts
    · obtain ⟨device, hstep, rfl⟩ := drive_eq_some hdrive
      obtain ⟨⟨hfiles, -⟩, rfl⟩ := Machine.guarded_eq_some hstep
      show s.device.files - 1 + s.others = s.device.files + (s.others - 1)
      omega
    · obtain ⟨device, hstep, rfl⟩ := drive_eq_some hdrive
      obtain ⟨-, rfl⟩ := Machine.guarded_eq_some hstep
      intro hcalls
      show 0 < s.others - 1
      rcases hidle with hnone | hmore
      · exact absurd hnone hcalls
      · omega
    · show lamp u.history = some true → _
      rw [lamp_drive hdrive]
      exact id
  | ioctl cmd fault =>
    simp only [State.other] at h
    split_ifs at h with hcmd
    refine inv_drive hi h (by simp) (by simp) (fun _ _ _ => hcmd.1) fun hlit => ?_
    rw [led_ioctl.1, led_ioctl.2] at hcmd
    rwa [DevTest.State.lampAfter, if_neg hcmd.2.1, if_neg hcmd.2.2] at hlit
  | ledInit =>
    refine inv_drive hi h (by simp) (by simp) (by simp) fun hlit => ?_
    cases hlit
  | registerChrdevRegion | cdevAdd | ioremap | requestIrq | initDone | rmmod | freeIrq | iounmap
  | cdevDel | unregister | proceed | staleCall =>
    exact inv_drive hi h (by simp) (by simp) (by simp) id

/-- What the dialog does to a thread. -/
theorem inv_touch (hi : Inv g s) {i : Nat} {f : Thread → Thread} (hf : ∀ t, Thread.Same t (f t))
    (h : s.touch i f = some s') : Inv g s' := by
  obtain ⟨t, hthread, rfl⟩ := Option.map_eq_some_iff.mp h
  have hsound := (hi.sound t (List.mem_of_getElem? hthread)).of_same (hf t)
  refine inv_plain hi hthread (hf t).led hsound fun hstreams => ?_
  obtain ⟨hled, hstreamed, hpc⟩ := hstreams
  exact ⟨(hf t).led.trans hled, (hf t).streamed.trans hstreamed, (hf t).pc ▸ hpc⟩

theorem inv_step (hi : Inv g s) {e : Event} (hopens : OpensLoaded s e) (h : s.step e = some s') :
    Inv g s' := by
  cases e with
  | start =>
    obtain ⟨-, rfl⟩ := Machine.guarded_eq_some h
    refine ⟨hi.follows, ?_, hi.calls, ?_, ?_, hi.counts⟩
    · show s.device.files = s.others + (s.threads ++ [({} : Thread)]).countP (·.led)
      rw [List.countP_append]
      exact hi.files
    · intro x hx
      rcases List.mem_append.mp hx with hx | hx
      · exact hi.sound x hx
      · rw [List.mem_singleton.mp hx]
        exact Thread.sound_init
    · intro hlit
      obtain ⟨x, hx, hstreams⟩ := hi.lit hlit
      exact ⟨x, List.mem_append_left _ hx, hstreams⟩
  | thread i e luxRead opens =>
    obtain ⟨t, hthread, hrest⟩ := Option.bind_eq_some_iff.mp h
    obtain ⟨t', hnext, hrest⟩ := Option.bind_eq_some_iff.mp hrest
    exact inv_thread hi hthread hnext hopens hrest
  | stop i => exact inv_touch hi Thread.same_stop h
  | requestCapture i savePath => exact inv_touch hi (Thread.same_requestCapture savePath) h
  | frameReady i => exact inv_touch hi Thread.same_frameReady h
  | device e => exact inv_other hi hopens h

theorem inv_run {es : List Event} (hrun : Machine.run step { device := { gpio := g } } es = some s)
    (hopens : Machine.Along step OpensLoaded { device := { gpio := g } } es) : Inv g s :=
  Machine.run_invariant_along (fun _ _ _ hi hopens h => inv_step hi hopens h) (inv_init g) hopens
    hrun

/-- A file of a thread can be closed: the calls in progress have files of their own. -/
theorem Inv.idle (hi : Inv g s) {t : Thread} (ht : t ∈ s.threads) (hled : t.led = true) :
    s.device.calls = [] ∨ 1 < s.device.files := by
  by_cases hcalls : s.device.calls = []
  · exact .inl hcalls
  · have hcount : 0 < s.threads.countP (·.led) := List.countP_pos_iff.mpr ⟨t, ht, hled⟩
    have hothers := hi.calls hcalls
    rw [hi.files]
    omega

/-- A thread with an open file. -/
theorem Inv.files_pos (hi : Inv g s) {t : Thread} (ht : t ∈ s.threads) (hled : t.led = true) :
    0 < s.device.files := by
  have hcount : 0 < s.threads.countP (·.led) := List.countP_pos_iff.mpr ⟨t, ht, hled⟩
  rw [hi.files]
  omega

/-- The driver never holds a thread up. -/
theorem exists_step (hi : Inv g s) {i : Nat} {t t' : Thread} (hthread : s.threads[i]? = some t)
    {e : Step} (hnext : t.next e = some t') (luxRead : Option Nat) :
    ∃ s', s.step (.thread i e luxRead false) = some s' := by
  have hmem := List.mem_of_getElem? hthread
  have hstep : s.step (.thread i e luxRead false) = s.thread i t t' luxRead false e := by
    simp only [State.step, hthread, Option.bind_some, hnext]
  rw [hstep]
  cases e with
  | initBH1750 ok => exact ⟨_, if_neg (by simp)⟩
  | takePending =>
    suffices h : ∃ u, s.controlLights t luxRead = some u by
      obtain ⟨u, hcontrol⟩ := h
      exact ⟨_, Option.map_eq_some_iff.mpr ⟨u, hcontrol, rfl⟩⟩
    unfold controlLights
    split_ifs with hopen hfull
    · unfold switchLights
      dsimp only
      split_ifs
      · exact exists_drive_ioctl (s := s.counted.reset) (hi.files_pos hmem hopen.1) _
      · exact exists_drive_ioctl (s := s.counted.reset) (hi.files_pos hmem hopen.1) _
      · exact ⟨_, rfl⟩
    · exact ⟨_, rfl⟩
    · exact ⟨_, rfl⟩
  | finish =>
    show ∃ s', (if t.streamed then _ else _) = some s'
    split_ifs
    · suffices h : ∃ u, s.closeBH1750 t = some u by
        obtain ⟨u, hclose⟩ := h
        exact ⟨_, Option.map_eq_some_iff.mpr ⟨u, hclose, rfl⟩⟩
      unfold closeBH1750
      split_ifs with hled
      · obtain ⟨u, hoff⟩ := exists_drive_ioctl (hi.files_pos hmem hled) LED_IOCTL_OFF
        have hsame := files_drive_ioctl hi.follows hoff
        have hcalls := (beside_lights hi.follows (.inr rfl) hoff).calls
        have hfiles : 0 < u.device.files := by
          rw [hsame]
          exact hi.files_pos hmem hled
        have hidle : u.device.calls = [] ∨ 1 < u.device.files := by
          rw [hsame]
          exact (hi.idle hmem hled).imp_left fun hnone => by_contra fun h => hcalls h hnone
        have hrelease : u.device.step .release =
            some { u.device with files := u.device.files - 1 } := if_pos ⟨hfiles, hidle⟩
        exact ⟨_, Option.bind_eq_some_iff.mpr ⟨u, hoff, drive_of_step hrelease⟩⟩
      · exact ⟨_, rfl⟩
    · exact ⟨_, rfl⟩
  | initCapture | startCapture | select | dequeue | testAndSet | convert | answer => exact ⟨_, rfl⟩

/-- The thread at a place has ended with the lights open. -/
def Abandoned (i : Nat) (s : State) : Prop :=
  ∃ t, s.threads[i]? = some t ∧ t.led = true ∧ t.camera.pc = .finished

/-- Other places keep their threads. -/
theorem getElem?_thread (hf : Follows g s) {i j : Nat} (hij : i ≠ j) {t t' : Thread} {e : Step}
    {luxRead : Option Nat} {opens : Bool} (h : s.thread i t t' luxRead opens e = some s') :
    s'.threads[j]? = s.threads[j]? := by
  have hset : ∀ {u : State} {x : Thread}, u.threads = s.threads →
      (u.setThread i x).threads[j]? = s.threads[j]? := by
    intro u x hu
    show (u.threads.set i x)[j]? = _
    rw [List.getElem?_set_ne hij, hu]
  cases e with
  | initBH1750 ok =>
    simp only [State.thread] at h
    split_ifs at h
    · obtain ⟨u, hdrive, rfl⟩ := Option.map_eq_some_iff.mp h
      obtain ⟨device, -, rfl⟩ := drive_eq_some hdrive
      exact hset rfl
    · obtain rfl := Option.some.inj h
      exact hset rfl
  | takePending =>
    obtain ⟨u, hcontrol, rfl⟩ := Option.map_eq_some_iff.mp h
    exact hset (controlLights_spec hf hcontrol).1.threads
  | finish =>
    simp only [State.thread] at h
    split_ifs at h
    · obtain ⟨u, hclose, rfl⟩ := Option.map_eq_some_iff.mp h
      exact hset (closeBH1750_spec hf hclose).1.threads
    · obtain rfl := Option.some.inj h
      exact hset rfl
  | answer =>
    obtain rfl := Option.some.inj h
    exact hset (beside_captured hf t).threads
  | initCapture | startCapture | select | dequeue | testAndSet | convert =>
    obtain rfl := Option.some.inj h
    exact hset rfl

theorem threads_other {e : DevTest.Event} (h : s.other e = some s') : s'.threads = s.threads := by
  have hdrive : ∀ {u : State}, s.drive e = some u → u.threads = s.threads := by
    intro u hu
    obtain ⟨device, -, rfl⟩ := drive_eq_some hu
    rfl
  cases e with
  | openDevice =>
    obtain ⟨u, hu, rfl⟩ := Option.map_eq_some_iff.mp h
    exact (hdrive hu : u.threads = s.threads)
  | release =>
    simp only [State.other] at h
    split_ifs at h
    obtain ⟨u, hu, rfl⟩ := Option.map_eq_some_iff.mp h
    exact (hdrive hu : u.threads = s.threads)
  | ioctl =>
    simp only [State.other] at h
    split_ifs at h
    exact hdrive h
  | registerChrdevRegion | cdevAdd | ioremap | ledInit | requestIrq | initDone | rmmod | freeIrq
  | iounmap | cdevDel | unregister | proceed | staleCall => exact hdrive h

theorem abandoned_touch {i j : Nat} (ha : Abandoned i s) {f : Thread → Thread}
    (hf : ∀ t, Thread.Same t (f t)) (h : s.touch j f = some s') : Abandoned i s' := by
  obtain ⟨t, hthread, hled, hpc⟩ := ha
  obtain ⟨x, hx, rfl⟩ := Option.map_eq_some_iff.mp h
  by_cases hij : j = i
  · subst hij
    obtain rfl := Option.some.inj (hx.symm.trans hthread)
    obtain ⟨hlt, -⟩ := List.getElem?_eq_some_iff.mp hthread
    exact ⟨f x, List.getElem?_set_self hlt, (hf x).led.trans hled, (hf x).pc.trans hpc⟩
  · exact ⟨t, (List.getElem?_set_ne hij).trans hthread, hled, hpc⟩

theorem abandoned_step (hi : Inv g s) {i : Nat} (ha : Abandoned i s) {e : Event}
    (h : s.step e = some s') : Abandoned i s' := by
  obtain ⟨t, hthread, hled, hpc⟩ := id ha
  cases e with
  | start =>
    obtain ⟨-, rfl⟩ := Machine.guarded_eq_some h
    exact ⟨t, List.getElem?_append_left (List.getElem?_eq_some_iff.mp hthread).1 ▸ hthread,
      hled, hpc⟩
  | thread j e luxRead opens =>
    obtain ⟨x, hx, hrest⟩ := Option.bind_eq_some_iff.mp h
    obtain ⟨x', hnext, hrest⟩ := Option.bind_eq_some_iff.mp hrest
    have hij : j ≠ i := by
      rintro rfl
      obtain rfl := Option.some.inj (hx.symm.trans hthread)
      cases (Thread.next_finished hpc e).symm.trans hnext
    exact ⟨t, (getElem?_thread hi.follows hij hrest).trans hthread, hled, hpc⟩
  | stop j => exact abandoned_touch ha Thread.same_stop h
  | requestCapture j savePath => exact abandoned_touch ha (Thread.same_requestCapture savePath) h
  | frameReady j => exact abandoned_touch ha Thread.same_frameReady h
  | device e => exact ⟨t, by rw [threads_other h, hthread], hled, hpc⟩

/-- **The driver that cannot be unloaded.** Nobody opens the lights before their driver is
    loaded. Then a thread that has ended with the lights open had a camera that did not start;
    and from then on the driver stays loaded while the application runs, however often somebody
    tries to unload it. -/
theorem never_unloaded {g : DevTest.Gpio} {es es' : List Event} {s s' : State}
    (hrun : Machine.run step { device := { gpio := g } } es = some s)
    (hopens : Machine.Along step OpensLoaded { device := { gpio := g } } es)
    {i : Nat} {t : Thread} (hthread : s.threads[i]? = some t) (hled : t.led = true)
    (hpc : t.camera.pc = .finished) (hrest : Machine.run step s es' = some s')
    (hopens' : Machine.Along step OpensLoaded s es') :
    t.streamed = false ∧ s'.device.phase = .loaded ∧ s'.step (.device .rmmod) = none := by
  have hi : Inv g s := inv_run hrun hopens
  obtain ⟨hi', x, hx, hopen, -⟩ : Inv g s' ∧ Abandoned i s' := by
    refine Machine.run_invariant_along (I := fun s => Inv g s ∧ Abandoned i s) ?_
      ⟨hi, t, hthread, hled, hpc⟩ hopens' hrest
    rintro s e s' ⟨hi, ha⟩ hopens h
    exact ⟨inv_step hi hopens h, abandoned_step hi ha h⟩
  have hfiles := hi'.files_pos (List.mem_of_getElem? hx) hopen
  refine ⟨?_, hi'.follows.orderly.loaded hfiles, ?_⟩
  · have hsound := hi.sound t (List.mem_of_getElem? hthread)
    by_contra hstreamed
    cases hled.symm.trans (hsound.finished hpc (by simpa using hstreamed))
  · have hrefused : s'.device.step .rmmod = none := if_neg fun h => by omega
    show s'.drive .rmmod = none
    rw [State.drive, hrefused]
    rfl

/-- The thread finds its sensor and no camera. -/
def noCamera : List Event :=
  [.device (.registerChrdevRegion true), .device (.cdevAdd true), .device (.ioremap true),
    .device .ledInit, .device (.requestIrq true), .device .initDone, .start,
    .thread 0 (.initBH1750 true) none true, .thread 0 (.initCapture false) none false,
    .thread 0 .finish none false]

/-- What is left of it. -/
def abandoned : Thread :=
  { camera := { pc := .finished, lightSensor := true }, led := true }

theorem never_unloaded_noCamera : ∃ s s',
    Machine.run step { device := { gpio := ⟨0, 0⟩ } } noCamera = some s ∧
      Machine.run step s [.start] = some s' ∧ s'.step (.device .rmmod) = none := by
  obtain ⟨s, hrun, hthread, s', hrest, hopens⟩ :
      ∃ s ∈ Machine.run step { device := { gpio := ⟨0, 0⟩ } } noCamera,
        s.threads[0]? = some abandoned ∧ ∃ s' ∈ Machine.run step s [.start],
          Machine.Along step OpensLoaded s [.start] := by
    decide
  refine ⟨s, s', hrun, hrest, ?_⟩
  exact (never_unloaded hrun (by decide +kernel) hthread rfl rfl hrest hopens).2.2

end State

end AlarmClock.LightControl
