import AlarmClock.GameProgress
import AlarmClock.MainWindow

/-!
# The dismiss dialog

One dialog for every alarm: the constructor chooses what is inside by the mode, and in game
mode by the game. The alarm clock waits for the dialog, and the dialogs that are meant to
wake somebody up do not let themselves be closed. So each of them has to have an end that
can be reached, whatever has been pressed, missed or waited for before; the exception is a
dialog that has lost its camera.
-/

namespace AlarmClock

namespace DismissDialog

/-- The dialog with one button. -/
structure Simple where
  actionTimer : Nat
  accepted : Bool := false
deriving DecidableEq, Repr

/-- The slot of the button. -/
def Simple.dismissBtn (now : Nat) (d : Simple) : Simple :=
  if now - d.actionTimer < 300 then d else { d with actionTimer := now, accepted := true }

/-- What a mode builds, with the members that it uses. -/
inductive Ui where
  | simple (d : Simple)
  | numberOrder (d : NumberOrder.DismissDialog)
  | colorMemory (d : ColorMemory.DismissDialog)
  | ultrasonic (g : UltrasonicGame.Game)
  | button (d : ButtonGame)
  | camera (s : CameraSystem)

/-- What the constructor draws, each where its mode asks for it. -/
structure Draws where
  grid : (i : Nat) → Fin (i + 1)
  colors : Nat → Fin 4
  third : Fin 4
  second : Fin 3
  first : Fin 2
  target : Int
  drawn : GameEngine.TARGET_MIN ≤ target ∧ target ≤ GameEngine.TARGET_MAX

instance : Inhabited Draws where
  default :=
    { grid := fun i => ⟨0, i.succ_pos⟩
      colors := fun _ => ⟨0, Nat.succ_pos 3⟩
      third := ⟨0, Nat.succ_pos 3⟩
      second := ⟨0, Nat.succ_pos 2⟩
      first := ⟨0, Nat.succ_pos 1⟩
      target := GameEngine.TARGET_MIN
      drawn := ⟨Int.le_refl _, by simp [GameEngine.TARGET_MIN, GameEngine.TARGET_MAX]⟩ }

def buildGameUi (gameType : GameType) (now : Nat) (draws : Draws) : Option Ui :=
  match gameType with
  | .Ultrasonic =>
    (UltrasonicGame.buildUltrasonicUi
      (UltrasonicGame.shuffled draws.third draws.second draws.first)).map
        fun d => .ultrasonic ⟨d, now⟩
  | .ColorMemory => (ColorMemory.buildColorMemoryGameUi now draws.colors).map .colorMemory
  | .NumberOrder => some (.numberOrder (NumberOrder.buildNumberOrderGameUi now draws.grid))

def buildUi (mode : Mode) (gameType : GameType) (alarmId : Int) (now : Nat) (draws : Draws) :
    Option Ui :=
  match mode with
  | .Simple => some (.simple { actionTimer := now })
  | .Game => buildGameUi gameType now draws
  | .Camera => some (.camera (CameraSystem.buildCameraUi alarmId))
  | .Button => some (.button (ButtonGame.buildButtonUi draws.target))

/-- `QDialog::DialogCode` -/
inductive DialogCode where
  | Rejected
  | Accepted
deriving DecidableEq, Repr

/-- What reaches a dialog. `expire` is a single-shot timer of one of the games on the screen,
    the timeouts are those of the button game, `thread` and `deliver` belong to the camera. -/
inductive Input where
  | closeEvent
  | reject
  | clicked
  | numberClicked (pos : Nat)
  | colorClicked (colorIndex : Fin 4)
  | expire (i : Nat) (draws : Nat → Fin 4)
  | distances (distances : List Int)
  | buttonPressed
  | countdownTick
  | successTimeout
  | acceptTimeout
  | restartTimeout (target : Int)
  | thread (e : AlarmCameraThread.Step)
  | deliver

structure Event where
  now : Nat
  input : Input

/-- What is inside handles what is connected to it. A press of the physical button is connected
    to the button game and to the camera, and is not noticed anywhere else. -/
def Ui.step (home : QString) (now : Nat) : Ui → Input → Option Ui
  | .simple d, .clicked => some (.simple (d.dismissBtn now))
  | .numberOrder d, .numberClicked pos =>
    (NumberOrder.step d (.click now pos)).map .numberOrder
  | .numberOrder d, .expire i _ => (NumberOrder.step d (.expire i)).map .numberOrder
  | .colorMemory d, .colorClicked c => (ColorMemory.step d (.click now c)).map .colorMemory
  | .colorMemory d, .expire i draws => (ColorMemory.step d (.expire i draws)).map .colorMemory
  | .ultrasonic g, .distances distances =>
    (UltrasonicGame.step g ⟨now - g.clock, distances⟩).map .ultrasonic
  | .button d, .buttonPressed => (ButtonGame.step d .buttonPressed).map .button
  | .button d, .countdownTick => (ButtonGame.step d .countdownTick).map .button
  | .button d, .successTimeout => (ButtonGame.step d .successTimeout).map .button
  | .button d, .acceptTimeout => (ButtonGame.step d .acceptTimeout).map .button
  | .button d, .restartTimeout target => (ButtonGame.step d (.restartTimeout target)).map .button
  | .camera s, .buttonPressed => (CameraSystem.step home s (.press now)).map .camera
  | .camera s, .thread e => (CameraSystem.step home s (.thread e)).map .camera
  | .camera s, .deliver => (CameraSystem.step home s .deliver).map .camera
  | ui, .buttonPressed => some ui
  | _, _ => none

/-- `accept` has been called. -/
def Ui.accepted : Ui → Bool
  | .simple d => d.accepted
  | .numberOrder d => d.accepted ≠ 0
  | .colorMemory d => d.accepted ≠ 0
  | .ultrasonic g => g.dialog.accepted ≠ 0
  | .button d => d.accepted
  | .camera s => s.dialog.accepted

end DismissDialog

open DismissDialog in
/-- The dialog, with the time and with what `exec` has returned. -/
structure DismissDialog where
  mode : Mode
  alarmId : Int
  ui : Ui
  clock : Nat
  result : Option DialogCode := none

namespace DismissDialog

/-- The constructor. -/
def build (mode : Mode) (gameType : GameType) (alarmId : Int) (now : Nat) (draws : Draws) :
    Option DismissDialog :=
  (buildUi mode gameType alarmId now draws).map fun ui =>
    { mode := mode, alarmId := alarmId, ui := ui, clock := now }

/-- An event that is accepted hides the dialog, and that ends `exec`. -/
def closeEvent (d : DismissDialog) : DismissDialog :=
  if d.mode = .Game ∨ d.mode = .Button ∨ d.mode = .Camera then d
  else { d with result := some .Rejected }

def reject (d : DismissDialog) : DismissDialog :=
  if d.mode = .Game ∨ d.mode = .Button ∨ d.mode = .Camera then d
  else { d with result := some .Rejected }

/-- A dialog whose `exec` has returned is gone. -/
def step (home : QString) (d : DismissDialog) (e : Event) : Option DismissDialog :=
  if d.result = none ∧ d.clock ≤ e.now then
    let d := { d with clock := e.now }
    match e.input with
    | .closeEvent => some d.closeEvent
    | .reject => some d.reject
    | input => (d.ui.step home e.now input).map fun ui =>
      { d with ui := ui, result := if ui.accepted then some .Accepted else none }
  else none

def capturedPhotoPath (d : DismissDialog) : QString :=
  match d.ui with
  | .camera s => s.dialog.capturedPhotoPath
  | _ => []

/-! ### What each mode keeps -/

/-- What is inside belongs to the mode, and keeps what its own machine keeps. -/
inductive Ui.Inv : Mode → Ui → Prop where
  | simple (d : Simple) : Ui.Inv .Simple (.simple d)
  | numberOrder (d : NumberOrder.DismissDialog) (h : NumberOrder.Inv d) :
      Ui.Inv .Game (.numberOrder d)
  | colorMemory (d : ColorMemory.DismissDialog) (h : ColorMemory.Inv d) :
      Ui.Inv .Game (.colorMemory d)
  | ultrasonic (g : UltrasonicGame.Game) (hok : g.dialog.Ok) (hends : g.dialog.phase.Ends) :
      Ui.Inv .Game (.ultrasonic g)
  | button (d : ButtonGame) (h : d.Inv) : Ui.Inv .Button (.button d)
  | camera (s : CameraSystem) (j : CaptureRequests.Journal) (h : CaptureRequests.Books s j) :
      Ui.Inv .Camera (.camera s)

variable {home : QString} {mode : Mode} {ui ui' : Ui} {now : Nat} {input : Input}

/-- An input is a step of what is inside, or is not noticed there. -/
inductive Ui.StepTo (home : QString) : Ui → Ui → Prop where
  | simple (now : Nat) (d : Simple) : StepTo home (.simple d) (.simple (d.dismissBtn now))
  | numberOrder {d d' : NumberOrder.DismissDialog} {e : NumberOrder.Event}
      (h : NumberOrder.step d e = some d') : StepTo home (.numberOrder d) (.numberOrder d')
  | colorMemory {d d' : ColorMemory.DismissDialog} {e : ColorMemory.Event}
      (h : ColorMemory.step d e = some d') : StepTo home (.colorMemory d) (.colorMemory d')
  | ultrasonic {g g' : UltrasonicGame.Game} {r : UltrasonicGame.Reading}
      (h : UltrasonicGame.step g r = some g') : StepTo home (.ultrasonic g) (.ultrasonic g')
  | button {d d' : ButtonGame} {e : ButtonGame.Event} (h : ButtonGame.step d e = some d') :
      StepTo home (.button d) (.button d')
  | camera {s s' : CameraSystem} {e : CameraSystem.Event}
      (h : CameraSystem.step home s e = some s') : StepTo home (.camera s) (.camera s')
  | unnoticed (ui : Ui) : StepTo home ui ui

theorem stepTo_of_map {α : Type} {next : Option α} {inside : α → Ui}
    (h : next.map inside = some ui') (hto : ∀ a, next = some a → ui.StepTo home (inside a)) :
    ui.StepTo home ui' := by
  obtain ⟨a, ha, rfl⟩ := Option.map_eq_some_iff.mp h
  exact hto a ha

theorem Ui.step_cases (hstep : ui.step home now input = some ui') : ui.StepTo home ui' := by
  unfold Ui.step at hstep
  split at hstep
  · cases hstep
    exact .simple _ _
  · exact stepTo_of_map hstep fun _ => .numberOrder
  · exact stepTo_of_map hstep fun _ => .numberOrder
  · exact stepTo_of_map hstep fun _ => .colorMemory
  · exact stepTo_of_map hstep fun _ => .colorMemory
  · exact stepTo_of_map hstep fun _ => .ultrasonic
  · exact stepTo_of_map hstep fun _ => .button
  · exact stepTo_of_map hstep fun _ => .button
  · exact stepTo_of_map hstep fun _ => .button
  · exact stepTo_of_map hstep fun _ => .button
  · exact stepTo_of_map hstep fun _ => .button
  · exact stepTo_of_map hstep fun _ => .camera
  · exact stepTo_of_map hstep fun _ => .camera
  · exact stepTo_of_map hstep fun _ => .camera
  · cases hstep
    exact .unnoticed ui
  · cases hstep

theorem Ui.Inv.next (h : Inv mode ui) (hto : ui.StepTo home ui') : Inv mode ui' := by
  cases hto with
  | simple now d =>
    cases h
    exact .simple _
  | numberOrder hd =>
    cases h with | numberOrder _ h => exact .numberOrder _ (NumberOrder.inv_step h hd)
  | colorMemory hd =>
    cases h with | colorMemory _ h => exact .colorMemory _ (ColorMemory.inv_step h hd)
  | ultrasonic hg =>
    cases h with
    | ultrasonic g hok hends =>
      obtain ⟨d', hd', rfl⟩ := Option.map_eq_some_iff.mp hg
      obtain ⟨d, hd, hok', -, hphase⟩ := UltrasonicGame.onUltrasonicDistances_spec hok _ _
      obtain rfl := Option.some.inj (hd.symm.trans hd')
      refine .ultrasonic _ hok' ?_
      rw [hphase]
      exact UltrasonicGame.Phase.ends_next hends _ _
  | button hd =>
    cases h with | button _ h => exact .button _ (ButtonGame.inv_step h hd)
  | camera hs =>
    cases h with
    | camera _ j h => exact .camera _ _ (CaptureRequests.books_step h hs)
  | unnoticed => exact h

theorem inv_buildUi (mode : Mode) (gameType : GameType) (alarmId : Int)
    (now : Nat) (draws : Draws) :
    ∃ ui, buildUi mode gameType alarmId now draws = some ui ∧ Ui.Inv mode ui ∧
      ui.accepted = false := by
  cases mode with
  | Simple => exact ⟨_, rfl, .simple _, rfl⟩
  | Button =>
    have hinv := (ButtonGame.inv_build draws.drawn.1).1
    have hplaying := (ButtonGame.inv_build draws.drawn.1).2.state
    exact ⟨_, rfl, .button _ hinv, (hinv.timed.playing hplaying).2⟩
  | Camera => exact ⟨_, rfl, .camera _ {} (CaptureRequests.books_buildCameraUi alarmId), rfl⟩
  | Game =>
    cases gameType with
    | NumberOrder =>
      exact ⟨_, rfl, .numberOrder _ (NumberOrder.inv_gameOn now (NumberOrder.shuffle_perm _)), rfl⟩
    | ColorMemory =>
      obtain ⟨d, hd, hinv, hnoted⟩ := ColorMemory.buildColorMemoryGameUi_spec now draws.colors
      refine ⟨.colorMemory d, ?_, .colorMemory d hinv, ?_⟩
      · simp only [buildUi, buildGameUi, hd, Option.map_some]
      · have hround : d.colorRound = 0 := hnoted.rounds.symm
        have haccepted := (ColorMemory.accepted_of_inv hinv).2
        rw [hround] at haccepted
        simp [Ui.accepted, haccepted]
    | Ultrasonic =>
      obtain ⟨g, hg, hshows⟩ := UltrasonicGame.play_shows
        (UltrasonicGame.shuffled draws.third draws.second draws.first) [] (Nat.le_refl 0)
      obtain ⟨d, hd, hrun⟩ := Option.bind_eq_some_iff.mp hg
      obtain rfl := Option.some.inj hrun
      have hphase : d.phase = ⟨0, false, false, 0, 0⟩ := hshows.phase
      have haccepted : d.accepted = 0 := congrArg UltrasonicGame.Phase.accepted hphase
      refine ⟨.ultrasonic ⟨d, now⟩, ?_, .ultrasonic _ hshows.ok ?_, ?_⟩
      · simp only [buildUi, buildGameUi, hd, Option.map_some]
      · rw [hphase]
        exact .inl (Nat.zero_lt_succ 3)
      · simp [Ui.accepted, haccepted]

/-! ### What is inside can be finished -/

/-- A dialog that has lost its camera. -/
def Ui.Lost : Ui → Prop
  | .camera s => s.Lost
  | _ => False

def isSaved : AlarmCameraThread.Signal → Bool
  | .captureSaved _ ok _ => ok
  | _ => false

instance (queue : List AlarmCameraThread.Signal) : Decidable (CameraSystem.Saved queue) :=
  decidable_of_iff (queue.any isSaved = true) (by
    simp only [List.any_eq_true, CameraSystem.Saved]
    constructor
    · rintro ⟨signal, hmem, hsaved⟩
      cases signal with
      | captureSaved path ok errorText =>
        obtain rfl : ok = true := hsaved
        exact ⟨path, errorText, hmem⟩
      | _ => cases hsaved
    · rintro ⟨path, errorText, hmem⟩
      exact ⟨_, hmem, rfl⟩)

instance : DecidablePred Ui.Lost
  | .camera s => inferInstanceAs (Decidable
      ((s.thread.pc = .leaving ∨ s.thread.pc = .finished) ∧
        ¬ (s.dialog.accepted = true ∨ CameraSystem.Saved s.queue)))
  | .simple _ | .numberOrder _ | .colorMemory _ | .ultrasonic _ | .button _ => .isFalse id

/-- The inputs that mean to finish: they do not close the dialog, and the camera works. -/
def Helpful : Input → Prop
  | .closeEvent => False
  | .reject => False
  | .thread e => ¬ CameraSystem.GivesUp (.thread e)
  | _ => True

/-- The steps to the end. -/
def Ui.toEnd : Ui → Nat
  | .simple _ => 0
  | .numberOrder d => 26 - d.nextExpected
  | .colorMemory d => ColorMemory.toEnd d
  | .ultrasonic g => g.dialog.phase.toEnd
  | .button d => d.toEnd
  | .camera s => CaptureRequests.toEnd s

/-- Some input leads on, and may come as late as one likes. -/
def Ui.LeadsOn (home : QString) (ui : Ui) : Prop :=
  ∀ t, ∃ now input ui', t ≤ now ∧ Helpful input ∧ ui.step home now input = some ui' ∧
    ¬ ui'.Lost ∧ (ui'.accepted = true ∨ ui'.toEnd < ui.toEnd)

theorem leadsOn_simple (home : QString) (d : Simple) : (Ui.simple d).LeadsOn home := by
  intro t
  refine ⟨max t (d.actionTimer + 300), .clicked, _, Nat.le_max_left _ _, trivial, rfl, id, .inl ?_⟩
  have hdebounce : ¬ max t (d.actionTimer + 300) - d.actionTimer < 300 := by omega
  simp only [Ui.accepted, Simple.dismissBtn, if_neg hdebounce]

theorem leadsOn_numberOrder (home : QString) {d : NumberOrder.DismissDialog}
    (h : NumberOrder.Inv d) (hopen : d.accepted = 0) : (Ui.numberOrder d).LeadsOn home := by
  intro t
  obtain ⟨now, pos, d', ht, hstep, hleads⟩ := NumberOrder.progress h hopen t
  refine ⟨now, .numberClicked pos, .numberOrder d', ht, trivial, ?_, id, ?_⟩
  · simp only [Ui.step, hstep, Option.map_some]
  · exact hleads.imp_left fun haccepted => by simpa [Ui.accepted] using haccepted

theorem leadsOn_colorMemory (home : QString) {d : ColorMemory.DismissDialog}
    (h : ColorMemory.Inv d) (hopen : d.accepted = 0) : (Ui.colorMemory d).LeadsOn home := by
  intro t
  cases htimers : d.timers with
  | nil =>
    obtain ⟨now, c, d', ht, hstep, hleads⟩ := ColorMemory.progress_click h htimers hopen t
    refine ⟨now, .colorClicked c, .colorMemory d', ht, trivial, ?_, id, ?_⟩
    · simp only [Ui.step, hstep, Option.map_some]
    · exact hleads.imp_left fun haccepted => by simpa [Ui.accepted] using haccepted
  | cons timer timers =>
    have hone : d.timers = [timer] := by
      have hle := (ColorMemory.timers_of_inv h).1
      rw [htimers, List.length_cons] at hle
      rw [htimers, List.eq_nil_of_length_eq_zero (Nat.le_zero.mp (Nat.le_of_succ_le_succ hle))]
    obtain ⟨d', hstep, hlt⟩ := ColorMemory.progress_expire h hone
    refine ⟨t, .expire 0 fun _ => 0, .colorMemory d', Nat.le_refl t, trivial, ?_, id, .inr hlt⟩
    simp only [Ui.step, hstep, Option.map_some]

theorem leadsOn_ultrasonic (home : QString) {g : UltrasonicGame.Game} (hok : g.dialog.Ok)
    (hends : g.dialog.phase.Ends) (hopen : g.dialog.accepted = 0) :
    (Ui.ultrasonic g).LeadsOn home := by
  intro t
  have hlt : g.dialog.phase.step < 4 := hends.resolve_right (not_not.mpr hopen)
  obtain ⟨now, cm, ht, hleads⟩ := UltrasonicGame.Phase.progress g.dialog.usSeq.target hlt
    (max t g.clock)
  obtain ⟨d', hd', -, -, hphase⟩ :=
    UltrasonicGame.onUltrasonicDistances_spec hok now (List.replicate 4 cm)
  have hnow : g.clock + (now - g.clock) = now :=
    Nat.add_sub_cancel' ((Nat.le_max_right _ _).trans ht)
  refine ⟨now, .distances (List.replicate 4 cm), .ultrasonic ⟨d', now⟩,
    (Nat.le_max_left _ _).trans ht, trivial, ?_, id, ?_⟩
  · simp only [Ui.step, UltrasonicGame.step, hnow, hd', Option.map_some]
  · have hdist : UltrasonicGame.distance (List.replicate 4 cm)
        (g.dialog.usSeq.target g.dialog.phase.step) = cm := by
      rw [UltrasonicGame.distance, List.getElem?_replicate,
        if_pos (g.dialog.usSeq.target_lt hlt), Option.getD_some]
    rcases hleads _ hdist with haccepted | hlt'
    · rw [← hphase] at haccepted
      exact .inl (by simpa [Ui.accepted, UltrasonicGame.DismissDialog.phase] using haccepted)
    · rw [← hphase] at hlt'
      exact .inr hlt'

theorem leadsOn_button (home : QString) {d : ButtonGame} (h : d.Inv) (hopen : d.accepted = false) :
    (Ui.button d).LeadsOn home := by
  intro t
  obtain ⟨e, d', hstep, hne, hleads⟩ := h.progress hopen
  obtain ⟨input, hhelpful, hinput⟩ : ∃ input, Helpful input ∧
      (Ui.button d).step home t input = (ButtonGame.step d e).map .button := by
    cases e with
    | buttonPressed => exact ⟨.buttonPressed, trivial, rfl⟩
    | countdownTick => exact ⟨.countdownTick, trivial, rfl⟩
    | successTimeout => exact ⟨.successTimeout, trivial, rfl⟩
    | acceptTimeout => exact ⟨.acceptTimeout, trivial, rfl⟩
    | restartTimeout target => exact ⟨.restartTimeout target, trivial, rfl⟩
    | closeEvent => exact absurd rfl hne
  refine ⟨t, input, .button d', Nat.le_refl t, hhelpful, ?_, id, hleads⟩
  rw [hinput, hstep, Option.map_some]

theorem leadsOn_camera (home : QString) {s : CameraSystem} {j : CaptureRequests.Journal}
    (h : CaptureRequests.Books s j) (hopen : s.dialog.accepted = false)
    (hlost : ¬ s.Lost) : (Ui.camera s).LeadsOn home := by
  intro t
  obtain ⟨e, s', he, hstays, hstep, hleads⟩ := CaptureRequests.progress home h hopen
    hlost t
  obtain ⟨input, hhelpful, hinput⟩ : ∃ input, Helpful input ∧
      (Ui.camera s).step home t input = (CameraSystem.step home s e).map .camera := by
    rcases he with rfl | rfl | ⟨e', rfl⟩
    · exact ⟨.buttonPressed, trivial, rfl⟩
    · exact ⟨.deliver, trivial, rfl⟩
    · exact ⟨.thread e', hstays, rfl⟩
  have hkept : CameraSystem.Gone s'.thread → CameraSystem.Answered s' :=
    CameraSystem.answered_of_gone_step h.camera
      (fun hgone => by_contra fun hnot => hlost ⟨hgone, hnot⟩) (fun hgives => absurd hgives hstays)
      hstep
  refine ⟨t, input, .camera s', Nat.le_refl t, hhelpful, ?_, fun hl => hl.2 (hkept hl.1), hleads⟩
  rw [hinput, hstep, Option.map_some]

/-- **What is inside can be finished**, unless it has lost its camera. -/
theorem Ui.Inv.leadsOn (h : Ui.Inv mode ui) (hopen : ui.accepted = false)
    (hlost : ¬ ui.Lost) : ui.LeadsOn home := by
  cases h with
  | simple d => exact leadsOn_simple home d
  | numberOrder d h => exact leadsOn_numberOrder home h (by simpa [Ui.accepted] using hopen)
  | colorMemory d h => exact leadsOn_colorMemory home h (by simpa [Ui.accepted] using hopen)
  | ultrasonic g hok hends =>
    exact leadsOn_ultrasonic home hok hends (by simpa [Ui.accepted] using hopen)
  | button d h => exact leadsOn_button home h hopen
  | camera s j h => exact leadsOn_camera home h hopen hlost

/-! ### The dialog -/

variable {d d' : DismissDialog} {e : Event}

structure Inv (d : DismissDialog) : Prop where
  ui : d.ui.Inv d.mode
  accepted : d.result = some .Accepted ↔ d.ui.accepted = true
  rejected : d.result = some .Rejected → d.mode = .Simple

/-- Every step, with what it finds. -/
inductive StepTo (home : QString) (d : DismissDialog) (e : Event) : DismissDialog → Prop where
  | ignored (hinput : e.input = .closeEvent ∨ e.input = .reject) (hmode : d.mode ≠ .Simple) :
      StepTo home d e { d with clock := e.now }
  | rejected (hinput : e.input = .closeEvent ∨ e.input = .reject) (hmode : d.mode = .Simple) :
      StepTo home d e { d with clock := e.now, result := some .Rejected }
  | handled (ui : Ui) (hui : d.ui.step home e.now e.input = some ui) :
      StepTo home d e
        { d with
          clock := e.now
          ui := ui
          result := if ui.accepted then some .Accepted else none }

theorem mode_ne_simple {mode : Mode} :
    mode = .Game ∨ mode = .Button ∨ mode = .Camera ↔ mode ≠ .Simple := by
  cases mode <;> decide

theorem step_cases (h : step home d e = some d') :
    d.result = none ∧ d.clock ≤ e.now ∧ StepTo home d e d' := by
  unfold step at h
  split at h
  · next hguard =>
    refine ⟨hguard.1, hguard.2, ?_⟩
    -- the two ways to close it are one
    have hclose : (e.input = .closeEvent ∨ e.input = .reject) → StepTo home d e
        (if d.mode = .Game ∨ d.mode = .Button ∨ d.mode = .Camera then { d with clock := e.now }
        else { d with clock := e.now, result := some .Rejected }) := by
      intro hinput
      split
      · next hmode => exact .ignored hinput (mode_ne_simple.mp hmode)
      · next hmode => exact .rejected hinput (not_not.mp (mt mode_ne_simple.mpr hmode))
    dsimp only at h
    split at h
    · next hinput =>
      cases h
      exact hclose (.inl hinput)
    · next hinput =>
      cases h
      exact hclose (.inr hinput)
    · obtain ⟨ui, hui, rfl⟩ := Option.map_eq_some_iff.mp h
      exact .handled ui hui
  · cases h

theorem inv_step (hd : Inv d) (h : step home d e = some d') : Inv d' := by
  obtain ⟨hopen, -, hto⟩ := step_cases h
  cases hto with
  | ignored => exact ⟨hd.ui, hd.accepted, hd.rejected⟩
  | rejected _ hmode =>
    refine ⟨hd.ui, ?_, fun _ => hmode⟩
    rw [← hd.accepted, hopen]
    simp
  | handled ui hui =>
    refine ⟨hd.ui.next (Ui.step_cases hui), ?_, ?_⟩
    · dsimp only
      cases ui.accepted <;> simp
    · dsimp only
      cases ui.accepted <;> simp

/-- Where what is inside takes an input, the dialog does. -/
theorem step_of_ui {now : Nat} {input : Input} {ui : Ui} (hopen : d.result = none)
    (hclock : d.clock ≤ now) (hui : d.ui.step home now input = some ui) :
    step home d ⟨now, input⟩ = some { d with
      clock := now
      ui := ui
      result := if ui.accepted then some .Accepted else none } := by
  unfold step
  rw [if_pos ⟨hopen, hclock⟩]
  cases input with
  | closeEvent => cases hd : d.ui <;> simp [Ui.step, hd] at hui
  | reject => cases hd : d.ui <;> simp [Ui.step, hd] at hui
  | _ => simp only [hui, Option.map_some]

/-- The events that mean to finish, from some time on. -/
def FinishFrom (t : Nat) (e : Event) : Prop := t ≤ e.now ∧ Helpful e.input

/-- **An open dialog can be accepted**, unless it has lost its camera. -/
theorem Inv.leads (hd : Inv d) (hopen : d.result = none) (hlost : ¬ d.ui.Lost) (t : Nat) :
    ∃ d', Machine.Leads (step home) (FinishFrom t) d d' ∧ d'.result = some .Accepted := by
  refine Machine.leads_of_rank (P := fun d => Inv d ∧ d.result = none ∧ ¬ d.ui.Lost)
    (fun d => d.ui.toEnd) ?_ ⟨hd, hopen, hlost⟩
  rintro d ⟨hd, hopen, hlost⟩
  have hnone : d.ui.accepted = false := by
    have haccepted := hd.accepted
    rw [hopen] at haccepted
    simpa using haccepted
  obtain ⟨now, input, ui, hnow, hhelpful, hui, hlost', hleads⟩ :=
    hd.ui.leadsOn hnone hlost (max t d.clock)
  have ht : t ≤ now := (Nat.le_max_left _ _).trans hnow
  have hstep := step_of_ui hopen ((Nat.le_max_right _ _).trans hnow) hui
  refine ⟨⟨now, input⟩, _, ⟨ht, hhelpful⟩, hstep, ?_⟩
  have hinv := inv_step hd hstep
  by_cases haccepted : ui.accepted = true
  · exact .inl (if_pos haccepted)
  · exact .inr ⟨⟨hinv, if_neg haccepted, hlost'⟩, hleads.resolve_left haccepted⟩

/-- The dialog has lost its camera and is open. -/
structure Stuck (d : DismissDialog) : Prop where
  inv : Inv d
  lost : d.ui.Lost
  opened : d.result = none

theorem Ui.Lost.next (h : Inv mode ui) (hlost : ui.Lost) (hto : ui.StepTo home ui') :
    ui'.Lost ∧ ui'.accepted = false := by
  cases hto with
  | camera hs =>
    cases h with
    | camera s j h =>
      have hlost' := CameraSystem.lost_step h.camera hlost hs
      exact ⟨hlost', Bool.eq_false_iff.mpr fun haccepted => hlost'.2 (.inl haccepted)⟩
  | unnoticed =>
    cases h with
    | camera s j h =>
      exact ⟨hlost, Bool.eq_false_iff.mpr fun haccepted => hlost.2 (.inl haccepted)⟩
    | _ => exact absurd hlost id
  | _ => exact absurd hlost id

/-- **A dialog that has lost its camera stays open**, whatever happens to it. -/
theorem stuck_step (hd : Stuck d) (h : step home d e = some d') : Stuck d' := by
  obtain ⟨hopen, -, hto⟩ := step_cases h
  have hinv := inv_step hd.inv h
  cases hto with
  | ignored => exact ⟨hinv, hd.lost, hopen⟩
  | rejected _ hmode =>
    have hui := hd.inv.ui
    have hlost := hd.lost
    rw [hmode] at hui
    generalize d.ui = ui at hui hlost
    cases hui
    exact absurd hlost id
  | handled ui hui =>
    obtain ⟨hlost, hnone⟩ := hd.lost.next hd.inv.ui (Ui.step_cases hui)
    exact ⟨hinv, hlost, by simp [hnone]⟩

theorem inv_build (mode : Mode) (gameType : GameType) (alarmId : Int)
    (now : Nat) (draws : Draws) :
    ∃ d, build mode gameType alarmId now draws = some d ∧ Inv d ∧ d.mode = mode ∧
      d.alarmId = alarmId ∧ d.clock = now := by
  obtain ⟨ui, hui, hinv, hnone⟩ := inv_buildUi mode gameType alarmId now draws
  refine ⟨{ mode := mode, alarmId := alarmId, ui := ui, clock := now }, ?_, ⟨hinv, ?_, ?_⟩,
    rfl, rfl, rfl⟩
  · rw [build, hui, Option.map_some]
  · simp [hnone]
  · simp

theorem mode_step (h : step home d e = some d') : d'.mode = d.mode ∧ d'.alarmId = d.alarmId := by
  cases (step_cases h).2.2 <;> exact ⟨rfl, rfl⟩

/-! ### The photo -/

/-- The time of a press of the physical button. -/
def pressed (e : Event) : List Nat :=
  match e.input with
  | .buttonPressed => [e.now]
  | _ => []

open CameraSystem CaptureRequests in
/-- The photos that were asked for in a camera dialog are those of its alarm, each named for
    the time of one of the presses. -/
def Asked (home : QString) (presses : List Nat) (d : DismissDialog) : Prop :=
  ∀ s, d.ui = .camera s → s.dialog.alarmId = d.alarmId ∧ ∃ j, Books s j ∧
    ∀ path ∈ j.requests, ∃ taken ∈ presses,
      path = photoPath home (QDateTime.currentDateTime taken) { alarmId := d.alarmId }

section Photo

variable {presses : List Nat}

open CameraSystem CaptureRequests

theorem mem_requests_note {s : CameraSystem} {j : Journal} {e : CameraSystem.Event}
    {path : QString} (h : path ∈ (note home s e j).requests) :
    path ∈ j.requests ∨ ∃ now, e = .press now ∧
      path = photoPath home (QDateTime.currentDateTime now) s.dialog := by
  cases e with
  | press now =>
    simp only [note] at h
    split at h
    · exact .inl h
    · rcases List.mem_append.mp h with h | h
      · exact .inl h
      · exact .inr ⟨now, rfl, List.mem_singleton.mp h⟩
  | thread e => exact .inl h
  | deliver => exact .inl h

theorem alarmId_camera {s s' : CameraSystem} {e : CameraSystem.Event}
    (h : CameraSystem.step home s e = some s') : s'.dialog.alarmId = s.dialog.alarmId := by
  cases CameraSystem.step_cases h with
  | deliver signal queue _ =>
    rcases signal with _ | ⟨_, _ | _, _⟩ | _ | _ | _ <;> rfl
  | _ => rfl

/-- What happens to a camera dialog. -/
theorem camera_step {s' : CameraSystem} (h : ui.step home now input = some (.camera s')) :
    ∃ s e, ui = .camera s ∧ CameraSystem.step home s e = some s' ∧
      ∀ t, e = .press t → t = now ∧ input = .buttonPressed := by
  cases ui with
  | camera s =>
    have hsome : ∀ {e : CameraSystem.Event}, (CameraSystem.step home s e).map Ui.camera =
        some (.camera s') → CameraSystem.step home s e = some s' := by
      intro e he
      obtain ⟨s₁, hs₁, heq⟩ := Option.map_eq_some_iff.mp he
      rw [hs₁, Ui.camera.inj heq]
    cases input with
    | buttonPressed =>
      refine ⟨s, .press now, rfl, hsome h, ?_⟩
      intro t ht
      exact ⟨(CameraSystem.Event.press.inj ht).symm, rfl⟩
    | thread e =>
      refine ⟨s, .thread e, rfl, hsome h, ?_⟩
      intro t ht
      cases ht
    | deliver =>
      refine ⟨s, .deliver, rfl, hsome h, ?_⟩
      intro t ht
      cases ht
    | _ => cases h
  | _ => cases Ui.step_cases h

theorem asked_build {mode : Mode} {gameType : GameType} {alarmId : Int} {now : Nat} {draws : Draws}
    {d : DismissDialog} (h : build mode gameType alarmId now draws = some d) :
    Asked home [] d := by
  obtain ⟨d₁, hd₁, hinv, hmode, -⟩ := inv_build mode gameType alarmId now draws
  obtain rfl := Option.some.inj (hd₁.symm.trans h)
  intro s hs
  have hcamera : mode = .Camera := by
    have hui := hinv.ui
    rw [hs, hmode] at hui
    cases hui
    rfl
  subst hcamera
  obtain rfl := Option.some.inj h
  obtain rfl : CameraSystem.buildCameraUi alarmId = s := Ui.camera.inj hs
  exact ⟨rfl, {}, books_buildCameraUi alarmId, List.forall_mem_nil _⟩

theorem asked_step (hd : Asked home presses d) (h : step home d e = some d') :
    Asked home (presses ++ pressed e) d' := by
  obtain ⟨-, -, hto⟩ := step_cases h
  have hmono : ∀ s, d.ui = .camera s → s.dialog.alarmId = d.alarmId ∧ ∃ j, Books s j ∧
      ∀ path ∈ j.requests, ∃ taken ∈ presses ++ pressed e,
        path = photoPath home (QDateTime.currentDateTime taken) { alarmId := d.alarmId } := by
    intro s hs
    obtain ⟨hid, j, hbooks, hpaths⟩ := hd s hs
    refine ⟨hid, j, hbooks, ?_⟩
    intro path hpath
    obtain ⟨taken, htaken, hnamed⟩ := hpaths path hpath
    exact ⟨taken, List.mem_append_left _ htaken, hnamed⟩
  cases hto with
  | ignored => exact hmono
  | rejected => exact hmono
  | handled ui hui =>
    intro s' hs'
    obtain rfl : ui = .camera s' := hs'
    obtain ⟨s, e', hs, hstep, hpress⟩ := camera_step hui
    obtain ⟨hid, j, hbooks, hpaths⟩ := hmono s hs
    refine ⟨(alarmId_camera hstep).trans hid, _, books_step hbooks hstep, ?_⟩
    intro path hpath
    rcases mem_requests_note hpath with hpath | ⟨now, rfl, rfl⟩
    · exact hpaths path hpath
    · obtain ⟨rfl, hinput⟩ := hpress now rfl
      refine ⟨e.now, List.mem_append_right _ ?_, ?_⟩
      · simp [pressed, hinput]
      · rw [← hid]
        rfl

/-- A camera dialog that was accepted has a photo of its alarm that was asked for in it; no
    other dialog has one. -/
theorem Asked.photo (hasked : Asked home presses d) (hd : Inv d) :
    (d.mode ≠ .Camera → d.capturedPhotoPath = []) ∧
      (d.mode = .Camera → d.result = some .Accepted → ∃ taken ∈ presses, d.capturedPhotoPath =
        photoPath home (QDateTime.currentDateTime taken) { alarmId := d.alarmId }) := by
  have hui := hd.ui
  have haccepted := hd.accepted
  unfold Asked at hasked
  unfold capturedPhotoPath
  generalize d.ui = ui at hui haccepted hasked
  generalize d.mode = mode at hui
  cases hui with
  | camera s _ _ =>
    obtain ⟨-, j, hbooks, hpaths⟩ := hasked s rfl
    refine ⟨fun hmode => absurd rfl hmode, fun _ hresult => ?_⟩
    have hlast := (hbooks.accepted_request (haccepted.mp hresult)).1
    exact hpaths _ (List.mem_of_getLast? hlast)
  | _ => exact ⟨fun _ => rfl, fun hmode => by cases hmode⟩

end Photo

/-- **The dismiss dialog**, for every mode, every game, every draw and every run. It is built.
    Only the simple dialog is closed without being accepted. Whatever has happened, an open
    dialog can be accepted, from any time on, by inputs that do not try to close it and with a
    camera that works; unless it has lost its camera, and then nothing ends it. -/
theorem dismiss_dialog (home : QString) (mode : Mode) (gameType : GameType) (alarmId : Int)
    (now : Nat) (draws : Draws) :
    ∃ d₀, build mode gameType alarmId now draws = some d₀ ∧
      ∀ es d, Machine.run (step home) d₀ es = some d →
        (d.result = some .Rejected → mode = .Simple) ∧
        (d.result = none → ¬ d.ui.Lost → ∀ t, ∃ d',
          Machine.Leads (step home) (FinishFrom t) d d' ∧ d'.result = some .Accepted) ∧
        (d.result = none → d.ui.Lost → ∀ later d',
          Machine.run (step home) d later = some d' → d'.result = none) := by
  obtain ⟨d₀, hd₀, hinv₀, hmode₀, -⟩ := inv_build mode gameType alarmId now draws
  refine ⟨d₀, hd₀, ?_⟩
  intro es d hrun
  obtain ⟨hinv, hmode⟩ := Machine.run_invariant (I := fun d => Inv d ∧ d.mode = mode)
    (fun d e d' h hstep => ⟨inv_step h.1 hstep, (mode_step hstep).1.trans h.2⟩)
    ⟨hinv₀, hmode₀⟩ hrun
  refine ⟨fun hrejected => hmode ▸ hinv.rejected hrejected,
    fun hopen hlost t => hinv.leads hopen hlost t, ?_⟩
  intro hopen hlost later d' hlater
  exact (Machine.run_invariant (fun _ _ _ => stuck_step) ⟨hinv, hlost, hopen⟩ hlater).opened

end DismissDialog

end AlarmClock
