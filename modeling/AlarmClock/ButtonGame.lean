import AlarmClock.GameEngine
import AlarmClock.DateTime
import AlarmClock.Lib.TextFormat

/-!
# The button game's dialog

The dialog of the button mode shows what its engine emits, and answers a verdict with a
timer of its own: after a success it accepts, after a failure it starts the next game. It
ignores every other way to close it.
-/

namespace AlarmClock

/-- `QTimer::singleShot` -/
inductive ButtonGame.Timer where
  | accept
  | restart
deriving DecidableEq, Repr

/-- The engine, the labels, the single-shot timers that are running, and whether the dialog was
    accepted. -/
structure ButtonGame where
  engine : GameEngine := {}
  btnCountdownLabel : QString := TextFormat.decimal GameEngine.GAME_DURATION
  btnCountLabel : QString := "0".toList
  btnTargetLabel : QString := "0 / ?".toList
  btnStatusLabel : QString := "Press the physical button!".toList
  timers : List ButtonGame.Timer := []
  accepted : Bool := false
deriving DecidableEq, Repr

namespace ButtonGame

open TextFormat

/-! ### The slots -/

def onButtonGameCountUpdated (count : Int) (d : ButtonGame) : ButtonGame :=
  let need := d.engine.targetCount - count
  { d with
    btnCountLabel := decimal count
    btnTargetLabel := decimal count ++ " / ".toList ++ decimal d.engine.targetCount
    btnStatusLabel :=
      if need > 0 then "Need ".toList ++ decimal need ++ " more press(es)!".toList
      else if need = 0 then "Hold on...  Dismissing soon!".toList
      else d.btnStatusLabel }

def onButtonGameCountdownUpdated (secondsLeft : Int) (d : ButtonGame) : ButtonGame :=
  { d with btnCountdownLabel := decimal secondsLeft }

def onButtonGameSuccess (d : ButtonGame) : ButtonGame :=
  { d with
    btnStatusLabel := "SUCCESS!  Alarm dismissed.".toList
    btnCountdownLabel := "✓".toList
    timers := d.timers ++ [.accept] }

/-- Why a game was lost. -/
def reason (count target : Int) : QString :=
  if count > target then
    "Pressed ".toList ++ decimal count ++ " — too many! (target: ".toList ++ decimal target ++
      ")".toList
  else "Pressed ".toList ++ decimal count ++ " / ".toList ++ decimal target ++
    " — too few!".toList

def onButtonGameFailure (d : ButtonGame) : ButtonGame :=
  { d with
    btnStatusLabel := reason d.engine.count d.engine.targetCount ++ "\nRestarting...".toList
    btnCountdownLabel := "-".toList
    timers := d.timers ++ [.restart] }

/-- The slot that is connected to a signal; nothing is connected to `stateChanged`. -/
def slot (d : ButtonGame) : GameEngine.Signal → ButtonGame
  | .stateChanged _ => d
  | .countUpdated count => d.onButtonGameCountUpdated count
  | .countdownUpdated secondsLeft => d.onButtonGameCountdownUpdated secondsLeft
  | .gameSuccess => d.onButtonGameSuccess
  | .gameFailure => d.onButtonGameFailure

/-- The engine has gone on. Count and target do not change between a signal and the end of
    what emitted it, so that the slots read them from the engine afterwards. -/
def emits (d : ButtonGame) (engine : GameEngine) : ButtonGame :=
  (engine.emitted.drop d.engine.emitted.length).foldl slot { d with engine := engine }

/-- `restartGame` of the engine up to its call of `startGame`. -/
def reset (g : GameEngine) : GameEngine :=
  GameEngine.setState .READY (GameEngine.emitSignal (.countUpdated 0) { g with
    countdownTimer := false
    successTimer := none
    count := 0
    targetCount := 0
    secondsLeft := GameEngine.GAME_DURATION })

theorem restartGame_eq (target : Int) (g : GameEngine) :
    GameEngine.restartGame target g = GameEngine.startGame target (reset g) := rfl

/-- What the timer of a failure does. -/
def restartGame (target : Int) (d : ButtonGame) : ButtonGame :=
  let d := d.emits (reset d.engine)
  let d := d.emits (GameEngine.startGame target d.engine)
  { d with btnStatusLabel := "Press the physical button!".toList }

/-- The dialog when it has been built. -/
def buildButtonUi (target : Int) : ButtonGame :=
  let d : ButtonGame := {}
  d.emits (GameEngine.startGame target d.engine)

/-! ### Steps -/

/-- `buttonPressed` is the signal of the watcher, `closeEvent` stands for every attempt to close
    or to reject the dialog. A restart draws a target. -/
inductive Event where
  | buttonPressed
  | countdownTick
  | successTimeout
  | acceptTimeout
  | restartTimeout (target : Int)
  | closeEvent
deriving DecidableEq, Repr

/-- What the engine sees of an event. -/
def engineEvent : Event → Option GameEngine.Event
  | .buttonPressed => some .onButtonPressed
  | .countdownTick => some .countdownTick
  | .successTimeout => some .successTimeout
  | .restartTimeout target => some (.restartGame target)
  | .acceptTimeout | .closeEvent => none

/-- An accepted dialog is gone. -/
def step (d : ButtonGame) (e : Event) : Option ButtonGame :=
  if d.accepted then none
  else match e with
    | .buttonPressed => (GameEngine.step d.engine .onButtonPressed).map d.emits
    | .countdownTick => (GameEngine.step d.engine .countdownTick).map d.emits
    | .successTimeout => (GameEngine.step d.engine .successTimeout).map d.emits
    | .acceptTimeout =>
      if .accept ∈ d.timers then
        some { d with timers := d.timers.erase .accept, accepted := true }
      else none
    | .restartTimeout target =>
      if .restart ∈ d.timers ∧ GameEngine.TARGET_MIN ≤ target ∧
          target ≤ GameEngine.TARGET_MAX then
        some (restartGame target { d with timers := d.timers.erase .restart })
      else none
    | .closeEvent => some d

/-- What the status label says of the presses that are missing. -/
def needText (need : Int) : QString :=
  if need = 0 then "Hold on...  Dismissing soon!".toList
  else "Need ".toList ++ decimal need ++ " more press(es)!".toList

/-- The labels agree with the engine. -/
structure Shows (d : ButtonGame) : Prop where
  count : d.btnCountLabel = decimal d.engine.count
  target : d.btnTargetLabel =
    decimal d.engine.count ++ " / ".toList ++ decimal d.engine.targetCount
  playing : d.engine.state = .PLAYING → d.btnCountdownLabel = decimal d.engine.secondsLeft ∧
    (d.btnStatusLabel = needText (d.engine.targetCount - d.engine.count) ∨
      d.engine.count = 0 ∧ d.btnStatusLabel = "Press the physical button!".toList)
  success : d.engine.state = .SUCCESS → d.btnCountdownLabel = "✓".toList ∧
    d.btnStatusLabel = "SUCCESS!  Alarm dismissed.".toList
  failure : d.engine.state = .FAILURE → d.btnCountdownLabel = "-".toList ∧
    d.btnStatusLabel =
      reason d.engine.count d.engine.targetCount ++ "\nRestarting...".toList

/-- The timers agree with the engine: none in a game, one after a verdict, which is gone when
    it has fired. -/
structure Timed (d : ButtonGame) : Prop where
  started : d.engine.state ≠ .READY
  playing : d.engine.state = .PLAYING → d.timers = [] ∧ d.accepted = false
  success : d.engine.state = .SUCCESS →
    d.timers = [.accept] ∧ d.accepted = false ∨ d.timers = [] ∧ d.accepted = true
  failure : d.engine.state = .FAILURE → d.timers = [.restart] ∧ d.accepted = false

structure Inv (d : ButtonGame) : Prop where
  engine : GameEngine.Inv d.engine
  shows : d.Shows
  timed : d.Timed

variable {d d' : ButtonGame}

theorem emits_eq {g : GameEngine} {new : List GameEngine.Signal}
    (h : g.emitted = d.engine.emitted ++ new) :
    d.emits g = new.foldl slot { d with engine := g } := by
  unfold emits
  rw [h, List.drop_left]

theorem emits_self (d : ButtonGame) : d.emits d.engine = d :=
  emits_eq (List.append_nil _).symm

/-! ### Every event of the engine -/

theorem Timed.of_playing (hstate : d.engine.state = .PLAYING) (htimers : d.timers = [])
    (haccepted : d.accepted = false) : Timed d where
  started := by rw [hstate]; decide
  playing := fun _ => ⟨htimers, haccepted⟩
  success := by rw [hstate]; nofun
  failure := by rw [hstate]; nofun

theorem Timed.of_success (hstate : d.engine.state = .SUCCESS) (htimers : d.timers = [.accept])
    (haccepted : d.accepted = false) : Timed d where
  started := by rw [hstate]; decide
  playing := by rw [hstate]; nofun
  success := fun _ => .inl ⟨htimers, haccepted⟩
  failure := by rw [hstate]; nofun

theorem Timed.of_failure (hstate : d.engine.state = .FAILURE) (htimers : d.timers = [.restart])
    (haccepted : d.accepted = false) : Timed d where
  started := by rw [hstate]; decide
  playing := by rw [hstate]; nofun
  success := by rw [hstate]; nofun
  failure := fun _ => ⟨htimers, haccepted⟩

theorem Timed.success_of_accepted (h : d.Timed) (haccepted : d.accepted = true) :
    d.engine.state = .SUCCESS := by
  cases hstate : d.engine.state with
  | READY => exact absurd hstate h.started
  | PLAYING => cases haccepted.symm.trans (h.playing hstate).2
  | FAILURE => cases haccepted.symm.trans (h.failure hstate).2
  | SUCCESS => rfl

/-- A press that leaves the game on. -/
theorem Inv.press (hi : Inv d) {g : GameEngine} (hg : GameEngine.Inv g)
    (hplaying : d.engine.state = .PLAYING) (hon : g.state = .PLAYING)
    (hcount : g.count = d.engine.count + 1) (hseconds : g.secondsLeft = d.engine.secondsLeft)
    (hemitted : g.emitted = d.engine.emitted ++ [.countUpdated g.count]) :
    Inv (d.emits g) := by
  obtain ⟨htimers, haccepted⟩ := hi.timed.playing hplaying
  have hle := (hg.count hon).2
  rw [emits_eq hemitted]
  show Inv (onButtonGameCountUpdated g.count { d with engine := g })
  refine ⟨hg, ⟨rfl, rfl, ?_, ?_, ?_⟩, Timed.of_playing hon htimers haccepted⟩
  · intro _
    refine ⟨(hi.shows.playing hplaying).1.trans (congrArg decimal hseconds.symm), .inl ?_⟩
    show (if g.targetCount - g.count > 0 then _ else if g.targetCount - g.count = 0 then _ else _) =
      needText (g.targetCount - g.count)
    unfold needText
    split_ifs with hmore hnone hnone
    · omega
    · rfl
    · rfl
    · omega
  · intro hsuccess
    cases hon.symm.trans hsuccess
  · intro hfailure
    cases hon.symm.trans hfailure

theorem Inv.tick (hi : Inv d) {g : GameEngine} (hg : GameEngine.Inv g)
    (hplaying : d.engine.state = .PLAYING) (hon : g.state = .PLAYING)
    (hcount : g.count = d.engine.count) (htarget : g.targetCount = d.engine.targetCount)
    (hemitted : g.emitted = d.engine.emitted ++ [.countdownUpdated g.secondsLeft]) :
    Inv (d.emits g) := by
  obtain ⟨htimers, haccepted⟩ := hi.timed.playing hplaying
  rw [emits_eq hemitted]
  show Inv (onButtonGameCountdownUpdated g.secondsLeft { d with engine := g })
  refine ⟨hg, ⟨?_, ?_, ?_, ?_, ?_⟩, Timed.of_playing hon htimers haccepted⟩
  · exact hi.shows.count.trans (congrArg decimal hcount.symm)
  · show d.btnTargetLabel = decimal g.count ++ _ ++ decimal g.targetCount
    rw [hcount, htarget]
    exact hi.shows.target
  · intro _
    refine ⟨rfl, ?_⟩
    show d.btnStatusLabel = needText (g.targetCount - g.count) ∨ g.count = 0 ∧ _
    rw [hcount, htarget]
    exact (hi.shows.playing hplaying).2
  · intro hsuccess
    cases hon.symm.trans hsuccess
  · intro hfailure
    cases hon.symm.trans hfailure

/-- The end of a game: what comes before the verdict has brought the labels up to date. -/
theorem Inv.verdict {g : GameEngine} (hg : GameEngine.Inv g) (before : ButtonGame)
    (hengine : before.engine = g) (htimers : before.timers = [])
    (haccepted : before.accepted = false) (hcount : before.btnCountLabel = decimal g.count)
    (htarget : before.btnTargetLabel = decimal g.count ++ " / ".toList ++ decimal g.targetCount) :
    (g.state = .SUCCESS → Inv before.onButtonGameSuccess) ∧
      (g.state = .FAILURE → Inv before.onButtonGameFailure) := by
  subst hengine
  constructor
  · intro hstate
    refine ⟨hg, ⟨hcount, htarget, ?_, fun _ => ⟨rfl, rfl⟩, ?_⟩,
      Timed.of_success hstate (congrArg (· ++ [Timer.accept]) htimers) haccepted⟩
    · intro hplaying
      cases hstate.symm.trans hplaying
    · intro hfailure
      cases hstate.symm.trans hfailure
  · intro hstate
    refine ⟨hg, ⟨hcount, htarget, ?_, ?_, fun _ => ⟨rfl, rfl⟩⟩,
      Timed.of_failure hstate (congrArg (· ++ [Timer.restart]) htimers) haccepted⟩
    · intro hplaying
      cases hstate.symm.trans hplaying
    · intro hsuccess
      cases hstate.symm.trans hsuccess

/-- **What the engine does in a game, and what the dialog makes of it.** -/
theorem Inv.emits (hi : Inv d) {e : GameEngine.Event} {g : GameEngine}
    (he : e = .onButtonPressed ∨ e = .countdownTick ∨ e = .successTimeout)
    (hstep : GameEngine.step d.engine e = some g) : Inv (d.emits g) := by
  have hg := GameEngine.inv_step hi.engine hstep
  cases GameEngine.step_cases hi.engine hstep with
  | ignored e hignored =>
    rw [emits_self]
    exact hi
  | started e target g hcause =>
    rcases hcause with ⟨rfl, -⟩ | rfl
    · rcases he with he | he | he <;> cases he
    · rcases he with he | he | he <;> cases he
  | counted hplaying hcount => exact hi.press hg hplaying hplaying rfl rfl rfl
  | reached waitMs hwait hplaying hcount => exact hi.press hg hplaying hplaying rfl rfl rfl
  | overshot hplaying hcount =>
    obtain ⟨htimers, haccepted⟩ := hi.timed.playing hplaying
    rw [emits_eq rfl]
    exact (Inv.verdict hg (onButtonGameCountUpdated (d.engine.count + 1)
      { d with engine := _ }) rfl htimers haccepted rfl rfl).2 rfl
  | ticked hplaying hseconds => exact hi.tick hg hplaying hplaying rfl rfl rfl
  | timeout hplaying hseconds s verdict hverdict =>
    obtain ⟨htimers, haccepted⟩ := hi.timed.playing hplaying
    rw [emits_eq rfl]
    have hboth := Inv.verdict hg (onButtonGameCountdownUpdated 0 { d with engine := _ }) rfl
      htimers haccepted hi.shows.count hi.shows.target
    rcases hverdict with ⟨rfl, rfl, -⟩ | ⟨rfl, rfl, -⟩
    · exact hboth.1 rfl
    · exact hboth.2 rfl
  | succeeded hplaying hcount =>
    obtain ⟨htimers, haccepted⟩ := hi.timed.playing hplaying
    rw [emits_eq rfl]
    exact (Inv.verdict hg { d with engine := _ } rfl htimers haccepted
      hi.shows.count hi.shows.target).1 rfl

/-! ### The start of a game -/

theorem emitted_startGame (target : Int) {g : GameEngine} (hready : g.state = .READY) :
    (GameEngine.startGame target g).emitted = g.emitted ++
      [.countUpdated 0, .countdownUpdated GameEngine.GAME_DURATION, .stateChanged .PLAYING] := by
  simp [GameEngine.startGame, GameEngine.setState, GameEngine.emitSignal, hready]

/-- A game that starts brings every label but the status up to date. -/
theorem inv_startGame {target : Int} (htarget : GameEngine.TARGET_MIN ≤ target)
    (hready : d.engine.state = .READY) (hidle : d.engine.successTimer = none)
    (htimers : d.timers = []) (haccepted : d.accepted = false) :
    Inv (d.emits (GameEngine.startGame target d.engine)) ∧
      GameEngine.Started target d.engine (d.emits (GameEngine.startGame target d.engine)).engine ∧
      Inv { d.emits (GameEngine.startGame target d.engine) with
        btnStatusLabel := "Press the physical button!".toList } := by
  have hstarted := GameEngine.started_startGame target hready hidle
  have hg := hstarted.inv htarget
  rw [emits_eq (emitted_startGame target hready)]
  generalize GameEngine.startGame target d.engine = g at hstarted hg
  show Inv (onButtonGameCountdownUpdated GameEngine.GAME_DURATION
    (onButtonGameCountUpdated 0 { d with engine := g })) ∧ _
  have htarget₀ : 0 < g.targetCount := by
    rw [hstarted.targetCount]
    exact Int.lt_of_lt_of_le (by decide) htarget
  have hcount : decimal 0 = decimal g.count := congrArg decimal hstarted.count.symm
  have htext : decimal 0 ++ " / ".toList ++ decimal g.targetCount =
      decimal g.count ++ " / ".toList ++ decimal g.targetCount := by
    rw [hstarted.count]
  have hcountdown := congrArg decimal hstarted.secondsLeft.symm
  have htimed := hstarted.state
  refine ⟨⟨hg, ⟨hcount, htext, ?_, ?_, ?_⟩, Timed.of_playing htimed htimers haccepted⟩, hstarted,
    ⟨hg, ⟨hcount, htext, ?_, ?_, ?_⟩, Timed.of_playing htimed htimers haccepted⟩⟩
  · intro _
    refine ⟨hcountdown, .inl ?_⟩
    show (if g.targetCount - 0 > 0 then "Need ".toList ++ decimal (g.targetCount - 0) ++ _ else _) =
      needText (g.targetCount - g.count)
    rw [hstarted.count, if_pos (by omega), needText, if_neg (by omega)]
  · intro hsuccess
    cases htimed.symm.trans hsuccess
  · intro hfailure
    cases htimed.symm.trans hfailure
  · exact fun _ => ⟨hcountdown, .inr ⟨hstarted.count, rfl⟩⟩
  · intro hsuccess
    cases htimed.symm.trans hsuccess
  · intro hfailure
    cases htimed.symm.trans hfailure

/-- What `restartGame` of the engine does first, and what the dialog hears of it. -/
theorem reset_spec (d : ButtonGame) :
    (reset d.engine).state = .READY ∧ (reset d.engine).successTimer = none ∧
      (d.emits (reset d.engine)).engine = reset d.engine ∧
      (d.emits (reset d.engine)).timers = d.timers ∧
      (d.emits (reset d.engine)).accepted = d.accepted := by
  by_cases hready : d.engine.state = .READY
  · have hreset : reset d.engine = { d.engine with
        countdownTimer := false
        successTimer := none
        count := 0
        targetCount := 0
        secondsLeft := GameEngine.GAME_DURATION
        emitted := d.engine.emitted ++ [.countUpdated 0] } := by
      simp [reset, GameEngine.setState, GameEngine.emitSignal, hready]
    rw [hreset, emits_eq rfl]
    exact ⟨hready, rfl, rfl, rfl, rfl⟩
  · have hreset : reset d.engine = { d.engine with
        state := .READY
        countdownTimer := false
        successTimer := none
        count := 0
        targetCount := 0
        secondsLeft := GameEngine.GAME_DURATION
        emitted := d.engine.emitted ++ [.countUpdated 0, .stateChanged .READY] } := by
      simp [reset, GameEngine.setState, GameEngine.emitSignal, hready]
    rw [hreset, emits_eq rfl]
    exact ⟨rfl, rfl, rfl, rfl, rfl⟩

theorem inv_restartGame {target : Int} (htarget : GameEngine.TARGET_MIN ≤ target)
    (htimers : d.timers = []) (haccepted : d.accepted = false) :
    Inv (restartGame target d) ∧
      (restartGame target d).engine = GameEngine.restartGame target d.engine := by
  obtain ⟨hready, hidle, hengine, htimers', haccepted'⟩ := reset_spec d
  have hstart := inv_startGame (d := d.emits (reset d.engine)) htarget
    (by rw [hengine]; exact hready) (by rw [hengine]; exact hidle) (htimers'.trans htimers)
    (haccepted'.trans haccepted)
  refine ⟨hstart.2.2, ?_⟩
  have hg : (d.emits (reset d.engine)).emits
      (GameEngine.startGame target (d.emits (reset d.engine)).engine) = _ :=
    emits_eq (emitted_startGame target (by rw [hengine]; exact hready))
  show ((d.emits (reset d.engine)).emits
    (GameEngine.startGame target (d.emits (reset d.engine)).engine)).engine = _
  rw [hg, restartGame_eq, hengine]
  rfl

theorem inv_build {target : Int} (htarget : GameEngine.TARGET_MIN ≤ target) :
    Inv (buildButtonUi target) ∧
      GameEngine.Started target {} (buildButtonUi target).engine :=
  have hstart := inv_startGame (d := {}) htarget rfl rfl rfl rfl
  ⟨hstart.1, hstart.2.1⟩

/-! ### Every event of the dialog -/

/-- Every event, with what it finds and what it leaves. -/
inductive StepTo (d : ButtonGame) : Event → ButtonGame → Prop where
  | engine (e : Event) (g : GameEngine) (ge : GameEngine.Event) (hge : engineEvent e = some ge)
      (he : ge = .onButtonPressed ∨ ge = .countdownTick ∨ ge = .successTimeout)
      (hstep : GameEngine.step d.engine ge = some g) : StepTo d e (d.emits g)
  | accepted (hstate : d.engine.state = .SUCCESS) :
      StepTo d .acceptTimeout { d with timers := [], accepted := true }
  | restarted (target : Int) (hstate : d.engine.state = .FAILURE)
      (htarget : GameEngine.TARGET_MIN ≤ target ∧ target ≤ GameEngine.TARGET_MAX) :
      StepTo d (.restartTimeout target) (restartGame target { d with timers := [] })
  | closed : StepTo d .closeEvent d

theorem step_cases (hi : Inv d) {e : Event} (h : step d e = some d') :
    d.accepted = false ∧ StepTo d e d' := by
  by_cases haccepted : d.accepted = true
  · rw [step.eq_def, if_pos haccepted] at h
    cases h
  refine ⟨Bool.eq_false_iff.mpr haccepted, ?_⟩
  rw [step.eq_def, if_neg haccepted] at h
  have htimed := hi.timed
  cases e with
  | buttonPressed =>
    obtain ⟨g, hg, rfl⟩ := Option.map_eq_some_iff.mp h
    exact .engine _ g _ rfl (.inl rfl) hg
  | countdownTick =>
    obtain ⟨g, hg, rfl⟩ := Option.map_eq_some_iff.mp h
    exact .engine _ g _ rfl (.inr (.inl rfl)) hg
  | successTimeout =>
    obtain ⟨g, hg, rfl⟩ := Option.map_eq_some_iff.mp h
    exact .engine _ g _ rfl (.inr (.inr rfl)) hg
  | acceptTimeout =>
    obtain ⟨hmem, rfl⟩ := Machine.guarded_eq_some h
    cases hstate : d.engine.state with
    | READY => exact absurd hstate htimed.started
    | PLAYING =>
      rw [(htimed.playing hstate).1] at hmem
      exact absurd hmem List.not_mem_nil
    | FAILURE =>
      rw [(htimed.failure hstate).1] at hmem
      exact absurd hmem (by decide)
    | SUCCESS =>
      rcases htimed.success hstate with ⟨hone, -⟩ | ⟨-, hgone⟩
      · rw [hone]
        exact .accepted hstate
      · exact absurd hgone haccepted
  | restartTimeout target =>
    obtain ⟨⟨hmem, htarget⟩, rfl⟩ := Machine.guarded_eq_some h
    cases hstate : d.engine.state with
    | READY => exact absurd hstate htimed.started
    | PLAYING =>
      rw [(htimed.playing hstate).1] at hmem
      exact absurd hmem List.not_mem_nil
    | FAILURE =>
      rw [(htimed.failure hstate).1]
      exact .restarted target hstate htarget
    | SUCCESS =>
      rcases htimed.success hstate with ⟨hone, -⟩ | ⟨hnone, -⟩
      · rw [hone] at hmem
        exact absurd hmem (by decide)
      · rw [hnone] at hmem
        exact absurd hmem List.not_mem_nil
  | closeEvent =>
    obtain rfl := Option.some.inj h
    exact .closed

theorem inv_step (hi : Inv d) {e : Event} (h : step d e = some d') : Inv d' := by
  obtain ⟨haccepted, hs⟩ := step_cases hi h
  cases hs with
  | engine e g ge hge he hstep => exact hi.emits he hstep
  | accepted hstate =>
    refine ⟨hi.engine, ⟨hi.shows.count, hi.shows.target, hi.shows.playing, hi.shows.success,
      hi.shows.failure⟩, ⟨hi.timed.started, ?_, fun _ => .inr ⟨rfl, rfl⟩, ?_⟩⟩
    · intro hplaying
      cases hstate.symm.trans hplaying
    · intro hfailure
      cases hstate.symm.trans hfailure
  | restarted target hstate htarget =>
    exact (inv_restartGame (d := { d with timers := [] }) htarget.1 rfl haccepted).1
  | closed => exact hi

/-! ### The engine below the dialog -/

theorem foldl_slot_engine (signals : List GameEngine.Signal) (d : ButtonGame) :
    (signals.foldl slot d).engine = d.engine := by
  induction signals generalizing d with
  | nil => rfl
  | cons signal signals ih =>
    rw [List.foldl_cons, ih]
    cases signal with
    | stateChanged | countUpdated | countdownUpdated | gameSuccess | gameFailure => rfl

theorem emits_engine (d : ButtonGame) (g : GameEngine) : (d.emits g).engine = g :=
  foldl_slot_engine _ _

/-- **The engine of a dialog runs as an engine.** -/
theorem engine_step (hi : Inv d) {e : Event} (h : step d e = some d') :
    (engineEvent e).elim (d'.engine = d.engine) fun ge =>
      GameEngine.step d.engine ge = some d'.engine := by
  obtain ⟨haccepted, hs⟩ := step_cases hi h
  cases hs with
  | engine e g ge hge he hstep =>
    rw [hge, Option.elim_some, emits_engine]
    exact hstep
  | accepted => exact rfl
  | restarted target hstate htarget =>
    show (GameEngine.drawn target d.engine).map (GameEngine.restartGame target) = some _
    rw [(inv_restartGame (d := { d with timers := [] }) htarget.1 rfl haccepted).2,
      GameEngine.drawn, if_pos htarget]
    rfl
  | closed => exact rfl

theorem engine_run (hi : Inv d) {es : List Event} (h : Machine.run step d es = some d') :
    Machine.run GameEngine.step d.engine (es.filterMap engineEvent) = some d'.engine :=
  (Machine.run_prophecy (f := ButtonGame.engine) (c := engineEvent) (I := Inv)
    (K := fun _ => True) (fun _ _ _ hs hstep => inv_step hs hstep) (fun _ _ _ _ _ _ => trivial)
    (fun _ _ _ hs hstep _ => engine_step hs hstep) hi trivial h).2

def isRestart : Event → Bool
  | .restartTimeout _ => true
  | _ => false

/-- The verdicts that were emitted: one success at most, and a failure for every restart. -/
structure Verdicts (es : List Event) (d : ButtonGame) : Prop where
  success : d.engine.emitted.count .gameSuccess = if d.engine.state = .SUCCESS then 1 else 0
  failure : d.engine.emitted.count .gameFailure =
    es.countP isRestart + if d.engine.state = .FAILURE then 1 else 0

theorem emitted_restartGame (target : Int) (g : GameEngine) (hfailure : g.state = .FAILURE) :
    (GameEngine.restartGame target g).emitted = g.emitted ++
      [.countUpdated 0, .stateChanged .READY, .countUpdated 0,
        .countdownUpdated GameEngine.GAME_DURATION, .stateChanged .PLAYING] := by
  simp [GameEngine.restartGame, GameEngine.startGame, GameEngine.setState, GameEngine.emitSignal,
    hfailure]

/-- The signals of a step, with the verdict that they bring. -/
theorem Verdicts.next {es es' : List Event} (h : Verdicts es d) {new : List GameEngine.Signal}
    (hemitted : d'.engine.emitted = d.engine.emitted ++ new)
    (hsuccess : new.count .gameSuccess = if d'.engine.state = .SUCCESS then 1 else 0)
    (hfailure : new.count .gameFailure = if d'.engine.state = .FAILURE then 1 else 0)
    (hstate : d.engine.state ≠ .SUCCESS)
    (hrestarts : es'.countP isRestart =
      es.countP isRestart + if d.engine.state = .FAILURE then 1 else 0) :
    Verdicts es' d' where
  success := by rw [hemitted, List.count_append, h.success, if_neg hstate, hsuccess, Nat.zero_add]
  failure := by rw [hemitted, List.count_append, h.failure, hfailure, hrestarts]

theorem verdicts_step {es : List Event} (hi : Inv d) (hv : Verdicts es d) {e : Event}
    (h : step d e = some d') : Verdicts (es ++ [e]) d' := by
  obtain ⟨haccepted, hs⟩ := step_cases hi h
  have hcount : isRestart e = false → (es ++ [e]).countP isRestart = es.countP isRestart := by
    intro hnot
    rw [List.countP_append, List.countP_singleton, hnot]
    rfl
  cases hs with
  | engine e g ge hge he hstep =>
    have hsame : (es ++ [e]).countP isRestart = es.countP isRestart := by
      apply hcount
      cases e with
      | restartTimeout target =>
        obtain rfl := Option.some.inj hge
        rcases he with he | he | he <;> cases he
      | buttonPressed | countdownTick | successTimeout | acceptTimeout | closeEvent => rfl
    have hon : d.engine.state = .PLAYING →
        (es ++ [e]).countP isRestart =
          es.countP isRestart + if d.engine.state = .FAILURE then 1 else 0 := by
      intro hplaying
      rw [hsame, hplaying]
      rfl
    have hengine := emits_engine d g
    cases GameEngine.step_cases hi.engine hstep with
    | ignored ge hignored =>
      rw [emits_self]
      exact ⟨hv.success, by rw [hsame]; exact hv.failure⟩
    | started ge target g hcause =>
      rcases hcause with ⟨rfl, -⟩ | rfl
      · rcases he with he | he | he <;> cases he
      · rcases he with he | he | he <;> cases he
    | counted hplaying =>
      exact hv.next (by rw [hengine]) (by rw [hengine]; simp [hplaying])
        (by rw [hengine]; simp [hplaying]) (by simp [hplaying]) (hon hplaying)
    | reached waitMs hwait hplaying =>
      exact hv.next (by rw [hengine]) (by rw [hengine]; simp [hplaying])
        (by rw [hengine]; simp [hplaying]) (by simp [hplaying]) (hon hplaying)
    | ticked hplaying =>
      exact hv.next (by rw [hengine]) (by rw [hengine]; simp [hplaying])
        (by rw [hengine]; simp [hplaying]) (by simp [hplaying]) (hon hplaying)
    | overshot hplaying =>
      exact hv.next (by rw [hengine]) (by rw [hengine]; rfl) (by rw [hengine]; rfl)
        (by simp [hplaying]) (hon hplaying)
    | timeout hplaying hseconds s verdict hverdict =>
      rcases hverdict with ⟨rfl, rfl, -⟩ | ⟨rfl, rfl, -⟩
      · exact hv.next (by rw [hengine]) (by rw [hengine]; rfl) (by rw [hengine]; rfl)
          (by simp [hplaying]) (hon hplaying)
      · exact hv.next (by rw [hengine]) (by rw [hengine]; rfl) (by rw [hengine]; rfl)
          (by simp [hplaying]) (hon hplaying)
    | succeeded hplaying =>
      exact hv.next (by rw [hengine]) (by rw [hengine]; rfl) (by rw [hengine]; rfl)
        (by simp [hplaying]) (hon hplaying)
  | accepted hstate => exact ⟨hv.success, by rw [hcount rfl]; exact hv.failure⟩
  | restarted target hstate htarget =>
    obtain ⟨hi', hengine⟩ :=
      inv_restartGame (d := { d with timers := [] }) htarget.1 rfl haccepted
    have hstarted := GameEngine.started_restartGame target d.engine
    refine hv.next (by rw [hengine]; exact emitted_restartGame target d.engine hstate)
      (by rw [hengine, hstarted.state]; rfl) (by rw [hengine, hstarted.state]; rfl)
      (by simp [hstate]) ?_
    rw [List.countP_append, hstate]
    rfl
  | closed => exact ⟨hv.success, by rw [hcount rfl]; exact hv.failure⟩

theorem inv_run (hi : Inv d) {es : List Event} (h : Machine.run step d es = some d') : Inv d' :=
  Machine.run_invariant (fun _ _ _ hs hstep => inv_step hs hstep) hi h

theorem emitted_build (target : Int) :
    (buildButtonUi target).engine.emitted =
      [.countUpdated 0, .countdownUpdated GameEngine.GAME_DURATION, .stateChanged .PLAYING] := by
  unfold buildButtonUi
  rw [emits_engine]
  exact emitted_startGame target rfl

/-- **The dialog of a button game.** After every run the labels agree with the engine; the
    dialog has no timer in a game, and after a verdict the one timer that answers it, so that
    it accepts at most once; there has been one success at most, with no game after it, and
    for every failure one restart, or its timer is running. -/
theorem buttonGame_run {target : Int} (htarget : GameEngine.TARGET_MIN ≤ target)
    {es : List Event} (hrun : Machine.run step (buildButtonUi target) es = some d) :
    d.Shows ∧ d.Timed ∧ Verdicts es d := by
  obtain ⟨hi, hstarted⟩ := inv_build htarget
  have hstart : Verdicts [] (buildButtonUi target) := by
    refine ⟨?_, ?_⟩
    · rw [emitted_build, hstarted.state]
      rfl
    · rw [emitted_build, hstarted.state]
      rfl
  have hv : Verdicts es d := by
    refine Machine.run_history (I := Verdicts) hstart ?_ hrun
    intro pre t e t' hpre hv h
    exact verdicts_step (inv_run hi hpre) hv h
  exact ⟨(inv_run hi hrun).shows, (inv_run hi hrun).timed, hv⟩

/-- One press too many, and the next game. -/
theorem buttonGame_run_lost :
    ∃ d, Machine.run step (buildButtonUi 30)
        (List.replicate 31 .buttonPressed ++ [.closeEvent, .restartTimeout 40]) = some d ∧
      d.btnTargetLabel = "0 / 40".toList ∧ d.Shows ∧ d.Timed ∧
      Verdicts (List.replicate 31 .buttonPressed ++ [.closeEvent, .restartTimeout 40]) d := by
  have hrun : (Machine.run step (buildButtonUi 30)
      (List.replicate 31 .buttonPressed ++ [.closeEvent, .restartTimeout 40])).map
        (·.btnTargetLabel) = some "0 / 40".toList := by
    decide +kernel
  obtain ⟨d, hrun, hlabel⟩ := Option.map_eq_some_iff.mp hrun
  exact ⟨d, hrun, hlabel, buttonGame_run (by decide) hrun⟩

/-! ### What a dismissal takes -/

/-- The game that is on, or was on last: what was delivered since it started. -/
structure LastGame (start : ButtonGame) (es game : List Event) (d₀ : ButtonGame) : Prop where
  since : ∃ pre, es = pre ++ game ∧ Machine.run step start pre = some d₀
  started : ∃ target g, GameEngine.Started target g d₀.engine ∧
    GameEngine.TARGET_MIN ≤ target ∧ target ≤ GameEngine.TARGET_MAX
  alone : ∀ e ∈ game, isRestart e = false

theorem LastGame.run {start : ButtonGame} {es game : List Event} {d₀ : ButtonGame}
    (h : LastGame start es game d₀) (hrun : Machine.run step start es = some d) :
    Machine.run step d₀ game = some d := by
  obtain ⟨pre, rfl, hpre⟩ := h.since
  obtain ⟨d₁, hpre', hgame⟩ := Machine.run_append_eq_some.mp hrun
  obtain rfl := Option.some.inj (hpre.symm.trans hpre')
  exact hgame

theorem lastGame_run {start : ButtonGame} (hi : Inv start) {target : Int} {g : GameEngine}
    (hstarted : GameEngine.Started target g start.engine)
    (htarget : GameEngine.TARGET_MIN ≤ target ∧ target ≤ GameEngine.TARGET_MAX)
    {es : List Event} (hrun : Machine.run step start es = some d) :
    ∃ game d₀, LastGame start es game d₀ := by
  refine Machine.run_history (I := fun es _ => ∃ game d₀, LastGame start es game d₀) ?_ ?_ hrun
  · exact ⟨[], start, ⟨[], rfl, rfl⟩, ⟨target, g, hstarted, htarget⟩,
      fun e he => absurd he List.not_mem_nil⟩
  · rintro pre t e t' hpre ⟨game, d₀, ⟨before, rfl, hbefore⟩, hstart₀, halone⟩ h
    cases hrestart : isRestart e with
    | false =>
      refine ⟨game ++ [e], d₀, ⟨before, by rw [List.append_assoc], hbefore⟩, hstart₀, ?_⟩
      intro e' he'
      rcases List.mem_append.mp he' with hold | hnew
      · exact halone e' hold
      · rw [List.mem_singleton.mp hnew]
        exact hrestart
    | true =>
      obtain ⟨haccepted, hs⟩ := step_cases (inv_run hi hpre) h
      have hfull : Machine.run step start (before ++ game ++ [e]) = some t' :=
        Machine.run_append_eq_some.mpr ⟨t, hpre, (Machine.run_singleton t e).trans h⟩
      refine ⟨[], t', ⟨_, (List.append_nil _).symm, hfull⟩, ?_,
        fun e he => absurd he List.not_mem_nil⟩
      cases hs with
      | engine e g ge hge he =>
        cases e with
        | restartTimeout target =>
          obtain rfl := Option.some.inj hge
          rcases he with he | he | he <;> cases he
        | buttonPressed | countdownTick | successTimeout | acceptTimeout | closeEvent =>
          cases hrestart
      | accepted => cases hrestart
      | closed => cases hrestart
      | restarted target hstate htarget =>
        rw [(inv_restartGame (d := { t with timers := [] }) htarget.1 rfl haccepted).2]
        exact ⟨target, t.engine, GameEngine.started_restartGame target t.engine, htarget⟩

/-- The presses of a game, and its ticks. -/
def presses (game : List Event) : Nat := game.count .buttonPressed

def ticks (game : List Event) : Nat := game.count .countdownTick

theorem count_filterMap (game : List Event) :
    (game.filterMap engineEvent).count .onButtonPressed = presses game ∧
      (game.filterMap engineEvent).count .countdownTick = ticks game := by
  induction game with
  | nil => exact ⟨rfl, rfl⟩
  | cons e game ih =>
    unfold presses ticks at ih ⊢
    cases e with
    | acceptTimeout | closeEvent =>
      rw [List.filterMap_cons_none rfl]
      simpa using ih
    | buttonPressed | countdownTick | successTimeout | restartTimeout => simp [engineEvent, ih]

/-- **What a dismissal takes.** An accepted dialog was accepted after a game since whose start
    no other one was started, in which the button was pressed exactly as often as the target
    says, thirty to sixty times, while it was on, within fifteen ticks. -/
theorem dismissed_by_presses {target : Int}
    (htarget : GameEngine.TARGET_MIN ≤ target ∧ target ≤ GameEngine.TARGET_MAX)
    {es : List Event} (hrun : Machine.run step (buildButtonUi target) es = some d)
    (haccepted : d.accepted = true) :
    ∃ game d₀, LastGame (buildButtonUi target) es game d₀ ∧
      (GameEngine.accepted d₀.engine (game.filterMap engineEvent) : Int) =
        d₀.engine.targetCount ∧
      GameEngine.TARGET_MIN ≤ d₀.engine.targetCount ∧
      d₀.engine.targetCount ≤ GameEngine.TARGET_MAX ∧
      d₀.engine.targetCount ≤ presses game ∧ (ticks game : Int) ≤ GameEngine.GAME_DURATION := by
  obtain ⟨hi, hstarted⟩ := inv_build htarget.1
  obtain ⟨game, d₀, hlast⟩ := lastGame_run hi hstarted htarget hrun
  obtain ⟨pre, -, hpre⟩ := hlast.since
  obtain ⟨target₀, g₀, hstarted₀, hmin, hmax⟩ := hlast.started
  have hengine := engine_run (inv_run hi hpre) (hlast.run hrun)
  have hnone : ∀ ge ∈ game.filterMap engineEvent, GameEngine.NoRestart ge := by
    intro ge hge
    obtain ⟨e, he, hee⟩ := List.mem_filterMap.mp hge
    have hnot := hlast.alone e he
    cases e with
    | restartTimeout target => cases hnot
    | buttonPressed | countdownTick | successTimeout =>
      obtain rfl := Option.some.inj hee
      trivial
    | acceptTimeout | closeEvent => cases hee
  have houtcome := (GameEngine.Course.run hstarted₀ hmin hnone hengine).outcome
  have hsuccess := (inv_run hi hrun).timed.success_of_accepted haccepted
  rw [hsuccess] at houtcome
  generalize hverdicts : GameEngine.verdicts d₀.engine d.engine = verdicts at houtcome
  cases houtcome with
  | success hticks hpressed =>
    have htarget₀ : d₀.engine.targetCount = target₀ := hstarted₀.targetCount
    obtain ⟨hpresses, hticks'⟩ := count_filterMap game
    have hle : GameEngine.accepted d₀.engine (game.filterMap engineEvent) ≤ presses game := by
      rw [← hpresses]
      exact Machine.countRun_le_count (fun _ _ hQ => (of_decide_eq_true hQ).1) _ _
    refine ⟨game, d₀, hlast, hpressed, by rw [htarget₀]; exact hmin, by rw [htarget₀]; exact hmax,
      ?_, ?_⟩
    · rw [← hpressed]
      exact Int.ofNat_le.mpr hle
    · rw [← hticks']
      exact hticks

/-- A game that is lost, and one that is won. -/
def secondGame : List Event :=
  List.replicate 31 .buttonPressed ++ .restartTimeout 30 :: .countdownTick ::
    List.replicate 30 .buttonPressed ++ [.countdownTick, .successTimeout, .acceptTimeout]

theorem dismissed_by_presses_second :
    ∃ d, Machine.run step (buildButtonUi 30) secondGame = some d ∧ d.accepted = true ∧
      ∃ game d₀, LastGame (buildButtonUi 30) secondGame game d₀ ∧
        (GameEngine.accepted d₀.engine (game.filterMap engineEvent) : Int) =
          d₀.engine.targetCount ∧
        GameEngine.TARGET_MIN ≤ d₀.engine.targetCount ∧
        d₀.engine.targetCount ≤ GameEngine.TARGET_MAX ∧
        d₀.engine.targetCount ≤ presses game ∧ (ticks game : Int) ≤ GameEngine.GAME_DURATION := by
  have hrun : (Machine.run step (buildButtonUi 30) secondGame).map (·.accepted) = some true := by
    decide +kernel
  obtain ⟨d, hrun, haccepted⟩ := Option.map_eq_some_iff.mp hrun
  exact ⟨d, hrun, haccepted, dismissed_by_presses (by decide) hrun haccepted⟩

/-- The steps to the end, at the presses that are missing. -/
def toEnd (d : ButtonGame) : Nat :=
  match d.engine.state with
  | .READY => 0
  | .PLAYING => (d.engine.targetCount - d.engine.count).toNat + 2
  | .SUCCESS => 1
  | .FAILURE => 100

/-- A game that still needs a press gets closer by it, and one that needs none is won by its
    timer. -/
theorem playing_leads (hi : Inv d) (hstate : d.engine.state = .PLAYING) :
    ∃ e d', step d e = some d' ∧ e ≠ .closeEvent ∧ d'.toEnd < d.toEnd := by
  obtain ⟨hpos, hle⟩ := hi.engine.count hstate
  have hopen := (hi.timed.playing hstate).2
  have hrank : d.toEnd = (d.engine.targetCount - d.engine.count).toNat + 2 := by
    simp only [toEnd, hstate]
  rw [hrank]
  by_cases hcount : d.engine.count = d.engine.targetCount
  · have hfires : ∃ g, GameEngine.step d.engine .successTimeout = some g ∧
        g.state = .SUCCESS := by
      have hactive := (hi.engine.success hstate).mpr hcount
      refine ⟨_, if_pos hactive, ?_⟩
      simp [GameEngine.onSuccessTimerFired, GameEngine.setState, GameEngine.emitSignal, hstate]
    obtain ⟨g, hg, hwon⟩ := hfires
    refine ⟨.successTimeout, d.emits g, by simp [step, hopen, hg], Event.noConfusion, ?_⟩
    simp only [toEnd, emits_engine, hwon]
    exact Nat.lt_add_left _ Nat.one_lt_two
  · have hstep : step d .buttonPressed = some (d.emits (GameEngine.onButtonPressed d.engine)) := by
      simp [step, hopen, GameEngine.step]
    obtain ⟨hon, hmore, htarget⟩ :
        (GameEngine.onButtonPressed d.engine).state = .PLAYING ∧
          (GameEngine.onButtonPressed d.engine).count = d.engine.count + 1 ∧
          (GameEngine.onButtonPressed d.engine).targetCount = d.engine.targetCount := by
      have hcases := GameEngine.press_cases hi.engine hstate
      generalize GameEngine.onButtonPressed d.engine = g at hcases ⊢
      cases hcases with
      | ignored _ he =>
        rcases he with ⟨-, hnot⟩ | ⟨_, he, -⟩
        · exact absurd hstate hnot
        · cases he
      | started _ _ _ he =>
        rcases he with ⟨he, -⟩ | he
        · cases he
        · cases he
      | overshot => omega
      | counted => exact ⟨hstate, rfl, rfl⟩
      | reached => exact ⟨hstate, rfl, rfl⟩
    refine ⟨.buttonPressed, _, hstep, Event.noConfusion, ?_⟩
    simp only [toEnd, emits_engine, hon, hmore, htarget]
    omega

/-- An open dialog has an event that accepts it, or leads on. -/
theorem Inv.progress (hi : Inv d) (hopen : d.accepted = false) :
    ∃ e d', step d e = some d' ∧ e ≠ .closeEvent ∧
      (d'.accepted = true ∨ d'.toEnd < d.toEnd) := by
  cases hstate : d.engine.state with
  | READY => exact absurd hstate hi.timed.started
  | PLAYING =>
    obtain ⟨e, d', hstep, hne, hlt⟩ := playing_leads hi hstate
    exact ⟨e, d', hstep, hne, .inr hlt⟩
  | SUCCESS =>
    rcases hi.timed.success hstate with ⟨htimers, -⟩ | ⟨-, haccepted⟩
    · refine ⟨.acceptTimeout, { d with timers := d.timers.erase .accept, accepted := true }, ?_,
        Event.noConfusion, .inl rfl⟩
      simp [step, hopen, htimers]
    · exact absurd (hopen.symm.trans haccepted) Bool.false_ne_true
  | FAILURE =>
    obtain ⟨htimers, -⟩ := hi.timed.failure hstate
    have hstep : step d (.restartTimeout 30) =
        some (restartGame 30 { d with timers := d.timers.erase .restart }) := by
      simp [step, hopen, htimers, GameEngine.TARGET_MIN, GameEngine.TARGET_MAX]
    have hengine := (inv_restartGame (d := { d with timers := d.timers.erase .restart })
      (by decide : GameEngine.TARGET_MIN ≤ 30) (by simp [htimers]) hopen).2
    refine ⟨_, _, hstep, Event.noConfusion, .inr ?_⟩
    have hstarted := GameEngine.started_restartGame 30 d.engine
    simp only [toEnd, hengine, hstarted.state, hstarted.targetCount, hstarted.count, hstate]
    decide

/-- Presses and timers lead to an accepted dialog. -/
theorem Inv.leads_accepted (hi : Inv d) :
    ∃ d', Machine.Leads step (· ≠ .closeEvent) d d' ∧ d'.accepted = true := by
  cases hopen : d.accepted with
  | true => exact ⟨d, .refl d, hopen⟩
  | false =>
    refine Machine.leads_of_rank (P := fun d => Inv d ∧ d.accepted = false) toEnd ?_ ⟨hi, hopen⟩
    rintro d ⟨hi, hopen⟩
    obtain ⟨e, d', hstep, hne, hnext⟩ := hi.progress hopen
    refine ⟨e, d', hne, hstep, ?_⟩
    cases haccepted : d'.accepted with
    | true => exact .inl rfl
    | false =>
      have hlt := hnext.resolve_left (by simp [haccepted])
      exact .inr ⟨⟨inv_step hi hstep, rfl⟩, hlt⟩

/-- **The alarm can always be dismissed.** From every state of every run, whatever was
    pressed before, some events lead to an accepted dialog. -/
theorem buttonGame_can_end {target : Int} (htarget : GameEngine.TARGET_MIN ≤ target)
    {es : List Event} (hrun : Machine.run step (buildButtonUi target) es = some d) :
    ∃ es' d', Machine.run step d es' = some d' ∧ d'.accepted = true := by
  obtain ⟨d', ⟨es', -, hrun'⟩, haccepted⟩ := (inv_run (inv_build htarget).1 hrun).leads_accepted
  exact ⟨es', d', hrun', haccepted⟩

theorem buttonGame_can_end_lost :
    ∃ d, Machine.run step (buildButtonUi 30) (List.replicate 31 .buttonPressed) = some d ∧
      d.engine.state = .FAILURE ∧
      ∃ es' d', Machine.run step d es' = some d' ∧ d'.accepted = true := by
  have hrun : (Machine.run step (buildButtonUi 30) (List.replicate 31 .buttonPressed)).map
      (·.engine.state) = some .FAILURE := by
    decide +kernel
  obtain ⟨d, hrun, hstate⟩ := Option.map_eq_some_iff.mp hrun
  exact ⟨d, hrun, hstate, buttonGame_can_end (by decide) hrun⟩

end ButtonGame

end AlarmClock
