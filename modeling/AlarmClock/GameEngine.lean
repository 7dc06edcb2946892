import AlarmClock.Lib.Machine
import Mathlib.Data.List.Basic

/-!
# The game engine

Press the button exactly `m_targetCount` times within fifteen seconds. The engine has a
countdown, which ticks every second, and a success timer, which runs from the press that
reaches the target; presses, restarts and both timers interleave in any order. A tick or
an expiry is delivered while its timer is active.
-/

namespace AlarmClock

namespace GameEngine

inductive State where
  | READY
  | PLAYING
  | SUCCESS
  | FAILURE
deriving DecidableEq, Repr

def GAME_DURATION : Int := 15
def TARGET_MIN : Int := 30
def TARGET_MAX : Int := 60

inductive Signal where
  | stateChanged (newState : State)
  | countUpdated (count : Int)
  | countdownUpdated (secondsLeft : Int)
  | gameSuccess
  | gameFailure
deriving DecidableEq, Repr

end GameEngine

open GameEngine in
/-- The members of the engine and what it has emitted, oldest first. The success timer
    holds its interval while it is active. -/
structure GameEngine where
  state : State := .READY
  count : Int := 0
  targetCount : Int := TARGET_MIN
  secondsLeft : Int := GAME_DURATION
  countdownTimer : Bool := false
  successTimer : Option Int := none
  emitted : List Signal := []
deriving DecidableEq, Repr

namespace GameEngine

/-! ### The slots -/

def emitSignal (s : Signal) (g : GameEngine) : GameEngine := { g with emitted := g.emitted ++ [s] }

def setState (s : State) (g : GameEngine) : GameEngine :=
  if g.state = s then g else emitSignal (.stateChanged s) { g with state := s }

/-- `target` is what the random generator returns. -/
def startGame (target : Int) (g : GameEngine) : GameEngine :=
  if g.state ≠ .READY then g
  else
    let g := { g with targetCount := target, count := 0, secondsLeft := GAME_DURATION }
    let g := emitSignal (.countdownUpdated g.secondsLeft) (emitSignal (.countUpdated g.count) g)
    { setState .PLAYING g with countdownTimer := true }

def onButtonPressed (g : GameEngine) : GameEngine :=
  if g.state ≠ .PLAYING then g
  else
    let g := { g with count := g.count + 1 }
    let g := emitSignal (.countUpdated g.count) g
    if g.count > g.targetCount then
      -- overshoot: immediate failure
      emitSignal .gameFailure
        (setState .FAILURE { g with countdownTimer := false, successTimer := none })
    else if g.count = g.targetCount then
      let waitMs := if g.secondsLeft > 3 then 3000 else g.secondsLeft * 1000
      if waitMs > 0 then { g with successTimer := some waitMs }
      else
        -- no time remaining: immediate success
        emitSignal .gameSuccess (setState .SUCCESS { g with countdownTimer := false })
    else g

def onCountdownTick (g : GameEngine) : GameEngine :=
  let g := { g with secondsLeft := g.secondsLeft - 1 }
  let g := emitSignal (.countdownUpdated g.secondsLeft) g
  if g.secondsLeft ≤ 0 then
    let g := { g with countdownTimer := false, successTimer := none }
    if g.count = g.targetCount then emitSignal .gameSuccess (setState .SUCCESS g)
    else emitSignal .gameFailure (setState .FAILURE g)
  else g

def onSuccessTimerFired (g : GameEngine) : GameEngine :=
  if g.state ≠ .PLAYING then g
  else emitSignal .gameSuccess (setState .SUCCESS { g with countdownTimer := false })

def restartGame (target : Int) (g : GameEngine) : GameEngine :=
  let g := { g with
    countdownTimer := false
    successTimer := none
    count := 0
    targetCount := 0
    secondsLeft := GAME_DURATION }
  startGame target (setState .READY (emitSignal (.countUpdated g.count) g))

/-! ### Steps -/

inductive Event where
  | startGame (target : Int)
  | onButtonPressed
  | restartGame (target : Int)
  | countdownTick
  | successTimeout
deriving DecidableEq, Repr

/-- A random target in its range. -/
def drawn (target : Int) (g : GameEngine) : Option GameEngine :=
  if TARGET_MIN ≤ target ∧ target ≤ TARGET_MAX then some g else none

/-- The success timer is single-shot: it is inactive when its slot runs. -/
def step (g : GameEngine) : Event → Option GameEngine
  | .startGame target => (drawn target g).map (startGame target)
  | .onButtonPressed => some (onButtonPressed g)
  | .restartGame target => (drawn target g).map (restartGame target)
  | .countdownTick => if g.countdownTimer then some (onCountdownTick g) else none
  | .successTimeout =>
    if g.successTimer.isSome then some (onSuccessTimerFired { g with successTimer := none })
    else none

/-! ### The invariant -/

/-- The timers run exactly in a game; the count has not passed the target, the success
    timer runs exactly on the target, and there is time left. -/
structure Inv (g : GameEngine) : Prop where
  playing : g.state = .PLAYING ↔ g.countdownTimer = true
  seconds : g.state = .PLAYING → 1 ≤ g.secondsLeft ∧ g.secondsLeft ≤ GAME_DURATION
  count : g.state = .PLAYING → 0 ≤ g.count ∧ g.count ≤ g.targetCount
  success : g.state = .PLAYING → (g.successTimer.isSome ↔ g.count = g.targetCount)
  idle : g.state ≠ .PLAYING → g.countdownTimer = false ∧ g.successTimer = none

variable {g g' : GameEngine}

theorem inv_init : Inv {} := by
  constructor <;> simp

/-- What a game looks like right after it was started. -/
structure Started (target : Int) (g g' : GameEngine) : Prop where
  state : g'.state = .PLAYING
  count : g'.count = 0
  targetCount : g'.targetCount = target
  secondsLeft : g'.secondsLeft = GAME_DURATION
  countdownTimer : g'.countdownTimer = true
  successTimer : g'.successTimer = none

/-- **Every step**, with its guards and its result. -/
inductive StepTo (g : GameEngine) : Event → GameEngine → Prop where
  | ignored (e : Event) (he : e = .onButtonPressed ∧ g.state ≠ .PLAYING ∨
      ∃ target, e = .startGame target ∧ g.state ≠ .READY) : StepTo g e g
  | started (e : Event) (target : Int) (g' : GameEngine)
      (he : e = .startGame target ∧ g.state = .READY ∨ e = .restartGame target)
      (htarget : TARGET_MIN ≤ target ∧ target ≤ TARGET_MAX) (hstarted : Started target g g') :
      StepTo g e g'
  | counted (hplaying : g.state = .PLAYING) (hcount : g.count + 1 < g.targetCount) :
      StepTo g .onButtonPressed
        { g with count := g.count + 1, emitted := g.emitted ++ [.countUpdated (g.count + 1)] }
  | reached (waitMs : Int) (hwait : 0 < waitMs) (hplaying : g.state = .PLAYING)
      (hcount : g.count + 1 = g.targetCount) :
      StepTo g .onButtonPressed
        { g with
          count := g.count + 1
          successTimer := some waitMs
          emitted := g.emitted ++ [.countUpdated (g.count + 1)] }
  | overshot (hplaying : g.state = .PLAYING) (hcount : g.targetCount < g.count + 1) :
      StepTo g .onButtonPressed
        { g with
          state := .FAILURE
          count := g.count + 1
          countdownTimer := false
          successTimer := none
          emitted := g.emitted ++
            [.countUpdated (g.count + 1), .stateChanged .FAILURE, .gameFailure] }
  | ticked (hplaying : g.state = .PLAYING) (hseconds : 1 < g.secondsLeft) :
      StepTo g .countdownTick
        { g with
          secondsLeft := g.secondsLeft - 1
          emitted := g.emitted ++ [.countdownUpdated (g.secondsLeft - 1)] }
  | timeout (hplaying : g.state = .PLAYING) (hseconds : g.secondsLeft = 1) (s : State)
      (verdict : Signal)
      (hverdict : s = .SUCCESS ∧ verdict = .gameSuccess ∧ g.count = g.targetCount ∨
        s = .FAILURE ∧ verdict = .gameFailure ∧ g.count ≠ g.targetCount) :
      StepTo g .countdownTick
        { g with
          state := s
          secondsLeft := 0
          countdownTimer := false
          successTimer := none
          emitted := g.emitted ++ [.countdownUpdated 0, .stateChanged s, verdict] }
  | succeeded (hplaying : g.state = .PLAYING) (hcount : g.count = g.targetCount) :
      StepTo g .successTimeout
        { g with
          state := .SUCCESS
          countdownTimer := false
          successTimer := none
          emitted := g.emitted ++ [.stateChanged .SUCCESS, .gameSuccess] }

theorem drawn_eq_some {target : Int} :
    drawn target g = some g' ↔ (TARGET_MIN ≤ target ∧ target ≤ TARGET_MAX) ∧ g' = g := by
  unfold drawn
  split
  · next h => simp only [h, true_and, and_self, Option.some.injEq, eq_comm]
  · next h => simp only [h, false_and, reduceCtorEq]

theorem started_startGame (target : Int) (h : g.state = .READY) (hidle : g.successTimer = none) :
    Started target g (startGame target g) := by
  constructor <;> simp [startGame, setState, emitSignal, h, hidle]

theorem started_restartGame (target : Int) (g : GameEngine) :
    Started target g (restartGame target g) := by
  have hready : ∀ g' : GameEngine, (setState .READY g').state = .READY := by
    intro g'
    unfold setState
    split
    · assumption
    · rfl
  have hidle : ∀ g' : GameEngine, g'.successTimer = none →
      (setState .READY g').successTimer = none := by
    intro g' h
    unfold setState
    split
    · exact h
    · exact h
  obtain ⟨h₁, h₂, h₃, h₄, h₅, h₆⟩ := started_startGame target (hready _) (hidle (emitSignal
    (.countUpdated 0) { g with
      countdownTimer := false
      successTimer := none
      count := 0
      targetCount := 0
      secondsLeft := GAME_DURATION }) rfl)
  exact ⟨h₁, h₂, h₃, h₄, h₅, h₆⟩

theorem press_cases (h : Inv g) (hplaying : g.state = .PLAYING) :
    StepTo g .onButtonPressed (onButtonPressed g) := by
  rcases Int.lt_trichotomy (g.count + 1) g.targetCount with hlt | heq | hgt
  · have hpress : onButtonPressed g =
        { g with count := g.count + 1, emitted := g.emitted ++ [.countUpdated (g.count + 1)] } := by
      simp [onButtonPressed, emitSignal, hplaying, Int.ne_of_lt hlt,
        Int.not_lt.mpr (Int.le_of_lt hlt)]
    rw [hpress]
    exact .counted hplaying hlt
  · -- there is time left, so that the success timer runs
    have hwait : 0 < if g.secondsLeft > 3 then (3000 : Int) else g.secondsLeft * 1000 := by
      have := (h.seconds hplaying).1
      split <;> omega
    have hpress : onButtonPressed g =
        { g with
          count := g.count + 1
          successTimer := some (if g.secondsLeft > 3 then 3000 else g.secondsLeft * 1000)
          emitted := g.emitted ++ [.countUpdated (g.count + 1)] } := by
      simp only [onButtonPressed, emitSignal, hplaying, heq, ne_eq, not_true_eq_false, if_false,
        gt_iff_lt, Int.lt_irrefl, if_true, if_pos hwait]
    rw [hpress]
    exact .reached _ hwait hplaying heq
  · have hpress : onButtonPressed g =
        { g with
          state := .FAILURE
          count := g.count + 1
          countdownTimer := false
          successTimer := none
          emitted := g.emitted ++
            [.countUpdated (g.count + 1), .stateChanged .FAILURE, .gameFailure] } := by
      simp [onButtonPressed, setState, emitSignal, hplaying, hgt]
    rw [hpress]
    exact .overshot hplaying hgt

theorem tick_cases (h : Inv g) (hplaying : g.state = .PLAYING) :
    StepTo g .countdownTick (onCountdownTick g) := by
  obtain ⟨hone, -⟩ := h.seconds hplaying
  by_cases hlast : g.secondsLeft = 1
  · by_cases hcount : g.count = g.targetCount
    · have htick : onCountdownTick g =
          { g with
            state := .SUCCESS
            secondsLeft := 0
            countdownTimer := false
            successTimer := none
            emitted := g.emitted ++
              [.countdownUpdated 0, .stateChanged .SUCCESS, .gameSuccess] } := by
        simp [onCountdownTick, setState, emitSignal, hplaying, hlast, hcount]
      rw [htick]
      exact .timeout hplaying hlast _ _ (.inl ⟨rfl, rfl, hcount⟩)
    · have htick : onCountdownTick g =
          { g with
            state := .FAILURE
            secondsLeft := 0
            countdownTimer := false
            successTimer := none
            emitted := g.emitted ++
              [.countdownUpdated 0, .stateChanged .FAILURE, .gameFailure] } := by
        simp [onCountdownTick, setState, emitSignal, hplaying, hlast, hcount]
      rw [htick]
      exact .timeout hplaying hlast _ _ (.inr ⟨rfl, rfl, hcount⟩)
  · have hmore : 1 < g.secondsLeft := by omega
    have htick : onCountdownTick g =
        { g with
          secondsLeft := g.secondsLeft - 1
          emitted := g.emitted ++ [.countdownUpdated (g.secondsLeft - 1)] } := by
      exact if_neg (by show ¬ g.secondsLeft - 1 ≤ 0; omega)
    rw [htick]
    exact .ticked hplaying hmore

theorem step_cases (h : Inv g) {e : Event} (hstep : step g e = some g') : StepTo g e g' := by
  cases e with
  | startGame target =>
    obtain ⟨g₁, h₁, rfl⟩ := Option.map_eq_some_iff.mp hstep
    obtain ⟨htarget, rfl⟩ := drawn_eq_some.mp h₁
    by_cases hready : g₁.state = .READY
    · have hidle := (h.idle (by rw [hready]; decide)).2
      exact .started _ target _ (.inl ⟨rfl, hready⟩) htarget (started_startGame target hready hidle)
    · have hignored : startGame target g₁ = g₁ := if_pos hready
      rw [hignored]
      exact .ignored _ (.inr ⟨target, rfl, hready⟩)
  | onButtonPressed =>
    obtain rfl := Option.some.inj hstep
    by_cases hplaying : g.state = .PLAYING
    · exact press_cases h hplaying
    · have hignored : onButtonPressed g = g := if_pos hplaying
      rw [hignored]
      exact .ignored _ (.inl ⟨rfl, hplaying⟩)
  | restartGame target =>
    obtain ⟨g₁, h₁, rfl⟩ := Option.map_eq_some_iff.mp hstep
    obtain ⟨htarget, rfl⟩ := drawn_eq_some.mp h₁
    exact .started _ target _ (.inr rfl) htarget (started_restartGame target g₁)
  | countdownTick =>
    simp only [step] at hstep
    split at hstep
    · next hactive =>
      obtain rfl := Option.some.inj hstep
      exact tick_cases h (h.playing.mpr hactive)
    · cases hstep
  | successTimeout =>
    simp only [step] at hstep
    split at hstep
    · next hactive =>
      obtain rfl := Option.some.inj hstep
      have hplaying : g.state = .PLAYING := by
        by_contra hne
        rw [(h.idle hne).2] at hactive
        cases hactive
      have hfired : onSuccessTimerFired { g with successTimer := none } =
          { g with
            state := .SUCCESS
            countdownTimer := false
            successTimer := none
            emitted := g.emitted ++ [.stateChanged .SUCCESS, .gameSuccess] } := by
        simp [onSuccessTimerFired, setState, emitSignal, hplaying]
      rw [hfired]
      exact .succeeded hplaying ((h.success hplaying).mp hactive)
    · cases hstep

theorem Started.inv {target : Int} (hstarted : Started target g g')
    (htarget : TARGET_MIN ≤ target) : Inv g' := by
  obtain ⟨hstate, hcount, htarget', hseconds, hcountdown, hsuccess⟩ := hstarted
  unfold TARGET_MIN at htarget
  constructor
  · simp [hstate, hcountdown]
  · intro _
    rw [hseconds]
    decide
  · intro _
    rw [hcount, htarget']
    omega
  · intro _
    rw [hsuccess, hcount, htarget']
    simp only [Option.isSome_none, Bool.false_eq_true, false_iff]
    omega
  · intro hne
    exact absurd hstate hne

/-- **Every step keeps the invariant.** -/
theorem inv_step (h : Inv g) {e : Event} (hstep : step g e = some g') : Inv g' := by
  cases step_cases h hstep with
  | ignored e he => exact h
  | started e target g' he htarget hstarted => exact hstarted.inv htarget.1
  | counted hplaying hcount =>
    have hrange := h.count hplaying
    refine ⟨h.playing, h.seconds, fun _ => ?_, fun _ => ?_, h.idle⟩
    · dsimp only
      omega
    · have hsuccess := h.success hplaying
      dsimp only
      rw [hsuccess]
      omega
  | reached waitMs hwait hplaying hcount =>
    have hrange := h.count hplaying
    refine ⟨h.playing, h.seconds, fun _ => ?_, fun _ => ?_, fun hne => absurd hplaying hne⟩
    · dsimp only
      omega
    · simpa using hcount
  | overshot hplaying hcount => constructor <;> simp
  | ticked hplaying hseconds =>
    have hrange := h.seconds hplaying
    refine ⟨h.playing, ?_, h.count, h.success, h.idle⟩
    intro _
    dsimp only
    omega
  | timeout hplaying hseconds s verdict hverdict =>
    have hover : s ≠ .PLAYING := by
      rcases hverdict with ⟨rfl, -⟩ | ⟨rfl, -⟩
      · decide
      · decide
    constructor <;> simp [hover]
  | succeeded hplaying hcount => constructor <;> simp

/-! ### One game -/

def NoRestart : Event → Prop
  | .restartGame _ => False
  | _ => True

def ticks (es : List Event) : Nat := es.count .countdownTick

/-- The presses that were accepted: those in a game. -/
def accepted (g : GameEngine) (es : List Event) : Nat :=
  Machine.countRun step (fun g e => e = .onButtonPressed ∧ g.state = .PLAYING) g es

def isVerdict (s : Signal) : Bool := s = .gameSuccess ∨ s = .gameFailure

/-- The verdicts emitted since `g`. -/
def verdicts (g g' : GameEngine) : List Signal :=
  (g'.emitted.drop g.emitted.length).filter isVerdict

/-- The state of a game and its verdicts after some ticks and accepted presses. -/
inductive Outcome (target : Int) (ticks accepted : Nat) : State → List Signal → Prop where
  | playing (hticks : (ticks : Int) < GAME_DURATION) : Outcome target ticks accepted .PLAYING []
  | success (hticks : (ticks : Int) ≤ GAME_DURATION) (haccepted : (accepted : Int) = target) :
      Outcome target ticks accepted .SUCCESS [.gameSuccess]
  | failure (hticks : (ticks : Int) ≤ GAME_DURATION)
      (haccepted : target < accepted ∨
        ((accepted : Int) ≠ target ∧ (ticks : Int) = GAME_DURATION)) :
      Outcome target ticks accepted .FAILURE [.gameFailure]

theorem Outcome.of_playing {target : Int} {ticks accepted : Nat} {vs : List Signal}
    (h : Outcome target ticks accepted .PLAYING vs) : (ticks : Int) < GAME_DURATION ∧ vs = [] := by
  cases h with
  | playing hticks => exact ⟨hticks, rfl⟩

/-- The course of a game that started in `g₀`, after the events. -/
structure Course (g₀ : GameEngine) (es : List Event) (g : GameEngine) : Prop where
  inv : Inv g
  targetCount : g.targetCount = g₀.targetCount
  count : g.count = accepted g₀ es
  secondsLeft : g.state = .PLAYING → g.secondsLeft = GAME_DURATION - ticks es
  emitted : ∃ new, g.emitted = g₀.emitted ++ new ∧
    Outcome g₀.targetCount (ticks es) (accepted g₀ es) g.state (new.filter isVerdict)

theorem Course.init {target : Int} (hstarted : Started target g g')
    (htarget : TARGET_MIN ≤ target) : Course g' [] g' := by
  refine ⟨hstarted.inv htarget, rfl, hstarted.count, fun _ => hstarted.secondsLeft, [], ?_, ?_⟩
  · rw [List.append_nil]
  · rw [hstarted.state]
    exact .playing (by decide)

theorem ticks_concat (es : List Event) (e : Event) :
    ticks (es ++ [e]) = ticks es + if e = .countdownTick then 1 else 0 := by
  unfold ticks
  rw [List.count_append, List.count_singleton]
  simp only [beq_iff_eq]

theorem accepted_concat {g₀ : GameEngine} {es : List Event}
    (hrun : Machine.run step g₀ es = some g) (e : Event) :
    accepted g₀ (es ++ [e]) =
      accepted g₀ es + if e = .onButtonPressed ∧ g.state = .PLAYING then 1 else 0 := by
  unfold accepted
  rw [Machine.countRun_concat hrun]
  simp only [decide_eq_true_eq]

/-- A game that is on goes through some more events: no verdict has been emitted before. -/
theorem Course.extend {g₀ : GameEngine} {es es' : List Event} (h : Course g₀ es g)
    (hplaying : g.state = .PLAYING) (hinv : Inv g') (htarget : g'.targetCount = g.targetCount)
    (new : List Signal) (hemitted : g'.emitted = g.emitted ++ new)
    (hcount : g'.count = accepted g₀ es')
    (hseconds : g'.state = .PLAYING → g'.secondsLeft = GAME_DURATION - ticks es')
    (houtcome : (ticks es : Int) < GAME_DURATION →
      Outcome g₀.targetCount (ticks es') (accepted g₀ es') g'.state (new.filter isVerdict)) :
    Course g₀ es' g' := by
  obtain ⟨old, hold, hbefore⟩ := h.emitted
  rw [hplaying] at hbefore
  obtain ⟨hlt, hnone⟩ := hbefore.of_playing
  refine ⟨hinv, htarget.trans h.targetCount, hcount, hseconds, old ++ new, ?_, ?_⟩
  · rw [hemitted, hold, List.append_assoc]
  · rw [List.filter_append, hnone, List.nil_append]
    exact houtcome hlt

theorem Course.count_press {g₀ : GameEngine} {es : List Event} (h : Course g₀ es g)
    (hrun : Machine.run step g₀ es = some g) (hplaying : g.state = .PLAYING) :
    ticks (es ++ [.onButtonPressed]) = ticks es ∧
      g.count + 1 = accepted g₀ (es ++ [.onButtonPressed]) := by
  constructor
  · rw [ticks_concat, if_neg nofun, Nat.add_zero]
  · rw [accepted_concat hrun, if_pos ⟨rfl, hplaying⟩, Int.natCast_succ, h.count]

theorem Course.count_tick {g₀ : GameEngine} {es : List Event} (h : Course g₀ es g)
    (hrun : Machine.run step g₀ es = some g) :
    ticks (es ++ [.countdownTick]) = ticks es + 1 ∧
      g.count = accepted g₀ (es ++ [.countdownTick]) := by
  constructor
  · rw [ticks_concat, if_pos rfl]
  · rw [accepted_concat hrun, if_neg (fun he => nomatch he.1), Nat.add_zero, h.count]

/-- A press that leaves the game on. -/
theorem Course.press {g₀ : GameEngine} {es : List Event} (h : Course g₀ es g)
    (hrun : Machine.run step g₀ es = some g) (hplaying : g.state = .PLAYING) (hinv : Inv g')
    (hstate : g'.state = g.state) (htarget : g'.targetCount = g.targetCount)
    (hcount : g'.count = g.count + 1) (hseconds : g'.secondsLeft = g.secondsLeft)
    (hemitted : g'.emitted = g.emitted ++ [.countUpdated (g.count + 1)]) :
    Course g₀ (es ++ [.onButtonPressed]) g' := by
  obtain ⟨hticks, haccepted⟩ := h.count_press hrun hplaying
  apply h.extend hplaying hinv htarget _ hemitted (hcount.trans haccepted)
  · intro _
    rw [hticks, hseconds]
    exact h.secondsLeft hplaying
  · intro hlt
    rw [hticks, hstate, hplaying]
    exact .playing hlt

/-- **One more event in a game.** -/
theorem Course.next {g₀ : GameEngine} {es : List Event} (h : Course g₀ es g)
    (hrun : Machine.run step g₀ es = some g) {e : Event} (he : NoRestart e)
    (hstep : step g e = some g') : Course g₀ (es ++ [e]) g' := by
  have hinv := inv_step h.inv hstep
  cases step_cases h.inv hstep with
  | ignored e hignored =>
    have hsame : ticks (es ++ [e]) = ticks es ∧ accepted g₀ (es ++ [e]) = accepted g₀ es := by
      rcases hignored with ⟨rfl, hnot⟩ | ⟨target, rfl, -⟩
      · simp [ticks_concat, accepted_concat hrun, hnot]
      · simp [ticks_concat, accepted_concat hrun]
    obtain ⟨new, hnew, houtcome⟩ := h.emitted
    refine ⟨hinv, h.targetCount, ?_, ?_, new, hnew, ?_⟩
    · rw [hsame.2]
      exact h.count
    · rw [hsame.1]
      exact h.secondsLeft
    · rw [hsame.1, hsame.2]
      exact houtcome
  | started e target g' hcause htarget hstarted =>
    -- a game that was started never is in `READY` again without a restart
    rcases hcause with ⟨rfl, hready⟩ | rfl
    · obtain ⟨new, -, houtcome⟩ := h.emitted
      rw [hready] at houtcome
      cases houtcome
    · exact absurd he id
  | counted hplaying hcount => exact h.press hrun hplaying hinv rfl rfl rfl rfl rfl
  | reached waitMs hwait hplaying hcount => exact h.press hrun hplaying hinv rfl rfl rfl rfl rfl
  | overshot hplaying hcount =>
    obtain ⟨hticks, haccepted⟩ := h.count_press hrun hplaying
    apply h.extend hplaying hinv rfl _ rfl haccepted nofun
    intro hlt
    rw [hticks]
    refine .failure (Int.le_of_lt hlt) (.inl ?_)
    rw [← haccepted, ← h.targetCount]
    exact hcount
  | ticked hplaying hseconds =>
    obtain ⟨hticks, haccepted⟩ := h.count_tick hrun
    have hleft := h.secondsLeft hplaying
    apply h.extend hplaying hinv rfl _ rfl haccepted
    · intro _
      rw [hticks]
      dsimp only
      omega
    · intro hlt
      rw [hticks]
      show Outcome _ _ _ g.state _
      rw [hplaying]
      apply Outcome.playing
      omega
  | timeout hplaying hseconds s verdict hverdict =>
    obtain ⟨hticks, haccepted⟩ := h.count_tick hrun
    have hleft := h.secondsLeft hplaying
    have hlast : (ticks (es ++ [.countdownTick]) : Int) = GAME_DURATION := by
      rw [hticks]
      omega
    apply h.extend hplaying hinv rfl _ rfl haccepted
    · intro hagain
      rcases hverdict with ⟨rfl, -⟩ | ⟨rfl, -⟩
      · cases hagain
      · cases hagain
    · intro _
      rw [← h.targetCount]
      rcases hverdict with ⟨rfl, rfl, heq⟩ | ⟨rfl, rfl, hne⟩
      · exact .success (Int.le_of_eq hlast) (haccepted.symm.trans heq)
      · exact .failure (Int.le_of_eq hlast) (.inr ⟨haccepted ▸ hne, hlast⟩)
  | succeeded hplaying hcount =>
    have hsame : ticks (es ++ [.successTimeout]) = ticks es ∧
        accepted g₀ (es ++ [.successTimeout]) = accepted g₀ es := by
      simp [ticks_concat, accepted_concat hrun]
    refine h.extend hplaying hinv rfl _ rfl ?_ nofun ?_
    · rw [hsame.2]
      exact h.count
    · intro hlt
      rw [hsame.1, hsame.2, ← h.targetCount]
      exact .success (Int.le_of_lt hlt) (h.count.symm.trans hcount)

theorem Course.run {target : Int} {g₀ : GameEngine} (hstarted : Started target g g₀)
    (htarget : TARGET_MIN ≤ target) {es : List Event} (hes : ∀ e ∈ es, NoRestart e)
    (hrun : Machine.run step g₀ es = some g') : Course g₀ es g' := by
  have hcourse : (∀ e ∈ es, NoRestart e) → Course g₀ es g' := by
    refine Machine.run_history (I := fun es g' => (∀ e ∈ es, NoRestart e) → Course g₀ es g')
      (fun _ => Course.init hstarted htarget) ?_ hrun
    intro pre t e t' hpre hcourse hstep hall
    have hbefore := hcourse fun e he => hall e (by simp [he])
    exact hbefore.next hpre (hall e (by simp)) hstep
  exact hcourse hes

theorem Course.outcome {g₀ : GameEngine} {es : List Event} (h : Course g₀ es g) :
    Outcome g₀.targetCount (ticks es) (accepted g₀ es) g.state (verdicts g₀ g) := by
  obtain ⟨new, hnew, houtcome⟩ := h.emitted
  unfold verdicts
  rw [hnew, List.drop_left]
  exact houtcome

end GameEngine

open GameEngine

/-- **The engine.** In every reachable state the timers are right; and from every start of a
    game, as long as it is not restarted, there are at most fifteen ticks, and the game is
    either still on with no verdict, or over with exactly one: a success when exactly the
    target was pressed, a failure when it was passed or missed at the last tick. -/
theorem game_run {g g₀ : GameEngine} {es : List Event} (hrun : Machine.run step {} es = some g) :
    Inv g ∧ ∀ e, (∃ target, e = .startGame target ∧ g.state = .READY ∨ e = .restartGame target) →
      step g e = some g₀ → ∀ es' g', (∀ e' ∈ es', NoRestart e') →
        Machine.run step g₀ es' = some g' →
        Outcome g₀.targetCount (ticks es') (accepted g₀ es') g'.state (verdicts g₀ g') := by
  have hinv : Inv g := Machine.run_invariant (fun _ _ _ h hs => inv_step h hs) inv_init hrun
  refine ⟨hinv, ?_⟩
  rintro e ⟨target, hcause⟩ hstep es' g' hes' hrun'
  obtain ⟨target', htarget, hstarted⟩ : ∃ target', TARGET_MIN ≤ target' ∧ Started target' g g₀ := by
    cases step_cases hinv hstep with
    | ignored e he =>
      rcases hcause with ⟨rfl, hready⟩ | rfl
      · rcases he with ⟨he, -⟩ | ⟨-, -, hnot⟩
        · cases he
        · exact absurd hready hnot
      · rcases he with ⟨he, -⟩ | ⟨_, he, -⟩
        · cases he
        · cases he
    | started e target' g₀ he htarget hstarted => exact ⟨target', htarget.1, hstarted⟩
    | _ => rcases hcause with ⟨he, -⟩ | he <;> cases he
  exact (Course.run hstarted htarget hes' hrun').outcome

/-- A game that is won: thirty presses, and the success timer runs out after two ticks. -/
def wonGame : List Event :=
  List.replicate 30 .onButtonPressed ++ [.countdownTick, .countdownTick, .successTimeout]

theorem game_run_won :
    ∃ g₀ g', step {} (.startGame 30) = some g₀ ∧ Machine.run step g₀ wonGame = some g' ∧
      g'.state = .SUCCESS ∧ ticks wonGame = 2 ∧ accepted g₀ wonGame = 30 ∧
      Outcome g₀.targetCount (ticks wonGame) (accepted g₀ wonGame) g'.state (verdicts g₀ g') := by
  have hstart : step {} (.startGame 30) = some _ := rfl
  have hwon : (Machine.run step (Option.get (step {} (.startGame 30)) rfl) wonGame).map (·.state) =
      some .SUCCESS := by decide +kernel
  obtain ⟨g', hrun, hstate⟩ := Option.map_eq_some_iff.mp hwon
  have hnone : Machine.run step {} [] = some {} := rfl
  have hes : ∀ e ∈ wonGame, NoRestart e := by
    intro e he
    rcases List.mem_append.mp he with he | he
    · rw [List.eq_of_mem_replicate he]
      trivial
    · simp only [List.mem_cons, List.not_mem_nil, or_false] at he
      rcases he with rfl | rfl | rfl <;> trivial
  refine ⟨_, g', hstart, hrun, hstate, by decide +kernel, by decide +kernel, ?_⟩
  exact (game_run hnone).2 (.startGame 30) ⟨30, .inl ⟨rfl, rfl⟩⟩ hstart wonGame g' hes hrun

end AlarmClock
