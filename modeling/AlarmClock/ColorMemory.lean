import AlarmClock.DateTime
import AlarmClock.Lib.Machine

/-!
# The Color Memory game

Three rounds of four colours. A round is a chain of single-shot timers: the round starts,
each colour is shown and hidden, and after the last one the four buttons are enabled. The
last click of a round, right or wrong, disables them again and starts the next chain. The
counters, the flag, the buttons and the timers are kept as the dialog keeps them; the draws
of the random generator and the order of timers and clicks are left to the events. A timer
may fire at any time, so nothing below depends on the intervals.
-/

namespace AlarmClock.ColorMemory

inductive Slot where
  | startColorMemoryRound
  | showColorMemoryStep
  | hideColor
deriving DecidableEq, Repr

/-- `QTimer::singleShot(msec, this, slot)`, not yet fired. -/
structure Timer where
  slot : Slot
  msec : Nat
deriving DecidableEq, Repr

structure DismissDialog where
  colorSequence : List (Fin 4)
  colorRound : Nat
  colorShowIndex : Nat
  colorInputIndex : Nat
  showingSequence : Bool
  /-- The buttons that are enabled. -/
  colorButtons : Fin 4 → Bool
  colorStatusLabel : QString
  colorPreviewLabel : QString
  /-- The colour behind the label; `none` is grey. -/
  previewColor : Option (Fin 4)
  /-- The time of the last restart. -/
  actionTimer : Nat
  timers : List Timer
  /-- How often `accept` has been called. -/
  accepted : Nat
  clock : Nat

/-! ### Texts -/

def watchText (colorRound len : Nat) : QString :=
  "Round ".toList ++ TextFormat.decimal (colorRound + 1) ++ "/3 - Watch ".toList ++
    TextFormat.decimal len ++ " colors carefully".toList

def correctText (colorInputIndex size : Nat) : QString :=
  "Correct ".toList ++ TextFormat.decimal colorInputIndex ++ "/".toList ++ TextFormat.decimal size

def clearedText (colorRound : Nat) : QString :=
  "Round cleared. Next round: ".toList ++ TextFormat.decimal (colorRound + 1) ++ "/3".toList

def wrongText (colorRound : Nat) : QString :=
  "Wrong sequence. Retry round ".toList ++ TextFormat.decimal (colorRound + 1)

def colorLabel : Fin 4 → QString
  | 0 => "RED".toList
  | 1 => "BLUE".toList
  | 2 => "YELLOW".toList
  | 3 => "GREEN".toList

/-! ### The slots

`none` is an access outside a list or an array. -/

def roundLengths : List Nat := [4, 4, 4]

def setPreviewColor (color : Option (Fin 4)) (d : DismissDialog) : DismissDialog :=
  match color with
  | none => { d with previewColor := none }
  | some c => { d with previewColor := some c, colorPreviewLabel := colorLabel c }

def singleShot (msec : Nat) (slot : Slot) (d : DismissDialog) : DismissDialog :=
  { d with timers := d.timers ++ [⟨slot, msec⟩] }

def setEnabled (on : Bool) (d : DismissDialog) : DismissDialog :=
  { d with colorButtons := fun _ => on }

/-- `draws` are the next values of the random generator. -/
def startColorMemoryRound (draws : Nat → Fin 4) (d : DismissDialog) : Option DismissDialog :=
  if d.colorRound ≥ 3 then some { d with accepted := d.accepted + 1 }
  else do
    let len ← roundLengths[d.colorRound]?
    let d := { d with
      colorSequence := (List.range len).map draws
      colorShowIndex := 0
      colorInputIndex := 0
      showingSequence := true }
    let d := setEnabled false d
    let d := { d with
      colorStatusLabel := watchText d.colorRound len
      colorPreviewLabel := "WATCH".toList }
    return singleShot 350 .showColorMemoryStep (setPreviewColor none d)

def showColorMemoryStep (d : DismissDialog) : Option DismissDialog :=
  if d.colorShowIndex ≥ d.colorSequence.length then
    some (setEnabled true (setPreviewColor none { d with
      showingSequence := false
      colorInputIndex := 0
      colorStatusLabel := "Now repeat the sequence".toList }))
  else do
    let color ← d.colorSequence[d.colorShowIndex]?
    return singleShot 700 .hideColor (setPreviewColor (some color) d)

/-- The slot of the timer that ends a colour. -/
def hideColor (d : DismissDialog) : DismissDialog :=
  let d := setPreviewColor none d
  singleShot 160 .showColorMemoryStep { d with colorShowIndex := d.colorShowIndex + 1 }

/-- The end of a round, won or lost: the buttons are disabled until the next has been shown. -/
def endRound (status : QString) (d : DismissDialog) : DismissDialog :=
  singleShot 700 .startColorMemoryRound (setEnabled false { d with colorStatusLabel := status })

def onColorClicked (now : Nat) (colorIndex : Fin 4) (d : DismissDialog) : Option DismissDialog :=
  if now - d.actionTimer < 300 then some d
  else
    let d := { d with actionTimer := now }
    if d.showingSequence then some d
    else if d.colorInputIndex ≥ d.colorSequence.length then some d
    else do
      let expected ← d.colorSequence[d.colorInputIndex]?
      if colorIndex = expected then
        let d := { d with
          colorInputIndex := d.colorInputIndex + 1
          colorStatusLabel := correctText (d.colorInputIndex + 1) d.colorSequence.length }
        if d.colorInputIndex = d.colorSequence.length then
          let d := { d with colorRound := d.colorRound + 1 }
          if d.colorRound ≥ 3 then return { d with accepted := d.accepted + 1 }
          else return endRound (clearedText d.colorRound) d
        else return d
      else return endRound (wrongText d.colorRound) d

/-! ### Steps -/

/-- The timer in this place of the queue fires, or a button is clicked. -/
inductive Event where
  | expire (i : Nat) (draws : Nat → Fin 4)
  | click (now : Nat) (colorIndex : Fin 4)

/-- A timer fires when it is set, and a click reaches a button that is enabled. -/
def Deliverable (d : DismissDialog) : Event → Prop
  | .expire i _ => i < d.timers.length
  | .click now colorIndex => d.clock ≤ now ∧ d.colorButtons colorIndex = true

instance (d : DismissDialog) (ev : Event) : Decidable (Deliverable d ev) := by
  cases ev <;> unfold Deliverable <;> infer_instance

def fire (draws : Nat → Fin 4) (d : DismissDialog) : Slot → Option DismissDialog
  | .startColorMemoryRound => startColorMemoryRound draws d
  | .showColorMemoryStep => showColorMemoryStep d
  | .hideColor => some (hideColor d)

def handle (d : DismissDialog) : Event → Option DismissDialog
  | .expire i draws =>
    (d.timers[i]?).bind fun t => fire draws { d with timers := d.timers.eraseIdx i } t.slot
  | .click now colorIndex => onColorClicked now colorIndex { d with clock := now }

def step (d : DismissDialog) (ev : Event) : Option DismissDialog :=
  if Deliverable d ev then handle d ev else none

/-- The game as `buildColorMemoryGameUi` leaves it, at the draws of the first round. -/
def buildColorMemoryGameUi (now : Nat) (draws : Nat → Fin 4) : Option DismissDialog :=
  startColorMemoryRound draws
    { colorSequence := []
      colorRound := 0
      colorShowIndex := 0
      colorInputIndex := 0
      showingSequence := false
      colorButtons := fun _ => true
      colorStatusLabel := []
      colorPreviewLabel := "READY".toList
      previewColor := none
      actionTimer := now
      timers := []
      accepted := 0
      clock := now }

/-! ### What a slot does -/

variable {d d' : DismissDialog}

/-- A click at `now` is not held back, by the debounce or by a sequence on show, and is
    compared with the sequence. -/
def Accepts (d : DismissDialog) (now : Nat) : Prop :=
  300 ≤ now - d.actionTimer ∧ d.showingSequence = false ∧
    d.colorInputIndex < d.colorSequence.length

instance (d : DismissDialog) (now : Nat) : Decidable (Accepts d now) :=
  inferInstanceAs (Decidable (_ ∧ _ ∧ _))

/-- The dialog after a click. -/
inductive ClickTo (d : DismissDialog) (now : Nat) (colorIndex : Fin 4) : DismissDialog → Prop where
  | ignored (t : Nat) (hnot : ¬ Accepts d now) :
      ClickTo d now colorIndex { d with actionTimer := t, clock := now }
  | right (status : QString) (haccepts : Accepts d now)
      (hright : d.colorSequence[d.colorInputIndex]? = some colorIndex)
      (hmore : d.colorInputIndex + 1 < d.colorSequence.length) :
      ClickTo d now colorIndex
        { d with
          clock := now
          actionTimer := now
          colorInputIndex := d.colorInputIndex + 1
          colorStatusLabel := status }
  | cleared (status : QString) (haccepts : Accepts d now)
      (hright : d.colorSequence[d.colorInputIndex]? = some colorIndex)
      (hlast : d.colorInputIndex + 1 = d.colorSequence.length) (hround : d.colorRound + 1 < 3) :
      ClickTo d now colorIndex
        { d with
          clock := now
          actionTimer := now
          colorInputIndex := d.colorInputIndex + 1
          colorRound := d.colorRound + 1
          colorStatusLabel := status
          colorButtons := fun _ => false
          timers := d.timers ++ [⟨.startColorMemoryRound, 700⟩] }
  | won (status : QString) (haccepts : Accepts d now)
      (hright : d.colorSequence[d.colorInputIndex]? = some colorIndex)
      (hlast : d.colorInputIndex + 1 = d.colorSequence.length) (hround : 3 ≤ d.colorRound + 1) :
      ClickTo d now colorIndex
        { d with
          clock := now
          actionTimer := now
          colorInputIndex := d.colorInputIndex + 1
          colorRound := d.colorRound + 1
          colorStatusLabel := status
          accepted := d.accepted + 1 }
  | wrong (status : QString) (haccepts : Accepts d now)
      (hwrong : d.colorSequence[d.colorInputIndex]? ≠ some colorIndex) :
      ClickTo d now colorIndex
        { d with
          clock := now
          actionTimer := now
          colorStatusLabel := status
          colorButtons := fun _ => false
          timers := d.timers ++ [⟨.startColorMemoryRound, 700⟩] }

/-- **A click** never leaves the sequence. -/
theorem click_spec (d : DismissDialog) (now : Nat) (colorIndex : Fin 4) :
    ∃ d', handle d (.click now colorIndex) = some d' ∧ ClickTo d now colorIndex d' := by
  unfold handle onColorClicked
  dsimp only
  by_cases hdebounce : now - d.actionTimer < 300
  · rw [if_pos hdebounce]
    exact ⟨_, rfl, .ignored d.actionTimer fun h => Nat.not_le.mpr hdebounce h.1⟩
  · rw [if_neg hdebounce]
    by_cases hshowing : d.showingSequence = true
    · rw [if_pos hshowing]
      exact ⟨_, rfl, .ignored now fun h => Bool.noConfusion (hshowing.symm.trans h.2.1)⟩
    · rw [if_neg hshowing]
      by_cases hfull : d.colorInputIndex ≥ d.colorSequence.length
      · rw [if_pos hfull]
        exact ⟨_, rfl, .ignored now fun h => Nat.not_le.mpr h.2.2 hfull⟩
      · have hlt : d.colorInputIndex < d.colorSequence.length := Nat.not_le.mp hfull
        have haccepts : Accepts d now := ⟨Nat.not_lt.mp hdebounce, by simpa using hshowing, hlt⟩
        have hget := List.getElem?_eq_getElem hlt
        rw [if_neg hfull, hget]
        simp only [Option.bind_eq_bind, Option.bind_some]
        by_cases hright : colorIndex = d.colorSequence[d.colorInputIndex]
        · have hexpected : d.colorSequence[d.colorInputIndex]? = some colorIndex := by
            rw [hget, hright]
          rw [if_pos hright]
          by_cases hlast : d.colorInputIndex + 1 = d.colorSequence.length
          · rw [if_pos hlast]
            by_cases hround : d.colorRound + 1 ≥ 3
            · rw [if_pos hround]
              exact ⟨_, rfl, .won _ haccepts hexpected hlast hround⟩
            · rw [if_neg hround]
              exact ⟨_, rfl, .cleared _ haccepts hexpected hlast (Nat.not_le.mp hround)⟩
          · rw [if_neg hlast]
            exact ⟨_, rfl, .right _ haccepts hexpected (by omega)⟩
        · rw [if_neg hright]
          refine ⟨_, rfl, .wrong _ haccepts ?_⟩
          rw [hget]
          exact fun h => hright (Option.some.inj h).symm

/-- The stage of a game: a sequence is shown, the input is open, the next round is awaited, or
    the dialog has been accepted. -/
inductive Inv (d : DismissDialog) : Prop where
  | showing (t : Timer) (htimers : d.timers = [t])
      (hslot : t.slot = .showColorMemoryStep ∨
        t.slot = .hideColor ∧ d.colorShowIndex < d.colorSequence.length)
      (hshowing : d.showingSequence = true) (hoff : ∀ c, d.colorButtons c = false)
      (hinput : d.colorInputIndex = 0) (hlen : d.colorSequence.length = 4)
      (hround : d.colorRound < 3) (hnone : d.accepted = 0)
  | input (htimers : d.timers = []) (hshowing : d.showingSequence = false)
      (hon : ∀ c, d.colorButtons c = true) (hinput : d.colorInputIndex < 4)
      (hlen : d.colorSequence.length = 4) (hround : d.colorRound < 3) (hnone : d.accepted = 0)
  | waiting (t : Timer) (htimers : d.timers = [t]) (hslot : t.slot = .startColorMemoryRound)
      (hshowing : d.showingSequence = false) (hoff : ∀ c, d.colorButtons c = false)
      (hround : d.colorRound < 3) (hnone : d.accepted = 0)
  | closed (htimers : d.timers = []) (hshowing : d.showingSequence = false)
      (hinput : d.colorInputIndex = 4) (hlen : d.colorSequence.length = 4)
      (hround : d.colorRound = 3) (hone : d.accepted = 1)

theorem roundLengths_eq {n : Nat} (h : n < 3) : roundLengths[n]? = some 4 := by
  rcases n with _ | _ | _ | n
  · rfl
  · rfl
  · rfl
  · omega

/-- A round starts by showing its sequence. -/
theorem startColorMemoryRound_spec (draws : Nat → Fin 4) (hround : d.colorRound < 3)
    (htimers : d.timers = []) (hnone : d.accepted = 0) :
    ∃ d', startColorMemoryRound draws d = some d' ∧ Inv d' ∧ d'.colorRound = d.colorRound ∧
      d'.timers ≠ [] := by
  unfold startColorMemoryRound
  rw [if_neg (Nat.not_le.mpr hround), roundLengths_eq hround]
  simp only [Option.bind_eq_bind, Option.bind_some]
  refine ⟨_, rfl, ?_, rfl, by simp [singleShot]⟩
  refine .showing ⟨.showColorMemoryStep, 350⟩ ?_ (.inl rfl) rfl (fun _ => rfl) rfl ?_ hround hnone
  · simp [singleShot, setPreviewColor, setEnabled, htimers]
  · simp [singleShot, setPreviewColor, setEnabled]

/-- The only timer fires, and none is left. -/
theorem handle_expire {t : Timer} (htimers : d.timers = [t]) {i : Nat}
    (hi : i < d.timers.length) (draws : Nat → Fin 4) :
    handle d (.expire i draws) = fire draws { d with timers := [] } t.slot := by
  obtain rfl : i = 0 := by
    rw [htimers] at hi
    exact Nat.lt_one_iff.mp hi
  have hget : d.timers[0]? = some t := by
    rw [htimers]
    rfl
  have herase : d.timers.eraseIdx 0 = [] := by
    rw [htimers]
    rfl
  rw [handle, hget, Option.bind_some, herase]

/-- **A timer** never leaves the sequence or the table of rounds; the round stays, and the
    input opens at its beginning. -/
theorem expire_spec (h : Inv d) {i : Nat} (hi : i < d.timers.length) (draws : Nat → Fin 4) :
    ∃ d', handle d (.expire i draws) = some d' ∧ Inv d' ∧ d'.colorRound = d.colorRound ∧
      (d'.timers = [] → d'.colorInputIndex = 0) := by
  cases h with
  | showing t htimers hslot hshowing hoff hinput hlen hround hnone =>
    rw [handle_expire htimers hi]
    rcases hslot with hslot | ⟨hslot, hindex⟩
    · rw [hslot]
      by_cases hend : d.colorShowIndex ≥ d.colorSequence.length
      · simp only [fire, showColorMemoryStep, if_pos hend]
        refine ⟨_, rfl, ?_, rfl, fun _ => rfl⟩
        exact .input rfl rfl (fun _ => rfl) (Nat.zero_lt_succ 3) hlen hround hnone
      · have hlt := Nat.not_le.mp hend
        simp only [fire, showColorMemoryStep, if_neg hend, List.getElem?_eq_getElem hlt,
          Option.bind_eq_bind, Option.bind_some]
        refine ⟨_, rfl, ?_, rfl, fun _ => hinput⟩
        exact .showing ⟨.hideColor, 700⟩ rfl (.inr ⟨rfl, hlt⟩) hshowing hoff hinput hlen hround
          hnone
    · rw [hslot]
      refine ⟨_, rfl, ?_, rfl, fun _ => hinput⟩
      exact .showing ⟨.showColorMemoryStep, 160⟩ rfl (.inl rfl) hshowing hoff hinput hlen hround
        hnone
  | input htimers =>
    rw [htimers] at hi
    exact absurd hi (Nat.not_lt_zero i)
  | waiting t htimers hslot hshowing hoff hround hnone =>
    rw [handle_expire htimers hi, hslot]
    obtain ⟨d', hd', hinv, hround', hpending⟩ := startColorMemoryRound_spec
      (d := { d with timers := [] }) draws hround rfl hnone
    exact ⟨d', hd', hinv, hround', fun hidle => absurd hidle hpending⟩
  | closed htimers =>
    rw [htimers] at hi
    exact absurd hi (Nat.not_lt_zero i)

/-- A click that is delivered finds the input open, or the game over. -/
theorem delivered_click (h : Inv d) {c : Fin 4} (hc : d.colorButtons c = true) :
    d.timers = [] ∧ d.showingSequence = false ∧ d.colorSequence.length = 4 ∧
      ((d.colorInputIndex < 4 ∧ d.colorRound < 3 ∧ d.accepted = 0 ∧
          ∀ c, d.colorButtons c = true) ∨
        d.colorInputIndex = 4 ∧ d.colorRound = 3 ∧ d.accepted = 1) := by
  cases h with
  | showing t htimers hslot hshowing hoff => exact absurd ((hoff c).symm.trans hc) Bool.noConfusion
  | input htimers hshowing hon hinput hlen hround hnone =>
    exact ⟨htimers, hshowing, hlen, .inl ⟨hinput, hround, hnone, hon⟩⟩
  | waiting t htimers hslot hshowing hoff => exact absurd ((hoff c).symm.trans hc) Bool.noConfusion
  | closed htimers hshowing hinput hlen hround hone =>
    exact ⟨htimers, hshowing, hlen, .inr ⟨hinput, hround, hone⟩⟩

/-- Every step under the invariant: a timer, or a click on an enabled button. -/
theorem step_cases (h : Inv d) {ev : Event} (hstep : step d ev = some d') :
    (∃ i draws, ev = .expire i draws ∧ d.timers ≠ [] ∧ Inv d' ∧ d'.colorRound = d.colorRound ∧
      (d'.timers = [] → d'.colorInputIndex = 0)) ∨
    ∃ now c, ev = .click now c ∧ d.colorButtons c = true ∧
      handle d (.click now c) = some d' ∧ ClickTo d now c d' := by
  unfold step at hstep
  split at hstep
  · next hdeliver =>
    cases ev with
    | expire i draws =>
      obtain ⟨d'', hd'', hinv, hround, hopen⟩ := expire_spec h hdeliver draws
      obtain rfl := Option.some.inj (hd''.symm.trans hstep)
      have hpending : d.timers ≠ [] :=
        List.ne_nil_of_length_pos (Nat.lt_of_le_of_lt (Nat.zero_le i) hdeliver)
      exact .inl ⟨i, draws, rfl, hpending, hinv, hround, hopen⟩
    | click now c =>
      obtain ⟨d'', hd'', hto⟩ := click_spec d now c
      obtain rfl := Option.some.inj (hd''.symm.trans hstep)
      exact .inr ⟨now, c, rfl, hdeliver.2, hstep, hto⟩
  · cases hstep

/-- **One step** keeps the invariant. -/
theorem inv_step (h : Inv d) {ev : Event} (hstep : step d ev = some d') : Inv d' := by
  rcases step_cases h hstep with ⟨i, draws, rfl, -, hinv, -⟩ | ⟨now, c, rfl, hc, -, hto⟩
  · exact hinv
  · obtain ⟨htimers, hshowing, hlen, hstage⟩ := delivered_click h hc
    rcases hstage with ⟨hinput, hround, hnone, hon⟩ | ⟨hinput, hround, hone⟩
    · cases hto with
      | ignored t hnot => exact .input htimers hshowing hon hinput hlen hround hnone
      | right status haccepts hright hmore =>
        exact .input htimers hshowing hon (Nat.lt_of_lt_of_eq hmore hlen) hlen hround hnone
      | cleared status haccepts hright hlast hround' =>
        refine .waiting ⟨.startColorMemoryRound, 700⟩ ?_ rfl hshowing (fun _ => rfl) hround' hnone
        dsimp only
        rw [htimers]
        rfl
      | won status haccepts hright hlast hround' =>
        exact .closed htimers hshowing (hlast.trans hlen) hlen (by dsimp only; omega)
          (congrArg (· + 1) hnone)
      | wrong status haccepts hwrong =>
        refine .waiting ⟨.startColorMemoryRound, 700⟩ ?_ rfl hshowing (fun _ => rfl) hround hnone
        dsimp only
        rw [htimers]
        rfl
    · -- the game is over: the sequence is full, and the click is ignored
      have hfull : ¬ Accepts d now := by
        intro haccepts
        have := haccepts.2.2
        omega
      cases hto with
      | ignored t hnot => exact .closed htimers hshowing hinput hlen hround hone
      | right status haccepts => exact absurd haccepts hfull
      | cleared status haccepts => exact absurd haccepts hfull
      | won status haccepts => exact absurd haccepts hfull
      | wrong status haccepts => exact absurd haccepts hfull

/-! ### What the player enters -/

/-- The clicks accepted since a timer last fired, so since the sequence was last shown; the
    rounds passed, each a sequence and the clicks that passed it; and how many clicks have
    been accepted, and how many of them were wrong. -/
structure Notes where
  clicks : List (Fin 4) := []
  won : List (List (Fin 4) × List (Fin 4)) := []
  total : Nat := 0
  wrong : Nat := 0
deriving DecidableEq, Repr

def note (d : DismissDialog) (ev : Event) (notes : Notes) : Notes :=
  match ev with
  | .expire _ _ => { notes with clicks := [] }
  | .click now c =>
    if Accepts d now then
      { clicks := notes.clicks ++ [c]
        won := notes.won ++
          if (handle d ev).any fun d' => decide (d.colorRound < d'.colorRound) then
            [(d.colorSequence, notes.clicks ++ [c])]
          else []
        total := notes.total + 1
        wrong := notes.wrong + if d.colorSequence[d.colorInputIndex]? = some c then 0 else 1 }
    else notes

/-- The game and the notes tell the same story. -/
structure Noted (d : DismissDialog) (notes : Notes) : Prop where
  clicks : d.timers = [] → notes.clicks = d.colorSequence.take d.colorInputIndex
  rounds : notes.won.length = d.colorRound
  entered : ∀ p ∈ notes.won, p.2 = p.1 ∧ p.1.length = 4
  total : notes.wrong = 0 → notes.total =
    4 * d.colorRound + if d.timers = [] ∧ d.colorRound < 3 then d.colorInputIndex else 0

/-- The notes of a click that is compared with the sequence, by the round it leads to. -/
theorem note_click {notes : Notes} {now : Nat} {c : Fin 4} (haccepts : Accepts d now)
    (hhandle : handle d (.click now c) = some d') :
    note d (.click now c) notes =
      { clicks := notes.clicks ++ [c]
        won := notes.won ++
          if d.colorRound < d'.colorRound then [(d.colorSequence, notes.clicks ++ [c])] else []
        total := notes.total + 1
        wrong := notes.wrong + if d.colorSequence[d.colorInputIndex]? = some c then 0 else 1 } := by
  simp only [note, if_pos haccepts, hhandle, Option.any_some, decide_eq_true_eq]

/-- A right click adds the next colour. -/
theorem clicks_concat {clicks l : List (Fin 4)} {i : Nat} {c : Fin 4} (hclicks : clicks = l.take i)
    (hright : l[i]? = some c) : clicks ++ [c] = l.take (i + 1) := by
  rw [List.take_add_one, hright, hclicks]
  rfl

/-- A timer that fires starts the clicks anew. -/
theorem noted_expire {notes : Notes} (hnoted : Noted d notes) (hpending : d.timers ≠ [])
    (hround : d'.colorRound = d.colorRound) (hopen : d'.timers = [] → d'.colorInputIndex = 0)
    (i : Nat) (draws : Nat → Fin 4) : Noted d' (note d (.expire i draws) notes) where
  clicks := by
    intro hidle
    rw [hopen hidle]
    rfl
  rounds := hround.symm ▸ hnoted.rounds
  entered := hnoted.entered
  total := by
    intro hwrong
    have htotal := hnoted.total hwrong
    rw [if_neg fun hidle => hpending hidle.1] at htotal
    rw [hround]
    split
    · next hidle =>
      rw [hopen hidle.1, ← htotal]
      rfl
    · rw [← htotal]
      rfl

/-- The clicks of a round that is passed are its sequence. -/
theorem entered_concat {won : List (List (Fin 4) × List (Fin 4))} {clicks l : List (Fin 4)}
    {i : Nat} {c : Fin 4} (hwon : ∀ p ∈ won, p.2 = p.1 ∧ p.1.length = 4) (hlen : l.length = 4)
    (hclicks : clicks = l.take i) (hright : l[i]? = some c) (hlast : i + 1 = l.length) :
    ∀ p ∈ won ++ [(l, clicks ++ [c])], p.2 = p.1 ∧ p.1.length = 4 := by
  intro p hp
  rcases List.mem_append.mp hp with hp | hp
  · exact hwon p hp
  · obtain rfl := List.mem_singleton.mp hp
    refine ⟨?_, hlen⟩
    dsimp only
    rw [clicks_concat hclicks hright, hlast, List.take_length]

/-- **One step** keeps the story. -/
theorem noted_step {notes : Notes} (h : Inv d) (hnoted : Noted d notes) {ev : Event}
    (hstep : step d ev = some d') : Noted d' (note d ev notes) := by
  rcases step_cases h hstep with
    ⟨i, draws, rfl, hpending, hinv, hround, hopen⟩ | ⟨now, c, rfl, hc, hhandle, hto⟩
  · exact noted_expire hnoted hpending hround hopen i draws
  · obtain ⟨htimers, hshowing, hlen, hstage⟩ := delivered_click h hc
    have hclicks := hnoted.clicks htimers
    cases hto with
    | ignored t hnot =>
      have hnote : note d (.click now c) notes = notes := if_neg hnot
      rw [hnote]
      exact ⟨hnoted.clicks, hnoted.rounds, hnoted.entered, hnoted.total⟩
    | right status haccepts hright hmore =>
      have hinput : d.colorRound < 3 := by
        rcases hstage with ⟨-, hround, -⟩ | ⟨hfull, -⟩
        · exact hround
        · omega
      rw [note_click haccepts hhandle, if_neg (Nat.lt_irrefl _), if_pos hright, List.append_nil]
      refine ⟨fun _ => clicks_concat hclicks hright, hnoted.rounds, hnoted.entered, ?_⟩
      intro hwrong
      have htotal := hnoted.total hwrong
      rw [if_pos ⟨htimers, hinput⟩] at htotal
      dsimp only
      rw [if_pos ⟨htimers, hinput⟩, htotal]
      rfl
    | cleared status haccepts hright hlast hround =>
      rw [note_click haccepts hhandle, if_pos (Nat.lt_succ_self _), if_pos hright]
      have hround' : d.colorRound < 3 := Nat.lt_of_succ_lt hround
      refine ⟨fun hidle => absurd hidle (by simp), ?_,
        entered_concat hnoted.entered hlen hclicks hright hlast, fun hwrong => ?_⟩
      · rw [List.length_append, hnoted.rounds]
        rfl
      · have htotal := hnoted.total hwrong
        rw [if_pos ⟨htimers, hround'⟩] at htotal
        dsimp only
        rw [if_neg fun hidle => absurd hidle.1 (by simp), htotal]
        omega
    | won status haccepts hright hlast hround =>
      rw [note_click haccepts hhandle, if_pos (Nat.lt_succ_self _), if_pos hright]
      have hround' : d.colorRound < 3 := by
        rcases hstage with ⟨-, hround', -⟩ | ⟨hfull, -⟩
        · exact hround'
        · omega
      refine ⟨fun _ => clicks_concat hclicks hright, ?_,
        entered_concat hnoted.entered hlen hclicks hright hlast, fun hwrong => ?_⟩
      · rw [List.length_append, hnoted.rounds]
        rfl
      · have htotal := hnoted.total hwrong
        rw [if_pos ⟨htimers, hround'⟩] at htotal
        dsimp only
        rw [if_neg fun hidle => absurd hidle.2 (by omega), htotal]
        omega
    | wrong status haccepts hwrong =>
      rw [note_click haccepts hhandle, if_neg (Nat.lt_irrefl _), if_neg hwrong, List.append_nil]
      refine ⟨fun hidle => absurd hidle (by simp), hnoted.rounds, hnoted.entered, nofun⟩

/-! ### The game -/

theorem buildColorMemoryGameUi_spec (now : Nat) (draws : Nat → Fin 4) :
    ∃ d, buildColorMemoryGameUi now draws = some d ∧ Inv d ∧ Noted d {} := by
  obtain ⟨d, hd, hinv, hround, hpending⟩ := startColorMemoryRound_spec draws
    (d := { colorSequence := [], colorRound := 0, colorShowIndex := 0, colorInputIndex := 0,
            showingSequence := false, colorButtons := fun _ => true, colorStatusLabel := [],
            colorPreviewLabel := "READY".toList, previewColor := none, actionTimer := now,
            timers := [], accepted := 0, clock := now }) (Nat.zero_lt_succ 2) rfl rfl
  refine ⟨d, hd, hinv, ⟨fun hidle => absurd hidle hpending, hround.symm, ?_, fun _ => ?_⟩⟩
  · intro p hp
    cases hp
  · rw [if_neg fun hidle => hpending hidle.1, hround]
    rfl

/-- At most one timer is set, and none while a button is enabled. -/
theorem timers_of_inv (h : Inv d) : d.timers.length ≤ 1 ∧
    ((∃ c, d.colorButtons c = true) → d.timers = [] ∧ d.showingSequence = false) := by
  cases h with
  | showing t htimers hslot hshowing hoff =>
    refine ⟨by rw [htimers]; exact Nat.le_refl 1, ?_⟩
    rintro ⟨c, hc⟩
    exact absurd ((hoff c).symm.trans hc) Bool.noConfusion
  | input htimers hshowing =>
    exact ⟨by rw [htimers]; exact Nat.zero_le 1, fun _ => ⟨htimers, hshowing⟩⟩
  | waiting t htimers hslot hshowing hoff =>
    refine ⟨by rw [htimers]; exact Nat.le_refl 1, ?_⟩
    rintro ⟨c, hc⟩
    exact absurd ((hoff c).symm.trans hc) Bool.noConfusion
  | closed htimers hshowing =>
    exact ⟨by rw [htimers]; exact Nat.zero_le 1, fun _ => ⟨htimers, hshowing⟩⟩

/-- Nothing that is delivered leaves a list. -/
theorem handle_of_deliverable (h : Inv d) {ev : Event} (hdeliver : Deliverable d ev) :
    ∃ d', handle d ev = some d' := by
  cases ev with
  | expire i draws =>
    obtain ⟨d', hd', -⟩ := expire_spec h hdeliver draws
    exact ⟨d', hd'⟩
  | click now c =>
    obtain ⟨d', hd', -⟩ := click_spec d now c
    exact ⟨d', hd'⟩

/-- Until the dialog is accepted a timer is set, or the right click will be taken. -/
theorem goes_on (h : Inv d) (hnone : d.accepted = 0) : d.timers ≠ [] ∨
    ∃ c, d.colorSequence[d.colorInputIndex]? = some c ∧
      ∀ now, d.clock ≤ now → 300 ≤ now - d.actionTimer →
        Deliverable d (.click now c) ∧ Accepts d now := by
  cases h with
  | showing t htimers => exact .inl (by rw [htimers]; exact List.cons_ne_nil t [])
  | input htimers hshowing hon hinput hlen =>
    have hlt : d.colorInputIndex < d.colorSequence.length := Nat.lt_of_lt_of_eq hinput hlen.symm
    refine .inr ⟨_, List.getElem?_eq_getElem hlt, ?_⟩
    intro now hclock hdebounce
    exact ⟨⟨hclock, hon _⟩, hdebounce, hshowing, hlt⟩
  | waiting t htimers => exact .inl (by rw [htimers]; exact List.cons_ne_nil t [])
  | closed _ _ _ _ _ hone => exact absurd (hnone.symm.trans hone) Nat.zero_ne_one

/-- The dialog is accepted once, with the third round. -/
theorem accepted_of_inv (h : Inv d) :
    d.colorRound ≤ 3 ∧ d.accepted = if d.colorRound = 3 then 1 else 0 := by
  cases h with
  | showing _ _ _ _ _ _ _ hround hnone =>
    exact ⟨Nat.le_of_lt hround, by rw [if_neg (Nat.ne_of_lt hround), hnone]⟩
  | input _ _ _ _ _ hround hnone =>
    exact ⟨Nat.le_of_lt hround, by rw [if_neg (Nat.ne_of_lt hround), hnone]⟩
  | waiting _ _ _ _ _ hround hnone =>
    exact ⟨Nat.le_of_lt hround, by rw [if_neg (Nat.ne_of_lt hround), hnone]⟩
  | closed _ _ _ _ hround hone => exact ⟨Nat.le_of_eq hround, by rw [if_pos hround, hone]⟩

/-- Without a wrong click, twelve clicks are three rounds. -/
theorem twelve_clicks {notes : Notes} (h : Inv d) (hnoted : Noted d notes)
    (hright : notes.wrong = 0) : d.accepted = 1 ↔ notes.total = 12 := by
  have htotal := hnoted.total hright
  cases h with
  | showing t htimers _ _ _ _ _ hround hnone =>
    rw [if_neg fun hidle => absurd (htimers.symm.trans hidle.1) (List.cons_ne_nil t [])] at htotal
    omega
  | input htimers _ _ hinput _ hround hnone =>
    rw [if_pos ⟨htimers, hround⟩] at htotal
    omega
  | waiting t htimers _ _ _ hround hnone =>
    rw [if_neg fun hidle => absurd (htimers.symm.trans hidle.1) (List.cons_ne_nil t [])] at htotal
    omega
  | closed _ _ _ _ hround hone =>
    rw [if_neg fun hidle => absurd hidle.2 (Nat.not_lt.mpr (Nat.le_of_eq hround.symm))] at htotal
    omega

/-- **The Color Memory game**, for every outcome of the random generator and every order of
    timers and clicks: one chain of timers, none while input is taken; no list is left; no
    click arrives while a sequence is shown or a round is awaited; `accept` is called once,
    when three rounds have been passed, each by clicks that are its sequence; and a player
    who makes no mistake is accepted at the twelfth click, and can always go on until then. -/
theorem color_memory (start : Nat) (draws : Nat → Fin 4) :
    ∃ d₀, buildColorMemoryGameUi start draws = some d₀ ∧
      ∀ evs d, Machine.run step d₀ evs = some d →
        d.timers.length ≤ 1 ∧
        ((∃ c, d.colorButtons c = true) → d.timers = [] ∧ d.showingSequence = false) ∧
        (∀ ev, Deliverable d ev → ∃ d', handle d ev = some d') ∧
        (d.showingSequence = true ∨ d.timers ≠ [] → ∀ now c, step d (.click now c) = none) ∧
        (d.accepted = if (Machine.noted step note d₀ {} evs).won.length = 3 then 1 else 0) ∧
        (Machine.noted step note d₀ {} evs).won.length ≤ 3 ∧
        (∀ p ∈ (Machine.noted step note d₀ {} evs).won, p.2 = p.1 ∧ p.1.length = 4) ∧
        ((Machine.noted step note d₀ {} evs).wrong = 0 →
          (d.accepted = 1 ↔ (Machine.noted step note d₀ {} evs).total = 12)) ∧
        (d.accepted = 0 → d.timers ≠ [] ∨
          ∃ c, d.colorSequence[d.colorInputIndex]? = some c ∧
            ∀ now, d.clock ≤ now → 300 ≤ now - d.actionTimer →
              Deliverable d (.click now c) ∧ Accepts d now) := by
  obtain ⟨d₀, hd₀, hinv₀, hnoted₀⟩ := buildColorMemoryGameUi_spec start draws
  refine ⟨d₀, hd₀, ?_⟩
  intro evs d hrun
  obtain ⟨hinv, hnoted⟩ := Machine.run_noted (I := fun d notes => Inv d ∧ Noted d notes)
    (fun d notes ev d' h hstep => ⟨inv_step h.1 hstep, noted_step h.1 h.2 hstep⟩)
    ⟨hinv₀, hnoted₀⟩ hrun
  obtain ⟨hround, haccepted⟩ := accepted_of_inv hinv
  refine ⟨(timers_of_inv hinv).1, (timers_of_inv hinv).2, fun ev => handle_of_deliverable hinv, ?_,
    ?_, ?_, hnoted.entered, twelve_clicks hinv hnoted, goes_on hinv⟩
  · intro hbusy now c
    apply if_neg
    rintro ⟨-, hc⟩
    obtain ⟨hidle, hquiet⟩ := (timers_of_inv hinv).2 ⟨c, hc⟩
    rcases hbusy with hshowing | hpending
    · exact Bool.noConfusion (hshowing.symm.trans hquiet)
    · exact hpending hidle
  · rw [hnoted.rounds]
    exact haccepted
  · rw [hnoted.rounds]
    exact hround

/-- A round in which every colour is green: nine timers, and four clicks from `now` on. -/
def greenRound (now : Nat) : List Event :=
  List.replicate 9 (.expire 0 fun _ => 3) ++
    [.click now 3, .click (now + 300) 3, .click (now + 600) 3, .click (now + 900) 3]

example : ((buildColorMemoryGameUi 0 fun _ => 3).bind fun d => Machine.run step d
    (greenRound 4000 ++ .expire 0 (fun _ => 3) :: greenRound 10000 ++
      .expire 0 (fun _ => 3) :: greenRound 16000)).map (·.accepted) = some 1 := by
  decide +kernel

end AlarmClock.ColorMemory
