import AlarmClock.DateTime
import AlarmClock.Lib.Machine
import Mathlib.Order.Monotone.Basic

/-!
# The ultrasonic game

Four sensors, a random sequence of four of them, and a hand to be held near each for half a
second. `onUltrasonicDistances` is called with every reading of the sensors and keeps a step,
a flag for a hold that has begun, a timer, and a flag that a hand must first be taken away
when a sensor comes twice in a row. The display is kept as the code keeps it, and beside it
stands `Phase`, the same machine without the display.
-/

namespace AlarmClock.UltrasonicGame

def NEAR_CM : Int := 15
def FAR_CM : Int := 20
def HOLD_MS : Nat := 500

/-- The targets of the four steps: sensors, by their index. -/
structure UsSeq where
  targets : List Nat
  four : targets.length = 4
  sensors : ∀ x ∈ targets, x < 4

def swapItemsAt (pool : List Nat) (i j : Nat) : List Nat :=
  (pool.set i (pool[j]?.getD 0)).set j (pool[i]?.getD 0)

/-- The sequence that the game is built on: the four sensors in the order of three draws. -/
def shuffled (third : Fin 4) (second : Fin 3) (first : Fin 2) : UsSeq where
  targets := swapItemsAt (swapItemsAt (swapItemsAt [0, 1, 2, 3] 3 third) 2 second) 1 first
  four := by simp [swapItemsAt]
  sensors := by revert third second first; decide

/-- No sensor comes twice, so none comes twice in a row. -/
theorem nodup_shuffled (third : Fin 4) (second : Fin 3) (first : Fin 2) :
    (shuffled third second first).targets.Nodup := by
  revert third second first
  decide

inductive StepStyle where
  | seqPending
  | seqActive
  | seqDone
deriving DecidableEq, Repr

inductive MapStyle where
  | mapOther
  | mapTarget
  | near
  | confirmed
deriving DecidableEq, Repr

structure DismissDialog where
  usSeq : UsSeq
  usStep : Nat
  usNeedRelease : Bool
  usHolding : Bool
  /-- The time of the last restart. -/
  usHoldTimer : Nat
  usStepLabels : List StepStyle
  usDistLabels : List MapStyle
  usTargetLabel : QString
  usProgressLabel : QString
  usStatusLabel : QString
  /-- How often `accept` has been called. -/
  accepted : Nat

/-! ### Texts -/

def number (n : Nat) : QString := TextFormat.decimal n

def progressText (step : Nat) : QString :=
  "Step ".toList ++ number (step + 1) ++ " / 4".toList

def stepText (step : Nat) : QString :=
  "Step ".toList ++ number (step + 1) ++ "/4  ·  ".toList

def bringText (sensor : Nat) : QString := "Bring hand near Sensor ".toList ++ number (sensor + 1)

def removeText (sensor : Nat) : QString :=
  "Remove hand, then bring near Sensor ".toList ++ number (sensor + 1)

def holdText (sensor : Nat) : QString :=
  "Hold Sensor ".toList ++ number (sensor + 1) ++ " ... keep still!".toList

def holdingText (pct : Nat) : QString :=
  "Holding ".toList ++ number pct ++ "%  keep still!".toList

/-! ### The handler

`none` is an access outside an array. -/

/-- `labels[i]->setStyleSheet(style)`. -/
def setStyleSheet {α : Type} (labels : List α) (i : Nat) (style : α) : Option (List α) :=
  if i < labels.length then some (labels.set i style) else none

def usAdvanceToStep (step : Nat) (d : DismissDialog) : Option DismissDialog := do
  let usStepLabels ← (List.range 4).foldlM (fun labels i =>
    setStyleSheet labels i
      (if i < step then .seqDone else if i = step then .seqActive else .seqPending)) d.usStepLabels
  let targetSensor ← d.usSeq.targets[step]?
  let usDistLabels ← (List.range 4).foldlM (fun labels i =>
    setStyleSheet labels i (if i = targetSensor then .mapTarget else .mapOther)) d.usDistLabels
  return { d with
    usStepLabels := usStepLabels
    usDistLabels := usDistLabels
    usTargetLabel := number (targetSensor + 1)
    usProgressLabel := progressText step }

/-- The game as `buildUltrasonicUi` sets it up on a sequence. -/
def buildUltrasonicUi (usSeq : UsSeq) : Option DismissDialog := do
  let first ← usSeq.targets[0]?
  usAdvanceToStep 0
    { usSeq := usSeq
      usStep := 0
      usNeedRelease := false
      usHolding := false
      usHoldTimer := 0
      usStepLabels := List.replicate 4 .seqPending
      usDistLabels := List.replicate 4 .mapOther
      usTargetLabel := number (first + 1)
      usProgressLabel := progressText 0
      usStatusLabel := bringText first
      accepted := 0 }

/-- The distance of a sensor in a reading; -1 when the reading is too short. -/
def distance (distances : List Int) (sensorIdx : Nat) : Int := distances[sensorIdx]?.getD (-1)

def IsNear (dist : Int) : Prop := dist > 0 ∧ dist < NEAR_CM

def IsFar (dist : Int) : Prop := dist < 0 ∨ dist ≥ FAR_CM

instance (dist : Int) : Decidable (IsNear dist) := inferInstanceAs (Decidable (_ ∧ _))

instance (dist : Int) : Decidable (IsFar dist) := inferInstanceAs (Decidable (_ ∨ _))

/-- The step is recognised: the boxes of the step, and the next step or the end. -/
def recognise (sensorIdx : Nat) (d : DismissDialog) : Option DismissDialog := do
  let usStepLabels ← setStyleSheet d.usStepLabels d.usStep .seqDone
  let usDistLabels ← setStyleSheet d.usDistLabels sensorIdx .confirmed
  let usStep := d.usStep + 1
  let d := { d with usStepLabels := usStepLabels, usDistLabels := usDistLabels, usStep := usStep }
  if usStep ≥ 4 then return { d with accepted := d.accepted + 1 }
  else
    let next ← d.usSeq.targets[usStep]?
    let prev ← d.usSeq.targets[usStep - 1]?
    let sameAsPrev := next == prev
    let d ← usAdvanceToStep usStep { d with usNeedRelease := sameAsPrev, usHolding := false }
    return { d with
      usStatusLabel := stepText usStep ++ (if sameAsPrev then removeText next else bringText next) }

/-- The hold phase. -/
def hold (now sensorIdx : Nat) (dist : Int) (d : DismissDialog) : Option DismissDialog :=
  if IsNear dist then
    if ¬ d.usHolding then
      some { d with
        usHolding := true
        usHoldTimer := now
        usStatusLabel := stepText d.usStep ++ holdText sensorIdx }
    else
      let elapsed := now - d.usHoldTimer
      if elapsed ≥ HOLD_MS then recognise sensorIdx d
      else
        some { d with
          usStatusLabel := stepText d.usStep ++ holdingText (elapsed * 100 / HOLD_MS) }
  else if d.usHolding then
    some { d with usHolding := false, usStatusLabel := stepText d.usStep ++ bringText sensorIdx }
  else some d

def onUltrasonicDistances (now : Nat) (distances : List Int) (d : DismissDialog) :
    Option DismissDialog :=
  if d.usStep ≥ 4 then some d
  else do
    let sensorIdx ← d.usSeq.targets[d.usStep]?
    let dist := distance distances sensorIdx
    let usDistLabels ← setStyleSheet d.usDistLabels sensorIdx
      (if IsNear dist then .near else .mapTarget)
    let d := { d with usDistLabels := usDistLabels }
    if d.usNeedRelease then
      if IsFar dist then
        return { d with
          usNeedRelease := false
          usHolding := false
          usStatusLabel := stepText d.usStep ++ bringText sensorIdx }
      else return { d with usStatusLabel := stepText d.usStep ++ removeText sensorIdx }
    else hold now sensorIdx dist d

/-! ### Runs -/

/-- One call of the handler, so many milliseconds after the one before. -/
structure Reading where
  delay : Nat
  distances : List Int

structure Game where
  dialog : DismissDialog
  clock : Nat

def step (g : Game) (r : Reading) : Option Game :=
  (onUltrasonicDistances (g.clock + r.delay) r.distances g.dialog).map fun dialog =>
    ⟨dialog, g.clock + r.delay⟩

/-! ### The machine without its display -/

structure Phase where
  step : Nat
  needRelease : Bool
  holding : Bool
  holdTimer : Nat
  accepted : Nat
deriving DecidableEq, Repr

/-- One reading, for the targets of the steps and the distances of the sensors. -/
def Phase.next (targets : Nat → Nat) (now : Nat) (dist : Nat → Int) (p : Phase) : Phase :=
  if p.step ≥ 4 then p
  else if p.needRelease then
    if IsFar (dist (targets p.step)) then { p with needRelease := false, holding := false } else p
  else if IsNear (dist (targets p.step)) then
    if ¬ p.holding then { p with holding := true, holdTimer := now }
    else if now - p.holdTimer ≥ HOLD_MS then
      if p.step + 1 ≥ 4 then { p with step := p.step + 1, accepted := p.accepted + 1 }
      else
        { p with
          step := p.step + 1
          needRelease := targets (p.step + 1) == targets p.step
          holding := false }
    else p
  else { p with holding := false }

/-- In the hold phase. -/
theorem Phase.next_hold {targets : Nat → Nat} {p : Phase} (hlt : p.step < 4)
    (hneed : p.needRelease = false) (now : Nat) (dist : Nat → Int) :
    p.next targets now dist =
      if IsNear (dist (targets p.step)) then
        if ¬ p.holding then { p with holding := true, holdTimer := now }
        else if now - p.holdTimer ≥ HOLD_MS then
          if p.step + 1 ≥ 4 then { p with step := p.step + 1, accepted := p.accepted + 1 }
          else
            { p with
              step := p.step + 1
              needRelease := targets (p.step + 1) == targets p.step
              holding := false }
        else p
      else { p with holding := false } := by
  unfold next
  rw [if_neg (Nat.not_le.mpr hlt), hneed]
  rfl

/-- While the hand is to be taken away. -/
theorem Phase.next_release {targets : Nat → Nat} {p : Phase} (hlt : p.step < 4)
    (hneed : p.needRelease = true) (now : Nat) (dist : Nat → Int) :
    p.next targets now dist =
      if IsFar (dist (targets p.step)) then { p with needRelease := false, holding := false }
      else p := by
  unfold next
  rw [if_neg (Nat.not_le.mpr hlt), if_pos hneed]

def DismissDialog.phase (d : DismissDialog) : Phase :=
  ⟨d.usStep, d.usNeedRelease, d.usHolding, d.usHoldTimer, d.accepted⟩

/-- The target of a step. -/
def UsSeq.target (usSeq : UsSeq) (k : Nat) : Nat := usSeq.targets[k]?.getD 0

/-- The arrays are as long as they were built. -/
structure DismissDialog.Ok (d : DismissDialog) : Prop where
  stepLabels : d.usStepLabels.length = 4
  distLabels : d.usDistLabels.length = 4

theorem UsSeq.getElem?_target (usSeq : UsSeq) {k : Nat} (h : k < 4) :
    usSeq.targets[k]? = some (usSeq.target k) := by
  have hlt : k < usSeq.targets.length := by
    rw [usSeq.four]
    exact h
  simp [UsSeq.target, hlt]

theorem UsSeq.target_lt (usSeq : UsSeq) {k : Nat} (h : k < 4) : usSeq.target k < 4 :=
  usSeq.sensors _ (List.mem_of_getElem? (usSeq.getElem?_target h))

theorem setStyleSheet_of_lt {α : Type} {labels : List α} {i : Nat} (h : i < labels.length)
    (style : α) : setStyleSheet labels i style = some (labels.set i style) :=
  if_pos h

/-- The loop over the four labels of an array stays within it. -/
theorem foldlM_setStyleSheet {α : Type} (style : Nat → α) {l : List Nat} (hl : ∀ i ∈ l, i < 4)
    {labels : List α} (hlabels : labels.length = 4) :
    ∃ labels', l.foldlM (fun labels i => setStyleSheet labels i (style i)) labels = some labels' ∧
      labels'.length = 4 := by
  induction l generalizing labels with
  | nil => exact ⟨labels, rfl, hlabels⟩
  | cons i l ih =>
    have hi : i < labels.length := by
      rw [hlabels]
      exact hl i List.mem_cons_self
    have hset : (labels.set i (style i)).length = 4 := by rw [List.length_set, hlabels]
    obtain ⟨labels', hfold, hlen⟩ := ih (fun j hj => hl j (List.mem_cons_of_mem i hj)) hset
    refine ⟨labels', ?_, hlen⟩
    rw [List.foldlM_cons, setStyleSheet_of_lt hi]
    exact hfold

variable {d : DismissDialog}

/-- The helper changes labels only. -/
theorem usAdvanceToStep_spec (h : d.Ok) {step : Nat} (hstep : step < 4) :
    ∃ d', usAdvanceToStep step d = some d' ∧ d'.Ok ∧ d'.usSeq = d.usSeq ∧ d'.phase = d.phase := by
  have hrange : ∀ i ∈ List.range 4, i < 4 := fun i hi => List.mem_range.mp hi
  obtain ⟨stepLabels, hstepLabels, hlen⟩ := foldlM_setStyleSheet
    (fun i => if i < step then StepStyle.seqDone
      else if i = step then .seqActive else .seqPending) hrange h.stepLabels
  obtain ⟨distLabels, hdistLabels, hlen'⟩ := foldlM_setStyleSheet
    (fun i => if i = d.usSeq.target step then MapStyle.mapTarget else .mapOther) hrange
    h.distLabels
  refine ⟨{ d with
    usStepLabels := stepLabels
    usDistLabels := distLabels
    usTargetLabel := number (d.usSeq.target step + 1)
    usProgressLabel := progressText step }, ?_, ⟨hlen, hlen'⟩, rfl, rfl⟩
  simp only [usAdvanceToStep, hstepLabels, hdistLabels, d.usSeq.getElem?_target hstep,
    Option.bind_eq_bind, Option.bind_some]
  rfl

/-- The dialog after a call of the handler: `next` without the display. -/
def Handles (now : Nat) (dist : Nat → Int) (d : DismissDialog) (r : Option DismissDialog) : Prop :=
  ∃ d', r = some d' ∧ d'.Ok ∧ d'.usSeq = d.usSeq ∧
    d'.phase = d.phase.next d.usSeq.target now dist

theorem recognise_spec (h : d.Ok) {k : Nat} (hk : d.usStep = k) (hlt : k < 4) :
    ∃ d', recognise (d.usSeq.target k) d = some d' ∧ d'.Ok ∧ d'.usSeq = d.usSeq ∧ d'.phase =
      if k + 1 ≥ 4 then { d.phase with step := k + 1, accepted := d.accepted + 1 }
      else
        { d.phase with
          step := k + 1
          needRelease := d.usSeq.target (k + 1) == d.usSeq.target k
          holding := false } := by
  have hstepLabel : k < d.usStepLabels.length := by
    rw [h.stepLabels]
    exact hlt
  have hdistLabel : d.usSeq.target k < d.usDistLabels.length := by
    rw [h.distLabels]
    exact d.usSeq.target_lt hlt
  unfold recognise
  rw [hk, setStyleSheet_of_lt hstepLabel, setStyleSheet_of_lt hdistLabel]
  simp only [Option.bind_eq_bind, Option.bind_some]
  by_cases hend : k + 1 ≥ 4
  · rw [if_pos hend, if_pos hend]
    exact ⟨_, rfl, ⟨by simp [h.stepLabels], by simp [h.distLabels]⟩, rfl, rfl⟩
  · rw [if_neg hend, if_neg hend]
    have hnext : k + 1 < 4 := by omega
    have hprev : k + 1 - 1 = k := rfl
    rw [d.usSeq.getElem?_target hnext, hprev, d.usSeq.getElem?_target hlt]
    simp only [Option.bind_some]
    obtain ⟨d', hd', hok, hseq, hphase⟩ := usAdvanceToStep_spec
      (d := { d with
        usStepLabels := d.usStepLabels.set k .seqDone
        usDistLabels := d.usDistLabels.set (d.usSeq.target k) .confirmed
        usStep := k + 1
        usNeedRelease := d.usSeq.target (k + 1) == d.usSeq.target k
        usHolding := false })
      ⟨by simp [h.stepLabels], by simp [h.distLabels]⟩ hnext
    rw [hd']
    refine ⟨_, rfl, ⟨hok.stepLabels, hok.distLabels⟩, hseq, ?_⟩
    exact hphase

theorem hold_spec (h : d.Ok) (hlt : d.usStep < 4) (hrelease : d.usNeedRelease = false) (now : Nat)
    (dist : Nat → Int) :
    Handles now dist d (hold now (d.usSeq.target d.usStep) (dist (d.usSeq.target d.usStep)) d) := by
  unfold Handles hold
  rw [Phase.next_hold (p := d.phase) hlt hrelease]
  by_cases hnear : IsNear (dist (d.usSeq.target d.usStep))
  · have hnear' : IsNear (dist (d.usSeq.target d.phase.step)) := hnear
    rw [if_pos hnear, if_pos hnear']
    by_cases hheld : d.usHolding = true
    · have hheld' : ¬ ¬ d.phase.holding = true := not_not.mpr hheld
      rw [if_neg (not_not.mpr hheld), if_neg hheld']
      dsimp only
      by_cases helapsed : now - d.usHoldTimer ≥ HOLD_MS
      · have helapsed' : now - d.phase.holdTimer ≥ HOLD_MS := helapsed
        rw [if_pos helapsed, if_pos helapsed']
        exact recognise_spec h rfl hlt
      · have helapsed' : ¬ now - d.phase.holdTimer ≥ HOLD_MS := helapsed
        rw [if_neg helapsed, if_neg helapsed']
        exact ⟨_, rfl, ⟨h.stepLabels, h.distLabels⟩, rfl, rfl⟩
    · have hheld' : ¬ d.phase.holding = true := hheld
      rw [if_pos hheld, if_pos hheld']
      exact ⟨_, rfl, ⟨h.stepLabels, h.distLabels⟩, rfl, rfl⟩
  · have hnear' : ¬ IsNear (dist (d.usSeq.target d.phase.step)) := hnear
    rw [if_neg hnear, if_neg hnear']
    by_cases hheld : d.usHolding = true
    · rw [if_pos hheld]
      exact ⟨_, rfl, ⟨h.stepLabels, h.distLabels⟩, rfl, rfl⟩
    · rw [if_neg hheld]
      refine ⟨d, rfl, h, rfl, ?_⟩
      have hfalse : d.usHolding = false := by simpa using hheld
      simp only [DismissDialog.phase, hfalse]

/-- **The handler never leaves its arrays, and does what `next` does.** -/
theorem onUltrasonicDistances_spec (h : d.Ok) (now : Nat) (distances : List Int) :
    Handles now (distance distances) d (onUltrasonicDistances now distances d) := by
  unfold onUltrasonicDistances
  by_cases hend : d.usStep ≥ 4
  · rw [if_pos hend]
    refine ⟨d, rfl, h, rfl, ?_⟩
    exact (if_pos hend).symm
  · have hlt : d.usStep < 4 := by omega
    have hlabel : d.usSeq.target d.usStep < d.usDistLabels.length := by
      rw [h.distLabels]
      exact d.usSeq.target_lt hlt
    rw [if_neg hend, d.usSeq.getElem?_target hlt]
    simp only [Option.bind_eq_bind, Option.bind_some, setStyleSheet_of_lt hlabel]
    have hok : ∀ style, ({ d with
        usDistLabels := d.usDistLabels.set (d.usSeq.target d.usStep) style } : DismissDialog).Ok :=
      fun style => ⟨h.stepLabels, by simp [h.distLabels]⟩
    by_cases hrelease : d.usNeedRelease = true
    · unfold Handles
      rw [if_pos hrelease, Phase.next_release (p := d.phase) hlt hrelease]
      by_cases hfar : IsFar (distance distances (d.usSeq.target d.usStep))
      · have hfar' : IsFar (distance distances (d.usSeq.target d.phase.step)) := hfar
        rw [if_pos hfar, if_pos hfar']
        exact ⟨_, rfl, ⟨h.stepLabels, (hok _).distLabels⟩, rfl, rfl⟩
      · have hfar' : ¬ IsFar (distance distances (d.usSeq.target d.phase.step)) := hfar
        rw [if_neg hfar, if_neg hfar']
        exact ⟨_, rfl, ⟨h.stepLabels, (hok _).distLabels⟩, rfl, rfl⟩
    · rw [if_neg hrelease]
      exact hold_spec (hok _) hlt (by simpa using hrelease) now (distance distances)

/-! ### What passes a step

The distances of the sensors and the time, reading by reading. -/

section Trace

variable (targets : Nat → Nat) (time : Nat → Nat) (dist : Nat → Nat → Int)

/-- The machine after so many readings. -/
def phaseAt : Nat → Phase
  | 0 => ⟨0, false, false, 0, 0⟩
  | n + 1 => (phaseAt n).next targets (time n) (dist n)

/-- The hand has been taken away since the step became active, where the sensor is the one
    before. -/
def Released (k n : Nat) : Prop :=
  0 < k → targets k = targets (k - 1) →
    ∃ r < n, (phaseAt targets time dist r).step = k ∧ IsFar (dist r (targets k))

/-- The hand is near the sensor at every reading from `i` on and before `n`. -/
def NearThrough (k i n : Nat) : Prop := ∀ m, i ≤ m → m < n → IsNear (dist m (targets k))

variable {targets time dist}

theorem Released.mono {k n n' : Nat} (h : Released targets time dist k n) (hle : n ≤ n') :
    Released targets time dist k n' := by
  intro hk hsame
  obtain ⟨r, hr, hstep, hfar⟩ := h hk hsame
  exact ⟨r, by omega, hstep, hfar⟩

/-- What a reading does to a machine that has not ended. -/
inductive NextTo (targets : Nat → Nat) (p : Phase) (now : Nat) (dist : Nat → Int) :
    Phase → Prop where
  | release (hneed : p.needRelease = true) (hfar : IsFar (dist (targets p.step))) :
      NextTo targets p now dist { p with needRelease := false, holding := false }
  | wait (hneed : p.needRelease = true) (hnot : ¬ IsFar (dist (targets p.step))) :
      NextTo targets p now dist p
  | start (hneed : p.needRelease = false) (hnear : IsNear (dist (targets p.step)))
      (hheld : p.holding = false) :
      NextTo targets p now dist { p with holding := true, holdTimer := now }
  | pass (hneed : p.needRelease = false) (hnear : IsNear (dist (targets p.step)))
      (hheld : p.holding = true) (helapsed : p.holdTimer + HOLD_MS ≤ now) (hlt : p.step + 1 < 4) :
      NextTo targets p now dist
        { p with
          step := p.step + 1
          needRelease := targets (p.step + 1) == targets p.step
          holding := false }
  | finish (hneed : p.needRelease = false) (hnear : IsNear (dist (targets p.step)))
      (hheld : p.holding = true) (helapsed : p.holdTimer + HOLD_MS ≤ now)
      (hlast : p.step + 1 = 4) :
      NextTo targets p now dist { p with step := p.step + 1, accepted := p.accepted + 1 }
  | keep (hneed : p.needRelease = false) (hnear : IsNear (dist (targets p.step)))
      (hheld : p.holding = true) (hshort : now < p.holdTimer + HOLD_MS) :
      NextTo targets p now dist p
  | lose (hneed : p.needRelease = false) (hnot : ¬ IsNear (dist (targets p.step))) :
      NextTo targets p now dist { p with holding := false }

theorem next_cases (targets : Nat → Nat) {p : Phase} (hlt : p.step < 4) (now : Nat)
    (dist : Nat → Int) :
    NextTo targets p now dist (p.next targets now dist) := by
  unfold Phase.next
  rw [if_neg (Nat.not_le.mpr hlt)]
  have hms : HOLD_MS = 500 := rfl
  split_ifs with hneed hfar hnear hheld helapsed hlast
  · exact .release hneed hfar
  · exact .wait hneed hfar
  · exact .finish (by simpa using hneed) hnear hheld (by omega) (by omega)
  · exact .pass (by simpa using hneed) hnear hheld (by omega) (by omega)
  · exact .keep (by simpa using hneed) hnear hheld (by omega)
  · exact .start (by simpa using hneed) hnear (by simpa using hheld)
  · exact .lose (by simpa using hneed) hnear

theorem phaseAt_of_end {n : Nat} (h : (phaseAt targets time dist n).step ≥ 4) :
    phaseAt targets time dist (n + 1) = phaseAt targets time dist n :=
  if_pos h

variable (targets time dist) in
/-- A reading passes one step at most. -/
theorem step_phaseAt_succ (n : Nat) :
    (phaseAt targets time dist (n + 1)).step = (phaseAt targets time dist n).step ∨
      (phaseAt targets time dist (n + 1)).step = (phaseAt targets time dist n).step + 1 := by
  by_cases hend : (phaseAt targets time dist n).step ≥ 4
  · rw [phaseAt_of_end hend]
    exact .inl rfl
  · have hnext := next_cases targets (Nat.not_le.mp hend) (time n) (dist n)
    rw [phaseAt]
    generalize (phaseAt targets time dist n).next targets (time n) (dist n) = p' at hnext
    cases hnext with
    | pass => exact .inr rfl
    | finish => exact .inr rfl
    | _ => exact .inl rfl

theorem step_phaseAt_mono {m n : Nat} (h : m ≤ n) :
    (phaseAt targets time dist m).step ≤ (phaseAt targets time dist n).step := by
  induction n, h using Nat.le_induction with
  | base => exact Nat.le_refl _
  | succ n hle ih =>
    rcases step_phaseAt_succ targets time dist n with h | h <;> omega

variable (targets time dist) in
/-- `accept` is called once, by the reading that passes the last step. -/
theorem accepted_phaseAt (n : Nat) :
    (phaseAt targets time dist n).step ≤ 4 ∧ (phaseAt targets time dist n).accepted =
      if (phaseAt targets time dist n).step = 4 then 1 else 0 := by
  induction n with
  | zero => exact ⟨Nat.zero_le 4, rfl⟩
  | succ n ih =>
    by_cases hend : (phaseAt targets time dist n).step ≥ 4
    · rw [phaseAt_of_end hend]
      exact ih
    · have hlt := Nat.not_le.mp hend
      have hnone : (phaseAt targets time dist n).accepted = 0 := by
        rw [ih.2, if_neg (Nat.ne_of_lt hlt)]
      have hnext := next_cases targets hlt (time n) (dist n)
      rw [phaseAt]
      generalize (phaseAt targets time dist n).next targets (time n) (dist n) = p' at hnext
      cases hnext with
      | pass hneed hnear hheld helapsed hlt' =>
        exact ⟨Nat.le_of_lt hlt', by rw [if_neg (Nat.ne_of_lt hlt')]; exact hnone⟩
      | finish hneed hnear hheld helapsed hlast =>
        exact ⟨Nat.le_of_eq hlast, by rw [if_pos hlast]; exact congrArg (· + 1) hnone⟩
      | _ => exact ⟨Nat.le_of_lt hlt, by rw [if_neg (Nat.ne_of_lt hlt)]; exact hnone⟩

/-- What the two flags and the timer stand for while step `k` is active. -/
structure Stands (targets : Nat → Nat) (time : Nat → Nat) (dist : Nat → Nat → Int) (n : Nat)
    (p : Phase) : Prop where
  released : p.needRelease = false → Released targets time dist p.step n
  needed : p.needRelease = true → p.holding = false ∧ 0 < p.step ∧
    targets p.step = targets (p.step - 1) ∧
    ∀ r < n, (phaseAt targets time dist r).step = p.step → ¬ IsFar (dist r (targets p.step))
  held : p.holding = true → ∃ i < n, (phaseAt targets time dist i).step = p.step ∧
    Released targets time dist p.step i ∧ time i = p.holdTimer ∧ NearThrough targets dist p.step i n

theorem NearThrough.succ {k i n : Nat} (h : NearThrough targets dist k i n)
    (hnear : IsNear (dist n (targets k))) : NearThrough targets dist k i (n + 1) := by
  intro m hi hm
  rcases Nat.lt_or_eq_of_le (Nat.le_of_lt_succ hm) with hlt | rfl
  · exact h m hi hlt
  · exact hnear

/-- **One reading** keeps their meaning. -/
theorem stands_phaseAt (n : Nat) (hlt : (phaseAt targets time dist n).step < 4) :
    Stands targets time dist n (phaseAt targets time dist n) := by
  induction n with
  | zero => exact ⟨fun _ h => absurd h (Nat.lt_irrefl 0), nofun, nofun⟩
  | succ n ih =>
    have hend : (phaseAt targets time dist n).step < 4 :=
      Nat.lt_of_le_of_lt (step_phaseAt_mono (Nat.le_succ n)) hlt
    have hmono : ∀ r < n, (phaseAt targets time dist r).step ≤ (phaseAt targets time dist n).step :=
      fun r hr => step_phaseAt_mono (Nat.le_of_lt hr)
    specialize ih hend
    have hnext := next_cases targets hend (time n) (dist n)
    have hsucc : phaseAt targets time dist (n + 1) =
        (phaseAt targets time dist n).next targets (time n) (dist n) := rfl
    rw [hsucc] at hlt ⊢
    generalize hp : phaseAt targets time dist n = p at *
    generalize p.next targets (time n) (dist n) = p' at hnext hlt ⊢
    cases hnext with
    | release hneed hfar =>
      refine ⟨fun _ _ _ => ⟨n, Nat.lt_succ_self n, by rw [hp], hfar⟩, nofun, nofun⟩
    | wait hneed hnot =>
      obtain ⟨hheld, hpos, hsame, hnone⟩ := ih.needed hneed
      refine ⟨fun h => absurd (hneed.symm.trans h) Bool.noConfusion,
        fun _ => ⟨hheld, hpos, hsame, ?_⟩, fun h => absurd (hheld.symm.trans h) Bool.noConfusion⟩
      intro r hr hstep
      rcases Nat.lt_or_eq_of_le (Nat.le_of_lt_succ hr) with hlt' | rfl
      · exact hnone r hlt' hstep
      · exact hnot
    | start hneed hnear hheld =>
      refine ⟨fun _ => (ih.released hneed).mono (Nat.le_succ n),
        fun h => absurd (hneed.symm.trans h) Bool.noConfusion, fun _ => ?_⟩
      refine ⟨n, Nat.lt_succ_self n, by rw [hp], ih.released hneed, rfl, ?_⟩
      apply NearThrough.succ _ hnear
      intro m hi hm
      omega
    | pass hneed hnear hheld helapsed hlt' =>
      refine ⟨fun hdiff _ hsame => ?_, fun hsame => ⟨rfl, Nat.succ_pos _, by simpa using hsame, ?_⟩,
        nofun⟩
      · exact absurd hsame (by simpa using hdiff)
      · intro r hr hstep
        have hle : (phaseAt targets time dist r).step ≤ p.step := by
          rcases Nat.lt_or_eq_of_le (Nat.le_of_lt_succ hr) with hlt'' | rfl
          · exact hmono r hlt''
          · rw [hp]
        dsimp only at hstep
        omega
    | finish hneed hnear hheld helapsed hlast =>
      dsimp only at hlt
      omega
    | keep hneed hnear hheld hshort =>
      refine ⟨fun _ => (ih.released hneed).mono (Nat.le_succ n),
        fun h => absurd (hneed.symm.trans h) Bool.noConfusion, fun _ => ?_⟩
      obtain ⟨i, hi, hstep, hreleased, htime, hthrough⟩ := ih.held hheld
      exact ⟨i, Nat.lt_succ_of_lt hi, hstep, hreleased, htime, hthrough.succ hnear⟩
    | lose hneed hnot =>
      exact ⟨fun _ => (ih.released hneed).mono (Nat.le_succ n),
        fun h => absurd (hneed.symm.trans h) Bool.noConfusion, nofun⟩

/-- **A step is passed only by a hold**, begun after the step became active and after the hand
    was taken away. -/
theorem passed_sound {j k : Nat} (hj : (phaseAt targets time dist j).step = k)
    (hpass : (phaseAt targets time dist (j + 1)).step = k + 1) :
    ∃ i < j, (phaseAt targets time dist i).step = k ∧ Released targets time dist k i ∧
      time i + HOLD_MS ≤ time j ∧ NearThrough targets dist k i (j + 1) := by
  subst hj
  have hlt : (phaseAt targets time dist j).step < 4 := by
    have := (accepted_phaseAt targets time dist (j + 1)).1
    omega
  have hstands := stands_phaseAt j hlt
  have hnext := next_cases targets hlt (time j) (dist j)
  have hheld : (phaseAt targets time dist j).holding = true ∧
      IsNear (dist j (targets (phaseAt targets time dist j).step)) ∧
      (phaseAt targets time dist j).holdTimer + HOLD_MS ≤ time j := by
    rw [phaseAt] at hpass
    generalize (phaseAt targets time dist j).next targets (time j) (dist j) = p' at hnext hpass
    cases hnext with
    | pass hneed hnear hheld helapsed hlt' => exact ⟨hheld, hnear, helapsed⟩
    | finish hneed hnear hheld helapsed hlast => exact ⟨hheld, hnear, helapsed⟩
    | _ => exact absurd hpass.symm (Nat.succ_ne_self _)
  obtain ⟨hheld, hnear, helapsed⟩ := hheld
  obtain ⟨i, hi, hstep, hreleased, htime, hthrough⟩ := hstands.held hheld
  exact ⟨i, hi, hstep, hreleased, by omega, hthrough.succ hnear⟩

/-- Once the hand has been taken away, a hold may begin. -/
theorem needRelease_of_released {n : Nat} (hlt : (phaseAt targets time dist n).step < 4)
    (h : Released targets time dist (phaseAt targets time dist n).step n) :
    (phaseAt targets time dist n).needRelease = false := by
  by_contra hneed
  obtain ⟨-, hpos, hsame, hnone⟩ := (stands_phaseAt n hlt).needed (by simpa using hneed)
  obtain ⟨r, hr, hstep, hfar⟩ := h hpos hsame
  exact hnone r hr hstep hfar

/-- A near hand begins a hold, or keeps it until its time. -/
theorem next_near {p : Phase} (hlt : p.step < 4) (hneed : p.needRelease = false) (now : Nat)
    {dist : Nat → Int} (hnear : IsNear (dist (targets p.step))) :
    (p.holding = false ∧
        p.next targets now dist = { p with holding := true, holdTimer := now }) ∨
      (p.holding = true ∧ p.holdTimer + HOLD_MS ≤ now ∧
        (p.next targets now dist).step = p.step + 1) ∨
      (p.holding = true ∧ now < p.holdTimer + HOLD_MS ∧ p.next targets now dist = p) := by
  have hnext := next_cases targets hlt now dist
  generalize p.next targets now dist = p' at hnext ⊢
  cases hnext with
  | release hneed' => exact absurd (hneed'.symm.trans hneed) Bool.noConfusion
  | wait hneed' => exact absurd (hneed'.symm.trans hneed) Bool.noConfusion
  | start _ _ hheld => exact .inl ⟨hheld, rfl⟩
  | pass _ _ hheld helapsed => exact .inr (.inl ⟨hheld, helapsed, rfl⟩)
  | finish _ _ hheld helapsed => exact .inr (.inl ⟨hheld, helapsed, rfl⟩)
  | keep _ _ hheld hshort => exact .inr (.inr ⟨hheld, hshort, rfl⟩)
  | lose _ hnot => exact absurd hnear hnot

/-- While a hold that began at reading `i` lasts, its step is passed, or the timer shows it. -/
theorem during_hold (htime : Monotone time) {i k : Nat} (hk : k < 4)
    (hi : (phaseAt targets time dist i).step = k) (hreleased : Released targets time dist k i)
    {n : Nat} (hle : i + 1 ≤ n) (hthrough : NearThrough targets dist k i n) :
    k < (phaseAt targets time dist n).step ∨
      (phaseAt targets time dist n).step = k ∧ (phaseAt targets time dist n).needRelease = false ∧
        (phaseAt targets time dist n).holding = true ∧
        (phaseAt targets time dist n).holdTimer ≤ time i := by
  induction n, hle using Nat.le_induction with
  | base =>
    subst hi
    have hneed := needRelease_of_released hk hreleased
    have hnear := hthrough i (Nat.le_refl i) (Nat.lt_succ_self i)
    rw [phaseAt]
    rcases next_near hk hneed (time i) hnear with
      ⟨-, heq⟩ | ⟨-, -, hstep⟩ | ⟨hheld, -, heq⟩
    · rw [heq]
      exact .inr ⟨rfl, hneed, rfl, Nat.le_refl _⟩
    · rw [hstep]
      exact .inl (Nat.lt_succ_self _)
    · -- the hold began before
      obtain ⟨i', hi', -, -, htimer, -⟩ := (stands_phaseAt i hk).held hheld
      rw [heq, ← htimer]
      exact .inr ⟨rfl, hneed, hheld, htime (Nat.le_of_lt hi')⟩
  | succ n hle ih =>
    rcases ih fun m hm hm' => hthrough m hm (Nat.lt_succ_of_lt hm') with
      hgt | ⟨hstep, hneed, hheld, htimer⟩
    · exact .inl (Nat.lt_of_lt_of_le hgt (step_phaseAt_mono (Nat.le_succ n)))
    · have hnear := hthrough n (Nat.le_of_succ_le hle) (Nat.lt_succ_self n)
      rw [← hstep] at hk hnear ⊢
      rw [phaseAt]
      rcases next_near hk hneed (time n) hnear with
        ⟨hnot, -⟩ | ⟨-, -, hpass⟩ | ⟨-, -, heq⟩
      · exact absurd (hnot.symm.trans hheld) Bool.noConfusion
      · rw [hpass]
        exact .inl (Nat.lt_succ_self _)
      · rw [heq]
        exact .inr ⟨rfl, hneed, hheld, htimer⟩

/-- **A hold passes its step**, at its half second at the latest. -/
theorem passed_complete (htime : Monotone time) {i j k : Nat} (hk : k < 4)
    (hi : (phaseAt targets time dist i).step = k) (hreleased : Released targets time dist k i)
    (hlong : time i + HOLD_MS ≤ time j) (hthrough : NearThrough targets dist k i (j + 1)) :
    k < (phaseAt targets time dist (j + 1)).step := by
  have hij : i < j := by
    by_contra hge
    have hle := htime (Nat.not_lt.mp hge)
    have hms : HOLD_MS = 500 := rfl
    omega
  rcases during_hold htime hk hi hreleased hij
    (fun m hm hm' => hthrough m hm (Nat.lt_succ_of_lt hm')) with
    hgt | ⟨hstep, hneed, hheld, htimer⟩
  · exact Nat.lt_of_lt_of_le hgt (step_phaseAt_mono (Nat.le_succ j))
  · have hnear := hthrough j (Nat.le_of_lt hij) (Nat.lt_succ_self j)
    rw [← hstep] at hk hnear ⊢
    rw [phaseAt]
    rcases next_near hk hneed (time j) hnear with
      ⟨hnot, -⟩ | ⟨-, -, hpass⟩ | ⟨-, hshort, -⟩
    · exact absurd (hnot.symm.trans hheld) Bool.noConfusion
    · rw [hpass]
      exact Nat.lt_succ_self _
    · omega

end Trace

/-! ### The game -/

/-- The game on a sequence after some readings; `none` is an access outside an array. -/
def play (usSeq : UsSeq) (rs : List Reading) : Option Game :=
  (buildUltrasonicUi usSeq).bind fun d => Machine.run step ⟨d, 0⟩ rs

/-- The distance of a sensor in a reading. -/
def sensorAt (rs : List Reading) (n sensorIdx : Nat) : Int :=
  distance ((rs[n]?.map (·.distances)).getD []) sensorIdx

/-- The time after so many readings. -/
def clockAt (rs : List Reading) (n : Nat) : Nat := ((rs.take n).map (·.delay)).sum

theorem clockAt_succ {rs : List Reading} {n : Nat} (h : n < rs.length) :
    clockAt rs (n + 1) = clockAt rs n + rs[n].delay := by
  unfold clockAt
  rw [List.take_succ_eq_append_getElem h, List.map_append, List.sum_append]
  rfl

theorem clockAt_mono (rs : List Reading) : Monotone (clockAt rs) := by
  apply monotone_nat_of_le_succ
  intro n
  by_cases h : n < rs.length
  · rw [clockAt_succ h]
    exact Nat.le_add_right _ _
  · have hle : rs.length ≤ n := Nat.not_lt.mp h
    unfold clockAt
    rw [List.take_of_length_le hle, List.take_of_length_le (Nat.le_succ_of_le hle)]

/-- The game after a reading is the machine after it. -/
structure Shows (usSeq : UsSeq) (rs : List Reading) (n : Nat) (g : Game) : Prop where
  ok : g.dialog.Ok
  seq : g.dialog.usSeq = usSeq
  clock : g.clock = clockAt rs n
  phase : g.dialog.phase = phaseAt usSeq.target (fun n => clockAt rs (n + 1)) (sensorAt rs) n

theorem play_shows (usSeq : UsSeq) (rs : List Reading) {n : Nat} (hn : n ≤ rs.length) :
    ∃ g, play usSeq (rs.take n) = some g ∧ Shows usSeq rs n g := by
  induction n with
  | zero =>
    unfold play buildUltrasonicUi
    rw [usSeq.getElem?_target (by decide)]
    simp only [Option.bind_eq_bind, Option.bind_some]
    obtain ⟨d', hd', hok, hseq, hphase⟩ := usAdvanceToStep_spec
      (d := {
        usSeq := usSeq
        usStep := 0
        usNeedRelease := false
        usHolding := false
        usHoldTimer := 0
        usStepLabels := List.replicate 4 .seqPending
        usDistLabels := List.replicate 4 .mapOther
        usTargetLabel := number (usSeq.target 0 + 1)
        usProgressLabel := progressText 0
        usStatusLabel := bringText (usSeq.target 0)
        accepted := 0 }) ⟨rfl, rfl⟩ (by decide : 0 < 4)
    rw [hd']
    exact ⟨⟨d', 0⟩, rfl, hok, hseq, rfl, hphase⟩
  | succ n ih =>
    obtain ⟨g, hg, hshows⟩ := ih (Nat.le_of_succ_le hn)
    obtain ⟨d₀, hd₀, hrun⟩ := Option.bind_eq_some_iff.mp hg
    obtain ⟨d', hd', hok, hseq, hphase⟩ := onUltrasonicDistances_spec hshows.ok
      (g.clock + rs[n].delay) rs[n].distances
    refine ⟨⟨d', g.clock + rs[n].delay⟩, ?_, hok, hseq.trans hshows.seq, ?_, ?_⟩
    · unfold play
      rw [hd₀, List.take_succ_eq_append_getElem hn]
      simp only [Option.bind_some]
      rw [Machine.run_append, hrun, Option.bind_some, Machine.run_singleton, step, hd']
      rfl
    · rw [clockAt_succ hn, hshows.clock]
    · have hdist : distance rs[n].distances = sensorAt rs n := by
        funext sensorIdx
        simp [sensorAt, List.getElem?_eq_getElem hn]
      rw [hphase, hshows.phase, hshows.seq, hdist, phaseAt, clockAt_succ hn, hshows.clock]

/-- A hold of the hand near the sensor of step `k` from reading `i` to reading `j`. -/
structure Hold (usSeq : UsSeq) (rs : List Reading) (games : Nat → Game) (k i j : Nat) : Prop where
  earlier : i < j
  active : (games i).dialog.usStep = k
  away : 0 < k → usSeq.target k = usSeq.target (k - 1) →
    ∃ r < i, (games r).dialog.usStep = k ∧ IsFar (sensorAt rs r (usSeq.target k))
  long : (games (i + 1)).clock + HOLD_MS ≤ (games (j + 1)).clock
  near : ∀ m, i ≤ m → m ≤ j → IsNear (sensorAt rs m (usSeq.target k))

/-- **The ultrasonic game.** For every sequence and all readings no array is left, a step is
    passed by a hold and by every hold, one reading passes one step at most, and the dialog is
    accepted once, when the last step is passed. -/
theorem ultrasonic_game (usSeq : UsSeq) (rs : List Reading) :
    ∃ games : Nat → Game, (∀ n ≤ rs.length, play usSeq (rs.take n) = some (games n)) ∧
      (games 0).dialog.usStep = 0 ∧
      (∀ j < rs.length, ∀ k, (games j).dialog.usStep = k → (games (j + 1)).dialog.usStep = k + 1 →
        ∃ i, Hold usSeq rs games k i j) ∧
      (∀ j < rs.length, ∀ k < 4, ∀ i, Hold usSeq rs games k i j →
        k < (games (j + 1)).dialog.usStep) ∧
      (∀ j < rs.length, (games (j + 1)).dialog.usStep = (games j).dialog.usStep ∨
        (games (j + 1)).dialog.usStep = (games j).dialog.usStep + 1) ∧
      ∀ n ≤ rs.length, (games n).dialog.usStep ≤ 4 ∧
        (games n).dialog.accepted = if (games n).dialog.usStep = 4 then 1 else 0 := by
  have hall : ∀ n, ∃ g, n ≤ rs.length → play usSeq (rs.take n) = some g ∧ Shows usSeq rs n g := by
    intro n
    by_cases hn : n ≤ rs.length
    · obtain ⟨g, hg⟩ := play_shows usSeq rs hn
      exact ⟨g, fun _ => hg⟩
    · obtain ⟨g, -⟩ := play_shows usSeq rs (Nat.zero_le _)
      exact ⟨g, fun h => absurd h hn⟩
  choose games hgames using hall
  have hstep : ∀ n ≤ rs.length, (games n).dialog.usStep =
      (phaseAt usSeq.target (fun n => clockAt rs (n + 1)) (sensorAt rs) n).step :=
    fun n hn => congrArg Phase.step (hgames n hn).2.phase
  have haccepted : ∀ n ≤ rs.length, (games n).dialog.accepted =
      (phaseAt usSeq.target (fun n => clockAt rs (n + 1)) (sensorAt rs) n).accepted :=
    fun n hn => congrArg Phase.accepted (hgames n hn).2.phase
  have hclock : ∀ n ≤ rs.length, (games n).clock = clockAt rs n :=
    fun n hn => (hgames n hn).2.clock
  have hmono : Monotone fun n => clockAt rs (n + 1) :=
    fun a b hab => clockAt_mono rs (Nat.succ_le_succ hab)
  refine ⟨games, fun n hn => (hgames n hn).1, hstep 0 (Nat.zero_le _), ?_, ?_, ?_, ?_⟩
  · intro j hj k hk hpass
    rw [hstep j (Nat.le_of_lt hj)] at hk
    rw [hstep (j + 1) hj] at hpass
    obtain ⟨i, hij, hi, haway, hlong, hnear⟩ := passed_sound hk hpass
    refine ⟨i, hij, ?_, ?_, ?_, fun m hm hm' => hnear m hm (Nat.lt_succ_of_le hm')⟩
    · rw [hstep i (by omega), hi]
    · intro hpos hsame
      obtain ⟨r, hr, hrk, hfar⟩ := haway hpos hsame
      exact ⟨r, hr, by rw [hstep r (by omega), hrk], hfar⟩
    · rw [hclock (i + 1) (by omega), hclock (j + 1) hj]
      exact hlong
  · intro j hj k hk i hhold
    have hearlier := hhold.earlier
    rw [hstep (j + 1) hj]
    apply passed_complete hmono hk (i := i) _ _ _
      fun m hm hm' => hhold.near m hm (Nat.le_of_lt_succ hm')
    · rw [← hstep i (by omega), hhold.active]
    · intro hpos hsame
      obtain ⟨r, hr, hrk, hfar⟩ := hhold.away hpos hsame
      exact ⟨r, hr, by rw [← hstep r (by omega), hrk], hfar⟩
    · have hlong := hhold.long
      rw [hclock (i + 1) (by omega), hclock (j + 1) hj] at hlong
      exact hlong
  · intro j hj
    rw [hstep (j + 1) hj, hstep j (Nat.le_of_lt hj)]
    exact step_phaseAt_succ _ _ _ j
  · intro n hn
    rw [hstep n hn, haccepted n hn]
    exact accepted_phaseAt _ _ _ n

end AlarmClock.UltrasonicGame
