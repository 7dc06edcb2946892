import AlarmClock.ButtonGame
import AlarmClock.CaptureRequests
import AlarmClock.ColorMemory
import AlarmClock.NumberOrder
import AlarmClock.UltrasonicGame

/-!
# Each game can be finished

From every state that a game can be in, some input leads on: to the end, or to a state that
is closer to it. The inputs come no earlier than is asked. For the button game this is said
beside the game itself.
-/

namespace AlarmClock

namespace NumberOrder

variable {d : DismissDialog}

/-- The number that is expected is still to be clicked, and may be. -/
theorem progress (h : Inv d) (hopen : d.accepted = 0) (t : Nat) :
    ∃ now pos d', t ≤ now ∧ step d (.click now pos) = some d' ∧
      (d'.accepted ≠ 0 ∨ 26 - d'.nextExpected < 26 - d.nextExpected) := by
  have hlast : d.nextExpected ≠ 26 := by
    intro hlast
    have haccepted := h.accepted
    rw [if_pos hlast, hopen] at haccepted
    exact absurd haccepted Nat.zero_ne_one
  have hle : d.nextExpected ≤ 25 := Nat.le_of_lt_succ (Nat.lt_of_le_of_ne h.next.2 hlast)
  obtain ⟨pos, hpos, -⟩ := existsUnique_button h.perm h.next.1 hle
  have hon : d.enabled pos = true := (h.enabled pos _ hpos).mpr (Nat.le_refl _)
  let now := max (max t d.clock) (d.actionTimer + 300)
  have ht : t ≤ now := (Nat.le_max_left _ _).trans (Nat.le_max_left _ _)
  have hclock : d.clock ≤ now := (Nat.le_max_right _ _).trans (Nat.le_max_left _ _)
  have hpasses : Passes d now := by
    have hdebounce : d.actionTimer + 300 ≤ now := Nat.le_max_right _ _
    unfold Passes
    omega
  obtain ⟨d', hhandle, hclick⟩ := click_spec h hpos now
  have hdeliver : Deliverable d (.click now pos) :=
    ⟨hclock, (List.getElem?_eq_some_iff.mp hpos).1, hon⟩
  refine ⟨now, pos, d', ht, (if_pos hdeliver).trans hhandle, ?_⟩
  cases hclick with
  | debounced hearly => exact absurd hpasses hearly
  | wrong _ hwrong => exact absurd rfl hwrong
  | right label =>
    right
    dsimp only
    omega

end NumberOrder

namespace ColorMemory

variable {d : DismissDialog}

/-- The steps of the chain of timers before the input opens, by the timer that is set. -/
def toInput (d : DismissDialog) : Slot → Nat
  | .startColorMemoryRound => 50
  | .showColorMemoryStep => 2 * (4 - d.colorShowIndex) + 11
  | .hideColor => 2 * (4 - d.colorShowIndex) + 10

/-- The steps to the end. -/
def toEnd (d : DismissDialog) : Nat :=
  100 * (3 - d.colorRound) + (d.timers.head?.elim (4 - d.colorInputIndex) fun t => toInput d t.slot)

/-- The timer that is set leads on. -/
theorem progress_expire {t : Timer} (h : Inv d) (htimers : d.timers = [t]) :
    ∃ d', step d (.expire 0 fun _ => 0) = some d' ∧ toEnd d' < toEnd d := by
  have hlt : 0 < d.timers.length := by
    rw [htimers]
    exact Nat.zero_lt_one
  have hstep : step d (.expire 0 fun _ => 0) = fire (fun _ => 0) { d with timers := [] } t.slot :=
    (if_pos hlt).trans (handle_expire htimers hlt _)
  have hrank : toEnd d = 100 * (3 - d.colorRound) + toInput d t.slot := by
    rw [toEnd, htimers]
    rfl
  rw [hstep, hrank]
  cases h with
  | showing t' htimers' hslot hshowing hoff hinput hlen hround hnone =>
    obtain rfl : t = t' := List.singleton_inj.mp (htimers.symm.trans htimers')
    rcases hslot with hslot | ⟨hslot, hindex⟩
    · rw [hslot]
      by_cases hend : d.colorShowIndex ≥ d.colorSequence.length
      · simp only [fire, showColorMemoryStep, if_pos hend]
        refine ⟨_, rfl, ?_⟩
        simp [toEnd, toInput, setEnabled, setPreviewColor]
      · have hlt := Nat.not_le.mp hend
        simp only [fire, showColorMemoryStep, if_neg hend, List.getElem?_eq_getElem hlt,
          Option.bind_eq_bind, Option.bind_some]
        refine ⟨_, rfl, ?_⟩
        simp [toEnd, toInput, singleShot, setPreviewColor]
    · rw [hslot]
      refine ⟨_, rfl, ?_⟩
      simp [toEnd, toInput, hideColor, singleShot, setPreviewColor]
      omega
  | waiting t' htimers' hslot hshowing hoff hround hnone =>
    obtain rfl : t = t' := List.singleton_inj.mp (htimers.symm.trans htimers')
    rw [hslot]
    simp only [fire, startColorMemoryRound]
    rw [if_neg (Nat.not_le.mpr hround), roundLengths_eq hround]
    refine ⟨_, rfl, ?_⟩
    simp [toEnd, toInput, singleShot, setPreviewColor, setEnabled]
  | input hidle => exact absurd (htimers.symm.trans hidle) (List.cons_ne_nil t [])
  | closed hidle => exact absurd (htimers.symm.trans hidle) (List.cons_ne_nil t [])

/-- The right colour leads on where the input is open. -/
theorem progress_click (h : Inv d) (htimers : d.timers = []) (hopen : d.accepted = 0) (t : Nat) :
    ∃ now c d', t ≤ now ∧ step d (.click now c) = some d' ∧
      (d'.accepted ≠ 0 ∨ toEnd d' < toEnd d) := by
  have hrank : toEnd d = 100 * (3 - d.colorRound) + (4 - d.colorInputIndex) := by
    rw [toEnd, htimers]
    rfl
  rcases goes_on h hopen with hpending | ⟨c, hexpected, hgoes⟩
  · exact absurd htimers hpending
  · let now := max (max t d.clock) (d.actionTimer + 300)
    have ht : t ≤ now := (Nat.le_max_left _ _).trans (Nat.le_max_left _ _)
    have hclock : d.clock ≤ now := (Nat.le_max_right _ _).trans (Nat.le_max_left _ _)
    have hdebounce : d.actionTimer + 300 ≤ now := Nat.le_max_right _ _
    obtain ⟨hdeliver, haccepts⟩ := hgoes now hclock (by omega)
    obtain ⟨d', hhandle, hto⟩ := click_spec d now c
    refine ⟨now, c, d', ht, (if_pos hdeliver).trans hhandle, ?_⟩
    rw [hrank]
    cases hto with
    | ignored _ hnot => exact absurd haccepts hnot
    | wrong _ _ hwrong => exact absurd hexpected hwrong
    | won => exact .inl (Nat.succ_ne_zero _)
    | right _ _ _ hmore =>
      right
      have hlen := (delivered_click h hdeliver.2).2.2.1
      simp only [toEnd, htimers, List.head?_nil, Option.elim_none]
      omega
    | cleared _ _ _ hlast hround =>
      right
      simp only [toEnd, toInput, htimers, List.nil_append, List.head?_cons, Option.elim_some]
      omega

end ColorMemory

namespace UltrasonicGame

variable {targets : Nat → Nat} {p : Phase}

/-- A game that has passed its last step has called `accept`. -/
def Phase.Ends (p : Phase) : Prop := p.step < 4 ∨ p.accepted ≠ 0

theorem Phase.ends_next (h : p.Ends) (now : Nat) (dist : Nat → Int) :
    (p.next targets now dist).Ends := by
  by_cases hend : p.step ≥ 4
  · rw [next, if_pos hend]
    exact h
  · have hlt := Nat.not_le.mp hend
    have hnext := next_cases targets hlt now dist
    generalize p.next targets now dist = p' at hnext
    cases hnext with
    | pass _ _ _ _ hmore => exact .inl hmore
    | finish => exact .inr (Nat.succ_ne_zero _)
    | _ => exact .inl hlt

/-- The steps to the end. -/
def Phase.toEnd (p : Phase) : Nat :=
  10 * (4 - p.step) + if p.needRelease then 3 else if p.holding then 1 else 2

variable (targets) in
/-- A hand that is taken away, or held near the sensor for its time, leads on. -/
theorem Phase.progress (hlt : p.step < 4) (t : Nat) :
    ∃ now cm, t ≤ now ∧ ∀ dist : Nat → Int, dist (targets p.step) = cm →
      (p.next targets now dist).accepted ≠ 0 ∨ (p.next targets now dist).toEnd < p.toEnd := by
  cases hneed : p.needRelease with
  | true =>
    refine ⟨t, -1, Nat.le_refl t, ?_⟩
    intro dist hdist
    have hfar : IsFar (dist (targets p.step)) := by
      rw [hdist]
      decide
    rw [next_release hlt hneed, if_pos hfar]
    right
    simp [toEnd, hneed]
  | false =>
    refine ⟨max t (p.holdTimer + HOLD_MS), 10, Nat.le_max_left _ _, ?_⟩
    intro dist hdist
    have hnear : IsNear (dist (targets p.step)) := by
      rw [hdist]
      decide
    have hnext := next_cases targets hlt (max t (p.holdTimer + HOLD_MS)) dist
    generalize p.next targets (max t (p.holdTimer + HOLD_MS)) dist = p' at hnext ⊢
    cases hnext with
    | release hneed' => exact absurd (hneed'.symm.trans hneed) Bool.noConfusion
    | wait hneed' => exact absurd (hneed'.symm.trans hneed) Bool.noConfusion
    | lose _ hnot => exact absurd hnear hnot
    | keep _ _ _ hshort => exact absurd (Nat.le_max_right _ _) (Nat.not_le.mpr hshort)
    | finish => exact .inl (Nat.succ_ne_zero _)
    | start _ _ hheld =>
      right
      simp [toEnd, hneed, hheld]
    | pass =>
      right
      simp only [toEnd]
      split_ifs <;> omega

end UltrasonicGame

namespace CaptureRequests

open AlarmCameraThread CameraSystem

/-- The steps of the thread to its next answer. -/
def toAnswered : Pc → Nat
  | .initBH1750 => 9
  | .initCapture => 8
  | .startCapture => 7
  | .looping => 6
  | .dequeuing => 5
  | .locking => 4
  | .testing savePath => if savePath = [] then 8 else 3
  | .converting savePath _ => if savePath = [] then 7 else 2
  | .answering _ => 1
  | .leaving => 0
  | .finished => 0

theorem toAnswered_pos {t : AlarmCameraThread} (hgone : ¬ Gone t) : 0 < toAnswered t.pc := by
  cases hpc : t.pc with
  | leaving => exact absurd (.inl hpc) hgone
  | finished => exact absurd (.inr hpc) hgone
  | _ =>
    simp only [toAnswered]
    (try split_ifs) <;> omega

theorem toAnswered_le (pc : Pc) : toAnswered pc ≤ 9 := by
  cases pc <;> simp only [toAnswered] <;> (try split_ifs) <;> omega

/-- The next step of the thread of a camera that works. -/
def works : Pc → Step
  | .initBH1750 => .initBH1750 true
  | .initCapture => .initCapture true
  | .startCapture => .startCapture true
  | .looping => .select .readable
  | .dequeuing => .dequeue .frame
  | .locking => .takePending
  | .testing _ => .testAndSet
  | .converting _ _ => .convert
  | .answering _ => .answer none true
  | .leaving => .finish
  | .finished => .finish

theorem not_givesUp_works (pc : Pc) : ¬ GivesUp (.thread (works pc)) := by
  cases pc <;> exact id

theorem exists_works {t : AlarmCameraThread} (hrunning : InLoop t → t.running = true)
    (hgone : ¬ Gone t) : ∃ next, t.step (works t.pc) = some next := by
  cases hpc : t.pc with
  | looping =>
    have hon : t.running = true := hrunning (by simp [InLoop, Gone, hpc])
    simp [AlarmCameraThread.step, works, hpc, hon]
  | testing savePath =>
    simp only [AlarmCameraThread.step, works, hpc]
    split_ifs <;> exact ⟨_, rfl⟩
  | leaving => exact absurd (.inl hpc) hgone
  | finished => exact absurd (.inr hpc) hgone
  | _ => simp [AlarmCameraThread.step, works, hpc]

/-- With a path to answer it answers with a photo, or comes closer to the answer. -/
theorem works_leads {t t' : AlarmCameraThread} {e : Step} {signals : List Signal}
    (hrunning : InLoop t → t.running = true) (hgone : ¬ Gone t)
    (hpath : pathOf t.pc ≠ [] ∨ t.pendingCapturePath ≠ []) (hworks : e = works t.pc)
    (h : t.step e = some (t', signals)) :
    (∃ path errorText, signals = [.captureSaved path true errorText]) ∨
      toAnswered t'.pc < toAnswered t.pc ∧ signals.length ≤ 1 ∧ signals.filter isAnswer = [] := by
  cases AlarmCameraThread.step_cases h with
  | initFailed hpc | startFailed hpc => simp [works, hpc] at hworks
  | stopped _ hpc hoff =>
    have hon : t.running = true := hrunning (by simp [InLoop, Gone, hpc])
    exact absurd (hoff.symm.trans hon) Bool.false_ne_true
  | waited result hpc _ hresult =>
    rcases hresult with rfl | rfl <;> simp [works, hpc] at hworks
  | selectFailed hpc | again hpc | dequeueFailed hpc => simp [works, hpc] at hworks
  | answered savePath luxRead saved hpc =>
    simp [works, hpc] at hworks
    obtain ⟨rfl, rfl⟩ := hworks
    exact .inl ⟨savePath, [], by simp [answer, readLux]⟩
  | taken hpc =>
    have hpending : t.pendingCapturePath ≠ [] := hpath.resolve_left (by simp [pathOf, hpc])
    exact .inr (by simp [toAnswered, hpc, hpending])
  | claimed savePath hpc =>
    by_cases hempty : savePath = [] <;> exact .inr (by simp [toAnswered, hpc, hempty])
  | needed savePath hpc _ hneeded => exact .inr (by simp [toAnswered, hpc, hneeded])
  | converted savePath uiReady hpc =>
    right
    by_cases hempty : savePath = [] <;> cases uiReady <;>
      simp [toAnswered, hpc, hempty, isAnswer]
  | finish hpc => exact absurd (.inl hpc) hgone
  | sensor _ hpc | init hpc | start hpc | readable hpc | frame hpc | dropped hpc =>
    exact .inr (by simp [toAnswered, hpc, isAnswer])

/-- The steps of a camera dialog to its photo: an answer in flight is the photo or leads to
    another press, and a press leads to the next answer. -/
def toPhoto (s : CameraSystem) : Nat :=
  if s.dialog.captureRequested then
    match s.queue.filter isAnswer with
    | [] => 3 * toAnswered s.thread.pc
    | .captureSaved _ true _ :: _ => 0
    | _ :: _ => 200
  else 100

/-- The steps to the end. -/
def toEnd (s : CameraSystem) : Nat := toPhoto s + s.queue.length

variable (home : QString) {s s' : CameraSystem} {j : Journal}

/-- What is in flight leads on. -/
theorem progress_deliver (hb : Books s j) {signal : Signal} {queue : List Signal}
    (hqueue : s.queue = signal :: queue) (hnext : s' = slot { s with queue := queue } signal) :
    s'.dialog.accepted = true ∨ toEnd s' < toEnd s := by
  have hrank : toEnd s = toPhoto s + (queue.length + 1) := by
    rw [toEnd, hqueue, List.length_cons]
  have hrank' : toEnd s' = toPhoto s' + queue.length := by
    rw [toEnd, hnext, slot_queue]
  rw [hrank, hrank']
  have hanswers : isAnswer signal = true →
      s.queue.filter isAnswer = signal :: queue.filter isAnswer := by
    intro hanswer
    rw [hqueue, List.filter_cons_of_pos hanswer]
  have hwaiting : isAnswer signal = true → s.dialog.captureRequested = true :=
    fun hanswer => (hb.waiting_of_answer hqueue hanswer).1
  cases signal with
  | frameReady | cameraError _ | statusUpdate _ =>
    have hsame : toPhoto s' = toPhoto s := by
      simp [hnext, toPhoto, slot, setStatus, hqueue, isAnswer]
    rw [hsame]
    exact .inr (Nat.lt_succ_self _)
  | captureSaved path ok errorText =>
    cases ok with
    | true =>
      rw [hnext]
      exact .inl rfl
    | false =>
      have hbefore : toPhoto s = 200 := by rw [toPhoto, if_pos (hwaiting rfl), hanswers rfl]
      have hafter : toPhoto s' = 100 := by
        rw [hnext]
        rfl
      omega
  | captureRejectedLowLight lux threshold =>
    have hbefore : toPhoto s = 200 := by rw [toPhoto, if_pos (hwaiting rfl), hanswers rfl]
    have hafter : toPhoto s' = 100 := by
      rw [hnext]
      rfl
    omega

/-- A camera dialog that is not lost gets on, with a camera that works. -/
theorem progress (hb : Books s j) (hopen : s.dialog.accepted = false) (hlost : ¬ Lost s)
    (t : Nat) :
    ∃ e s', (e = .press t ∨ e = .deliver ∨ ∃ e', e = .thread e') ∧ ¬ GivesUp e ∧
      step home s e = some s' ∧ (s'.dialog.accepted = true ∨ toEnd s' < toEnd s) := by
  cases hqueue : s.queue with
  | cons signal queue =>
    refine ⟨.deliver, _, .inr (.inl rfl), id, ?_, progress_deliver hb hqueue rfl⟩
    simp only [CameraSystem.step, hqueue]
  | nil =>
    have hanswered : ¬ Answered s := by
      rintro (haccepted | hsaved)
      · exact Bool.false_ne_true (hopen.symm.trans haccepted)
      · exact not_saved_nil (hqueue ▸ hsaved)
    have hgone : ¬ Gone s.thread := fun hgone => hlost ⟨hgone, hanswered⟩
    cases hrequested : s.dialog.captureRequested with
    | false =>
      have hpress : step home s (.press t) =
        some (captureByButton home (QDateTime.currentDateTime t) s) := rfl
      refine ⟨.press t, _, .inl rfl, id, hpress, .inr ?_⟩
      have hle := toAnswered_le s.thread.pc
      simp [toEnd, toPhoto, captureByButton, hrequested, hb.camera.cameraThread, setStatus, hqueue,
        AlarmCameraThread.requestCapture]
      omega
    | true =>
      have hlength := hb.length_le
      rw [hqueue, if_pos ⟨hrequested, hopen⟩] at hlength
      have hpath : pathOf s.thread.pc ≠ [] ∨ s.thread.pendingCapturePath ≠ [] := by
        by_contra hnone
        obtain ⟨hcarried, hpending⟩ := not_or.mp hnone
        rw [not_not.mp hcarried, not_not.mp hpending] at hlength
        exact absurd hlength Nat.zero_ne_one
      obtain ⟨⟨t', signals⟩, hstep⟩ := exists_works hb.camera.running hgone
      refine ⟨.thread (works s.thread.pc), { s with thread := t', queue := s.queue ++ signals },
        .inr (.inr ⟨_, rfl⟩), not_givesUp_works _, ?_, .inr ?_⟩
      · simp only [CameraSystem.step, hstep, Option.map_some]
      · have hpos : 0 < toAnswered s.thread.pc := toAnswered_pos hgone
        have hrank : toEnd s = 3 * toAnswered s.thread.pc := by
          simp [toEnd, toPhoto, hrequested, hqueue]
        rw [hrank]
        rcases works_leads hb.camera.running hgone hpath rfl hstep with
          ⟨path, errorText, rfl⟩ | ⟨hlt, hlen, hnone⟩
        · have hsaved : toPhoto { s with
              thread := t', queue := s.queue ++ [.captureSaved path true errorText] } = 0 := by
            rw [toPhoto, if_pos hrequested, hqueue]
            rfl
          rw [toEnd, hsaved, hqueue, List.nil_append, List.length_singleton]
          omega
        · simp only [toEnd, toPhoto, hrequested, hqueue, List.nil_append, hnone, if_true]
          omega

end CaptureRequests

end AlarmClock
