import AlarmClock.ButtonDriver

/-!
# The stop pipe of the button's thread

The destructor of `ButtonWatcher` writes a byte to a pipe that the worker watches beside the
device. The driver has no poll operation, so `select` finds the device readable at once,
and the worker goes from `select` into a read that waits for a key. Where the byte comes
among the steps of the driver decides whether the worker ends.
-/

namespace AlarmClock

namespace ButtonDriver

namespace State

/-- The worker's thread is in `wait_event_interruptible`. -/
def waits (b : State) : Bool :=
  match b.processes[0]? with
  | some (Pc.waiting _) => true
  | _ => false

theorem waits_eq_true_iff {b : State} :
    b.waits = true ↔ ∃ rlen, b.processes[0]? = some (.waiting rlen) := by
  unfold waits
  split
  · next rlen h => simp [h]
  · next h =>
    constructor
    · intro hfalse
      cases hfalse
    · rintro ⟨rlen, hwaiting⟩
      exact absurd hwaiting (h rlen)

theorem waits_eq_false {b : State} {pc : Pc} (h : b.processes[0]? = some pc)
    (hpc : ∀ rlen, pc ≠ .waiting rlen) : b.waits = false := by
  rw [Bool.eq_false_iff]
  intro hwaits
  obtain ⟨rlen, hrlen⟩ := waits_eq_true_iff.mp hwaits
  exact hpc rlen (Option.some.inj (h.symm.trans hrlen))

theorem waits_congr {b b' : State} (h : b'.processes[0]? = b.processes[0]?) :
    b'.waits = b.waits := by
  unfold waits
  rw [h]

/-- A process that goes elsewhere than into its wait does not bring the worker there. -/
theorem waits_move {b : State} {p : Nat} {pc pc' : Pc} (h : b.processes[p]? = some pc)
    (hpc' : ∀ rlen, pc' ≠ .waiting rlen) (hwaits : (b.move p pc').waits = true) :
    b.waits = true := by
  by_cases hp : p = 0
  · subst hp
    obtain ⟨hlen, -⟩ := List.getElem?_eq_some_iff.mp h
    have hmoved : (b.move 0 pc').processes[0]? = some pc' := List.getElem?_set_self hlen
    rw [waits_eq_false hmoved hpc'] at hwaits
    cases hwaits
  · have hsame : (b.move p pc').processes[0]? = b.processes[0]? := List.getElem?_set_ne hp
    rwa [waits_congr hsame] at hwaits

end State

end ButtonDriver

namespace StopPipe

/-- The button with its driver, and the byte in the pipe. -/
structure State where
  button : ButtonDriver.State := {}
  stopByte : Bool := false
deriving DecidableEq, Repr

inductive Event where
  | button (e : ButtonDriver.Event)
  /-- the write of `~ButtonWatcher` -/
  | writeStop
deriving DecidableEq, Repr

namespace State

/-- What `run` finds after `select`: it looks at the pipe first, and the device is set at
    all times. -/
def reports (s : State) : ButtonDriver.Event → Bool
  | .select .stop => s.stopByte
  | .select .device => !s.stopByte
  | _ => true

/-- One step. A byte that is written between the return of `select` and the call of `read`
    finds the worker where a byte written just after the call does. -/
def step (s : State) : Event → Option State
  | .button e =>
    if s.reports e then (s.button.step e).map fun b => { s with button := b } else none
  | .writeStop => if s.stopByte then none else some { s with stopByte := true }

/-- The byte is written and the worker sleeps in `read` until another key is pressed. -/
def Blocked (s : State) : Prop :=
  s.stopByte = true ∧ s.button.waits = true ∧ s.button.pressed = false

/-- The worker's own steps that lead out of a read and to the next `select`. -/
def OfWorker : Event → Prop
  | .button (.test p) => p = 0
  | .button (.clear p) => p = 0
  | .button (.copyToUser p _) => p = 0
  | .button .afterRead => True
  | .button (.select r) => r = .stop
  | _ => False

/-- The worker's loop ends by its own steps, without another read. -/
def Ends (s : State) : Prop :=
  ∃ es t, (∀ e ∈ es, OfWorker e) ∧ Machine.run step s es = some t ∧ t.button.worker = .stopped

/-- The byte does not come while the worker sleeps with no press for it, and once it has come
    no other reader takes the press that wakes the worker. -/
def Timely (s : State) : Event → Prop
  | .writeStop => s.button.waits = true → s.button.pressed = true
  | .button (.clear _) => s.stopByte = true → s.button.waits = false
  | _ => True

theorem step_button {s s' : State} {e : ButtonDriver.Event}
    (h : s.step (.button e) = some s') :
    s.reports e = true ∧ ∃ b, s.button.step e = some b ∧ s' = { s with button := b } := by
  simp only [step] at h
  split at h
  · next hreports =>
    obtain ⟨b, hb, rfl⟩ := Option.map_eq_some_iff.mp h
    exact ⟨hreports, b, hb, rfl⟩
  · cases h

theorem step_button_of {s : State} {e : ButtonDriver.Event} {b : ButtonDriver.State}
    (hreports : s.reports e = true) (h : s.button.step e = some b) :
    s.step (.button e) = some { s with button := b } := by
  simp only [step, hreports, if_true, h, Option.map_some]

theorem step_writeStop {s s' : State} (h : s.step .writeStop = some s') :
    s' = { s with stopByte := true } := by
  simp only [step] at h
  split at h
  · cases h
  · exact (Option.some.inj h).symm

/-- The worker's place and its program counter agree in every state of a run. -/
theorem workerInv_step {s s' : State} {e : Event} (hi : s.button.WorkerInv)
    (h : s.step e = some s') : s'.button.WorkerInv := by
  cases e with
  | button e =>
    obtain ⟨-, b, hb, rfl⟩ := step_button h
    exact (ButtonDriver.State.step_calls hi hb).1
  | writeStop =>
    obtain rfl := step_writeStop h
    exact hi

/-- A step that leaves the worker as awake as it was. -/
theorem not_blocked_of {s : State} {b : ButtonDriver.State}
    (hwaits : b.waits = true → s.button.waits = true)
    (hpressed : b.pressed = false → s.button.pressed = false) (h : ¬ s.Blocked) :
    ¬ { s with button := b }.Blocked := by
  rintro ⟨hstop, hw, hp⟩
  exact h ⟨hstop, hwaits hw, hpressed hp⟩

/-- **One step.** A step keeps the worker from sleeping with the byte written exactly when it
    is timely. -/
theorem not_blocked_step {s s' : State} {e : Event} (hi : s.button.WorkerInv) (h : ¬ s.Blocked)
    (hstep : s.step e = some s') : ¬ s'.Blocked ↔ s.Timely e := by
  cases e with
  | writeStop =>
    obtain rfl := step_writeStop hstep
    simp [Blocked, Timely]
  | button e =>
    obtain ⟨hreports, b, hb, rfl⟩ := step_button hstep
    cases ButtonDriver.State.step_cases hb with
    | keyIsr => exact iff_of_true (fun hblocked => nomatch hblocked.2.2) trivial
    | openDevice =>
      obtain ⟨pc, hpc, -⟩ := hi
      obtain ⟨hlen, -⟩ := List.getElem?_eq_some_iff.mp hpc
      have hwaits : ButtonDriver.State.waits
          { s.button with processes := s.button.processes ++ [.user] } = s.button.waits :=
        ButtonDriver.State.waits_congr (List.getElem?_append_left hlen)
      exact iff_of_true (not_blocked_of (fun hw => hwaits ▸ hw) id h) trivial
    | read p count hp huser =>
      have hwaits : (s.button.move p (.waiting (min 1 count))).waits = s.button.waits :=
        ButtonDriver.State.waits_congr (List.getElem?_set_ne hp)
      exact iff_of_true (not_blocked_of (fun hw => hwaits ▸ hw) id h) trivial
    | test p rlen hwaiting hpressed =>
      exact iff_of_true
        (not_blocked_of (ButtonDriver.State.waits_move hwaiting nofun) id h) trivial
    | signal p rlen hwaiting =>
      exact iff_of_true
        (not_blocked_of (ButtonDriver.State.waits_move hwaiting nofun) id h) trivial
    | clear p rlen hwoken =>
      by_cases hp : p = 0
      · subst hp
        have hwaits := ButtonDriver.State.waits_eq_false hwoken nofun
        have hmove : (s.button.move 0 (.cleared rlen)).waits = true → s.button.waits = true :=
          ButtonDriver.State.waits_move hwoken nofun
        refine iff_of_true ?_ fun _ => hwaits
        rintro ⟨-, hw, -⟩
        have hw' := hmove hw
        rw [hwaits] at hw'
        cases hw'
      · have hwaits : (s.button.move p (.cleared rlen)).waits = s.button.waits :=
          ButtonDriver.State.waits_congr (List.getElem?_set_ne hp)
        change ¬ (s.stopByte = true ∧ (s.button.move p (.cleared rlen)).waits = true ∧
          false = false) ↔ (s.stopByte = true → s.button.waits = false)
        rw [hwaits]
        simp
    | copyToUser p rlen fault r hcleared hfault hr =>
      have hmove : (s.button.move p .user).waits = true → s.button.waits = true :=
        ButtonDriver.State.waits_move hcleared nofun
      exact iff_of_true (not_blocked_of hmove id h) trivial
    | device hselecting huser =>
      -- with the byte written `run` does not get to the device
      have hstop : s.stopByte = false := by simpa [reports] using hreports
      refine iff_of_true ?_ trivial
      rintro ⟨hstop', -⟩
      rw [hstop] at hstop'
      cases hstop'
    | afterRead r hreturned =>
      obtain ⟨w, q, hframe⟩ := ButtonDriver.State.afterRead_frame s.button r
      rw [hframe]
      exact iff_of_true (not_blocked_of id id h) trivial
    | eintr | stop | onButtonPressed => exact iff_of_true (not_blocked_of id id h) trivial

/-- A sleeping worker takes no step of its own. -/
theorem not_ends_of_blocked {s : State} (hi : s.button.WorkerInv) (h : s.Blocked) :
    ¬ s.Ends := by
  rintro ⟨es, t, hes, hrun, hstopped⟩
  obtain ⟨-, hwaits, hpressed⟩ := h
  obtain ⟨rlen, hwaiting⟩ := ButtonDriver.State.waits_eq_true_iff.mp hwaits
  obtain ⟨pc, hpc, hreading⟩ := hi
  obtain rfl : pc = .waiting rlen := Option.some.inj (hpc.symm.trans hwaiting)
  have hworker : s.button.worker = .reading := hreading.mpr nofun
  cases es with
  | nil =>
    obtain rfl : s = t := by simpa using hrun
    rw [hworker] at hstopped
    cases hstopped
  | cons e es =>
    obtain ⟨s', hs', -⟩ := Machine.run_cons_eq_some.mp hrun
    have he := hes e (by simp)
    cases e with
    | writeStop => cases he
    | button e =>
      obtain ⟨-, b, hb, -⟩ := step_button hs'
      cases ButtonDriver.State.step_cases hb with
      | test p rlen' hwaiting' hpressed' =>
        rw [hpressed] at hpressed'
        cases hpressed'
      | clear p rlen' hwoken =>
        obtain rfl : p = 0 := he
        cases hwoken.symm.trans hwaiting
      | copyToUser p rlen' fault r hcleared hfault hr =>
        obtain rfl : p = 0 := he
        cases hcleared.symm.trans hwaiting
      | stop r hselecting => cases hselecting.symm.trans hworker
      | afterRead r hreturned => cases hreturned.symm.trans hworker
      | keyIsr | openDevice | read | signal | device | eintr | onButtonPressed => cases he

theorem ends_of_stopped {s : State} (h : s.button.worker = .stopped) : s.Ends :=
  ⟨[], s, by simp, rfl, h⟩

theorem Ends.of_step {s : State} {e : ButtonDriver.Event} {b : ButtonDriver.State}
    (hb : s.button.step e = some b) (hreports : s.reports e = true)
    (he : OfWorker (.button e)) (h : { s with button := b }.Ends) : s.Ends := by
  obtain ⟨es, t, hes, hrun, hstopped⟩ := h
  refine ⟨.button e :: es, t, ?_, ?_, hstopped⟩
  · intro e' he'
    rcases List.mem_cons.mp he' with rfl | he'
    · exact he
    · exact hes e' he'
  · exact Machine.run_cons_eq_some.mpr ⟨_, step_button_of hreports hb, hrun⟩

theorem ends_of_selecting {s : State} (hstop : s.stopByte = true)
    (h : s.button.worker = .selecting) : s.Ends := by
  have hb : s.button.step (.select .stop) = some { s.button with worker := .stopped } := by
    simp [ButtonDriver.State.step, ButtonDriver.State.selected, h]
  exact Ends.of_step hb hstop rfl (ends_of_stopped rfl)

theorem ends_of_returned {s : State} (hstop : s.stopByte = true) {r : Int}
    (h : s.button.worker = .returned r) : s.Ends := by
  have hb : s.button.step .afterRead = some (s.button.afterRead r) := by
    simp [ButtonDriver.State.step, h]
  refine Ends.of_step hb rfl trivial ?_
  unfold ButtonDriver.State.afterRead
  split_ifs
  · exact ends_of_selecting hstop rfl
  · exact ends_of_stopped rfl
  · exact ends_of_selecting hstop rfl

theorem ends_of_cleared {s : State} (hstop : s.stopByte = true) {rlen : Nat}
    (h : s.button.processes[0]? = some (.cleared rlen)) : s.Ends := by
  have hb : s.button.step (.copyToUser 0 false) = s.button.leave 0 rlen false := by
    simp [ButtonDriver.State.step, h]
  exact Ends.of_step hb rfl rfl (ends_of_returned hstop rfl)

theorem ends_of_woken {s : State} (hstop : s.stopByte = true) {rlen : Nat}
    (h : s.button.processes[0]? = some (.woken rlen)) : s.Ends := by
  have hb : s.button.step (.clear 0) =
      some { s.button.move 0 (.cleared rlen) with pressed := false } := by
    simp [ButtonDriver.State.step, h]
  obtain ⟨hlen, -⟩ := List.getElem?_eq_some_iff.mp h
  exact Ends.of_step hb rfl rfl (ends_of_cleared hstop (List.getElem?_set_self hlen))

theorem ends_of_waiting {s : State} (hstop : s.stopByte = true) {rlen : Nat}
    (h : s.button.processes[0]? = some (.waiting rlen)) (hpressed : s.button.pressed = true) :
    s.Ends := by
  have hb : s.button.step (.test 0) = some (s.button.move 0 (.woken rlen)) := by
    simp [ButtonDriver.State.step, h, hpressed]
  obtain ⟨hlen, -⟩ := List.getElem?_eq_some_iff.mp h
  exact Ends.of_step hb rfl rfl (ends_of_woken hstop (List.getElem?_set_self hlen))

/-- **The way out.** With the byte in the pipe the worker ends by its own steps exactly when
    it does not sleep. -/
theorem ends_iff_not_blocked {s : State} (hi : s.button.WorkerInv) (hstop : s.stopByte = true) :
    s.Ends ↔ ¬ s.Blocked := by
  refine ⟨fun hends hblocked => not_ends_of_blocked hi hblocked hends, ?_⟩
  intro h
  obtain ⟨pc, hpc, hreading⟩ := hi
  cases pc with
  | user =>
    cases hworker : s.button.worker with
    | selecting => exact ends_of_selecting hstop hworker
    | reading => exact absurd rfl (hreading.mp hworker)
    | returned r => exact ends_of_returned hstop hworker
    | stopped => exact ends_of_stopped hworker
  | waiting rlen =>
    have hwaits := ButtonDriver.State.waits_eq_true_iff.mpr ⟨rlen, hpc⟩
    cases hpressed : s.button.pressed with
    | false => exact absurd ⟨hstop, hwaits, hpressed⟩ h
    | true => exact ends_of_waiting hstop hpc hpressed
  | woken rlen => exact ends_of_woken hstop hpc
  | cleared rlen => exact ends_of_cleared hstop hpc

end State

open State

theorem workerInv_run {es : List Event} {s : State} (h : Machine.run step {} es = some s) :
    s.button.WorkerInv :=
  Machine.run_invariant (I := fun s => s.button.WorkerInv)
    (fun _ _ _ hi hstep => workerInv_step hi hstep) ButtonDriver.State.workerInv_init h

/-- **The stop pipe.** In every run, the byte never finds the worker asleep, so that from every
    state with the byte written the worker's own steps end its loop, exactly when every step of
    the run is timely. -/
theorem stopPipe_iff {es : List Event} {s : State} (hrun : Machine.run step {} es = some s) :
    Machine.Throughout step (fun u => ¬ u.Blocked ∧ (u.stopByte = true → u.Ends)) {} es ↔
      Machine.Along step Timely {} es := by
  have hinit : ¬ ({} : State).Blocked := fun hblocked => nomatch hblocked.1
  rw [← Machine.throughout_iff_along (I := fun s => s.button.WorkerInv)
    (fun _ _ _ hi hstep => workerInv_step hi hstep)
    (fun _ _ _ hi h hstep => not_blocked_step hi h hstep)
    ButtonDriver.State.workerInv_init hinit hrun]
  constructor
  · intro h pre u hpre hu
    exact (h pre u hpre hu).1
  · intro h pre u hpre hu
    have hblocked := h pre u hpre hu
    exact ⟨hblocked, fun hstop => (ends_iff_not_blocked (workerInv_run hu) hstop).mpr hblocked⟩

/-- A press is read, the byte comes before the worker is back at `select`, and it ends. -/
theorem stopPipe_iff_pressFirst :
    ∃ s, Machine.run step {} [.button .keyIsr, .button (.select .device), .button (.test 0),
      .writeStop, .button (.clear 0), .button (.copyToUser 0 false), .button .afterRead,
      .button (.select .stop)] = some s ∧
      Machine.Throughout step (fun u => ¬ u.Blocked ∧ (u.stopByte = true → u.Ends)) {}
        [.button .keyIsr, .button (.select .device), .button (.test 0), .writeStop,
          .button (.clear 0), .button (.copyToUser 0 false), .button .afterRead,
          .button (.select .stop)] := by
  have hrun : Machine.run step {} [.button .keyIsr, .button (.select .device), .button (.test 0),
      .writeStop, .button (.clear 0), .button (.copyToUser 0 false), .button .afterRead,
      .button (.select .stop)] = some _ := rfl
  refine ⟨_, hrun, (stopPipe_iff hrun).mpr ?_⟩
  refine Machine.Along.cons trivial rfl (Machine.Along.cons trivial rfl ?_)
  refine Machine.Along.cons trivial rfl (Machine.Along.cons (fun _ => rfl) rfl ?_)
  refine Machine.Along.cons (fun _ => rfl) rfl (Machine.Along.cons trivial rfl ?_)
  exact Machine.Along.cons trivial rfl (Machine.Along.cons trivial rfl trivial)

/-- No key is pressed: `select` finds the device readable, the worker goes to sleep in its read,
    and the byte does not wake it. -/
theorem not_stopPipe_noPress :
    ∃ s, Machine.run step {} [.button (.select .device), .writeStop] = some s ∧ s.Blocked ∧
      ¬ s.Ends := by
  have hrun : Machine.run step {} [.button (.select .device), .writeStop] = some _ := rfl
  refine ⟨_, hrun, ⟨rfl, rfl, rfl⟩, ?_⟩
  exact not_ends_of_blocked (workerInv_run hrun) ⟨rfl, rfl, rfl⟩

end StopPipe

end AlarmClock
