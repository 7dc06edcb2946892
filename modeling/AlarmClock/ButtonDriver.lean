import AlarmClock.Lib.IndexedUpdate
import AlarmClock.Lib.Machine

/-!
# The button, from the interrupt to the game

The driver has one flag: the key interrupt sets it and wakes whoever waits, and a read
waits for it, clears it and returns 1. Any number of processes may have the device open;
the first is the thread of `ButtonWorker`, which emits a signal for every positive read.
The steps of a read are the points at which interrupts, signals and other readers come
in between. One equation balances the interrupts against the presses that are returned.
-/

namespace AlarmClock

namespace ButtonDriver

/-! ### The driver and its readers -/

/-- Where a process stands in `device_read`, with its `rlen`. -/
inductive Pc where
  /-- outside the call -/
  | user
  /-- in `wait_event_interruptible` -/
  | waiting (rlen : Nat)
  /-- past it, before `atomic_set` -/
  | woken (rlen : Nat)
  /-- past `atomic_set`, before `copy_to_user` -/
  | cleared (rlen : Nat)
deriving DecidableEq, Repr

/-- Where the thread of `ButtonWorker` stands; `reading` is its call of `read`. -/
inductive Worker where
  | selecting
  | reading
  | returned (r : Int)
  | stopped
deriving DecidableEq, Repr

/-- How `select` ends: an error, the stop pipe, or the device, which is always readable. -/
inductive Selected where
  | eintr
  | error
  | stop
  | device
deriving DecidableEq, Repr

/-- The driver, the processes that have the device open, and the way to the game.
    `returns` are the results of all reads so far, the newest first. -/
structure State where
  pressed : Bool := false
  processes : List Pc := [.user]
  worker : Worker := .selecting
  interrupts : Nat := 0
  returns : List Int := []
  queued : Nat := 0
  delivered : Nat := 0
deriving DecidableEq, Repr

def EFAULT : Int := 14

/-- Process `p` is given by its place; the worker's thread is process 0. A test that fails
    leaves a reader asleep and is no step. -/
inductive Event where
  | keyIsr
  | openDevice
  | read (p count : Nat)
  | test (p : Nat)
  | signal (p : Nat)
  | clear (p : Nat)
  | copyToUser (p : Nat) (fault : Bool)
  | select (r : Selected)
  | afterRead
  | onButtonPressed
deriving DecidableEq, Repr

namespace State

def move (s : State) (p : Nat) (pc : Pc) : State := { s with processes := s.processes.set p pc }

/-- The call: `rlen` is cut to `count`. -/
def enter (s : State) (p count : Nat) : Option State :=
  if s.processes[p]? = some .user then some (s.move p (.waiting (min 1 count))) else none

/-- `copy_to_user` and the return. The worker's buffer is its own. -/
def leave (s : State) (p rlen : Nat) (fault : Bool) : Option State :=
  if fault ∧ p = 0 then none
  else
    let r : Int := if fault ∧ 0 < rlen then -EFAULT else rlen
    some { s.move p .user with
      returns := r :: s.returns
      worker := if p = 0 then .returned r else s.worker }

/-- The loop of `ButtonWorker::run` after `select`. -/
def selected (s : State) : Selected → Option State
  | .eintr => some s
  | .error => some { s with worker := .stopped }
  | .stop => some { s with worker := .stopped }
  | .device => { s with worker := .reading }.enter 0 64

/-- The loop of `ButtonWorker::run` after `read`. -/
def afterRead (s : State) (r : Int) : State :=
  if 0 < r then { s with worker := .selecting, queued := s.queued + 1 }
  else if r < 0 then { s with worker := .stopped }
  else { s with worker := .selecting }

/-- One step. The result of `wait_event_interruptible` is not looked at: a reader that a
    signal interrupts goes on like one that found the flag set. -/
def step (s : State) : Event → Option State
  | .keyIsr => some { s with pressed := true, interrupts := s.interrupts + 1 }
  | .openDevice => some { s with processes := s.processes ++ [.user] }
  | .read p count => if p = 0 then none else s.enter p count
  | .test p =>
    match s.processes[p]? with
    | some (.waiting rlen) => if s.pressed then some (s.move p (.woken rlen)) else none
    | _ => none
  | .signal p =>
    match s.processes[p]? with
    | some (.waiting rlen) => if s.pressed then none else some (s.move p (.woken rlen))
    | _ => none
  | .clear p =>
    match s.processes[p]? with
    | some (.woken rlen) => some { s.move p (.cleared rlen) with pressed := false }
    | _ => none
  | .copyToUser p fault =>
    match s.processes[p]? with
    | some (.cleared rlen) => s.leave p rlen fault
    | _ => none
  | .select r => if s.worker = .selecting then s.selected r else none
  | .afterRead =>
    match s.worker with
    | .returned r => some (s.afterRead r)
    | _ => none
  | .onButtonPressed =>
    if 0 < s.queued then some { s with queued := s.queued - 1, delivered := s.delivered + 1 }
    else none

/-! ### The books -/

/-- The reads that returned a press. -/
def presses (s : State) : Nat := s.returns.countP fun r => decide (0 < r)

/-- The press that the driver holds. -/
def pending (s : State) : Nat := s.pressed.toNat

/-- Has taken the flag and has a byte to return for it. -/
def holds : Pc → Bool
  | .cleared rlen => decide (0 < rlen)
  | _ => false

/-- The reads that have taken the flag and not returned. -/
def inFlight (s : State) : Nat := s.processes.countP holds

/-- The press that the worker has read and not yet emitted. -/
def toEmit (s : State) : Nat :=
  match s.worker with
  | .returned r => if 0 < r then 1 else 0
  | _ => 0

/-- The signals emitted, or about to be. -/
def calls (s : State) : Nat := s.delivered + s.queued + s.toEmit

/-- A key interrupt that finds the flag set. -/
def loses (s : State) : Event → Bool
  | .keyIsr => s.pressed
  | _ => false

/-- A reader that clears the flag when it is not set. -/
def invents (s : State) : Event → Bool
  | .clear p =>
    match s.processes[p]? with
    | some (.woken rlen) => decide (0 < rlen) && !s.pressed
    | _ => false
  | _ => false

/-- A reader that takes the flag, or took it, and returns no byte for it. -/
def drops (s : State) : Event → Bool
  | .clear p =>
    match s.processes[p]? with
    | some (.woken rlen) => rlen == 0 && s.pressed
    | _ => false
  | .copyToUser p fault =>
    match s.processes[p]? with
    | some pc => holds pc && fault
    | none => false
  | _ => false

/-- A press that is returned to another process than the worker's. -/
def strays (s : State) : Event → Bool
  | .copyToUser p fault =>
    match s.processes[p]? with
    | some pc => holds pc && !fault && p != 0
    | none => false
  | _ => false

/-- Where the interrupts have gone. -/
def accounted (s : State) : Nat := s.presses + s.inFlight + s.pending

/-- A move between places that hold no press. -/
theorem accounted_move {s : State} {p : Nat} {pc pc' : Pc} (h : s.processes[p]? = some pc)
    (hpc : holds pc = false) (hpc' : holds pc' = false) :
    (s.move p pc').accounted = s.accounted := by
  have hset := IndexedUpdate.countP_set holds h pc'
  simp only [hpc, hpc', Bool.false_eq_true, if_false, Nat.add_zero] at hset
  simp only [accounted, presses, inFlight, pending, move, hset]

theorem enter_eq_some {s s' : State} {p count : Nat} (h : s.enter p count = some s') :
    s.processes[p]? = some .user ∧ s' = s.move p (.waiting (min 1 count)) := by
  unfold enter at h
  split at h
  · next huser => exact ⟨huser, (Option.some.inj h).symm⟩
  · cases h

theorem leave_eq_some {s s' : State} {p rlen : Nat} {fault : Bool}
    (h : s.leave p rlen fault = some s') :
    (p = 0 → fault = false) ∧ ∃ r : Int, (0 < r ↔ 0 < rlen ∧ fault = false) ∧
      s' = { s.move p .user with
        returns := r :: s.returns
        worker := if p = 0 then .returned r else s.worker } := by
  unfold leave at h
  split at h
  · cases h
  · next hworker =>
    refine ⟨fun hp => by simpa [hp] using hworker, _, ?_, (Option.some.inj h).symm⟩
    cases fault with
    | false => simp
    | true =>
      have hEFAULT : (0 : Int) ≤ EFAULT := by decide
      simp only [true_and]
      split_ifs with hrlen
      · simp [hEFAULT]
      · simpa using hrlen

theorem afterRead_frame (s : State) (r : Int) :
    ∃ w q, s.afterRead r = { s with worker := w, queued := q } := by
  unfold afterRead
  split_ifs
  · exact ⟨_, _, rfl⟩
  · exact ⟨_, _, rfl⟩
  · exact ⟨_, _, rfl⟩

/-- Every event, with what it finds and what it leaves. -/
inductive StepTo (s : State) : Event → State → Prop where
  | keyIsr : StepTo s .keyIsr { s with pressed := true, interrupts := s.interrupts + 1 }
  | openDevice : StepTo s .openDevice { s with processes := s.processes ++ [.user] }
  | read (p count : Nat) (hp : p ≠ 0) (huser : s.processes[p]? = some .user) :
      StepTo s (.read p count) (s.move p (.waiting (min 1 count)))
  | test (p rlen : Nat) (hwaiting : s.processes[p]? = some (.waiting rlen))
      (hpressed : s.pressed = true) : StepTo s (.test p) (s.move p (.woken rlen))
  | signal (p rlen : Nat) (hwaiting : s.processes[p]? = some (.waiting rlen)) :
      StepTo s (.signal p) (s.move p (.woken rlen))
  | clear (p rlen : Nat) (hwoken : s.processes[p]? = some (.woken rlen)) :
      StepTo s (.clear p) { s.move p (.cleared rlen) with pressed := false }
  | copyToUser (p rlen : Nat) (fault : Bool) (r : Int)
      (hcleared : s.processes[p]? = some (.cleared rlen)) (hfault : p = 0 → fault = false)
      (hr : 0 < r ↔ 0 < rlen ∧ fault = false) :
      StepTo s (.copyToUser p fault) { s.move p .user with
        returns := r :: s.returns
        worker := if p = 0 then .returned r else s.worker }
  | device (hselecting : s.worker = .selecting) (huser : s.processes[0]? = some .user) :
      StepTo s (.select .device) ({ s with worker := .reading }.move 0 (.waiting 1))
  | eintr (hselecting : s.worker = .selecting) : StepTo s (.select .eintr) s
  | stop (r : Selected) (hselecting : s.worker = .selecting) :
      StepTo s (.select r) { s with worker := .stopped }
  | afterRead (r : Int) (hreturned : s.worker = .returned r) :
      StepTo s .afterRead (s.afterRead r)
  | onButtonPressed (hqueued : 0 < s.queued) :
      StepTo s .onButtonPressed { s with queued := s.queued - 1, delivered := s.delivered + 1 }

theorem step_cases {s s' : State} {e : Event} (h : s.step e = some s') : StepTo s e s' := by
  cases e with
  | keyIsr =>
    obtain rfl := Option.some.inj h
    exact .keyIsr
  | openDevice =>
    obtain rfl := Option.some.inj h
    exact .openDevice
  | read p count =>
    simp only [step] at h
    split at h
    · cases h
    · next hp =>
      obtain ⟨huser, rfl⟩ := enter_eq_some h
      exact .read p count hp huser
  | test p =>
    simp only [step] at h
    split at h
    · next rlen hwaiting =>
      split at h
      · next hpressed =>
        obtain rfl := Option.some.inj h
        exact .test p rlen hwaiting hpressed
      · cases h
    · cases h
  | signal p =>
    simp only [step] at h
    split at h
    · next rlen hwaiting =>
      split at h
      · cases h
      · obtain rfl := Option.some.inj h
        exact .signal p rlen hwaiting
    · cases h
  | clear p =>
    simp only [step] at h
    split at h
    · next rlen hwoken =>
      obtain rfl := Option.some.inj h
      exact .clear p rlen hwoken
    · cases h
  | copyToUser p fault =>
    simp only [step] at h
    split at h
    · next rlen hcleared =>
      obtain ⟨hfault, r, hr, rfl⟩ := leave_eq_some h
      exact .copyToUser p rlen fault r hcleared hfault hr
    · cases h
  | select r =>
    simp only [step] at h
    split at h
    · next hselecting =>
      cases r with
      | device =>
        obtain ⟨huser, rfl⟩ := enter_eq_some h
        exact .device hselecting huser
      | eintr =>
        obtain rfl := Option.some.inj h
        exact .eintr hselecting
      | error | stop =>
        obtain rfl := Option.some.inj h
        exact .stop _ hselecting
    · cases h
  | afterRead =>
    simp only [step] at h
    split at h
    · next r hreturned =>
      obtain rfl := Option.some.inj h
      exact .afterRead r hreturned
    · cases h
  | onButtonPressed =>
    simp only [step] at h
    split at h
    · next hqueued =>
      obtain rfl := Option.some.inj h
      exact .onButtonPressed hqueued
    · cases h

/-- **One step balances.** An interrupt is returned, held by a reader or by the driver, or
    lost; and a press beyond the interrupts is one that a reader invented. -/
theorem step_balance {s s' : State} {e : Event} (h : s.step e = some s') :
    s'.interrupts + s.accounted + (if s.invents e then 1 else 0) =
      s.interrupts + s'.accounted + if s.loses e || s.drops e then 1 else 0 := by
  cases step_cases h with
  | keyIsr =>
    cases hpressed : s.pressed <;>
      simp [accounted, presses, inFlight, pending, invents, loses, drops, hpressed] <;> omega
  | openDevice =>
    simp [accounted, presses, inFlight, pending, invents, loses, drops, holds]
  | read p count hp huser =>
    rw [accounted_move huser rfl rfl]
    rfl
  | test p rlen hwaiting hpressed =>
    rw [accounted_move hwaiting rfl rfl]
    rfl
  | signal p rlen hwaiting =>
    rw [accounted_move hwaiting rfl rfl]
    rfl
  | clear p rlen hwoken =>
    have hset := IndexedUpdate.countP_set holds hwoken (.cleared rlen)
    simp only [holds] at hset
    simp only [accounted, presses, inFlight, pending, invents, loses, drops, move, hwoken]
    rcases Nat.eq_zero_or_pos rlen with rfl | hpos
    · cases s.pressed <;> simp at hset ⊢ <;> omega
    · have hne : rlen ≠ 0 := Nat.ne_of_gt hpos
      cases s.pressed <;> simp [hpos, hne] at hset ⊢ <;> omega
  | copyToUser p rlen fault r hcleared hfault hr =>
    have hset := IndexedUpdate.countP_set holds hcleared .user
    simp only [holds] at hset
    simp only [accounted, presses, inFlight, pending, invents, loses, drops, move, hcleared,
      holds, List.countP_cons, decide_eq_true_eq, hr]
    cases fault <;> by_cases hpos : 0 < rlen <;> simp [hpos] at hset ⊢ <;> omega
  | device hselecting huser =>
    have huser' : { s with worker := .reading }.processes[0]? = some .user := huser
    rw [accounted_move huser' rfl rfl]
    rfl
  | afterRead r hreturned =>
    obtain ⟨w, q, hframe⟩ := afterRead_frame s r
    rw [hframe]
    rfl
  | eintr | stop | onButtonPressed => rfl

/-- The place of the worker's thread tells whether it is in `device_read`. -/
def WorkerInv (s : State) : Prop :=
  ∃ pc, s.processes[0]? = some pc ∧ (s.worker = .reading ↔ pc ≠ .user)

/-- A step inside `device_read`. -/
theorem WorkerInv.move {s : State} (hi : s.WorkerInv) {p : Nat} {pc pc' : Pc}
    (h : s.processes[p]? = some pc) (hpc : pc ≠ .user) (hpc' : pc' ≠ .user) :
    (s.move p pc').WorkerInv := by
  obtain ⟨pc₀, h₀, hreading⟩ := hi
  by_cases hp : p = 0
  · subst hp
    obtain rfl : pc = pc₀ := Option.some.inj (h.symm.trans h₀)
    refine ⟨pc', ?_, ?_⟩
    · obtain ⟨hlen, -⟩ := List.getElem?_eq_some_iff.mp h
      exact List.getElem?_set_self hlen
    · exact hreading.trans (iff_of_true hpc hpc')
  · refine ⟨pc₀, ?_, hreading⟩
    exact (List.getElem?_set_ne hp).trans h₀

/-- A step of another process. -/
theorem WorkerInv.move_of_ne {s : State} (hi : s.WorkerInv) {p : Nat} (hp : p ≠ 0) (pc' : Pc) :
    (s.move p pc').WorkerInv := by
  obtain ⟨pc₀, h₀, hreading⟩ := hi
  exact ⟨pc₀, (List.getElem?_set_ne hp).trans h₀, hreading⟩

theorem WorkerInv.toEmit_eq_zero {s : State} (hi : s.WorkerInv) {pc : Pc}
    (h : s.processes[0]? = some pc) (hpc : pc ≠ .user) : s.toEmit = 0 := by
  obtain ⟨pc₀, h₀, hreading⟩ := hi
  obtain rfl : pc = pc₀ := Option.some.inj (h.symm.trans h₀)
  simp only [toEmit, hreading.mpr hpc]

theorem WorkerInv.of_user {s : State} (h : s.processes[0]? = some .user)
    (hw : s.worker ≠ .reading) : s.WorkerInv :=
  ⟨.user, h, iff_of_false hw fun hne => hne rfl⟩

theorem user_of_returned {s : State} (hi : s.WorkerInv) (hw : s.worker ≠ .reading) :
    s.processes[0]? = some .user := by
  obtain ⟨pc, hpc, hreading⟩ := hi
  have huser : pc = .user := not_not.mp (mt hreading.mpr hw)
  exact huser ▸ hpc

theorem workerInv_afterRead {s : State} (h : s.processes[0]? = some .user) (r : Int) :
    (s.afterRead r).WorkerInv := by
  unfold afterRead
  split_ifs
  · exact WorkerInv.of_user h nofun
  · exact WorkerInv.of_user h nofun
  · exact WorkerInv.of_user h nofun

theorem calls_afterRead {s : State} {r : Int} (h : s.worker = .returned r) :
    (s.afterRead r).calls = s.calls := by
  unfold afterRead
  split_ifs with hpos hneg
  · simp only [calls, toEmit, h, if_pos hpos]
    omega
  · simp only [calls, toEmit, h, if_neg hpos]
  · simp only [calls, toEmit, h, if_neg hpos]

/-- **One step of the signals.** Every press that the worker's thread reads is emitted once,
    and every signal is delivered once. -/
theorem step_calls {s s' : State} {e : Event} (hi : s.WorkerInv) (h : s.step e = some s') :
    s'.WorkerInv ∧ s'.presses + s.calls = s.presses + s'.calls + if s.strays e then 1 else 0 := by
  cases step_cases h with
  | keyIsr => exact ⟨hi, rfl⟩
  | openDevice =>
    obtain ⟨pc, hpc, hreading⟩ := hi
    obtain ⟨hlen, -⟩ := List.getElem?_eq_some_iff.mp hpc
    exact ⟨⟨pc, (List.getElem?_append_left hlen).trans hpc, hreading⟩, rfl⟩
  | read p count hp huser => exact ⟨hi.move_of_ne hp _, rfl⟩
  | test p rlen hwaiting hpressed => exact ⟨hi.move hwaiting nofun nofun, rfl⟩
  | signal p rlen hwaiting => exact ⟨hi.move hwaiting nofun nofun, rfl⟩
  | clear p rlen hwoken => exact ⟨hi.move hwoken nofun nofun, rfl⟩
  | copyToUser p rlen fault r hcleared hfault hr =>
    by_cases hp : p = 0
    · subst hp
      obtain rfl := hfault rfl
      have hcalls : s.calls = s.delivered + s.queued := by
        simp only [calls, hi.toEmit_eq_zero hcleared nofun, Nat.add_zero]
      obtain ⟨hlen, -⟩ := List.getElem?_eq_some_iff.mp hcleared
      refine ⟨WorkerInv.of_user (List.getElem?_set_self hlen) nofun, ?_⟩
      rw [hcalls]
      simp only [presses, calls, strays, hcleared, toEmit, move, if_true, List.countP_cons,
        decide_eq_true_eq]
      simp
      omega
    · constructor
      · simp only [if_neg hp]
        exact hi.move_of_ne hp .user
      · simp only [presses, calls, strays, hcleared, toEmit, move, if_neg hp, holds,
          List.countP_cons, decide_eq_true_eq, hr]
        cases fault <;> by_cases hpos : 0 < rlen <;> simp [hpos, hp, Nat.add_right_comm]
  | device hselecting huser =>
    obtain ⟨hlen, -⟩ := List.getElem?_eq_some_iff.mp huser
    constructor
    · exact ⟨.waiting 1, List.getElem?_set_self hlen, iff_of_true rfl nofun⟩
    · simp [presses, calls, strays, toEmit, move, hselecting]
  | eintr hselecting => exact ⟨hi, rfl⟩
  | stop r hselecting =>
    have huser := user_of_returned hi (by simp [hselecting])
    constructor
    · exact WorkerInv.of_user huser nofun
    · simp [presses, calls, strays, toEmit, hselecting]
  | afterRead r hreturned =>
    refine ⟨workerInv_afterRead (user_of_returned hi (by simp [hreturned])) r, ?_⟩
    rw [calls_afterRead hreturned]
    obtain ⟨w, q, hframe⟩ := afterRead_frame s r
    rw [hframe]
    rfl
  | onButtonPressed hqueued =>
    refine ⟨hi, ?_⟩
    simp only [presses, calls, strays, toEmit]
    simp
    omega

/-! ### Whole runs -/

/-- The balance over a run. -/
theorem run_books {es : List Event} {s : State} (h : Machine.run step {} es = some s) :
    s.interrupts + Machine.countRun step invents {} es =
      s.accounted + Machine.countRun step (fun s e => s.loses e || s.drops e) {} es := by
  have hbalance : s.interrupts + 0 + Machine.countRun step invents {} es =
      0 + s.accounted + Machine.countRun step (fun s e => s.loses e || s.drops e) {} es :=
    Machine.run_balance (I := fun _ => True) (P := fun _ => True)
      (fun _ _ _ _ _ hs => ⟨trivial, step_balance hs⟩) (fun _ _ => trivial) trivial h
  omega

theorem workerInv_init : ({} : State).WorkerInv := ⟨.user, rfl, by decide⟩

/-- The signals over a run. -/
theorem run_calls {es : List Event} {s : State} (h : Machine.run step {} es = some s) :
    s.presses = s.calls + Machine.countRun step strays {} es := by
  have hbalance : s.presses + 0 + Machine.countRun step (fun _ _ => false) {} es =
      0 + s.calls + Machine.countRun step strays {} es :=
    Machine.run_balance (I := WorkerInv) (P := fun _ => True) (Q := fun _ _ => false)
      (fun _ _ _ _ hi hs => step_calls hi hs) (fun _ _ => trivial) workerInv_init h
  rw [Machine.countRun_never] at hbalance
  omega

/-- One reader, and no signal that interrupts its wait. -/
def Solo : Event → Prop
  | .openDevice => False
  | .signal _ => False
  | _ => True

/-- Where a lone reader stands: it asks for a byte, and past its wait the flag is set. -/
def Stands (pressed : Bool) : Pc → Prop
  | .user => True
  | .waiting rlen => rlen = 1
  | .woken rlen => rlen = 1 ∧ pressed = true
  | .cleared rlen => rlen = 1

structure SoloInv (s : State) : Prop where
  workerInv : s.WorkerInv
  alone : ∃ pc, s.processes = [pc] ∧ Stands s.pressed pc

theorem soloInv_init : ({} : State).SoloInv := ⟨workerInv_init, .user, rfl, trivial⟩

theorem SoloInv.stands {s : State} (hi : s.SoloInv) {p : Nat} {pc : Pc}
    (h : s.processes[p]? = some pc) : p = 0 ∧ s.processes = [pc] ∧ Stands s.pressed pc := by
  obtain ⟨pc₀, h₀, hstands⟩ := hi.alone
  rw [h₀, List.getElem?_singleton] at h
  split at h
  · next hp =>
    obtain rfl := Option.some.inj h
    exact ⟨hp, h₀, hstands⟩
  · cases h

theorem processes_move {s : State} {pc₀ : Pc} (h : s.processes = [pc₀]) (pc : Pc) :
    (s.move 0 pc).processes = [pc] := by
  simp only [move, h, List.set_cons_zero]

/-- **One step of a lone reader.** It finds the flag set when it clears it, and returns a
    byte for it. -/
theorem soloInv_step {s s' : State} {e : Event} (he : Solo e) (hi : s.SoloInv)
    (h : s.step e = some s') :
    s'.SoloInv ∧ s.invents e = false ∧ s.drops e = false ∧ s.strays e = false := by
  obtain ⟨hworker, -⟩ := step_calls hi.workerInv h
  cases step_cases h with
  | openDevice => cases he
  | signal p rlen hwaiting => cases he
  | keyIsr =>
    obtain ⟨pc, hpc, hstands⟩ := hi.alone
    refine ⟨⟨hworker, pc, hpc, ?_⟩, rfl, rfl, rfl⟩
    cases pc with
    | woken rlen => exact ⟨hstands.1, rfl⟩
    | user | waiting rlen | cleared rlen => exact hstands
  | read p count hp huser => exact absurd (hi.stands huser).1 hp
  | test p rlen hwaiting hpressed =>
    obtain ⟨rfl, hpc, hstands⟩ := hi.stands hwaiting
    exact ⟨⟨hworker, .woken rlen, processes_move hpc _, hstands, hpressed⟩, rfl, rfl, rfl⟩
  | clear p rlen hwoken =>
    obtain ⟨rfl, hpc, rfl, hpressed⟩ := hi.stands hwoken
    refine ⟨⟨hworker, .cleared 1, processes_move hpc _, rfl⟩, ?_, ?_, rfl⟩
    · simp only [invents, hwoken, hpressed]
      rfl
    · simp only [drops, hwoken]
      rfl
  | copyToUser p rlen fault r hcleared hfault hr =>
    obtain ⟨rfl, hpc, -⟩ := hi.stands hcleared
    obtain rfl := hfault rfl
    refine ⟨⟨hworker, .user, processes_move hpc _, trivial⟩, rfl, ?_, ?_⟩
    · simp only [drops, hcleared, Bool.and_false]
    · simp only [strays, hcleared, bne_self_eq_false, Bool.and_false]
  | device hselecting huser =>
    obtain ⟨-, hpc, -⟩ := hi.stands huser
    exact ⟨⟨hworker, .waiting 1, processes_move hpc _, rfl⟩, rfl, rfl, rfl⟩
  | afterRead r hreturned =>
    refine ⟨⟨hworker, ?_⟩, rfl, rfl, rfl⟩
    obtain ⟨w, q, hframe⟩ := afterRead_frame s r
    rw [hframe]
    exact hi.alone
  | eintr | stop | onButtonPressed => exact ⟨⟨hworker, hi.alone⟩, rfl, rfl, rfl⟩

/-- The balance of a lone reader: only an interrupt that finds the flag set is lost. -/
theorem run_books_solo {es : List Event} (hsolo : ∀ e ∈ es, Solo e) {s : State}
    (h : Machine.run step {} es = some s) :
    s.SoloInv ∧ s.presses = s.calls ∧
      s.interrupts = s.accounted + Machine.countRun step loses {} es := by
  have hinv : s.SoloInv := Machine.run_invariant_along (Q := fun _ e => Solo e)
    (fun _ _ _ hi he hs => (soloInv_step he hi hs).1) soloInv_init
    (Machine.along_of_forall hsolo _) h
  have hcalls : s.presses + 0 + Machine.countRun step (fun _ _ => false) {} es =
      0 + s.calls + Machine.countRun step (fun _ _ => false) {} es := by
    refine Machine.run_balance (f := presses) (g := calls) (I := SoloInv) (P := Solo)
      (Q := fun _ _ => false) (R := fun _ _ => false) ?_ hsolo soloInv_init h
    intro s e s' he hi hs
    obtain ⟨hi', -, -, hstrays⟩ := soloInv_step he hi hs
    obtain ⟨-, hstep⟩ := step_calls hi.workerInv hs
    rw [hstrays] at hstep
    exact ⟨hi', hstep⟩
  have hbooks : s.interrupts + 0 + Machine.countRun step (fun _ _ => false) {} es =
      0 + s.accounted + Machine.countRun step loses {} es := by
    refine Machine.run_balance (f := interrupts) (g := accounted) (I := SoloInv) (P := Solo)
      (Q := fun _ _ => false) ?_ hsolo soloInv_init h
    intro s e s' he hi hs
    obtain ⟨hi', hinvents, hdrops, -⟩ := soloInv_step he hi hs
    have hstep := step_balance hs
    rw [hinvents, hdrops, Bool.or_false] at hstep
    exact ⟨hi', hstep⟩
  rw [Machine.countRun_never] at hcalls hbooks
  refine ⟨hinv, by omega, by omega⟩

end State

open State

/-- **No invented press.** With any number of readers and any signals, in every run whose
    readers find the flag set when they clear it, no more reads return a press than keys
    were pressed, and the game is not told of more. -/
theorem presses_le_interrupts {es : List Event} {s : State}
    (hrun : Machine.run step {} es = some s)
    (hfound : Machine.Along step (fun s e => s.invents e = false) {} es) :
    s.presses ≤ s.interrupts ∧ s.delivered + s.queued ≤ s.interrupts := by
  have hbooks := run_books hrun
  have hcalls := run_calls hrun
  rw [Machine.countRun_eq_zero_iff.mpr hfound] at hbooks
  simp only [accounted, calls] at hbooks hcalls
  constructor
  · omega
  · omega

/-- Two readers, two presses, and the second reader takes the first press. -/
theorem presses_le_interrupts_twoReaders :
    ∃ s, Machine.run step {} [.openDevice, .select .device, .read 1 64, .keyIsr, .test 1, .clear 1,
      .keyIsr, .test 0, .clear 0, .copyToUser 1 false, .copyToUser 0 false] = some s ∧
      s.presses ≤ s.interrupts ∧ s.delivered + s.queued ≤ s.interrupts := by
  have hrun : Machine.run step {} [.openDevice, .select .device, .read 1 64, .keyIsr, .test 1,
      .clear 1, .keyIsr, .test 0, .clear 0, .copyToUser 1 false, .copyToUser 0 false] =
      some _ := rfl
  refine ⟨_, hrun, presses_le_interrupts hrun ?_⟩
  refine Machine.countRun_eq_zero_iff.mp ?_
  decide

/-- A signal ends the worker's wait, and it counts as a press. -/
theorem presses_gt_interrupts_signal :
    ∃ s, Machine.run step {} [.select .device, .signal 0, .clear 0, .copyToUser 0 false] = some s ∧
      s.interrupts = 0 ∧ s.presses = 1 := ⟨_, rfl, rfl, rfl⟩

/-- One press wakes two readers, and both return it. -/
example : ∃ s, Machine.run step {} [.openDevice, .select .device, .read 1 64, .keyIsr, .test 0,
    .test 1, .clear 0, .clear 1, .copyToUser 0 false, .copyToUser 1 false] = some s ∧
    s.interrupts = 1 ∧ s.presses = 2 := ⟨_, rfl, rfl, rfl⟩

/-- **Every press once.** For a lone reader that no signal interrupts, whenever no read is in
    progress every key interrupt is accounted for and is told to the game once, exactly when
    no interrupt has found an earlier press still pending. -/
theorem pressesOnce_iff {es : List Event} (hsolo : ∀ e ∈ es, Solo e) {s : State}
    (hrun : Machine.run step {} es = some s) (hidle : s.processes[0]? = some .user) :
    (s.interrupts = s.presses + s.pending ∧ s.interrupts = s.calls + s.pending) ↔
      Machine.Along step (fun s e => s.loses e = false) {} es := by
  obtain ⟨hinv, hcalls, hbooks⟩ := run_books_solo hsolo hrun
  obtain ⟨-, halone, -⟩ := hinv.stands hidle
  have hinFlight : s.inFlight = 0 := by
    rw [inFlight, halone]
    rfl
  rw [← Machine.countRun_eq_zero_iff]
  simp only [accounted, hinFlight] at hbooks
  constructor
  · intro hall
    omega
  · intro hnone
    constructor
    · omega
    · omega

/-- A press before the wait and a press between the clear and the return are both told. -/
theorem pressesOnce_iff_twoPresses :
    ∃ s, Machine.run step {} [.keyIsr, .select .device, .test 0, .clear 0, .keyIsr,
      .copyToUser 0 false, .afterRead, .onButtonPressed] = some s ∧
      s.interrupts = s.presses + s.pending ∧ s.interrupts = s.calls + s.pending := by
  have hrun : Machine.run step {} [.keyIsr, .select .device, .test 0, .clear 0, .keyIsr,
      .copyToUser 0 false, .afterRead, .onButtonPressed] = some _ := rfl
  refine ⟨_, hrun, (pressesOnce_iff ?_ hrun rfl).mpr ?_⟩
  · simp [Solo]
  · refine Machine.countRun_eq_zero_iff.mp ?_
    decide

/-- Two presses in a row are one: the second finds the flag set. -/
theorem not_pressesOnce_inARow :
    ∃ s, Machine.run step {} [.keyIsr, .keyIsr, .select .device, .test 0, .clear 0,
      .copyToUser 0 false, .afterRead, .onButtonPressed] = some s ∧
      s.processes[0]? = some .user ∧ s.interrupts = 2 ∧ s.presses + s.pending = 1 ∧
      s.delivered = 1 := ⟨_, rfl, rfl, rfl, rfl, rfl⟩

end ButtonDriver

end AlarmClock
