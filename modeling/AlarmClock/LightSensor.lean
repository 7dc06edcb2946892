import AlarmClock.Lib.IndexedUpdate
import AlarmClock.Lib.Machine

/-!
# The light sensor and its users

Every open of the sensor's device switches the sensor on, under a mutex, and every release
switches it off, without the mutex and without looking for other users. The steps of any
number of file handles interleave between the writes to the bus.
-/

namespace AlarmClock.LightSensor

def BH1750_POWER_DOWN : UInt8 := 0x00
def BH1750_POWER_ON : UInt8 := 0x01
def BH1750_CONTINUOUS_HIGH : UInt8 := 0x10

def EIO : Int := 5
def EFAULT : Int := 14

/-- Where a file handle stands. `leaving` is in `bh1750_open` after its last write, with
    whether `ret` is 0; `releasing` is in `bh1750_release` before its write. -/
inductive Phase where
  | locking
  | poweringOn
  | configuring
  | leaving (ok : Bool)
  | opened
  | releasing
  | closed
deriving DecidableEq, Repr

/-- What a read returned, and whether the sensor was on. -/
structure Reading where
  result : Except Int UInt16
  measured : Bool

/-- The handles in the order of their opens, the owner of the mutex, the last byte that the
    sensor received, and the reads so far, the newest first. -/
structure State where
  handles : List Phase := []
  lock : Option Nat := none
  last : Option UInt8 := none
  readings : List Reading := []

/-- A write to the bus may fail, and so may the two bytes from it and the copy to the caller. -/
inductive Event where
  | openDevice
  | mutexLock (h : Nat)
  | powerOn (h : Nat) (ok : Bool)
  | continuousHigh (h : Nat) (ok : Bool)
  | mutexUnlock (h : Nat)
  | read (h : Nat) (raw : Option (UInt8 × UInt8)) (fault : Bool)
  | close (h : Nat)
  | powerDown (h : Nat) (ok : Bool)
deriving DecidableEq, Repr

/-- The conversion of `bh1750_read`, computed in `int` and stored in a short. -/
def lux (raw : UInt8 × UInt8) : UInt16 :=
  UInt16.ofNat ((raw.1.toNat * 256 + raw.2.toNat) * 10 / 12)

/-- The division keeps the value in the short. -/
theorem toNat_lux (raw : UInt8 × UInt8) :
    (lux raw).toNat = (raw.1.toNat * 256 + raw.2.toNat) * 10 / 12 := by
  have h₁ := raw.1.toNat_lt
  have h₂ := raw.2.toNat_lt
  unfold lux
  rw [UInt16.toNat_ofNat_of_lt']
  simp only [UInt16.size]
  omega

def bh1750Read (raw : Option (UInt8 × UInt8)) (fault : Bool) : Except Int UInt16 :=
  match raw with
  | none => .error (- EIO)
  | some raw => if fault then .error (-EFAULT) else .ok (lux raw)

namespace State

def move (s : State) (h : Nat) (phase : Phase) : State :=
  { s with handles := s.handles.set h phase }

/-- A write to the sensor: what it received last stays when the write fails. -/
def write (s : State) (command : UInt8) (ok : Bool) : State :=
  if ok then { s with last := some command } else s

/-- One step. A handle whose open failed is closed without a release. -/
def step (s : State) : Event → Option State
  | .openDevice => some { s with handles := s.handles ++ [.locking] }
  | .mutexLock h =>
    if s.handles[h]? = some .locking ∧ s.lock = none then
      some { s.move h .poweringOn with lock := some h }
    else none
  | .powerOn h ok =>
    if s.handles[h]? = some .poweringOn then
      some ((s.write BH1750_POWER_ON ok).move h (if ok then .configuring else .leaving false))
    else none
  | .continuousHigh h ok =>
    if s.handles[h]? = some .configuring then
      some ((s.write BH1750_CONTINUOUS_HIGH ok).move h (.leaving ok))
    else none
  | .mutexUnlock h =>
    match s.handles[h]? with
    | some (Phase.leaving ok) =>
      some { s.move h (if ok then .opened else .closed) with lock := none }
    | _ => none
  | .read h raw fault =>
    if s.handles[h]? = some .opened then
      some { s with
        readings := ⟨bh1750Read raw fault, s.last != some BH1750_POWER_DOWN⟩ :: s.readings }
    else none
  | .close h => if s.handles[h]? = some .opened then some (s.move h .releasing) else none
  | .powerDown h ok =>
    if s.handles[h]? = some .releasing then
      some ((s.write BH1750_POWER_DOWN ok).move h .closed)
    else none

/-- Every event, with what it finds and what it leaves. -/
inductive StepTo (s : State) : Event → State → Prop where
  | openDevice : StepTo s .openDevice { s with handles := s.handles ++ [.locking] }
  | mutexLock (h : Nat) (hfound : s.handles[h]? = some .locking) (hfree : s.lock = none) :
      StepTo s (.mutexLock h) { s.move h .poweringOn with lock := some h }
  | powerOn (h : Nat) (ok : Bool) (hfound : s.handles[h]? = some .poweringOn) :
      StepTo s (.powerOn h ok)
        ((s.write BH1750_POWER_ON ok).move h (if ok then .configuring else .leaving false))
  | continuousHigh (h : Nat) (ok : Bool) (hfound : s.handles[h]? = some .configuring) :
      StepTo s (.continuousHigh h ok) ((s.write BH1750_CONTINUOUS_HIGH ok).move h (.leaving ok))
  | mutexUnlock (h : Nat) (ok : Bool) (hfound : s.handles[h]? = some (.leaving ok)) :
      StepTo s (.mutexUnlock h) { s.move h (if ok then .opened else .closed) with lock := none }
  | read (h : Nat) (raw : Option (UInt8 × UInt8)) (fault : Bool)
      (hfound : s.handles[h]? = some .opened) :
      StepTo s (.read h raw fault) { s with
        readings := ⟨bh1750Read raw fault, s.last != some BH1750_POWER_DOWN⟩ :: s.readings }
  | close (h : Nat) (hfound : s.handles[h]? = some .opened) :
      StepTo s (.close h) (s.move h .releasing)
  | powerDown (h : Nat) (ok : Bool) (hfound : s.handles[h]? = some .releasing) :
      StepTo s (.powerDown h ok) ((s.write BH1750_POWER_DOWN ok).move h .closed)

theorem step_cases {s s' : State} {e : Event} (hstep : s.step e = some s') : StepTo s e s' := by
  cases e with
  | openDevice =>
    obtain rfl := Option.some.inj hstep
    exact .openDevice
  | mutexLock h =>
    obtain ⟨⟨hfound, hfree⟩, rfl⟩ := Machine.guarded_eq_some hstep
    exact .mutexLock h hfound hfree
  | powerOn h ok =>
    obtain ⟨hfound, rfl⟩ := Machine.guarded_eq_some hstep
    exact .powerOn h ok hfound
  | continuousHigh h ok =>
    obtain ⟨hfound, rfl⟩ := Machine.guarded_eq_some hstep
    exact .continuousHigh h ok hfound
  | mutexUnlock h =>
    simp only [step] at hstep
    split at hstep
    · next ok hfound =>
      obtain rfl := Option.some.inj hstep
      exact .mutexUnlock h ok hfound
    · cases hstep
  | read h raw fault =>
    obtain ⟨hfound, rfl⟩ := Machine.guarded_eq_some hstep
    exact .read h raw fault hfound
  | close h =>
    obtain ⟨hfound, rfl⟩ := Machine.guarded_eq_some hstep
    exact .close h hfound
  | powerDown h ok =>
    obtain ⟨hfound, rfl⟩ := Machine.guarded_eq_some hstep
    exact .powerDown h ok hfound

/-! ### Who uses the sensor -/

/-- Needs the sensor: opened, or about to return from a successful open. -/
def uses : Phase → Bool
  | .leaving ok => ok
  | .opened => true
  | _ => false

def users (s : State) : Nat := s.handles.countP uses

/-- The sensor is on while a handle needs it. -/
def On (s : State) : Prop := 0 < s.users → s.last ≠ some BH1750_POWER_DOWN

/-- Every read so far was made with the sensor on. -/
def Measured (s : State) : Prop := ∀ r ∈ s.readings, r.measured = true

/-- While a handle is opened and not closed, the sensor is not switched off; and no read was
    made with the sensor off. -/
def Serves (s : State) : Prop :=
  (.opened ∈ s.handles → s.last ≠ some BH1750_POWER_DOWN) ∧ s.Measured

/-- A release switches the sensor off only when no handle needs it. -/
def LastUser (s : State) : Event → Prop
  | .powerDown _ ok => ok = true → s.users = 0
  | _ => True

instance (s : State) (e : Event) : Decidable (s.LastUser e) :=
  match e with
  | .powerDown _ ok => inferInstanceAs (Decidable (ok = true → s.users = 0))
  | .openDevice | .mutexLock _ | .powerOn _ _ | .continuousHigh _ _ | .mutexUnlock _
  | .read _ _ _ | .close _ => .isTrue trivial

theorem users_move {s : State} {h : Nat} {phase phase' : Phase}
    (hfound : s.handles[h]? = some phase) (huses : uses phase' = true → uses phase = true) :
    (s.move h phase').users ≤ s.users := by
  have hset := IndexedUpdate.countP_set uses hfound phase'
  simp only [users, move]
  cases hphase' : uses phase' with
  | false =>
    simp only [hphase', Bool.false_eq_true, if_false] at hset
    omega
  | true =>
    simp only [hphase', huses hphase', if_true] at hset
    omega

theorem users_move_of_not {s : State} {h : Nat} {phase phase' : Phase}
    (hfound : s.handles[h]? = some phase) (hphase : uses phase = false)
    (hphase' : uses phase' = false) : (s.move h phase').users = s.users := by
  have hset := IndexedUpdate.countP_set uses hfound phase'
  simpa [users, move, hphase, hphase'] using hset

@[simp] theorem write_handles (s : State) (command : UInt8) (ok : Bool) :
    (s.write command ok).handles = s.handles := by
  cases ok <;> rfl

@[simp] theorem write_readings (s : State) (command : UInt8) (ok : Bool) :
    (s.write command ok).readings = s.readings := by
  cases ok <;> rfl

/-- A step that leaves fewer users and the sensor as it is. -/
theorem On.of_le {s s' : State} (hon : s.On) (hlast : s'.last = s.last)
    (husers : s'.users ≤ s.users) : s'.On := by
  intro hpos
  rw [hlast]
  exact hon (Nat.lt_of_lt_of_le hpos husers)

/-- A command other than the one that switches off. -/
theorem On.of_last {s : State} {command : UInt8} (hlast : s.last = some command)
    (hcommand : command ≠ BH1750_POWER_DOWN) : s.On := by
  intro _ hdown
  exact hcommand (Option.some.inj (hlast.symm.trans hdown))

theorem opened_mem_users {s : State} (h : .opened ∈ s.handles) : 0 < s.users :=
  List.countP_pos_iff.mpr ⟨.opened, h, rfl⟩

/-- **One step.** The sensor stays on for its users exactly when a release that switches it off
    is the last user's. -/
theorem on_step {s s' : State} {e : Event} (hon : s.On) (hstep : s.step e = some s') :
    s'.On ↔ s.LastUser e := by
  cases step_cases hstep with
  | openDevice =>
    refine iff_of_true (hon.of_le rfl (Nat.le_of_eq ?_)) trivial
    simp [users, uses]
  | mutexLock h hfound hfree =>
    exact iff_of_true (hon.of_le rfl (users_move hfound nofun)) trivial
  | powerOn h ok hfound =>
    refine iff_of_true ?_ trivial
    cases ok with
    | false => exact hon.of_le rfl (users_move hfound nofun)
    | true => exact On.of_last (Eq.refl (some BH1750_POWER_ON)) (by decide)
  | continuousHigh h ok hfound =>
    refine iff_of_true ?_ trivial
    cases ok with
    | false => exact hon.of_le rfl (users_move hfound nofun)
    | true => exact On.of_last (Eq.refl (some BH1750_CONTINUOUS_HIGH)) (by decide)
  | mutexUnlock h ok hfound =>
    refine iff_of_true (hon.of_le rfl (users_move hfound ?_)) trivial
    cases ok with
    | false => exact nofun
    | true => exact fun _ => rfl
  | read h raw fault hfound => exact iff_of_true (hon.of_le rfl (Nat.le_refl _)) trivial
  | close h hfound => exact iff_of_true (hon.of_le rfl (users_move hfound nofun)) trivial
  | powerDown h ok hfound =>
    cases ok with
    | false => exact iff_of_true (hon.of_le rfl (users_move hfound nofun)) nofun
    | true =>
      have husers : (s.move h .closed).users = s.users := users_move_of_not hfound rfl rfl
      constructor
      · intro hon' _
        by_contra hne
        have hpos : 0 < (s.move h .closed).users := by
          rw [husers]
          exact Nat.pos_of_ne_zero hne
        exact hon' hpos rfl
      · intro hlast hpos
        have hzero : (s.move h .closed).users = 0 := husers.trans (hlast rfl)
        exact absurd hpos (Nat.not_lt.mpr (Nat.le_of_eq hzero))

/-- A read through an opened handle finds the sensor on. -/
theorem measured_step {s s' : State} {e : Event} (hon : s.On) (hs : s.Measured)
    (hstep : s.step e = some s') : s'.Measured := by
  cases step_cases hstep with
  | read h raw fault hfound =>
    have hlast : s.last ≠ some BH1750_POWER_DOWN :=
      hon (opened_mem_users (List.mem_of_getElem? hfound))
    intro r hr
    rcases List.mem_cons.mp hr with rfl | hr
    · exact bne_iff_ne.mpr hlast
    · exact hs r hr
  | openDevice | mutexLock | mutexUnlock | close => exact hs
  | powerOn h ok hfound | continuousHigh h ok hfound | powerDown h ok hfound =>
    intro r hr
    simp only [move, write_readings] at hr
    exact hs r hr

/-! ### The mutex -/

/-- Between `mutex_lock` and `mutex_unlock`. -/
def inside : Phase → Bool
  | .poweringOn => true
  | .configuring => true
  | .leaving _ => true
  | _ => false

/-- Who is inside owns the mutex. -/
def MutexInv (s : State) : Prop :=
  ∀ h phase, s.handles[h]? = some phase → inside phase = true → s.lock = some h

theorem getElem?_move {s : State} {h k : Nat} {phase phase' : Phase}
    (hk : (s.move h phase').handles[k]? = some phase) :
    k = h ∧ phase = phase' ∨ k ≠ h ∧ s.handles[k]? = some phase := by
  by_cases hkh : k = h
  · subst hkh
    obtain ⟨hlt, -⟩ := List.getElem?_eq_some_iff.mp hk
    rw [move, List.length_set] at hlt
    rw [move, List.getElem?_set_self hlt] at hk
    exact .inl ⟨rfl, (Option.some.inj hk).symm⟩
  · refine .inr ⟨hkh, ?_⟩
    rwa [move, List.getElem?_set_ne (Ne.symm hkh)] at hk

/-- A step of a handle that stays inside, or stays outside. -/
theorem MutexInv.move {s : State} (hi : s.MutexInv) {h : Nat} {phase phase' : Phase}
    (hfound : s.handles[h]? = some phase) (hinside : inside phase' = true → inside phase = true) :
    (s.move h phase').MutexInv := by
  intro k ph hk hph
  rcases getElem?_move hk with ⟨rfl, rfl⟩ | ⟨-, hk⟩
  · exact hi k phase hfound (hinside hph)
  · exact hi k ph hk hph

theorem MutexInv.write {s : State} (hi : s.MutexInv) (command : UInt8) (ok : Bool) :
    (s.write command ok).MutexInv := by
  cases ok <;> exact hi

theorem mutexInv_step {s s' : State} {e : Event} (hi : s.MutexInv)
    (hstep : s.step e = some s') : s'.MutexInv := by
  cases step_cases hstep with
  | openDevice =>
    intro k phase hk hphase
    rcases Nat.lt_or_ge k s.handles.length with hlt | hge
    · rw [List.getElem?_append_left hlt] at hk
      exact hi k phase hk hphase
    · rw [List.getElem?_append_right hge] at hk
      obtain rfl := List.mem_singleton.mp (List.mem_of_getElem? hk)
      cases hphase
  | mutexLock h hfound hfree =>
    intro k phase hk hphase
    rcases getElem?_move hk with ⟨rfl, -⟩ | ⟨-, hk⟩
    · rfl
    · have howner := hi k phase hk hphase
      rw [hfree] at howner
      cases howner
  | powerOn h ok hfound =>
    exact (hi.write BH1750_POWER_ON ok).move (by simpa using hfound) fun _ => rfl
  | continuousHigh h ok hfound =>
    exact (hi.write BH1750_CONTINUOUS_HIGH ok).move (by simpa using hfound) fun _ => rfl
  | mutexUnlock h ok hfound =>
    intro k phase hk hphase
    rcases getElem?_move hk with ⟨-, rfl⟩ | ⟨hkh, hk⟩
    · cases ok <;> cases hphase
    · -- another handle inside would own the mutex that this one gives back
      have hown := hi h (.leaving ok) hfound rfl
      have howner := hi k phase hk hphase
      exact absurd (Option.some.inj (howner.symm.trans hown)) hkh
  | read h raw fault hfound => exact hi
  | close h hfound => exact hi.move hfound nofun
  | powerDown h ok hfound =>
    have hfound' : (s.write BH1750_POWER_DOWN ok).handles[h]? = some .releasing := by
      simpa using hfound
    exact (hi.write BH1750_POWER_DOWN ok).move hfound' nofun

/-- An open has switched the sensor on and is yet to return, and the sensor is off again. -/
def Cut (s : State) : Prop :=
  .leaving true ∈ s.handles ∧ s.last = some BH1750_POWER_DOWN

theorem mem_move {s : State} {h : Nat} {phase phase' ph : Phase} (hph : ph ∈ s.handles)
    (hfound : s.handles[h]? = some phase) (hne : ph ≠ phase) : ph ∈ (s.move h phase').handles := by
  obtain ⟨k, hk⟩ := List.mem_iff_getElem?.mp hph
  have hkh : h ≠ k := by
    rintro rfl
    exact hne (Option.some.inj (hk.symm.trans hfound))
  refine List.mem_iff_getElem?.mpr ⟨k, ?_⟩
  rw [move, List.getElem?_set_ne hkh]
  exact hk

/-- While an open holds the mutex, no other is inside. -/
theorem MutexInv.eq_leaving {s : State} (hi : s.MutexInv) (h : .leaving true ∈ s.handles) {k : Nat}
    {phase : Phase} (hk : s.handles[k]? = some phase) (hphase : inside phase = true) :
    phase = .leaving true := by
  obtain ⟨j, hj⟩ := List.mem_iff_getElem?.mp h
  have hown := hi j (.leaving true) hj rfl
  have hown' := hi k phase hk hphase
  obtain rfl : j = k := Option.some.inj (hown.symm.trans hown')
  exact Option.some.inj (hk.symm.trans hj)

/-- An open that has been cut off stays so until it returns: the mutex keeps the other opens
    from switching the sensor on. -/
theorem cut_step {s s' : State} {e : Event} (hi : s.MutexInv) (hcut : s.Cut)
    (hstep : s.step e = some s') :
    s'.Cut ∨ ∃ h, e = .mutexUnlock h ∧ s.handles[h]? = some (.leaving true) ∧
      s.last = some BH1750_POWER_DOWN := by
  obtain ⟨hleaving, hlast⟩ := hcut
  cases step_cases hstep with
  | openDevice => exact .inl ⟨List.mem_append_left _ hleaving, hlast⟩
  | mutexLock h hfound hfree => exact .inl ⟨mem_move hleaving hfound nofun, hlast⟩
  | powerOn h ok hfound => cases hi.eq_leaving hleaving hfound rfl
  | continuousHigh h ok hfound => cases hi.eq_leaving hleaving hfound rfl
  | mutexUnlock h ok hfound =>
    have hok := hi.eq_leaving hleaving hfound rfl
    exact .inr ⟨h, rfl, hok ▸ hfound, hlast⟩
  | read h raw fault hfound => exact .inl ⟨hleaving, hlast⟩
  | close h hfound => exact .inl ⟨mem_move hleaving hfound nofun, hlast⟩
  | powerDown h ok hfound =>
    have hmoved : .leaving true ∈ (s.move h .closed).handles := mem_move hleaving hfound nofun
    cases ok with
    | false => exact .inl ⟨hmoved, hlast⟩
    | true => exact .inl ⟨hmoved, rfl⟩

theorem cutInv_step (s : State) (e : Event) (s' : State) (_ : True) (hs : s.MutexInv ∧ s.Cut)
    (hstep : s.step e = some s') :
    (s'.MutexInv ∧ s'.Cut) ∨ ∃ h, e = .mutexUnlock h ∧
      s.handles[h]? = some (.leaving true) ∧ s.last = some BH1750_POWER_DOWN := by
  rcases cut_step hs.1 hs.2 hstep with hcut | hreturn
  · exact .inl ⟨mutexInv_step hs.1 hstep, hcut⟩
  · exact .inr hreturn

/-- The return of an open that has been cut off. -/
theorem not_serves_return {s s' : State} {h : Nat} (hfound : s.handles[h]? = some (.leaving true))
    (hlast : s.last = some BH1750_POWER_DOWN) (hstep : s.step (.mutexUnlock h) = some s') :
    ¬ s'.Serves := by
  obtain rfl : { s.move h .opened with lock := none } = s' := by
    simpa [step, hfound] using hstep
  rintro ⟨hon, -⟩
  obtain ⟨hlt, -⟩ := List.getElem?_eq_some_iff.mp hfound
  exact hon (List.mem_of_getElem? (List.getElem?_set_self hlt)) hlast

theorem not_on {s : State} (h : ¬ s.On) (hserves : s.Serves) : s.Cut := by
  simp only [On, not_forall, not_not] at h
  obtain ⟨hpos, hlast⟩ := h
  obtain ⟨phase, hphase, huses⟩ := List.countP_pos_iff.mp hpos
  cases phase with
  | leaving ok =>
    obtain rfl : ok = true := huses
    exact ⟨hphase, hlast⟩
  | opened => exact absurd hlast (hserves.1 hphase)
  | locking | poweringOn | configuring | releasing | closed => cases huses

theorem on_init : ({} : State).On := nofun

theorem mutexInv_init : ({} : State).MutexInv := nofun

end State

open State

theorem mutexInv_run {es : List Event} {s : State} (h : Machine.run step {} es = some s) :
    s.MutexInv :=
  Machine.run_invariant (fun _ _ _ hi hstep => mutexInv_step hi hstep) mutexInv_init h

/-- The sensor serves its users in every state of a run whose releases are the last user's. -/
theorem throughout_on_iff {es : List Event} {s : State} (hrun : Machine.run step {} es = some s) :
    Machine.Throughout step (fun u => u.On ∧ u.Measured) {} es ↔
      Machine.Along step LastUser {} es := by
  refine Machine.throughout_iff_along (I := fun _ => True) (fun _ _ _ _ _ => trivial) ?_ trivial
    ⟨on_init, nofun⟩ hrun
  rintro s e s' - ⟨hon, hmeasured⟩ hstep
  constructor
  · rintro ⟨hon', -⟩
    exact (on_step hon hstep).mp hon'
  · intro hlast
    exact ⟨(on_step hon hstep).mpr hlast, measured_step hon hmeasured hstep⟩

/-- **The sensor and its users.** In every run whose releases switch the sensor off only after
    the last user, it is on while a handle is opened and every read measures. A run that ends
    with no open in progress behind its writes keeps it so only if its releases are such. -/
theorem sensor_serves {es : List Event} {s : State} (hrun : Machine.run step {} es = some s) :
    (Machine.Along step LastUser {} es → Machine.Throughout step Serves {} es) ∧
      (.leaving true ∉ s.handles → Machine.Throughout step Serves {} es →
        Machine.Along step LastUser {} es) := by
  rw [← throughout_on_iff hrun]
  constructor
  · intro h pre u hpre hu
    obtain ⟨hon, hmeasured⟩ := h pre u hpre hu
    exact ⟨fun hopened => hon (opened_mem_users hopened), hmeasured⟩
  · intro hreturned h pre u hpre hu
    refine ⟨?_, (h pre u hpre hu).2⟩
    by_contra hon
    obtain ⟨post, rfl⟩ := hpre
    obtain ⟨u', hu', hpost⟩ := Machine.run_append_eq_some.mp hrun
    obtain rfl : u = u' := Option.some.inj (hu.symm.trans hu')
    have hcut := not_on hon (h pre u (List.prefix_append pre post) hu)
    have huntil := Machine.run_until (I := fun s => s.MutexInv ∧ s.Cut)
      (T := fun s e => ∃ h, e = Event.mutexUnlock h ∧ s.handles[h]? = some (.leaving true) ∧
        s.last = some BH1750_POWER_DOWN)
      (Q := fun _ => True) cutInv_step (fun _ _ => trivial) ⟨mutexInv_run hu, hcut⟩ hpost
    rcases huntil with ⟨-, hleaving, -⟩ | ⟨mid, e, rest, v, rfl, hv, -, k, rfl, hfound, hlast⟩
    · exact hreturned hleaving
    · -- the run goes on to the return of the open that has been cut off
      obtain ⟨v', hv', hrest⟩ := Machine.run_append_eq_some.mp hpost
      obtain rfl : v = v' := Option.some.inj (hv.symm.trans hv')
      obtain ⟨w, hw, -⟩ := Machine.run_cons_eq_some.mp hrest
      have hreach : Machine.run step {} (pre ++ (mid ++ [.mutexUnlock k])) = some w := by
        refine Machine.run_append_eq_some.mpr ⟨u, hu, Machine.run_append_eq_some.mpr ⟨v, hv, ?_⟩⟩
        exact (Machine.run_singleton v _).trans hw
      have hprefix : pre ++ (mid ++ [.mutexUnlock k]) <+: pre ++ (mid ++ .mutexUnlock k :: rest) :=
        ⟨rest, by simp⟩
      exact not_serves_return hfound hlast hw (h _ w hprefix hreach)

/-- The events of one open whose writes succeed. -/
def opening (h : Nat) : List Event :=
  [.openDevice, .mutexLock h, .powerOn h true, .continuousHigh h true, .mutexUnlock h]

/-- Two users one after the other. -/
theorem sensor_serves_oneByOne :
    Machine.Throughout step Serves {} (opening 0 ++ [.read 0 (some (0x01, 0x90)) false, .close 0,
      .powerDown 0 true] ++ opening 1 ++ [.close 1, .powerDown 1 true]) := by
  have hrun : Machine.run step {} (opening 0 ++ [.read 0 (some (0x01, 0x90)) false, .close 0,
      .powerDown 0 true] ++ opening 1 ++ [.close 1, .powerDown 1 true]) = some _ := rfl
  refine (sensor_serves hrun).1 ?_
  decide

/-- Two users at once: the first to leave switches the sensor off for the other. -/
theorem not_sensor_serves_twoUsers :
    ∃ s, Machine.run step {} (opening 0 ++ opening 1 ++ [.close 1, .powerDown 1 true]) = some s ∧
      s.handles = [.opened, .closed] ∧ s.last = some BH1750_POWER_DOWN ∧ ¬ s.Serves := by
  refine ⟨_, rfl, rfl, rfl, ?_⟩
  rintro ⟨hon, -⟩
  exact hon (by decide) rfl

end AlarmClock.LightSensor
