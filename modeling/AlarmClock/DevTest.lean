import AlarmClock.Lib.Ledger
import AlarmClock.Lib.Machine

/-!
# Loading the driver of the button and the lights

`device_init` makes the device known before it maps the registers and asks for the
interrupt, and undoes what it has done when a step fails. Others may open the device in
between and call it, and files that are open when `device_init` fails outlive the code.
Once it is loaded, `rmmod` is refused as long as a file is open.
-/

namespace AlarmClock.DevTest

/-! ### The registers -/

/-- The word that selects what the pins 0 to 9 are used for, and the output latch. -/
structure Gpio where
  GPFSEL0 : BitVec 32 := 0
  outputs : BitVec 32 := 0
deriving DecidableEq, Repr

namespace Gpio

/-- A write to `GPSET0`. -/
def set (bits : BitVec 32) (g : Gpio) : Gpio := { g with outputs := g.outputs ||| bits }

/-- A write to `GPCLR0`. -/
def clear (bits : BitVec 32) (g : Gpio) : Gpio := { g with outputs := g.outputs &&& ~~~bits }

def ledInit (g : Gpio) : Gpio :=
  set (0x3#32 <<< 5)
    { g with GPFSEL0 := (g.GPFSEL0 &&& ~~~(0x3f#32 <<< 15)) ||| (0x9#32 <<< 15) }

def ledOn (g : Gpio) : Gpio := g.clear (0x3#32 <<< 5)

def ledOff (g : Gpio) : Gpio := g.set (0x3#32 <<< 5)

/-- What a pin is used for. -/
def function (g : Gpio) (pin : Nat) : BitVec 3 := g.GPFSEL0.extractLsb' (3 * pin) 3

/-- The level of a pin that is an output. -/
def level (g : Gpio) (pin : Nat) : Bool := g.outputs.getLsbD pin

/-- The pins of the two lights, which shine when they are low. -/
def isLight (pin : Nat) : Bool := pin == 5 || pin == 6

theorem getLsbD_lights (pin : Nat) : (0x3#32 <<< 5).getLsbD pin = isLight pin := by
  by_cases hpin : pin < 32
  · exact (by decide : ∀ pin < 32, (0x3#32 <<< 5).getLsbD pin = isLight pin) pin hpin
  · rw [BitVec.getLsbD_of_ge _ _ (Nat.le_of_not_lt hpin)]
    simp only [isLight]
    grind

theorem level_set (bits : BitVec 32) (g : Gpio) (pin : Nat) :
    (g.set bits).level pin = (g.level pin || bits.getLsbD pin) :=
  BitVec.getLsbD_or

theorem level_clear (bits : BitVec 32) (g : Gpio) (pin : Nat) :
    (g.clear bits).level pin = (g.level pin && !bits.getLsbD pin) := by
  simp only [level, clear, BitVec.getLsbD_and, BitVec.getLsbD_not]
  by_cases hpin : pin < 32
  · simp [hpin]
  · simp [BitVec.getLsbD_of_ge _ _ (Nat.le_of_not_lt hpin)]

theorem level_ledOn (g : Gpio) (pin : Nat) :
    g.ledOn.level pin = (g.level pin && !isLight pin) := by
  rw [ledOn, level_clear, getLsbD_lights]

theorem level_ledOff (g : Gpio) (pin : Nat) :
    g.ledOff.level pin = (g.level pin || isLight pin) := by
  rw [ledOff, level_set, getLsbD_lights]

theorem level_ledInit (g : Gpio) (pin : Nat) :
    g.ledInit.level pin = (g.level pin || isLight pin) := by
  rw [ledInit, level_set, getLsbD_lights]
  rfl

theorem getLsbD_ledInit (g : Gpio) {i : Nat} (hi : i < 32) :
    g.ledInit.GPFSEL0.getLsbD i =
      if 15 ≤ i ∧ i < 21 then i == 15 || i == 18 else g.GPFSEL0.getLsbD i := by
  have hmask : (0x3f#32 <<< 15).getLsbD i = decide (15 ≤ i ∧ i < 21) :=
    (by decide : ∀ i < 32, (0x3f#32 <<< 15).getLsbD i = decide (15 ≤ i ∧ i < 21)) i hi
  have hones : (0x9#32 <<< 15).getLsbD i = (i == 15 || i == 18) :=
    (by decide : ∀ i < 32, (0x9#32 <<< 15).getLsbD i = (i == 15 || i == 18)) i hi
  have hword : g.ledInit.GPFSEL0.getLsbD i =
      ((g.GPFSEL0.getLsbD i && !decide (15 ≤ i ∧ i < 21)) || (i == 15 || i == 18)) := by
    simp only [ledInit, set, BitVec.getLsbD_or, BitVec.getLsbD_and, BitVec.getLsbD_not, hi,
      decide_true, Bool.true_and, hmask, hones]
  rw [hword]
  split_ifs with h
  · simp [h]
  · have hout : (i == 15 || i == 18) = false := by grind
    simp [h, hout]

/-- The lights become outputs, and the other pins stay what they are. -/
theorem function_ledInit (g : Gpio) {pin : Nat} (hpin : pin < 10) :
    g.ledInit.function pin = if isLight pin then 1 else g.function pin := by
  apply BitVec.eq_of_getLsbD_eq
  intro i hi
  have hbit : ∀ g : Gpio, (g.function pin).getLsbD i = g.GPFSEL0.getLsbD (3 * pin + i) := by
    intro g
    simp [function, hi]
  rw [hbit, getLsbD_ledInit g (by omega)]
  cases hlight : isLight pin with
  | true =>
    have hfirst : pin = 5 ∨ pin = 6 := by simpa [isLight] using hlight
    have hfield : 15 ≤ 3 * pin + i ∧ 3 * pin + i < 21 := by omega
    rw [if_pos hfield, if_pos rfl]
    have hone : (1#3).getLsbD i = decide (i = 0) :=
      (by decide : ∀ i < 3, (1#3).getLsbD i = decide (i = 0)) i hi
    refine Eq.trans ?_ hone.symm
    grind
  | false =>
    have hother : ¬ (15 ≤ 3 * pin + i ∧ 3 * pin + i < 21) := by
      have hpins : pin ≠ 5 ∧ pin ≠ 6 := by simpa [isLight] using hlight
      omega
    rw [if_neg hother, if_neg Bool.false_ne_true, hbit]

end Gpio

/-! ### Commands -/

/-- `_IOC`. -/
def ioc (dir type nr size : UInt32) : UInt32 :=
  (dir <<< 30) ||| (size <<< 16) ||| (type <<< 8) ||| nr

/-- 'k' -/
def MY_IOCTL_MAGIC : UInt32 := 0x6b

def MY_IOCTL_CMD_ONE : UInt32 := ioc 0 MY_IOCTL_MAGIC 1 0
def MY_IOCTL_CMD_TWO : UInt32 := ioc 1 MY_IOCTL_MAGIC 2 4
def MY_IOCTL_CMD_LED_ON : UInt32 := ioc 0 MY_IOCTL_MAGIC 4 0
def MY_IOCTL_CMD_LED_OFF : UInt32 := ioc 0 MY_IOCTL_MAGIC 5 0
def MY_IOCTL_CMD_IRQ_EN : UInt32 := ioc 0 MY_IOCTL_MAGIC 6 0
def MY_IOCTL_CMD_IRQ_DIS : UInt32 := ioc 0 MY_IOCTL_MAGIC 7 0

def EFAULT : Int := 14
def EINVAL : Int := 22

/-! ### The module -/

/-- Where the module stands: `device_init` goes down to `loaded`, and up again from where it
    fails. `device_exit` starts at `leaving` and goes up, which is then `going`. -/
inductive Phase where
  | unloaded
  /-- past `register_chrdev_region` -/
  | registered
  /-- past `cdev_add` -/
  | added
  /-- past `ioremap` -/
  | mapped
  /-- past `led_init` -/
  | lit
  /-- past `request_irq` -/
  | requested
  | loaded
  | leaving
  /-- before `iounmap` -/
  | unmapping (going : Bool)
  /-- before `cdev_del` -/
  | deleting (going : Bool)
  /-- before `unregister_chrdev_region` -/
  | unregistering (going : Bool)
deriving DecidableEq, Repr

inductive Resource where
  | region
  | cdev
  | mapping
  | irq
deriving DecidableEq, Repr

namespace Phase

def holds : Phase → List Resource
  | unloaded => []
  | registered | unregistering _ => [.region]
  | added | deleting _ => [.cdev, .region]
  | mapped | lit | unmapping _ => [.mapping, .cdev, .region]
  | requested | loaded | leaving => [.irq, .mapping, .cdev, .region]

/-- The device is known, and the module is not on its way out. -/
def opens : Phase → Bool
  | added | mapped | lit | requested | loaded | unmapping false | deleting false => true
  | _ => false

end Phase

/-- Where a call of `device_ioctl` for the line of the key stands. It has tested `irq_enabled`,
    and goes on to `enable_irq`, to `irq_enabled = 1`, to `disable_irq` or to
    `irq_enabled = 0`; nothing keeps another call from coming in between. -/
inductive Call where
  | enable
  | enabled
  | disable
  | disabled
deriving DecidableEq, Repr

/-- The depth of the line where a call stands that came alone. -/
def Call.depth : Call → Nat
  | .enable | .disabled => 1
  | .enabled | .disable => 0

/-- `depth` says how often the line of the key was disabled, while the module has it, and
    `calls` are the calls for it that are in progress. `files` are open, and `stale` those
    whose module is gone. `faults` are the accesses to registers that are not mapped and the
    calls of code that is gone, and `strays` the commands for a line that the module does not
    have or that was enabled before. -/
structure State where
  phase : Phase := .unloaded
  gpio : Gpio := {}
  irqEnabled : Bool := false
  depth : Nat := 0
  calls : List Call := []
  files : Nat := 0
  stale : Nat := 0
  faults : Nat := 0
  strays : Nat := 0
  ledger : List (Ledger.Entry Resource) := []
deriving DecidableEq, Repr

inductive Event where
  | registerChrdevRegion (ok : Bool)
  | cdevAdd (ok : Bool)
  | ioremap (ok : Bool)
  | ledInit
  | requestIrq (ok : Bool)
  | initDone
  | rmmod
  | freeIrq
  | iounmap
  | cdevDel
  | unregister
  | openDevice
  | release
  | ioctl (cmd : UInt32) (fault : Bool)
  | proceed (c : Call)
  | staleCall
deriving DecidableEq, Repr

namespace State

def move (phase : Phase) (s : State) : State := { s with phase := phase }

def acquire (a : Resource) (phase : Phase) (s : State) : State :=
  { s with phase := phase, ledger := s.ledger ++ [.acquired a] }

def release (a : Resource) (phase : Phase) (s : State) : State :=
  { s with phase := phase, ledger := s.ledger ++ [.released a] }

/-- Registers are written through the mapping. -/
def access (write : Gpio → Gpio) (s : State) : State :=
  if .mapping ∈ s.phase.holds then { s with gpio := write s.gpio }
  else { s with faults := s.faults + 1 }

/-- `enable_irq`: a line that is enabled stays so. -/
def enableIrq (s : State) : State :=
  if .irq ∈ s.phase.holds ∧ 0 < s.depth then { s with depth := s.depth - 1 }
  else { s with strays := s.strays + 1 }

def disableIrq (s : State) : State :=
  if .irq ∈ s.phase.holds then { s with depth := s.depth + 1 }
  else { s with strays := s.strays + 1 }

/-- A call for the line goes on. -/
def proceed (s : State) : Call → State
  | .enable => { s.enableIrq with calls := .enabled :: s.calls.erase .enable }
  | .enabled => { s with irqEnabled := true, calls := s.calls.erase .enabled }
  | .disable => { s.disableIrq with calls := .disabled :: s.calls.erase .disable }
  | .disabled => { s with irqEnabled := false, calls := s.calls.erase .disabled }

/-- A call up to its test of `irq_enabled`, if it makes one. `fault`: the argument cannot be
    read. -/
def deviceIoctl (cmd : UInt32) (fault : Bool) (s : State) : State × Int :=
  if cmd = MY_IOCTL_CMD_ONE then (s, 0)
  else if cmd = MY_IOCTL_CMD_TWO then (s, if fault then -EFAULT else 2)
  else if cmd = MY_IOCTL_CMD_LED_ON then (s.access Gpio.ledOn, 0)
  else if cmd = MY_IOCTL_CMD_LED_OFF then (s.access Gpio.ledOff, 0)
  else if cmd = MY_IOCTL_CMD_IRQ_EN then
    (if s.irqEnabled then s else { s with calls := .enable :: s.calls }, 0)
  else if cmd = MY_IOCTL_CMD_IRQ_DIS then
    (if s.irqEnabled then { s with calls := .disable :: s.calls } else s, 0)
  else (s, -EINVAL)

/-- One step of `device_init`, `device_exit` or somebody who has the device open. `cdev_alloc`
    is taken to return an object: the source uses it unchecked, and does not free it when
    `cdev_add` fails. A file is not closed under a call. -/
def step (s : State) : Event → Option State
  | .registerChrdevRegion ok =>
    if s.phase = .unloaded then
      some (if ok then { s.acquire .region .registered with irqEnabled := false } else s)
    else none
  | .cdevAdd ok =>
    if s.phase = .registered then
      some (s.acquire .cdev (if ok then .added else .unregistering false))
    else none
  | .ioremap ok =>
    if s.phase = .added then
      some (if ok then s.acquire .mapping .mapped else s.move (.deleting false))
    else none
  | .ledInit =>
    if s.phase = .mapped then some { s with phase := .lit, gpio := s.gpio.ledInit } else none
  | .requestIrq ok =>
    if s.phase = .lit then
      some (if ok then { s.acquire .irq .requested with depth := 0 } else s.move (.unmapping false))
    else none
  | .initDone =>
    if s.phase = .requested then some { s with phase := .loaded, irqEnabled := true } else none
  | .rmmod => if s.phase = .loaded ∧ s.files = 0 then some (s.move .leaving) else none
  | .freeIrq =>
    if s.phase = .leaving then some { s.release .irq (.unmapping true) with irqEnabled := false }
    else none
  | .iounmap =>
    match s.phase with
    | .unmapping going => some (s.release .mapping (.deleting going))
    | _ => none
  | .cdevDel =>
    match s.phase with
    | .deleting going => some (s.release .cdev (.unregistering going))
    | _ => none
  | .unregister =>
    match s.phase with
    | .unregistering _ =>
      some { s.release .region .unloaded with files := 0, stale := s.stale + s.files, calls := [] }
    | _ => none
  | .openDevice => if s.phase.opens then some { s with files := s.files + 1 } else none
  | .release =>
    if 0 < s.files ∧ (s.calls = [] ∨ 1 < s.files) then some { s with files := s.files - 1 }
    else none
  | .ioctl cmd fault => if 0 < s.files then some (s.deviceIoctl cmd fault).1 else none
  | .proceed c => if c ∈ s.calls then some (s.proceed c) else none
  | .staleCall => if 0 < s.stale then some { s with faults := s.faults + 1 } else none

/-- What a command can do, apart from its result. -/
inductive IoctlTo (s : State) (cmd : UInt32) : State → Prop where
  | nothing (hother : cmd ≠ MY_IOCTL_CMD_LED_ON ∧ cmd ≠ MY_IOCTL_CMD_LED_OFF) : IoctlTo s cmd s
  | ledOn (hcmd : cmd = MY_IOCTL_CMD_LED_ON) : IoctlTo s cmd (s.access Gpio.ledOn)
  | ledOff (hcmd : cmd = MY_IOCTL_CMD_LED_OFF) : IoctlTo s cmd (s.access Gpio.ledOff)
  | enable (hcmd : cmd = MY_IOCTL_CMD_IRQ_EN) (hnot : s.irqEnabled = false) :
      IoctlTo s cmd { s with calls := .enable :: s.calls }
  | disable (hcmd : cmd = MY_IOCTL_CMD_IRQ_DIS) (henabled : s.irqEnabled = true) :
      IoctlTo s cmd { s with calls := .disable :: s.calls }

theorem deviceIoctl_cases (cmd : UInt32) (fault : Bool) (s : State) :
    IoctlTo s cmd (s.deviceIoctl cmd fault).1 := by
  unfold deviceIoctl
  split_ifs with hone htwo hfault hon hoff hen hnot hdis henabled
  · exact .nothing (hone ▸ by decide)
  · exact .nothing (htwo ▸ by decide)
  · exact .nothing (htwo ▸ by decide)
  · exact .ledOn hon
  · exact .ledOff hoff
  · exact .nothing ⟨hon, hoff⟩
  · exact .enable hen (Bool.eq_false_iff.mpr hnot)
  · exact .disable hdis henabled
  · exact .nothing ⟨hon, hoff⟩
  · exact .nothing ⟨hon, hoff⟩

/-- Every event, with what it finds and what it leaves. -/
inductive StepTo (s : State) : Event → State → Prop where
  | noRegion (hphase : s.phase = .unloaded) : StepTo s (.registerChrdevRegion false) s
  | region (hphase : s.phase = .unloaded) :
      StepTo s (.registerChrdevRegion true)
        { s.acquire .region .registered with irqEnabled := false }
  | notAdded (hphase : s.phase = .registered) :
      StepTo s (.cdevAdd false) (s.acquire .cdev (.unregistering false))
  | added (hphase : s.phase = .registered) : StepTo s (.cdevAdd true) (s.acquire .cdev .added)
  | notMapped (hphase : s.phase = .added) :
      StepTo s (.ioremap false) (s.move (.deleting false))
  | mapped (hphase : s.phase = .added) : StepTo s (.ioremap true) (s.acquire .mapping .mapped)
  | ledInit (hphase : s.phase = .mapped) :
      StepTo s .ledInit { s with phase := .lit, gpio := s.gpio.ledInit }
  | notRequested (hphase : s.phase = .lit) :
      StepTo s (.requestIrq false) (s.move (.unmapping false))
  | requested (hphase : s.phase = .lit) :
      StepTo s (.requestIrq true) { s.acquire .irq .requested with depth := 0 }
  | initDone (hphase : s.phase = .requested) :
      StepTo s .initDone { s with phase := .loaded, irqEnabled := true }
  | rmmod (hphase : s.phase = .loaded) (hfiles : s.files = 0) :
      StepTo s .rmmod (s.move .leaving)
  | freeIrq (hphase : s.phase = .leaving) :
      StepTo s .freeIrq { s.release .irq (.unmapping true) with irqEnabled := false }
  | iounmap (going : Bool) (hphase : s.phase = .unmapping going) :
      StepTo s .iounmap (s.release .mapping (.deleting going))
  | cdevDel (going : Bool) (hphase : s.phase = .deleting going) :
      StepTo s .cdevDel (s.release .cdev (.unregistering going))
  | unregister (going : Bool) (hphase : s.phase = .unregistering going) :
      StepTo s .unregister
        { s.release .region .unloaded with files := 0, stale := s.stale + s.files, calls := [] }
  | openDevice (hopens : s.phase.opens = true) :
      StepTo s .openDevice { s with files := s.files + 1 }
  | release (hfiles : 0 < s.files) (hidle : s.calls = [] ∨ 1 < s.files) :
      StepTo s .release { s with files := s.files - 1 }
  | ioctl (cmd : UInt32) (fault : Bool) (s' : State) (hfiles : 0 < s.files)
      (hioctl : IoctlTo s cmd s') : StepTo s (.ioctl cmd fault) s'
  | proceed (c : Call) (hcall : c ∈ s.calls) : StepTo s (.proceed c) (s.proceed c)
  | staleCall (hstale : 0 < s.stale) : StepTo s .staleCall { s with faults := s.faults + 1 }

theorem step_cases {s s' : State} {e : Event} (h : s.step e = some s') : StepTo s e s' := by
  cases e with
  | registerChrdevRegion ok =>
    obtain ⟨hphase, rfl⟩ := Machine.guarded_eq_some h
    cases ok with
    | false => exact .noRegion hphase
    | true => exact .region hphase
  | cdevAdd ok =>
    obtain ⟨hphase, rfl⟩ := Machine.guarded_eq_some h
    cases ok with
    | false => exact .notAdded hphase
    | true => exact .added hphase
  | ioremap ok =>
    obtain ⟨hphase, rfl⟩ := Machine.guarded_eq_some h
    cases ok with
    | false => exact .notMapped hphase
    | true => exact .mapped hphase
  | ledInit =>
    obtain ⟨hphase, rfl⟩ := Machine.guarded_eq_some h
    exact .ledInit hphase
  | requestIrq ok =>
    obtain ⟨hphase, rfl⟩ := Machine.guarded_eq_some h
    cases ok with
    | false => exact .notRequested hphase
    | true => exact .requested hphase
  | initDone =>
    obtain ⟨hphase, rfl⟩ := Machine.guarded_eq_some h
    exact .initDone hphase
  | rmmod =>
    obtain ⟨⟨hphase, hfiles⟩, rfl⟩ := Machine.guarded_eq_some h
    exact .rmmod hphase hfiles
  | freeIrq =>
    obtain ⟨hphase, rfl⟩ := Machine.guarded_eq_some h
    exact .freeIrq hphase
  | iounmap =>
    simp only [step] at h
    split at h
    · next going hphase =>
      obtain rfl := Option.some.inj h
      exact .iounmap going hphase
    · cases h
  | cdevDel =>
    simp only [step] at h
    split at h
    · next going hphase =>
      obtain rfl := Option.some.inj h
      exact .cdevDel going hphase
    · cases h
  | unregister =>
    simp only [step] at h
    split at h
    · next going hphase =>
      obtain rfl := Option.some.inj h
      exact .unregister going hphase
    · cases h
  | openDevice =>
    obtain ⟨hopens, rfl⟩ := Machine.guarded_eq_some h
    exact .openDevice hopens
  | release =>
    obtain ⟨⟨hfiles, hidle⟩, rfl⟩ := Machine.guarded_eq_some h
    exact .release hfiles hidle
  | ioctl cmd fault =>
    obtain ⟨hfiles, rfl⟩ := Machine.guarded_eq_some h
    exact .ioctl cmd fault _ hfiles (deviceIoctl_cases cmd fault s)
  | proceed c =>
    obtain ⟨hcall, rfl⟩ := Machine.guarded_eq_some h
    exact .proceed c hcall
  | staleCall =>
    obtain ⟨hstale, rfl⟩ := Machine.guarded_eq_some h
    exact .staleCall hstale

/-- The frame of a command. -/
theorem IoctlTo.frame {s s' : State} {cmd : UInt32} (h : IoctlTo s cmd s') :
    ∃ gpio faults calls, s' = { s with gpio, faults, calls } := by
  cases h with
  | nothing | enable | disable => exact ⟨_, _, _, rfl⟩
  | ledOn | ledOff =>
    unfold access
    split_ifs
    · exact ⟨_, _, _, rfl⟩
    · exact ⟨_, _, _, rfl⟩

/-- The frame of a call that goes on. -/
theorem proceed_frame (s : State) (c : Call) :
    ∃ irqEnabled depth strays calls, s.proceed c = { s with irqEnabled, depth, strays, calls } := by
  cases c with
  | enabled | disabled => exact ⟨_, _, _, _, rfl⟩
  | enable =>
    simp only [proceed, enableIrq]
    split_ifs
    · exact ⟨_, _, _, _, rfl⟩
    · exact ⟨_, _, _, _, rfl⟩
  | disable =>
    simp only [proceed, disableIrq]
    split_ifs
    · exact ⟨_, _, _, _, rfl⟩
    · exact ⟨_, _, _, _, rfl⟩

/-! ### What the module holds -/

/-- The objects of `cdev_alloc` that nobody frees. -/
def leaked (es : List Event) : List Resource := List.replicate (es.count (.cdevAdd false)) .cdev

theorem leaked_concat {es : List Event} {e : Event} (he : e ≠ .cdevAdd false) :
    leaked (es ++ [e]) = leaked es := by
  rw [leaked, List.count_append, List.count_singleton, if_neg (by simpa using he)]
  rfl

theorem balanced_step {es : List Event} {s s' : State} {e : Event}
    (h : Ledger.Balanced s.ledger (s.phase.holds ++ leaked es)) (hstep : s.step e = some s') :
    Ledger.Balanced s'.ledger (s'.phase.holds ++ leaked (es ++ [e])) := by
  cases step_cases hstep with
  | notAdded hphase =>
    rw [hphase] at h
    refine h.acquire ?_
    rw [leaked, List.count_append, List.count_singleton_self, List.replicate_succ]
    exact List.perm_middle
  | region hphase | added hphase | mapped hphase | requested hphase =>
    rw [leaked_concat (by simp)]
    rw [hphase] at h
    exact h.acquire (.refl _)
  | freeIrq hphase | iounmap going hphase | cdevDel going hphase | unregister going hphase =>
    rw [leaked_concat (by simp)]
    rw [hphase] at h
    exact h.release (.refl _)
  | noRegion | openDevice | release | staleCall =>
    rw [leaked_concat (by simp)]
    exact h
  | ioctl cmd fault _ hfiles hioctl =>
    rw [leaked_concat (by simp)]
    obtain ⟨gpio, faults, calls, rfl⟩ := hioctl.frame
    exact h
  | proceed c hcall =>
    rw [leaked_concat (by simp)]
    obtain ⟨irqEnabled, depth, strays, calls, hframe⟩ := proceed_frame s c
    rw [hframe]
    exact h
  | notMapped hphase | ledInit hphase | notRequested hphase | initDone hphase | rmmod hphase =>
    rw [leaked_concat (by simp)]
    rw [hphase] at h
    exact h

/-- **Nothing is lost but what `cdev_alloc` returned.** Wherever `device_init` fails and
    whoever calls in between, the module holds what its phase says and one object for each
    `cdev_add` that failed: it gives everything back once it is unloaded if none did. -/
theorem module_resources {g : Gpio} {es : List Event} {s : State}
    (hrun : Machine.run step { gpio := g } es = some s) :
    Ledger.Balanced s.ledger (s.phase.holds ++ leaked es) ∧
      (s.phase = .unloaded → (Ledger.Settled s.ledger ↔ .cdevAdd false ∉ es)) := by
  have hbalanced : Ledger.Balanced s.ledger (s.phase.holds ++ leaked es) := by
    refine Machine.run_history
      (I := fun es s => Ledger.Balanced s.ledger (s.phase.holds ++ leaked es))
      Ledger.balanced_nil ?_ hrun
    intro pre t e t' _ h hstep
    exact balanced_step h hstep
  refine ⟨hbalanced, fun hunloaded => ?_⟩
  rw [hbalanced.settled_iff, hunloaded]
  show leaked es = [] ↔ _
  rw [leaked, List.replicate_eq_nil_iff, List.count_eq_zero]

/-- A module that is half loaded, refused by `cdev_add`, and loaded again. -/
def loadTwice : List Event :=
  [.registerChrdevRegion true, .cdevAdd false, .unregister, .registerChrdevRegion true,
    .cdevAdd true, .ioremap true, .ledInit, .requestIrq true, .initDone, .rmmod, .freeIrq,
    .iounmap, .cdevDel, .unregister]

theorem module_resources_twice : ∃ s, Machine.run step {} loadTwice = some s ∧
    s.phase = .unloaded ∧ Ledger.Balanced s.ledger [.cdev] ∧ ¬ Ledger.Settled s.ledger := by
  have hrun : Machine.run step {} loadTwice = some _ := rfl
  obtain ⟨hbalanced, hsettled⟩ := module_resources hrun
  exact ⟨_, hrun, rfl, hbalanced, fun h => (hsettled rfl).mp h (by decide)⟩

/-! ### Opening the device once it is loaded -/

/-- Nobody opens the device before `device_init` has returned. -/
def OpensLoaded (s : State) : Event → Prop
  | .openDevice => s.phase = .loaded
  | _ => True

instance : ∀ s e, Decidable (OpensLoaded s e)
  | _, .openDevice => inferInstanceAs (Decidable (_ = _))
  | _, .registerChrdevRegion _ | _, .cdevAdd _ | _, .ioremap _ | _, .ledInit | _, .requestIrq _
  | _, .initDone | _, .rmmod | _, .freeIrq | _, .iounmap | _, .cdevDel | _, .unregister
  | _, .release | _, .ioctl _ _ | _, .proceed _ | _, .staleCall => .isTrue trivial

/-- Files are open only while the module is loaded, calls are in progress only with an open
    file, and nothing is called or accessed that is gone. -/
structure Orderly (s : State) : Prop where
  loaded : 0 < s.files → s.phase = .loaded
  calls : s.calls ≠ [] → 0 < s.files
  stale : s.stale = 0
  faults : s.faults = 0
  requested : s.phase = .requested → s.depth = 0

theorem orderly_init (g : Gpio) : Orderly { gpio := g } where
  loaded h := absurd h (Nat.lt_irrefl 0)
  calls h := absurd rfl h
  stale := rfl
  faults := rfl
  requested h := by cases h

/-- No file is open in a phase before `loaded` or after it, and no call in progress. -/
theorem Orderly.files {s : State} (h : Orderly s) {phase : Phase} (hphase : s.phase = phase)
    (hne : phase ≠ .loaded) : s.files = 0 := by
  by_contra hfiles
  exact hne (hphase.symm.trans (h.loaded (Nat.pos_of_ne_zero hfiles)))

theorem Orderly.calls_eq_nil {s : State} (h : Orderly s) (hfiles : s.files = 0) :
    s.calls = [] := by
  by_contra hcalls
  have := h.calls hcalls
  omega

/-- A step without files. -/
theorem Orderly.away {s s' : State} (h : Orderly s) (hfiles : s.files = 0)
    (hsame : s'.files = s.files ∧ s'.calls = s.calls ∧ s'.stale = s.stale ∧
      s'.faults = s.faults) (hrequested : s'.phase = .requested → s'.depth = 0) :
    Orderly s' where
  loaded hpos := absurd hpos (by rw [hsame.1, hfiles]; decide)
  calls hcalls := absurd (hsame.2.1.trans (h.calls_eq_nil hfiles)) hcalls
  stale := hsame.2.2.1.trans h.stale
  faults := hsame.2.2.2.trans h.faults
  requested := hrequested

/-- A command while the module is loaded. -/
theorem orderly_ioctl {s s' : State} {cmd : UInt32} (h : Orderly s) (hfiles : 0 < s.files)
    (hioctl : IoctlTo s cmd s') : Orderly s' := by
  cases hioctl with
  | nothing => exact h
  | ledOn | ledOff =>
    have hmapped : .mapping ∈ s.phase.holds := by simp [h.loaded hfiles, Phase.holds]
    rw [access, if_pos hmapped]
    exact ⟨h.loaded, h.calls, h.stale, h.faults, h.requested⟩
  | enable | disable => exact ⟨h.loaded, fun _ => hfiles, h.stale, h.faults, h.requested⟩

theorem orderly_step {s s' : State} {e : Event} (h : Orderly s) (hopens : OpensLoaded s e)
    (hstep : s.step e = some s') : Orderly s' := by
  cases step_cases hstep with
  | noRegion => exact h
  | region hphase | notAdded hphase | added hphase | notMapped hphase | mapped hphase
  | ledInit hphase | notRequested hphase | freeIrq hphase | iounmap going hphase
  | cdevDel going hphase =>
    refine h.away (h.files hphase (by simp)) ⟨rfl, rfl, rfl, rfl⟩ ?_
    simp [acquire, release, move]
  | requested hphase => exact h.away (h.files hphase (by simp)) ⟨rfl, rfl, rfl, rfl⟩ fun _ => rfl
  | unregister going hphase =>
    have hfiles := h.files hphase (by simp)
    refine h.away hfiles ⟨hfiles.symm, (h.calls_eq_nil hfiles).symm, ?_, rfl⟩ (by simp [release])
    show s.stale + s.files = s.stale
    rw [hfiles, Nat.add_zero]
  | initDone hphase => exact ⟨fun _ => rfl, h.calls, h.stale, h.faults, by simp⟩
  | rmmod hphase hfiles => exact h.away hfiles ⟨rfl, rfl, rfl, rfl⟩ (by simp [move])
  | openDevice =>
    have hloaded : s.phase = .loaded := hopens
    exact ⟨fun _ => hloaded, fun _ => Nat.succ_pos _, h.stale, h.faults, h.requested⟩
  | release hfiles hidle =>
    refine ⟨fun _ => h.loaded hfiles, fun hcalls => ?_, h.stale, h.faults, h.requested⟩
    show 0 < s.files - 1
    rcases hidle with hnone | hmore
    · exact absurd hnone hcalls
    · omega
  | ioctl cmd fault _ hfiles hioctl => exact orderly_ioctl h hfiles hioctl
  | proceed c hcall =>
    have hfiles := h.calls (List.ne_nil_of_mem hcall)
    obtain ⟨irqEnabled, depth, strays, calls, hframe⟩ := proceed_frame s c
    rw [hframe]
    refine ⟨h.loaded, fun _ => hfiles, h.stale, h.faults, fun hrequested => ?_⟩
    cases (h.loaded hfiles).symm.trans hrequested
  | staleCall hstale =>
    have := h.stale
    omega

/-- Only an open and a close change the number of open files. -/
theorem Orderly.files_step {s s' : State} {e : Event} (h : Orderly s)
    (hstep : s.step e = some s') (hopen : e ≠ .openDevice) (hrelease : e ≠ .release) :
    s'.files = s.files := by
  cases step_cases hstep with
  | openDevice => exact absurd rfl hopen
  | release => exact absurd rfl hrelease
  | unregister going hphase => exact (h.files hphase (by simp)).symm
  | ioctl cmd fault _ hfiles hioctl =>
    obtain ⟨gpio, faults, calls, rfl⟩ := hioctl.frame
    rfl
  | proceed c hcall =>
    obtain ⟨irqEnabled, depth, strays, calls, hframe⟩ := proceed_frame s c
    rw [hframe]
  | noRegion | region | notAdded | added | notMapped | mapped | ledInit | notRequested | requested
  | initDone | rmmod | freeIrq | iounmap | cdevDel | staleCall => rfl

/-- A call begins with a command that is not for the lights. -/
theorem calls_step {s s' : State} {e : Event} (hstep : s.step e = some s')
    (hcalls : s'.calls ≠ []) : s.calls ≠ [] ∨ ∃ cmd fault, e = .ioctl cmd fault ∧
      cmd ≠ MY_IOCTL_CMD_LED_ON ∧ cmd ≠ MY_IOCTL_CMD_LED_OFF := by
  cases step_cases hstep with
  | ioctl cmd fault _ hfiles hioctl =>
    cases hioctl with
    | nothing => exact .inl hcalls
    | ledOn | ledOff =>
      unfold access at hcalls
      split_ifs at hcalls
      · exact .inl hcalls
      · exact .inl hcalls
    | enable hcmd => exact .inr ⟨cmd, fault, rfl, hcmd ▸ by decide, hcmd ▸ by decide⟩
    | disable hcmd => exact .inr ⟨cmd, fault, rfl, hcmd ▸ by decide, hcmd ▸ by decide⟩
  | proceed c hcall => exact .inl (List.ne_nil_of_mem hcall)
  | unregister => exact absurd rfl hcalls
  | noRegion | region | notAdded | added | notMapped | mapped | ledInit | notRequested | requested
  | initDone | rmmod | freeIrq | iounmap | cdevDel | openDevice | release | staleCall =>
    exact .inl hcalls

/-- What a step makes of the lights, which are off after `led_init`. -/
def lampAfter (on : Option Bool) : Event → Option Bool
  | .ledInit => some false
  | .ioctl cmd _ =>
    if cmd = MY_IOCTL_CMD_LED_ON then some true
    else if cmd = MY_IOCTL_CMD_LED_OFF then some false
    else on
  | _ => on

/-- What was asked of the lights last. -/
def lamp (es : List Event) : Option Bool := es.foldl lampAfter none

theorem lamp_concat (es : List Event) (e : Event) : lamp (es ++ [e]) = lampAfter (lamp es) e := by
  rw [lamp, List.foldl_append]
  rfl

/-- The lights show it, and the pins that are not theirs are what they were. -/
structure Shows (g : Gpio) (on : Option Bool) (s : State) : Prop where
  lights : ∀ b, on = some b → ∀ pin, Gpio.isLight pin = true →
    s.gpio.level pin = (!b) ∧ s.gpio.function pin = 1
  others : ∀ pin, Gpio.isLight pin = false →
    s.gpio.level pin = g.level pin ∧ (pin < 10 → s.gpio.function pin = g.function pin)

theorem shows_init (g : Gpio) : Shows g none { gpio := g } where
  lights b h := by cases h
  others _ _ := ⟨rfl, fun _ => rfl⟩

theorem Shows.of_gpio {g : Gpio} {on : Option Bool} {s s' : State} (h : Shows g on s)
    (hsame : s'.gpio = s.gpio) : Shows g on s' := by
  obtain ⟨hlights, hothers⟩ := h
  rw [← hsame] at hlights hothers
  exact ⟨hlights, hothers⟩

theorem pin_lt {pin : Nat} (h : Gpio.isLight pin = true) : pin < 10 := by
  simp [Gpio.isLight] at h
  omega

theorem shows_ledInit {g : Gpio} {on : Option Bool} {s : State} (h : Shows g on s) :
    Shows g (some false) { s with phase := .lit, gpio := s.gpio.ledInit } where
  lights b hb pin hpin := by
    obtain rfl := Option.some.inj hb
    refine ⟨?_, ?_⟩
    · show s.gpio.ledInit.level pin = true
      rw [Gpio.level_ledInit, hpin, Bool.or_true]
    · show s.gpio.ledInit.function pin = 1
      rw [Gpio.function_ledInit _ (pin_lt hpin), if_pos hpin]
  others pin hpin := by
    obtain ⟨hlevel, hfunction⟩ := h.others pin hpin
    refine ⟨?_, fun hlt => ?_⟩
    · show s.gpio.ledInit.level pin = _
      rw [Gpio.level_ledInit, hpin, Bool.or_false, hlevel]
    · show s.gpio.ledInit.function pin = _
      rw [Gpio.function_ledInit _ hlt, hpin, if_neg Bool.false_ne_true, hfunction hlt]

/-- A command for the lights, which have been initialised. -/
theorem shows_access {g : Gpio} {on on' : Bool} {s : State} {write : Gpio → Gpio}
    (h : Shows g (some on) s) (hmapped : .mapping ∈ s.phase.holds)
    (hfunction : (write s.gpio).GPFSEL0 = s.gpio.GPFSEL0)
    (hlevel : ∀ pin, (write s.gpio).level pin =
      if Gpio.isLight pin then !on' else s.gpio.level pin) :
    Shows g (some on') (s.access write) := by
  have hfunctions : ∀ pin, (write s.gpio).function pin = s.gpio.function pin := by
    intro pin
    rw [Gpio.function, hfunction]
    rfl
  rw [access, if_pos hmapped]
  refine ⟨fun b hb pin hpin => ⟨?_, ?_⟩, fun pin hpin => ⟨?_, fun hlt => ?_⟩⟩
  · show (write s.gpio).level pin = _
    rw [hlevel, if_pos hpin, Option.some.inj hb]
  · exact (hfunctions pin).trans (h.lights on rfl pin hpin).2
  · show (write s.gpio).level pin = _
    rw [hlevel, hpin, if_neg Bool.false_ne_true]
    exact (h.others pin hpin).1
  · exact (hfunctions pin).trans ((h.others pin hpin).2 hlt)

/-- The lights have been initialised once the module is loaded. -/
def Initialised (on : Option Bool) (s : State) : Prop :=
  s.phase = .lit ∨ s.phase = .requested ∨ s.phase = .loaded → on ≠ none

theorem shows_ioctl {g : Gpio} {on : Option Bool} {s s' : State} {cmd : UInt32} (fault : Bool)
    (h : Shows g on s) (hon : Initialised on s) (ho : Orderly s) (hfiles : 0 < s.files)
    (hioctl : IoctlTo s cmd s') : Shows g (lampAfter on (.ioctl cmd fault)) s' := by
  have hloaded := ho.loaded hfiles
  have hmapped : .mapping ∈ s.phase.holds := by simp [hloaded, Phase.holds]
  obtain ⟨b, rfl⟩ := Option.ne_none_iff_exists'.mp (hon (.inr (.inr hloaded)))
  cases hioctl with
  | nothing hother =>
    rw [lampAfter, if_neg hother.1, if_neg hother.2]
    exact h
  | ledOn hcmd =>
    rw [lampAfter, if_pos hcmd]
    refine shows_access h hmapped rfl fun pin => ?_
    rw [Gpio.level_ledOn]
    cases Gpio.isLight pin <;> simp
  | ledOff hcmd =>
    rw [lampAfter, hcmd, if_neg (by decide), if_pos rfl]
    refine shows_access h hmapped rfl fun pin => ?_
    rw [Gpio.level_ledOff]
    cases Gpio.isLight pin <;> simp
  | enable hcmd =>
    rw [lampAfter, hcmd, if_neg (by decide), if_neg (by decide)]
    exact h.of_gpio rfl
  | disable hcmd =>
    rw [lampAfter, hcmd, if_neg (by decide), if_neg (by decide)]
    exact h.of_gpio rfl

theorem lampAfter_ne_none {on : Option Bool} {e : Event} (h : on ≠ none) :
    lampAfter on e ≠ none := by
  unfold lampAfter
  split
  · simp
  · split_ifs
    · simp
    · simp
    · exact h
  · exact h

theorem initialised_step {on : Option Bool} {s s' : State} {e : Event} (h : Initialised on s)
    (hstep : s.step e = some s') : Initialised (lampAfter on e) s' := by
  intro hphase'
  cases step_cases hstep with
  | ledInit => simp [lampAfter]
  | requested hphase => exact lampAfter_ne_none (h (.inl hphase))
  | initDone hphase => exact lampAfter_ne_none (h (.inr (.inl hphase)))
  | noRegion | openDevice | release | staleCall => exact lampAfter_ne_none (h hphase')
  | ioctl cmd fault _ hfiles hioctl =>
    obtain ⟨gpio, faults, calls, rfl⟩ := hioctl.frame
    exact lampAfter_ne_none (h hphase')
  | proceed c hcall =>
    obtain ⟨irqEnabled, depth, strays, calls, hframe⟩ := proceed_frame s c
    rw [hframe] at hphase'
    exact lampAfter_ne_none (h hphase')
  | region | notAdded | added | notMapped | mapped | notRequested | rmmod | freeIrq | iounmap
  | cdevDel | unregister => simp [acquire, release, move] at hphase'

theorem shows_step {g : Gpio} {on : Option Bool} {s s' : State} {e : Event} (h : Shows g on s)
    (hon : Initialised on s) (ho : Orderly s) (hstep : s.step e = some s') :
    Shows g (lampAfter on e) s' := by
  cases step_cases hstep with
  | ledInit => exact shows_ledInit h
  | ioctl cmd fault _ hfiles hioctl => exact shows_ioctl fault h hon ho hfiles hioctl
  | proceed c hcall =>
    obtain ⟨irqEnabled, depth, strays, calls, hframe⟩ := proceed_frame s c
    exact h.of_gpio (by rw [hframe])
  | noRegion | openDevice | release | staleCall | region | notAdded | added | notMapped | mapped
  | notRequested | requested | initDone | rmmod | freeIrq | iounmap | cdevDel | unregister =>
    exact h.of_gpio rfl

theorem orderly_run {g : Gpio} {es : List Event} {s : State}
    (hrun : Machine.run step { gpio := g } es = some s)
    (hopens : Machine.Along step OpensLoaded { gpio := g } es) :
    Orderly s ∧ Initialised (lamp es) s ∧ Shows g (lamp es) s := by
  refine Machine.run_foldl_along
    (I := fun on s => Orderly s ∧ Initialised on s ∧ Shows g on s) ?_ ?_ hopens hrun
  · rintro on s e s' ⟨ho, hon, hs⟩ hopens hstep
    exact ⟨orderly_step ho hopens hstep, initialised_step hon hstep, shows_step hs hon ho hstep⟩
  · refine ⟨orderly_init g, ?_, shows_init g⟩
    rintro (h | h | h) <;> cases h

/-! ### The line of the key -/

/-- A command for the line comes when no other is in progress. -/
def Alone (s : State) : Event → Prop
  | .ioctl cmd _ => cmd = MY_IOCTL_CMD_IRQ_EN ∨ cmd = MY_IOCTL_CMD_IRQ_DIS → s.calls = []
  | _ => True

instance : ∀ s e, Decidable (Alone s e)
  | _, .ioctl _ _ => inferInstanceAs (Decidable (_ → _))
  | _, .registerChrdevRegion _ | _, .cdevAdd _ | _, .ioremap _ | _, .ledInit | _, .requestIrq _
  | _, .initDone | _, .rmmod | _, .freeIrq | _, .iounmap | _, .cdevDel | _, .unregister
  | _, .openDevice | _, .release | _, .proceed _ | _, .staleCall => .isTrue trivial

/-- The depth that the driver believes in. -/
def believed (s : State) : Nat := if s.irqEnabled then 0 else 1

/-- The depth is what the driver believes, with `d` on top; or there is one call, which is
    about to make it so. -/
def Offset (d : Nat) (s : State) : Prop :=
  s.calls = [] ∧ s.depth = d + s.believed ∨ ∃ c, s.calls = [c] ∧ s.depth = d + c.depth

theorem Offset.of_calls {d : Nat} {s : State} (h : Offset d s) (hcalls : s.calls = []) :
    s.depth = d + s.believed := by
  rcases h with ⟨-, hdepth⟩ | ⟨c, hcall, -⟩
  · exact hdepth
  · cases hcalls.symm.trans hcall

theorem Offset.of_call {d : Nat} {s : State} (h : Offset d s) {c : Call} (hcall : c ∈ s.calls) :
    s.calls = [c] ∧ s.depth = d + c.depth := by
  rcases h with ⟨hcalls, -⟩ | ⟨c', hcalls, hdepth⟩
  · rw [hcalls] at hcall
    cases hcall
  · rw [hcalls] at hcall
    obtain rfl := List.mem_singleton.mp hcall
    exact ⟨hcalls, hdepth⟩

/-- A command that comes alone. -/
theorem offset_ioctl {d : Nat} {s s' : State} {cmd : UInt32} {fault : Bool} (h : Offset d s)
    (halone : Alone s (.ioctl cmd fault)) (hioctl : IoctlTo s cmd s') :
    Offset d s' ∧ s'.strays = s.strays := by
  cases hioctl with
  | nothing => exact ⟨h, rfl⟩
  | ledOn | ledOff =>
    unfold access
    split_ifs
    · exact ⟨h, rfl⟩
    · exact ⟨h, rfl⟩
  | enable hcmd hnot =>
    have hcalls := halone (.inl hcmd)
    have hdepth := h.of_calls hcalls
    rw [believed, hnot] at hdepth
    exact ⟨.inr ⟨.enable, congrArg _ hcalls, hdepth⟩, rfl⟩
  | disable hcmd henabled =>
    have hcalls := halone (.inr hcmd)
    have hdepth := h.of_calls hcalls
    rw [believed, henabled] at hdepth
    exact ⟨.inr ⟨.disable, congrArg _ hcalls, hdepth⟩, rfl⟩

/-- A call goes on while the module has the line. -/
theorem offset_proceed {d : Nat} {s : State} {c : Call} (h : Offset d s)
    (hirq : .irq ∈ s.phase.holds) (hcall : c ∈ s.calls) :
    Offset d (s.proceed c) ∧ (s.proceed c).strays = s.strays := by
  obtain ⟨hcalls, hdepth⟩ := h.of_call hcall
  cases c with
  | enable =>
    have hone : s.depth = d + 1 := hdepth
    have hheld : .irq ∈ s.phase.holds ∧ 0 < s.depth := ⟨hirq, by omega⟩
    have hproceed : s.proceed .enable = { s with depth := d, calls := [.enabled] } := by
      simp [proceed, enableIrq, hheld, hone, hcalls]
    rw [hproceed]
    exact ⟨.inr ⟨.enabled, rfl, rfl⟩, rfl⟩
  | enabled =>
    have hproceed : s.proceed .enabled = { s with irqEnabled := true, calls := [] } := by
      simp [proceed, hcalls]
    rw [hproceed]
    exact ⟨.inl ⟨rfl, hdepth⟩, rfl⟩
  | disable =>
    have hproceed : s.proceed .disable = { s with depth := s.depth + 1, calls := [.disabled] } := by
      simp [proceed, disableIrq, hirq, hcalls]
    rw [hproceed]
    exact ⟨.inr ⟨.disabled, rfl, congrArg (· + 1) hdepth⟩, rfl⟩
  | disabled =>
    have hproceed : s.proceed .disabled = { s with irqEnabled := false, calls := [] } := by
      simp [proceed, hcalls]
    rw [hproceed]
    exact ⟨.inl ⟨rfl, hdepth⟩, rfl⟩

/-- The line is as the driver believes, or will be so when the call in progress has returned,
    and no command was for nothing. -/
structure Steady (s : State) : Prop where
  strays : s.strays = 0
  line : s.phase = .loaded ∨ s.phase = .leaving → Offset 0 s

theorem steady_step {s s' : State} {e : Event} (h : Steady s) (ho : Orderly s)
    (halone : Alone s e) (hstep : s.step e = some s') : Steady s' := by
  cases step_cases hstep with
  | initDone hphase =>
    have hcalls := ho.calls_eq_nil (ho.files hphase (by simp))
    exact ⟨h.strays, fun _ => .inl ⟨hcalls, ho.requested hphase⟩⟩
  | rmmod hphase hfiles =>
    exact ⟨h.strays, fun _ => h.line (.inl hphase)⟩
  | ioctl cmd fault _ hfiles hioctl =>
    have hloaded := ho.loaded hfiles
    obtain ⟨hoffset, hstrays⟩ := offset_ioctl (h.line (.inl hloaded)) halone hioctl
    exact ⟨hstrays.trans h.strays, fun _ => hoffset⟩
  | proceed c hcall =>
    have hloaded := ho.loaded (ho.calls (List.ne_nil_of_mem hcall))
    have hirq : .irq ∈ s.phase.holds := by simp [hloaded, Phase.holds]
    obtain ⟨hoffset, hstrays⟩ := offset_proceed (h.line (.inl hloaded)) hirq hcall
    exact ⟨hstrays.trans h.strays, fun _ => hoffset⟩
  | noRegion | openDevice | release | staleCall => exact ⟨h.strays, h.line⟩
  | region | notAdded | added | notMapped | mapped | ledInit | notRequested | requested | freeIrq
  | iounmap | cdevDel | unregister => exact ⟨h.strays, by simp [acquire, State.release, move]⟩

/-- **Orderly use.** When nobody opens the device before `device_init` has returned, then
    after every run, with whatever failures, no register was accessed without its mapping and
    no code called that is gone, and files are open only while the module is loaded. The
    lights show what was asked of them last, and no other pin has changed its use or its
    level. When moreover the commands for the line of the key come one at a time, none is for
    nothing, and between them the line is enabled when the driver believes so. -/
theorem device_run {g : Gpio} {es : List Event} {s : State}
    (hrun : Machine.run step { gpio := g } es = some s)
    (hopens : Machine.Along step OpensLoaded { gpio := g } es) :
    Orderly s ∧ Shows g (lamp es) s ∧
      (Machine.Along step Alone { gpio := g } es → s.strays = 0 ∧
        (s.phase = .loaded ∨ s.phase = .leaving → s.calls = [] → s.depth = s.believed)) := by
  obtain ⟨horderly, -, hshows⟩ := orderly_run hrun hopens
  refine ⟨horderly, hshows, fun halone => ?_⟩
  have hsteady : Steady s := by
    refine (Machine.run_invariant_along (I := fun s => Orderly s ∧ Steady s) ?_
      ⟨orderly_init g, rfl, ?_⟩ (hopens.and halone) hrun).2
    · rintro s e s' ⟨ho, h⟩ ⟨hopens, halone⟩ hstep
      exact ⟨orderly_step ho hopens hstep, steady_step h ho halone hstep⟩
    · rintro (h | h) <;> cases h
  refine ⟨hsteady.strays, fun hphase hcalls => ?_⟩
  have hdepth := (hsteady.line hphase).of_calls hcalls
  rwa [Nat.zero_add] at hdepth

/-- The module is loaded, and its lights are switched on. -/
def switchOn : List Event :=
  [.registerChrdevRegion true, .cdevAdd true, .ioremap true, .ledInit, .requestIrq true,
    .initDone, .openDevice, .ioctl MY_IOCTL_CMD_LED_ON false, .ioctl MY_IOCTL_CMD_IRQ_DIS false,
    .proceed .disable, .proceed .disabled]

theorem device_run_switchOn : ∃ s, Machine.run step { gpio := ⟨0xffffffff, 0⟩ } switchOn = some s ∧
    s.gpio = ⟨0xffe4ffff, 0⟩ ∧ Orderly s ∧ Shows ⟨0xffffffff, 0⟩ (some true) s ∧
    s.depth = s.believed := by
  have hrun : Machine.run step { gpio := ⟨0xffffffff, 0⟩ } switchOn = some _ := rfl
  obtain ⟨horderly, hshows, hline⟩ := device_run hrun (by decide)
  exact ⟨_, hrun, by decide, horderly, hshows, (hline (by decide)).2 (.inl rfl) rfl⟩

/-- Two commands that switch the line off at once: it stays off when it is switched on. -/
example : (Machine.run step {}
    [.registerChrdevRegion true, .cdevAdd true, .ioremap true, .ledInit, .requestIrq true,
      .initDone, .openDevice, .ioctl MY_IOCTL_CMD_IRQ_DIS false,
      .ioctl MY_IOCTL_CMD_IRQ_DIS false, .proceed .disable, .proceed .disable,
      .proceed .disabled, .proceed .disabled, .ioctl MY_IOCTL_CMD_IRQ_EN false,
      .proceed .enable, .proceed .enabled]).map (fun s => (s.irqEnabled, s.depth, s.calls)) =
    some (true, 1, []) := by
  decide

/-! ### A line that stays off -/

theorem offset_step {d : Nat} {s s' : State} {e : Event} (hloaded : s.phase = .loaded)
    (h : Offset d s) (he : e ≠ .rmmod) (halone : Alone s e) (hstep : s.step e = some s') :
    s'.phase = .loaded ∧ Offset d s' := by
  cases step_cases hstep with
  | rmmod => exact absurd rfl he
  | openDevice | release | staleCall => exact ⟨hloaded, h⟩
  | ioctl cmd fault _ hfiles hioctl =>
    obtain ⟨hoffset, -⟩ := offset_ioctl h halone hioctl
    obtain ⟨gpio, faults, calls, rfl⟩ := hioctl.frame
    exact ⟨hloaded, hoffset⟩
  | proceed c hcall =>
    have hirq : .irq ∈ s.phase.holds := by simp [hloaded, Phase.holds]
    obtain ⟨hoffset, -⟩ := offset_proceed h hirq hcall
    obtain ⟨irqEnabled, depth, strays, calls, hframe⟩ := proceed_frame s c
    rw [hframe] at hoffset ⊢
    exact ⟨hloaded, hoffset⟩
  | noRegion hphase | region hphase | notAdded hphase | added hphase | notMapped hphase
  | mapped hphase | ledInit hphase | notRequested hphase | requested hphase | initDone hphase
  | freeIrq hphase | iounmap going hphase | cdevDel going hphase | unregister going hphase =>
    cases hloaded.symm.trans hphase

theorem Offset.le_depth {d : Nat} {s : State} (h : Offset d s) : d ≤ s.depth := by
  rcases h with ⟨-, hdepth⟩ | ⟨c, -, hdepth⟩
  · omega
  · omega

/-- Between `request_irq` and the end of `device_init`, commands that come one at a time leave
    the line disabled at most once, and then the driver knows it. -/
structure Settling (s : State) : Prop where
  calls : s.calls.length ≤ 1
  idle : s.phase = .requested → s.calls = [] → s.depth ≤ s.believed
  calling : s.phase = .requested → ∀ c ∈ s.calls, s.depth ≤ c.depth

theorem settling_init (g : Gpio) : Settling { gpio := g } where
  calls := Nat.zero_le 1
  idle _ _ := Nat.zero_le _
  calling _ _ _ := Nat.zero_le _

theorem settling_step {s s' : State} {e : Event} (h : Settling s) (halone : Alone s e)
    (hstep : s.step e = some s') : Settling s' := by
  have hstays : s'.calls = s.calls → (s'.phase = .requested → s.phase = .requested ∧
      s'.depth = s.depth ∧ s'.irqEnabled = s.irqEnabled) → Settling s' := by
    intro hcalls hsame
    refine ⟨hcalls ▸ h.calls, fun hphase' hnone => ?_, fun hphase' c hc => ?_⟩
    · obtain ⟨hphase, hdepth, henabled⟩ := hsame hphase'
      rw [hdepth, believed, henabled]
      exact h.idle hphase (hcalls ▸ hnone)
    · obtain ⟨hphase, hdepth, -⟩ := hsame hphase'
      rw [hdepth]
      exact h.calling hphase c (hcalls ▸ hc)
  cases step_cases hstep with
  | requested => exact ⟨h.calls, fun _ _ => Nat.zero_le _, fun _ _ _ => Nat.zero_le _⟩
  | noRegion | openDevice | release | staleCall => exact ⟨h.calls, h.idle, h.calling⟩
  | unregister => exact ⟨Nat.zero_le 1, by simp [State.release], by simp⟩
  | region | notAdded | added | notMapped | mapped | ledInit | notRequested | initDone | rmmod
  | freeIrq | iounmap | cdevDel => exact hstays rfl (by simp [acquire, State.release, move])
  | ioctl cmd fault _ hfiles hioctl =>
    cases hioctl with
    | nothing => exact h
    | ledOn | ledOff =>
      unfold access
      split_ifs
      · exact ⟨h.calls, h.idle, h.calling⟩
      · exact ⟨h.calls, h.idle, h.calling⟩
    | enable hcmd hnot =>
      have hcalls := halone (.inl hcmd)
      refine ⟨by simp [hcalls], by simp, fun hphase c hc => ?_⟩
      have hidle := h.idle hphase hcalls
      rw [believed, hnot] at hidle
      rw [hcalls] at hc
      obtain rfl := List.mem_singleton.mp hc
      exact hidle
    | disable hcmd henabled =>
      have hcalls := halone (.inr hcmd)
      refine ⟨by simp [hcalls], by simp, fun hphase c hc => ?_⟩
      have hidle := h.idle hphase hcalls
      rw [believed, henabled] at hidle
      rw [hcalls] at hc
      obtain rfl := List.mem_singleton.mp hc
      exact hidle
  | proceed c hcall =>
    have hcalls : s.calls = [c] := by
      obtain ⟨c', hc'⟩ := List.length_eq_one_iff.mp
        (Nat.le_antisymm h.calls (List.length_pos_of_mem hcall))
      rw [hc'] at hcall ⊢
      rw [List.mem_singleton.mp hcall]
    have hdepth := fun hphase => h.calling hphase c hcall
    cases c with
    | enable =>
      have hproceed : s.proceed .enable = { s.enableIrq with calls := [.enabled] } := by
        simp [proceed, hcalls]
      rw [hproceed]
      refine ⟨Nat.le_refl 1, by simp, fun hphase c hc => ?_⟩
      obtain rfl := List.mem_singleton.mp hc
      unfold enableIrq at hphase ⊢
      split_ifs at hphase ⊢ with hheld
      · have := hdepth hphase
        show s.depth - 1 ≤ 0
        simp only [Call.depth] at this
        omega
      · have hirq : .irq ∈ s.phase.holds := by
          have hrequested : s.phase = .requested := hphase
          simp [hrequested, Phase.holds]
        exact Nat.le_of_not_lt fun hpos => hheld ⟨hirq, hpos⟩
    | enabled =>
      have hproceed : s.proceed .enabled = { s with irqEnabled := true, calls := [] } := by
        simp [proceed, hcalls]
      rw [hproceed]
      exact ⟨Nat.zero_le 1, fun hphase _ => hdepth hphase, by simp⟩
    | disable =>
      have hproceed : s.proceed .disable = { s.disableIrq with calls := [.disabled] } := by
        simp [proceed, hcalls]
      rw [hproceed]
      refine ⟨Nat.le_refl 1, by simp, fun hphase c hc => ?_⟩
      obtain rfl := List.mem_singleton.mp hc
      unfold disableIrq at hphase ⊢
      split_ifs at hphase ⊢
      · exact Nat.succ_le_succ (hdepth hphase)
      · exact Nat.le_trans (hdepth hphase) (Nat.zero_le 1)
    | disabled =>
      have hproceed : s.proceed .disabled = { s with irqEnabled := false, calls := [] } := by
        simp [proceed, hcalls]
      rw [hproceed]
      exact ⟨Nat.zero_le 1, fun hphase _ => hdepth hphase, by simp⟩

/-- **A key that is dead.** When no command for the line is in progress as `device_init` ends,
    the depth of the line then decides the life of the module, as long as the commands come one
    at a time. When it is 0 the line is enabled between the commands just when the driver
    believes so. Else no commands enable the line until the module is unloaded. It is 1 at most
    when the commands before came one at a time as well, and 0 when there were none. -/
theorem key_line {g : Gpio} {es es' : List Event} {s₀ s₁ s : State}
    (hrun : Machine.run step { gpio := g } es = some s₀) (hdone : s₀.step .initDone = some s₁)
    (hcalls : s₀.calls = []) (hrest : Machine.run step s₁ es' = some s) (hstays : .rmmod ∉ es')
    (halone : Machine.Along step Alone s₁ es') :
    s.phase = .loaded ∧
      (s₀.depth = 0 → s.calls = [] → (s.depth = 0 ↔ s.irqEnabled = true)) ∧
      (0 < s₀.depth → 0 < s.depth) ∧
      (Machine.Along step Alone { gpio := g } es → s₀.depth ≤ 1) ∧
      (Machine.Along step OpensLoaded { gpio := g } es → s₀.depth = 0) := by
  obtain ⟨hphase, hs₁⟩ := Machine.guarded_eq_some hdone
  have hloads : ∀ e ∈ es', e ≠ .rmmod := by
    rintro e he rfl
    exact hstays he
  have hstart : s₁.phase = .loaded ∧ Offset s₀.depth s₁ := by
    rw [hs₁]
    exact ⟨rfl, .inl ⟨hcalls, rfl⟩⟩
  obtain ⟨hloaded, hoffset⟩ : s.phase = .loaded ∧ Offset s₀.depth s :=
    Machine.run_invariant_along (fun _ _ _ h hQ hstep => offset_step h.1 h.2 hQ.1 hQ.2 hstep)
      hstart ((Machine.along_of_forall hloads s₁).and halone) hrest
  refine ⟨hloaded, fun hzero hnone => ?_, fun hpos => ?_, fun hearly => ?_, fun hopens => ?_⟩
  · have hdepth := hoffset.of_calls hnone
    rw [hdepth, hzero, believed]
    cases s.irqEnabled <;> simp
  · have := hoffset.le_depth
    omega
  · have hsettling : Settling s₀ :=
      Machine.run_invariant_along (fun _ _ _ h halone hstep => settling_step h halone hstep)
        (settling_init g) hearly hrun
    have hdepth := hsettling.idle hphase hcalls
    unfold believed at hdepth
    split_ifs at hdepth <;> omega
  · exact (orderly_run hrun hopens).1.requested hphase

/-- Who opens the device early can disable the line behind the back of `device_init`. -/
def early : List Event :=
  [.registerChrdevRegion true, .cdevAdd true, .openDevice, .ioctl MY_IOCTL_CMD_IRQ_EN false,
    .proceed .enable, .proceed .enabled, .ioremap true, .ledInit, .requestIrq true,
    .ioctl MY_IOCTL_CMD_IRQ_DIS false, .proceed .disable, .proceed .disabled]

/-- The line is switched off and on, and is still off. -/
def offAndOn : List Event :=
  [.ioctl MY_IOCTL_CMD_IRQ_DIS false, .proceed .disable, .proceed .disabled,
    .ioctl MY_IOCTL_CMD_IRQ_EN false, .proceed .enable, .proceed .enabled]

theorem key_line_early : ∃ s₀ s₁ s, Machine.run step {} early = some s₀ ∧
    s₀.step .initDone = some s₁ ∧ Machine.run step s₁ offAndOn = some s ∧ s₀.depth ≤ 1 ∧
    s.calls = [] ∧ s.irqEnabled = true ∧ 0 < s.depth := by
  obtain ⟨s₀, hrun, hone, hcalls, s₁, hdone, halone, s, hrest, hnone, henabled⟩ :
      ∃ s₀ ∈ Machine.run step {} early, s₀.depth = 1 ∧ s₀.calls = [] ∧
        ∃ s₁ ∈ s₀.step .initDone, Machine.Along step Alone s₁ offAndOn ∧
          ∃ s ∈ Machine.run step s₁ offAndOn, s.calls = [] ∧ s.irqEnabled = true := by
    decide
  obtain ⟨-, -, hdead, hearly, -⟩ := key_line hrun hdone hcalls hrest (by decide) halone
  exact ⟨s₀, s₁, s, hrun, hdone, hrest, hearly (by decide), hnone, henabled, hdead (by omega)⟩

end State

end AlarmClock.DevTest
