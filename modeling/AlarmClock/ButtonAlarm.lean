import AlarmClock.ButtonDriver
import AlarmClock.ButtonGame

/-!
# From the key to the dismissal

The watcher's signal is delivered in the main thread, one press at a time. While the dialog
of a button alarm is open the press goes on to its game, and else it is lost. Driver,
watcher and dialog are one system here: what its alarms cost in presses, and that presses
alone get rid of them.
-/

namespace AlarmClock

/-- The driver with everyone who reads from it, the dialog that is open, and the targets of
    the games that were dismissed, the last one first. -/
structure ButtonAlarm where
  driver : ButtonDriver.State := {}
  dialog : Option ButtonGame := none
  dismissed : List Int := []
deriving DecidableEq, Repr

/-- `updateCurrentTime` opens a dialog, and `returned` is the end of its `exec`. -/
inductive ButtonAlarm.Event where
  | driver (e : ButtonDriver.Event)
  | updateCurrentTime (target : Int)
  | dialog (e : ButtonGame.Event)
  | returned
deriving DecidableEq, Repr

namespace ButtonAlarm

/-- A press that is delivered: `onButtonPressedForGame`, when the dialog is connected. -/
def relay (s : ButtonAlarm) : Option ButtonAlarm :=
  match s.dialog with
  | none => some s
  | some d => (ButtonGame.step d .buttonPressed).map fun d => { s with dialog := some d }

/-- A press reaches the dialog through the watcher only. -/
def step (s : ButtonAlarm) : Event → Option ButtonAlarm
  | .driver e => (s.driver.step e).bind fun driver =>
    if e = .onButtonPressed then relay { s with driver := driver }
    else some { s with driver := driver }
  | .updateCurrentTime target =>
    if s.dialog = none ∧ GameEngine.TARGET_MIN ≤ target ∧ target ≤ GameEngine.TARGET_MAX then
      some { s with dialog := some (ButtonGame.buildButtonUi target) }
    else none
  | .dialog e =>
    if e = .buttonPressed then none
    else s.dialog.bind fun d =>
      (ButtonGame.step d e).map fun d => { s with dialog := some d }
  | .returned => s.dialog.bind fun d =>
    if d.accepted then
      some { s with dialog := none, dismissed := d.engine.targetCount :: s.dismissed }
    else none

theorem relay_cases {s s' : ButtonAlarm} (h : relay s = some s') :
    s.dialog = none ∧ s' = s ∨
      ∃ d d', s.dialog = some d ∧ ButtonGame.step d .buttonPressed = some d' ∧
        s' = { s with dialog := some d' } := by
  unfold relay at h
  split at h
  · next hnone => exact .inl ⟨hnone, (Option.some.inj h).symm⟩
  · next d hd =>
    obtain ⟨d', hstep, rfl⟩ := Option.map_eq_some_iff.mp h
    exact .inr ⟨d, d', hd, hstep, rfl⟩

/-! ### What a dismissal costs -/

/-- A game that was started: its target is in range, and it is won on the target. -/
structure Target (g : GameEngine) : Prop where
  range : GameEngine.TARGET_MIN ≤ g.targetCount ∧ g.targetCount ≤ GameEngine.TARGET_MAX
  won : g.state = .SUCCESS → g.count = g.targetCount
  count : 0 ≤ g.count

variable {g g' : GameEngine}

theorem Target.of_started {target : Int} (h : GameEngine.Started target g g')
    (htarget : GameEngine.TARGET_MIN ≤ target ∧ target ≤ GameEngine.TARGET_MAX) :
    Target g' := by
  refine ⟨?_, ?_, ?_⟩
  · rw [h.targetCount]
    exact htarget
  · intro hwon
    cases h.state.symm.trans hwon
  · exact h.count ▸ Int.le_refl 0

/-- **One event of the engine.** Only a press counts, and it counts once. -/
theorem Target.engine_step (ht : Target g) (hi : GameEngine.Inv g) {e : GameEngine.Event}
    (h : GameEngine.step g e = some g') :
    Target g' ∧ g'.count ≤ g.count + if e = .onButtonPressed then 1 else 0 := by
  have hcount := ht.count
  cases GameEngine.step_cases hi h with
  | ignored e =>
    refine ⟨ht, ?_⟩
    split_ifs
    · omega
    · omega
  | started e target g' he htarget hstarted =>
    refine ⟨.of_started hstarted htarget, ?_⟩
    rw [hstarted.count]
    split_ifs
    · omega
    · omega
  | counted hplaying =>
    refine ⟨⟨ht.range, ?_, by show 0 ≤ g.count + 1; omega⟩, by simp⟩
    intro hwon
    cases hplaying.symm.trans hwon
  | reached waitMs hwait hplaying =>
    refine ⟨⟨ht.range, ?_, by show 0 ≤ g.count + 1; omega⟩, by simp⟩
    intro hwon
    cases hplaying.symm.trans hwon
  | overshot =>
    refine ⟨⟨ht.range, ?_, by show 0 ≤ g.count + 1; omega⟩, by simp⟩
    intro hwon
    cases hwon
  | ticked hplaying =>
    refine ⟨⟨ht.range, ?_, hcount⟩, by simp⟩
    intro hwon
    cases hplaying.symm.trans hwon
  | timeout hplaying hseconds s verdict hverdict =>
    refine ⟨⟨ht.range, ?_, hcount⟩, by simp⟩
    intro hwon
    rcases hverdict with ⟨-, -, hreached⟩ | ⟨rfl, -, -⟩
    · exact hreached
    · cases hwon
  | succeeded hplaying hreached => exact ⟨⟨ht.range, fun _ => hreached, hcount⟩, by simp⟩

theorem Target.dialog_step {d d' : ButtonGame} (ht : Target d.engine) (hi : ButtonGame.Inv d)
    {e : ButtonGame.Event} (h : ButtonGame.step d e = some d') :
    Target d'.engine ∧ d'.engine.count ≤ d.engine.count + if e = .buttonPressed then 1 else 0 := by
  have hengine := ButtonGame.engine_step hi h
  cases e with
  | buttonPressed => exact ht.engine_step hi.engine hengine
  | countdownTick | successTimeout | restartTimeout =>
    obtain ⟨ht', hcount⟩ := ht.engine_step hi.engine hengine
    exact ⟨ht', by simpa using hcount⟩
  | acceptTimeout | closeEvent =>
    have hsame : d'.engine = d.engine := hengine
    rw [hsame]
    exact ⟨ht, by simp⟩

/-- The presses that the dismissed games took. -/
def total (dismissed : List Int) : Int := dismissed.foldr (· + ·) 0

/-- The count of the game that is on. -/
def count (s : ButtonAlarm) : Int := (s.dialog.map (·.engine.count)).getD 0

/-- What has been counted was delivered. -/
structure Inv (s : ButtonAlarm) : Prop where
  dialog : ∀ d, s.dialog = some d → ButtonGame.Inv d ∧ Target d.engine
  targets : ∀ t ∈ s.dismissed, GameEngine.TARGET_MIN ≤ t ∧ t ≤ GameEngine.TARGET_MAX
  paid : total s.dismissed + s.count ≤ s.driver.delivered

theorem inv_init : Inv {} := by
  refine ⟨?_, ?_, Int.le_refl 0⟩
  · intro d hd
    cases hd
  · intro t ht
    cases ht

variable {s s' : ButtonAlarm}

/-- One event of the open dialog. -/
theorem Inv.dialog_step (hi : Inv s) {d d' : ButtonGame} (hd : s.dialog = some d)
    {e : ButtonGame.Event} (h : ButtonGame.step d e = some d') (driver : ButtonDriver.State)
    (hdelivered : (s.driver.delivered : Int) + (if e = .buttonPressed then 1 else 0) ≤
      driver.delivered) :
    Inv { s with driver := driver, dialog := some d' } := by
  obtain ⟨hid, ht⟩ := hi.dialog d hd
  obtain ⟨ht', hcount⟩ := ht.dialog_step hid h
  refine ⟨?_, hi.targets, ?_⟩
  · intro d₁ hd₁
    obtain rfl := Option.some.inj hd₁
    exact ⟨ButtonGame.inv_step hid h, ht'⟩
  · have hpaid := hi.paid
    rw [count, hd] at hpaid
    show total s.dismissed + d'.engine.count ≤ driver.delivered
    have hpaid' : total s.dismissed + d.engine.count ≤ s.driver.delivered := hpaid
    omega

theorem delivered_step {s s' : ButtonDriver.State} {e : ButtonDriver.Event}
    (h : s.step e = some s') :
    s'.delivered = s.delivered + if e = .onButtonPressed then 1 else 0 := by
  cases ButtonDriver.State.step_cases h with
  | afterRead r =>
    obtain ⟨w, q, hframe⟩ := ButtonDriver.State.afterRead_frame s r
    rw [hframe]
    rfl
  | keyIsr | openDevice | read | test | signal | clear | copyToUser | device | eintr | stop
    | onButtonPressed => rfl

theorem inv_step (hi : Inv s) {e : Event} (h : step s e = some s') : Inv s' := by
  cases e with
  | driver e =>
    obtain ⟨driver, hdriver, hrest⟩ := Option.bind_eq_some_iff.mp h
    have hdelivered := delivered_step hdriver
    split_ifs at hrest with hpress
    · rw [if_pos hpress] at hdelivered
      rcases relay_cases hrest with ⟨-, rfl⟩ | ⟨d, d', hd, hstep, rfl⟩
      · have hpaid := hi.paid
        refine ⟨hi.dialog, hi.targets, ?_⟩
        show total s.dismissed + s.count ≤ driver.delivered
        omega
      · exact hi.dialog_step hd hstep driver (by rw [if_pos rfl]; omega)
    · rw [if_neg hpress] at hdelivered
      obtain rfl := Option.some.inj hrest
      refine ⟨hi.dialog, hi.targets, ?_⟩
      rw [hdelivered]
      exact hi.paid
  | updateCurrentTime target =>
    obtain ⟨⟨hnone, htarget⟩, rfl⟩ := Machine.guarded_eq_some h
    obtain ⟨hinv, hstarted⟩ := ButtonGame.inv_build htarget.1
    refine ⟨?_, hi.targets, ?_⟩
    · intro d hd
      obtain rfl := Option.some.inj hd
      exact ⟨hinv, .of_started hstarted htarget⟩
    · have hpaid := hi.paid
      rw [count, hnone] at hpaid
      show total s.dismissed + (ButtonGame.buildButtonUi target).engine.count ≤ _
      rw [hstarted.count]
      exact hpaid
  | dialog e =>
    rw [step] at h
    split_ifs at h with hpress
    obtain ⟨d, hd, hrest⟩ := Option.bind_eq_some_iff.mp h
    obtain ⟨d', hstep, rfl⟩ := Option.map_eq_some_iff.mp hrest
    exact hi.dialog_step hd hstep s.driver (by rw [if_neg hpress]; omega)
  | returned =>
    obtain ⟨d, hd, hrest⟩ := Option.bind_eq_some_iff.mp h
    obtain ⟨haccepted, rfl⟩ := Machine.guarded_eq_some hrest
    obtain ⟨hid, ht⟩ := hi.dialog d hd
    refine ⟨?_, ?_, ?_⟩
    · intro d₁ hd₁
      cases hd₁
    · intro t htail
      rcases List.mem_cons.mp htail with rfl | hold
      · exact ht.range
      · exact hi.targets t hold
    · have hpaid := hi.paid
      rw [count, hd] at hpaid
      have hpaid' : total s.dismissed + d.engine.count ≤ s.driver.delivered := hpaid
      have hwon := ht.won (hid.timed.success_of_accepted haccepted)
      show d.engine.targetCount + total s.dismissed + 0 ≤ s.driver.delivered
      omega

/-- What the driver and the watcher see of a run. -/
def driverEvent : Event → Option ButtonDriver.Event
  | .driver e => some e
  | .updateCurrentTime _ | .dialog _ | .returned => none

theorem relay_driver (h : relay s = some s') : s'.driver = s.driver := by
  rcases relay_cases h with ⟨-, rfl⟩ | ⟨d, d', -, -, rfl⟩
  · rfl
  · rfl

theorem driver_step {e : Event} (h : step s e = some s') :
    (driverEvent e).elim (s'.driver = s.driver) fun d => s.driver.step d = some s'.driver := by
  cases e with
  | driver e =>
    obtain ⟨driver, hdriver, hrest⟩ := Option.bind_eq_some_iff.mp h
    have hsame : s'.driver = driver := by
      split_ifs at hrest
      · exact relay_driver hrest
      · obtain rfl := Option.some.inj hrest
        rfl
    rw [driverEvent, Option.elim_some, hsame]
    exact hdriver
  | updateCurrentTime target =>
    obtain ⟨-, rfl⟩ := Machine.guarded_eq_some h
    rfl
  | dialog e =>
    rw [step] at h
    split_ifs at h
    obtain ⟨d, -, hrest⟩ := Option.bind_eq_some_iff.mp h
    obtain ⟨d', -, rfl⟩ := Option.map_eq_some_iff.mp hrest
    rfl
  | returned =>
    obtain ⟨d, -, hrest⟩ := Option.bind_eq_some_iff.mp h
    obtain ⟨-, rfl⟩ := Machine.guarded_eq_some hrest
    rfl

theorem driver_run {es : List Event} (h : Machine.run step s es = some s') :
    Machine.run ButtonDriver.State.step s.driver (es.filterMap driverEvent) = some s'.driver :=
  Machine.run_filterMap (f := driver) (fun _ _ _ hs => driver_step hs) h

theorem length_le_total {dismissed : List Int}
    (h : ∀ t ∈ dismissed, GameEngine.TARGET_MIN ≤ t ∧ t ≤ GameEngine.TARGET_MAX) :
    GameEngine.TARGET_MIN * dismissed.length ≤ total dismissed := by
  induction dismissed with
  | nil => exact Int.le_refl 0
  | cons t dismissed ih =>
    have hone := (h t List.mem_cons_self).1
    have hrest := ih fun t' ht' => h t' (List.mem_cons_of_mem t ht')
    show GameEngine.TARGET_MIN * ((dismissed.length + 1 : Nat) : Int) ≤ t + total dismissed
    rw [GameEngine.TARGET_MIN] at hone hrest ⊢
    omega

/-- **What the dismissals cost.** Over any number of button alarms, restarts of their games
    and other readers of the device, the presses that the dismissed games and the one that is
    on have counted are different key interrupts: thirty or more for each dismissal. -/
theorem dismissals_cost {es : List Event} (hrun : Machine.run step {} es = some s)
    (hfound : Machine.Along ButtonDriver.State.step (fun s e => s.invents e = false) {}
      (es.filterMap driverEvent)) :
    (∀ t ∈ s.dismissed, GameEngine.TARGET_MIN ≤ t ∧ t ≤ GameEngine.TARGET_MAX) ∧
      total s.dismissed + s.count ≤ s.driver.interrupts ∧
      GameEngine.TARGET_MIN * s.dismissed.length ≤ s.driver.interrupts := by
  have hi : Inv s := Machine.run_invariant (fun _ _ _ hs h => inv_step hs h) inv_init hrun
  have hdriver := driver_run hrun
  have hbooks := ButtonDriver.State.run_books hdriver
  have hcalls := ButtonDriver.State.run_calls hdriver
  rw [Machine.countRun_eq_zero_iff.mpr hfound] at hbooks
  simp only [ButtonDriver.State.accounted, ButtonDriver.State.calls] at hbooks hcalls
  have hpaid := hi.paid
  have hlength := length_le_total hi.targets
  have hcount : 0 ≤ s.count := by
    unfold count
    cases hd : s.dialog with
    | none => exact Int.le_refl 0
    | some d => exact (hi.dialog d hd).2.count
  exact ⟨hi.targets, by omega, by omega⟩

/-- A key press that the thread reads and the main thread delivers. -/
def press : List Event :=
  [.driver .keyIsr, .driver (.select .device), .driver (.test 0), .driver (.clear 0),
    .driver (.copyToUser 0 false), .driver .afterRead, .driver .onButtonPressed]

/-- One press before the alarm, which is lost, and thirty that dismiss it. -/
def oneAlarm : List Event :=
  press ++ .updateCurrentTime 30 :: (List.replicate 30 press).flatten ++
    [.dialog .successTimeout, .dialog .acceptTimeout, .returned]

theorem dismissals_cost_once :
    ∃ s, Machine.run step {} oneAlarm = some s ∧ s.dismissed = [30] ∧
      (∀ t ∈ s.dismissed, GameEngine.TARGET_MIN ≤ t ∧ t ≤ GameEngine.TARGET_MAX) ∧
      total s.dismissed + s.count ≤ s.driver.interrupts ∧
      GameEngine.TARGET_MIN * s.dismissed.length ≤ s.driver.interrupts := by
  have hrun : (Machine.run step {} oneAlarm).map (·.dismissed) = some [30] := by
    decide +kernel
  obtain ⟨s, hrun, hdismissed⟩ := Option.map_eq_some_iff.mp hrun
  refine ⟨s, hrun, hdismissed, dismissals_cost hrun ?_⟩
  refine Machine.countRun_eq_zero_iff.mp ?_
  decide +kernel

/-! ### Presses are enough -/

/-- Where the read of the watcher's thread stands: it asks for one byte. -/
def Asks : ButtonDriver.Pc → Prop
  | .user => True
  | .waiting rlen | .woken rlen | .cleared rlen => rlen = 1

/-- The watcher's thread asks for one byte, and gets it. -/
structure Watches (s : ButtonDriver.State) : Prop where
  place : s.WorkerInv
  asks : ∀ pc, s.processes[0]? = some pc → Asks pc
  gets : ∀ r, s.worker = .returned r → 0 < r

theorem watches_init : Watches {} := by
  refine ⟨ButtonDriver.State.workerInv_init, ?_, ?_⟩
  · intro pc hpc
    obtain rfl := Option.some.inj hpc
    trivial
  · intro r hr
    cases hr

/-- A process goes on, and the watcher's thread still asks for one byte. -/
theorem Watches.asks_move {s : ButtonDriver.State} (hw : Watches s) {p : Nat}
    {pc' : ButtonDriver.Pc} (hasks : p = 0 → Asks pc') :
    ∀ pc, (s.move p pc').processes[0]? = some pc → Asks pc := by
  intro pc hpc
  have hpc' : (s.processes.set p pc')[0]? = some pc := hpc
  rw [List.getElem?_set] at hpc'
  split_ifs at hpc' with hzero hlength
  · obtain rfl := Option.some.inj hpc'
    exact hasks hzero
  · exact hw.asks pc hpc'

theorem watches_step {s s' : ButtonDriver.State} (hw : Watches s) {e : ButtonDriver.Event}
    (h : s.step e = some s') : Watches s' := by
  obtain ⟨hplace, -⟩ := ButtonDriver.State.step_calls hw.place h
  cases ButtonDriver.State.step_cases h with
  | keyIsr => exact ⟨hplace, hw.asks, hw.gets⟩
  | openDevice =>
    refine ⟨hplace, ?_, hw.gets⟩
    intro pc hpc
    obtain ⟨pc₀, hpc₀, -⟩ := hw.place
    obtain ⟨hlength, -⟩ := List.getElem?_eq_some_iff.mp hpc₀
    exact hw.asks pc ((List.getElem?_append_left hlength).symm.trans hpc)
  | read p count hp => exact ⟨hplace, hw.asks_move fun hzero => absurd hzero hp, hw.gets⟩
  | test p rlen hwaiting =>
    refine ⟨hplace, hw.asks_move ?_, hw.gets⟩
    rintro rfl
    exact (hw.asks _ hwaiting : rlen = 1)
  | signal p rlen hwaiting =>
    refine ⟨hplace, hw.asks_move ?_, hw.gets⟩
    rintro rfl
    exact (hw.asks _ hwaiting : rlen = 1)
  | clear p rlen hwoken =>
    refine ⟨hplace, hw.asks_move ?_, hw.gets⟩
    rintro rfl
    exact (hw.asks _ hwoken : rlen = 1)
  | copyToUser p rlen fault r hcleared hfault hr =>
    refine ⟨hplace, hw.asks_move fun _ => trivial, ?_⟩
    intro r' hr'
    by_cases hp : p = 0
    · subst hp
      obtain rfl : r = r' := ButtonDriver.Worker.returned.inj hr'
      have hone : rlen = 1 := hw.asks _ hcleared
      exact hr.mpr ⟨by omega, hfault rfl⟩
    · rw [if_neg hp] at hr'
      exact hw.gets r' hr'
  | device hselecting =>
    refine ⟨hplace, ?_, ?_⟩
    · exact Watches.asks_move ⟨hw.place, hw.asks, hw.gets⟩ fun _ => rfl
    · intro r hr
      cases hr
  | eintr => exact hw
  | stop =>
    refine ⟨hplace, hw.asks, ?_⟩
    intro r hr
    cases hr
  | afterRead r hreturned =>
    obtain ⟨w, q, hframe⟩ := ButtonDriver.State.afterRead_frame s r
    refine ⟨hplace, ?_, ?_⟩
    · rw [hframe]
      exact hw.asks
    · intro r' hr'
      rw [ButtonDriver.State.afterRead, if_pos (hw.gets r hreturned)] at hr'
      cases hr'
  | onButtonPressed => exact ⟨hplace, hw.asks, hw.gets⟩

/-- The steps of a press on its way: the interrupt, and the thread that reads it. -/
def OnTheWay (e : ButtonDriver.Event) : Prop :=
  e = .keyIsr ∨ e = .select .device ∨ e = .test 0 ∨ e = .clear 0 ∨ e = .copyToUser 0 false ∨
    e = .afterRead

/-- A press can be brought into the queue of the main thread. -/
def Brings (s : ButtonDriver.State) : Prop :=
  ∃ s', Machine.Leads ButtonDriver.State.step OnTheWay s s' ∧ s'.worker ≠ .stopped ∧
    0 < s'.queued

theorem Brings.of_step {s s' : ButtonDriver.State} {e : ButtonDriver.Event} (he : OnTheWay e)
    (h : s.step e = some s') (hbrings : Brings s') : Brings s := by
  obtain ⟨t, hleads, hend⟩ := hbrings
  exact ⟨t, (Machine.Leads.one he h).trans hleads, hend⟩

/-- The thread is about to emit the signal. -/
theorem brings_returned {s : ButtonDriver.State} {r : Int} (hreturned : s.worker = .returned r)
    (hr : 0 < r) : Brings s := by
  have hstep : s.step .afterRead =
      some { s with worker := .selecting, queued := s.queued + 1 } := by
    simp [ButtonDriver.State.step, ButtonDriver.State.afterRead, hreturned, hr]
  exact ⟨_, .one (by simp [OnTheWay]) hstep, by simp, Nat.succ_pos _⟩

theorem brings_cleared {s : ButtonDriver.State} (h : s.processes[0]? = some (.cleared 1)) :
    Brings s := by
  have hstep : s.step (.copyToUser 0 false) =
      some { s.move 0 .user with returns := 1 :: s.returns, worker := .returned 1 } := by
    simp [ButtonDriver.State.step, ButtonDriver.State.leave, h]
  exact .of_step (by simp [OnTheWay]) hstep (brings_returned rfl (by decide))

theorem brings_woken {s : ButtonDriver.State} (h : s.processes[0]? = some (.woken 1)) :
    Brings s := by
  obtain ⟨hlength, -⟩ := List.getElem?_eq_some_iff.mp h
  have hstep : s.step (.clear 0) = some { s.move 0 (.cleared 1) with pressed := false } := by
    simp [ButtonDriver.State.step, h]
  exact .of_step (by simp [OnTheWay]) hstep (brings_cleared (List.getElem?_set_self hlength))

/-- The thread waits: the key is pressed. -/
theorem brings_waiting {s : ButtonDriver.State} (h : s.processes[0]? = some (.waiting 1)) :
    Brings s := by
  obtain ⟨hlength, -⟩ := List.getElem?_eq_some_iff.mp h
  let t : ButtonDriver.State := { s with pressed := true, interrupts := s.interrupts + 1 }
  have hpress : s.step .keyIsr = some t := rfl
  have hstep : t.step (.test 0) = some (t.move 0 (.woken 1)) := by
    simp [ButtonDriver.State.step, t, h]
  have hwoken : (t.move 0 (.woken 1)).processes[0]? = some (.woken 1) :=
    List.getElem?_set_self hlength
  exact .of_step (by simp [OnTheWay]) hpress
    (.of_step (by simp [OnTheWay]) hstep (brings_woken hwoken))

/-- **A key press arrives**, wherever the thread stands. -/
theorem brings_of_watches {s : ButtonDriver.State} (hw : Watches s)
    (halive : s.worker ≠ .stopped) : Brings s := by
  obtain ⟨pc, hpc, hreading⟩ := hw.place
  have hasks := hw.asks pc hpc
  cases hworker : s.worker with
  | stopped => exact absurd hworker halive
  | returned r => exact brings_returned hworker (hw.gets r hworker)
  | selecting =>
    have huser := ButtonDriver.State.user_of_returned hw.place (by simp [hworker])
    obtain ⟨hlength, -⟩ := List.getElem?_eq_some_iff.mp huser
    have hstep : s.step (.select .device) =
        some (({ s with worker := .reading } : ButtonDriver.State).move 0 (.waiting 1)) := by
      simp [ButtonDriver.State.step, ButtonDriver.State.selected, ButtonDriver.State.enter,
        hworker, huser]
    exact .of_step (by simp [OnTheWay]) hstep
      (brings_waiting (List.getElem?_set_self hlength))
  | reading =>
    cases pc with
    | user => exact absurd rfl (hreading.mp hworker)
    | waiting rlen =>
      obtain rfl : rlen = 1 := hasks
      exact brings_waiting hpc
    | woken rlen =>
      obtain rfl : rlen = 1 := hasks
      exact brings_woken hpc
    | cleared rlen =>
      obtain rfl : rlen = 1 := hasks
      exact brings_cleared hpc

/-- Keys are pressed, the thread reads them, the main thread delivers them, and the timers of
    the dialog do the rest: no signal and no other reader has a part in it, and nobody tries to
    close the dialog. -/
def Ordinary : Event → Prop
  | .driver e => OnTheWay e ∨ e = .onButtonPressed
  | .dialog e => e ≠ .closeEvent
  | .returned => True
  | .updateCurrentTime _ => False

/-- The dialog that is open, with a thread that watches the button. -/
structure Open (dismissed : List Int) (s : ButtonAlarm) (d : ButtonGame) : Prop where
  dialog : s.dialog = some d
  inv : Inv s
  watches : Watches s.driver
  alive : s.driver.worker ≠ .stopped
  dismissed : s.dismissed = dismissed

/-- Events of the driver alone leave the dialog as it is. -/
theorem leads_driver {s : ButtonAlarm} {driver : ButtonDriver.State}
    (h : Machine.Leads ButtonDriver.State.step OnTheWay s.driver driver) :
    Machine.Leads step Ordinary s { s with driver := driver } := by
  have hlift : ∃ s', Machine.Leads step Ordinary s s' ∧ s' = { s with driver := driver } := by
    refine Machine.leads_lift (R := fun s' driver => s' = { s with driver := driver }) ?_ rfl h
    rintro _ t e t' he rfl hstep
    have hordinary : Ordinary (.driver e) := .inl he
    refine ⟨{ s with driver := t' }, .one hordinary ?_, rfl⟩
    have hnot : e ≠ .onButtonPressed := by
      rintro rfl
      simp [OnTheWay] at he
    show ((t.step e).bind fun driver => _) = _
    rw [hstep, Option.bind_some, if_neg hnot]
  obtain ⟨_, hleads, rfl⟩ := hlift
  exact hleads

/-- One event of the dialog; a press comes all the way from the key. -/
theorem leads_dialog {dismissed : List Int} {s : ButtonAlarm} {d d' : ButtonGame}
    (ho : Open dismissed s d) {e : ButtonGame.Event} (hne : e ≠ .closeEvent)
    (h : ButtonGame.step d e = some d') :
    ∃ s', Machine.Leads step Ordinary s s' ∧ Open dismissed s' d' := by
  have hopen : ∀ (driver : ButtonDriver.State) (s' : ButtonAlarm),
      Machine.Leads step Ordinary s s' → s' = { s with driver := driver, dialog := some d' } →
      Watches driver → driver.worker ≠ .stopped → Open dismissed s' d' := by
    rintro driver _ hleads rfl hwatches halive
    exact ⟨rfl, hleads.invariant (fun _ _ _ hs hstep => inv_step hs hstep) ho.inv, hwatches,
      halive, ho.dismissed⟩
  by_cases hpress : e = .buttonPressed
  · subst hpress
    obtain ⟨driver, hbrought, halive, hqueued⟩ := brings_of_watches ho.watches ho.alive
    have hwatches : Watches driver :=
      hbrought.invariant (fun _ _ _ hs hstep => watches_step hs hstep) ho.watches
    let driver' : ButtonDriver.State := { driver with
      queued := driver.queued - 1
      delivered := driver.delivered + 1 }
    have hdelivered : driver.step .onButtonPressed = some driver' := if_pos hqueued
    have hstep : step { s with driver := driver } (.driver .onButtonPressed) =
        some { s with driver := driver', dialog := some d' } := by
      simp [step, hdelivered, relay, ho.dialog, h]
    have hordinary : Ordinary (.driver .onButtonPressed) := .inr rfl
    have hleads := (leads_driver hbrought).trans (.one hordinary hstep)
    exact ⟨_, hleads, hopen driver' _ hleads rfl (watches_step hwatches hdelivered) halive⟩
  · have hstep : step s (.dialog e) = some { s with dialog := some d' } := by
      simp [step, hpress, ho.dialog, h]
    have hordinary : Ordinary (.dialog e) := hne
    have hleads := Machine.Leads.one hordinary hstep
    exact ⟨_, hleads, hopen s.driver _ hleads rfl ho.watches ho.alive⟩

/-- **Presses dismiss a button alarm.** Whatever has happened to the driver, its other readers
    and the game, while the watcher's thread is alive an open dialog can be dismissed by key
    presses and its own timers alone. -/
theorem button_alarm_can_end {es : List Event} (hrun : Machine.run step {} es = some s)
    {d : ButtonGame} (hdialog : s.dialog = some d) (halive : s.driver.worker ≠ .stopped) :
    ∃ s' target, Machine.Leads step Ordinary s s' ∧ s'.dialog = none ∧
      s'.dismissed = target :: s.dismissed := by
  have hi : Inv s := Machine.run_invariant (fun _ _ _ hs h => inv_step hs h) inv_init hrun
  have hwatches : Watches s.driver :=
    Machine.run_invariant (fun _ _ _ hs h => watches_step hs h) watches_init (driver_run hrun)
  obtain ⟨d', hgame, haccepted⟩ := (hi.dialog d hdialog).1.leads_accepted
  obtain ⟨t, hleads, ho⟩ := Machine.leads_lift (R := Open s.dismissed)
    (fun _ _ _ _ hne ho hstep => leads_dialog ho hne hstep)
    ⟨hdialog, hi, hwatches, halive, rfl⟩ hgame
  have hreturned : step t .returned = some { t with
      dialog := none
      dismissed := d'.engine.targetCount :: t.dismissed } := by
    simp [step, ho.dialog, haccepted]
  have hordinary : Ordinary .returned := trivial
  refine ⟨_, d'.engine.targetCount, hleads.trans (.one hordinary hreturned), rfl, ?_⟩
  rw [ho.dismissed]

/-- The alarm rings while the thread is in its read. -/
theorem button_alarm_can_end_waiting :
    ∃ s, Machine.run step {} [.driver (.select .device), .updateCurrentTime 30] = some s ∧
      ∃ s' target, Machine.Leads step Ordinary s s' ∧ s'.dialog = none ∧
        s'.dismissed = target :: s.dismissed := by
  have hrun : Machine.run step {} [.driver (.select .device), .updateCurrentTime 30] = some
      { driver := { processes := [.waiting 1], worker := .reading }
        dialog := some (ButtonGame.buildButtonUi 30) } := by
    decide +kernel
  exact ⟨_, hrun, button_alarm_can_end hrun rfl (by simp)⟩

end ButtonAlarm

end AlarmClock
