import AlarmClock.AlarmServer
import AlarmClock.Lib.Machine

/-!
# Fetching from a friend

`fetchFromFriend` and the copy of it in `connectAndShow` wait twice in a nested event loop:
for the connection, and for the server to close after its payload. There is no length in
the protocol. Bytes reach the result from a `readyRead` handler and from two direct calls
of `readAll`; between the loops nothing is delivered. The environment decides how the
payload is cut into segments and when they, the close and the timer come.
-/

namespace AlarmClock

namespace Fetch

/-! ### The socket, the loops and the two functions -/

inductive Caller where
  | fetchFromFriend
  | connectAndShow
deriving DecidableEq, Repr

/-- Which `loop.exec()` runs. -/
inductive Phase where
  | connecting
  | reading
  | done
deriving DecidableEq, Repr

inductive SocketState where
  | unconnected
  | connecting
  | connected
deriving DecidableEq, Repr

/-- `wire` is what of the payload has not arrived, `arrived` counts the bytes that have, and
    `buffer` holds those that nobody has read. -/
structure State where
  phase : Phase := .connecting
  ok : Bool := false
  quit : Bool := false
  timer : Bool := true
  handler : Bool := false
  socket : SocketState := .connecting
  wire : QByteArray
  arrived : Nat := 0
  buffer : QByteArray := []
  data : QByteArray := []
deriving DecidableEq, Repr

/-- What the event loop delivers. A loop that was told to quit may deliver more before it
    is left. -/
inductive Event where
  | connected
  | refused
  | arrive (n : Nat)
  | disconnected
  | timeout
  | leave
deriving DecidableEq, Repr

namespace State

/-- `data += sock.readAll()`. -/
def readAll (s : State) : State := { s with data := s.data ++ s.buffer, buffer := [] }

def connectReadyRead (s : State) : State := { s with handler := true }

def startTimer (s : State) : State := { s with timer := true }

def stopTimer (s : State) : State := { s with timer := false }

def exec (s : State) : State := { s with phase := .reading, quit := false }

def finish (s : State) : State := { s with phase := .done }

/-- From the end of the second wait to the return. -/
def afterReading (s : State) : State := s.stopTimer.readAll.finish

/-- From the end of the first wait to the start of the second, or to the return. -/
def afterConnecting (s : State) (c : Caller) : State :=
  let s := s.stopTimer
  if s.ok then
    let s :=
      match c with
      | .fetchFromFriend => s.connectReadyRead.readAll.startTimer
      | .connectAndShow => s.connectReadyRead.startTimer.readAll
    if s.socket ≠ .unconnected then s.exec else s.afterReading
  else s.finish

def onReadyRead (s : State) : State := if s.handler then s.readAll else s

/-- The end of the stream comes behind its last byte. -/
def deliver (s : State) (c : Caller) : Event → Option State
  | .connected =>
    if s.socket = .connecting then
      some { s with socket := .connected, ok := true, quit := true }
    else none
  | .refused =>
    if s.socket = .connecting then some { s with socket := .unconnected } else none
  | .arrive n =>
    if s.socket = .connected ∧ 0 < n ∧ n ≤ s.wire.length then
      some { s with
        wire := s.wire.drop n
        arrived := s.arrived + n
        buffer := s.buffer ++ s.wire.take n }.onReadyRead
    else none
  | .disconnected =>
    if s.socket = .connected ∧ s.wire = [] then
      some { s with socket := .unconnected, quit := true }
    else none
  | .timeout => if s.timer then some { s with timer := false, quit := true } else none
  | .leave =>
    if s.quit then
      match s.phase with
      | .connecting => some (s.afterConnecting c)
      | .reading => some s.afterReading
      | .done => none
    else none

def step (c : Caller) (s : State) (e : Event) : Option State :=
  if s.phase = .done then none else s.deliver c e

/-- What `fetchFromFriend` returns. -/
def fetchFromFriend (s : State) : Option QByteArray :=
  if s.phase = .done then some s.data else none

end State

/-- What `connectAndShow` ends in: one of two alerts, or the dialog. -/
inductive Shown where
  | cannotConnect
  | noData
  | stats (logData : QByteArray)
deriving DecidableEq, Repr

def State.connectAndShow (s : State) : Option Shown :=
  if s.phase = .done then
    some (if !s.ok then .cannotConnect else if s.data.isEmpty then .noData else .stats s.data)
  else none

namespace State

/-! ### The bytes on their way -/

/-- Every byte of the payload is in one place, in order, and each loop has a way out. -/
structure Inv (payload : QByteArray) (s : State) : Prop where
  whole : s.data ++ s.buffer ++ s.wire = payload
  arrived : s.arrived = (s.data ++ s.buffer).length
  exit : s.phase ≠ .done → s.timer = true ∨ s.quit = true
  early : s.socket = .connecting → s.ok = false
  opened : s.socket = .connected → s.ok = true
  unread : s.ok = false ∨ s.phase = .done → s.buffer = []
  failed : s.ok = false → s.data = []
  handled : s.phase = .connecting → s.handler = false ∧ s.data = []
  closed : s.phase = .connecting → s.ok = true → s.socket = .unconnected → s.wire = []

theorem inv_start (payload : QByteArray) : Inv payload { wire := payload } where
  whole := rfl
  arrived := rfl
  exit := fun _ => .inl rfl
  early := fun _ => rfl
  opened := nofun
  unread := fun _ => rfl
  failed := fun _ => rfl
  handled := fun _ => ⟨rfl, rfl⟩
  closed := nofun

/-- What the two functions gather between the loops, in whichever order they start the
    timer. -/
theorem afterConnecting_eq (s : State) (c : Caller) :
    s.afterConnecting c =
      if s.ok then
        if s.socket ≠ .unconnected then s.connectReadyRead.startTimer.exec.readAll
        else s.connectReadyRead.afterReading
      else s.stopTimer.finish := by
  cases c <;> simp [afterConnecting, stopTimer, connectReadyRead, readAll, startTimer, exec,
    afterReading]

theorem Inv.arrive {payload : QByteArray} {s : State} (hi : Inv payload s)
    (hopen : s.socket = .connected) (hphase : s.phase ≠ .done) (n : Nat)
    (hn : n ≤ s.wire.length) :
    Inv payload { s with
      wire := s.wire.drop n
      arrived := s.arrived + n
      buffer := s.buffer ++ s.wire.take n } where
  whole := by
    rw [← List.append_assoc, List.append_assoc _ (s.wire.take n), List.take_append_drop]
    exact hi.whole
  arrived := by
    have hlen := hi.arrived
    simp only [List.length_append, List.length_take, Nat.min_eq_left hn] at hlen ⊢
    omega
  exit := hi.exit
  early := hi.early
  opened := hi.opened
  unread := by
    rintro (hok | hdone)
    · cases (hi.opened hopen).symm.trans hok
    · exact absurd hdone hphase
  failed := hi.failed
  handled := hi.handled
  closed := by
    intro _ _ hclosed
    cases hopen.symm.trans hclosed

theorem Inv.readAll {payload : QByteArray} {s : State} (hi : Inv payload s)
    (hphase : s.phase = .connecting → s.handler = false → s.buffer = []) :
    Inv payload s.readAll where
  whole := by simpa only [State.readAll, List.append_nil] using hi.whole
  arrived := by simpa only [State.readAll, List.append_nil] using hi.arrived
  exit := hi.exit
  early := hi.early
  opened := hi.opened
  unread := fun _ => rfl
  failed := by
    intro hfailed
    simp only [State.readAll, hi.failed hfailed, hi.unread (.inl hfailed), List.append_nil]
  handled := by
    intro hconnecting
    obtain ⟨hhandler, hdata⟩ := hi.handled hconnecting
    refine ⟨hhandler, ?_⟩
    simp only [State.readAll, hdata, hphase hconnecting hhandler, List.append_nil]
  closed := hi.closed

theorem Inv.onReadyRead {payload : QByteArray} {s : State} (hi : Inv payload s) :
    Inv payload s.onReadyRead := by
  unfold State.onReadyRead
  split
  · next hhandler =>
    apply hi.readAll
    intro _ hnone
    cases hhandler.symm.trans hnone
  · exact hi

/-- At the return the socket holds nothing, whether or not the handler was connected. -/
theorem Inv.afterReading {payload : QByteArray} {s : State} (hi : Inv payload s) (h : Bool) :
    Inv payload { s with handler := h }.afterReading where
  whole := by
    show (s.data ++ s.buffer) ++ [] ++ s.wire = payload
    rw [List.append_nil]
    exact hi.whole
  arrived := by
    show s.arrived = ((s.data ++ s.buffer) ++ []).length
    rw [List.append_nil]
    exact hi.arrived
  exit := fun hphase => absurd rfl hphase
  early := hi.early
  opened := hi.opened
  unread := fun _ => rfl
  failed := by
    intro hfailed
    show (s.data ++ s.buffer) = []
    rw [hi.failed hfailed, hi.unread (.inl hfailed), List.append_nil]
  handled := nofun
  closed := nofun

theorem Inv.giveUp {payload : QByteArray} {s : State} (hi : Inv payload s) (hok : s.ok = false) :
    Inv payload s.stopTimer.finish where
  whole := hi.whole
  arrived := hi.arrived
  exit := fun hphase => absurd rfl hphase
  early := hi.early
  opened := hi.opened
  unread := fun _ => hi.unread (.inl hok)
  failed := hi.failed
  handled := nofun
  closed := nofun

theorem Inv.exec {payload : QByteArray} {s : State} (hi : Inv payload s) (hok : s.ok = true) :
    Inv payload s.connectReadyRead.startTimer.exec where
  whole := hi.whole
  arrived := hi.arrived
  exit := fun _ => .inl rfl
  early := hi.early
  opened := hi.opened
  unread := by
    rintro (hfailed | hdone)
    · cases hok.symm.trans hfailed
    · cases hdone
  failed := hi.failed
  handled := nofun
  closed := nofun

theorem Inv.afterConnecting {payload : QByteArray} {s : State} (hi : Inv payload s)
    (c : Caller) : Inv payload (s.afterConnecting c) := by
  rw [afterConnecting_eq]
  split_ifs with hok hopen
  · exact (hi.exec hok).readAll nofun
  · exact hi.afterReading true
  · exact hi.giveUp (Bool.eq_false_iff.mpr hok)

/-- Every event, with what it finds and what it leaves. -/
inductive StepTo (c : Caller) (s : State) : Event → State → Prop where
  | connected (hconnecting : s.socket = .connecting) :
      StepTo c s .connected { s with socket := .connected, ok := true, quit := true }
  | refused (hconnecting : s.socket = .connecting) :
      StepTo c s .refused { s with socket := .unconnected }
  | arrive (n : Nat) (hopen : s.socket = .connected) (hn : n ≤ s.wire.length) :
      StepTo c s (.arrive n) { s with
        wire := s.wire.drop n
        arrived := s.arrived + n
        buffer := s.buffer ++ s.wire.take n }.onReadyRead
  | disconnected (hwire : s.wire = []) :
      StepTo c s .disconnected { s with socket := .unconnected, quit := true }
  | timeout : StepTo c s .timeout { s with timer := false, quit := true }
  | connecting (hconnecting : s.phase = .connecting) : StepTo c s .leave (s.afterConnecting c)
  | reading (hreading : s.phase = .reading) : StepTo c s .leave s.afterReading

theorem step_cases {c : Caller} {s s' : State} {e : Event} (h : step c s e = some s') :
    s.phase ≠ .done ∧ StepTo c s e s' := by
  unfold step at h
  split at h
  · cases h
  · next hphase =>
    refine ⟨hphase, ?_⟩
    cases e with
    | connected =>
      simp only [deliver] at h
      split at h
      · next hconnecting =>
        obtain rfl := Option.some.inj h
        exact .connected hconnecting
      · cases h
    | refused =>
      simp only [deliver] at h
      split at h
      · next hconnecting =>
        obtain rfl := Option.some.inj h
        exact .refused hconnecting
      · cases h
    | arrive n =>
      simp only [deliver] at h
      split at h
      · next hn =>
        obtain rfl := Option.some.inj h
        exact .arrive n hn.1 hn.2.2
      · cases h
    | disconnected =>
      simp only [deliver] at h
      split at h
      · next hend =>
        obtain rfl := Option.some.inj h
        exact .disconnected hend.2
      · cases h
    | timeout =>
      simp only [deliver] at h
      split at h
      · obtain rfl := Option.some.inj h
        exact .timeout
      · cases h
    | leave =>
      simp only [deliver] at h
      split at h
      · split at h
        · next hconnecting =>
          obtain rfl := Option.some.inj h
          exact .connecting hconnecting
        · next hreading =>
          obtain rfl := Option.some.inj h
          exact .reading hreading
        · cases h
      · cases h

theorem inv_step {c : Caller} {payload : QByteArray} {s s' : State} {e : Event}
    (hi : Inv payload s) (h : step c s e = some s') : Inv payload s' := by
  obtain ⟨hphase, hs⟩ := step_cases h
  cases hs with
  | connected hconnecting =>
    exact { hi with
      exit := fun _ => .inr rfl
      early := nofun
      opened := fun _ => rfl
      unread := fun _ => hi.unread (.inl (hi.early hconnecting))
      failed := nofun
      closed := nofun }
  | refused hconnecting =>
    exact { hi with
      early := nofun
      opened := nofun
      closed := fun _ hok _ => by cases hok.symm.trans (hi.early hconnecting) }
  | arrive n hopen hn => exact (hi.arrive hopen hphase n hn).onReadyRead
  | disconnected hwire =>
    exact { hi with
      exit := fun _ => .inr rfl
      early := nofun
      opened := nofun
      closed := fun _ _ _ => hwire }
  | timeout => exact { hi with exit := fun _ => .inr rfl }
  | connecting hconnecting => exact hi.afterConnecting c
  | reading hreading => exact hi.afterReading s.handler

/-! ### All or nothing -/

/-- The second wait is left after a first byte and before the last. Only the timer ends it
    then. -/
def CutsShort (s : State) (e : Event) : Prop :=
  e = .leave ∧ s.phase = .reading ∧ 0 < s.arrived ∧ s.wire ≠ []

instance (s : State) (e : Event) : Decidable (s.CutsShort e) := by
  unfold CutsShort
  infer_instance

theorem phase_onReadyRead (s : State) : s.onReadyRead.phase = s.phase := by
  unfold onReadyRead
  split
  · rfl
  · rfl

/-- Only leaving a loop ends the call. -/
theorem returns_of_step {c : Caller} {s s' : State} {e : Event} (h : step c s e = some s')
    (hdone : s'.phase = .done) :
    e = .leave ∧ (s.phase = .connecting ∧ s' = s.afterConnecting c ∨
      s.phase = .reading ∧ s' = s.afterReading) := by
  obtain ⟨hphase, hs⟩ := step_cases h
  cases hs with
  | arrive n hopen hn =>
    rw [phase_onReadyRead] at hdone
    exact absurd hdone hphase
  | connecting hconnecting => exact ⟨rfl, .inl ⟨hconnecting, rfl⟩⟩
  | reading hreading => exact ⟨rfl, .inr ⟨hreading, rfl⟩⟩
  | connected | refused | disconnected | timeout => exact absurd hdone hphase

/-- What has been gathered when a loop is left is all of it when nothing is on the wire, and
    nothing when nothing has arrived. -/
theorem Inv.gathered_iff {payload : QByteArray} {s : State} (hi : Inv payload s) :
    (s.data ++ s.buffer = [] ∨ s.data ++ s.buffer = payload) ↔
      ¬ (0 < s.arrived ∧ s.wire ≠ []) := by
  have hwhole := hi.whole
  rw [hi.arrived, not_and_or, Nat.not_lt, Nat.le_zero, List.length_eq_zero_iff, not_not]
  apply or_congr Iff.rfl
  rw [← hwhole]
  exact List.self_eq_append_right

/-- **The return.** What a call returns is whole or empty exactly when its last step does not
    cut the payload short. -/
theorem Inv.returned_iff {c : Caller} {payload : QByteArray} {s s' : State} {e : Event}
    (hi : Inv payload s) (h : step c s e = some s') (hdone : s'.phase = .done) :
    (s'.data = [] ∨ s'.data = payload) ↔ ¬ s.CutsShort e := by
  obtain ⟨rfl, ⟨hconnecting, rfl⟩ | ⟨hreading, rfl⟩⟩ := returns_of_step h hdone
  · have hgathered : s.data = [] := (hi.handled hconnecting).2
    have huncut : ¬ s.CutsShort .leave := by
      rintro ⟨-, hreading, -⟩
      cases hconnecting.symm.trans hreading
    refine iff_of_true ?_ huncut
    rw [afterConnecting_eq] at hdone ⊢
    split_ifs at hdone ⊢ with hok hopen
    · cases hdone
    · have hunconnected : s.socket = .unconnected := not_not.mp hopen
      have hwire := hi.closed hconnecting hok hunconnected
      have hwhole := hi.whole
      rw [hwire, List.append_nil] at hwhole
      exact .inr hwhole
    · exact .inl hgathered
  · rw [show s.afterReading.data = s.data ++ s.buffer from rfl, hi.gathered_iff]
    simp only [CutsShort, hreading, true_and]

/-- A second wait that is left ends the call. -/
theorem CutsShort.done {c : Caller} {s s' : State} {e : Event} (hcut : s.CutsShort e)
    (h : step c s e = some s') : s'.phase = .done := by
  obtain ⟨rfl, hreading, -⟩ := hcut
  cases (step_cases h).2 with
  | connecting hconnecting => cases hconnecting.symm.trans hreading
  | reading => rfl

/-- Each wait is left at the latest after the timer. -/
theorem Inv.leaves {payload : QByteArray} {s : State} (hi : Inv payload s) (c : Caller)
    (hphase : s.phase ≠ .done) :
    ∃ es s', Machine.run (step c) s es = some s' ∧
      (s'.phase = .done ∨ s.phase = .connecting ∧ s'.phase = .reading) := by
  have hleave : ∀ t : State, t.phase = s.phase → t.quit = true →
      ∃ s', step c t .leave = some s' ∧
        (s'.phase = .done ∨ s.phase = .connecting ∧ s'.phase = .reading) := by
    intro t htphase hquit
    rw [← htphase] at hphase ⊢
    simp only [step, if_neg hphase, deliver, hquit, if_true]
    cases ht : t.phase with
    | connecting =>
      refine ⟨_, rfl, ?_⟩
      rw [afterConnecting_eq]
      split_ifs
      · exact .inr ⟨rfl, rfl⟩
      · exact .inl rfl
      · exact .inl rfl
    | reading => exact ⟨_, rfl, .inl rfl⟩
    | done => exact absurd ht hphase
  cases hquit : s.quit with
  | true =>
    obtain ⟨s', hs', hend⟩ := hleave s rfl hquit
    exact ⟨[.leave], s', (Machine.run_singleton s Event.leave).trans hs', hend⟩
  | false =>
    have htimer : s.timer = true := (hi.exit hphase).resolve_right (by simp [hquit])
    obtain ⟨s', hs', hend⟩ := hleave { s with timer := false, quit := true } rfl rfl
    refine ⟨[.timeout, .leave], s', ?_, hend⟩
    refine Machine.run_cons_eq_some.mpr ⟨_, ?_, (Machine.run_singleton _ Event.leave).trans hs'⟩
    simp only [step, if_neg hphase, deliver, htimer, if_true]

/-- **The call ends.** From every state of a run it can still return. -/
theorem Inv.returns {payload : QByteArray} {s : State} (hi : Inv payload s) (c : Caller) :
    ∃ es s', Machine.run (step c) s es = some s' ∧ s'.phase = .done := by
  by_cases hphase : s.phase = .done
  · exact ⟨[], s, rfl, hphase⟩
  · obtain ⟨es, s', hrun, hend | ⟨-, hreading⟩⟩ := hi.leaves c hphase
    · exact ⟨es, s', hrun, hend⟩
    · have hi' : Inv payload s' :=
        Machine.run_invariant (fun _ _ _ hi hs => inv_step hi hs) hi hrun
      obtain ⟨es', s'', hrun', hend | ⟨hconnecting, -⟩⟩ := hi'.leaves c (by simp [hreading])
      · exact ⟨es ++ es', s'', Machine.run_append_eq_some.mpr ⟨s', hrun, hrun'⟩, hend⟩
      · cases hreading.symm.trans hconnecting

/-- The return over a run. -/
theorem returned_run {c : Caller} {payload : QByteArray} {es : List Event} {s : State}
    (hrun : Machine.run (step c) { wire := payload } es = some s) (hdone : s.phase = .done) :
    (s.data = [] ∨ s.data = payload) ↔
      Machine.Along (step c) (fun s e => ¬ s.CutsShort e) { wire := payload } es := by
  constructor
  · intro hwhole
    have hor := Machine.along_or (I := Inv payload)
      (L := fun s => s.phase = .done ∧ ¬ (s.data = [] ∨ s.data = payload))
      (Q := fun s e => ¬ s.CutsShort e) (fun _ _ _ hi hs => inv_step hi hs) ?_ ?_
      (inv_start payload) hrun
    · rcases hor with halong | ⟨-, hcut⟩
      · exact halong
      · exact absurd hwhole hcut
    · intro s e s' hi hcut hs
      have hend := (not_not.mp hcut).done hs
      exact ⟨hend, fun hgood => hcut ((hi.returned_iff hs hend).mp hgood)⟩
    · intro s e s' _ hend hs
      simp only [step, hend.1, if_true] at hs
      cases hs
  · intro halong
    have hinv := Machine.run_invariant_along
      (I := fun s => Inv payload s ∧ (s.phase = .done → s.data = [] ∨ s.data = payload))
      (fun s e s' hi hcut hs =>
        ⟨inv_step hi.1 hs, fun hend => (hi.1.returned_iff hs hend).mpr hcut⟩)
      ⟨inv_start payload, nofun⟩ halong hrun
    exact hinv.2 hdone

end State

open State

/-- **A friend fetch.** However the payload is cut and whenever it, the close and the timer
    come, the bytes returned and the bytes on the way are the payload, in order. What is
    returned is empty or whole, and what the dialog shows is whole, exactly when the second
    wait is never left between the first byte and the last. -/
theorem fetch_iff {c : Caller} {payload : QByteArray} {es : List Event} {s : State}
    (hrun : Machine.run (step c) { wire := payload } es = some s) (hdone : s.phase = .done) :
    s.data ++ s.wire = payload ∧
    ((∀ data, s.fetchFromFriend = some data → data = [] ∨ data = payload) ↔
      Machine.Along (step c) (fun s e => ¬ s.CutsShort e) { wire := payload } es) ∧
    ((∀ data, s.connectAndShow = some (.stats data) → data = payload) ↔
      Machine.Along (step c) (fun s e => ¬ s.CutsShort e) { wire := payload } es) := by
  have hi : Inv payload s :=
    Machine.run_invariant (fun _ _ _ hi hs => inv_step hi hs) (inv_start payload) hrun
  rw [← returned_run hrun hdone]
  refine ⟨?_, ?_, ?_⟩
  · have hwhole := hi.whole
    rwa [hi.unread (.inr hdone), List.append_nil] at hwhole
  · simp only [fetchFromFriend, hdone, if_true, Option.some.injEq, forall_eq']
  · simp only [connectAndShow, hdone, if_true, Option.some.injEq]
    cases hok : s.ok with
    | false => simp [hi.failed hok]
    | true =>
      rcases List.eq_nil_or_concat s.data with hempty | ⟨_, _, hsome⟩
      · simp [hempty]
      · simp [hsome]

/-- A first byte before the second loop starts, the rest in one segment, and the close. -/
theorem fetch_iff_twoSegments :
    ∃ s, Machine.run (step .fetchFromFriend) { wire := [1, 2, 3] }
      [.connected, .arrive 1, .leave, .arrive 2, .disconnected, .leave] = some s ∧
      ∀ data, s.fetchFromFriend = some data → data = [] ∨ data = [1, 2, 3] := by
  have hrun : Machine.run (step .fetchFromFriend) { wire := [1, 2, 3] }
      [.connected, .arrive 1, .leave, .arrive 2, .disconnected, .leave] = some _ := rfl
  refine ⟨_, hrun, (fetch_iff hrun rfl).2.1.mpr ?_⟩
  exact .cons (by decide) rfl (.cons (by decide) rfl (.cons (by decide) rfl
    (.cons (by decide) rfl (.cons (by decide) rfl (.cons (by decide) rfl trivial)))))

/-- The timer fires between two segments, and the first of them is all that is returned and
    shown. -/
theorem not_fetch_timeout :
    ∃ s, Machine.run (step .fetchFromFriend) { wire := [1, 2] }
      [.connected, .leave, .arrive 1, .timeout, .leave] = some s ∧
      s.fetchFromFriend = some [1] ∧
    ∃ s', Machine.run (step .connectAndShow) { wire := [1, 2] }
      [.connected, .leave, .arrive 1, .timeout, .leave] = some s' ∧
      s'.connectAndShow = some (.stats [1]) := ⟨_, rfl, rfl, _, rfl, rfl⟩

end Fetch

end AlarmClock
