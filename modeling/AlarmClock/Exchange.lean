import AlarmClock.FriendFetch
import AlarmClock.StatDialog
import AlarmClock.Lib.Utf8

/-!
# The two ends of a fetch

A fetching friend and the alarm server, joined by the bytes on their way. The server reads
a command line from each of its connections when the line is complete, answers with the
bytes of a file as it is then, and closes. The files change in the meantime, and the
connections do not wait for each other. For each of them the run is one of the fetch alone,
with the answer as its payload.
-/

namespace AlarmClock

def QString.toUtf8 (s : QString) : QByteArray := Utf8.encode s

/-- `QString::fromUtf8`, as far as it is documented: it reads back what `toUtf8` wrote,
    except for a byte order mark at the beginning. -/
structure Codec where
  fromUtf8 : QByteArray → QString
  fromUtf8_toUtf8 : ∀ s : QString, s.head? ≠ some '\uFEFF' → fromUtf8 s.toUtf8 = s

/-- Any other bytes end the text. -/
def Codec.strict : Codec where
  fromUtf8 := Utf8.decode
  fromUtf8_toUtf8 := fun s _ => Utf8.decode_encode s

namespace Exchange

/-! ### What a friend asks -/

/-- A command that fits in one line. -/
structure Command where
  text : QString
  oneLine : '\n' ∉ text
  noMark : (text ++ ['\n']).head? ≠ some '\uFEFF'

/-- `(command + "\n").toUtf8()` -/
def Command.request (command : Command) : QByteArray := (command.text ++ ['\n']).toUtf8

def Command.getLog : Command where
  text := "GET_LOG".toList
  oneLine := by decide
  noMark := by decide

def Command.getPhoto (photoPath : QString) (h : '\n' ∉ photoPath) : Command where
  text := "GET_PHOTO:".toList ++ photoPath
  oneLine := by
    rw [List.mem_append]
    rintro (hword | hpath)
    · exact absurd hword (by decide)
    · exact h hpath
  noMark := by
    show some 'G' ≠ _
    decide

/-- Who fetches, and what. -/
structure Call where
  caller : Fetch.Caller
  command : Command

/-! ### More on the wire -/

/-- The same client, with more on its wire behind what is there. -/
def behind (payload : QByteArray) (s : Fetch.State) : Fetch.State :=
  { s with wire := s.wire ++ payload }

theorem onReadyRead_behind (payload : QByteArray) (s : Fetch.State) :
    (behind payload s).onReadyRead = behind payload s.onReadyRead := by
  show (if s.handler then (behind payload s).readAll else behind payload s) = _
  unfold Fetch.State.onReadyRead
  split_ifs
  · rfl
  · rfl

theorem afterConnecting_behind (payload : QByteArray) (s : Fetch.State) (caller : Fetch.Caller) :
    (behind payload s).afterConnecting caller = behind payload (s.afterConnecting caller) := by
  rw [Fetch.State.afterConnecting_eq, Fetch.State.afterConnecting_eq]
  show (if s.ok then if s.socket ≠ .unconnected then _ else _ else _) = _
  split_ifs
  · rfl
  · rfl
  · rfl

/-- A client that does not see the end of the stream does the same with more on its wire. -/
theorem step_behind {caller : Fetch.Caller} (payload : QByteArray) {s s' : Fetch.State}
    {e : Fetch.Event} (hopen : e ≠ .disconnected) (h : Fetch.State.step caller s e = some s') :
    Fetch.State.step caller (behind payload s) e = some (behind payload s') := by
  unfold Fetch.State.step at h ⊢
  show (if s.phase = .done then none else _) = _
  split
  · next hdone =>
    rw [if_pos hdone] at h
    cases h
  · next hphase =>
    rw [if_neg hphase] at h
    cases e with
    | connected =>
      obtain ⟨hconnecting, rfl⟩ := Machine.guarded_eq_some h
      exact if_pos hconnecting
    | refused =>
      obtain ⟨hconnecting, rfl⟩ := Machine.guarded_eq_some h
      exact if_pos hconnecting
    | arrive n =>
      obtain ⟨⟨hsocket, hpos, hle⟩, rfl⟩ := Machine.guarded_eq_some h
      have hle' : n ≤ (s.wire ++ payload).length := by
        rw [List.length_append]
        omega
      show (if s.socket = .connected ∧ 0 < n ∧ n ≤ (s.wire ++ payload).length then _ else _) = _
      rw [if_pos ⟨hsocket, hpos, hle'⟩, ← onReadyRead_behind]
      simp only [behind, List.drop_append_of_le_length hle, List.take_append_of_le_length hle]
    | disconnected => exact absurd rfl hopen
    | timeout =>
      obtain ⟨htimer, rfl⟩ := Machine.guarded_eq_some h
      exact if_pos htimer
    | leave =>
      simp only [Fetch.State.deliver] at h ⊢
      show (if s.quit then _ else _) = _
      split at h
      · next hquit =>
        rw [if_pos hquit]
        cases hs : s.phase with
        | connecting =>
          rw [hs] at h
          obtain rfl := Option.some.inj h
          simp only [show (behind payload s).phase = .connecting from hs,
            afterConnecting_behind]
        | reading =>
          rw [hs] at h
          obtain rfl := Option.some.inj h
          simp only [show (behind payload s).phase = .reading from hs]
          rfl
        | done => exact absurd hs hphase
      · cases h

/-! ### A connection -/

/-- The client, and the server's socket. `up` is what of the request has not arrived, `inbox`
    what has arrived and was not read, and `payloads` are the answers that were written; the
    server closes after the first. What of an answer has not arrived is on the wire of the
    client. -/
structure Connection where
  client : Fetch.State := { wire := [] }
  up : QByteArray := []
  accepted : Bool := false
  inbox : QByteArray := []
  payloads : List QByteArray := []

/-- What is delivered to either end. -/
inductive Event where
  | client (e : Fetch.Event)
  | newConnection
  | readyRead (n : Nat)
deriving DecidableEq, Repr

namespace Connection

variable {home : HomePath} (codec : Codec) (call : Call) (fs : FileSystem home)

/-- The answer of the server to a line. -/
def answer (line : QByteArray) : QByteArray := (handleLine fs (codec.fromUtf8 line)).payload

/-- The `readyRead` handler of the server: `canReadLine`, `readLine`, `write`,
    `disconnectFromHost`. -/
def onReadyRead (c : Connection) : Connection :=
  if Utf8.eol ∈ c.inbox then
    let payload := answer codec fs (Text.firstLine Utf8.eol c.inbox)
    { c with
      inbox := Text.afterLine Utf8.eol c.inbox
      client := { c.client with wire := c.client.wire ++ payload }
      payloads := c.payloads ++ [payload] }
  else c

/-- What a client writes when it delivers an event: its request, between the two loops. -/
def written (c : Connection) (e : Fetch.Event) : QByteArray :=
  if e = .leave ∧ c.client.phase = .connecting ∧ c.client.ok = true ∧
      c.client.socket = .connected then
    call.command.request
  else []

/-- The client sees the end of the stream only after the server has closed, and is not
    refused by a server that has accepted. -/
def step (c : Connection) : Event → Option Connection
  | .client e =>
    if e = .disconnected ∧ c.payloads = [] ∨ e = .refused ∧ c.accepted = true then none
    else
      (Fetch.State.step call.caller c.client e).map fun client =>
        { c with client := client, up := c.up ++ c.written call e }
  | .newConnection =>
    if c.accepted = false ∧ c.client.socket ≠ .unconnected then some { c with accepted := true }
    else none
  | .readyRead n =>
    if c.accepted = true ∧ 0 < n ∧ n ≤ c.up.length then
      some (onReadyRead codec fs
        { c with up := c.up.drop n, inbox := c.inbox ++ c.up.take n })
    else none

/-- Every event, with what it finds and what it leaves. -/
inductive StepTo (c : Connection) : Event → Connection → Prop where
  | client (e : Fetch.Event) (client : Fetch.State)
      (hstep : Fetch.State.step call.caller c.client e = some client)
      (hclosed : e = .disconnected → c.payloads ≠ []) :
      StepTo c (.client e) { c with client := client, up := c.up ++ c.written call e }
  | newConnection : StepTo c .newConnection { c with accepted := true }
  | waits (n : Nat) (hn : 0 < n) (hle : n ≤ c.up.length)
      (hline : Utf8.eol ∉ c.inbox ++ c.up.take n) :
      StepTo c (.readyRead n) { c with up := c.up.drop n, inbox := c.inbox ++ c.up.take n }
  | answers (n : Nat) (payload : QByteArray) (hn : 0 < n) (hle : n ≤ c.up.length)
      (hline : Utf8.eol ∈ c.inbox ++ c.up.take n)
      (hpayload : payload =
        answer codec fs (Text.firstLine Utf8.eol (c.inbox ++ c.up.take n))) :
      StepTo c (.readyRead n) { c with
        up := c.up.drop n
        inbox := Text.afterLine Utf8.eol (c.inbox ++ c.up.take n)
        client := { c.client with wire := c.client.wire ++ payload }
        payloads := c.payloads ++ [payload] }

variable {codec call fs}

theorem step_cases {c c' : Connection} {e : Event} (h : step codec call fs c e = some c') :
    StepTo codec call fs c e c' := by
  cases e with
  | client e =>
    simp only [step] at h
    split at h
    · cases h
    · next hrefused =>
      obtain ⟨client, hclient, rfl⟩ := Option.map_eq_some_iff.mp h
      refine .client e client hclient ?_
      rintro hclose hnone
      exact hrefused (.inl ⟨hclose, hnone⟩)
  | newConnection =>
    obtain ⟨-, rfl⟩ := Machine.guarded_eq_some h
    exact .newConnection
  | readyRead n =>
    obtain ⟨⟨-, hn, hle⟩, rfl⟩ := Machine.guarded_eq_some h
    unfold onReadyRead
    dsimp only
    split
    · next hline => exact .answers n _ hn hle hline rfl
    · next hline => exact .waits n hn hle hline

/-! ### One answer to one request -/

/-- Where the request is: not written, on its way, or answered. -/
inductive Asked (call : Call) (c : Connection) : Prop where
  | unwritten (hphase : c.client.phase ≠ .reading) (hup : c.up = []) (hinbox : c.inbox = [])
      (hnone : c.payloads = [])
  | onItsWay (hphase : c.client.phase ≠ .connecting)
      (hwhole : c.inbox ++ c.up = call.command.request) (hline : Utf8.eol ∉ c.inbox)
      (hnone : c.payloads = [])
  | answered (payload : QByteArray) (hphase : c.client.phase ≠ .connecting) (hup : c.up = [])
      (hinbox : c.inbox = []) (hone : c.payloads = [payload])

/-- The answer is the payload, or will be. -/
def Foretold (payload : QByteArray) (c : Connection) : Prop :=
  c.payloads = [] ∨ c.payloads = [payload]

/-- The client of a connection, as if the payload were on its wire from the start. -/
def whole (payload : QByteArray) (c : Connection) : Fetch.State :=
  if c.payloads = [] then behind payload c.client else c.client

/-- One request, one answer, and for whatever the answer will be a fetch of it. -/
structure Inv (call : Call) (c : Connection) : Prop where
  asked : Asked call c
  fetch : ∀ payload, Foretold payload c → Fetch.State.Inv payload (whole payload c)

theorem Inv.foretold {c : Connection} (hi : Inv call c) : ∃ payload, Foretold payload c := by
  cases hi.asked with
  | unwritten _ _ _ hnone => exact ⟨[], .inl hnone⟩
  | onItsWay _ _ _ hnone => exact ⟨[], .inl hnone⟩
  | answered payload _ _ _ hone => exact ⟨payload, .inr hone⟩

theorem inv_start : Inv call {} where
  asked := .unwritten nofun rfl rfl rfl
  fetch := fun payload _ => Fetch.State.inv_start payload

/-- A complete line is the whole request. -/
theorem request_of_line {c : Connection} {n : Nat}
    (hwhole : c.inbox ++ c.up = call.command.request) :
    (c.inbox ++ c.up.take n) ++ c.up.drop n = call.command.request ∧
      (Utf8.eol ∈ c.inbox ++ c.up.take n ↔ c.up.drop n = []) := by
  have hsplit : (c.inbox ++ c.up.take n) ++ c.up.drop n = call.command.request := by
    rw [List.append_assoc, List.take_append_drop]
    exact hwhole
  refine ⟨hsplit, ?_⟩
  have hbody : Utf8.eol ∉ call.command.text.toUtf8 :=
    fun heol => call.command.oneLine (Utf8.eol_mem_encode.mp heol)
  have hline : call.command.request = call.command.text.toUtf8 ++ [Utf8.eol] :=
    Utf8.encode_append call.command.text ['\n']
  rw [hline] at hsplit
  exact Text.mem_of_append_eq_line hbody hsplit

theorem firstLine_request (command : Command) :
    Text.firstLine Utf8.eol command.request = command.request ∧
      Text.afterLine Utf8.eol command.request = [] := by
  have hbody : Utf8.eol ∉ command.text.toUtf8 :=
    fun heol => command.oneLine (Utf8.eol_mem_encode.mp heol)
  have hline : command.request = command.text.toUtf8 ++ [Utf8.eol] :=
    Utf8.encode_append command.text ['\n']
  rw [hline]
  exact Text.firstLine_of_not_mem hbody

/-- What a client writes, and where that leaves it. -/
theorem written_cases {c : Connection} (hi : Inv call c) {e : Fetch.Event} {client : Fetch.State}
    (hstep : Fetch.State.step call.caller c.client e = some client) :
    (c.written call e = [] ∧ (client.phase = c.client.phase ∨ client.phase = .done)) ∨
    (c.written call e = call.command.request ∧ c.client.phase = .connecting ∧
      client.phase = .reading) := by
  obtain ⟨hphase, hs⟩ := Fetch.State.step_cases hstep
  have hsilent : e ≠ .leave → c.written call e = [] := fun hne => if_neg fun h => hne h.1
  cases hs with
  | connected => exact .inl ⟨hsilent nofun, .inl rfl⟩
  | refused => exact .inl ⟨hsilent nofun, .inl rfl⟩
  | arrive n => exact .inl ⟨hsilent nofun, .inl (Fetch.State.phase_onReadyRead _)⟩
  | disconnected => exact .inl ⟨hsilent nofun, .inl rfl⟩
  | timeout => exact .inl ⟨hsilent nofun, .inl rfl⟩
  | reading hreading =>
    refine .inl ⟨if_neg ?_, .inr rfl⟩
    rintro ⟨-, hconnecting, -⟩
    cases hreading.symm.trans hconnecting
  | connecting hconnecting =>
    rw [Fetch.State.afterConnecting_eq]
    split_ifs with hok hopen
    · right
      refine ⟨if_pos ⟨rfl, hconnecting, hok, ?_⟩, hconnecting, rfl⟩
      -- a socket that is still connecting has not told anyone that it is connected
      obtain ⟨payload, hpayload⟩ := hi.foretold
      have hearly := (hi.fetch payload hpayload).early
      cases hsocket : c.client.socket with
      | connected => rfl
      | unconnected => exact absurd hsocket hopen
      | connecting =>
        have hwhole : (whole payload c).socket = .connecting ∧ (whole payload c).ok = true := by
          unfold whole
          split_ifs
          · exact ⟨hsocket, hok⟩
          · exact ⟨hsocket, hok⟩
        cases hwhole.2.symm.trans (hearly hwhole.1)
    · refine .inl ⟨if_neg ?_, .inr rfl⟩
      rintro ⟨-, -, -, hconnected⟩
      rw [hconnected] at hopen
      exact hopen nofun
    · refine .inl ⟨if_neg ?_, .inr rfl⟩
      rintro ⟨-, -, hok', -⟩
      exact hok hok'

/-- What the client of a connection sees of an event. -/
def clientEvent : Event → Option Fetch.Event
  | .client e => some e
  | _ => none

theorem whole_congr {payload : QByteArray} {c c' : Connection} (hclient : c'.client = c.client)
    (hpayloads : c'.payloads = c.payloads) : whole payload c' = whole payload c := by
  unfold whole
  rw [hclient, hpayloads]

/-- The one answer of a connection is the payload that was foretold. -/
theorem foretold_answer {payload payload' : QByteArray} {payloads : List QByteArray}
    (h : payloads ++ [payload'] = [] ∨ payloads ++ [payload'] = [payload]) :
    payloads = [] ∧ payload' = payload := by
  rcases h with hnone | hone
  · exact absurd hnone (by simp)
  · cases payloads with
    | nil => exact ⟨rfl, List.singleton_inj.mp hone⟩
    | cons p ps =>
      injection hone with _ hnil
      exact absurd hnil (by simp)

/-- **The simulation.** With the answer on its wire from the start, the client of a
    connection takes the steps of a fetch, and sees no others. -/
theorem StepTo.whole {c c' : Connection} {e : Event} (h : StepTo codec call fs c e c')
    {payload : QByteArray} (hforetold : Foretold payload c') :
    Foretold payload c ∧
      (clientEvent e).elim (c'.whole payload = c.whole payload) fun d =>
        Fetch.State.step call.caller (c.whole payload) d = some (c'.whole payload) := by
  cases h with
  | client e client hstep hclosed =>
    refine ⟨hforetold, ?_⟩
    show Fetch.State.step call.caller (c.whole payload) e = some (if c.payloads = [] then _ else _)
    unfold Connection.whole
    split_ifs with hnone
    · exact step_behind payload (fun he => hclosed he hnone) hstep
    · exact hstep
  | newConnection => exact ⟨hforetold, whole_congr rfl rfl⟩
  | waits n => exact ⟨hforetold, whole_congr rfl rfl⟩
  | answers n payload' =>
    obtain ⟨hnone, rfl⟩ := foretold_answer hforetold
    refine ⟨.inl hnone, ?_⟩
    show (if c.payloads ++ [payload'] = [] then _ else behind payload' c.client) = _
    rw [if_neg (by simp), Connection.whole, if_pos hnone]

theorem Inv.step {c c' : Connection} {e : Event} (hi : Inv call c)
    (h : StepTo codec call fs c e c') : Inv call c' where
  asked := by
    cases h with
    | client e client hstep =>
      rcases written_cases hi hstep with ⟨hwritten, hphase⟩ | ⟨hwritten, hconnecting, hreading⟩
      · have hup : c.up ++ c.written call e = c.up := by rw [hwritten, List.append_nil]
        have hkeeps : ∀ p : Fetch.Phase, p ≠ .done → c.client.phase ≠ p → client.phase ≠ p := by
          intro p hp hne heq
          rcases hphase with hsame | hdone
          · exact hne (hsame.symm.trans heq)
          · exact hp (heq.symm.trans hdone)
        cases hi.asked with
        | unwritten hphase hnil hinbox hnone =>
          exact .unwritten (hkeeps _ nofun hphase) (hup.trans hnil) hinbox hnone
        | onItsWay hphase hwhole hline hnone =>
          refine .onItsWay (hkeeps _ nofun hphase) ?_ hline hnone
          rw [show c.up ++ c.written call e = c.up from hup]
          exact hwhole
        | answered payload hphase hnil hinbox hone =>
          exact .answered payload (hkeeps _ nofun hphase) (hup.trans hnil) hinbox hone
      · cases hi.asked with
        | unwritten hphase hnil hinbox hnone =>
          refine .onItsWay ?_ ?_ ?_ hnone
          · rw [hreading]
            nofun
          · show c.inbox ++ (c.up ++ c.written call e) = call.command.request
            rw [hinbox, hnil, hwritten]
            rfl
          · show Utf8.eol ∉ c.inbox
            rw [hinbox]
            exact List.not_mem_nil
        | onItsWay hphase => exact absurd hconnecting hphase
        | answered payload hphase => exact absurd hconnecting hphase
    | newConnection =>
      cases hi.asked with
      | unwritten hphase hup hinbox hnone => exact .unwritten hphase hup hinbox hnone
      | onItsWay hphase hwhole hline hnone => exact .onItsWay hphase hwhole hline hnone
      | answered payload hphase hup hinbox hone => exact .answered payload hphase hup hinbox hone
    | waits n hn hle hline =>
      cases hi.asked with
      | unwritten hphase hup =>
        rw [hup] at hle
        exact absurd hle (Nat.not_le.mpr hn)
      | onItsWay hphase hwhole _ hnone =>
        exact .onItsWay hphase (request_of_line hwhole).1 hline hnone
      | answered payload hphase hup =>
        rw [hup] at hle
        exact absurd hle (Nat.not_le.mpr hn)
    | answers n payload hn hle hline =>
      cases hi.asked with
      | unwritten hphase hup =>
        rw [hup] at hle
        exact absurd hle (Nat.not_le.mpr hn)
      | onItsWay hphase hwhole _ hnone =>
        obtain ⟨hsplit, hend⟩ := request_of_line (n := n) hwhole
        have hrest : c.up.drop n = [] := hend.mp hline
        rw [hrest, List.append_nil] at hsplit
        refine .answered payload hphase hrest ?_ ?_
        · show Text.afterLine Utf8.eol (c.inbox ++ c.up.take n) = []
          rw [hsplit]
          exact (firstLine_request call.command).2
        · show c.payloads ++ [payload] = [payload]
          rw [hnone]
          rfl
      | answered payload' hphase hup =>
        rw [hup] at hle
        exact absurd hle (Nat.not_le.mpr hn)
  fetch := by
    intro payload hforetold
    obtain ⟨hforetold₀, hnext⟩ := h.whole hforetold
    cases he : clientEvent e with
    | none =>
      rw [he, Option.elim_none] at hnext
      rw [hnext]
      exact hi.fetch payload hforetold₀
    | some d =>
      rw [he, Option.elim_some] at hnext
      exact Fetch.State.inv_step (hi.fetch payload hforetold₀) hnext

/-- A line in the inbox is the request, and the end of it has arrived with the last bytes. -/
theorem Inv.completed {c : Connection} (hi : Inv call c) {n : Nat} (hn : 0 < n)
    (hle : n ≤ c.up.length) (hline : Utf8.eol ∈ c.inbox ++ c.up.take n) :
    c.client.phase ≠ .connecting ∧ Utf8.eol ∉ c.inbox ∧
      c.inbox ++ c.up.take n = call.command.request := by
  cases hi.asked with
  | unwritten hphase hup =>
    rw [hup] at hle
    exact absurd hle (Nat.not_le.mpr hn)
  | onItsWay hphase hwhole hbefore =>
    obtain ⟨hsplit, hend⟩ := request_of_line (n := n) hwhole
    rw [hend.mp hline, List.append_nil] at hsplit
    exact ⟨hphase, hbefore, hsplit⟩
  | answered payload hphase hup =>
    rw [hup] at hle
    exact absurd hle (Nat.not_le.mpr hn)

/-- The answer is made from the request, as the files are when it has arrived. -/
theorem Inv.answer_eq {c : Connection} (hi : Inv call c) {n : Nat} (hn : 0 < n)
    (hle : n ≤ c.up.length) (hline : Utf8.eol ∈ c.inbox ++ c.up.take n) :
    Text.firstLine Utf8.eol (c.inbox ++ c.up.take n) = call.command.request := by
  rw [(hi.completed hn hle hline).2.2]
  exact (firstLine_request call.command).1

end Connection

/-! ### The server with all its connections -/

/-- The files of the server's board, and the connections. -/
structure System (home : HomePath) (ι : Type*) where
  files : FileSystem home
  connection : ι → Connection := fun _ => {}

/-- A change of the files, by whatever else runs on the board, or what is delivered to an end
    of a connection. -/
inductive SystemEvent (home : HomePath) (ι : Type*) where
  | files (fs : FileSystem home)
  | connection (i : ι) (e : Event)

namespace System

variable {home : HomePath} {ι : Type*} [DecidableEq ι] (codec : Codec) (calls : ι → Call)

def step (s : System home ι) : SystemEvent home ι → Option (System home ι)
  | .files fs => some { s with files := fs }
  | .connection i e =>
    (Connection.step codec (calls i) s.files (s.connection i) e).map fun c =>
      { s with connection := Function.update s.connection i c }

/-- What the client of one connection sees of an event. -/
def clientEvent (i : ι) : SystemEvent home ι → Option Fetch.Event
  | .files _ => none
  | .connection j e => if j = i then Connection.clientEvent e else none

variable {codec calls}

/-- What an event does to one connection: a step of its own, or nothing. -/
theorem step_cases {s s' : System home ι} {e : SystemEvent home ι}
    (h : step codec calls s e = some s') (i : ι) :
    (∃ d, e = .connection i d ∧
      Connection.StepTo codec (calls i) s.files (s.connection i) d (s'.connection i)) ∨
    ((∀ d, e ≠ .connection i d) ∧ s'.connection i = s.connection i) := by
  cases e with
  | files fs =>
    obtain rfl := Option.some.inj h
    exact .inr ⟨nofun, rfl⟩
  | connection j d =>
    obtain ⟨c, hc, rfl⟩ := Option.map_eq_some_iff.mp h
    by_cases hij : i = j
    · subst hij
      refine .inl ⟨d, rfl, ?_⟩
      show Connection.StepTo codec _ _ _ d (Function.update s.connection i c i)
      rw [Function.update_self]
      exact Connection.step_cases hc
    · refine .inr ⟨?_, Function.update_of_ne hij ..⟩
      rintro d' heq
      injection heq with hji
      exact hij hji.symm

theorem clientEvent_other {i : ι} {e : SystemEvent home ι} (h : ∀ d, e ≠ .connection i d) :
    clientEvent i e = none := by
  cases e with
  | files fs => rfl
  | connection j d =>
    refine if_neg ?_
    rintro rfl
    exact h d rfl

theorem inv_step {i : ι} {s s' : System home ι} {e : SystemEvent home ι}
    (hi : Connection.Inv (calls i) (s.connection i)) (h : step codec calls s e = some s') :
    Connection.Inv (calls i) (s'.connection i) := by
  rcases step_cases h i with ⟨d, rfl, hs⟩ | ⟨-, hsame⟩
  · exact hi.step hs
  · rw [hsame]
    exact hi

theorem inv_run {i : ι} {files : FileSystem home} {s : System home ι}
    {es : List (SystemEvent home ι)}
    (hrun : Machine.run (step codec calls) { files := files } es = some s) :
    Connection.Inv (calls i) (s.connection i) :=
  Machine.run_invariant (I := fun s => Connection.Inv (calls i) (s.connection i))
    (fun _ _ _ hi h => inv_step hi h) Connection.inv_start hrun

/-- **Every connection runs a fetch of its own.** -/
theorem refines {files : FileSystem home} {s : System home ι} {es : List (SystemEvent home ι)}
    (hrun : Machine.run (step codec calls) { files := files } es = some s) {i : ι}
    {payload : QByteArray} (hforetold : (s.connection i).Foretold payload) :
    Machine.run (Fetch.State.step (calls i).caller) { wire := payload }
      (es.filterMap (clientEvent i)) = some ((s.connection i).whole payload) := by
  refine (Machine.run_prophecy (f := fun s => (s.connection i).whole payload)
    (I := fun s => Connection.Inv (calls i) (s.connection i))
    (K := fun s => (s.connection i).Foretold payload) (fun _ _ _ hi h => inv_step hi h) ?_ ?_
    Connection.inv_start hforetold hrun).2
  · intro s e s' _ h hforetold
    rcases step_cases h i with ⟨d, rfl, hs⟩ | ⟨-, hsame⟩
    · exact (hs.whole hforetold).1
    · rwa [hsame] at hforetold
  · intro s e s' _ h hforetold
    rcases step_cases h i with ⟨d, rfl, hs⟩ | ⟨hother, hsame⟩
    · have hnext := (hs.whole hforetold).2
      rwa [show clientEvent i (.connection i d : SystemEvent home ι) = Connection.clientEvent d
        from if_pos rfl]
    · rw [clientEvent_other hother, Option.elim_none, hsame]

/-- The moment of an answer: a prefix of the run, and the state it leads to, in which the
    request is written but not all of it has arrived, and the next `readyRead` brings the rest
    with the end of the line. -/
def AnsweredAt (codec : Codec) (calls : ι → Call) (start : System home ι)
    (es : List (SystemEvent home ι)) (i : ι) (u : System home ι) : Prop :=
  ∃ pre n post, es = pre ++ .connection i (.readyRead n) :: post ∧
    Machine.run (step codec calls) start pre = some u ∧
    (u.connection i).client.phase ≠ .connecting ∧
    Utf8.eol ∉ (u.connection i).inbox ∧
    (u.connection i).inbox ++ (u.connection i).up.take n = (calls i).command.request

theorem AnsweredAt.append {start u : System home ι} {es : List (SystemEvent home ι)} {i : ι}
    (h : AnsweredAt codec calls start es i u) (fs : List (SystemEvent home ι)) :
    AnsweredAt codec calls start (es ++ fs) i u := by
  obtain ⟨pre, n, post, rfl, hmoment⟩ := h
  exact ⟨pre, n, post ++ fs, by simp, hmoment⟩

/-- What the server answers to a command. -/
def reply (fs : FileSystem home) (command : Command) : Reply :=
  handleLine fs (command.text ++ ['\n'])

theorem answer_request (fs : FileSystem home) (command : Command) :
    Connection.answer codec fs command.request = (reply fs command).payload := by
  unfold Connection.answer reply
  rw [show codec.fromUtf8 command.request = command.text ++ ['\n'] from
    codec.fromUtf8_toUtf8 _ command.noMark]

/-- **One answer.** A connection has no answer, or one, made at one moment of the run. -/
theorem answered_run {files : FileSystem home} {s : System home ι}
    {es : List (SystemEvent home ι)}
    (hrun : Machine.run (step codec calls) { files := files } es = some s) (i : ι) :
    (s.connection i).payloads = [] ∨
      ∃ u, AnsweredAt codec calls { files := files } es i u ∧
        (s.connection i).payloads = [(reply u.files (calls i).command).payload] := by
  refine Machine.run_history (I := fun es s => (s.connection i).payloads = [] ∨
    ∃ u, AnsweredAt codec calls { files := files } es i u ∧
      (s.connection i).payloads = [(reply u.files (calls i).command).payload]) (.inl rfl) ?_ hrun
  intro pre t e t' hpre ih h
  have hkept : (t'.connection i).payloads = (t.connection i).payloads →
      (t'.connection i).payloads = [] ∨
        ∃ u, AnsweredAt codec calls { files := files } (pre ++ [e]) i u ∧
          (t'.connection i).payloads = [(reply u.files (calls i).command).payload] := by
    intro hsame
    rw [hsame]
    refine ih.imp_right ?_
    rintro ⟨u, hu, hpayload⟩
    exact ⟨u, hu.append [e], hpayload⟩
  rcases step_cases h i with ⟨d, rfl, hs⟩ | ⟨-, hsame⟩
  · have hi : Connection.Inv (calls i) (t.connection i) := inv_run hpre
    have hi' := hi.step hs
    generalize t'.connection i = c' at hs hkept hi' ⊢
    cases hs with
    | client => exact hkept rfl
    | newConnection => exact hkept rfl
    | waits => exact hkept rfl
    | answers n payload hn hle hline hpayload =>
      have hrequest := hi.answer_eq hn hle hline
      obtain ⟨payload', hforetold⟩ := hi'.foretold
      obtain ⟨hnone, -⟩ := Connection.foretold_answer hforetold
      refine .inr ⟨t, ⟨pre, n, [], rfl, hpre, hi.completed hn hle hline⟩, ?_⟩
      show (t.connection i).payloads ++ [payload] = _
      rw [hnone, hpayload, hrequest, answer_request]
      rfl
  · exact hkept (by rw [hsame])

/-- **The refinement.** Whatever the server does for others and whatever becomes of its files,
    the client of a connection runs a fetch of one payload; and the server answers a
    connection once at most, from the files of the moment in which its request is complete. -/
theorem exchange_refines {files : FileSystem home} {s : System home ι}
    {es : List (SystemEvent home ι)}
    (hrun : Machine.run (step codec calls) { files := files } es = some s) (i : ι) :
    (∃ payload, (s.connection i).Foretold payload ∧
      Machine.run (Fetch.State.step (calls i).caller) { wire := payload }
        (es.filterMap (clientEvent i)) = some ((s.connection i).whole payload)) ∧
    ((s.connection i).payloads = [] ∨
      ∃ u, AnsweredAt codec calls { files := files } es i u ∧
        (s.connection i).payloads = [(reply u.files (calls i).command).payload]) := by
  refine ⟨?_, answered_run hrun i⟩
  have hi : Connection.Inv (calls i) (s.connection i) := inv_run hrun
  obtain ⟨payload, hforetold⟩ := hi.foretold
  exact ⟨payload, hforetold, refines hrun hforetold⟩

theorem clean_root : ∀ c ∈ ["root".toList],
    c ≠ [] ∧ '/' ∉ c ∧ '\x00' ∉ c ∧ c ≠ ".".toList ∧ c ≠ "..".toList := by
  decide

def rootHome : HomePath := ⟨["root".toList], clean_root⟩

/-- A board with a log and a photo in its home directory. -/
def board (log : QByteArray) : FileSystem rootHome where
  node path :=
    if path = ["root".toList] then some .directory
    else if path = ["root".toList, "alarm.txt".toList] then some (.file log)
    else if path = ["root".toList, "a.jpg".toList] then some (.file [255, 216, 255])
    else none
  home_directory := rfl

/-- Two friends ask for the log, each in its own way. -/
def askLog (b : Bool) : Call where
  caller := if b then .connectAndShow else .fetchFromFriend
  command := .getLog

/-- Both connections are open at once; the log grows first. One friend gets all of it, the
    timer of the other one fires in the middle. -/
def twoFriends : List (SystemEvent rootHome Bool) :=
  .files (board [1, 10, 2]) :: [
    (false, .client .connected), (true, .client .connected), (false, .client .leave),
    (true, .client .leave), (true, .newConnection), (false, .newConnection), (true, .readyRead 3),
    (false, .readyRead 8), (true, .readyRead 5), (true, .client (.arrive 2)),
    (false, .client (.arrive 3)), (true, .client .timeout), (false, .client .disconnected),
    (true, .client .leave), (false, .client .leave)].map fun x => .connection x.1 x.2

theorem run_twoFriends :
    ∃ s, Machine.run (step Codec.strict askLog) { files := board [1] } twoFriends = some s ∧
      (s.connection false).client.data = [1, 10, 2] ∧
      (s.connection true).client.data = [1, 10] := by
  have hdata : (Machine.run (step Codec.strict askLog) { files := board [1] } twoFriends).map
      (fun s => ((s.connection false).client.data, (s.connection true).client.data)) =
        some ([1, 10, 2], [1, 10]) := by
    decide +kernel
  obtain ⟨s, hrun, hs⟩ := Option.map_eq_some_iff.mp hdata
  exact ⟨s, hrun, congrArg Prod.fst hs, congrArg Prod.snd hs⟩

theorem exchange_refines_two :
    ∃ s, Machine.run (step Codec.strict askLog) { files := board [1] } twoFriends = some s ∧
      ((∃ payload, (s.connection true).Foretold payload ∧
        Machine.run (Fetch.State.step (askLog true).caller) { wire := payload }
          (twoFriends.filterMap (clientEvent true)) = some ((s.connection true).whole payload)) ∧
      ((s.connection true).payloads = [] ∨
        ∃ u, AnsweredAt Codec.strict askLog { files := board [1] } twoFriends true u ∧
          (s.connection true).payloads = [(reply u.files (askLog true).command).payload])) := by
  obtain ⟨s, hrun, -⟩ := run_twoFriends
  exact ⟨s, hrun, exchange_refines hrun true⟩

/-! ### What a fetch returns -/

/-- A connection without an answer has brought nothing. -/
theorem data_of_unanswered {call : Call} {c : Connection} (hi : Connection.Inv call c)
    (hnone : c.payloads = []) : c.client.data = [] ∧ c.client.arrived = 0 := by
  have hfetch := hi.fetch [] (.inl hnone)
  have hwhole : c.whole [] = behind [] c.client := if_pos hnone
  rw [hwhole] at hfetch
  have hbytes : c.client.data ++ c.client.buffer ++ (c.client.wire ++ []) = [] := hfetch.whole
  have harrived : c.client.arrived = (c.client.data ++ c.client.buffer).length := hfetch.arrived
  obtain ⟨hread, -⟩ := List.append_eq_nil_iff.mp hbytes
  rw [hread] at harrived
  exact ⟨(List.append_eq_nil_iff.mp hread).1, harrived⟩

/-- What is gathered is the beginning of the answer. -/
theorem data_prefix {call : Call} {c : Connection} (hi : Connection.Inv call c)
    {payload : QByteArray} (hone : c.payloads = [payload]) : c.client.data <+: payload := by
  have hfetch := hi.fetch payload (.inr hone)
  have hwhole : c.whole payload = c.client := if_neg (by rw [hone]; nofun)
  rw [hwhole] at hfetch
  rw [← hfetch.whole, List.append_assoc]
  exact List.prefix_append ..

/-- The client of a connection does not leave its second wait in the middle of an answer. -/
def Uncut (i : ι) (s : System home ι) (e : SystemEvent home ι) : Prop :=
  ∀ d, clientEvent i e = some d → ¬ (s.connection i).client.CutsShort d

/-- What a client has returned is nothing, or all of the answer. -/
def Complete (c : Connection) : Prop :=
  c.client.phase = .done → c.client.data = [] ∨ c.payloads = [c.client.data]

theorem complete_step {i : ι} {s s' : System home ι} {e : SystemEvent home ι}
    (hi : Connection.Inv (calls i) (s.connection i)) (hcomplete : Complete (s.connection i))
    (huncut : Uncut i s e) (h : step codec calls s e = some s') :
    Complete (s'.connection i) := by
  have hi' := inv_step hi h
  rcases step_cases h i with ⟨d, rfl, hs⟩ | ⟨-, hsame⟩
  · generalize s'.connection i = c' at hs hi' ⊢
    cases hs with
    | client e client hstep hclosed =>
      intro hdone
      have hnocut : ¬ (s.connection i).client.CutsShort e := huncut e (if_pos rfl)
      by_cases hnone : (s.connection i).payloads = []
      · exact .inl (data_of_unanswered hi' hnone).1
      · obtain ⟨payload, hforetold⟩ := hi.foretold
        have hone := hforetold.resolve_left hnone
        have hfetch := hi.fetch payload hforetold
        rw [show (s.connection i).whole payload = (s.connection i).client from if_neg hnone]
          at hfetch
        rcases (hfetch.returned_iff hstep hdone).mpr hnocut with hempty | hall
        · exact .inl hempty
        · refine .inr ?_
          show (s.connection i).payloads = [client.data]
          rw [hone, hall]
    | newConnection => exact hcomplete
    | waits => exact hcomplete
    | answers n payload hn hle hline hpayload =>
      intro hdone
      obtain ⟨payload', hforetold⟩ := hi'.foretold
      obtain ⟨hnone, -⟩ := Connection.foretold_answer hforetold
      exact .inl (data_of_unanswered hi hnone).1
  · rw [hsame]
    exact hcomplete

/-- **What a friend gets.** Whatever else the server does in the meantime, the bytes of a
    finished fetch are none, or the beginning of what the server answered to its request from
    the files of the moment in which the request was complete; and all of it, unless the second
    wait is left between the first byte and the last. -/
theorem exchange_returned {files : FileSystem home} {s : System home ι}
    {es : List (SystemEvent home ι)}
    (hrun : Machine.run (step codec calls) { files := files } es = some s) (i : ι) :
    (s.connection i).client.data = [] ∨
      ∃ u, AnsweredAt codec calls { files := files } es i u ∧
        (s.connection i).client.data <+: (reply u.files (calls i).command).payload ∧
        ((s.connection i).client.phase = .done →
          Machine.Along (step codec calls) (Uncut i) { files := files } es →
          (s.connection i).client.data = (reply u.files (calls i).command).payload) := by
  have hi : Connection.Inv (calls i) (s.connection i) := inv_run hrun
  by_cases hempty : (s.connection i).client.data = []
  · exact .inl hempty
  · rcases answered_run hrun i with hnone | ⟨u, hu, hone⟩
    · exact .inl (data_of_unanswered hi hnone).1
    · refine .inr ⟨u, hu, data_prefix hi hone, ?_⟩
      intro hdone huncut
      have hstart : Complete {} := by
        intro hdone
        cases hdone
      have hcomplete := Machine.run_invariant_along
        (I := fun s => Connection.Inv (calls i) (s.connection i) ∧ Complete (s.connection i))
        (fun _ _ _ hI hQ h => ⟨inv_step hI.1 h, complete_step hI.1 hI.2 hQ h⟩)
        ⟨Connection.inv_start, hstart⟩ huncut hrun
      have hall := (hcomplete.2 hdone).resolve_left hempty
      exact List.singleton_inj.mp (hall.symm.trans hone)

theorem exchange_returned_two :
    ∃ s, Machine.run (step Codec.strict askLog) { files := board [1] } twoFriends = some s ∧
      (s.connection false).client.data ≠ [] ∧
      ((s.connection false).client.data = [] ∨
        ∃ u, AnsweredAt Codec.strict askLog { files := board [1] } twoFriends false u ∧
          (s.connection false).client.data <+:
            (reply u.files (askLog false).command).payload ∧
          ((s.connection false).client.phase = .done →
            Machine.Along (step Codec.strict askLog) (Uncut false) { files := board [1] }
              twoFriends →
            (s.connection false).client.data =
              (reply u.files (askLog false).command).payload)) := by
  obtain ⟨s, hrun, hdata, -⟩ := run_twoFriends
  exact ⟨s, hrun, by rw [hdata]; nofun, exchange_returned hrun false⟩

end System

end Exchange

end AlarmClock
