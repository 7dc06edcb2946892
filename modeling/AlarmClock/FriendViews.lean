import AlarmClock.Exchange

/-!
# What a friend comes to see

A client that is connected can always be led to the end of its fetch, whatever the server
has done for others. What it shows of a log that only grows is the beginning of that log, and
the photo that it shows for a row is the file that the row's record names.
-/

namespace AlarmClock

namespace Exchange

namespace System

variable {home : HomePath} {ι : Type*} [DecidableEq ι] {codec : Codec} {calls : ι → Call}

/-! ### No fetch is stuck -/

/-- What the loops of a client have been told. -/
structure Told (c : Connection) : Prop where
  opened : c.client.ok = true → c.payloads = [] → c.client.socket = .connected
  connected : c.client.socket = .connected → c.client.phase = .connecting → c.client.quit = true
  reading : c.client.phase = .reading → c.client.ok = true
  ended : c.client.phase = .reading → c.client.socket = .unconnected →
    c.client.quit = true ∧ c.client.wire = []

theorem onReadyRead_fields (s : Fetch.State) :
    s.onReadyRead.ok = s.ok ∧ s.onReadyRead.socket = s.socket ∧ s.onReadyRead.quit = s.quit ∧
      s.onReadyRead.wire = s.wire := by
  unfold Fetch.State.onReadyRead
  split_ifs
  · exact ⟨rfl, rfl, rfl, rfl⟩
  · exact ⟨rfl, rfl, rfl, rfl⟩

/-- A client that has returned is told nothing more. -/
theorem Told.done {c : Connection} (hdone : c.client.phase = .done)
    (hopened : c.client.ok = true → c.payloads = [] → c.client.socket = .connected) : Told c := by
  refine ⟨hopened, ?_, ?_, ?_⟩
  · intro _ hphase
    cases hdone.symm.trans hphase
  · intro hphase
    cases hdone.symm.trans hphase
  · intro hphase
    cases hdone.symm.trans hphase

theorem Told.client {call : Call} {c : Connection} (ht : Told c) (hi : Connection.Inv call c)
    {e : Fetch.Event} {client : Fetch.State}
    (hstep : Fetch.State.step call.caller c.client e = some client)
    (hclosed : e = .disconnected → c.payloads ≠ []) (up : QByteArray) :
    Told { c with client := client, up := up } := by
  obtain ⟨hphase, hs⟩ := Fetch.State.step_cases hstep
  have hearly : c.client.socket = .connecting → c.client.ok = false := by
    obtain ⟨payload, hforetold⟩ := hi.foretold
    have hfetch := (hi.fetch payload hforetold).early
    unfold Connection.whole at hfetch
    split_ifs at hfetch
    · exact hfetch
    · exact hfetch
  cases hs with
  | connected hconnecting =>
    refine ⟨fun _ _ => rfl, fun _ _ => rfl, fun _ => rfl, ?_⟩
    intro _ hsocket
    cases hsocket
  | refused hconnecting =>
    refine ⟨?_, ?_, ht.reading, ?_⟩
    · intro hok
      cases hok.symm.trans (hearly hconnecting)
    · intro hsocket
      cases hsocket
    · intro hreading
      cases (ht.reading hreading).symm.trans (hearly hconnecting)
  | arrive n hopen hn =>
    obtain ⟨hok, hsocket, hquit, hwire⟩ := onReadyRead_fields { c.client with
      wire := c.client.wire.drop n
      arrived := c.client.arrived + n
      buffer := c.client.buffer ++ c.client.wire.take n }
    have hphase' := Fetch.State.phase_onReadyRead { c.client with
      wire := c.client.wire.drop n
      arrived := c.client.arrived + n
      buffer := c.client.buffer ++ c.client.wire.take n }
    refine ⟨?_, ?_, ?_, ?_⟩
    · exact fun _ _ => hsocket.trans hopen
    · intro hs' hp'
      exact hquit.trans (ht.connected (hsocket.symm.trans hs') (hphase'.symm.trans hp'))
    · intro hp'
      exact hok.trans (ht.reading (hphase'.symm.trans hp'))
    · intro _ hs'
      cases (hsocket.symm.trans hs').symm.trans hopen
  | disconnected hwire =>
    refine ⟨?_, ?_, ht.reading, fun _ _ => ⟨rfl, hwire⟩⟩
    · intro _ hnone
      exact absurd hnone (hclosed rfl)
    · intro hsocket
      cases hsocket
  | timeout =>
    exact ⟨ht.opened, fun _ _ => rfl, ht.reading,
      fun hreading hsocket => ⟨rfl, (ht.ended hreading hsocket).2⟩⟩
  | connecting hconnecting =>
    rw [Fetch.State.afterConnecting_eq]
    split_ifs with hok hopen
    · refine ⟨ht.opened, ?_, fun _ => hok, fun _ hsocket => absurd hsocket hopen⟩
      intro _ hconnecting
      cases hconnecting
    · exact .done rfl ht.opened
    · exact .done rfl ht.opened
  | reading => exact .done rfl ht.opened

theorem told_step {i : ι} {s s' : System home ι} {e : SystemEvent home ι}
    (hi : Connection.Inv (calls i) (s.connection i)) (ht : Told (s.connection i))
    (h : step codec calls s e = some s') : Told (s'.connection i) := by
  have hi' := inv_step hi h
  rcases step_cases h i with ⟨d, rfl, hs⟩ | ⟨-, hsame⟩
  · generalize s'.connection i = c' at hs hi' ⊢
    cases hs with
    | client e client hstep hclosed => exact ht.client hi hstep hclosed _
    | newConnection => exact ⟨ht.opened, ht.connected, ht.reading, ht.ended⟩
    | waits => exact ⟨ht.opened, ht.connected, ht.reading, ht.ended⟩
    | answers n payload =>
      obtain ⟨payload', hforetold⟩ := hi'.foretold
      obtain ⟨hnone, -⟩ := Connection.foretold_answer hforetold
      refine ⟨?_, ht.connected, ht.reading, ?_⟩
      · intro hok _
        exact ht.opened hok hnone
      · intro hreading hsocket
        cases (ht.opened (ht.reading hreading) hnone).symm.trans hsocket
  · rw [hsame]
    exact ht

/-- A run of one connection without the timer. -/
def Leads (codec : Codec) (calls : ι → Call) (i : ι) : System home ι → System home ι → Prop :=
  Machine.Leads (step codec calls) fun e => ∃ d, e = .connection i d ∧ d ≠ .client .timeout

/-- One step of a connection. -/
theorem leads_step {i : ι} {s : System home ι} {d : Event} {c : Connection}
    (h : Connection.step codec (calls i) s.files (s.connection i) d = some c)
    (hd : d ≠ .client .timeout) :
    ∃ s', Leads codec calls i s s' ∧ s'.connection i = c ∧ s'.files = s.files := by
  refine ⟨{ s with connection := Function.update s.connection i c }, ?_,
    Function.update_self i c s.connection, rfl⟩
  exact Machine.Leads.one ⟨d, rfl, hd⟩ (Option.map_eq_some_iff.mpr ⟨c, h, rfl⟩)

/-- The same with an event of the client. -/
theorem leads_client (codec : Codec) {i : ι} {s : System home ι} {e : Fetch.Event}
    {client : Fetch.State}
    (htimer : e ≠ .timeout) (hclosed : e = .disconnected → (s.connection i).payloads ≠ [])
    (hrefused : e ≠ .refused)
    (h : Fetch.State.step (calls i).caller (s.connection i).client e = some client) :
    ∃ s', Leads codec calls i s s' ∧ (s'.connection i).client = client ∧
      (s'.connection i).payloads = (s.connection i).payloads := by
  have hnot : ¬ (e = .disconnected ∧ (s.connection i).payloads = [] ∨
      e = .refused ∧ (s.connection i).accepted = true) := by
    rintro (⟨hend, hnone⟩ | ⟨hno, -⟩)
    · exact hclosed hend hnone
    · exact hrefused hno
  have hstep : Connection.step codec (calls i) s.files (s.connection i) (.client e) =
      some { s.connection i with
        client := client
        up := (s.connection i).up ++ (s.connection i).written (calls i) e } := by
    simp only [Connection.step, if_neg hnot, h, Option.map_some]
  obtain ⟨s', hleads, hc, -⟩ := leads_step hstep fun heq => htimer (Event.client.inj heq)
  refine ⟨s', hleads, ?_, ?_⟩
  · rw [hc]
  · rw [hc]

theorem invariants_leads {i : ι} {s s' : System home ι} (h : Leads codec calls i s s')
    (hi : Connection.Inv (calls i) (s.connection i)) (ht : Told (s.connection i)) :
    Connection.Inv (calls i) (s'.connection i) ∧ Told (s'.connection i) :=
  Machine.Leads.invariant
    (I := fun s => Connection.Inv (calls i) (s.connection i) ∧ Told (s.connection i))
    (fun _ _ _ hs hstep => ⟨inv_step hs.1 hstep, told_step hs.1 hs.2 hstep⟩) h ⟨hi, ht⟩

/-- The first wait. -/
theorem leads_reading {i : ι} {s : System home ι}
    (hi : Connection.Inv (calls i) (s.connection i)) (ht : Told (s.connection i))
    (hphase : (s.connection i).client.phase = .connecting)
    (hopen : (s.connection i).client.ok = true ∨ (s.connection i).client.socket = .connecting) :
    ∃ s', Leads codec calls i s s' ∧ (s'.connection i).client.phase = .reading := by
  have hnone : (s.connection i).payloads = [] := by
    cases hi.asked with
    | unwritten _ _ _ hnone => exact hnone
    | onItsWay hne => exact absurd hphase hne
    | answered _ hne => exact absurd hphase hne
  have hleave : ∀ u : System home ι, (u.connection i).client.phase = .connecting →
      (u.connection i).client.ok = true → (u.connection i).client.socket = .connected →
      (u.connection i).client.quit = true →
      ∃ s', Leads codec calls i u s' ∧ (s'.connection i).client.phase = .reading := by
    intro u hu hok hsocket hquit
    have hstep : Fetch.State.step (calls i).caller (u.connection i).client .leave =
        some ((u.connection i).client.afterConnecting (calls i).caller) := by
      simp [Fetch.State.step, Fetch.State.deliver, hu, hquit]
    obtain ⟨s', hleads, hclient, -⟩ :=
      leads_client codec (e := .leave) (by simp) (by simp) (by simp) hstep
    refine ⟨s', hleads, ?_⟩
    rw [hclient, Fetch.State.afterConnecting_eq, if_pos hok, if_pos (by simp [hsocket])]
    rfl
  by_cases hok : (s.connection i).client.ok = true
  · have hsocket := ht.opened hok hnone
    exact hleave s hphase hok hsocket (ht.connected hsocket hphase)
  · have hconnecting := hopen.resolve_left hok
    have hstep : Fetch.State.step (calls i).caller (s.connection i).client .connected =
        some { (s.connection i).client with socket := .connected, ok := true, quit := true } := by
      simp [Fetch.State.step, Fetch.State.deliver, hphase, hconnecting]
    obtain ⟨u, hleads, hclient, -⟩ :=
      leads_client codec (e := .connected) (by simp) (by simp) (by simp) hstep
    obtain ⟨s', hleads', hreading⟩ := hleave u (by rw [hclient]; exact hphase)
      (by rw [hclient]) (by rw [hclient]) (by rw [hclient])
    exact ⟨s', hleads.trans hleads', hreading⟩

/-- The request reaches the server. -/
theorem leads_answered {i : ι} {s : System home ι}
    (hi : Connection.Inv (calls i) (s.connection i)) (ht : Told (s.connection i))
    (hphase : (s.connection i).client.phase = .reading) :
    ∃ s', Leads codec calls i s s' ∧ (s'.connection i).client.phase = .reading ∧
      (s'.connection i).payloads ≠ [] := by
  cases hi.asked with
  | unwritten hne => exact absurd hphase hne
  | answered payload _ _ _ hone => exact ⟨s, .refl s, hphase, by simp [hone]⟩
  | onItsWay _ hwhole hline hnone =>
    have hsocket := ht.opened (ht.reading hphase) hnone
    have hall : ∀ u : System home ι, (u.connection i).accepted = true →
        (u.connection i).inbox ++ (u.connection i).up = (calls i).command.request →
        Utf8.eol ∉ (u.connection i).inbox → (u.connection i).client.phase = .reading →
        ∃ s', Leads codec calls i u s' ∧ (s'.connection i).client.phase = .reading ∧
          (s'.connection i).payloads ≠ [] := by
      intro u haccepted hwhole hline hphase
      obtain ⟨-, hend⟩ := Connection.request_of_line (n := (u.connection i).up.length) hwhole
      have heol : Utf8.eol ∈ (u.connection i).inbox ++
          (u.connection i).up.take (u.connection i).up.length := by
        rw [hend, List.drop_length]
      have hpos : 0 < (u.connection i).up.length := by
        rw [List.length_pos_iff]
        intro hnil
        rw [hnil, List.take_nil, List.append_nil] at heol
        exact hline heol
      have hstep : Connection.step codec (calls i) u.files (u.connection i)
          (.readyRead (u.connection i).up.length) = some _ :=
        if_pos ⟨haccepted, hpos, Nat.le_refl _⟩
      obtain ⟨s', hleads, hc, -⟩ := leads_step hstep (by simp)
      rw [Connection.onReadyRead, if_pos heol] at hc
      refine ⟨s', hleads, ?_, ?_⟩
      · rw [hc]
        exact hphase
      · rw [hc]
        exact List.append_ne_nil_of_right_ne_nil _ (List.cons_ne_nil _ _)
    by_cases haccepted : (s.connection i).accepted = true
    · exact hall s haccepted hwhole hline hphase
    · have hstep : Connection.step codec (calls i) s.files (s.connection i) .newConnection =
          some { s.connection i with accepted := true } :=
        if_pos ⟨Bool.eq_false_iff.mpr haccepted, by simp [hsocket]⟩
      obtain ⟨u, hleads, hc, -⟩ := leads_step hstep (by simp)
      obtain ⟨s', hleads', hend⟩ :=
        hall u (by rw [hc]) (by rw [hc]; exact hwhole) (by rw [hc]; exact hline)
          (by rw [hc]; exact hphase)
      exact ⟨s', hleads.trans hleads', hend⟩

/-- The second wait, to its end. -/
theorem leads_returned {i : ι} {s : System home ι}
    (hi : Connection.Inv (calls i) (s.connection i)) (ht : Told (s.connection i))
    (hphase : (s.connection i).client.phase = .reading)
    (hanswered : (s.connection i).payloads ≠ []) :
    ∃ s', Leads codec calls i s s' ∧ (s'.connection i).client.phase = .done ∧
      (s'.connection i).client.wire = [] ∧ (s'.connection i).payloads ≠ [] := by
  have hearly : (s.connection i).client.socket ≠ .connecting := by
    intro hconnecting
    obtain ⟨payload, hforetold⟩ := hi.foretold
    have hfetch := (hi.fetch payload hforetold).early
    rw [Connection.whole, if_neg hanswered] at hfetch
    cases (ht.reading hphase).symm.trans (hfetch hconnecting)
  have hleave : ∀ u : System home ι, (u.connection i).client.phase = .reading →
      (u.connection i).client.quit = true → (u.connection i).client.wire = [] →
      (u.connection i).payloads ≠ [] →
      ∃ s', Leads codec calls i u s' ∧ (s'.connection i).client.phase = .done ∧
        (s'.connection i).client.wire = [] ∧ (s'.connection i).payloads ≠ [] := by
    intro u hu hquit hwire hne
    have hstep : Fetch.State.step (calls i).caller (u.connection i).client .leave =
        some (u.connection i).client.afterReading := by
      simp [Fetch.State.step, Fetch.State.deliver, hu, hquit]
    obtain ⟨s', hleads, hclient, hpayloads⟩ :=
      leads_client codec (e := .leave) (by simp) (by simp) (by simp) hstep
    refine ⟨s', hleads, ?_, ?_, ?_⟩
    · rw [hclient]
      rfl
    · rw [hclient]
      exact hwire
    · rw [hpayloads]
      exact hne
  have hclose : ∀ u : System home ι, (u.connection i).client.phase = .reading →
      (u.connection i).client.socket = .connected → (u.connection i).client.wire = [] →
      (u.connection i).payloads ≠ [] →
      ∃ s', Leads codec calls i u s' ∧ (s'.connection i).client.phase = .done ∧
        (s'.connection i).client.wire = [] ∧ (s'.connection i).payloads ≠ [] := by
    intro u hu hsocket hwire hne
    have hstep : Fetch.State.step (calls i).caller (u.connection i).client .disconnected =
        some { (u.connection i).client with socket := .unconnected, quit := true } := by
      simp [Fetch.State.step, Fetch.State.deliver, hu, hsocket, hwire]
    obtain ⟨t, hleads, hclient, hpayloads⟩ :=
      leads_client codec (e := .disconnected) (by simp) (fun _ => hne) (by simp) hstep
    obtain ⟨s', hleads', hend⟩ := hleave t (by rw [hclient]; exact hu) (by rw [hclient])
      (by rw [hclient]; exact hwire) (by rw [hpayloads]; exact hne)
    exact ⟨s', hleads.trans hleads', hend⟩
  cases hsocket : (s.connection i).client.socket with
  | connecting => exact absurd hsocket hearly
  | unconnected =>
    obtain ⟨hquit, hwire⟩ := ht.ended hphase hsocket
    exact hleave s hphase hquit hwire hanswered
  | connected =>
    by_cases hwire : (s.connection i).client.wire = []
    · exact hclose s hphase hsocket hwire hanswered
    · have hpos : 0 < (s.connection i).client.wire.length := List.length_pos_iff.mpr hwire
      have hstep : Fetch.State.step (calls i).caller (s.connection i).client
          (.arrive (s.connection i).client.wire.length) =
          some { (s.connection i).client with
            wire := (s.connection i).client.wire.drop (s.connection i).client.wire.length
            arrived := (s.connection i).client.arrived + (s.connection i).client.wire.length
            buffer := (s.connection i).client.buffer ++
              (s.connection i).client.wire.take
                (s.connection i).client.wire.length }.onReadyRead := by
        rw [Fetch.State.step, if_neg (by simp [hphase]), Fetch.State.deliver,
          if_pos ⟨hsocket, hpos, Nat.le_refl _⟩]
      obtain ⟨t, hleads, hclient, hpayloads⟩ := leads_client codec
        (e := .arrive (s.connection i).client.wire.length) (by simp) (by simp) (by simp) hstep
      obtain ⟨s', hleads', hend⟩ := hclose t
        (by rw [hclient, Fetch.State.phase_onReadyRead]; exact hphase)
        (by rw [hclient]; exact (onReadyRead_fields _).2.1.trans hsocket)
        (by rw [hclient]; exact (onReadyRead_fields _).2.2.2.trans List.drop_length)
        (by rw [hpayloads]; exact hanswered)
      exact ⟨s', hleads.trans hleads', hend⟩

/-- **No fetch is stuck.** Whatever the server has done for others, a client that is connected
    or still connecting can be led by its own events alone, without its timers, to return all
    that the server answers. -/
theorem exchange_completes {files : FileSystem home} {s : System home ι}
    {es : List (SystemEvent home ι)}
    (hrun : Machine.run (step codec calls) { files := files } es = some s) {i : ι}
    (hphase : (s.connection i).client.phase ≠ .done)
    (hopen : (s.connection i).client.ok = true ∨ (s.connection i).client.socket = .connecting) :
    ∃ s', Leads codec calls i s s' ∧ (s'.connection i).client.phase = .done ∧
      (s'.connection i).payloads = [(s'.connection i).client.data] := by
  have hstart : Connection.Inv (calls i) {} ∧ Told {} :=
    ⟨Connection.inv_start, ⟨by simp, by simp, by simp, by simp⟩⟩
  obtain ⟨hi, ht⟩ := Machine.run_invariant
    (I := fun s => Connection.Inv (calls i) (s.connection i) ∧ Told (s.connection i))
    (fun _ _ _ hs hstep => ⟨inv_step hs.1 hstep, told_step hs.1 hs.2 hstep⟩) hstart hrun
  have hreading : ∃ t, Leads codec calls i s t ∧ (t.connection i).client.phase = .reading := by
    cases hs : (s.connection i).client.phase with
    | connecting => exact leads_reading hi ht hs hopen
    | reading => exact ⟨s, .refl s, hs⟩
    | done => exact absurd hs hphase
  obtain ⟨t, hleads, hreading⟩ := hreading
  obtain ⟨hi₁, ht₁⟩ := invariants_leads hleads hi ht
  obtain ⟨u, hleads', hreading', hanswered⟩ := leads_answered hi₁ ht₁ hreading
  obtain ⟨hi₂, ht₂⟩ := invariants_leads hleads' hi₁ ht₁
  obtain ⟨s', hleads'', hdone, hwire, hne⟩ := leads_returned hi₂ ht₂ hreading' hanswered
  obtain ⟨hi₃, -⟩ := invariants_leads hleads'' hi₂ ht₂
  refine ⟨s', (hleads.trans hleads').trans hleads'', hdone, ?_⟩
  obtain ⟨payload, hforetold⟩ := hi₃.foretold
  have hone := hforetold.resolve_left hne
  have hfetch := hi₃.fetch payload hforetold
  rw [Connection.whole, if_neg hne] at hfetch
  have hdata := hfetch.whole
  rw [hwire, List.append_nil, hfetch.unread (.inr hdone), List.append_nil] at hdata
  rw [hone, hdata]

/-- The first client, when the server has accepted the second. -/
theorem exchange_completes_first :
    ∃ s s', Machine.run (step Codec.strict askLog) { files := board [1] }
        [.connection true (.client .connected), .connection true .newConnection,
          .connection false (.client .connected), .connection false (.client .leave)] = some s ∧
      Leads Codec.strict askLog false s s' ∧ (s'.connection false).client.phase = .done ∧
      (s'.connection false).payloads = [(s'.connection false).client.data] := by
  have hdata : (Machine.run (step Codec.strict askLog) { files := board [1] }
      [.connection true (.client .connected), .connection true .newConnection,
        .connection false (.client .connected), .connection false (.client .leave)]).map
      (fun s => ((s.connection false).client.phase, (s.connection false).client.ok)) =
        some (.reading, true) := by
    decide +kernel
  obtain ⟨s, hrun, hs⟩ := Option.map_eq_some_iff.mp hdata
  have hphase : (s.connection false).client.phase = .reading := congrArg Prod.fst hs
  have hok : (s.connection false).client.ok = true := congrArg Prod.snd hs
  obtain ⟨s', hend⟩ := exchange_completes hrun (i := false) (by simp [hphase]) (.inl hok)
  exact ⟨s, s', hrun, hend⟩

/-! ### Friends' logs and photos -/

/-- The log of the server's board, as a file. -/
def logOf (fs : FileSystem home) : QByteArray :=
  (Reply.ofFile fs (home.text ++ "/alarm.txt".toList)).payload

theorem reply_getLog (fs : FileSystem home) : (reply fs .getLog).payload = logOf fs := by
  have hcommand : QString.trimmed (Command.getLog.text ++ ['\n']) = "GET_LOG".toList := by
    decide
  unfold reply handleLine
  dsimp only
  rw [hcommand, if_pos (.inl rfl)]
  rfl

/-- The log only grows. -/
def AppendsLog (s : System home ι) (e : SystemEvent home ι) : Prop :=
  ∀ fs, e = .files fs → logOf s.files <+: logOf fs

/-- **A friend's view of a log.** When the log only grows, what has been gathered of it at any
    moment, whole or cut short, is the beginning of the log, and every line of it that ends is
    a line of the log. -/
theorem friendLog_prefix {files : FileSystem home} {s : System home ι}
    {es : List (SystemEvent home ι)}
    (hrun : Machine.run (step codec calls) { files := files } es = some s)
    (happends : Machine.Along (step codec calls) AppendsLog { files := files } es) {i : ι}
    (hcommand : (calls i).command = .getLog) :
    (s.connection i).client.data <+: logOf s.files ∧
      ((s.connection i).client.data.splitOn Utf8.eol).dropLast <+:
        (logOf s.files).splitOn Utf8.eol := by
  have hanswer := Machine.run_invariant_along
    (I := fun s => Connection.Inv (calls i) (s.connection i) ∧
      ∀ payload ∈ (s.connection i).payloads, payload <+: logOf s.files)
    ?_ ⟨Connection.inv_start, fun _ hnone => absurd hnone List.not_mem_nil⟩ happends hrun
  · have hdata : (s.connection i).client.data <+: logOf s.files := by
      obtain ⟨hi, hpayloads⟩ := hanswer
      obtain ⟨payload, hforetold⟩ := hi.foretold
      rcases hforetold with hnone | hone
      · rw [(data_of_unanswered hi hnone).1]
        exact List.nil_prefix
      · have hbegins := data_prefix hi hone
        exact hbegins.trans (hpayloads payload (by simp [hone]))
    exact ⟨hdata, Text.dropLast_splitOn_prefix hdata⟩
  · rintro s e s' ⟨hi, hpayloads⟩ hQ h
    refine ⟨inv_step hi h, ?_⟩
    have hgrows : logOf s.files <+: logOf s'.files := by
      cases e with
      | files fs =>
        obtain rfl := Option.some.inj h
        exact hQ fs rfl
      | connection j d =>
        obtain ⟨c, -, rfl⟩ := Option.map_eq_some_iff.mp h
        exact List.prefix_rfl
    have hkept : (s'.connection i).payloads = (s.connection i).payloads →
        ∀ payload ∈ (s'.connection i).payloads, payload <+: logOf s'.files := by
      intro hsame payload hpayload
      rw [hsame] at hpayload
      exact (hpayloads payload hpayload).trans hgrows
    rcases step_cases h i with ⟨d, rfl, hs⟩ | ⟨-, hsame⟩
    · generalize s'.connection i = c' at hs hkept ⊢
      cases hs with
      | client => exact hkept rfl
      | newConnection => exact hkept rfl
      | waits => exact hkept rfl
      | answers n payload hn hle hline hpayload =>
        intro payload' hmem
        rcases List.mem_append.mp hmem with hold | hnew
        · exact (hpayloads payload' hold).trans hgrows
        · rw [List.mem_singleton.mp hnew, hpayload, hi.answer_eq hn hle hline,
            answer_request, hcommand, reply_getLog]
          exact hgrows
    · exact hkept (by rw [hsame])

theorem friendLog_prefix_two :
    ∃ s, Machine.run (step Codec.strict askLog) { files := board [1] } twoFriends = some s ∧
      (s.connection true).client.data = [1, 10] ∧
      (s.connection true).client.data <+: logOf s.files ∧
      ((s.connection true).client.data.splitOn Utf8.eol).dropLast <+:
        (logOf s.files).splitOn Utf8.eol := by
  obtain ⟨s, hrun, -, hdata⟩ := run_twoFriends
  refine ⟨s, hrun, hdata, friendLog_prefix hrun ⟨?_, ?_⟩ rfl⟩
  · intro fs hfs
    obtain rfl := SystemEvent.files.inj hfs
    decide +kernel
  · intro s' _
    have hconnections : ∀ e ∈ twoFriends.tail, ∀ fs, e ≠ .files fs := by
      intro e he fs
      obtain ⟨x, -, rfl⟩ := List.mem_map.mp he
      intro heq
      cases heq
    exact (Machine.along_of_forall hconnections s').mono fun _ _ h fs hfs => absurd hfs (h fs)

/-- The path of a photo comes from one line, with no blank at either end. -/
theorem photoPath_of_mem_records {logData : QString} {r : StatDialog.Record}
    (h : r ∈ StatDialog.records logData) :
    '\n' ∉ r.photoPath ∧ Text.trim isSpace r.photoPath = r.photoPath := by
  obtain ⟨line, hline, rfl⟩ := List.mem_map.mp h
  obtain ⟨hline, -⟩ := List.mem_filter.mp hline
  obtain ⟨raw, hraw, rfl⟩ := List.mem_map.mp hline
  have hend : '\n' ∉ raw.trimmed :=
    fun hmem => Text.eol_not_mem_lines hraw (Text.trim_subset isSpace raw hmem)
  generalize raw.trimmed = text at hend
  -- the texts of a line: the fields that were read are trimmed pieces of it
  have hfold : ∀ (parts : List QString) (r : StatDialog.Record), (∀ part ∈ parts, part ⊆ text) →
      '\n' ∉ r.photoPath ∧ Text.trim isSpace r.photoPath = r.photoPath →
      '\n' ∉ (parts.foldl StatDialog.readPart r).photoPath ∧
        Text.trim isSpace (parts.foldl StatDialog.readPart r).photoPath =
          (parts.foldl StatDialog.readPart r).photoPath := by
    intro parts
    induction parts with
    | nil => exact fun r _ hr => hr
    | cons part parts ih =>
      intro r hparts hr
      refine ih _ (fun p hp => hparts p (List.mem_cons_of_mem _ hp)) ?_
      unfold StatDialog.readPart
      split_ifs
      · exact hr
      · exact hr
      · refine ⟨?_, Text.trim_trim isSpace _⟩
        intro hmem
        have hdropped := Text.trim_subset isSpace _ hmem
        exact hend (hparts part List.mem_cons_self (List.mem_of_mem_drop hdropped))
      · exact hr
  have hparts : ∀ part ∈ text.splitSkipEmptyParts " | ".toList, part ⊆ text :=
    fun part hpart => Text.split_subset (List.mem_filter.mp hpart).1
  have hread := hfold _ {} hparts ⟨List.not_mem_nil, rfl⟩
  unfold StatDialog.readLine StatDialog.parseDates StatDialog.readTexts
  dsimp only
  split_ifs
  · exact hread
  · exact hread
  · exact hread
  · exact hread

/-- A photo command names the path it was made from. -/
theorem asksFor_getPhoto {photoPath : QString} (hline : '\n' ∉ photoPath)
    (htrim : Text.trim isSpace photoPath = photoPath) (hne : photoPath ≠ []) :
    AsksFor ((Command.getPhoto photoPath hline).text ++ ['\n']) photoPath := by
  have hword : Text.Trimmed isSpace ("GET_PHOTO:".toList ++ photoPath) := by
    refine ⟨?_, ?_⟩
    · rintro x hx
      obtain rfl : 'G' = x := Option.some.inj hx
      decide
    · rw [List.getLast?_append_of_ne_nil _ hne]
      exact (Text.trimmed_of_trim htrim).2
  have hcommand : QString.trimmed ((Command.getPhoto photoPath hline).text ++ ['\n']) =
      "GET_PHOTO:".toList ++ photoPath :=
    Text.trim_concat hword (List.append_ne_nil_of_left_ne_nil (List.cons_ne_nil _ _) _) (by decide)
  refine ⟨?_, ?_⟩
  · rw [hcommand]
    exact QString.startsWith_iff.mpr ⟨photoPath, rfl⟩
  · rw [hcommand]
    exact htrim.symm

/-- **A friend's photo.** The View button of a row asks for the path in its record. What comes
    back is nothing, or the beginning of the file at that path on the friend's board, which
    passes the server's tests, as it was at one moment; all of it, if the wait is not cut. -/
theorem friendPhoto_returned {logData : QString} {r : StatDialog.Record}
    (hr : r ∈ StatDialog.records logData) (hne : r.photoPath ≠ [])
    {files : FileSystem home} {s : System home ι} {es : List (SystemEvent home ι)}
    (hrun : Machine.run (step codec calls) { files := files } es = some s) {i : ι}
    (hcommand : (calls i).command =
      .getPhoto r.photoPath (photoPath_of_mem_records hr).1) :
    (s.connection i).client.data = [] ∨
      ∃ u bytes, AnsweredAt codec calls { files := files } es i u ∧
        r.photoPath.startsWith home.text = true ∧
        r.photoPath.contains "..".toList = false ∧
        readFile u.files r.photoPath = some bytes ∧
        (s.connection i).client.data <+: bytes ∧
        ((s.connection i).client.phase = .done →
          Machine.Along (step codec calls) (Uncut i) { files := files } es →
          (s.connection i).client.data = bytes) := by
  obtain ⟨hline, htrim⟩ := photoPath_of_mem_records hr
  rcases exchange_returned hrun i with hempty | ⟨u, hu, hprefix, hall⟩
  · exact .inl hempty
  · have hasks := asksFor_getPhoto hline htrim hne
    have hreply : handleLine u.files _ = _ := handleLine_of_asksFor hasks
    rw [hcommand, reply, hreply] at hprefix hall
    split_ifs at hprefix hall with htests
    · rw [Bool.and_eq_true, Bool.not_eq_true'] at htests
      cases hfile : readFile u.files r.photoPath with
      | none =>
        rw [Reply.ofFile, hfile] at hprefix
        exact .inl (List.prefix_nil.mp hprefix)
      | some bytes =>
        rw [Reply.ofFile, hfile] at hprefix hall
        exact .inr ⟨u, bytes, hu, htests.1, htests.2, hfile, hprefix, hall⟩
    · exact .inl (List.prefix_nil.mp hprefix)

/-- A record with a photo, and a friend who asks for it. -/
def photoRecord : StatDialog.Record := StatDialog.readLine "PHOTO: /root/a.jpg".toList

def askPhoto (_ : Unit) : Call where
  caller := .fetchFromFriend
  command := .getPhoto "/root/a.jpg".toList (by decide)

def photoRun : List (SystemEvent rootHome Unit) :=
  [.client .connected, .client .leave, .newConnection, .readyRead 22, .client (.arrive 3),
    .client .disconnected, .client .leave].map (.connection ())

theorem friendPhoto_returned_root :
    ∃ s, Machine.run (step Codec.strict askPhoto) { files := board [] } photoRun = some s ∧
      (s.connection ()).client.data = [255, 216, 255] ∧
      ((s.connection ()).client.data = [] ∨
        ∃ u bytes, AnsweredAt Codec.strict askPhoto { files := board [] } photoRun () u ∧
          readFile u.files photoRecord.photoPath = some bytes ∧
          (s.connection ()).client.data <+: bytes) := by
  have hr : photoRecord ∈ StatDialog.records "PHOTO: /root/a.jpg".toList := by decide +kernel
  have hpath : photoRecord.photoPath = "/root/a.jpg".toList := by decide +kernel
  have hdata : (Machine.run (step Codec.strict askPhoto) { files := board [] } photoRun).map
      (fun s => (s.connection ()).client.data) = some [255, 216, 255] := by
    decide +kernel
  have hcommand : (askPhoto ()).command =
      .getPhoto photoRecord.photoPath (photoPath_of_mem_records hr).1 := by
    simp only [askPhoto, hpath]
  obtain ⟨s, hrun, hs⟩ := Option.map_eq_some_iff.mp hdata
  refine ⟨s, hrun, hs, ?_⟩
  have hend := friendPhoto_returned hr (by simp [hpath]) hrun hcommand
  refine hend.imp_right ?_
  rintro ⟨u, bytes, hu, -, -, hfile, hprefix, -⟩
  exact ⟨u, bytes, hu, hfile, hprefix⟩

end System

end Exchange

end AlarmClock
