import AlarmClock.Invariant
import Mathlib.Order.Bounds.Basic

/-!
# The challenge that is shown

Several alarms may be due in one tick, and one dialog is shown for all of them.
`updateCurrentTime` puts what each alarm asks for in the order
Camera > Button > Ultrasonic > Game > Simple and means to show the strongest. The mode of
the dialog comes from three flags, so it does not depend on the order of the due alarms.
The game is overwritten by each alarm that asks for one, so the last of them decides
whether a game dialog is the ultrasonic one.
-/

namespace AlarmClock

open MainWindow

/-- What a dismiss dialog demands, weakest first. -/
inductive Challenge where
  | Simple
  | Game
  | Ultrasonic
  | Button
  | Camera
deriving DecidableEq, Repr

namespace Challenge

def rank : Challenge → Nat
  | Simple => 0
  | Game => 1
  | Ultrasonic => 2
  | Button => 3
  | Camera => 4

theorem rank_injective : Function.Injective rank := by
  intro a b h
  cases a <;> cases b <;> first | rfl | cases h

instance : LinearOrder Challenge := LinearOrder.lift' rank rank_injective

theorem le_def {a b : Challenge} : a ≤ b ↔ a.rank ≤ b.rank := Iff.rfl

end Challenge

/-- The challenge one due alarm asks for. -/
def TriggeredInfo.required (t : TriggeredInfo) : Challenge :=
  if t.dismissMode = DismissMode.DismissCamera.toInt then .Camera
  else if t.dismissMode = DismissMode.DismissButton.toInt then .Button
  else if t.dismissMode = DismissMode.DismissGame.toInt then
    if t.gameType = GameType.GameUltrasonic.toInt then .Ultrasonic else .Game
  else .Simple

/-- The challenge a dialog of this mode and this game is. -/
def DismissFrame.challenge (frame : DismissFrame) : Challenge :=
  match frame.mode, frame.gameType with
  | .Camera, _ => .Camera
  | .Button, _ => .Button
  | .Game, .Ultrasonic => .Ultrasonic
  | .Game, _ => .Game
  | .Simple, _ => .Simple

/-- What the due alarms ask for. -/
def demands (triggered : List TriggeredInfo) : Set Challenge :=
  {c | ∃ t ∈ triggered, t.required = c}

/-- No alarm that asks for the ultrasonic game can lose to one that asks for another:
    something stronger is due, or only one kind of the two is. -/
def GamesAgree (triggered : List TriggeredInfo) : Prop :=
  (∃ t ∈ triggered, t.required = .Camera ∨ t.required = .Button) ∨
    (∀ t ∈ triggered, t.required ≠ .Ultrasonic) ∨ ∀ t ∈ triggered, t.required ≠ .Game

instance (triggered : List TriggeredInfo) : Decidable (GamesAgree triggered) :=
  inferInstanceAs (Decidable (_ ∨ _ ∨ _))

/-! ### The fold that the last one wins -/

section LastWins

variable {α β : Type} {p : α → Prop} [DecidablePred p] {f : α → β}

/-- A fold that overwrites on some elements keeps the value of the last of them. -/
theorem foldl_overwrite (l : List α) (b : β) :
    l.foldl (fun b a => if p a then f a else b) b =
      ((l.filter (p ·)).getLast?.map f).getD b := by
  induction l using List.reverseRecOn with
  | nil => rfl
  | append_singleton l a ih =>
    rw [List.foldl_concat, ih, List.filter_append]
    by_cases h : p a
    · simp [h]
    · simp [h]

end LastWins

/-! ### What is shown -/

theorem TriggeredInfo.required_eq_camera {t : TriggeredInfo} :
    t.required = .Camera ↔ t.dismissMode = DismissMode.DismissCamera.toInt := by
  unfold required
  split_ifs with hcamera hbutton hgame hus <;> simp [hcamera]

theorem TriggeredInfo.required_eq_button {t : TriggeredInfo} :
    t.required = .Button ↔ t.dismissMode = DismissMode.DismissButton.toInt := by
  unfold required
  split_ifs with hcamera hbutton hgame hus
  · simp [hcamera, DismissMode.toInt]
  all_goals simp [hbutton]

/-- The alarms that ask for a game. -/
theorem TriggeredInfo.required_of_game {t : TriggeredInfo}
    (h : t.dismissMode = DismissMode.DismissGame.toInt) :
    t.required = if t.gameType = GameType.GameUltrasonic.toInt then .Ultrasonic else .Game := by
  simp [required, h, DismissMode.toInt]

theorem TriggeredInfo.required_eq_simple {t : TriggeredInfo} :
    t.required = .Simple ↔ t.dismissMode ≠ DismissMode.DismissCamera.toInt ∧
      t.dismissMode ≠ DismissMode.DismissButton.toInt ∧
      t.dismissMode ≠ DismissMode.DismissGame.toInt := by
  unfold required
  split_ifs with hcamera hbutton hgame hus <;> simp [*]

/-- The game one due alarm selects. -/
def TriggeredInfo.game (t : TriggeredInfo) : DismissDialog.GameType :=
  if t.gameType = GameType.GameColorMemory.toInt then .ColorMemory
  else if t.gameType = GameType.GameUltrasonic.toInt then .Ultrasonic
  else .NumberOrder

/-- The last alarm that asks for a game selects it. -/
theorem selectedGameType_eq (triggered : List TriggeredInfo) :
    selectedGameType triggered =
      ((triggered.filter fun t => t.dismissMode = DismissMode.DismissGame.toInt).getLast?.map
        TriggeredInfo.game).getD .NumberOrder :=
  foldl_overwrite (p := fun t : TriggeredInfo => t.dismissMode = DismissMode.DismissGame.toInt)
    (f := TriggeredInfo.game) triggered .NumberOrder

/-- What a game dialog demands is what the alarm that selected the game asks for. -/
theorem challenge_of_last_game {triggered : List TriggeredInfo} {now : QDateTime}
    {t : TriggeredInfo} (hmode : dismissMode triggered = .Game)
    (hlast : t ∈ (triggered.filter fun t =>
      t.dismissMode = DismissMode.DismissGame.toInt).getLast?) :
    (openDismissDialog now triggered).challenge = t.required := by
  have hgame : t.dismissMode = DismissMode.DismissGame.toInt := by
    have hmem := List.mem_of_mem_getLast? hlast
    simpa using (List.mem_filter.mp hmem).2
  have hselected : selectedGameType triggered = t.game := by
    rw [selectedGameType_eq, Option.mem_def.mp hlast]
    rfl
  rw [t.required_of_game hgame]
  simp only [DismissFrame.challenge, openDismissDialog, hmode, hselected, TriggeredInfo.game]
  split_ifs with hcolor hus
  · rw [hcolor] at hus
    cases hus
  all_goals rfl

/-- The mode, by what is due. -/
inductive ModeOf (triggered : List TriggeredInfo) : DismissDialog.Mode → Prop where
  | camera (t : TriggeredInfo) (ht : t ∈ triggered) (hcamera : t.required = .Camera) :
      ModeOf triggered .Camera
  | button (t : TriggeredInfo) (ht : t ∈ triggered) (hbutton : t.required = .Button)
      (hno : ∀ t ∈ triggered, t.required ≠ .Camera) : ModeOf triggered .Button
  | game (t : TriggeredInfo) (ht : t ∈ triggered)
      (hgame : t.dismissMode = DismissMode.DismissGame.toInt)
      (hno : ∀ t ∈ triggered, t.required ≠ .Camera ∧ t.required ≠ .Button) :
      ModeOf triggered .Game
  | simple (hno : ∀ t ∈ triggered, t.required = .Simple) : ModeOf triggered .Simple

theorem modeOf (triggered : List TriggeredInfo) : ModeOf triggered (dismissMode triggered) := by
  unfold dismissMode
  simp only [List.any_eq_true, beq_iff_eq]
  split_ifs with hcamera hbutton hgame
  · obtain ⟨t, ht, hmode⟩ := hcamera
    exact .camera t ht (TriggeredInfo.required_eq_camera.mpr hmode)
  · obtain ⟨t, ht, hmode⟩ := hbutton
    refine .button t ht (TriggeredInfo.required_eq_button.mpr hmode) ?_
    intro t ht hreq
    exact hcamera ⟨t, ht, TriggeredInfo.required_eq_camera.mp hreq⟩
  · obtain ⟨t, ht, hmode⟩ := hgame
    refine .game t ht hmode fun t ht => ⟨?_, ?_⟩
    · intro hreq
      exact hcamera ⟨t, ht, TriggeredInfo.required_eq_camera.mp hreq⟩
    · intro hreq
      exact hbutton ⟨t, ht, TriggeredInfo.required_eq_button.mp hreq⟩
  · refine .simple fun t ht => TriggeredInfo.required_eq_simple.mpr ⟨?_, ?_, ?_⟩
    · exact fun hmode => hcamera ⟨t, ht, hmode⟩
    · exact fun hmode => hbutton ⟨t, ht, hmode⟩
    · exact fun hmode => hgame ⟨t, ht, hmode⟩

/-- **What the dialog demands**: something that is asked for, and nothing stronger is, but
    the ultrasonic game may be due when another game is shown. -/
theorem challenge_spec {triggered : List TriggeredInfo} (hne : triggered ≠ []) (now : QDateTime) :
    (openDismissDialog now triggered).challenge ∈ demands triggered ∧
      ∀ t ∈ triggered, t.required ≤ (openDismissDialog now triggered).challenge ∨
        t.required = .Ultrasonic ∧ (openDismissDialog now triggered).challenge = .Game := by
  have hmodeOf := modeOf triggered
  generalize hmode : dismissMode triggered = mode at hmodeOf
  cases hmodeOf with
  | camera t ht hcamera =>
    have hshown : (openDismissDialog now triggered).challenge = .Camera := by
      simp [DismissFrame.challenge, openDismissDialog, hmode]
    rw [hshown]
    refine ⟨⟨t, ht, hcamera⟩, fun t _ => .inl ?_⟩
    cases t.required <;> decide
  | button t ht hbutton hno =>
    have hshown : (openDismissDialog now triggered).challenge = .Button := by
      simp [DismissFrame.challenge, openDismissDialog, hmode]
    rw [hshown]
    refine ⟨⟨t, ht, hbutton⟩, fun t ht => .inl ?_⟩
    have hcamera := hno t ht
    cases hreq : t.required with
    | Camera => exact absurd hreq hcamera
    | _ => decide
  | game t ht hgame hno =>
    have hgames : triggered.filter (fun t => t.dismissMode = DismissMode.DismissGame.toInt) ≠ [] :=
      List.ne_nil_of_mem (List.mem_filter.mpr ⟨ht, by simpa using hgame⟩)
    have hlast := List.getLast?_eq_some_getLast hgames
    generalize List.getLast _ hgames = last at hlast
    have hmem := List.mem_filter.mp (List.mem_of_mem_getLast? hlast)
    have hreq := last.required_of_game (by simpa using hmem.2)
    rw [challenge_of_last_game hmode hlast]
    refine ⟨⟨last, hmem.1, rfl⟩, ?_⟩
    intro t ht
    obtain ⟨hcamera, hbutton⟩ := hno t ht
    rw [hreq]
    cases ht' : t.required with
    | Camera => exact absurd ht' hcamera
    | Button => exact absurd ht' hbutton
    | _ => split_ifs <;> decide
  | simple hno =>
    have hshown : (openDismissDialog now triggered).challenge = .Simple := by
      simp [DismissFrame.challenge, openDismissDialog, hmode]
    obtain ⟨t, ht⟩ := List.exists_mem_of_ne_nil triggered hne
    rw [hshown]
    exact ⟨⟨t, ht, hno t ht⟩, fun t ht => .inl (le_of_eq (hno t ht))⟩

/-- What is asked for does not depend on the order. -/
theorem demands_perm {order triggered : List TriggeredInfo} (h : order.Perm triggered) :
    demands order = demands triggered := by
  ext c
  simp only [demands, Set.mem_ofPred_eq, h.mem_iff]

/-- When a game is due and nothing stronger than a game, the dialog is a game. -/
theorem dismissMode_eq_game {triggered : List TriggeredInfo} {t : TriggeredInfo}
    (ht : t ∈ triggered) (hgame : t.dismissMode = DismissMode.DismissGame.toInt)
    (hno : ∀ t ∈ triggered, t.required ≠ .Camera ∧ t.required ≠ .Button) :
    dismissMode triggered = .Game := by
  have hmodeOf := modeOf triggered
  generalize dismissMode triggered = mode at hmodeOf
  cases hmodeOf with
  | camera t ht hcamera => exact absurd hcamera (hno t ht).1
  | button t ht hbutton => exact absurd hbutton (hno t ht).2
  | game => rfl
  | simple hsimple => exact absurd hgame (TriggeredInfo.required_eq_simple.mp (hsimple t ht)).2.2

/-- **The strongest challenge in every order.** It is shown whatever the order of the due
    alarms exactly when the games agree. -/
theorem strongest_iff {triggered : List TriggeredInfo} (hne : triggered ≠ []) (now : QDateTime) :
    (∀ order : List TriggeredInfo, order.Perm triggered →
      IsGreatest (demands triggered) (openDismissDialog now order).challenge) ↔
    GamesAgree triggered := by
  constructor
  · intro h
    by_contra hagree
    simp only [GamesAgree, not_or, not_exists, not_and, not_forall, not_not] at hagree
    obtain ⟨hno, ⟨us, hus, husreq⟩, g, hg, hgreq⟩ := hagree
    have hperm : (triggered.erase g ++ [g]).Perm triggered :=
      (List.perm_append_singleton g _).trans (List.perm_cons_erase hg).symm
    have hgame : g.dismissMode = DismissMode.DismissGame.toInt := by
      by_contra hmode
      unfold TriggeredInfo.required at hgreq
      split_ifs at hgreq
    have hmode : dismissMode (triggered.erase g ++ [g]) = .Game := by
      apply dismissMode_eq_game (t := g) (by simp) hgame
      intro t ht
      exact hno t (hperm.mem_iff.mp ht)
    have hshown : (openDismissDialog now (triggered.erase g ++ [g])).challenge = g.required := by
      apply challenge_of_last_game hmode
      simp [List.filter_append, hgame]
    have hle := (h _ hperm).2 ⟨us, hus, rfl⟩
    rw [hshown, husreq, hgreq] at hle
    exact absurd hle (by decide)
  · intro hagree order hperm
    have horder : order ≠ [] := by
      rintro rfl
      exact hne hperm.nil_eq.symm
    obtain ⟨hmem, hle⟩ := challenge_spec horder now
    rw [demands_perm hperm] at hmem
    refine ⟨hmem, ?_⟩
    rintro c ⟨t, ht, rfl⟩
    rcases hle t (hperm.mem_iff.mpr ht) with hle' | ⟨hus, hgame⟩
    · exact hle'
    · rw [hgame] at hmem
      obtain ⟨g, hg, hgreq⟩ := hmem
      rcases hagree with ⟨t', ht', hstrong⟩ | hno | hno
      · rcases hle t' (hperm.mem_iff.mpr ht') with hle' | ⟨hus', -⟩
        · rw [hgame] at hle'
          rcases hstrong with h | h <;> rw [h] at hle' <;> exact absurd hle' (by decide)
        · rcases hstrong with h | h <;> rw [h] at hus' <;> cases hus'
      · exact absurd hus (hno t ht)
      · exact absurd hgreq (hno g hg)

/-- The dialog of a tick is opened on all due alarms, in the order of the sorted list. -/
theorem updateCurrentTime_opens (P : Platform) {m : MainWindow} {now : QDateTime}
    (hhandling : m.alarmHandling = false)
    (hdue : collectTriggered now (P.sort.sort m.alarms) ≠ []) :
    (updateCurrentTime P now m).frame =
      some (openDismissDialog now (collectTriggered now (P.sort.sort m.alarms))) := by
  have hempty : (collectTriggered now (P.sort.sort m.alarms)).isEmpty = false := by
    simpa using hdue
  simp [updateCurrentTime, refreshAlarmList, sortAlarmsByTime, hempty, hhandling]

/-- **A tick shows the strongest challenge due, in any order of the due alarms, exactly when
    the games agree.** -/
theorem updateCurrentTime_strongest_iff (P : Platform) (m : MainWindow) (now : QDateTime)
    (hhandling : m.alarmHandling = false)
    (hdue : collectTriggered now (P.sort.sort m.alarms) ≠ []) :
    ((updateCurrentTime P now m).frame =
        some (openDismissDialog now (collectTriggered now (P.sort.sort m.alarms)))) ∧
      ((∀ order : List TriggeredInfo,
          order.Perm (collectTriggered now (P.sort.sort m.alarms)) →
          IsGreatest (demands (collectTriggered now (P.sort.sort m.alarms)))
            (openDismissDialog now order).challenge) ↔
        GamesAgree (collectTriggered now (P.sort.sort m.alarms))) :=
  ⟨updateCurrentTime_opens P hhandling hdue, strongest_iff hdue now⟩

/-- An alarm of the +5s button, set at time 0. -/
def gameAlarm (alarmId : Int) (game : GameType) : AlarmEntry :=
  AlarmEntry.created [] alarmId
    ((Creation.setDebugAlarmPlus5Sec 0 0 .DismissGame game).accepted [])

/-- The same, to be dismissed with the button. -/
def buttonAlarm (alarmId : Int) : AlarmEntry :=
  AlarmEntry.created [] alarmId
    ((Creation.setDebugAlarmPlus5Sec 0 0 .DismissButton .GameNumberOrder).accepted [])

/-- Both games are due and a button alarm with them: the dialog asks for the button, and so
    does one opened on the same alarms from the last to the first. -/
theorem updateCurrentTime_strongest_of_three_alarms :
    let alarms := [gameAlarm 1 .GameUltrasonic, gameAlarm 2 .GameNumberOrder, buttonAlarm 3]
    let triggered := collectTriggered (QDateTime.currentDateTime 5000) alarms
    (updateCurrentTime (Platform.stable []) (QDateTime.currentDateTime 5000)
        { alarms := alarms }).frame.map (·.challenge) = some .Button ∧
      triggered.reverse ≠ triggered ∧
      (openDismissDialog (QDateTime.currentDateTime 5000) triggered.reverse).challenge = .Button ∧
      IsGreatest (demands triggered)
        (openDismissDialog (QDateTime.currentDateTime 5000) triggered.reverse).challenge :=
  ⟨by decide, by decide, by decide, (updateCurrentTime_strongest_iff (Platform.stable [])
    { alarms := [gameAlarm 1 .GameUltrasonic, gameAlarm 2 .GameNumberOrder, buttonAlarm 3] }
    (QDateTime.currentDateTime 5000) rfl (by decide)).2.mpr (by decide) _ (List.reverse_perm _)⟩

/-- Two alarms of the same moment, the ultrasonic one in front: the dialog is a plain game.
    The other way round it is the ultrasonic one. -/
theorem updateCurrentTime_hides_ultrasonic :
    let shown (alarms : List AlarmEntry) : Option Challenge :=
      (updateCurrentTime (Platform.stable []) (QDateTime.currentDateTime 5000)
        { alarms := alarms }).frame.map (·.challenge)
    shown [gameAlarm 1 .GameUltrasonic, gameAlarm 2 .GameNumberOrder] = some .Game ∧
      shown [gameAlarm 1 .GameNumberOrder, gameAlarm 2 .GameUltrasonic] = some .Ultrasonic ∧
      ¬ IsGreatest (demands (collectTriggered (QDateTime.currentDateTime 5000)
        [gameAlarm 1 .GameUltrasonic, gameAlarm 2 .GameNumberOrder])) Challenge.Game := by
  refine ⟨by decide, by decide, ?_⟩
  rintro ⟨-, hupper⟩
  have hle := hupper ⟨triggeredInfo 0 (gameAlarm 1 .GameUltrasonic), by decide, rfl⟩
  exact absurd hle (by decide)

end AlarmClock
