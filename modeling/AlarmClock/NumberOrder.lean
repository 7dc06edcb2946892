import AlarmClock.DateTime
import AlarmClock.Lib.IndexedUpdate
import AlarmClock.Lib.Machine

/-!
# The Number Order game

The numbers 1 to 25 are shuffled over a grid of buttons, and are to be clicked in order. A
right click disables its button for good, a wrong one paints its button red and leaves it
to a timer to paint it back. Both restart the debounce clock. The draws of the random
generator and the times of the clicks are left to the events.
-/

namespace AlarmClock.NumberOrder

/-! ### The grid -/

/-- The shuffle: `draws i` is what `bounded(i + 1)` returns in the round for `i`. -/
def shuffle (draws : (i : Nat) → Fin (i + 1)) : List Nat :=
  (List.range' 1 24).reverse.foldl (fun nums i => IndexedUpdate.swap nums i (draws i))
    (List.range' 1 25)

/-- `m_numButtons` after the grid has been built: at a number less one, the position of its
    button. -/
def gridButtons (nums : List Nat) : List (Option Nat) :=
  (nums.zipIdx.map fun (num, pos) => (num - 1, some pos)).foldl (fun bs p => bs.set p.1 p.2)
    (List.replicate 25 none)

/-- **The shuffle loses no number**, whatever is drawn. -/
theorem shuffle_perm (draws : (i : Nat) → Fin (i + 1)) :
    (shuffle draws).Perm (List.range' 1 25) := by
  have hloop : ∀ (is nums : List Nat),
      (is.foldl (fun nums i => IndexedUpdate.swap nums i (draws i)) nums).Perm nums := by
    intro is
    induction is with
    | nil => exact List.Perm.refl
    | cons i is ih => exact fun nums => (ih _).trans (IndexedUpdate.swap_perm nums i (draws i))
  exact hloop _ _

/-- What a grid of the numbers 1 to 25 is. -/
theorem mem_grid {nums : List Nat} (hperm : nums.Perm (List.range' 1 25)) {v : Nat} :
    v ∈ nums ↔ 1 ≤ v ∧ v ≤ 25 := by
  rw [hperm.mem_iff, List.mem_range'_1]
  omega

/-- One button for every number. -/
theorem existsUnique_button {nums : List Nat} (hperm : nums.Perm (List.range' 1 25)) {v : Nat}
    (hlo : 1 ≤ v) (hhi : v ≤ 25) : ∃! pos : Nat, nums[pos]? = some v := by
  have hnodup : nums.Nodup := hperm.nodup_iff.mpr List.nodup_range'
  obtain ⟨pos, hpos⟩ := List.mem_iff_getElem?.mp ((mem_grid hperm).mpr ⟨hlo, hhi⟩)
  refine ⟨pos, hpos, ?_⟩
  intro pos' hpos'
  obtain ⟨hlt, hget⟩ := List.getElem?_eq_some_iff.mp hpos
  obtain ⟨hlt', hget'⟩ := List.getElem?_eq_some_iff.mp hpos'
  exact (hnodup.getElem_inj_iff).mp (hget'.trans hget.symm)

/-- The table leads from every number to its button. -/
theorem gridButtons_spec {nums : List Nat} (hperm : nums.Perm (List.range' 1 25)) {pos v : Nat}
    (hpos : nums[pos]? = some v) : (gridButtons nums)[v - 1]? = some (some pos) := by
  obtain ⟨hlo, hhi⟩ := (mem_grid hperm).mp (List.mem_of_getElem? hpos)
  apply IndexedUpdate.getElem?_foldl_set
  · have hkeys : (nums.zipIdx.map fun (num, pos) => (num - 1, some pos)).map Prod.fst =
        nums.map (· - 1) := by
      have hfst : (nums.zipIdx.map Prod.fst).map (· - 1) = nums.map (· - 1) := by
        rw [List.zipIdx_map_fst]
      rw [← hfst, List.map_map, List.map_map]
      rfl
    rw [hkeys]
    apply List.Nodup.map_on _ (hperm.nodup_iff.mpr List.nodup_range')
    intro x hx y hy hxy
    have hx' := (mem_grid hperm).mp hx
    have hy' := (mem_grid hperm).mp hy
    omega
  · exact List.mem_map.mpr ⟨(v, pos), List.mem_zipIdx_iff_getElem?.mpr hpos, rfl⟩
  · rw [List.length_replicate]
    omega

/-! ### The dialog -/

inductive Style where
  | plain
  | right
  | wrong
deriving DecidableEq, Repr

structure DismissDialog where
  /-- The numbers on the buttons, by their positions in the grid. -/
  nums : List Nat
  numButtons : List (Option Nat)
  /-- The buttons that are enabled, and their style sheets, by positions. -/
  enabled : Nat → Bool
  style : Nat → Style
  nextExpected : Nat
  progressLabel : QString
  /-- The time of the last restart. -/
  actionTimer : Nat
  /-- The numbers of the buttons that are to be painted back. -/
  timers : List Nat
  /-- How often `accept` has been called. -/
  accepted : Nat
  clock : Nat

def nextText (nextExpected : Nat) : QString := "Next: ".toList ++ TextFormat.decimal nextExpected

/-- The game on a grid, as the constructor leaves it. -/
def gameOn (now : Nat) (nums : List Nat) : DismissDialog where
  nums := nums
  numButtons := gridButtons nums
  enabled := fun _ => true
  style := fun _ => .plain
  nextExpected := 1
  progressLabel := nextText 1
  actionTimer := now
  timers := []
  accepted := 0
  clock := now

def buildNumberOrderGameUi (now : Nat) (draws : (i : Nat) → Fin (i + 1)) : DismissDialog :=
  gameOn now (shuffle draws)

/-- `m_numButtons[number - 1]`: nothing outside the array, and inside perhaps a null pointer. -/
def button (number : Nat) (d : DismissDialog) : Option (Option Nat) :=
  if 1 ≤ number then d.numButtons[number - 1]? else none

def setEnabled (btn : Nat) (on : Bool) (d : DismissDialog) : DismissDialog :=
  { d with enabled := Function.update d.enabled btn on }

def setStyleSheet (btn : Nat) (style : Style) (d : DismissDialog) : DismissDialog :=
  { d with style := Function.update d.style btn style }

/-- `none` is the use of a button that is not there. -/
def onNumberClicked (now number : Nat) (d : DismissDialog) : Option DismissDialog :=
  if now - d.actionTimer < 300 then some d
  else do
    let d := { d with actionTimer := now }
    let btn ← (button number d).join
    if number = d.nextExpected then
      let d := setStyleSheet btn .right (setEnabled btn false d)
      let d := { d with nextExpected := d.nextExpected + 1 }
      if d.nextExpected > 25 then return { d with accepted := d.accepted + 1 }
      else return { d with progressLabel := nextText d.nextExpected }
    else
      let d := setStyleSheet btn .wrong d
      return { d with timers := d.timers ++ [number] }

/-- The slot of the timer after a wrong click. -/
def restore (number : Nat) (d : DismissDialog) : Option DismissDialog := do
  match ← button number d with
  | some btn => return if d.enabled btn then setStyleSheet btn .plain d else d
  | none => return d

/-- The timer in this place of the queue fires, or the button at a position is clicked. -/
inductive Event where
  | expire (i : Nat)
  | click (now pos : Nat)
deriving DecidableEq, Repr

/-- A timer fires when it is set, and a click reaches a button that is enabled. -/
def Deliverable (d : DismissDialog) : Event → Prop
  | .expire i => i < d.timers.length
  | .click now pos => d.clock ≤ now ∧ pos < d.nums.length ∧ d.enabled pos = true

instance (d : DismissDialog) (ev : Event) : Decidable (Deliverable d ev) :=
  match ev with
  | .expire i => inferInstanceAs (Decidable (i < d.timers.length))
  | .click now pos =>
    inferInstanceAs (Decidable (d.clock ≤ now ∧ pos < d.nums.length ∧ d.enabled pos = true))

def handle (d : DismissDialog) : Event → Option DismissDialog
  | .expire i => (d.timers[i]?).bind fun n => restore n { d with timers := d.timers.eraseIdx i }
  | .click now pos => (d.nums[pos]?).bind fun n => onNumberClicked now n { d with clock := now }

def step (d : DismissDialog) (ev : Event) : Option DismissDialog :=
  if Deliverable d ev then handle d ev else none

/-! ### What a slot does -/

variable {d d' : DismissDialog}

/-- The numbers are all there, each on one button that the table leads to; those before the
    next are disabled, the others enabled. -/
structure Inv (d : DismissDialog) : Prop where
  perm : d.nums.Perm (List.range' 1 25)
  table : d.numButtons = gridButtons d.nums
  next : 1 ≤ d.nextExpected ∧ d.nextExpected ≤ 26
  enabled : ∀ pos v, d.nums[pos]? = some v → (d.enabled pos = true ↔ d.nextExpected ≤ v)
  right : ∀ pos, d.enabled pos = false → d.style pos = .right
  timers : ∀ n ∈ d.timers, n ∈ d.nums
  accepted : d.accepted = if d.nextExpected = 26 then 1 else 0

/-- A click at `now` passes the debounce. -/
def Passes (d : DismissDialog) (now : Nat) : Prop := 300 ≤ now - d.actionTimer

instance (d : DismissDialog) (now : Nat) : Decidable (Passes d now) :=
  inferInstanceAs (Decidable (_ ≤ _))

/-- The dialog after a click on the button at a position, with its number. -/
inductive ClickTo (d : DismissDialog) (now pos number : Nat) : DismissDialog → Prop where
  | debounced (hearly : ¬ Passes d now) : ClickTo d now pos number { d with clock := now }
  | right (label : QString) (hpasses : Passes d now) (hright : number = d.nextExpected) :
      ClickTo d now pos number
        { d with
          clock := now
          actionTimer := now
          enabled := Function.update d.enabled pos false
          style := Function.update d.style pos .right
          nextExpected := d.nextExpected + 1
          progressLabel := label
          accepted := if d.nextExpected + 1 > 25 then d.accepted + 1 else d.accepted }
  | wrong (hpasses : Passes d now) (hwrong : number ≠ d.nextExpected) :
      ClickTo d now pos number
        { d with
          clock := now
          actionTimer := now
          style := Function.update d.style pos .wrong
          timers := d.timers ++ [number] }

theorem button_of_inv (h : Inv d) {pos number : Nat} (hpos : d.nums[pos]? = some number) :
    button number d = some (some pos) := by
  have hlo := ((mem_grid h.perm).mp (List.mem_of_getElem? hpos)).1
  unfold button
  rw [if_pos hlo, h.table]
  exact gridButtons_spec h.perm hpos

/-- **A click** finds its button. -/
theorem click_spec (h : Inv d) {pos number : Nat} (hpos : d.nums[pos]? = some number) (now : Nat) :
    ∃ d', handle d (.click now pos) = some d' ∧ ClickTo d now pos number d' := by
  have hbutton : ∀ t, button number { d with clock := now, actionTimer := t } = some (some pos) :=
    fun _ => button_of_inv h hpos
  unfold handle onNumberClicked
  simp only [hpos, Option.bind_some]
  by_cases hearly : now - d.actionTimer < 300
  · rw [if_pos hearly]
    exact ⟨_, rfl, .debounced (Nat.not_le.mpr hearly)⟩
  · have hpasses : Passes d now := Nat.not_lt.mp hearly
    rw [if_neg hearly, hbutton]
    simp only [Option.join_some, Option.bind_eq_bind, Option.bind_some]
    by_cases hright : number = d.nextExpected
    · rw [if_pos hright]
      have hto : ClickTo d now pos number _ := ClickTo.right
        (if d.nextExpected + 1 > 25 then d.progressLabel else nextText (d.nextExpected + 1))
        hpasses hright
      by_cases hlast : d.nextExpected + 1 > 25
      · rw [if_pos hlast, if_pos hlast] at hto
        rw [if_pos (by exact hlast)]
        exact ⟨_, rfl, hto⟩
      · rw [if_neg hlast, if_neg hlast] at hto
        rw [if_neg (by exact hlast)]
        exact ⟨_, rfl, hto⟩
    · rw [if_neg hright]
      exact ⟨_, rfl, .wrong hpasses hright⟩

/-- **A timer** paints at most a button that is still enabled. -/
theorem expire_spec (h : Inv d) {i : Nat} (hi : i < d.timers.length) :
    ∃ style', handle d (.expire i) =
        some { d with timers := d.timers.eraseIdx i, style := style' } ∧
      ∀ pos, d.enabled pos = false → style' pos = d.style pos := by
  have hget := List.getElem?_eq_getElem hi
  obtain ⟨pos, hpos⟩ := List.mem_iff_getElem?.mp (h.timers _ (List.getElem_mem hi))
  have hbutton : button d.timers[i] { d with timers := d.timers.eraseIdx i } = some (some pos) :=
    button_of_inv h hpos
  unfold handle restore
  simp only [hget, Option.bind_some, hbutton, Option.bind_eq_bind]
  by_cases hon : d.enabled pos = true
  · rw [if_pos hon]
    refine ⟨Function.update d.style pos .plain, rfl, ?_⟩
    intro pos' hoff
    have hne : pos' ≠ pos := by
      rintro rfl
      rw [hon] at hoff
      cases hoff
    exact Function.update_of_ne hne _ _
  · rw [if_neg hon]
    exact ⟨d.style, rfl, fun _ _ => rfl⟩

/-- The position of a number. -/
theorem pos_unique (h : Inv d) {pos pos' v : Nat} (hpos : d.nums[pos]? = some v)
    (hpos' : d.nums[pos']? = some v) : pos = pos' := by
  obtain ⟨hlo, hhi⟩ := (mem_grid h.perm).mp (List.mem_of_getElem? hpos)
  exact (existsUnique_button h.perm hlo hhi).unique hpos hpos'

theorem inv_click (h : Inv d) {now pos number : Nat} (hpos : d.nums[pos]? = some number)
    (hon : d.enabled pos = true) (hclick : ClickTo d now pos number d') : Inv d' := by
  obtain ⟨hlo, hhi⟩ := (mem_grid h.perm).mp (List.mem_of_getElem? hpos)
  have hnext : d.nextExpected ≤ number := (h.enabled pos number hpos).mp hon
  cases hclick with
  | debounced hearly => exact ⟨h.perm, h.table, h.next, h.enabled, h.right, h.timers, h.accepted⟩
  | right label hpasses hright =>
    subst hright
    refine ⟨h.perm, h.table, by have := h.next; dsimp only; omega, ?_, ?_, h.timers, ?_⟩
    · intro pos' v hpos'
      by_cases hsame : pos' = pos
      · subst hsame
        obtain rfl := Option.some.inj (hpos.symm.trans hpos')
        simp
      · have hne : v ≠ d.nextExpected := by
          rintro rfl
          exact hsame (pos_unique h hpos' hpos)
        simp only [Function.update_of_ne hsame, h.enabled pos' v hpos']
        omega
    · intro pos' hoff
      by_cases hsame : pos' = pos
      · subst hsame
        exact Function.update_self ..
      · simp only [Function.update_of_ne hsame] at hoff ⊢
        exact h.right pos' hoff
    · have hzero : d.accepted = 0 := h.accepted.trans (if_neg (by omega))
      simp only [hzero]
      split_ifs <;> omega
  | wrong hpasses hwrong =>
    refine ⟨h.perm, h.table, h.next, h.enabled, ?_, ?_, h.accepted⟩
    · intro pos' hoff
      have hne : pos' ≠ pos := by
        rintro rfl
        rw [hon] at hoff
        cases hoff
      simp only [Function.update_of_ne hne]
      exact h.right pos' hoff
    · intro n hn
      rcases List.mem_append.mp hn with hn | hn
      · exact h.timers n hn
      · obtain rfl := List.mem_singleton.mp hn
        exact List.mem_of_getElem? hpos

/-- A step is a timer that paints, or a click on an enabled button. -/
theorem step_cases (h : Inv d) {ev : Event} (hstep : step d ev = some d') :
    (∃ i style', ev = .expire i ∧ d' = { d with timers := d.timers.eraseIdx i, style := style' } ∧
      ∀ pos, d.enabled pos = false → style' pos = d.style pos) ∨
    ∃ now pos number, ev = .click now pos ∧ d.nums[pos]? = some number ∧ d.enabled pos = true ∧
      ClickTo d now pos number d' := by
  unfold step at hstep
  split at hstep
  · next hdeliver =>
    cases ev with
    | expire i =>
      obtain ⟨style', hhandle, hkeeps⟩ := expire_spec h hdeliver
      obtain rfl := Option.some.inj (hhandle.symm.trans hstep)
      exact .inl ⟨i, style', rfl, rfl, hkeeps⟩
    | click now pos =>
      obtain ⟨-, hlt, hon⟩ := hdeliver
      have hpos := List.getElem?_eq_getElem hlt
      obtain ⟨d₁, hhandle, hclick⟩ := click_spec h hpos now
      obtain rfl := Option.some.inj (hhandle.symm.trans hstep)
      exact .inr ⟨now, pos, _, rfl, hpos, hon, hclick⟩
  · cases hstep

theorem inv_step (h : Inv d) {ev : Event} (hstep : step d ev = some d') : Inv d' := by
  rcases step_cases h hstep with
    ⟨i, style', -, rfl, hkeeps⟩ | ⟨now, pos, number, -, hpos, hon, hclick⟩
  · refine ⟨h.perm, h.table, h.next, h.enabled, ?_, ?_, h.accepted⟩
    · intro pos hoff
      exact (hkeeps pos hoff).trans (h.right pos hoff)
    · intro n hn
      exact h.timers n (List.mem_of_mem_eraseIdx hn)
  · exact inv_click h hpos hon hclick

/-- No button is missing when it is used. -/
theorem handle_of_deliverable (h : Inv d) {ev : Event} (hdeliver : Deliverable d ev) :
    ∃ d', handle d ev = some d' := by
  cases ev with
  | expire i =>
    obtain ⟨style', hhandle, -⟩ := expire_spec h hdeliver
    exact ⟨_, hhandle⟩
  | click now pos =>
    obtain ⟨d', hhandle, -⟩ := click_spec h (List.getElem?_eq_getElem hdeliver.2.1) now
    exact ⟨d', hhandle⟩

/-- The numbers on the buttons are those that were built. -/
theorem nums_step (h : Inv d) {ev : Event} (hstep : step d ev = some d') : d'.nums = d.nums := by
  rcases step_cases h hstep with ⟨i, style', -, rfl, -⟩ | ⟨now, pos, number, -, -, -, hclick⟩
  · rfl
  · cases hclick <;> rfl

/-! ### The clicks that count -/

/-- The numbers that were clicked past the debounce, in order. -/
def note (d : DismissDialog) (ev : Event) (clicks : List Nat) : List Nat :=
  match ev with
  | .expire _ => clicks
  | .click now pos => if Passes d now then clicks ++ (d.nums[pos]?).toList else clicks

/-- The next number tells how far the clicks have come in order, whatever else was clicked
    in between. -/
def Noted (d : DismissDialog) (clicks : List Nat) : Prop :=
  ∀ k, (List.range' 1 k).Sublist clicks ↔ k < d.nextExpected

/-- One more number, at the end of the row and of the clicks. -/
theorem range'_sublist_concat {clicks : List Nat} {k n : Nat} :
    (List.range' 1 (k + 1)).Sublist (clicks ++ [n]) ↔
      (List.range' 1 (k + 1)).Sublist clicks ∨ n = k + 1 ∧ (List.range' 1 k).Sublist clicks := by
  have hlast : List.range' 1 (k + 1) = List.range' 1 k ++ [k + 1] := by
    rw [List.range'_1_concat, Nat.add_comm 1 k]
  rw [hlast, ← List.reverse_sublist, List.reverse_concat, List.reverse_concat,
    List.cons_sublist_cons', List.reverse_sublist, ← List.reverse_concat, List.reverse_sublist,
    eq_comm (a := n)]

theorem noted_concat {clicks : List Nat} (hnoted : Noted d clicks) (hnext : 1 ≤ d.nextExpected)
    (n : Nat) (k : Nat) : (List.range' 1 k).Sublist (clicks ++ [n]) ↔
      k < if n = d.nextExpected then d.nextExpected + 1 else d.nextExpected := by
  cases k with
  | zero =>
    simp only [List.range'_zero, List.nil_sublist, true_iff]
    split_ifs <;> omega
  | succ k =>
    rw [range'_sublist_concat, hnoted (k + 1), hnoted k]
    split_ifs <;> omega

theorem noted_step {clicks : List Nat} (h : Inv d) (hnoted : Noted d clicks) {ev : Event}
    (hstep : step d ev = some d') : Noted d' (note d ev clicks) := by
  rcases step_cases h hstep with ⟨i, style', rfl, rfl, -⟩ |
    ⟨now, pos, number, rfl, hpos, -, hclick⟩
  · exact hnoted
  · have hconcat := noted_concat hnoted h.next.1 number
    cases hclick with
    | debounced hearly =>
      rw [note, if_neg hearly]
      exact hnoted
    | right label hpasses hright =>
      rw [note, if_pos hpasses, hpos]
      rw [if_pos hright] at hconcat
      exact hconcat
    | wrong hpasses hwrong =>
      rw [note, if_pos hpasses, hpos]
      rw [if_neg hwrong] at hconcat
      exact hconcat

/-! ### The game -/

theorem inv_gameOn (now : Nat) {nums : List Nat} (hperm : nums.Perm (List.range' 1 25)) :
    Inv (gameOn now nums) := by
  refine ⟨hperm, rfl, ⟨Nat.le_refl 1, Nat.le_add_left 1 25⟩, ?_, nofun, nofun, rfl⟩
  intro pos v hpos
  have hv := (mem_grid hperm).mp (List.mem_of_getElem? hpos)
  exact iff_of_true rfl hv.1

theorem noted_gameOn (now : Nat) (nums : List Nat) : Noted (gameOn now nums) [] := by
  intro k
  rw [List.sublist_nil, List.range'_eq_nil_iff]
  exact Nat.lt_one_iff.symm

/-- A click that is wrong or too early leaves the game where it is. -/
theorem click_without_effect (h : Inv d) {now pos number : Nat} (hpos : d.nums[pos]? = some number)
    (hno : number ≠ d.nextExpected ∨ ¬ Passes d now) (hstep : step d (.click now pos) = some d') :
    d'.enabled = d.enabled ∧ d'.nextExpected = d.nextExpected ∧ d'.accepted = d.accepted := by
  rcases step_cases h hstep with ⟨i, style', hev, -, -⟩ | ⟨now, pos, number', hev, hpos', -, hclick⟩
  · cases hev
  · cases hev
    obtain rfl := Option.some.inj (hpos.symm.trans hpos')
    cases hclick with
    | debounced hearly => exact ⟨rfl, rfl, rfl⟩
    | right label hpasses hright => exact absurd hno (by simp [hpasses, hright])
    | wrong hpasses hwrong => exact ⟨rfl, rfl, rfl⟩

/-- **The Number Order game**, for every outcome of the shuffle and every order and time of
    clicks and timers: every number has one button, and no button is missing when it is used;
    the disabled buttons are those of the numbers before the next, whose own button is enabled
    until the dialog is accepted; a wrong click, or one within 300 ms of the last that counted,
    changes neither; and `accept` is called once, when 1 to 25 have been clicked in order among
    the clicks that count. -/
theorem number_order (start : Nat) (draws : (i : Nat) → Fin (i + 1)) :
    (∀ v, 1 ≤ v → v ≤ 25 →
      ∃! pos : Nat, (buildNumberOrderGameUi start draws).nums[pos]? = some v) ∧
    (∀ pos v, (buildNumberOrderGameUi start draws).nums[pos]? = some v →
      1 ≤ v ∧ v ≤ 25 ∧ button v (buildNumberOrderGameUi start draws) = some (some pos)) ∧
    ∀ evs d, Machine.run step (buildNumberOrderGameUi start draws) evs = some d →
      d.nums = (buildNumberOrderGameUi start draws).nums ∧
      (∀ ev, Deliverable d ev → ∃ d', handle d ev = some d') ∧
      (∀ pos v, d.nums[pos]? = some v → (d.enabled pos = false ↔ v < d.nextExpected)) ∧
      (d.accepted = 0 → ∃ pos, d.nums[pos]? = some d.nextExpected ∧ d.enabled pos = true) ∧
      (∀ now pos v d', d.nums[pos]? = some v → v ≠ d.nextExpected ∨ ¬ Passes d now →
        step d (.click now pos) = some d' →
          d'.enabled = d.enabled ∧ d'.nextExpected = d.nextExpected ∧ d'.accepted = d.accepted) ∧
      d.accepted ≤ 1 ∧
      (d.accepted = 1 ↔ (List.range' 1 25).Sublist
        (Machine.noted step note (buildNumberOrderGameUi start draws) [] evs)) := by
  have hperm := shuffle_perm draws
  unfold buildNumberOrderGameUi
  generalize shuffle draws = nums at hperm ⊢
  have hinv₀ := inv_gameOn start hperm
  refine ⟨fun v hlo hhi => existsUnique_button hperm hlo hhi, ?_, ?_⟩
  · intro pos v hpos
    obtain ⟨hlo, hhi⟩ := (mem_grid hperm).mp (List.mem_of_getElem? hpos)
    exact ⟨hlo, hhi, button_of_inv hinv₀ hpos⟩
  · intro evs d hrun
    obtain ⟨⟨hinv, hnums⟩, hnoted⟩ := Machine.run_noted
      (I := fun d clicks => (Inv d ∧ d.nums = nums) ∧ Noted d clicks)
      (fun d clicks ev d' h hstep =>
        ⟨⟨inv_step h.1.1 hstep, (nums_step h.1.1 hstep).trans h.1.2⟩, noted_step h.1.1 h.2 hstep⟩)
      ⟨⟨hinv₀, rfl⟩, noted_gameOn start nums⟩ hrun
    have hnext := hinv.next
    have haccepted := hinv.accepted
    refine ⟨hnums, fun ev hdeliver => handle_of_deliverable hinv hdeliver, ?_, ?_, ?_, ?_, ?_⟩
    · intro pos v hpos
      rw [← Bool.not_eq_true, hinv.enabled pos v hpos, Nat.not_le]
    · intro hzero
      have hle : d.nextExpected ≤ 25 := by
        by_contra hlast
        rw [if_pos (by omega)] at haccepted
        omega
      obtain ⟨pos, hpos, -⟩ := existsUnique_button hinv.perm hnext.1 hle
      exact ⟨pos, hpos, (hinv.enabled pos _ hpos).mpr (Nat.le_refl _)⟩
    · intro now pos v d' hpos hno hstep
      exact click_without_effect hinv hpos hno hstep
    · split_ifs at haccepted <;> omega
    · rw [hnoted 25]
      split_ifs at haccepted <;> omega

end AlarmClock.NumberOrder
