import AlarmClock.AlarmList
import AlarmClock.UnstableSort
import Mathlib.Data.Multiset.Count

/-!
# An edit while alarms ring

`openEditDialog` reads the row before its dialog opens and writes to that row after the
dialog closes. In between the clock ticks, alarms ring, a dismissal settles what stands at
the remembered indices, and every tick and every dismissal sorts the list, with a choice of
its own between equal date-times. `Unordered` follows the alarms without their order; the
edit is right for all choices exactly when they leave the alarm at its row.
-/

namespace AlarmClock

open QDateTime

/-- With distinct ids the id is at one place only. -/
theorem MainWindow.alarmId_at_iff {l : List AlarmEntry} (hids : (l.map (·.alarmId)).Nodup)
    {i row : Nat} {x : AlarmEntry} (hx : l[i]? = some x) :
    (∃ e, l[row]? = some e ∧ e.alarmId = x.alarmId) ↔ i = row := by
  constructor
  · rintro ⟨e, he, hid⟩
    have hi : (l.map (·.alarmId))[i]? = some x.alarmId := by rw [List.getElem?_map, hx]; rfl
    have hrow : (l.map (·.alarmId))[row]? = some x.alarmId := by
      rw [List.getElem?_map, he, ← hid]
      rfl
    obtain ⟨hlt, -⟩ := List.getElem?_eq_some_iff.mp hi
    exact (List.getElem?_inj hlt hids).mp (hi.trans hrow.symm)
  · rintro rfl
    exact ⟨x, hx, rfl⟩

/-- The row that the dialog edits, and the editor. -/
def UserDialog.editing : UserDialog → Option (Nat × AlarmDialog)
  | .edit row dlg => some (row, dlg)
  | _ => none

theorem UserDialog.editing_eq_some {dialog : UserDialog} {row : Nat} {dlg : AlarmDialog} :
    dialog.editing = some (row, dlg) ↔ dialog = .edit row dlg := by
  constructor
  · intro h
    cases dialog with
    | edit row' dlg' =>
      obtain ⟨rfl, rfl⟩ := Prod.mk.inj (Option.some.inj h)
      rfl
    | add | plus5Sec | stat | friends | alert => cases h
  · rintro rfl
    rfl

namespace Screen

/-! ### The session -/

/-- One event, with what the sort does in it. -/
def stepWith (home : QString) (s : Screen) (c : Event × SortChoice) : Option Screen :=
  step ⟨home, c.2⟩ s c.1

/-- The dialog is not closed by the event. -/
def StaysOpen : Event → Prop
  | .accept _ | .reject => False
  | _ => True

/-- The event sorts the list when the editor is open. -/
def Event.sorts : Event → Bool
  | .tick _ | .dismiss _ _ => true
  | _ => false

/-- `openEditDialog` on the selected row, the events in the loop of its dialog, and the accept:
    the screen that the accept finds, and the one it leaves. -/
def EditSession (home : QString) (s : Screen) (opened : Nat) (evs : List Event) (now : Nat)
    (before after : Screen) : Prop :=
  ∃ (sort sort' : SortChoice) (cevs : List (Event × SortChoice)), cevs.map Prod.fst = evs ∧
    Machine.run (stepWith home) s ((.openEditDialog opened, sort) :: cevs) = some before ∧
    stepWith home before (.accept now, sort') = some after

/-- The accept overwrites the entry with this id by what the editor hands back, and no other
    entry. -/
def Overwrites (home : QString) (now : Nat) (id : Int) (before after : Screen) : Prop :=
  ∃ row dlg e, before.dialog = some (.edit row dlg) ∧ before.window.alarms[row]? = some e ∧
    e.alarmId = id ∧ after.window.alarms.Perm
      (e.edited (dlg.onConfirm home (currentDateTime now)) :: before.window.alarms.eraseIdx row)

theorem overwrites_iff {home : QString} {now row : Nat} {id : Int} {dlg : AlarmDialog}
    {sort : SortChoice} {before after : Screen} (hdialog : before.dialog = some (.edit row dlg))
    (h : stepWith home before (.accept now, sort) = some after) :
    Overwrites home now id before after ↔
      ∃ e, before.window.alarms[row]? = some e ∧ e.alarmId = id := by
  constructor
  · rintro ⟨row', dlg', e, hdialog', he, hid, -⟩
    obtain ⟨rfl, rfl⟩ := UserDialog.edit.inj (Option.some.inj (hdialog.symm.trans hdialog'))
    exact ⟨e, he, hid⟩
  · rintro ⟨e, he, hid⟩
    refine ⟨row, dlg, e, hdialog, he, hid, ?_⟩
    cases step_cases h with
    | acceptAdd now dlg' m hdialog' => cases hdialog.symm.trans hdialog'
    | acceptEdit now row' dlg' hdialog' =>
      obtain ⟨rfl, rfl⟩ := UserDialog.edit.inj (Option.some.inj (hdialog.symm.trans hdialog'))
      exact ((sort.perm _).trans (sort.perm _)).trans
        (IndexedUpdate.modify_perm_cons_eraseIdx he)

/-! ### The alarms without their order -/

/-- The alarms, the time at which the open dismiss dialog began to ring with whether the list
    was sorted since, and the clock. -/
structure Unordered where
  entries : Multiset AlarmEntry
  ringing : Option (Nat × Bool) := none
  clock : Nat

/-- What the end of a dialog that began to ring at `t` may make of the alarms: `p.1` has come
    to stand where `p.2` stood when the due alarms were collected. It has the same date-time,
    and it is the same alarm when the list was not sorted in between. -/
def Settles (t now : Nat) (sorted : Bool) (l l' : Multiset AlarmEntry) : Prop :=
  ∃ z : Multiset (AlarmEntry × AlarmEntry), z.map Prod.fst = l ∧ z.map Prod.snd = l ∧
    (∀ p ∈ z, p.1.dateTime.msecs = p.2.dateTime.msecs) ∧ (sorted = false → ∀ p ∈ z, p.1 = p.2) ∧
    l' = z.map fun p =>
      if p.2.due (currentDateTime t) then p.1.afterDismiss (currentDateTime now) else p.1

/-- What an event may do to the alarms under the editor. -/
inductive Unordered.Next (w : Unordered) : Event → Unordered → Prop where
  | quiet (now : Nat) (hclock : w.clock ≤ now) (hringing : w.ringing = none)
      (hnone : ∀ e ∈ w.entries, e.due (currentDateTime now) = false) :
      Next w (.tick now) { w with clock := now }
  | rings (now : Nat) (hclock : w.clock ≤ now) (hringing : w.ringing = none)
      (hsome : ∃ e ∈ w.entries, e.due (currentDateTime now) = true) :
      Next w (.tick now) { w with ringing := some (now, false), clock := now }
  | again (now t : Nat) (sorted : Bool) (hclock : w.clock ≤ now)
      (hringing : w.ringing = some (t, sorted)) :
      Next w (.tick now) { w with ringing := some (t, true), clock := now }
  | dismiss (now : Nat) (photo : QString) (t : Nat) (sorted : Bool) (l : Multiset AlarmEntry)
      (hclock : w.clock ≤ now) (hringing : w.ringing = some (t, sorted))
      (hsettles : Settles t now sorted w.entries l) :
      Next w (.dismiss now photo) { entries := l, clock := now }
  | press (p : AlarmDialog.Press) (hringing : w.ringing = none) : Next w (.press p) w

def Unordered.Run : Unordered → List Event → Unordered → Prop
  | w, [], w' => w' = w
  | w, ev :: evs, w' => ∃ w₁, w.Next ev w₁ ∧ w₁.Run evs w'

/-- The alarm with this id stands at the row in every order by date-time: so many alarms are
    earlier, and no other has its date-time. -/
def StandsAt (row : Nat) (id : Int) (l : Multiset AlarmEntry) : Prop :=
  ∀ e ∈ l, e.alarmId = id →
    l.countP (fun a => a.dateTime.msecs < e.dateTime.msecs) = row ∧
    ∀ a ∈ l, a.dateTime.msecs = e.dateTime.msecs → a = e

instance (row : Nat) (id : Int) (l : Multiset AlarmEntry) : Decidable (StandsAt row id l) := by
  unfold StandsAt; infer_instance

/-- Whatever the sorts do with equal date-times, the events leave the alarm with this id at
    the row; at once when nothing sorts the list. -/
def Returns (row : Nat) (id : Int) (evs : List Event) (now : Nat) (w : Unordered) : Prop :=
  (∃ ev ∈ evs, ev.sorts = true) →
    ∀ w', w.Run evs w' → w'.ringing = none → w'.clock ≤ now → StandsAt row id w'.entries

/-- An order by date-time. -/
abbrev InOrder (l : List AlarmEntry) : Prop :=
  l.Pairwise fun a b => a.dateTime.msecs ≤ b.dateTime.msecs

theorem getElem?_of_standsAt {row : Nat} {id : Int} {l : List AlarmEntry} (hsorted : InOrder l)
    (h : StandsAt row id l) {e : AlarmEntry} (he : e ∈ l) (hid : e.alarmId = id) :
    l[row]? = some e := by
  obtain ⟨hcount, hties⟩ := h e he hid
  obtain ⟨y, hy, hkey⟩ := KeySort.getElem?_countP_lt hsorted he
  rw [Multiset.coe_countP] at hcount
  rw [hcount] at hy
  rw [hy, hties y (List.mem_of_getElem? hy) hkey]

/-- An alarm that is at the row in every order stands there. -/
theorem standsAt_of_forall {row : Nat} {id : Int} {k : List AlarmEntry}
    (hids : (k.map (·.alarmId)).Nodup)
    (h : ∀ l : List AlarmEntry, l.Perm k → InOrder l → ∃ e, l[row]? = some e ∧ e.alarmId = id) :
    StandsAt row id k := by
  intro e he hid
  -- in the order that puts `a` first among its equals, `a` follows what is earlier
  have hfirst : ∀ a ∈ k, ∃ l : List AlarmEntry, l.Perm k ∧ InOrder l ∧
      l[k.countP fun b => b.dateTime.msecs < a.dateTime.msecs]? = some a := by
    intro a ha
    obtain ⟨y, hy, -, htie⟩ := KeySort.getElem?_byTies (fun e : AlarmEntry => e.dateTime.msecs)
      (fun b => decide (b ≠ a)) ha (fun b _ _ => by simp)
    have hya : y = a := by simpa using htie
    exact ⟨_, (KeySort.byTies _ _).perm k, (KeySort.byTies _ _).sorted k, hya ▸ hy⟩
  have hcount : k.countP (fun b => b.dateTime.msecs < e.dateTime.msecs) = row := by
    obtain ⟨l, hperm, hsorted, hget⟩ := hfirst e he
    obtain ⟨e', he', hid'⟩ := h l hperm hsorted
    exact (MainWindow.alarmId_at_iff ((hperm.map _).nodup_iff.mpr hids) hget).mp
      ⟨e', he', hid'.trans hid.symm⟩
  refine ⟨hcount, ?_⟩
  intro a ha hkey
  obtain ⟨l, hperm, hsorted, hget⟩ := hfirst a ha
  obtain ⟨e', he', hid'⟩ := h l hperm hsorted
  rw [hkey, hcount] at hget
  obtain rfl : e' = a := Option.some.inj (he'.symm.trans hget)
  exact List.inj_on_of_nodup_map hids ha he (hid'.trans hid.symm)

/-! ### The screen and the alarms without their order -/

/-- A dismiss dialog is open that began to ring at `t`, on the due alarms of `stood`. -/
def Rings (s : Screen) (t : Nat) (stood : List AlarmEntry) : Prop :=
  s.window.alarmHandling = true ∧ s.window.frame =
    some (openDismissDialog (currentDateTime t) (collectTriggered (currentDateTime t) stood))

/-- No dismiss dialog is open. -/
def Idle (s : Screen) : Prop := s.window.alarmHandling = false ∧ s.window.frame = none

section Steps

variable (home : QString) {s s' : Screen} {now : Nat}

/-- What a sorting event leaves: the editor as it was, the clock, and the list sorted. -/
structure Sorted (s s' : Screen) (now : Nat) (sort : SortChoice) (l : List AlarmEntry) : Prop where
  dialog : s'.dialog = s.dialog
  clock : s'.window.clock = now
  alarms : s'.window.alarms = sort.sort l

theorem stepWith_tick (sort : SortChoice) (hclock : s.window.clock ≤ now) :
    stepWith home s (.tick now, sort) = some ((s.atClock now).redraw (currentDateTime now)
      ((s.atClock now).window.updateCurrentTime ⟨home, sort⟩ (currentDateTime now))) :=
  congrArg (Option.map _) (clockAt_eq_some.mpr ⟨hclock, rfl⟩)

theorem step_quiet (sort : SortChoice) (hidle : Idle s) (hclock : s.window.clock ≤ now)
    (hnone : ∀ e ∈ s.window.alarms, e.due (currentDateTime now) = false) :
    ∃ s', stepWith home s (.tick now, sort) = some s' ∧ Sorted s s' now sort s.window.alarms ∧
      Idle s' := by
  have htick : (s.atClock now).window.updateCurrentTime ⟨home, sort⟩ (currentDateTime now) =
      { (s.atClock now).window with alarms := sort.sort s.window.alarms } := by
    refine if_pos ?_
    rw [List.isEmpty_iff, List.eq_nil_iff_forall_not_mem]
    intro t ht
    obtain ⟨i, e, hi, hdue, -⟩ := mem_collectTriggered.mp ht
    rw [hnone e (sort.mem_sort.mp (List.mem_of_getElem? hi))] at hdue
    cases hdue
  refine ⟨_, stepWith_tick home sort hclock, ?_, ?_⟩
  · rw [htick]
    exact ⟨rfl, rfl, rfl⟩
  · rw [htick]
    exact hidle

theorem step_rings (sort : SortChoice) (hidle : Idle s) (hclock : s.window.clock ≤ now)
    (hsome : ∃ e ∈ s.window.alarms, e.due (currentDateTime now) = true) :
    ∃ s', stepWith home s (.tick now, sort) = some s' ∧ Sorted s s' now sort s.window.alarms ∧
      Rings s' now s'.window.alarms := by
  have htick : (s.atClock now).window.updateCurrentTime ⟨home, sort⟩ (currentDateTime now) = _ :=
    updateCurrentTime_of_due sort hidle.1 hsome
  refine ⟨_, stepWith_tick home sort hclock, ?_, ?_⟩
  · rw [htick]
    exact ⟨rfl, rfl, rfl⟩
  · rw [htick]
    exact ⟨rfl, rfl⟩

theorem step_again (sort : SortChoice) {t : Nat} {stood : List AlarmEntry}
    (hrings : Rings s t stood) (hclock : s.window.clock ≤ now) :
    ∃ s', stepWith home s (.tick now, sort) = some s' ∧ Sorted s s' now sort s.window.alarms ∧
      Rings s' t stood := by
  have htick := updateCurrentTime_of_handling (m := (s.atClock now).window) home sort hrings.1
    (currentDateTime now)
  refine ⟨_, stepWith_tick home sort hclock, ?_, ?_⟩
  · rw [htick]
    exact ⟨rfl, rfl, rfl⟩
  · rw [htick]
    exact hrings

/-- The end of a dialog settles by the indices of another list. -/
theorem step_dismiss (sort : SortChoice) (photo : QString) {t : Nat} {stood : List AlarmEntry}
    (hrings : Rings s t stood) (hlength : stood.length = s.window.alarms.length)
    (hclock : s.window.clock ≤ now) :
    ∃ s', stepWith home s (.dismiss now photo, sort) = some s' ∧
      Sorted s s' now sort (List.zipWith (fun e' e => if e'.due (currentDateTime t) then
        e.afterDismiss (currentDateTime now) else e) stood s.window.alarms) ∧ Idle s' := by
  obtain ⟨halarms, -, hhandling, hframe, hclock'⟩ := MainWindow.afterExec_fields
    (P := ⟨home, sort⟩) (m := s.window) hrings.2 (currentDateTime now) photo now
  have hstep : stepWith home s (.dismiss now photo, sort) = some ((s.atClock now).redraw
      (currentDateTime now) ((s.atClock now).window.afterExec ⟨home, sort⟩
        (currentDateTime now) photo)) := by
    have hopen : s.window.frame.isSome = true := by rw [hrings.2]; rfl
    refine (if_pos hopen).trans ?_
    exact congrArg (Option.map _) (clockAt_eq_some.mpr ⟨hclock, rfl⟩)
  refine ⟨_, hstep, ⟨rfl, hclock', ?_⟩, hhandling, hframe⟩
  rw [← settleTriggered_of_length (currentDateTime t) (currentDateTime now) hlength]
  exact halarms

theorem step_press (sort : SortChoice) (p : AlarmDialog.Press) {row : Nat} {dlg : AlarmDialog}
    (hdialog : s.dialog = some (.edit row dlg)) (hframe : s.window.frame = none) :
    stepWith home s (.press p, sort) =
      some { s with dialog := some (.edit row (dlg.press p)) } := by
  have hopen : s.openDialog = some (.edit row dlg) := by
    unfold openDialog
    rw [hframe, hdialog]
    rfl
  exact (congrArg (Option.bind · (s.press p)) hopen).trans rfl

theorem step_openEditDialog (sort : SortChoice) {row opened : Nat}
    {x : AlarmEntry} (hdialog : s.dialog = none) (hframe : s.window.frame = none)
    (hclock : s.window.clock ≤ opened) (hselected : s.selectedRow = some row)
    (hrow : s.window.alarms[row]? = some x) :
    stepWith home s (.openEditDialog opened, sort) = some { s.atClock opened with
      dialog := some (.edit row (x.editor home (currentDateTime opened))) } := by
  have hopen : (s.atClock opened).openEditDialog ⟨home, sort⟩ (currentDateTime opened) =
      { s.atClock opened with
        dialog := some (.edit row (x.editor home (currentDateTime opened))) } := by
    unfold openEditDialog
    rw [show (s.atClock opened).selectedRow = some row from hselected]
    simp only [MainWindow.openEditDialog,
      show (s.atClock opened).window.alarms[row]? = some x from hrow, Option.map_some]
  have hunblocked : unblocked s = some s := unblocked_eq_some.mpr ⟨hdialog, hframe, rfl⟩
  have hclockAt : clockAt opened s = some (s.atClock opened) := clockAt_eq_some.mpr ⟨hclock, rfl⟩
  simp only [stepWith, step, bind, hunblocked, Option.bind_some, hclockAt, Option.map_some, hopen]

/-- OK in the editor of a row. -/
theorem step_accept (sort : SortChoice) {row : Nat} {dlg : AlarmDialog}
    (hdialog : s.dialog = some (.edit row dlg)) :
    (∃ s', stepWith home s (.accept now, sort) = some s') ↔
      s.window.frame = none ∧ s.window.clock ≤ now := by
  constructor
  · rintro ⟨s', h⟩
    obtain ⟨dialog, hopen, h⟩ := Option.bind_eq_some_iff.mp h
    obtain ⟨s₁, hclock, -⟩ := Option.bind_eq_some_iff.mp h
    refine ⟨?_, (clockAt_eq_some.mp hclock).1⟩
    unfold openDialog at hopen
    split at hopen
    · next hframe => exact Option.isNone_iff_eq_none.mp hframe
    · cases hopen
  · rintro ⟨hframe, hclock⟩
    have hopen : s.openDialog = some (.edit row dlg) := by
      unfold openDialog
      rw [hframe, hdialog]
      rfl
    have hclockAt : clockAt now s = some (s.atClock now) := clockAt_eq_some.mpr ⟨hclock, rfl⟩
    simp only [stepWith, step, bind, hopen, Option.bind_some, hclockAt, accept]
    exact ⟨_, rfl⟩

/-- Under an open editor the clock ticks, dismiss dialogs end, and the user presses, until one
    of the events closes it. -/
theorem event_of_edit {P : Platform} {row : Nat} {dlg : AlarmDialog} {ev : Event}
    (hdialog : s.dialog = some (.edit row dlg)) (h : step P s ev = some s') :
    (∃ now, ev = .tick now ∧ s.window.clock ≤ now) ∨
    (∃ now photo, ev = .dismiss now photo ∧ s.window.clock ≤ now ∧ s.window.frame ≠ none) ∨
    (∃ p, ev = .press p) ∨ ¬ StaysOpen ev := by
  cases step_cases h with
  | tick now hclock => exact .inl ⟨now, rfl, hclock⟩
  | dismiss now photo frame hframe hclock =>
    exact .inr (.inl ⟨now, photo, rfl, hclock, by simp [hframe]⟩)
  | pressAdd p | pressEdit p => exact .inr (.inr (.inl ⟨p, rfl⟩))
  | acceptAdd | acceptEdit | reject => exact .inr (.inr (.inr id))
  | select _ hnone | clickEnableBtn _ _ _ hnone | clickStatBtn _ _ hnone | openAddDialog _ hnone
  | openEditDialog _ hnone | deleteSelectedAlarm _ hnone | setDebugAlarmPlus5Sec hnone
  | openStatDialog hnone | openFriendStatDialog hnone | addPlus5Sec _ _ _ _ _ hnone =>
    cases hdialog.symm.trans hnone

end Steps

/-- The screen under the editor of a row, seen without the order of its list. -/
structure Shows (row : Nat) (s : Screen) (w : Unordered) : Prop where
  dialog : ∃ dlg, s.dialog = some (.edit row dlg)
  entries : w.entries = s.window.alarms
  clock : w.clock = s.window.clock
  idle : w.ringing = none → Idle s
  ringing : ∀ t sorted, w.ringing = some (t, sorted) → ∃ stood, Rings s t stood ∧
    stood.Perm s.window.alarms ∧ InOrder stood ∧ InOrder s.window.alarms ∧
    (sorted = false → stood = s.window.alarms)

namespace Shows

variable {row : Nat} {s s' : Screen} {w w' : Unordered}

theorem of_idle (hdialog : ∃ dlg, s.dialog = some (.edit row dlg))
    (hentries : w.entries = s.window.alarms) (hclock : w.clock = s.window.clock)
    (hringing : w.ringing = none) (hidle : Idle s) : Shows row s w := by
  refine ⟨hdialog, hentries, hclock, fun _ => hidle, ?_⟩
  intro t sorted hsome
  cases hringing.symm.trans hsome

theorem of_ringing {t : Nat} {sorted : Bool} {stood : List AlarmEntry}
    (hdialog : ∃ dlg, s.dialog = some (.edit row dlg))
    (hentries : w.entries = s.window.alarms) (hclock : w.clock = s.window.clock)
    (hringing : w.ringing = some (t, sorted)) (hrings : Rings s t stood)
    (hperm : stood.Perm s.window.alarms) (hstood : InOrder stood)
    (halarms : InOrder s.window.alarms) (hsame : sorted = false → stood = s.window.alarms) :
    Shows row s w := by
  refine ⟨hdialog, hentries, hclock, ?_, ?_⟩
  · intro hnone
    cases hringing.symm.trans hnone
  · intro t' sorted' hsome
    obtain ⟨rfl, rfl⟩ := Prod.mk.inj (Option.some.inj (hringing.symm.trans hsome))
    exact ⟨stood, hrings, hperm, hstood, halarms, hsame⟩

end Shows

/-- Two orders of the alarms, and what is settled by the one in the other. -/
theorem settles_zip {t now : Nat} {sorted : Bool} {stood alarms : List AlarmEntry}
    (hperm : stood.Perm alarms) (hstood : InOrder stood) (halarms : InOrder alarms)
    (hsame : sorted = false → stood = alarms) :
    Settles t now sorted alarms (List.zipWith (fun e' e => if e'.due (currentDateTime t) then
      e.afterDismiss (currentDateTime now) else e) stood alarms : List AlarmEntry) := by
  have hlength : alarms.length = stood.length := hperm.length_eq.symm
  have hfst : (alarms.zip stood).map Prod.fst = alarms := List.map_fst_zip hlength.le
  have hsnd : (alarms.zip stood).map Prod.snd = stood := List.map_snd_zip hlength.ge
  have hkeys : stood.map (fun e => e.dateTime.msecs) = alarms.map fun e => e.dateTime.msecs :=
    KeySort.map_key_eq_of_perm hperm hstood halarms
  refine ⟨(alarms.zip stood : List (AlarmEntry × AlarmEntry)), ?_, ?_, ?_, ?_, ?_⟩
  · exact congrArg _ hfst
  · show ((alarms.zip stood).map Prod.snd : Multiset AlarmEntry) = alarms
    rw [hsnd]
    exact Multiset.coe_eq_coe.mpr hperm
  · intro p hp
    obtain ⟨i, hi⟩ := List.mem_iff_getElem?.mp (Multiset.mem_coe.mp hp)
    obtain ⟨hi₁, hi₂⟩ := List.getElem?_zip_eq_some.mp hi
    have hkey := congrArg (fun ks => ks[i]?) hkeys
    simp only [List.getElem?_map, hi₁, hi₂, Option.map_some] at hkey
    exact (Option.some.inj hkey).symm
  · intro hnot p hp
    obtain rfl := hsame hnot
    obtain ⟨i, hi⟩ := List.mem_iff_getElem?.mp (Multiset.mem_coe.mp hp)
    obtain ⟨hi₁, hi₂⟩ := List.getElem?_zip_eq_some.mp hi
    exact Option.some.inj (hi₁.symm.trans hi₂)
  · show _ = (((alarms.zip stood).map fun p => if p.2.due (currentDateTime t) then
      p.1.afterDismiss (currentDateTime now) else p.1 : List AlarmEntry) : Multiset AlarmEntry)
    rw [List.zipWith_comm, ← List.map_uncurry_zip_eq_zipWith]
    rfl

/-- **One step of the screen is one of the alarms.** -/
theorem shows_step {home : QString} {row : Nat} {s s' : Screen} {w : Unordered} {ev : Event}
    {sort : SortChoice} (hs : Shows row s w) (hstays : StaysOpen ev)
    (h : stepWith home s (ev, sort) = some s') :
    ∃ w', w.Next ev w' ∧ Shows row s' w' ∧ (ev.sorts = true → InOrder s'.window.alarms) ∧
      (ev.sorts = false → s'.window.alarms = s.window.alarms) := by
  obtain ⟨dlg, hdialog⟩ := hs.dialog
  have hkept : s'.dialog = s.dialog → ∃ dlg, s'.dialog = some (.edit row dlg) :=
    fun hsame => ⟨dlg, hsame.trans hdialog⟩
  rcases event_of_edit hdialog h with ⟨now, rfl, hclock⟩ | ⟨now, photo, rfl, hclock, hopen⟩ |
    ⟨p, rfl⟩ | hcloses
  · have hclock' : w.clock ≤ now := hs.clock ▸ hclock
    rcases Option.eq_none_or_eq_some w.ringing with hringing | ⟨⟨t, sorted⟩, hringing⟩
    · by_cases hdue : ∃ e ∈ s.window.alarms, e.due (currentDateTime now) = true
      · obtain ⟨s'', hstep, hsorted, hrings⟩ := step_rings home sort (hs.idle hringing)
          hclock hdue
        obtain rfl := Option.some.inj (h.symm.trans hstep)
        have horder : InOrder s'.window.alarms := hsorted.alarms ▸ sort.sorted _
        refine ⟨{ w with ringing := some (now, false), clock := now },
          .rings now hclock' hringing (by rw [hs.entries]; exact hdue), ?_, fun _ => horder,
          fun h => by cases h⟩
        refine .of_ringing (hkept hsorted.dialog) ?_ hsorted.clock.symm rfl hrings
          (List.Perm.refl _) horder horder fun _ => rfl
        rw [hsorted.alarms]
        exact hs.entries.trans (Multiset.coe_eq_coe.mpr (sort.perm _).symm)
      · have hnone : ∀ e ∈ s.window.alarms, e.due (currentDateTime now) = false := by
          intro e he
          by_contra hnot
          exact hdue ⟨e, he, by simpa using hnot⟩
        obtain ⟨s'', hstep, hsorted, hidle⟩ := step_quiet home sort (hs.idle hringing)
          hclock hnone
        obtain rfl := Option.some.inj (h.symm.trans hstep)
        refine ⟨{ w with clock := now },
          .quiet now hclock' hringing (by rw [hs.entries]; exact hnone), ?_,
          fun _ => hsorted.alarms ▸ sort.sorted _, fun h => by cases h⟩
        refine .of_idle (hkept hsorted.dialog) ?_ hsorted.clock.symm hringing hidle
        rw [hsorted.alarms]
        exact hs.entries.trans (Multiset.coe_eq_coe.mpr (sort.perm _).symm)
    · obtain ⟨stood, hrings, hperm, hstood, -, -⟩ := hs.ringing t sorted hringing
      obtain ⟨s'', hstep, hsorted, hrings'⟩ := step_again home sort hrings hclock
      obtain rfl := Option.some.inj (h.symm.trans hstep)
      have horder : InOrder s'.window.alarms := hsorted.alarms ▸ sort.sorted _
      have hperm' : s'.window.alarms.Perm s.window.alarms := hsorted.alarms ▸ sort.perm _
      refine ⟨{ w with ringing := some (t, true), clock := now },
        .again now t sorted hclock' hringing, ?_, fun _ => horder, fun h => by cases h⟩
      exact .of_ringing (hkept hsorted.dialog)
        (hs.entries.trans (Multiset.coe_eq_coe.mpr hperm'.symm)) hsorted.clock.symm rfl hrings'
        (hperm.trans hperm'.symm) hstood horder fun h => by cases h
  · rcases Option.eq_none_or_eq_some w.ringing with hringing | ⟨⟨t, sorted⟩, hringing⟩
    · exact absurd (hs.idle hringing).2 hopen
    · obtain ⟨stood, hrings, hperm, hstood, halarms, hsame⟩ := hs.ringing t sorted hringing
      obtain ⟨s'', hstep, hsorted, hidle⟩ := step_dismiss home sort photo hrings
        hperm.length_eq hclock
      obtain rfl := Option.some.inj (h.symm.trans hstep)
      have hsettles : Settles t now sorted s.window.alarms _ :=
        settles_zip hperm hstood halarms hsame
      refine ⟨_, .dismiss now photo t sorted _ (hs.clock ▸ hclock) hringing
        (hs.entries.symm ▸ hsettles), ?_, fun _ => hsorted.alarms ▸ sort.sorted _,
        fun h => by cases h⟩
      refine .of_idle (hkept hsorted.dialog) ?_ hsorted.clock.symm rfl hidle
      rw [hsorted.alarms]
      exact Multiset.coe_eq_coe.mpr (sort.perm _).symm
  · rcases Option.eq_none_or_eq_some w.ringing with hringing | ⟨⟨t, sorted⟩, hringing⟩
    · have hidle := hs.idle hringing
      have hstep := step_press home sort p hdialog hidle.2
      obtain rfl := Option.some.inj (h.symm.trans hstep)
      exact ⟨w, .press p hringing, .of_idle ⟨_, rfl⟩ hs.entries hs.clock hringing hidle,
        (fun h => by cases h), fun _ => rfl⟩
    · -- a dismiss dialog is open over the editor
      obtain ⟨stood, hrings, -⟩ := hs.ringing t sorted hringing
      have hclosed : s.openDialog = none := by
        unfold openDialog
        rw [hrings.2]
        rfl
      have hnone : stepWith home s (.press p, sort) = none :=
        congrArg (Option.bind · (s.press p)) hclosed
      cases h.symm.trans hnone
  · exact absurd hstays hcloses

/-- **A run of the screen is one of the alarms.** -/
theorem shows_run {home : QString} {row : Nat} {s s' : Screen} {w : Unordered}
    {cevs : List (Event × SortChoice)} (hs : Shows row s w)
    (hstays : ∀ c ∈ cevs, StaysOpen c.1) (hrun : Machine.run (stepWith home) s cevs = some s') :
    ∃ w', w.Run (cevs.map Prod.fst) w' ∧ Shows row s' w' ∧
      ((∃ c ∈ cevs, c.1.sorts = true) → InOrder s'.window.alarms) ∧
      ((∀ c ∈ cevs, c.1.sorts = false) → s'.window.alarms = s.window.alarms) := by
  induction cevs generalizing s w with
  | nil =>
    obtain rfl : s = s' := by simpa using hrun
    exact ⟨w, rfl, hs, by simp, fun _ => rfl⟩
  | cons c cevs ih =>
    obtain ⟨s₁, hstep, hrun'⟩ := Machine.run_cons_eq_some.mp hrun
    obtain ⟨w₁, hnext, hs₁, hsorts, hkeeps⟩ := shows_step hs (hstays c List.mem_cons_self) hstep
    obtain ⟨w', hrun₁, hs', horder, hsame⟩ :=
      ih hs₁ (fun d hd => hstays d (List.mem_cons_of_mem _ hd)) hrun'
    refine ⟨w', ⟨w₁, hnext, hrun₁⟩, hs', ?_, ?_⟩
    · rintro ⟨d, hd, hdsorts⟩
      by_cases hlater : ∃ d ∈ cevs, d.1.sorts = true
      · exact horder hlater
      · have hquiet : ∀ d ∈ cevs, d.1.sorts = false := by
          intro d hd
          by_contra hnot
          exact hlater ⟨d, hd, by simpa using hnot⟩
        rcases List.mem_cons.mp hd with rfl | hd
        · rw [hsame hquiet]
          exact hsorts hdsorts
        · exact absurd ⟨d, hd, hdsorts⟩ hlater
    · intro hquiet
      rw [hsame fun d hd => hquiet d (List.mem_cons_of_mem _ hd)]
      exact hkeeps (hquiet c List.mem_cons_self)

namespace Unordered

variable {w w' : Unordered}

theorem alarmIds_settles {t now : Nat} {sorted : Bool} {l l' : Multiset AlarmEntry}
    (h : Settles t now sorted l l') : l'.map (·.alarmId) = l.map (·.alarmId) := by
  obtain ⟨z, rfl, -, -, -, rfl⟩ := h
  rw [Multiset.map_map, Multiset.map_map]
  apply Multiset.map_congr rfl
  intro p _
  simp only [Function.comp_apply]
  split_ifs
  · exact AlarmEntry.afterDismiss_alarmId _ _
  · rfl

/-- The ids stay what they are. -/
theorem Run.alarmIds {evs : List Event} (h : w.Run evs w') :
    w'.entries.map (·.alarmId) = w.entries.map (·.alarmId) := by
  induction evs generalizing w with
  | nil =>
    obtain rfl : w' = w := h
    rfl
  | cons ev evs ih =>
    obtain ⟨w₁, hnext, hrun⟩ := h
    rw [ih hrun]
    cases hnext with
    | quiet | rings | again | press => rfl
    | dismiss _ _ _ _ _ _ _ hsettles => exact alarmIds_settles hsettles

/-- What is left alone when nothing sorts the list. -/
theorem Run.of_not_sorts {evs : List Event} (h : w.Run evs w')
    (hquiet : ∀ ev ∈ evs, ev.sorts = false) : w'.entries = w.entries := by
  induction evs generalizing w with
  | nil =>
    obtain rfl : w' = w := h
    rfl
  | cons ev evs ih =>
    obtain ⟨w₁, hnext, hrun⟩ := h
    rw [ih hrun fun d hd => hquiet d (List.mem_cons_of_mem _ hd)]
    have hhead := hquiet ev List.mem_cons_self
    cases hnext with
    | quiet | rings | again | dismiss => cases hhead
    | press => rfl

/-- A dismiss dialog stays open when nothing sorts the list. -/
theorem Run.ringing_of_not_sorts {evs : List Event} (h : w.Run evs w')
    (hquiet : ∀ ev ∈ evs, ev.sorts = false) (hringing : w.ringing ≠ none) : w'.ringing ≠ none := by
  cases evs with
  | nil =>
    obtain rfl : w' = w := h
    exact hringing
  | cons ev evs =>
    obtain ⟨w₁, hnext, -⟩ := h
    have hhead := hquiet ev List.mem_cons_self
    cases hnext with
    | quiet | rings | again | dismiss => cases hhead
    | press p hnone => exact absurd hnone hringing

end Unordered

/-! ### Every run of the alarms is one of the screen -/

/-- Some choices of the sorts take the screen to this view, with this list if it is sorted
    on the way. -/
def Leads (home : QString) (row : Nat) (s : Screen) (evs : List Event) (w : Unordered)
    (l : List AlarmEntry) : Prop :=
  ∃ cevs s', cevs.map Prod.fst = evs ∧ Machine.run (stepWith home) s cevs = some s' ∧
    Shows row s' w ∧ ((∃ ev ∈ evs, ev.sorts = true) → s'.window.alarms = l) ∧
    ((∀ ev ∈ evs, ev.sorts = false) → s'.window.alarms = s.window.alarms)

/-- The last event that sorts the list makes it what it is in the end. -/
theorem Leads.cons_sorts {home : QString} {row : Nat} {s s₁ : Screen} {ev : Event}
    {evs : List Event} {w : Unordered} {l : List AlarmEntry} {sort : SortChoice}
    (hev : ev.sorts = true) (hstep : stepWith home s (ev, sort) = some s₁)
    (h : Leads home row s₁ evs w l)
    (hlast : (∀ ev ∈ evs, ev.sorts = false) → s₁.window.alarms = l) :
    Leads home row s (ev :: evs) w l := by
  obtain ⟨cevs, s', rfl, hrun, hs', hlater, hsame⟩ := h
  refine ⟨(ev, sort) :: cevs, s', rfl, Machine.run_cons_eq_some.mpr ⟨s₁, hstep, hrun⟩, hs', ?_, ?_⟩
  · intro _
    by_cases hsorts : ∃ d ∈ cevs.map Prod.fst, d.sorts = true
    · exact hlater hsorts
    · have hquiet : ∀ d ∈ cevs.map Prod.fst, d.sorts = false := by
        intro d hd
        by_contra hnot
        exact hsorts ⟨d, hd, by simpa using hnot⟩
      exact (hsame hquiet).trans (hlast hquiet)
  · intro hquiet
    have hhead := hquiet ev List.mem_cons_self
    rw [hev] at hhead
    cases hhead

theorem Leads.cons_press {home : QString} {row : Nat} {s s₁ : Screen} {p : AlarmDialog.Press}
    {evs : List Event} {w : Unordered} {l : List AlarmEntry} {sort : SortChoice}
    (hstep : stepWith home s (.press p, sort) = some s₁) (h : Leads home row s₁ evs w l)
    (hsame : s₁.window.alarms = s.window.alarms) : Leads home row s (.press p :: evs) w l := by
  obtain ⟨cevs, s', rfl, hrun, hs', hlater, hkept⟩ := h
  refine ⟨(.press p, sort) :: cevs, s', rfl, Machine.run_cons_eq_some.mpr ⟨s₁, hstep, hrun⟩, hs',
    ?_, ?_⟩
  · rintro ⟨d, hd, hsorts⟩
    rcases List.mem_cons.mp hd with rfl | hd
    · cases hsorts
    · exact hlater ⟨d, hd, hsorts⟩
  · intro hquiet
    rw [hkept fun d hd => hquiet d (List.mem_cons_of_mem _ hd), hsame]

/-- A sort that leaves the list as it is to be in the end, when it is the last one. -/
theorem exists_sort {evs : List Event} {k l : List AlarmEntry} (hsorted : InOrder l)
    (hperm : (∀ ev ∈ evs, ev.sorts = false) → l.Perm k) :
    ∃ sort : SortChoice, (∀ ev ∈ evs, ev.sorts = false) → sort.sort k = l := by
  by_cases hquiet : ∀ ev ∈ evs, ev.sorts = false
  · exact ⟨KeySort.sending (hperm hquiet) hsorted, fun _ => KeySort.sending_sort _ _⟩
  · exact ⟨KeySort.stable _, fun h => absurd h hquiet⟩

/-- Two orders of the alarms, for what is settled and for what it is settled by. -/
theorem Settles.exists_lists {t now : Nat} {sorted : Bool} {l l' : Multiset AlarmEntry}
    (h : Settles t now sorted l l') :
    ∃ stood alarms : List AlarmEntry, stood.Perm alarms ∧ l = alarms ∧ InOrder stood ∧
      InOrder alarms ∧ (sorted = false → stood = alarms) ∧
      l' = (List.zipWith (fun e' e => if e'.due (currentDateTime t) then
        e.afterDismiss (currentDateTime now) else e) stood alarms : List AlarmEntry) := by
  obtain ⟨z, hfst, hsnd, hkey, hsame, rfl⟩ := h
  -- the pairs in the order of their common date-time
  obtain ⟨k, rfl⟩ : ∃ k : List (AlarmEntry × AlarmEntry), z = k := ⟨z.toList, z.coe_toList.symm⟩
  obtain ⟨ps, hps⟩ : ∃ ps, ps =
      (KeySort.stable fun p : AlarmEntry × AlarmEntry => p.1.dateTime.msecs).sort k := ⟨_, rfl⟩
  have hperm : ps.Perm k := hps ▸ (KeySort.stable _).perm k
  have horder : ps.Pairwise fun p q => p.1.dateTime.msecs ≤ q.1.dateTime.msecs :=
    hps ▸ (KeySort.stable _).sorted k
  have hmem : ∀ p ∈ ps, p ∈ (k : Multiset (AlarmEntry × AlarmEntry)) :=
    fun p hp => Multiset.mem_coe.mpr (hperm.mem_iff.mp hp)
  have hfst' : l = (ps.map Prod.fst : List AlarmEntry) :=
    hfst.symm.trans (Multiset.coe_eq_coe.mpr (hperm.map _).symm)
  have hsnd' : l = (ps.map Prod.snd : List AlarmEntry) :=
    hsnd.symm.trans (Multiset.coe_eq_coe.mpr (hperm.map _).symm)
  refine ⟨ps.map Prod.snd, ps.map Prod.fst, Multiset.coe_eq_coe.mp (hsnd'.symm.trans hfst'),
    hfst', ?_, List.pairwise_map.mpr horder, ?_, ?_⟩
  · refine List.pairwise_map.mpr (horder.imp_of_mem ?_)
    intro p q hp hq hle
    rwa [hkey p (hmem p hp), hkey q (hmem q hq)] at hle
  · intro hnot
    apply List.map_congr_left
    intro p hp
    exact (hsame hnot p (hmem p hp)).symm
  · rw [List.zipWith_map, List.zipWith_self]
    exact Multiset.coe_eq_coe.mpr (hperm.map _).symm

/-- **Every run of the alarms is one of the screen**, with the list in any order at the end.
    While a dialog is open the choices before it depend on how it will settle the alarms. -/
theorem leads_run {home : QString} {row : Nat} {evs : List Event} {w w' : Unordered}
    (hrun : w.Run evs w') (hended : w'.ringing = none) {l : List AlarmEntry} (hl : w'.entries = l)
    (hsorted : InOrder l) :
    (w.ringing = none → ∀ s, Shows row s w → Leads home row s evs w' l) ∧
    ∀ t sorted, w.ringing = some (t, sorted) →
      ∃ stood alarms : List AlarmEntry, stood.Perm alarms ∧ w.entries = alarms ∧ InOrder stood ∧
        InOrder alarms ∧ (sorted = false → stood = alarms) ∧
        ∀ s : Screen, (∃ dlg, s.dialog = some (.edit row dlg)) → w.clock = s.window.clock →
          Rings s t stood → s.window.alarms = alarms → Leads home row s evs w' l := by
  induction evs generalizing w with
  | nil =>
    obtain rfl : w' = w := hrun
    refine ⟨fun _ s hs => ⟨[], s, rfl, rfl, hs, by simp, fun _ => rfl⟩, ?_⟩
    intro t sorted hringing
    cases hended.symm.trans hringing
  | cons ev evs ih =>
    obtain ⟨w₁, hnext, hrun₁⟩ := hrun
    have hlast : ∀ k : List AlarmEntry, w₁.entries = k →
        (∀ ev ∈ evs, ev.sorts = false) → l.Perm k := by
      intro k hk hquiet
      rw [← Multiset.coe_eq_coe, ← hl, ← hk]
      exact hrun₁.of_not_sorts hquiet
    cases hnext with
    | quiet now hclock hringing hnone =>
      refine ⟨fun _ s hs => ?_, fun t sorted hsome => absurd hsome (by simp [hringing])⟩
      rw [hs.entries] at hnone
      obtain ⟨sort, hsort⟩ := exists_sort (k := s.window.alarms) hsorted (hlast _ hs.entries)
      obtain ⟨s₁, hstep, hs₁, hidle⟩ := step_quiet home sort (hs.idle hringing)
        (hs.clock ▸ hclock) hnone
      obtain ⟨dlg, hdialog⟩ := hs.dialog
      have hshows : Shows row s₁ { w with clock := now } := by
        refine .of_idle ⟨dlg, hs₁.dialog.trans hdialog⟩ ?_ hs₁.clock.symm hringing hidle
        rw [hs₁.alarms]
        exact hs.entries.trans (Multiset.coe_eq_coe.mpr (sort.perm _).symm)
      refine .cons_sorts rfl hstep ((ih hrun₁).1 hringing s₁ hshows) ?_
      intro hquiet
      rw [hs₁.alarms, hsort hquiet]
    | rings now hclock hringing hsome =>
      refine ⟨fun _ s hs => ?_, fun t sorted hsome => absurd hsome (by simp [hringing])⟩
      rw [hs.entries] at hsome
      obtain ⟨stood, alarms, -, halarms, -, horder, hsame, hleads⟩ := (ih hrun₁).2 now false rfl
      obtain rfl := hsame rfl
      have hperm : stood.Perm s.window.alarms :=
        Multiset.coe_eq_coe.mp (halarms.symm.trans hs.entries)
      obtain ⟨s₁, hstep, hs₁, hrings⟩ := step_rings home (KeySort.sending hperm horder)
        (hs.idle hringing) (hs.clock ▸ hclock) hsome
      obtain ⟨dlg, hdialog⟩ := hs.dialog
      have hlist : s₁.window.alarms = stood := by
        rw [hs₁.alarms, KeySort.sending_sort]
      rw [hlist] at hrings
      refine .cons_sorts rfl hstep
        (hleads s₁ ⟨dlg, hs₁.dialog.trans hdialog⟩ hs₁.clock.symm hrings hlist) ?_
      intro hquiet
      exact absurd hended (hrun₁.ringing_of_not_sorts hquiet (by simp))
    | again now t sorted hclock hringing =>
      refine ⟨fun hnone => absurd hnone (by simp [hringing]), ?_⟩
      intro t' sorted' hsome
      obtain ⟨rfl, rfl⟩ := Prod.mk.inj (Option.some.inj (hringing.symm.trans hsome))
      obtain ⟨stood, alarms, hperm, halarms, hstood, horder, -, hleads⟩ := (ih hrun₁).2 t true rfl
      have hentries : w.entries = stood := halarms.trans (Multiset.coe_eq_coe.mpr hperm.symm)
      refine ⟨stood, stood, List.Perm.refl _, hentries, hstood, hstood, fun _ => rfl, ?_⟩
      rintro s ⟨dlg, hdialog⟩ hsclock hrings rfl
      obtain ⟨s₁, hstep, hs₁, hrings₁⟩ := step_again home
        (KeySort.sending hperm.symm horder) hrings (hsclock ▸ hclock)
      have hlist : s₁.window.alarms = alarms := by
        rw [hs₁.alarms, KeySort.sending_sort]
      refine .cons_sorts rfl hstep
        (hleads s₁ ⟨dlg, hs₁.dialog.trans hdialog⟩ hs₁.clock.symm hrings₁ hlist) ?_
      intro hquiet
      exact absurd hended (hrun₁.ringing_of_not_sorts hquiet (by simp))
    | dismiss now photo t sorted l' hclock hringing hsettles =>
      refine ⟨fun hnone => absurd hnone (by simp [hringing]), ?_⟩
      intro t' sorted' hsome
      obtain ⟨rfl, rfl⟩ := Prod.mk.inj (Option.some.inj (hringing.symm.trans hsome))
      obtain ⟨stood, alarms, hperm, hentries, hstood, horder, hsame, rfl⟩ := hsettles.exists_lists
      refine ⟨stood, alarms, hperm, hentries, hstood, horder, hsame, ?_⟩
      rintro s ⟨dlg, hdialog⟩ hsclock hrings rfl
      obtain ⟨sort, hsort⟩ := exists_sort hsorted (hlast _ rfl)
      obtain ⟨s₁, hstep, hs₁, hidle⟩ := step_dismiss home sort photo hrings
        hperm.length_eq (hsclock ▸ hclock)
      refine .cons_sorts rfl hstep ((ih hrun₁).1 rfl s₁ (.of_idle
        ⟨dlg, hs₁.dialog.trans hdialog⟩ ?_ hs₁.clock.symm rfl hidle)) ?_
      · rw [hs₁.alarms]
        exact Multiset.coe_eq_coe.mpr (sort.perm _).symm
      · intro hquiet
        rw [hs₁.alarms, hsort hquiet]
    | press p hringing =>
      refine ⟨fun _ s hs => ?_, fun t sorted hsome => absurd hsome (by simp [hringing])⟩
      obtain ⟨dlg, hdialog⟩ := hs.dialog
      have hidle := hs.idle hringing
      exact .cons_press (step_press home (KeySort.stable _) p hdialog hidle.2)
        ((ih hrun₁).1 hringing _ (.of_idle ⟨_, rfl⟩ hs.entries hs.clock hringing hidle)) rfl

/-! ### When the alarm stays at its row -/

/-- Without mixed ties a ring is settled in one way. -/
theorem Settles.eq_map {t now : Nat} {sorted : Bool} {k : List AlarmEntry}
    {l' : Multiset AlarmEntry} (h : Settles t now sorted k l')
    (htie : NoMixedTie (currentDateTime t) k) :
    l' = (k.map fun e => if e.due (currentDateTime t) then e.afterDismiss (currentDateTime now)
      else e : List AlarmEntry) := by
  obtain ⟨z, hfst, hsnd, hkey, -, rfl⟩ := h
  rw [← Multiset.map_coe, ← hfst, Multiset.map_map]
  apply Multiset.map_congr rfl
  intro p hp
  have hp₁ : p.1 ∈ k := Multiset.mem_coe.mp (hfst ▸ Multiset.mem_map_of_mem _ hp)
  have hp₂ : p.2 ∈ k := Multiset.mem_coe.mp (hsnd ▸ Multiset.mem_map_of_mem _ hp)
  simp only [Function.comp_apply, htie.due_eq hp₁ hp₂ (hkey p hp)]

namespace Unordered

variable {w w' : Unordered}

/-- Nothing is settled before a dialog ends. -/
theorem Run.of_not_dismiss {evs : List Event} (h : w.Run evs w')
    (hnone : ∀ now photo, Event.dismiss now photo ∉ evs) : w'.entries = w.entries := by
  induction evs generalizing w with
  | nil =>
    obtain rfl : w' = w := h
    rfl
  | cons ev evs ih =>
    obtain ⟨w₁, hnext, hrun⟩ := h
    rw [ih hrun fun now photo hmem => hnone now photo (List.mem_cons_of_mem _ hmem)]
    cases hnext with
    | quiet | rings | again | press => rfl
    | dismiss now photo => exact absurd List.mem_cons_self (hnone now photo)

/-- While a dialog is open the clock ticks, and its end settles what rang. -/
theorem Run.of_ringing {t d : Nat} {photo : QString} {ts : List Nat} {sorted : Bool}
    (h : w.Run (ts.map .tick ++ [.dismiss d photo]) w') (hringing : w.ringing = some (t, sorted)) :
    ∃ sorted', Settles t d sorted' w.entries w'.entries := by
  induction ts generalizing w sorted with
  | nil =>
    obtain ⟨w₁, hnext, rfl⟩ := h
    cases hnext with
    | dismiss now photo t' sorted' l hclock hringing' hsettles =>
      obtain ⟨rfl, rfl⟩ := Prod.mk.inj (Option.some.inj (hringing.symm.trans hringing'))
      exact ⟨sorted, hsettles⟩
  | cons t₁ ts ih =>
    obtain ⟨w₁, hnext, hrun⟩ := h
    cases hnext with
    | quiet now hclock hnone | rings now hclock hnone => cases hnone.symm.trans hringing
    | again now t' sorted' hclock hringing' =>
      obtain ⟨rfl, rfl⟩ := Prod.mk.inj (Option.some.inj (hringing.symm.trans hringing'))
      have hsettles := ih hrun rfl
      exact hsettles

end Unordered

/-- When nothing is dismissed it is enough that no other alarm has the date-time of the
    edited one, in a sorted list. -/
theorem returns_of_not_dismiss {row now : Nat} {id : Int} {evs : List Event} {w : Unordered}
    (hnone : ∀ t photo, Event.dismiss t photo ∉ evs) (hstands : StandsAt row id w.entries) :
    Returns row id evs now w := by
  intro _ w' hrun _ _
  rw [hrun.of_not_dismiss hnone]
  exact hstands

/-- When one ring is dismissed and no due alarm is tied with a disabled one, it is enough
    that the alarm stands at its row after the ring. -/
theorem returns_of_ring {row t d now clock : Nat} {id : Int} {photo : QString} (ts : List Nat)
    {l : List AlarmEntry} (hdue : ∃ e ∈ l, e.due (currentDateTime t) = true)
    (htie : NoMixedTie (currentDateTime t) l)
    (hstands : StandsAt row id (l.map fun e =>
      if e.due (currentDateTime t) then e.afterDismiss (currentDateTime d) else e :
        List AlarmEntry)) :
    Returns row id (.tick t :: (ts.map .tick ++ [.dismiss d photo])) now
      { entries := l, clock := clock } := by
  rintro - w' ⟨w₁, hnext, hrun⟩ - -
  cases hnext with
  | quiet _ _ _ hquiet =>
    obtain ⟨e, he, hdue⟩ := hdue
    cases (hquiet e he).symm.trans hdue
  | again _ _ _ _ hringing => cases hringing
  | rings =>
    obtain ⟨sorted, hsettles⟩ := hrun.of_ringing rfl
    rw [hsettles.eq_map htie]
    exact hstands

end Screen

open Screen

/-- **When an accepted edit changes the alarm that was being edited.** Take any list with
    distinct ids, any row, and any ticks, rings, dismissals and presses while the edit dialog
    is open. Whatever the sort does with equal date-times in each of them, the accept
    overwrites the alarm that the dialog was opened on, and no other, if and only if the
    dismissed rings leave it at its row in every order by date-time. -/
theorem edit_run {home : QString} {s : Screen} {row opened now : Nat} {evs : List Screen.Event}
    {x : AlarmEntry} (hids : (s.window.alarms.map (·.alarmId)).Nodup) (hidle : Idle s)
    (hdialog : s.dialog = none) (hclock : s.window.clock ≤ opened)
    (hselected : s.selectedRow = some row) (hrow : s.window.alarms[row]? = some x)
    (hstays : ∀ ev ∈ evs, StaysOpen ev) :
    (∀ before after, EditSession home s opened evs now before after →
      Overwrites home now x.alarmId before after) ↔
    Returns row x.alarmId evs now { entries := s.window.alarms, clock := opened } := by
  have hopen := fun sort => step_openEditDialog home sort hdialog hidle.2 hclock hselected hrow
  have hshows : Shows row { s.atClock opened with
      dialog := some (.edit row (x.editor home (currentDateTime opened))) }
      { entries := s.window.alarms, clock := opened } := .of_idle ⟨_, rfl⟩ rfl rfl rfl hidle
  constructor
  · intro hall hsorts w' hrun hended hlater
    obtain ⟨k, hk⟩ : ∃ k : List AlarmEntry, w'.entries = k :=
      ⟨w'.entries.toList, w'.entries.coe_toList.symm⟩
    have hids' : (k.map (·.alarmId)).Nodup := by
      have hsame := hrun.alarmIds
      rw [hk, Multiset.map_coe, Multiset.map_coe] at hsame
      exact (Multiset.coe_eq_coe.mp hsame).nodup_iff.mpr hids
    rw [hk]
    apply standsAt_of_forall hids'
    intro l hperm horder
    have hl : w'.entries = l := hk.trans (Multiset.coe_eq_coe.mpr hperm.symm)
    obtain ⟨cevs, before, hevs, hbefore, hshows', hlast, -⟩ :=
      (leads_run hrun hended hl horder).1 rfl _ hshows
    obtain ⟨dlg, hdlg⟩ := hshows'.dialog
    obtain ⟨after, hafter⟩ := (step_accept home (KeySort.stable _) hdlg).mpr
      ⟨(hshows'.idle hended).2, hshows'.clock ▸ hlater⟩
    have hoverwrites := hall before after ⟨KeySort.stable _, KeySort.stable _, cevs, hevs,
      Machine.run_cons_eq_some.mpr ⟨_, hopen _, hbefore⟩, hafter⟩
    rw [← hlast hsorts]
    exact (overwrites_iff hdlg hafter).mp hoverwrites
  · rintro hreturns before after ⟨sort, sort', cevs, rfl, hrun, hafter⟩
    obtain ⟨s₀, hs₀, hrun'⟩ := Machine.run_cons_eq_some.mp hrun
    obtain rfl := Option.some.inj ((hopen sort).symm.trans hs₀)
    obtain ⟨w', hrun₁, hshows', horder, hsame⟩ := shows_run hshows
      (fun c hc => hstays c.1 (List.mem_map_of_mem hc)) hrun'
    obtain ⟨dlg, hdlg⟩ := hshows'.dialog
    obtain ⟨hframe, hlater⟩ := (step_accept home sort' hdlg).mp ⟨after, hafter⟩
    have hended : w'.ringing = none := by
      rcases Option.eq_none_or_eq_some w'.ringing with hnone | ⟨⟨t, sorted⟩, hringing⟩
      · exact hnone
      · obtain ⟨stood, hrings, -⟩ := hshows'.ringing t sorted hringing
        cases hframe.symm.trans hrings.2
    rw [overwrites_iff hdlg hafter]
    by_cases hsorts : ∃ c ∈ cevs, c.1.sorts = true
    · obtain ⟨c, hc, hcsorts⟩ := hsorts
      have hstands := hreturns ⟨c.1, List.mem_map_of_mem hc, hcsorts⟩ w' hrun₁ hended
        (hshows'.clock ▸ hlater)
      -- the alarm is still there, under its id
      have hid : x.alarmId ∈ w'.entries.map (·.alarmId) := by
        rw [hrun₁.alarmIds]
        exact Multiset.mem_map_of_mem _ (List.mem_of_getElem? hrow)
      obtain ⟨e, he, heid⟩ := Multiset.mem_map.mp hid
      rw [hshows'.entries] at hstands he
      exact ⟨e, getElem?_of_standsAt (horder ⟨c, hc, hcsorts⟩) hstands he heid, heid⟩
    · have hquiet : ∀ c ∈ cevs, c.1.sorts = false := by
        intro c hc
        by_contra hnot
        exact hsorts ⟨c, hc, by simpa using hnot⟩
      rw [hsame hquiet]
      exact ⟨x, hrow, rfl⟩

/-- A fresh installation with an alarm at 00:01, made with these presses, and a one-shot at
    01:00, whose row is selected. -/
def twoAlarms (presses : List AlarmDialog.Press) : Option Screen :=
  (launch (Platform.stable "/root".toList) {} 0).bind fun s =>
    Machine.run (step (Platform.stable "/root".toList)) s
      (.openAddDialog 1000 :: (presses.map .press ++
        [.accept 2000, .openAddDialog 3000, .press .increaseHour, .accept 4000, .select 1]))

/-- A one-shot that rings under the editor and is disabled. -/
theorem edit_run_disabled : ∃ s before after, twoAlarms [.increaseMinute] = some s ∧
    EditSession "/root".toList s 55000 [.tick 60000, .tick 61000, .dismiss 62000 []] 70000 before
      after ∧
    Overwrites "/root".toList 70000 2 before after := by
  obtain ⟨s, hs⟩ : ∃ s, twoAlarms [.increaseMinute] = some s :=
    Option.isSome_iff_exists.mp (by decide +kernel)
  have hfacts : ∀ s ∈ twoAlarms [.increaseMinute],
      (s.window.alarms.map (·.alarmId)).Nodup ∧ s.window.alarmHandling = false ∧
      s.window.frame = none ∧ s.dialog = none ∧ s.window.clock ≤ 55000 ∧
      s.selectedRow = some 1 ∧ s.window.alarms[1]?.map (·.alarmId) = some 2 ∧
      (∃ e ∈ s.window.alarms, e.due (currentDateTime 60000) = true) ∧
      NoMixedTie (currentDateTime 60000) s.window.alarms ∧
      StandsAt 1 2 (s.window.alarms.map fun e => if e.due (currentDateTime 60000) then
        e.afterDismiss (currentDateTime 62000) else e : List AlarmEntry) := by
    decide +kernel
  have hsession : ∀ s ∈ twoAlarms [.increaseMinute],
      ((Machine.run (stepWith "/root".toList) s
        [(.openEditDialog 55000, KeySort.stable _), (.tick 60000, KeySort.stable _),
          (.tick 61000, KeySort.stable _), (.dismiss 62000 [], KeySort.stable _)]).bind
        fun before => stepWith "/root".toList before (.accept 70000, KeySort.stable _)).isSome := by
    decide +kernel
  obtain ⟨hids, hhandling, hframe, hdialog, hclock, hselected, hrow, hdue, htie, hstands⟩ :=
    hfacts s hs
  obtain ⟨after, hafter⟩ := Option.isSome_iff_exists.mp (hsession s hs)
  obtain ⟨before, hbefore, haccept⟩ := Option.bind_eq_some_iff.mp hafter
  obtain ⟨x, hx, hid⟩ := Option.map_eq_some_iff.mp hrow
  have hedit : EditSession "/root".toList s 55000
      [.tick 60000, .tick 61000, .dismiss 62000 []] 70000 before after :=
    ⟨_, _, _, rfl, hbefore, haccept⟩
  refine ⟨s, before, after, hs, hedit, ?_⟩
  rw [← hid]
  exact (edit_run hids ⟨hhandling, hframe⟩ hdialog hclock hselected hx (by simp [StaysOpen])).mpr
    (hid ▸ returns_of_ring [61000] hdue htie hstands) before after hedit

/-- **A weekly alarm that rings under the editor.** It is moved behind the alarm that the
    editor was opened on, and is overwritten in its place. -/
theorem edit_fails : ∃ s before after, twoAlarms [.increaseMinute, .weekday 4] = some s ∧
    s.selectedRow = some 1 ∧ s.window.alarms[1]?.map (·.alarmId) = some 2 ∧
    EditSession "/root".toList s 55000 [.tick 60000, .dismiss 62000 [], .press .increaseHour] 70000
      before after ∧
    ¬ Overwrites "/root".toList 70000 2 before after ∧
    Overwrites "/root".toList 70000 1 before after := by
  obtain ⟨s, hs⟩ : ∃ s, twoAlarms [.increaseMinute, .weekday 4] = some s :=
    Option.isSome_iff_exists.mp (by decide +kernel)
  have hopened : ∀ s ∈ twoAlarms [.increaseMinute, .weekday 4],
      s.selectedRow = some 1 ∧ s.window.alarms[1]?.map (·.alarmId) = some 2 := by
    decide +kernel
  have hsession : ∀ s ∈ twoAlarms [.increaseMinute, .weekday 4],
      ((Machine.run (stepWith "/root".toList) s
        [(.openEditDialog 55000, KeySort.stable _), (.tick 60000, KeySort.stable _),
          (.dismiss 62000 [], KeySort.stable _), (.press .increaseHour, KeySort.stable _)]).bind
        fun before => stepWith "/root".toList before (.accept 70000, KeySort.stable _)).isSome := by
    decide +kernel
  have hmoved : ∀ s ∈ twoAlarms [.increaseMinute, .weekday 4],
      ∀ before ∈ Machine.run (stepWith "/root".toList) s
        [(.openEditDialog 55000, KeySort.stable _), (.tick 60000, KeySort.stable _),
          (.dismiss 62000 [], KeySort.stable _), (.press .increaseHour, KeySort.stable _)],
      (before.dialog.bind UserDialog.editing).map Prod.fst = some 1 ∧
        before.window.alarms[1]?.map (·.alarmId) = some 1 := by
    decide +kernel
  obtain ⟨hselected, hrow⟩ := hopened s hs
  obtain ⟨after, hafter⟩ := Option.isSome_iff_exists.mp (hsession s hs)
  obtain ⟨before, hbefore, haccept⟩ := Option.bind_eq_some_iff.mp hafter
  obtain ⟨hediting, hstands⟩ := hmoved s hs before hbefore
  obtain ⟨⟨row, dlg⟩, hedits, hone⟩ := Option.map_eq_some_iff.mp hediting
  obtain rfl : row = 1 := hone
  obtain ⟨dialog, hdialog, hedits⟩ := Option.bind_eq_some_iff.mp hedits
  obtain rfl := UserDialog.editing_eq_some.mp hedits
  obtain ⟨x, hx, hid⟩ := Option.map_eq_some_iff.mp hstands
  refine ⟨s, before, after, hs, hselected, hrow, ⟨_, _, _, rfl, hbefore, haccept⟩, ?_, ?_⟩
  · rw [overwrites_iff hdialog haccept]
    rintro ⟨e, he, heid⟩
    obtain rfl := Option.some.inj (hx.symm.trans he)
    cases hid.symm.trans heid
  · rw [overwrites_iff hdialog haccept]
    exact ⟨x, hx, hid⟩

end AlarmClock
