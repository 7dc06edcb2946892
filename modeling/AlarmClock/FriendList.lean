import AlarmClock.Lib.IndexedUpdate
import AlarmClock.Lib.Machine
import AlarmClock.QString
import AlarmClock.Storage

/-!
# The list of friends

The dialog shows one row for each address, with a button that deletes it. The button knows
its row by the index at which it was drawn; the list in memory changes at once and the rows
are drawn again by a timer that fires later. Any number of clicks may come in between.
-/

namespace AlarmClock.FriendList

/-- `friends.json`: an array, or anything else, a parse error included. A nested value of the
    array reads as `null` does. -/
inductive FriendsFile where
  | array (arr : List QJsonValue)
  | other
deriving DecidableEq, Repr

def loadFriends : Option FriendsFile → List QString
  | some (.array arr) => arr.filterMap fun v =>
    match v with
    | .string s => some s
    | _ => none
  | _ => []

/-- The document of a list. -/
def document (ips : List QString) : FriendsFile := .array (ips.map QJsonValue.string)

/-- A file that cannot be opened stays as it is. -/
def saveFriends (ips : List QString) (opens : Bool) (file : Option FriendsFile) :
    Option FriendsFile :=
  if opens then some (document ips) else file

theorem loadFriends_document (ips : List QString) : loadFriends (some (document ips)) = ips := by
  simp only [loadFriends, document, List.filterMap_map]
  exact List.filterMap_some

/-- The single address of the old file becomes the new list, once. -/
def migrate (file : Option FriendsFile) (friendIp : Option QString) (opens : Bool) :
    Option FriendsFile :=
  match file, friendIp with
  | none, some text =>
    let ip := text.trimmed
    if ip ≠ [] then saveFriends [ip] opens none else none
  | _, _ => file

/-- The list in memory, the rows as they were last drawn, the timers that are to draw them
    again, and the file. -/
structure State where
  friends : List QString
  rows : List QString
  pending : Nat
  file : Option FriendsFile
deriving DecidableEq, Repr

/-- `del` is a click on the button of a row; `rebuildList` is a timer. `add` is what the keypad
    returns, which is empty when it was cancelled. -/
inductive Event where
  | del (i : Nat) (opens : Bool)
  | rebuildList
  | add (ip : QString) (opens : Bool)
deriving DecidableEq, Repr

/-- The dialog as it opens. -/
def openFriendStatDialog (file : Option FriendsFile) : State :=
  { friends := loadFriends file, rows := loadFriends file, pending := 0, file := file }

namespace State

/-- The list changes and is written. -/
def store (s : State) (ips : List QString) (opens : Bool) : State :=
  { s with friends := ips, file := saveFriends ips opens s.file }

def step (s : State) : Event → Option State
  | .del i opens =>
    if i < s.rows.length then
      let ips := if i < s.friends.length then s.friends.eraseIdx i else s.friends
      some { s.store ips opens with pending := s.pending + 1 }
    else none
  | .rebuildList =>
    if 0 < s.pending then some { s with rows := s.friends, pending := s.pending - 1 } else none
  | .add ip opens =>
    if ip = [] ∨ ip ∈ s.friends then some s
    else
      let ips := s.friends ++ [ip]
      some { s.store ips opens with rows := ips }

/-- A click deletes the address of its row, if it is still in the list, and nothing else, and
    the file holds the list afterwards. -/
def DeletesShown (s : State) : Event → Prop
  | .del i opens => ∀ ip s', s.rows[i]? = some ip → s.step (.del i opens) = some s' →
      s'.friends = s.friends.erase ip ∧ s'.file = some (document s'.friends)
  | _ => True

/-- The address of the row is still at the index of the row, or it is gone and so is the index;
    and the file can be written, or holds already what is left. -/
def RowStands (s : State) : Event → Prop
  | .del i opens => ∀ ip, s.rows[i]? = some ip →
      (s.friends[i]? = some ip ∨ s.friends.length ≤ i ∧ ip ∉ s.friends) ∧
        (opens = true ∨ s.file = some (document (s.friends.eraseIdx i)))
  | _ => True

/-- What a click does, on whatever row. -/
theorem step_del {s : State} {i : Nat} (opens : Bool) (h : i < s.rows.length) :
    s.step (.del i opens) =
      some { s.store (s.friends.eraseIdx i) opens with pending := s.pending + 1 } := by
  simp only [step, if_pos h]
  split_ifs with hi
  · rfl
  · rw [List.eraseIdx_of_length_le (Nat.le_of_not_lt hi)]

/-- **One click.** -/
theorem deletesShown_iff {s : State} (hnodup : s.friends.Nodup) (e : Event) :
    s.DeletesShown e ↔ s.RowStands e := by
  cases e with
  | rebuildList | add => exact Iff.rfl
  | del i opens =>
    refine forall_congr' fun ip => ?_
    constructor
    · intro h hrow
      obtain ⟨hi, -⟩ := List.getElem?_eq_some_iff.mp hrow
      obtain ⟨hfriends, hfile⟩ := h _ hrow (step_del opens hi)
      refine ⟨(IndexedUpdate.eraseIdx_eq_erase_iff hnodup i ip).mp hfriends, ?_⟩
      cases opens with
      | true => exact .inl rfl
      | false => exact .inr hfile
    · intro h s' hrow hstep
      obtain ⟨hi, -⟩ := List.getElem?_eq_some_iff.mp hrow
      obtain ⟨hstands, hwritten⟩ := h hrow
      obtain rfl := Option.some.inj ((step_del opens hi).symm.trans hstep)
      refine ⟨(IndexedUpdate.eraseIdx_eq_erase_iff hnodup i ip).mpr hstands, ?_⟩
      cases opens with
      | true => rfl
      | false => exact hwritten.resolve_left nofun

theorem nodup_step {s s' : State} {e : Event} (h : s.friends.Nodup)
    (hstep : s.step e = some s') : s'.friends.Nodup := by
  cases e with
  | del i opens =>
    obtain ⟨hi, -⟩ := Machine.guarded_eq_some hstep
    obtain rfl := Option.some.inj ((step_del opens hi).symm.trans hstep)
    exact h.sublist (List.eraseIdx_sublist s.friends i)
  | rebuildList =>
    obtain ⟨-, rfl⟩ := Machine.guarded_eq_some hstep
    exact h
  | add ip opens =>
    simp only [step] at hstep
    split at hstep
    · obtain rfl := Option.some.inj hstep
      exact h
    · next hnew =>
      obtain rfl := Option.some.inj hstep
      have hip : ip ∉ s.friends := fun hmem => hnew (.inr hmem)
      exact h.append (List.nodup_singleton ip) (List.disjoint_singleton.mpr hip)

/-- With no timer to come the rows are those of the list. -/
def Rebuilt (s : State) : Prop := s.pending = 0 → s.rows = s.friends

theorem rebuilt_step {s s' : State} {e : Event} (h : s.Rebuilt) (hstep : s.step e = some s') :
    s'.Rebuilt := by
  cases e with
  | del i opens =>
    obtain ⟨hi, -⟩ := Machine.guarded_eq_some hstep
    obtain rfl := Option.some.inj ((step_del opens hi).symm.trans hstep)
    intro hpending
    cases hpending
  | rebuildList =>
    obtain ⟨-, rfl⟩ := Machine.guarded_eq_some hstep
    exact fun _ => rfl
  | add ip opens =>
    simp only [step] at hstep
    split at hstep
    · obtain rfl := Option.some.inj hstep
      exact h
    · obtain rfl := Option.some.inj hstep
      exact fun _ => rfl

end State

open State

/-- In every run, a click that comes when all rows have been drawn again, with a file that can
    be written, finds the row standing. -/
theorem rowStands_of_rebuilt {file : Option FriendsFile} {es : List Event} {s : State}
    (hrun : Machine.run step (openFriendStatDialog file) es = some s) (hpending : s.pending = 0)
    (i : Nat) : s.RowStands (.del i true) := by
  have hrebuilt : s.Rebuilt :=
    Machine.run_invariant (fun _ _ _ h hstep => rebuilt_step h hstep) (fun _ => rfl) hrun
  intro ip hrow
  rw [hrebuilt hpending] at hrow
  exact ⟨.inl hrow, .inl rfl⟩

/-- **Deleting a friend.** From every file whose list has no repetitions, in every run of
    clicks, rebuilds and additions, every click deletes the address of its row only and leaves
    the file with the list, exactly when at every click the row still stands for its address. -/
theorem deletesShown_along_iff (file : Option FriendsFile) (friendIp : Option QString)
    (opens : Bool) (hnodup : (loadFriends (migrate file friendIp opens)).Nodup)
    (es : List Event) :
    Machine.Along step DeletesShown (openFriendStatDialog (migrate file friendIp opens)) es ↔
      Machine.Along step RowStands (openFriendStatDialog (migrate file friendIp opens)) es :=
  Machine.along_congr (I := fun s => s.friends.Nodup) (P := fun _ => True)
    (fun _ _ _ _ h hstep => nodup_step h hstep) (fun _ e _ h => deletesShown_iff h e) hnodup
    (fun _ _ => trivial)

/-- One address is deleted, the rows are drawn again, and another is deleted. -/
theorem deletesShown_along_iff_twoFriends :
    Machine.Along step DeletesShown
      (openFriendStatDialog (migrate (some (document [['a'], ['b']])) none true))
      [.del 0 true, .rebuildList, .del 0 true] := by
  refine (deletesShown_along_iff (some (document [['a'], ['b']])) none true (by decide) _).mpr ?_
  refine Machine.Along.cons ?_ rfl (Machine.Along.cons trivial rfl ?_)
  · intro ip hrow
    obtain rfl := Option.some.inj hrow
    exact ⟨.inl rfl, .inl rfl⟩
  · refine Machine.Along.cons ?_ rfl trivial
    intro ip hrow
    obtain rfl := Option.some.inj hrow
    exact ⟨.inl rfl, .inl rfl⟩

/-- Two clicks on the first row before it is drawn again delete two addresses. -/
theorem not_deletesShown_twoClicks :
    ∃ s s', Machine.run step (openFriendStatDialog (some (document [['a'], ['b'], ['c']])))
      [.del 0 true] = some s ∧ s.step (.del 0 true) = some s' ∧ s.rows[0]? = some ['a'] ∧
      s.friends = [['b'], ['c']] ∧ s'.friends = [['c']] ∧ s'.file = some (document [['c']]) ∧
      ¬ s.DeletesShown (.del 0 true) := by
  refine ⟨_, _, rfl, rfl, rfl, rfl, rfl, rfl, ?_⟩
  intro h
  obtain ⟨hfriends, -⟩ := h ['a'] _ rfl rfl
  revert hfriends
  decide

end AlarmClock.FriendList
