import Mathlib.Data.List.Perm.Basic

/-!
# Ledgers of what is acquired and released

A ledger lists, in order, what a program acquires and what it releases. It is balanced
against what the program still holds when every item was acquired as often as it was
released and is held together; what is settled at the end is then what is no longer held.
-/

namespace Ledger

variable {α : Type*}

inductive Entry (α : Type*) where
  | acquired (a : α)
  | released (a : α)
deriving DecidableEq, Repr

/-- A free place that is filled adds what it is filled with. -/
theorem filterMap_set_perm {β : Type*} {f : β → Option α} {places : List β} {i : Nat} {b : β}
    (hi : i < places.length) (hfree : f places[i] = none) :
    ((places.set i b).filterMap f).Perm ((f b).toList ++ places.filterMap f) := by
  have hplaces : places = places.take i ++ places[i] :: places.drop (i + 1) := by
    rw [← List.drop_eq_getElem_cons hi, List.take_append_drop]
  have hold : places.filterMap f =
      (places.take i).filterMap f ++ (places.drop (i + 1)).filterMap f := by
    conv_lhs => rw [hplaces, List.filterMap_append, List.filterMap_cons_none hfree]
  have hnew : (places.set i b).filterMap f =
      (places.take i).filterMap f ++ ((f b).toList ++ (places.drop (i + 1)).filterMap f) := by
    rw [List.set_eq_take_append_cons_drop, if_pos hi, List.filterMap_append, List.filterMap_cons]
    cases f b <;> rfl
  rw [hnew, hold, ← List.append_assoc, ← List.append_assoc]
  exact List.perm_append_comm.append_right _

variable [DecidableEq α]

/-- What was acquired was released, as often. -/
def Settled (ledger : List (Entry α)) : Prop :=
  ∀ a, ledger.count (.acquired a) = ledger.count (.released a)

/-- What was acquired was released, or is held. -/
def Balanced (ledger : List (Entry α)) (held : List α) : Prop :=
  ∀ a, ledger.count (.acquired a) = ledger.count (.released a) + held.count a

variable {ledger : List (Entry α)} {held held' : List α}

theorem balanced_nil : Balanced ([] : List (Entry α)) [] := fun _ => rfl

theorem Balanced.acquire (h : Balanced ledger held) {a : α} (hheld : held'.Perm (a :: held)) :
    Balanced (ledger ++ [.acquired a]) held' := by
  intro b
  rw [hheld.count_eq, List.count_append, List.count_append, h b, List.count_cons]
  by_cases hb : a = b
  · subst hb
    simp
    omega
  · simp [hb]

theorem Balanced.release (h : Balanced ledger held) {a : α} (hheld : held.Perm (a :: held')) :
    Balanced (ledger ++ [.released a]) held' := by
  intro b
  have hb := h b
  rw [hheld.count_eq, List.count_cons] at hb
  rw [List.count_append, List.count_append, hb]
  by_cases hab : a = b
  · subst hab
    simp
    omega
  · simp [hab]

theorem Balanced.releaseAll (items : List α) (h : Balanced ledger (items ++ held)) :
    Balanced (ledger ++ items.map .released) held := by
  induction items generalizing ledger with
  | nil => simpa using h
  | cons a items ih =>
    have hnext := ih (h.release (List.Perm.refl _))
    rwa [List.append_assoc] at hnext

theorem Balanced.perm (h : Balanced ledger held) (hheld : held.Perm held') :
    Balanced ledger held' := by
  intro a
  rw [← hheld.count_eq]
  exact h a

/-- A ledger is settled when nothing is held. -/
theorem Balanced.settled_iff (h : Balanced ledger held) : Settled ledger ↔ held = [] := by
  constructor
  · intro hsettled
    apply List.eq_nil_iff_forall_not_mem.mpr
    intro a ha
    have hpos := List.count_pos_iff.mpr ha
    have hcount := h a
    rw [hsettled a] at hcount
    omega
  · rintro rfl a
    exact h a

end Ledger
