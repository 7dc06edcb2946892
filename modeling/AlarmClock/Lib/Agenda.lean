import Mathlib.Data.Multiset.MapFold

/-!
# An agenda that rings

Entries become due as time passes. A tick that finds something due rings, unless the
agenda is ringing already; ringing goes on until it is dismissed, and the entries that
were due when it began are then seen to. Between two rings entries may be written. No
index and no order occurs here: this is what an implementation by a sorted list has to
agree with. Two facts hold of every step: an entry stays until a dismissal sees to it or
a write removes it, and what has been seen to does not come back unless it is written.
-/

namespace Agenda

variable {α τ : Type*}

/-- When an entry is due, and what becomes of it when it is seen to. -/
structure Policy (α τ : Type*) where
  due : τ → α → Bool
  settle : τ → α → α

/-- `ringing` is the time at which the current ring began. -/
structure State (α τ : Type*) where
  entries : Multiset α
  ringing : Option τ
  clock : τ

inductive Label (α : Type*) where
  | tick
  | dismiss
  | write (removed added : Multiset α)

def Label.removed : Label α → Multiset α
  | write removed _ => removed
  | _ => 0

def Label.added : Label α → Multiset α
  | write _ added => added
  | _ => 0

variable [Preorder τ] (p : Policy α τ)

inductive Step : State α τ → Label α → State α τ → Prop where
  | quiet {s : State α τ} {now : τ} (hclock : s.clock ≤ now) (hidle : s.ringing = none)
      (hnone : ∀ e ∈ s.entries, p.due now e = false) :
      Step s .tick { s with clock := now }
  | rings {s : State α τ} {now : τ} (hclock : s.clock ≤ now) (hidle : s.ringing = none)
      (hsome : ∃ e ∈ s.entries, p.due now e = true) :
      Step s .tick { s with clock := now, ringing := some now }
  | nested {s : State α τ} {now t : τ} (hclock : s.clock ≤ now) (hringing : s.ringing = some t) :
      Step s .tick { s with clock := now }
  | dismiss {s : State α τ} {now t : τ} (hclock : s.clock ≤ now) (hringing : s.ringing = some t) :
      Step s .dismiss
        { entries := s.entries.map fun e => if p.due t e then p.settle now e else e
          ringing := none
          clock := now }
  | write {s : State α τ} {now : τ} {rest removed added : Multiset α} (hclock : s.clock ≤ now)
      (hidle : s.ringing = none) (hsplit : s.entries = rest + removed) :
      Step s (.write removed added)
        { entries := rest + added, ringing := none, clock := now }

variable {p}
variable {s s' : State α τ} {l : Label α}

theorem Step.clock_le (h : Step p s l s') : s.clock ≤ s'.clock := by
  cases h with
  | quiet hclock => exact hclock
  | rings hclock => exact hclock
  | nested hclock => exact hclock
  | dismiss hclock => exact hclock
  | write hclock => exact hclock

/-- **An entry stays**, until a dismissal of a ring in which it was due, or a write that
    removes it. -/
theorem Step.stays (h : Step p s l s') {e : α} (he : e ∈ s.entries) :
    e ∈ s'.entries ∨ (l = .dismiss ∧ ∃ t, s.ringing = some t ∧ p.due t e = true) ∨
      e ∈ l.removed := by
  cases h with
  | quiet => exact .inl he
  | rings => exact .inl he
  | nested => exact .inl he
  | @dismiss now t hclock hringing =>
    by_cases hdue : p.due t e = true
    · exact .inr (.inl ⟨rfl, t, hringing, hdue⟩)
    · left
      exact Multiset.mem_map.mpr ⟨e, he, if_neg hdue⟩
  | @write now rest removed added hclock hidle hsplit =>
    rw [hsplit, Multiset.mem_add] at he
    rcases he with he | he
    · exact .inl (Multiset.mem_add.mpr (.inl he))
    · exact .inr (.inr he)

/-- After a dismissal nothing is due that was due when the ring began. -/
theorem Step.dismissed {t : τ} (h : Step p s .dismiss s') (hringing : s.ringing = some t)
    (hsettle : ∀ e ∈ s.entries, ∀ now, s.clock ≤ now → p.due t (p.settle now e) = false) :
    ∀ e ∈ s'.entries, p.due t e = false := by
  cases h with
  | @dismiss now t' hclock hringing' =>
    obtain rfl : t' = t := Option.some.inj (hringing'.symm.trans hringing)
    intro e he
    obtain ⟨x, hx, rfl⟩ := Multiset.mem_map.mp he
    by_cases hdue : p.due t' x = true
    · rw [if_pos hdue]
      exact hsettle x hx now hclock
    · rw [if_neg hdue]
      simpa using hdue

/-- **What is due at an earlier time does not come back**, unless a write adds it. -/
theorem Step.returns (h : Step p s l s') {t : τ}
    (hsettle : ∀ e ∈ s.entries, ∀ now, s.clock ≤ now → p.due t (p.settle now e) = false)
    {e : α} (hdue : p.due t e = true) (hnot : e ∉ s.entries) (he : e ∈ s'.entries) :
    e ∈ l.added := by
  cases h with
  | quiet => exact absurd he hnot
  | rings => exact absurd he hnot
  | nested => exact absurd he hnot
  | @dismiss now t' hclock hringing =>
    obtain ⟨x, hx, hxe⟩ := Multiset.mem_map.mp he
    by_cases hdue' : p.due t' x = true
    · rw [if_pos hdue'] at hxe
      have hlater := hsettle x hx now hclock
      rw [hxe, hdue] at hlater
      cases hlater
    · rw [if_neg hdue'] at hxe
      exact absurd (hxe ▸ hx) hnot
  | @write now rest removed added hclock hidle hsplit =>
    rcases Multiset.mem_add.mp he with he | he
    · exact absurd (by rw [hsplit]; exact Multiset.mem_add.mpr (.inl he)) hnot
    · exact he

end Agenda
