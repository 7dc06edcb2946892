import Mathlib.Algebra.Order.Group.MinMax
import Mathlib.Algebra.Order.Group.Abs
import Mathlib.Tactic.Linarith

/-!
# Clamping to an interval

A value is brought into an interval by `max` and `min`. Clamping brings two values no
further apart, and two values that are far apart come close only at an end of the interval.
-/

namespace Clamp

variable {α : Type*} [LinearOrder α]

def clamp (lo hi x : α) : α := max lo (min x hi)

theorem clamp_mono {lo hi a b : α} (h : a ≤ b) : clamp lo hi a ≤ clamp lo hi b :=
  max_le_max le_rfl (min_le_min h le_rfl)

variable [Field α] [IsStrictOrderedRing α]

/-- Clamping is nonexpansive. -/
theorem abs_clamp_sub_clamp_le (lo hi a b : α) : |clamp lo hi a - clamp lo hi b| ≤ |a - b| := by
  have hmax : |clamp lo hi a - clamp lo hi b| ≤ |min a hi - min b hi| := by
    have h := abs_max_sub_max_le_max lo (min a hi) lo (min b hi)
    simpa [clamp] using h
  have hmin : |min a hi - min b hi| ≤ |a - b| := by
    have h := abs_min_sub_min_le_max a hi b hi
    simpa using h
  exact hmax.trans hmin

/-- **Close after clamping.** Two values come within `d` of each other exactly when they are
    within `d`, or both are near the same end. -/
theorem abs_clamp_sub_le_iff {lo hi a b d : α} (hab : a ≤ b) (hd : 0 ≤ d) (hlo : lo + d < hi) :
    |clamp lo hi b - clamp lo hi a| ≤ d ↔ b - a ≤ d ∨ hi - d ≤ a ∨ b ≤ lo + d := by
  have hmono : clamp lo hi a ≤ clamp lo hi b := clamp_mono hab
  rw [abs_of_nonneg (sub_nonneg.mpr hmono)]
  constructor
  · intro h
    by_contra hnot
    simp only [not_or, not_le] at hnot
    obtain ⟨hfar, ha, hb⟩ := hnot
    have hclampa : clamp lo hi a = max lo a := by
      unfold clamp
      rw [min_eq_left (by linarith)]
    have hclampb : clamp lo hi b = min b hi := by
      unfold clamp
      exact max_eq_right (le_min (by linarith) (by linarith))
    rw [hclampa, hclampb] at h
    rcases le_total lo a with hla | hla <;> rcases le_total b hi with hbh | hbh
    · rw [max_eq_right hla, min_eq_left hbh] at h
      linarith
    · rw [max_eq_right hla, min_eq_right hbh] at h
      linarith
    · rw [max_eq_left hla, min_eq_left hbh] at h
      linarith
    · rw [max_eq_left hla, min_eq_right hbh] at h
      linarith
  · rintro (hclose | ha | hb)
    · have h := abs_clamp_sub_clamp_le lo hi b a
      rw [abs_of_nonneg (sub_nonneg.mpr hmono), abs_of_nonneg (sub_nonneg.mpr hab)] at h
      linarith
    · have hupper : clamp lo hi b ≤ hi := max_le (by linarith) (min_le_right b hi)
      have hlower : hi - d ≤ clamp lo hi a :=
        le_max_of_le_right (le_min ha (by linarith))
      linarith
    · have hlower : lo ≤ clamp lo hi a := le_max_left lo _
      have hupper : clamp lo hi b ≤ lo + d :=
        max_le (by linarith) ((min_le_left b hi).trans hb)
      linarith

end Clamp
