import AlarmClock.Lib.Machine
import Mathlib.Order.Nat

/-!
# Runs without an end

An infinite run of a machine, what it reaches, and what it does again and again. The rule
for progress asks for a rank that no step raises and that a helpful step lowers; the
scheduler is asked for helpful steps only while the goal is out of reach.
-/

namespace Machine

variable {σ ε : Type*} {step : σ → ε → Option σ}

/-- The states of an infinite run, and the events between them. -/
structure Forever (step : σ → ε → Option σ) where
  state : Nat → σ
  event : Nat → ε
  next : ∀ n, step (state n) (event n) = some (state (n + 1))

namespace Forever

/-- It happens again and again. -/
def Often (r : Forever step) (Q : σ → ε → Prop) : Prop :=
  ∀ n, ∃ k, n ≤ k ∧ Q (r.state k) (r.event k)

theorem reachable {r : Forever step} {init : σ} (h : Reachable step init (r.state 0)) (n : Nat) :
    Reachable step init (r.state n) := by
  induction n with
  | zero => exact h
  | succ n ih => exact ih.next (r.next n)

/-- **The rule for progress.** In `P` a step reaches `Q`, or stays in `P` and does not raise
    the rank, which a helpful step lowers; and in `P` a helpful step comes. -/
theorem progress {P : σ → Prop} {Q : σ → ε → Prop} {H : ε → Prop} (rank : σ → Nat)
    (hstep : ∀ s e s', P s → step s e = some s' →
      Q s e ∨ P s' ∧ rank s' ≤ rank s ∧ (H e → rank s' < rank s))
    {r : Forever step} (hhelp : ∀ n, P (r.state n) → ∃ k, n ≤ k ∧ H (r.event k))
    {n : Nat} (hn : P (r.state n)) : ∃ k, n ≤ k ∧ Q (r.state k) (r.event k) := by
  induction hrank : rank (r.state n) using Nat.strongRecOn generalizing n with
  | ind m ih =>
    obtain ⟨k, hnk, hk⟩ := hhelp n hn
    -- up to the helpful step the run stays in `P`, or it has come to `Q`
    have hstays : ∀ d, (∃ i, n ≤ i ∧ Q (r.state i) (r.event i)) ∨
        P (r.state (n + d)) ∧ rank (r.state (n + d)) ≤ m := by
      intro d
      induction d with
      | zero => exact .inr ⟨hn, hrank.le⟩
      | succ d ihd =>
        rcases ihd with hdone | ⟨hP, hle⟩
        · exact .inl hdone
        · rcases hstep _ _ _ hP (r.next (n + d)) with hQ | ⟨hP', hle', _⟩
          · exact .inl ⟨n + d, Nat.le_add_right n d, hQ⟩
          · exact .inr ⟨hP', hle'.trans hle⟩
    obtain ⟨d, rfl⟩ := Nat.exists_eq_add_of_le hnk
    rcases hstays d with hdone | ⟨hP, hle⟩
    · exact hdone
    · rcases hstep _ _ _ hP (r.next (n + d)) with hQ | ⟨hP', _, hlower⟩
      · exact ⟨n + d, hnk, hQ⟩
      · obtain ⟨i, hi, hQ⟩ := ih _ ((hlower hk).trans_le hle) hP' rfl
        exact ⟨i, hnk.trans ((Nat.le_succ _).trans hi), hQ⟩

/-- A run that comes back to its first state can be repeated for ever. -/
theorem exists_of_cycle {s : σ} {es : List ε} (hne : es ≠ []) (h : run step s es = some s) :
    ∃ r : Forever step, r.state 0 = s ∧ ∀ n, es[n % es.length]? = some (r.event n) := by
  have hpos : 0 < es.length := List.length_pos_iff.mpr hne
  have hlt : ∀ n, n % es.length < es.length := fun n => Nat.mod_lt n hpos
  have htake : ∀ i, ∃ a, run step s (es.take i) = some a := by
    intro i
    obtain ⟨a, ha, _⟩ := run_append_eq_some.mp ((List.take_append_drop i es).symm ▸ h)
    exact ⟨a, ha⟩
  choose a ha using htake
  refine ⟨⟨fun n => a (n % es.length), fun n => es.get ⟨n % es.length, hlt n⟩, ?_⟩, ?_, ?_⟩
  · intro n
    have hstart := ha (n % es.length)
    have hend := ha (n % es.length + 1)
    rw [List.take_add_one, List.getElem?_eq_getElem (hlt n), Option.toList_some,
      run_append, hstart, Option.bind_some, run_singleton] at hend
    rw [List.get_eq_getElem, hend]
    by_cases hwrap : n % es.length + 1 < es.length
    · have hmod : (n + 1) % es.length = n % es.length + 1 := by
        rw [Nat.add_mod, Nat.mod_eq_of_lt (by omega : 1 < es.length), Nat.mod_eq_of_lt hwrap]
      rw [hmod]
    · have hall : n % es.length + 1 = es.length := Nat.le_antisymm (hlt n) (Nat.not_lt.mp hwrap)
      have hmod : (n + 1) % es.length = 0 := by
        rw [← Nat.mod_add_mod, hall, Nat.mod_self]
      have hfirst := ha 0
      have hlast := ha es.length
      rw [List.take_zero, run_nil] at hfirst
      rw [List.take_length, h] at hlast
      rw [hmod, hall, ← hfirst, ← hlast]
  · have hzero := ha (0 % es.length)
    rw [Nat.zero_mod, List.take_zero, run_nil] at hzero
    simpa using hzero.symm
  · intro n
    exact List.getElem?_eq_getElem (hlt n)

end Forever

end Machine
