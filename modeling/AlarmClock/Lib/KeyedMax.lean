import Mathlib.Logic.Basic

/-!
# The largest value for each key

A map from keys to values that is fed pairs one at a time and keeps, for each key, the
largest value seen. What it holds in the end is a maximum over the pairs with that key,
so the order in which they came does not matter.
-/

namespace KeyedMax

variable {κ V : Type} [DecidableEq κ]

/-- The values that come with a key. -/
def values (l : List (κ × V)) (k : κ) : List V := (l.filter (·.1 = k)).map (·.2)

theorem values_cons_of_eq (v : V) (l : List (κ × V)) (k : κ) :
    values ((k, v) :: l) k = v :: values l k := by
  simp [values]

theorem values_cons_of_ne {p : κ × V} {k : κ} (h : p.1 ≠ k) (l : List (κ × V)) :
    values (p :: l) k = values l k := by
  simp [values, h]

variable [Max V]

/-- Feed one pair. -/
def raise (m : κ → Option V) (k : κ) (v : V) : κ → Option V :=
  fun k' => if k' = k then some ((m k).elim v (max · v)) else m k'

/-- **The map after the pairs**: the maximum of what it held and what came. -/
theorem foldl_raise (l : List (κ × V)) (m : κ → Option V) (k : κ) :
    (l.foldl (fun m p => raise m p.1 p.2) m) k = ((m k).toList ++ values l k).max? := by
  induction l generalizing m with
  | nil => cases h : m k <;> simp [values, h]
  | cons p l ih =>
    obtain ⟨k', v⟩ := p
    rw [List.foldl_cons, ih]
    by_cases hk : k' = k
    · subst hk
      rw [values_cons_of_eq]
      cases h : m k' with
      | none => simp [raise, h]
      | some w =>
        simp only [raise, h, if_true, Option.elim_some, Option.toList_some, List.singleton_append]
        rw [List.max?_cons', List.max?_cons', List.foldl_cons]
    · rw [values_cons_of_ne hk]
      simp [raise, Ne.symm hk]

/-- The map that starts empty holds the maximum for each key. -/
theorem foldl_raise_empty (l : List (κ × V)) (k : κ) :
    (l.foldl (fun m p => raise m p.1 p.2) fun _ => none) k = (values l k).max? :=
  foldl_raise l _ k

variable [LE V] [Std.IsLinearOrder V] [Std.LawfulOrderMax V]

/-- A maximum depends on the values only. -/
theorem max?_eq_of_mem_iff {l l' : List V} (h : ∀ x, x ∈ l ↔ x ∈ l') : l.max? = l'.max? := by
  cases hl : l.max? with
  | none =>
    rw [List.max?_eq_none_iff] at hl
    subst hl
    rw [eq_comm, List.max?_eq_none_iff]
    exact List.eq_nil_iff_forall_not_mem.mpr fun x hx => absurd ((h x).mpr hx) List.not_mem_nil
  | some v =>
    rw [List.max?_eq_some_iff] at hl
    rw [eq_comm, List.max?_eq_some_iff]
    exact ⟨(h v).mp hl.1, fun b hb => hl.2 b ((h b).mpr hb)⟩

/-- Two maxima over one list are equal when they have the same upper bounds. -/
theorem max?_map_eq_iff {α : Type} (l : List α) (f g : α → V) :
    (l.map f).max? = (l.map g).max? ↔ ∀ b, (∀ x ∈ l, f x ≤ b) ↔ ∀ x ∈ l, g x ≤ b := by
  cases hf : (l.map f).max? with
  | none =>
    obtain rfl : l = [] := by simpa using hf
    simp
  | some m =>
    cases hg : (l.map g).max? with
    | none =>
      obtain rfl : l = [] := by simpa using hg
      simp at hf
    | some m' =>
      have hle : ∀ b, m ≤ b ↔ ∀ x ∈ l, f x ≤ b := fun b => by
        simpa using List.max?_le_iff hf (x := b)
      have hle' : ∀ b, m' ≤ b ↔ ∀ x ∈ l, g x ≤ b := fun b => by
        simpa using List.max?_le_iff hg (x := b)
      constructor
      · intro h b
        rw [← hle, ← hle', Option.some.inj h]
      · intro h
        congr 1
        apply Std.le_antisymm
        · rw [hle, h, ← hle']
          exact Std.le_refl m'
        · rw [hle', ← h, ← hle]
          exact Std.le_refl m

/-- **The order of the pairs does not matter.** -/
theorem foldl_raise_perm {l l' : List (κ × V)} (h : l.Perm l') :
    (l.foldl (fun m p => raise m p.1 p.2) fun _ => none) =
      l'.foldl (fun m p => raise m p.1 p.2) fun _ => none := by
  funext k
  rw [foldl_raise_empty, foldl_raise_empty]
  apply max?_eq_of_mem_iff
  intro x
  exact ((h.filter _).map _).mem_iff

end KeyedMax
