import Mathlib.Data.List.Nodup
import Mathlib.Data.List.Perm.Basic

/-!
# Updating the entries of a list by index

A loop that collects the indices of the entries with some property, and a later loop
that updates the list at these indices, amount to one map, as long as the list has not
moved in between.
-/

namespace IndexedUpdate

variable {α β : Type*}

/-- An update that a projection does not see. -/
theorem map_modify {g : α → β} {f : α → α} (h : ∀ x, g (f x) = g x) (l : List α) (i : Nat) :
    (l.modify i f).map g = l.map g := by
  apply List.ext_getElem?
  intro j
  rw [List.getElem?_map, List.getElem?_map]
  by_cases hij : i = j
  · subst hij
    rw [List.getElem?_modify_eq, Option.map_eq_map, Option.map_map]
    exact congrFun (congrArg Option.map (funext h)) _
  · rw [List.getElem?_modify_ne f l hij]

/-- An entry of the updated list stands at another index, or is the update of the entry at
    this one. -/
theorem mem_modify_getElem? {f : α → α} {l : List α} {i : Nat} {x : α} (h : x ∈ l.modify i f) :
    (∃ j, j ≠ i ∧ l[j]? = some x) ∨ ∃ y, l[i]? = some y ∧ x = f y := by
  obtain ⟨j, hj⟩ := List.mem_iff_getElem?.mp h
  by_cases hij : i = j
  · subst hij
    rw [List.getElem?_modify_eq, Option.map_eq_map] at hj
    obtain ⟨y, hy, hx⟩ := Option.map_eq_some_iff.mp hj
    exact .inr ⟨y, hy, hx.symm⟩
  · rw [List.getElem?_modify_ne f l hij] at hj
    exact .inl ⟨j, Ne.symm hij, hj⟩

/-- An entry of an updated list was there before, or it is the updated one. -/
theorem mem_modify {f : α → α} {l : List α} {i : Nat} {x : α} (h : x ∈ l.modify i f) :
    x ∈ l ∨ ∃ y, l[i]? = some y ∧ x = f y := by
  rcases mem_modify_getElem? h with ⟨j, -, hj⟩ | hupdated
  · exact .inl (List.mem_of_getElem? hj)
  · exact .inr hupdated

/-- The entry at an index, and the rest. -/
theorem perm_cons_eraseIdx {l : List α} {i : Nat} {x : α} (h : l[i]? = some x) :
    l.Perm (x :: l.eraseIdx i) := by
  obtain ⟨hi, rfl⟩ := List.getElem?_eq_some_iff.mp h
  exact (List.getElem_cons_eraseIdx_perm hi).symm

theorem modify_perm_cons_eraseIdx {f : α → α} {l : List α} {i : Nat} {x : α}
    (h : l[i]? = some x) : (l.modify i f).Perm (f x :: l.eraseIdx i) := by
  have hget : (l.modify i f)[i]? = some (f x) := by
    rw [List.getElem?_modify_eq, h]
    rfl
  have hperm := perm_cons_eraseIdx hget
  rwa [List.eraseIdx_modify_of_eq] at hperm

/-- The count after one entry is replaced. -/
theorem countP_set (q : α → Bool) {l : List α} {i : Nat} {x : α} (h : l[i]? = some x) (y : α) :
    (l.set i y).countP q + (if q x then 1 else 0) = l.countP q + if q y then 1 else 0 := by
  obtain ⟨hi, rfl⟩ := List.getElem?_eq_some_iff.mp h
  have hpos : q l[i] → 0 < l.countP q := by
    intro hq
    exact List.countP_pos_iff.mpr ⟨l[i], List.getElem_mem hi, hq⟩
  rw [List.countP_set hi]
  by_cases hq : q l[i] = true
  · have := hpos hq
    rw [if_pos hq]
    omega
  · rw [if_neg hq]
    rfl

/-- What holds of every entry, and of every updated entry, holds after the updates. -/
theorem forall_mem_foldl_modify {Q : α → Prop} {f : α → α} (hf : ∀ x, Q x → Q (f x))
    {l : List α} (hl : ∀ x ∈ l, Q x) (is : List Nat) :
    ∀ x ∈ is.foldl (fun l i => l.modify i f) l, Q x := by
  induction is generalizing l with
  | nil => exact hl
  | cons i is ih =>
    apply ih
    intro x hx
    rcases mem_modify hx with hx | ⟨y, hy, rfl⟩
    · exact hl x hx
    · exact hf y (hl y (List.mem_of_getElem? hy))

theorem map_foldl_modify {g : α → β} {f : α → α} (h : ∀ x, g (f x) = g x) (l : List α)
    (is : List Nat) : (is.foldl (fun l i => l.modify i f) l).map g = l.map g := by
  induction is generalizing l with
  | nil => rfl
  | cons i is ih => exact (ih (l.modify i f)).trans (map_modify h l i)

/-- Every entry after the updates comes from one before them, by any relation that an
    update keeps. -/
theorem exists_of_mem_foldl_modify {R : α → α → Prop} {f : α → α} (hrefl : ∀ x, R x x)
    (hf : ∀ x y, R x y → R x (f y)) {l : List α} (is : List Nat) {x' : α}
    (h : x' ∈ is.foldl (fun l i => l.modify i f) l) : ∃ x ∈ l, R x x' :=
  forall_mem_foldl_modify (Q := fun y => ∃ x ∈ l, R x y)
    (fun y ⟨x, hx, hxy⟩ => ⟨x, hx, hf x y hxy⟩) (fun x hx => ⟨x, hx, hrefl x⟩) is x' h

theorem getElem?_foldl_modify_of_not_mem {f : α → α} {is : List Nat} {j : Nat} (h : j ∉ is)
    (l : List α) : (is.foldl (fun l i => l.modify i f) l)[j]? = l[j]? := by
  induction is generalizing l with
  | nil => rfl
  | cons i is ih =>
    rw [List.mem_cons, not_or] at h
    rw [List.foldl_cons, ih h.2, List.getElem?_modify_ne f l (Ne.symm h.1)]

/-- What every update establishes holds at every updated index. -/
theorem forall_getElem?_foldl_modify {Q R : α → Prop} {f : α → α} (hR : ∀ x, R x → R (f x))
    (hQ : ∀ x, R x → Q (f x)) {l : List α} (hl : ∀ x ∈ l, R x) {is : List Nat} {j : Nat}
    (hj : j ∈ is) {x : α} (hx : (is.foldl (fun l i => l.modify i f) l)[j]? = some x) : Q x := by
  induction is generalizing l with
  | nil => simp at hj
  | cons i is ih =>
    have hl' : ∀ y ∈ l.modify i f, R y := forall_mem_foldl_modify hR hl [i]
    by_cases hmem : j ∈ is
    · exact ih hl' hmem hx
    · -- the last update of the index is the one at hand
      obtain rfl : j = i := (List.mem_cons.mp hj).resolve_right hmem
      rw [List.foldl_cons, getElem?_foldl_modify_of_not_mem hmem, List.getElem?_modify_eq,
        Option.map_eq_map] at hx
      obtain ⟨y, hy, rfl⟩ := Option.map_eq_some_iff.mp hx
      exact hQ y (hl y (List.mem_of_getElem? hy))

/-- The indices, counted from `start`, of the entries with the property. -/
def marked (p : α → Bool) (start : Nat) (l : List α) : List Nat :=
  (l.zipIdx start).filterMap fun (x, i) => if p x then some i else none

/-- An index is marked at most once. -/
theorem nodup_marked (p : α → Bool) (start : Nat) (l : List α) : (marked p start l).Nodup := by
  have hmarked : marked p start l =
      ((l.zipIdx start).filter fun x => p x.1).map Prod.snd := by
    unfold marked
    induction l.zipIdx start with
    | nil => rfl
    | cons x xs ih =>
      by_cases hx : p x.1
      · simp [hx, ih]
      · simp [hx, ih]
  have hall : ((l.zipIdx start).map Prod.snd).Nodup := by
    rw [List.zipIdx_map_snd]
    exact List.nodup_range' _
  rw [hmarked]
  exact hall.sublist (List.filter_sublist.map _)

theorem mem_marked_of_getElem? {p : α → Bool} {l : List α} {i : Nat} {x : α} (h : l[i]? = some x)
    (hx : p x = true) : i ∈ marked p 0 l :=
  List.mem_filterMap.mpr ⟨(x, i), List.mem_zipIdx_iff_getElem?.mpr h, if_pos hx⟩

/-- Lists that agree on the property at every index have the same indices marked. -/
theorem marked_congr {p : α → Bool} {l l' : List α} (h : l.map p = l'.map p) (start : Nat) :
    marked p start l = marked p start l' := by
  induction l generalizing l' start with
  | nil =>
    obtain rfl : l' = [] := by simpa using h.symm
    rfl
  | cons x l ih =>
    cases l' with
    | nil => cases h
    | cons x' l' =>
      obtain ⟨hhead, htail⟩ := List.cons.inj h
      have hrest := ih htail (start + 1)
      unfold marked at hrest ⊢
      simp only [List.zipIdx_cons, List.filterMap_cons, hhead, hrest]

theorem filterMap_marked_append (p : α → Bool) (before l : List α) :
    (marked p before.length l).filterMap (fun i => (before ++ l)[i]?) = l.filter p := by
  induction l generalizing before with
  | nil => rfl
  | cons x l ih =>
    have hrest := ih (before ++ [x])
    rw [List.length_append, List.length_singleton, List.append_assoc, List.singleton_append]
      at hrest
    unfold marked at hrest ⊢
    simp only [List.zipIdx_cons, List.filterMap_cons]
    by_cases hx : p x = true
    · rw [if_pos hx, List.filter_cons_of_pos hx, ← hrest, List.filterMap_cons]
      simp
    · rw [if_neg hx, List.filter_cons_of_neg hx, ← hrest]

/-- The entries at the marked indices are the entries with the property. -/
theorem filterMap_marked (p : α → Bool) (l : List α) :
    (marked p 0 l).filterMap (fun i => l[i]?) = l.filter p :=
  filterMap_marked_append p [] l

theorem foldl_modify_marked_append (p : α → Bool) (f : β → β) (before : List β) {l : List α}
    {l' : List β} (h : l.length = l'.length) :
    (marked p before.length l).foldl (fun l i => l.modify i f) (before ++ l') =
      before ++ List.zipWith (fun x y => if p x then f y else y) l l' := by
  induction l generalizing before l' with
  | nil =>
    obtain rfl : l' = [] := List.length_eq_zero_iff.mp h.symm
    rfl
  | cons x l ih =>
    cases l' with
    | nil => cases h
    | cons y l' =>
      have hrest : l.length = l'.length := Nat.succ.inj h
      simp only [marked, List.zipIdx_cons, List.zipWith_cons_cons, List.filterMap_cons]
      by_cases hx : p x
      · -- the entry at hand is updated and joins what has been passed
        have hupdate : (before ++ y :: l').modify before.length f = (before ++ [f y]) ++ l' := by
          rw [List.modify_eq_take_cons_drop (by simp)]
          simp
        have ih' := ih (before ++ [f y]) hrest
        rw [List.length_append, List.length_singleton] at ih'
        simp only [hx, if_true, List.foldl_cons, hupdate]
        unfold marked at ih'
        rw [ih']
        simp
      · have ih' := ih (before ++ [y]) hrest
        rw [List.length_append, List.length_singleton] at ih'
        unfold marked at ih'
        simp only [if_neg hx]
        rw [show before ++ y :: l' = (before ++ [y]) ++ l' by simp, ih']
        simp

/-- Collecting in one list, then updating another of the same length. -/
theorem foldl_modify_marked_zipWith (p : α → Bool) (f : β → β) {l : List α} {l' : List β}
    (h : l.length = l'.length) : (marked p 0 l).foldl (fun l i => l.modify i f) l' =
      List.zipWith (fun x y => if p x then f y else y) l l' :=
  foldl_modify_marked_append p f [] h

/-- **Collecting, then updating, is one map.** -/
theorem foldl_modify_marked (p : α → Bool) (f : α → α) (l : List α) :
    (marked p 0 l).foldl (fun l i => l.modify i f) l = l.map fun x => if p x then f x else x := by
  rw [foldl_modify_marked_zipWith p f rfl, List.zipWith_self]

/-- **By index and by value.** In a list without repetitions, to drop what is at an index is to
    drop a value exactly when the value is there, or neither is in the list. -/
theorem eraseIdx_eq_erase_iff [BEq α] [LawfulBEq α] {l : List α} (h : l.Nodup) (i : Nat)
    (x : α) : l.eraseIdx i = l.erase x ↔ l[i]? = some x ∨ l.length ≤ i ∧ x ∉ l := by
  rcases Nat.lt_or_ge i l.length with hi | hi
  · constructor
    · intro heq
      rw [← h.erase_getElem i hi] at heq
      have hx : x ∈ l := by
        by_contra hx
        have hlength := congrArg List.length heq
        rw [List.erase_of_not_mem hx, List.length_erase_of_mem (List.getElem_mem hi)] at hlength
        omega
      have hnot : x ∉ l.erase l[i] := heq ▸ h.not_mem_erase
      have hsame : x = l[i] := by
        by_contra hne
        exact hnot ((List.mem_erase_of_ne hne).mpr hx)
      exact .inl (hsame ▸ List.getElem?_eq_getElem hi)
    · rintro (hget | ⟨hge, -⟩)
      · obtain ⟨hlt, rfl⟩ := List.getElem?_eq_some_iff.mp hget
        exact (h.erase_getElem i hlt).symm
      · omega
  · rw [List.eraseIdx_of_length_le hi]
    constructor
    · intro heq
      refine .inr ⟨hi, ?_⟩
      intro hx
      have hlength := congrArg List.length heq
      rw [List.length_erase_of_mem hx] at hlength
      have hpos := List.length_pos_of_mem hx
      omega
    · rintro (hget | ⟨-, hx⟩)
      · rw [List.getElem?_eq_none hi] at hget
        cases hget
      · exact (List.erase_of_not_mem hx).symm

/-- Two entries in each other's place. -/
def swap (l : List α) (i j : Nat) : List α :=
  match l[i]?, l[j]? with
  | some x, some y => (l.set i y).set j x
  | _, _ => l

theorem swap_perm (l : List α) (i j : Nat) : (swap l i j).Perm l := by
  unfold swap
  split
  · next x y hx hy =>
    obtain ⟨hi, rfl⟩ := List.getElem?_eq_some_iff.mp hx
    obtain ⟨hj, rfl⟩ := List.getElem?_eq_some_iff.mp hy
    exact List.set_set_perm hi hj
  · exact List.Perm.refl l

theorem getElem?_foldl_set_of_not_mem {ps : List (Nat × α)} {k : Nat}
    (h : k ∉ ps.map Prod.fst) (l : List α) :
    (ps.foldl (fun l p => l.set p.1 p.2) l)[k]? = l[k]? := by
  induction ps generalizing l with
  | nil => rfl
  | cons p ps ih =>
    rw [List.map_cons, List.mem_cons, not_or] at h
    rw [List.foldl_cons, ih h.2, List.getElem?_set_ne (Ne.symm h.1)]

/-- Stores at distinct indices: each of them is found afterwards. -/
theorem getElem?_foldl_set {ps : List (Nat × α)} (hdistinct : (ps.map Prod.fst).Nodup)
    {l : List α} {k : Nat} {v : α} (hmem : (k, v) ∈ ps) (hk : k < l.length) :
    (ps.foldl (fun l p => l.set p.1 p.2) l)[k]? = some v := by
  induction ps generalizing l with
  | nil => simp at hmem
  | cons p ps ih =>
    obtain ⟨hnotin, hdistinct'⟩ := List.nodup_cons.mp hdistinct
    rw [List.foldl_cons]
    rcases List.mem_cons.mp hmem with rfl | hmem
    · rw [getElem?_foldl_set_of_not_mem hnotin]
      exact List.getElem?_set_self hk
    · exact ih hdistinct' hmem (by simpa using hk)

end IndexedUpdate
