import Mathlib.Data.List.Sort
import Mathlib.Data.List.Count
import Mathlib.Data.Prod.Lex

/-!
# Sorting by a key

`KeySort key` is any sorting routine that keeps what a library sort promises: the
result is a permutation of the input, in key order. Nothing is said about the
order of elements with equal keys. `stable key` is the routine that keeps them in
their input order; `rank` tells where an element of the input ends up in it.
-/

/-- A sorting routine: some permutation, ordered by `key`. -/
structure KeySort {α κ : Type*} [LinearOrder κ] (key : α → κ) where
  sort : List α → List α
  perm : ∀ l, (sort l).Perm l
  sorted : ∀ l, (sort l).Pairwise fun a b => key a ≤ key b

namespace KeySort

variable {α κ : Type*} [LinearOrder κ] {key : α → κ}

theorem mem_sort (S : KeySort key) {l : List α} {a : α} :
    a ∈ S.sort l ↔ a ∈ l :=
  (S.perm l).mem_iff

instance (key : α → κ) : IsTrans α (fun a b => key a ≤ key b) :=
  ⟨fun _ _ _ hab hbc => le_trans hab hbc⟩

instance (key : α → κ) : Std.Total (fun a b : α => key a ≤ key b) :=
  ⟨fun a b => le_total (key a) (key b)⟩

/-- The stable sort: elements with equal keys keep their order. -/
def stable (key : α → κ) : KeySort key where
  sort := List.insertionSort fun a b => key a ≤ key b
  perm := List.perm_insertionSort _
  sorted := List.pairwise_insertionSort _

theorem stable_sort_cons (a : α) (l : List α) :
    (stable key).sort (a :: l) =
      List.orderedInsert (fun a b => key a ≤ key b) a ((stable key).sort l) := rfl

/-- A list in key order is left as it is. -/
theorem stable_sort_of_sorted {l : List α}
    (h : l.Pairwise fun a b => key a ≤ key b) : (stable key).sort l = l :=
  List.Pairwise.insertionSort_eq h

/-! ### Where an element ends up -/

/-- The place of the element at index `i` after the stable sort: the elements
    before it with a key not above its own, and the elements after it with a key
    below its own. -/
def rank (key : α → κ) (l : List α) (i : Nat) : Nat :=
  match l[i]? with
  | none => i
  | some x => (l.take i).countP (fun a => decide (key a ≤ key x)) +
      (l.drop (i + 1)).countP (fun a => decide (key a < key x))

theorem getElem?_orderedInsert_self (a : α) {l : List α}
    (hl : l.Pairwise fun a b => key a ≤ key b) :
    (List.orderedInsert (fun a b => key a ≤ key b) a l)[
      l.countP (fun b => decide (key b < key a))]? = some a := by
  induction l with
  | nil => simp
  | cons b l ih =>
    rw [List.pairwise_cons] at hl
    by_cases hab : key a ≤ key b
    · -- nothing in the list is below `a`
      have hzero : (b :: l).countP (fun c => decide (key c < key a)) = 0 := by
        rw [List.countP_eq_zero]
        intro c hc
        rcases List.mem_cons.mp hc with rfl | hc
        · simpa using hab
        · simpa using le_trans hab (hl.1 c hc)
      rw [hzero, List.orderedInsert_cons, if_pos hab]
      rfl
    · have hba : key b < key a := not_le.mp hab
      rw [List.orderedInsert_cons, if_neg hab, List.countP_cons_of_pos (by simpa using hba)]
      simpa using ih hl.2

theorem getElem?_orderedInsert_other (a : α) {x : α} {l : List α} {p : Nat}
    (hl : l.Pairwise fun a b => key a ≤ key b) (hp : l[p]? = some x) :
    (List.orderedInsert (fun a b => key a ≤ key b) a l)[
      (if key a ≤ key x then 1 else 0) + p]? = some x := by
  induction l generalizing p with
  | nil => simp at hp
  | cons b l ih =>
    rw [List.pairwise_cons] at hl
    by_cases hab : key a ≤ key b
    · have hbx : key b ≤ key x := by
        cases p with
        | zero => simp at hp; exact hp ▸ le_refl _
        | succ p => exact hl.1 x (List.mem_of_getElem? (by simpa using hp))
      rw [List.orderedInsert_cons, if_pos hab, if_pos (le_trans hab hbx), Nat.add_comm]
      simpa using hp
    · rw [List.orderedInsert_cons, if_neg hab]
      cases p with
      | zero =>
        have hbx : b = x := by simpa using hp
        rw [← hbx, if_neg hab]
        rfl
      | succ p =>
        have h := ih hl.2 (by simpa using hp)
        rw [← Nat.add_assoc]
        simpa using h

/-- `rank` is right: the stable sort puts the element at index `i` there. -/
theorem getElem?_stable_rank {l : List α} {i : Nat} {x : α} (h : l[i]? = some x) :
    ((stable key).sort l)[rank key l i]? = some x := by
  induction l generalizing i with
  | nil => simp at h
  | cons a l ih =>
    rw [stable_sort_cons]
    have hsorted := (stable key).sorted l
    cases i with
    | zero =>
      have hax : a = x := by simpa using h
      subst hax
      have hcount : rank key (a :: l) 0 =
          ((stable key).sort l).countP (fun b => decide (key b < key a)) := by
        simp [rank, ((stable key).perm l).countP_eq]
      rw [hcount]
      exact getElem?_orderedInsert_self a hsorted
    | succ i =>
      have hx : l[i]? = some x := by simpa using h
      have hrank : rank key (a :: l) (i + 1) =
          (if key a ≤ key x then 1 else 0) + rank key l i := by
        simp only [rank, List.getElem?_cons_succ, hx, List.take_succ_cons, List.countP_cons,
          List.drop_succ_cons, decide_eq_true_eq]
        omega
      rw [hrank]
      exact getElem?_orderedInsert_other a hsorted (ih hx)

theorem rank_append_cons (l₁ : List α) (x : α) (l₂ : List α) :
    rank key (l₁ ++ x :: l₂) l₁.length =
      l₁.countP (fun a => decide (key a ≤ key x)) + l₂.countP fun a => decide (key a < key x) := by
  simp [rank]

/-- **Stability.** An element stays behind an earlier one with no greater key. -/
theorem rank_lt_rank (key : α → κ) (l₁ : List α) {x : α} (l₂ : List α) {y : α} (l₃ : List α)
    (h : key x ≤ key y) :
    rank key (l₁ ++ x :: (l₂ ++ y :: l₃)) l₁.length <
      rank key (l₁ ++ x :: (l₂ ++ y :: l₃)) (l₁ ++ x :: l₂).length := by
  have hassoc : l₁ ++ x :: (l₂ ++ y :: l₃) = (l₁ ++ x :: l₂) ++ y :: l₃ := by simp
  have hle (l : List α) : l.countP (fun a => decide (key a ≤ key x)) ≤
      l.countP fun a => decide (key a ≤ key y) :=
    List.countP_mono_left fun a _ ha => by simpa using le_trans (by simpa using ha) h
  have hlt (l : List α) : l.countP (fun a => decide (key a < key x)) ≤
      l.countP fun a => decide (key a < key y) :=
    List.countP_mono_left fun a _ ha => by simpa using lt_of_lt_of_le (by simpa using ha) h
  have hmid : l₂.countP (fun a => decide (key a < key x)) ≤
      l₂.countP fun a => decide (key a ≤ key y) :=
    List.countP_mono_left fun a _ ha => by
      simpa using le_trans (le_of_lt (by simpa using ha)) h
  have hyx : ¬ key y < key x := not_lt.mpr h
  have h₁ := hle l₁
  have h₃ := hlt l₃
  rw [rank_append_cons, hassoc, rank_append_cons]
  simp only [List.countP_append, List.countP_cons, decide_eq_true_eq, if_neg hyx, if_pos h]
  omega

/-- In a list already in key order every element is at its own rank. -/
theorem rank_of_sorted {l : List α} (hl : l.Pairwise fun a b => key a ≤ key b)
    {i : Nat} (hi : i < l.length) : rank key l i = i := by
  have hx : l[i]? = some l[i] := List.getElem?_eq_getElem hi
  have hle : ∀ a ∈ l.take i, key a ≤ key l[i] := by
    intro a ha
    obtain ⟨j, hj, rfl⟩ := List.mem_iff_getElem.mp ha
    rw [List.length_take] at hj
    rw [List.getElem_take]
    exact List.pairwise_iff_getElem.mp hl j i (by omega) hi (by omega)
  have hnlt : ∀ a ∈ l.drop (i + 1), ¬ key a < key l[i] := by
    intro a ha
    obtain ⟨j, hj, rfl⟩ := List.mem_iff_getElem.mp ha
    rw [List.length_drop] at hj
    rw [List.getElem_drop]
    exact not_lt.mpr (List.pairwise_iff_getElem.mp hl i (i + 1 + j) hi (by omega) (by omega))
  have hbefore : (l.take i).countP (fun a => decide (key a ≤ key l[i])) = i := by
    rw [List.countP_eq_length.mpr (by simpa using hle), List.length_take]
    omega
  have hafter : (l.drop (i + 1)).countP (fun a => decide (key a < key l[i])) = 0 :=
    List.countP_eq_zero.mpr (by simpa using hnlt)
  simp only [rank, hx, hbefore, hafter, Nat.add_zero]

/-- The routine that gives one list this order, and sorts every other stably. -/
def sending [DecidableEq α] {l l' : List α} (hperm : l'.Perm l)
    (hsorted : l'.Pairwise fun a b => key a ≤ key b) : KeySort key where
  sort k := if k = l then l' else (stable key).sort k
  perm k := by
    split_ifs with h
    · exact h ▸ hperm
    · exact (stable key).perm k
  sorted k := by
    split_ifs with h
    · exact hsorted
    · exact (stable key).sorted k

theorem sending_sort [DecidableEq α] {l l' : List α} (hperm : l'.Perm l)
    (hsorted : l'.Pairwise fun a b => key a ≤ key b) : (sending hperm hsorted).sort l = l' :=
  if_pos rfl

/-! ### What two sorting routines agree on, and what they need not -/

/-- Lists with the same elements, both in key order, have the same key at every index. -/
theorem map_key_eq_of_perm {l l' : List α} (h : l.Perm l')
    (hl : l.Pairwise fun a b => key a ≤ key b) (hl' : l'.Pairwise fun a b => key a ≤ key b) :
    l.map key = l'.map key :=
  (h.map key).eq_of_pairwise' (List.pairwise_map.mpr hl) (List.pairwise_map.mpr hl')

/-- Where every key is that of one element, lists with the same elements have the same
    elements of a key. -/
theorem filter_key_eq_of_perm {l l' : List α} (h : l.Perm l') (hnodup : (l.map key).Nodup)
    (k : κ) : (l.filter fun x => key x = k) = l'.filter fun x => key x = k := by
  have hfilter := h.filter fun x => decide (key x = k)
  have hlength : (l.filter fun x => key x = k).length ≤ 1 := by
    have hcount := List.nodup_iff_count_le_one.mp hnodup k
    rw [List.count, List.countP_map, List.countP_eq_length_filter] at hcount
    exact hcount
  cases hl : l.filter fun x => key x = k with
  | nil =>
    rw [hl] at hfilter
    exact (List.nil_perm.mp hfilter).symm
  | cons x rest =>
    rw [hl, List.length_cons] at hlength
    obtain rfl : rest = [] := List.eq_nil_of_length_eq_zero (by omega)
    rw [hl] at hfilter
    exact List.singleton_perm.mp hfilter

/-- The routine leaves the list alone, whatever order of the keys it is in. -/
def Keeps (S : KeySort key) (l : List α) : Prop :=
  ∀ l', l'.Perm l → (l'.Pairwise fun a b => key a ≤ key b) → S.sort l' = l'

theorem stable_keeps (l : List α) : (stable key).Keeps l :=
  fun _ _ hsorted => stable_sort_of_sorted hsorted

/-- A list in key order, and what it is after it was sorted again some number of times. -/
structure Resorted (S : KeySort key) (before after : List α) : Prop where
  perm : before.Perm after
  sorted_before : before.Pairwise fun a b => key a ≤ key b
  sorted_after : after.Pairwise fun a b => key a ≤ key b
  keeps : S.Keeps after → before = after

theorem resorted_sort (S : KeySort key) (l : List α) : S.Resorted (S.sort l) (S.sort l) :=
  ⟨List.Perm.refl _, S.sorted l, S.sorted l, fun _ => rfl⟩

theorem Resorted.again {S : KeySort key} {before after : List α} (h : S.Resorted before after) :
    S.Resorted before (S.sort after) := by
  refine ⟨h.perm.trans (S.perm after).symm, h.sorted_before, S.sorted after, ?_⟩
  intro hkeeps
  have hafter : S.Keeps after := fun l hl => hkeeps l (hl.trans (S.perm after).symm)
  rw [hafter after (List.Perm.refl _) h.sorted_after]
  exact h.keeps hafter

theorem Resorted.getElem? {S : KeySort key} {before after : List α}
    (h : S.Resorted before after) {i : Nat} {x : α} (hx : before[i]? = some x) :
    ∃ y, after[i]? = some y ∧ key y = key x := by
  have hkeys := congrArg (fun ks => ks[i]?)
    (map_key_eq_of_perm h.perm h.sorted_before h.sorted_after)
  simp only [List.getElem?_map, hx, Option.map_some] at hkeys
  exact Option.map_eq_some_iff.mp hkeys.symm

/-- The element at `i` has no reason to move: by the keys it is at its own rank, and the
    routine keeps equal keys in order or no other element has its key. -/
structure Rests (S : KeySort key) (l : List α) (i : Nat) : Prop where
  rank : rank key l i = i
  ties : S.sort = (stable key).sort ∨ ∀ x y, l[i]? = some x → y ∈ l → key y = key x → y = x

theorem Rests.getElem?_sort {S : KeySort key} {l : List α} {i : Nat} {x : α} (h : S.Rests l i)
    (hx : l[i]? = some x) : (S.sort l)[i]? = some x := by
  have hstable : ((stable key).sort l)[KeySort.rank key l i]? = some x := getElem?_stable_rank hx
  rw [h.rank] at hstable
  rcases h.ties with heq | hties
  · rw [heq]
    exact hstable
  · -- the two routines agree on the keys, and the key is that of one element
    have hperm : (S.sort l).Perm ((stable key).sort l) :=
      (S.perm l).trans ((stable key).perm l).symm
    have hkeys := map_key_eq_of_perm hperm (S.sorted l) ((stable key).sorted l)
    have hkey : ((S.sort l).map key)[i]? = some (key x) := by
      rw [hkeys, List.getElem?_map, hstable]
      rfl
    rw [List.getElem?_map] at hkey
    obtain ⟨y, hy, hyx⟩ := Option.map_eq_some_iff.mp hkey
    have hmem : y ∈ l := S.mem_sort.mp (List.mem_of_getElem? hy)
    rw [hy, hties x y hx hmem hyx]

/-- What rests once rests when the sorted list is sorted again. -/
theorem Rests.again {S : KeySort key} {l : List α} {i : Nat} {x : α} (h : S.Rests l i)
    (hx : l[i]? = some x) : S.Rests (S.sort l) i where
  rank := by
    obtain ⟨hi, -⟩ := List.getElem?_eq_some_iff.mp (h.getElem?_sort hx)
    exact rank_of_sorted (S.sorted l) hi
  ties := by
    refine h.ties.imp_right ?_
    intro hties y z hy hz hkey
    obtain rfl : x = y := Option.some.inj ((h.getElem?_sort hx).symm.trans hy)
    exact hties x z hx (S.mem_sort.mp hz) hkey

/-- Before the first element with a given key lie the elements with lower keys. -/
theorem getElem?_countP_lt {l : List α} (hl : l.Pairwise fun a b => key a ≤ key b) {x : α}
    (hx : x ∈ l) :
    ∃ y, l[l.countP fun a => decide (key a < key x)]? = some y ∧ key y = key x := by
  induction l with
  | nil => simp at hx
  | cons b l ih =>
    rw [List.pairwise_cons] at hl
    by_cases hb : key b < key x
    · have hmem : x ∈ l := by
        rcases List.mem_cons.mp hx with rfl | hmem
        · exact absurd hb (lt_irrefl _)
        · exact hmem
      rw [List.countP_cons_of_pos (by simpa using hb)]
      simpa using ih hl.2 hmem
    · have hxb : key x ≤ key b := not_lt.mp hb
      have hzero : (b :: l).countP (fun a => decide (key a < key x)) = 0 := by
        rw [List.countP_eq_zero]
        intro c hc
        rcases List.mem_cons.mp hc with rfl | hc
        · simpa using hb
        · simpa using le_trans hxb (hl.1 c hc)
      rw [hzero]
      refine ⟨b, rfl, ?_⟩
      rcases List.mem_cons.mp hx with rfl | hmem
      · rfl
      · exact le_antisymm (hl.1 x hmem) hxb

section Ties

variable {κ' : Type*} [LinearOrder κ']

/-- The routine that puts elements with equal keys in the order of a second key. -/
def byTies (key : α → κ) (tie : α → κ') : KeySort key where
  sort := (stable fun a => toLex (key a, tie a)).sort
  perm := (stable fun a => toLex (key a, tie a)).perm
  sorted l := by
    refine ((stable fun a => toLex (key a, tie a)).sorted l).imp ?_
    intro a b hab
    rcases Prod.Lex.toLex_le_toLex.mp hab with hlt | ⟨heq, -⟩
    · exact le_of_lt hlt
    · exact le_of_eq heq

/-- With the ties in the order of `tie`, an element that no element with its key comes
    before stands right behind the elements with lower keys, up to its two keys. -/
theorem getElem?_byTies (key : α → κ) (tie : α → κ') {l : List α} {x : α} (hx : x ∈ l)
    (hfirst : ∀ a ∈ l, key a = key x → tie x ≤ tie a) :
    ∃ y, ((byTies key tie).sort l)[l.countP fun a => decide (key a < key x)]? = some y ∧
      key y = key x ∧ tie y = tie x := by
  have hcount : ((byTies key tie).sort l).countP
      (fun a => decide (toLex (key a, tie a) < toLex (key x, tie x))) =
        l.countP fun a => decide (key a < key x) := by
    rw [((byTies key tie).perm l).countP_eq]
    apply List.countP_congr
    intro a ha
    simp only [decide_eq_true_eq, Prod.Lex.toLex_lt_toLex]
    constructor
    · rintro (hlt | ⟨heq, htie⟩)
      · exact hlt
      · exact absurd htie (not_lt.mpr (hfirst a ha heq))
    · exact Or.inl
  obtain ⟨y, hy, heq⟩ := getElem?_countP_lt ((stable fun a => toLex (key a, tie a)).sorted l)
    ((byTies key tie).mem_sort.mpr hx)
  have hpair : (key y, tie y) = (key x, tie x) := toLex.injective heq
  obtain ⟨hkey, htie⟩ := Prod.mk.inj hpair
  refine ⟨y, ?_, hkey, htie⟩
  rw [← hcount]
  exact hy

end Ties

end KeySort
