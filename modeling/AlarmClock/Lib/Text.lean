import Mathlib.Data.List.DropRight
import Mathlib.Data.List.Infix

/-!
# Trimming and splitting

Texts are lists. `trim` drops the blanks at both ends, `lines` cuts at every end of
line, `split` cuts at every occurrence of a separator from the left, `segments` cuts at
a letter and forgets what is empty. Each comes with the rule that takes it through an
append, which is what a reader needs to undo a writer.
-/

namespace Text

variable {α : Type*}

/-! ### Trimming -/

section Trim

variable {p : α → Bool}

def trim (p : α → Bool) (l : List α) : List α := (l.dropWhile p).rdropWhile p

theorem trim_subset (p : α → Bool) (l : List α) : trim p l ⊆ l :=
  fun _ hx => (List.dropWhile_sublist p).subset ((List.rdropWhile_prefix p _).subset hx)

/-- No blank at either end. -/
def Trimmed (p : α → Bool) (l : List α) : Prop :=
  (∀ x ∈ l.head?, p x = false) ∧ ∀ x ∈ l.getLast?, p x = false

instance (p : α → Bool) (l : List α) : Decidable (Trimmed p l) := by
  unfold Trimmed
  infer_instance

theorem trim_trim (p : α → Bool) (l : List α) : trim p (trim p l) = trim p l := by
  unfold trim
  have hhead : ((l.dropWhile p).rdropWhile p).dropWhile p = (l.dropWhile p).rdropWhile p := by
    cases hd : l.dropWhile p with
    | nil => rfl
    | cons x xs =>
      have hx : p x = false := by
        have hne : l.dropWhile p ≠ [] := by rw [hd]; exact List.cons_ne_nil x xs
        have hfirst := List.head_dropWhile_not p hne
        simp only [hd, List.head_cons] at hfirst
        exact hfirst
      cases hr : (x :: xs).rdropWhile p with
      | nil => rfl
      | cons y ys =>
        obtain ⟨t, ht⟩ := List.rdropWhile_prefix p (l := x :: xs)
        rw [hr] at ht
        injection ht with hyx _
        rw [List.dropWhile_cons, if_neg (by simp [hyx, hx])]
  rw [hhead, List.rdropWhile_idempotent]

theorem dropWhile_of_head {l : List α} (h : ∀ x ∈ l.head?, p x = false) : l.dropWhile p = l := by
  cases l with
  | nil => rfl
  | cons x l =>
    have hx : p x = false := h x rfl
    rw [List.dropWhile_cons, if_neg (by simp [hx])]

theorem trim_of_trimmed {l : List α} (h : Trimmed p l) : trim p l = l := by
  unfold trim
  rw [dropWhile_of_head h.1, List.rdropWhile, dropWhile_of_head, List.reverse_reverse]
  rw [List.head?_reverse]
  exact h.2

theorem trimmed_of_trim {l : List α} (h : trim p l = l) : Trimmed p l := by
  constructor
  · intro x hx
    obtain ⟨xs, rfl⟩ : ∃ xs, l = x :: xs := List.head?_eq_some_iff.mp hx
    by_contra hblank
    have hshort : (trim p (x :: xs)).length ≤ xs.length := by
      unfold trim
      rw [List.dropWhile_cons_of_pos (by simpa using hblank)]
      exact ((List.rdropWhile_prefix p _).length_le).trans (List.dropWhile_sublist p).length_le
    rw [h, List.length_cons] at hshort
    omega
  · intro x hx
    have hne : (l.dropWhile p).rdropWhile p ≠ [] := by
      intro hnil
      rw [show l = [] from h.symm.trans hnil] at hx
      cases hx
    have hlast := List.rdropWhile_last_not p _ hne
    have hgetLast : l.getLast? = some (((l.dropWhile p).rdropWhile p).getLast hne) := by
      rw [← List.getLast?_eq_getLast_of_ne_nil hne]
      exact congrArg List.getLast? h.symm
    rw [hgetLast] at hx
    rw [← Option.some.inj hx]
    simpa using hlast

/-- One blank behind a trimmed text. -/
theorem trim_concat {l : List α} {x : α} (h : Trimmed p l) (hne : l ≠ []) (hx : p x = true) :
    trim p (l ++ [x]) = l := by
  obtain ⟨y, ys, rfl⟩ := List.exists_cons_of_ne_nil hne
  have hfirst : p y = false := h.1 y rfl
  have hkept : (y :: ys ++ [x]).dropWhile p = y :: ys ++ [x] :=
    List.dropWhile_cons_of_neg (by simp [hfirst])
  have htrim := trim_of_trimmed h
  unfold trim at htrim ⊢
  rw [dropWhile_of_head h.1] at htrim
  rw [hkept, List.rdropWhile_concat_pos p _ x hx, htrim]

/-- Nothing is trimmed between two texts that begin without a blank. -/
theorem trim_append {l l' : List α} (hne : l ≠ []) (hfirst : ∀ x ∈ l.head?, p x = false)
    (hne' : l' ≠ []) (hfirst' : ∀ x ∈ l'.head?, p x = false) :
    trim p (l ++ l') = l ++ trim p l' := by
  obtain ⟨x, xs, rfl⟩ := List.exists_cons_of_ne_nil hne
  obtain ⟨y, ys, rfl⟩ := List.exists_cons_of_ne_nil hne'
  have hy : p y = false := hfirst' y rfl
  have hkept : (y :: ys).reverse.dropWhile p ≠ [] := by
    rw [Ne, List.dropWhile_eq_nil_iff]
    intro hall
    have hblank := hall y (by simp)
    rw [hy] at hblank
    cases hblank
  unfold trim
  rw [dropWhile_of_head hfirst', dropWhile_of_head (by exact hfirst)]
  unfold List.rdropWhile
  rw [List.reverse_append, List.dropWhile_append, if_neg (by simpa using hkept),
    List.reverse_append, List.reverse_reverse]

end Trim

variable [DecidableEq α]

/-! ### Parts between letters -/

/-- The parts between the occurrences of a letter, without the empty ones. -/
def segments (sep : α) (l : List α) : List (List α) := (l.splitOn sep).filter (· ≠ [])

/-- The lines of a text; after the last end of line there is none. -/
def lines (eol : α) (l : List α) : List (List α) :=
  if (l.splitOn eol).getLast? = some [] then (l.splitOn eol).dropLast else l.splitOn eol

section Parts

variable {sep : α}

theorem segments_append (l l' : List α) :
    segments sep (l ++ sep :: l') = segments sep l ++ segments sep l' := by
  unfold segments
  rw [List.splitOn_append_cons_self, List.filter_append]

theorem segments_of_not_mem {l : List α} (h : sep ∉ l) (hne : l ≠ []) : segments sep l = [l] := by
  simp [segments, List.splitOn_eq_singleton h, hne]

/-- **Writing lines and reading them back.** -/
theorem lines_flatMap {ls : List (List α)} (h : ∀ line ∈ ls, sep ∉ line) :
    lines sep (ls.flatMap (· ++ [sep])) = ls := by
  have hparts : (ls.flatMap (· ++ [sep])).splitOn sep = ls ++ [[]] := by
    induction ls with
    | nil => rfl
    | cons line ls ih =>
      rw [List.flatMap_cons, List.append_assoc, List.singleton_append,
        List.splitOn_append_cons_self_of_not_mem (h line (by simp)),
        ih fun l hl => h l (by simp [hl])]
      rfl
  rw [lines, hparts, if_pos (by simp), List.dropLast_concat]

theorem splitOn_ne_nil (l : List α) : l.splitOn sep ≠ [] := by
  rw [List.splitOn_eq_splitOnP]
  exact List.splitOnP_ne_nil _ _

/-- The lines up to an end of line, and those after it. -/
theorem lines_append (l l' : List α) :
    lines sep (l ++ sep :: l') = l.splitOn sep ++ lines sep l' := by
  have hne : l'.splitOn sep ≠ [] := splitOn_ne_nil l'
  unfold lines
  rw [List.splitOn_append_cons_self, List.getLast?_append_of_ne_nil _ hne]
  split_ifs
  · exact List.dropLast_append_of_ne_nil hne
  · rfl

/-- A text without the letter stands before the first part. -/
theorem splitOn_append_of_not_mem {l l' part : List α} {parts : List (List α)} (h : sep ∉ l)
    (hparts : l'.splitOn sep = part :: parts) : (l ++ l').splitOn sep = (l ++ part) :: parts := by
  by_cases hmem : sep ∈ l'
  · obtain ⟨first, rest, rfl, hfirst⟩ := List.eq_append_cons_of_mem hmem
    have hnot : sep ∉ l ++ first := by
      rw [List.mem_append, not_or]
      exact ⟨h, hfirst⟩
    rw [List.splitOn_append_cons_self_of_not_mem hfirst] at hparts
    obtain ⟨rfl, rfl⟩ := List.cons.inj hparts
    rw [← List.append_assoc, List.splitOn_append_cons_self_of_not_mem hnot]
  · have hnot : sep ∉ l ++ l' := by
      rw [List.mem_append, not_or]
      exact ⟨h, hmem⟩
    rw [List.splitOn_eq_singleton hmem] at hparts
    obtain ⟨rfl, rfl⟩ := List.cons.inj hparts
    exact List.splitOn_eq_singleton hnot

/-- The first part begins as the text does. -/
theorem head?_splitOn {c : α} {l part : List α} {parts : List (List α)} (hc : c ≠ sep)
    (h : (c :: l).splitOn sep = part :: parts) : part.head? = some c := by
  by_cases hmem : sep ∈ c :: l
  · obtain ⟨first, rest, hl, hfirst⟩ := List.eq_append_cons_of_mem hmem
    rw [hl, List.splitOn_append_cons_self_of_not_mem hfirst] at h
    obtain ⟨rfl, -⟩ := List.cons.inj h
    cases first with
    | nil => exact absurd (List.cons.inj hl).1 hc
    | cons x first => rw [(List.cons.inj hl).1, List.head?_cons]
  · rw [List.splitOn_eq_singleton hmem] at h
    rw [← (List.cons.inj h).1, List.head?_cons]

/-- A part is a piece of the text, without the letter. -/
theorem mem_splitOn {l part : List α} (h : part ∈ l.splitOn sep) : sep ∉ part ∧ part ⊆ l := by
  induction hlength : l.length using Nat.strongRecOn generalizing l with
  | ind n ih =>
    by_cases hmem : sep ∈ l
    · obtain ⟨first, rest, rfl, hfirst⟩ := List.eq_append_cons_of_mem hmem
      have hlt : rest.length < n := by
        rw [← hlength, List.length_append, List.length_cons]
        omega
      rw [List.splitOn_append_cons_self_of_not_mem hfirst] at h
      rcases List.mem_cons.mp h with rfl | hrest
      · exact ⟨hfirst, List.subset_append_left ..⟩
      · obtain ⟨hnot, hsub⟩ := ih rest.length hlt hrest rfl
        refine ⟨hnot, fun x hx => List.mem_append_right _ ?_⟩
        exact List.mem_cons_of_mem _ (hsub hx)
    · rw [List.splitOn_eq_singleton hmem, List.mem_singleton] at h
      rw [h]
      exact ⟨hmem, fun _ hx => hx⟩

theorem eol_not_mem_lines {l line : List α} (h : line ∈ lines sep l) : sep ∉ line := by
  unfold lines at h
  split_ifs at h
  · exact (mem_splitOn (List.mem_of_mem_dropLast h)).1
  · exact (mem_splitOn h).1

/-- The parts of a text that end in it are parts of every longer text. -/
theorem dropLast_splitOn_prefix {l l' : List α} (h : l <+: l') :
    (l.splitOn sep).dropLast <+: l'.splitOn sep := by
  obtain ⟨t, rfl⟩ := h
  induction hlength : l.length using Nat.strongRecOn generalizing l with
  | ind n ih =>
    by_cases hmem : sep ∈ l
    · obtain ⟨part, rest, rfl, hpart⟩ := List.eq_append_cons_of_mem hmem
      have hlt : rest.length < n := by
        rw [← hlength, List.length_append, List.length_cons]
        omega
      rw [List.append_assoc, List.cons_append, List.splitOn_append_cons_self_of_not_mem hpart,
        List.splitOn_append_cons_self_of_not_mem hpart,
        List.dropLast_cons_of_ne_nil (splitOn_ne_nil rest)]
      exact List.cons_prefix_cons.mpr ⟨rfl, ih rest.length hlt rfl⟩
    · rw [List.splitOn_eq_singleton hmem]
      exact List.nil_prefix

/-- The first line of a text that has an end of line, and what comes after it. -/
def firstLine (eol : α) (l : List α) : List α := l.takeWhile (· ≠ eol) ++ [eol]

def afterLine (eol : α) (l : List α) : List α := (l.dropWhile (· ≠ eol)).tail

theorem firstLine_of_not_mem {body : List α} (h : sep ∉ body) :
    firstLine sep (body ++ [sep]) = body ++ [sep] ∧ afterLine sep (body ++ [sep]) = [] := by
  have hall : ∀ x ∈ body, (decide (x ≠ sep)) = true := by
    intro x hx
    exact decide_eq_true fun heq => h (heq ▸ hx)
  unfold firstLine afterLine
  rw [List.takeWhile_append_of_pos hall, List.dropWhile_append_of_pos hall]
  simp

omit [DecidableEq α] in
/-- Of a line that comes in two parts, the first has its end exactly when the second is
    empty. -/
theorem mem_of_append_eq_line {body l l' : List α} (hbody : sep ∉ body)
    (h : l ++ l' = body ++ [sep]) : sep ∈ l ↔ l' = [] := by
  constructor
  · intro hmem
    rcases List.eq_nil_or_concat l' with rfl | ⟨init, last, rfl⟩
    · rfl
    · rw [List.concat_eq_append, ← List.append_assoc] at h
      have hinit := List.append_inj_left' h rfl
      refine absurd ?_ hbody
      rw [← hinit]
      exact List.mem_append_left _ hmem
  · rintro rfl
    rw [List.append_nil] at h
    rw [h]
    exact List.mem_append_right _ List.mem_cons_self

end Parts

/-! ### Splitting at a separator -/

/-- The loop of `split`: `skip` letters of a separator are still to be passed, `acc` is the
    part at hand, reversed. -/
def splitLoop (sep : List α) : List α → Nat → List α → List (List α)
  | [], _, acc => [acc.reverse]
  | _ :: l, skip + 1, acc => splitLoop sep l skip acc
  | c :: l, 0, acc =>
    if sep.isPrefixOf (c :: l) then acc.reverse :: splitLoop sep l (sep.length - 1) []
    else splitLoop sep l 0 (c :: acc)

def split (sep l : List α) : List (List α) := splitLoop sep l 0 []

section Split

variable {sep : List α}

theorem splitLoop_skip (s l acc : List α) :
    splitLoop sep (s ++ l) s.length acc = splitLoop sep l 0 acc := by
  induction s with
  | nil => rfl
  | cons c s ih => exact ih

theorem splitLoop_of_not_infix {l : List α} (h : ¬ sep <:+: l) (acc : List α) :
    splitLoop sep l 0 acc = [acc.reverse ++ l] := by
  induction l generalizing acc with
  | nil => simp [splitLoop]
  | cons c l ih =>
    have hprefix : ¬ sep.isPrefixOf (c :: l) = true := fun hp =>
      h (List.isPrefixOf_iff_prefix.mp hp).isInfix
    have hrest : ¬ sep <:+: l := fun hi => h (List.infix_cons hi)
    rw [splitLoop, if_neg hprefix, ih hrest]
    simp

theorem splitLoop_subset {l : List α} {skip : Nat} {acc part : List α}
    (h : part ∈ splitLoop sep l skip acc) : part ⊆ acc ++ l := by
  induction l generalizing skip acc with
  | nil =>
    rw [splitLoop, List.mem_singleton] at h
    rw [h, List.append_nil]
    exact fun _ hx => List.mem_reverse.mp hx
  | cons c l ih =>
    have hlater : ∀ x, x ∈ c :: acc ++ l → x ∈ acc ++ c :: l := by
      intro x hx
      simp only [List.cons_append, List.mem_cons, List.mem_append] at hx ⊢
      rcases hx with hc | hacc | hl
      · exact .inr (.inl hc)
      · exact .inl hacc
      · exact .inr (.inr hl)
    cases skip with
    | succ skip =>
      intro x hx
      refine hlater x ?_
      exact List.mem_cons_of_mem _ (ih h hx)
    | zero =>
      rw [splitLoop] at h
      split_ifs at h
      · rcases List.mem_cons.mp h with rfl | hrest
        · exact fun x hx => List.mem_append_left _ (List.mem_reverse.mp hx)
        · intro x hx
          have hl : x ∈ [] ++ l := ih hrest hx
          exact List.mem_append_right _ (List.mem_cons_of_mem _ hl)
      · exact fun x hx => hlater x (ih h hx)

theorem split_subset {l part : List α} (h : part ∈ split sep l) : part ⊆ l :=
  splitLoop_subset h

/-- A text without the separator is one part. -/
theorem split_of_not_infix {l : List α} (h : ¬ sep <:+: l) : split sep l = [l] :=
  splitLoop_of_not_infix h []

omit [DecidableEq α] in
/-- A separator does not reach into a text that has none of its letters. -/
theorem prefix_of_prefix_append {l l' : List α} (hnot : ∀ x ∈ sep, x ∉ l')
    (h : sep <+: l ++ l') : sep <+: l := by
  obtain ⟨rest, hrest⟩ := h
  rcases List.append_eq_append_iff.mp hrest with ⟨more, rfl, -⟩ | ⟨spill, rfl, rfl⟩
  · exact List.prefix_append sep more
  · cases spill with
    | nil => exact (List.append_nil l).symm ▸ List.prefix_rfl
    | cons x spill => exact absurd List.mem_cons_self (hnot x (by simp))

omit [DecidableEq α] in
theorem infix_of_infix_append {l l' : List α} (hsep : sep ≠ []) (hnot : ∀ x ∈ sep, x ∉ l')
    (h : sep <:+: l ++ l') : sep <:+: l := by
  obtain ⟨before, after, h⟩ := h
  rcases List.append_eq_append_iff.mp h with ⟨more, rfl, -⟩ | ⟨spill, hspill, rfl⟩
  · exact ⟨before, more, rfl⟩
  · rcases List.eq_nil_or_concat spill with rfl | ⟨init, last, rfl⟩
    · exact ⟨before, [], by rw [hspill, List.append_nil, List.append_nil]⟩
    · rcases List.eq_nil_or_concat sep with rfl | ⟨sepInit, sepLast, rfl⟩
      · exact absurd rfl hsep
      · simp only [List.concat_eq_append, ← List.append_assoc] at hspill hnot
        have hlast : sepLast = last := by simpa using List.append_inj_right' hspill rfl
        exact absurd (by simp [hlast]) (hnot sepLast (by simp))

theorem splitLoop_append {x c : α} {s part : List α} (hxc : x ≠ c) (hc : c ∉ part)
    (l acc : List α) :
    splitLoop (x :: c :: s) (part ++ (x :: c :: s) ++ l) 0 acc =
      (acc.reverse ++ part) :: split (x :: c :: s) l := by
  induction part generalizing acc with
  | nil =>
    have hprefix : (x :: c :: s).isPrefixOf (x :: (c :: s ++ l)) = true :=
      List.isPrefixOf_iff_prefix.mpr ⟨l, rfl⟩
    show splitLoop (x :: c :: s) (x :: (c :: s ++ l)) 0 acc = _
    rw [splitLoop, if_pos hprefix, List.append_nil]
    exact congrArg (acc.reverse :: ·) (splitLoop_skip (c :: s) l [])
  | cons y part ih =>
    rw [List.mem_cons, not_or] at hc
    -- the separator does not begin here: its second letter is not the next one
    have hprefix : ¬ (x :: c :: s).isPrefixOf (y :: (part ++ (x :: c :: s) ++ l)) = true := by
      rw [List.isPrefixOf_iff_prefix]
      rintro ⟨t, ht⟩
      cases part with
      | nil =>
        injection ht with _ ht
        injection ht with hcx _
        exact hxc hcx.symm
      | cons z part =>
        injection ht with _ ht
        injection ht with hcz _
        exact hc.2 (by simp [hcz])
    show splitLoop (x :: c :: s) (y :: (part ++ (x :: c :: s) ++ l)) 0 acc = _
    rw [splitLoop, if_neg hprefix, ih hc.2]
    simp

/-- **The first part.** It ends where the separator's second letter first occurs. -/
theorem split_append {x c : α} {s part : List α} (hxc : x ≠ c) (hc : c ∉ part) (l : List α) :
    split (x :: c :: s) (part ++ (x :: c :: s) ++ l) = part :: split (x :: c :: s) l :=
  splitLoop_append hxc hc l []

end Split

end Text
