import Mathlib.Algebra.Ring.Nat
import Mathlib.Data.List.TakeWhile
import Mathlib.Data.Nat.Basic

/-!
# Decimal numbers and fixed-width formats

Texts are lists of characters. A format is a list of fields, each a number of a
fixed width or one literal character; `render` writes the numbers into it and
`scan` reads them back. Scanning what was rendered gives the numbers again.
-/

namespace TextFormat

/-! ### Digits -/

def digitVal (c : Char) : Option Nat :=
  if c.isDigit then some (c.toNat - '0'.toNat) else none

theorem digitVal_digitChar : ∀ d, d < 10 → digitVal (Nat.digitChar d) = some d := by decide

/-- The last `width` decimal digits of a number. -/
def pad : Nat → Nat → List Char
  | 0, _ => []
  | width + 1, n => pad width (n / 10) ++ [Nat.digitChar (n % 10)]

/-- Read a text as a number; every character must be a digit. -/
def readDigits (text : List Char) : Option Nat :=
  text.foldlM (fun n c => (digitVal c).map (n * 10 + ·)) 0

@[simp] theorem length_pad (width n : Nat) : (pad width n).length = width := by
  induction width generalizing n with
  | zero => rfl
  | succ width ih => simp [pad, ih]

theorem readDigits_pad {width n : Nat} (h : n < 10 ^ width) :
    readDigits (pad width n) = some n := by
  induction width generalizing n with
  | zero =>
    have hn : n = 0 := by simpa using h
    subst hn
    rfl
  | succ width ih =>
    have hdiv : n / 10 < 10 ^ width := by
      rw [Nat.pow_succ] at h
      omega
    have ih' := ih hdiv
    unfold readDigits at ih' ⊢
    rw [pad, List.foldlM_append, ih']
    simp only [List.foldlM_cons, List.foldlM_nil, digitVal_digitChar _ (Nat.mod_lt n (by omega)),
      Option.map_some, Option.bind_eq_bind, Option.bind_some, Option.pure_def,
      Option.some.injEq]
    omega

/-! ### Integers without padding -/

/-- The decimal text of an integer. -/
def decimal : Int → List Char
  | .ofNat n => Nat.toDigits 10 n
  | .negSucc n => '-' :: Nat.toDigits 10 (n + 1)

/-- Read an integer: an optional minus sign and the digits that follow. -/
def readInt : List Char → Int
  | '-' :: text => -(Nat.ofDigitChars 10 (text.takeWhile Char.isDigit) 0 : Nat)
  | text => (Nat.ofDigitChars 10 (text.takeWhile Char.isDigit) 0 : Nat)

theorem isDigit_of_mem_toDigits {n : Nat} {c : Char} (h : c ∈ Nat.toDigits 10 n) :
    c.isDigit = true :=
  Nat.isDigit_of_mem_toDigits (by omega) (by omega) h

theorem takeWhile_toDigits (n : Nat) :
    (Nat.toDigits 10 n).takeWhile Char.isDigit = Nat.toDigits 10 n :=
  List.takeWhile_eq_self_iff.mpr fun _ h => isDigit_of_mem_toDigits h

theorem toDigits_head_ne_minus {n : Nat} {text : List Char} :
    Nat.toDigits 10 n ≠ '-' :: text := by
  intro h
  have hdigit := isDigit_of_mem_toDigits (n := n) (c := '-') (by rw [h]; simp)
  exact absurd hdigit (by decide)

theorem readInt_decimal (n : Int) : readInt (decimal n) = n := by
  cases n with
  | ofNat n =>
    have hread : readInt (Nat.toDigits 10 n) =
        (Nat.ofDigitChars 10 ((Nat.toDigits 10 n).takeWhile Char.isDigit) 0 : Nat) := by
      unfold readInt
      split
      · next text h => exact absurd h toDigits_head_ne_minus
      · rfl
    show readInt (Nat.toDigits 10 n) = _
    rw [hread, takeWhile_toDigits, Nat.ofDigitChars_ten_toDigits]
    rfl
  | negSucc n =>
    show -((Nat.ofDigitChars 10 ((Nat.toDigits 10 (n + 1)).takeWhile Char.isDigit) 0 : Nat) :
      Int) = _
    rw [takeWhile_toDigits, Nat.ofDigitChars_ten_toDigits]
    rfl

theorem decimal_injective : Function.Injective decimal := by
  intro m n h
  rw [← readInt_decimal m, h, readInt_decimal]

/-! ### Formats -/

inductive Field where
  | digits (width : Nat)
  | lit (c : Char)
deriving DecidableEq, Repr

/-- A number with at least `width` digits. -/
def padded (width n : Nat) : List Char := if n < 10 ^ width then pad width n else Nat.toDigits 10 n

/-- Write the numbers into the format; a missing number is written as 0. -/
def render : List Field → List Nat → List Char
  | [], _ => []
  | .lit c :: fields, ns => c :: render fields ns
  | .digits width :: fields, n :: ns => padded width n ++ render fields ns
  | .digits width :: fields, [] => padded width 0 ++ render fields []

/-- Read the numbers of a format; the whole text must match. -/
def scan : List Field → List Char → Option (List Nat)
  | [], [] => some []
  | [], _ :: _ => none
  | .lit _ :: _, [] => none
  | .lit c :: fields, x :: text => if x = c then scan fields text else none
  | .digits width :: fields, text =>
    if text.length < width then none
    else (readDigits (text.take width)).bind fun n =>
      (scan fields (text.drop width)).map (n :: ·)

/-- The numbers are as many as the number fields and each fits its width. -/
def Fits : List Field → List Nat → Prop
  | [], [] => True
  | .lit _ :: fields, ns => Fits fields ns
  | .digits width :: fields, n :: ns => n < 10 ^ width ∧ Fits fields ns
  | _, _ => False

/-- **Reading back what was written.** -/
theorem scan_render : ∀ {fields : List Field} {ns : List Nat}, Fits fields ns →
    scan fields (render fields ns) = some ns
  | [], [], _ => rfl
  | .lit c :: fields, ns, h => by
    simp only [render, scan, if_true]
    exact scan_render h
  | .digits width :: fields, n :: ns, h => by
    have hpadded : padded width n = pad width n := if_pos h.1
    have hlength : ¬ (pad width n ++ render fields ns).length < width := by simp
    rw [render, hpadded, scan, if_neg hlength, List.take_left' (length_pad width n),
      List.drop_left' (length_pad width n), readDigits_pad h.1, scan_render h.2]
    rfl

/-! ### What a rendered text looks like -/

theorem mem_pad {width n : Nat} {c : Char} (h : c ∈ pad width n) : c.isDigit = true := by
  induction width generalizing n with
  | zero => cases h
  | succ width ih =>
    rcases List.mem_append.mp h with h | h
    · exact ih h
    · rw [List.mem_singleton.mp h]
      rw [Nat.isDigit_digitChar, decide_eq_true_eq]
      exact Nat.mod_lt n (by omega)

theorem mem_padded {width n : Nat} {c : Char} (h : c ∈ padded width n) : c.isDigit = true := by
  unfold padded at h
  split at h
  · exact mem_pad h
  · exact isDigit_of_mem_toDigits h

theorem padded_ne_nil {width n : Nat} (h : 0 < width) : padded width n ≠ [] := by
  unfold padded
  split
  · exact List.ne_nil_of_length_pos (by rw [length_pad]; exact h)
  · exact Nat.toDigits_ne_nil

/-- A letter of the text is a digit, or it stands in the format. -/
theorem mem_render : ∀ {fields : List Field} {ns : List Nat} {c : Char},
    c ∈ render fields ns → c.isDigit = true ∨ .lit c ∈ fields
  | [], _, _, h => by cases h
  | .lit d :: fields, ns, c, h => by
    rcases List.mem_cons.mp h with rfl | h
    · exact .inr (by simp)
    · exact (mem_render h).imp_right (List.mem_cons_of_mem _)
  | .digits width :: fields, n :: ns, c, h => by
    rcases List.mem_append.mp h with h | h
    · exact .inl (mem_padded h)
    · exact (mem_render h).imp_right (List.mem_cons_of_mem _)
  | .digits width :: fields, [], c, h => by
    rcases List.mem_append.mp h with h | h
    · exact .inl (mem_padded h)
    · exact (mem_render h).imp_right (List.mem_cons_of_mem _)

theorem isDigit_of_readDigits {text : List Char} {n : Nat} (h : readDigits text = some n) :
    ∀ c ∈ text, c.isDigit = true := by
  have hfold : ∀ (m : Nat), text.foldlM (fun n c => (digitVal c).map (n * 10 + ·)) m = some n →
      ∀ c ∈ text, c.isDigit = true := by
    clear h
    induction text with
    | nil =>
      intro m _ c hc
      cases hc
    | cons d text ih =>
      intro m h c hc
      rw [List.foldlM_cons, Option.bind_eq_bind, Option.bind_eq_some_iff] at h
      obtain ⟨m', hdigit, hrest⟩ := h
      rcases List.mem_cons.mp hc with rfl | hc
      · by_contra hnot
        rw [digitVal, if_neg hnot] at hdigit
        cases hdigit
      · exact ih m' hrest c hc
  exact hfold 0 h

/-- What scans has the letters of a rendered text. -/
theorem mem_scan : ∀ {fields : List Field} {text : List Char} {ns : List Nat},
    scan fields text = some ns → ∀ c ∈ text, c.isDigit = true ∨ .lit c ∈ fields
  | [], [], _, _, c, hc => by cases hc
  | [], _ :: _, _, h, _, _ => by cases h
  | .lit _ :: _, [], _, h, _, _ => by cases h
  | .lit d :: fields, x :: text, ns, h, c, hc => by
    rw [scan] at h
    split at h
    · next hxd =>
      rcases List.mem_cons.mp hc with rfl | hc
      · exact .inr (by simp [hxd])
      · exact (mem_scan h c hc).imp_right (List.mem_cons_of_mem _)
    · cases h
  | .digits width :: fields, text, ns, h, c, hc => by
    rw [scan] at h
    split at h
    · cases h
    · obtain ⟨n, hdigits, hrest⟩ := Option.bind_eq_some_iff.mp h
      obtain ⟨ns', hscan, -⟩ := Option.map_eq_some_iff.mp hrest
      rw [← List.take_append_drop width text] at hc
      rcases List.mem_append.mp hc with hc | hc
      · exact .inl (isDigit_of_readDigits hdigits c hc)
      · exact (mem_scan hscan c hc).imp_right (List.mem_cons_of_mem _)

theorem head?_render {width : Nat} (h : 0 < width) (fields : List Field) (ns : List Nat) :
    ∃ c, (render (.digits width :: fields) ns).head? = some c ∧ c.isDigit = true := by
  have hpadded : ∀ (n : Nat) (rest : List Char),
      ∃ c, (padded width n ++ rest).head? = some c ∧ c.isDigit = true := by
    intro n rest
    obtain ⟨c, l, hl⟩ := List.exists_cons_of_ne_nil (padded_ne_nil (n := n) h)
    exact ⟨c, by rw [hl]; rfl, mem_padded (hl ▸ List.mem_cons_self)⟩
  cases ns with
  | nil => exact hpadded 0 _
  | cons n ns => exact hpadded n _

theorem getLast?_render {width : Nat} (h : 0 < width) : ∀ (fields : List Field) (ns : List Nat),
    ∃ c, (render (fields ++ [.digits width]) ns).getLast? = some c ∧ c.isDigit = true := by
  have hpadded : ∀ n, ∃ c, (padded width n ++ []).getLast? = some c ∧ c.isDigit = true := by
    intro n
    rw [List.append_nil]
    have hne := padded_ne_nil (n := n) h
    exact ⟨_, List.getLast?_eq_some_getLast hne, mem_padded (List.getLast_mem hne)⟩
  intro fields
  induction fields with
  | nil =>
    intro ns
    cases ns with
    | nil => exact hpadded 0
    | cons n ns => exact hpadded n
  | cons field fields ih =>
    have hrest : ∀ (ns : List Nat) (l : List Char),
        ∃ c, (l ++ render (fields ++ [.digits width]) ns).getLast? = some c ∧ c.isDigit = true := by
      intro ns l
      obtain ⟨c, hc, hdigit⟩ := ih ns
      exact ⟨c, by rw [List.getLast?_append, hc]; rfl, hdigit⟩
    intro ns
    cases field with
    | lit d => exact hrest ns [d]
    | digits w =>
      cases ns with
      | nil => exact hrest [] _
      | cons n ns => exact hrest ns _

end TextFormat
