import AlarmClock.Lib.TextFormat
import Mathlib.Algebra.Ring.Int.Defs

/-!
# Texts in C

`sprintf` writes literals and decimal integers, `scnprintf` as much of that as fits into a
buffer with the NUL behind it, and `sscanf` reads the same kind of format off the front of
a text, up to the first directive that does not match. What one of them writes the other
reads back, as long as no digit follows a number.
-/

namespace CText

open TextFormat

/-- A literal character other than a blank, or a decimal integer. -/
inductive Directive where
  | lit (c : Char)
  | int
deriving DecidableEq, Repr

/-- The literals of a text. -/
def lits (text : List Char) : List Directive := text.map .lit

/-! ### Writing -/

/-- The text of a format with its arguments. -/
def sprintf : List Directive → List Int → List Char
  | [], _ => []
  | .lit c :: ds, args => c :: sprintf ds args
  | .int :: _, [] => []
  | .int :: ds, n :: args => decimal n ++ sprintf ds args

/-- What `scnprintf` puts into a buffer of `size` characters, without the NUL; its length is
    the value that is returned. -/
def scnprintf (size : Nat) (text : List Char) : List Char := text.take (size - 1)

theorem sprintf_lits (text : List Char) (ds : List Directive) (args : List Int) :
    sprintf (lits text ++ ds) args = text ++ sprintf ds args := by
  induction text with
  | nil => rfl
  | cons c text ih => exact congrArg (c :: ·) ih

theorem scnprintf_of_lt {size : Nat} {text : List Char} (h : text.length < size) :
    scnprintf size text = text :=
  List.take_of_length_le (by omega)

/-! ### Reading -/

/-- `isspace` -/
def isBlank (c : Char) : Bool := c == ' ' || (9 ≤ c.toNat && c.toNat ≤ 13)

/-- `%d`: blanks, a sign, and at least one digit. Numbers are unbounded here; C leaves open
    what becomes of one that does not fit. -/
def scanInt (text : List Char) : Option (Int × List Char) :=
  let text := text.dropWhile isBlank
  let negative := text.head? = some '-'
  let text := if text.head? = some '-' ∨ text.head? = some '+' then text.tail else text
  let value : Nat := Nat.ofDigitChars 10 (text.takeWhile Char.isDigit) 0
  if text.takeWhile Char.isDigit = [] then none
  else some (if negative then -value else value, text.dropWhile Char.isDigit)

/-- The integers that are read before a directive fails; their number is what is returned. -/
def sscanf : List Directive → List Char → List Int
  | [], _ => []
  | .lit _ :: _, [] => []
  | .lit c :: ds, c' :: text => if c = c' then sscanf ds text else []
  | .int :: ds, text =>
    match scanInt text with
    | none => []
    | some (n, text) => n :: sscanf ds text

theorem sscanf_lits (text : List Char) (ds : List Directive) (rest : List Char) :
    sscanf (lits text ++ ds) (text ++ rest) = sscanf ds rest := by
  induction text with
  | nil => rfl
  | cons c text ih => exact (if_pos rfl).trans ih

/-- A digit is no blank and no sign. -/
theorem not_blank_of_isDigit {c : Char} (h : c.isDigit = true) :
    isBlank c = false ∧ c ≠ '-' ∧ c ≠ '+' := by
  have hrange : 48 ≤ c.toNat ∧ c.toNat ≤ 57 := by
    simpa [Char.isDigit, UInt32.le_iff_toNat_le] using h
  refine ⟨?_, ?_, ?_⟩
  · have hblank : c ≠ ' ' := by
      rintro rfl
      exact absurd h (by decide)
    simp only [isBlank, Bool.or_eq_false_iff, beq_eq_false_iff_ne, Bool.and_eq_false_iff,
      decide_eq_false_iff_not]
    exact ⟨hblank, by omega⟩
  · rintro rfl
    exact absurd h (by decide)
  · rintro rfl
    exact absurd h (by decide)

theorem takeWhile_digits_append {ds rest : List Char} (hds : ∀ c ∈ ds, c.isDigit = true)
    (hrest : ∀ c ∈ rest.head?, c.isDigit = false) :
    (ds ++ rest).takeWhile Char.isDigit = ds ∧ (ds ++ rest).dropWhile Char.isDigit = rest := by
  rw [List.takeWhile_append_of_pos hds, List.dropWhile_append_of_pos hds]
  cases rest with
  | nil => simp
  | cons c rest =>
    have hc : c.isDigit = false := hrest c rfl
    simp [hc]

/-- Digits at the front are read as their number. -/
theorem scanInt_toDigits (n : Nat) {rest : List Char}
    (hrest : ∀ c ∈ rest.head?, c.isDigit = false) :
    scanInt (Nat.toDigits 10 n ++ rest) = some ((n : Int), rest) := by
  have hds : ∀ c ∈ Nat.toDigits 10 n, c.isDigit = true := fun c hc => isDigit_of_mem_toDigits hc
  obtain ⟨htake, hdrop⟩ := takeWhile_digits_append hds hrest
  obtain ⟨c, cs, hcs⟩ := List.exists_cons_of_ne_nil (Nat.toDigits_ne_nil (n := n) (b := 10))
  obtain ⟨hblank, hminus, hplus⟩ := not_blank_of_isDigit (hds c (by rw [hcs]; simp))
  have hskip : (Nat.toDigits 10 n ++ rest).dropWhile isBlank = Nat.toDigits 10 n ++ rest := by
    rw [hcs, List.cons_append, List.dropWhile_cons, if_neg (by simp [hblank])]
  have hhead : (Nat.toDigits 10 n ++ rest).head? = some c := by rw [hcs]; rfl
  unfold scanInt
  simp only [hskip, hhead, Option.some.injEq, hminus, hplus, or_self, if_false, htake, hdrop,
    Nat.toDigits_ne_nil, Nat.ofDigitChars_ten_toDigits]

/-- A number is read back in front of anything but a digit. -/
theorem sscanf_decimal (n : Nat) (ds : List Directive) {rest : List Char}
    (hrest : ∀ c ∈ rest.head?, c.isDigit = false) :
    sscanf (.int :: ds) (decimal n ++ rest) = (n : Int) :: sscanf ds rest := by
  show (match scanInt (Nat.toDigits 10 n ++ rest) with
    | none => []
    | some (n, text) => n :: sscanf ds text) = _
  rw [scanInt_toDigits n hrest]

/-- Anything but a blank, a sign or a digit stops a number. -/
theorem sscanf_int_stop (ds : List Directive) {c : Char} (hblank : isBlank c = false)
    (hsign : c ≠ '-' ∧ c ≠ '+') (hdigit : c.isDigit = false) (rest : List Char) :
    sscanf (.int :: ds) (c :: rest) = [] := by
  have hnone : scanInt (c :: rest) = none := by
    unfold scanInt
    have hskip : (c :: rest).dropWhile isBlank = c :: rest := by
      rw [List.dropWhile_cons, if_neg (by simp [hblank])]
    simp [hskip, hsign.1, hsign.2, hdigit]
  simp only [sscanf, hnone]

/-! ### The characters of a number, and how many there are -/

theorem mem_decimal {n : Int} {c : Char} (h : c ∈ decimal n) : c = '-' ∨ c.isDigit = true := by
  cases n with
  | ofNat n => exact .inr (isDigit_of_mem_toDigits h)
  | negSucc n =>
    rcases List.mem_cons.mp h with rfl | hc
    · exact .inl rfl
    · exact .inr (isDigit_of_mem_toDigits hc)

theorem length_decimal_le {n : Nat} {k : Nat} (hk : 0 < k) (h : n < 10 ^ k) :
    (decimal n).length ≤ k :=
  (Nat.length_toDigits_le_iff (by omega) hk).mpr h

theorem length_decimal_neg_le {n : Int} {k : Nat} (hk : 0 < k) (hneg : n < 0)
    (h : -n < 10 ^ k) : (decimal n).length ≤ k + 1 := by
  cases n with
  | ofNat n => exact absurd hneg (by simp)
  | negSucc n =>
    have hlt : n + 1 < 10 ^ k := by
      have : ((n + 1 : Nat) : Int) < ((10 ^ k : Nat) : Int) := by
        push_cast
        simpa [Int.negSucc_eq] using h
      exact_mod_cast this
    exact Nat.succ_le_succ ((Nat.length_toDigits_le_iff (by omega) hk).mpr hlt)

end CText
