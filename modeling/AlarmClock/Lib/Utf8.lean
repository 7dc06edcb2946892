import Mathlib.Data.List.Basic

/-!
# Texts as bytes

The UTF-8 form of a text, letter by letter. An end of line is one byte, and no byte of
another letter is that byte: a reader of lines can cut the bytes before it decodes them.
-/

namespace Utf8

def encode (l : List Char) : List UInt8 := l.flatMap String.utf8EncodeChar

/-- The letters whose forms follow each other; what is no form of a letter ends the text. -/
def decode : List UInt8 → List Char
  | [] => []
  | b₀ :: rest =>
    if b₀.toNat < 0x80 then Char.ofNat b₀.toNat :: decode rest
    else match rest with
      | [] => []
      | b₁ :: rest =>
        if b₀.toNat < 0xe0 then
          Char.ofNat (b₀.toNat % 0x20 * 0x40 + b₁.toNat % 0x40) :: decode rest
        else match rest with
          | [] => []
          | b₂ :: rest =>
            if b₀.toNat < 0xf0 then
              Char.ofNat (b₀.toNat % 0x10 * 0x1000 + b₁.toNat % 0x40 * 0x40 + b₂.toNat % 0x40) ::
                decode rest
            else match rest with
              | [] => []
              | b₃ :: rest =>
                Char.ofNat (b₀.toNat % 0x08 * 0x40000 + b₁.toNat % 0x40 * 0x1000 +
                  b₂.toNat % 0x40 * 0x40 + b₃.toNat % 0x40) :: decode rest

def eol : UInt8 := 10

theorem encode_append (l l' : List Char) : encode (l ++ l') = encode l ++ encode l' :=
  List.flatMap_append

theorem toNat_byte {n : Nat} (h : n < 256) : (UInt8.ofNat n).toNat = n := by
  rw [UInt8.toNat_ofNat', Nat.mod_eq_of_lt h]

theorem val_lt (c : Char) : c.val.toNat < 1114112 := by
  rcases c.valid with hlow | ⟨-, hhigh⟩
  · exact Nat.lt_trans hlow (by decide)
  · exact hhigh

theorem decode_encodeChar (c : Char) (rest : List UInt8) :
    decode (String.utf8EncodeChar c ++ rest) = c :: decode rest := by
  have hv := val_lt c
  have hofNat : ∀ n, n = c.val.toNat → Char.ofNat n = c := by
    rintro n rfl
    exact Char.ofNat_toNat c
  unfold String.utf8EncodeChar
  dsimp only
  split_ifs with h₁ h₂ h₃
  · rw [List.singleton_append, decode.eq_def]
    dsimp only
    rw [toNat_byte (by omega), if_pos (by omega), hofNat _ rfl]
  · simp only [List.cons_append, List.nil_append]
    rw [decode.eq_def]
    dsimp only
    rw [toNat_byte (by omega), toNat_byte (by omega), if_neg (by omega),
      if_pos (by omega), hofNat _ (by omega)]
  · simp only [List.cons_append, List.nil_append]
    rw [decode.eq_def]
    dsimp only
    rw [toNat_byte (by omega), toNat_byte (by omega), toNat_byte (by omega),
      if_neg (by omega), if_neg (by omega), if_pos (by omega), hofNat _ (by omega)]
  · simp only [List.cons_append, List.nil_append]
    rw [decode.eq_def]
    dsimp only
    rw [toNat_byte (by omega), toNat_byte (by omega), toNat_byte (by omega),
      toNat_byte (by omega), if_neg (by omega), if_neg (by omega), if_neg (by omega),
      hofNat _ (by omega)]

/-- **Writing letters and reading them back.** -/
theorem decode_encode (l : List Char) : decode (encode l) = l := by
  induction l with
  | nil => rfl
  | cons c l ih =>
    rw [encode, List.flatMap_cons, decode_encodeChar]
    exact congrArg (c :: ·) ih

/-- The bytes of a letter beyond the first 128 are beyond them too. -/
theorem eol_mem_encodeChar {c : Char} (h : eol ∈ String.utf8EncodeChar c) : c = '\n' := by
  have hbyte : ∀ n : Nat, n < 256 → eol = UInt8.ofNat n → n = 10 := by
    intro n hn heq
    have hnat := congrArg UInt8.toNat heq
    rw [toNat_byte hn] at hnat
    exact hnat.symm
  have hv := val_lt c
  unfold String.utf8EncodeChar at h
  dsimp only at h
  split_ifs at h with h₁ h₂ h₃
  · have hten := hbyte _ (by omega) (List.mem_singleton.mp h)
    exact Char.ext (UInt32.toNat.inj hten)
  all_goals
    simp only [List.mem_cons, List.not_mem_nil, or_false] at h
    exfalso
  · rcases h with h | h
    · have hten := hbyte _ (by omega) h
      omega
    · have hten := hbyte _ (by omega) h
      omega
  · rcases h with h | h | h
    all_goals
      have hten := hbyte _ (by omega) h
      omega
  · rcases h with h | h | h | h
    all_goals
      have hten := hbyte _ (by omega) h
      omega

theorem eol_mem_encode {l : List Char} : eol ∈ encode l ↔ '\n' ∈ l := by
  unfold encode
  rw [List.mem_flatMap]
  constructor
  · rintro ⟨c, hc, heol⟩
    rwa [← eol_mem_encodeChar heol]
  · intro hmem
    exact ⟨'\n', hmem, by decide⟩

end Utf8
