import AlarmClock.Lib.Clamp
import Mathlib.Algebra.Order.Ring.Rat
import Mathlib.Tactic.NormNum
import Mathlib.Tactic.Ring

/-!
# From the camera's bytes to the pixels

Two pixels share four bytes: each has a luma of its own, and both have the same chroma. The
thread converts a frame with fixed-point coefficients; the practice program that it comes
from has decimal ones. Where a coefficient differs, the colours differ for some bytes only.
-/

namespace AlarmClock.FrameConversion

/-! ### The thread -/

/-- A result that is no `int`, or a read outside the mapped buffer. -/
inductive Fault where
  | overflow
  | outside
deriving DecidableEq, Repr

/-- The result of an operation on `int`. -/
def int (n : Int) : Except Fault Int :=
  if -2147483648 ≤ n ∧ n ≤ 2147483647 then .ok n else .error .overflow

def readByte (yuyv : List UInt8) (i : Int) : Except Fault Int :=
  match if 0 ≤ i then yuyv[i.toNat]? else none with
  | some b => .ok b.toNat
  | none => .error .outside

def clamp (x : Int) : Nat := if x < 0 then 0 else if x > 255 then 255 else x.toNat

def pixel (r g b : Nat) : Nat := 0xFF000000 ||| r <<< 16 ||| g <<< 8 ||| b

/-- One round of the loop: the two writes to `pixels`, each with its index. -/
def convertPair (yuyv : List UInt8) (p : Int) : Except Fault (List (Int × Nat)) := do
  let base ← int (p * 4)
  let y0 ← readByte yuyv base
  let u ← int ((← readByte yuyv (← int (base + 1))) - 128)
  let y1 ← readByte yuyv (← int (base + 2))
  let v ← int ((← readByte yuyv (← int (base + 3))) - 128)
  let ru := (← int (92241 * v)).tdiv 65536
  let gu := (← int (-22612 * u)).tdiv 65536
  let gv := (← int (-46984 * v)).tdiv 65536
  let bu := (← int (77318 * u)).tdiv 65536
  let first ← int (p * 2)
  let r0 ← int (y0 + ru)
  let g0 ← int ((← int (y0 + gu)) + gv)
  let b0 ← int (y0 + bu)
  let second ← int (first + 1)
  let r1 ← int (y1 + ru)
  let g1 ← int ((← int (y1 + gu)) + gv)
  let b1 ← int (y1 + bu)
  return [(first, pixel (clamp r0) (clamp g0) (clamp b0)),
    (second, pixel (clamp r1) (clamp g1) (clamp b1))]

/-- The loop of `captureFrame`: all writes to `pixels`. -/
def convert (w h : Int) (yuyv : List UInt8) : Except Fault (List (Int × Nat)) := do
  let total := (← int (w * h)).tdiv 2
  let pairs ← (List.range total.toNat).mapM fun (p : Nat) => convertPair yuyv p
  return pairs.flatten

/-! ### What a round writes -/

def red (y v : Int) : Int := y + (92241 * v).tdiv 65536
def green (y u v : Int) : Int := y + (-22612 * u).tdiv 65536 + (-46984 * v).tdiv 65536
def blue (y u : Int) : Int := y + (77318 * u).tdiv 65536

/-- The pixel of a luma and a chroma. -/
def shade (y u v : Int) : Nat :=
  pixel (clamp (red y v)) (clamp (green y u v)) (clamp (blue y u))

/-- A byte of the buffer that is known to be there. -/
def byteAt (yuyv : List UInt8) (i : Nat) : Nat := (yuyv.getD i 0).toNat

/-- What the round for pair `p` writes. -/
def pair (yuyv : List UInt8) (p : Nat) : List (Int × Nat) :=
  let u : Int := byteAt yuyv (4 * p + 1) - 128
  let v : Int := byteAt yuyv (4 * p + 3) - 128
  [(2 * p, shade (byteAt yuyv (4 * p)) u v), (2 * p + 1, shade (byteAt yuyv (4 * p + 2)) u v)]

theorem byteAt_lt (yuyv : List UInt8) (i : Nat) : byteAt yuyv i < 256 := (yuyv.getD i 0).toNat_lt

theorem int_eq_ok {n : Int} (hlo : -2147483648 ≤ n) (hhi : n ≤ 2147483647) : int n = .ok n :=
  if_pos ⟨hlo, hhi⟩

theorem int_bind {α : Type} {n : Int} (hlo : -2147483648 ≤ n) (hhi : n ≤ 2147483647)
    (f : Int → Except Fault α) : (int n >>= f) = f n := by
  rw [int_eq_ok hlo hhi]
  rfl

theorem readByte_eq_ok {yuyv : List UInt8} {i : Nat} (h : i < yuyv.length) :
    readByte yuyv i = .ok (byteAt yuyv i) := by
  simp [readByte, byteAt, List.getElem?_eq_getElem h]

theorem readByte_bind {α : Type} {yuyv : List UInt8} {i : Nat} (h : i < yuyv.length)
    (f : Int → Except Fault α) : (readByte yuyv i >>= f) = f (byteAt yuyv i) := by
  rw [readByte_eq_ok h]
  rfl

theorem tdiv_of_nonneg {x : Int} (h : 0 ≤ x) :
    65536 * x.tdiv 65536 ≤ x ∧ x < 65536 * x.tdiv 65536 + 65536 := by
  rw [Int.tdiv_eq_ediv_of_nonneg h]
  omega

/-- The division rounds towards zero. -/
theorem tdiv_of_nonpos {x : Int} (h : x ≤ 0) :
    x ≤ 65536 * x.tdiv 65536 ∧ 65536 * x.tdiv 65536 - 65536 < x := by
  have hneg := tdiv_of_nonneg (Int.neg_nonneg.mpr h)
  rw [Int.neg_tdiv] at hneg
  omega

theorem tdiv_bounds {x n : Int} (hlo : -65536 * n ≤ x) (hhi : x ≤ 65536 * n) :
    -n ≤ x.tdiv 65536 ∧ x.tdiv 65536 ≤ n := by
  rcases Int.le_total 0 x with h | h
  · have hx := tdiv_of_nonneg h
    omega
  · have hx := tdiv_of_nonpos h
    omega

/-- No `int` of a round overflows, and no byte is outside. -/
theorem convertPair_eq_ok {yuyv : List UInt8} {p : Nat} (hp : p < 536870912)
    (hlen : 4 * p + 3 < yuyv.length) : convertPair yuyv p = .ok (pair yuyv p) := by
  have hy0 := byteAt_lt yuyv (4 * p)
  have hu := byteAt_lt yuyv (4 * p + 1)
  have hy1 := byteAt_lt yuyv (4 * p + 2)
  have hv := byteAt_lt yuyv (4 * p + 3)
  have hbase : (p : Int) * 4 = (4 * p : Nat) := by omega
  have h1 : ((4 * p : Nat) : Int) + 1 = (4 * p + 1 : Nat) := rfl
  have h2 : ((4 * p : Nat) : Int) + 2 = (4 * p + 2 : Nat) := rfl
  have h3 : ((4 * p : Nat) : Int) + 3 = (4 * p + 3 : Nat) := rfl
  have hfirst : (p : Int) * 2 = 2 * p := Int.mul_comm _ _
  unfold convertPair
  rw [int_bind (by omega) (by omega), hbase, readByte_bind (by omega), h1,
    int_bind (by omega) (by omega), readByte_bind (by omega), int_bind (by omega) (by omega), h2,
    int_bind (by omega) (by omega), readByte_bind (by omega), h3,
    int_bind (by omega) (by omega), readByte_bind (by omega), int_bind (by omega) (by omega)]
  simp only [pair, shade, red, green, blue]
  generalize byteAt yuyv (4 * p) = y0 at *
  generalize byteAt yuyv (4 * p + 1) = u at *
  generalize byteAt yuyv (4 * p + 2) = y1 at *
  generalize byteAt yuyv (4 * p + 3) = v at *
  have hru := tdiv_bounds (x := 92241 * (v - 128)) (n := 181) (by omega) (by omega)
  have hgu := tdiv_bounds (x := -22612 * (u - 128)) (n := 45) (by omega) (by omega)
  have hgv := tdiv_bounds (x := -46984 * (v - 128)) (n := 92) (by omega) (by omega)
  have hbu := tdiv_bounds (x := 77318 * (u - 128)) (n := 152) (by omega) (by omega)
  simp (disch := omega) only [int_bind, hfirst]
  rfl

/-- The byte offset of a later pair is no `int`. -/
theorem convertPair_overflow (yuyv : List UInt8) {p : Nat} (hp : 536870912 ≤ p) :
    convertPair yuyv p = .error .overflow := by
  have hbase : int ((p : Int) * 4) = .error .overflow := if_neg (by omega)
  unfold convertPair
  rw [hbase]
  rfl

/-! ### The loop -/

section Rounds

variable {α β ε : Type} {f : α → Except ε β}

/-- Rounds that all come through. -/
theorem mapM_eq_ok {g : α → β} {l : List α} (h : ∀ x ∈ l, f x = .ok (g x)) :
    l.mapM f = .ok (l.map g) := by
  induction l with
  | nil => rfl
  | cons x l ih =>
    rw [List.mapM_cons, h x (by simp), ih fun y hy => h y (by simp [hy])]
    rfl

/-- A round that fails, among rounds that come through or fail in the same way. -/
theorem mapM_eq_error {e : ε} {l : List α} (h : ∀ x ∈ l, (∃ b, f x = .ok b) ∨ f x = .error e)
    (hfails : ∃ x ∈ l, f x = .error e) : l.mapM f = .error e := by
  induction l with
  | nil => simp at hfails
  | cons x l ih =>
    rw [List.mapM_cons]
    rcases h x (by simp) with ⟨b, hb⟩ | hx
    · obtain ⟨y, hy, hfail⟩ := hfails
      have hyl : y ∈ l := by
        rcases List.mem_cons.mp hy with rfl | hyl
        · rw [hb] at hfail
          cases hfail
        · exact hyl
      rw [hb, ih (fun z hz => h z (by simp [hz])) ⟨y, hyl, hfail⟩]
      rfl
    · rw [hx]
      rfl

end Rounds

/-- All that `n` rounds write. -/
def frame (yuyv : List UInt8) (n : Nat) : List (Int × Nat) := (List.range n).flatMap (pair yuyv)

theorem mem_frame {yuyv : List UInt8} {n : Nat} {w : Int × Nat} :
    w ∈ frame yuyv n ↔ ∃ p < n, w ∈ pair yuyv p := by
  simp only [frame, List.mem_flatMap, List.mem_range]

/-- Every pixel is written once, from the first to the last. -/
theorem map_fst_frame (yuyv : List UInt8) (n : Nat) :
    (frame yuyv n).map Prod.fst = (List.range (2 * n)).map fun (i : Nat) => (i : Int) := by
  induction n with
  | zero => rfl
  | succ n ih =>
    have hframe : frame yuyv (n + 1) = frame yuyv n ++ pair yuyv n := by
      simp only [frame, List.range_succ, List.flatMap_append, List.flatMap_singleton]
    have hrange : List.range (2 * (n + 1)) = List.range (2 * n) ++ [2 * n, 2 * n + 1] := by
      rw [Nat.mul_add, List.range_succ, List.range_succ, List.append_assoc]
      rfl
    rw [hframe, hrange, List.map_append, List.map_append, ih]
    rfl

/-- The rounds look at no byte behind those of the frame. -/
theorem frame_take (yuyv : List UInt8) (n : Nat) : frame (yuyv.take (4 * n)) n = frame yuyv n := by
  have hbyte : ∀ i < 4 * n, byteAt (yuyv.take (4 * n)) i = byteAt yuyv i := by
    intro i hi
    unfold byteAt
    rw [List.getD_eq_getElem?_getD, List.getD_eq_getElem?_getD, List.getElem?_take_of_lt hi]
  rw [frame, frame, List.flatMap_def, List.flatMap_def]
  refine congrArg List.flatten (List.map_congr_left ?_)
  intro p hp
  have hlt : p < n := List.mem_range.mp hp
  simp only [pair, hbyte (4 * p) (by omega), hbyte (4 * p + 1) (by omega),
    hbyte (4 * p + 2) (by omega), hbyte (4 * p + 3) (by omega)]

theorem convert_eq {w h : Nat} (hint : w * h ≤ 2147483647) (yuyv : List UInt8) :
    convert w h yuyv = (do
      let pairs ← (List.range (w * h / 2)).mapM fun (p : Nat) => convertPair yuyv p
      return pairs.flatten) := by
  have htotal : (((w * h : Nat) : Int).tdiv 2).toNat = w * h / 2 := by
    rw [Int.natCast_tdiv_eq_ediv]
    omega
  unfold convert
  rw [← Nat.cast_mul, int_bind (by omega) (by omega)]
  simp only [htotal]

theorem convert_eq_ok {w h : Nat} {yuyv : List UInt8} (hlen : 2 * (w * h) ≤ yuyv.length)
    (hsize : w * h ≤ 1073741824) : convert w h yuyv = .ok (frame yuyv (w * h / 2)) := by
  have hmapM : (List.range (w * h / 2)).mapM (fun (p : Nat) => convertPair yuyv p) =
      .ok ((List.range (w * h / 2)).map (pair yuyv)) := by
    apply mapM_eq_ok
    intro p hp
    have hlt := List.mem_range.mp hp
    exact convertPair_eq_ok (by omega) (by omega)
  rw [convert_eq (by omega), hmapM]
  rfl

/-- **Too many pixels.** The loop stops at an offset that overflows. -/
theorem convert_overflow {w h : Nat} {yuyv : List UInt8} (heven : 2 ∣ w * h)
    (hlen : 2 * (w * h) ≤ yuyv.length) (hsize : 1073741824 < w * h) :
    convert w h yuyv = .error .overflow := by
  by_cases hint : w * h ≤ 2147483647
  · have hmapM : (List.range (w * h / 2)).mapM (fun (p : Nat) => convertPair yuyv p) =
        .error .overflow := by
      apply mapM_eq_error
      · intro p hp
        have hlt := List.mem_range.mp hp
        rcases Nat.lt_or_ge p 536870912 with hp' | hp'
        · exact .inl ⟨_, convertPair_eq_ok hp' (by omega)⟩
        · exact .inr (convertPair_overflow yuyv hp')
      · exact ⟨536870912, List.mem_range.mpr (by omega), convertPair_overflow yuyv le_rfl⟩
    rw [convert_eq hint, hmapM]
    rfl
  · have hproduct : int ((w : Int) * h) = .error .overflow := by
      rw [← Nat.cast_mul]
      exact if_neg (by omega)
    unfold convert
    rw [hproduct]
    rfl

/-! ### The practice program -/

/-- The colours of a pixel, before they are put into a word. -/
structure Rgb where
  r : Rat
  g : Rat
  b : Rat
deriving DecidableEq, Repr

/-- The colours of `capture_to_fb`, with its decimal coefficients as they are written. -/
def rgb (Y U V : Nat) : Rgb :=
  { r := Clamp.clamp 0 255 (Y + 14075 / 10000 * (V - 128))
    g := Clamp.clamp 0 255 (Y - 3455 / 10000 * (U - 128) - 7169 / 10000 * (V - 128))
    b := Clamp.clamp 0 255 (Y + 17790 / 10000 * (U - 128)) }

/-- The four bytes at an offset, as a load of an `unsigned int` finds them. -/
def word (yuyv : List UInt8) (offset : Nat) : Nat :=
  byteAt yuyv offset + byteAt yuyv (offset + 1) * 256 + byteAt yuyv (offset + 2) * 65536 +
    byteAt yuyv (offset + 3) * 16777216

/-- The two pixels that `capture_to_fb` draws for a word. -/
def captureToFb (yuv422 : Nat) : Rgb × Rgb :=
  let U := (yuv422 >>> 8) &&& 0xff
  let V := (yuv422 >>> 24) &&& 0xff
  (rgb (yuv422 &&& 0xff) U V, rgb ((yuv422 >>> 16) &&& 0xff) U V)

/-- The offset of the word in row `i` and at place `j` of it, for a ratio of 1. -/
def offset (width i j : Nat) : Nat := i * width * 2 + j * 4

theorem and_ff (n : Nat) : n &&& 0xff = n % 256 := Nat.and_two_pow_sub_one_eq_mod n 8

theorem captureToFb_word (yuyv : List UInt8) (o : Nat) :
    captureToFb (word yuyv o) =
      (rgb (byteAt yuyv o) (byteAt yuyv (o + 1)) (byteAt yuyv (o + 3)),
        rgb (byteAt yuyv (o + 2)) (byteAt yuyv (o + 1)) (byteAt yuyv (o + 3))) := by
  have h0 := byteAt_lt yuyv o
  have h1 := byteAt_lt yuyv (o + 1)
  have h2 := byteAt_lt yuyv (o + 2)
  have h3 := byteAt_lt yuyv (o + 3)
  simp only [captureToFb, word, and_ff, Nat.shiftRight_eq_div_pow]
  congr 2
  · omega
  · omega
  · omega
  · omega
  · omega
  · omega

/-- **The order of the frame.** For an even width the rows of the practice program are the
    pairs of the thread one after the other. -/
theorem offsets_eq {width : Nat} (heven : 2 ∣ width) (height : Nat) :
    ((List.range height).flatMap fun i => (List.range (width / 2)).map fun j => offset width i j) =
      (List.range (height * (width / 2))).map fun p => 4 * p := by
  obtain ⟨n, rfl⟩ := heven
  rw [Nat.mul_div_cancel_left n (by omega)]
  induction height with
  | zero => simp
  | succ height ih =>
    rw [List.range_succ, List.flatMap_append, ih, Nat.succ_mul height n, List.range_add,
      List.map_append, List.flatMap_singleton, List.map_map]
    refine congrArg _ (List.map_congr_left ?_)
    intro j _
    simp only [offset, Function.comp_apply]
    ring

/-! ### How far the colours differ -/

theorem cast_clamp (x : Int) : ((clamp x : Nat) : Rat) = Clamp.clamp 0 255 (x : Rat) := by
  unfold clamp Clamp.clamp
  split_ifs with hneg hbig
  · have hx : (x : Rat) < 0 := by exact_mod_cast hneg
    rw [min_eq_left (by linarith), max_eq_left hx.le]
    rfl
  · have hx : (255 : Rat) < x := by exact_mod_cast hbig
    rw [min_eq_right hx.le, max_eq_right (by norm_num)]
    rfl
  · have hx : (0 : Rat) ≤ x := by exact_mod_cast not_lt.mp hneg
    have hx' : (x : Rat) ≤ 255 := by exact_mod_cast not_lt.mp hbig
    rw [min_eq_left hx', max_eq_right hx]
    exact_mod_cast Int.toNat_of_nonneg (not_lt.mp hneg)

/-- A colour of the thread is within 2 of one of the practice program. -/
def Near (n : Nat) (x : Rat) : Prop := |(n : Rat) - x| ≤ 2

section Near

variable {y t e : Int}

/-- `t` stands for the offset to the luma in the thread, `e / 10000` for the exact one. -/
theorem near_of_abs_le (hlo : -20000 ≤ 10000 * t - e) (hhi : 10000 * t - e ≤ 20000) :
    Near (clamp (y + t)) (Clamp.clamp 0 255 (y + e / 10000)) := by
  have hlo' : (-20000 : Rat) ≤ 10000 * t - e := by exact_mod_cast hlo
  have hhi' : (10000 * t - e : Rat) ≤ 20000 := by exact_mod_cast hhi
  unfold Near
  rw [cast_clamp]
  refine (Clamp.abs_clamp_sub_clamp_le _ _ _ _).trans ?_
  push_cast
  rw [abs_le]
  constructor
  · linarith
  · linarith

/-- An inequality of integers is one of rationals up to a positive factor. -/
theorem le_iff_of_scaled {a b : Int} {x z k : Rat} (hk : 0 < k)
    (hscaled : (b : Rat) - a = k * (z - x)) : x ≤ z ↔ a ≤ b := by
  rw [← Int.cast_le (R := Rat), ← sub_nonneg, ← sub_nonneg (a := (b : Rat)), hscaled,
    mul_nonneg_iff_of_pos_left hk]

theorem near_iff_of_le (hte : 10000 * t ≤ e) :
    Near (clamp (y + t)) (Clamp.clamp 0 255 (y + e / 10000)) ↔
      e - 10000 * t ≤ 20000 ∨ 253 ≤ y + t ∨ 10000 * y + e ≤ 20000 := by
  have hle : ((y + t : Int) : Rat) ≤ y + e / 10000 := by
    have h : (10000 * t : Rat) ≤ e := by exact_mod_cast hte
    push_cast
    linarith
  unfold Near
  rw [cast_clamp, abs_sub_comm, Clamp.abs_clamp_sub_le_iff hle (by norm_num) (by norm_num)]
  refine or_congr ?_ (or_congr ?_ ?_)
  · apply le_iff_of_scaled (k := 10000) (by norm_num)
    push_cast
    ring
  · apply le_iff_of_scaled (k := 1) (by norm_num)
    push_cast
    ring
  · apply le_iff_of_scaled (k := 10000) (by norm_num)
    push_cast
    ring

theorem near_iff_of_ge (hte : e ≤ 10000 * t) :
    Near (clamp (y + t)) (Clamp.clamp 0 255 (y + e / 10000)) ↔
      10000 * t - e ≤ 20000 ∨ 2530000 ≤ 10000 * y + e ∨ y + t ≤ 2 := by
  have hle : (y + e / 10000 : Rat) ≤ ((y + t : Int) : Rat) := by
    have h : (e : Rat) ≤ 10000 * t := by exact_mod_cast hte
    push_cast
    linarith
  unfold Near
  rw [cast_clamp, Clamp.abs_clamp_sub_le_iff hle (by norm_num) (by norm_num)]
  refine or_congr ?_ (or_congr ?_ ?_)
  · apply le_iff_of_scaled (k := 10000) (by norm_num)
    push_cast
    ring
  · apply le_iff_of_scaled (k := 10000) (by norm_num)
    push_cast
    ring
  · apply le_iff_of_scaled (k := 1) (by norm_num)
    push_cast
    ring

end Near

/-- **Red.** The coefficients agree. -/
theorem near_red {y u v : Nat} (hv : v < 256) : Near (clamp (red y (v - 128))) (rgb y u v).r := by
  have hr : (rgb y u v).r =
      Clamp.clamp 0 255 (((y : Int) : Rat) + ((14075 * (v - 128) : Int) : Rat) / 10000) := by
    refine congrArg (Clamp.clamp 0 255) ?_
    push_cast
    ring
  rw [hr]
  apply near_of_abs_le
  · rcases Int.le_total 0 (92241 * (v - 128)) with h | h
    · have ht := tdiv_of_nonneg h
      omega
    · have ht := tdiv_of_nonpos h
      omega
  · rcases Int.le_total 0 (92241 * (v - 128)) with h | h
    · have ht := tdiv_of_nonneg h
      omega
    · have ht := tdiv_of_nonpos h
      omega

/-- Where the blue of the thread is right: near grey, or where it is at an end of its range. -/
def BlueOk (y u : Int) : Prop :=
  (-2 ≤ u ∧ u ≤ 2) ∨ 65536 * (253 - y) ≤ 77318 * u ∨ 65536 * (y - 2) ≤ 77318 * -u

instance (y u : Int) : Decidable (BlueOk y u) := inferInstanceAs (Decidable (_ ∨ _ ∨ _))

/-- Where the two blues are within 2 before they are clamped. -/
theorem blue_close_iff {u t : Int} (hu : 0 ≤ u) (hlo : 65536 * t ≤ 77318 * u)
    (hhi : 77318 * u < 65536 * t + 65536) : 17790 * u - 10000 * t ≤ 20000 ↔ u ≤ 2 := by
  constructor
  · intro hclose
    by_contra hlarge
    rcases Int.lt_or_eq_of_le (not_le.mp hlarge) with hlt | rfl
    · omega
    · omega
  · intro hsmall
    obtain rfl | rfl | rfl : u = 0 ∨ u = 1 ∨ u = 2 := by omega
    · omega
    · omega
    · omega

/-- **Blue.** 77318 is 1.1798 of 65536, and the practice program has 1.7790. -/
theorem near_blue_iff {y u v : Nat} (hy : y < 256) (hu : u < 256) :
    Near (clamp (blue y (u - 128))) (rgb y u v).b ↔ BlueOk y (u - 128) := by
  have hb : (rgb y u v).b =
      Clamp.clamp 0 255 (((y : Int) : Rat) + ((17790 * (u - 128) : Int) : Rat) / 10000) := by
    refine congrArg (Clamp.clamp 0 255) ?_
    push_cast
    ring
  rw [hb]
  unfold blue BlueOk
  rcases Int.le_total 0 (77318 * (u - 128)) with h | h
  · have ht := tdiv_of_nonneg h
    have hclose := blue_close_iff (by omega) ht.1 ht.2
    rw [near_iff_of_le (by omega)]
    omega
  · have ht := tdiv_of_nonpos h
    have hclose := blue_close_iff (u := -(u - 128))
      (t := -(77318 * ((u : Int) - 128)).tdiv 65536) (by omega) (by omega) (by omega)
    rw [near_iff_of_ge (by omega)]
    omega

/-- A chroma, and the first luma at which its green is too far off. -/
structure Off where
  u : Int
  v : Int
  y : Int
deriving DecidableEq, Repr

/-- Where the green of the thread is too bright; with the other sign it is too dark. -/
def greenOff : List Off :=
  [⟨84, 53, 68⟩, ⟨84, 106, 106⟩, ⟨110, 53, 77⟩, ⟨113, 39, 68⟩, ⟨113, 46, 73⟩, ⟨113, 53, 78⟩,
    ⟨113, 99, 111⟩, ⟨113, 106, 116⟩]

/-- Where the green of the thread is right. -/
def GreenOk (y u v : Int) : Prop :=
  ∀ a ∈ greenOff, ¬ (u = a.u ∧ v = a.v ∧ a.y ≤ y) ∧ ¬ (u = -a.u ∧ v = -a.v ∧ y ≤ 255 - a.y)

instance (y u v : Int) : Decidable (GreenOk y u v) :=
  inferInstanceAs (Decidable (∀ a ∈ greenOff, _ ∧ _))

/-- 10000 times the error of the term of `u`, with 22612 for 22642. -/
def errorU (u : Int) : Int := 10000 * (-22612 * u).tdiv 65536 + 3455 * u

/-- 10000 times the error of the term of `v`. -/
def errorV (v : Int) : Int := 10000 * (-46984 * v).tdiv 65536 + 7169 * v

theorem errorV_small : ∀ n : Nat, n < 256 →
    -9957 ≤ errorV (n - 128) ∧ errorV (n - 128) ≤ 9957 := by
  decide +kernel

/-- Only few chromas bring the two errors together to more than 2. -/
theorem errorU_small : ∀ m : Nat, m < 256 →
    (-10043 ≤ errorU (m - 128) ∧ errorU (m - 128) ≤ 10043) ∨ ∀ n : Nat, n < 256 →
      (-20000 ≤ errorU (m - 128) + errorV (n - 128) ∧
        errorU (m - 128) + errorV (n - 128) ≤ 20000) ∨
      ∃ a ∈ greenOff, ((m : Int) - 128 = a.u ∧ (n : Int) - 128 = a.v) ∨
        ((m : Int) - 128 = -a.u ∧ (n : Int) - 128 = -a.v) := by
  decide +kernel

theorem greenOff_unique : ∀ a ∈ greenOff, ∀ b ∈ greenOff, a.u = b.u → a.v = b.v → a = b := by
  decide

theorem greenOff_pos : ∀ a ∈ greenOff, 0 < a.u := by decide

/-- What the thread adds to the luma for the chromas of the list. -/
theorem greenOff_spec : ∀ a ∈ greenOff,
    (-22612 * a.u).tdiv 65536 + (-46984 * a.v).tdiv 65536 = 3 - a.y ∧
      (-22612 * -a.u).tdiv 65536 + (-46984 * -a.v).tdiv 65536 = a.y - 3 ∧
      20000 < 10000 * (3 - a.y) + 3455 * a.u + 7169 * a.v ∧
      20000 < 3455 * a.u + 7169 * a.v := by decide

theorem greenOk_bright {a : Off} (ha : a ∈ greenOff) (y : Int) :
    GreenOk y a.u a.v ↔ y < a.y := by
  constructor
  · intro hok
    exact not_le.mp fun hle => (hok a ha).1 ⟨rfl, rfl, hle⟩
  · intro hlt b hb
    constructor
    · rintro ⟨hbu, hbv, hby⟩
      obtain rfl := greenOff_unique a ha b hb hbu hbv
      exact absurd hby (not_le.mpr hlt)
    · rintro ⟨hbu, -, -⟩
      have hpos := greenOff_pos a ha
      have hpos' := greenOff_pos b hb
      omega

theorem greenOk_dark {a : Off} (ha : a ∈ greenOff) (y : Int) :
    GreenOk y (-a.u) (-a.v) ↔ 255 - a.y < y := by
  constructor
  · intro hok
    exact not_le.mp fun hle => (hok a ha).2 ⟨rfl, rfl, hle⟩
  · intro hlt b hb
    constructor
    · rintro ⟨hbu, -, -⟩
      have hpos := greenOff_pos a ha
      have hpos' := greenOff_pos b hb
      omega
    · rintro ⟨hbu, hbv, hby⟩
      obtain rfl := greenOff_unique a ha b hb (neg_inj.mp hbu) (neg_inj.mp hbv)
      exact absurd hby (not_le.mpr hlt)

/-- **Green.** 22612 is 0.3450 of 65536, and the practice program has 0.3455. -/
theorem near_green_iff {y u v : Nat} (hy : y < 256) (hu : u < 256) (hv : v < 256) :
    Near (clamp (green y (u - 128) (v - 128))) (rgb y u v).g ↔ GreenOk y (u - 128) (v - 128) := by
  have hg : (rgb y u v).g =
      Clamp.clamp 0 255 (((y : Int) : Rat) +
        ((-3455 * (u - 128) - 7169 * (v - 128) : Int) : Rat) / 10000) := by
    refine congrArg (Clamp.clamp 0 255) ?_
    push_cast
    ring
  rw [hg, green, add_assoc]
  by_cases hbright : ∃ a ∈ greenOff, (u : Int) - 128 = a.u ∧ (v : Int) - 128 = a.v
  · obtain ⟨a, ha, hau, hav⟩ := hbright
    obtain ⟨hsum, -, hfar, hlow⟩ := greenOff_spec a ha
    rw [hau, hav, hsum, near_iff_of_ge (by omega), greenOk_bright ha]
    omega
  by_cases hdark : ∃ a ∈ greenOff, (u : Int) - 128 = -a.u ∧ (v : Int) - 128 = -a.v
  · obtain ⟨a, ha, hau, hav⟩ := hdark
    obtain ⟨-, hsum, hfar, hlow⟩ := greenOff_spec a ha
    rw [hau, hav, hsum, near_iff_of_le (by omega), greenOk_dark ha]
    omega
  · have hnear : -20000 ≤ errorU (u - 128) + errorV (v - 128) ∧
        errorU (u - 128) + errorV (v - 128) ≤ 20000 := by
      obtain ⟨hlo, hhi⟩ := errorV_small v hv
      rcases errorU_small u hu with ⟨hlo', hhi'⟩ | hfar
      · omega
      · rcases hfar v hv with hsmall | ⟨a, ha, hpos | hneg⟩
        · exact hsmall
        · exact absurd ⟨a, ha, hpos⟩ hbright
        · exact absurd ⟨a, ha, hneg⟩ hdark
    unfold errorU errorV at hnear
    refine iff_of_true (near_of_abs_le (by omega) (by omega)) ?_
    intro a ha
    constructor
    · rintro ⟨hau, hav, -⟩
      exact hbright ⟨a, ha, hau, hav⟩
    · rintro ⟨hau, hav, -⟩
      exact hdark ⟨a, ha, hau, hav⟩

/-! ### The pixels -/

def alphaOf (px : Nat) : Nat := px >>> 24
def redOf (px : Nat) : Nat := (px >>> 16) &&& 0xff
def greenOf (px : Nat) : Nat := (px >>> 8) &&& 0xff
def blueOf (px : Nat) : Nat := px &&& 0xff

/-- The colours do not overlap in the word. -/
theorem pixel_eq {r g b : Nat} (hr : r < 256) (hg : g < 256) (hb : b < 256) :
    pixel r g b = 255 * 16777216 + r * 65536 + g * 256 + b := by
  have halpha : 0xFF000000 ||| r * 65536 = 65536 * (65280 + r) :=
    (Nat.two_pow_add_eq_or_of_lt (i := 24) (b := r * 65536) (by omega) 255).symm.trans (by omega)
  have hred : 65536 * (65280 + r) ||| g * 256 = 256 * (16711680 + r * 256 + g) :=
    (Nat.two_pow_add_eq_or_of_lt (i := 16) (b := g * 256) (by omega) (65280 + r)).symm.trans
      (by omega)
  have hgreen : 256 * (16711680 + r * 256 + g) ||| b = 256 * (16711680 + r * 256 + g) + b :=
    (Nat.two_pow_add_eq_or_of_lt (i := 8) hb (16711680 + r * 256 + g)).symm
  have hr16 : r <<< 16 = r * 65536 := Nat.shiftLeft_eq r 16
  have hg8 : g <<< 8 = g * 256 := Nat.shiftLeft_eq g 8
  rw [pixel, hr16, hg8, halpha, hred, hgreen]
  omega

theorem clamp_lt (x : Int) : clamp x < 256 := by
  unfold clamp
  split_ifs
  · omega
  · omega
  · omega

/-- The four parts of a pixel. -/
theorem parts_shade (y u v : Int) :
    alphaOf (shade y u v) = 255 ∧ redOf (shade y u v) = clamp (red y v) ∧
      greenOf (shade y u v) = clamp (green y u v) ∧ blueOf (shade y u v) = clamp (blue y u) := by
  have hr := clamp_lt (red y v)
  have hg := clamp_lt (green y u v)
  have hb := clamp_lt (blue y u)
  simp only [shade, pixel_eq hr hg hb, alphaOf, redOf, greenOf, blueOf, and_ff,
    Nat.shiftRight_eq_div_pow]
  omega

/-- A pixel is opaque, and each of its colours is near that of the practice program. -/
def Faithful (px : Nat) (c : Rgb) : Prop :=
  alphaOf px = 255 ∧ Near (redOf px) c.r ∧ Near (greenOf px) c.g ∧ Near (blueOf px) c.b

/-- Where the thread has the colours of the practice program. -/
def Tame (y u v : Nat) : Prop := GreenOk y (u - 128) (v - 128) ∧ BlueOk y (u - 128)

instance (y u v : Nat) : Decidable (Tame y u v) := inferInstanceAs (Decidable (_ ∧ _))

theorem faithful_shade_iff {y u v : Nat} (hy : y < 256) (hu : u < 256) (hv : v < 256) :
    Faithful (shade y (u - 128) (v - 128)) (rgb y u v) ↔ Tame y u v := by
  obtain ⟨halpha, hred, hgreen, hblue⟩ := parts_shade y (u - 128) (v - 128)
  unfold Faithful Tame
  rw [hred, hgreen, hblue, near_green_iff hy hu hv, near_blue_iff hy hu]
  simp only [halpha, near_red hv, true_and]

/-! ### The frame -/

/-- The conversion of a frame and the practice program agree: the bytes of the frame are
    enough, every pixel is written once, and both pixels of a word are those of the practice
    program. -/
def Agrees (w h : Nat) (yuyv : List UInt8) : Prop :=
  ∃ writes, convert w h yuyv = .ok writes ∧
    convert w h (yuyv.take (2 * (w * h))) = .ok writes ∧
    writes.map Prod.fst = (List.range (w * h)).map (fun (i : Nat) => (i : Int)) ∧
    ∀ p < w * h / 2,
      (∃ px, (((2 * p : Nat) : Int), px) ∈ writes ∧
        Faithful px (captureToFb (word yuyv (4 * p))).1) ∧
      (∃ px, (((2 * p + 1 : Nat) : Int), px) ∈ writes ∧
        Faithful px (captureToFb (word yuyv (4 * p))).2)

/-- The pixels of a frame are those of its pairs. -/
theorem mem_frame_even {yuyv : List UInt8} {n p px : Nat} (hp : p < n) :
    (((2 * p : Nat) : Int), px) ∈ frame yuyv n ↔
      px = shade (byteAt yuyv (4 * p)) (byteAt yuyv (4 * p + 1) - 128)
        (byteAt yuyv (4 * p + 3) - 128) := by
  rw [mem_frame]
  constructor
  · rintro ⟨q, -, hmem⟩
    simp only [pair, List.mem_cons, List.not_mem_nil, or_false, Prod.mk.injEq] at hmem
    rcases hmem with ⟨hindex, hpx⟩ | ⟨hindex, -⟩
    · obtain rfl : p = q := by omega
      exact hpx
    · omega
  · rintro rfl
    exact ⟨p, hp, by simp [pair]⟩

theorem mem_frame_odd {yuyv : List UInt8} {n p px : Nat} (hp : p < n) :
    (((2 * p + 1 : Nat) : Int), px) ∈ frame yuyv n ↔
      px = shade (byteAt yuyv (4 * p + 2)) (byteAt yuyv (4 * p + 1) - 128)
        (byteAt yuyv (4 * p + 3) - 128) := by
  rw [mem_frame]
  constructor
  · rintro ⟨q, -, hmem⟩
    simp only [pair, List.mem_cons, List.not_mem_nil, or_false, Prod.mk.injEq] at hmem
    rcases hmem with ⟨hindex, -⟩ | ⟨hindex, hpx⟩
    · omega
    · obtain rfl : p = q := by omega
      exact hpx
  · rintro rfl
    exact ⟨p, hp, by simp [pair]⟩

/-- The two pixels of a word. -/
theorem faithful_pair_iff {yuyv : List UInt8} {n p : Nat} (hp : p < n) :
    ((∃ px, (((2 * p : Nat) : Int), px) ∈ frame yuyv n ∧
        Faithful px (captureToFb (word yuyv (4 * p))).1) ∧
      ∃ px, (((2 * p + 1 : Nat) : Int), px) ∈ frame yuyv n ∧
        Faithful px (captureToFb (word yuyv (4 * p))).2) ↔
    Tame (byteAt yuyv (4 * p)) (byteAt yuyv (4 * p + 1)) (byteAt yuyv (4 * p + 3)) ∧
      Tame (byteAt yuyv (4 * p + 2)) (byteAt yuyv (4 * p + 1)) (byteAt yuyv (4 * p + 3)) := by
  have hu := byteAt_lt yuyv (4 * p + 1)
  have hv := byteAt_lt yuyv (4 * p + 3)
  simp only [mem_frame_even hp, mem_frame_odd hp, captureToFb_word, exists_eq_left]
  exact and_congr (faithful_shade_iff (byteAt_lt yuyv (4 * p)) hu hv)
    (faithful_shade_iff (byteAt_lt yuyv (4 * p + 2)) hu hv)

/-- What the conversion of a frame does at all sizes that do not overflow. -/
theorem convert_frame {w h : Nat} {yuyv : List UInt8} (heven : 2 ∣ w * h)
    (hlen : 2 * (w * h) ≤ yuyv.length) (hsize : w * h ≤ 1073741824) :
    convert w h yuyv = .ok (frame yuyv (w * h / 2)) ∧
      convert w h (yuyv.take (2 * (w * h))) = .ok (frame yuyv (w * h / 2)) ∧
      (frame yuyv (w * h / 2)).map Prod.fst =
        (List.range (w * h)).map (fun (i : Nat) => (i : Int)) := by
  have hhalf : 2 * (w * h / 2) = w * h := Nat.mul_div_cancel' heven
  have htake : 2 * (w * h) = 4 * (w * h / 2) := by omega
  refine ⟨convert_eq_ok hlen hsize, ?_, ?_⟩
  · rw [convert_eq_ok (by simp [hlen]) hsize, htake, frame_take]
  · rw [map_fst_frame, hhalf]

/-- **The frame.** For every frame with an even number of pixels and every buffer that holds
    it, the conversion agrees with the practice program exactly when no offset overflows and
    every pixel has a luma and a chroma for which the two wrong coefficients do not show. -/
theorem agrees_iff {w h : Nat} {yuyv : List UInt8} (heven : 2 ∣ w * h)
    (hlen : 2 * (w * h) ≤ yuyv.length) :
    Agrees w h yuyv ↔ w * h ≤ 1073741824 ∧ ∀ p < w * h / 2,
      Tame (byteAt yuyv (4 * p)) (byteAt yuyv (4 * p + 1)) (byteAt yuyv (4 * p + 3)) ∧
      Tame (byteAt yuyv (4 * p + 2)) (byteAt yuyv (4 * p + 1)) (byteAt yuyv (4 * p + 3)) := by
  constructor
  · rintro ⟨writes, hconvert, -, -, hpixels⟩
    have hsize : w * h ≤ 1073741824 := by
      by_contra hlarge
      rw [convert_overflow heven hlen (by omega)] at hconvert
      cases hconvert
    obtain ⟨hframe, -, -⟩ := convert_frame heven hlen hsize
    obtain rfl := Except.ok.inj (hframe.symm.trans hconvert)
    refine ⟨hsize, ?_⟩
    intro p hp
    exact (faithful_pair_iff hp).mp (hpixels p hp)
  · rintro ⟨hsize, htame⟩
    obtain ⟨hframe, htake, hindices⟩ := convert_frame heven hlen hsize
    refine ⟨frame yuyv (w * h / 2), hframe, htake, hindices, ?_⟩
    intro p hp
    exact (faithful_pair_iff hp).mpr (htame p hp)

/-- Three pairs: bright and bluish, dark and reddish, and one with chroma near the middle. -/
theorem agrees_iff_colours :
    Agrees 2 3 [240, 200, 230, 60, 20, 40, 12, 220, 90, 126, 160, 131] :=
  (agrees_iff (by decide) (by decide)).mpr ⟨by decide, by decide⟩

/-- A pair with much blue: the thread has 149 where the practice program has 225.9. -/
theorem not_agrees_blue : ¬ Agrees 2 1 [0, 255, 0, 128] := by
  rintro ⟨writes, hconvert, -, -, hpixels⟩
  have hlen : 2 * (2 * 1) ≤ ([0, 255, 0, 128] : List UInt8).length := by decide
  obtain ⟨hframe, -, -⟩ := convert_frame (w := 2) (h := 1) (by decide) hlen (by decide)
  obtain rfl := Except.ok.inj (hframe.symm.trans hconvert)
  have htame := (faithful_pair_iff (n := 1) (by decide)).mp (hpixels 0 (by decide))
  revert htame
  decide

end AlarmClock.FrameConversion
