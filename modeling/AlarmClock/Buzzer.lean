import Mathlib.Data.List.Basic

/-!
# Writing to the buzzer

`device_write` of the buzzer driver copies the bytes of a write into a static buffer and
plays them in pairs, a tone letter and a note letter, through two tables. The buffer is
shared by all writes and is never cleared, the letters are not checked, and the loop reads
two bytes at a step whatever the parity of the length.
-/

namespace AlarmClock.Buzzer

def MAX_BUF : Nat := 40 * 2

def BASE : Nat := 500

def MARIO_BASE : Nat := 300

/-- The frequency of a tone, by its letter. -/
def tone2freq : List Nat :=
  [261, 277, 293, 311, 329, 349, 369, 391, 415, 440, 466, 493, 523, 554, 587, 622, 659, 698, 739,
    783, 830, 880, 932, 987]

/-- The length of a note, by its letter; `BASE*1.5` is 750. -/
def note2msec : List Nat :=
  [MARIO_BASE / 3, MARIO_BASE / 2, MARIO_BASE, BASE + BASE / 2, BASE * 3]

def letterA : UInt8 := 65

/-- The letter of a rest, `s`. -/
def letterS : UInt8 := 115

/-- What can go wrong in one step of the loop: a read outside an array, or a division by
    zero. -/
inductive Fault where
  | wbuf
  | note2msec
  | tone2freq
  | divide
deriving DecidableEq, Repr

inductive Sound where
  | beep (freq msec : Nat)
  | rest (msec : Nat)
deriving DecidableEq, Repr

def Sound.msec : Sound → Nat
  | beep _ msec => msec
  | rest msec => msec

/-- `table[c - 'A']`. A `char` from 128 on is outside the table with or without a sign. -/
def readTable (table : List Nat) (fault : Fault) (c : UInt8) : Except Fault Nat :=
  let i : Int := c.toNat - letterA.toNat
  if i < 0 then .error fault
  else
    match table[i.toNat]? with
    | none => .error fault
    | some entry => .ok entry

/-- `wbuf[i]`. -/
def readBuf (wbuf : List UInt8) (i : Nat) : Except Fault UInt8 :=
  match wbuf[i]? with
  | none => .error .wbuf
  | some c => .ok c

/-- The range register is `10000000 / freq`. -/
def buzzerBeep (freq msec : Nat) : Except Fault Sound :=
  if freq = 0 then .error .divide else .ok (.beep freq msec)

/-- One step of the loop. The length is looked up before the rest is recognised. -/
def playPair (wbuf : List UInt8) (i : Nat) : Except Fault Sound := do
  let tone ← readBuf wbuf i
  let note ← readBuf wbuf (i + 1)
  let msec ← readTable note2msec .note2msec note
  if tone = letterS then return .rest msec
  else
    let freq ← readTable tone2freq .tone2freq tone
    buzzerBeep freq msec

/-- The steps one after the other, up to the first that goes wrong. -/
def collect {α β ε : Type} (f : α → Except ε β) : List α → List β × Option ε
  | [] => ([], none)
  | a :: l =>
    match f a with
    | .error e => ([], some e)
    | .ok b => (b :: (collect f l).1, (collect f l).2)

/-- `i = 0; i < wlen; i += 2`. -/
def indices (wlen : Nat) : List Nat := List.range' 0 ((wlen + 1) / 2) 2

inductive Written where
  | efault
  | faulted (played : List Sound) (fault : Fault)
  | done (played : List Sound) (wlen : Nat)
deriving DecidableEq, Repr

def Written.played : Written → List Sound
  | efault => []
  | faulted played _ => played
  | done played _ => played

/-- The write is refused before anything is played, or played to its end within the arrays. -/
def Written.Contained : Written → Prop
  | faulted _ _ => False
  | _ => True

instance (r : Written) : Decidable r.Contained := by
  cases r <;> unfold Written.Contained <;> infer_instance

/-- The driver's memory: the static buffer. -/
structure Driver where
  wbuf : List UInt8
  size : wbuf.length = MAX_BUF

/-- The buffer as the module is loaded. -/
def Driver.init : Driver := ⟨List.replicate MAX_BUF 0, rfl⟩

/-- `copy_from_user` of `n` bytes. The memory of the caller ends where `user` ends; what
    could not be read is zeroed, and the number of those bytes is returned. -/
def copyFromUser (wbuf user : List UInt8) (n : Nat) : List UInt8 × Nat :=
  (user.take n ++ List.replicate (n - user.length) 0 ++ wbuf.drop n, n - user.length)

theorem length_copyFromUser {wbuf user : List UInt8} {n : Nat} (h : n ≤ wbuf.length) :
    (copyFromUser wbuf user n).1.length = wbuf.length := by
  simp only [copyFromUser, List.length_append, List.length_take, List.length_replicate,
    List.length_drop]
  omega

def writeLength (count : Nat) : Nat := min MAX_BUF count

theorem writeLength_le (count : Nat) : writeLength count ≤ MAX_BUF := Nat.min_le_left ..

/-- `wbuf` after the copy of a write. -/
def Driver.copied (d : Driver) (user : List UInt8) (count : Nat) : Driver where
  wbuf := (copyFromUser d.wbuf user (writeLength count)).1
  size := by
    rw [length_copyFromUser (by rw [d.size]; exact writeLength_le count), d.size]

def deviceWrite (d : Driver) (user : List UInt8) (count : Nat) : Driver × Written :=
  let wlen := writeLength count
  let d' := d.copied user count
  if (copyFromUser d.wbuf user wlen).2 ≠ 0 then (d', .efault)
  else
    match collect (playPair d'.wbuf) (indices wlen) with
    | (played, some fault) => (d', .faulted played fault)
    | (played, none) => (d', .done played wlen)

/-! ### One step of the loop -/

/-- The letter has an entry in the table. -/
def InTable (table : List Nat) (c : UInt8) : Prop :=
  letterA.toNat ≤ c.toNat ∧ c.toNat < letterA.toNat + table.length

def IsNote (c : UInt8) : Prop := InTable note2msec c

def IsTone (c : UInt8) : Prop := c = letterS ∨ InTable tone2freq c

instance (table : List Nat) (c : UInt8) : Decidable (InTable table c) :=
  inferInstanceAs (Decidable (_ ∧ _))

instance (c : UInt8) : Decidable (IsNote c) := inferInstanceAs (Decidable (InTable _ _))

instance (c : UInt8) : Decidable (IsTone c) := inferInstanceAs (Decidable (_ ∨ _))

theorem readTable_eq_ok {table : List Nat} {fault : Fault} {c : UInt8} {entry : Nat} :
    readTable table fault c = .ok entry ↔
      letterA.toNat ≤ c.toNat ∧ table[c.toNat - letterA.toNat]? = some entry := by
  unfold readTable
  dsimp only
  split
  · next hlt =>
    constructor
    · intro h
      cases h
    · rintro ⟨hle, -⟩
      omega
  · next hge =>
    have hle : letterA.toNat ≤ c.toNat := by omega
    have hindex : ((c.toNat : Int) - letterA.toNat).toNat = c.toNat - letterA.toNat := by omega
    rw [hindex]
    cases table[c.toNat - letterA.toNat]? with
    | none => simp
    | some x => simp [hle]

theorem readTable_ok_iff {table : List Nat} (fault : Fault) {c : UInt8} :
    (∃ entry, readTable table fault c = .ok entry) ↔ InTable table c := by
  simp only [readTable_eq_ok]
  constructor
  · rintro ⟨entry, hle, hentry⟩
    have hlt := (List.getElem?_eq_some_iff.mp hentry).1
    exact ⟨hle, by omega⟩
  · rintro ⟨hle, hlt⟩
    exact ⟨_, hle, List.getElem?_eq_getElem (by omega)⟩

theorem readBuf_eq_ok {wbuf : List UInt8} {i : Nat} {c : UInt8} :
    readBuf wbuf i = .ok c ↔ wbuf[i]? = some c := by
  unfold readBuf
  cases wbuf[i]? with
  | none => simp
  | some x => simp

theorem bind_eq_ok {α β ε : Type} {x : Except ε α} {f : α → Except ε β} {b : β} :
    (x >>= f) = .ok b ↔ ∃ a, x = .ok a ∧ f a = .ok b := by
  cases x with
  | error e => simp [bind, Except.bind]
  | ok a => simp [bind, Except.bind]

theorem buzzerBeep_eq_ok {freq msec : Nat} {sound : Sound} :
    buzzerBeep freq msec = .ok sound ↔ freq ≠ 0 ∧ sound = .beep freq msec := by
  unfold buzzerBeep
  by_cases h : freq = 0
  · simp [h]
  · simp [h, eq_comm]

/-- What one step plays, and from what. -/
theorem playPair_eq_ok {wbuf : List UInt8} {i : Nat} {sound : Sound} :
    playPair wbuf i = .ok sound ↔
      ∃ tone note msec, wbuf[i]? = some tone ∧ wbuf[i + 1]? = some note ∧
        readTable note2msec .note2msec note = .ok msec ∧
        (tone = letterS ∧ sound = .rest msec ∨
          tone ≠ letterS ∧ ∃ freq, readTable tone2freq .tone2freq tone = .ok freq ∧
            freq ≠ 0 ∧ sound = .beep freq msec) := by
  unfold playPair
  simp only [bind_eq_ok, readBuf_eq_ok]
  constructor
  · rintro ⟨tone, htone, note, hnote, msec, hmsec, h⟩
    refine ⟨tone, note, msec, htone, hnote, hmsec, ?_⟩
    split at h
    · next hs => exact .inl ⟨hs, (Except.ok.inj h).symm⟩
    · next hs =>
      obtain ⟨freq, hfreq, hbeep⟩ := bind_eq_ok.mp h
      exact .inr ⟨hs, freq, hfreq, buzzerBeep_eq_ok.mp hbeep⟩
  · rintro ⟨tone, note, msec, htone, hnote, hmsec, h⟩
    refine ⟨tone, htone, note, hnote, msec, hmsec, ?_⟩
    rcases h with ⟨hs, rfl⟩ | ⟨hs, freq, hfreq, hpos, rfl⟩
    · rw [if_pos hs]
      rfl
    · rw [if_neg hs]
      exact bind_eq_ok.mpr ⟨freq, hfreq, buzzerBeep_eq_ok.mpr ⟨hpos, rfl⟩⟩

/-- No tone has the frequency 0. -/
theorem tone2freq_pos {n freq : Nat} (h : tone2freq[n]? = some freq) : freq ≠ 0 := by
  have hmem : freq ∈ tone2freq := List.mem_of_getElem? h
  rintro rfl
  exact absurd hmem (by decide)

/-- **A step stays within the arrays exactly when it reads a tone and a note.** -/
theorem playPair_ok_iff {wbuf : List UInt8} {i : Nat} {tone note : UInt8}
    (htone : wbuf[i]? = some tone) (hnote : wbuf[i + 1]? = some note) :
    (∃ sound, playPair wbuf i = .ok sound) ↔ IsTone tone ∧ IsNote note := by
  simp only [playPair_eq_ok]
  constructor
  · rintro ⟨sound, tone', note', msec, htone', hnote', hmsec, h⟩
    obtain rfl := Option.some.inj (htone.symm.trans htone')
    obtain rfl := Option.some.inj (hnote.symm.trans hnote')
    refine ⟨?_, (readTable_ok_iff _).mp ⟨msec, hmsec⟩⟩
    rcases h with ⟨hs, -⟩ | ⟨-, freq, hfreq, -, -⟩
    · exact .inl hs
    · exact .inr ((readTable_ok_iff _).mp ⟨freq, hfreq⟩)
  · rintro ⟨ht, hn⟩
    obtain ⟨msec, hmsec⟩ := (readTable_ok_iff .note2msec).mpr hn
    by_cases hs : tone = letterS
    · exact ⟨.rest msec, tone, note, msec, htone, hnote, hmsec, .inl ⟨hs, rfl⟩⟩
    · have htable : InTable tone2freq tone := ht.resolve_left hs
      obtain ⟨freq, hfreq⟩ := (readTable_ok_iff .tone2freq).mpr htable
      have hpos := tone2freq_pos (readTable_eq_ok.mp hfreq).2
      exact ⟨.beep freq msec, tone, note, msec, htone, hnote, hmsec,
        .inr ⟨hs, freq, hfreq, hpos, rfl⟩⟩

/-! ### The loop -/

section Collect

variable {α β ε : Type} {f g : α → Except ε β}

theorem collect_none_iff {l : List α} :
    (collect f l).2 = none ↔ ∀ a ∈ l, ∃ b, f a = .ok b := by
  induction l with
  | nil => simp [collect]
  | cons a l ih =>
    cases hfa : f a with
    | error e => simp [collect, hfa]
    | ok b => simp [collect, hfa, ih]

theorem collect_congr {l : List α} (h : ∀ a ∈ l, f a = g a) : collect f l = collect g l := by
  induction l with
  | nil => rfl
  | cons a l ih =>
    have ha := h a List.mem_cons_self
    have hl := ih fun x hx => h x (List.mem_cons_of_mem a hx)
    simp only [collect, ha, hl]

theorem collect_concat {l : List α} {a : α} {b : β} (hl : ∀ x ∈ l, ∃ y, f x = .ok y)
    (ha : f a = .ok b) : (collect f (l ++ [a])).1 = (collect f l).1 ++ [b] := by
  induction l with
  | nil => simp [collect, ha]
  | cons x l ih =>
    obtain ⟨y, hy⟩ := hl x List.mem_cons_self
    have hrest := ih fun z hz => hl z (List.mem_cons_of_mem x hz)
    simp only [List.cons_append, collect, hy, hrest]

end Collect

theorem mem_indices {wlen i : Nat} : i ∈ indices wlen ↔ i % 2 = 0 ∧ i < wlen := by
  simp only [indices, List.mem_range', Nat.zero_add]
  constructor
  · rintro ⟨k, hk, rfl⟩
    omega
  · rintro ⟨heven, hlt⟩
    exact ⟨i / 2, by omega, by omega⟩

/-- The last step of an odd length starts at the last byte. -/
theorem indices_odd (k : Nat) : indices (2 * k + 1) = indices (2 * k) ++ [2 * k] := by
  have h₁ : (2 * k + 1 + 1) / 2 = k + 1 := by omega
  have h₂ : (2 * k + 1) / 2 = k := by omega
  unfold indices
  rw [h₁, h₂, List.range'_concat, Nat.zero_add]

/-! ### A write -/

variable {d : Driver} {user : List UInt8} {count : Nat}

/-- The bytes of a write are tones and notes in turn. -/
def ValidCodes (user : List UInt8) (wlen : Nat) : Prop :=
  ∀ i c, i < wlen → user[i]? = some c → (i % 2 = 0 → IsTone c) ∧ (i % 2 = 1 → IsNote c)

/-- Every pair of the loop is a tone and a note. The last of an odd length takes its note
    from what earlier writes left in the buffer. -/
def Playable (d : Driver) (user : List UInt8) (wlen : Nat) : Prop :=
  ValidCodes user wlen ∧ (wlen % 2 = 1 → ∀ c, d.wbuf[wlen]? = some c → IsNote c)

/-- Whatever comes of a write, its bytes are in the buffer. -/
theorem deviceWrite_fst (d : Driver) (user : List UInt8) (count : Nat) :
    (deviceWrite d user count).1 = d.copied user count := by
  unfold deviceWrite
  dsimp only
  split
  · rfl
  · split <;> rfl

theorem deviceWrite_efault (h : user.length < writeLength count) :
    (deviceWrite d user count).2 = .efault := by
  have hleft : (copyFromUser d.wbuf user (writeLength count)).2 ≠ 0 := by
    simp only [copyFromUser]
    omega
  simp only [deviceWrite, if_pos hleft]

theorem deviceWrite_readable (h : writeLength count ≤ user.length) :
    (deviceWrite d user count).2 =
      match collect (playPair (d.copied user count).wbuf) (indices (writeLength count)) with
      | (played, some fault) => .faulted played fault
      | (played, none) => .done played (writeLength count) := by
  have hleft : (copyFromUser d.wbuf user (writeLength count)).2 = 0 := by
    simp only [copyFromUser]
    omega
  simp only [deviceWrite, hleft, ne_eq, not_true_eq_false, if_false]
  split <;> rfl

theorem played_deviceWrite (h : writeLength count ≤ user.length) :
    (deviceWrite d user count).2.played =
      (collect (playPair (d.copied user count).wbuf) (indices (writeLength count))).1 := by
  rw [deviceWrite_readable h]
  rcases collect (playPair (d.copied user count).wbuf) (indices (writeLength count)) with
    ⟨played, _ | fault⟩ <;> rfl

theorem contained_deviceWrite (h : writeLength count ≤ user.length) :
    (deviceWrite d user count).2.Contained ↔
      (collect (playPair (d.copied user count).wbuf) (indices (writeLength count))).2 = none := by
  rw [deviceWrite_readable h]
  rcases collect (playPair (d.copied user count).wbuf) (indices (writeLength count)) with
    ⟨played, _ | fault⟩ <;> simp [Written.Contained]

/-- The bytes of the write come first in the buffer, and what was there follows. -/
theorem wbuf_copied (h : writeLength count ≤ user.length) (i : Nat) :
    (d.copied user count).wbuf[i]? =
      if i < writeLength count then user[i]? else d.wbuf[i]? := by
  have hnone : writeLength count - user.length = 0 := by omega
  have hlen : (user.take (writeLength count)).length = writeLength count := by
    rw [List.length_take]
    omega
  simp only [Driver.copied, copyFromUser, hnone, List.replicate_zero, List.append_nil]
  split
  · next hi => rw [List.getElem?_append_left (by omega), List.getElem?_take_of_lt hi]
  · next hi =>
    rw [List.getElem?_append_right (by omega), hlen, List.getElem?_drop]
    congr 1
    omega

/-- A pair of the loop lies within the buffer: the length of the buffer is even. -/
theorem pair_in_wbuf (h : writeLength count ≤ user.length) {i : Nat}
    (hi : i ∈ indices (writeLength count)) :
    ∃ tone note, user[i]? = some tone ∧ (d.copied user count).wbuf[i]? = some tone ∧
      (d.copied user count).wbuf[i + 1]? = some note ∧
      (if i + 1 < writeLength count then user[i + 1]? else d.wbuf[i + 1]?) = some note := by
  obtain ⟨heven, hlt⟩ := mem_indices.mp hi
  have hmax : writeLength count ≤ 80 := writeLength_le count
  have hsize : (d.copied user count).wbuf.length = 80 := (d.copied user count).size
  have htone : user[i]? = some user[i] := List.getElem?_eq_getElem (by omega)
  have hnote : (d.copied user count).wbuf[i + 1]? = some (d.copied user count).wbuf[i + 1] :=
    List.getElem?_eq_getElem (by omega)
  refine ⟨_, _, htone, ?_, hnote, ?_⟩
  · rw [wbuf_copied h, if_pos hlt, htone]
  · rw [← hnote, wbuf_copied h]

/-- No step of the loop goes wrong exactly when every pair is a tone and a note. -/
theorem pairs_ok_iff (h : writeLength count ≤ user.length) :
    (∀ i ∈ indices (writeLength count),
        ∃ sound, playPair (d.copied user count).wbuf i = .ok sound) ↔
      Playable d user (writeLength count) := by
  constructor
  · intro hall
    have hpair : ∀ i ∈ indices (writeLength count), ∀ tone note, user[i]? = some tone →
        (if i + 1 < writeLength count then user[i + 1]? else d.wbuf[i + 1]?) = some note →
        IsTone tone ∧ IsNote note := by
      intro i hi tone note htone hnote
      obtain ⟨tone', note', htone', hbuf, hbuf', hnote'⟩ := pair_in_wbuf (d := d) h hi
      obtain rfl := Option.some.inj (htone.symm.trans htone')
      obtain rfl := Option.some.inj (hnote.symm.trans hnote')
      exact (playPair_ok_iff hbuf hbuf').mp (hall i hi)
    refine ⟨fun i c hi hc => ⟨fun heven => ?_, fun hodd => ?_⟩, fun hodd c hc => ?_⟩
    · have hmem := mem_indices.mpr ⟨heven, hi⟩
      obtain ⟨tone, note, -, -, -, hnote⟩ := pair_in_wbuf (d := d) h hmem
      exact (hpair i hmem c note hc hnote).1
    · obtain ⟨k, rfl⟩ : ∃ k, i = k + 1 := ⟨i - 1, by omega⟩
      have hmem : k ∈ indices (writeLength count) := mem_indices.mpr ⟨by omega, by omega⟩
      obtain ⟨tone, note, htone, -⟩ := pair_in_wbuf (d := d) h hmem
      exact (hpair k hmem tone c htone (by rw [if_pos hi, hc])).2
    · obtain ⟨k, hk⟩ : ∃ k, writeLength count = k + 1 := ⟨writeLength count - 1, by omega⟩
      have hmem : k ∈ indices (writeLength count) := mem_indices.mpr ⟨by omega, by omega⟩
      obtain ⟨tone, note, htone, -⟩ := pair_in_wbuf (d := d) h hmem
      rw [hk] at hc
      exact (hpair k hmem tone c htone (by rw [if_neg (by omega), hc])).2
  · rintro ⟨hvalid, hleft⟩ i hi
    obtain ⟨heven, hlt⟩ := mem_indices.mp hi
    obtain ⟨tone, note, htone, hbuf, hbuf', hnote⟩ := pair_in_wbuf (d := d) h hi
    refine (playPair_ok_iff hbuf hbuf').mpr ⟨(hvalid i tone hlt htone).1 heven, ?_⟩
    split at hnote
    · next hin => exact (hvalid (i + 1) note hin hnote).2 (by omega)
    · next hout =>
      obtain hlast : i + 1 = writeLength count := by omega
      rw [hlast] at hnote
      exact hleft (by omega) note hnote

/-- **A write stays within the arrays exactly when** it cannot be read from the caller, or
    is made of tones and notes, the left-over note of an odd length included. -/
theorem deviceWrite_contained_iff (d : Driver) (user : List UInt8) (count : Nat) :
    (deviceWrite d user count).2.Contained ↔
      user.length < writeLength count ∨ Playable d user (writeLength count) := by
  by_cases hread : user.length < writeLength count
  · simp [deviceWrite_efault hread, hread, Written.Contained]
  · have hle : writeLength count ≤ user.length := Nat.not_lt.mp hread
    rw [contained_deviceWrite hle, collect_none_iff, pairs_ok_iff hle]
    simp only [hread, false_or]

/-- A line feed after a tone, as `echo A` writes it, is looked up as a note. -/
theorem not_deviceWrite_contained_echo :
    (deviceWrite Driver.init [65, 10] 2).2 = .faulted [] .note2msec ∧
      ¬ (deviceWrite Driver.init [65, 10] 2).2.Contained := by
  decide

/-! ### What earlier writes leave behind -/

/-- The driver after a list of writes, each from the memory of its caller. -/
def history (writes : List (List UInt8 × Nat)) : Driver :=
  writes.foldl (fun d w => (deviceWrite d w.1 w.2).1) Driver.init

/-- The last step of an odd write: the tone is its own, the note is the buffer's. -/
theorem played_odd {k : Nat} (hk : writeLength count = 2 * k + 1)
    (h : writeLength count ≤ user.length) (hvalid : ValidCodes user (writeLength count))
    {note : UInt8} (hnote : d.wbuf[writeLength count]? = some note) (hcode : IsNote note) :
    ∃ front sound, (deviceWrite d user count).2.played = front ++ [sound] ∧
      readTable note2msec .note2msec note = .ok sound.msec := by
  have hplayable : Playable d user (writeLength count) := by
    refine ⟨hvalid, fun _ c hc => ?_⟩
    obtain rfl := Option.some.inj (hnote.symm.trans hc)
    exact hcode
  have hall := (pairs_ok_iff h).mpr hplayable
  have hlast : 2 * k ∈ indices (writeLength count) := mem_indices.mpr ⟨by omega, by omega⟩
  obtain ⟨sound, hsound⟩ := hall (2 * k) hlast
  obtain ⟨tone, note', msec, -, hnote', hmsec, hkind⟩ := playPair_eq_ok.mp hsound
  rw [wbuf_copied h, if_neg (by omega), ← hk] at hnote'
  obtain rfl := Option.some.inj (hnote.symm.trans hnote')
  refine ⟨(collect (playPair (d.copied user count).wbuf) (indices (2 * k))).1, sound, ?_, ?_⟩
  · rw [played_deviceWrite h, hk, indices_odd]
    apply collect_concat _ hsound
    intro i hi
    apply hall
    rw [hk, indices_odd]
    exact List.mem_append_left _ hi
  · rcases hkind with ⟨-, rfl⟩ | ⟨-, freq, -, -, rfl⟩ <;> exact hmsec

/-- An even write reads nothing but its own bytes. -/
theorem played_even (d₁ d₂ : Driver) {user user' : List UInt8}
    (heven : writeLength count % 2 = 0) (h : writeLength count ≤ user.length)
    (htake : user'.take (writeLength count) = user.take (writeLength count)) :
    (deviceWrite d₁ user count).2.played = (deviceWrite d₂ user' count).2.played := by
  have hlen := congrArg List.length htake
  rw [List.length_take, List.length_take] at hlen
  have h' : writeLength count ≤ user'.length := by omega
  rw [played_deviceWrite h, played_deviceWrite h']
  congr 1
  apply collect_congr
  intro i hi
  obtain ⟨heven', hlt⟩ := mem_indices.mp hi
  have hsame : ∀ j < writeLength count,
      (d₁.copied user count).wbuf[j]? = (d₂.copied user' count).wbuf[j]? := by
    intro j hj
    rw [wbuf_copied h, wbuf_copied h', if_pos hj, if_pos hj, ← List.getElem?_take_of_lt hj,
      ← htake, List.getElem?_take_of_lt hj]
  unfold playPair readBuf
  rw [hsame i hlt, hsame (i + 1) (by omega)]

/-- **A write plays its own bytes exactly when** it cannot be read from the caller or its
    length, cut to the buffer, is even. -/
theorem played_own_bytes_iff (user : List UInt8) (count : Nat)
    (hvalid : ValidCodes user (writeLength count)) :
    (∀ (h₁ h₂ : List (List UInt8 × Nat)) (user' : List UInt8),
        user'.take (writeLength count) = user.take (writeLength count) →
        (deviceWrite (history h₁) user count).2.played =
          (deviceWrite (history h₂) user' count).2.played) ↔
      user.length < writeLength count ∨ writeLength count % 2 = 0 := by
  by_cases hread : user.length < writeLength count
  · simp only [hread, true_or, iff_true]
    intro h₁ h₂ user' htake
    have hlen := congrArg List.length htake
    rw [List.length_take, List.length_take] at hlen
    rw [deviceWrite_efault hread, deviceWrite_efault (by omega)]
  · have hle : writeLength count ≤ user.length := by omega
    simp only [hread, false_or]
    constructor
    · intro hall
      by_contra hodd
      have hmax : writeLength count ≤ 80 := writeLength_le count
      obtain ⟨k, hk⟩ : ∃ k, writeLength count = 2 * k + 1 := ⟨writeLength count / 2, by omega⟩
      -- the buffer is full of one note, and then of another
      have hfull : ∀ c : UInt8,
          (history [(List.replicate MAX_BUF c, MAX_BUF)]).wbuf[writeLength count]? = some c := by
        intro c
        have hlt : writeLength count < writeLength MAX_BUF := by
          show writeLength count < 80
          omega
        rw [history, List.foldl_cons, List.foldl_nil, deviceWrite_fst,
          wbuf_copied (by simp [writeLength]), if_pos hlt, List.getElem?_replicate_of_lt]
        exact hlt
      obtain ⟨front₁, sound₁, hplayed₁, hmsec₁⟩ :=
        played_odd hk hle hvalid (hfull 65) (by decide)
      obtain ⟨front₂, sound₂, hplayed₂, hmsec₂⟩ :=
        played_odd hk hle hvalid (hfull 66) (by decide)
      have hsame := hall [(List.replicate MAX_BUF 65, MAX_BUF)]
        [(List.replicate MAX_BUF 66, MAX_BUF)] user rfl
      rw [hplayed₁, hplayed₂] at hsame
      obtain ⟨-, hlast⟩ := List.append_inj' hsame rfl
      obtain rfl : sound₁ = sound₂ := by simpa using hlast
      have h₁ : Except.ok sound₁.msec = (.ok 100 : Except Fault Nat) := hmsec₁.symm.trans rfl
      have h₂ : Except.ok sound₁.msec = (.ok 150 : Except Fault Nat) := hmsec₂.symm.trans rfl
      exact absurd (Except.ok.inj (h₁.symm.trans h₂)) (by decide)
    · intro heven h₁ h₂ user' htake
      exact played_even _ _ heven hle htake

/-- The letter A is a tone and a note. -/
theorem validCodes_of_A {user : List UInt8} (h : ∀ c ∈ user, c = 65) (wlen : Nat) :
    ValidCodes user wlen := by
  intro i c _ hc
  obtain rfl := h c (List.mem_of_getElem? hc)
  exact ⟨fun _ => by decide, fun _ => by decide⟩

/-- The write of a pair, first of all and after the write of another pair. -/
theorem played_own_bytes_pair :
    (deviceWrite (history []) [65, 65] 2).2.played =
      (deviceWrite (history [([66, 67], 2)]) [65, 65] 2).2.played :=
  (played_own_bytes_iff [65, 65] 2 (validCodes_of_A (by simp) _)).mpr (.inr rfl) [] [([66, 67], 2)]
    [65, 65] rfl

/-- The write of a single tone takes its length from the write before it. -/
theorem not_played_own_bytes_single :
    ValidCodes [65] 1 ∧
      (deviceWrite (history [([65, 65], 2)]) [65] 1).2.played = [.beep 261 100] ∧
      (deviceWrite (history [([65, 66], 2)]) [65] 1).2.played = [.beep 261 150] :=
  ⟨validCodes_of_A (by simp) 1, by decide, by decide⟩

end AlarmClock.Buzzer
