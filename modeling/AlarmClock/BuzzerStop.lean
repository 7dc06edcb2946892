import AlarmClock.Buzzer
import AlarmClock.Lib.Machine

/-!
# Stopping a song

One caller is in an ioctl that plays a song, others issue IOCTL_STOP. They share `g_stop` and
the registers of the PWM, and the steps between two accesses to these interleave. Only one of
the three loops tests the flag, and its function clears the flag when it begins.
-/

namespace AlarmClock.BuzzerStop

open Buzzer (Fault Sound readTable tone2freq letterS buzzerBeep BASE)

def CARZY_BASE : Nat := 250

inductive Song where
  | tetris
  | crazy
  | mario
deriving DecidableEq, Repr

def bytes (text : String) : List UInt8 := text.toList.map fun c => UInt8.ofNat c.toNat

/-- `tetris_notes`, `crazy_notes` and `mario_notes`. -/
def Song.notes : Song → List UInt8
  | tetris => bytes "LBLBMALAJAMALBJBHBJBHBHBJAHBGAHAEB"
  | crazy => bytes "MDOBQCOCRCQCOCMCLBMBLBMBOCLCHEsDHCMDOBQCOCRCQCOCMCLBMBLBMBOCLCME"
  | mario => bytes "QBQBsBQBsBMBQCTCsCHCsCMBMAHBHAEBsAJCLCKCJCHBEBEAJCFBHBsAQCMBOBLCsA"

/-- The lengths of the notes. `play_tetris` declares a table of its own and reads the one of
    the driver; `CARZY_BASE*1.5` is 375. -/
def Song.note2msec : Song → List Nat
  | tetris => Buzzer.note2msec
  | crazy =>
    [CARZY_BASE / 3, CARZY_BASE / 2, CARZY_BASE, CARZY_BASE + CARZY_BASE / 2, CARZY_BASE * 3]
  | mario =>
    [Buzzer.MARIO_BASE / 3, Buzzer.MARIO_BASE / 2, Buzzer.MARIO_BASE, BASE + BASE / 2, BASE * 3]

/-- A tone and a note. The length is looked up before the rest is recognised. -/
def sound (song : Song) (tone note : UInt8) : Except Fault Sound := do
  let msec ← readTable song.note2msec .note2msec note
  if tone = letterS then return .rest msec
  else
    let freq ← readTable tone2freq .tone2freq tone
    buzzerBeep freq msec

/-- The steps of `buzzer_beep`: `on` is the write of 0x81, and `off` the last write. -/
inductive BeepPc where
  | clear
  | range
  | data
  | on
  | sleep
  | off
deriving DecidableEq, Repr

/-- Where the playback is: `entered` is before the loop, `looping` at its head, `leaving`
    behind it. -/
inductive Pc where
  | entered
  | looping
  | resting (msec : Nat)
  | beeping (freq msec : Nat) (pc : BeepPc)
  | leaving
  | returned
deriving DecidableEq, Repr

/-- The driver while one song is played. `silencing` counts the callers of IOCTL_STOP that
    have set the flag and not yet written to the PWM. -/
structure Playback where
  song : Song
  pc : Pc := .entered
  i : Nat := 0
  g_stop : Int
  ctl : Nat
  rng1 : Nat
  dat1 : Nat
  silencing : Nat := 0
deriving DecidableEq, Repr

/-- A step of `buzzer_beep`, and then of the loop. -/
def beep (freq msec : Nat) (d : Playback) : BeepPc → Playback
  | .clear => { d with ctl := 0x80, pc := .beeping freq msec .range }
  | .range => { d with rng1 := 10000000 / freq, pc := .beeping freq msec .data }
  | .data => { d with dat1 := 10000000 / freq / 2, pc := .beeping freq msec .on }
  | .on => { d with ctl := 0x81, pc := .beeping freq msec .sleep }
  | .sleep => { d with pc := .beeping freq msec .off }
  | .off => { d with ctl := 0x80, i := d.i + 2, pc := .looping }

/-- A step of `play_tetris`, `play_crazy_arcade` or `play_super_mario`. The three loops are
    one, except that `play_tetris` clears the flag before its loop, tests it in the loop, and
    silences the PWM behind it. -/
def play (d : Playback) : Option Playback :=
  match d.pc with
  | .entered =>
    some { d with g_stop := if d.song = .tetris then 0 else d.g_stop, pc := .looping }
  | .looping =>
    match d.song.notes.drop d.i with
    | tone :: note :: _ =>
      if d.song = .tetris ∧ d.g_stop ≠ 0 then some { d with pc := .leaving }
      else
        match sound d.song tone note with
        | .error _ => none
        | .ok (.rest msec) => some { d with pc := .resting msec }
        | .ok (.beep freq msec) => some { d with pc := .beeping freq msec .clear }
    | _ => some { d with pc := .leaving }
  | .resting _ => some { d with i := d.i + 2, pc := .looping }
  | .beeping freq msec pc => some (beep freq msec d pc)
  | .leaving => some { d with ctl := if d.song = .tetris then 0x80 else d.ctl, pc := .returned }
  | .returned => none

/-- The playback goes on, a caller sets the flag, or one that has set it silences the PWM. -/
inductive Event where
  | play
  | stop
  | silence
deriving DecidableEq, Repr

def step (d : Playback) : Event → Option Playback
  | .play => play d
  | .stop => some { d with g_stop := 1, silencing := d.silencing + 1 }
  | .silence =>
    if d.silencing = 0 then none
    else some { d with ctl := 0x80, silencing := d.silencing - 1 }

/-! ### What is left of a song -/

/-- The sounds from some place of a song on. -/
def sounds (song : Song) : List UInt8 → List (Except Fault Sound)
  | tone :: note :: rest => sound song tone note :: sounds song rest
  | _ => []

/-- The place after the sound that is being played. -/
def next (d : Playback) : Nat :=
  match d.pc with
  | .resting _ => d.i + 2
  | .beeping _ _ _ => d.i + 2
  | _ => d.i

def upcoming (d : Playback) : List (Except Fault Sound) :=
  sounds d.song (d.song.notes.drop (next d))

/-- There are notes to come, not counting the one that is being played. -/
def NotesLeft (d : Playback) : Prop := ∃ freq msec, .ok (.beep freq msec) ∈ upcoming d

/-- Every letter of the three songs is in the tables. -/
theorem sounds_ok (song : Song) : ∀ r ∈ sounds song song.notes, ∃ x, r = .ok x := by
  have hall : (sounds song song.notes).all Except.isOk = true := by
    cases song <;> decide +kernel
  intro r hr
  have hok := List.all_eq_true.mp hall r hr
  cases r with
  | error fault => cases hok
  | ok x => exact ⟨x, rfl⟩

/-- Every song begins with a note. -/
theorem sounds_head (song : Song) :
    ∃ freq msec rest, sounds song song.notes = .ok (.beep freq msec) :: rest := by
  cases song <;> exact ⟨_, _, _, rfl⟩

theorem sounds_drop {song : Song} {i : Nat} {tone note : UInt8} {rest : List UInt8}
    (h : song.notes.drop i = tone :: note :: rest) :
    sounds song (song.notes.drop i) =
      sound song tone note :: sounds song (song.notes.drop (i + 2)) := by
  have hrest : song.notes.drop (i + 2) = rest := by
    rw [← List.drop_drop, h]
    rfl
  rw [hrest, h]
  rfl

theorem sounds_eq_nil {song : Song} {notes : List UInt8}
    (h : ∀ tone note rest, notes ≠ tone :: note :: rest) : sounds song notes = [] := by
  match notes with
  | [] => rfl
  | [_] => rfl
  | tone :: note :: rest => exact absurd rfl (h tone note rest)

/-! ### What a step can do -/

variable {d d' : Playback}

theorem upcoming_of_looping (hpc : d.pc = .looping) :
    upcoming d = sounds d.song (d.song.notes.drop d.i) := by
  simp only [upcoming, next, hpc]

theorem upcoming_of_next (hsong : d'.song = d.song) (hnext : next d' = next d) :
    upcoming d' = upcoming d := by
  rw [upcoming, upcoming, hsong, hnext]

/-- Every step of the playback, with its guard, its result, and what is to come then: a sound
    is taken at the head of the loop, and nowhere else. -/
inductive PlayTo (d : Playback) : Playback → Prop where
  | entered (hpc : d.pc = .entered)
      (hsame : upcoming
        { d with g_stop := if d.song = .tetris then 0 else d.g_stop, pc := .looping } =
        upcoming d) :
      PlayTo d { d with g_stop := if d.song = .tetris then 0 else d.g_stop, pc := .looping }
  | ended (hpc : d.pc = .looping) (hend : upcoming d = [])
      (hsame : upcoming { d with pc := .leaving } = upcoming d) :
      PlayTo d { d with pc := .leaving }
  | stopped (hpc : d.pc = .looping) (hsong : d.song = .tetris) (hstop : d.g_stop ≠ 0)
      (hsame : upcoming { d with pc := .leaving } = upcoming d) :
      PlayTo d { d with pc := .leaving }
  | rest (msec : Nat) (hpc : d.pc = .looping) (htest : ¬ (d.song = .tetris ∧ d.g_stop ≠ 0))
      (hhead : upcoming d = .ok (.rest msec) :: upcoming { d with pc := .resting msec }) :
      PlayTo d { d with pc := .resting msec }
  | note (freq msec : Nat) (hpc : d.pc = .looping) (htest : ¬ (d.song = .tetris ∧ d.g_stop ≠ 0))
      (hhead : upcoming d =
        .ok (.beep freq msec) :: upcoming { d with pc := .beeping freq msec .clear }) :
      PlayTo d { d with pc := .beeping freq msec .clear }
  | rested (msec : Nat) (hpc : d.pc = .resting msec)
      (hsame : upcoming { d with i := d.i + 2, pc := .looping } = upcoming d) :
      PlayTo d { d with i := d.i + 2, pc := .looping }
  | beeping (freq msec : Nat) (pc : BeepPc) (hpc : d.pc = .beeping freq msec pc)
      (hsame : upcoming (beep freq msec d pc) = upcoming d) :
      PlayTo d (beep freq msec d pc)
  | left (hpc : d.pc = .leaving)
      (hsame : upcoming
        { d with ctl := if d.song = .tetris then 0x80 else d.ctl, pc := .returned } =
        upcoming d) :
      PlayTo d { d with ctl := if d.song = .tetris then 0x80 else d.ctl, pc := .returned }

theorem play_cases (h : play d = some d') : PlayTo d d' := by
  unfold play at h
  split at h
  · next hpc =>
    cases h
    exact .entered hpc (upcoming_of_next rfl (by simp only [next, hpc]))
  · next hpc =>
    split at h
    · next tone note rest hnotes =>
      split at h
      · next htest =>
        cases h
        exact .stopped hpc htest.1 htest.2 (upcoming_of_next rfl (by simp only [next, hpc]))
      · next htest =>
        have hhead := (upcoming_of_looping hpc).trans (sounds_drop hnotes)
        split at h
        · cases h
        · next msec hsound =>
          cases h
          exact .rest msec hpc htest (hsound ▸ hhead)
        · next freq msec hsound =>
          cases h
          exact .note freq msec hpc htest (hsound ▸ hhead)
    · next hnotes =>
      cases h
      have hend : upcoming d = [] := by
        rw [upcoming_of_looping hpc]
        apply sounds_eq_nil
        intro tone note rest hdrop
        exact hnotes tone note rest hdrop
      exact .ended hpc hend (upcoming_of_next rfl (by simp only [next, hpc]))
  · next msec hpc =>
    cases h
    exact .rested msec hpc (upcoming_of_next rfl (by simp only [next, hpc]))
  · next freq msec pc hpc =>
    cases h
    refine .beeping freq msec pc hpc ?_
    cases pc <;> exact upcoming_of_next rfl (by simp only [beep, next, hpc])
  · next hpc =>
    cases h
    exact .left hpc (upcoming_of_next rfl (by simp only [next, hpc]))
  · cases h

/-- The playback is never held up, as long as the letters are in the tables. -/
theorem exists_play (hdecoded : ∀ r ∈ upcoming d, ∃ x, r = .ok x) (hpc : d.pc ≠ .returned) :
    ∃ d', play d = some d' := by
  cases hat : d.pc with
  | looping =>
    rw [upcoming_of_looping hat] at hdecoded
    unfold play
    rw [hat]
    simp only
    split
    · next tone note rest hnotes =>
      split
      · exact ⟨_, rfl⟩
      · obtain ⟨x, hx⟩ := hdecoded (sound d.song tone note) (by simp [sounds_drop hnotes])
        rw [hx]
        cases x <;> exact ⟨_, rfl⟩
    · exact ⟨_, rfl⟩
  | entered | resting _ | beeping _ _ _ | leaving =>
    unfold play
    rw [hat]
    exact ⟨_, rfl⟩
  | returned => exact absurd hat hpc

/-- The steps to the end of a sound. -/
def stage : Pc → Nat
  | .beeping _ _ .clear => 9
  | .beeping _ _ .range => 8
  | .beeping _ _ .data => 7
  | .beeping _ _ .on => 6
  | .beeping _ _ .sleep => 5
  | .beeping _ _ .off => 4
  | .resting _ => 4
  | .entered => 3
  | .looping => 2
  | .leaving => 1
  | .returned => 0

def rank (d : Playback) : Nat := 9 * (upcoming d).length + stage d.pc

theorem rank_play (h : play d = some d') : rank d' < rank d := by
  cases play_cases h with
  | entered hpc hsame => simp [rank, hsame, stage, hpc]
  | ended hpc _ hsame => simp [rank, hsame, stage, hpc]
  | stopped hpc _ _ hsame => simp [rank, hsame, stage, hpc]
  | rest msec hpc _ hhead =>
    simp only [rank, hhead, stage, hpc, List.length_cons]
    omega
  | note freq msec hpc _ hhead =>
    simp only [rank, hhead, stage, hpc, List.length_cons]
    omega
  | rested msec hpc hsame => simp [rank, hsame, stage, hpc]
  | beeping freq msec pc hpc hsame =>
    rw [rank, rank, hsame, hpc]
    cases pc <;> simp [beep, stage]
  | left hpc hsame => simp [rank, hsame, stage, hpc]

/-! ### What every step keeps -/

/-- The PWM is silent wherever it is not sounding a note. Before the first note it may be in
    any state, and a note comes then. -/
def Quiet (d : Playback) : Prop :=
  match d.pc with
  | .entered => ∃ freq msec rest, upcoming d = .ok (.beep freq msec) :: rest
  | .looping => d.ctl = 0x80 ∨ ∃ freq msec rest, upcoming d = .ok (.beep freq msec) :: rest
  | .resting _ => d.ctl = 0x80
  | .beeping _ _ _ => True
  | .leaving => d.song = .tetris ∨ d.ctl = 0x80
  | .returned => d.ctl = 0x80

/-- Behind the loop nothing is to come, unless the playback was stopped. -/
def Ended (d : Playback) : Prop :=
  d.pc = .leaving ∨ d.pc = .returned → upcoming d = [] ∨ d.song = .tetris ∧ d.g_stop ≠ 0

structure Inv (d : Playback) : Prop where
  decoded : ∀ r ∈ upcoming d, ∃ x, r = .ok x
  quiet : Quiet d
  ended : Ended d

/-- A playback that was just called, with whatever the flag and the PWM were left at. -/
def begun (song : Song) (g_stop : Int) (ctl rng1 dat1 : Nat) : Playback :=
  { song := song, g_stop := g_stop, ctl := ctl, rng1 := rng1, dat1 := dat1 }

theorem inv_begun (song : Song) (g_stop : Int) (ctl rng1 dat1 : Nat) :
    Inv (begun song g_stop ctl rng1 dat1) where
  decoded := sounds_ok song
  quiet := sounds_head song
  ended := by
    rintro (h | h) <;> cases h

theorem inv_play (hd : Inv d) (h : play d = some d') : Inv d' := by
  have hquiet := hd.quiet
  unfold Quiet at hquiet
  cases play_cases h with
  | entered hpc hsame =>
    rw [hpc] at hquiet
    exact ⟨hsame.symm ▸ hd.decoded, .inr (hsame.symm ▸ hquiet), by rintro (h | h) <;> cases h⟩
  | ended hpc hend hsame =>
    rw [hpc, hend] at hquiet
    refine ⟨hsame.symm ▸ hd.decoded, .inr ?_, fun _ => .inl (hsame.trans hend)⟩
    rcases hquiet with hsilent | ⟨_, _, _, hhead⟩
    · exact hsilent
    · exact absurd hhead.symm (List.cons_ne_nil _ _)
  | stopped hpc hsong hstop hsame =>
    exact ⟨hsame.symm ▸ hd.decoded, .inl hsong, fun _ => .inr ⟨hsong, hstop⟩⟩
  | rest msec hpc htest hhead =>
    rw [hpc, hhead] at hquiet
    refine ⟨fun r hr => hd.decoded r (hhead ▸ List.mem_cons_of_mem _ hr), ?_, ?_⟩
    · rcases hquiet with hsilent | ⟨_, _, _, hbeep⟩
      · exact hsilent
      · cases hbeep
    · rintro (h | h) <;> cases h
  | note freq msec hpc htest hhead =>
    refine ⟨fun r hr => hd.decoded r (hhead ▸ List.mem_cons_of_mem _ hr), trivial, ?_⟩
    rintro (h | h) <;> cases h
  | rested msec hpc hsame =>
    rw [hpc] at hquiet
    exact ⟨hsame.symm ▸ hd.decoded, .inl hquiet, by rintro (h | h) <;> cases h⟩
  | beeping freq msec pc hpc hsame =>
    refine ⟨hsame.symm ▸ hd.decoded, ?_, ?_⟩
    · cases pc with
      | off => exact .inl rfl
      | clear | range | data | on | sleep => trivial
    · cases pc <;> rintro (h | h) <;> cases h
  | left hpc hsame =>
    rw [hpc] at hquiet
    refine ⟨hsame.symm ▸ hd.decoded, ?_, fun _ => hsame.symm ▸ hd.ended (.inl hpc)⟩
    show (if d.song = .tetris then 0x80 else d.ctl) = 0x80
    split_ifs with hsong
    · rfl
    · exact hquiet.resolve_left hsong

theorem quiet_silence (n : Nat) (h : Quiet d) :
    Quiet { d with ctl := 0x80, silencing := n } := by
  obtain ⟨song, pc, i, g_stop, ctl, rng1, dat1, silencing⟩ := d
  cases pc with
  | entered => exact h
  | looping => exact .inl rfl
  | resting msec => rfl
  | beeping freq msec pc => trivial
  | leaving => exact .inr rfl
  | returned => rfl

theorem inv_step {e : Event} (hd : Inv d) (h : step d e = some d') : Inv d' := by
  cases e with
  | play => exact inv_play hd h
  | stop =>
    cases h
    refine ⟨hd.decoded, hd.quiet, ?_⟩
    intro hpc
    exact (hd.ended hpc).imp_right fun hstopped => ⟨hstopped.1, Int.one_ne_zero⟩
  | silence =>
    simp only [step] at h
    split_ifs at h
    cases h
    exact ⟨hd.decoded, quiet_silence _ hd.quiet, hd.ended⟩

/-- **A playback returns**, and its own steps lead there from every state. -/
theorem exists_returned (hd : Inv d) :
    ∃ n d', Machine.run step d (List.replicate n .play) = some d' ∧ d'.pc = .returned := by
  refine Machine.reach (P := Inv) (Q := fun d => d.pc = .returned) rank Event.play ?_ hd
  intro d hd
  by_cases hpc : d.pc = .returned
  · exact .inl hpc
  · obtain ⟨d', hplay⟩ := exists_play hd.decoded hpc
    exact .inr ⟨d', hplay, inv_play hd hplay, rank_play hplay⟩

/-! ### A stop that is heard -/

/-- The place of the note in progress. It counts from the moment the loop has taken it on,
    in Tetris after the test of the flag, which is before it is switched on. -/
def inProgress (d : Playback) : Option Nat :=
  match d.pc with
  | .beeping _ _ _ => some d.i
  | _ => none

def noteOn (d : Playback) (e : Event) (places : List Nat) : List Nat :=
  match e, d.pc with
  | .play, .beeping _ _ .on => places ++ [d.i]
  | _, _ => places

/-- The places of the notes that are switched on along a run. -/
def switchedOn (d : Playback) (es : List Event) : List Nat := Machine.noted step noteOn d [] es

/-- The stop works: from here on, whatever happens after it, no note is switched on but the
    one in progress, and the PWM is silent once the playback has returned. -/
def StopsPlayback (d : Playback) : Prop :=
  ∀ es d', Machine.run step d (.stop :: es) = some d' →
    (∀ i ∈ switchedOn d (.stop :: es), inProgress d = some i) ∧
      (d'.pc = .returned → d'.ctl = 0x80)

/-- The playback tests the flag and does not clear it any more, or there is nothing left to
    stop. -/
def Stoppable (d : Playback) : Prop := d.song = .tetris ∧ d.pc ≠ .entered ∨ ¬ NotesLeft d

/-- What holds after a stop that is heard, with the note that was in progress then. -/
structure Stopped (current : Option Nat) (d : Playback) : Prop where
  inv : Inv d
  current : ∀ i, inProgress d = some i → current = some i
  heard : d.song = .tetris ∧ d.pc ≠ .entered ∧ d.g_stop ≠ 0 ∨ ¬ NotesLeft d

theorem stopped_play {current : Option Nat} (hd : Stopped current d) (h : play d = some d') :
    Stopped current d' := by
  refine ⟨inv_play hd.inv h, ?_, ?_⟩
  · intro i hi
    cases play_cases h with
    | beeping freq msec pc hpc _ =>
      apply hd.current
      rw [inProgress, hpc]
      cases pc with
      | off => cases hi
      | clear | range | data | on | sleep => exact hi
    | note freq msec hpc htest hhead =>
      rcases hd.heard with ⟨hsong, _, hstop⟩ | hnone
      · exact absurd ⟨hsong, hstop⟩ htest
      · exact absurd ⟨freq, msec, hhead ▸ List.mem_cons_self⟩ hnone
    | entered _ _ | ended _ _ _ | stopped _ _ _ _ | rest _ _ _ _ | rested _ _ _ | left _ _ =>
      cases hi
  · rcases hd.heard with ⟨hsong, hpc, hstop⟩ | hnone
    · left
      cases play_cases h with
      | entered hentered _ => exact absurd hentered hpc
      | beeping freq msec pc _ _ => cases pc <;> exact ⟨hsong, nofun, hstop⟩
      | ended _ _ _ | stopped _ _ _ _ | rest _ _ _ _ | note _ _ _ _ _ | rested _ _ _ | left _ _ =>
        exact ⟨hsong, nofun, hstop⟩
    · right
      rintro ⟨freq, msec, hmem⟩
      apply hnone
      cases play_cases h with
      | rest msec' _ _ hhead => exact ⟨freq, msec, hhead ▸ List.mem_cons_of_mem _ hmem⟩
      | note freq' msec' _ _ hhead => exact ⟨freq, msec, hhead ▸ List.mem_cons_of_mem _ hmem⟩
      | entered _ hsame | ended _ _ hsame | stopped _ _ _ hsame | rested _ _ hsame
        | beeping _ _ _ _ hsame | left _ hsame => exact ⟨freq, msec, hsame ▸ hmem⟩

theorem stopped_step {current : Option Nat} {e : Event} (hd : Stopped current d)
    (h : step d e = some d') : Stopped current d' := by
  cases e with
  | play => exact stopped_play hd h
  | stop =>
    cases h
    exact ⟨inv_step (e := .stop) hd.inv rfl, hd.current, hd.heard.imp_left fun hheard =>
      ⟨hheard.1, hheard.2.1, Int.one_ne_zero⟩⟩
  | silence =>
    have hinv := inv_step hd.inv h
    simp only [step] at h
    split_ifs at h
    cases h
    exact ⟨hinv, hd.current, hd.heard⟩

theorem mem_noteOn {e : Event} {places : List Nat} {i : Nat} (hi : i ∈ noteOn d e places) :
    i ∈ places ∨ inProgress d = some i := by
  unfold noteOn at hi
  split at hi
  · next hpc =>
    rcases List.mem_append.mp hi with hold | hnew
    · exact .inl hold
    · right
      rw [inProgress, hpc, List.mem_singleton.mp hnew]
  · exact .inl hi

/-- A stop that is heard works. -/
theorem Stoppable.stops (hd : Inv d) (h : Stoppable d) : StopsPlayback d := by
  intro es d' hrun
  obtain ⟨d₁, hd₁, hrest⟩ := Machine.run_cons_eq_some.mp hrun
  cases hd₁
  have hstopped : Stopped (inProgress d) { d with g_stop := 1, silencing := d.silencing + 1 } :=
    ⟨inv_step (e := .stop) hd rfl, fun _ hi => hi,
      h.imp_left fun hheard => ⟨hheard.1, hheard.2, Int.one_ne_zero⟩⟩
  have hstep : ∀ d₂ places e d₃,
      (Stopped (inProgress d) d₂ ∧ ∀ i ∈ places, inProgress d = some i) → step d₂ e = some d₃ →
      Stopped (inProgress d) d₃ ∧ ∀ i ∈ noteOn d₂ e places, inProgress d = some i := by
    rintro d₂ places e d₃ ⟨hd₂, hplaces⟩ hnext
    refine ⟨stopped_step hd₂ hnext, ?_⟩
    intro i hi
    rcases mem_noteOn hi with hold | hnew
    · exact hplaces i hold
    · exact hd₂.current i hnew
  have hkept := Machine.run_noted hstep ⟨hstopped, fun i hi => absurd hi List.not_mem_nil⟩ hrest
  refine ⟨hkept.2, ?_⟩
  intro hpc
  have hquiet := hkept.1.inv.quiet
  rw [Quiet, hpc] at hquiet
  exact hquiet

/-! ### A stop that is lost -/

/-- The flag is not tested, or is clear, or is cleared before it is tested. -/
def Deaf (d : Playback) : Prop := d.song ≠ .tetris ∨ d.pc = .entered ∨ d.g_stop = 0

/-- The next step of the playback switches a note on, one that is at `k` or behind. -/
def SwitchesOn (k : Nat) (d : Playback) : Prop :=
  ∃ freq msec, d.pc = .beeping freq msec .on ∧ k ≤ d.i

/-- A note at `k` or behind is taken and not yet switched on. -/
def Taken (k : Nat) (d : Playback) : Prop :=
  ∃ freq msec pc, d.pc = .beeping freq msec pc ∧ 6 ≤ stage d.pc ∧ k ≤ d.i

/-- A deaf playback has a note to switch on that is at `k` or behind. -/
structure Pending (k : Nat) (d : Playback) : Prop where
  inv : Inv d
  deaf : Deaf d
  note : Taken k d ∨ NotesLeft d ∧ k ≤ next d

theorem deaf_play (hd : Deaf d) (h : play d = some d') : Deaf d' := by
  cases play_cases h with
  | entered hpc _ =>
    rcases hd with hsong | _ | hclear
    · exact .inl hsong
    · by_cases hsong : d.song = .tetris
      · exact .inr (.inr (if_pos hsong))
      · exact .inl hsong
    · right
      right
      show (if d.song = .tetris then 0 else d.g_stop) = 0
      rw [hclear, ite_self]
  | beeping freq msec pc hpc _ =>
    have hkept : d.song ≠ .tetris ∨ d.g_stop = 0 :=
      hd.imp_right fun h => h.resolve_left (by rw [hpc]; exact nofun)
    cases pc <;> exact hkept.imp_right .inr
  | ended hpc _ _ | stopped hpc _ _ _ | rest _ hpc _ _ | note _ _ hpc _ _ | rested _ hpc _
    | left hpc _ =>
    have hkept : d.song ≠ .tetris ∨ d.g_stop = 0 :=
      hd.imp_right fun h => h.resolve_left (by rw [hpc]; exact nofun)
    exact hkept.imp_right .inr

theorem Pending.not_behind {k : Nat} (hd : Pending k d) : d.pc ≠ .leaving ∧ d.pc ≠ .returned := by
  rw [← not_or]
  intro hpc
  rcases hd.note with ⟨freq, msec, pc, hbeeping, _⟩ | ⟨⟨freq, msec, hmem⟩, _⟩
  · rw [hbeeping] at hpc
    rcases hpc with h | h <;> cases h
  · rcases hd.inv.ended hpc with hnil | ⟨hsong, hstop⟩
    · rw [hnil] at hmem
      exact absurd hmem List.not_mem_nil
    · rcases hd.deaf with hother | hentered | hclear
      · exact hother hsong
      · rw [hentered] at hpc
        rcases hpc with h | h <;> cases h
      · exact hstop hclear

/-- Between two sounds, a pending note is one that is still to come. -/
theorem Pending.notesLeft {k : Nat} (hd : Pending k d)
    (hpc : ∀ freq msec pc, d.pc ≠ .beeping freq msec pc) : NotesLeft d ∧ k ≤ next d := by
  rcases hd.note with ⟨freq, msec, pc, hbeeping, _⟩ | hleft
  · exact absurd hbeeping (hpc freq msec pc)
  · exact hleft

/-- A pending note stays pending until it is switched on. -/
theorem note_play {k : Nat} (hd : Pending k d) (hon : ¬ SwitchesOn k d) (h : play d = some d') :
    Taken k d' ∨ NotesLeft d' ∧ k ≤ next d' := by
  cases play_cases h with
  | beeping freq msec pc hpc hsame =>
    rcases hd.note with ⟨freq', msec', pc', hpc', hstage, hk⟩ | ⟨⟨freq', msec', hmem⟩, hk⟩
    · rw [hpc] at hstage
      left
      cases pc with
      | clear => exact ⟨freq, msec, _, rfl, by simp [beep, stage], hk⟩
      | range => exact ⟨freq, msec, _, rfl, by simp [beep, stage], hk⟩
      | data => exact ⟨freq, msec, _, rfl, by simp [beep, stage], hk⟩
      | on => exact absurd ⟨freq, msec, hpc, hk⟩ hon
      | sleep | off => exact absurd hstage (by simp [stage])
    · refine .inr ⟨⟨freq', msec', hsame.symm ▸ hmem⟩, ?_⟩
      have hnext : next d = d.i + 2 := by rw [next, hpc]
      rw [hnext] at hk
      cases pc <;> exact hk
  | entered hpc hsame =>
    obtain ⟨⟨freq, msec, hmem⟩, hk⟩ := hd.notesLeft (by simp [hpc])
    rw [next, hpc] at hk
    exact .inr ⟨⟨freq, msec, hsame.symm ▸ hmem⟩, hk⟩
  | ended hpc hend _ =>
    obtain ⟨⟨freq, msec, hmem⟩, -⟩ := hd.notesLeft (by simp [hpc])
    exact absurd (hend ▸ hmem) List.not_mem_nil
  | stopped hpc hsong hstop _ =>
    rcases hd.deaf with hother | hentered | hclear
    · exact absurd hsong hother
    · cases hpc.symm.trans hentered
    · exact absurd hclear hstop
  | rest msec hpc _ hhead =>
    obtain ⟨⟨freq, msec', hmem⟩, hk⟩ := hd.notesLeft (by simp [hpc])
    rw [hhead] at hmem
    rw [next, hpc] at hk
    rcases List.mem_cons.mp hmem with hfirst | hlater
    · cases hfirst
    · exact .inr ⟨⟨freq, msec', hlater⟩, Nat.le_add_right_of_le hk⟩
  | note freq msec hpc _ _ =>
    obtain ⟨-, hk⟩ := hd.notesLeft (by simp [hpc])
    rw [next, hpc] at hk
    exact .inl ⟨freq, msec, .clear, rfl, by simp [stage], hk⟩
  | rested msec hpc hsame =>
    obtain ⟨⟨freq, msec', hmem⟩, hk⟩ := hd.notesLeft (by simp [hpc])
    rw [next, hpc] at hk
    exact .inr ⟨⟨freq, msec', hsame.symm ▸ hmem⟩, hk⟩
  | left hpc _ => exact absurd hpc hd.not_behind.1

/-- A note that is pending is switched on next, or comes closer. -/
theorem pending_play {k : Nat} (hd : Pending k d) :
    SwitchesOn k d ∨ ∃ d', play d = some d' ∧ Pending k d' ∧ rank d' < rank d := by
  by_cases hon : SwitchesOn k d
  · exact .inl hon
  · obtain ⟨d', hplay⟩ := exists_play hd.inv.decoded hd.not_behind.2
    have hpending : Pending k d' :=
      ⟨inv_play hd.inv hplay, deaf_play hd.deaf hplay, note_play hd hon hplay⟩
    exact .inr ⟨d', hplay, hpending, rank_play hplay⟩

theorem lt_next {i : Nat} (h : inProgress d = some i) : i < next d := by
  unfold inProgress at h
  split at h
  · next hpc =>
    cases h
    have hnext : next d = d.i + 2 := by simp only [next, hpc]
    omega
  · cases h

/-- A stop that is not heard does not work: the playback goes on to the next note. -/
theorem not_stops (hd : Inv d) (hdeaf : d.song ≠ .tetris ∨ d.pc = .entered) (hleft : NotesLeft d) :
    ¬ StopsPlayback d := by
  have hpending : Pending (next d) { d with g_stop := 1, silencing := d.silencing + 1 } :=
    ⟨inv_step (e := .stop) hd rfl, hdeaf.imp_right .inl, .inr ⟨hleft, Nat.le_refl _⟩⟩
  have hcloser : ∀ d₁, Pending (next d) d₁ → SwitchesOn (next d) d₁ ∨
      ∃ d₂, step d₁ .play = some d₂ ∧ Pending (next d) d₂ ∧ rank d₂ < rank d₁ :=
    fun _ hd₁ => pending_play hd₁
  obtain ⟨n, d₁, hrun, freq, msec, hpc, hk⟩ :=
    Machine.reach rank Event.play hcloser hpending
  have hstop : Machine.run step d (.stop :: List.replicate n .play) = some d₁ :=
    Machine.run_cons_eq_some.mpr ⟨_, rfl, hrun⟩
  have hlast : step d₁ .play = some (beep freq msec d₁ .on) := by
    simp only [step, play, hpc]
  have hall : Machine.run step d (.stop :: (List.replicate n .play ++ [.play])) =
      some (beep freq msec d₁ .on) := by
    rw [← List.cons_append]
    exact Machine.run_append_eq_some.mpr ⟨d₁, hstop, (Machine.run_singleton d₁ _).trans hlast⟩
  -- the last of these steps switches on a note that is not the one in progress
  have hnote : d₁.i ∈ switchedOn d (.stop :: (List.replicate n .play ++ [.play])) := by
    rw [← List.cons_append, switchedOn, Machine.noted_append hstop]
    simp [Machine.noted, hlast, noteOn, hpc]
  intro hstops
  have hplace := (hstops _ _ hall).1 _ hnote
  exact absurd (lt_next hplace) (Nat.not_lt.mpr hk)

/-- **A stop works exactly when it is heard.** Whatever state a playback is in, a stop issued
    there keeps every further note from being switched on if the song is Tetris and has
    cleared the flag already, or has no more notes; otherwise the playback goes on. -/
theorem stopsPlayback_iff {song : Song} {g_stop : Int} {ctl rng1 dat1 : Nat} {es : List Event}
    (hrun : Machine.run step (begun song g_stop ctl rng1 dat1) es = some d) :
    StopsPlayback d ↔ Stoppable d := by
  have hd : Inv d := Machine.run_invariant (I := Inv) (fun _ _ _ hd h => inv_step hd h)
    (inv_begun song g_stop ctl rng1 dat1) hrun
  constructor
  · intro hstops
    by_contra hnot
    have hdeaf : d.song ≠ .tetris ∨ d.pc = .entered := by
      by_contra h
      exact hnot (.inl ⟨not_not.mp fun hsong => h (.inl hsong), fun hpc => h (.inr hpc)⟩)
    exact not_stops hd hdeaf (not_not.mp fun hnone => hnot (.inr hnone)) hstops
  · exact fun h => Stoppable.stops hd h

/-- Tetris at the head of its loop, with the flag cleared. -/
theorem stopsPlayback_tetris : StopsPlayback { begun .tetris 0 0x80 0 0 with pc := .looping } := by
  have hrun : Machine.run step (begun .tetris 1 0x80 0 0) [.play] =
      some { begun .tetris 0 0x80 0 0 with pc := .looping } := rfl
  exact (stopsPlayback_iff hrun).mpr (.inl ⟨rfl, nofun⟩)

/-- Crazy Arcade at the head of its loop: five steps after the stop the first note sounds. -/
theorem not_stopsPlayback_crazy :
    ∃ d, Machine.run step (begun .crazy 0 0x80 0 0) [.play] = some d ∧ ¬ StopsPlayback d := by
  refine ⟨_, rfl, ?_⟩
  intro hstops
  have hrun : (Machine.run step (begun .crazy 0 0x80 0 0)
      [.play, .stop, .play, .play, .play, .play, .play]).isSome = true := by decide
  obtain ⟨d', hd'⟩ := Option.isSome_iff_exists.mp hrun
  have hplace := (hstops [.play, .play, .play, .play, .play] d' hd').1 0 (by decide)
  cases hplace

end AlarmClock.BuzzerStop
