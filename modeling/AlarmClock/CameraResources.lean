import AlarmClock.CameraDismiss
import AlarmClock.Lib.Ledger

/-!
# What the camera thread opens, and what it gives back

`run` of the camera thread with its system calls: the files that it opens and closes, the
buffers that it maps and unmaps, the commands for the Ethernet link, and the signals before
the stream. A thread that gets as far as streaming gives everything back; of the two ways
out before that, neither closes the light sensor and its LED, and a camera that fails between
two buffers keeps the ones already mapped.
-/

namespace AlarmClock

namespace CameraResources

open AlarmCameraThread Ledger

def CAPTURE_MAX_BUFFER : Nat := 4

def V4L2_CAP_VIDEO_CAPTURE : UInt32 := 0x00000001
def V4L2_CAP_STREAMING : UInt32 := 0x04000000

structure BufInfo where
  index : Nat
  length : Nat := 0
  start : Option Nat := none
deriving DecidableEq, Repr

structure VideoDev where
  fd : Int := -1
  cap_width : Int := 320
  cap_height : Int := 240
  buff_info : List BufInfo := (List.range CAPTURE_MAX_BUFFER).map fun i => { index := i }
  numbuffer : Nat := 0
deriving DecidableEq, Repr

/-- The members that `run` works on, and a record of what it asked the system for. The
    counter of the frames is the static one of `captureFrame`. -/
structure Camera where
  videodev : VideoDev := {}
  i2cFd : Int := -1
  ledFd : Int := -1
  running : Bool := false
  total : Nat := 0
  files : List (Entry Int) := []
  mappings : List (Entry (Nat × Nat)) := []
  links : List Bool := []
  signals : List Signal := []
deriving DecidableEq, Repr

/-- What the system calls return: a failed call returns nothing. The driver never grants
    more buffers than were asked for. -/
structure Outcomes where
  openFile : QString → Option Nat
  querycap : Option UInt32
  sFmt : Option (Int × Int)
  reqbufs : Option Nat
  querybuf : Nat → Option Nat
  mmap : Nat → Option Nat
  qbuf : Nat → Bool
  streamon : Bool
  reqbufs_le : ∀ n ∈ reqbufs, n ≤ CAPTURE_MAX_BUFFER

def setEthernetLink (up : Bool) (c : Camera) : Camera := { c with links := c.links ++ [up] }

def emit (signal : Signal) (c : Camera) : Camera := { c with signals := c.signals ++ [signal] }

/-- `open`: the descriptor, or -1. -/
def openFd (o : Outcomes) (path : QString) : Int := (o.openFile path).elim (-1) fun fd => fd

def opened (fd : Int) (c : Camera) : Camera := { c with files := c.files ++ [.acquired fd] }

def close (fd : Int) (c : Camera) : Camera := { c with files := c.files ++ [.released fd] }

def bh1750 : QString := "/dev/bh1750".toList

def LED_DEV : QString := "/dev/mydev".toList

def initBH1750 (o : Outcomes) (c : Camera) : Camera × Bool :=
  let c := { c with i2cFd := openFd o bh1750 }
  if c.i2cFd < 0 then (c, false)
  else
    let c := opened c.i2cFd c
    let c := { c with ledFd := openFd o LED_DEV }
    if c.ledFd < 0 then (c, true) else (opened c.ledFd c, true)

def candidates : List QString := ["/dev/video7".toList, "/dev/video4".toList]

/-- The loop over the candidates. -/
def openCandidate (o : Outcomes) : Option Nat := candidates.findSome? o.openFile

def setBuffer (i : Nat) (b : BufInfo) (c : Camera) : Camera :=
  { c with videodev := { c.videodev with buff_info := c.videodev.buff_info.set i b } }

/-- The `i`-th buffer after an `mmap` that succeeds. -/
def mapBuffer (i length start : Nat) (c : Camera) : Camera :=
  { setBuffer i { index := i, length := length, start := some start } c with
    mappings := c.mappings ++ [.acquired (start, length)] }

/-- The loop over the buffers, from the `i`-th on, with QUERYBUF and `mmap`. -/
def mapBuffers (o : Outcomes) : Nat → Nat → Camera → Camera × Bool
  | 0, _, c => (c, true)
  | n + 1, i, c =>
    match o.querybuf i with
    | none => (c, false)
    | some length =>
      match o.mmap i with
      | none => (setBuffer i { index := i, length := length } c, false)
      | some start => mapBuffers o n (i + 1) (mapBuffer i length start c)

/-- The label `err` of `initCapture`. -/
def initFailed (fd : Int) (c : Camera) : Camera × Int :=
  let c := close fd c
  ({ c with videodev := { c.videodev with fd := -1 } }, -1)

/-- `initCapture` from the label `videodev_init` on. -/
def videodev_init (o : Outcomes) (fd : Int) (c : Camera) : Camera × Int :=
  let c := { c with videodev := { c.videodev with fd := fd } }
  match o.querycap with
  | none => initFailed fd c
  | some capabilities =>
    if capabilities &&& V4L2_CAP_VIDEO_CAPTURE = 0 ∨ capabilities &&& V4L2_CAP_STREAMING = 0 then
      initFailed fd c
    else
      match o.sFmt with
      | none => initFailed fd c
      | some (width, height) =>
        let c := { c with videodev := { c.videodev with cap_width := width, cap_height := height } }
        match o.reqbufs with
        | none => initFailed fd c
        | some count =>
          let c := { c with videodev := { c.videodev with numbuffer := count } }
          let (c, mapped) := mapBuffers o count 0 c
          if mapped then (c, 0) else initFailed fd c

def initCapture (o : Outcomes) (c : Camera) : Camera × Int :=
  if c.videodev.fd ≥ 0 then (c, 0)
  else
    match openCandidate o with
    | none => (c, -1)
    | some fd => videodev_init o fd (opened fd c)

def startCapture (o : Outcomes) (c : Camera) : Int :=
  if (List.range c.videodev.numbuffer).all o.qbuf then if o.streamon then 0 else -1 else -1

/-- The result of `select`, and of DQBUF where it comes to that. -/
def captureFrame (select : SelectResult) (dqbuf : DqbufResult) (c : Camera) : Camera × Int :=
  match select with
  | .timeout => (c, 0)
  | .interrupted => (c, 0)
  | .error => (c, -1)
  | .readable =>
    match dqbuf with
    | .again => (c, 0)
    | .error => (c, -1)
    | .frame => ({ c with total := c.total + 1 }, 0)

/-- The loop of `run`. It ends at a call that fails, or when the dialog asks for it, which is
    where the list ends. -/
def captureLoop : List (SelectResult × DqbufResult) → Camera → Camera
  | [], c => c
  | (select, dqbuf) :: frames, c =>
    let (c, r) := captureFrame select dqbuf c
    if r < 0 then c else captureLoop frames c

/-- A buffer, unmapped if it was mapped. -/
def unmapped (b : BufInfo) : BufInfo :=
  if b.start.isSome then { b with start := none, length := 0 } else b

/-- The mapping of a buffer. -/
def mapping (b : BufInfo) : Option (Nat × Nat) := b.start.map fun start => (start, b.length)

def closeCapture (c : Camera) : Camera :=
  let buffers := c.videodev.buff_info
  let c :=
    { c with
      videodev := { c.videodev with buff_info := buffers.map unmapped }
      mappings := c.mappings ++ (buffers.filterMap mapping).map .released }
  if c.videodev.fd ≥ 0 then
    let c := close c.videodev.fd c
    { c with videodev := { c.videodev with fd := -1 } }
  else c

def closeBH1750 (c : Camera) : Camera :=
  let c := if c.ledFd ≥ 0 then { close c.ledFd c with ledFd := -1 } else c
  if c.i2cFd ≥ 0 then { close c.i2cFd c with i2cFd := -1 } else c

/-- `run`; STREAMOFF after the loop changes nothing here. -/
def run (o : Outcomes) (frames : List (SelectResult × DqbufResult)) (c : Camera) : Camera :=
  let c := setEthernetLink false c
  let (c, _) := initBH1750 o c
  let (c, r) := initCapture o c
  if r < 0 then
    setEthernetLink true
      (emit (.cameraError "Camera init failed (/dev/video0, /dev/video1)".toList) c)
  else if startCapture o c < 0 then
    let c := emit (.cameraError "Camera streaming start failed".toList) c
    setEthernetLink true (closeCapture c)
  else
    let c := emit (.statusUpdate "Camera streaming...".toList) c
    let c := captureLoop frames { c with running := true }
    setEthernetLink true (closeBH1750 (closeCapture c))

/-! ### What is held -/

def heldFd (fd : Int) : List Int := if fd < 0 then [] else [fd]

def heldFiles (c : Camera) : List Int := heldFd c.i2cFd ++ heldFd c.ledFd ++ heldFd c.videodev.fd

def heldMappings (c : Camera) : List (Nat × Nat) := c.videodev.buff_info.filterMap mapping

/-- The members hold what was opened and not closed, and what was mapped and not unmapped. -/
structure Kept (c : Camera) : Prop where
  files : Balanced c.files (heldFiles c)
  mappings : Balanced c.mappings (heldMappings c)

variable {o : Outcomes} {c : Camera}

theorem heldFd_eq_nil {fd : Int} : heldFd fd = [] ↔ fd < 0 := by
  unfold heldFd
  split_ifs with h <;> simp [h]

theorem heldFd_of_nonneg {fd : Int} (h : 0 ≤ fd) : heldFd fd = [fd] := if_neg (Int.not_lt.mpr h)

theorem openFd_neg (path : QString) : openFd o path < 0 ↔ o.openFile path = none := by
  unfold openFd
  cases o.openFile path with
  | none => simp
  | some fd => simp

/-! ### The light sensor -/

theorem kept_openI2c (hkept : Kept c) (hfree : c.i2cFd < 0) {fd : Int} (hfd : 0 ≤ fd) :
    Kept (opened fd { c with i2cFd := fd }) := by
  refine ⟨hkept.files.acquire ?_, hkept.mappings⟩
  simp [heldFiles, opened, heldFd_of_nonneg hfd, heldFd_eq_nil.mpr hfree]

theorem kept_openLed (hkept : Kept c) (hfree : c.ledFd < 0) {fd : Int} (hfd : 0 ≤ fd) :
    Kept (opened fd { c with ledFd := fd }) := by
  refine ⟨hkept.files.acquire ?_, hkept.mappings⟩
  simp only [heldFiles, opened, heldFd_of_nonneg hfd, heldFd_eq_nil.mpr hfree, List.append_nil,
    List.append_assoc]
  exact List.perm_middle

theorem kept_openVideo (hkept : Kept c) (hfree : c.videodev.fd < 0) {fd : Int} (hfd : 0 ≤ fd) :
    Kept (opened fd { c with videodev := { c.videodev with fd := fd } }) := by
  refine ⟨hkept.files.acquire ?_, hkept.mappings⟩
  simp only [heldFiles, opened, heldFd_of_nonneg hfd, heldFd_eq_nil.mpr hfree, List.append_nil]
  exact List.perm_append_comm

theorem neg_one_le_openFd (o : Outcomes) (path : QString) : -1 ≤ openFd o path := by
  unfold openFd
  cases o.openFile path with
  | none => exact Int.le_refl _
  | some fd => exact Int.le_trans (by decide) (Int.natCast_nonneg fd)

/-- `initBH1750` touches its two members and the files, and keeps what it opens. Without the
    light sensor it opens nothing. -/
theorem initBH1750_spec (o : Outcomes) (hkept : Kept c) (hi2c : c.i2cFd < 0)
    (hled : c.ledFd = -1) :
    ∃ i2cFd ledFd files,
      (initBH1750 o c).1 = { c with i2cFd := i2cFd, ledFd := ledFd, files := files } ∧
      Kept (initBH1750 o c).1 ∧ -1 ≤ i2cFd ∧ -1 ≤ ledFd ∧
      (o.openFile bh1750 = none ↔ i2cFd < 0) ∧ (i2cFd < 0 → ledFd < 0) := by
  have hi2cFd := neg_one_le_openFd o bh1750
  have hledFd := neg_one_le_openFd o LED_DEV
  by_cases hsensor : openFd o bh1750 < 0
  · have hresult : initBH1750 o c = ({ c with i2cFd := openFd o bh1750 }, false) := by
      simp [initBH1750, hsensor]
    rw [hresult]
    refine ⟨_, c.ledFd, c.files, rfl, ?_, hi2cFd, Int.le_of_eq hled.symm,
      (openFd_neg _).symm, ?_⟩
    · refine ⟨?_, hkept.mappings⟩
      have hsame := hkept.files
      simp only [heldFiles, heldFd_eq_nil.mpr hi2c] at hsame
      simpa only [heldFiles, heldFd_eq_nil.mpr hsensor] using hsame
    · intro _
      rw [hled]
      decide
  · have hopened := kept_openI2c hkept hi2c (Int.not_lt.mp hsensor)
    have hled' : c.ledFd < 0 := by
      rw [hled]
      decide
    by_cases hlight : openFd o LED_DEV < 0
    · have hresult : initBH1750 o c =
          ({ opened (openFd o bh1750) { c with i2cFd := openFd o bh1750 } with
            ledFd := openFd o LED_DEV }, true) := by
        simp [initBH1750, hsensor, hlight]
      rw [hresult]
      refine ⟨_, _, _, rfl, ?_, hi2cFd, hledFd, (openFd_neg _).symm, fun h => absurd h hsensor⟩
      refine ⟨?_, hopened.mappings⟩
      have hsame := hopened.files
      simp only [heldFiles, opened, heldFd_eq_nil.mpr hled'] at hsame
      simpa only [heldFiles, opened, heldFd_eq_nil.mpr hlight] using hsame
    · have hresult : initBH1750 o c =
          (opened (openFd o LED_DEV)
            { opened (openFd o bh1750) { c with i2cFd := openFd o bh1750 } with
              ledFd := openFd o LED_DEV }, true) := by
        simp [initBH1750, hsensor, hlight]
      rw [hresult]
      refine ⟨_, _, _, rfl, ?_, hi2cFd, hledFd, (openFd_neg _).symm, fun h => absurd h hsensor⟩
      exact kept_openLed hopened hled' (Int.not_lt.mp hlight)

/-! ### The buffers -/

/-- QUERYBUF and `mmap` succeed for a buffer. -/
def Mappable (o : Outcomes) (i : Nat) : Prop := o.querybuf i ≠ none ∧ o.mmap i ≠ none

/-- The buffers from the `i`-th on are not mapped yet. -/
structure Unmapped (c : Camera) (i : Nat) : Prop where
  length : c.videodev.buff_info.length = CAPTURE_MAX_BUFFER
  free : ∀ k (hk : k < c.videodev.buff_info.length), i ≤ k →
    (c.videodev.buff_info[k]).start = none

theorem unmapped_mapBuffer {i : Nat} (h : Unmapped c i) (length start : Nat) :
    Unmapped (mapBuffer i length start c) (i + 1) where
  length := by
    simp only [mapBuffer, setBuffer, List.length_set]
    exact h.length
  free := by
    intro k hk hik
    simp only [mapBuffer, setBuffer, List.length_set] at hk
    simp only [mapBuffer, setBuffer]
    rw [List.getElem_set_ne (Nat.ne_of_lt hik)]
    exact h.free k hk (Nat.le_of_succ_le hik)

/-- A free buffer that is written holds what is written. -/
theorem heldMappings_setBuffer {i : Nat} (h : Unmapped c i) (hi : i < CAPTURE_MAX_BUFFER)
    (b : BufInfo) :
    (heldMappings (setBuffer i b c)).Perm ((mapping b).toList ++ heldMappings c) := by
  have hlength : i < c.videodev.buff_info.length := h.length.symm ▸ hi
  apply filterMap_set_perm hlength
  rw [mapping, h.free i hlength (Nat.le_refl i), Option.map_none]

theorem heldMappings_mapBuffer {i : Nat} (h : Unmapped c i) (hi : i < CAPTURE_MAX_BUFFER)
    (length start : Nat) :
    (heldMappings (mapBuffer i length start c)).Perm ((start, length) :: heldMappings c) :=
  heldMappings_setBuffer h hi _

theorem kept_mapBuffer {i : Nat} (h : Unmapped c i) (hi : i < CAPTURE_MAX_BUFFER)
    (length start : Nat) (hkept : Kept c) : Kept (mapBuffer i length start c) :=
  ⟨hkept.files, hkept.mappings.acquire (heldMappings_mapBuffer h hi length start)⟩

/-- The loop over the buffers touches the buffers and the mappings only. -/
theorem mapBuffers_frame (o : Outcomes) (n i : Nat) (c : Camera) :
    ∃ buffers mappings, (mapBuffers o n i c).1 =
      { c with
        videodev := { c.videodev with buff_info := buffers }
        mappings := mappings } := by
  induction n generalizing i c with
  | zero => exact ⟨_, _, rfl⟩
  | succ n ih =>
    cases hquery : o.querybuf i with
    | none => exact ⟨c.videodev.buff_info, c.mappings, by simp only [mapBuffers, hquery]⟩
    | some length =>
      cases hmmap : o.mmap i with
      | none =>
        refine ⟨c.videodev.buff_info.set i { index := i, length := length }, c.mappings, ?_⟩
        simp only [mapBuffers, hquery, hmmap, setBuffer]
      | some start =>
        obtain ⟨buffers, mappings, hrest⟩ := ih (i + 1) (mapBuffer i length start c)
        refine ⟨buffers, mappings, ?_⟩
        simp only [mapBuffers, hquery, hmmap]
        exact hrest

/-- **The loop over the buffers** keeps what it maps, ends well when every buffer can be
    mapped, and holds nothing more than before only when it does not map the first. -/
theorem mapBuffers_spec {n i : Nat} (hfree : Unmapped c i) (hn : i + n ≤ CAPTURE_MAX_BUFFER)
    (hkept : Kept c) :
    Kept (mapBuffers o n i c).1 ∧
      ((mapBuffers o n i c).2 = true ↔ ∀ k, i ≤ k → k < i + n → Mappable o k) ∧
      (heldMappings (mapBuffers o n i c).1 = [] ↔
        heldMappings c = [] ∧ (0 < n → ¬ Mappable o i)) := by
  induction n generalizing i c with
  | zero =>
    refine ⟨hkept, ?_, ?_⟩
    · exact ⟨fun _ k hik hk => absurd hk (Nat.not_lt.mpr hik), fun _ => rfl⟩
    · exact ⟨fun h => ⟨h, fun hpos => absurd hpos (Nat.lt_irrefl 0)⟩, fun h => h.1⟩
  | succ n ih =>
    have hi : i < CAPTURE_MAX_BUFFER := Nat.lt_of_lt_of_le (Nat.lt_add_of_pos_right n.succ_pos) hn
    have hfails : ¬ Mappable o i → ¬ ∀ k, i ≤ k → k < i + (n + 1) → Mappable o k :=
      fun hnot hall => hnot (hall i (Nat.le_refl i) (Nat.lt_add_of_pos_right n.succ_pos))
    cases hquery : o.querybuf i with
    | none =>
      have hnot : ¬ Mappable o i := fun h => h.1 hquery
      have hresult : mapBuffers o (n + 1) i c = (c, false) := by simp only [mapBuffers, hquery]
      rw [hresult]
      exact ⟨hkept, ⟨nofun, fun h => absurd h (hfails hnot)⟩,
        ⟨fun h => ⟨h, fun _ => hnot⟩, fun h => h.1⟩⟩
    | some length =>
      cases hmmap : o.mmap i with
      | none =>
        have hnot : ¬ Mappable o i := fun h => h.2 hmmap
        have hresult : mapBuffers o (n + 1) i c =
            (setBuffer i { index := i, length := length } c, false) := by
          simp only [mapBuffers, hquery, hmmap]
        have hheld := heldMappings_setBuffer hfree hi { index := i, length := length }
        rw [hresult]
        refine ⟨⟨hkept.files, hkept.mappings.perm hheld.symm⟩,
          ⟨nofun, fun h => absurd h (hfails hnot)⟩, ?_⟩
        exact ⟨fun h => ⟨(hheld.symm.trans (.of_eq h)).eq_nil, fun _ => hnot⟩,
          fun h => (hheld.trans (.of_eq h.1)).eq_nil⟩
      | some start =>
        have hmappable : Mappable o i := by simp [Mappable, hquery, hmmap]
        have hresult : mapBuffers o (n + 1) i c =
            mapBuffers o n (i + 1) (mapBuffer i length start c) := by
          simp only [mapBuffers, hquery, hmmap]
        obtain ⟨hkept', hall, hheld⟩ := ih (unmapped_mapBuffer hfree length start)
          (by rw [Nat.add_assoc, Nat.add_comm 1]; exact hn)
          (kept_mapBuffer hfree hi length start hkept)
        have hsome : heldMappings (mapBuffer i length start c) ≠ [] := by
          intro hnil
          have hperm := heldMappings_mapBuffer hfree hi length start
          rw [hnil] at hperm
          exact List.cons_ne_nil _ _ hperm.symm.eq_nil
        rw [hresult]
        refine ⟨hkept', hall.trans ?_, ?_⟩
        · constructor
          · intro h k hik hk
            rcases Nat.eq_or_lt_of_le hik with rfl | hlt
            · exact hmappable
            · exact h k hlt (by omega)
          · exact fun h k hik hk => h k (Nat.le_of_succ_le hik) (by omega)
        · constructor
          · exact fun h => absurd (hheld.mp h).1 hsome
          · exact fun h => absurd hmappable (h.2 n.succ_pos)

/-! ### The ways out of `initCapture` -/

/-- Every call up to REQBUFS succeeds, and that one with so many buffers. -/
def Prepared (o : Outcomes) (count : Nat) : Prop :=
  openCandidate o ≠ none ∧
  (∃ capabilities, o.querycap = some capabilities ∧
    ¬ (capabilities &&& V4L2_CAP_VIDEO_CAPTURE = 0 ∨ capabilities &&& V4L2_CAP_STREAMING = 0)) ∧
  o.sFmt ≠ none ∧ o.reqbufs = some count

def MapsAll (o : Outcomes) : Prop := ∃ count, Prepared o count ∧ ∀ i < count, Mappable o i

/-- The camera fails between two buffers. -/
def MapsSome (o : Outcomes) : Prop :=
  ∃ count, Prepared o count ∧ (0 < count ∧ Mappable o 0) ∧ ¬ ∀ i < count, Mappable o i

theorem Prepared.unique {m n : Nat} (hm : Prepared o m) (hn : Prepared o n) : m = n :=
  Option.some.inj (hm.2.2.2.symm.trans hn.2.2.2)

/-- What `initCapture` does not touch. -/
structure Frame (c c' : Camera) : Prop where
  i2cFd : c'.i2cFd = c.i2cFd
  ledFd : c'.ledFd = c.ledFd
  links : c'.links = c.links
  signals : c'.signals = c.signals

/-- What `initCapture` leaves behind, with its result. -/
structure InitTo (o : Outcomes) (c : Camera) (r : Camera × Int) : Prop where
  kept : Kept r.1
  frame : Frame c r.1
  fd : -1 ≤ r.1.videodev.fd
  ok : 0 ≤ r.2 ↔ MapsAll o
  numbuffer : 0 ≤ r.2 → o.reqbufs = some r.1.videodev.numbuffer
  failed : r.2 < 0 → r.1.videodev.fd < 0 ∧ (heldMappings r.1 = [] ↔ ¬ MapsSome o)

/-- The camera is open, and `initCapture` has changed nothing but its own members so far. -/
structure Opened (fd : Int) (c c' : Camera) : Prop where
  kept : Kept c'
  frame : Frame c c'
  video : c'.videodev.fd = fd
  nonneg : 0 ≤ fd

/-- The label `err` closes the camera, and nothing else. -/
theorem initTo_failed {c' : Camera} {fd : Int} (h : Opened fd c c') (hnot : ¬ MapsAll o)
    (hheld : heldMappings c' = [] ↔ ¬ MapsSome o) : InitTo o c (initFailed fd c') where
  kept := by
    refine ⟨h.kept.files.release ?_, h.kept.mappings⟩
    simp only [heldFiles, initFailed, close, h.video, heldFd_of_nonneg h.nonneg]
    rw [heldFd_eq_nil.mpr (by decide : (-1 : Int) < 0), List.append_nil]
    exact List.perm_append_comm
  frame := ⟨h.frame.i2cFd, h.frame.ledFd, h.frame.links, h.frame.signals⟩
  fd := Int.le_refl _
  ok := by simpa [initFailed] using hnot
  numbuffer := by simp [initFailed]
  failed := fun _ => ⟨by simp [initFailed], hheld⟩

/-- Once the buffers are granted, the loop over them decides. -/
theorem initTo_mapBuffers {c' : Camera} {fd : Int} {count : Nat} (h : Opened fd c c')
    (hprepared : Prepared o count) (hnumbuffer : c'.videodev.numbuffer = count)
    (hfree : Unmapped c' 0) (hnone : heldMappings c' = []) :
    InitTo o c (if (mapBuffers o count 0 c').2 then ((mapBuffers o count 0 c').1, 0)
      else initFailed fd (mapBuffers o count 0 c').1) := by
  have hcount : 0 + count ≤ CAPTURE_MAX_BUFFER :=
    (Nat.zero_add count).symm ▸ o.reqbufs_le count hprepared.2.2.2
  obtain ⟨hkept, hall, hheld⟩ := mapBuffers_spec hfree hcount h.kept
  obtain ⟨buffers, mappings, hresult⟩ := mapBuffers_frame o count 0 c'
  have hframe : Frame c (mapBuffers o count 0 c').1 := by
    rw [hresult]
    exact ⟨h.frame.i2cFd, h.frame.ledFd, h.frame.links, h.frame.signals⟩
  have hvideo : (mapBuffers o count 0 c').1.videodev.fd = fd := by
    rw [hresult]
    exact h.video
  have hmaps : (∀ i < count, Mappable o i) ↔ (mapBuffers o count 0 c').2 = true := by
    rw [hall, Nat.zero_add]
    exact ⟨fun h k _ hk => h k hk, fun h k hk => h k (Nat.zero_le k) hk⟩
  by_cases hmapped : (mapBuffers o count 0 c').2 = true
  · rw [if_pos hmapped]
    refine ⟨hkept, hframe, ?_, ?_, ?_, ?_⟩
    · rw [hvideo]
      exact Int.le_trans (by decide) h.nonneg
    · exact ⟨fun _ => ⟨count, hprepared, hmaps.mpr hmapped⟩, fun _ => Int.le_refl 0⟩
    · intro _
      rw [hresult]
      exact hnumbuffer.symm ▸ hprepared.2.2.2
    · exact fun hneg => absurd hneg (Int.lt_irrefl 0)
  · rw [if_neg hmapped]
    refine initTo_failed ⟨hkept, hframe, hvideo, h.nonneg⟩ ?_ ?_
    · rintro ⟨other, hother, hmappable⟩
      obtain rfl := hother.unique hprepared
      exact hmapped (hmaps.mp hmappable)
    · rw [hheld]
      constructor
      · rintro ⟨_, hfirst⟩ ⟨other, hother, ⟨hpos, hmappable⟩, _⟩
        obtain rfl := hother.unique hprepared
        exact hfirst hpos hmappable
      · intro hsome
        refine ⟨hnone, fun hpos hmappable => hsome ?_⟩
        exact ⟨count, hprepared, ⟨hpos, hmappable⟩, fun h => hmapped (hmaps.mp h)⟩

theorem videodev_init_spec (o : Outcomes) {c' : Camera} {fd : Int}
    (h : Opened fd c { c' with videodev := { c'.videodev with fd := fd } })
    (hcandidate : openCandidate o ≠ none) (hfree : Unmapped c' 0) (hnone : heldMappings c' = []) :
    InitTo o c (videodev_init o fd c') := by
  have hframe := h.frame
  -- a call before the buffers fails
  have hfails : (¬ ∃ count, Prepared o count) → ∀ width height, InitTo o c (initFailed fd
      { c' with
        videodev := { c'.videodev with fd := fd, cap_width := width, cap_height := height } }) := by
    intro hnot width height
    refine initTo_failed ⟨⟨h.kept.files, h.kept.mappings⟩,
      ⟨hframe.i2cFd, hframe.ledFd, hframe.links, hframe.signals⟩, rfl, h.nonneg⟩ ?_ ?_
    · exact fun ⟨count, hprepared, _⟩ => hnot ⟨count, hprepared⟩
    · exact ⟨fun _ ⟨count, hprepared, _⟩ => hnot ⟨count, hprepared⟩, fun _ => hnone⟩
  unfold videodev_init
  cases hcap : o.querycap with
  | none => exact hfails (fun ⟨_, hprepared⟩ => by simpa [hcap] using hprepared.2.1) _ _
  | some capabilities =>
    by_cases hcannot : capabilities &&& V4L2_CAP_VIDEO_CAPTURE = 0 ∨
        capabilities &&& V4L2_CAP_STREAMING = 0
    · simp only [if_pos hcannot]
      apply hfails
      rintro ⟨_, _, ⟨other, hother, hcan⟩, _⟩
      exact hcan (Option.some.inj (hcap.symm.trans hother) ▸ hcannot)
    · simp only [if_neg hcannot]
      cases hformat : o.sFmt with
      | none => exact hfails (fun ⟨_, hprepared⟩ => hprepared.2.2.1 hformat) _ _
      | some size =>
        cases hbuffers : o.reqbufs with
        | none =>
          apply hfails
          rintro ⟨_, hprepared⟩
          exact Option.some_ne_none _ (hprepared.2.2.2.symm.trans hbuffers)
        | some count =>
          have hprepared : Prepared o count :=
            ⟨hcandidate, ⟨capabilities, hcap, hcannot⟩, by simp [hformat], hbuffers⟩
          exact initTo_mapBuffers ⟨⟨h.kept.files, h.kept.mappings⟩,
            ⟨hframe.i2cFd, hframe.ledFd, hframe.links, hframe.signals⟩, rfl, h.nonneg⟩
            hprepared rfl ⟨hfree.length, hfree.free⟩ hnone

theorem initCapture_spec (o : Outcomes) (hkept : Kept c) (hvideo : c.videodev.fd = -1)
    (hfree : Unmapped c 0) (hnone : heldMappings c = []) : InitTo o c (initCapture o c) := by
  have hclosed : c.videodev.fd < 0 := hvideo ▸ by decide
  unfold initCapture
  rw [if_neg (Int.not_le.mpr hclosed)]
  cases hopen : openCandidate o with
  | none =>
    have hnot : ∀ count, ¬ Prepared o count := fun count hprepared => hprepared.1 hopen
    refine ⟨hkept, ⟨rfl, rfl, rfl, rfl⟩, Int.le_of_eq hvideo.symm, ?_, ?_, ?_⟩
    · simpa using fun ⟨count, hprepared, _⟩ => hnot count hprepared
    · simp
    · exact fun _ => ⟨hclosed, fun _ ⟨count, hprepared, _⟩ => hnot count hprepared, fun _ => hnone⟩
  | some fd =>
    have hfd : (0 : Int) ≤ fd := Int.natCast_nonneg fd
    have hopened := kept_openVideo hkept hclosed hfd
    exact videodev_init_spec o ⟨⟨hopened.files, hopened.mappings⟩, ⟨rfl, rfl, rfl, rfl⟩, rfl, hfd⟩
      (by simp [hopen]) ⟨hfree.length, hfree.free⟩ hnone

/-! ### The rest of `run` -/

theorem startCapture_spec (o : Outcomes) (c : Camera) :
    startCapture o c < 0 ↔
      ¬ ((∀ i < c.videodev.numbuffer, o.qbuf i = true) ∧ o.streamon = true) := by
  have hall : (List.range c.videodev.numbuffer).all o.qbuf = true ↔
      ∀ i < c.videodev.numbuffer, o.qbuf i = true := by
    simp only [List.all_eq_true, List.mem_range]
  rw [← hall]
  unfold startCapture
  split_ifs with hqueued hstreaming
  · simp [hqueued, hstreaming]
  · simp [hstreaming]
  · simp [hqueued]

/-- The frames change nothing but their counter, however many there are. -/
theorem captureLoop_frame (frames : List (SelectResult × DqbufResult)) (c : Camera) :
    ∃ total, captureLoop frames c = { c with total := total } := by
  induction frames generalizing c with
  | nil => exact ⟨c.total, rfl⟩
  | cons frame frames ih =>
    obtain ⟨select, dqbuf⟩ := frame
    have hframe : ∃ total, (captureFrame select dqbuf c).1 = { c with total := total } := by
      cases select with
      | readable =>
        cases dqbuf with
        | frame => exact ⟨c.total + 1, rfl⟩
        | again | error => exact ⟨c.total, rfl⟩
      | timeout | interrupted | error => exact ⟨c.total, rfl⟩
    obtain ⟨total, htotal⟩ := hframe
    obtain ⟨rest, hrest⟩ := ih { c with total := total }
    simp only [captureLoop]
    rw [htotal]
    split_ifs
    · exact ⟨total, rfl⟩
    · exact ⟨rest, hrest⟩

theorem mapping_unmapped (b : BufInfo) : mapping (unmapped b) = none := by
  unfold unmapped mapping
  cases h : b.start with
  | none => simp [h]
  | some start => simp

theorem eq_neg_one {fd : Int} (hle : -1 ≤ fd) (hneg : ¬ fd ≥ 0) : fd = -1 :=
  Int.le_antisymm (Int.le_of_lt_add_one (Int.not_le.mp hneg)) hle

/-- `closeCapture` gives back the buffers and the camera, and touches nothing else. -/
theorem closeCapture_spec (hkept : Kept c) (hfd : -1 ≤ c.videodev.fd) :
    Kept (closeCapture c) ∧ Frame c (closeCapture c) ∧ (closeCapture c).videodev.fd = -1 ∧
      heldMappings (closeCapture c) = [] := by
  have hunmapped : (c.videodev.buff_info.map unmapped).filterMap mapping = [] := by
    rw [List.filterMap_map, List.filterMap_eq_nil_iff]
    exact fun b _ => mapping_unmapped b
  have hmappings : Balanced (c.mappings ++ (heldMappings c).map .released) [] := by
    apply Balanced.releaseAll
    rw [List.append_nil]
    exact hkept.mappings
  unfold closeCapture
  by_cases hopen : c.videodev.fd ≥ 0
  · simp only [if_pos hopen]
    refine ⟨⟨hkept.files.release ?_, ?_⟩, ⟨rfl, rfl, rfl, rfl⟩, trivial, hunmapped⟩
    · simp only [heldFiles, close, heldFd_of_nonneg hopen]
      rw [heldFd_eq_nil.mpr (by decide : (-1 : Int) < 0), List.append_nil]
      exact List.perm_append_comm
    · simpa only [heldMappings, close, hunmapped] using hmappings
  · simp only [if_neg hopen]
    refine ⟨⟨hkept.files, ?_⟩, ⟨rfl, rfl, rfl, rfl⟩, ?_, hunmapped⟩
    · simpa only [heldMappings, hunmapped] using hmappings
    · exact eq_neg_one hfd hopen

/-- `closeBH1750` gives back the light sensor and the LED, and touches nothing else. -/
theorem closeBH1750_spec (hkept : Kept c) (hi2c : -1 ≤ c.i2cFd) (hled : -1 ≤ c.ledFd) :
    Kept (closeBH1750 c) ∧ (closeBH1750 c).i2cFd = -1 ∧ (closeBH1750 c).ledFd = -1 ∧
      (closeBH1750 c).videodev = c.videodev := by
  have hclosed : heldFd (-1) = [] := heldFd_eq_nil.mpr (by decide)
  have hfirst : ∃ files,
      (if c.ledFd ≥ 0 then { close c.ledFd c with ledFd := -1 } else c) =
        { c with ledFd := -1, files := files } ∧
      Balanced files (heldFd c.i2cFd ++ heldFd c.videodev.fd) := by
    have hfiles := hkept.files
    by_cases hopen : c.ledFd ≥ 0
    · rw [if_pos hopen]
      refine ⟨_, rfl, hfiles.release ?_⟩
      simp only [heldFiles, heldFd_of_nonneg hopen, List.append_assoc]
      exact List.perm_middle
    · rw [if_neg hopen]
      refine ⟨c.files, ?_, ?_⟩
      · rw [← eq_neg_one hled hopen]
      · simpa [heldFiles, eq_neg_one hled hopen, hclosed] using hfiles
  obtain ⟨files, hresult, hfiles⟩ := hfirst
  unfold closeBH1750
  simp only [hresult]
  by_cases hopen : c.i2cFd ≥ 0
  · rw [if_pos hopen]
    refine ⟨⟨hfiles.release ?_, hkept.mappings⟩, rfl, rfl, rfl⟩
    simp [heldFiles, close, heldFd_of_nonneg hopen, hclosed]
  · rw [if_neg hopen]
    refine ⟨⟨?_, hkept.mappings⟩, eq_neg_one hi2c hopen, rfl, rfl⟩
    simpa [heldFiles, hclosed] using hfiles

/-! ### What `run` gives back -/

/-- The camera gets as far as streaming. -/
def Starts (o : Outcomes) : Prop :=
  MapsAll o ∧ (∀ count, o.reqbufs = some count → ∀ i < count, o.qbuf i = true) ∧ o.streamon = true

/-- The descriptors are closed and their members reset, the buffers unmapped, and the
    Ethernet link is up. -/
structure GivesBack (c : Camera) : Prop where
  files : Settled c.files
  members : c.i2cFd = -1 ∧ c.ledFd = -1 ∧ c.videodev.fd = -1
  mappings : Settled c.mappings
  link : c.links.getLast? = some true

/-- What is kept is given back when nothing is held. -/
theorem Kept.givesBack_iff (hkept : Kept c) (hi2c : -1 ≤ c.i2cFd) (hled : -1 ≤ c.ledFd)
    (hvideo : -1 ≤ c.videodev.fd) (hlink : c.links.getLast? = some true) :
    GivesBack c ↔ (c.i2cFd < 0 ∧ c.ledFd < 0 ∧ c.videodev.fd < 0) ∧ heldMappings c = [] := by
  constructor
  · intro h
    obtain ⟨hi, hl, hv⟩ := h.members
    refine ⟨⟨?_, ?_, ?_⟩, hkept.mappings.settled_iff.mp h.mappings⟩
    · exact hi ▸ by decide
    · exact hl ▸ by decide
    · exact hv ▸ by decide
  · rintro ⟨⟨hi, hl, hv⟩, hmapped⟩
    refine ⟨hkept.files.settled_iff.mpr ?_, ⟨?_, ?_, ?_⟩, hkept.mappings.settled_iff.mpr hmapped,
      hlink⟩
    · simp only [heldFiles, heldFd_eq_nil.mpr hi, heldFd_eq_nil.mpr hl, heldFd_eq_nil.mpr hv,
        List.append_nil]
    · exact eq_neg_one hi2c (Int.not_le.mpr hi)
    · exact eq_neg_one hled (Int.not_le.mpr hl)
    · exact eq_neg_one hvideo (Int.not_le.mpr hv)

theorem MapsAll.not_mapsSome (h : MapsAll o) : ¬ MapsSome o := by
  rintro ⟨other, hother, _, hnot⟩
  obtain ⟨count, hprepared, hall⟩ := h
  obtain rfl := hother.unique hprepared
  exact hnot hall

/-- A thread that was just made, after `initBH1750`. -/
structure Ready (o : Outcomes) (c : Camera) : Prop where
  kept : Kept c
  i2cFd : -1 ≤ c.i2cFd
  ledFd : -1 ≤ c.ledFd
  sensor : o.openFile bh1750 = none ↔ c.i2cFd < 0
  light : c.i2cFd < 0 → c.ledFd < 0
  videodev : c.videodev = {}
  signals : c.signals = []

theorem ready_initBH1750 (o : Outcomes) : Ready o (initBH1750 o (setEthernetLink false {})).1 := by
  have hkept : Kept (setEthernetLink false {}) := ⟨balanced_nil, balanced_nil⟩
  obtain ⟨i2cFd, ledFd, files, hresult, hkept', hi2c, hled, hsensor, hlight⟩ :=
    initBH1750_spec o hkept (by decide) rfl
  refine ⟨hkept', ?_, ?_, ?_, ?_, ?_, ?_⟩
  · exact hresult ▸ hi2c
  · exact hresult ▸ hled
  · exact hresult ▸ hsensor
  · exact hresult ▸ hlight
  · exact hresult ▸ rfl
  · exact hresult ▸ rfl

theorem Ready.unmapped {c : Camera} (h : Ready o c) : Unmapped c 0 := by
  constructor
  · rw [h.videodev]
    rfl
  · intro k hk _
    simp [h.videodev]

theorem Ready.heldMappings {c : Camera} (h : Ready o c) : heldMappings c = [] := by
  rw [CameraResources.heldMappings, h.videodev]
  rfl

theorem Ready.initTo {c : Camera} (h : Ready o c) : InitTo o c (initCapture o c) := by
  apply initCapture_spec o h.kept
  · rw [h.videodev]
  · exact h.unmapped
  · exact h.heldMappings

/-- Out after `initCapture`: what it still maps, and the light sensor, stay. -/
theorem givesBack_initFailed {c c' : Camera} {r : Int} (h : Ready o c) (hinit : InitTo o c (c', r))
    (hr : r < 0) (signal : Signal) :
    GivesBack (setEthernetLink true (emit signal c')) ↔
      o.openFile bh1750 = none ∧ ¬ MapsSome o := by
  obtain ⟨hvideo, hheld⟩ := hinit.failed hr
  have hi2c : c'.i2cFd = c.i2cFd := hinit.frame.i2cFd
  have hled : c'.ledFd = c.ledFd := hinit.frame.ledFd
  have hkept : Kept (setEthernetLink true (emit signal c')) :=
    ⟨hinit.kept.files, hinit.kept.mappings⟩
  rw [hkept.givesBack_iff (hi2c ▸ h.i2cFd) (hled ▸ h.ledFd) hinit.fd List.getLast?_concat,
    h.sensor, ← hheld]
  apply and_congr_left
  intro _
  show c'.i2cFd < 0 ∧ c'.ledFd < 0 ∧ c'.videodev.fd < 0 ↔ c.i2cFd < 0
  rw [hi2c, hled]
  exact ⟨fun hnone => hnone.1, fun hnone => ⟨hnone, h.light hnone, hvideo⟩⟩

/-- Out after `startCapture`: the light sensor stays. -/
theorem givesBack_startFailed {c c' : Camera} {r : Int} (h : Ready o c)
    (hinit : InitTo o c (c', r)) (signal : Signal) :
    GivesBack (setEthernetLink true (closeCapture (emit signal c'))) ↔
      o.openFile bh1750 = none := by
  have hemitted : Kept (emit signal c') := ⟨hinit.kept.files, hinit.kept.mappings⟩
  obtain ⟨hclosed, hframe, hvideo, hheld⟩ := closeCapture_spec hemitted hinit.fd
  have hi2c : (closeCapture (emit signal c')).i2cFd = c.i2cFd :=
    hframe.i2cFd.trans hinit.frame.i2cFd
  have hled : (closeCapture (emit signal c')).ledFd = c.ledFd :=
    hframe.ledFd.trans hinit.frame.ledFd
  have hkept : Kept (setEthernetLink true (closeCapture (emit signal c'))) :=
    ⟨hclosed.files, hclosed.mappings⟩
  rw [hkept.givesBack_iff (hi2c ▸ h.i2cFd) (hled ▸ h.ledFd) (Int.le_of_eq hvideo.symm)
    List.getLast?_concat, h.sensor]
  show ((closeCapture (emit signal c')).i2cFd < 0 ∧ (closeCapture (emit signal c')).ledFd < 0 ∧
    (closeCapture (emit signal c')).videodev.fd < 0) ∧
      heldMappings (closeCapture (emit signal c')) = [] ↔ c.i2cFd < 0
  rw [hi2c, hled, hvideo]
  exact ⟨fun hnone => hnone.1.1, fun hnone => ⟨⟨hnone, h.light hnone, by decide⟩, hheld⟩⟩

/-- Out after the loop: nothing stays. -/
theorem givesBack_streamed {c c' : Camera} {r : Int} (h : Ready o c) (hinit : InitTo o c (c', r))
    (signal : Signal) (frames : List (SelectResult × DqbufResult)) :
    GivesBack (setEthernetLink true (closeBH1750 (closeCapture
      (captureLoop frames { emit signal c' with running := true })))) := by
  obtain ⟨total, htotal⟩ := captureLoop_frame frames { emit signal c' with running := true }
  rw [htotal]
  have hstreamed : Kept { emit signal c' with running := true, total := total } :=
    ⟨hinit.kept.files, hinit.kept.mappings⟩
  obtain ⟨hclosed, hframe, hvideo, hheld⟩ := closeCapture_spec hstreamed hinit.fd
  have hi2c := (hframe.i2cFd.trans hinit.frame.i2cFd).symm ▸ h.i2cFd
  have hled := (hframe.ledFd.trans hinit.frame.ledFd).symm ▸ h.ledFd
  obtain ⟨hclosed', hi2c', hled', hvideodev⟩ := closeBH1750_spec hclosed hi2c hled
  rw [← hvideodev] at hvideo
  have hmapped : heldMappings (closeBH1750 (closeCapture
      { emit signal c' with running := true, total := total })) = [] := by
    rw [heldMappings, hvideodev]
    exact hheld
  have hkept : Kept (setEthernetLink true
      (closeBH1750 (closeCapture { emit signal c' with running := true, total := total }))) :=
    ⟨hclosed'.files, hclosed'.mappings⟩
  refine (hkept.givesBack_iff (Int.le_of_eq hi2c'.symm) (Int.le_of_eq hled'.symm)
    (Int.le_of_eq hvideo.symm) List.getLast?_concat).mpr ⟨⟨?_, ?_, ?_⟩, hmapped⟩
  · exact lt_of_eq_of_lt hi2c' (by decide)
  · exact lt_of_eq_of_lt hled' (by decide)
  · exact lt_of_eq_of_lt hvideo (by decide)

/-- After `initCapture` has ended well, `startCapture` decides. -/
theorem InitTo.startCapture_iff {c c' : Camera} {r : Int} (hinit : InitTo o c (c', r))
    (hr : ¬ r < 0) : startCapture o c' < 0 ↔ ¬ Starts o := by
  have hall : MapsAll o := hinit.ok.mp (Int.not_lt.mp hr)
  have hnumbuffer : o.reqbufs = some c'.videodev.numbuffer := hinit.numbuffer (Int.not_lt.mp hr)
  rw [startCapture_spec, not_iff_not]
  constructor
  · rintro ⟨hqueued, hstreaming⟩
    refine ⟨hall, ?_, hstreaming⟩
    intro count hcount
    obtain rfl := Option.some.inj (hcount.symm.trans hnumbuffer)
    exact hqueued
  · exact fun h => ⟨h.2.1 _ hnumbuffer, h.2.2⟩

theorem InitTo.not_starts {c c' : Camera} {r : Int} (hinit : InitTo o c (c', r)) (hr : r < 0) :
    ¬ Starts o :=
  fun h => absurd (hinit.ok.mpr h.1) (Int.not_le.mpr hr)

/-- **The camera thread gives everything back when it gets as far as streaming**, or when it
    had no light sensor to give back and the camera did not fail between two buffers. -/
theorem run_givesBack_iff (o : Outcomes) (frames : List (SelectResult × DqbufResult)) :
    GivesBack (run o frames {}) ↔
      Starts o ∨ (o.openFile bh1750 = none ∧ ¬ MapsSome o) := by
  have hready := ready_initBH1750 o
  have hinit := hready.initTo
  simp only [run]
  generalize (initBH1750 o (setEthernetLink false {})).1 = c at hready hinit ⊢
  rcases hresult : initCapture o c with ⟨c', r⟩
  rw [hresult] at hinit
  by_cases hr : r < 0
  · simp only [if_pos hr]
    rw [givesBack_initFailed hready hinit hr, or_iff_right (hinit.not_starts hr)]
  · have hall : MapsAll o := hinit.ok.mp (Int.not_lt.mp hr)
    have hstart := hinit.startCapture_iff hr
    simp only [if_neg hr]
    by_cases hfails : startCapture o c' < 0
    · rw [if_pos hfails, givesBack_startFailed hready hinit, or_iff_right (hstart.mp hfails)]
      exact (and_iff_left hall.not_mapsSome).symm
    · rw [if_neg hfails]
      have hstarts : Starts o := not_not.mp (mt hstart.mpr hfails)
      exact iff_of_true (givesBack_streamed hready hinit _ frames) (.inl hstarts)

/-- **What the camera maps is unmapped**, unless the camera fails between two buffers. -/
theorem run_mappings_iff (o : Outcomes) (frames : List (SelectResult × DqbufResult)) :
    Settled (run o frames {}).mappings ↔ ¬ MapsSome o := by
  have hready := ready_initBH1750 o
  have hinit := hready.initTo
  simp only [run]
  generalize (initBH1750 o (setEthernetLink false {})).1 = c at hready hinit ⊢
  rcases hresult : initCapture o c with ⟨c', r⟩
  rw [hresult] at hinit
  by_cases hr : r < 0
  · simp only [if_pos hr]
    exact hinit.kept.mappings.settled_iff.trans (hinit.failed hr).2
  · have hall : MapsAll o := hinit.ok.mp (Int.not_lt.mp hr)
    simp only [if_neg hr]
    refine iff_of_true ?_ hall.not_mapsSome
    by_cases hfails : startCapture o c' < 0
    · rw [if_pos hfails]
      have hemitted : Kept (emit (.cameraError "Camera streaming start failed".toList) c') :=
        ⟨hinit.kept.files, hinit.kept.mappings⟩
      obtain ⟨hclosed, _, _, hheld⟩ := closeCapture_spec hemitted hinit.fd
      exact hclosed.mappings.settled_iff.mpr hheld
    · rw [if_neg hfails]
      exact (givesBack_streamed hready hinit _ frames).mappings

/-- A light sensor and a LED, and no camera: both stay open. -/
def noCamera : Outcomes where
  openFile path := if path = bh1750 then some 5 else if path = LED_DEV then some 6 else none
  querycap := none
  sFmt := none
  reqbufs := none
  querybuf := fun _ => none
  mmap := fun _ => none
  qbuf := fun _ => true
  streamon := true
  reqbufs_le := nofun

theorem not_givesBack_noCamera : ¬ GivesBack (run noCamera [] {}) :=
  fun h => absurd h.members.1 (by decide)

/-- The last command for the Ethernet link is `up` whatever fails. -/
theorem run_links (o : Outcomes) (frames : List (SelectResult × DqbufResult)) (c : Camera) :
    (run o frames c).links.getLast? = some true := by
  simp only [run]
  split_ifs <;> exact List.getLast?_concat

/-! ### The same start, seen by the dialog -/

/-- The first steps of the thread in the system of the dialog. -/
def starting (o : Outcomes) : List Step :=
  let (c, sensor) := initBH1750 o (setEthernetLink false {})
  let (c, r) := initCapture o c
  if r < 0 then [.initBH1750 sensor, .initCapture false]
  else [.initBH1750 sensor, .initCapture true, .startCapture (0 ≤ startCapture o c)]

theorem closeCapture_signals (c : Camera) : (closeCapture c).signals = c.signals := by
  simp only [closeCapture]
  split_ifs <;> rfl

theorem captureLoop_signals (frames : List (SelectResult × DqbufResult)) (c : Camera) :
    (captureLoop frames c).signals = c.signals := by
  obtain ⟨total, htotal⟩ := captureLoop_frame frames c
  rw [htotal]

theorem closeBH1750_signals (c : Camera) : (closeBH1750 c).signals = c.signals := by
  unfold closeBH1750
  by_cases hled : c.ledFd ≥ 0
  · simp only [if_pos hled]
    split_ifs <;> rfl
  · simp only [if_neg hled]
    split_ifs <;> rfl

/-- The dialog gets the signals that `run` emits before the stream. -/
theorem run_starting (home : QString) (alarmId : Int) (o : Outcomes)
    (frames : List (SelectResult × DqbufResult)) :
    ∃ s, Machine.run (CameraSystem.step home) (CameraSystem.buildCameraUi alarmId)
      ((starting o).map .thread) = some s ∧ s.queue = (run o frames {}).signals := by
  have hready := ready_initBH1750 o
  have hinit := hready.initTo
  simp only [run, starting]
  rcases hsensor : initBH1750 o (setEthernetLink false {}) with ⟨c, sensor⟩
  rw [hsensor] at hready hinit
  rcases hresult : initCapture o c with ⟨c', r⟩
  rw [hresult] at hinit
  have hsignals : c'.signals = [] := hinit.frame.signals.trans hready.signals
  by_cases hr : r < 0
  · simp only [if_pos hr]
    refine ⟨_, rfl, ?_⟩
    simp only [setEthernetLink, emit, hsignals]
    rfl
  · by_cases hfails : startCapture o c' < 0
    · simp only [if_neg hr, if_pos hfails, Int.not_le.mpr hfails, decide_false]
      refine ⟨_, rfl, ?_⟩
      simp only [setEthernetLink, closeCapture_signals, emit, hsignals]
      rfl
    · simp only [if_neg hr, if_neg hfails, Int.not_lt.mp hfails, decide_true]
      refine ⟨_, rfl, ?_⟩
      simp only [setEthernetLink, closeBH1750_signals, closeCapture_signals, captureLoop_signals,
        emit, hsignals]
      rfl

end CameraResources

end AlarmClock
