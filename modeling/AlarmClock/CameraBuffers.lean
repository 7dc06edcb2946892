import AlarmClock.CameraResources

/-!
# The indices into the buffers of the camera

`m_videodev.buff_info` has `CAPTURE_MAX_BUFFER` places. `initCapture` goes as far into it as
the count that REQBUFS returned, `captureFrame` as far as the index that DQBUF returned, and
`closeCapture` through the whole of it; nothing compares the count with the size. Here each
access is checked, and one beyond the array ends the run with its index. With a count that
fits, the checked run is the one of `CameraResources`.
-/

namespace AlarmClock

namespace CameraBuffers

open AlarmCameraThread CameraResources Ledger

/-- What the system calls return; the driver grants any number of buffers. -/
structure Calls where
  openFile : QString → Option Nat
  querycap : Option UInt32
  sFmt : Option (Int × Int)
  reqbufs : Option UInt32
  querybuf : Nat → Option Nat
  mmap : Nat → Option Nat
  qbuf : Nat → Bool
  streamon : Bool

/-- The count as the `int` of `m_videodev`. It is compared with indices only, and a negative
    one ends the loops as 0 does. -/
def numbuffer (count : UInt32) : Nat := count.toInt32.toInt.toNat

/-- The same calls, with a count that fits; only REQBUFS can tell them apart. -/
def Calls.fitting (k : Calls) : Outcomes where
  openFile := k.openFile
  querycap := k.querycap
  sFmt := k.sFmt
  reqbufs := k.reqbufs.map fun count => min (numbuffer count) CAPTURE_MAX_BUFFER
  querybuf := k.querybuf
  mmap := k.mmap
  qbuf := k.qbuf
  streamon := k.streamon
  reqbufs_le := by
    intro n hn
    obtain ⟨count, _, rfl⟩ := Option.map_eq_some_iff.mp hn
    exact Nat.min_le_right _ _

/-- `buff_info[i]`; beyond the array it ends with the index. -/
def access (i : Nat) (c : Camera) : Except Nat BufInfo :=
  if i < CAPTURE_MAX_BUFFER then .ok (c.videodev.buff_info.getD i { index := i }) else .error i

/-- The loop over the buffers, from the `i`-th on, with QUERYBUF and `mmap`. -/
def mapBuffers (k : Calls) : Nat → Nat → Camera → Except Nat (Camera × Bool)
  | 0, _, c => .ok (c, true)
  | n + 1, i, c =>
    match k.querybuf i with
    | none => .ok (c, false)
    | some length => do
      let _ ← access i c
      match k.mmap i with
      | none => .ok (setBuffer i { index := i, length := length } c, false)
      | some start => mapBuffers k n (i + 1) (mapBuffer i length start c)

/-- `initCapture` from the label `videodev_init` on. -/
def videodev_init (k : Calls) (fd : Int) (c : Camera) : Except Nat (Camera × Int) :=
  let c := { c with videodev := { c.videodev with fd := fd } }
  match k.querycap with
  | none => .ok (initFailed fd c)
  | some capabilities =>
    if capabilities &&& V4L2_CAP_VIDEO_CAPTURE = 0 ∨ capabilities &&& V4L2_CAP_STREAMING = 0 then
      .ok (initFailed fd c)
    else
      match k.sFmt with
      | none => .ok (initFailed fd c)
      | some (width, height) =>
        let c := { c with videodev := { c.videodev with cap_width := width, cap_height := height } }
        match k.reqbufs with
        | none => .ok (initFailed fd c)
        | some count => do
          let c := { c with videodev := { c.videodev with numbuffer := numbuffer count } }
          let (c, mapped) ← mapBuffers k (numbuffer count) 0 c
          if mapped then .ok (c, 0) else .ok (initFailed fd c)

def initCapture (k : Calls) (c : Camera) : Except Nat (Camera × Int) :=
  if c.videodev.fd ≥ 0 then .ok (c, 0)
  else
    match openCandidate k.fitting with
    | none => .ok (c, -1)
    | some fd => videodev_init k fd (opened fd c)

/-- What DQBUF returns; a frame comes with the index of its buffer. -/
inductive Dequeued where
  | frame (index : UInt32)
  | again
  | error
deriving DecidableEq, Repr

/-- What one call of `captureFrame` meets: the two system calls, and what it finds in
    `m_uiReady` and in `m_pendingCapturePath`. -/
structure Pass where
  select : SelectResult
  dqbuf : Dequeued
  uiReady : Bool
  savePath : QString
deriving DecidableEq, Repr

def captureFrame (p : Pass) (c : Camera) : Except Nat (Camera × Int) :=
  match p.select with
  | .timeout => .ok (c, 0)
  | .interrupted => .ok (c, 0)
  | .error => .ok (c, -1)
  | .readable =>
    match p.dqbuf with
    | .again => .ok (c, 0)
    | .error => .ok (c, -1)
    | .frame index =>
      let c := { c with total := c.total + 1 }
      if p.uiReady ∨ ¬ p.savePath.isEmpty then do
        let _ ← access index.toNat c
        .ok (c, 0)
      else .ok (c, 0)

def captureLoop : List Pass → Camera → Except Nat Camera
  | [], c => .ok c
  | p :: passes, c => do
    let (c, r) ← captureFrame p c
    if r < 0 then .ok c else captureLoop passes c

/-- One step of the loop of `closeCapture`. -/
def closeBuffer (c : Camera) (i : Nat) : Except Nat Camera := do
  let b ← access i c
  match mapping b with
  | none => .ok c
  | some m => .ok { setBuffer i (unmapped b) c with mappings := c.mappings ++ [.released m] }

def closeCapture (c : Camera) : Except Nat Camera := do
  let c ← (List.range CAPTURE_MAX_BUFFER).foldlM closeBuffer c
  if c.videodev.fd ≥ 0 then
    let c := close c.videodev.fd c
    .ok { c with videodev := { c.videodev with fd := -1 } }
  else .ok c

def run (k : Calls) (passes : List Pass) (c : Camera) : Except Nat Camera := do
  let c := setEthernetLink false c
  let (c, _) := initBH1750 k.fitting c
  let (c, r) ← initCapture k c
  if r < 0 then
    .ok (setEthernetLink true
      (emit (.cameraError "Camera init failed (/dev/video0, /dev/video1)".toList) c))
  else if startCapture k.fitting c < 0 then
    let c := emit (.cameraError "Camera streaming start failed".toList) c
    let c ← closeCapture c
    .ok (setEthernetLink true c)
  else
    let c := emit (.statusUpdate "Camera streaming...".toList) c
    let c ← captureLoop passes { c with running := true }
    let c ← closeCapture c
    .ok (setEthernetLink true (closeBH1750 c))

/-- Every access is within the array, and what was mapped was unmapped. -/
def Safe (k : Calls) (passes : List Pass) : Prop :=
  ∃ c, run k passes {} = .ok c ∧ Settled c.mappings

/-! ### Within the array -/

variable {k : Calls} {c : Camera}

theorem numbuffer_eq (count : UInt32) :
    numbuffer count = if count.toNat < 2 ^ 31 then count.toNat else 0 := by
  have hcount : count.toNat < 2 ^ 32 := count.toNat_lt
  have hint : count.toInt32.toInt =
      if 2 * count.toNat < 2 ^ 32 then (count.toNat : Int) else count.toNat - (2 ^ 32 : Nat) :=
    BitVec.toInt_eq_toNat_cond count.toBitVec
  unfold numbuffer
  rw [hint]
  split_ifs <;> omega

theorem access_of_lt {i : Nat} (hi : i < CAPTURE_MAX_BUFFER) :
    access i c = .ok (c.videodev.buff_info.getD i { index := i }) := if_pos hi

theorem access_of_le {i : Nat} (hi : CAPTURE_MAX_BUFFER ≤ i) : access i c = .error i :=
  if_neg (Nat.not_lt.mpr hi)

theorem mapBuffers_fitting {n i : Nat} (hn : i + n ≤ CAPTURE_MAX_BUFFER) :
    mapBuffers k n i c = .ok (CameraResources.mapBuffers k.fitting n i c) := by
  induction n generalizing i c with
  | zero => rfl
  | succ n ih =>
    have hi : i < CAPTURE_MAX_BUFFER := Nat.lt_of_lt_of_le (Nat.lt_add_of_pos_right n.succ_pos) hn
    have hrest : i + 1 + n ≤ CAPTURE_MAX_BUFFER := by
      rw [Nat.add_assoc, Nat.add_comm 1]
      exact hn
    simp only [mapBuffers, CameraResources.mapBuffers, Calls.fitting]
    cases k.querybuf i with
    | none => rfl
    | some length =>
      simp only [access_of_lt hi]
      cases k.mmap i with
      | none => rfl
      | some start => exact ih hrest

/-- The loop over the buffers, taken apart. -/
theorem mapBuffers_add (n m i : Nat) :
    mapBuffers k (n + m) i c = (do
      let (c, mapped) ← mapBuffers k n i c
      if mapped then mapBuffers k m (i + n) c else .ok (c, false)) := by
  induction n generalizing i c with
  | zero =>
    rw [Nat.zero_add]
    rfl
  | succ n ih =>
    rw [Nat.succ_add]
    simp only [mapBuffers]
    cases k.querybuf i with
    | none => rfl
    | some length =>
      cases haccess : access i c with
      | error j => rfl
      | ok b =>
        cases k.mmap i with
        | none => rfl
        | some start =>
          have hnext : i + 1 + n = i + (n + 1) := by rw [Nat.add_assoc, Nat.add_comm 1]
          rw [← hnext]
          exact ih (i + 1)

theorem closeBuffer_eq {i : Nat} {b : BufInfo} (hi : i < CAPTURE_MAX_BUFFER)
    (hb : c.videodev.buff_info[i]? = some b) :
    closeBuffer c i =
      .ok { setBuffer i (unmapped b) c with
        mappings := c.mappings ++ (mapping b).toList.map .released } := by
  have hread : access i c = .ok b := by
    rw [access_of_lt hi, List.getD_eq_getElem?_getD, hb, Option.getD_some]
  unfold closeBuffer
  rw [hread]
  cases hmapping : mapping b with
  | none =>
    have hsame : unmapped b = b := by
      unfold unmapped
      rw [if_neg]
      simpa [mapping] using hmapping
    obtain ⟨hlt, rfl⟩ := List.getElem?_eq_some_iff.mp hb
    simp only [bind, Except.bind, hmapping, hsame, setBuffer, List.set_getElem_self,
      Option.toList_none, List.map_nil, List.append_nil]
  | some m =>
    simp only [bind, Except.bind, hmapping]
    rfl

/-- The loop of `closeCapture` from the buffer after `done` on. -/
theorem foldlM_closeBuffer (rest done : List BufInfo) {c : Camera}
    (hbuffers : c.videodev.buff_info = done ++ rest)
    (hlength : done.length + rest.length ≤ CAPTURE_MAX_BUFFER) :
    (List.range' done.length rest.length).foldlM closeBuffer c =
      .ok { c with
        videodev := { c.videodev with buff_info := done ++ rest.map unmapped }
        mappings := c.mappings ++ (rest.filterMap mapping).map .released } := by
  induction rest generalizing done c with
  | nil => simp [← hbuffers, pure, Except.pure]
  | cons b rest ih =>
    have hi : done.length < CAPTURE_MAX_BUFFER :=
      Nat.lt_of_lt_of_le (Nat.lt_add_of_pos_right rest.length.succ_pos) hlength
    have hb : c.videodev.buff_info[done.length]? = some b := by
      rw [hbuffers, List.getElem?_append_right (Nat.le_refl _), Nat.sub_self]
      rfl
    have hnext : (done ++ [unmapped b]).length + rest.length ≤ CAPTURE_MAX_BUFFER := by
      rw [List.length_append, List.length_singleton, Nat.add_assoc, Nat.add_comm 1]
      exact hlength
    have hset : c.videodev.buff_info.set done.length (unmapped b) =
        (done ++ [unmapped b]) ++ rest := by
      rw [hbuffers, List.set_append_right _ _ (Nat.le_refl _), Nat.sub_self, List.set_cons_zero,
        List.append_assoc, List.singleton_append]
    have hreleased : ((b :: rest).filterMap mapping).map (Entry.released (α := Nat × Nat)) =
        (mapping b).toList.map .released ++ (rest.filterMap mapping).map .released := by
      rw [List.filterMap_cons]
      cases mapping b <;> rfl
    rw [List.length_cons, List.range'_succ, List.foldlM_cons, closeBuffer_eq hi hb,
      ← List.length_singleton (a := unmapped b), ← List.length_append]
    refine (ih _ hset hnext).trans ?_
    simp only [setBuffer, hreleased, List.map_cons, List.append_assoc, List.singleton_append]

/-- **`closeCapture` stays within the array**, whatever the count was. -/
theorem closeCapture_eq (hlength : c.videodev.buff_info.length = CAPTURE_MAX_BUFFER) :
    closeCapture c = .ok (CameraResources.closeCapture c) := by
  have hloop := foldlM_closeBuffer c.videodev.buff_info [] rfl (by
    rw [List.length_nil, Nat.zero_add, hlength])
  rw [List.length_nil, hlength, ← List.range_eq_range'] at hloop
  unfold closeCapture
  rw [hloop]
  simp only [bind, Except.bind, CameraResources.closeCapture, List.nil_append]
  split_ifs <;> rfl

/-! ### The frames -/

/-- The pass without the index. -/
def Pass.outcome (p : Pass) : SelectResult × DqbufResult :=
  (p.select, match p.dqbuf with
    | .frame _ => .frame
    | .again => .again
    | .error => .error)

/-- A system call fails, which ends the loop. -/
def Pass.ends (p : Pass) : Bool := p.select = .error ∨ (p.select = .readable ∧ p.dqbuf = .error)

/-- The index of the buffer that is converted. -/
def Pass.converts (p : Pass) : Option Nat :=
  match p.select, p.dqbuf with
  | .readable, .frame index => if p.uiReady ∨ ¬ p.savePath.isEmpty then some index.toNat else none
  | _, _ => none

def Pass.Beyond (p : Pass) : Prop := ∃ i, p.converts = some i ∧ CAPTURE_MAX_BUFFER ≤ i

/-- A buffer beyond the array is converted before the loop ends. -/
def ConvertsBeyond (passes : List Pass) : Prop :=
  ∃ p ∈ passes.takeWhile (! ·.ends), p.Beyond

theorem captureFrame_cases (p : Pass) (c : Camera) :
    (p.Beyond ∧ p.ends = false ∧ ∃ i, captureFrame p c = .error i) ∨
    (¬ p.Beyond ∧ captureFrame p c =
      .ok (CameraResources.captureFrame p.outcome.1 p.outcome.2 c)) := by
  obtain ⟨select, dqbuf, uiReady, savePath⟩ := p
  cases select with
  | timeout | interrupted | error => exact .inr ⟨by simp [Pass.Beyond, Pass.converts], rfl⟩
  | readable =>
    cases dqbuf with
    | again | error => exact .inr ⟨by simp [Pass.Beyond, Pass.converts], rfl⟩
    | frame index =>
      by_cases hconverted : uiReady ∨ ¬ savePath.isEmpty
      · have hconverts : Pass.converts ⟨.readable, .frame index, uiReady, savePath⟩ =
            some index.toNat := if_pos hconverted
        by_cases hindex : index.toNat < CAPTURE_MAX_BUFFER
        · right
          constructor
          · rintro ⟨i, hi, hle⟩
            obtain rfl := Option.some.inj (hconverts.symm.trans hi)
            exact Nat.not_lt.mpr hle hindex
          · simp only [captureFrame, if_pos hconverted, access_of_lt hindex]
            rfl
        · left
          refine ⟨⟨_, hconverts, Nat.not_lt.mp hindex⟩, by simp [Pass.ends], index.toNat, ?_⟩
          simp only [captureFrame, if_pos hconverted, access_of_le (Nat.not_lt.mp hindex)]
          rfl
      · have hconverts : Pass.converts ⟨.readable, .frame index, uiReady, savePath⟩ = none :=
          if_neg hconverted
        right
        constructor
        · rintro ⟨i, hi, _⟩
          exact Option.some_ne_none i (hi.symm.trans hconverts)
        · simp only [captureFrame, if_neg hconverted]
          rfl

theorem ends_iff (p : Pass) (c : Camera) :
    (CameraResources.captureFrame p.outcome.1 p.outcome.2 c).2 < 0 ↔ p.ends = true := by
  obtain ⟨select, dqbuf, uiReady, savePath⟩ := p
  cases select <;> cases dqbuf <;>
    simp [CameraResources.captureFrame, Pass.outcome, Pass.ends]

/-- The loop ends at a buffer beyond the array, if it comes to one. -/
theorem captureLoop_cases (passes : List Pass) (c : Camera) :
    (ConvertsBeyond passes ∧ ∃ i, captureLoop passes c = .error i) ∨
    (¬ ConvertsBeyond passes ∧
      captureLoop passes c = .ok (CameraResources.captureLoop (passes.map Pass.outcome) c)) := by
  induction passes generalizing c with
  | nil => exact .inr ⟨by simp [ConvertsBeyond], rfl⟩
  | cons p passes ih =>
    simp only [captureLoop]
    rcases captureFrame_cases p c with ⟨hbeyond, hends, i, hframe⟩ | ⟨hbeyond, hframe⟩
    · left
      refine ⟨⟨p, ?_, hbeyond⟩, i, ?_⟩
      · rw [List.takeWhile_cons_of_pos (by simp [hends])]
        exact List.mem_cons_self
      · rw [hframe]
        rfl
    · have hends := ends_iff p c
      rw [hframe]
      simp only [bind, Except.bind, List.map_cons, CameraResources.captureLoop]
      by_cases hr : (CameraResources.captureFrame p.outcome.1 p.outcome.2 c).2 < 0
      · right
        rw [if_pos hr, if_pos hr]
        refine ⟨?_, rfl⟩
        rintro ⟨q, hq, _⟩
        rw [List.takeWhile_cons_of_neg (by simp [hends.mp hr])] at hq
        exact List.not_mem_nil hq
      · have hgoes : ConvertsBeyond (p :: passes) ↔ ConvertsBeyond passes := by
          unfold ConvertsBeyond
          rw [List.takeWhile_cons_of_pos (by simpa [hends] using hr), List.exists_mem_cons_iff]
          exact or_iff_right hbeyond
        rw [if_neg hr, if_neg hr, hgoes]
        exact ih _

/-! ### The buffers -/

/-- Every call up to REQBUFS succeeds, and the driver grants so many buffers. -/
def Granted (k : Calls) (count : UInt32) : Prop :=
  (∃ n, Prepared k.fitting n) ∧ k.reqbufs = some count

/-- If the driver grants buffers, they fit into the array. -/
def Fits (k : Calls) : Prop := ∀ count, Granted k count → numbuffer count ≤ CAPTURE_MAX_BUFFER

/-- The loop over the buffers gets to the buffer after the array. -/
def MapsBeyond (k : Calls) : Prop :=
  ∃ count, Granted k count ∧ CAPTURE_MAX_BUFFER < numbuffer count ∧
    (∀ i < CAPTURE_MAX_BUFFER, Mappable k.fitting i) ∧ k.querybuf CAPTURE_MAX_BUFFER ≠ none

/-- The first buffer is mapped, and a later one fails. -/
def MapsPart (k : Calls) : Prop :=
  ∃ count, Granted k count ∧ (0 < numbuffer count ∧ Mappable k.fitting 0) ∧
    ¬ ∀ i < numbuffer count, Mappable k.fitting i

theorem Granted.unique {m n : UInt32} (hm : Granted k m) (hn : Granted k n) : m = n :=
  Option.some.inj (hm.2.symm.trans hn.2)

theorem prepared_fitting {count : UInt32} {n : Nat} (hcount : k.reqbufs = some count)
    (h : Prepared k.fitting n) : n = min (numbuffer count) CAPTURE_MAX_BUFFER := by
  have hn : k.fitting.reqbufs = some (min (numbuffer count) CAPTURE_MAX_BUFFER) := by
    simp only [Calls.fitting, hcount, Option.map_some]
  exact Option.some.inj (h.2.2.2.symm.trans hn)

/-- With a count that fits, `initCapture` is the one that does not check. -/
theorem initCapture_eq (hfits : Fits k) (c : Camera) :
    initCapture k c = .ok (CameraResources.initCapture k.fitting c) := by
  unfold initCapture CameraResources.initCapture
  by_cases hopen : c.videodev.fd ≥ 0
  · rw [if_pos hopen, if_pos hopen]
  · rw [if_neg hopen, if_neg hopen]
    cases hcandidate : openCandidate k.fitting with
    | none => rfl
    | some fd =>
      simp only [videodev_init, CameraResources.videodev_init]
      cases hcap : k.querycap with
      | none => simp only [show k.fitting.querycap = _ from hcap]
      | some capabilities =>
        simp only [show k.fitting.querycap = _ from hcap]
        split_ifs with hcannot
        · rfl
        · cases hformat : k.sFmt with
          | none => simp only [show k.fitting.sFmt = _ from hformat]
          | some size =>
            simp only [show k.fitting.sFmt = _ from hformat]
            cases hcount : k.reqbufs with
            | none =>
              have hnone : k.fitting.reqbufs = none := by simp [Calls.fitting, hcount]
              simp only [hnone]
            | some count =>
              have hcut : k.fitting.reqbufs = some (min (numbuffer count) CAPTURE_MAX_BUFFER) := by
                simp [Calls.fitting, hcount]
              have hprepared : Prepared k.fitting (min (numbuffer count) CAPTURE_MAX_BUFFER) :=
                ⟨by simp [hcandidate], ⟨capabilities, hcap, hcannot⟩,
                  by simp [Calls.fitting, hformat], hcut⟩
              have hle := hfits count ⟨⟨_, hprepared⟩, hcount⟩
              have hsum : 0 + numbuffer count ≤ CAPTURE_MAX_BUFFER := by rwa [Nat.zero_add]
              simp only [hcut, Nat.min_eq_left hle, mapBuffers_fitting hsum, bind, Except.bind]
              split_ifs <;> rfl

/-- Up to the loop over the buffers nothing is mapped. -/
theorem initCapture_granted {count : UInt32} (h : Granted k count) (hkept : Kept c)
    (hvideo : c.videodev.fd < 0) (hfree : Unmapped c 0) (hnone : heldMappings c = []) :
    ∃ fd c', Kept c' ∧ Unmapped c' 0 ∧ heldMappings c' = [] ∧
      initCapture k c = (do
        let (c, mapped) ← mapBuffers k (numbuffer count) 0 c'
        if mapped then .ok (c, 0) else .ok (initFailed fd c)) := by
  obtain ⟨⟨n, hcandidate, ⟨capabilities, hcap, hcan⟩, hformat, -⟩, hcount⟩ := h
  obtain ⟨fd, hfd⟩ := Option.ne_none_iff_exists'.mp hcandidate
  obtain ⟨⟨width, height⟩, hsize⟩ := Option.ne_none_iff_exists'.mp hformat
  have hopened := kept_openVideo hkept hvideo (Int.natCast_nonneg fd)
  refine ⟨fd,
    { opened fd c with
      videodev := { c.videodev with
        fd := fd, cap_width := width, cap_height := height, numbuffer := numbuffer count } },
    ⟨hopened.files, hopened.mappings⟩, ⟨hfree.length, hfree.free⟩, hnone, ?_⟩
  unfold initCapture
  rw [if_neg (Int.not_le.mpr hvideo), hfd]
  simp only [videodev_init, show k.querycap = _ from hcap, if_neg hcan,
    show k.sFmt = _ from hsize, hcount]
  rfl

/-- The loop over more buffers than the array has: it gets to the one after the array, or a
    buffer fails before that. -/
theorem mapBuffers_unfit {n : Nat} (hn : CAPTURE_MAX_BUFFER < n) (hkept : Kept c)
    (hfree : Unmapped c 0) (hnone : heldMappings c = []) :
    (((∀ i < CAPTURE_MAX_BUFFER, Mappable k.fitting i) ∧ k.querybuf CAPTURE_MAX_BUFFER ≠ none) ∧
      mapBuffers k n 0 c = .error CAPTURE_MAX_BUFFER) ∨
    (¬ ((∀ i < CAPTURE_MAX_BUFFER, Mappable k.fitting i) ∧
      k.querybuf CAPTURE_MAX_BUFFER ≠ none) ∧
      ∃ c', mapBuffers k n 0 c = .ok (c', false) ∧ Kept c' ∧
        (heldMappings c' = [] ↔ ¬ Mappable k.fitting 0)) := by
  obtain ⟨m, hm⟩ := Nat.exists_eq_add_of_lt hn
  have hfit : 0 + CAPTURE_MAX_BUFFER ≤ CAPTURE_MAX_BUFFER := Nat.le_of_eq (Nat.zero_add _)
  have hspec := mapBuffers_spec (o := k.fitting) hfree hfit hkept
  rw [hm, Nat.add_assoc, mapBuffers_add, mapBuffers_fitting hfit]
  generalize CameraResources.mapBuffers k.fitting CAPTURE_MAX_BUFFER 0 c = r at hspec ⊢
  obtain ⟨c', mapped⟩ := r
  obtain ⟨hkept', hall, hheld⟩ := hspec
  have hmaps : (∀ i < CAPTURE_MAX_BUFFER, Mappable k.fitting i) ↔ mapped = true := by
    refine Iff.trans ?_ hall.symm
    rw [Nat.zero_add]
    exact ⟨fun h i _ hi => h i hi, fun h i hi => h i (Nat.zero_le i) hi⟩
  have hfirst : heldMappings c' = [] ↔ ¬ Mappable k.fitting 0 :=
    hheld.trans ⟨fun h => h.2 (by decide), fun h => ⟨hnone, fun _ => h⟩⟩
  cases mapped with
  | false =>
    exact .inr ⟨fun h => Bool.false_ne_true (hmaps.mp h.1), c', rfl, hkept', hfirst⟩
  | true =>
    have hnext : mapBuffers k (m + 1) (0 + CAPTURE_MAX_BUFFER) c' =
        if k.querybuf CAPTURE_MAX_BUFFER = none then .ok (c', false)
          else .error CAPTURE_MAX_BUFFER := by
      simp only [mapBuffers, Nat.zero_add, access_of_le (Nat.le_refl _)]
      cases k.querybuf CAPTURE_MAX_BUFFER <;> rfl
    by_cases hquery : k.querybuf CAPTURE_MAX_BUFFER = none
    · rw [if_pos hquery] at hnext
      exact .inr ⟨fun h => h.2 hquery, c', hnext, hkept', hfirst⟩
    · rw [if_neg hquery] at hnext
      exact .inl ⟨⟨hmaps.mpr rfl, hquery⟩, hnext⟩

/-- **A count beyond the array** never gets `initCapture` to its end. -/
theorem initCapture_unfit {count : UInt32} (h : Granted k count)
    (hcount : CAPTURE_MAX_BUFFER < numbuffer count) (hkept : Kept c) (hvideo : c.videodev.fd < 0)
    (hfree : Unmapped c 0) (hnone : heldMappings c = []) :
    (MapsBeyond k ∧ ∃ i, initCapture k c = .error i) ∨
    (¬ MapsBeyond k ∧ ∃ c', initCapture k c = .ok (c', -1) ∧
      Balanced c'.mappings (heldMappings c') ∧
      (heldMappings c' = [] ↔ ¬ Mappable k.fitting 0)) := by
  obtain ⟨fd, c', hkept', hfree', hnone', hinit⟩ :=
    initCapture_granted h hkept hvideo hfree hnone
  rw [hinit]
  rcases mapBuffers_unfit hcount hkept' hfree' hnone' with
    ⟨hbeyond, hloop⟩ | ⟨hbeyond, c4, hloop, hkept4, hheld⟩
  · left
    refine ⟨⟨count, h, hcount, hbeyond⟩, CAPTURE_MAX_BUFFER, ?_⟩
    rw [hloop]
    rfl
  · right
    refine ⟨fun ⟨_, _, _, hagain⟩ => hbeyond hagain, (initFailed fd c4).1, ?_, hkept4.mappings,
      hheld⟩
    rw [hloop]
    rfl

/-- Where the count does not fit, a buffer that fails leaves the first one mapped. -/
theorem mapsPart_iff {count : UInt32} (h : Granted k count)
    (hcount : CAPTURE_MAX_BUFFER < numbuffer count) (hnot : ¬ MapsBeyond k) :
    MapsPart k ↔ Mappable k.fitting 0 := by
  constructor
  · exact fun ⟨_, _, ⟨_, hfirst⟩, _⟩ => hfirst
  · intro hfirst
    refine ⟨count, h, ⟨Nat.zero_lt_of_lt hcount, hfirst⟩, fun hall => hnot ?_⟩
    exact ⟨count, h, hcount, fun i hi => hall i (Nat.lt_trans hi hcount), (hall _ hcount).1⟩

/-- Where the count fits, both loops over the buffers go equally far. -/
theorem mapsSome_iff (hfits : Fits k) : MapsSome k.fitting ↔ MapsPart k := by
  constructor
  · rintro ⟨n, hprepared, hrest⟩
    cases hcount : k.reqbufs with
    | none => exact absurd hprepared.2.2.2 (by simp [Calls.fitting, hcount])
    | some count =>
      have hgranted : Granted k count := ⟨⟨n, hprepared⟩, hcount⟩
      have hn := prepared_fitting hcount hprepared
      rw [Nat.min_eq_left (hfits count hgranted)] at hn
      exact ⟨count, hgranted, hn ▸ hrest⟩
  · rintro ⟨count, hgranted, hrest⟩
    obtain ⟨⟨n, hprepared⟩, hcount⟩ := hgranted
    have hn := prepared_fitting hcount hprepared
    rw [Nat.min_eq_left (hfits count ⟨⟨n, hprepared⟩, hcount⟩)] at hn
    exact ⟨n, hprepared, hn ▸ hrest⟩

/-! ### The whole run -/

theorem length_mapBuffers (o : Outcomes) (n i : Nat) (c : Camera) :
    (CameraResources.mapBuffers o n i c).1.videodev.buff_info.length =
      c.videodev.buff_info.length := by
  induction n generalizing i c with
  | zero => rfl
  | succ n ih =>
    simp only [CameraResources.mapBuffers]
    cases o.querybuf i with
    | none => rfl
    | some length =>
      cases o.mmap i with
      | none => exact List.length_set
      | some start => exact (ih _ _).trans List.length_set

theorem length_initCapture (o : Outcomes) (c : Camera) :
    (CameraResources.initCapture o c).1.videodev.buff_info.length =
      c.videodev.buff_info.length := by
  unfold CameraResources.initCapture
  split_ifs
  · rfl
  · cases openCandidate o with
    | none => rfl
    | some fd =>
      simp only [CameraResources.videodev_init]
      cases o.querycap with
      | none => rfl
      | some capabilities =>
        simp only
        split_ifs
        · rfl
        · cases o.sFmt with
          | none => rfl
          | some size =>
            cases o.reqbufs with
            | none => rfl
            | some count =>
              simp only
              split_ifs <;> exact length_mapBuffers _ _ _ _

/-- **With a count that fits, the checked run is the one of `CameraResources`**, unless a frame
    is converted from a buffer beyond the array. -/
theorem run_cases (hfits : Fits k) (passes : List Pass) :
    ((Starts k.fitting ∧ ConvertsBeyond passes) ∧ ∃ i, run k passes {} = .error i) ∨
    (¬ (Starts k.fitting ∧ ConvertsBeyond passes) ∧
      run k passes {} = .ok (CameraResources.run k.fitting (passes.map Pass.outcome) {})) := by
  have hready := ready_initBH1750 k.fitting
  have hinit := hready.initTo
  simp only [run, CameraResources.run, initCapture_eq hfits]
  generalize (initBH1750 k.fitting (setEthernetLink false {})).1 = c at hready hinit ⊢
  have hlength := length_initCapture k.fitting c
  rw [hready.videodev] at hlength
  rcases hresult : CameraResources.initCapture k.fitting c with ⟨c', r⟩
  rw [hresult] at hinit hlength
  simp only [bind, Except.bind]
  by_cases hr : r < 0
  · right
    simp only [if_pos hr]
    exact ⟨fun h => hinit.not_starts hr h.1, trivial⟩
  · have hstart := hinit.startCapture_iff hr
    simp only [if_neg hr]
    by_cases hfails : startCapture k.fitting c' < 0
    · right
      simp only [if_pos hfails]
      refine ⟨fun h => hstart.mp hfails h.1, ?_⟩
      rw [closeCapture_eq]
      exact hlength
    · have hstarts : Starts k.fitting := not_not.mp (mt hstart.mpr hfails)
      simp only [if_neg hfails]
      rcases captureLoop_cases passes
        { emit (.statusUpdate "Camera streaming...".toList) c' with running := true } with
        ⟨hbeyond, i, hloop⟩ | ⟨hbeyond, hloop⟩
      · left
        refine ⟨⟨hstarts, hbeyond⟩, i, ?_⟩
        rw [hloop]
      · right
        refine ⟨fun h => hbeyond h.2, ?_⟩
        obtain ⟨total, htotal⟩ := captureLoop_frame (passes.map Pass.outcome)
          { emit (.statusUpdate "Camera streaming...".toList) c' with running := true }
        rw [hloop, htotal]
        simp only
        rw [closeCapture_eq]
        exact hlength

/-! ### Every count and every index -/

/-- The driver dequeues buffers that it granted. -/
def Dequeues (k : Calls) (passes : List Pass) : Prop :=
  ∀ count, k.reqbufs = some count →
    ∀ p ∈ passes, ∀ index, p.dqbuf = .frame index → index < count

/-- The count is negative as an `int`: the stream starts, and no buffer is mapped. -/
def StartsEmpty (k : Calls) : Prop :=
  Starts k.fitting ∧ ∃ count, k.reqbufs = some count ∧ 2 ^ 31 ≤ count.toNat

variable {passes : List Pass}

theorem granted_of_starts (h : Starts k.fitting) : ∃ count, Granted k count := by
  obtain ⟨⟨n, hprepared, _⟩, _⟩ := h
  cases hcount : k.reqbufs with
  | none => exact absurd hprepared.2.2.2 (by simp [Calls.fitting, hcount])
  | some count => exact ⟨count, ⟨n, hprepared⟩, hcount⟩

theorem Pass.Beyond.index {p : Pass} (h : p.Beyond) :
    ∃ index, p.dqbuf = .frame index ∧ CAPTURE_MAX_BUFFER ≤ index.toNat := by
  obtain ⟨i, hconverts, hle⟩ := h
  unfold Pass.converts at hconverts
  split at hconverts
  · next index _ hdqbuf =>
    split_ifs at hconverts
    obtain rfl := Option.some.inj hconverts
    exact ⟨index, hdqbuf, hle⟩
  · exact absurd hconverts.symm (Option.some_ne_none i)

/-- A buffer beyond the array can be dequeued only from more buffers than the array has. -/
theorem ConvertsBeyond.count_lt (h : ConvertsBeyond passes) (hindex : Dequeues k passes)
    {count : UInt32} (hcount : k.reqbufs = some count) : CAPTURE_MAX_BUFFER < count.toNat := by
  obtain ⟨p, hp, hbeyond⟩ := h
  obtain ⟨index, hdqbuf, hle⟩ := hbeyond.index
  have hlt : index < count := hindex count hcount p (List.takeWhile_subset _ hp) index hdqbuf
  exact Nat.lt_of_le_of_lt hle hlt

/-- With buffers that fit into the array, every access is within it. -/
theorem run_eq (hcount : ∀ count, k.reqbufs = some count → count.toNat ≤ CAPTURE_MAX_BUFFER)
    (hindex : Dequeues k passes) :
    run k passes {} = .ok (CameraResources.run k.fitting (passes.map Pass.outcome) {}) := by
  have hfits : Fits k := by
    intro count hgranted
    rw [numbuffer_eq]
    split_ifs
    · exact hcount count hgranted.2
    · exact Nat.zero_le _
  rcases run_cases hfits passes with ⟨⟨hstarts, hbeyond⟩, _⟩ | ⟨_, hrun⟩
  · obtain ⟨count, _, hgranted⟩ := granted_of_starts hstarts
    exact absurd (hcount count hgranted) (Nat.not_le.mpr (hbeyond.count_lt hindex hgranted))
  · exact hrun

theorem safe_of_fits (hfits : Fits k) :
    Safe k passes ↔ ¬ MapsPart k ∧ ¬ (Starts k.fitting ∧ ConvertsBeyond passes) := by
  unfold Safe
  rcases run_cases hfits passes with ⟨hbeyond, i, hrun⟩ | ⟨hbeyond, hrun⟩
  · rw [hrun]
    refine iff_of_false ?_ (fun h => h.2 hbeyond)
    rintro ⟨_, hok, _⟩
    cases hok
  · rw [hrun, ← mapsSome_iff hfits, and_iff_left hbeyond,
      ← run_mappings_iff k.fitting (passes.map Pass.outcome)]
    constructor
    · rintro ⟨c, hok, hsettled⟩
      obtain rfl := Except.ok.inj hok
      exact hsettled
    · exact fun hsettled => ⟨_, rfl, hsettled⟩

theorem safe_of_unfit {count : UInt32} (h : Granted k count)
    (hcount : CAPTURE_MAX_BUFFER < numbuffer count) :
    Safe k passes ↔ ¬ MapsBeyond k ∧ ¬ MapsPart k := by
  have hready := ready_initBH1750 k.fitting
  unfold Safe
  simp only [run]
  generalize (initBH1750 k.fitting (setEthernetLink false {})).1 = c at hready ⊢
  have hvideo : c.videodev.fd < 0 := by
    rw [hready.videodev]
    decide
  rcases initCapture_unfit h hcount hready.kept hvideo hready.unmapped hready.heldMappings with
    ⟨hbeyond, i, hinit⟩ | ⟨hbeyond, c', hinit, hbalanced, hheld⟩
  · rw [hinit]
    refine iff_of_false ?_ (fun hnot => hnot.1 hbeyond)
    rintro ⟨_, hok, _⟩
    cases hok
  · rw [hinit, and_iff_right hbeyond, mapsPart_iff h hcount hbeyond, ← hheld]
    constructor
    · rintro ⟨c'', hok, hsettled⟩
      obtain rfl := Except.ok.inj hok
      exact hbalanced.settled_iff.mp hsettled
    · exact fun hnil => ⟨_, rfl, hbalanced.settled_iff.mpr hnil⟩

/-- **Every access to `buff_info` is within the array and every buffer is given back, if and
    only if** the loop over the buffers does not get beyond the array, no buffer fails after
    the first was mapped, and, where the count is negative as an `int`, no frame is converted
    from beyond the array. -/
theorem safe_iff (hindex : Dequeues k passes) :
    Safe k passes ↔
      ¬ MapsBeyond k ∧ ¬ MapsPart k ∧ ¬ (StartsEmpty k ∧ ConvertsBeyond passes) := by
  by_cases hfits : Fits k
  · have hnot : ¬ MapsBeyond k :=
      fun ⟨count, hgranted, hlt, _⟩ => absurd (hfits count hgranted) (Nat.not_le.mpr hlt)
    have hempty : StartsEmpty k ∧ ConvertsBeyond passes ↔
        Starts k.fitting ∧ ConvertsBeyond passes := by
      constructor
      · exact fun ⟨⟨hstarts, _⟩, hbeyond⟩ => ⟨hstarts, hbeyond⟩
      · rintro ⟨hstarts, hbeyond⟩
        obtain ⟨count, hgranted⟩ := granted_of_starts hstarts
        have hlt := hbeyond.count_lt hindex hgranted.2
        have hle := hfits count hgranted
        rw [numbuffer_eq] at hle
        refine ⟨⟨hstarts, count, hgranted.2, ?_⟩, hbeyond⟩
        by_contra hsmall
        rw [if_pos (Nat.not_le.mp hsmall)] at hle
        exact Nat.not_le.mpr hlt hle
    rw [safe_of_fits hfits, hempty, and_iff_right hnot]
  · unfold Fits at hfits
    push Not at hfits
    obtain ⟨count, hgranted, hlt⟩ := hfits
    have hnot : ¬ (StartsEmpty k ∧ ConvertsBeyond passes) := by
      rintro ⟨⟨_, other, hother, hlarge⟩, _⟩
      obtain rfl := Option.some.inj (hgranted.2.symm.trans hother)
      rw [numbuffer_eq, if_neg (Nat.not_lt.mpr hlarge)] at hlt
      exact Nat.not_lt_zero _ hlt
    rw [safe_of_unfit hgranted hlt, and_iff_left hnot]

/-- A driver that grants so many buffers, all of which can be mapped. -/
def grants (count : UInt32) : Calls where
  openFile path := if path = "/dev/video7".toList then some 5 else none
  querycap := some (V4L2_CAP_VIDEO_CAPTURE ||| V4L2_CAP_STREAMING)
  sFmt := some (640, 480)
  reqbufs := some count
  querybuf := fun _ => some 614400
  mmap := fun i => some (65536 * (i + 1))
  qbuf := fun _ => true
  streamon := true

def fourthBuffer : Pass where
  select := .readable
  dqbuf := .frame 3
  uiReady := true
  savePath := []

theorem safe_iff_fourBuffers :
    Dequeues (grants 4) [fourthBuffer] ∧ Safe (grants 4) [fourthBuffer] := by
  have hindex : Dequeues (grants 4) [fourthBuffer] := by
    intro count hcount p hp index hdqbuf
    obtain rfl := Option.some.inj hcount
    obtain rfl := List.mem_singleton.mp hp
    obtain rfl := Dequeued.frame.inj hdqbuf
    decide
  refine ⟨hindex, (safe_iff hindex).mpr ⟨?_, ?_, ?_⟩⟩
  · rintro ⟨count, ⟨_, hcount⟩, hlt, _⟩
    obtain rfl := Option.some.inj hcount
    exact absurd hlt (by decide)
  · rintro ⟨count, _, _, hfails⟩
    exact hfails fun i _ => ⟨Option.some_ne_none _, Option.some_ne_none _⟩
  · rintro ⟨⟨_, count, hcount, hle⟩, _⟩
    obtain rfl := Option.some.inj hcount
    exact absurd hle (by decide)

/-- With one buffer more the loop of `initCapture` writes after the array. -/
theorem not_safe_fiveBuffers :
    Dequeues (grants 5) [] ∧ run (grants 5) [] {} = .error 4 ∧ ¬ Safe (grants 5) [] := by
  have hrun : run (grants 5) [] {} = .error 4 := by decide
  refine ⟨fun _ _ p hp => absurd hp List.not_mem_nil, hrun, ?_⟩
  rintro ⟨c, hok, _⟩
  rw [hrun] at hok
  cases hok

end CameraBuffers

end AlarmClock
