import AlarmClock.CameraDismiss
import AlarmClock.Lib.Forever
import Mathlib.Data.List.Basic

/-!
# The preview and its token

The camera thread sends a frame to the dialog when it finds `m_uiReady` set, which it then
clears, and the dialog sets it again at the end of the slot that shows the frame. Here the
dialog takes a signal at one moment and is done with it at a later one, with steps of the
thread in between; seen from the end of the slots, this is the dialog of the other modules.
-/

namespace AlarmClock

namespace Preview

open AlarmCameraThread CameraSystem

/-- The dialog may be in the middle of a slot; that signal is no longer in the queue. -/
structure PreviewSystem where
  camera : CameraSystem
  handling : Option Signal := none
deriving DecidableEq, Repr

/-- A slot runs from `take` to `finish`, and a press is not heard in between. -/
inductive Event where
  | press (now : Nat)
  | thread (e : Step)
  | take
  | finish
deriving DecidableEq, Repr

def buildCameraUi (alarmId : Int) : PreviewSystem where
  camera := CameraSystem.buildCameraUi alarmId

/-- A slot touches the thread with its last statement, if at all, and nothing else that the
    thread reads; what it does is done at its end. -/
def step (home : QString) (p : PreviewSystem) : Event → Option PreviewSystem
  | .press now =>
    if p.handling.isSome then none
    else (CameraSystem.step home p.camera (.press now)).map fun s => { p with camera := s }
  | .thread e => (CameraSystem.step home p.camera (.thread e)).map fun s => { p with camera := s }
  | .take =>
    match p.handling, p.camera.queue with
    | none, signal :: queue =>
      some { camera := { p.camera with queue := queue }, handling := some signal }
    | _, _ => none
  | .finish => p.handling.map fun signal => { camera := slot p.camera signal, handling := none }

/-- The signals that are handled or wait, oldest first. -/
def inFlight (p : PreviewSystem) : List Signal := p.handling.toList ++ p.camera.queue

/-- A signal that is handled counts as queued until its slot ends. -/
def whole (p : PreviewSystem) : CameraSystem := { p.camera with queue := inFlight p }

/-- The events as the other modules have them. -/
def delivered : Event → Option CameraSystem.Event
  | .press now => some (.press now)
  | .thread e => some (.thread e)
  | .take => none
  | .finish => some .deliver

variable {home : QString} {p p' : PreviewSystem}

/-- Every event, with what it finds and what it leaves. -/
inductive StepTo (home : QString) (p : PreviewSystem) : Event → PreviewSystem → Prop where
  | press (now : Nat) (hidle : p.handling = none) :
      StepTo home p (.press now)
        { p with camera := captureByButton home (QDateTime.currentDateTime now) p.camera }
  | thread (e : Step) (t' : AlarmCameraThread) (signals : List Signal)
      (hthread : p.camera.thread.step e = some (t', signals)) :
      StepTo home p (.thread e)
        { p with camera := { p.camera with thread := t', queue := p.camera.queue ++ signals } }
  | take (signal : Signal) (queue : List Signal) (hidle : p.handling = none)
      (hqueue : p.camera.queue = signal :: queue) :
      StepTo home p .take { camera := { p.camera with queue := queue }, handling := some signal }
  | finish (signal : Signal) (hhandling : p.handling = some signal) :
      StepTo home p .finish { camera := slot p.camera signal, handling := none }

theorem step_cases {e : Event} (h : step home p e = some p') : StepTo home p e p' := by
  cases e with
  | press now =>
    simp only [step] at h
    split_ifs at h with hhandling
    cases h
    exact .press now (Option.not_isSome_iff_eq_none.mp hhandling)
  | thread e =>
    obtain ⟨s, hs, rfl⟩ := Option.map_eq_some_iff.mp h
    obtain ⟨next, hnext, rfl⟩ := Option.map_eq_some_iff.mp hs
    exact .thread e next.1 next.2 hnext
  | take =>
    simp only [step] at h
    split at h
    · next signal queue hidle hqueue =>
      cases h
      exact .take signal queue hidle hqueue
    · cases h
  | finish =>
    obtain ⟨signal, hhandling, rfl⟩ := Option.map_eq_some_iff.mp h
    exact .finish signal hhandling

/-- A press neither reads nor writes the queue. -/
theorem captureByButton_of_queue (now : QDateTime) (s : CameraSystem) (queue : List Signal) :
    captureByButton home now { s with queue := queue } =
      { captureByButton home now s with queue := queue } := by
  simp only [captureByButton]
  split_ifs <;> rfl

theorem captureByButton_queue (now : QDateTime) (s : CameraSystem) :
    (captureByButton home now s).queue = s.queue := by
  simp only [captureByButton]
  split_ifs <;> rfl

theorem slot_of_queue (s : CameraSystem) (signal : Signal) (queue : List Signal) :
    slot { s with queue := queue } signal = { slot s signal with queue := queue } := by
  rcases signal with _ | ⟨_, _ | _, _⟩ | _ | _ | _ <;> rfl

/-- **The finer system refines the dialog**: a slot happens when it ends. -/
theorem step_whole (p : PreviewSystem) (e : Event) (p' : PreviewSystem)
    (h : step home p e = some p') :
    (delivered e).elim (whole p' = whole p) fun e =>
      CameraSystem.step home (whole p) e = some (whole p') := by
  cases step_cases h with
  | press now hidle =>
    simp only [delivered, Option.elim_some, CameraSystem.step, whole, inFlight,
      captureByButton_of_queue, captureByButton_queue]
  | thread e t' signals hthread =>
    simp only [delivered, Option.elim_some, CameraSystem.step, whole, inFlight, hthread,
      Option.map_some, List.append_assoc]
  | take signal queue hidle hqueue =>
    simp only [delivered, Option.elim_none, whole, inFlight, hidle, hqueue]
    rfl
  | finish signal hhandling =>
    simp only [delivered, Option.elim_some, CameraSystem.step, whole, inFlight, hhandling]
    simp [slot_of_queue]

theorem run_whole {es : List Event} (h : Machine.run (step home) p es = some p') :
    Machine.run (CameraSystem.step home) (whole p) (es.filterMap delivered) = some (whole p') :=
  Machine.run_filterMap step_whole h

/-! ### The token -/

/-- The thread has taken the token and has not sent its frame yet. -/
def claimed : Pc → Bool
  | .converting _ uiReady => uiReady
  | _ => false

/-- The token is at the flag, with the thread, or in a frame on its way. -/
structure Token (s : CameraSystem) : Prop where
  nonneg : 0 ≤ s.thread.uiReady
  one : s.thread.uiReady + s.queue.count .frameReady + (if claimed s.thread.pc then 1 else 0) = 1

/-- What a step of the thread does with the token, the frames that it sends counted. -/
theorem uiReady_step {t t' : AlarmCameraThread} {e : Step} {signals : List Signal}
    (h : t.step e = some (t', signals)) :
    (0 ≤ t.uiReady → 0 ≤ t'.uiReady) ∧
      t'.uiReady + signals.count .frameReady + (if claimed t'.pc then 1 else 0) =
        t.uiReady + (if claimed t.pc then 1 else 0) := by
  cases AlarmCameraThread.step_cases h with
  | claimed savePath hpc huiReady =>
    refine ⟨fun _ => Int.le_refl 0, ?_⟩
    simp [claimed, hpc, huiReady]
  | converted savePath uiReady hpc =>
    refine ⟨id, ?_⟩
    cases uiReady <;> by_cases hempty : savePath = [] <;> simp [claimed, hpc, hempty]
  | answered savePath luxRead saved hpc =>
    refine ⟨id, ?_⟩
    have hother : answer savePath luxRead saved t ≠ .frameReady := by
      intro hframe
      simp only [answer] at hframe
      split_ifs at hframe
    simp [claimed, hpc, hother]
  | waited result hpc _ _ => exact ⟨id, by simp [claimed, hpc]⟩
  | sensor _ hpc | init hpc | initFailed hpc | start hpc | startFailed hpc | stopped _ hpc _
    | selectFailed hpc _ | readable hpc _ | again hpc | dequeueFailed hpc | frame hpc
    | taken hpc | needed _ hpc _ _ | dropped hpc _ | finish hpc =>
    exact ⟨id, by simp [claimed, hpc]⟩

variable {s s' : CameraSystem}

/-- A slot gives the token back, if it shows a frame. -/
theorem slot_uiReady (signal : Signal) :
    (slot s signal).thread.uiReady = if signal = .frameReady then 1 else s.thread.uiReady := by
  rcases signal with _ | ⟨_, _ | _, _⟩ | _ | _ | _ <;> rfl

theorem token_buildCameraUi (alarmId : Int) : Token (CameraSystem.buildCameraUi alarmId) :=
  ⟨Int.one_nonneg, rfl⟩

theorem token_step {e : CameraSystem.Event} (hs : Token s)
    (h : CameraSystem.step home s e = some s') : Token s' := by
  cases CameraSystem.step_cases h with
  | ignored now _ => exact hs
  | unavailable now _ _ => exact ⟨hs.nonneg, hs.one⟩
  | requested now _ _ => exact ⟨hs.nonneg, hs.one⟩
  | thread e t' signals hthread =>
    obtain ⟨hnonneg, hone⟩ := uiReady_step hthread
    refine ⟨hnonneg hs.nonneg, ?_⟩
    have hold := hs.one
    simp only [List.count_append, Int.natCast_add]
    omega
  | deliver signal queue hqueue =>
    have hnonneg := hs.nonneg
    have hone := hs.one
    rw [hqueue, List.count_cons] at hone
    by_cases hframe : signal = .frameReady
    · have hthere : (signal == Signal.frameReady) = true := beq_iff_eq.mpr hframe
      rw [if_pos hthere] at hone
      constructor
      · rw [slot_uiReady, if_pos hframe]
        exact Int.one_nonneg
      · simp only [slot_uiReady, slot_queue, slot_pc, if_pos hframe]
        push_cast at hone
        omega
    · have hthere : (signal == Signal.frameReady) = false := beq_eq_false_iff_ne.mpr hframe
      rw [hthere, if_neg Bool.false_ne_true] at hone
      refine ⟨?_, ?_⟩
      · rw [slot_uiReady, if_neg hframe]
        exact hnonneg
      · simp only [slot_uiReady, slot_queue, slot_pc, if_neg hframe]
        exact hone

theorem token_run {alarmId : Int} {es : List Event}
    (hrun : Machine.run (step home) (buildCameraUi alarmId) es = some p) : Token (whole p) :=
  Machine.run_invariant (I := Token) (fun _ _ _ hs h => token_step hs h)
    (token_buildCameraUi alarmId) (run_whole hrun)

/-! ### Frames without end -/

/-- The token is not in a frame on its way. -/
def Free (t : AlarmCameraThread) : Prop := t.uiReady = 1 ∨ claimed t.pc = true

/-- The stages that a thread with a free token goes through until it sends a frame. -/
def untilFrame : Pc → Nat
  | .converting _ true => 0
  | .testing _ => 1
  | .locking => 1
  | _ => 2

/-- A thread whose token is free sends it off, or comes closer to that with every frame. -/
theorem free_step {t t' : AlarmCameraThread} {e : Step} {signals : List Signal}
    (hfree : Free t) (h : t.step e = some (t', signals)) :
    (e = .convert ∧ claimed t.pc = true) ∨
      Free t' ∧ untilFrame t'.pc ≤ untilFrame t.pc ∧
        (e = .dequeue .frame → untilFrame t'.pc < untilFrame t.pc) := by
  have hready : claimed t.pc = false → t.uiReady = 1 := by
    intro hpc
    rcases hfree with huiReady | hclaimed
    · exact huiReady
    · exact absurd (hpc.symm.trans hclaimed) Bool.false_ne_true
  cases AlarmCameraThread.step_cases h with
  | claimed savePath hpc huiReady =>
    refine .inr ⟨.inr rfl, ?_, nofun⟩
    exact Nat.zero_le _
  | converted savePath uiReady hpc =>
    cases uiReady with
    | true => exact .inl ⟨rfl, by simp [claimed, hpc]⟩
    | false =>
      refine .inr ⟨.inl (hready (by simp [claimed, hpc])), ?_, nofun⟩
      by_cases hempty : savePath = [] <;> simp [untilFrame, hpc, hempty]
  | needed savePath hpc huiReady _ => exact absurd (hready (by simp [claimed, hpc])) huiReady
  | dropped hpc huiReady => exact absurd (hready (by simp [claimed, hpc])) huiReady
  | frame hpc =>
    have huiReady := hready (by simp [claimed, hpc])
    exact .inr ⟨.inl huiReady, by simp [untilFrame, hpc], fun _ => by simp [untilFrame, hpc]⟩
  | waited result hpc _ _ => exact .inr ⟨hfree, Nat.le_refl _, nofun⟩
  | sensor _ hpc | init hpc | initFailed hpc | start hpc | startFailed hpc | stopped _ hpc _
    | selectFailed hpc _ | readable hpc _ | again hpc | dequeueFailed hpc | taken hpc
    | answered _ _ _ hpc | finish hpc =>
    have huiReady := hready (by simp [claimed, hpc])
    exact .inr ⟨.inl huiReady, by simp [untilFrame, hpc], nofun⟩

/-- The token is free, or its frame is on its way to the dialog. -/
theorem Token.free_or_mem (hs : Token s) : Free s.thread ∨ .frameReady ∈ s.queue := by
  by_cases hclaimed : claimed s.thread.pc = true
  · exact .inl (.inr hclaimed)
  · by_cases hmem : .frameReady ∈ s.queue
    · exact .inr hmem
    · have hone := hs.one
      rw [List.count_eq_zero_of_not_mem hmem, if_neg hclaimed] at hone
      exact .inl (.inl (by simpa using hone))

/-- A frame is sent. -/
def Sends (p : PreviewSystem) (e : Event) : Prop :=
  e = .thread .convert ∧ claimed p.camera.thread.pc = true

/-- A frame is shown, and the token given back. -/
def Shows (p : PreviewSystem) (e : Event) : Prop :=
  e = .finish ∧ p.handling = some .frameReady

/-- A free token stays free until it is sent, whatever the dialog does. -/
theorem free_system_step (e : Event) (hfree : Free p.camera.thread)
    (h : step home p e = some p') :
    Sends p e ∨ Free p'.camera.thread ∧
      untilFrame p'.camera.thread.pc ≤ untilFrame p.camera.thread.pc ∧
      (e = .thread (.dequeue .frame) →
        untilFrame p'.camera.thread.pc < untilFrame p.camera.thread.pc) := by
  cases step_cases h with
  | press now _ =>
    have hpress : (captureByButton home (QDateTime.currentDateTime now) p.camera).thread.uiReady =
        p.camera.thread.uiReady ∧
      (captureByButton home (QDateTime.currentDateTime now) p.camera).thread.pc =
        p.camera.thread.pc := by
      simp only [captureByButton]
      split_ifs <;> exact ⟨rfl, rfl⟩
    refine .inr ⟨?_, ?_, ?_⟩
    · simpa only [Free, hpress.1, hpress.2] using hfree
    · simp only [hpress.2, Nat.le_refl]
    · intro hframe
      cases hframe
  | thread e t' signals hthread =>
    rcases free_step hfree hthread with ⟨rfl, hclaimed⟩ | ⟨hfree', hle, hlt⟩
    · exact .inl ⟨rfl, hclaimed⟩
    · refine .inr ⟨hfree', hle, ?_⟩
      intro hframe
      exact hlt (Event.thread.inj hframe)
  | take signal queue _ _ =>
    refine .inr ⟨hfree, Nat.le_refl _, ?_⟩
    intro hframe
    cases hframe
  | finish signal _ =>
    refine .inr ⟨?_, ?_, ?_⟩
    · rcases hfree with huiReady | hclaimed
      · left
        rw [slot_uiReady, huiReady, ite_self]
      · right
        rw [slot_pc]
        exact hclaimed
    · simp only [slot_pc, Nat.le_refl]
    · intro hframe
      cases hframe

theorem sent_step (e : Event) (hsends : Sends p e) (h : step home p e = some p') :
    .frameReady ∈ inFlight p' := by
  obtain ⟨rfl, hclaimed⟩ := hsends
  cases step_cases h with
  | thread e t' signals hthread =>
    cases AlarmCameraThread.step_cases hthread with
    | converted savePath uiReady hpc =>
      have huiReady : uiReady = true := by simpa [claimed, hpc] using hclaimed
      simp [inFlight, huiReady]

/-- A frame on its way is shown, or moves up when a slot ends. -/
theorem frame_step (e : Event) (hframe : .frameReady ∈ inFlight p)
    (h : step home p e = some p') :
    Shows p e ∨ .frameReady ∈ inFlight p' ∧
      (inFlight p').idxOf .frameReady ≤ (inFlight p).idxOf .frameReady ∧
      (e = .finish → (inFlight p').idxOf .frameReady < (inFlight p).idxOf .frameReady) := by
  cases step_cases h with
  | press now _ =>
    right
    simp only [inFlight, captureByButton_queue]
    exact ⟨hframe, Nat.le_refl _, nofun⟩
  | thread e t' signals _ =>
    right
    have hafter : inFlight
        { p with camera := { p.camera with thread := t', queue := p.camera.queue ++ signals } } =
        inFlight p ++ signals := by simp [inFlight]
    rw [hafter, List.idxOf_append_of_mem hframe]
    exact ⟨List.mem_append_left _ hframe, Nat.le_refl _, nofun⟩
  | take signal queue hidle hqueue =>
    right
    have hsame : inFlight p =
        inFlight { camera := { p.camera with queue := queue }, handling := some signal } := by
      simp [inFlight, hidle, hqueue]
    rw [← hsame]
    exact ⟨hframe, Nat.le_refl _, nofun⟩
  | finish signal hhandling =>
    by_cases hsignal : signal = .frameReady
    · exact .inl ⟨rfl, hsignal ▸ hhandling⟩
    · right
      have hbefore : inFlight p = signal :: p.camera.queue := by simp [inFlight, hhandling]
      have hafter : inFlight { camera := slot p.camera signal, handling := none } =
          p.camera.queue := by simp [inFlight]
      rw [hbefore] at hframe ⊢
      rw [hafter, List.idxOf_cons_ne _ hsignal]
      exact ⟨(List.mem_cons.mp hframe).resolve_left (Ne.symm hsignal), Nat.le_succ _,
        fun _ => Nat.lt_succ_self _⟩

/-- The dialog gets round to what is queued. -/
def Attends (r : Machine.Forever (step home)) : Prop :=
  ∀ n, inFlight (r.state n) ≠ [] → ∃ k, n ≤ k ∧ r.event k = .finish

theorem shows_often {alarmId : Int} {r : Machine.Forever (step home)}
    (hstart : Machine.Reachable (step home) (buildCameraUi alarmId) (r.state 0))
    (hframes : r.Often fun _ e => e = .thread (.dequeue .frame)) (hattends : Attends r) :
    r.Often Shows := by
  have hshown : ∀ n, .frameReady ∈ inFlight (r.state n) →
      ∃ k, n ≤ k ∧ Shows (r.state k) (r.event k) := by
    intro n hn
    refine Machine.Forever.progress (P := fun p => .frameReady ∈ inFlight p)
      (H := fun e => e = .finish) (fun p => (inFlight p).idxOf .frameReady)
      (fun p e p' hp h => frame_step e hp h) ?_ hn
    intro m hm
    exact hattends m (List.ne_nil_of_mem hm)
  intro n
  obtain ⟨es, hes⟩ := Machine.Forever.reachable hstart n
  rcases (token_run hes).free_or_mem with hfree | hmem
  · obtain ⟨k, hnk, hsends⟩ := Machine.Forever.progress (P := fun p => Free p.camera.thread)
      (Q := Sends) (H := fun e => e = .thread (.dequeue .frame))
      (fun p => untilFrame p.camera.thread.pc) (fun p e p' hp h => free_system_step e hp h)
      (fun m _ => hframes m) hfree
    obtain ⟨l, hkl, hshows⟩ := hshown (k + 1) (sent_step _ hsends (r.next k))
    exact ⟨l, hnk.trans ((Nat.le_succ k).trans hkl), hshows⟩
  · exact hshown n hmem

/-- **The token is conserved.** In every state of every run the flag, the frames queued or
    handled and the frame about to be sent make one together, so that no more than one frame
    is on its way; and in every run without an end in which frames keep coming and the dialog
    attends to what is queued, the preview is shown a frame again and again. -/
theorem preview_token (home : QString) (alarmId : Int) :
    (∀ es p, Machine.run (step home) (buildCameraUi alarmId) es = some p →
      p.camera.thread.uiReady + (inFlight p).count .frameReady +
        (if claimed p.camera.thread.pc then 1 else 0) = 1 ∧
      (inFlight p).count .frameReady ≤ 1) ∧
    (∀ r : Machine.Forever (step home),
      Machine.Reachable (step home) (buildCameraUi alarmId) (r.state 0) →
      (r.Often fun _ e => e = .thread (.dequeue .frame)) → Attends r → r.Often Shows) := by
  constructor
  · intro es p hrun
    have htoken := token_run hrun
    have hone : p.camera.thread.uiReady + (inFlight p).count .frameReady +
      (if claimed p.camera.thread.pc then 1 else 0) = 1 := htoken.one
    have hnonneg : 0 ≤ p.camera.thread.uiReady := htoken.nonneg
    refine ⟨hone, ?_⟩
    split_ifs at hone <;> omega
  · intro r hstart hframes hattends
    exact shows_often hstart hframes hattends

/-- A camera that streams, and a dialog that shows each frame before the next one comes. -/
theorem preview_token_streaming :
    ∃ r : Machine.Forever (step "/root".toList),
      (r.Often fun _ e => e = .thread (.dequeue .frame)) ∧ Attends r ∧ r.Often Shows := by
  have hstart : ∃ p, Machine.run (step "/root".toList) (buildCameraUi 3)
      [.thread (.initBH1750 true), .thread (.initCapture true), .thread (.startCapture true),
        .take, .finish] = some p ∧
      Machine.run (step "/root".toList) p
        [.thread (.select .readable), .thread (.dequeue .frame), .thread .takePending,
          .thread .testAndSet, .thread .convert, .take, .finish] = some p :=
    ⟨_, rfl, rfl⟩
  obtain ⟨p, hlead, hcycle⟩ := hstart
  obtain ⟨r, hr, hevents⟩ := Machine.Forever.exists_of_cycle (by simp) hcycle
  have hframes : r.Often fun _ e => e = .thread (.dequeue .frame) := by
    intro n
    refine ⟨7 * n + 1, by omega, ?_⟩
    have hmod : (7 * n + 1) % 7 = 1 := by omega
    have hevent := hevents (7 * n + 1)
    simp only [List.length_cons, List.length_nil, Nat.reduceAdd, hmod] at hevent
    exact (Option.some.inj hevent).symm
  have hattends : Attends r := by
    intro n _
    refine ⟨7 * n + 6, by omega, ?_⟩
    have hmod : (7 * n + 6) % 7 = 6 := by omega
    have hevent := hevents (7 * n + 6)
    simp only [List.length_cons, List.length_nil, Nat.reduceAdd, hmod] at hevent
    exact (Option.some.inj hevent).symm
  refine ⟨r, hframes, hattends, (preview_token "/root".toList 3).2 r ?_ hframes hattends⟩
  exact ⟨_, hr ▸ hlead⟩

end Preview

end AlarmClock
