import AlarmClock.CameraDismiss

/-!
# Capture requests, answered one for one

A press of the button puts a path into the slot of the camera thread, the thread takes the
path with the next frame and answers it with one signal, and the dialog hears the answer
before it takes another press. A journal beside the run records what was asked, taken,
answered and heard; at every moment the four agree up to the one request under way.
-/

namespace AlarmClock

namespace CaptureRequests

open AlarmCameraThread CameraSystem

/-- The signals that answer a request. -/
def isAnswer : Signal → Bool
  | .captureSaved _ _ _ => true
  | .captureRejectedLowLight _ _ => true
  | _ => false

/-- The answers after which the button captures again. -/
def Refusal : Signal → Prop
  | .captureSaved _ ok _ => ok = false
  | .captureRejectedLowLight _ _ => True
  | _ => False

/-- The answers there are to a path: it was saved or could not be, or it was too dark. -/
def Answers (path : QString) (signal : Signal) : Prop :=
  (∃ ok errorText, signal = .captureSaved path ok errorText) ∨
    ∃ lux threshold, signal = .captureRejectedLowLight lux threshold

/-- No path, or one. -/
def present (path : QString) : List QString := if path = [] then [] else [path]

/-- The path that the thread carries from the lock to the answer. -/
def pathOf : Pc → QString
  | .testing savePath => savePath
  | .converting savePath _ => savePath
  | .answering savePath => savePath
  | _ => []

/-- The path that a step takes out of the slot. -/
def takenBy (t : AlarmCameraThread) : Step → List QString
  | .takePending => present t.pendingCapturePath
  | _ => []

/-- The signals that a step of the thread queues. -/
def emittedBy (t : AlarmCameraThread) (e : Step) : List Signal := ((t.step e).map (·.2)).getD []

/-- What was asked of the thread, what it took, what it answered to which path, and what the
    dialog has heard, each oldest first. -/
structure Journal where
  requests : List QString := []
  taken : List QString := []
  answers : List (QString × Signal) := []
  heard : List Signal := []
deriving DecidableEq, Repr

def note (home : QString) (s : CameraSystem) (e : Event) (j : Journal) : Journal :=
  match e with
  | .press now =>
    if s.dialog.captureRequested then j
    else
      { j with
        requests := j.requests ++ [photoPath home (QDateTime.currentDateTime now) s.dialog] }
  | .thread e =>
    { j with
      taken := j.taken ++ takenBy s.thread e
      answers := j.answers ++
        ((emittedBy s.thread e).filter isAnswer).map fun signal => (pathOf s.thread.pc, signal) }
  | .deliver => { j with heard := j.heard ++ (s.queue.take 1).filter isAnswer }

/-- The journal of a run of the dialog. -/
def journal (home : QString) (alarmId : Int) (es : List Event) : Journal :=
  Machine.noted (step home) (note home) (buildCameraUi alarmId) {} es

@[simp] theorem present_nil : present [] = [] := rfl

theorem present_of_ne {path : QString} (h : path ≠ []) : present path = [path] := if_neg h

theorem present_eq_nil {path : QString} : present path = [] ↔ path = [] := by
  unfold present
  split_ifs with h <;> simp [h]

theorem photoPath_ne_nil (home : QString) (now : QDateTime) (d : CameraDialog) :
    photoPath home now d ≠ [] := by
  simp [photoPath]

theorem emittedBy_of_step {t t' : AlarmCameraThread} {e : Step} {signals : List Signal}
    (h : t.step e = some (t', signals)) : emittedBy t e = signals := by
  simp [emittedBy, h]

theorem isAnswer_answer (savePath : QString) (luxRead : Option Nat) (saved : Bool)
    (t : AlarmCameraThread) : isAnswer (answer savePath luxRead saved t) = true := by
  simp only [answer]
  split_ifs <;> rfl

theorem answers_answer (savePath : QString) (luxRead : Option Nat) (saved : Bool)
    (t : AlarmCameraThread) : Answers savePath (answer savePath luxRead saved t) := by
  by_cases hdark : t.lightSensor ∧ 0 ≤ readLux luxRead t ∧ readLux luxRead t < t.luxThreshold
  · exact .inr ⟨_, _, if_pos hdark⟩
  · exact .inl ⟨_, _, if_neg hdark⟩

/-! ### The hand-off in the thread -/

/-- A thread that answers has a path to answer for. -/
def Carries (t : AlarmCameraThread) : Prop := ∀ savePath, t.pc = .answering savePath → savePath ≠ []

/-- What one step of the thread does with the path in the slot and the path it carries:
    a path that leaves the slot is carried, and a path that is carried no more is answered,
    with one signal. -/
structure Handed (t : AlarmCameraThread) (e : Step) (t' : AlarmCameraThread)
    (signals : List Signal) : Prop where
  slot : takenBy t e ++ present t'.pendingCapturePath = present t.pendingCapturePath
  carried : present (pathOf t.pc) ++ takenBy t e =
    (signals.filter isAnswer).map (fun _ => pathOf t.pc) ++ present (pathOf t'.pc)
  answers : ∀ signal ∈ signals.filter isAnswer, Answers (pathOf t.pc) signal
  carries : Carries t'

/-- A step that neither takes nor answers. -/
theorem handed_of_same {t t' : AlarmCameraThread} {e : Step} {signals : List Signal}
    (htaken : takenBy t e = []) (hslot : t'.pendingCapturePath = t.pendingCapturePath)
    (hpath : present (pathOf t'.pc) = present (pathOf t.pc))
    (hsignals : signals.filter isAnswer = []) (hcarries : Carries t') : Handed t e t' signals where
  slot := by rw [htaken, hslot, List.nil_append]
  carried := by rw [htaken, hsignals, hpath, List.append_nil, List.map_nil, List.nil_append]
  answers := by
    intro signal hsignal
    rw [hsignals] at hsignal
    exact absurd hsignal List.not_mem_nil
  carries := hcarries

theorem handed_step {t t' : AlarmCameraThread} {e : Step} {signals : List Signal}
    (hcarries : Carries t) (h : t.step e = some (t', signals)) : Handed t e t' signals := by
  cases AlarmCameraThread.step_cases h with
  | taken hpc =>
    refine ⟨?_, ?_, ?_, ?_⟩
    · simp [takenBy]
    · simp [takenBy, pathOf, hpc]
    · simp
    · intro savePath hanswering
      cases hanswering
  | converted savePath uiReady hpc =>
    apply handed_of_same
    · rfl
    · rfl
    · by_cases hempty : savePath = []
      · simp [pathOf, hpc, hempty]
      · simp [pathOf, hpc, hempty]
    · cases uiReady <;> rfl
    · intro path hanswering
      by_cases hempty : savePath = []
      · simp [hempty] at hanswering
      · simp only [List.isEmpty_iff, hempty, if_false] at hanswering
        cases hanswering
        exact hempty
  | answered savePath luxRead saved hpc =>
    have hne := hcarries savePath hpc
    have hanswer := isAnswer_answer savePath luxRead saved t
    refine ⟨rfl, ?_, ?_, ?_⟩
    · simp [takenBy, pathOf, hpc, hanswer, present_of_ne hne]
    · intro signal hsignal
      simp only [List.filter_cons, hanswer, if_true, List.filter_nil, List.mem_singleton] at hsignal
      subst hsignal
      simp only [pathOf, hpc]
      exact answers_answer savePath luxRead saved t
    · intro path hanswering
      cases hanswering
  | waited result hpc _ _ =>
    exact handed_of_same rfl rfl rfl rfl hcarries
  | sensor _ hpc | init hpc | initFailed hpc | start hpc | startFailed hpc | stopped _ hpc _
    | selectFailed hpc _ | readable hpc _ | again hpc | dequeueFailed hpc | frame hpc
    | claimed _ hpc _ | needed _ hpc _ _ | dropped hpc _ | finish hpc =>
    apply handed_of_same
    · rfl
    · rfl
    · simp [pathOf, hpc]
    · rfl
    · intro path hanswering
      cases hanswering

/-! ### The books of a run -/

/-- A request is under way: the dialog waits for its answer. -/
def Waiting (s : CameraSystem) : Prop :=
  s.dialog.captureRequested = true ∧ s.dialog.accepted = false

instance (s : CameraSystem) : Decidable (Waiting s) := inferInstanceAs (Decidable (_ ∧ _))

/-- The journal and the state agree: each list is the next one and what lies in between. -/
structure Books (s : CameraSystem) (j : Journal) : Prop where
  camera : CameraSystem.Inv s
  carries : Carries s.thread
  requests : j.requests = j.taken ++ present s.thread.pendingCapturePath
  taken : j.taken = j.answers.map Prod.fst ++ present (pathOf s.thread.pc)
  answers : j.answers.map Prod.snd = j.heard ++ s.queue.filter isAnswer
  own : ∀ a ∈ j.answers, Answers a.1 a.2
  waiting : j.requests.length = j.heard.length + if Waiting s then 1 else 0
  requested : s.dialog.accepted = true → s.dialog.captureRequested = true
  accepted : s.dialog.accepted = true →
    ∃ errorText, j.heard.getLast? = some (.captureSaved s.dialog.capturedPhotoPath true errorText)

variable {home : QString} {s s' : CameraSystem} {j : Journal}

theorem books_buildCameraUi (alarmId : Int) : Books (buildCameraUi alarmId) {} where
  camera := inv_buildCameraUi alarmId
  carries := nofun
  requests := rfl
  taken := rfl
  answers := rfl
  own := nofun
  waiting := rfl
  requested := nofun
  accepted := nofun

/-- Nothing is in the slot, carried or in flight beyond the one request under way. -/
theorem Books.length_le (hb : Books s j) :
    (s.queue.filter isAnswer).length + (present (pathOf s.thread.pc)).length +
      (present s.thread.pendingCapturePath).length = if Waiting s then 1 else 0 := by
  have hrequests := congrArg List.length hb.requests
  have htaken := congrArg List.length hb.taken
  have hanswers := congrArg List.length hb.answers
  simp only [List.length_append, List.length_map] at hrequests htaken hanswers
  have hwaiting := hb.waiting
  omega

theorem Books.slot_eq_nil (hb : Books s j) (hidle : ¬ Waiting s) :
    s.thread.pendingCapturePath = [] := by
  have hlength := hb.length_le
  rw [if_neg hidle] at hlength
  apply present_eq_nil.mp
  apply List.eq_nil_of_length_eq_zero
  omega

theorem books_requested (hb : Books s j) (hrequested : s.dialog.captureRequested = false)
    (path text : QString) (hpath : path ≠ []) :
    Books
      { s with
        dialog := { s.dialog with captureRequested := true, statusLabel := text }
        thread := s.thread.requestCapture path }
      { j with requests := j.requests ++ [path] } := by
  have hopen : s.dialog.accepted = false := by
    by_contra haccepted
    have hclosed := hb.requested (Bool.not_eq_false _ ▸ haccepted)
    exact Bool.false_ne_true (hrequested.symm.trans hclosed)
  have hidle : ¬ Waiting s := fun hwaiting =>
    Bool.false_ne_true (hrequested.symm.trans hwaiting.1)
  have hslot := hb.slot_eq_nil hidle
  refine ⟨⟨hb.camera.cameraThread, hb.camera.running⟩, hb.carries, ?_, hb.taken, hb.answers,
    hb.own, ?_, fun _ => rfl, ?_⟩
  · rw [hb.requests, hslot, present_nil, List.append_nil]
    exact congrArg (j.taken ++ ·) (present_of_ne hpath).symm
  · have hwaiting := hb.waiting
    rw [if_neg hidle] at hwaiting
    rw [if_pos ⟨rfl, hopen⟩, List.length_append, hwaiting]
    rfl
  · intro haccepted
    exact absurd (hopen.symm.trans haccepted) Bool.false_ne_true

theorem books_thread (hb : Books s j) {e : Step} {t' : AlarmCameraThread} {signals : List Signal}
    (h : s.thread.step e = some (t', signals)) :
    Books { s with thread := t', queue := s.queue ++ signals } (note home s (.thread e) j) := by
  have hhanded := handed_step hb.carries h
  have hrunning := running_step hb.camera.running h
  refine ⟨⟨hb.camera.cameraThread, hrunning⟩, hhanded.carries, ?_, ?_, ?_, ?_, hb.waiting,
    hb.requested, hb.accepted⟩
  · simp only [note]
    rw [hb.requests, List.append_assoc, hhanded.slot]
  · simp only [note, emittedBy_of_step h, List.map_append, List.map_map]
    rw [hb.taken, List.append_assoc, hhanded.carried, List.append_assoc]
    rfl
  · simp only [note, emittedBy_of_step h, List.map_append, List.map_map, List.filter_append]
    rw [hb.answers, List.append_assoc]
    congr 2
    exact List.map_id _
  · intro a ha
    simp only [note, emittedBy_of_step h, List.mem_append] at ha
    rcases ha with hold | hnew
    · exact hb.own a hold
    · obtain ⟨signal, hsignal, rfl⟩ := List.mem_map.mp hnew
      exact hhanded.answers signal hsignal

/-- The dialog waits while an answer is on its way to it. -/
theorem Books.waiting_of_answer (hb : Books s j) {signal : Signal} {queue : List Signal}
    (hqueue : s.queue = signal :: queue) (hanswer : isAnswer signal = true) : Waiting s := by
  by_contra hidle
  have hlength := hb.length_le
  rw [if_neg hidle, hqueue, List.filter_cons, if_pos hanswer, List.length_cons] at hlength
  omega

theorem slot_thread {signal : Signal} (hanswer : isAnswer signal = true) :
    (slot s signal).thread = s.thread := by
  rcases signal with _ | ⟨_, _ | _, _⟩ | _ | _ | _
  · cases hanswer
  · rfl
  · rfl
  · cases hanswer
  · rfl
  · cases hanswer

/-- An answer that is heard ends the wait, however the dialog takes it. -/
theorem books_heard (hb : Books s j) {signal : Signal} {queue : List Signal}
    (hqueue : s.queue = signal :: queue) (hanswer : isAnswer signal = true)
    (h : s' = slot { s with queue := queue } signal) (hidle : ¬ Waiting s')
    (hrequested : s'.dialog.accepted = true → s'.dialog.captureRequested = true)
    (haccepted : s'.dialog.accepted = true →
      ∃ errorText, signal = .captureSaved s'.dialog.capturedPhotoPath true errorText) :
    Books s' { j with heard := j.heard ++ [signal] } := by
  have hthread : s'.thread = s.thread := h ▸ slot_thread hanswer
  have hrest : s'.queue = queue := h ▸ slot_queue signal
  have hcamera : s'.dialog.cameraThread = true := by
    rw [h, slot_cameraThread]
    exact hb.camera.cameraThread
  have hwaiting := hb.waiting
  rw [if_pos (hb.waiting_of_answer hqueue hanswer)] at hwaiting
  refine ⟨⟨hcamera, hthread ▸ hb.camera.running⟩, hthread ▸ hb.carries, hthread ▸ hb.requests,
    hthread ▸ hb.taken, ?_, hb.own, ?_, hrequested, ?_⟩
  · rw [hb.answers, hqueue, hrest, List.filter_cons, if_pos hanswer, List.append_assoc]
    rfl
  · rw [if_neg hidle, hwaiting, List.length_append]
    rfl
  · intro hclosed
    obtain ⟨errorText, hsignal⟩ := haccepted hclosed
    exact ⟨errorText, by rw [List.getLast?_concat, hsignal]⟩

theorem books_deliver (hb : Books s j) {signal : Signal} {queue : List Signal}
    (hqueue : s.queue = signal :: queue) :
    Books (slot { s with queue := queue } signal) (note home s .deliver j) := by
  have hnote : note home s .deliver j =
      { j with heard := j.heard ++ [signal].filter isAnswer } := by
    simp [note, hqueue]
  have hother : isAnswer signal = false →
      j.answers.map Prod.snd = j.heard ++ queue.filter isAnswer := by
    intro hanswer
    rw [hb.answers, hqueue, List.filter_cons, hanswer, if_neg Bool.false_ne_true]
  rw [hnote]
  cases signal with
  | captureSaved path ok errorText =>
    have hwaiting := hb.waiting_of_answer hqueue rfl
    cases ok with
    | true =>
      apply books_heard hb hqueue rfl rfl
      · exact fun h => Bool.false_ne_true h.2.symm
      · exact fun _ => hwaiting.1
      · exact fun _ => ⟨errorText, rfl⟩
    | false =>
      apply books_heard hb hqueue rfl rfl
      · exact fun h => Bool.false_ne_true h.1
      · exact fun h => absurd (hwaiting.2.symm.trans h) Bool.false_ne_true
      · exact fun h => absurd (hwaiting.2.symm.trans h) Bool.false_ne_true
  | captureRejectedLowLight lux threshold =>
    have hwaiting := hb.waiting_of_answer hqueue rfl
    apply books_heard hb hqueue rfl rfl
    · exact fun h => Bool.false_ne_true h.1
    · exact fun h => absurd (hwaiting.2.symm.trans h) Bool.false_ne_true
    · exact fun h => absurd (hwaiting.2.symm.trans h) Bool.false_ne_true
  | frameReady | cameraError _ | statusUpdate _ =>
    rw [List.filter_cons_of_neg (by simp [isAnswer]), List.filter_nil, List.append_nil]
    exact ⟨⟨hb.camera.cameraThread, hb.camera.running⟩, hb.carries, hb.requests, hb.taken,
      hother rfl, hb.own, hb.waiting, hb.requested, hb.accepted⟩

theorem books_step {e : Event} (hb : Books s j) (h : step home s e = some s') :
    Books s' (note home s e j) := by
  cases step_cases h with
  | ignored now hrequested =>
    simp only [note, hrequested, if_true]
    exact hb
  | unavailable now _ hnone =>
    exact absurd (hnone.symm.trans hb.camera.cameraThread) Bool.false_ne_true
  | requested now hrequested _ =>
    simp only [note, hrequested, Bool.false_eq_true, if_false]
    exact books_requested hb hrequested _ _ (photoPath_ne_nil _ _ _)
  | thread e t' signals hthread => exact books_thread hb hthread
  | deliver signal queue hqueue => exact books_deliver hb hqueue

theorem books_run {alarmId : Int} {es : List Event}
    (hrun : Machine.run (step home) (buildCameraUi alarmId) es = some s) :
    Books s (journal home alarmId es) := by
  have hstep : ∀ s j e s', Books s j → step home s e = some s' → Books s' (note home s e j) :=
    fun _ _ _ _ hb h => books_step hb h
  exact Machine.run_noted hstep (books_buildCameraUi alarmId) hrun

/-! ### Answers to what was taken -/

/-- What the journal of a run holds, the journal of a longer run holds. -/
theorem answers_noted (home : QString) (s : CameraSystem) (j : Journal) (es : List Event) :
    j.answers <+: (Machine.noted (step home) (note home) s j es).answers := by
  induction es generalizing s j with
  | nil => exact List.prefix_refl _
  | cons e es ih =>
    simp only [Machine.noted]
    cases step home s e with
    | none => exact List.prefix_refl _
    | some s' =>
      refine List.IsPrefix.trans ?_ (ih s' (note home s e j))
      cases e with
      | press now =>
        simp only [note]
        split_ifs <;> exact List.prefix_refl _
      | thread e => exact List.prefix_append _ _
      | deliver => exact List.prefix_refl _

/-- The steps to the answer. -/
def toAnswer : Pc → Nat
  | .testing _ => 3
  | .converting _ _ => 2
  | .answering _ => 1
  | _ => 0

/-- A thread that carries a path comes a step closer to the answer, or gives it. -/
theorem toAnswer_step {t t' : AlarmCameraThread} {e : Step} {signals : List Signal}
    (hpath : pathOf t.pc ≠ []) (h : t.step e = some (t', signals)) :
    pathOf t'.pc = [] ∨ toAnswer t'.pc + 1 = toAnswer t.pc := by
  cases AlarmCameraThread.step_cases h with
  | answered savePath luxRead saved hpc => exact .inl rfl
  | claimed savePath hpc huiReady => exact .inr (by simp [toAnswer, hpc])
  | needed savePath hpc huiReady hneeded => exact .inr (by simp [toAnswer, hpc])
  | converted savePath uiReady hpc =>
    have hne : savePath ≠ [] := by simpa [pathOf, hpc] using hpath
    exact .inr (by simp [toAnswer, hpc, hne])
  | dropped hpc _ => exact absurd (by simp [pathOf, hpc]) hpath
  | waited _ hpc _ _ | sensor _ hpc | init hpc | initFailed hpc | start hpc | startFailed hpc
    | stopped _ hpc _ | selectFailed hpc _ | readable hpc _ | again hpc | dequeueFailed hpc
    | frame hpc | taken hpc | finish hpc => exact absurd (by simp [pathOf, hpc]) hpath

/-- A thread that carries a path is never held up. -/
theorem exists_step {t : AlarmCameraThread} (hpath : pathOf t.pc ≠ []) :
    ∃ e, (t.step e).isSome = true := by
  rcases hpc : t.pc with _ | _ | _ | _ | _ | _ | savePath | ⟨savePath, uiReady⟩ | savePath | _ | _
  case testing =>
    refine ⟨.testAndSet, ?_⟩
    simp only [AlarmCameraThread.step, hpc]
    split_ifs <;> rfl
  case converting => exact ⟨.convert, by simp [AlarmCameraThread.step, hpc]⟩
  case answering => exact ⟨.answer none false, by simp [AlarmCameraThread.step, hpc]⟩
  all_goals exact absurd (by simp [pathOf, hpc]) hpath

def isThread : Event → Bool
  | .thread _ => true
  | _ => false

theorem toAnswer_pos {pc : Pc} (hpath : pathOf pc ≠ []) : 0 < toAnswer pc := by
  cases pc with
  | testing _ => exact Nat.succ_pos 2
  | converting _ _ => exact Nat.succ_pos 1
  | answering _ => exact Nat.succ_pos 0
  | _ => exact absurd rfl hpath

theorem taken_note (home : QString) (s : CameraSystem) (e : Event) (j : Journal) :
    j.taken <+: (note home s e j).taken := by
  cases e with
  | press now =>
    simp only [note]
    split_ifs <;> exact List.prefix_refl _
  | thread e => exact List.prefix_append _ _
  | deliver => exact List.prefix_refl _

/-- Only the thread moves the path that it carries. -/
theorem pc_step {e : Event} (hthread : isThread e = false) (h : step home s e = some s') :
    s'.thread.pc = s.thread.pc := by
  cases step_cases h with
  | ignored now _ => rfl
  | unavailable now _ _ => rfl
  | requested now _ _ => rfl
  | thread e t' signals _ => cases hthread
  | deliver signal queue _ => exact slot_pc signal

/-- **What was taken is answered**, within as many steps of the thread as there are to the
    answer, whatever comes between them. -/
theorem taken_answered {es : List Event} (hb : Books s j)
    (hrun : Machine.run (step home) s es = some s')
    (hsteps : pathOf s.thread.pc ≠ [] → toAnswer s.thread.pc ≤ es.countP isThread) :
    j.taken <+: (Machine.noted (step home) (note home) s j es).answers.map Prod.fst := by
  induction es generalizing s j with
  | nil =>
    have hpath : pathOf s.thread.pc = [] := by
      by_contra hpath
      exact absurd (hsteps hpath) (Nat.not_le.mpr (toAnswer_pos hpath))
    rw [hb.taken, hpath, present_nil, List.append_nil]
    exact List.prefix_refl _
  | cons e es ih =>
    by_cases hpath : pathOf s.thread.pc = []
    · rw [hb.taken, hpath, present_nil, List.append_nil]
      exact (answers_noted home s j _).map Prod.fst
    · obtain ⟨s₁, hs₁, h₁⟩ := Machine.run_cons_eq_some.mp hrun
      have hcount := hsteps hpath
      rw [List.countP_cons] at hcount
      simp only [Machine.noted, hs₁, Option.elim_some]
      refine (taken_note home s e j).trans (ih (books_step hb hs₁) h₁ ?_)
      intro hpath₁
      cases hthread : isThread e with
      | false =>
        rw [pc_step hthread hs₁]
        simpa [hthread] using hcount
      | true =>
        rw [if_pos hthread] at hcount
        cases step_cases hs₁ with
        | thread e t' signals hstep =>
          have hcloser := (toAnswer_step hpath hstep).resolve_left hpath₁
          exact Nat.le_of_succ_le_succ (hcloser.le.trans hcount)
        | ignored _ _ | unavailable _ _ _ | requested _ _ _ | deliver _ _ _ => cases hthread

/-! ### One for one -/

/-- A press that finds the dialog waiting changes nothing. -/
theorem press_of_requested (hrequested : s.dialog.captureRequested = true) (now : Nat) :
    step home s (.press now) = some s := by
  simp only [CameraSystem.step, captureByButton, hrequested, if_true]

/-- After a refusal the next press puts its path into the slot. -/
theorem press_of_not_requested (hcamera : s.dialog.cameraThread = true)
    (hrequested : s.dialog.captureRequested = false) (now : Nat) :
    ∃ s', step home s (.press now) = some s' ∧
      s'.thread.pendingCapturePath = photoPath home (QDateTime.currentDateTime now) s.dialog := by
  have hpress : step home s (.press now) =
    some (captureByButton home (QDateTime.currentDateTime now) s) := rfl
  refine ⟨_, hpress, ?_⟩
  generalize captureByButton home (QDateTime.currentDateTime now) s = s' at hpress
  cases step_cases hpress with
  | ignored now h => exact absurd (hrequested.symm.trans h) Bool.false_ne_true
  | unavailable now _ h => exact absurd (h.symm.trans hcamera) Bool.false_ne_true
  | requested now _ _ => rfl

theorem slot_refusal {signal : Signal} (h : Refusal signal) :
    (slot s signal).dialog.captureRequested = false := by
  cases signal with
  | captureSaved path ok errorText =>
    obtain rfl : ok = false := h
    rfl
  | captureRejectedLowLight lux threshold => rfl
  | frameReady | cameraError _ | statusUpdate _ => exact absurd h id

/-- The dialog that has closed has the path of the last request, and a saved photo for it. -/
theorem Books.accepted_request (hb : Books s j) (haccepted : s.dialog.accepted = true) :
    j.requests.getLast? = some s.dialog.capturedPhotoPath ∧
      ∃ errorText, (s.dialog.capturedPhotoPath,
        .captureSaved s.dialog.capturedPhotoPath true errorText) ∈ j.answers := by
  have hidle : ¬ Waiting s := fun h => Bool.false_ne_true (h.2.symm.trans haccepted)
  have hlength := hb.length_le
  rw [if_neg hidle] at hlength
  have hqueue : s.queue.filter isAnswer = [] := List.eq_nil_of_length_eq_zero (by omega)
  have hcarried : present (pathOf s.thread.pc) = [] := List.eq_nil_of_length_eq_zero (by omega)
  obtain ⟨errorText, hlast⟩ := hb.accepted haccepted
  have hanswers := hb.answers
  rw [hqueue, List.append_nil] at hanswers
  rw [← hanswers, List.getLast?_map, Option.map_eq_some_iff] at hlast
  obtain ⟨⟨path, signal⟩, hanswer, rfl⟩ := hlast
  have hmem := List.mem_of_getLast? hanswer
  have hpath : path = s.dialog.capturedPhotoPath := by
    rcases hb.own _ hmem with ⟨ok, text, h⟩ | ⟨lux, threshold, h⟩
    · cases h
      rfl
    · cases h
  rw [hb.requests, hb.slot_eq_nil hidle, hb.taken, hcarried]
  simp only [present_nil, List.append_nil, List.getLast?_map, hanswer, Option.map_some]
  exact ⟨congrArg some hpath, errorText, hpath ▸ hmem⟩

/-- **Requests are answered one for one.** In every run, with `j` for what was asked, taken,
    answered and heard:

    - there is one request more than there are answers heard, or none, and while there is
      one, or a path in the slot, a press changes nothing;
    - what was taken are the paths that were answered, each with one signal, and the path
      that the thread carries; that one is answered within three steps of the thread, and
      nothing holds these up;
    - a refusal lets the next press ask again;
    - a dialog that has closed has the path of the last request, and that photo was saved. -/
theorem capture_requests {home : QString} {alarmId : Int} {es : List Event} {s : CameraSystem}
    (hrun : Machine.run (step home) (buildCameraUi alarmId) es = some s) :
    let j := journal home alarmId es
    j.requests.length ≤ j.heard.length + 1 ∧
    (j.heard.length < j.requests.length → ∀ now, step home s (.press now) = some s) ∧
    (s.thread.pendingCapturePath ≠ [] → ∀ now, step home s (.press now) = some s) ∧
    j.requests = j.taken ++ present s.thread.pendingCapturePath ∧
    j.taken = j.answers.map Prod.fst ++ present (pathOf s.thread.pc) ∧
    (∀ a ∈ j.answers, Answers a.1 a.2) ∧
    j.answers.map Prod.snd = j.heard ++ s.queue.filter isAnswer ∧
    (pathOf s.thread.pc ≠ [] → ∃ e, (step home s (.thread e)).isSome = true) ∧
    (∀ more s', Machine.run (step home) s more = some s' → 3 ≤ more.countP isThread →
      j.taken <+: (journal home alarmId (es ++ more)).answers.map Prod.fst) ∧
    (∀ signal queue, s.queue = signal :: queue → Refusal signal →
      ∃ s', step home s .deliver = some s' ∧ s'.dialog.captureRequested = false ∧
        ∀ now, ∃ s'', step home s' (.press now) = some s'' ∧
          s''.thread.pendingCapturePath =
            photoPath home (QDateTime.currentDateTime now) s'.dialog) ∧
    (s.dialog.accepted = true →
      j.requests.getLast? = some s.dialog.capturedPhotoPath ∧
        ∃ errorText, (s.dialog.capturedPhotoPath,
          .captureSaved s.dialog.capturedPhotoPath true errorText) ∈ j.answers) := by
  intro j
  have hb : Books s j := books_run hrun
  refine ⟨?_, ?_, ?_, hb.requests, hb.taken, hb.own, hb.answers, ?_, ?_, ?_, hb.accepted_request⟩
  · rw [hb.waiting]
    split_ifs <;> omega
  · intro hmore now
    rw [hb.waiting] at hmore
    by_cases hwaiting : Waiting s
    · exact press_of_requested hwaiting.1 now
    · rw [if_neg hwaiting] at hmore
      exact absurd hmore (Nat.lt_irrefl _)
  · intro hslot now
    have hwaiting : Waiting s := not_not.mp (mt hb.slot_eq_nil hslot)
    exact press_of_requested hwaiting.1 now
  · intro hpath
    obtain ⟨e, he⟩ := exists_step hpath
    exact ⟨e, by simpa [CameraSystem.step] using he⟩
  · intro more s' hmore hsteps
    rw [journal, Machine.noted_append hrun]
    apply taken_answered hb hmore
    intro _
    refine le_trans ?_ hsteps
    cases s.thread.pc <;> simp [toAnswer]
  · intro signal queue hqueue hrefusal
    refine ⟨slot { s with queue := queue } signal, ?_, slot_refusal hrefusal, ?_⟩
    · simp only [CameraSystem.step, hqueue]
    · apply press_of_not_requested _ (slot_refusal hrefusal)
      rw [slot_cameraThread]
      exact hb.camera.cameraThread

/-- Too dark at first, pressed again seven seconds later, and pressed once more while that
    photo is under way: the dialog closes with the second photo. -/
theorem capture_requests_darkFirst :
    ∃ es s, Machine.run (step "/root".toList) (buildCameraUi 3) es = some s ∧
      s.dialog.accepted = true ∧ es.count (.press 8000) = 1 ∧
      (journal "/root".toList 3 es).requests.getLast? =
        some "/root/capture/alarm_3_19700101_000007.jpg".toList := by
  obtain ⟨s, hrun, hfacts⟩ := Option.map_eq_some_iff.mp (by decide +kernel :
    (Machine.run (step "/root".toList) (buildCameraUi 3)
        [.thread (.initBH1750 true), .thread (.initCapture true), .thread (.startCapture true),
          .deliver, .press 0,
          .thread (.select .readable), .thread (.dequeue .frame), .thread .takePending,
          .thread .testAndSet, .thread .convert, .thread (.answer (some 10) true),
          .deliver, .deliver, .press 7000,
          .thread (.select .readable), .thread (.dequeue .frame), .thread .takePending,
          .press 8000, .thread .testAndSet, .thread .convert, .thread (.answer (some 60) true),
          .deliver, .deliver]).map (fun s => (s.dialog.accepted, s.dialog.capturedPhotoPath)) =
      some (true, "/root/capture/alarm_3_19700101_000007.jpg".toList))
  obtain ⟨haccepted, hpath⟩ := Prod.mk.injEq _ _ _ _ ▸ hfacts
  refine ⟨_, s, hrun, haccepted, rfl, ?_⟩
  rw [← hpath]
  exact ((capture_requests hrun).2.2.2.2.2.2.2.2.2.2 haccepted).1

end CaptureRequests

end AlarmClock
