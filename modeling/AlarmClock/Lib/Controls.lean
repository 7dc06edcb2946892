import AlarmClock.Lib.Machine

/-!
# Controls with timers

Two habits of touch panels. A button that is held acts when it goes down and then again at
each tick of a timer, which has one interval before its first tick and another one after
it. A control that was used is locked until a single-shot timer of its own unlocks it.
-/

/-! ### Long presses -/

/-- The button that is held, the interval of the timer while it runs, and what it does at
    its ticks. -/
structure LongPress (β : Type*) where
  held : Option β := none
  interval : Option Nat := none
  repeatCount : Nat := 0
  repeatAction : Option β := none
deriving DecidableEq, Repr

namespace LongPress

variable {β : Type*}

inductive Event (β : Type*) where
  | pressed (b : β)
  | released
  | timeout
deriving DecidableEq, Repr

/-- The next state and the button that acts. There is one pointer: it holds one button. -/
def step (first next : Nat) (l : LongPress β) : Event β → Option (LongPress β × Option β)
  | .pressed b =>
    if l.held.isSome then none
    else some (⟨some b, some first, 0, some b⟩, some b)
  | .released =>
    if l.held.isSome then some ({ l with held := none, interval := none }, none) else none
  | .timeout => l.interval.map fun ms =>
    ({ l with
        repeatCount := l.repeatCount + 1
        interval := some (if l.repeatCount + 1 = 1 then next else ms) }, l.repeatAction)

/-- The timer runs while a button is held, for that button. -/
structure Inv (first next : Nat) (l : LongPress β) : Prop where
  idle : l.held = none → l.interval = none
  holding : ∀ b, l.held = some b → l.repeatAction = some b ∧
    l.interval = some (if l.repeatCount = 0 then first else next)

variable {first next : Nat} {l l' : LongPress β} {acts : Option β}

theorem inv_init : Inv first next ({} : LongPress β) := by
  refine ⟨fun _ => rfl, ?_⟩
  intro b hb
  cases hb

/-- **One event of a long press.** Only the button that is held acts: when it goes down and
    at every tick. -/
theorem step_cases (hi : Inv first next l) {e : Event β}
    (h : step first next l e = some (l', acts)) :
    Inv first next l' ∧
      ((∃ b, e = .pressed b ∧ l.held = none ∧ l'.held = some b ∧ acts = some b) ∨
        (e = .released ∧ l'.held = none ∧ acts = none) ∨
        ∃ b, e = .timeout ∧ l.held = some b ∧ l'.held = some b ∧ acts = some b) := by
  cases e with
  | pressed b =>
    simp only [step] at h
    split_ifs at h with hheld
    obtain ⟨rfl, rfl⟩ := Prod.mk.inj (Option.some.inj h)
    refine ⟨⟨?_, ?_⟩, .inl ⟨b, rfl, Option.not_isSome_iff_eq_none.mp hheld, rfl, rfl⟩⟩
    · intro hnone
      cases hnone
    · intro b' hb'
      exact ⟨hb', rfl⟩
  | released =>
    simp only [step] at h
    split_ifs at h with hheld
    obtain ⟨rfl, rfl⟩ := Prod.mk.inj (Option.some.inj h)
    refine ⟨⟨fun _ => rfl, ?_⟩, .inr (.inl ⟨rfl, rfl, rfl⟩)⟩
    intro b hb
    cases hb
  | timeout =>
    obtain ⟨ms, hms, heq⟩ := Option.map_eq_some_iff.mp h
    obtain ⟨rfl, rfl⟩ := Prod.mk.inj heq
    cases hheld : l.held with
    | none =>
      rw [hi.idle hheld] at hms
      cases hms
    | some b =>
      obtain ⟨hact, hinterval⟩ := hi.holding b hheld
      refine ⟨⟨?_, ?_⟩, .inr (.inr ⟨b, rfl, rfl, rfl, hact⟩)⟩
      · intro hnone
        cases hnone
      · intro b' hb'
        obtain rfl : b = b' := Option.some.inj hb'
        refine ⟨hact, ?_⟩
        obtain rfl : ms = _ := Option.some.inj (hms.symm.trans hinterval)
        show some _ = some _
        by_cases hzero : l.repeatCount = 0
        · simp [hzero]
        · simp [hzero]

end LongPress

/-! ### Locks -/

/-- Which controls are locked, and the single-shot timers that will unlock them. -/
structure Lockout (κ : Type*) where
  locked : κ → Bool := fun _ => false
  timers : List κ := []

namespace Lockout

variable {κ : Type*}

/-- What is locked has its one timer. -/
structure Inv (l : Lockout κ) : Prop where
  once : l.timers.Nodup
  locked : ∀ k, l.locked k = true ↔ k ∈ l.timers

theorem inv_init : Inv ({} : Lockout κ) := by
  refine ⟨List.nodup_nil, fun k => ?_⟩
  simp

variable [DecidableEq κ] {l l' : Lockout κ}

def lock (k : κ) (l : Lockout κ) : Lockout κ where
  locked := Function.update l.locked k true
  timers := k :: l.timers

def timeout (k : κ) (l : Lockout κ) : Option (Lockout κ) :=
  if k ∈ l.timers then
    some { locked := Function.update l.locked k false, timers := l.timers.erase k }
  else none

/-- A control that is not locked is used. -/
theorem inv_lock (hi : Inv l) {k : κ} (hk : l.locked k = false) : Inv (l.lock k) := by
  refine ⟨?_, ?_⟩
  · refine List.nodup_cons.mpr ⟨?_, hi.once⟩
    intro hmem
    cases hk.symm.trans ((hi.locked k).mpr hmem)
  · intro k'
    show Function.update l.locked k true k' = true ↔ k' ∈ k :: l.timers
    by_cases heq : k' = k
    · subst heq
      simp
    · rw [Function.update_of_ne heq, hi.locked k', List.mem_cons]
      simp [heq]

theorem timeout_cases (hi : Inv l) {k : κ} (h : l.timeout k = some l') :
    Inv l' ∧ l.locked k = true ∧ l'.locked = Function.update l.locked k false := by
  obtain ⟨hmem, rfl⟩ := Machine.guarded_eq_some h
  refine ⟨⟨hi.once.erase k, ?_⟩, (hi.locked k).mpr hmem, rfl⟩
  intro k'
  show Function.update l.locked k false k' = true ↔ k' ∈ l.timers.erase k
  by_cases heq : k' = k
  · subst heq
    simp [hi.once.not_mem_erase]
  · rw [Function.update_of_ne heq, hi.locked k', List.mem_erase_of_ne heq]

/-- **No control stays locked**: it is unlocked by its timer alone. -/
theorem exists_timeout (hi : Inv l) {k : κ} (hk : l.locked k = true) :
    ∃ l', l.timeout k = some l' ∧ l'.locked k = false := by
  refine ⟨_, if_pos ((hi.locked k).mp hk), ?_⟩
  exact Function.update_self k false l.locked

end Lockout
