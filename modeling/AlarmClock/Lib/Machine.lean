import Mathlib.Data.List.Induction

/-!
# Runs of a deterministic machine with partial steps

A machine is a step function into `Option`: `none` means that the event cannot
be delivered in that state. A run feeds a list of events one by one and stops at
the first event that is refused. The rules below are the induction over runs,
stated once; every invariant of a concrete machine is then a statement about one
step.
-/

namespace Machine

variable {σ ε : Type*}

/-- Feed the events one by one; a refused event refuses the run. -/
def run (step : σ → ε → Option σ) : σ → List ε → Option σ
  | s, [] => some s
  | s, e :: es => (step s e).bind fun s' => run step s' es

/-- `s` can be reached from `init` by some list of events. -/
def Reachable (step : σ → ε → Option σ) (init s : σ) : Prop :=
  ∃ es, run step init es = some s

/-- Every step of the run of `es` from `s` is taken in a state and with an event
    that satisfy `Q`. -/
def Along (step : σ → ε → Option σ) (Q : σ → ε → Prop) : σ → List ε → Prop
  | _, [] => True
  | s, e :: es => Q s e ∧ ∀ s', step s e = some s' → Along step Q s' es

/-- Every state that the run of `es` from `s` passes through, the first and the last
    included, satisfies `P`. -/
def Throughout (step : σ → ε → Option σ) (P : σ → Prop) (s : σ) (es : List ε) : Prop :=
  ∀ pre u, pre <+: es → run step s pre = some u → P u

variable {step : σ → ε → Option σ}

@[simp] theorem run_nil (s : σ) : run step s [] = some s := rfl

theorem run_cons_eq_some {s t : σ} {e : ε} {es : List ε} :
    run step s (e :: es) = some t ↔
      ∃ s', step s e = some s' ∧ run step s' es = some t := by
  simp only [run, Option.bind_eq_some_iff]

theorem run_append (s : σ) (es fs : List ε) :
    run step s (es ++ fs) = (run step s es).bind fun s' => run step s' fs := by
  induction es generalizing s with
  | nil => rfl
  | cons e es ih =>
    simp only [List.cons_append, run]
    cases step s e with
    | none => rfl
    | some s' => exact ih s'

theorem run_append_eq_some {s t : σ} {es fs : List ε} :
    run step s (es ++ fs) = some t ↔
      ∃ s', run step s es = some s' ∧ run step s' fs = some t := by
  rw [run_append, Option.bind_eq_some_iff]

/-- A step behind a guard. -/
theorem guarded_eq_some {p : Prop} [Decidable p] {s s' : σ}
    (h : (if p then some s else none) = some s') : p ∧ s' = s := by
  split at h
  · next hp => exact ⟨hp, (Option.some.inj h).symm⟩
  · cases h

theorem run_singleton (s : σ) (e : ε) : run step s [e] = step s e := by
  cases h : step s e with
  | none => simp [run, h]
  | some t => simp [run, h]

theorem Reachable.refl (s : σ) : Reachable step s s := ⟨[], rfl⟩

theorem Reachable.run {init s t : σ} {es : List ε} (h : Reachable step init s)
    (hrun : Machine.run step s es = some t) : Reachable step init t := by
  obtain ⟨es₀, h₀⟩ := h
  exact ⟨es₀ ++ es, run_append_eq_some.mpr ⟨s, h₀, hrun⟩⟩

theorem Reachable.next {init s t : σ} {e : ε} (h : Reachable step init s)
    (hstep : step s e = some t) : Reachable step init t :=
  h.run ((run_singleton s e).trans hstep)

/-- **The invariant rule.** What every step preserves, every run preserves. -/
theorem run_invariant {I : σ → Prop}
    (hstep : ∀ s e s', I s → step s e = some s' → I s')
    {s t : σ} {es : List ε} (hs : I s) (h : run step s es = some t) : I t := by
  induction es generalizing s with
  | nil =>
    have hst : s = t := by simpa using h
    exact hst ▸ hs
  | cons e es ih =>
    obtain ⟨s', hs', h'⟩ := run_cons_eq_some.mp h
    exact ih (hstep s e s' hs hs') h'

/-- **The projection rule.** A machine that steps as another does, with more in its states,
    runs as the other does. -/
theorem run_map {τ : Type*} {step' : τ → ε → Option τ} {f : σ → τ}
    (hstep : ∀ s e s', step s e = some s' → step' (f s) e = some (f s'))
    {s t : σ} {es : List ε} (h : run step s es = some t) : run step' (f s) es = some (f t) := by
  induction es generalizing s with
  | nil =>
    obtain rfl : s = t := by simpa using h
    rfl
  | cons e es ih =>
    obtain ⟨s', hs', h'⟩ := run_cons_eq_some.mp h
    exact run_cons_eq_some.mpr ⟨f s', hstep s e s' hs', ih h'⟩

/-- **The refinement rule.** A machine whose steps are steps of the other, or leave what the
    other sees as it is, runs as the other does on the events that the other knows. -/
theorem run_filterMap {τ δ : Type*} {step' : τ → δ → Option τ} {f : σ → τ} {c : ε → Option δ}
    (hstep : ∀ s e s', step s e = some s' →
      (c e).elim (f s' = f s) fun d => step' (f s) d = some (f s'))
    {s t : σ} {es : List ε} (h : run step s es = some t) :
    run step' (f s) (es.filterMap c) = some (f t) := by
  induction es generalizing s with
  | nil =>
    obtain rfl : s = t := by simpa using h
    rfl
  | cons e es ih =>
    obtain ⟨s', hs', h'⟩ := run_cons_eq_some.mp h
    have hnext := hstep s e s' hs'
    cases hc : c e with
    | none =>
      rw [hc, Option.elim_none] at hnext
      rw [List.filterMap_cons_none hc, ← hnext]
      exact ih h'
    | some d =>
      rw [hc, Option.elim_some] at hnext
      rw [List.filterMap_cons_some hc]
      exact run_cons_eq_some.mpr ⟨f s', hnext, ih h'⟩

/-- **The prophecy rule.** What the end of a run decides (`K`, which holds before a step when it
    holds after) may be used at each of its steps, beside an invariant. -/
theorem run_prophecy {τ δ : Type*} {step' : τ → δ → Option τ} {f : σ → τ} {c : ε → Option δ}
    {I K : σ → Prop} (hI : ∀ s e s', I s → step s e = some s' → I s')
    (hK : ∀ s e s', I s → step s e = some s' → K s' → K s)
    (hstep : ∀ s e s', I s → step s e = some s' → K s' →
      (c e).elim (f s' = f s) fun d => step' (f s) d = some (f s'))
    {s t : σ} {es : List ε} (hs : I s) (ht : K t) (h : run step s es = some t) :
    K s ∧ run step' (f s) (es.filterMap c) = some (f t) := by
  induction es generalizing s with
  | nil =>
    obtain rfl : s = t := by simpa using h
    exact ⟨ht, rfl⟩
  | cons e es ih =>
    obtain ⟨s', hs', h'⟩ := run_cons_eq_some.mp h
    obtain ⟨hK', hrun⟩ := ih (hI s e s' hs hs') h'
    refine ⟨hK s e s' hs hs' hK', ?_⟩
    have hnext := hstep s e s' hs hs' hK'
    cases hc : c e with
    | none =>
      rw [hc, Option.elim_none] at hnext
      rw [List.filterMap_cons_none hc, ← hnext]
      exact hrun
    | some d =>
      rw [hc, Option.elim_some] at hnext
      rw [List.filterMap_cons_some hc]
      exact run_cons_eq_some.mpr ⟨f s', hnext, hrun⟩

/-- What is noted along a run, step by step, beside the state. -/
def noted {γ : Type*} (step : σ → ε → Option σ) (note : σ → ε → γ → γ) : σ → γ → List ε → γ
  | _, g, [] => g
  | s, g, e :: es => (step s e).elim g fun s' => noted step note s' (note s e g) es

/-- **The record rule.** An invariant of a state and the notes beside it. -/
theorem run_noted {γ : Type*} {note : σ → ε → γ → γ} {I : σ → γ → Prop}
    (hstep : ∀ s g e s', I s g → step s e = some s' → I s' (note s e g))
    {s t : σ} {g : γ} {es : List ε} (hs : I s g) (h : run step s es = some t) :
    I t (noted step note s g es) := by
  induction es generalizing s g with
  | nil =>
    obtain rfl : s = t := by simpa using h
    exact hs
  | cons e es ih =>
    obtain ⟨s', hs', h'⟩ := run_cons_eq_some.mp h
    simp only [noted, hs', Option.elim_some]
    exact ih (hstep s g e s' hs hs') h'

theorem noted_append {γ : Type*} {note : σ → ε → γ → γ} {s t : σ} {es : List ε}
    (h : run step s es = some t) (g : γ) (fs : List ε) :
    noted step note s g (es ++ fs) = noted step note t (noted step note s g es) fs := by
  induction es generalizing s g with
  | nil =>
    obtain rfl : s = t := by simpa using h
    rfl
  | cons e es ih =>
    obtain ⟨s', hs', h'⟩ := run_cons_eq_some.mp h
    simp only [List.cons_append, noted, hs', Option.elim_some]
    exact ih h' _

/-- The invariant rule for runs whose steps all satisfy `Q`. -/
theorem run_invariant_along {I : σ → Prop} {Q : σ → ε → Prop}
    (hstep : ∀ s e s', I s → Q s e → step s e = some s' → I s')
    {s t : σ} {es : List ε} (hs : I s) (hQ : Along step Q s es)
    (h : run step s es = some t) : I t := by
  induction es generalizing s with
  | nil =>
    have hst : s = t := by simpa using h
    exact hst ▸ hs
  | cons e es ih =>
    obtain ⟨s', hs', h'⟩ := run_cons_eq_some.mp h
    exact ih (hstep s e s' hs hQ.1 hs') (hQ.2 s' hs') h'

/-- The record rule for runs whose steps all satisfy `Q`, with what the events alone tell. -/
theorem run_foldl_along {γ : Type*} {note : γ → ε → γ} {I : γ → σ → Prop} {Q : σ → ε → Prop}
    (hstep : ∀ g s e s', I g s → Q s e → step s e = some s' → I (note g e) s')
    {s t : σ} {g : γ} {es : List ε} (hs : I g s) (hQ : Along step Q s es)
    (h : run step s es = some t) : I (es.foldl note g) t := by
  induction es generalizing s g with
  | nil =>
    obtain rfl : s = t := by simpa using h
    exact hs
  | cons e es ih =>
    obtain ⟨s', hs', h'⟩ := run_cons_eq_some.mp h
    exact ih (hstep g s e s' hs hQ.1 hs') (hQ.2 s' hs') h'

/-- **The until rule.** What holds at the start holds at the end of a run, or up to some
    step that may take it away. -/
theorem run_until {I : σ → Prop} {T : σ → ε → Prop} {Q : ε → Prop}
    (hstep : ∀ s e s', Q e → I s → step s e = some s' → I s' ∨ T s e)
    {s t : σ} {es : List ε} (hQ : ∀ e ∈ es, Q e) (hs : I s) (h : run step s es = some t) :
    I t ∨ ∃ pre e post s', es = pre ++ e :: post ∧ run step s pre = some s' ∧ I s' ∧ T s' e := by
  induction es generalizing s with
  | nil =>
    have hst : s = t := by simpa using h
    exact .inl (hst ▸ hs)
  | cons e es ih =>
    obtain ⟨s₁, hs₁, h₁⟩ := run_cons_eq_some.mp h
    rcases hstep s e s₁ (hQ e (by simp)) hs hs₁ with hI | hT
    · rcases ih (fun e' he' => hQ e' (by simp [he'])) hI h₁ with
        hI' | ⟨pre, e', post, s', rfl, hpre, hI', hT⟩
      · exact .inl hI'
      · exact .inr ⟨e :: pre, e', post, s', rfl, run_cons_eq_some.mpr ⟨s₁, hs₁, hpre⟩, hI', hT⟩
    · exact .inr ⟨[], e, es, s, rfl, rfl, hs, hT⟩

/-- **The history rule.** What holds of the empty history and is kept when a step is added to
    a history holds of every history and the state it leads to. -/
theorem run_history {I : List ε → σ → Prop} {s : σ} (hs : I [] s)
    (hstep : ∀ pre t e t', run step s pre = some t → I pre t → step t e = some t' →
      I (pre ++ [e]) t')
    {es : List ε} {t : σ} (h : run step s es = some t) : I es t := by
  induction es using List.reverseRecOn generalizing t with
  | nil =>
    have hst : s = t := by simpa using h
    exact hst ▸ hs
  | append_singleton es e ih =>
    obtain ⟨s', hs', hlast⟩ := run_append_eq_some.mp h
    rw [run_singleton] at hlast
    exact hstep es s' e t hs' (ih hs') hlast

/-- **The reach rule.** An event that leads on from every state of `P`, to `Q` or to a state
    of `P` with a smaller rank, leads to `Q` when it is repeated. -/
theorem reach {P Q : σ → Prop} (rank : σ → Nat) (e : ε)
    (hstep : ∀ s, P s → Q s ∨ ∃ s', step s e = some s' ∧ P s' ∧ rank s' < rank s)
    {s : σ} (hs : P s) : ∃ n t, run step s (List.replicate n e) = some t ∧ Q t := by
  induction hrank : rank s using Nat.strongRecOn generalizing s with
  | ind r ih =>
    rcases hstep s hs with hQ | ⟨s', hs', hP, hlt⟩
    · exact ⟨0, s, rfl, hQ⟩
    · obtain ⟨n, t, hrun, hQ⟩ := ih (rank s') (hrank ▸ hlt) hP rfl
      exact ⟨n + 1, t, run_cons_eq_some.mpr ⟨s', hs', hrun⟩, hQ⟩

/-- Some events of a kind lead from one state to another. -/
def Leads (step : σ → ε → Option σ) (P : ε → Prop) (s t : σ) : Prop :=
  ∃ es, (∀ e ∈ es, P e) ∧ run step s es = some t

theorem Leads.refl {P : ε → Prop} (s : σ) : Leads step P s s := ⟨[], List.forall_mem_nil P, rfl⟩

theorem Leads.trans {P : ε → Prop} {s t u : σ} (h : Leads step P s t) (h' : Leads step P t u) :
    Leads step P s u := by
  obtain ⟨es, hes, hrun⟩ := h
  obtain ⟨es', hes', hrun'⟩ := h'
  exact ⟨es ++ es', List.forall_mem_append.mpr ⟨hes, hes'⟩,
    run_append_eq_some.mpr ⟨t, hrun, hrun'⟩⟩

theorem Leads.one {P : ε → Prop} {s t : σ} {e : ε} (he : P e) (h : step s e = some t) :
    Leads step P s t :=
  ⟨[e], List.forall_mem_singleton.mpr he, (run_singleton s e).trans h⟩

theorem Leads.invariant {P : ε → Prop} {I : σ → Prop}
    (hstep : ∀ s e s', I s → step s e = some s' → I s') {s t : σ} (h : Leads step P s t)
    (hs : I s) : I t := by
  obtain ⟨es, -, hrun⟩ := h
  exact run_invariant hstep hs hrun

/-- **The rank rule.** Where some event of a kind always leads on, to `Q` or to a smaller rank,
    events of that kind lead to `Q`. -/
theorem leads_of_rank {E : ε → Prop} {P Q : σ → Prop} (rank : σ → Nat)
    (hstep : ∀ s, P s → ∃ e s', E e ∧ step s e = some s' ∧ (Q s' ∨ P s' ∧ rank s' < rank s))
    {s : σ} (hs : P s) : ∃ t, Leads step E s t ∧ Q t := by
  induction hrank : rank s using Nat.strongRecOn generalizing s with
  | ind r ih =>
    obtain ⟨e, s', he, hs', hQ | ⟨hP, hlt⟩⟩ := hstep s hs
    · exact ⟨s', .one he hs', hQ⟩
    · obtain ⟨t, hleads, hQ⟩ := ih (rank s') (hrank ▸ hlt) hP rfl
      exact ⟨t, (Leads.one he hs').trans hleads, hQ⟩

/-- **The simulation rule.** A machine that can be led to every step of another can be led
    wherever the other can. -/
theorem leads_lift {τ δ : Type*} {step' : τ → δ → Option τ} {R : σ → τ → Prop} {P : ε → Prop}
    {Q : δ → Prop}
    (hstep : ∀ s t d t', Q d → R s t → step' t d = some t' → ∃ s', Leads step P s s' ∧ R s' t')
    {s : σ} {t t' : τ} (hR : R s t) (h : Leads step' Q t t') :
    ∃ s', Leads step P s s' ∧ R s' t' := by
  obtain ⟨ds, hds, hrun⟩ := h
  induction ds generalizing s t with
  | nil =>
    obtain rfl : t = t' := by simpa using hrun
    exact ⟨s, .refl s, hR⟩
  | cons d ds ih =>
    obtain ⟨t₁, hd, hrest⟩ := run_cons_eq_some.mp hrun
    obtain ⟨hQ, hds⟩ := List.forall_mem_cons.mp hds
    obtain ⟨s₁, hleads, hR₁⟩ := hstep s t d t₁ hQ hR hd
    obtain ⟨s', hleads', hR'⟩ := ih hR₁ hds hrest
    exact ⟨s', hleads.trans hleads', hR'⟩

/-- The number of steps of a run that are taken in a state and with an event that satisfy
    `Q`. -/
def countRun (step : σ → ε → Option σ) (Q : σ → ε → Bool) : σ → List ε → Nat
  | _, [] => 0
  | s, e :: es => (if Q s e then 1 else 0) + (step s e).elim 0 fun s' => countRun step Q s' es

theorem countRun_concat {Q : σ → ε → Bool} {s t : σ} {es : List ε} (h : run step s es = some t)
    (e : ε) :
    countRun step Q s (es ++ [e]) = countRun step Q s es + if Q t e then 1 else 0 := by
  induction es generalizing s with
  | nil =>
    obtain rfl : s = t := by simpa using h
    cases hnext : step s e with
    | none => simp [countRun, hnext]
    | some s' => simp [countRun, hnext]
  | cons e' es ih =>
    obtain ⟨s', hs', h'⟩ := run_cons_eq_some.mp h
    simp only [List.cons_append, countRun, hs', Option.elim_some, ih h']
    omega

/-- No such step is taken when every step is taken otherwise. -/
theorem countRun_eq_zero_iff {Q : σ → ε → Bool} {s : σ} {es : List ε} :
    countRun step Q s es = 0 ↔ Along step (fun s e => Q s e = false) s es := by
  induction es generalizing s with
  | nil => simp [countRun, Along]
  | cons e es ih =>
    simp only [countRun, Along, Nat.add_eq_zero_iff]
    apply and_congr
    · cases Q s e <;> simp
    · cases hnext : step s e with
      | none => simp
      | some s' => simp [ih]

/-- Steps that are counted for one event are not more than its occurrences. -/
theorem countRun_le_count [DecidableEq ε] {Q : σ → ε → Bool} {a : ε}
    (hQ : ∀ s e, Q s e = true → e = a) (s : σ) (es : List ε) :
    countRun step Q s es ≤ es.count a := by
  induction es generalizing s with
  | nil => exact Nat.le_refl 0
  | cons e es ih =>
    have hhead : (if Q s e then 1 else 0) ≤ if (e == a) = true then 1 else 0 := by
      split_ifs with h h' h'
      · exact Nat.le_refl 1
      · exact absurd (beq_iff_eq.mpr (hQ s e h)) h'
      · exact Nat.zero_le 1
      · exact Nat.le_refl 0
    rw [countRun, List.count_cons]
    cases step s e with
    | none =>
      rw [Option.elim_none]
      omega
    | some s' =>
      have hrest := ih s'
      rw [Option.elim_some]
      omega

/-- **The balance rule.** What every step adds to one side up to what it is counted for on
    the other, every run does. -/
theorem run_balance {f g : σ → Nat} {Q R : σ → ε → Bool} {I : σ → Prop} {P : ε → Prop}
    (hstep : ∀ s e s', P e → I s → step s e = some s' → I s' ∧
      f s' + g s + (if Q s e then 1 else 0) = f s + g s' + if R s e then 1 else 0)
    {s t : σ} {es : List ε} (hP : ∀ e ∈ es, P e) (hs : I s) (h : run step s es = some t) :
    f t + g s + countRun step Q s es = f s + g t + countRun step R s es := by
  induction es generalizing s with
  | nil =>
    obtain rfl : s = t := by simpa using h
    simp [countRun]
  | cons e es ih =>
    obtain ⟨s', hs', h'⟩ := run_cons_eq_some.mp h
    obtain ⟨hI, hbalance⟩ := hstep s e s' (hP e (by simp)) hs hs'
    have hrest := ih (fun e he => hP e (by simp [he])) hI h'
    simp only [countRun, hs', Option.elim_some]
    omega

/-- A condition on the events alone holds along every run of those events. -/
theorem along_of_forall {Q : ε → Prop} {es : List ε} (h : ∀ e ∈ es, Q e) (s : σ) :
    Along step (fun _ e => Q e) s es := by
  induction es generalizing s with
  | nil => trivial
  | cons e es ih =>
    exact ⟨h e (by simp), fun s' _ => ih (fun e he => h e (by simp [he])) s'⟩

theorem countRun_never (s : σ) (es : List ε) : countRun step (fun _ _ => false) s es = 0 :=
  countRun_eq_zero_iff.mpr (along_of_forall (fun _ _ => rfl) s)

instance decidableAlong {Q : σ → ε → Prop} [∀ s e, Decidable (Q s e)] :
    ∀ (s : σ) (es : List ε), Decidable (Along step Q s es)
  | _, [] => .isTrue trivial
  | s, e :: es =>
    match hstep : step s e with
    | none => decidable_of_iff (Q s e) (by simp [Along, hstep])
    | some s' =>
      have := decidableAlong (Q := Q) s' es
      decidable_of_iff (Q s e ∧ Along step Q s' es) (by simp [Along, hstep])

theorem Along.cons {Q : σ → ε → Prop} {s s' : σ} {e : ε} {es : List ε} (hQ : Q s e)
    (hstep : step s e = some s') (h : Along step Q s' es) : Along step Q s (e :: es) := by
  refine ⟨hQ, ?_⟩
  intro s'' hs''
  obtain rfl := Option.some.inj (hstep.symm.trans hs'')
  exact h

theorem Along.concat {Q : σ → ε → Prop} {s t : σ} {es : List ε} (h : Along step Q s es)
    (hrun : run step s es = some t) {e : ε} (hQ : Q t e) : Along step Q s (es ++ [e]) := by
  induction es generalizing s with
  | nil =>
    obtain rfl : s = t := by simpa using hrun
    exact ⟨hQ, fun _ _ => trivial⟩
  | cons e' es ih =>
    obtain ⟨s', hs', hrest⟩ := run_cons_eq_some.mp hrun
    exact .cons h.1 hs' (ih (h.2 s' hs') hrest)

theorem Along.mono {Q R : σ → ε → Prop} (hQR : ∀ s e, Q s e → R s e) {s : σ} {es : List ε}
    (h : Along step Q s es) : Along step R s es := by
  induction es generalizing s with
  | nil => trivial
  | cons e es ih => exact ⟨hQR s e h.1, fun s' hs' => ih (h.2 s' hs')⟩

theorem Along.and {Q R : σ → ε → Prop} {s : σ} {es : List ε} (hQ : Along step Q s es)
    (hR : Along step R s es) : Along step (fun s e => Q s e ∧ R s e) s es := by
  induction es generalizing s with
  | nil => trivial
  | cons e es ih => exact ⟨⟨hQ.1, hR.1⟩, fun s' hs' => ih (hQ.2 s' hs') (hR.2 s' hs')⟩

/-- A run keeps a condition at every step, or it ends in what a step against the condition
    leads to and no step leads out of. -/
theorem along_or {I L : σ → Prop} {Q : σ → ε → Prop}
    (hstep : ∀ s e s', I s → step s e = some s' → I s')
    (hlost : ∀ s e s', I s → ¬ Q s e → step s e = some s' → L s')
    (hstay : ∀ s e s', I s → L s → step s e = some s' → L s')
    {s t : σ} {es : List ε} (hs : I s) (h : run step s es = some t) :
    Along step Q s es ∨ L t := by
  induction es generalizing s with
  | nil => exact .inl trivial
  | cons e es ih =>
    obtain ⟨s', hs', h'⟩ := run_cons_eq_some.mp h
    have hI := hstep s e s' hs hs'
    by_cases hQ : Q s e
    · rcases ih hI h' with halong | hL
      · refine .inl ⟨hQ, ?_⟩
        intro s'' hs''
        obtain rfl := Option.some.inj (hs'.symm.trans hs'')
        exact halong
      · exact .inr hL
    · have hboth : I t ∧ L t := run_invariant (I := fun s => I s ∧ L s)
        (fun s e s' hs hs' => ⟨hstep s e s' hs.1 hs', hstay s e s' hs.1 hs.2 hs'⟩)
        ⟨hI, hlost s e s' hs hQ hs'⟩ h'
      exact .inr hboth.2

/-- Two conditions that agree wherever the invariant holds agree along every run. -/
theorem along_congr {I : σ → Prop} {P : ε → Prop} {Q R : σ → ε → Prop}
    (hstep : ∀ s e s', P e → I s → step s e = some s' → I s')
    (hQR : ∀ s e, P e → I s → (Q s e ↔ R s e)) {s : σ} (hs : I s) {es : List ε}
    (hP : ∀ e ∈ es, P e) : Along step Q s es ↔ Along step R s es := by
  induction es generalizing s with
  | nil => exact Iff.rfl
  | cons e es ih =>
    have he := hP e (by simp)
    refine and_congr (hQR s e he hs) (forall_congr' ?_)
    intro s'
    exact forall_congr' fun h => ih (hstep s e s' he hs h) fun e he => hP e (by simp [he])

theorem throughout_nil {P : σ → Prop} {s : σ} : Throughout step P s [] ↔ P s := by
  constructor
  · intro h
    exact h [] s List.prefix_rfl rfl
  · intro hs pre u hpre hrun
    obtain rfl := List.prefix_nil.mp hpre
    obtain rfl : s = u := by simpa using hrun
    exact hs

theorem throughout_cons {P : σ → Prop} {s s' : σ} {e : ε} {es : List ε}
    (hstep : step s e = some s') :
    Throughout step P s (e :: es) ↔ P s ∧ Throughout step P s' es := by
  constructor
  · intro h
    refine ⟨h [] s List.nil_prefix rfl, ?_⟩
    intro pre u hpre hrun
    have hpre' : e :: pre <+: e :: es := List.cons_prefix_cons.mpr ⟨rfl, hpre⟩
    exact h (e :: pre) u hpre' (run_cons_eq_some.mpr ⟨s', hstep, hrun⟩)
  · rintro ⟨hs, hrest⟩ pre u hpre hrun
    cases pre with
    | nil =>
      obtain rfl : s = u := by simpa using hrun
      exact hs
    | cons e₁ pre =>
      obtain ⟨rfl, hpre'⟩ := List.cons_prefix_cons.mp hpre
      obtain ⟨s₁, hs₁, hrun'⟩ := run_cons_eq_some.mp hrun
      obtain rfl := Option.some.inj (hstep.symm.trans hs₁)
      exact hrest pre u hpre' hrun'

/-- **The exact condition.** When a step keeps `P` exactly when `Q` holds of it, a run stays
    in `P` exactly when `Q` holds of all its steps. -/
theorem throughout_iff_along {I P : σ → Prop} {Q : σ → ε → Prop}
    (hI : ∀ s e s', I s → step s e = some s' → I s')
    (hQ : ∀ s e s', I s → P s → step s e = some s' → (P s' ↔ Q s e))
    {s t : σ} {es : List ε} (hs : I s) (hP : P s) (h : run step s es = some t) :
    Throughout step P s es ↔ Along step Q s es := by
  induction es generalizing s with
  | nil => exact iff_of_true (throughout_nil.mpr hP) trivial
  | cons e es ih =>
    obtain ⟨s', hs', h'⟩ := run_cons_eq_some.mp h
    have hnext := hI s e s' hs hs'
    rw [throughout_cons hs']
    constructor
    · rintro ⟨-, hrest⟩
      have hP' : P s' := hrest [] s' List.nil_prefix rfl
      exact Along.cons ((hQ s e s' hs hP hs').mp hP') hs' ((ih hnext hP' h').mp hrest)
    · intro halong
      have hP' : P s' := (hQ s e s' hs hP hs').mpr halong.1
      exact ⟨hP, (ih hnext hP' h').mpr (halong.2 s' hs')⟩

end Machine
