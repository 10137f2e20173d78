import Mathlib.Data.List.Basic

/-!
# Runs of a step function

A deterministic transition system is a step function `step : σ → ε → σ`.  A run feeds
a list of events to it.  This file gives the run, the predicate saying that a condition
holds at every step of a run, and the induction rules which lift a one-step fact to a
whole run.
-/

namespace Transition

variable {σ ε τ : Type*}

/-- The state reached from `s` after the events `es`. -/
def run (step : σ → ε → σ) (s : σ) (es : List ε) : σ :=
  es.foldl step s

@[simp]
theorem run_nil (step : σ → ε → σ) (s : σ) : run step s [] = s :=
  rfl

@[simp]
theorem run_cons (step : σ → ε → σ) (s : σ) (e : ε) (es : List ε) :
    run step s (e :: es) = run step (step s e) es :=
  rfl

theorem run_append (step : σ → ε → σ) (s : σ) (es fs : List ε) :
    run step s (es ++ fs) = run step (run step s es) fs := by
  simp [run, List.foldl_append]

theorem run_append_singleton (step : σ → ε → σ) (s : σ) (es : List ε) (e : ε) :
    run step s (es ++ [e]) = step (run step s es) e := by
  simp [run_append]

/-- The condition `P` holds of the state before and the event, at every step of the run. -/
def Along (step : σ → ε → σ) (P : σ → ε → Prop) : σ → List ε → Prop
  | _, [] => True
  | s, e :: es => P s e ∧ Along step P (step s e) es

@[simp]
theorem along_nil (step : σ → ε → σ) (P : σ → ε → Prop) (s : σ) :
    Along step P s [] :=
  trivial

@[simp]
theorem along_cons (step : σ → ε → σ) (P : σ → ε → Prop) (s : σ) (e : ε)
    (es : List ε) :
    Along step P s (e :: es) ↔ P s e ∧ Along step P (step s e) es :=
  Iff.rfl

instance decidableAlong (step : σ → ε → σ) (P : σ → ε → Prop)
    [∀ s e, Decidable (P s e)] : ∀ s es, Decidable (Along step P s es)
  | _, [] => isTrue trivial
  | s, e :: es =>
      have := decidableAlong step P (step s e) es
      inferInstanceAs (Decidable (P s e ∧ Along step P (step s e) es))

theorem along_append (step : σ → ε → σ) (P : σ → ε → Prop) (s : σ)
    (es fs : List ε) :
    Along step P s (es ++ fs) ↔
      Along step P s es ∧ Along step P (run step s es) fs := by
  induction es generalizing s with
  | nil => simp
  | cons e es ih => simp [ih, and_assoc]

/-- A condition holds along a run exactly when it holds after every proper prefix. -/
theorem along_iff_forall_split (step : σ → ε → σ) (P : σ → ε → Prop) (s : σ)
    (es : List ε) :
    Along step P s es ↔
      ∀ pre e post, es = pre ++ e :: post → P (run step s pre) e := by
  constructor
  · rintro h pre e post rfl
    exact ((along_append step P s pre (e :: post)).mp h).2.1
  · intro h
    induction es generalizing s with
    | nil => exact trivial
    | cons e es ih =>
        refine ⟨h [] e es rfl, ih (step s e) ?_⟩
        rintro pre f post rfl
        exact h (e :: pre) f post rfl

theorem Along.mono {step : σ → ε → σ} {P Q : σ → ε → Prop}
    (hPQ : ∀ s e, P s e → Q s e) {s : σ} {es : List ε}
    (h : Along step P s es) : Along step Q s es := by
  induction es generalizing s with
  | nil => exact trivial
  | cons e es ih => exact ⟨hPQ s e h.1, ih h.2⟩

theorem Along.and {step : σ → ε → σ} {P Q : σ → ε → Prop} {s : σ} {es : List ε}
    (hP : Along step P s es) (hQ : Along step Q s es) :
    Along step (fun s e => P s e ∧ Q s e) s es := by
  induction es generalizing s with
  | nil => exact trivial
  | cons e es ih => exact ⟨⟨hP.1, hQ.1⟩, ih hP.2 hQ.2⟩

theorem along_congr {step : σ → ε → σ} {P Q : σ → ε → Prop}
    (hPQ : ∀ s e, P s e ↔ Q s e) (s : σ) (es : List ε) :
    Along step P s es ↔ Along step Q s es :=
  ⟨Along.mono fun s e => (hPQ s e).mp, Along.mono fun s e => (hPQ s e).mpr⟩

/-- An invariant kept by every step holds after every run. -/
theorem run_invariant {step : σ → ε → σ} {I : σ → Prop}
    (hstep : ∀ s e, I s → I (step s e)) {s : σ} (hs : I s) (es : List ε) :
    I (run step s es) := by
  induction es generalizing s with
  | nil => exact hs
  | cons e es ih => exact ih (hstep s e hs)

/-- An invariant kept by the steps which meet `P` holds after every run along `P`. -/
theorem Along.invariant {step : σ → ε → σ} {P : σ → ε → Prop} {I : σ → Prop}
    (hstep : ∀ s e, I s → P s e → I (step s e)) {s : σ} (hs : I s) {es : List ε}
    (h : Along step P s es) : I (run step s es) := by
  induction es generalizing s with
  | nil => exact hs
  | cons e es ih => exact ih (hstep s e hs h.1) h.2

/-- A condition which, at the states of an invariant, implies another one and keeps the
invariant. -/
theorem Along.mono_of_invariant {step : σ → ε → σ} {P Q : σ → ε → Prop} {I : σ → Prop}
    (hstep : ∀ s e, I s → P s e → Q s e ∧ I (step s e)) {s : σ} (hs : I s) {es : List ε}
    (h : Along step P s es) : Along step Q s es := by
  induction es generalizing s with
  | nil => exact trivial
  | cons e es ih =>
      obtain ⟨hQ, hI⟩ := hstep s e hs h.1
      exact ⟨hQ, ih hI h.2⟩

/-- With an invariant in hand, two conditions which agree under it agree along a run. -/
theorem along_congr_of_invariant {step : σ → ε → σ} {P Q : σ → ε → Prop}
    {I : σ → Prop} (hstep : ∀ s e, I s → I (step s e))
    (hPQ : ∀ s e, I s → (P s e ↔ Q s e)) {s : σ} (hs : I s) (es : List ε) :
    Along step P s es ↔ Along step Q s es := by
  induction es generalizing s with
  | nil => simp
  | cons e es ih => rw [along_cons, along_cons, hPQ s e hs, ih (hstep s e hs)]

/-- Let a step which meets `A` keep the invariant exactly when it meets `P`.  Then the invariant
holds all along a run of such steps exactly when every step of the run meets `P`. -/
theorem Along.forall_prefix_iff {step : σ → ε → σ} {A P : σ → ε → Prop} {I : σ → Prop}
    (hstep : ∀ s e, I s → A s e → (I (step s e) ↔ P s e)) {s : σ} (hs : I s) {es : List ε}
    (hA : Along step A s es) :
    (∀ pre post, es = pre ++ post → I (run step s pre)) ↔ Along step P s es := by
  constructor
  · intro h
    induction es generalizing s with
    | nil => exact trivial
    | cons e es ih =>
        have hnext : I (step s e) := h [e] es rfl
        refine ⟨(hstep s e hs hA.1).mp hnext, ih hnext hA.2 ?_⟩
        rintro pre post rfl
        exact h (e :: pre) post rfl
  · rintro h pre post rfl
    have hboth := ((along_append step _ s pre post).mp (hA.and h)).1
    exact hboth.invariant (fun s e hI hAP => (hstep s e hI hAP.1).mpr hAP.2) hs

/-- Let a step keep the invariant exactly when it meets `P`.  Then the invariant holds
all along a run exactly when every step of the run meets `P`. -/
theorem forall_prefix_iff_along {step : σ → ε → σ} {P : σ → ε → Prop} {I : σ → Prop}
    (hstep : ∀ s e, I s → (I (step s e) ↔ P s e)) {s : σ} (hs : I s) (es : List ε) :
    (∀ pre post, es = pre ++ post → I (run step s pre)) ↔ Along step P s es := by
  have hall : Along step (fun _ _ => True) s es :=
    (along_iff_forall_split step _ s es).mpr fun _ _ _ _ => trivial
  exact hall.forall_prefix_iff (fun s e hI _ => hstep s e hI) hs

end Transition
