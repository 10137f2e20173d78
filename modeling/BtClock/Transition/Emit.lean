import BtClock.Transition.Run

/-!
# Step functions with outputs

A step gives the next state and what it emits.  A run emits what its steps emit, in order.
-/

namespace Transition

variable {σ ε ο : Type*}

/-- The state after a run. -/
def reached (step : σ → ε → σ × List ο) (s : σ) (es : List ε) : σ :=
  run (fun s e => (step s e).1) s es

/-- What a run emits. -/
def emitted (step : σ → ε → σ × List ο) : σ → List ε → List ο
  | _, [] => []
  | s, e :: es => (step s e).2 ++ emitted step (step s e).1 es

/-- What the single steps of a run emit. -/
def outputs (step : σ → ε → σ × List ο) : σ → List ε → List (List ο)
  | _, [] => []
  | s, e :: es => (step s e).2 :: outputs step (step s e).1 es

variable {step : σ → ε → σ × List ο}

@[simp]
theorem reached_nil (s : σ) : reached step s [] = s :=
  rfl

@[simp]
theorem reached_cons (s : σ) (e : ε) (es : List ε) :
    reached step s (e :: es) = reached step (step s e).1 es :=
  rfl

@[simp]
theorem emitted_nil (s : σ) : emitted step s [] = [] :=
  rfl

@[simp]
theorem emitted_cons (s : σ) (e : ε) (es : List ε) :
    emitted step s (e :: es) = (step s e).2 ++ emitted step (step s e).1 es :=
  rfl

theorem reached_append (s : σ) (es fs : List ε) :
    reached step s (es ++ fs) = reached step (reached step s es) fs :=
  run_append _ s es fs

theorem emitted_append (s : σ) (es fs : List ε) :
    emitted step s (es ++ fs) = emitted step s es ++ emitted step (reached step s es) fs := by
  induction es generalizing s with
  | nil => rfl
  | cons e es ih => rw [List.cons_append, emitted_cons, ih, emitted_cons, List.append_assoc,
      reached_cons]

/-- Events which do nothing may be left out. -/
theorem run_filter {p : ε → Bool} (h : ∀ s e, p e = false → step s e = (s, [])) (s : σ)
    (es : List ε) :
    reached step s (es.filter p) = reached step s es ∧
      emitted step s (es.filter p) = emitted step s es := by
  induction es generalizing s with
  | nil => exact ⟨rfl, rfl⟩
  | cons e es ih =>
      cases hp : p e with
      | true =>
          rw [List.filter_cons_of_pos hp, reached_cons, emitted_cons, reached_cons, emitted_cons,
            (ih _).1, (ih _).2]
          exact ⟨rfl, rfl⟩
      | false =>
          rw [List.filter_cons_of_neg (by simp [hp]), reached_cons, emitted_cons, h s e hp]
          exact ih s

theorem getElem?_outputs (s : σ) (es : List ε) (k : ℕ) :
    (outputs step s es)[k]? = es[k]?.map fun e => (step (reached step s (es.take k)) e).2 := by
  induction es generalizing s k with
  | nil => rfl
  | cons e es ih =>
      cases k with
      | zero => rfl
      | succ k =>
          rw [outputs, List.getElem?_cons_succ, ih, List.getElem?_cons_succ, List.take_succ_cons,
            reached_cons]

/-- The other steps emit what they emit without the events which do nothing. -/
theorem zip_outputs_filter {p : ε → Bool} (h : ∀ s e, p e = false → step s e = (s, [])) (s : σ)
    (es : List ε) :
    (es.zip (outputs step s es)).filter (fun x => p x.1) =
      (es.filter p).zip (outputs step s (es.filter p)) := by
  induction es generalizing s with
  | nil => rfl
  | cons e es ih =>
      rw [outputs, List.zip_cons_cons, List.filter_cons]
      cases hp : p e with
      | true =>
          rw [if_pos rfl, ih, List.filter_cons_of_pos hp, outputs, List.zip_cons_cons]
      | false =>
          rw [if_neg Bool.false_ne_true, h s e hp, ih, List.filter_cons_of_neg (by simp [hp])]

theorem length_outputs (s : σ) (es : List ε) : (outputs step s es).length = es.length := by
  induction es generalizing s with
  | nil => rfl
  | cons e es ih => rw [outputs, List.length_cons, ih, List.length_cons]

/-- Steps which emit nothing. -/
theorem emitted_eq_nil {P : ε → Prop} (h : ∀ s e, P e → (step s e).2 = []) (s : σ) {es : List ε}
    (hes : ∀ e ∈ es, P e) : emitted step s es = [] := by
  induction es generalizing s with
  | nil => rfl
  | cons e es ih =>
      rw [emitted_cons, h s e (hes e List.mem_cons_self),
        ih _ fun f hf => hes f (List.mem_cons_of_mem e hf)]
      rfl

/-- What a step keeps of the state and of all that was emitted, a run keeps. -/
theorem emitted_invariant {I : σ → List ο → Prop}
    (h : ∀ s log e, I s log → I (step s e).1 (log ++ (step s e).2)) {s : σ} {log : List ο}
    (hs : I s log) (es : List ε) : I (reached step s es) (log ++ emitted step s es) := by
  induction es generalizing s log with
  | nil => simpa using hs
  | cons e es ih =>
      rw [emitted_cons, ← List.append_assoc]
      exact ih (h s log e hs)

/-- The same along a run of steps which meet `P`. -/
theorem Along.emitted_invariant {I : σ → List ο → Prop} {P : σ → ε → Prop}
    (h : ∀ s log e, I s log → P s e → I (step s e).1 (log ++ (step s e).2)) {s : σ} {log : List ο}
    (hs : I s log) {es : List ε} (hes : Along (fun s e => (step s e).1) P s es) :
    I (reached step s es) (log ++ emitted step s es) := by
  induction es generalizing s log with
  | nil => simpa using hs
  | cons e es ih =>
      rw [emitted_cons, ← List.append_assoc]
      exact ih (h s log e hs hes.1) hes.2

end Transition
