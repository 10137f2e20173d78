import BtClock.Transition.Emit

/-!
# Runs and their histories

An invariant may relate the state and what was emitted to all the events so far.  What such an
invariant says of the past is that some event came after events of a certain kind.
-/

namespace Transition

variable {σ ε ο : Type*}

/-- What a step keeps of the past, of the state and of all that was emitted, a run keeps. -/
theorem history_invariant {step : σ → ε → σ × List ο} {I : List ε → σ → List ο → Prop}
    (h : ∀ past s log e, I past s log → I (past ++ [e]) (step s e).1 (log ++ (step s e).2))
    {past : List ε} {s : σ} {log : List ο} (hs : I past s log) (es : List ε) :
    I (past ++ es) (reached step s es) (log ++ emitted step s es) := by
  induction es generalizing past s log with
  | nil => simpa using hs
  | cons e es ih =>
      have hrest := ih (h past s log e hs)
      rwa [List.append_assoc, List.append_assoc] at hrest

/-- Some event met `P`, with the events before it. -/
def Sometime (P : List ε → ε → Prop) (es : List ε) : Prop :=
  ∃ pre e post, es = pre ++ e :: post ∧ P pre e

variable {P : List ε → ε → Prop}

@[simp]
theorem sometime_nil : ¬ Sometime P [] := by
  rintro ⟨pre, e, post, h, -⟩
  simp at h

theorem sometime_append_singleton {es : List ε} {e : ε} :
    Sometime P (es ++ [e]) ↔ Sometime P es ∨ P es e := by
  constructor
  · rintro ⟨pre, f, post, h, hP⟩
    rcases List.eq_nil_or_concat post with rfl | ⟨post, g, rfl⟩
    · obtain ⟨rfl, hf⟩ := List.append_inj' h rfl
      obtain rfl : e = f := by simpa using hf
      exact Or.inr hP
    · have hlast : es ++ [e] = (pre ++ f :: post) ++ [g] := by simpa using h
      obtain ⟨rfl, -⟩ := List.append_inj' hlast rfl
      exact Or.inl ⟨pre, f, post, rfl, hP⟩
  · rintro (⟨pre, f, post, rfl, hP⟩ | hP)
    · exact ⟨pre, f, post ++ [e], by simp, hP⟩
    · exact ⟨es, e, [], rfl, hP⟩

/-- Every event meets `P`, given the events before it. -/
def Throughout (P : List ε → ε → Prop) (es : List ε) : Prop :=
  ∀ pre e post, es = pre ++ e :: post → P pre e

@[simp]
theorem throughout_nil : Throughout P [] := by
  intro pre e post h
  simp at h

theorem throughout_append_singleton {es : List ε} {e : ε} :
    Throughout P (es ++ [e]) ↔ Throughout P es ∧ P es e := by
  have hiff {fs : List ε} : Throughout P fs ↔ ¬ Sometime (fun pre f => ¬ P pre f) fs := by
    simp [Throughout, Sometime]
  rw [hiff, hiff, sometime_append_singleton, not_or, not_not]

theorem Throughout.append {es fs : List ε} (h : Throughout P es) (hfs : ∀ f ∈ fs, ∀ pre, P pre f) :
    Throughout P (es ++ fs) := by
  induction fs generalizing es with
  | nil => simpa using h
  | cons f fs ih =>
      rw [List.append_cons]
      refine ih ?_ fun g hg => hfs g (List.mem_cons_of_mem f hg)
      exact throughout_append_singleton.mpr ⟨h, hfs f List.mem_cons_self es⟩

/-- The event `e` came when `P` held of the past, and only quiet ones have come since. -/
def Behind (quiet : ε → Prop) (P : List ε → Prop) (e : ε) (es : List ε) : Prop :=
  ∃ before after, es = before ++ e :: after ∧ P before ∧ ∀ f ∈ after, quiet f

variable {quiet : ε → Prop} {Q : List ε → Prop}

theorem behind_append_self {es : List ε} (e : ε) (h : Q es) : Behind quiet Q e (es ++ [e]) :=
  ⟨es, [], rfl, h, by simp⟩

theorem Behind.append {es fs : List ε} {e : ε} (h : Behind quiet Q e es)
    (hfs : ∀ f ∈ fs, quiet f) : Behind quiet Q e (es ++ fs) := by
  obtain ⟨before, after, rfl, hQ, hafter⟩ := h
  refine ⟨before, after ++ fs, by simp, hQ, fun f hf => ?_⟩
  exact (List.mem_append.mp hf).elim (hafter f) (hfs f)

end Transition
