import BtClock.Transition.Run
import Mathlib.Data.Multiset.Fold

/-!
# Runs which join their events

Some quantity of the state may take, at every step, the larger of its value and the
value of the event.  Then after a run it is the maximum over the events, whatever their
order.
-/

namespace Transition

variable {σ ε κ : Type*} [LinearOrder κ]

/-- A quantity which every step joins with the value of the event is, after a run, the
maximum over the multiset of the events. -/
theorem run_key_eq_fold_max {step : σ → ε → σ} {key : σ → κ} {value : ε → κ}
    (hstep : ∀ s e, key (step s e) = max (key s) (value e)) (s : σ) (es : List ε) :
    key (run step s es) = ((es : Multiset ε).map value).fold max (key s) := by
  induction es generalizing s with
  | nil => simp
  | cons e es ih =>
      rw [run_cons, ih, hstep, ← Multiset.cons_coe, Multiset.map_cons,
        Multiset.fold_cons'_left, max_comm]

/-- A quantity which every step keeps or takes from the event is, after a run, the first
one or that of some event. -/
theorem run_key_mem {α : Type*} {step : σ → ε → σ} {key : σ → α} {value : ε → α}
    (hstep : ∀ s e, key (step s e) = key s ∨ key (step s e) = value e) (s : σ)
    (es : List ε) :
    key (run step s es) = key s ∨ ∃ e ∈ es, key (run step s es) = value e := by
  induction es generalizing s with
  | nil => exact .inl rfl
  | cons e es ih =>
      rcases ih (step s e) with hkey | ⟨f, hf, hkey⟩
      · rcases hstep s e with hs | he
        · exact .inl (hkey.trans hs)
        · exact .inr ⟨e, List.mem_cons_self, hkey.trans he⟩
      · exact .inr ⟨f, List.mem_cons_of_mem e hf, hkey⟩

/-- A condition on the event alone holds along a run exactly when it holds of every
event. -/
theorem along_const_iff (step : σ → ε → σ) (Q : ε → Prop) (s : σ) (es : List ε) :
    Along step (fun _ e => Q e) s es ↔ ∀ e ∈ es, Q e := by
  induction es generalizing s with
  | nil => simp
  | cons e es ih => simp [ih]

end Transition
