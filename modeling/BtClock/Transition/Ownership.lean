import Mathlib.Data.List.Basic

/-!
# A flag with one owner

A party which finds the flag clear takes it, and clears it when it is done.  The flag may be
handed on in between.
-/

namespace Transition

variable {ι : Type*}

/-- The flag is set while a party holds it, and no two parties hold it. -/
structure Exclusive (holds : ι → Prop) (flag : Bool) : Prop where
  taken : ∀ i, holds i → flag = true
  alone : ∀ i j, holds i → holds j → i = j

namespace Exclusive

variable {holds holds' : ι → Prop} {flag : Bool}

theorem of_none (h : ∀ i, ¬ holds i) (flag : Bool) : Exclusive holds flag where
  taken i hi := absurd hi (h i)
  alone i _ hi := absurd hi (h i)

theorem mono (h : Exclusive holds flag) (hsub : ∀ j, holds' j → holds j) :
    Exclusive holds' flag where
  taken j hj := h.taken j (hsub j hj)
  alone i j hi hj := h.alone i j (hsub i hi) (hsub j hj)

theorem not_holds (h : Exclusive holds false) (i : ι) : ¬ holds i :=
  fun hi => Bool.false_ne_true (h.taken i hi)

/-- When the holder lets go, nobody holds. -/
theorem none_of_holds (h : Exclusive holds flag) {i : ι} (hi : holds i)
    (hsub : ∀ j, holds' j → holds j ∧ j ≠ i) (j : ι) : ¬ holds' j :=
  fun hj => (hsub j hj).2 (h.alone j i (hsub j hj).1 hi)

theorem take (h : Exclusive holds false) {i : ι} (hsub : ∀ j, holds' j → holds j ∨ j = i) :
    Exclusive holds' true where
  taken _ _ := rfl
  alone j k hj hk := by
    have hj := (hsub j hj).resolve_left (h.not_holds j)
    have hk := (hsub k hk).resolve_left (h.not_holds k)
    exact hj.trans hk.symm

/-- The flag goes from `i` to `k`. -/
theorem pass (h : Exclusive holds flag) {i k : ι} (hi : holds i)
    (hsub : ∀ j, holds' j → (holds j ∧ j ≠ i) ∨ j = k) : Exclusive holds' flag where
  taken _ _ := h.taken i hi
  alone j l hj hl := by
    have hother : ∀ m, holds' m → m = k := fun m hm =>
      (hsub m hm).resolve_left fun hne => hne.2 (h.alone m i hne.1 hi)
    exact (hother j hj).trans (hother l hl).symm

theorem release (h : Exclusive holds flag) {i : ι} (hi : holds i)
    (hsub : ∀ j, holds' j → holds j ∧ j ≠ i) (flag' : Bool) : Exclusive holds' flag' :=
  of_none (h.none_of_holds hi hsub) flag'

end Exclusive

end Transition
