import Mathlib.Algebra.BigOperators.Intervals

/-!
# Sums over epochs

What is summed changes with the epoch only.  A whole epoch is added at once, and what is left of
the last one as well.
-/

namespace Epochs

open Finset

variable {M : Type*} [AddCommMonoid M] (f : ℕ → M) {c n : ℕ}

/-- The sum ends within the epoch. -/
theorem sum_of_le (hle : n ≤ c) (e : ℕ) : ∑ i ∈ range n, f (e + i / c) = n • f e := by
  have hfirst : ∀ i ∈ range n, f (e + i / c) = f e := fun i hi => by
    rw [Nat.div_eq_of_lt ((mem_range.mp hi).trans_le hle), Nat.add_zero]
  rw [sum_congr rfl hfirst, sum_const, card_range]

/-- The epoch is part of the sum, and the next one follows. -/
theorem sum_of_ge (hpos : 0 < c) (hge : c ≤ n) (e : ℕ) :
    ∑ i ∈ range n, f (e + i / c) = c • f e + ∑ i ∈ range (n - c), f (e + 1 + i / c) := by
  obtain ⟨m, rfl⟩ := Nat.exists_eq_add_of_le hge
  have hnext : ∀ i ∈ range m, f (e + (c + i) / c) = f (e + 1 + i / c) := fun i _ => by
    rw [Nat.add_div_left i hpos, Nat.add_assoc, Nat.add_comm 1]
  rw [sum_range_add, sum_of_le f (Nat.le_refl c), Nat.add_sub_cancel_left, sum_congr rfl hnext]

end Epochs
