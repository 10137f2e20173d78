import Mathlib.Algebra.Order.Floor.Div

/-!
# Rounding up to a multiple

The least multiple of a number which is not below another one.
-/

namespace Rounding

variable {c d m n : ℕ}

def roundUp (c n : ℕ) : ℕ :=
  c * (n ⌈/⌉ c)

theorem le_roundUp (hc : 0 < c) (n : ℕ) : n ≤ roundUp c n :=
  le_smul_ceilDiv hc

theorem dvd_roundUp (c n : ℕ) : c ∣ roundUp c n :=
  Nat.dvd_mul_right c _

theorem roundUp_le (hc : 0 < c) (hle : n ≤ m) (hdvd : c ∣ m) : roundUp c n ≤ m := by
  obtain ⟨k, rfl⟩ := hdvd
  exact Nat.mul_le_mul_left c ((ceilDiv_le_iff_le_mul hc).mpr hle)

/-- A coarser rounding of a greater number is not below. -/
theorem roundUp_le_roundUp (hc : 0 < c) (hd : 0 < d) (hdvd : c ∣ d) (hle : m ≤ n) :
    roundUp c m ≤ roundUp d n :=
  roundUp_le hc (hle.trans (le_roundUp hd n)) (hdvd.trans (dvd_roundUp d n))

/-- The multiple behind the predecessor. -/
theorem mul_div_add_one (hc : 0 < c) (hn : 1 ≤ n) : c * ((n - 1) / c + 1) = roundUp c n := by
  rw [roundUp, Nat.ceilDiv_eq_add_pred_div, Nat.sub_add_comm hn, Nat.add_div_right (n - 1) hc]

end Rounding
