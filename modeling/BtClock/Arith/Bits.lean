import Mathlib.Data.List.Basic
import Mathlib.Data.Nat.Bitwise

/-!
# Words put together from bits

Where the bits of two numbers do not meet, to join them is to add, and a number which gathers
differences is zero when there was none.
-/

namespace Bits

/-- A shifted number joined with one below the shift. -/
theorem shiftLeft_or_eq_add {x y k : ℕ} (hy : y < 2 ^ k) : x <<< k ||| y = x * 2 ^ k + y := by
  rw [Nat.shiftLeft_eq, Nat.mul_comm]
  exact (Nat.two_pow_add_eq_or_of_lt hy x).symm

theorem and_two_pow_sub_one (x k : ℕ) : x &&& (2 ^ k - 1) = x % 2 ^ k :=
  Nat.and_two_pow_sub_one_eq_mod x k

section Gather

variable {ι : Type*} (f : ι → ℕ)

/-- The differences joined one after another. -/
def gather (acc : ℕ) (l : List ι) : ℕ :=
  l.foldl (fun acc i => acc ||| f i) acc

theorem gather_eq_zero_iff (acc : ℕ) (l : List ι) :
    gather f acc l = 0 ↔ acc = 0 ∧ ∀ i ∈ l, f i = 0 := by
  induction l generalizing acc with
  | nil => simp [gather]
  | cons i l ih =>
      have hstep : gather f acc (i :: l) = gather f (acc ||| f i) l := rfl
      rw [hstep, ih, List.forall_mem_cons, Nat.or_eq_zero_iff, and_assoc]

end Gather

end Bits
