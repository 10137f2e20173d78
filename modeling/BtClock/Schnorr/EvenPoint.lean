import Mathlib.Algebra.Group.Action.Basic
import Mathlib.Tactic.Abel

/-!
# Signatures over points up to sign

A point and its opposite share a coordinate and are told apart by a parity.  A key or a nonce
whose point is odd is replaced by its opposite, so that the coordinate alone names the point.
-/

namespace Schnorr

/-- The coordinate and the parity of the points of a group. -/
structure Points (G X : Type*) [AddCommGroup G] where
  x : G → X
  odd : G → Bool
  x_neg : ∀ P, x (-P) = x P
  odd_neg : ∀ P, P ≠ 0 → odd (-P) = !odd P
  ext : ∀ P Q, P ≠ 0 → Q ≠ 0 → x P = x Q → odd P = odd Q → P = Q

namespace Points

variable {G X : Type*} [AddCommGroup G] (C : Points G X)

/-- The even one of a point and its opposite. -/
def even (P : G) : G :=
  if C.odd P then -P else P

variable {C}

@[simp]
theorem x_even (P : G) : C.x (C.even P) = C.x P := by
  unfold even
  split
  · exact C.x_neg P
  · rfl

theorem even_ne_zero {P : G} (hP : P ≠ 0) : C.even P ≠ 0 := by
  unfold even
  split
  · exact neg_ne_zero.mpr hP
  · exact hP

theorem odd_even {P : G} (hP : P ≠ 0) : C.odd (C.even P) = false := by
  unfold even
  split
  · rename_i hodd
    rw [C.odd_neg P hP, hodd, Bool.not_true]
  · rename_i hodd
    exact Bool.not_eq_true _ ▸ hodd

end Points

section Order

variable {G : Type*} [AddCommGroup G] {n : ℕ} {g : G} (hn : n • g = 0)

include hn

theorem mod_smul (k : ℕ) : (k % n) • g = k • g := by
  conv_rhs => rw [← Nat.mod_add_div k n, add_nsmul, mul_nsmul, hn, nsmul_zero, add_zero]

theorem sub_smul {d : ℕ} (hd : d ≤ n) : (n - d) • g = -(d • g) := by
  rw [eq_neg_iff_add_eq_zero, ← add_nsmul, Nat.sub_add_cancel hd, hn]

/-- A scalar negated where its point is odd. -/
theorem ite_sub_smul {X : Type*} (C : Points G X) {d : ℕ} (hd : d ≤ n) :
    (if C.odd (d • g) then n - d else d) • g = C.even (d • g) := by
  unfold Points.even
  split
  · exact sub_smul hn hd
  · rfl

/-- The equation of a signature. -/
theorem signature_smul (k e d : ℕ) :
    ((k + e * d) % n) • g = k • g + e • (d • g) := by
  rw [mod_smul hn, add_nsmul, Nat.mul_comm, mul_nsmul]

omit hn in
/-- The verifier recovers the point of the nonce. -/
theorem recover {P R : G} {e s : ℕ} (hP : n • P = 0) (he : e ≤ n)
    (hs : s • g = R + e • P) : ((n - e) % n) • P + s • g = R := by
  rw [mod_smul hP, sub_smul hP he, hs]
  abel

end Order

end Schnorr
