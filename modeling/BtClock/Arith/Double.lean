import Mathlib.Algebra.Group.Int.Defs
import Mathlib.Algebra.Group.Nat.Defs
import Mathlib.Data.Int.Notation

/-!
# Double-precision numbers

A `double` is a `Float`.  Its comparison `==` identifies the two zeros and is not
reflexive at a NaN, but it is symmetric and transitive.  The conversions to an integer
truncate, and saturate at the bounds of the integer type.
-/

namespace Double

open Float.Model UnpackedFloat

/-- Two unpacked numbers which compare as equal. -/
def SameValue : UnpackedFloat → UnpackedFloat → Prop
  | .infinity s, .infinity t => s = t
  | .zero _, .zero _ => True
  | .finite s m e _, .finite t n f _ => s = t ∧ m = n ∧ e = f
  | _, _ => False

theorem SameValue.symm {x y : UnpackedFloat} (h : SameValue x y) : SameValue y x := by
  cases x <;> cases y
  case infinity.infinity => exact Eq.symm h
  case finite.finite => exact ⟨h.1.symm, h.2.1.symm, h.2.2.symm⟩
  all_goals exact h

theorem SameValue.trans {x y z : UnpackedFloat} (h : SameValue x y)
    (h' : SameValue y z) : SameValue x z := by
  cases x <;> cases y <;> cases z
  case infinity.infinity.infinity => exact Eq.trans h h'
  case finite.finite.finite => exact ⟨h.1.trans h'.1, h.2.1.trans h'.2.1, h.2.2.trans h'.2.2⟩
  all_goals first | exact h | exact h' | exact False.elim h

theorem some_compare_sign_iff (s t : Sign) :
    some (compare s t) = some Ordering.eq ↔ s = t := by
  cases s <;> cases t <;> simp <;> decide

theorem then_eq_iff (m n : ℕ) (e f : ℤ) :
    (compare e f).then (compare m n) = .eq ↔ m = n ∧ e = f := by
  simp [and_comm]

/-- What compares as less or greater is not the same. -/
theorem some_eq_iff_false {o : Ordering} (h : o ≠ .eq) : some o = some Ordering.eq ↔ False :=
  iff_of_false (fun heq => h (Option.some.inj heq)) id

theorem none_eq_iff_false : (none : Option Ordering) = some .eq ↔ False :=
  iff_of_false (fun heq => by cases heq) id

theorem unpacked_beq_iff (x y : UnpackedFloat) : x.beq y = true ↔ SameValue x y := by
  refine beq_iff_eq.trans ?_
  cases x with
  | notANumber => cases y <;> exact none_eq_iff_false
  | infinity s =>
      cases y with
      | notANumber => cases s <;> exact none_eq_iff_false
      | infinity t => exact some_compare_sign_iff s t
      | zero t => cases s <;> exact some_eq_iff_false (by decide)
      | finite t n f _ => cases s <;> exact some_eq_iff_false (by decide)
  | zero s =>
      cases y with
      | notANumber => exact none_eq_iff_false
      | infinity t => cases t <;> exact some_eq_iff_false (by decide)
      | zero t => exact iff_of_true rfl trivial
      | finite t n f _ => cases t <;> exact some_eq_iff_false (by decide)
  | finite s m e _ =>
      cases y with
      | notANumber => cases s <;> exact none_eq_iff_false
      | infinity t => cases s <;> cases t <;> exact some_eq_iff_false (by decide)
      | zero t => cases s <;> exact some_eq_iff_false (by decide)
      | finite t n f _ =>
          have hparts := then_eq_iff m n e f
          cases s <;> cases t
          · refine Iff.trans ?_ (hparts.trans (and_iff_right rfl).symm)
            exact Option.some_inj.trans Ordering.swap_eq_eq
          · exact iff_of_false (some_eq_iff_false (by decide)).mp fun h => by cases h.1
          · exact iff_of_false (some_eq_iff_false (by decide)).mp fun h => by cases h.1
          · exact Option.some_inj.trans (hparts.trans (and_iff_right rfl).symm)

theorem beq_iff (x y : Float) :
    (x == y) = true ↔ SameValue x.toModel.unpack y.toModel.unpack :=
  unpacked_beq_iff _ _

theorem beq_symm {x y : Float} (h : (x == y) = true) : (y == x) = true :=
  (beq_iff y x).mpr ((beq_iff x y).mp h).symm

theorem beq_trans {x y z : Float} (h : (x == y) = true) (h' : (y == z) = true) :
    (x == z) = true :=
  (beq_iff x z).mpr (((beq_iff x y).mp h).trans ((beq_iff y z).mp h'))

/-- Only a NaN differs from itself. -/
theorem beq_self_iff (x : Float) : (x == x) = true ↔ x.isNaN = false := by
  rw [beq_iff, Float.isNaN, Float.Model.isNaN]
  cases x.toModel.unpack with
  | notANumber => exact iff_of_false id Bool.noConfusion
  | infinity s => exact iff_of_true rfl rfl
  | zero s => exact iff_of_true trivial rfl
  | finite s m e _ => exact iff_of_true ⟨rfl, rfl, rfl⟩ rfl

theorem normalize_zero (f : Format) (e : ℤ) (s : Sign) : normalize f 0 e s = .zero s :=
  rfl

/-- The difference of a number and itself is a zero, or a NaN. -/
theorem unpacked_sub_self (f : Format) (u : UnpackedFloat) :
    u.sub f u = .zero .positive ∨ u.sub f u = .notANumber := by
  cases u with
  | notANumber => exact .inr rfl
  | infinity s => cases s <;> exact .inr rfl
  | zero s => cases s <;> exact .inl rfl
  | finite s m e _ =>
      left
      have hzero := Int.sub_self (s.apply (decreaseExponent m e (min e e)).1)
      exact (congrArg (normalize f · (min e e) .positive) hzero).trans (normalize_zero f _ _)

/-- The distance of a number from itself exceeds nothing. -/
theorem not_lt_abs_sub_self (x : Float) : ¬ 1e-3 < (x - x).abs := by
  have hsub : x - x = .ofModel (.pack (x.toModel.unpack.sub .binary64 x.toModel.unpack)) :=
    rfl
  rcases unpacked_sub_self .binary64 x.toModel.unpack with h | h
  · rw [hsub, h]
    decide
  · rw [hsub, h]
    decide

/-- The integer part of a number, saturated at the bounds `lo` and `hi`. -/
def trunc (lo hi : ℤ) (x : Float) : ℤ :=
  max lo (min hi (x.toModel.unpack.toInt lo hi))

/-- The largest integer not above a number within `2 ^ 62` of zero. -/
def floorInt (x : Float) : ℤ :=
  let t := trunc (-2 ^ 62) (2 ^ 62) x
  if x < Float.ofInt t then t - 1 else t

/-- The smallest integer not below a number within `2 ^ 62` of zero. -/
def ceilInt (x : Float) : ℤ :=
  let t := trunc (-2 ^ 62) (2 ^ 62) x
  if Float.ofInt t < x then t + 1 else t

/-- The conversion of an integral value to a 32-bit integer. -/
def toInt32 (n : ℤ) : Int32 :=
  Int32.ofInt (max (-2 ^ 31) (min (2 ^ 31 - 1) n))

/-- The cast of a number to a 32-bit integer. -/
def castInt32 (x : Float) : Int32 :=
  Int32.ofInt (trunc (-2 ^ 31) (2 ^ 31 - 1) x)

def castUInt32 (x : Float) : UInt32 :=
  UInt32.ofNat (trunc 0 (2 ^ 32 - 1) x).toNat

example : floorInt 12.75 = 12 ∧ floorInt (-0.5) = -1 ∧ ceilInt (-0.5) = 0 := by
  decide

end Double
