import BtClock.Arith.Double
import Mathlib

/-!
# Truncation respects the order

The comparison of two doubles looks at the exponents before the mantissas, which is the order
of the values as the mantissa of a normal number has its leading bit.  So the truncation to an
integer is monotone, and a number between two bounds stays between them.
-/

namespace Double

open Float.Model UnpackedFloat

/-- A finite number has 53 bits, the leading one set above the least exponent. -/
def Canonical : UnpackedFloat → Prop
  | .finite _ m e _ => m < 2 ^ 53 ∧ -1074 ≤ e ∧ (e ≠ -1074 → 2 ^ 52 ≤ m)
  | _ => True

theorem canonical_unpackBits (b : BitVec Format.binary64.numBits) :
    Canonical (UnpackedFloat.unpack Format.binary64 b) := by
  have hbias : (Format.binary64.exponentBias : ℤ) = 1023 := rfl
  have hm : (unpackMantissa b).toNat < 2 ^ 52 := (unpackMantissa b).isLt
  rw [UnpackedFloat.unpack]
  split
  · split <;> trivial
  · split
    · rename_i he
      split
      · trivial
      · simp only [Canonical, he, hbias]
        exact ⟨by omega, by decide, fun hne => absurd rfl hne⟩
    · rename_i he
      have hpos : (unpackExponent b).toNat ≠ 0 := fun h => he (BitVec.eq_of_toNat_eq h)
      have hsum : (1#1 ++ unpackMantissa b).toNat = 2 ^ 52 + (unpackMantissa b).toNat := by
        rw [BitVec.toNat_append, ← Nat.shiftLeft_add_eq_or_of_lt hm]
        rfl
      simp only [Canonical, hsum, hbias]
      omega

theorem canonical_unpack (x : Float) : Canonical x.toModel.unpack :=
  canonical_unpackBits _

theorem mantissa_shiftRight (em : ExtendedMantissa) (k : ℕ) :
    (em >>> k).mantissa = em.mantissa / 2 ^ k := by
  induction k with
  | zero => exact (Nat.div_one _).symm
  | succ k ih =>
      change (em >>> k).mantissa / 2 = _
      rw [ih, Nat.div_div_eq_div_mul, Nat.pow_succ]

/-- The truncation in a single division, by a power of two for any exponent from `-k` on. -/
theorem roundToInt_eq (s : Sign) (m : ℕ) {e : ℤ} {k : ℕ} (he : -(k : ℤ) ≤ e) :
    roundToInt s m e = s.apply ((m * 2 ^ (e + k).toNat / 2 ^ k : ℕ) : ℤ) := by
  have hm : roundToInt s m e =
      s.apply ((m <<< e.toNat / 2 ^ (-(e - e.toNat)).toNat : ℕ) : ℤ) := by
    simp [roundToInt, decreaseExponent, shiftToExponent, mantissa_shiftRight,
      ExtendedMantissa.ofMantissaAndAccuracy]
  rw [hm, Nat.shiftLeft_eq]
  congr 2
  rcases Int.le_total 0 e with hpos | hneg
  · obtain ⟨n, rfl⟩ := Int.eq_ofNat_of_zero_le hpos
    have hk : ((n : ℤ) + k).toNat = n + k := by omega
    rw [hk, Nat.pow_add, ← Nat.mul_assoc, Nat.mul_div_cancel _ (Nat.two_pow_pos k)]
    simp
  · obtain ⟨n, rfl⟩ := Int.exists_eq_neg_ofNat hneg
    obtain ⟨j, rfl⟩ : ∃ j, k = j + n := ⟨k - n, by omega⟩
    have hk : (-(n : ℤ) + (j + n : ℕ)).toNat = j := by omega
    have hn : (-(n : ℤ)).toNat = 0 := by omega
    rw [hk, hn, Nat.pow_add, Nat.mul_comm _ (2 ^ j), Nat.mul_div_mul_left _ _ (Nat.two_pow_pos j)]
    simp

/-- The integer part of the magnitude of a finite number. -/
def magnitude (m : ℕ) (e : ℤ) : ℕ :=
  m * 2 ^ (e + 1074).toNat / 2 ^ 1074

theorem toInt_finite {s : Sign} {m : ℕ} {e : ℤ} {hm : 0 < m}
    (h : Canonical (.finite s m e hm)) (lo hi : ℤ) :
    (UnpackedFloat.finite s m e hm).toInt lo hi =
      s.apply (magnitude m e : ℤ) :=
  roundToInt_eq s m (k := 1074) h.2.1

/-- The order of the exponents, then of the mantissas, is the order of the magnitudes. -/
theorem magnitude_le {s t : Sign} {m n : ℕ} {e f : ℤ} {hm : 0 < m} {hn : 0 < n}
    (hx : Canonical (.finite s m e hm)) (hy : Canonical (.finite t n f hn))
    (h : (compare f e).then (compare n m) ≠ .lt) : magnitude m e ≤ magnitude n f := by
  apply Nat.div_le_div_right
  obtain ⟨hm53, he, -⟩ := hx
  obtain ⟨-, hf, hn52⟩ := hy
  rcases Int.lt_trichotomy e f with hlt | rfl | hgt
  · obtain ⟨d, hd⟩ : ∃ d, (f + 1074).toNat = (e + 1074).toNat + 1 + d :=
      ⟨((f + 1074).toNat - (e + 1074).toNat - 1), by omega⟩
    have hlead : 2 ^ 52 ≤ n := hn52 (by omega)
    have hmn : m ≤ n * 2 ^ (1 + d) := by
      have htwo : 2 ≤ 2 ^ (1 + d) := by
        rw [Nat.pow_add]
        have hd := Nat.two_pow_pos d
        omega
      have hdouble : n * 2 ≤ n * 2 ^ (1 + d) := Nat.mul_le_mul_left n htwo
      omega
    calc m * 2 ^ (e + 1074).toNat
        ≤ n * 2 ^ (1 + d) * 2 ^ (e + 1074).toNat := Nat.mul_le_mul_right _ hmn
      _ = n * 2 ^ (f + 1074).toNat := by
          rw [hd, Nat.mul_assoc, ← Nat.pow_add]
          congr 2
          omega
  · have hle : m ≤ n := by
      by_contra hlt
      exact h (by simpa [Nat.compare_eq_lt] using hlt)
    exact Nat.mul_le_mul_right _ hle
  · exact absurd (by simp [compare_lt_iff_lt.mpr hgt]) h

/-- A NaN compares with nothing; otherwise the truncations are in the order of the numbers. -/
theorem unpacked_trunc_le {lo hi : ℤ} (hlohi : lo ≤ hi) {x y : UnpackedFloat}
    (hx : Canonical x) (hy : Canonical y) (hxnan : x.isNaN = false) (hynan : y.isNaN = false)
    (h : y.compare x ≠ some .lt) :
    max lo (min hi (x.toInt lo hi)) ≤ max lo (min hi (y.toInt lo hi)) := by
  suffices hle : min hi (x.toInt lo hi) ≤ y.toInt lo hi ∨ x.toInt lo hi ≤ lo by omega
  cases x with
  | notANumber => cases hxnan
  | infinity s =>
      cases s with
      | negative => exact .inr (Int.le_refl lo)
      | positive =>
          cases y with
          | notANumber => cases hynan
          | infinity t =>
              cases t with
              | positive => exact .inl (Int.min_le_left ..)
              | negative => exact absurd rfl h
          | zero t => exact absurd rfl h
          | finite t n f hn => exact absurd (by cases t <;> rfl) h
  | zero s =>
      left
      cases y with
      | notANumber => cases hynan
      | infinity t =>
          cases t with
          | positive => exact Int.min_le_left ..
          | negative => exact absurd rfl h
      | zero t => exact Int.min_le_right ..
      | finite t n f hn =>
          cases t with
          | positive =>
              rw [toInt_finite hy]
              exact Int.le_trans (Int.min_le_right ..) (Int.natCast_nonneg _)
          | negative => exact absurd rfl h
  | finite s m e hm =>
      rw [toInt_finite hx]
      cases y with
      | notANumber => cases hynan
      | infinity t =>
          cases t with
          | positive => exact .inl (Int.min_le_left ..)
          | negative => exact absurd (by cases s <;> rfl) h
      | zero t =>
          left
          cases s with
          | positive => exact absurd rfl h
          | negative =>
              exact Int.le_trans (Int.min_le_right ..)
                (Int.neg_nonpos_of_nonneg (Int.natCast_nonneg _))
      | finite t n f hn =>
          rw [toInt_finite hy]
          refine .inl (Int.le_trans (Int.min_le_right ..) ?_)
          cases s with
          | positive =>
              cases t with
              | positive =>
                  exact Int.ofNat_le.mpr (magnitude_le hx hy fun hlt => h (congrArg some hlt))
              | negative => exact absurd rfl h
          | negative =>
              cases t with
              | positive =>
                  exact Int.le_trans (Int.neg_nonpos_of_nonneg (Int.natCast_nonneg _))
                    (Int.natCast_nonneg _)
              | negative =>
                  refine Int.neg_le_neg (Int.ofNat_le.mpr (magnitude_le hy hx fun hlt => h ?_))
                  rw [UnpackedFloat.compare, Ordering.swap_then, ← Std.OrientedCmp.eq_swap,
                    ← Std.OrientedCmp.eq_swap, hlt]


theorem compare_swap (x y : UnpackedFloat) : y.compare x = (x.compare y).map Ordering.swap := by
  cases x with
  | notANumber => cases y <;> rfl
  | infinity s =>
      cases y with
      | infinity t => cases s <;> cases t <;> rfl
      | _ => cases s <;> rfl
  | zero s =>
      cases y with
      | notANumber => rfl
      | zero t => rfl
      | infinity t => cases t <;> rfl
      | finite t n f hn => cases t <;> rfl
  | finite s m e hm =>
      cases y with
      | notANumber => rfl
      | zero t => cases s <;> rfl
      | infinity t => cases s <;> cases t <;> rfl
      | finite t n f hn =>
          cases s <;> cases t <;>
            simp [UnpackedFloat.compare, Ordering.swap_then, ← Std.OrientedCmp.eq_swap]

theorem lt_iff {x y : Float} :
    x < y ↔ x.toModel.unpack.compare y.toModel.unpack = some .lt :=
  decide_eq_true_iff.trans beq_iff_eq

/-- Truncation is monotone. -/
theorem trunc_le_trunc {lo hi : ℤ} (hlohi : lo ≤ hi) {x y : Float} (hx : x.isNaN = false)
    (hy : y.isNaN = false) (h : ¬y < x) : trunc lo hi x ≤ trunc lo hi y :=
  unpacked_trunc_le hlohi (canonical_unpack x) (canonical_unpack y) hx hy fun hlt =>
    h (lt_iff.mpr hlt)

theorem toInt_castInt32 (x : Float) : (castInt32 x).toInt = trunc (-2 ^ 31) (2 ^ 31 - 1) x := by
  have hmin : -2 ^ 31 ≤ trunc (-2 ^ 31) (2 ^ 31 - 1) x := Int.le_max_left ..
  have hmax : trunc (-2 ^ 31) (2 ^ 31 - 1) x ≤ 2 ^ 31 - 1 :=
    Int.max_le.mpr ⟨by decide, Int.min_le_left ..⟩
  exact Int32.toInt_ofInt_of_le hmin (by omega)

/-- Numbers whose truncations are in the strict order are so themselves. -/
theorem lt_of_castInt32_lt {x y : Float} (hx : x.isNaN = false) (hy : y.isNaN = false)
    (h : castInt32 x < castInt32 y) : x < y := by
  by_contra hnot
  have hle := trunc_le_trunc (by decide : (-2 ^ 31 : ℤ) ≤ 2 ^ 31 - 1) hy hx hnot
  rw [Int32.lt_iff_toInt_lt, toInt_castInt32, toInt_castInt32] at h
  omega

theorem toNat_castUInt32 (x : Float) :
    (castUInt32 x).toNat = (trunc 0 (2 ^ 32 - 1) x).toNat := by
  apply UInt32.toNat_ofNat_of_lt'
  have hmax : trunc 0 (2 ^ 32 - 1) x ≤ 2 ^ 32 - 1 :=
    Int.max_le.mpr ⟨by decide, Int.min_le_left ..⟩
  have hsize : (UInt32.size : ℤ) = 2 ^ 32 := rfl
  omega

theorem castUInt32_le {x y : Float} (hx : x.isNaN = false) (hy : y.isNaN = false)
    (h : ¬y < x) : castUInt32 x ≤ castUInt32 y := by
  have hbounds : (0 : ℤ) ≤ 2 ^ 32 - 1 := by decide
  have hle := trunc_le_trunc hbounds hx hy h
  rw [UInt32.le_iff_toNat_le, toNat_castUInt32, toNat_castUInt32]
  exact Int.toNat_le_toNat hle

/-- Only numbers which are not a NaN are in the order. -/
theorem not_lt_of_le {x y : Float} (h : x ≤ y) :
    ¬y < x ∧ x.isNaN = false ∧ y.isNaN = false := by
  have hle : (x.toModel.unpack.compare y.toModel.unpack).any (·.isLE) = true :=
    decide_eq_true_iff.mp h
  refine ⟨?_, ?_, ?_⟩
  · intro hlt
    rw [lt_iff, compare_swap] at hlt
    cases hcmp : x.toModel.unpack.compare y.toModel.unpack with
    | none => simp [hcmp] at hle
    | some o => cases o <;> simp_all
  · rw [Float.isNaN, Float.Model.isNaN]
    cases hx : x.toModel.unpack with
    | notANumber => simp [hx, UnpackedFloat.compare] at hle
    | _ => rfl
  · rw [Float.isNaN, Float.Model.isNaN]
    cases hy : y.toModel.unpack with
    | notANumber =>
        rw [hy] at hle
        cases hx : x.toModel.unpack <;> simp [hx, UnpackedFloat.compare] at hle
    | _ => rfl

theorem castUInt32_le_of_le {x y : Float} (h : x ≤ y) : castUInt32 x ≤ castUInt32 y := by
  obtain ⟨hnot, hx, hy⟩ := not_lt_of_le h
  exact castUInt32_le hx hy hnot

end Double
