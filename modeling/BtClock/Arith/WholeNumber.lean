import BtClock.Arith.Double
import BtClock.Arith.ExactDouble

/-!
# Whole numbers through a double

A whole number of 32 bits becomes a double and comes back unchanged, and the order of the doubles
is the order of the numbers.
-/

namespace Double

open Float Model UnpackedFloat

section

variable {m n : ℕ}

theorem unpack_ofNat (h : n < 2 ^ 53) : (Float.ofNat n).toModel.unpack = exactNat n := by
  have hscaled := unpack_ofScientific_false (m := n) (e := 0) (by rwa [Nat.pow_zero, Nat.mul_one])
  rwa [Nat.pow_zero, Nat.mul_one] at hscaled

/-! ### The order -/

theorem log2_lt_of_lt {m n : ℕ} (hn : 0 < n) (h : m.log2 < n.log2) : m < n := by
  by_contra hle
  have hmono : n.log2 ≤ m.log2 := by
    rw [Nat.le_log2 (by omega)]
    exact Nat.le_trans (Nat.log2_self_le (Nat.ne_of_gt hn)) (Nat.not_lt.mp hle)
  omega

theorem compare_exactNat (m n : ℕ) : (exactNat m).compare (exactNat n) = some (compare m n) := by
  rcases Nat.eq_zero_or_pos m with rfl | hm
  · rcases Nat.eq_zero_or_pos n with rfl | hn
    · rfl
    · rw [exactNat, dif_neg (Nat.lt_irrefl 0), exactNat, dif_pos hn,
        Nat.compare_eq_lt.mpr hn]
      rfl
  · rcases Nat.eq_zero_or_pos n with rfl | hn
    · rw [exactNat, dif_pos hm, exactNat, dif_neg (Nat.lt_irrefl 0), Nat.compare_eq_gt.mpr hm]
      rfl
    · rw [exactNat, dif_pos hm, exactNat, dif_pos hn]
      dsimp only [UnpackedFloat.compare]
      refine congrArg some ?_
      rcases Nat.lt_trichotomy m.log2 n.log2 with hlt | heq | hgt
      · have hexp : compare ((m.log2 : ℤ) - 52) ((n.log2 : ℤ) - 52) = .lt :=
          Int.compare_eq_lt.mpr (by omega)
        rw [hexp, Nat.compare_eq_lt.mpr (log2_lt_of_lt hn hlt)]
        rfl
      · have hexp : compare ((m.log2 : ℤ) - 52) ((n.log2 : ℤ) - 52) = .eq :=
          Int.compare_eq_eq.mpr (by omega)
        rw [hexp, heq]
        have hpow := Nat.two_pow_pos (52 - n.log2)
        rcases Nat.lt_trichotomy m n with hlt | rfl | hgt
        · rw [Nat.compare_eq_lt.mpr hlt,
            Nat.compare_eq_lt.mpr (Nat.mul_lt_mul_of_pos_right hlt hpow)]
          rfl
        · rw [Nat.compare_eq_eq.mpr rfl, Nat.compare_eq_eq.mpr rfl]
          rfl
        · rw [Nat.compare_eq_gt.mpr hgt,
            Nat.compare_eq_gt.mpr (Nat.mul_lt_mul_of_pos_right hgt hpow)]
          rfl
      · have hexp : compare ((m.log2 : ℤ) - 52) ((n.log2 : ℤ) - 52) = .gt :=
          Int.compare_eq_gt.mpr (by omega)
        rw [hexp, Nat.compare_eq_gt.mpr (log2_lt_of_lt hm hgt)]
        rfl

theorem ofNat_lt_ofNat_iff (hm : m < 2 ^ 53) (hn : n < 2 ^ 53) :
    Float.ofNat m < Float.ofNat n ↔ m < n := by
  have hmodel : (Float.ofNat m < Float.ofNat n) ↔
      (Float.ofNat m).toModel.unpack.lt (Float.ofNat n).toModel.unpack = true := decide_eq_true_iff
  rw [hmodel, unpack_ofNat hm, unpack_ofNat hn, UnpackedFloat.lt, compare_exactNat, beq_iff_eq,
    Option.some_inj, Nat.compare_eq_lt]

theorem ofNat_le_ofNat_iff (hm : m < 2 ^ 53) (hn : n < 2 ^ 53) :
    Float.ofNat m ≤ Float.ofNat n ↔ m ≤ n := by
  have hmodel : (Float.ofNat m ≤ Float.ofNat n) ↔
      (Float.ofNat m).toModel.unpack.le (Float.ofNat n).toModel.unpack = true := decide_eq_true_iff
  rw [hmodel, unpack_ofNat hm, unpack_ofNat hn, UnpackedFloat.le, compare_exactNat]
  exact Nat.isLE_compare

/-! ### The casts -/

theorem castUInt32_of_unpack {x : Float} (h : n < 2 ^ 32) (hx : x.toModel.unpack = exactNat n) :
    castUInt32 x = UInt32.ofNat n := by
  have htrunc : trunc 0 (2 ^ 32 - 1) x = n := by
    rw [trunc, hx, toInt_exactNat (Nat.lt_trans h (by decide))]
    omega
  rw [castUInt32, htrunc, Int.toNat_natCast]

/-- The product of whole numbers is whole. -/
theorem castUInt32_mul {x y : Float} (hx : x.toModel.unpack = exactNat m)
    (hy : y.toModel.unpack = exactNat n) (hpos : 0 < m * n) (h : m * n < 2 ^ 32) :
    castUInt32 (x * y) = UInt32.ofNat (m * n) := by
  have h53 : m * n < 2 ^ 53 := Nat.lt_trans h (by decide)
  have hmodel : (x * y).toModel =
      Float.Model.pack (.mul Format.binary64 x.toModel.unpack y.toModel.unpack) := rfl
  refine castUInt32_of_unpack h ?_
  rw [hmodel, hx, hy, mul_exactNat hpos h53, unpack_pack_exactNat h53]

theorem castUInt32_ofNat (v : UInt32) : castUInt32 (Float.ofNat v.toNat) = v := by
  rw [castUInt32_of_unpack v.toNat_lt (unpack_ofNat (Nat.lt_trans v.toNat_lt (by decide))),
    UInt32.ofNat_toNat]

theorem toInt_neg_exactNat (h : n < 2 ^ 53) (lo hi : ℤ) : (exactNat n).neg.toInt lo hi = -n := by
  rcases Nat.eq_zero_or_pos n with rfl | hn
  · rfl
  · have hpositive := toInt_exactNat h lo hi
    rw [exactNat, dif_pos hn] at hpositive ⊢
    have hround : ∀ s, (UnpackedFloat.finite s (n * 2 ^ (52 - n.log2)) ((n.log2 : ℤ) - 52)
        (Nat.mul_pos hn (Nat.two_pow_pos _))).toInt lo hi =
          s.apply ((n * 2 ^ (52 - n.log2) * 2 ^ ((n.log2 : ℤ) - 52 + (52 : ℕ)).toNat / 2 ^ 52 : ℕ)
            : ℤ) :=
      fun s => roundToInt_eq s _ (k := 52) (by omega)
    rw [hround] at hpositive
    rw [UnpackedFloat.neg, hround]
    exact congrArg (-·) hpositive

theorem unpack_neg (h : n < 2 ^ 53) {x : Float} (hx : x.toModel.unpack = exactNat n) :
    (-x).toModel.unpack = (exactNat n).neg := by
  have hmodel : (-x).toModel = Float.Model.pack x.toModel.unpack.neg := rfl
  rw [hmodel, hx]
  rcases Nat.eq_zero_or_pos n with rfl | hn
  · rfl
  · have hlog := log2_le hn h
    obtain ⟨hlow, hhigh⟩ := pow_le_exactNat hn h
    rw [exactNat, dif_pos hn]
    exact unpack_pack_normal _ hlow hhigh (by omega) (by omega) _

/-- An integer of 32 bits comes back from its double. -/
theorem castInt32_ofInt (v : Int32) : castInt32 (Float.ofInt v.toInt) = v := by
  have hlow := v.le_toInt
  have hhigh := v.toInt_lt
  have htrunc : trunc (-2 ^ 31) (2 ^ 31 - 1) (Float.ofInt v.toInt) = v.toInt := by
    generalize v.toInt = i at hlow hhigh
    cases i with
    | ofNat n =>
        have hcast : Int.ofNat n = (n : ℤ) := rfl
        have h53 : n < 2 ^ 53 := by omega
        rw [trunc, Float.ofInt, unpack_ofNat h53, toInt_exactNat h53]
        omega
    | negSucc n =>
        have h53 : n + 1 < 2 ^ 53 := by omega
        have hneg : (Float.ofInt (Int.negSucc n)).toModel.unpack = (exactNat (n + 1)).neg :=
          unpack_neg h53 (unpack_ofNat h53)
        rw [trunc, hneg, toInt_neg_exactNat h53]
        omega
  rw [castInt32, htrunc, Int32.ofInt_toInt]

theorem castInt32_ofNat (h : n < 2 ^ 31) : castInt32 (Float.ofNat n) = Int32.ofNat n := by
  have h53 : n < 2 ^ 53 := Nat.lt_trans h (by decide)
  have htrunc : trunc (-2 ^ 31) (2 ^ 31 - 1) (Float.ofNat n) = n := by
    rw [trunc, unpack_ofNat h53, toInt_exactNat h53]
    omega
  rw [castInt32, htrunc, Int32.ofInt_eq_ofNat]

end

end Double
