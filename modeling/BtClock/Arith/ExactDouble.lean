import BtClock.Arith.Truncation

/-!
# Whole numbers as doubles

A whole number below `2 ^ 53` has a double of its own.  The conversion of a decimal number
with such a value gives this double, whatever point and exponent the number is written with,
and the conversion back gives the whole number.
-/

namespace Double

open Float.Model UnpackedFloat

/-- The double of a whole number below `2 ^ 53`. -/
def exactNat (n : ℕ) : UnpackedFloat :=
  if h : 0 < n then
    .finite .positive (n * 2 ^ (52 - n.log2)) ((n.log2 : ℤ) - 52)
      (Nat.mul_pos h (Nat.two_pow_pos _))
  else .zero .positive

section

variable {n : ℕ}

theorem log2_le (hn : 0 < n) (h : n < 2 ^ 53) : n.log2 ≤ 52 :=
  Nat.le_of_lt_succ ((Nat.log2_lt (Nat.ne_of_gt hn)).mpr h)

theorem log2_mul_two_pow (hn : 0 < n) (j : ℕ) : (n * 2 ^ j).log2 = n.log2 + j := by
  induction j with
  | zero => rw [Nat.pow_zero, Nat.mul_one, Nat.add_zero]
  | succ j ih =>
      have htwo : n * 2 ^ (j + 1) = 2 * (n * 2 ^ j) := by ring
      have hpos : 0 < n * 2 ^ j := Nat.mul_pos hn (Nat.two_pow_pos j)
      rw [htwo, Nat.log2_two_mul (Nat.ne_of_gt hpos), ih, Nat.add_assoc]

theorem shiftRight_exact (m s : ℕ) :
    (⟨m * 2 ^ s, false, false⟩ : ExtendedMantissa) >>> s = ⟨m, false, false⟩ := by
  induction s generalizing m with
  | zero => rw [Nat.pow_zero, Nat.mul_one]; rfl
  | succ s ih =>
      change ((⟨m * 2 ^ (s + 1), false, false⟩ : ExtendedMantissa) >>> s).shiftRightOne = _
      have htwo : m * 2 ^ (s + 1) = m * 2 * 2 ^ s := by ring
      rw [htwo, ih, ExtendedMantissa.shiftRightOne]
      simp

/-- The target exponent of a whole number which is written with more bits. -/
theorem targetExponent_mul_two_pow (hn : 0 < n) (h : n < 2 ^ 53) (j : ℕ) :
    Format.binary64.targetExponent (totalExponent (n * 2 ^ j) (-(j : ℤ))) = n.log2 - 52 := by
  have hlog := log2_le hn h
  rw [totalExponent, log2_mul_two_pow hn, Format.targetExponent]
  have hbits : (Format.binary64.mantissaBits : ℤ) = 53 := rfl
  have hmin : Format.binary64.minExponent = -1074 := rfl
  rw [hbits, hmin]
  omega

theorem shiftToTargetExponent_exact (hn : 0 < n) (h : n < 2 ^ 53) {j : ℕ}
    (hj : 52 - n.log2 ≤ j) :
    shiftToTargetExponent Format.binary64 (n * 2 ^ j) (-(j : ℤ)) .exact =
      (⟨n * 2 ^ (52 - n.log2), false, false⟩, (n.log2 : ℤ) - 52) := by
  have hlog := log2_le hn h
  obtain ⟨s, rfl⟩ := Nat.exists_eq_add_of_le hj
  have hshift : ((n.log2 : ℤ) - 52 - -((52 - n.log2 + s : ℕ) : ℤ)).toNat = s := by omega
  rw [shiftToTargetExponent, targetExponent_mul_two_pow hn h]
  simp only [shiftToExponent, hshift, ExtendedMantissa.ofMantissaAndAccuracy]
  rw [Nat.pow_add, ← Nat.mul_assoc, shiftRight_exact]
  congr 1
  omega

/-- Rounding a whole number which is written with bits enough gives its double. -/
theorem roundWithAccuracy_exact (hn : 0 < n) (h : n < 2 ^ 53) {j : ℕ}
    (hj : 52 - n.log2 ≤ j) :
    roundWithAccuracy Format.binary64 .positive (n * 2 ^ j) (-(j : ℤ)) .exact = exactNat n := by
  have hlog := log2_le hn h
  have hexp : (n.log2 : ℤ) - 52 = -((52 - n.log2 : ℕ) : ℤ) := by omega
  have hagain := shiftToTargetExponent_exact hn h (Nat.le_refl (52 - n.log2))
  have hpos : 0 < n * 2 ^ (52 - n.log2) := Nat.mul_pos hn (Nat.two_pow_pos _)
  simp only [roundWithAccuracy, shiftToTargetExponent_exact hn h hj,
    ExtendedMantissa.roundedMantissa, ExtendedMantissa.accuracy, Accuracy.roundToNearestEven,
    hexp, hagain, dif_neg (Nat.ne_of_gt hpos)]
  rw [exactNat, dif_pos hn]
  simp only [hexp]

/-- The product of two whole numbers which are written with bits enough. -/
theorem mul_exact {p q a b : ℕ} (hpq : 0 < p * q) (h : p * q < 2 ^ 53)
    (hab : 52 - (p * q).log2 ≤ a + b) (hp : 0 < p * 2 ^ a) (hq : 0 < q * 2 ^ b) :
    UnpackedFloat.mul Format.binary64 (.finite .positive (p * 2 ^ a) (-(a : ℤ)) hp)
      (.finite .positive (q * 2 ^ b) (-(b : ℤ)) hq) = exactNat (p * q) := by
  have hmantissa : p * 2 ^ a * (q * 2 ^ b) = p * q * 2 ^ (a + b) := by ring
  have hexponent : -(a : ℤ) + -(b : ℤ) = -((a + b : ℕ) : ℤ) := by omega
  have hround := roundWithAccuracy_exact hpq h hab
  rw [← hmantissa, ← hexponent] at hround
  exact hround

theorem log2_add_log2_le {p q : ℕ} (hp : 0 < p) (hq : 0 < q) :
    p.log2 + q.log2 ≤ (p * q).log2 ∧ (p * q).log2 ≤ p.log2 + q.log2 + 1 := by
  have hpq : p * q ≠ 0 := Nat.ne_of_gt (Nat.mul_pos hp hq)
  constructor
  · rw [Nat.le_log2 hpq, Nat.pow_add]
    exact Nat.mul_le_mul (Nat.log2_self_le (Nat.ne_of_gt hp)) (Nat.log2_self_le (Nat.ne_of_gt hq))
  · have hlt : p * q < 2 ^ ((p.log2 + 1) + (q.log2 + 1)) := by
      rw [Nat.pow_add]
      exact Nat.mul_lt_mul_of_lt_of_le Nat.lt_log2_self (Nat.le_of_lt Nat.lt_log2_self)
        (Nat.two_pow_pos _)
    have hlog := (Nat.log2_lt hpq).mpr hlt
    omega

/-- The quotient of two whole numbers which divides. -/
theorem div_exact (hn : 0 < n) (h : n < 2 ^ 53) {p a b : ℕ} (hp : 0 < p)
    (hnum : 0 < n * p * 2 ^ a) (hden : 0 < p * 2 ^ b) :
    UnpackedFloat.div Format.binary64 (.finite .positive (n * p * 2 ^ a) (-(a : ℤ)) hnum)
      (.finite .positive (p * 2 ^ b) (-(b : ℤ)) hden) = exactNat n := by
  have hlog := log2_le hn h
  obtain ⟨hlower, hupper⟩ := log2_add_log2_le hn hp
  have hnp : 0 < n * p := Nat.mul_pos hn hp
  have hbits : (Format.binary64.mantissaBits : ℤ) = 53 := rfl
  have hmin : Format.binary64.minExponent = -1074 := rfl
  obtain ⟨j, hj⟩ : ∃ j : ℕ, min (-(a : ℤ) - -(b : ℤ))
      (max ((n * p).log2 - p.log2 - 53 : ℤ) (-1074)) = -(j : ℤ) := by
    refine ⟨(-(min (-(a : ℤ) - -(b : ℤ))
      (max ((n * p).log2 - p.log2 - 53 : ℤ) (-1074)))).toNat, ?_⟩
    omega
  have htarget : min (-(a : ℤ) - -(b : ℤ)) (Format.binary64.targetExponent
      (totalExponent (n * p * 2 ^ a) (-(a : ℤ)) - totalExponent (p * 2 ^ b) (-(b : ℤ)))) =
        -(j : ℤ) := by
    rw [← hj, totalExponent, totalExponent, log2_mul_two_pow hnp, log2_mul_two_pow hp,
      Format.targetExponent, hbits, hmin]
    congr 2
    omega
  obtain ⟨s, hs⟩ : ∃ s : ℕ, (-(a : ℤ) - -(b : ℤ) - -(j : ℤ)).toNat = s ∧ a + s = b + j :=
    ⟨_, rfl, by omega⟩
  have hquot : (n * p * 2 ^ a) <<< s = n * 2 ^ j * (p * 2 ^ b) := by
    rw [Nat.shiftLeft_eq, Nat.mul_assoc (n * p), ← Nat.pow_add, hs.2, Nat.pow_add]
    ring
  have hdiv : divCore Format.binary64 (n * p * 2 ^ a) (-(a : ℤ)) (p * 2 ^ b) (-(b : ℤ)) =
      (n * 2 ^ j, -(j : ℤ), .exact) := by
    simp only [divCore, htarget, hs.1, hquot, Nat.mul_mod_left, accuracyOfFraction, if_true,
      Nat.mul_div_cancel _ hden]
  have hround := roundWithAccuracy_exact hn h (j := j) (by omega)
  simp only [UnpackedFloat.div, hdiv]
  exact hround

/-- A number with 53 bits and an exponent in the middle of the range. -/
theorem unpack_pack_normal {m : ℕ} {e : ℤ} (s : Sign) (hlow : 2 ^ 52 ≤ m) (hhigh : m < 2 ^ 53)
    (he : -52 ≤ e) (he' : e ≤ 0) (hm : 0 < m) :
    (Float.Model.pack (.finite s m e hm)).unpack = .finite s m e hm := by
  have hlog : m.log2 = 52 := (Nat.log2_eq_iff (Nat.ne_of_gt hm)).mpr ⟨hlow, hhigh⟩
  obtain ⟨x, hx, hx1, hx2⟩ : ∃ x : ℕ, (e + (Format.binary64.exponentBias : ℤ) +
      (Format.binary64.mantissaBitsWithoutImplicit : ℤ)).toNat = x ∧ (x : ℤ) = e + 1075 ∧
        x < 1076 := by
    have hbias : (Format.binary64.exponentBias : ℤ) = 1023 := rfl
    have hbits : (Format.binary64.mantissaBitsWithoutImplicit : ℤ) = 52 := rfl
    rw [hbias, hbits]
    exact ⟨_, rfl, by omega, by omega⟩
  have hvec : (BitVec.ofNat 11 x).toNat = x := by
    rw [BitVec.toNat_ofNat]
    omega
  have hinf : BitVec.ofNat 11 x ≠ -1#11 := by
    intro h
    have hnat := congrArg BitVec.toNat h
    rw [hvec] at hnat
    have hmax : (-1#11 : BitVec 11).toNat = 2047 := rfl
    omega
  have hzero : BitVec.ofNat 11 x ≠ 0#11 := by
    intro h
    have hnat := congrArg BitVec.toNat h
    rw [hvec] at hnat
    have hmin : (0#11 : BitVec 11).toNat = 0 := rfl
    omega
  have hmantissa : (1#1 ++ BitVec.ofNat 52 m).toNat = m := by
    have hlt : (BitVec.ofNat 52 m).toNat < 2 ^ 52 := BitVec.isLt _
    rw [BitVec.toNat_append, ← Nat.shiftLeft_add_eq_or_of_lt hlt, BitVec.toNat_ofNat]
    change 2 ^ 52 + m % 2 ^ 52 = m
    omega
  have hpack : UnpackedFloat.pack Format.binary64 (.finite s m e hm) =
      packComponents Format.binary64 s (BitVec.ofNat 11 x) (BitVec.ofNat 52 m) := by
    simp only [UnpackedFloat.pack, hx, hlog]
    have hsmall : ¬2 ^ 11 ≤ x + 1 := by omega
    rw [if_neg hsmall]
    rfl
  rw [Float.Model.unpack, Float.Model.pack]
  change UnpackedFloat.unpack Format.binary64 (UnpackedFloat.pack Format.binary64 _) = _
  rw [hpack, UnpackedFloat.unpack]
  simp only [unpackMantissa_packComponents, unpackExponent_packComponents,
    unpackSign_packComponents]
  rw [if_neg hinf, if_neg hzero]
  have hbias : (Format.binary64.exponentBias : ℤ) = 1023 := rfl
  have hexp : ((BitVec.ofNat 11 x).toNat : ℤ) -
      ((Format.binary64.exponentBias : ℤ) + ((52 : ℕ) : ℤ)) = e := by
    rw [hvec, hbias]
    omega
  simp only [hmantissa, hexp]
  cases s <;> rfl

theorem pow_le_exactNat (hn : 0 < n) (h : n < 2 ^ 53) :
    2 ^ 52 ≤ n * 2 ^ (52 - n.log2) ∧ n * 2 ^ (52 - n.log2) < 2 ^ 53 := by
  have hlog := log2_le hn h
  have hsplit : 52 = n.log2 + (52 - n.log2) := by omega
  constructor
  · calc 2 ^ 52 = 2 ^ n.log2 * 2 ^ (52 - n.log2) := by rw [← Nat.pow_add, ← hsplit]
      _ ≤ n * 2 ^ (52 - n.log2) := Nat.mul_le_mul_right _ (Nat.log2_self_le (Nat.ne_of_gt hn))
  · calc n * 2 ^ (52 - n.log2) < 2 ^ (n.log2 + 1) * 2 ^ (52 - n.log2) :=
        Nat.mul_lt_mul_of_pos_right Nat.lt_log2_self (Nat.two_pow_pos _)
      _ = 2 ^ 53 := by
        rw [← Nat.pow_add]
        congr 1
        omega

/-- The double of a whole number survives its own bits. -/
theorem unpack_pack_exactNat (h : n < 2 ^ 53) :
    (Float.Model.pack (exactNat n)).unpack = exactNat n := by
  rcases Nat.eq_zero_or_pos n with rfl | hn
  · rfl
  · have hlog := log2_le hn h
    obtain ⟨hlow, hhigh⟩ := pow_le_exactNat hn h
    rw [exactNat, dif_pos hn]
    exact unpack_pack_normal .positive hlow hhigh (by omega) (by omega) _

theorem toInt_exactNat (h : n < 2 ^ 53) (lo hi : ℤ) : (exactNat n).toInt lo hi = n := by
  rcases Nat.eq_zero_or_pos n with rfl | hn
  · rfl
  · have hlog := log2_le hn h
    have hround := roundToInt_eq .positive (n * 2 ^ (52 - n.log2)) (e := n.log2 - 52) (k := 52)
      (by omega)
    have hexp : ((n.log2 : ℤ) - 52 + (52 : ℕ)).toNat = n.log2 := by omega
    rw [hexp, Nat.mul_assoc, ← Nat.pow_add, Nat.sub_add_cancel hlog,
      Nat.mul_div_cancel _ (Nat.two_pow_pos 52)] at hround
    rw [exactNat, dif_pos hn]
    exact hround

/-! ### Decimal numbers -/

theorem unpack_toFloat (h : n < 2 ^ 53) : n.toUInt64.toFloat.toModel.unpack = exactNat n := by
  have hnat : n.toUInt64.toNat = n := by
    rw [Nat.toUInt64, UInt64.toNat_ofNat']
    omega
  have hmodel : n.toUInt64.toFloat.toModel =
      Float.Model.pack
        (UnpackedFloat.normalize Format.binary64 (n.toUInt64.toNat : ℤ) 0 .positive) :=
    rfl
  have hexact : UnpackedFloat.normalize Format.binary64 (n : ℤ) 0 .positive = exactNat n := by
    rcases Nat.eq_zero_or_pos n with rfl | hn
    · rfl
    · have hlog := log2_le hn h
      have hgt : compare (n : ℤ) 0 = .gt := compare_gt_iff_gt.mpr (by omega)
      have htarget := targetExponent_mul_two_pow hn h 0
      rw [Nat.pow_zero, Nat.mul_one] at htarget
      have hround := roundWithAccuracy_exact hn h (Nat.le_refl (52 - n.log2))
      have hshift : ((0 : ℤ) - ((n.log2 : ℤ) - 52)).toNat = 52 - n.log2 := by omega
      have hneg : (0 : ℤ) - ((52 - n.log2 : ℕ) : ℤ) = -((52 - n.log2 : ℕ) : ℤ) := by omega
      simp only [UnpackedFloat.normalize, hgt, UnpackedFloat.round, Int.toNat_natCast]
      rw [show totalExponent n 0 = totalExponent n (-((0 : ℕ) : ℤ)) from rfl, htarget]
      simp only [decreaseExponent, hshift, hneg, Nat.shiftLeft_eq]
      exact hround
  rw [hmodel, hnat, hexact, unpack_pack_exactNat h]

/-- The conversion of a product or a quotient which is a whole number. -/
theorem unpack_pack_ofScientific {u : UnpackedFloat} (h : n < 2 ^ 53) (hu : u = exactNat n) :
    (Float.Model.pack u).unpack = exactNat n := by
  rw [hu, unpack_pack_exactNat h]

theorem exactNat_eq (hn : 0 < n) (h : n < 2 ^ 53) :
    exactNat n = .finite .positive (n * 2 ^ (52 - n.log2)) (-((52 - n.log2 : ℕ) : ℤ))
      (Nat.mul_pos hn (Nat.two_pow_pos _)) := by
  have hlog := log2_le hn h
  have hexp : (n.log2 : ℤ) - 52 = -((52 - n.log2 : ℕ) : ℤ) := by omega
  rw [exactNat, dif_pos hn]
  simp only [hexp]

theorem mul_exactNat {p q : ℕ} (hpq : 0 < p * q) (h : p * q < 2 ^ 53) :
    UnpackedFloat.mul Format.binary64 (exactNat p) (exactNat q) = exactNat (p * q) := by
  have hp : 0 < p := Nat.pos_of_mul_pos_right hpq
  have hq : 0 < q := Nat.pos_of_mul_pos_left hpq
  have hp53 : p < 2 ^ 53 := Nat.lt_of_le_of_lt (Nat.le_mul_of_pos_right p hq) h
  have hq53 : q < 2 ^ 53 := Nat.lt_of_le_of_lt (Nat.le_mul_of_pos_left q hp) h
  have hlog := (log2_add_log2_le hp hq).1
  rw [exactNat_eq hp hp53, exactNat_eq hq hq53]
  exact mul_exact hpq h (by omega) _ _

theorem div_exactNat (hn : 0 < n) {p : ℕ} (hp : 0 < p) (h : n * p < 2 ^ 53) :
    UnpackedFloat.div Format.binary64 (exactNat (n * p)) (exactNat p) = exactNat n := by
  have hn53 : n < 2 ^ 53 := Nat.lt_of_le_of_lt (Nat.le_mul_of_pos_right n hp) h
  have hp53 : p < 2 ^ 53 := Nat.lt_of_le_of_lt (Nat.le_mul_of_pos_left p hn) h
  rw [exactNat_eq (Nat.mul_pos hn hp) h, exactNat_eq hp hp53]
  exact div_exact hn hn53 hp _ _

instance decidableEqSign : DecidableEq Sign :=
  instDecidableEqOfLawfulBEq

instance decidableEqUnpackedFloat : DecidableEq UnpackedFloat
  | .infinity s, .infinity t => decidable_of_iff (s = t) (by rw [UnpackedFloat.infinity.injEq])
  | .notANumber, .notANumber => isTrue rfl
  | .zero s, .zero t => decidable_of_iff (s = t) (by rw [UnpackedFloat.zero.injEq])
  | .finite s m e _, .finite t n f _ =>
      decidable_of_iff (s = t ∧ m = n ∧ e = f) (by rw [UnpackedFloat.finite.injEq])
  | .infinity _, .notANumber | .infinity _, .zero _ | .infinity _, .finite .. => isFalse nofun
  | .notANumber, .infinity _ | .notANumber, .zero _ | .notANumber, .finite .. => isFalse nofun
  | .zero _, .infinity _ | .zero _, .notANumber | .zero _, .finite .. => isFalse nofun
  | .finite .., .infinity _ | .finite .., .notANumber | .finite .., .zero _ => isFalse nofun

theorem zero_powers : ∀ e, ∀ h : e < 23,
    UnpackedFloat.mul Format.binary64 (.zero .positive)
        (getElem Float.exactlyRepresentablePowersOfTen e h).toModel.unpack = .zero .positive ∧
      UnpackedFloat.div Format.binary64 (.zero .positive)
        (getElem Float.exactlyRepresentablePowersOfTen e h).toModel.unpack = .zero .positive := by
  decide

/-- The powers of ten in the table, as far as they are below `2 ^ 53`. -/
theorem unpack_powers : ∀ e, ∀ h : e < 16,
    (getElem Float.exactlyRepresentablePowersOfTen e (Nat.lt_trans h (by decide))).toModel.unpack =
      exactNat (10 ^ e) := by
  decide

theorem lt_of_ten_pow_lt {e : ℕ} (h : 10 ^ e < 2 ^ 53) : e < 16 := by
  by_contra hle
  have hpow : 10 ^ 16 ≤ 10 ^ e := Nat.pow_le_pow_right (by decide) (Nat.not_lt.mp hle)
  have hmax : 2 ^ 53 < 10 ^ 16 := by decide
  omega

/-- The quotient of whole numbers of any size. -/
theorem div_whole (hn : 0 < n) (h : n < 2 ^ 53) {p : ℕ} (hp : 0 < p) (hnp : 0 < n * p) :
    UnpackedFloat.div Format.binary64 (.finite .positive (n * p) 0 hnp)
      (.finite .positive p 0 hp) = exactNat n := by
  have hdiv := div_exact hn h hp (a := 0) (b := 0) (by simpa using hnp) (by simpa using hp)
  simp only [Nat.pow_zero, Nat.mul_one] at hdiv
  exact hdiv

theorem mul_whole (hn : 0 < n) {p : ℕ} (hp : 0 < p) (h : n * p < 2 ^ 53)
    (hshift : 0 < n <<< 53) :
    UnpackedFloat.mul Format.binary64 (.finite .positive (n <<< 53) (-53) hshift)
      (.finite .positive p 0 hp) = exactNat (n * p) := by
  have hmul := mul_exact (Nat.mul_pos hn hp) h (a := 53) (b := 0) (by omega)
    (Nat.mul_pos hn (by decide)) (by simpa using hp)
  simp only [Nat.pow_zero, Nat.mul_one] at hmul
  simp only [Nat.shiftLeft_eq]
  exact hmul

theorem unpacked_ofScientific_neg (hn : 0 < n) (h : n < 2 ^ 53) {e : ℕ} (he : 0 < e) :
    UnpackedFloat.ofScientific Format.binary64 (n * 10 ^ e) (-(e : ℤ)) = exactNat n := by
  have hten : 0 < 10 ^ e := Nat.pow_pos (by decide)
  have hm : 0 < n * 10 ^ e := Nat.mul_pos hn hten
  have hlog : e ≤ (n * 10 ^ e).log2 := by
    rw [Nat.le_log2 (Nat.ne_of_gt hm)]
    exact Nat.le_trans (Nat.pow_le_pow_left (by decide) e) (Nat.le_mul_of_pos_left _ hn)
  have hbig : ¬-(e : ℤ) > 2 ^ Format.binary64.exponentBits := by
    change ¬-(e : ℤ) > 2 ^ 11
    omega
  have hsmall : ¬-(e : ℤ) < -((2 ^ Format.binary64.exponentBits : ℤ) + (n * 10 ^ e).log2) := by
    change ¬-(e : ℤ) < -((2 ^ 11 : ℤ) + (n * 10 ^ e).log2)
    omega
  have hneg : ¬0 ≤ -(e : ℤ) := by omega
  have hnat : (- -(e : ℤ)).toNat = e := by omega
  rw [UnpackedFloat.ofScientific, dif_neg (Nat.ne_of_gt hm), if_neg hbig, if_neg hsmall,
    if_neg hneg]
  simp only [hnat]
  exact div_whole hn h hten hm

theorem unpacked_ofScientific_pos {m e : ℕ} (hm : 0 < m) (h : m * 10 ^ e < 2 ^ 53) :
    UnpackedFloat.ofScientific Format.binary64 m (e : ℤ) = exactNat (m * 10 ^ e) := by
  have hten : 0 < 10 ^ e := Nat.pow_pos (by decide)
  have he : e < 16 := by
    refine lt_of_ten_pow_lt (Nat.lt_of_le_of_lt ?_ h)
    exact Nat.le_mul_of_pos_left _ hm
  have hbig : ¬(e : ℤ) > 2 ^ Format.binary64.exponentBits := by
    change ¬(e : ℤ) > 2 ^ 11
    omega
  have hsmall : ¬(e : ℤ) < -((2 ^ Format.binary64.exponentBits : ℤ) + m.log2) := by
    change ¬(e : ℤ) < -((2 ^ 11 : ℤ) + m.log2)
    omega
  have hpos : 0 ≤ (e : ℤ) := by omega
  rw [UnpackedFloat.ofScientific, dif_neg (Nat.ne_of_gt hm), if_neg hbig, if_neg hsmall,
    if_pos hpos]
  exact mul_whole hm hten h _

/-- A decimal number whose digits end in zeros behind the point. -/
theorem unpack_ofScientific_true (h : n < 2 ^ 53) (e : ℕ) :
    (Float.ofScientific (n * 10 ^ e) true e).toModel.unpack = exactNat n := by
  have hten : 0 < 10 ^ e := Nat.pow_pos (by decide)
  rw [Float.ofScientific]
  split
  · rename_i hfast
    obtain ⟨hm53, he⟩ := hfast
    apply unpack_pack_ofScientific h
    rw [unpack_toFloat hm53]
    rcases Nat.eq_zero_or_pos n with rfl | hn
    · have hzero : exactNat (0 * 10 ^ e) = .zero .positive := by rw [Nat.zero_mul]; rfl
      rw [hzero]
      exact (zero_powers e (Nat.lt_succ_of_le he)).2
    · have hlt : 10 ^ e < 2 ^ 53 :=
        Nat.lt_of_le_of_lt (Nat.le_mul_of_pos_left _ hn) hm53
      rw [unpack_powers e (lt_of_ten_pow_lt hlt)]
      exact div_exactNat hn hten hm53
  · rename_i hslow
    apply unpack_pack_ofScientific h
    rcases Nat.eq_zero_or_pos n with rfl | hn
    · rw [Nat.zero_mul]
      rfl
    · have he : 0 < e := by
        rcases Nat.eq_zero_or_pos e with rfl | he
        · exact absurd ⟨by rwa [Nat.pow_zero, Nat.mul_one], by decide⟩ hslow
        · exact he
      obtain ⟨k, rfl⟩ := Nat.exists_eq_succ_of_ne_zero (Nat.ne_of_gt he)
      exact unpacked_ofScientific_neg hn h he

/-- A decimal number with zeros in front of the point. -/
theorem unpack_ofScientific_false {m e : ℕ} (h : m * 10 ^ e < 2 ^ 53) :
    (Float.ofScientific m false e).toModel.unpack = exactNat (m * 10 ^ e) := by
  have hten : 0 < 10 ^ e := Nat.pow_pos (by decide)
  have hm53 : m < 2 ^ 53 := Nat.lt_of_le_of_lt (Nat.le_mul_of_pos_right m hten) h
  rw [Float.ofScientific]
  split
  · rename_i hfast
    apply unpack_pack_ofScientific h
    rw [unpack_toFloat hm53]
    rcases Nat.eq_zero_or_pos m with rfl | hm
    · have hzero : exactNat (0 * 10 ^ e) = .zero .positive := by rw [Nat.zero_mul]; rfl
      rw [hzero]
      exact (zero_powers e (Nat.lt_succ_of_le hfast.2)).1
    · have hlt : 10 ^ e < 2 ^ 53 := Nat.lt_of_le_of_lt (Nat.le_mul_of_pos_left _ hm) h
      rw [unpack_powers e (lt_of_ten_pow_lt hlt)]
      exact mul_exactNat (Nat.mul_pos hm hten) h
  · apply unpack_pack_ofScientific h
    rcases Nat.eq_zero_or_pos m with rfl | hm
    · rw [Nat.zero_mul]
      rfl
    · exact unpacked_ofScientific_pos hm h

/-! ### The conversion back -/

theorem toUInt64_of_unpack {x : Float} (h : n < 2 ^ 53)
    (hx : x.toModel.unpack = exactNat n) : x.toUInt64 = UInt64.ofNat n := by
  have hmodel : x.toUInt64 = x.toModel.unpack.toUInt64 := rfl
  rw [hmodel, hx, UnpackedFloat.toUInt64, toInt_exactNat h, Int.toNat_natCast]
  exact UInt64.ofNatClamp_eq_ofNat n (Nat.lt_trans h (by decide))

theorem toUInt32_of_unpack {x : Float} (h : n < 2 ^ 32)
    (hx : x.toModel.unpack = exactNat n) : x.toUInt32 = UInt32.ofNat n := by
  have h53 : n < 2 ^ 53 := Nat.lt_trans h (by decide)
  have hmodel : x.toUInt32 = x.toModel.unpack.toUInt32 := rfl
  rw [hmodel, hx, UnpackedFloat.toUInt32, toInt_exactNat h53, Int.toNat_natCast]
  exact UInt32.ofNatClamp_eq_ofNat n h

/-- The negation of a zero is a zero too. -/
theorem convert_neg_zero {x : Float} (hx : x.toModel.unpack = exactNat 0) :
    (-x).toUInt64 = 0 ∧ (-x).toUInt32 = 0 := by
  have hmodel : (-x).toModel = Float.Model.pack x.toModel.unpack.neg := rfl
  have hneg : (-x).toModel.unpack = .zero .negative := by
    rw [hmodel, hx]
    rfl
  have h64 : (-x).toUInt64 = (-x).toModel.unpack.toUInt64 := rfl
  have h32 : (-x).toUInt32 = (-x).toModel.unpack.toUInt32 := rfl
  rw [h64, h32, hneg]
  exact ⟨rfl, rfl⟩

end

end Double
