import BtClock.Frontlight.Logic
import Mathlib.Algebra.Order.Ring.Int
import Mathlib.Tactic.Positivity

/-!
# The two ends of a staggered flash

The duty of one LED over the ticks of a flash, on the 32-bit integers of the source and
on the integers.  The counter of the loop does not wrap below the total ticks.  The two
divisions round down, so that a flash reaches both of its ends only for few settings.
-/

namespace BtClock

namespace Frontlight

/-! ### The integers of the source -/

def clampDuty32 (value maxBrightness : Int32) : Int32 :=
  if value < 0 then 0
  else if maxBrightness < value then maxBrightness
  else value

def computeStaggeredDuty32 (tick : UInt32) (ledIndex numLeds : UInt8)
    (maxBrightness step : UInt16) (direction : StaggerDirection) : UInt16 :=
  if numLeds = 0 ∨ step = 0 ∨ numLeds ≤ ledIndex then 0
  else if maxBrightness = 0 then 0
  else
    let maxB := Int32.ofNat maxBrightness.toNat
    let n := Int32.ofNat numLeds.toNat
    let phaseStep := maxB / n
    let dutyCycle :=
      match direction with
      | .in_ => Int32.ofNat tick.toNat * Int32.ofNat step.toNat
      | .out => maxB - Int32.ofNat tick.toNat * Int32.ofNat step.toNat
    let offset :=
      match direction with
      | .in_ => Int32.ofNat ledIndex.toNat * phaseStep
      | .out => (n - 1 - Int32.ofNat ledIndex.toNat) * phaseStep
    UInt16.ofInt (clampDuty32 (dutyCycle - offset) maxB).toInt

def staggerTotalTicks32 (numLeds : UInt8) (maxBrightness step : UInt16) : UInt32 :=
  if numLeds = 0 ∨ step = 0 ∨ maxBrightness = 0 then 0
  else
    let maxB := Int32.ofNat maxBrightness.toNat
    let n := Int32.ofNat numLeds.toNat
    let bound := maxB + (n - 1) * (maxB / n)
    UInt32.ofInt (bound / Int32.ofNat step.toNat).toInt + 1

/-- The product of the tick and the step stays in the 32-bit counter of the loop. -/
def CounterFits (step : UInt16) (tick : UInt32) : Prop :=
  tick.toNat * step.toNat < 2 ^ 31

section Words

variable {a b : Int32} {x y : ℤ}

/-- A value of the counter does not wrap. -/
theorem bmod_eq_self (hlow : -2 ^ 31 ≤ x) (hhigh : x < 2 ^ 31) : x.bmod (2 ^ 32) = x := by
  apply Int.bmod_eq_of_le <;> omega

theorem toInt_mul_eq (ha : a.toInt = x) (hb : b.toInt = y) (hlow : -2 ^ 31 ≤ x * y)
    (hhigh : x * y < 2 ^ 31) : (a * b).toInt = x * y := by
  rw [Int32.toInt_mul, ha, hb, bmod_eq_self hlow hhigh]

theorem toInt_sub_eq (ha : a.toInt = x) (hb : b.toInt = y) (hlow : -2 ^ 31 ≤ x - y)
    (hhigh : x - y < 2 ^ 31) : (a - b).toInt = x - y := by
  rw [Int32.toInt_sub, ha, hb, bmod_eq_self hlow hhigh]

theorem toInt_add_eq (ha : a.toInt = x) (hb : b.toInt = y) (hlow : -2 ^ 31 ≤ x + y)
    (hhigh : x + y < 2 ^ 31) : (a + b).toInt = x + y := by
  rw [Int32.toInt_add, ha, hb, bmod_eq_self hlow hhigh]

theorem toInt_div_eq {m n : ℕ} (ha : a.toInt = m) (hb : b.toInt = n) (hm : m < 2 ^ 31) :
    (a / b).toInt = (m / n : ℕ) := by
  have hle : m / n ≤ m := Nat.div_le_self m n
  generalize hq : m / n = q at hle ⊢
  rw [Int32.toInt_div, ha, hb, ← Int.ofNat_tdiv, hq, bmod_eq_self] <;> omega

theorem toInt_clampDuty32 (value maxBrightness : Int32) :
    (clampDuty32 value maxBrightness).toInt =
      clampDuty value.toInt maxBrightness.toInt := by
  simp only [clampDuty32, clampDuty, Int32.lt_iff_toInt_lt, Int32.toInt_zero, gt_iff_lt]
  split
  · exact Int32.toInt_zero
  · split <;> rfl

theorem toNat_ofInt16 (hlow : 0 ≤ x) (hhigh : x < 2 ^ 16) : (UInt16.ofInt x).toNat = x.toNat := by
  have hmod : x % 2 ^ 16 = x := Int.emod_eq_of_lt hlow hhigh
  rw [UInt16.ofInt, hmod, UInt16.toNat_ofNat_of_lt']
  exact (Int.toNat_lt hlow).mpr hhigh

theorem toNat_ofInt32 (hlow : 0 ≤ x) (hhigh : x < 2 ^ 32) : (UInt32.ofInt x).toNat = x.toNat := by
  have hmod : x % 2 ^ 32 = x := Int.emod_eq_of_lt hlow hhigh
  rw [UInt32.ofInt, hmod, UInt32.toNat_ofNat_of_lt']
  exact (Int.toNat_lt hlow).mpr hhigh

end Words

/-! ### The clamp -/

section Clamp

variable {x y m : ℤ}

theorem clampDuty_nonneg (h : 0 ≤ m) : 0 ≤ clampDuty x m := by
  unfold clampDuty
  split
  · rfl
  · split <;> omega

theorem clampDuty_le (h : 0 ≤ m) : clampDuty x m ≤ m := by
  unfold clampDuty
  split
  · exact h
  · split <;> omega

theorem clampDuty_mono (hm : 0 ≤ m) (h : x ≤ y) : clampDuty x m ≤ clampDuty y m := by
  unfold clampDuty
  split <;> split <;> (try split) <;> (try split) <;> omega

theorem clampDuty_eq_max_iff (h : 0 < m) : clampDuty x m = m ↔ m ≤ x := by
  unfold clampDuty
  split
  · omega
  · split <;> omega

theorem clampDuty_eq_zero_iff (h : 0 < m) : clampDuty x m = 0 ↔ x ≤ 0 := by
  unfold clampDuty
  split
  · omega
  · split <;> omega

end Clamp

/-! ### No value of the loop wraps -/

section NoWrap

variable {tick : UInt32} {ledIndex numLeds : UInt8} {maxBrightness step : UInt16}

/-- The offset of a LED is at most the brightness. -/
theorem mul_phase_le {i n : ℕ} (hi : i ≤ n) (m : ℕ) : i * (m / n) ≤ m :=
  calc i * (m / n) ≤ n * (m / n) := Nat.mul_le_mul_right _ hi
    _ ≤ m := Nat.mul_div_le m n

theorem toInt_tick (hstep : step ≠ 0) (hfits : CounterFits step tick) :
    (Int32.ofNat tick.toNat).toInt = tick.toNat := by
  have hpos : 1 ≤ step.toNat := Nat.one_le_iff_ne_zero.mpr fun h =>
    hstep (UInt16.toNat_inj.mp h)
  have hle : tick.toNat ≤ tick.toNat * step.toNat := Nat.le_mul_of_pos_right _ hpos
  exact Int32.toInt_ofNat_of_lt (Nat.lt_of_le_of_lt hle hfits)

theorem toNat_clampDuty32 {v : Int32} {x : ℤ} {m : ℕ} (hm : m < 2 ^ 16) (hv : v.toInt = x) :
    (UInt16.ofInt (clampDuty32 v (Int32.ofNat m)).toInt).toNat = (clampDuty x m).toNat := by
  have hmax : (Int32.ofNat m).toInt = m := Int32.toInt_ofNat_of_lt (by omega)
  have hlow : 0 ≤ clampDuty x m := clampDuty_nonneg (Int.natCast_nonneg m)
  have hhigh : clampDuty x m ≤ m := clampDuty_le (Int.natCast_nonneg m)
  rw [toInt_clampDuty32, hv, hmax]
  exact toNat_ofInt16 hlow (by omega)

/-- As long as the counter fits, the duty of the source is the one of the integers. -/
theorem toNat_computeStaggeredDuty32 (hfits : CounterFits step tick)
    (direction : StaggerDirection) :
    (computeStaggeredDuty32 tick ledIndex numLeds maxBrightness step direction).toNat =
      computeStaggeredDuty tick.toNat ledIndex.toNat numLeds.toNat maxBrightness.toNat
        step.toNat direction := by
  unfold computeStaggeredDuty32 computeStaggeredDuty
  simp only [← UInt8.toNat_inj, ← UInt16.toNat_inj, UInt8.le_iff_toNat_le, UInt8.toNat_zero,
    UInt16.toNat_zero]
  split_ifs with hinvalid hzero
  · rfl
  · rfl
  · simp only [not_or, not_le] at hinvalid
    obtain ⟨-, hstep, hi⟩ := hinvalid
    have hm : maxBrightness.toNat < 2 ^ 16 := maxBrightness.toNat_lt
    have hn : numLeds.toNat < 2 ^ 8 := numLeds.toNat_lt
    have hs : step.toNat < 2 ^ 16 := step.toNat_lt
    have htick := toInt_tick (fun h => hstep (by rw [h]; rfl)) hfits
    rw [CounterFits] at hfits
    generalize maxBrightness.toNat = m at *
    generalize numLeds.toNat = n at *
    generalize ledIndex.toNat = i at *
    generalize step.toNat = s at *
    generalize tick.toNat = t at *
    have hmax : (Int32.ofNat m).toInt = m := Int32.toInt_ofNat_of_lt (by omega)
    have hnum : (Int32.ofNat n).toInt = n := Int32.toInt_ofNat_of_lt (by omega)
    have hled : (Int32.ofNat i).toInt = i := Int32.toInt_ofNat_of_lt (by omega)
    have hphase : (Int32.ofNat m / Int32.ofNat n).toInt = (m / n : ℕ) :=
      toInt_div_eq hmax hnum (by omega)
    have hprod : (Int32.ofNat t * Int32.ofNat s).toInt = (t : ℤ) * s := by
      apply toInt_mul_eq htick (Int32.toInt_ofNat_of_lt (by omega)) <;> omega
    -- the counter is below `2 ^ 31` and the offset is at most the brightness
    have hcounter : (0 : ℤ) ≤ t * s ∧ (t : ℤ) * s < 2 ^ 31 :=
      ⟨by positivity, by exact_mod_cast hfits⟩
    cases direction with
    | in_ =>
        have hoffset : (i : ℤ) * (m / n : ℕ) ≤ m := by
          exact_mod_cast mul_phase_le (Nat.le_of_lt hi) m
        have hpos : (0 : ℤ) ≤ i * (m / n : ℕ) := by positivity
        dsimp only
        apply toNat_clampDuty32 hm
        apply toInt_sub_eq hprod
        · apply toInt_mul_eq hled hphase <;> omega
        · omega
        · omega
    | out =>
        have hbehind : ((n : ℤ) - 1 - i) = (n - 1 - i : ℕ) := by omega
        have hoffset : ((n - 1 - i : ℕ) : ℤ) * (m / n : ℕ) ≤ m := by
          exact_mod_cast mul_phase_le (by omega : n - 1 - i ≤ n) m
        have hpos : (0 : ℤ) ≤ (n - 1 - i : ℕ) * (m / n : ℕ) := by positivity
        have hindex : (Int32.ofNat n - 1 - Int32.ofNat i).toInt = (n : ℤ) - 1 - i := by
          apply toInt_sub_eq (toInt_sub_eq hnum Int32.toInt_one _ _) hled <;> omega
        rw [← hbehind] at hoffset hpos
        dsimp only
        apply toNat_clampDuty32 hm
        apply toInt_sub_eq (toInt_sub_eq hmax hprod _ _)
        · apply toInt_mul_eq hindex hphase <;> omega
        all_goals omega

/-- The value up to which the counter of the loop runs. -/
def counterBound (numLeds maxBrightness : ℕ) : ℕ :=
  maxBrightness + (numLeds - 1) * (maxBrightness / numLeds)

theorem counterBound_le (n m : ℕ) : counterBound n m ≤ 2 * m := by
  have hphase := mul_phase_le (Nat.sub_le n 1) m
  rw [counterBound]
  omega

theorem toNat_staggerTotalTicks32 (hn : 0 < numLeds) (hm : 0 < maxBrightness) (hs : 0 < step) :
    (staggerTotalTicks32 numLeds maxBrightness step).toNat =
      counterBound numLeds.toNat maxBrightness.toNat / step.toNat + 1 := by
  rw [UInt8.lt_iff_toNat_lt, UInt8.toNat_zero] at hn
  rw [UInt16.lt_iff_toNat_lt, UInt16.toNat_zero] at hm hs
  have hvalid : ¬(numLeds = 0 ∨ step = 0 ∨ maxBrightness = 0) := by
    rintro (rfl | rfl | rfl)
    · exact absurd hn (by decide)
    · exact absurd hs (by decide)
    · exact absurd hm (by decide)
  rw [staggerTotalTicks32, if_neg hvalid]
  have hm16 : maxBrightness.toNat < 2 ^ 16 := maxBrightness.toNat_lt
  have hn8 : numLeds.toNat < 2 ^ 8 := numLeds.toNat_lt
  have hs16 : step.toNat < 2 ^ 16 := step.toNat_lt
  generalize maxBrightness.toNat = m at *
  generalize numLeds.toNat = n at *
  generalize step.toNat = s at *
  have hmax : (Int32.ofNat m).toInt = m := Int32.toInt_ofNat_of_lt (by omega)
  have hnum : (Int32.ofNat n).toInt = n := Int32.toInt_ofNat_of_lt (by omega)
  have hphase : (Int32.ofNat m / Int32.ofNat n).toInt = (m / n : ℕ) :=
    toInt_div_eq hmax hnum (by omega)
  have hbehind : (Int32.ofNat n - 1).toInt = (n - 1 : ℕ) := by
    rw [toInt_sub_eq hnum Int32.toInt_one] <;> omega
  have hpos : (0 : ℤ) ≤ (n - 1 : ℕ) * (m / n : ℕ) := by positivity
  have hoffset : ((n - 1 : ℕ) : ℤ) * (m / n : ℕ) ≤ m := by
    exact_mod_cast mul_phase_le (Nat.sub_le n 1) m
  have hbound : (Int32.ofNat m + (Int32.ofNat n - 1) * (Int32.ofNat m / Int32.ofNat n)).toInt =
      counterBound n m := by
    rw [counterBound, Nat.cast_add, Nat.cast_mul]
    apply toInt_add_eq hmax (toInt_mul_eq hbehind hphase _ _) <;> omega
  have hticks := toInt_div_eq hbound (Int32.toInt_ofNat_of_lt (by omega : s < 2 ^ 31))
    (by have := counterBound_le n m; omega)
  have hle : counterBound n m / s ≤ 2 * m := (Nat.div_le_self _ _).trans (counterBound_le n m)
  generalize counterBound n m / s = last at hticks hle ⊢
  dsimp only
  rw [UInt32.toNat_add, hticks, toNat_ofInt32 (by omega) (by omega), UInt32.toNat_one,
    Int.toNat_natCast, Nat.mod_eq_of_lt (by omega)]

end NoWrap

/-! ### The ends of one LED -/

section Ends

variable {n m s i : ℕ}

theorem computeStaggeredDuty_in (hi : i < n) (hm : 0 < m) (hs : 0 < s) (t : ℕ) :
    (computeStaggeredDuty t i n m s .in_ : ℤ) = clampDuty (t * s - i * (m / n : ℕ)) m := by
  rw [computeStaggeredDuty, if_neg (by omega), if_neg (by omega)]
  exact Int.toNat_of_nonneg (clampDuty_nonneg (Int.natCast_nonneg m))

theorem computeStaggeredDuty_out (hi : i < n) (hm : 0 < m) (hs : 0 < s) (t : ℕ) :
    (computeStaggeredDuty t i n m s .out : ℤ) =
      clampDuty (m - t * s - (n - 1 - i : ℕ) * (m / n : ℕ)) m := by
  have hbehind : ((n : ℤ) - 1 - i) = (n - 1 - i : ℕ) := by omega
  rw [computeStaggeredDuty, if_neg (by omega), if_neg (by omega), ← hbehind]
  exact Int.toNat_of_nonneg (clampDuty_nonneg (Int.natCast_nonneg m))

theorem computeStaggeredDuty_le (t i n m s : ℕ) (direction : StaggerDirection) :
    computeStaggeredDuty t i n m s direction ≤ m := by
  unfold computeStaggeredDuty
  split_ifs
  · exact Nat.zero_le m
  · exact Nat.zero_le m
  · exact Int.toNat_le.mpr (clampDuty_le (Int.natCast_nonneg m))

/-- The counter goes up, so that the way to the brightness does not turn back. -/
theorem computeStaggeredDuty_in_mono (hi : i < n) (hm : 0 < m) (hs : 0 < s) {t t' : ℕ}
    (h : t ≤ t') : computeStaggeredDuty t i n m s .in_ ≤ computeStaggeredDuty t' i n m s .in_ := by
  have hcounter : (t : ℤ) * s ≤ t' * s := by exact_mod_cast Nat.mul_le_mul_right s h
  rw [← Int.ofNat_le, computeStaggeredDuty_in hi hm hs, computeStaggeredDuty_in hi hm hs]
  exact clampDuty_mono (Int.natCast_nonneg m) (by omega)

theorem computeStaggeredDuty_out_anti (hi : i < n) (hm : 0 < m) (hs : 0 < s) {t t' : ℕ}
    (h : t ≤ t') :
    computeStaggeredDuty t' i n m s .out ≤ computeStaggeredDuty t i n m s .out := by
  have hcounter : (t : ℤ) * s ≤ t' * s := by exact_mod_cast Nat.mul_le_mul_right s h
  rw [← Int.ofNat_le, computeStaggeredDuty_out hi hm hs, computeStaggeredDuty_out hi hm hs]
  exact clampDuty_mono (Int.natCast_nonneg m) (by omega)

theorem computeStaggeredDuty_in_zero (hi : i < n) (hm : 0 < m) (hs : 0 < s) :
    computeStaggeredDuty 0 i n m s .in_ = 0 := by
  have hoffset : (0 : ℤ) ≤ i * (m / n : ℕ) := by positivity
  rw [← Int.natCast_inj, computeStaggeredDuty_in hi hm hs, Nat.cast_zero, zero_mul,
    clampDuty_eq_zero_iff (by omega)]
  omega

/-- The offsets of a LED in the two directions add up to the one of the whole flash. -/
theorem offsets_add (hi : i < n) (m : ℕ) :
    i * (m / n) + (n - 1 - i) * (m / n) = (n - 1) * (m / n) := by
  rw [← Nat.add_mul, Nat.add_sub_cancel' (by omega)]

/-- The LED is bright on the last tick when the rounding of the ticks is made up for by the
LEDs behind it. -/
theorem computeStaggeredDuty_in_last_iff (hi : i < n) (hm : 0 < m) (hs : 0 < s) :
    computeStaggeredDuty (counterBound n m / s) i n m s .in_ = m ↔
      counterBound n m % s ≤ (n - 1 - i) * (m / n) := by
  have hlast : (counterBound n m / s : ℕ) * s + (counterBound n m % s : ℕ) =
      (m + (n - 1 : ℕ) * (m / n : ℕ) : ℤ) := by
    exact_mod_cast Nat.div_add_mod' (counterBound n m) s
  have hoffsets : (i : ℤ) * (m / n : ℕ) + (n - 1 - i : ℕ) * (m / n : ℕ) =
      (n - 1 : ℕ) * (m / n : ℕ) := by
    exact_mod_cast offsets_add hi m
  rw [← Int.natCast_inj, computeStaggeredDuty_in hi hm hs, clampDuty_eq_max_iff (by omega),
    ← Int.ofNat_le, Nat.cast_mul]
  omega

theorem computeStaggeredDuty_out_zero_iff (hi : i < n) (hm : 0 < m) (hs : 0 < s) :
    computeStaggeredDuty 0 i n m s .out = m ↔ (n - 1 - i) * (m / n) = 0 := by
  have hoffset : (0 : ℤ) ≤ (n - 1 - i : ℕ) * (m / n : ℕ) := by positivity
  rw [← Int.natCast_inj, computeStaggeredDuty_out hi hm hs, clampDuty_eq_max_iff (by omega),
    ← Int.natCast_inj, Nat.cast_mul, Nat.cast_zero, zero_mul]
  omega

theorem computeStaggeredDuty_out_last_iff (hi : i < n) (hm : 0 < m) (hs : 0 < s) :
    computeStaggeredDuty (counterBound n m / s) i n m s .out = 0 ↔
      counterBound n m % s ≤ (n - 1) * (m / n) + (n - 1 - i) * (m / n) := by
  have hlast : (counterBound n m / s : ℕ) * s + (counterBound n m % s : ℕ) =
      (m + (n - 1 : ℕ) * (m / n : ℕ) : ℤ) := by
    exact_mod_cast Nat.div_add_mod' (counterBound n m) s
  rw [← Int.natCast_inj, computeStaggeredDuty_out hi hm hs, Nat.cast_zero,
    clampDuty_eq_zero_iff (by omega), ← Int.ofNat_le, Nat.cast_add, Nat.cast_mul, Nat.cast_mul]
  omega

/-- The duty on the way to black as the header states it. -/
def documentedOut (totalTicks tick ledIndex numLeds maxBrightness step : ℕ) : ℤ :=
  clampDuty (((totalTicks : ℤ) - 1 - tick) * step -
    ((numLeds : ℤ) - 1 - ledIndex) * (maxBrightness / numLeds : ℕ)) maxBrightness

/-- For a LED which starts bright the stated duty is the one of the code when the whole
flash has no offset or only one step. -/
theorem eq_documentedOut_iff (hi : i < n) (hm : 0 < m) (hs : 0 < s) (hs32 : s < 2 ^ 31)
    (hfirst : (n - 1 - i) * (m / n) = 0) (hdvd : s ∣ counterBound n m) :
    (∀ t, t * s < 2 ^ 31 → (computeStaggeredDuty t i n m s .out : ℤ) =
        documentedOut (counterBound n m / s + 1) t i n m s) ↔
      (n - 1) * (m / n) = 0 ∨ s = counterBound n m := by
  have hbehind : ((n : ℤ) - 1 - i) = (n - 1 - i : ℕ) := by omega
  have hlast : ((counterBound n m / s : ℕ) : ℤ) * s = counterBound n m := by
    exact_mod_cast Nat.div_mul_cancel hdvd
  have hoffset : ((n - 1 - i : ℕ) : ℤ) * (m / n : ℕ) = 0 := by exact_mod_cast hfirst
  have hbound : counterBound n m = m + (n - 1) * (m / n) := rfl
  have hdoc : ∀ t : ℕ, documentedOut (counterBound n m / s + 1) t i n m s =
      clampDuty (counterBound n m - t * s) m := by
    intro t
    rw [documentedOut, hbehind, hoffset, sub_zero, Nat.cast_add, Nat.cast_one,
      add_sub_cancel_right, sub_mul, hlast]
  simp only [hdoc, computeStaggeredDuty_out hi hm hs, hoffset, sub_zero]
  constructor
  · -- the first tick tells the two apart
    intro h
    have hone := h 1 (by omega)
    have hle : s ≤ counterBound n m := Nat.le_of_dvd (by omega) hdvd
    rw [Nat.cast_one, one_mul] at hone
    unfold clampDuty at hone
    split_ifs at hone <;> omega
  · rintro (hzero | heq) t -
    · rw [hbound, hzero, Nat.add_zero]
    · cases t with
      | zero =>
          rw [Nat.cast_zero, zero_mul, sub_zero, sub_zero,
            (clampDuty_eq_max_iff (by omega)).mpr (le_refl (m : ℤ)),
            (clampDuty_eq_max_iff (by omega)).mpr (by omega)]
      | succ t =>
          have hstep : (counterBound n m : ℤ) ≤ (t + 1 : ℕ) * s := by
            rw [← heq]
            exact_mod_cast Nat.le_mul_of_pos_left s t.succ_pos
          rw [(clampDuty_eq_zero_iff (by omega)).mpr (by omega),
            (clampDuty_eq_zero_iff (by omega)).mpr (by omega)]

end Ends

/-! ### The ticks of the source -/

section LastTick

variable {numLeds ledIndex : UInt8} {maxBrightness step : UInt16}

theorem counterFits_zero (step : UInt16) : CounterFits step 0 := by
  rw [CounterFits, UInt32.toNat_zero, Nat.zero_mul]
  decide

theorem CounterFits.mono {tick tick' : UInt32} (h : CounterFits step tick') (hle : tick ≤ tick') :
    CounterFits step tick :=
  Nat.lt_of_le_of_lt (Nat.mul_le_mul_right _ (UInt32.le_iff_toNat_le.mp hle)) h

theorem toNat_lastTick (hn : 0 < numLeds) (hm : 0 < maxBrightness) (hs : 0 < step) :
    (staggerTotalTicks32 numLeds maxBrightness step - 1).toNat =
      counterBound numLeds.toNat maxBrightness.toNat / step.toNat := by
  have htotal := toNat_staggerTotalTicks32 hn hm hs
  have hone : 1 ≤ staggerTotalTicks32 numLeds maxBrightness step := by
    rw [UInt32.le_iff_toNat_le, htotal]
    exact Nat.le_add_left _ _
  rw [UInt32.toNat_sub_of_le _ _ hone, htotal]
  rfl

/-- The counter does not wrap in a flash. -/
theorem counterFits_lastTick (hn : 0 < numLeds) (hm : 0 < maxBrightness) (hs : 0 < step) :
    CounterFits step (staggerTotalTicks32 numLeds maxBrightness step - 1) := by
  have hle := counterBound_le numLeds.toNat maxBrightness.toNat
  have hmax : maxBrightness.toNat < 2 ^ 16 := maxBrightness.toNat_lt
  rw [CounterFits, toNat_lastTick hn hm hs]
  exact Nat.lt_of_le_of_lt (Nat.div_mul_le_self _ _) (by omega)

theorem counterFits_of_lt {tick : UInt32} (hn : 0 < numLeds) (hm : 0 < maxBrightness)
    (hs : 0 < step) (h : tick < staggerTotalTicks32 numLeds maxBrightness step) :
    CounterFits step tick := by
  refine (counterFits_lastTick hn hm hs).mono ?_
  rw [UInt32.lt_iff_toNat_lt, toNat_staggerTotalTicks32 hn hm hs] at h
  rw [UInt32.le_iff_toNat_le, toNat_lastTick hn hm hs]
  exact Nat.le_of_lt_succ h

theorem pos_of_lt (hi : ledIndex < numLeds) : 0 < numLeds :=
  UInt8.lt_of_le_of_lt UInt8.zero_le hi

theorem computeStaggeredDuty32_in_mono {tick tick' : UInt32} (hi : ledIndex < numLeds)
    (hm : 0 < maxBrightness) (hs : 0 < step) (hle : tick ≤ tick')
    (hfit : CounterFits step tick') :
    computeStaggeredDuty32 tick ledIndex numLeds maxBrightness step .in_ ≤
      computeStaggeredDuty32 tick' ledIndex numLeds maxBrightness step .in_ := by
  rw [UInt16.le_iff_toNat_le, toNat_computeStaggeredDuty32 hfit,
    toNat_computeStaggeredDuty32 (hfit.mono hle)]
  exact computeStaggeredDuty_in_mono (UInt8.lt_iff_toNat_lt.mp hi)
    (UInt16.lt_iff_toNat_lt.mp hm) (UInt16.lt_iff_toNat_lt.mp hs) (UInt32.le_iff_toNat_le.mp hle)

theorem computeStaggeredDuty32_out_anti {tick tick' : UInt32} (hi : ledIndex < numLeds)
    (hm : 0 < maxBrightness) (hs : 0 < step) (hle : tick ≤ tick')
    (hfit : CounterFits step tick') :
    computeStaggeredDuty32 tick' ledIndex numLeds maxBrightness step .out ≤
      computeStaggeredDuty32 tick ledIndex numLeds maxBrightness step .out := by
  rw [UInt16.le_iff_toNat_le, toNat_computeStaggeredDuty32 hfit,
    toNat_computeStaggeredDuty32 (hfit.mono hle)]
  exact computeStaggeredDuty_out_anti (UInt8.lt_iff_toNat_lt.mp hi)
    (UInt16.lt_iff_toNat_lt.mp hm) (UInt16.lt_iff_toNat_lt.mp hs) (UInt32.le_iff_toNat_le.mp hle)

theorem computeStaggeredDuty32_in_zero (hi : ledIndex < numLeds) (hm : 0 < maxBrightness)
    (hs : 0 < step) :
    computeStaggeredDuty32 0 ledIndex numLeds maxBrightness step .in_ = 0 := by
  rw [← UInt16.toNat_inj, toNat_computeStaggeredDuty32 (counterFits_zero step)]
  exact computeStaggeredDuty_in_zero (UInt8.lt_iff_toNat_lt.mp hi)
    (UInt16.lt_iff_toNat_lt.mp hm) (UInt16.lt_iff_toNat_lt.mp hs)

theorem computeStaggeredDuty32_in_last_iff (hi : ledIndex < numLeds) (hm : 0 < maxBrightness)
    (hs : 0 < step) :
    computeStaggeredDuty32 (staggerTotalTicks32 numLeds maxBrightness step - 1) ledIndex numLeds
        maxBrightness step .in_ = maxBrightness ↔
      counterBound numLeds.toNat maxBrightness.toNat % step.toNat ≤
        (numLeds.toNat - 1 - ledIndex.toNat) * (maxBrightness.toNat / numLeds.toNat) := by
  rw [← UInt16.toNat_inj,
    toNat_computeStaggeredDuty32 (counterFits_lastTick (pos_of_lt hi) hm hs),
    toNat_lastTick (pos_of_lt hi) hm hs]
  exact computeStaggeredDuty_in_last_iff (UInt8.lt_iff_toNat_lt.mp hi)
    (UInt16.lt_iff_toNat_lt.mp hm) (UInt16.lt_iff_toNat_lt.mp hs)

theorem computeStaggeredDuty32_out_zero_iff (hi : ledIndex < numLeds) (hm : 0 < maxBrightness)
    (hs : 0 < step) :
    computeStaggeredDuty32 0 ledIndex numLeds maxBrightness step .out = maxBrightness ↔
      (numLeds.toNat - 1 - ledIndex.toNat) * (maxBrightness.toNat / numLeds.toNat) = 0 := by
  rw [← UInt16.toNat_inj, toNat_computeStaggeredDuty32 (counterFits_zero step)]
  exact computeStaggeredDuty_out_zero_iff (UInt8.lt_iff_toNat_lt.mp hi)
    (UInt16.lt_iff_toNat_lt.mp hm) (UInt16.lt_iff_toNat_lt.mp hs)

theorem computeStaggeredDuty32_out_last_iff (hi : ledIndex < numLeds) (hm : 0 < maxBrightness)
    (hs : 0 < step) :
    computeStaggeredDuty32 (staggerTotalTicks32 numLeds maxBrightness step - 1) ledIndex numLeds
        maxBrightness step .out = 0 ↔
      counterBound numLeds.toNat maxBrightness.toNat % step.toNat ≤
        (numLeds.toNat - 1) * (maxBrightness.toNat / numLeds.toNat) +
          (numLeds.toNat - 1 - ledIndex.toNat) * (maxBrightness.toNat / numLeds.toNat) := by
  rw [← UInt16.toNat_inj,
    toNat_computeStaggeredDuty32 (counterFits_lastTick (pos_of_lt hi) hm hs),
    toNat_lastTick (pos_of_lt hi) hm hs]
  exact computeStaggeredDuty_out_last_iff (UInt8.lt_iff_toNat_lt.mp hi)
    (UInt16.lt_iff_toNat_lt.mp hm) (UInt16.lt_iff_toNat_lt.mp hs)

end LastTick

/-! ### The flash of the source -/

/-- A LED of a flash does what the header says of it: its duty stays below the brightness
and goes one way, it starts and ends where the two directions do, and the way to black is
the stated one. -/
structure FlashAsStated (numLeds ledIndex : UInt8) (maxBrightness step : UInt16) : Prop where
  le_max : ∀ tick direction,
    computeStaggeredDuty32 tick ledIndex numLeds maxBrightness step direction ≤ maxBrightness
  in_mono : ∀ tick tick', tick ≤ tick' → CounterFits step tick' →
    computeStaggeredDuty32 tick ledIndex numLeds maxBrightness step .in_ ≤
      computeStaggeredDuty32 tick' ledIndex numLeds maxBrightness step .in_
  out_anti : ∀ tick tick', tick ≤ tick' → CounterFits step tick' →
    computeStaggeredDuty32 tick' ledIndex numLeds maxBrightness step .out ≤
      computeStaggeredDuty32 tick ledIndex numLeds maxBrightness step .out
  in_first : computeStaggeredDuty32 0 ledIndex numLeds maxBrightness step .in_ = 0
  in_last :
    computeStaggeredDuty32 (staggerTotalTicks32 numLeds maxBrightness step - 1) ledIndex numLeds
      maxBrightness step .in_ = maxBrightness
  out_first : computeStaggeredDuty32 0 ledIndex numLeds maxBrightness step .out = maxBrightness
  out_last :
    computeStaggeredDuty32 (staggerTotalTicks32 numLeds maxBrightness step - 1) ledIndex numLeds
      maxBrightness step .out = 0
  out_stated : ∀ tick, CounterFits step tick →
    ((computeStaggeredDuty32 tick ledIndex numLeds maxBrightness step .out).toNat : ℤ) =
      documentedOut (staggerTotalTicks32 numLeds maxBrightness step).toNat tick.toNat
        ledIndex.toNat numLeds.toNat maxBrightness.toNat step.toNat

/-- There is no offset between the LEDs and the step divides the brightness, or the LED is
the last one and the flash is over after one step. -/
def ReachesBothEnds (numLeds ledIndex maxBrightness step : ℕ) : Prop :=
  (step ∣ maxBrightness ∧ (numLeds = 1 ∨ maxBrightness < numLeds)) ∨
    (ledIndex + 1 = numLeds ∧ step = counterBound numLeds maxBrightness)

theorem le_max_computeStaggeredDuty32 (tick : UInt32) (ledIndex numLeds : UInt8)
    (maxBrightness step : UInt16) (direction : StaggerDirection) :
    computeStaggeredDuty32 tick ledIndex numLeds maxBrightness step direction ≤
      maxBrightness := by
  rw [UInt16.le_iff_toNat_le]
  unfold computeStaggeredDuty32
  split_ifs
  · exact Nat.zero_le _
  · exact Nat.zero_le _
  · dsimp only
    rw [toNat_clampDuty32 maxBrightness.toNat_lt rfl]
    exact Int.toNat_le.mpr (clampDuty_le (Int.natCast_nonneg _))

theorem reachesBothEnds_iff {n m s i : ℕ} (hi : i < n) :
    ReachesBothEnds n i m s ↔
      (n - 1 - i) * (m / n) = 0 ∧ s ∣ counterBound n m ∧
        ((n - 1) * (m / n) = 0 ∨ s = counterBound n m) := by
  have hphase : m / n = 0 ↔ m < n := by
    rw [Nat.div_eq_zero_iff]
    omega
  have hall : (n - 1) * (m / n) = 0 ↔ n = 1 ∨ m < n := by
    rw [Nat.mul_eq_zero, hphase]
    omega
  have hone : (n - 1 - i) * (m / n) = 0 ↔ i + 1 = n ∨ m < n := by
    rw [Nat.mul_eq_zero, hphase]
    omega
  have hbound : (n - 1) * (m / n) = 0 → counterBound n m = m := fun h => by
    rw [counterBound, h, Nat.add_zero]
  rw [ReachesBothEnds, ← hall, hone]
  constructor
  · rintro (⟨hdvd, hzero⟩ | ⟨hlast, rfl⟩)
    · refine ⟨?_, (hbound hzero).symm ▸ hdvd, .inl hzero⟩
      exact (hall.mp hzero).imp (fun h => by omega) id
    · exact ⟨.inl hlast, dvd_rfl, .inr rfl⟩
  · rintro ⟨hled, hdvd, hzero | heq⟩
    · exact .inl ⟨hbound hzero ▸ hdvd, hzero⟩
    · rcases hled with hlast | hsmall
      · exact .inr ⟨hlast, heq⟩
      · have hzero := hall.mpr (.inr hsmall)
        exact .inl ⟨hbound hzero ▸ hdvd, hzero⟩

/-- A LED does what the header says exactly when both of its ends are reached. -/
theorem flashAsStated_iff {numLeds ledIndex : UInt8} {maxBrightness step : UInt16}
    (hi : ledIndex < numLeds) (hm : 0 < maxBrightness) (hs : 0 < step) :
    FlashAsStated numLeds ledIndex maxBrightness step ↔
      ReachesBothEnds numLeds.toNat ledIndex.toNat maxBrightness.toNat step.toNat := by
  have hin := computeStaggeredDuty32_in_last_iff hi hm hs
  have hfirst := computeStaggeredDuty32_out_zero_iff hi hm hs
  have hlast := computeStaggeredDuty32_out_last_iff hi hm hs
  have htotal := toNat_staggerTotalTicks32 (pos_of_lt hi) hm hs
  have hs31 : step.toNat < 2 ^ 31 := Nat.lt_trans step.toNat_lt (by decide)
  have hstep : 0 < step.toNat := UInt16.lt_iff_toNat_lt.mp hs
  have hstated := eq_documentedOut_iff (UInt8.lt_iff_toNat_lt.mp hi)
    (UInt16.lt_iff_toNat_lt.mp hm) hstep hs31
  rw [reachesBothEnds_iff (UInt8.lt_iff_toNat_lt.mp hi)]
  constructor
  · intro h
    have hled := hfirst.mp h.out_first
    have hmod := hin.mp h.in_last
    have hdvd := Nat.dvd_of_mod_eq_zero (Nat.le_zero.mp (hled ▸ hmod))
    refine ⟨hled, hdvd, (hstated hled hdvd).mp ?_⟩
    intro t ht
    have htick : (UInt32.ofNat t).toNat = t := by
      have hle : t ≤ t * step.toNat := Nat.le_mul_of_pos_right _ hstep
      exact UInt32.toNat_ofNat_of_lt' (Nat.lt_of_le_of_lt hle (Nat.lt_trans ht (by decide)))
    have hfit : CounterFits step (UInt32.ofNat t) := by rwa [CounterFits, htick]
    have hout := h.out_stated _ hfit
    rwa [toNat_computeStaggeredDuty32 hfit, htotal, htick] at hout
  · rintro ⟨hled, hdvd, hends⟩
    have hmod := Nat.mod_eq_zero_of_dvd hdvd
    exact
      { le_max := fun _ _ => le_max_computeStaggeredDuty32 ..
        in_mono := fun _ _ hle => computeStaggeredDuty32_in_mono hi hm hs hle
        out_anti := fun _ _ hle => computeStaggeredDuty32_out_anti hi hm hs hle
        in_first := computeStaggeredDuty32_in_zero hi hm hs
        in_last := hin.mpr (by omega)
        out_first := hfirst.mpr hled
        out_last := hlast.mpr (by omega)
        out_stated := fun tick hfit => by
          rw [toNat_computeStaggeredDuty32 hfit, htotal]
          exact (hstated hled hdvd).mpr hends _ hfit }

/-- With seven LEDs the first one is not bright on the first tick of the way to black. -/
theorem not_flashAsStated_seven : ¬FlashAsStated 7 0 2048 25 := by
  intro h
  exact absurd h.out_first (by decide)

/-- Past the 32-bit counter the way to the brightness starts again. -/
theorem computeStaggeredDuty32_wraps :
    computeStaggeredDuty32 0x7FFFFFFF 0 7 2048 1 .in_ = 2048 ∧
      computeStaggeredDuty32 0x80000000 0 7 2048 1 .in_ = 0 := by
  decide

/-! ### What a flash keeps of the statement -/

/-- The way to black runs down from the brightness less the offset of the LED, and where
the step divides the bound of the counter the last tick reaches both ends. -/
structure StaggeredFlash (numLeds ledIndex : UInt8) (maxBrightness step : UInt16) : Prop where
  le_max : ∀ tick direction,
    computeStaggeredDuty32 tick ledIndex numLeds maxBrightness step direction ≤ maxBrightness
  in_mono : ∀ tick tick', tick ≤ tick' → CounterFits step tick' →
    computeStaggeredDuty32 tick ledIndex numLeds maxBrightness step .in_ ≤
      computeStaggeredDuty32 tick' ledIndex numLeds maxBrightness step .in_
  out_anti : ∀ tick tick', tick ≤ tick' → CounterFits step tick' →
    computeStaggeredDuty32 tick' ledIndex numLeds maxBrightness step .out ≤
      computeStaggeredDuty32 tick ledIndex numLeds maxBrightness step .out
  fits : ∀ tick, tick < staggerTotalTicks32 numLeds maxBrightness step → CounterFits step tick
  in_first : computeStaggeredDuty32 0 ledIndex numLeds maxBrightness step .in_ = 0
  out_eq : ∀ tick, CounterFits step tick →
    ((computeStaggeredDuty32 tick ledIndex numLeds maxBrightness step .out).toNat : ℤ) =
      clampDuty ((maxBrightness.toNat : ℤ) - tick.toNat * step.toNat -
        ((numLeds.toNat : ℤ) - 1 - ledIndex.toNat) *
          (maxBrightness.toNat / numLeds.toNat : ℕ)) maxBrightness.toNat
  out_first : (computeStaggeredDuty32 0 ledIndex numLeds maxBrightness step .out).toNat +
      (numLeds.toNat - 1 - ledIndex.toNat) * (maxBrightness.toNat / numLeds.toNat) =
    maxBrightness.toNat
  last : step.toNat ∣ counterBound numLeds.toNat maxBrightness.toNat →
    computeStaggeredDuty32 (staggerTotalTicks32 numLeds maxBrightness step - 1) ledIndex numLeds
        maxBrightness step .in_ = maxBrightness ∧
      computeStaggeredDuty32 (staggerTotalTicks32 numLeds maxBrightness step - 1) ledIndex
        numLeds maxBrightness step .out = 0

theorem staggeredFlash {numLeds ledIndex : UInt8} {maxBrightness step : UInt16}
    (hi : ledIndex < numLeds) (hm : 0 < maxBrightness) (hs : 0 < step) :
    StaggeredFlash numLeds ledIndex maxBrightness step := by
  have hled : ledIndex.toNat < numLeds.toNat := UInt8.lt_iff_toNat_lt.mp hi
  have hout := fun {tick} (hfit : CounterFits step tick) =>
    (congrArg Nat.cast (toNat_computeStaggeredDuty32 hfit .out)).trans
      (computeStaggeredDuty_out hled (UInt16.lt_iff_toNat_lt.mp hm)
        (UInt16.lt_iff_toNat_lt.mp hs) tick.toNat)
  have hbehind : ((numLeds.toNat : ℤ) - 1 - ledIndex.toNat) =
      (numLeds.toNat - 1 - ledIndex.toNat : ℕ) := by omega
  exact
    { le_max := fun _ _ => le_max_computeStaggeredDuty32 ..
      in_mono := fun _ _ hle => computeStaggeredDuty32_in_mono hi hm hs hle
      out_anti := fun _ _ hle => computeStaggeredDuty32_out_anti hi hm hs hle
      fits := fun _ => counterFits_of_lt (pos_of_lt hi) hm hs
      in_first := computeStaggeredDuty32_in_zero hi hm hs
      out_eq := fun tick hfit => by
        rw [hbehind]
        exact hout hfit
      out_first := by
        have hoffset := mul_phase_le (by omega : numLeds.toNat - 1 - ledIndex.toNat ≤ numLeds.toNat)
          maxBrightness.toNat
        have hzero := hout (counterFits_zero step)
        rw [UInt32.toNat_zero, Nat.cast_zero, zero_mul, sub_zero, ← Nat.cast_mul] at hzero
        unfold clampDuty at hzero
        split_ifs at hzero <;> omega
      last := fun hdvd => by
        have hmod := Nat.mod_eq_zero_of_dvd hdvd
        exact ⟨(computeStaggeredDuty32_in_last_iff hi hm hs).mpr (by omega),
          (computeStaggeredDuty32_out_last_iff hi hm hs).mpr (by omega)⟩ }

theorem staggeredFlash_seven : StaggeredFlash 7 0 2048 25 :=
  staggeredFlash (by decide) (by decide) (by decide)

end Frontlight

end BtClock
