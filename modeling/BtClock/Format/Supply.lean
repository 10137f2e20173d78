import BtClock.Arith.Epochs
import Mathlib.Algebra.Order.BigOperators.Group.Finset

/-!
# The supply

The reward of a block halves with every epoch.  The supply adds whole epochs at once, in 64 bits,
and is the sum of the rewards of all blocks so far.
-/

namespace BtClock

namespace MiningPools

/-- The copy of the pool component. -/
def blockRewardSatsAt (height : UInt32) : UInt64 :=
  let kHalvingInterval : UInt32 := 210000
  let kMaxHalvingEras : UInt32 := 33
  let era := height / kHalvingInterval
  if kMaxHalvingEras ≤ era then 0 else 5000000000 >>> era.toUInt64

end MiningPools

namespace Format

open Finset

def kHalvingInterval : UInt32 := 210000

def kMaxHalvingEras : UInt32 := 33

def kMaxSupplyBtc : UInt64 := 21000000

def kFirstRewardSats : UInt64 := 5000000000

def blockRewardSats (height : UInt32) : UInt64 :=
  let era := height / kHalvingInterval
  if kMaxHalvingEras ≤ era then 0 else kFirstRewardSats >>> era.toUInt64

/-! ### The supply -/

/-- The variables of the loop over the epochs. -/
structure SupplyTurn where
  sats : UInt64
  reward : UInt64
  h : UInt32
  deriving DecidableEq, Repr

namespace SupplyTurn

def start (height : UInt32) : SupplyTurn where
  sats := 0
  reward := kFirstRewardSats
  h := height

def inEra (t : SupplyTurn) : UInt32 :=
  if kHalvingInterval ≤ t.h then kHalvingInterval else t.h

def next (t : SupplyTurn) : SupplyTurn where
  sats := t.sats + t.inEra.toUInt64 * t.reward
  reward := t.reward >>> 1
  h := t.h - t.inEra

/-- The loop, with the number of the epochs which are left. -/
def loop : ℕ → SupplyTurn → SupplyTurn
  | 0, t => t
  | eras + 1, t => if 0 < t.h then loop eras t.next else t

end SupplyTurn

def supplyAtBlock (height : UInt32) : UInt64 :=
  let sats := (SupplyTurn.loop kMaxHalvingEras.toNat (.start height)).sats
  let btc := sats / 100000000
  if kMaxSupplyBtc < btc then kMaxSupplyBtc else btc

/-! ### The epochs -/

/-- The reward of an epoch. -/
def subsidy (era : ℕ) : ℕ :=
  5000000000 / 2 ^ era

/-- The rewards of the blocks below a height. -/
def minted (height : ℕ) : ℕ :=
  ∑ i ∈ range height, (blockRewardSats (UInt32.ofNat i)).toNat

theorem subsidy_succ (era : ℕ) : subsidy (era + 1) = subsidy era / 2 := by
  rw [subsidy, subsidy, Nat.pow_succ, Nat.div_div_eq_div_mul]

theorem subsidy_of_ge {era : ℕ} (h : 33 ≤ era) : subsidy era = 0 := by
  have hpow : 2 ^ 33 ≤ 2 ^ era := Nat.pow_le_pow_right (by decide) h
  exact Nat.div_eq_of_lt (by omega)

theorem toNat_blockRewardSats (height : UInt32) :
    (blockRewardSats height).toNat = subsidy (height.toNat / 210000) := by
  have hera : (height / kHalvingInterval).toNat = height.toNat / 210000 := UInt32.toNat_div _ _
  rw [blockRewardSats]
  split_ifs with hmax
  · have hge : 33 ≤ (height / kHalvingInterval).toNat := UInt32.le_iff_toNat_le.mp hmax
    rw [subsidy_of_ge (hera ▸ hge)]
    rfl
  · have hlt : (height / kHalvingInterval).toNat < 33 := by
      rw [UInt32.le_iff_toNat_le] at hmax
      exact Nat.lt_of_not_le hmax
    rw [UInt64.toNat_shiftRight, UInt32.toNat_toUInt64, Nat.mod_eq_of_lt (by omega),
      Nat.shiftRight_eq_div_pow, hera]
    rfl

theorem minted_eq_sum_subsidy (height : UInt32) :
    minted height.toNat = ∑ i ∈ range height.toNat, subsidy (0 + i / 210000) := by
  apply sum_congr rfl
  intro i hi
  have hsmall : i < 2 ^ 32 := (mem_range.mp hi).trans height.toNat_lt
  rw [toNat_blockRewardSats, UInt32.toNat_ofNat', Nat.mod_eq_of_lt hsmall, Nat.zero_add]

/-! ### The loop -/

/-- Neither the product nor the sum of the turn leaves the 64 bits. -/
structure SupplyTurn.Fits (t : SupplyTurn) : Prop where
  product : t.inEra.toNat * t.reward.toNat < 2 ^ 64
  sum : t.sats.toNat + t.inEra.toNat * t.reward.toNat < 2 ^ 64

/-- At an epoch, what is added so far and what the blocks which are left are worth make up all that
is minted, and there is room for twice a whole epoch. -/
structure SupplyTurn.Carries (height : UInt32) (era : ℕ) (t : SupplyTurn) : Prop where
  reward : t.reward.toNat = subsidy era
  total : t.sats.toNat + ∑ i ∈ range t.h.toNat, subsidy (era + i / 210000) = minted height.toNat
  room : t.sats.toNat + 2 * (210000 * subsidy era) ≤ 2 * (210000 * 5000000000)

namespace SupplyTurn

variable {height : UInt32} {era : ℕ} {t : SupplyTurn}

theorem toNat_inEra (t : SupplyTurn) : t.inEra.toNat = min 210000 t.h.toNat := by
  rw [inEra]
  split_ifs with hwhole
  · have hle : 210000 ≤ t.h.toNat := UInt32.le_iff_toNat_le.mp hwhole
    rw [Nat.min_eq_left hle]
    rfl
  · have hlt : t.h.toNat < 210000 := by
      rw [UInt32.le_iff_toNat_le] at hwhole
      exact Nat.lt_of_not_le hwhole
    rw [Nat.min_eq_right hlt.le]

theorem carries_start (height : UInt32) : Carries height 0 (start height) where
  reward := by
    rw [subsidy, Nat.pow_zero, Nat.div_one]
    rfl
  total := by
    have hzero : (start height).sats.toNat = 0 := rfl
    rw [minted_eq_sum_subsidy, hzero, Nat.zero_add]
    rfl
  room := by
    have hzero : (start height).sats.toNat = 0 := rfl
    rw [hzero, subsidy, Nat.pow_zero, Nat.div_one, Nat.zero_add]

theorem Carries.le (h : Carries height era t) :
    t.sats.toNat + t.inEra.toNat * t.reward.toNat ≤
      t.sats.toNat + 210000 * subsidy era := by
  rw [h.reward, toNat_inEra]
  exact Nat.add_le_add_left (Nat.mul_le_mul_right _ (Nat.min_le_left _ _)) _

theorem Carries.fits (h : Carries height era t) : t.Fits := by
  have hle := h.le
  have hroom := h.room
  exact ⟨by omega, by omega⟩

theorem toNat_sats_next (h : t.Fits) :
    t.next.sats.toNat = t.sats.toNat + t.inEra.toNat * t.reward.toNat := by
  rw [next, UInt64.toNat_add, UInt64.toNat_mul, UInt32.toNat_toUInt64, Nat.mod_eq_of_lt h.product,
    Nat.mod_eq_of_lt h.sum]

theorem toNat_h_next (t : SupplyTurn) : t.next.h.toNat = t.h.toNat - min 210000 t.h.toNat := by
  have hle : t.inEra ≤ t.h := by
    rw [UInt32.le_iff_toNat_le, toNat_inEra]
    exact Nat.min_le_right _ _
  rw [next, UInt32.toNat_sub_of_le _ _ hle, toNat_inEra]

/-- What a turn adds is what the blocks of its epoch are worth. -/
theorem sum_next (t : SupplyTurn) (era : ℕ) :
    ∑ i ∈ range t.h.toNat, subsidy (era + i / 210000) =
      t.inEra.toNat * subsidy era +
        ∑ i ∈ range t.next.h.toNat, subsidy (era + 1 + i / 210000) := by
  rw [toNat_inEra, toNat_h_next]
  rcases Nat.le_total 210000 t.h.toNat with hge | hle
  · rw [Nat.min_eq_left hge, Epochs.sum_of_ge subsidy (by decide) hge, Nat.nsmul_eq_mul]
  · rw [Nat.min_eq_right hle, Nat.sub_self, Finset.sum_range_zero, Epochs.sum_of_le subsidy hle,
      Nat.nsmul_eq_mul, Nat.add_zero]

theorem Carries.next (h : Carries height era t) : Carries height (era + 1) t.next := by
  have hsats := toNat_sats_next h.fits
  refine ⟨?_, ?_, ?_⟩
  · rw [subsidy_succ, ← h.reward]
    exact UInt64.toNat_shiftRight _ _
  · rw [hsats, h.reward, ← h.total, sum_next t era, Nat.add_assoc]
  · have hle := h.le
    have hroom := h.room
    rw [hsats, subsidy_succ]
    omega

theorem Carries.iterate (height : UInt32) (era : ℕ) :
    Carries height era (SupplyTurn.next^[era] (start height)) := by
  induction era with
  | zero => exact carries_start height
  | succ era ih =>
      rw [Function.iterate_succ_apply']
      exact ih.next

/-- The loop ends with all that is minted, and as soon as no blocks are left. -/
theorem Carries.loop {eras : ℕ} (h : Carries height era t) (hall : 33 ≤ era + eras) :
    (SupplyTurn.loop eras t).sats.toNat = minted height.toNat ∧
      (SupplyTurn.loop eras t).sats.toNat ≤ 2 * (210000 * 5000000000) := by
  induction eras generalizing era t with
  | zero =>
      have hnone : ∑ i ∈ range t.h.toNat, subsidy (era + i / 210000) = 0 :=
        Finset.sum_eq_zero fun i _ => subsidy_of_ge (by omega)
      have htotal := h.total
      have hroom := h.room
      rw [hnone, Nat.add_zero] at htotal
      exact ⟨htotal, by rw [SupplyTurn.loop]; omega⟩
  | succ eras ih =>
      rw [SupplyTurn.loop]
      split_ifs with hleft
      · exact ih h.next (by omega)
      · have hzero : t.h.toNat = 0 := by
          rw [UInt32.lt_iff_toNat_lt] at hleft
          exact Nat.eq_zero_of_not_pos hleft
        have htotal := h.total
        have hroom := h.room
        rw [hzero, Finset.sum_range_zero, Nat.add_zero] at htotal
        exact ⟨htotal, by omega⟩

end SupplyTurn

/-! ### The supply of a height -/

theorem toNat_supplyAtBlock (height : UInt32) :
    (supplyAtBlock height).toNat = minted height.toNat / 10 ^ 8 ∧
      (supplyAtBlock height).toNat ≤ 21000000 := by
  have heras : 33 ≤ 0 + kMaxHalvingEras.toNat := by decide
  obtain ⟨hsats, hmax⟩ := (SupplyTurn.carries_start height).loop heras
  have hbtc : ((SupplyTurn.loop kMaxHalvingEras.toNat (.start height)).sats / 100000000).toNat =
      minted height.toNat / 10 ^ 8 := by
    rw [UInt64.toNat_div, hsats]
    rfl
  have hle : minted height.toNat / 10 ^ 8 ≤ 21000000 := by
    rw [← hsats]
    omega
  have hcap : ¬kMaxSupplyBtc <
      (SupplyTurn.loop kMaxHalvingEras.toNat (.start height)).sats / 100000000 := by
    rw [UInt64.lt_iff_toNat_lt, hbtc]
    exact Nat.not_lt.mpr hle
  rw [supplyAtBlock]
  simp only [if_neg hcap, hbtc]
  exact ⟨trivial, hle⟩

theorem minted_mono {m n : ℕ} (h : m ≤ n) : minted m ≤ minted n :=
  Finset.sum_le_sum_of_subset (Finset.range_subset_range.mpr h)

/-- The supply is the sum of the rewards, and the two rewards are the same. -/
structure SupplyAgrees : Prop where
  supply height : (supplyAtBlock height).toNat =
    (∑ i ∈ range height.toNat, (blockRewardSats (UInt32.ofNat i)).toNat) / 10 ^ 8
  monotone {low high : UInt32} : low ≤ high → supplyAtBlock low ≤ supplyAtBlock high
  bounded height : supplyAtBlock height ≤ 21000000
  fits height era : (SupplyTurn.next^[era] (.start height)).Fits
  pool height : MiningPools.blockRewardSatsAt height = blockRewardSats height

theorem supplyAgrees : SupplyAgrees where
  supply height := (toNat_supplyAtBlock height).1
  monotone h := by
    rw [UInt64.le_iff_toNat_le, (toNat_supplyAtBlock _).1, (toNat_supplyAtBlock _).1]
    exact Nat.div_le_div_right (minted_mono (UInt32.le_iff_toNat_le.mp h))
  bounded height := UInt64.le_iff_toNat_le.mpr (toNat_supplyAtBlock height).2
  fits height era := (SupplyTurn.Carries.iterate height era).fits
  pool _ := rfl

end Format

end BtClock
