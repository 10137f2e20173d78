import BtClock.Arith.RoundUp
import BtClock.Nostr.Nip44
import Mathlib.Data.Nat.Log

/-!
# The padded length of NIP-44

A plaintext is padded to a whole number of chunks, and a chunk is an eighth of the next power of
two.  The loop which searches the power finds it for every length.
-/

namespace BtClock

namespace Nostr

open Rounding

/-- The size of a chunk: an eighth of the next power of two, and at least 32. -/
def paddingChunk (n : ℕ) : ℕ :=
  max 32 (2 ^ Nat.clog 2 n / 8)

/-- The rule for the padded length. -/
structure MeetsPaddingRule (padded : ℕ → ℕ) : Prop where
  le n : n ≤ padded n
  dvd n : 32 ∣ padded n
  monotone : Monotone padded
  eq n : 1 ≤ n → padded n = paddingChunk n * (n ⌈/⌉ paddingChunk n)
  bound n : n ≤ 65535 → padded n ≤ 65536

variable {m n : ℕ}

/-! ### The chunk -/

theorem paddingChunk_pos (n : ℕ) : 0 < paddingChunk n :=
  (show 0 < 32 by decide).trans_le (le_max_left 32 _)

/-- The chunk is a power of two. -/
theorem paddingChunk_eq_pow (n : ℕ) : paddingChunk n = 2 ^ max 5 (Nat.clog 2 n - 3) := by
  have hpow : ∀ k, max (2 ^ 5) (2 ^ k / 2 ^ 3) = 2 ^ max 5 (k - 3) := by
    intro k
    rcases Nat.lt_or_ge k 3 with hk | hk
    · have hzero : 2 ^ k / 2 ^ 3 = 0 :=
        Nat.div_eq_of_lt (Nat.pow_lt_pow_right (by decide) hk)
      rw [hzero, Nat.sub_eq_zero_of_le hk.le]
      rfl
    · rw [Nat.pow_div hk (by decide)]
      exact ((pow_right_mono₀ (show 1 ≤ 2 by decide)).map_max).symm
  exact hpow (Nat.clog 2 n)

theorem paddingChunk_dvd (h : m ≤ n) : paddingChunk m ∣ paddingChunk n := by
  rw [paddingChunk_eq_pow, paddingChunk_eq_pow]
  have hlog := Nat.clog_mono_right 2 h
  exact pow_dvd_pow 2 (max_le_max (Nat.le_refl 5) (Nat.sub_le_sub_right hlog 3))

theorem dvd_paddingChunk (n : ℕ) : 32 ∣ paddingChunk n := by
  rw [paddingChunk_eq_pow]
  exact pow_dvd_pow 2 (le_max_left 5 _)

/-! ### The loop -/

/-- The loop finds the next power of two. -/
theorem halvings_pred (h : 2 ≤ n) : halvings (n - 1) + 1 = Nat.clog 2 n := by
  obtain ⟨hle, hlt⟩ := halvings_spec (show 1 ≤ n - 1 by omega)
  apply Nat.le_antisymm
  · exact (Nat.lt_clog_iff_pow_lt (by decide)).mpr (by omega)
  · exact Nat.clog_le_of_le_pow (by omega)

/-- The test for a small power chooses the greater chunk. -/
theorem ite_eq_max_eighth (p : ℕ) : (if p ≤ 256 then 32 else p / 8) = max 32 (p / 8) := by
  split_ifs with hp
  · rw [max_eq_left (by omega)]
  · rw [max_eq_right (by omega)]

theorem nip44CalcPaddedLen_eq (h : 1 ≤ n) :
    nip44CalcPaddedLen n = roundUp (paddingChunk n) n := by
  rw [nip44CalcPaddedLen]
  split_ifs with hsmall
  · have hlog : Nat.clog 2 n ≤ 5 := Nat.clog_le_of_le_pow hsmall
    have hchunk : paddingChunk n = 32 := by
      rw [paddingChunk_eq_pow, max_eq_left (by omega)]
      rfl
    rw [hchunk, ← mul_div_add_one (by decide) h, Nat.div_eq_of_lt (by omega)]
  · rw [halvings_pred (by omega)]
    simp only [Nat.one_shiftLeft, ite_eq_max_eighth]
    exact mul_div_add_one (paddingChunk_pos n) h

/-! ### The rule -/

theorem nip44CalcPaddedLen_zero : nip44CalcPaddedLen 0 = 32 :=
  if_pos (Nat.zero_le 32)

theorem nip44CalcPaddedLen_monotone : Monotone nip44CalcPaddedLen := by
  intro m n hle
  rcases Nat.eq_zero_or_pos n with rfl | hn
  · rw [Nat.le_zero.mp hle]
  rw [nip44CalcPaddedLen_eq hn]
  rcases Nat.eq_zero_or_pos m with rfl | hm
  · rw [nip44CalcPaddedLen_zero]
    have hdvd := (dvd_paddingChunk n).trans (dvd_roundUp (paddingChunk n) n)
    exact Nat.le_of_dvd (hn.trans_le (le_roundUp (paddingChunk_pos n) n)) hdvd
  · rw [nip44CalcPaddedLen_eq hm]
    exact roundUp_le_roundUp (paddingChunk_pos m) (paddingChunk_pos n) (paddingChunk_dvd hle) hle

theorem nip44CalcPaddedLen_meetsRule : MeetsPaddingRule nip44CalcPaddedLen where
  le n := by
    rcases Nat.eq_zero_or_pos n with rfl | hn
    · exact Nat.zero_le _
    · rw [nip44CalcPaddedLen_eq hn]
      exact le_roundUp (paddingChunk_pos n) n
  dvd n := by
    rcases Nat.eq_zero_or_pos n with rfl | hn
    · rw [nip44CalcPaddedLen_zero]
    · rw [nip44CalcPaddedLen_eq hn]
      exact (dvd_paddingChunk n).trans (dvd_roundUp _ n)
  monotone := nip44CalcPaddedLen_monotone
  eq n hn := nip44CalcPaddedLen_eq hn
  bound n hmax := (nip44CalcPaddedLen_bounds hmax).2.2

end Nostr

end BtClock
