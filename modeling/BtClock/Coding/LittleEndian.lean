import BtClock.Arith.Bits

/-!
# Numbers as bytes, the lowest first
-/

namespace LittleEndian

def toNat : List UInt8 → ℕ
  | [] => 0
  | b :: bytes => b.toNat + 256 * toNat bytes

/-- The first `k` bytes of a number. -/
def ofNat : ℕ → ℕ → List UInt8
  | 0, _ => []
  | k + 1, v => UInt8.ofNat v :: ofNat k (v / 256)

@[simp]
theorem length_ofNat (k v : ℕ) : (ofNat k v).length = k := by
  induction k generalizing v with
  | zero => rfl
  | succ k ih => rw [ofNat, List.length_cons, ih]

theorem toNat_ofNat {k v : ℕ} (h : v < 256 ^ k) : toNat (ofNat k v) = v := by
  induction k generalizing v with
  | zero =>
      have hzero : v = 0 := by simpa using h
      rw [ofNat, toNat, hzero]
  | succ k ih =>
      have hhigh : v / 256 < 256 ^ k := by
        rw [Nat.pow_succ] at h
        exact Nat.div_lt_of_lt_mul (Nat.mul_comm _ _ ▸ h)
      rw [ofNat, toNat, ih hhigh, UInt8.toNat_ofNat']
      omega

theorem toNat_two (b₀ b₁ : UInt8) : b₀.toNat ||| b₁.toNat <<< 8 = toNat [b₀, b₁] := by
  have h₀ : b₀.toNat < 2 ^ 8 := b₀.toNat_lt
  rw [Nat.or_comm, Bits.shiftLeft_or_eq_add h₀, toNat, toNat, toNat]
  omega

theorem toNat_four (b₀ b₁ b₂ b₃ : UInt8) :
    (b₀.toUInt32 ||| b₁.toUInt32 <<< 8 ||| b₂.toUInt32 <<< 16 ||| b₃.toUInt32 <<< 24).toNat =
      toNat [b₀, b₁, b₂, b₃] := by
  have h₀ : b₀.toNat < 2 ^ 8 := b₀.toNat_lt
  have h₁ : b₁.toNat < 2 ^ 8 := b₁.toNat_lt
  have h₂ : b₂.toNat < 2 ^ 8 := b₂.toNat_lt
  have h₃ : b₃.toNat < 2 ^ 8 := b₃.toNat_lt
  have hshift₁ : (b₁.toUInt32 <<< 8).toNat = b₁.toNat <<< 8 := by
    simp [Nat.shiftLeft_eq]
    omega
  have hshift₂ : (b₂.toUInt32 <<< 16).toNat = b₂.toNat <<< 16 := by
    simp [Nat.shiftLeft_eq]
    omega
  have hshift₃ : (b₃.toUInt32 <<< 24).toNat = b₃.toNat <<< 24 := by
    simp [Nat.shiftLeft_eq]
    omega
  have hlow : b₀.toNat ||| b₁.toNat <<< 8 = b₁.toNat * 2 ^ 8 + b₀.toNat := by
    rw [Nat.or_comm, Bits.shiftLeft_or_eq_add h₀]
  have hmid : b₁.toNat * 2 ^ 8 + b₀.toNat ||| b₂.toNat <<< 16 =
      b₂.toNat * 2 ^ 16 + (b₁.toNat * 2 ^ 8 + b₀.toNat) := by
    rw [Nat.or_comm, Bits.shiftLeft_or_eq_add (by omega)]
  have hhigh : b₂.toNat * 2 ^ 16 + (b₁.toNat * 2 ^ 8 + b₀.toNat) ||| b₃.toNat <<< 24 =
      b₃.toNat * 2 ^ 24 + (b₂.toNat * 2 ^ 16 + (b₁.toNat * 2 ^ 8 + b₀.toNat)) := by
    rw [Nat.or_comm, Bits.shiftLeft_or_eq_add (by omega)]
  rw [UInt32.toNat_or, UInt32.toNat_or, UInt32.toNat_or, hshift₁, hshift₂, hshift₃,
    UInt8.toNat_toUInt32, hlow, hmid, hhigh]
  simp only [toNat]
  omega

end LittleEndian
