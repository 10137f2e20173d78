import Mathlib.Algebra.Group.Nat.Defs
import Mathlib.Data.List.Induction
import Mathlib.Data.Nat.Notation

/-!
# Numbers as bytes, the highest first
-/

namespace BigEndian

def toNat (bytes : List UInt8) : ℕ :=
  bytes.foldl (fun v b => v * 256 + b.toNat) 0

/-- The last `k` bytes of a number. -/
def ofNat : ℕ → ℕ → List UInt8
  | 0, _ => []
  | k + 1, v => ofNat k (v / 256) ++ [UInt8.ofNat v]

@[simp]
theorem toNat_nil : toNat [] = 0 :=
  rfl

theorem toNat_append_singleton (bytes : List UInt8) (b : UInt8) :
    toNat (bytes ++ [b]) = toNat bytes * 256 + b.toNat := by
  simp [toNat]

@[simp]
theorem length_ofNat (k v : ℕ) : (ofNat k v).length = k := by
  induction k generalizing v with
  | zero => rfl
  | succ k ih => rw [ofNat, List.length_append, ih, List.length_singleton]

theorem toNat_ofNat (k v : ℕ) : toNat (ofNat k v) = v % 256 ^ k := by
  induction k generalizing v with
  | zero => rw [ofNat, toNat_nil, Nat.pow_zero, Nat.mod_one]
  | succ k ih =>
      have hbyte : v % 2 ^ 8 = v % 256 := rfl
      have hpow : 256 ^ (k + 1) = 256 * 256 ^ k := Nat.pow_succ'
      rw [ofNat, toNat_append_singleton, ih, UInt8.toNat_ofNat', hbyte, hpow, Nat.mod_mul,
        Nat.add_comm, Nat.mul_comm]

theorem toNat_ofNat_of_lt {k v : ℕ} (h : v < 256 ^ k) : toNat (ofNat k v) = v := by
  rw [toNat_ofNat, Nat.mod_eq_of_lt h]

theorem toNat_lt (bytes : List UInt8) : toNat bytes < 256 ^ bytes.length := by
  induction bytes using List.reverseRecOn with
  | nil => decide
  | append_singleton bytes b ih =>
      have hb := b.toNat_lt
      rw [toNat_append_singleton, List.length_append, List.length_singleton, Nat.pow_succ]
      omega

theorem toNat_cons (b : UInt8) (bytes : List UInt8) :
    toNat (b :: bytes) = b.toNat * 256 ^ bytes.length + toNat bytes := by
  induction bytes using List.reverseRecOn with
  | nil => simp [toNat]
  | append_singleton bytes b' ih =>
      rw [← List.cons_append, toNat_append_singleton, ih, toNat_append_singleton,
        List.length_append, List.length_singleton, Nat.pow_succ, Nat.add_mul, Nat.mul_assoc,
        Nat.add_assoc]

/-- The bytes of a number are determined by it. -/
theorem ofNat_toNat {k : ℕ} {bytes : List UInt8} (h : bytes.length = k) :
    ofNat k (toNat bytes) = bytes := by
  induction bytes using List.reverseRecOn generalizing k with
  | nil => rw [← h]; rfl
  | append_singleton bytes b ih =>
      obtain rfl : k = bytes.length + 1 := by simpa using h.symm
      have hb := b.toNat_lt
      rw [toNat_append_singleton, ofNat]
      have hdiv : (toNat bytes * 256 + b.toNat) / 256 = toNat bytes := by omega
      have hlast : UInt8.ofNat (toNat bytes * 256 + b.toNat) = b := by
        apply UInt8.toNat_inj.mp
        rw [UInt8.toNat_ofNat']
        omega
      rw [hdiv, hlast, ih rfl]

end BigEndian
