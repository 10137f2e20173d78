import Mathlib.Data.Nat.Bitwise

/-!
# The bits of a byte string

A bit has the number of its byte and a place in it, the highest bit first.  To write one is to
leave all others.
-/

namespace BitString

/-- The bit at a place of a byte. -/
def bit (b : UInt8) (j : ℕ) : Bool :=
  b.toNat.testBit (7 - j)

def mask (j : ℕ) : UInt8 :=
  UInt8.ofNat (1 <<< (7 - j))

def put (b : UInt8) (j : ℕ) (v : Bool) : UInt8 :=
  if v then b ||| mask j else b &&& ~~~mask j

theorem toNat_mask (j : ℕ) : (mask j).toNat = 2 ^ (7 - j) := by
  have hlt : 2 ^ (7 - j) < 2 ^ 8 := Nat.pow_lt_pow_right (by decide) (by omega)
  rw [mask, Nat.shiftLeft_eq, Nat.one_mul, UInt8.toNat_ofNat', Nat.mod_eq_of_lt hlt]

theorem bit_put {j j' : ℕ} (hj : j < 8) (hj' : j' < 8) (b : UInt8) (v : Bool) :
    bit (put b j v) j' = if j' = j then v else bit b j' := by
  have hplace : 7 - j = 7 - j' ↔ j' = j := by omega
  have hlt : 7 - j' < 8 := by omega
  cases v with
  | true =>
      rw [put, if_pos rfl, bit, UInt8.toNat_or, Nat.testBit_or, toNat_mask, Nat.testBit_two_pow,
        bit]
      by_cases h : j' = j <;> simp [hplace, h]
  | false =>
      rw [put, if_neg nofun, bit, UInt8.toNat_and, Nat.testBit_and, bit]
      have hnot : (~~~mask j).toNat.testBit (7 - j') = decide (¬ j' = j) := by
        rw [← UInt8.toNat_toBitVec, UInt8.toBitVec_not, BitVec.testBit_toNat, BitVec.getLsbD_not,
          ← BitVec.testBit_toNat, UInt8.toNat_toBitVec, toNat_mask, Nat.testBit_two_pow]
        simp [hplace, hlt]
      rw [hnot]
      by_cases h : j' = j <;> simp [h]

/-- The bit at a place of the byte with a number; there is none outside. -/
def get (bytes : List UInt8) (i j : ℕ) : Bool :=
  bit (bytes.getD i 0) j

def set (bytes : List UInt8) (i j : ℕ) (v : Bool) : List UInt8 :=
  bytes.modify i fun b => put b j v

@[simp]
theorem length_set (bytes : List UInt8) (i j : ℕ) (v : Bool) :
    (set bytes i j v).length = bytes.length :=
  List.length_modify _ _ _

theorem getD_set {bytes : List UInt8} {i : ℕ} (hi : i < bytes.length) (j : ℕ) (v : Bool) :
    (set bytes i j v).getD i 0 = put (bytes.getD i 0) j v := by
  rw [List.getD_eq_getElem?_getD, set, List.getElem?_modify_eq, List.getElem?_eq_getElem hi,
    List.getD_eq_getElem?_getD, List.getElem?_eq_getElem hi]
  rfl

theorem get_set_self {bytes : List UInt8} {i j : ℕ} (hi : i < bytes.length) (hj : j < 8)
    (v : Bool) : get (set bytes i j v) i j = v := by
  rw [get, getD_set hi, bit_put hj hj, if_pos rfl]

theorem get_set_of_ne {bytes : List UInt8} {i j i' j' : ℕ} (hi : i < bytes.length) (hj : j < 8)
    (hj' : j' < 8) (h : (i', j') ≠ (i, j)) (v : Bool) :
    get (set bytes i j v) i' j' = get bytes i' j' := by
  by_cases hbyte : i = i'
  · subst hbyte
    have hne : j' ≠ j := fun heq => h (by rw [heq])
    rw [get, get, getD_set hi, bit_put hj hj', if_neg hne]
  · rw [get, get, List.getD_eq_getElem?_getD, List.getD_eq_getElem?_getD, set,
      List.getElem?_modify_ne _ _ hbyte]

end BitString
