import Mathlib.Data.List.GetD
import Mathlib.Tactic.IntervalCases

/-!
# AES-256

The block cipher in software: the substitution, the shift of the rows and the mixing of the
columns, each with its inverse, and the fourteen rounds over them.
-/

namespace BtClock

namespace Nostr

namespace Aes

/-- The bytes of a state stand column by column. -/
abbrev Block := Vector UInt8 16

def kAesSbox : List UInt8 :=
  [0x63, 0x7c, 0x77, 0x7b, 0xf2, 0x6b, 0x6f, 0xc5, 0x30, 0x01, 0x67, 0x2b, 0xfe, 0xd7, 0xab, 0x76,
    0xca, 0x82, 0xc9, 0x7d, 0xfa, 0x59, 0x47, 0xf0, 0xad, 0xd4, 0xa2, 0xaf, 0x9c, 0xa4, 0x72,
    0xc0, 0xb7, 0xfd, 0x93, 0x26, 0x36, 0x3f, 0xf7, 0xcc, 0x34, 0xa5, 0xe5, 0xf1, 0x71, 0xd8,
    0x31, 0x15, 0x04, 0xc7, 0x23, 0xc3, 0x18, 0x96, 0x05, 0x9a, 0x07, 0x12, 0x80, 0xe2, 0xeb,
    0x27, 0xb2, 0x75, 0x09, 0x83, 0x2c, 0x1a, 0x1b, 0x6e, 0x5a, 0xa0, 0x52, 0x3b, 0xd6, 0xb3,
    0x29, 0xe3, 0x2f, 0x84, 0x53, 0xd1, 0x00, 0xed, 0x20, 0xfc, 0xb1, 0x5b, 0x6a, 0xcb, 0xbe,
    0x39, 0x4a, 0x4c, 0x58, 0xcf, 0xd0, 0xef, 0xaa, 0xfb, 0x43, 0x4d, 0x33, 0x85, 0x45, 0xf9,
    0x02, 0x7f, 0x50, 0x3c, 0x9f, 0xa8, 0x51, 0xa3, 0x40, 0x8f, 0x92, 0x9d, 0x38, 0xf5, 0xbc,
    0xb6, 0xda, 0x21, 0x10, 0xff, 0xf3, 0xd2, 0xcd, 0x0c, 0x13, 0xec, 0x5f, 0x97, 0x44, 0x17,
    0xc4, 0xa7, 0x7e, 0x3d, 0x64, 0x5d, 0x19, 0x73, 0x60, 0x81, 0x4f, 0xdc, 0x22, 0x2a, 0x90,
    0x88, 0x46, 0xee, 0xb8, 0x14, 0xde, 0x5e, 0x0b, 0xdb, 0xe0, 0x32, 0x3a, 0x0a, 0x49, 0x06,
    0x24, 0x5c, 0xc2, 0xd3, 0xac, 0x62, 0x91, 0x95, 0xe4, 0x79, 0xe7, 0xc8, 0x37, 0x6d, 0x8d,
    0xd5, 0x4e, 0xa9, 0x6c, 0x56, 0xf4, 0xea, 0x65, 0x7a, 0xae, 0x08, 0xba, 0x78, 0x25, 0x2e,
    0x1c, 0xa6, 0xb4, 0xc6, 0xe8, 0xdd, 0x74, 0x1f, 0x4b, 0xbd, 0x8b, 0x8a, 0x70, 0x3e, 0xb5,
    0x66, 0x48, 0x03, 0xf6, 0x0e, 0x61, 0x35, 0x57, 0xb9, 0x86, 0xc1, 0x1d, 0x9e, 0xe1, 0xf8,
    0x98, 0x11, 0x69, 0xd9, 0x8e, 0x94, 0x9b, 0x1e, 0x87, 0xe9, 0xce, 0x55, 0x28, 0xdf, 0x8c,
    0xa1, 0x89, 0x0d, 0xbf, 0xe6, 0x42, 0x68, 0x41, 0x99, 0x2d, 0x0f, 0xb0, 0x54, 0xbb, 0x16]

def kAesInvSbox : List UInt8 :=
  [0x52, 0x09, 0x6a, 0xd5, 0x30, 0x36, 0xa5, 0x38, 0xbf, 0x40, 0xa3, 0x9e, 0x81, 0xf3, 0xd7, 0xfb,
    0x7c, 0xe3, 0x39, 0x82, 0x9b, 0x2f, 0xff, 0x87, 0x34, 0x8e, 0x43, 0x44, 0xc4, 0xde, 0xe9,
    0xcb, 0x54, 0x7b, 0x94, 0x32, 0xa6, 0xc2, 0x23, 0x3d, 0xee, 0x4c, 0x95, 0x0b, 0x42, 0xfa,
    0xc3, 0x4e, 0x08, 0x2e, 0xa1, 0x66, 0x28, 0xd9, 0x24, 0xb2, 0x76, 0x5b, 0xa2, 0x49, 0x6d,
    0x8b, 0xd1, 0x25, 0x72, 0xf8, 0xf6, 0x64, 0x86, 0x68, 0x98, 0x16, 0xd4, 0xa4, 0x5c, 0xcc,
    0x5d, 0x65, 0xb6, 0x92, 0x6c, 0x70, 0x48, 0x50, 0xfd, 0xed, 0xb9, 0xda, 0x5e, 0x15, 0x46,
    0x57, 0xa7, 0x8d, 0x9d, 0x84, 0x90, 0xd8, 0xab, 0x00, 0x8c, 0xbc, 0xd3, 0x0a, 0xf7, 0xe4,
    0x58, 0x05, 0xb8, 0xb3, 0x45, 0x06, 0xd0, 0x2c, 0x1e, 0x8f, 0xca, 0x3f, 0x0f, 0x02, 0xc1,
    0xaf, 0xbd, 0x03, 0x01, 0x13, 0x8a, 0x6b, 0x3a, 0x91, 0x11, 0x41, 0x4f, 0x67, 0xdc, 0xea,
    0x97, 0xf2, 0xcf, 0xce, 0xf0, 0xb4, 0xe6, 0x73, 0x96, 0xac, 0x74, 0x22, 0xe7, 0xad, 0x35,
    0x85, 0xe2, 0xf9, 0x37, 0xe8, 0x1c, 0x75, 0xdf, 0x6e, 0x47, 0xf1, 0x1a, 0x71, 0x1d, 0x29,
    0xc5, 0x89, 0x6f, 0xb7, 0x62, 0x0e, 0xaa, 0x18, 0xbe, 0x1b, 0xfc, 0x56, 0x3e, 0x4b, 0xc6,
    0xd2, 0x79, 0x20, 0x9a, 0xdb, 0xc0, 0xfe, 0x78, 0xcd, 0x5a, 0xf4, 0x1f, 0xdd, 0xa8, 0x33,
    0x88, 0x07, 0xc7, 0x31, 0xb1, 0x12, 0x10, 0x59, 0x27, 0x80, 0xec, 0x5f, 0x60, 0x51, 0x7f,
    0xa9, 0x19, 0xb5, 0x4a, 0x0d, 0x2d, 0xe5, 0x7a, 0x9f, 0x93, 0xc9, 0x9c, 0xef, 0xa0, 0xe0,
    0x3b, 0x4d, 0xae, 0x2a, 0xf5, 0xb0, 0xc8, 0xeb, 0xbb, 0x3c, 0x83, 0x53, 0x99, 0x61, 0x17,
    0x2b, 0x04, 0x7e, 0xba, 0x77, 0xd6, 0x26, 0xe1, 0x69, 0x14, 0x63, 0x55, 0x21, 0x0c, 0x7d]

def kAesRcon : List UInt8 :=
  [0x00, 0x01, 0x02, 0x04, 0x08, 0x10, 0x20, 0x40]

def sbox (x : UInt8) : UInt8 :=
  kAesSbox.getD x.toNat 0

def invSbox (x : UInt8) : UInt8 :=
  kAesInvSbox.getD x.toNat 0

/-- The product with `x` in the field of 256 elements. -/
def xtime (x : UInt8) : UInt8 :=
  (x <<< 1) ^^^ (if x &&& 0x80 ≠ 0 then 0x1b else 0x00)

/-! ### The key schedule -/

/-- The four bytes of the schedule from `i` on. -/
def nextWord (roundKeys : List UInt8) (i : ℕ) : List UInt8 :=
  let t₀ := roundKeys.getD (i - 4) 0
  let t₁ := roundKeys.getD (i - 3) 0
  let t₂ := roundKeys.getD (i - 2) 0
  let t₃ := roundKeys.getD (i - 1) 0
  let temp :=
    if i % 32 = 0 then [sbox t₁ ^^^ kAesRcon.getD (i / 32) 0, sbox t₂, sbox t₃, sbox t₀]
    else if i % 32 = 16 then [sbox t₀, sbox t₁, sbox t₂, sbox t₃]
    else [t₀, t₁, t₂, t₃]
  List.zipWith (· ^^^ ·) ((roundKeys.drop (i - 32)).take 4) temp

def aesKeyExpansion (key : List UInt8) : List UInt8 :=
  (List.range 52).foldl (fun roundKeys n => roundKeys ++ nextWord roundKeys (32 + 4 * n))
    (key.take 32)

/-- The sixteen bytes of a byte string from a place on. -/
def blockAt (bytes : List UInt8) (i : ℕ) : Block :=
  Vector.ofFn fun k : Fin 16 => bytes.getD (i + k) 0

/-! ### The steps of a round -/

def mix (a b : Block) : Block :=
  Vector.zipWith (· ^^^ ·) a b

def aesAddRoundKey (roundKeys : List UInt8) (r : ℕ) (s : Block) : Block :=
  mix s (blockAt roundKeys (16 * r))

def aesSubBytes (s : Block) : Block :=
  s.map sbox

def aesInvSubBytes (s : Block) : Block :=
  s.map invSbox

def aesShiftRows (s : Block) : Block :=
  #v[s[0], s[5], s[10], s[15], s[4], s[9], s[14], s[3], s[8], s[13], s[2], s[7], s[12], s[1],
    s[6], s[11]]

def aesInvShiftRows (s : Block) : Block :=
  #v[s[0], s[13], s[10], s[7], s[4], s[1], s[14], s[11], s[8], s[5], s[2], s[15], s[12], s[9],
    s[6], s[3]]

structure Column where
  b₀ : UInt8
  b₁ : UInt8
  b₂ : UInt8
  b₃ : UInt8
  deriving DecidableEq, Repr

def mixColumn (a : Column) : Column :=
  let x := a.b₀ ^^^ a.b₁ ^^^ a.b₂ ^^^ a.b₃
  { b₀ := a.b₀ ^^^ x ^^^ xtime (a.b₀ ^^^ a.b₁)
    b₁ := a.b₁ ^^^ x ^^^ xtime (a.b₁ ^^^ a.b₂)
    b₂ := a.b₂ ^^^ x ^^^ xtime (a.b₂ ^^^ a.b₃)
    b₃ := a.b₃ ^^^ x ^^^ xtime (a.b₃ ^^^ a.b₀) }

/-- The loop over the bits of the second factor. -/
def aesGmulLoop : ℕ → UInt8 → UInt8 → UInt8 → UInt8
  | 0, r, _, _ => r
  | n + 1, r, a, b =>
      aesGmulLoop n (if b &&& 1 ≠ 0 then r ^^^ a else r) (xtime a) (b >>> 1)

def aesGmul (a b : UInt8) : UInt8 :=
  aesGmulLoop 8 0 a b

def invMixColumn (a : Column) : Column where
  b₀ := aesGmul a.b₀ 0x0e ^^^ aesGmul a.b₁ 0x0b ^^^ aesGmul a.b₂ 0x0d ^^^ aesGmul a.b₃ 0x09
  b₁ := aesGmul a.b₀ 0x09 ^^^ aesGmul a.b₁ 0x0e ^^^ aesGmul a.b₂ 0x0b ^^^ aesGmul a.b₃ 0x0d
  b₂ := aesGmul a.b₀ 0x0d ^^^ aesGmul a.b₁ 0x09 ^^^ aesGmul a.b₂ 0x0e ^^^ aesGmul a.b₃ 0x0b
  b₃ := aesGmul a.b₀ 0x0b ^^^ aesGmul a.b₁ 0x0d ^^^ aesGmul a.b₂ 0x09 ^^^ aesGmul a.b₃ 0x0e

/-- The four columns, each after `f`. -/
def mapColumns (f : Column → Column) (s : Block) : Block :=
  let c₀ := f ⟨s[0], s[1], s[2], s[3]⟩
  let c₁ := f ⟨s[4], s[5], s[6], s[7]⟩
  let c₂ := f ⟨s[8], s[9], s[10], s[11]⟩
  let c₃ := f ⟨s[12], s[13], s[14], s[15]⟩
  #v[c₀.b₀, c₀.b₁, c₀.b₂, c₀.b₃, c₁.b₀, c₁.b₁, c₁.b₂, c₁.b₃, c₂.b₀, c₂.b₁, c₂.b₂, c₂.b₃,
    c₃.b₀, c₃.b₁, c₃.b₂, c₃.b₃]

def aesMixColumns (s : Block) : Block :=
  mapColumns mixColumn s

def aesInvMixColumns (s : Block) : Block :=
  mapColumns invMixColumn s

/-! ### The cipher -/

def encryptRound (roundKeys : List UInt8) (s : Block) (r : ℕ) : Block :=
  aesAddRoundKey roundKeys r (aesMixColumns (aesShiftRows (aesSubBytes s)))

def decryptRound (roundKeys : List UInt8) (s : Block) (r : ℕ) : Block :=
  aesInvMixColumns (aesAddRoundKey roundKeys r (aesInvSubBytes (aesInvShiftRows s)))

def aes256EncryptBlock (roundKeys : List UInt8) (input : Block) : Block :=
  let s := aesAddRoundKey roundKeys 0 input
  let s := (List.range' 1 13).foldl (encryptRound roundKeys) s
  aesAddRoundKey roundKeys 14 (aesShiftRows (aesSubBytes s))

def aes256DecryptBlock (roundKeys : List UInt8) (input : Block) : Block :=
  let s := aesAddRoundKey roundKeys 14 input
  let s := (List.range' 1 13).reverse.foldl (decryptRound roundKeys) s
  aesAddRoundKey roundKeys 0 (aesInvSubBytes (aesInvShiftRows s))

/-! ### The inverses of the steps -/

theorem forall_byte {P : UInt8 → Prop} (h : ∀ n < 256, P (UInt8.ofNat n)) (x : UInt8) : P x := by
  have hx := h x.toNat x.toNat_lt
  rwa [UInt8.ofNat_toNat] at hx

theorem map_invSbox_kAesSbox : kAesSbox.map invSbox = (List.range 256).map UInt8.ofNat := by
  decide +kernel

theorem invSbox_sbox (x : UInt8) : invSbox (sbox x) = x := by
  have hlen : kAesSbox.length = 256 := by decide +kernel
  have hx : x.toNat < kAesSbox.length := by
    rw [hlen]
    exact x.toNat_lt
  have hget := congrArg (fun l => l[x.toNat]?) map_invSbox_kAesSbox
  simp only [List.getElem?_map, List.getElem?_eq_getElem hx, Option.map_some,
    List.getElem?_range x.toNat_lt, Option.some.injEq, UInt8.ofNat_toNat] at hget
  rw [sbox, List.getD_eq_getElem _ _ hx, hget]

theorem aesInvSubBytes_aesSubBytes (s : Block) : aesInvSubBytes (aesSubBytes s) = s := by
  have hmap : invSbox ∘ sbox = id := funext invSbox_sbox
  rw [aesInvSubBytes, aesSubBytes, Vector.map_map, hmap, Vector.map_id]

theorem aesInvShiftRows_aesShiftRows (s : Block) : aesInvShiftRows (aesShiftRows s) = s := by
  ext i hi
  interval_cases i <;> rfl

theorem mix_mix (a k : Block) : mix (mix a k) k = a := by
  ext i hi
  simp [mix, UInt8.xor_assoc]

theorem aesAddRoundKey_aesAddRoundKey (roundKeys : List UInt8) (r : ℕ) (s : Block) :
    aesAddRoundKey roundKeys r (aesAddRoundKey roundKeys r s) = s :=
  mix_mix s _

/-! The columns are mixed by a linear map, so that its inverse need be checked on the columns
with one byte only. -/

def Column.add (u v : Column) : Column where
  b₀ := u.b₀ ^^^ v.b₀
  b₁ := u.b₁ ^^^ v.b₁
  b₂ := u.b₂ ^^^ v.b₂
  b₃ := u.b₃ ^^^ v.b₃

theorem xor_and (x y m : UInt8) : (x ^^^ y) &&& m = (x &&& m) ^^^ (y &&& m) := by
  rw [← UInt8.toBitVec_inj]
  ext i hi
  simp [Bool.and_xor_distrib_right]

/-- The reduction of the highest bit. -/
theorem reduce_xor (x y : UInt8) :
    (if (x ^^^ y) &&& 0x80 ≠ 0 then 0x1b else 0x00 : UInt8) =
      (if x &&& 0x80 ≠ 0 then 0x1b else 0x00) ^^^ (if y &&& 0x80 ≠ 0 then 0x1b else 0x00) := by
  have hbit : ∀ x : UInt8, x &&& 0x80 = 0 ∨ x &&& 0x80 = 0x80 :=
    forall_byte (by decide +kernel)
  rw [xor_and]
  rcases hbit x with hx | hx <;> rcases hbit y with hy | hy <;> rw [hx, hy] <;> rfl

theorem xtime_xor (x y : UInt8) : xtime (x ^^^ y) = xtime x ^^^ xtime y := by
  simp only [xtime, reduce_xor, UInt8.shiftLeft_xor]
  ac_rfl

theorem aesGmulLoop_xor (n : ℕ) (r r' a a' b : UInt8) :
    aesGmulLoop n (r ^^^ r') (a ^^^ a') b = aesGmulLoop n r a b ^^^ aesGmulLoop n r' a' b := by
  induction n generalizing r r' a a' b with
  | zero => rfl
  | succ n ih =>
      simp only [aesGmulLoop, xtime_xor]
      split
      · rw [← ih]
        congr 1
        ac_rfl
      · rw [← ih]

theorem aesGmul_xor (a a' b : UInt8) : aesGmul (a ^^^ a') b = aesGmul a b ^^^ aesGmul a' b :=
  aesGmulLoop_xor 8 0 0 a a' b

theorem mixColumn_add (u v : Column) :
    mixColumn (u.add v) = (mixColumn u).add (mixColumn v) := by
  simp only [mixColumn, Column.add, xtime_xor, Column.mk.injEq]
  refine ⟨?_, ?_, ?_, ?_⟩ <;> ac_rfl

theorem invMixColumn_add (u v : Column) :
    invMixColumn (u.add v) = (invMixColumn u).add (invMixColumn v) := by
  simp only [invMixColumn, Column.add, aesGmul_xor, Column.mk.injEq]
  refine ⟨?_, ?_, ?_, ?_⟩ <;> ac_rfl

/-- A column is the sum of four columns with one byte. -/
theorem Column.eq_add (a : Column) :
    a = ((Column.mk a.b₀ 0 0 0).add ⟨0, a.b₁, 0, 0⟩).add
      ((Column.mk 0 0 a.b₂ 0).add ⟨0, 0, 0, a.b₃⟩) := by
  simp [Column.add]

/-! The four factors of the inverse, as sums of powers. -/

theorem aesGmul_nine (a : UInt8) : aesGmul a 0x09 = a ^^^ xtime (xtime (xtime a)) :=
  congrArg (· ^^^ xtime (xtime (xtime a))) (UInt8.zero_xor)

theorem aesGmul_eleven (a : UInt8) :
    aesGmul a 0x0b = a ^^^ xtime a ^^^ xtime (xtime (xtime a)) :=
  congrArg (· ^^^ xtime a ^^^ xtime (xtime (xtime a))) (UInt8.zero_xor)

theorem aesGmul_thirteen (a : UInt8) :
    aesGmul a 0x0d = a ^^^ xtime (xtime a) ^^^ xtime (xtime (xtime a)) :=
  congrArg (· ^^^ xtime (xtime a) ^^^ xtime (xtime (xtime a))) (UInt8.zero_xor)

theorem aesGmul_fourteen (a : UInt8) :
    aesGmul a 0x0e = xtime a ^^^ xtime (xtime a) ^^^ xtime (xtime (xtime a)) :=
  congrArg (· ^^^ xtime (xtime a) ^^^ xtime (xtime (xtime a))) (UInt8.zero_xor)

theorem xor_cancel_left (x y : UInt8) : x ^^^ (x ^^^ y) = y := by
  rw [← UInt8.xor_assoc, UInt8.xor_self, UInt8.zero_xor]

theorem xor_left_comm (x y z : UInt8) : x ^^^ (y ^^^ z) = y ^^^ (x ^^^ z) := by
  rw [← UInt8.xor_assoc, UInt8.xor_comm x, UInt8.xor_assoc]

theorem xtime_zero : xtime 0 = 0 :=
  rfl

theorem invMixColumn_mixColumn_single (x : UInt8) :
    invMixColumn (mixColumn ⟨x, 0, 0, 0⟩) = ⟨x, 0, 0, 0⟩ ∧
      invMixColumn (mixColumn ⟨0, x, 0, 0⟩) = ⟨0, x, 0, 0⟩ ∧
      invMixColumn (mixColumn ⟨0, 0, x, 0⟩) = ⟨0, 0, x, 0⟩ ∧
      invMixColumn (mixColumn ⟨0, 0, 0, x⟩) = ⟨0, 0, 0, x⟩ := by
  simp only [invMixColumn, mixColumn, aesGmul_nine, aesGmul_eleven, aesGmul_thirteen,
    aesGmul_fourteen, xtime_xor, xtime_zero, UInt8.xor_zero, UInt8.zero_xor, UInt8.xor_self,
    Column.mk.injEq]
  simp only [UInt8.xor_assoc, UInt8.xor_comm, xor_left_comm, xor_cancel_left, UInt8.xor_self,
    UInt8.xor_zero, and_self]

theorem invMixColumn_mixColumn (a : Column) : invMixColumn (mixColumn a) = a := by
  have h₀ := (invMixColumn_mixColumn_single a.b₀).1
  have h₁ := (invMixColumn_mixColumn_single a.b₁).2.1
  have h₂ := (invMixColumn_mixColumn_single a.b₂).2.2.1
  have h₃ := (invMixColumn_mixColumn_single a.b₃).2.2.2
  conv_lhs => rw [a.eq_add]
  simp only [mixColumn_add, invMixColumn_add, h₀, h₁, h₂, h₃]
  exact a.eq_add.symm

theorem mapColumns_mapColumns {f g : Column → Column} (hfg : ∀ a, g (f a) = a) (s : Block) :
    mapColumns g (mapColumns f s) = s := by
  ext i hi
  simp only [mapColumns, Vector.getElem_mk]
  interval_cases i <;> simp [hfg]

theorem aesInvMixColumns_aesMixColumns (s : Block) : aesInvMixColumns (aesMixColumns s) = s :=
  mapColumns_mapColumns invMixColumn_mixColumn s

/-! ### The inverse of the cipher -/

section

variable (roundKeys : List UInt8)

/-- The state as the decryption sees it before a round. -/
def substituted (s : Block) : Block :=
  aesShiftRows (aesSubBytes s)

theorem aesInv_substituted (s : Block) :
    aesInvSubBytes (aesInvShiftRows (substituted s)) = s := by
  rw [substituted, aesInvShiftRows_aesShiftRows, aesInvSubBytes_aesSubBytes]

theorem decryptRound_encryptRound (s : Block) (r : ℕ) :
    decryptRound roundKeys (substituted (encryptRound roundKeys s r)) r = substituted s := by
  rw [decryptRound, aesInv_substituted, encryptRound, aesAddRoundKey_aesAddRoundKey,
    aesInvMixColumns_aesMixColumns, substituted]

/-- The rounds are undone from the last one on. -/
theorem foldl_decryptRound_foldl_encryptRound (s : Block) (rounds : List ℕ) :
    rounds.reverse.foldl (decryptRound roundKeys)
        (substituted (rounds.foldl (encryptRound roundKeys) s)) = substituted s := by
  induction rounds generalizing s with
  | nil => rfl
  | cons r rounds ih =>
      rw [List.foldl_cons, List.reverse_cons, List.foldl_append, ih, List.foldl_cons,
        List.foldl_nil, decryptRound_encryptRound]

/-- Decryption undoes encryption of a block. -/
theorem aes256DecryptBlock_aes256EncryptBlock (input : Block) :
    aes256DecryptBlock roundKeys (aes256EncryptBlock roundKeys input) = input := by
  simp only [aes256DecryptBlock, aes256EncryptBlock, aesAddRoundKey_aesAddRoundKey]
  rw [← substituted, foldl_decryptRound_foldl_encryptRound, aesInv_substituted,
    aesAddRoundKey_aesAddRoundKey]

end

end Aes

end Nostr

end BtClock
