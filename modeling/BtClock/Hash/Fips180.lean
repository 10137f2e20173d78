import BtClock.Coding.BigEndian
import BtClock.Hash.Blocks
import Mathlib.Data.Nat.NthRoot.Defs
import Mathlib.Data.Nat.Prime.Defs

/-!
# The secure hash standard, for 256 bits

The constants are those the standard derives them as: the fractional parts of the square and
cube roots of the first primes. A message is padded to whole blocks of 64 bytes, which the
compression function takes one after the other.
-/

namespace Fips180

/-! ### The functions on words -/

def rotr (n : UInt32) (x : UInt32) : UInt32 :=
  (x >>> n) ||| (x <<< (32 - n))

def shr (n : UInt32) (x : UInt32) : UInt32 :=
  x >>> n

def ch (x y z : UInt32) : UInt32 :=
  (x &&& y) ^^^ (~~~x &&& z)

def maj (x y z : UInt32) : UInt32 :=
  (x &&& y) ^^^ (x &&& z) ^^^ (y &&& z)

/-- The capital sigmas. -/
def bigSigma₀ (x : UInt32) : UInt32 :=
  rotr 2 x ^^^ rotr 13 x ^^^ rotr 22 x

def bigSigma₁ (x : UInt32) : UInt32 :=
  rotr 6 x ^^^ rotr 11 x ^^^ rotr 25 x

def sigma₀ (x : UInt32) : UInt32 :=
  rotr 7 x ^^^ rotr 18 x ^^^ shr 3 x

def sigma₁ (x : UInt32) : UInt32 :=
  rotr 17 x ^^^ rotr 19 x ^^^ shr 10 x

/-! ### The constants -/

/-- The first 64 primes. -/
def firstPrimes : List ℕ :=
  (List.range 312).filter Nat.Prime

/-- The first 32 bits of the fractional part of the `n`-th root of `p`. -/
def fractionBits (n p : ℕ) : UInt32 :=
  UInt32.ofNat (Nat.nthRoot n (p * 2 ^ (32 * n)))

def roundConstants : List UInt32 :=
  firstPrimes.map (fractionBits 3)

theorem prime_iff_of_lt {p : ℕ} (hp : p < 324) :
    p.Prime ↔ 2 ≤ p ∧ ∀ d ∈ List.range 18, 2 ≤ d ∧ d < p → ¬d ∣ p := by
  constructor
  · intro hprime
    refine ⟨hprime.two_le, ?_⟩
    intro d _ hbounds hdvd
    rcases hprime.eq_one_or_self_of_dvd d hdvd with h | h
    · omega
    · omega
  · rintro ⟨htwo, hno⟩
    rw [Nat.prime_def_le_sqrt]
    refine ⟨htwo, ?_⟩
    intro d hd hsqrt
    have hroot : Nat.sqrt p < 18 := Nat.sqrt_lt'.mpr hp
    have hself : Nat.sqrt p < p := Nat.sqrt_lt_self htwo
    exact hno d (List.mem_range.mpr (by omega)) ⟨hd, by omega⟩

theorem firstPrimes_eq : firstPrimes =
    [2, 3, 5, 7, 11, 13, 17, 19, 23, 29, 31, 37, 41, 43, 47, 53, 59, 61, 67, 71, 73, 79, 83,
      89, 97, 101, 103, 107, 109, 113, 127, 131, 137, 139, 149, 151, 157, 163, 167, 173, 179,
      181, 191, 193, 197, 199, 211, 223, 227, 229, 233, 239, 241, 251, 257, 263, 269, 271,
      277, 281, 283, 293, 307, 311] := by
  have htrial : ∀ p ∈ List.range 312, decide p.Prime =
      decide (2 ≤ p ∧ ∀ d ∈ List.range 18, 2 ≤ d ∧ d < p → ¬d ∣ p) := by
    intro p hp
    have hlt := List.mem_range.mp hp
    exact decide_eq_decide.mpr (prime_iff_of_lt (by omega))
  rw [firstPrimes, List.filter_congr htrial]
  decide +kernel

/-! ### The compression -/

/-- The working variables. -/
structure Work where
  a : UInt32
  b : UInt32
  c : UInt32
  d : UInt32
  e : UInt32
  f : UInt32
  g : UInt32
  h : UInt32
  deriving DecidableEq, Repr

def Work.add (x y : Work) : Work :=
  { a := x.a + y.a, b := x.b + y.b, c := x.c + y.c, d := x.d + y.d,
    e := x.e + y.e, f := x.f + y.f, g := x.g + y.g, h := x.h + y.h }

theorem Work.add_comm (x y : Work) : x.add y = y.add x := by
  simp only [Work.add, UInt32.add_comm]

def Work.words (x : Work) : List UInt32 :=
  [x.a, x.b, x.c, x.d, x.e, x.f, x.g, x.h]

/-- The initial hash value, from the square roots of the first eight primes. -/
def initial : Work where
  a := fractionBits 2 2
  b := fractionBits 2 3
  c := fractionBits 2 5
  d := fractionBits 2 7
  e := fractionBits 2 11
  f := fractionBits 2 13
  g := fractionBits 2 17
  h := fractionBits 2 19

/-- The `t`-th word of a block. -/
def wordAt (block : List UInt8) (t : ℕ) : UInt32 :=
  UInt32.ofNat (BigEndian.toNat ((block.drop (4 * t)).take 4))

/-- The message schedule of the words `m`. -/
def schedule (m : ℕ → UInt32) (t : ℕ) : UInt32 :=
  if t < 16 then m t
  else
    sigma₁ (schedule m (t - 2)) + schedule m (t - 7) + sigma₀ (schedule m (t - 15)) +
      schedule m (t - 16)
termination_by t

theorem schedule_of_lt (m : ℕ → UInt32) {t : ℕ} (h : t < 16) : schedule m t = m t := by
  rw [schedule, if_pos h]

theorem schedule_of_le (m : ℕ → UInt32) {t : ℕ} (h : 16 ≤ t) :
    schedule m t = sigma₁ (schedule m (t - 2)) + schedule m (t - 7) +
      sigma₀ (schedule m (t - 15)) + schedule m (t - 16) := by
  rw [schedule, if_neg (by omega)]

/-- One round, with the word and the constant of that round. -/
def round (x : Work) (k w : UInt32) : Work :=
  let t₁ := x.h + bigSigma₁ x.e + ch x.e x.f x.g + k + w
  let t₂ := bigSigma₀ x.a + maj x.a x.b x.c
  { a := t₁ + t₂, b := x.a, c := x.b, d := x.c, e := x.d + t₁, f := x.e, g := x.f, h := x.g }

def compress (x : Work) (block : List UInt8) : Work :=
  ((List.range 64).foldl
    (fun y t => round y (roundConstants.getD t 0) (schedule (wordAt block) t)) x).add x

/-! ### The padding and the digest -/

/-- A message: its length in bits fits 64 bits. -/
structure Message where
  bytes : List UInt8
  length_lt : 8 * bytes.length < 2 ^ 64

/-- The smallest number of zero bits which brings the length with the closing bit to 448
modulo 512. -/
def zeroBits (bits : ℕ) : ℕ :=
  (959 - bits % 512) % 512

/-- The zeros are the fewest which fill the last block up to the length. -/
theorem zeroBits_spec (bits : ℕ) :
    (bits + 1 + zeroBits bits) % 512 = 448 ∧
      ∀ k, (bits + 1 + k) % 512 = 448 → zeroBits bits ≤ k := by
  unfold zeroBits
  constructor
  · omega
  · intro k hk
    omega

/-- The zeros after the byte of the closing bit, which takes seven of them. -/
def zeroBytes (length : ℕ) : ℕ :=
  (zeroBits (8 * length) - 7) / 8

/-- The padding ends in the block the message ends in, or in the next one. -/
theorem zeroBytes_spec (length : ℕ) :
    length % 64 + 1 + zeroBytes length = 56 ∨
      56 < length % 64 + 1 ∧ length % 64 + 1 + zeroBytes length = 120 := by
  obtain ⟨hmod, hleast⟩ := zeroBits_spec (8 * length)
  have hlt : zeroBits (8 * length) < 512 := by
    by_contra hge
    have hless := hleast (zeroBits (8 * length) - 512) (by omega)
    omega
  unfold zeroBytes
  omega

/-- The closing bit and the zeros, then the length in bits. -/
def paddingOf (length : ℕ) : List UInt8 :=
  0x80 :: List.replicate (zeroBytes length) 0 ++ BigEndian.ofNat 8 (8 * length)

def digestWords (m : Message) : Work :=
  (BlockHash.parse 64 (m.bytes ++ paddingOf m.bytes.length)).foldl compress initial

def digest (m : Message) : List UInt8 :=
  (digestWords m).words.flatMap fun w => BigEndian.ofNat 4 w.toNat

end Fips180
