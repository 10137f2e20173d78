import BtClock.Coding.BigEndian
import BtClock.Nostr.EventVerify
import BtClock.Schnorr.EvenPoint

/-!
# The vendored curve library

The functions of `libsecp256k1` which the signer and the verifier call, over the curve they
compute with: a group of points with affine coordinates.  A field element and a scalar are
numbers below the field size and the group order.
-/

namespace BtClock

namespace Nostr

/-- The order of the group. -/
def kOrder : ℕ :=
  0xfffffffffffffffffffffffffffffffebaaedce6af48a03bbfd25e8cd0364141

/-- The size of the field. -/
def kField : ℕ :=
  0xfffffffffffffffffffffffffffffffffffffffffffffffffffffffefffffc2f

/-- The curve: its points under addition, with the coordinates of a finite point, and the
point of a given coordinate and parity. -/
structure Curve (G : Type) [AddCommGroup G] where
  g : G
  x : G → ℕ
  y : G → ℕ
  setXo : ℕ → Bool → Option G
  order_smul : kOrder • g = 0
  x_lt : ∀ P, x P < kField
  y_lt : ∀ P, P ≠ 0 → 0 < y P ∧ y P < kField
  x_neg : ∀ P, x (-P) = x P
  y_neg : ∀ P, P ≠ 0 → y (-P) = kField - y P
  setXo_eq_some : ∀ v odd P,
    setXo v odd = some P ↔ P ≠ 0 ∧ x P = v ∧ (y P % 2 == 1) = odd
  g_ne_zero : g ≠ 0
  x_g : x g = 0x79be667ef9dcbbac55a06295ce870b07029bfcdb2dce28d959f2815b16f81798
  y_g : y g = 0x483ada7726a3c4655da4fbfc0e1108a8fd17b448a68554199c47d08ffb10d4b8

/-- The tag of the hash of a challenge. -/
def kChallengeTag : List Char :=
  ['B', 'I', 'P', '0', '3', '4', '0', '/', 'c', 'h', 'a', 'l', 'l', 'e', 'n', 'g', 'e']

/-- BIP-340's hash of a message under a tag. -/
def taggedHash (tag : List Char) (msg : List UInt8) : List UInt8 :=
  let tagHash := sha256 (tag.map byteOfChar)
  sha256Final (sha256Update (sha256Update (sha256Update sha256Init tagHash) tagHash) msg)

/-! ### Scalars -/

/-- `secp256k1_scalar_set_b32_seckey`: the scalar, unless it is zero or too large. -/
def scalarSetB32Seckey (bytes : List UInt8) : Option ℕ :=
  let v := BigEndian.toNat bytes
  if 0 < v ∧ v < kOrder then some v else none

def ecSeckeyVerify (seckey : List UInt8) : Bool :=
  (scalarSetB32Seckey seckey).isSome

def ecSeckeyNegate (seckey : List UInt8) : Option (List UInt8) := do
  let sec ← scalarSetB32Seckey seckey
  return BigEndian.ofNat 32 ((kOrder - sec) % kOrder)

def ecSeckeyTweakAdd (seckey tweak : List UInt8) : Option (List UInt8) := do
  let sec ← scalarSetB32Seckey seckey
  let term := BigEndian.toNat tweak
  if kOrder ≤ term then none
  else if (sec + term) % kOrder = 0 then none
  else some (BigEndian.ofNat 32 ((sec + term) % kOrder))

def ecSeckeyTweakMul (seckey tweak : List UInt8) : Option (List UInt8) := do
  let sec ← scalarSetB32Seckey seckey
  let factor := BigEndian.toNat tweak
  if kOrder ≤ factor ∨ factor = 0 then none
  else some (BigEndian.ofNat 32 (sec * factor % kOrder))

/-- The field element of some bytes, unless it is too large. -/
def feSetB32Limit (bytes : List UInt8) : Option ℕ :=
  if BigEndian.toNat bytes < kField then some (BigEndian.toNat bytes) else none

namespace Curve

variable {G : Type} [AddCommGroup G] (C : Curve G)

def odd (P : G) : Bool :=
  C.y P % 2 == 1

/-! ### Public keys -/

/-- The branch of `secp256k1_ec_pubkey_parse` for compressed points. -/
def ecPubkeyParse : List UInt8 → Option G
  | tag :: bytes =>
      if bytes.length = 32 ∧ (tag = 0x02 ∨ tag = 0x03) then do
        let v ← feSetB32Limit bytes
        C.setXo v (tag == 0x03)
      else none
  | [] => none

/-- `secp256k1_ecmult`: the sum of a multiple of a point and one of the generator. -/
def ecmult (P : G) (na ng : ℕ) : G :=
  na • P + ng • C.g

def ecPubkeyTweakMul (P : G) (tweak : List UInt8) : Option G :=
  let factor := BigEndian.toNat tweak
  if kOrder ≤ factor ∨ factor = 0 then none else some (C.ecmult P factor 0)

section DecidableEq

variable [DecidableEq G]

/-- The uncompressed form; the point at infinity has none. -/
def ecPubkeySerialize (P : G) : Option (List UInt8) :=
  if P = 0 then none
  else some (0x04 :: BigEndian.ofNat 32 (C.x P) ++ BigEndian.ofNat 32 (C.y P))

/-! ### Signatures -/

/-- The even point of a coordinate, kept as the bytes of its coordinates. -/
def xonlyPubkeyParse (input : List UInt8) : Option (List UInt8) := do
  let v ← feSetB32Limit input
  let P ← C.setXo v false
  return BigEndian.ofNat 32 (C.x P) ++ BigEndian.ofNat 32 (C.y P)

def xonlyPubkeyLoad (record : List UInt8) : Option G :=
  C.setXo (BigEndian.toNat (record.take 32)) (BigEndian.toNat (record.drop 32) % 2 == 1)

/-- `secp256k1_schnorrsig_challenge`, which feeds the hash in pieces. -/
def schnorrsigChallenge (r msg pubkey : List UInt8) : ℕ :=
  let tagHash := sha256 (kChallengeTag.map byteOfChar)
  let tagged := sha256Update (sha256Update sha256Init tagHash) tagHash
  BigEndian.toNat
    (sha256Final (sha256Update (sha256Update (sha256Update tagged r) pubkey) msg)) % kOrder

def schnorrsigVerify (sig msg record : List UInt8) : Bool :=
  match feSetB32Limit (sig.take 32) with
  | none => false
  | some rx =>
      let s := BigEndian.toNat (sig.drop 32)
      if kOrder ≤ s then false
      else
        match C.xonlyPubkeyLoad record with
        | none => false
        | some pk =>
            let e := schnorrsigChallenge (sig.take 32) msg (BigEndian.ofNat 32 (C.x pk))
            let R := C.ecmult pk ((kOrder - e) % kOrder) s
            if R = 0 then false else !C.odd R && C.x R == rx

/-- The functions which the verifier of the events calls. -/
def secp256k1 : Secp256k1 where
  xonlyPubkeyParse := C.xonlyPubkeyParse
  schnorrsigVerify := C.schnorrsigVerify

end DecidableEq

end Curve

end Nostr

end BtClock
