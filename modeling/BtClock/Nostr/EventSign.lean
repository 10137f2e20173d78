import BtClock.Nostr.Secp256k1

/-!
# The signer

BIP-340 signatures without the table of the generator's multiples: a multiple of the
generator is computed as a multiple of a parsed public key, and the scalars with the
functions for tweaked secret keys.
-/

namespace BtClock

namespace Nostr

/-- The generator in compressed form. -/
def kGCompressed : List UInt8 :=
  [0x02, 0x79, 0xbe, 0x66, 0x7e, 0xf9, 0xdc, 0xbb, 0xac, 0x55, 0xa0, 0x62, 0x95, 0xce, 0x87,
    0x0b, 0x07, 0x02, 0x9b, 0xfc, 0xdb, 0x2d, 0xce, 0x28, 0xd9, 0x59, 0xf2, 0x81, 0x5b, 0x16,
    0xf8, 0x17, 0x98]

/-- The order of the group. -/
def kN : List UInt8 :=
  [0xff, 0xff, 0xff, 0xff, 0xff, 0xff, 0xff, 0xff, 0xff, 0xff, 0xff, 0xff, 0xff, 0xff, 0xff,
    0xfe, 0xba, 0xae, 0xdc, 0xe6, 0xaf, 0x48, 0xa0, 0x3b, 0xbf, 0xd2, 0x5e, 0x8c, 0xd0, 0x36,
    0x41, 0x41]

def kAuxTag : List Char :=
  ['B', 'I', 'P', '0', '3', '4', '0', '/', 'a', 'u', 'x']

def kNonceTag : List Char :=
  ['B', 'I', 'P', '0', '3', '4', '0', '/', 'n', 'o', 'n', 'c', 'e']

/-- Why nothing is signed. -/
inductive EventSignError
  | badSeckey
  | signFailed
  deriving DecidableEq, Repr

/-! ### Numbers as arrays of bytes -/

/-- Is the first number at least the second? -/
def ge256 : List UInt8 → List UInt8 → Bool
  | a :: as, b :: bs => if a ≠ b then decide (a > b) else ge256 as bs
  | _, _ => true

/-- The loop of `Sub256`, which starts at the last byte. -/
def sub256Loop : ℕ → List UInt8 → List UInt8 → List UInt8
  | borrow, a :: as, b :: bs =>
      if a.toNat < b.toNat + borrow then
        UInt8.ofNat (a.toNat + 256 - (b.toNat + borrow)) :: sub256Loop 1 as bs
      else UInt8.ofNat (a.toNat - (b.toNat + borrow)) :: sub256Loop 0 as bs
  | _, _, _ => []

def sub256 (a b : List UInt8) : List UInt8 :=
  (sub256Loop 0 a.reverse b.reverse).reverse

def isZero32 (a : List UInt8) : Bool :=
  a.foldl (· ||| ·) 0 == 0

/-- The number modulo the order, nothing where that is zero. -/
def reduceModN (a : List UInt8) : Option (List UInt8) :=
  let a := if ge256 a kN then sub256 a kN else a
  if isZero32 a then none else some a

/-! ### Signing -/

section Sign

variable {G : Type} [AddCommGroup G] [DecidableEq G] (C : Curve G)

/-- The coordinate of a multiple of the generator, and whether its point is odd. -/
def scalarMulG (scalar : List UInt8) : Option (List UInt8 × Bool) := do
  let P ← C.ecPubkeyParse kGCompressed
  let P ← C.ecPubkeyTweakMul P scalar
  let ser ← C.ecPubkeySerialize P
  return ((ser.drop 1).take 32, ser.getD 64 0 &&& 1 != 0)

def derivePubkeyXOnly (seckey : List UInt8) : Except EventSignError (List UInt8) :=
  if ecSeckeyVerify seckey = false then .error .badSeckey
  else
    match scalarMulG C seckey with
    | none => .error .badSeckey
    | some (x, _) => .ok x

/-- A scalar negated where its point is odd. -/
def negateIf (odd : Bool) (scalar : List UInt8) : Option (List UInt8) :=
  if odd then ecSeckeyNegate scalar else some scalar

def schnorrSign (seckey msg aux : List UInt8) : Except EventSignError (List UInt8) := do
  if ecSeckeyVerify seckey = false then throw .badSeckey
  let (px, pOdd) ← (scalarMulG C seckey).elim (throw .badSeckey) pure
  let d ← (negateIf pOdd seckey).elim (throw .badSeckey) pure
  let auxHash := taggedHash kAuxTag aux
  let t := List.zipWith (· ^^^ ·) d auxHash
  let rand := taggedHash kNonceTag (t ++ px ++ msg)
  let k ← (reduceModN rand).elim (throw .signFailed) pure
  let (rx, rOdd) ← (scalarMulG C k).elim (throw .signFailed) pure
  let k ← (negateIf rOdd k).elim (throw .signFailed) pure
  let e ← (reduceModN (taggedHash kChallengeTag (rx ++ px ++ msg))).elim
    (throw .signFailed) pure
  let ed ← (ecSeckeyTweakMul e d).elim (throw .signFailed) pure
  let s ← (ecSeckeyTweakAdd k ed).elim (throw .signFailed) pure
  return rx ++ s

def hexChar (n : ℕ) : Char :=
  if n < 10 then Char.ofNat ('0'.toNat + n) else Char.ofNat ('a'.toNat + (n - 10))

def hexLowercase (bytes : List UInt8) : String :=
  String.ofList (bytes.flatMap fun b => [hexChar (b.toNat / 16), hexChar (b.toNat % 16)])

/-- The hash of the canonical form. -/
def eventId (ev : Event) : List UInt8 :=
  sha256 ((serializeCanonical ev).map byteOfChar)

/-- Fills in the public key, the id and the signature, as far as it gets. -/
def signEvent (seckey aux : List UInt8) (ev : Event) : Except EventSignError Unit × Event :=
  match derivePubkeyXOnly C seckey with
  | .error err => (.error err, ev)
  | .ok pk =>
      let ev := { ev with pubkey := hexLowercase pk }
      let id := eventId ev
      let ev := { ev with id := hexLowercase id }
      match schnorrSign C seckey id aux with
      | .error err => (.error err, ev)
      | .ok sig => (.ok (), { ev with sig := hexLowercase sig })

end Sign

end Nostr

end BtClock
