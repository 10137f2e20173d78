import Mathlib.Data.Nat.Notation

/-!
# Keyed hashing and key derivation

The authentication code of a text under a key, over a hash with blocks of `width` bytes, and the
derivation of key material from it.
-/

namespace Hmac

variable (hash : List UInt8 → List UInt8) (width : ℕ)

/-- A key which is too long is hashed first, and zeros fill the block. -/
def keyBlock (key : List UInt8) : List UInt8 :=
  let key := if width < key.length then hash key else key
  key ++ List.replicate (width - key.length) 0

def hmac (key text : List UInt8) : List UInt8 :=
  let block := keyBlock hash width key
  hash (block.map (· ^^^ 0x5c) ++ hash (block.map (· ^^^ 0x36) ++ text))

end Hmac

namespace Hkdf

variable (hmac : List UInt8 → List UInt8 → List UInt8) (hashLen : ℕ)

def extract (salt ikm : List UInt8) : List UInt8 :=
  hmac salt ikm

/-- The blocks `T(0)`, `T(1)` and so on. -/
def t (prk info : List UInt8) : ℕ → List UInt8
  | 0 => []
  | i + 1 => hmac prk (t prk info i ++ info ++ [UInt8.ofNat (i + 1)])

/-- `T(1)` up to `T(n)`. -/
def blocks (prk info : List UInt8) (n : ℕ) : List UInt8 :=
  (List.range n).flatMap fun i => t hmac prk info (i + 1)

/-- The first `length` bytes of the least number of blocks which hold them. -/
def expand (prk info : List UInt8) (length : ℕ) : Option (List UInt8) :=
  if length ≤ 255 * hashLen then
    some ((blocks hmac prk info ((length + hashLen - 1) / hashLen)).take length)
  else none

end Hkdf
