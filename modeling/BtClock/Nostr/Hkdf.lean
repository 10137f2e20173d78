import BtClock.Nostr.Sha256

/-!
# HMAC and HKDF over SHA-256
-/

namespace BtClock

namespace Nostr

/-- The key in a block of 64 bytes. -/
def hmacKeyBlock (key : List UInt8) : List UInt8 :=
  padTo 64 (if key.length > 64 then sha256 key else key)

def hmacSha256 (key msg : List UInt8) : List UInt8 :=
  let kBlock := hmacKeyBlock key
  let ipad := kBlock.map (· ^^^ 0x36)
  let opad := kBlock.map (· ^^^ 0x5c)
  let inner := sha256Final (sha256Update (sha256Update sha256Init ipad) msg)
  sha256Final (sha256Update (sha256Update sha256Init opad) inner)

/-- The rounds from `i` on, with the block before. -/
def hkdfRounds (prk info : List UInt8) : ℕ → ℕ → List UInt8 → List UInt8
  | 0, _, _ => []
  | n + 1, i, t =>
      let t := hmacSha256 prk (t ++ info ++ [UInt8.ofNat i])
      t ++ hkdfRounds prk info n (i + 1) t

/-- The first `outLen` bytes of the blocks; nothing where there are not enough of them. -/
def hkdfExpand (prk info : List UInt8) (outLen : ℕ) : Option (List UInt8) :=
  if outLen > 255 * 32 then none
  else some ((hkdfRounds prk info ((outLen + 31) / 32) 1 []).take outLen)

theorem length_sha256Final (c : Sha256Ctx) : (sha256Final c).length = 32 := by
  unfold sha256Final
  dsimp only
  split <;> rfl

theorem length_hmacSha256 (key msg : List UInt8) : (hmacSha256 key msg).length = 32 :=
  length_sha256Final _

end Nostr

end BtClock
