import BtClock.Cipher.Stream
import Mathlib.Logic.Function.Iterate

/-!
# ChaCha20

The stream cipher of the payloads, with a block counter which starts at zero.
-/

namespace BtClock

namespace Nostr

abbrev ChaChaState := Vector UInt32 16

def kChaChaConst : List UInt32 :=
  [0x61707865, 0x3320646e, 0x79622d32, 0x6b206574]

def chaChaRotl (x : UInt32) (n : UInt32) : UInt32 :=
  (x <<< n) ||| (x >>> (32 - n))

def chaChaQuarterRound (s : ChaChaState) (i j k l : Fin 16) : ChaChaState :=
  let a := s[i]
  let b := s[j]
  let c := s[k]
  let d := s[l]
  let a := a + b
  let d := chaChaRotl (d ^^^ a) 16
  let c := c + d
  let b := chaChaRotl (b ^^^ c) 12
  let a := a + b
  let d := chaChaRotl (d ^^^ a) 8
  let c := c + d
  let b := chaChaRotl (b ^^^ c) 7
  (((s.set i a).set j b).set k c).set l d

/-- The four words of a quarter round, for the columns first and the diagonals then. -/
def quarters : List (Fin 16 × Fin 16 × Fin 16 × Fin 16) :=
  [(0, 4, 8, 12), (1, 5, 9, 13), (2, 6, 10, 14), (3, 7, 11, 15),
    (0, 5, 10, 15), (1, 6, 11, 12), (2, 7, 8, 13), (3, 4, 9, 14)]

def chaChaDoubleRound (s : ChaChaState) : ChaChaState :=
  quarters.foldl (fun s q => chaChaQuarterRound s q.1 q.2.1 q.2.2.1 q.2.2.2) s

/-- The bytes of a word, the lowest first. -/
def bytesLe (v : UInt32) : List UInt8 :=
  [v.toUInt8, (v >>> 8).toUInt8, (v >>> 16).toUInt8, (v >>> 24).toUInt8]

def chaChaBlock (state : ChaChaState) : List UInt8 :=
  let s := chaChaDoubleRound^[10] state
  (List.finRange 16).flatMap fun i => bytesLe (s[i] + state[i])

/-- The word at a place of a byte string. -/
def chaChaLoad32Le (p : List UInt8) (i : ℕ) : UInt32 :=
  (p.getD i 0).toUInt32 ||| (p.getD (i + 1) 0).toUInt32 <<< 8 |||
    (p.getD (i + 2) 0).toUInt32 <<< 16 ||| (p.getD (i + 3) 0).toUInt32 <<< 24

def chaChaInit (key nonce : List UInt8) : ChaChaState :=
  Vector.ofFn fun i : Fin 16 =>
    if i.val < 4 then kChaChaConst.getD i 0
    else if i.val < 12 then chaChaLoad32Le key (4 * (i - 4))
    else if i.val = 12 then 0
    else chaChaLoad32Le nonce (4 * (i - 13))

/-- The word of the block counter. -/
def counterWord : Fin 16 := 12

def chaChaNext (state : ChaChaState) : ChaChaState :=
  state.set counterWord (state[counterWord] + 1)

def chaCha20 (key nonce input : List UInt8) : List UInt8 :=
  StreamCipher.combine (· ^^^ ·) chaChaBlock chaChaNext 64 input.length
    (chaChaInit key nonce) input

theorem length_chaChaBlock (state : ChaChaState) : (chaChaBlock state).length = 64 := by
  simp [chaChaBlock, bytesLe]

theorem length_chaCha20 (key nonce input : List UInt8) :
    (chaCha20 key nonce input).length = input.length :=
  StreamCipher.length_combine _ _ length_chaChaBlock (by decide) (Nat.le_refl _) _

/-- The cipher is its own inverse. -/
theorem chaCha20_chaCha20 (key nonce input : List UInt8) :
    chaCha20 key nonce (chaCha20 key nonce input) = input := by
  have hxor : ∀ a k : UInt8, a ^^^ k ^^^ k = a := by
    intro a k
    rw [UInt8.xor_assoc, UInt8.xor_self, UInt8.xor_zero]
  have hlen := length_chaCha20 key nonce input
  unfold chaCha20 at hlen ⊢
  rw [hlen]
  exact StreamCipher.combine_combine _ _ length_chaChaBlock (by decide) hxor (Nat.le_refl _) _

end Nostr

end BtClock
