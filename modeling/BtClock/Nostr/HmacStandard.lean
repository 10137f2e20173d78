import BtClock.Hash.Hmac
import BtClock.Nostr.Nip44
import BtClock.Nostr.Sha256Standard

/-!
# HMAC and HKDF against their standards

The codes and the keys are those of the standards, over any function which gives the digests of
SHA-256.
-/

namespace BtClock

namespace Nostr

def hkdfExtract (salt ikm : List UInt8) : List UInt8 :=
  hmacSha256 salt ikm

/-- `nip44-v2` -/
def kNip44Salt : List UInt8 :=
  [0x6e, 0x69, 0x70, 0x34, 0x34, 0x2d, 0x76, 0x32]

def nip44ConversationKey (ecdhSharedX : List UInt8 → List UInt8 → Option (List UInt8))
    (seckey pub : List UInt8) : Option (List UInt8) :=
  (ecdhSharedX seckey pub).map fun sharedX => hkdfExtract kNip44Salt sharedX

/-- The function is SHA-256 on the messages which the standard is about. -/
def IsSha256 (hash : List UInt8 → List UInt8) : Prop :=
  ∀ m : Fips180.Message, hash m.bytes = Fips180.digest m

theorem isSha256_sha256 : IsSha256 sha256 :=
  fun m => sha256Final_chunks m [m.bytes] List.flatten_singleton

section

variable {hash : List UInt8 → List UInt8} (h : IsSha256 hash)

include h

/-- Two calls hash what one text would. -/
theorem sha256Final_pair {a b : List UInt8} (hlen : 8 * (a.length + b.length) < 2 ^ 64) :
    sha256Final (sha256Update (sha256Update sha256Init a) b) = hash (a ++ b) := by
  have hpair := sha256Final_chunks ⟨a ++ b, by rwa [List.length_append]⟩ [a, b] (by simp)
  rw [← h] at hpair
  exact hpair

theorem sha256_eq {a : List UInt8} (hlen : 8 * a.length < 2 ^ 64) : sha256 a = hash a := by
  rw [h ⟨a, hlen⟩, isSha256_sha256 ⟨a, hlen⟩]

theorem hmacKeyBlock_eq {key : List UInt8} (hkey : 8 * key.length < 2 ^ 64) :
    hmacKeyBlock key = Hmac.keyBlock hash 64 key := by
  rw [hmacKeyBlock, Hmac.keyBlock, sha256_eq h hkey]
  rfl

omit h in
theorem length_hmacKeyBlock (key : List UInt8) : (hmacKeyBlock key).length = 64 := by
  refine length_padTo ?_
  split_ifs with hlong
  · rw [sha256, length_sha256Final]
    decide
  · omega

/-- The code of RFC 2104. -/
theorem hmacSha256_eq {key msg : List UInt8} (hkey : 8 * key.length < 2 ^ 64)
    (hmsg : 8 * (64 + msg.length) < 2 ^ 64) :
    hmacSha256 key msg = Hmac.hmac hash 64 key msg := by
  have hblock := length_hmacKeyBlock key
  have hinner := sha256Final_pair h (a := (hmacKeyBlock key).map (· ^^^ 0x36)) (b := msg)
    (by rwa [List.length_map, hblock])
  rw [hmacSha256, Hmac.hmac, ← hmacKeyBlock_eq h hkey]
  rw [hinner]
  refine sha256Final_pair h ?_
  rw [List.length_map, hblock, ← hinner, length_sha256Final]
  decide

variable {prk info : List UInt8} (hprk : 8 * prk.length < 2 ^ 64)
  (hinfo : 8 * (97 + info.length) < 2 ^ 64)

include hprk hinfo

theorem hmacSha256_t (i : ℕ) :
    (Hkdf.t (Hmac.hmac hash 64) prk info i).length ≤ 32 ∧
      hmacSha256 prk (Hkdf.t (Hmac.hmac hash 64) prk info i ++ info ++ [UInt8.ofNat (i + 1)]) =
        Hkdf.t (Hmac.hmac hash 64) prk info (i + 1) := by
  have hstep (i : ℕ) (hlen : (Hkdf.t (Hmac.hmac hash 64) prk info i).length ≤ 32) :
      hmacSha256 prk (Hkdf.t (Hmac.hmac hash 64) prk info i ++ info ++ [UInt8.ofNat (i + 1)]) =
        Hkdf.t (Hmac.hmac hash 64) prk info (i + 1) := by
    refine hmacSha256_eq h hprk ?_
    simp only [List.length_append, List.length_singleton]
    omega
  have hlen : (Hkdf.t (Hmac.hmac hash 64) prk info i).length ≤ 32 := by
    induction i with
    | zero => exact Nat.zero_le 32
    | succ i ih =>
        rw [← hstep i ih]
        exact (length_hmacSha256 _ _).le
  exact ⟨hlen, hstep i hlen⟩

/-- The rounds from one block on give the blocks behind it. -/
theorem hkdfRounds_eq (n i : ℕ) :
    hkdfRounds prk info n (i + 1) (Hkdf.t (Hmac.hmac hash 64) prk info i) =
      (List.range' i n).flatMap fun j => Hkdf.t (Hmac.hmac hash 64) prk info (j + 1) := by
  induction n generalizing i with
  | zero => rfl
  | succ n ih =>
      rw [hkdfRounds, (hmacSha256_t h hprk hinfo i).2, ih, List.range'_succ, List.flatMap_cons]

/-- The key material of RFC 5869. -/
theorem hkdfExpand_eq (outLen : ℕ) :
    hkdfExpand prk info outLen = Hkdf.expand (Hmac.hmac hash 64) 32 prk info outLen := by
  rw [hkdfExpand, Hkdf.expand, Hkdf.blocks, List.range_eq_range',
    ← hkdfRounds_eq h hprk hinfo _ 0]
  split_ifs with hlong hle hle
  · omega
  · rfl
  · rfl
  · omega

end

theorem length_hkdfRounds (prk info : List UInt8) (n i : ℕ) (block : List UInt8) :
    (hkdfRounds prk info n i block).length = 32 * n := by
  induction n generalizing i block with
  | zero => rfl
  | succ n ih =>
      rw [hkdfRounds, List.length_append, length_hmacSha256, ih]
      omega

theorem length_of_hkdfExpand {prk info keys : List UInt8} {outLen : ℕ}
    (h : hkdfExpand prk info outLen = some keys) : keys.length = outLen := by
  rw [hkdfExpand] at h
  split_ifs at h
  obtain rfl := Option.some.inj h
  rw [List.length_take, length_hkdfRounds]
  omega

/-- The conversation key and the keys of a message are derived as the standards derive them,
over any function which is SHA-256 on the messages the standard is about. -/
theorem nip44Keys_standard {hash : List UInt8 → List UInt8} (h : IsSha256 hash)
    (ecdhSharedX : List UInt8 → List UInt8 → Option (List UInt8)) {seckey pub sharedX : List UInt8}
    (hshared : ecdhSharedX seckey pub = some sharedX) (hsharedLen : sharedX.length = 32)
    {nonce : List UInt8} (hnonce : nonce.length = 32) :
    ∃ conversationKey keys,
      nip44ConversationKey ecdhSharedX seckey pub = some conversationKey ∧
      conversationKey = Hkdf.extract (Hmac.hmac hash 64) kNip44Salt sharedX ∧
      Hkdf.expand (Hmac.hmac hash 64) 32 conversationKey nonce 76 = some keys ∧
      nip44MessageKeys conversationKey nonce =
        { chachaKey := keys.take 32
          chachaNonce := (keys.drop 32).take 12
          hmacKey := keys.drop 44 } := by
  have hextract : hkdfExtract kNip44Salt sharedX =
      Hkdf.extract (Hmac.hmac hash 64) kNip44Salt sharedX :=
    hmacSha256_eq h (by decide) (by rw [hsharedLen]; decide)
  have hlen : (hkdfExtract kNip44Salt sharedX).length = 32 := length_hmacSha256 _ _
  obtain ⟨keys, hkeys⟩ : ∃ keys, hkdfExpand (hkdfExtract kNip44Salt sharedX) nonce 76 = some keys :=
    ⟨_, if_neg (by decide)⟩
  have hlast : (keys.drop 44).take 32 = keys.drop 44 := by
    refine List.take_of_length_le ?_
    rw [List.length_drop, length_of_hkdfExpand hkeys]
  refine ⟨hkdfExtract kNip44Salt sharedX, keys, ?_, hextract, ?_, ?_⟩
  · rw [nip44ConversationKey, hshared, Option.map_some]
  · rw [← hkdfExpand_eq h (by rw [hlen]; decide) (by rw [hnonce]; decide), hkeys]
  · rw [nip44MessageKeys, hkeys, Option.getD_some, hlast]

/-- With the software of the device as the hash. -/
theorem nip44Keys_standard_sha256 :
    ∃ conversationKey keys,
      nip44ConversationKey (fun _ _ => some (List.replicate 32 1)) [] [] = some conversationKey ∧
      conversationKey = Hkdf.extract (Hmac.hmac sha256 64) kNip44Salt (List.replicate 32 1) ∧
      Hkdf.expand (Hmac.hmac sha256 64) 32 conversationKey (List.replicate 32 2) 76 = some keys ∧
      nip44MessageKeys conversationKey (List.replicate 32 2) =
        { chachaKey := keys.take 32
          chachaNonce := (keys.drop 32).take 12
          hmacKey := keys.drop 44 } :=
  nip44Keys_standard isSha256_sha256 _ rfl (by decide) (by decide)

end Nostr

end BtClock
