import BtClock.Nostr.ChaCha20
import BtClock.Nostr.Hkdf
import BtClock.Nostr.PayloadText
import Mathlib.Algebra.Order.Group.Nat
import Mathlib.Algebra.Order.Ring.Nat

/-!
# The payloads of NIP-44

A plaintext is padded, encrypted and authenticated, and written in base64.  What was encrypted
is decrypted again, and every length stays inside the bounds of the decryptor.
-/

namespace BtClock

namespace Nostr

inductive Nip4xError
  | badKey
  | badPayload
  | unknownVersion
  | macMismatch
  | badPadding
  | plaintextRange
  deriving DecidableEq, Repr

/-- The bytes are compared to the end. -/
def constantTimeEqualBytes (a b : List UInt8) (n : ℕ) : Bool :=
  Bits.gather (fun i => ((a.getD i 0) ^^^ (b.getD i 0)).toNat) 0 (List.range n) = 0

/-- The turns of the loop which halves a number down to one. -/
def halvings (n : ℕ) : ℕ :=
  if 1 < n then halvings (n >>> 1) + 1 else 0
termination_by n
decreasing_by
  rw [Nat.shiftRight_eq_div_pow]
  omega

def nip44CalcPaddedLen (unpaddedLen : ℕ) : ℕ :=
  if unpaddedLen ≤ 32 then 32
  else
    let nextPower := 1 <<< (halvings (unpaddedLen - 1) + 1)
    let chunk := if nextPower ≤ 256 then 32 else nextPower / 8
    chunk * ((unpaddedLen - 1) / chunk + 1)

structure MessageKeys where
  chachaKey : List UInt8
  chachaNonce : List UInt8
  hmacKey : List UInt8
  deriving DecidableEq, Repr

def nip44MessageKeys (conversationKey nonce : List UInt8) : MessageKeys :=
  let keys := (hkdfExpand conversationKey nonce 76).getD []
  { chachaKey := keys.take 32
    chachaNonce := (keys.drop 32).take 12
    hmacKey := (keys.drop 44).take 32 }

/-- The length in two bytes, the plaintext and the zeros. -/
def nip44Pad (plaintext : List UInt8) : List UInt8 :=
  let n := plaintext.length
  padTo (2 + nip44CalcPaddedLen n)
    (UInt8.ofNat (n >>> 8 &&& 0xff) :: UInt8.ofNat (n &&& 0xff) :: plaintext)

/-- The version, the nonce, the ciphertext and the authentication code. -/
def nip44Raw (conversationKey nonce plaintext : List UInt8) : List UInt8 :=
  let keys := nip44MessageKeys conversationKey nonce
  let ciphertext := chaCha20 keys.chachaKey keys.chachaNonce (nip44Pad plaintext)
  let mac := hmacSha256 keys.hmacKey (nonce ++ ciphertext)
  0x02 :: nonce ++ ciphertext ++ mac

/-- The payload; empty for a plaintext out of range. -/
def nip44EncryptV2 (conversationKey nonce plaintext : List UInt8) : String :=
  if plaintext.length < 1 ∨ plaintext.length > 65535 then ""
  else String.ofList (base64Encode (nip44Raw conversationKey nonce plaintext))

def nip44Unpad (padded : List UInt8) : Except Nip4xError (List UInt8) :=
  let plaintextLen := (padded.getD 0 0).toNat <<< 8 ||| (padded.getD 1 0).toNat
  if padded.length < 2 then .error .badPadding
  else if plaintextLen = 0 ∨ plaintextLen > 65535 then .error .badPadding
  else if padded.length ≠ 2 + nip44CalcPaddedLen plaintextLen then .error .badPadding
  else if 2 + plaintextLen > padded.length then .error .badPadding
  else .ok ((padded.drop 2).take plaintextLen)

/-- The raw payload, once it is decoded. -/
def nip44Open (conversationKey raw : List UInt8) : Except Nip4xError (List UInt8) :=
  if raw.length < 99 ∨ raw.length > 65603 then .error .badPayload
  else if raw.getD 0 0 ≠ 0x02 then .error .unknownVersion
  else
    let ctLen := raw.length - 1 - 32 - 32
    let nonce := (raw.drop 1).take 32
    let ciphertext := (raw.drop 33).take ctLen
    let mac := (raw.drop (33 + ctLen)).take 32
    let keys := nip44MessageKeys conversationKey nonce
    if constantTimeEqualBytes mac (hmacSha256 keys.hmacKey (nonce ++ ciphertext)) 32 = false then
      .error .macMismatch
    else nip44Unpad (chaCha20 keys.chachaKey keys.chachaNonce ciphertext)

def nip44DecryptV2 (conversationKey : List UInt8) (payload : String) :
    Except Nip4xError (List UInt8) :=
  if payload.toList = [] ∨ payload.toList.head? = some '#' then .error .unknownVersion
  else if payload.toList.length < 132 ∨ payload.toList.length > 87472 then .error .badPayload
  else
    match base64Decode payload.toList with
    | none => .error .badPayload
    | some raw => nip44Open conversationKey raw

/-! ### The padded length -/

theorem halvings_spec {n : ℕ} (h : 1 ≤ n) : 2 ^ halvings n ≤ n ∧ n < 2 ^ (halvings n + 1) := by
  induction n using halvings.induct with
  | case1 n hn ih =>
      have hhalf : n >>> 1 = n / 2 := Nat.shiftRight_eq_div_pow n 1
      rw [hhalf] at ih
      obtain ⟨hle, hlt⟩ := ih (by omega)
      rw [halvings, if_pos hn, hhalf]
      simp only [pow_succ] at hle hlt ⊢
      omega
  | case2 n hn =>
      rw [halvings, if_neg hn]
      omega

/-- A multiple of the chunk which is big enough, and at most the next power. -/
theorem chunk_mul_bounds {chunk next m : ℕ} (hchunk : 0 < chunk) (hdvd : chunk ∣ next)
    (hm : m < next) : m < chunk * (m / chunk + 1) ∧ chunk * (m / chunk + 1) ≤ next := by
  obtain ⟨q, rfl⟩ := hdvd
  refine ⟨Nat.lt_mul_div_succ m hchunk, Nat.mul_le_mul_left chunk ?_⟩
  exact Nat.div_lt_of_lt_mul hm

theorem nip44CalcPaddedLen_bounds {n : ℕ} (hmax : n ≤ 65535) :
    n ≤ nip44CalcPaddedLen n ∧ 32 ≤ nip44CalcPaddedLen n ∧ nip44CalcPaddedLen n ≤ 65536 := by
  unfold nip44CalcPaddedLen
  by_cases hsmall : n ≤ 32
  · rw [if_pos hsmall]
    omega
  rw [if_neg hsmall]
  obtain ⟨hle, hlt⟩ := halvings_spec (Nat.le_sub_one_of_lt (by omega : 1 < n))
  generalize halvings (n - 1) = s at hle hlt ⊢
  simp only [Nat.one_shiftLeft]
  have hs₅ : 5 < s + 1 := by
    by_contra hs
    have hpow : 2 ^ (s + 1) ≤ 2 ^ 5 := Nat.pow_le_pow_right (by decide) (by omega)
    omega
  have hs₁₆ : s + 1 ≤ 16 := by
    by_contra hs
    have hpow : 2 ^ 16 ≤ 2 ^ s := Nat.pow_le_pow_right (by decide) (by omega)
    omega
  have hnext : 2 ^ (s + 1) ≤ 2 ^ 16 := Nat.pow_le_pow_right (by decide) hs₁₆
  have h32 : 2 ^ 5 ∣ 2 ^ (s + 1) := pow_dvd_pow 2 hs₅.le
  have h8 : 2 ^ 3 ∣ 2 ^ (s + 1) := pow_dvd_pow 2 (by omega)
  have hchunk : 0 < (if 2 ^ (s + 1) ≤ 256 then 32 else 2 ^ (s + 1) / 8) ∧
      (if 2 ^ (s + 1) ≤ 256 then 32 else 2 ^ (s + 1) / 8) ∣ 2 ^ (s + 1) := by
    split
    · exact ⟨by decide, h32⟩
    · exact ⟨by omega, Nat.div_dvd_of_dvd h8⟩
  obtain ⟨hlow, hhigh⟩ := chunk_mul_bounds hchunk.1 hchunk.2 hlt
  omega

/-! ### Padding -/

section Pad

variable {plaintext : List UInt8}

theorem length_padTo {n : ℕ} {buf : List UInt8} (h : buf.length ≤ n) :
    (padTo n buf).length = n := by
  rw [padTo, List.length_append, List.length_replicate]
  omega

theorem length_nip44Pad (hmax : plaintext.length ≤ 65535) :
    (nip44Pad plaintext).length = 2 + nip44CalcPaddedLen plaintext.length := by
  have hle := (nip44CalcPaddedLen_bounds hmax).1
  refine length_padTo ?_
  simp only [List.length_cons]
  omega

/-- The two bytes of the length. -/
theorem length_of_bytes {n : ℕ} (hn : n ≤ 65535) :
    (UInt8.ofNat (n >>> 8 &&& 0xff)).toNat <<< 8 ||| (UInt8.ofNat (n &&& 0xff)).toNat = n := by
  have hmask : ∀ v, v &&& 0xff = v % 256 := fun v => Bits.and_two_pow_sub_one v 8
  have hlow : (UInt8.ofNat (n % 256)).toNat = n % 256 := by simp
  have hhigh : (UInt8.ofNat (n / 256 % 256)).toNat = n / 256 := by
    simp
    omega
  have hshift : n >>> 8 = n / 256 := Nat.shiftRight_eq_div_pow n 8
  rw [hmask, hmask, hshift, hlow, hhigh, Bits.shiftLeft_or_eq_add (k := 8) (by omega)]
  omega

/-- What was padded is found again. -/
theorem nip44Unpad_nip44Pad (hpos : 1 ≤ plaintext.length) (hmax : plaintext.length ≤ 65535) :
    nip44Unpad (nip44Pad plaintext) = .ok plaintext := by
  obtain ⟨hle, hlow, -⟩ := nip44CalcPaddedLen_bounds hmax
  have hlen := length_nip44Pad hmax
  have hfirst : (nip44Pad plaintext).getD 0 0 = UInt8.ofNat (plaintext.length >>> 8 &&& 0xff) :=
    rfl
  have hsecond : (nip44Pad plaintext).getD 1 0 = UInt8.ofNat (plaintext.length &&& 0xff) := rfl
  have hbody : ((nip44Pad plaintext).drop 2).take plaintext.length = plaintext :=
    List.take_left' rfl
  simp only [nip44Unpad, hfirst, hsecond, length_of_bytes hmax, hlen, hbody]
  rw [if_neg (by omega), if_neg (by omega), if_neg (by simp), if_neg (by omega)]

end Pad

/-! ### The raw payload -/

theorem constantTimeEqualBytes_self (a : List UInt8) (n : ℕ) :
    constantTimeEqualBytes a a n = true := by
  simp [constantTimeEqualBytes, Bits.gather_eq_zero_iff]

section Raw

variable (conversationKey : List UInt8) {nonce plaintext : List UInt8}

theorem length_nip44Raw (hnonce : nonce.length = 32) (hmax : plaintext.length ≤ 65535) :
    (nip44Raw conversationKey nonce plaintext).length =
      67 + nip44CalcPaddedLen plaintext.length := by
  simp only [nip44Raw, List.length_cons, List.length_append, hnonce, length_chaCha20,
    length_nip44Pad hmax, length_hmacSha256]
  omega

/-- The four parts of a raw payload are where the decryptor looks for them. -/
theorem nip44Open_append {ciphertext mac : List UInt8} (hnonce : nonce.length = 32)
    (hmac : mac.length = 32) (hlow : 34 ≤ ciphertext.length)
    (hhigh : ciphertext.length ≤ 65538)
    (hmatch : mac = hmacSha256 (nip44MessageKeys conversationKey nonce).hmacKey
      (nonce ++ ciphertext)) :
    nip44Open conversationKey (0x02 :: nonce ++ ciphertext ++ mac) =
      nip44Unpad (chaCha20 (nip44MessageKeys conversationKey nonce).chachaKey
        (nip44MessageKeys conversationKey nonce).chachaNonce ciphertext) := by
  have hlen : (0x02 :: nonce ++ ciphertext ++ mac).length = 65 + ciphertext.length := by
    simp only [List.cons_append, List.length_cons, List.length_append, hnonce, hmac]
    omega
  have hct : 65 + ciphertext.length - 1 - 32 - 32 = ciphertext.length := by omega
  have hnonce' : ((0x02 :: nonce ++ ciphertext ++ mac).drop 1).take 32 = nonce := by
    rw [List.append_assoc, List.cons_append, List.drop_one, List.tail_cons]
    exact List.take_left' hnonce
  have hdrop : (0x02 :: nonce ++ ciphertext ++ mac).drop 33 = ciphertext ++ mac := by
    rw [List.append_assoc]
    exact List.drop_left' (by simp [hnonce])
  have hcipher : ((0x02 :: nonce ++ ciphertext ++ mac).drop 33).take ciphertext.length =
      ciphertext := by
    rw [hdrop]
    exact List.take_left' rfl
  have hmac' : ((0x02 :: nonce ++ ciphertext ++ mac).drop (33 + ciphertext.length)).take 32 =
      mac := by
    rw [← List.drop_drop, hdrop, List.drop_left' rfl]
    exact List.take_of_length_le hmac.le
  have hversion : (0x02 :: nonce ++ ciphertext ++ mac).getD 0 0 = 0x02 := rfl
  unfold nip44Open
  rw [hlen, if_neg (by omega), hversion, if_neg (by simp)]
  simp only [hct, hnonce', hcipher, hmac']
  rw [← hmatch, constantTimeEqualBytes_self, if_neg (by simp)]

theorem nip44Open_nip44Raw (hnonce : nonce.length = 32) (hpos : 1 ≤ plaintext.length)
    (hmax : plaintext.length ≤ 65535) :
    nip44Open conversationKey (nip44Raw conversationKey nonce plaintext) = .ok plaintext := by
  obtain ⟨-, hlow, hhigh⟩ := nip44CalcPaddedLen_bounds hmax
  have hlen : ∀ key n, (chaCha20 key n (nip44Pad plaintext)).length =
      2 + nip44CalcPaddedLen plaintext.length := by
    intro key n
    rw [length_chaCha20, length_nip44Pad hmax]
  unfold nip44Raw
  rw [nip44Open_append conversationKey hnonce (length_hmacSha256 _ _) (by rw [hlen]; omega)
    (by rw [hlen]; omega) rfl, chaCha20_chaCha20, nip44Unpad_nip44Pad hpos hmax]

end Raw

/-- A payload does not start with the mark of another encoding. -/
theorem head_base64Encode (data : List UInt8) : (base64Encode data).head? ≠ some '#' := by
  rw [base64Encode_eq]
  intro h
  have hmem := List.mem_of_mem_head? (Option.mem_def.mpr h)
  rcases payloadBase64.mem_encode hmem with hpad | ⟨n, hn, hdigit⟩
  · exact absurd hpad (by decide)
  · have hvalue := payloadBase64.value_digit n hn
    rw [← hdigit] at hvalue
    exact absurd hvalue (by rw [show payloadBase64.value '#' = none by decide]; simp)

/-- Decryption undoes encryption, and the payload is inside the bounds which the decryptor
enforces. -/
theorem nip44DecryptV2_nip44EncryptV2 (conversationKey nonce plaintext : List UInt8)
    (hnonce : nonce.length = 32) (hpos : 1 ≤ plaintext.length)
    (hmax : plaintext.length ≤ 65535) :
    nip44DecryptV2 conversationKey (nip44EncryptV2 conversationKey nonce plaintext) =
        .ok plaintext ∧
      132 ≤ (nip44EncryptV2 conversationKey nonce plaintext).length ∧
      (nip44EncryptV2 conversationKey nonce plaintext).length ≤ 87472 ∧
      ∃ raw, base64Decode (nip44EncryptV2 conversationKey nonce plaintext).toList = some raw ∧
        99 ≤ raw.length ∧ raw.length ≤ 65603 := by
  obtain ⟨-, hlow, hhigh⟩ := nip44CalcPaddedLen_bounds hmax
  have hraw := length_nip44Raw conversationKey hnonce hmax
  have htext : nip44EncryptV2 conversationKey nonce plaintext =
      String.ofList (base64Encode (nip44Raw conversationKey nonce plaintext)) := by
    rw [nip44EncryptV2, if_neg (by omega)]
  have hlen : (base64Encode (nip44Raw conversationKey nonce plaintext)).length =
      (69 + nip44CalcPaddedLen plaintext.length) / 3 * 4 := by
    rw [length_base64Encode, hraw]
    omega
  have hmin : 132 ≤ (base64Encode (nip44Raw conversationKey nonce plaintext)).length := by
    rw [hlen]
    omega
  have hmax' : (base64Encode (nip44Raw conversationKey nonce plaintext)).length ≤ 87472 := by
    rw [hlen]
    omega
  have hne : base64Encode (nip44Raw conversationKey nonce plaintext) ≠ [] := by
    intro h
    rw [h] at hmin
    simp at hmin
  refine ⟨?_, ?_, ?_, nip44Raw conversationKey nonce plaintext, ?_, ?_, ?_⟩
  · rw [htext, nip44DecryptV2, String.toList_ofList, if_neg (not_or.mpr ⟨hne, head_base64Encode _⟩),
      if_neg (by omega), base64Decode_base64Encode]
    exact nip44Open_nip44Raw conversationKey hnonce hpos hmax
  · rw [htext, String.length_ofList]
    exact hmin
  · rw [htext, String.length_ofList]
    exact hmax'
  · rw [htext, String.toList_ofList, base64Decode_base64Encode]
  · rw [hraw]
    omega
  · rw [hraw]
    omega

/-- The shortest plaintext under a key and a nonce of zeros. -/
theorem nip44DecryptV2_nip44EncryptV2_zeros :
    nip44DecryptV2 (List.replicate 32 0)
        (nip44EncryptV2 (List.replicate 32 0) (List.replicate 32 0) [0x61]) = .ok [0x61] :=
  (nip44DecryptV2_nip44EncryptV2 (List.replicate 32 0) (List.replicate 32 0) [0x61]
    (by decide) (by decide) (by decide)).1

end Nostr

end BtClock
