import BtClock.Nostr.Nip04
import Mathlib.Data.Finite.Prod

/-!
# What the decryptors accept

A decryptor gives a plaintext for nothing but what the encryptor makes of it, up to the text in
base64 and, where the padding is not looked at, up to that padding.
-/

namespace BtClock

namespace Nostr

open Aes

/-! ### AES -/

/-- The cipher is a permutation of the blocks, since there are only finitely many. -/
theorem aes256EncryptBlock_aes256DecryptBlock (roundKeys : List UInt8) (input : Block) :
    aes256EncryptBlock roundKeys (aes256DecryptBlock roundKeys input) = input := by
  have hleft : Function.LeftInverse (aes256DecryptBlock roundKeys)
      (aes256EncryptBlock roundKeys) := aes256DecryptBlock_aes256EncryptBlock roundKeys
  have hbyte : Finite UInt8 :=
    Finite.of_injective UInt8.toFin fun a b h => UInt8.toFin_inj.mp h
  have hblock : Finite Block :=
    Finite.of_injective (fun (b : Block) (i : Fin 16) => b[i]) fun a b h =>
      Vector.ext fun i hi => congrFun h ⟨i, hi⟩
  have hsurj := Finite.surjective_of_injective hleft.injective
  exact hleft.rightInverse_of_surjective hsurj input

section

variable (key iv : List UInt8) {input plain : List UInt8}

theorem aes256CbcPkcs7Encrypt_of_decrypt (h : aes256CbcPkcs7Decrypt key iv input = some plain) :
    aes256CbcPkcs7Encrypt key iv plain = input := by
  rw [aes256CbcPkcs7Decrypt] at h
  split_ifs at h with hlen
  rw [not_or, not_not] at hlen
  have hwhole : input.length = 16 * (input.length / 16) := by omega
  generalize hblocks : Cbc.decrypt (aes256DecryptBlock (aesKeyExpansion key)) mix (blockAt iv 0)
    (blocksOf (input.length / 16) input) = bs at h
  have hcount : bs.length = input.length / 16 := by
    rw [← hblocks, Cbc.length_decrypt, length_blocksOf]
  have hpad : Pkcs7.pad 16 plain = bytesOfBlocks bs :=
    Pkcs7.pad_of_strip (by decide) (by rw [length_bytesOfBlocks]; omega) h
  have hdiv : (bytesOfBlocks bs).length / 16 = bs.length := by
    rw [length_bytesOfBlocks]
    omega
  rw [aes256CbcPkcs7Encrypt, hpad, hdiv, blocksOf_bytesOfBlocks, ← hblocks,
    Cbc.encrypt_decrypt _ _ _ (aes256EncryptBlock_aes256DecryptBlock _) mix_mix,
    bytesOfBlocks_blocksOf hwhole]

/-- A ciphertext is accepted for the one plaintext which it is the ciphertext of. -/
theorem aes256CbcPkcs7Decrypt_eq_some_iff :
    aes256CbcPkcs7Decrypt key iv input = some plain ↔
      input = aes256CbcPkcs7Encrypt key iv plain := by
  constructor
  · intro h
    exact (aes256CbcPkcs7Encrypt_of_decrypt key iv h).symm
  · rintro rfl
    exact aes256CbcPkcs7Decrypt_aes256CbcPkcs7Encrypt key iv plain

end

/-- A content is decrypted exactly when it holds, in base64, a start vector and what the
encryptor makes of the plaintext with it. -/
theorem nip04Decrypt_eq_ok_iff (ecdhSharedX : Ecdh) (seckey pub plain : List UInt8)
    (content : String) :
    nip04Decrypt ecdhSharedX seckey pub content = .ok plain ↔
      ∃ sharedX iv ctB64 ivB64, ecdhSharedX seckey pub = some sharedX ∧ iv.length = 16 ∧
        splitAtMarker content.toList = some (ctB64, ivB64) ∧ base64Decode ivB64 = some iv ∧
        base64Decode ctB64 = some (aes256CbcPkcs7Encrypt sharedX iv plain) := by
  constructor
  · intro h
    unfold nip04Decrypt at h
    split at h
    · cases h
    · rename_i ctB64 ivB64 hsplit
      split at h
      · rename_i ct iv hct hiv
        split_ifs at h with hivlen hctlen
        split at h
        · cases h
        · rename_i sharedX hshared
          split at h
          · cases h
          · rename_i text hplain
            obtain rfl := Except.ok.inj h
            rw [aes256CbcPkcs7Decrypt_eq_some_iff] at hplain
            exact ⟨sharedX, iv, ctB64, ivB64, hshared, not_not.mp hivlen, hsplit, hiv,
              hplain ▸ hct⟩
      · cases h
  · rintro ⟨sharedX, iv, ctB64, ivB64, hshared, hivlen, hsplit, hiv, hct⟩
    have hmod := Pkcs7.length_pad_mod (by decide : 0 < 16) plain
    have hpos := (Pkcs7.padLength_bounds (by decide : 0 < 16) plain.length).1
    have hlen := Pkcs7.length_pad 16 plain
    have hctlen := length_aes256CbcPkcs7Encrypt sharedX iv plain
    simp only [nip04Decrypt, hsplit, hct, hiv, hshared,
      aes256CbcPkcs7Decrypt_aes256CbcPkcs7Encrypt]
    rw [if_neg (by omega), if_neg (by omega)]

/-! ### NIP-44 -/

theorem eq_of_constantTimeEqualBytes {a b : List UInt8} {n : ℕ} (ha : a.length = n)
    (hb : b.length = n) (h : constantTimeEqualBytes a b n = true) : a = b := by
  rw [constantTimeEqualBytes, decide_eq_true_eq, Bits.gather_eq_zero_iff] at h
  refine List.ext_getElem (ha.trans hb.symm) fun i hi hi' => ?_
  have hxor := h.2 i (List.mem_range.mpr (ha ▸ hi))
  rw [List.getD_eq_getElem _ _ hi, List.getD_eq_getElem _ _ hi'] at hxor
  exact UInt8.xor_eq_zero_iff.mp (UInt8.toNat_inj.mp hxor)

/-- The length, the plaintext and whatever stands for the zeros. -/
def nip44Padded (plaintext padding : List UInt8) : List UInt8 :=
  UInt8.ofNat (plaintext.length >>> 8 &&& 0xff) :: UInt8.ofNat (plaintext.length &&& 0xff) ::
    (plaintext ++ padding)

/-- The two bytes are those of the length which they hold. -/
theorem bytes_of_length (b₀ b₁ : UInt8) :
    UInt8.ofNat ((b₀.toNat <<< 8 ||| b₁.toNat) >>> 8 &&& 0xff) = b₀ ∧
      UInt8.ofNat ((b₀.toNat <<< 8 ||| b₁.toNat) &&& 0xff) = b₁ := by
  have hmask : ∀ v, v &&& 0xff = v % 256 := fun v => Bits.and_two_pow_sub_one v 8
  have h₀ := b₀.toNat_lt
  have h₁ := b₁.toNat_lt
  rw [Bits.shiftLeft_or_eq_add (k := 8) (by omega), hmask, hmask, Nat.shiftRight_eq_div_pow]
  constructor
  · rw [show (b₀.toNat * 2 ^ 8 + b₁.toNat) / 2 ^ 8 % 256 = b₀.toNat by omega, UInt8.ofNat_toNat]
  · rw [show (b₀.toNat * 2 ^ 8 + b₁.toNat) % 256 = b₁.toNat by omega, UInt8.ofNat_toNat]

theorem nip44Unpad_eq_ok_iff {padded plain : List UInt8} :
    nip44Unpad padded = .ok plain ↔
      ∃ padding, padded = nip44Padded plain padding ∧ 1 ≤ plain.length ∧
        plain.length ≤ 65535 ∧
        plain.length + padding.length = nip44CalcPaddedLen plain.length := by
  constructor
  · intro h
    obtain ⟨b₀, b₁, text, rfl⟩ : ∃ b₀ b₁ text, padded = b₀ :: b₁ :: text := by
      rcases padded with - | ⟨b₀, - | ⟨b₁, text⟩⟩
      · cases h
      · cases h
      · exact ⟨b₀, b₁, text, rfl⟩
    have h₀ : (b₀ :: b₁ :: text).getD 0 0 = b₀ := rfl
    have h₁ : (b₀ :: b₁ :: text).getD 1 0 = b₁ := rfl
    have hdrop : (b₀ :: b₁ :: text).drop 2 = text := rfl
    simp only [nip44Unpad, h₀, h₁, hdrop] at h
    have hbytes := bytes_of_length b₀ b₁
    generalize b₀.toNat <<< 8 ||| b₁.toNat = n at h hbytes
    split_ifs at h with hshort hrange hwhole hlong
    obtain rfl := Except.ok.inj h
    rw [List.length_cons, List.length_cons] at hlong hwhole
    have hlen : (text.take n).length = n := List.length_take_of_le (by omega)
    refine ⟨text.drop n, ?_, by omega, by omega, ?_⟩
    · rw [nip44Padded, hlen, hbytes.1, hbytes.2, List.take_append_drop]
    · rw [hlen, List.length_drop]
      omega
  · rintro ⟨padding, rfl, hpos, hmax, hlen⟩
    have h₀ : (nip44Padded plain padding).getD 0 0 =
        UInt8.ofNat (plain.length >>> 8 &&& 0xff) := rfl
    have h₁ : (nip44Padded plain padding).getD 1 0 = UInt8.ofNat (plain.length &&& 0xff) := rfl
    have hbody : ((nip44Padded plain padding).drop 2).take plain.length = plain :=
      List.take_left' rfl
    have hwhole : (nip44Padded plain padding).length = 2 + nip44CalcPaddedLen plain.length := by
      rw [nip44Padded, List.length_cons, List.length_cons, List.length_append]
      omega
    simp only [nip44Unpad, h₀, h₁, length_of_bytes hmax, hwhole, hbody]
    rw [if_neg (by omega), if_neg (by omega), if_neg (by simp), if_neg (by omega)]

/-- The raw payload of a padded text. -/
def nip44Seal (conversationKey nonce padded : List UInt8) : List UInt8 :=
  let keys := nip44MessageKeys conversationKey nonce
  let ciphertext := chaCha20 keys.chachaKey keys.chachaNonce padded
  0x02 :: nonce ++ ciphertext ++ hmacSha256 keys.hmacKey (nonce ++ ciphertext)

/-- The encryptor pads with zeros. -/
theorem nip44Raw_eq_seal (conversationKey nonce plaintext : List UInt8) :
    nip44Raw conversationKey nonce plaintext =
      nip44Seal conversationKey nonce (nip44Padded plaintext
        (List.replicate (nip44CalcPaddedLen plaintext.length - plaintext.length) 0)) := by
  have hpad : nip44Pad plaintext = nip44Padded plaintext
      (List.replicate (nip44CalcPaddedLen plaintext.length - plaintext.length) 0) := by
    have hcount : 2 + nip44CalcPaddedLen plaintext.length - (plaintext.length + 1 + 1) =
        nip44CalcPaddedLen plaintext.length - plaintext.length := by omega
    rw [nip44Pad, padTo, nip44Padded]
    simp only [List.length_cons, List.cons_append, hcount]
  rw [nip44Raw, hpad]
  rfl

/-- The four parts of a raw payload. -/
theorem eq_parts {raw : List UInt8} (h : 65 ≤ raw.length) :
    raw = raw.getD 0 0 :: (raw.drop 1).take 32 ++ (raw.drop 33).take (raw.length - 1 - 32 - 32) ++
      (raw.drop (33 + (raw.length - 1 - 32 - 32))).take 32 := by
  obtain ⟨v, rest, rfl⟩ := List.exists_cons_of_length_pos (by omega : 0 < raw.length)
  rw [List.length_cons] at h
  have hlast : (v :: rest).length - 1 - 32 - 32 = rest.length - 64 := by
    rw [List.length_cons]
    omega
  have hmac : ((v :: rest).drop (33 + (rest.length - 64))).take 32 =
      (rest.drop 32).drop (rest.length - 64) := by
    rw [List.drop_drop, show 33 + (rest.length - 64) = 32 + (rest.length - 64) + 1 by omega,
      List.drop_succ_cons]
    exact List.take_of_length_le (by rw [List.length_drop]; omega)
  rw [hlast, hmac]
  simp only [List.getD_cons_zero, List.drop_succ_cons, List.drop_zero, List.cons_append,
    List.append_assoc, List.take_append_drop]

/-- A raw payload is opened exactly when it is the payload of a padded text under one of the
nonces.  The bytes of the padding may be any. -/
theorem nip44Open_eq_ok_iff (conversationKey : List UInt8) {raw plain : List UInt8} :
    nip44Open conversationKey raw = .ok plain ↔
      ∃ nonce padding, raw = nip44Seal conversationKey nonce (nip44Padded plain padding) ∧
        nonce.length = 32 ∧ 1 ≤ plain.length ∧ plain.length ≤ 65535 ∧
        plain.length + padding.length = nip44CalcPaddedLen plain.length := by
  constructor
  · intro h
    unfold nip44Open at h
    simp only at h
    split_ifs at h with hlen hversion hmac
    have hparts := @eq_parts raw (by omega)
    generalize hct : (raw.drop 33).take (raw.length - 1 - 32 - 32) = ciphertext at *
    generalize hnonce : (raw.drop 1).take 32 = nonce at *
    generalize htag : (raw.drop (33 + (raw.length - 1 - 32 - 32))).take 32 = tag at *
    obtain ⟨padding, hpadded, hpos, hmax, hcount⟩ := nip44Unpad_eq_ok_iff.mp h
    refine ⟨nonce, padding, ?_, ?_, hpos, hmax, hcount⟩
    · have htaglen : tag.length = 32 := by
        rw [← htag, List.length_take, List.length_drop]
        omega
      have heq := eq_of_constantTimeEqualBytes htaglen (length_hmacSha256 _ _)
        (Bool.not_eq_false _ ▸ hmac)
      rw [nip44Seal, ← hpadded, chaCha20_chaCha20, ← heq, ← not_not.mp hversion]
      exact hparts
    · rw [← hnonce, List.length_take, List.length_drop]
      omega
  · rintro ⟨nonce, padding, rfl, hnonce, hpos, hmax, hcount⟩
    obtain ⟨-, hlow, hhigh⟩ := nip44CalcPaddedLen_bounds hmax
    have hlen : (chaCha20 (nip44MessageKeys conversationKey nonce).chachaKey
        (nip44MessageKeys conversationKey nonce).chachaNonce (nip44Padded plain padding)).length =
          2 + nip44CalcPaddedLen plain.length := by
      rw [length_chaCha20, nip44Padded, List.length_cons, List.length_cons, List.length_append]
      omega
    unfold nip44Seal
    rw [nip44Open_append conversationKey hnonce (length_hmacSha256 _ _) (by omega) (by omega) rfl,
      chaCha20_chaCha20]
    exact nip44Unpad_eq_ok_iff.mpr ⟨padding, rfl, hpos, hmax, hcount⟩

/-- A payload is decrypted exactly when it is, in base64 and in its bounds, what someone with
the conversation key sealed for the plaintext. -/
theorem nip44DecryptV2_eq_ok_iff (conversationKey : List UInt8) (payload : String)
    (plain : List UInt8) :
    nip44DecryptV2 conversationKey payload = .ok plain ↔
      payload.toList.head? ≠ some '#' ∧ 132 ≤ payload.toList.length ∧
        payload.toList.length ≤ 87472 ∧
        ∃ nonce padding,
          base64Decode payload.toList =
            some (nip44Seal conversationKey nonce (nip44Padded plain padding)) ∧
          nonce.length = 32 ∧ 1 ≤ plain.length ∧ plain.length ≤ 65535 ∧
          plain.length + padding.length = nip44CalcPaddedLen plain.length := by
  constructor
  · intro h
    unfold nip44DecryptV2 at h
    split_ifs at h with hhead hlen
    rw [not_or] at hhead hlen
    refine ⟨hhead.2, by omega, by omega, ?_⟩
    split at h
    · cases h
    · rename_i raw hraw
      obtain ⟨nonce, padding, rfl, hbounds⟩ := (nip44Open_eq_ok_iff conversationKey).mp h
      exact ⟨nonce, padding, hraw, hbounds⟩
  · rintro ⟨hhead, hlow, hhigh, nonce, padding, hraw, hbounds⟩
    have hne : payload.toList ≠ [] := by
      intro hnil
      rw [hnil] at hlow
      simp at hlow
    rw [nip44DecryptV2, if_neg (not_or.mpr ⟨hne, hhead⟩), if_neg (by omega), hraw]
    exact (nip44Open_eq_ok_iff conversationKey).mpr ⟨nonce, padding, rfl, hbounds⟩

end Nostr

end BtClock
