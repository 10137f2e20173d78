import BtClock.Cipher.Cbc
import BtClock.Nostr.Aes
import BtClock.Nostr.Nip44

/-!
# The contents of NIP-04

A plaintext is padded and enciphered block by block, and written in base64 with the start
vector behind a marker.  The shared secret is a function of the keys.
-/

namespace BtClock

namespace Nostr

open Aes

/-! ### The cipher on byte strings -/

/-- The first `n` blocks of a byte string. -/
def blocksOf : ℕ → List UInt8 → List Block
  | 0, _ => []
  | n + 1, bytes => blockAt bytes 0 :: blocksOf n (bytes.drop 16)

def bytesOfBlocks (bs : List Block) : List UInt8 :=
  bs.flatMap Vector.toList

def aes256CbcPkcs7Encrypt (key iv input : List UInt8) : List UInt8 :=
  let padded := Pkcs7.pad 16 input
  bytesOfBlocks <|
    Cbc.encrypt (aes256EncryptBlock (aesKeyExpansion key)) mix (blockAt iv 0)
      (blocksOf (padded.length / 16) padded)

def aes256CbcPkcs7Decrypt (key iv input : List UInt8) : Option (List UInt8) :=
  if input.length = 0 ∨ input.length % 16 ≠ 0 then none
  else
    Pkcs7.strip 16 <| bytesOfBlocks <|
      Cbc.decrypt (aes256DecryptBlock (aesKeyExpansion key)) mix (blockAt iv 0)
        (blocksOf (input.length / 16) input)

/-! ### The contents -/

/-- The shared secret of a secret key and a public key, if they are valid. -/
abbrev Ecdh := (seckey pub : List UInt8) → Option (List UInt8)

def kIvMarker : List Char :=
  ['?', 'i', 'v', '=']

/-- The content; empty for a key which is not valid. -/
def nip04Encrypt (ecdhSharedX : Ecdh) (seckey pub iv plaintext : List UInt8) : String :=
  match ecdhSharedX seckey pub with
  | none => ""
  | some sharedX =>
      String.ofList
        (base64Encode (aes256CbcPkcs7Encrypt sharedX iv plaintext) ++ kIvMarker ++
          base64Encode iv)

/-- What stands before the first marker and what behind it. -/
def splitAtMarker : List Char → Option (List Char × List Char)
  | [] => none
  | c :: content =>
      if kIvMarker.isPrefixOf (c :: content) then some ([], (c :: content).drop 4)
      else (splitAtMarker content).map fun p => (c :: p.1, p.2)

def nip04Decrypt (ecdhSharedX : Ecdh) (seckey pub : List UInt8) (content : String) :
    Except Nip4xError (List UInt8) :=
  match splitAtMarker content.toList with
  | none => .error .badPayload
  | some (ctB64, ivB64) =>
      match base64Decode ctB64, base64Decode ivB64 with
      | some ct, some iv =>
          if iv.length ≠ 16 then .error .badPayload
          else if ct.length = 0 ∨ ct.length % 16 ≠ 0 then .error .plaintextRange
          else
            match ecdhSharedX seckey pub with
            | none => .error .badKey
            | some sharedX =>
                match aes256CbcPkcs7Decrypt sharedX iv ct with
                | none => .error .badPadding
                | some plain => .ok plain
      | _, _ => .error .badPayload

/-! ### Blocks and bytes -/

theorem length_bytesOfBlocks (bs : List Block) : (bytesOfBlocks bs).length = 16 * bs.length := by
  induction bs with
  | nil => rfl
  | cons b bs ih =>
      have hcons : bytesOfBlocks (b :: bs) = b.toList ++ bytesOfBlocks bs := rfl
      rw [hcons, List.length_append, Vector.length_toList, ih, List.length_cons]
      omega

theorem length_blocksOf (n : ℕ) (bytes : List UInt8) : (blocksOf n bytes).length = n := by
  induction n generalizing bytes with
  | zero => rfl
  | succ n ih => rw [blocksOf, List.length_cons, ih]

theorem blockAt_toList_append (b : Block) (rest : List UInt8) :
    blockAt (b.toList ++ rest) 0 = b := by
  ext i hi
  have hlen : i < b.toList.length := by simpa using hi
  simp only [blockAt, Vector.getElem_ofFn, Nat.zero_add]
  rw [List.getD_append _ _ _ _ hlen, List.getD_eq_getElem _ _ hlen, Vector.getElem_toList]

theorem toList_blockAt {bytes : List UInt8} (h : 16 ≤ bytes.length) :
    (blockAt bytes 0).toList = bytes.take 16 := by
  refine List.ext_getElem (by simp [h]) fun i hi hi' => ?_
  have hlen : i < bytes.length := by
    rw [List.length_take] at hi'
    omega
  rw [Vector.getElem_toList, List.getElem_take]
  simp only [blockAt, Vector.getElem_ofFn, Nat.zero_add]
  exact List.getD_eq_getElem _ _ hlen

/-- Blocks are cut where they were joined. -/
theorem blocksOf_bytesOfBlocks (bs : List Block) :
    blocksOf bs.length (bytesOfBlocks bs) = bs := by
  induction bs with
  | nil => rfl
  | cons b bs ih =>
      have hcons : bytesOfBlocks (b :: bs) = b.toList ++ bytesOfBlocks bs := rfl
      rw [hcons, List.length_cons, blocksOf, blockAt_toList_append,
        List.drop_left' (by simp), ih]

/-- Whole blocks are joined where they were cut. -/
theorem bytesOfBlocks_blocksOf {n : ℕ} {bytes : List UInt8} (h : bytes.length = 16 * n) :
    bytesOfBlocks (blocksOf n bytes) = bytes := by
  induction n generalizing bytes with
  | zero => exact (List.length_eq_zero_iff.mp h).symm
  | succ n ih =>
      have hcons : bytesOfBlocks (blocksOf (n + 1) bytes) =
          (blockAt bytes 0).toList ++ bytesOfBlocks (blocksOf n (bytes.drop 16)) := rfl
      rw [hcons, toList_blockAt (by omega), ih (by rw [List.length_drop]; omega),
        List.take_append_drop]

/-! ### Decryption undoes encryption -/

section

variable (key iv input : List UInt8)

theorem length_aes256CbcPkcs7Encrypt :
    (aes256CbcPkcs7Encrypt key iv input).length = (Pkcs7.pad 16 input).length := by
  have hmod := Pkcs7.length_pad_mod (by decide : 0 < 16) input
  rw [aes256CbcPkcs7Encrypt, length_bytesOfBlocks, Cbc.length_encrypt, length_blocksOf]
  omega

theorem aes256CbcPkcs7Decrypt_aes256CbcPkcs7Encrypt :
    aes256CbcPkcs7Decrypt key iv (aes256CbcPkcs7Encrypt key iv input) = some input := by
  have hmod := Pkcs7.length_pad_mod (by decide : 0 < 16) input
  have hpos := (Pkcs7.padLength_bounds (by decide : 0 < 16) input.length).1
  have hlen := Pkcs7.length_pad 16 input
  have hct := length_aes256CbcPkcs7Encrypt key iv input
  have hblocks : blocksOf ((aes256CbcPkcs7Encrypt key iv input).length / 16)
      (aes256CbcPkcs7Encrypt key iv input) =
        Cbc.encrypt (aes256EncryptBlock (aesKeyExpansion key)) mix (blockAt iv 0)
          (blocksOf ((Pkcs7.pad 16 input).length / 16) (Pkcs7.pad 16 input)) := by
    have hcount : (aes256CbcPkcs7Encrypt key iv input).length / 16 =
        (Cbc.encrypt (aes256EncryptBlock (aesKeyExpansion key)) mix (blockAt iv 0)
          (blocksOf ((Pkcs7.pad 16 input).length / 16) (Pkcs7.pad 16 input))).length := by
      rw [Cbc.length_encrypt, length_blocksOf, hct]
    rw [hcount]
    exact blocksOf_bytesOfBlocks _
  rw [aes256CbcPkcs7Decrypt, if_neg (by omega), hblocks,
    Cbc.decrypt_encrypt _ _ _ (aes256DecryptBlock_aes256EncryptBlock _) mix_mix,
    bytesOfBlocks_blocksOf (by omega)]
  exact Pkcs7.strip_pad (by decide) (by decide) input

end

/-- The first marker is found where it was put. -/
theorem splitAtMarker_append {ct : List Char} (h : '?' ∉ ct) (iv : List Char) :
    splitAtMarker (ct ++ kIvMarker ++ iv) = some (ct, iv) := by
  induction ct with
  | nil => rfl
  | cons c ct ih =>
      have hc : c ≠ '?' := fun heq => h (heq ▸ List.mem_cons_self)
      have hprefix : kIvMarker.isPrefixOf (c :: (ct ++ kIvMarker ++ iv)) = false := by
        simp [kIvMarker, List.isPrefixOf, Ne.symm hc]
      simp only [List.cons_append, splitAtMarker, hprefix, Bool.false_eq_true, if_false,
        ih fun hmem => h (List.mem_cons_of_mem _ hmem), Option.map_some]

/-- The mark of no digit stands in an encoding. -/
theorem notMem_base64Encode {c : Char} (hpad : c ≠ '=') (hlut : lut c = none)
    (data : List UInt8) : c ∉ base64Encode data := by
  rw [base64Encode_eq]
  intro h
  rcases payloadBase64.mem_encode h with heq | ⟨n, hn, hdigit⟩
  · exact hpad heq
  · have hvalue : lut (payloadBase64.digit n) = some n := payloadBase64.value_digit n hn
    rw [← hdigit, hlut] at hvalue
    cases hvalue

/-- With one shared secret on both sides, decryption undoes encryption. -/
theorem nip04Decrypt_nip04Encrypt (ecdhSharedX : Ecdh)
    (seckey pub seckey' pub' sharedX iv plaintext : List UInt8)
    (hshared : ecdhSharedX seckey pub = some sharedX)
    (hshared' : ecdhSharedX seckey' pub' = some sharedX) (hiv : iv.length = 16) :
    nip04Decrypt ecdhSharedX seckey' pub' (nip04Encrypt ecdhSharedX seckey pub iv plaintext) =
      .ok plaintext := by
  have hsplit := splitAtMarker_append
    (notMem_base64Encode (c := '?') (by decide) (by decide)
      (aes256CbcPkcs7Encrypt sharedX iv plaintext)) (base64Encode iv)
  have hmod := Pkcs7.length_pad_mod (by decide : 0 < 16) plaintext
  have hpos := (Pkcs7.padLength_bounds (by decide : 0 < 16) plaintext.length).1
  have hlen := Pkcs7.length_pad 16 plaintext
  have hct := length_aes256CbcPkcs7Encrypt sharedX iv plaintext
  simp only [nip04Encrypt, nip04Decrypt, hshared, hshared', String.toList_ofList, hsplit,
    base64Decode_base64Encode, aes256CbcPkcs7Decrypt_aes256CbcPkcs7Encrypt]
  rw [if_neg (by omega), if_neg (by omega)]

/-- The keys 5 and 2 and their public keys. -/
def key₅ : List UInt8 :=
  List.replicate 31 0 ++ [5]

def key₂ : List UInt8 :=
  List.replicate 31 0 ++ [2]

def pub₅ : List UInt8 :=
  [0x2f, 0x8b, 0xde, 0x4d, 0x1a, 0x07, 0x20, 0x93, 0x55, 0xb4, 0xa7, 0x25, 0x0a, 0x5c, 0x51, 0x28,
    0xe8, 0x8b, 0x84, 0xbd, 0xdc, 0x61, 0x9a, 0xb7, 0xcb, 0xa8, 0xd5, 0x69, 0xb2, 0x40, 0xef, 0xe4]

def pub₂ : List UInt8 :=
  [0xc6, 0x04, 0x7f, 0x94, 0x41, 0xed, 0x7d, 0x6d, 0x30, 0x45, 0x40, 0x6e, 0x95, 0xc0, 0x7c, 0xd8,
    0x5c, 0x77, 0x8e, 0x4b, 0x8c, 0xef, 0x3c, 0xa7, 0xab, 0xac, 0x09, 0xb9, 0x5c, 0x70, 0x9e, 0xe5]

/-- The shared secret of the two, and of no other keys. -/
def demoEcdh : Ecdh := fun seckey pub =>
  if seckey = key₅ ∧ pub = pub₂ ∨ seckey = key₂ ∧ pub = pub₅ then
    some
      [0xa0, 0x43, 0x4d, 0x9e, 0x47, 0xf3, 0xc8, 0x62, 0x35, 0x47, 0x7c, 0x7b, 0x1a, 0xe6, 0xae,
        0x5d, 0x34, 0x42, 0xd4, 0x9b, 0x19, 0x43, 0xc2, 0xb7, 0x52, 0xa6, 0x8e, 0x2a, 0x47, 0xe2,
        0x47, 0xc7]
  else none

theorem nip04Decrypt_nip04Encrypt_demo :
    nip04Decrypt demoEcdh key₂ pub₅
        (nip04Encrypt demoEcdh key₅ pub₂ (List.replicate 16 0) (List.replicate 16 0x61)) =
      .ok (List.replicate 16 0x61) :=
  nip04Decrypt_nip04Encrypt demoEcdh key₅ pub₂ key₂ pub₅ _ _ _ rfl rfl rfl

end Nostr

end BtClock
