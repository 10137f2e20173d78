import Mathlib.Data.List.GetD

/-!
# Cipher block chaining

Every block is combined with the ciphertext of the block before and enciphered.  A text is cut
into blocks after it is padded with as many bytes as are missing, each of which holds their
number.
-/

namespace Cbc

variable {β : Type*} (enc dec : β → β) (mix : β → β → β)

def encrypt : β → List β → List β
  | _, [] => []
  | prev, b :: bs =>
      let c := enc (mix b prev)
      c :: encrypt c bs

def decrypt : β → List β → List β
  | _, [] => []
  | prev, c :: cs => mix (dec c) prev :: decrypt c cs

/-- Deciphering undoes enciphering, block by block. -/
theorem decrypt_encrypt (hdec : ∀ b, dec (enc b) = b) (hmix : ∀ b k, mix (mix b k) k = b)
    (prev : β) (bs : List β) : decrypt dec mix prev (encrypt enc mix prev bs) = bs := by
  induction bs generalizing prev with
  | nil => rfl
  | cons b bs ih => rw [encrypt, decrypt, hdec, hmix, ih]

/-- Enciphering undoes deciphering, where the cipher is a permutation. -/
theorem encrypt_decrypt (henc : ∀ b, enc (dec b) = b) (hmix : ∀ b k, mix (mix b k) k = b)
    (prev : β) (cs : List β) : encrypt enc mix prev (decrypt dec mix prev cs) = cs := by
  induction cs generalizing prev with
  | nil => rfl
  | cons c cs ih => rw [decrypt, encrypt, hmix, henc, ih]

theorem length_decrypt (prev : β) (cs : List β) :
    (decrypt dec mix prev cs).length = cs.length := by
  induction cs generalizing prev with
  | nil => rfl
  | cons c cs ih => rw [decrypt, List.length_cons, ih, List.length_cons]

theorem length_encrypt (prev : β) (bs : List β) :
    (encrypt enc mix prev bs).length = bs.length := by
  induction bs generalizing prev with
  | nil => rfl
  | cons b bs ih => rw [encrypt, List.length_cons, ih, List.length_cons]

end Cbc

namespace Pkcs7

/-- The number of bytes which are missing, a whole block at least one of them. -/
def padLength (width len : ℕ) : ℕ :=
  width - len % width

def pad (width : ℕ) (text : List UInt8) : List UInt8 :=
  let p := padLength width text.length
  text ++ List.replicate p (UInt8.ofNat p)

/-- The text before the padding, if every byte of it holds its length. -/
def strip (width : ℕ) (padded : List UInt8) : Option (List UInt8) :=
  let p := (padded.getD (padded.length - 1) 0).toNat
  if p = 0 ∨ p > width then none
  else if ∀ i < p, padded.getD (padded.length - 1 - i) 0 = UInt8.ofNat p then
    some (padded.take (padded.length - p))
  else none

theorem length_pad (width : ℕ) (text : List UInt8) :
    (pad width text).length = text.length + padLength width text.length := by
  simp [pad]

section

variable {width : ℕ} (hwidth : 0 < width)

include hwidth

theorem padLength_bounds (len : ℕ) :
    0 < padLength width len ∧ padLength width len ≤ width := by
  have hmod := Nat.mod_lt len hwidth
  unfold padLength
  omega

/-- A padded text consists of whole blocks. -/
theorem length_pad_mod (text : List UInt8) : (pad width text).length % width = 0 := by
  have hmod := Nat.mod_lt text.length hwidth
  have hsum : text.length + padLength width text.length =
      width * (text.length / width) + width := by
    have hdiv := Nat.div_add_mod text.length width
    unfold padLength
    omega
  rw [length_pad, hsum]
  simp

theorem strip_pad (hmax : width < 256) (text : List UInt8) :
    strip width (pad width text) = some text := by
  obtain ⟨hpos, hle⟩ := padLength_bounds hwidth text.length
  have hp : (UInt8.ofNat (padLength width text.length)).toNat = padLength width text.length := by
    simp
    omega
  have hget : ∀ i < padLength width text.length,
      (pad width text).getD ((pad width text).length - 1 - i) 0 =
        UInt8.ofNat (padLength width text.length) := by
    intro i hi
    rw [length_pad, pad, List.getD_append_right _ _ _ _ (by omega)]
    rw [List.getD_eq_getElem _ _ (by simp; omega), List.getElem_replicate]
  have hlast := hget 0 hpos
  rw [Nat.sub_zero] at hlast
  have htake : (pad width text).take ((pad width text).length - padLength width text.length) =
      text := by
    rw [length_pad, Nat.add_sub_cancel]
    exact List.take_left' rfl
  simp only [strip, hlast, hp, htake]
  rw [if_neg (by omega), if_pos hget]

omit hwidth in
theorem of_strip {padded text : List UInt8} (h : strip width padded = some text) :
    ∃ p, 0 < p ∧ p ≤ width ∧ padded ≠ [] ∧ text = padded.take (padded.length - p) ∧
      ∀ i < p, padded.getD (padded.length - 1 - i) 0 = UInt8.ofNat p := by
  simp only [strip] at h
  split at h
  · cases h
  · rename_i hrange
    split at h
    · rename_i hall
      refine ⟨_, ?_, ?_, ?_, (Option.some.inj h).symm, hall⟩
      · omega
      · omega
      · rintro rfl
        simp at hrange
    · cases h

/-- Whole blocks from which a padding is stripped were padded with it. -/
theorem pad_of_strip {padded text : List UInt8} (hmod : padded.length % width = 0)
    (h : strip width padded = some text) : pad width text = padded := by
  obtain ⟨p, hpos, hle, hne, rfl, hall⟩ := of_strip h
  obtain ⟨n, hn⟩ := Nat.dvd_of_mod_eq_zero hmod
  have hblock : width ≤ padded.length := by
    rw [hn]
    refine Nat.le_mul_of_pos_right width (Nat.pos_of_ne_zero ?_)
    rintro rfl
    exact hne (List.length_eq_zero_iff.mp hn)
  have hlen : (padded.take (padded.length - p)).length = padded.length - p := by simp
  have hpad : padLength width (padded.length - p) = p := by
    obtain ⟨m, rfl⟩ : ∃ m, n = m + 1 := by
      refine Nat.exists_eq_succ_of_ne_zero ?_
      rintro rfl
      exact hne (List.length_eq_zero_iff.mp hn)
    have hsplit : padded.length - p = width - p + width * m := by
      rw [hn, Nat.mul_succ]
      omega
    rw [padLength, hsplit, Nat.add_mul_mod_self_left]
    rcases Nat.eq_or_lt_of_le hle with rfl | hlt
    · simp
    · rw [Nat.mod_eq_of_lt (by omega)]
      omega
  have hdrop : padded.drop (padded.length - p) = List.replicate p (UInt8.ofNat p) := by
    refine List.ext_getElem (by simp; omega) fun i hi hi' => ?_
    rw [List.length_replicate] at hi'
    have hget := hall (p - 1 - i) (by omega)
    rw [show padded.length - 1 - (p - 1 - i) = padded.length - p + i by omega,
      List.getD_eq_getElem _ _ (by omega)] at hget
    rw [List.getElem_drop, List.getElem_replicate, hget]
  rw [pad, hlen, hpad, ← hdrop, List.take_append_drop]

end

end Pkcs7
