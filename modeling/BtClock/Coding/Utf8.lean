import BtClock.Arith.Bits
import BtClock.Coding.Separated

/-!
# UTF-8 sequences

A scalar value is encoded in one to four bytes.  The first byte tells how many there are, and
each of the others carries six bits.
-/

namespace Utf8

open Bits

/-- The bytes of a scalar value. -/
abbrev encode (c : Char) : List UInt8 :=
  String.utf8EncodeChar c

/-- A continuation byte. -/
def IsContinuation (b : UInt8) : Prop :=
  b &&& 0xC0 = 0x80

instance (b : UInt8) : Decidable (IsContinuation b) :=
  inferInstanceAs (Decidable (_ = _))

/-- The first byte of a sequence of two, three and four bytes. -/
def LeadsTwo (b : UInt8) : Prop :=
  b &&& 0xE0 = 0xC0

def LeadsThree (b : UInt8) : Prop :=
  b &&& 0xF0 = 0xE0

def LeadsFour (b : UInt8) : Prop :=
  b &&& 0xF8 = 0xF0

instance (b : UInt8) : Decidable (LeadsTwo b) :=
  inferInstanceAs (Decidable (_ = _))

instance (b : UInt8) : Decidable (LeadsThree b) :=
  inferInstanceAs (Decidable (_ = _))

instance (b : UInt8) : Decidable (LeadsFour b) :=
  inferInstanceAs (Decidable (_ = _))

/-- The bits of a sequence of two, three and four bytes. -/
def scalarTwo (c0 c1 : UInt8) : ℕ :=
  (c0 &&& 0x1F).toNat <<< 6 ||| (c1 &&& 0x3F).toNat

def scalarThree (c0 c1 c2 : UInt8) : ℕ :=
  (c0 &&& 0x0F).toNat <<< 12 ||| (c1 &&& 0x3F).toNat <<< 6 ||| (c2 &&& 0x3F).toNat

def scalarFour (c0 c1 c2 c3 : UInt8) : ℕ :=
  (c0 &&& 0x07).toNat <<< 18 ||| (c1 &&& 0x3F).toNat <<< 12 ||| (c2 &&& 0x3F).toNat <<< 6 |||
    (c3 &&& 0x3F).toNat

/-! ### The bytes as numbers -/

theorem isContinuation_iff (b : UInt8) : IsContinuation b ↔ 0x80 ≤ b.toNat ∧ b.toNat < 0xC0 := by
  have hall : ∀ n < 256, IsContinuation (UInt8.ofNat n) ↔ 0x80 ≤ n ∧ n < 0xC0 := by
    decide +kernel
  simpa using hall b.toNat b.toNat_lt

theorem leadsTwo_iff (b : UInt8) : LeadsTwo b ↔ 0xC0 ≤ b.toNat ∧ b.toNat < 0xE0 := by
  have hall : ∀ n < 256, LeadsTwo (UInt8.ofNat n) ↔ 0xC0 ≤ n ∧ n < 0xE0 := by
    decide +kernel
  simpa using hall b.toNat b.toNat_lt

theorem leadsThree_iff (b : UInt8) : LeadsThree b ↔ 0xE0 ≤ b.toNat ∧ b.toNat < 0xF0 := by
  have hall : ∀ n < 256, LeadsThree (UInt8.ofNat n) ↔ 0xE0 ≤ n ∧ n < 0xF0 := by
    decide +kernel
  simpa using hall b.toNat b.toNat_lt

theorem leadsFour_iff (b : UInt8) : LeadsFour b ↔ 0xF0 ≤ b.toNat ∧ b.toNat < 0xF8 := by
  have hall : ∀ n < 256, LeadsFour (UInt8.ofNat n) ↔ 0xF0 ≤ n ∧ n < 0xF8 := by
    decide +kernel
  simpa using hall b.toNat b.toNat_lt

theorem not_ascii {b : UInt8} (h : 0x80 ≤ b.toNat) : ¬ b < 0x80 := by
  rw [UInt8.lt_iff_toNat_lt]
  exact Nat.not_lt.mpr h

theorem LeadsTwo.not_ascii {b : UInt8} (h : LeadsTwo b) : ¬ b < 0x80 :=
  Utf8.not_ascii (Nat.le_trans (by decide) ((leadsTwo_iff b).mp h).1)

theorem LeadsThree.not_ascii {b : UInt8} (h : LeadsThree b) : ¬ b < 0x80 :=
  Utf8.not_ascii (Nat.le_trans (by decide) ((leadsThree_iff b).mp h).1)

theorem LeadsFour.not_ascii {b : UInt8} (h : LeadsFour b) : ¬ b < 0x80 :=
  Utf8.not_ascii (Nat.le_trans (by decide) ((leadsFour_iff b).mp h).1)

theorem LeadsThree.not_leadsTwo {b : UInt8} (h : LeadsThree b) : ¬ LeadsTwo b := by
  rw [leadsThree_iff] at h
  rw [leadsTwo_iff]
  omega

theorem LeadsFour.not_leads {b : UInt8} (h : LeadsFour b) : ¬ LeadsTwo b ∧ ¬ LeadsThree b := by
  rw [leadsFour_iff] at h
  rw [leadsTwo_iff, leadsThree_iff]
  omega

theorem toNat_and_mask (b : UInt8) (k : ℕ) (hk : 2 ^ k - 1 < 256) :
    (b &&& UInt8.ofNat (2 ^ k - 1)).toNat = b.toNat % 2 ^ k := by
  rw [UInt8.toNat_and, UInt8.toNat_ofNat_of_lt' hk, and_two_pow_sub_one]

theorem toNat_and_low (b : UInt8) :
    (b &&& 0x1F).toNat = b.toNat % 32 ∧ (b &&& 0x0F).toNat = b.toNat % 16 ∧
      (b &&& 0x07).toNat = b.toNat % 8 ∧ (b &&& 0x3F).toNat = b.toNat % 64 :=
  ⟨toNat_and_mask b 5 (by decide), toNat_and_mask b 4 (by decide), toNat_and_mask b 3 (by decide),
    toNat_and_mask b 6 (by decide)⟩

/-- Two groups of six bits, with what stands above them. -/
theorem shiftLeft_or_six (x y : ℕ) (k : ℕ) :
    x <<< (6 + k) ||| y <<< k = (x <<< 6 ||| y) <<< k := by
  rw [Nat.shiftLeft_or_distrib, Nat.shiftLeft_add]

theorem shiftLeft_six_or {x y : ℕ} (hy : y < 64) : x <<< 6 ||| y = x * 64 + y :=
  shiftLeft_or_eq_add (k := 6) hy

theorem scalarTwo_eq (c0 c1 : UInt8) :
    scalarTwo c0 c1 = c0.toNat % 32 * 64 + c1.toNat % 64 := by
  rw [scalarTwo, (toNat_and_low c0).1, (toNat_and_low c1).2.2.2,
    shiftLeft_six_or (Nat.mod_lt _ (by decide))]

theorem scalarThree_eq (c0 c1 c2 : UInt8) :
    scalarThree c0 c1 c2 =
      c0.toNat % 16 * 4096 + c1.toNat % 64 * 64 + c2.toNat % 64 := by
  rw [scalarThree, (toNat_and_low c0).2.1, (toNat_and_low c1).2.2.2, (toNat_and_low c2).2.2.2,
    shiftLeft_or_six _ _ 6, shiftLeft_six_or (Nat.mod_lt _ (by decide)),
    shiftLeft_six_or (Nat.mod_lt _ (by decide))]
  omega

theorem scalarFour_eq (c0 c1 c2 c3 : UInt8) :
    scalarFour c0 c1 c2 c3 =
      c0.toNat % 8 * 262144 + c1.toNat % 64 * 4096 + c2.toNat % 64 * 64 + c3.toNat % 64 := by
  rw [scalarFour, (toNat_and_low c0).2.2.1, (toNat_and_low c1).2.2.2, (toNat_and_low c2).2.2.2,
    (toNat_and_low c3).2.2.2, shiftLeft_or_six _ _ 12, shiftLeft_or_six _ _ 6,
    shiftLeft_six_or (Nat.mod_lt _ (by decide)),
    shiftLeft_six_or (Nat.mod_lt _ (by decide)), shiftLeft_six_or (Nat.mod_lt _ (by decide))]
  omega

/-! ### Encoding -/

theorem toNat_ofNat_of_isValidChar {n : ℕ} (h : n.isValidChar) : (Char.ofNat n).toNat = n := by
  rw [Char.ofNat, dif_pos h]
  rfl

theorem encode_eq (c : Char) :
    encode c =
      if c.toNat ≤ 0x7F then [UInt8.ofNat c.toNat]
      else if c.toNat ≤ 0x7FF then
        [UInt8.ofNat (c.toNat / 64 % 32 + 0xC0), UInt8.ofNat (c.toNat % 64 + 0x80)]
      else if c.toNat ≤ 0xFFFF then
        [UInt8.ofNat (c.toNat / 4096 % 16 + 0xE0), UInt8.ofNat (c.toNat / 64 % 64 + 0x80),
          UInt8.ofNat (c.toNat % 64 + 0x80)]
      else
        [UInt8.ofNat (c.toNat / 262144 % 8 + 0xF0), UInt8.ofNat (c.toNat / 4096 % 64 + 0x80),
          UInt8.ofNat (c.toNat / 64 % 64 + 0x80), UInt8.ofNat (c.toNat % 64 + 0x80)] :=
  rfl

theorem toNat_ofNat {n : ℕ} (h : n < 256) : (UInt8.ofNat n).toNat = n :=
  UInt8.toNat_ofNat_of_lt' h

theorem eq_ofNat {b : UInt8} {n : ℕ} (h : b.toNat = n) : UInt8.ofNat n = b := by
  rw [← h, UInt8.ofNat_toNat]

/-- The sequences with the scalar value which they stand for: no value is encoded in more bytes
than it takes, and none is a surrogate. -/
inductive Sequence : ℕ → List UInt8 → Prop
  | one {c0 : UInt8} (h0 : c0 < 0x80) : Sequence c0.toNat [c0]
  | two {c0 c1 : UInt8} (h0 : LeadsTwo c0) (h1 : IsContinuation c1)
      (hmin : 0x80 ≤ scalarTwo c0 c1) : Sequence (scalarTwo c0 c1) [c0, c1]
  | three {c0 c1 c2 : UInt8} (h0 : LeadsThree c0) (h1 : IsContinuation c1)
      (h2 : IsContinuation c2) (hmin : 0x800 ≤ scalarThree c0 c1 c2)
      (hsurrogate : ¬ (0xD800 ≤ scalarThree c0 c1 c2 ∧ scalarThree c0 c1 c2 ≤ 0xDFFF)) :
      Sequence (scalarThree c0 c1 c2) [c0, c1, c2]
  | four {c0 c1 c2 c3 : UInt8} (h0 : LeadsFour c0) (h1 : IsContinuation c1)
      (h2 : IsContinuation c2) (h3 : IsContinuation c3) (hmin : 0x10000 ≤ scalarFour c0 c1 c2 c3)
      (hmax : scalarFour c0 c1 c2 c3 ≤ 0x10FFFF) :
      Sequence (scalarFour c0 c1 c2 c3) [c0, c1, c2, c3]

/-- A sequence stands for a scalar value, and it is its encoding. -/
theorem Sequence.encode_eq {n : ℕ} {bytes : List UInt8} (h : Sequence n bytes) :
    n.isValidChar ∧ encode (Char.ofNat n) = bytes := by
  cases h with
  | @one c0 h0 =>
      have hlt : c0.toNat < 0x80 := UInt8.lt_iff_toNat_lt.mp h0
      have hvalid : c0.toNat.isValidChar := Or.inl (by omega)
      refine ⟨hvalid, ?_⟩
      rw [Utf8.encode_eq, toNat_ofNat_of_isValidChar hvalid, if_pos (by omega), UInt8.ofNat_toNat]
  | @two c0 c1 h0 h1 hmin =>
      rw [leadsTwo_iff] at h0
      rw [isContinuation_iff] at h1
      rw [scalarTwo_eq] at hmin ⊢
      have hvalid : (c0.toNat % 32 * 64 + c1.toNat % 64).isValidChar := Or.inl (by omega)
      refine ⟨hvalid, ?_⟩
      rw [Utf8.encode_eq, toNat_ofNat_of_isValidChar hvalid, if_neg (by omega), if_pos (by omega),
        eq_ofNat (b := c0) (by omega), eq_ofNat (b := c1) (by omega)]
  | @three c0 c1 c2 h0 h1 h2 hmin hsurrogate =>
      rw [leadsThree_iff] at h0
      rw [isContinuation_iff] at h1 h2
      rw [scalarThree_eq] at hmin hsurrogate ⊢
      have hvalid : (c0.toNat % 16 * 4096 + c1.toNat % 64 * 64 + c2.toNat % 64).isValidChar := by
        unfold Nat.isValidChar
        omega
      refine ⟨hvalid, ?_⟩
      rw [Utf8.encode_eq, toNat_ofNat_of_isValidChar hvalid, if_neg (by omega), if_neg (by omega),
        if_pos (by omega), eq_ofNat (b := c0) (by omega), eq_ofNat (b := c1) (by omega),
        eq_ofNat (b := c2) (by omega)]
  | @four c0 c1 c2 c3 h0 h1 h2 h3 hmin hmax =>
      rw [leadsFour_iff] at h0
      rw [isContinuation_iff] at h1 h2 h3
      rw [scalarFour_eq] at hmin hmax ⊢
      have hvalid : (c0.toNat % 8 * 262144 + c1.toNat % 64 * 4096 + c2.toNat % 64 * 64 +
          c3.toNat % 64).isValidChar := by
        unfold Nat.isValidChar
        omega
      refine ⟨hvalid, ?_⟩
      rw [Utf8.encode_eq, toNat_ofNat_of_isValidChar hvalid, if_neg (by omega), if_neg (by omega),
        if_neg (by omega), eq_ofNat (b := c0) (by omega), eq_ofNat (b := c1) (by omega),
        eq_ofNat (b := c2) (by omega), eq_ofNat (b := c3) (by omega)]

theorem sequence_two {n : ℕ} (hmin : 0x80 ≤ n) (hmax : n ≤ 0x7FF) :
    Sequence n [UInt8.ofNat (n / 64 % 32 + 0xC0), UInt8.ofNat (n % 64 + 0x80)] := by
  have h0 : (UInt8.ofNat (n / 64 % 32 + 0xC0)).toNat = n / 64 % 32 + 0xC0 :=
    toNat_ofNat (by omega)
  have h1 : (UInt8.ofNat (n % 64 + 0x80)).toNat = n % 64 + 0x80 :=
    toNat_ofNat (by omega)
  have hscalar :
      scalarTwo (UInt8.ofNat (n / 64 % 32 + 0xC0)) (UInt8.ofNat (n % 64 + 0x80)) = n := by
    rw [scalarTwo_eq, h0, h1]
    omega
  have hseq := Sequence.two ((leadsTwo_iff _).mpr (by omega))
    ((isContinuation_iff _).mpr (by omega)) (hscalar.symm ▸ hmin)
  rwa [hscalar] at hseq

theorem sequence_three {n : ℕ} (hmin : 0x800 ≤ n) (hmax : n ≤ 0xFFFF)
    (hsurrogate : ¬ (0xD800 ≤ n ∧ n ≤ 0xDFFF)) :
    Sequence n [UInt8.ofNat (n / 4096 % 16 + 0xE0), UInt8.ofNat (n / 64 % 64 + 0x80),
      UInt8.ofNat (n % 64 + 0x80)] := by
  have h0 : (UInt8.ofNat (n / 4096 % 16 + 0xE0)).toNat = n / 4096 % 16 + 0xE0 :=
    toNat_ofNat (by omega)
  have h1 : (UInt8.ofNat (n / 64 % 64 + 0x80)).toNat = n / 64 % 64 + 0x80 :=
    toNat_ofNat (by omega)
  have h2 : (UInt8.ofNat (n % 64 + 0x80)).toNat = n % 64 + 0x80 :=
    toNat_ofNat (by omega)
  have hscalar : scalarThree (UInt8.ofNat (n / 4096 % 16 + 0xE0))
      (UInt8.ofNat (n / 64 % 64 + 0x80)) (UInt8.ofNat (n % 64 + 0x80)) = n := by
    rw [scalarThree_eq, h0, h1, h2]
    omega
  have hseq := Sequence.three ((leadsThree_iff _).mpr (by omega))
    ((isContinuation_iff _).mpr (by omega)) ((isContinuation_iff _).mpr (by omega))
    (hscalar.symm ▸ hmin) (hscalar.symm ▸ hsurrogate)
  rwa [hscalar] at hseq

theorem sequence_four {n : ℕ} (hmin : 0x10000 ≤ n) (hmax : n ≤ 0x10FFFF) :
    Sequence n [UInt8.ofNat (n / 262144 % 8 + 0xF0), UInt8.ofNat (n / 4096 % 64 + 0x80),
      UInt8.ofNat (n / 64 % 64 + 0x80), UInt8.ofNat (n % 64 + 0x80)] := by
  have h0 : (UInt8.ofNat (n / 262144 % 8 + 0xF0)).toNat = n / 262144 % 8 + 0xF0 :=
    toNat_ofNat (by omega)
  have h1 : (UInt8.ofNat (n / 4096 % 64 + 0x80)).toNat = n / 4096 % 64 + 0x80 :=
    toNat_ofNat (by omega)
  have h2 : (UInt8.ofNat (n / 64 % 64 + 0x80)).toNat = n / 64 % 64 + 0x80 :=
    toNat_ofNat (by omega)
  have h3 : (UInt8.ofNat (n % 64 + 0x80)).toNat = n % 64 + 0x80 :=
    toNat_ofNat (by omega)
  have hscalar : scalarFour (UInt8.ofNat (n / 262144 % 8 + 0xF0))
      (UInt8.ofNat (n / 4096 % 64 + 0x80)) (UInt8.ofNat (n / 64 % 64 + 0x80))
      (UInt8.ofNat (n % 64 + 0x80)) = n := by
    rw [scalarFour_eq, h0, h1, h2, h3]
    omega
  have hseq := Sequence.four ((leadsFour_iff _).mpr (by omega))
    ((isContinuation_iff _).mpr (by omega)) ((isContinuation_iff _).mpr (by omega))
    ((isContinuation_iff _).mpr (by omega)) (hscalar.symm ▸ hmin) (hscalar.symm ▸ hmax)
  rwa [hscalar] at hseq

/-- The encoding of a scalar value is a sequence which stands for it. -/
theorem sequence_encode (c : Char) : Sequence c.toNat (encode c) := by
  have hvalid : c.toNat < 0xD800 ∨ 0xDFFF < c.toNat ∧ c.toNat < 0x110000 := c.valid
  rw [encode_eq]
  split
  · rename_i hone
    have h0 : (UInt8.ofNat c.toNat).toNat = c.toNat := toNat_ofNat (by omega)
    have hlt : UInt8.ofNat c.toNat < 0x80 := by
      rw [UInt8.lt_iff_toNat_lt, h0]
      exact Nat.lt_of_le_of_lt hone (by decide)
    have hseq := Sequence.one hlt
    rwa [h0] at hseq
  · split
    · exact sequence_two (by omega) (by omega)
    · split
      · exact sequence_three (by omega) (by omega) (by omega)
      · exact sequence_four (by omega) (by omega)

/-- An ASCII byte stands in the encoding of its own character only. -/
theorem Sequence.eq_of_mem {n : ℕ} {bytes : List UInt8} {b : UInt8} (h : Sequence n bytes)
    (hb : b < 0x80) (hmem : b ∈ bytes) : n = b.toNat := by
  have hcont : ¬ IsContinuation b := fun hcont =>
    not_ascii ((isContinuation_iff b).mp hcont).1 hb
  cases h with
  | one h0 =>
      rw [List.mem_singleton.mp hmem]
  | two h0 h1 hmin =>
      simp only [List.mem_cons, List.not_mem_nil, or_false] at hmem
      rcases hmem with rfl | rfl
      · exact absurd hb h0.not_ascii
      · exact absurd h1 hcont
  | three h0 h1 h2 hmin hsurrogate =>
      simp only [List.mem_cons, List.not_mem_nil, or_false] at hmem
      rcases hmem with rfl | rfl | rfl
      · exact absurd hb h0.not_ascii
      · exact absurd h1 hcont
      · exact absurd h2 hcont
  | four h0 h1 h2 h3 hmin hmax =>
      simp only [List.mem_cons, List.not_mem_nil, or_false] at hmem
      rcases hmem with rfl | rfl | rfl | rfl
      · exact absurd hb h0.not_ascii
      · exact absurd h1 hcont
      · exact absurd h2 hcont
      · exact absurd h3 hcont

/-! ### Texts -/

/-- The bytes of a text. -/
def encodeText (text : List Char) : List UInt8 :=
  text.flatMap encode

/-- The text of which these are the bytes. -/
def decodeText? (bytes : List UInt8) : Option (List Char) :=
  (String.fromUTF8? bytes.toByteArray).map String.toList

theorem encodeText_append (xs ys : List Char) :
    encodeText (xs ++ ys) = encodeText xs ++ encodeText ys :=
  List.flatMap_append

theorem encodeText_eq_nil_iff {text : List Char} : encodeText text = [] ↔ text = [] := by
  rw [encodeText, List.flatMap_eq_nil_iff]
  constructor
  · intro h
    refine List.eq_nil_iff_forall_not_mem.mpr fun c hc => ?_
    exact String.utf8EncodeChar_ne_nil (h c hc)
  · rintro rfl c hc
    exact absurd hc List.not_mem_nil

/-- What is read of the bytes of a text is the text. -/
theorem decodeText?_encodeText (text : List Char) :
    decodeText? (encodeText text) = some text := by
  have hbytes : (encodeText text).toByteArray = text.utf8Encode := rfl
  have hvalid : ByteArray.IsValidUTF8 text.utf8Encode := ByteArray.isValidUTF8_utf8Encode
  have hstring : String.fromUTF8 text.utf8Encode hvalid = String.ofList text := by
    rw [← String.toByteArray_inj, String.toByteArray_ofList]
    rfl
  rw [decodeText?, hbytes, String.fromUTF8?, dif_pos hvalid, hstring, Option.map_some,
    String.toList_ofList]

/-- The parts between an ASCII character are encoded one by one. -/
theorem splitOn_encodeText {sep : Char} {b : UInt8} (hsep : encode sep = [b]) (hb : b < 0x80)
    (text : List Char) :
    (encodeText text).splitOn b = (text.splitOn sep).map encodeText := by
  have hself : sep.toNat = b.toNat :=
    (sequence_encode sep).eq_of_mem hb (hsep ▸ List.mem_cons_self)
  refine Separated.splitOn_flatMap hsep (fun c hc hmem => hc ?_) text
  exact Char.toNat_inj.mp (((sequence_encode c).eq_of_mem hb hmem).trans hself.symm)

end Utf8
