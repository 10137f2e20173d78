import BtClock.Coding.Base64

/-!
# The base64 text of a payload

The coder of the encrypted payloads, which puts three bytes into one word.
-/

namespace BtClock

namespace Nostr

def kBase64Alphabet : List Char :=
  "ABCDEFGHIJKLMNOPQRSTUVWXYZabcdefghijklmnopqrstuvwxyz0123456789+/".toList

/-- The digit of the lowest six bits. -/
def base64Digit (v : ℕ) : Char :=
  kBase64Alphabet.getD (v &&& 0x3f) 'A'

def base64Encode : List UInt8 → List Char
  | [] => []
  | [a] =>
      let v := a.toNat <<< 16
      [base64Digit (v >>> 18), base64Digit (v >>> 12), '=', '=']
  | [a, b] =>
      let v := a.toNat <<< 16 ||| b.toNat <<< 8
      [base64Digit (v >>> 18), base64Digit (v >>> 12), base64Digit (v >>> 6), '=']
  | a :: b :: c :: data =>
      let v := a.toNat <<< 16 ||| b.toNat <<< 8 ||| c.toNat
      [base64Digit (v >>> 18), base64Digit (v >>> 12), base64Digit (v >>> 6), base64Digit v] ++
        base64Encode data

/-- The reverse lookup. -/
def lut (c : Char) : Option ℕ :=
  kBase64Alphabet.idxOf? c

def lowByte (v : ℕ) : UInt8 :=
  UInt8.ofNat (v &&& 0xff)

/-- The groups of four characters in turn. -/
def base64Groups : List Char → Option (List UInt8)
  | c₀ :: c₁ :: c₂ :: c₃ :: rest => do
      let v₀ ← lut c₀
      let v₁ ← lut c₁
      let v := v₀ <<< 18 ||| v₁ <<< 12
      if c₂ = '=' then
        if c₃ ≠ '=' ∨ rest ≠ [] then none else some [lowByte (v >>> 16)]
      else
        let v₂ ← lut c₂
        let v := v ||| v₂ <<< 6
        if c₃ = '=' then
          if rest ≠ [] then none else some [lowByte (v >>> 16), lowByte (v >>> 8)]
        else
          let v₃ ← lut c₃
          let v := v ||| v₃
          let bytes ← base64Groups rest
          some (lowByte (v >>> 16) :: lowByte (v >>> 8) :: lowByte v :: bytes)
  | _ => some []

def base64Decode (s : List Char) : Option (List UInt8) :=
  if s.length % 4 ≠ 0 then none else base64Groups s

/-! ### The standard coder -/

theorem lut_digit : ∀ n < 64, lut (kBase64Alphabet.getD n 'A') = some n := by
  decide +kernel

theorem lut_pad : lut '=' = none := by
  decide +kernel

def payloadBase64 : Base64 Char where
  digit n := kBase64Alphabet.getD n 'A'
  value := lut
  pad := '='
  value_digit := lut_digit
  value_pad := lut_pad

theorem base64Digit_eq (v : ℕ) : base64Digit v = payloadBase64.digit (v % 64) := by
  have hmask : v &&& 0x3f = v % 64 := Bits.and_two_pow_sub_one v 6
  rw [base64Digit, hmask]
  rfl

/-- Three bytes in one word. -/
theorem word_eq_add (a b c : UInt8) :
    a.toNat <<< 16 ||| b.toNat <<< 8 ||| c.toNat =
      a.toNat * 65536 + b.toNat * 256 + c.toNat := by
  have hb := b.toNat_lt
  have hc := c.toNat_lt
  have hlow : b.toNat <<< 8 ||| c.toNat = b.toNat * 256 + c.toNat :=
    Bits.shiftLeft_or_eq_add (k := 8) (by omega)
  have hhigh : b.toNat * 256 + c.toNat < 2 ^ 16 := by omega
  rw [Nat.or_assoc, hlow, Bits.shiftLeft_or_eq_add hhigh, Nat.add_assoc]
  rfl

/-- The digits of the word are those of the three bytes. -/
theorem digits_word (a b c : UInt8) :
    let v := a.toNat <<< 16 ||| b.toNat <<< 8 ||| c.toNat
    [base64Digit (v >>> 18), base64Digit (v >>> 12), base64Digit (v >>> 6), base64Digit v] =
      payloadBase64.quad a b c := by
  have ha := a.toNat_lt
  have hb := b.toNat_lt
  have hc := c.toNat_lt
  simp only [word_eq_add, base64Digit_eq, Base64.quad, Nat.shiftRight_eq_div_pow]
  refine List.cons_eq_cons.mpr ⟨?_, List.cons_eq_cons.mpr ⟨?_, List.cons_eq_cons.mpr ⟨?_, ?_⟩⟩⟩
  · exact congrArg _ (by omega)
  · exact congrArg _ (by omega)
  · exact congrArg _ (by omega)
  · exact congrArg (fun n => [payloadBase64.digit n]) (by omega)

/-- The encoder is the one of the standard alphabet. -/
theorem base64Encode_eq (data : List UInt8) : base64Encode data = payloadBase64.encode data := by
  induction data using Base64.encode.induct with
  | case1 => rfl
  | case2 a =>
      have hword := digits_word a 0 0
      simp only [UInt8.toNat_zero, Nat.zero_shiftLeft, Nat.or_zero, Base64.quad,
        List.cons.injEq, Nat.zero_div, Nat.add_zero] at hword
      simp only [base64Encode, Base64.encode, hword.1, hword.2.1]
      rfl
  | case3 a b =>
      have hword := digits_word a b 0
      simp only [UInt8.toNat_zero, Nat.or_zero, Base64.quad, List.cons.injEq, Nat.zero_div,
        Nat.add_zero] at hword
      simp only [base64Encode, Base64.encode, hword.1, hword.2.1, hword.2.2.1]
      rfl
  | case4 a b c data ih =>
      rw [base64Encode, Base64.encode, ih, ← digits_word]

theorem lut_lt {c : Char} {v : ℕ} (h : lut c = some v) : v < 64 := by
  have hmem : v < kBase64Alphabet.length := by
    rw [lut, List.idxOf?, List.findIdx?_eq_some_iff_getElem] at h
    exact h.1
  exact hmem

theorem lowByte_eq (v : ℕ) : lowByte v = UInt8.ofNat (v % 256) := by
  have hmask : v &&& 0xff = v % 256 := Bits.and_two_pow_sub_one v 8
  rw [lowByte, hmask]

/-- Four digits in one word. -/
theorem group_eq_add (v₀ : ℕ) {v₁ v₂ v₃ : ℕ} (h₁ : v₁ < 64) (h₂ : v₂ < 64) (h₃ : v₃ < 64) :
    v₀ <<< 18 ||| v₁ <<< 12 ||| v₂ <<< 6 ||| v₃ =
      v₀ * 262144 + v₁ * 4096 + v₂ * 64 + v₃ := by
  have hlow : v₂ <<< 6 ||| v₃ = v₂ * 64 + v₃ := Bits.shiftLeft_or_eq_add (k := 6) h₃
  have hmid : v₁ <<< 12 ||| (v₂ * 64 + v₃) = v₁ * 4096 + (v₂ * 64 + v₃) :=
    Bits.shiftLeft_or_eq_add (k := 12) (by omega)
  have hhigh : v₀ <<< 18 ||| (v₁ * 4096 + (v₂ * 64 + v₃)) =
      v₀ * 262144 + (v₁ * 4096 + (v₂ * 64 + v₃)) :=
    Bits.shiftLeft_or_eq_add (k := 18) (by omega)
  rw [Nat.or_assoc, Nat.or_assoc, hlow, hmid, hhigh]
  omega

/-- The bytes of the word are those of the four digits. -/
theorem bytes_group (v₀ : ℕ) {v₁ v₂ v₃ : ℕ} (h₁ : v₁ < 64) (h₂ : v₂ < 64) (h₃ : v₃ < 64) :
    let v := v₀ <<< 18 ||| v₁ <<< 12 ||| v₂ <<< 6 ||| v₃
    lowByte (v >>> 16) = Base64.byte₁ v₀ v₁ ∧ lowByte (v >>> 8) = Base64.byte₂ v₁ v₂ ∧
      lowByte v = Base64.byte₃ v₂ v₃ := by
  have hmod : ∀ {m n : ℕ}, m % 256 = n % 256 → UInt8.ofNat (m % 256) = UInt8.ofNat n := by
    intro m n h
    rw [h]
    exact UInt8.toNat_inj.mp (by simp)
  simp only [group_eq_add v₀ h₁ h₂ h₃, lowByte_eq, Nat.shiftRight_eq_div_pow]
  exact ⟨hmod (by omega), hmod (by omega), hmod (by omega)⟩

theorem base64Groups_cons (c₀ c₁ c₂ c₃ : Char) (rest : List Char) :
    base64Groups (c₀ :: c₁ :: c₂ :: c₃ :: rest) =
      payloadBase64.group c₀ c₁ c₂ c₃ rest (base64Groups rest) := by
  have hvalue : ∀ c, payloadBase64.value c = lut c := fun _ => rfl
  have hpad : payloadBase64.pad = '=' := rfl
  simp only [base64Groups, Base64.group, hvalue, hpad]
  cases h₀ : lut c₀ with
  | none => rfl
  | some v₀ =>
      cases h₁ : lut c₁ with
      | none => rfl
      | some v₁ =>
          have hv₁ := lut_lt h₁
          by_cases hc₂ : c₂ = '='
          · have hbyte := (bytes_group v₀ hv₁ (Nat.zero_lt_succ 63) (Nat.zero_lt_succ 63)).1
            simp only [Nat.zero_shiftLeft, Nat.or_zero] at hbyte
            by_cases hc₃ : c₃ = '=' <;> by_cases hrest : rest = [] <;>
              simp [hc₂, hc₃, hrest, hbyte]
          cases h₂ : lut c₂ with
          | none => simp [hc₂]
          | some v₂ =>
              have hv₂ := lut_lt h₂
              by_cases hc₃ : c₃ = '='
              · have hbytes := bytes_group v₀ hv₁ hv₂ (Nat.zero_lt_succ 63)
                simp only [Nat.or_zero] at hbytes
                by_cases hrest : rest = [] <;> simp [hc₂, hc₃, hrest, hbytes.1, hbytes.2.1]
              cases h₃ : lut c₃ with
              | none => simp [hc₂, hc₃]
              | some v₃ =>
                  obtain ⟨hbyte₁, hbyte₂, hbyte₃⟩ :=
                    bytes_group v₀ hv₁ hv₂ (lut_lt h₃)
                  simp only [Option.bind_eq_bind, Option.bind_some, if_neg hc₂, if_neg hc₃,
                    hbyte₁, hbyte₂, hbyte₃]
                  cases base64Groups rest <;> rfl

/-- The decoder is the one of the standard alphabet. -/
theorem base64Decode_eq (s : List Char) : base64Decode s = payloadBase64.decode s :=
  payloadBase64.eq_decode rfl base64Groups_cons s

theorem base64Decode_base64Encode (data : List UInt8) :
    base64Decode (base64Encode data) = some data := by
  rw [base64Decode_eq, base64Encode_eq, Base64.decode_encode]

theorem length_base64Encode (data : List UInt8) :
    (base64Encode data).length = (data.length + 2) / 3 * 4 := by
  rw [base64Encode_eq, Base64.length_encode]

end Nostr

end BtClock
