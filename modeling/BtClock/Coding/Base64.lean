import BtClock.Arith.Bits

/-!
# Base64

Three bytes are written as four digits of six bits each, and a last group which is not full is
padded.  Encoding and decoding work over any alphabet of 64 digits and a padding character.
-/

/-- The 64 digits with their values, and the padding, which is not a digit. -/
structure Base64 (α : Type*) where
  digit : ℕ → α
  value : α → Option ℕ
  pad : α
  value_digit : ∀ n < 64, value (digit n) = some n
  value_pad : value pad = none

namespace Base64

variable {α : Type*} (A : Base64 α)

/-- The three bytes in four digits. -/
def quad (a b c : UInt8) : List α :=
  [A.digit (a.toNat / 4), A.digit (a.toNat % 4 * 16 + b.toNat / 16),
    A.digit (b.toNat % 16 * 4 + c.toNat / 64), A.digit (c.toNat % 64)]

def encode : List UInt8 → List α
  | [] => []
  | [a] => [A.digit (a.toNat / 4), A.digit (a.toNat % 4 * 16), A.pad, A.pad]
  | [a, b] =>
      [A.digit (a.toNat / 4), A.digit (a.toNat % 4 * 16 + b.toNat / 16),
        A.digit (b.toNat % 16 * 4), A.pad]
  | a :: b :: c :: bytes => A.quad a b c ++ encode bytes

/-- The first, the second and the third byte of a group of digits. -/
def byte₁ (v₀ v₁ : ℕ) : UInt8 :=
  UInt8.ofNat (v₀ * 4 + v₁ / 16)

def byte₂ (v₁ v₂ : ℕ) : UInt8 :=
  UInt8.ofNat (v₁ % 16 * 16 + v₂ / 4)

def byte₃ (v₂ v₃ : ℕ) : UInt8 :=
  UInt8.ofNat (v₂ % 4 * 64 + v₃)

/-- The bytes of a group and those of the rest.  Padding stands at the end of the last group
only. -/
def group [DecidableEq α] (c₀ c₁ c₂ c₃ : α) (rest : List α) (bytes : Option (List UInt8)) :
    Option (List UInt8) := do
  let v₀ ← A.value c₀
  let v₁ ← A.value c₁
  if c₂ = A.pad then
    if c₃ = A.pad ∧ rest = [] then some [byte₁ v₀ v₁] else none
  else
    let v₂ ← A.value c₂
    if c₃ = A.pad then
      if rest = [] then some [byte₁ v₀ v₁, byte₂ v₁ v₂] else none
    else
      let v₃ ← A.value c₃
      bytes.map fun bytes => byte₁ v₀ v₁ :: byte₂ v₁ v₂ :: byte₃ v₂ v₃ :: bytes

def decode [DecidableEq α] : List α → Option (List UInt8)
  | [] => some []
  | c₀ :: c₁ :: c₂ :: c₃ :: rest => A.group c₀ c₁ c₂ c₃ rest (decode rest)
  | _ => none

theorem digit_ne_pad {n : ℕ} (h : n < 64) : A.digit n ≠ A.pad := by
  intro heq
  have hvalue := A.value_digit n h
  rw [heq, A.value_pad] at hvalue
  cases hvalue

theorem byte₁_eq (a : UInt8) {x : ℕ} (hx : x < 16) :
    byte₁ (a.toNat / 4) (a.toNat % 4 * 16 + x) = a := by
  have hsum : a.toNat / 4 * 4 + (a.toNat % 4 * 16 + x) / 16 = a.toNat := by omega
  rw [byte₁, hsum, UInt8.ofNat_toNat]

theorem byte₂_eq (a : ℕ) (b : UInt8) {x : ℕ} (hx : x < 4) :
    byte₂ (a % 4 * 16 + b.toNat / 16) (b.toNat % 16 * 4 + x) = b := by
  have hb := b.toNat_lt
  have hsum : (a % 4 * 16 + b.toNat / 16) % 16 * 16 + (b.toNat % 16 * 4 + x) / 4 =
      b.toNat := by omega
  rw [byte₂, hsum, UInt8.ofNat_toNat]

theorem byte₃_eq (b : ℕ) (c : UInt8) :
    byte₃ (b % 16 * 4 + c.toNat / 64) (c.toNat % 64) = c := by
  have hc := c.toNat_lt
  have hsum : (b % 16 * 4 + c.toNat / 64) % 4 * 64 + c.toNat % 64 = c.toNat := by omega
  rw [byte₃, hsum, UInt8.ofNat_toNat]

/-! The bytes of a group, put together from bits. -/

theorem byte₁_eq_bits (v₀ : ℕ) {v₁ : ℕ} (h : v₁ < 64) :
    UInt8.ofNat (v₀ <<< 2 ||| v₁ >>> 4) = byte₁ v₀ v₁ := by
  have hlow : v₁ >>> 4 < 2 ^ 2 := by
    rw [Nat.shiftRight_eq_div_pow]
    omega
  rw [Bits.shiftLeft_or_eq_add hlow, Nat.shiftRight_eq_div_pow]
  rfl

theorem byte₂_eq_bits (v₁ : ℕ) {v₂ : ℕ} (h : v₂ < 64) :
    UInt8.ofNat ((v₁ &&& 0x0F) <<< 4 ||| v₂ >>> 2) = byte₂ v₁ v₂ := by
  have hlow : v₂ >>> 2 < 2 ^ 4 := by
    rw [Nat.shiftRight_eq_div_pow]
    omega
  have hmask : v₁ &&& 0x0F = v₁ % 16 := Bits.and_two_pow_sub_one v₁ 4
  rw [Bits.shiftLeft_or_eq_add hlow, Nat.shiftRight_eq_div_pow, hmask]
  rfl

theorem byte₃_eq_bits (v₂ : ℕ) {v₃ : ℕ} (h : v₃ < 64) :
    UInt8.ofNat ((v₂ &&& 0x03) <<< 6 ||| v₃) = byte₃ v₂ v₃ := by
  have hmask : v₂ &&& 0x03 = v₂ % 4 := Bits.and_two_pow_sub_one v₂ 2
  rw [Bits.shiftLeft_or_eq_add (k := 6) h, hmask]
  rfl

/-- The values of the digits stay below 64. -/
theorem digits_lt (a b c : UInt8) :
    a.toNat / 4 < 64 ∧ a.toNat % 4 * 16 + b.toNat / 16 < 64 ∧
      b.toNat % 16 * 4 + c.toNat / 64 < 64 ∧ c.toNat % 64 < 64 := by
  have ha := a.toNat_lt
  have hb := b.toNat_lt
  have hc := c.toNat_lt
  omega

variable [DecidableEq α]

theorem decode_quad_append (a b c : UInt8) (rest : List α) :
    A.decode (A.quad a b c ++ rest) =
      (A.decode rest).map fun bytes => a :: b :: c :: bytes := by
  obtain ⟨h₀, h₁, h₂, h₃⟩ := digits_lt a b c
  have hb := b.toNat_lt
  have hc := c.toNat_lt
  have hbyte₁ : byte₁ (a.toNat / 4) (a.toNat % 4 * 16 + b.toNat / 16) = a :=
    byte₁_eq a (by omega)
  have hbyte₂ : byte₂ (a.toNat % 4 * 16 + b.toNat / 16) (b.toNat % 16 * 4 + c.toNat / 64) = b :=
    byte₂_eq a.toNat b (by omega)
  simp only [quad, List.cons_append, List.nil_append, decode, group, A.value_digit _ h₀,
    A.value_digit _ h₁, A.value_digit _ h₂, A.value_digit _ h₃, A.digit_ne_pad h₂,
    A.digit_ne_pad h₃, if_false, Option.bind_eq_bind, Option.bind_some, hbyte₁, hbyte₂,
    byte₃_eq]

/-- What was encoded is decoded. -/
theorem decode_encode (bytes : List UInt8) : A.decode (A.encode bytes) = some bytes := by
  induction bytes using encode.induct with
  | case1 => rfl
  | case2 a =>
      have ha := a.toNat_lt
      have hbyte : byte₁ (a.toNat / 4) (a.toNat % 4 * 16) = a := byte₁_eq a (x := 0) (by omega)
      simp [encode, decode, group, A.value_digit (a.toNat / 4) (by omega),
        A.value_digit (a.toNat % 4 * 16) (by omega), hbyte]
  | case3 a b =>
      have hb := b.toNat_lt
      obtain ⟨h₀, h₁, -, -⟩ := digits_lt a b 0
      have h₂ : b.toNat % 16 * 4 < 64 := by omega
      have hbyte₁ : byte₁ (a.toNat / 4) (a.toNat % 4 * 16 + b.toNat / 16) = a :=
        byte₁_eq a (by omega)
      have hbyte₂ : byte₂ (a.toNat % 4 * 16 + b.toNat / 16) (b.toNat % 16 * 4) = b :=
        byte₂_eq a.toNat b (x := 0) (by omega)
      simp [encode, decode, group, A.value_digit _ h₀, A.value_digit _ h₁, A.value_digit _ h₂,
        A.digit_ne_pad h₂, hbyte₁, hbyte₂]
  | case4 a b c bytes ih => rw [encode, decode_quad_append, ih, Option.map_some]

/-- A decoder which goes through the groups in the same way, and takes whole groups only. -/
theorem eq_decode {f : List α → Option (List UInt8)} (hnil : f [] = some [])
    (hgroup : ∀ c₀ c₁ c₂ c₃ rest,
      f (c₀ :: c₁ :: c₂ :: c₃ :: rest) = A.group c₀ c₁ c₂ c₃ rest (f rest)) (cs : List α) :
    (if cs.length % 4 ≠ 0 then none else f cs) = A.decode cs := by
  induction cs using decode.induct with
  | case1 => simp [hnil, decode]
  | case2 c₀ c₁ c₂ c₃ rest ih =>
      have hlen : (c₀ :: c₁ :: c₂ :: c₃ :: rest).length % 4 = rest.length % 4 := by
        simp only [List.length_cons]
        omega
      rw [decode, ← ih, hlen, hgroup]
      split
      · rename_i hne
        have hrest : rest ≠ [] := by
          rintro rfl
          exact hne rfl
        simp [group, hrest]
      · rfl
  | case3 cs hcons₀ hcons =>
      rcases cs with _ | ⟨a, _ | ⟨b, _ | ⟨c, _ | ⟨d, cs⟩⟩⟩⟩
      · exact absurd rfl hcons₀
      · rfl
      · rfl
      · rfl
      · exact absurd rfl (hcons a b c d cs)

omit [DecidableEq α] in
theorem length_encode (bytes : List UInt8) :
    (A.encode bytes).length = (bytes.length + 2) / 3 * 4 := by
  induction bytes using encode.induct with
  | case1 => simp [encode]
  | case2 a => simp [encode]
  | case3 a b => simp [encode]
  | case4 a b c bytes ih =>
      rw [encode, List.length_append, ih]
      simp only [quad, List.length_cons, List.length_nil]
      omega

omit [DecidableEq α] in
/-- An encoding consists of digits and padding. -/
theorem mem_encode {bytes : List UInt8} {c : α} (h : c ∈ A.encode bytes) :
    c = A.pad ∨ ∃ n < 64, c = A.digit n := by
  induction bytes using encode.induct with
  | case1 => cases h
  | case2 a =>
      have ha := a.toNat_lt
      simp only [encode, List.mem_cons, List.not_mem_nil, or_false, or_self] at h
      rcases h with rfl | rfl | rfl
      · exact Or.inr ⟨_, by omega, rfl⟩
      · exact Or.inr ⟨_, by omega, rfl⟩
      · exact Or.inl rfl
  | case3 a b =>
      have hb := b.toNat_lt
      obtain ⟨h₀, h₁, -, -⟩ := digits_lt a b 0
      simp only [encode, List.mem_cons, List.not_mem_nil, or_false] at h
      rcases h with rfl | rfl | rfl | rfl
      · exact Or.inr ⟨_, h₀, rfl⟩
      · exact Or.inr ⟨_, h₁, rfl⟩
      · exact Or.inr ⟨_, by omega, rfl⟩
      · exact Or.inl rfl
  | case4 a b c' bytes ih =>
      obtain ⟨h₀, h₁, h₂, h₃⟩ := digits_lt a b c'
      rw [encode, List.mem_append] at h
      rcases h with h | h
      · simp only [quad, List.mem_cons, List.not_mem_nil, or_false] at h
        rcases h with rfl | rfl | rfl | rfl
        · exact Or.inr ⟨_, h₀, rfl⟩
        · exact Or.inr ⟨_, h₁, rfl⟩
        · exact Or.inr ⟨_, h₂, rfl⟩
        · exact Or.inr ⟨_, h₃, rfl⟩
      · exact ih h

/-- The digits of the standard alphabet. -/
def standardDigits : List Char :=
  "ABCDEFGHIJKLMNOPQRSTUVWXYZabcdefghijklmnopqrstuvwxyz0123456789+/".toList

end Base64
