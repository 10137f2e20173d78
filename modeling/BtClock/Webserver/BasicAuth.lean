import BtClock.Arith.Bits
import BtClock.Coding.Base64
import BtClock.Coding.Separated

/-!
# The credentials of a request

The logic of the gate in front of the handlers: the token of an `Authorization` header, its
bytes, the user and the password in them, and the comparison with the configured ones.  The
header is a byte string, with one character for each byte.
-/

namespace BtClock

namespace Auth

/-- An entry of the decode table. -/
inductive B64Entry
  | bad
  | pad
  | digit (value : ℕ)
  deriving DecidableEq, Repr

def kB64Table (c : Char) : B64Entry :=
  if c = '+' then .digit 62
  else if c = '/' then .digit 63
  else if '0' ≤ c ∧ c ≤ '9' then .digit (c.toNat - '0'.toNat + 52)
  else if c = '=' then .pad
  else if 'A' ≤ c ∧ c ≤ 'Z' then .digit (c.toNat - 'A'.toNat)
  else if 'a' ≤ c ∧ c ≤ 'z' then .digit (c.toNat - 'a'.toNat + 26)
  else .bad

def asciiLower (c : Char) : Char :=
  if 'A' ≤ c ∧ c ≤ 'Z' then Char.ofNat (c.toNat + ('a'.toNat - 'A'.toNat)) else c

/-- The groups of four characters in turn. -/
def decodeQuads : List Char → Option (List UInt8)
  | c₀ :: c₁ :: c₂ :: c₃ :: rest =>
      match kB64Table c₀, kB64Table c₁ with
      | .digit v₀, .digit v₁ =>
          let b₀ := UInt8.ofNat (v₀ <<< 2 ||| v₁ >>> 4)
          match kB64Table c₂ with
          | .pad => if kB64Table c₃ = .pad ∧ rest = [] then some [b₀] else none
          | .bad => none
          | .digit v₂ =>
              let b₁ := UInt8.ofNat ((v₁ &&& 0x0F) <<< 4 ||| v₂ >>> 2)
              match kB64Table c₃ with
              | .pad => if rest = [] then some [b₀, b₁] else none
              | .bad => none
              | .digit v₃ =>
                  let b₂ := UInt8.ofNat ((v₂ &&& 0x03) <<< 6 ||| v₃)
                  (decodeQuads rest).map fun bytes => b₀ :: b₁ :: b₂ :: bytes
      | _, _ => none
  | _ => some []

def decodeBase64 (src : List Char) : Option (List UInt8) :=
  if src.length % 4 ≠ 0 then none else decodeQuads src

def kColon : UInt8 := 0x3A

/-- The user ends at the first colon. -/
def parseUserPass (decoded : List UInt8) : Option (List UInt8 × List UInt8) :=
  if kColon ∈ decoded then
    some (decoded.takeWhile (· ≠ kColon), (decoded.dropWhile (· ≠ kColon)).tail)
  else none

/-- The token after the scheme and the blanks. -/
def extractBasicToken (value : List Char) : Option (List Char) :=
  if value.length < 6 then none
  else if (value.take 6).map asciiLower ≠ "basic ".toList then none
  else
    let token := (value.drop 6).dropWhile (· = ' ')
    if token = [] then none else some token

/-- The longer string is walked to its end, and the shorter one reads as zeros there. -/
def constantTimeEquals (a b : List UInt8) : Bool :=
  Bits.gather (fun i => ((a.getD i 0) ^^^ (b.getD i 0)).toNat)
    (if a.length = b.length then 0 else 1) (List.range (max a.length b.length)) = 0

def credentialsMatch (suppliedUser suppliedPass configuredUser configuredPass : List UInt8) :
    Bool :=
  let u := constantTimeEquals suppliedUser configuredUser
  let p := constantTimeEquals suppliedPass configuredPass
  u && p

/-! ### The decoder of the table -/

/-- The standard alphabet with the values of the table. -/
def standard : Base64 Char where
  digit n := Base64.standardDigits.getD n 'A'
  value c :=
    match kB64Table c with
    | .digit v => some v
    | _ => none
  pad := '='
  value_digit := by decide +kernel
  value_pad := by decide

theorem kB64Table_eq_pad_iff (c : Char) : kB64Table c = .pad ↔ c = '=' := by
  constructor
  · intro h
    by_contra hne
    unfold kB64Table at h
    rw [if_neg hne] at h
    split_ifs at h
  · rintro rfl
    decide

theorem standard_value_of_digit {c : Char} {v : ℕ} (h : kB64Table c = .digit v) :
    standard.value c = some v := by
  simp only [standard, h]

theorem kB64Table_lt {c : Char} {v : ℕ} (h : kB64Table c = .digit v) : v < 64 := by
  have hle : ∀ {a b : Char}, a ≤ b → a.toNat ≤ b.toNat := fun hab => hab
  unfold kB64Table at h
  split_ifs at h with h₁ h₂ h₃ h₄ h₅ h₆ <;> cases h
  · decide
  · decide
  · have hc : c.toNat ≤ 57 := hle h₃.2
    have h0 : '0'.toNat = 48 := rfl
    omega
  · have hc : c.toNat ≤ 90 := hle h₅.2
    have hA : 'A'.toNat = 65 := rfl
    omega
  · have hc : c.toNat ≤ 122 := hle h₆.2
    have ha : 'a'.toNat = 97 := rfl
    omega

theorem standard_value_of_bad {c : Char} (h : kB64Table c = .bad) : standard.value c = none := by
  simp only [standard, h]

theorem standard_value_of_pad {c : Char} (h : kB64Table c = .pad) : standard.value c = none := by
  simp only [standard, h]

theorem decodeQuads_cons (c₀ c₁ c₂ c₃ : Char) (rest : List Char) :
    decodeQuads (c₀ :: c₁ :: c₂ :: c₃ :: rest) =
      standard.group c₀ c₁ c₂ c₃ rest (decodeQuads rest) := by
  have hpad : ∀ c, (c = standard.pad) = (kB64Table c = .pad) := fun c =>
    propext (kB64Table_eq_pad_iff c).symm
  simp only [decodeQuads, Base64.group, hpad]
  cases h₀ : kB64Table c₀ with
  | bad => simp [standard_value_of_bad h₀]
  | pad => simp [standard_value_of_pad h₀]
  | digit v₀ =>
      cases h₁ : kB64Table c₁ with
      | bad => simp [standard_value_of_bad h₁, standard_value_of_digit h₀]
      | pad => simp [standard_value_of_pad h₁, standard_value_of_digit h₀]
      | digit v₁ =>
          simp only [standard_value_of_digit h₀, standard_value_of_digit h₁,
            Base64.byte₁_eq_bits v₀ (kB64Table_lt h₁)]
          cases h₂ : kB64Table c₂ with
          | bad => simp [standard_value_of_bad h₂]
          | pad => simp
          | digit v₂ =>
              simp only [standard_value_of_digit h₂,
                Base64.byte₂_eq_bits v₁ (kB64Table_lt h₂)]
              cases h₃ : kB64Table c₃ with
              | bad => simp [standard_value_of_bad h₃]
              | pad => simp
              | digit v₃ =>
                  simp [standard_value_of_digit h₃, -UInt8.ofNat_or,
                    Base64.byte₃_eq_bits v₂ (kB64Table_lt h₃)]

/-- The decoder of the gate is the one of the standard alphabet. -/
theorem decodeBase64_eq (src : List Char) : decodeBase64 src = standard.decode src :=
  standard.eq_decode rfl decodeQuads_cons src

/-! ### The user and the password -/

theorem parseUserPass_append {user : List UInt8} (h : kColon ∉ user) (pass : List UInt8) :
    parseUserPass (user ++ kColon :: pass) = some (user, pass) := by
  obtain ⟨htake, hdrop⟩ := Separated.takeWhile_ne_append h pass
  rw [parseUserPass, if_pos (by simp), htake, hdrop, List.tail_cons]

/-- What is split is the user without a colon, a colon and the password. -/
theorem parseUserPass_eq_some_iff {decoded user pass : List UInt8} :
    parseUserPass decoded = some (user, pass) ↔
      decoded = user ++ kColon :: pass ∧ kColon ∉ user := by
  constructor
  · intro h
    have hmem : kColon ∈ decoded := by
      by_contra hmem
      rw [parseUserPass, if_neg hmem] at h
      cases h
    obtain ⟨pre, post, rfl, hpre⟩ := List.eq_append_cons_of_mem hmem
    rw [parseUserPass_append hpre] at h
    cases h
    exact ⟨rfl, hpre⟩
  · rintro ⟨rfl, h⟩
    exact parseUserPass_append h pass

/-! ### The comparison -/

theorem constantTimeEquals_eq_true_iff (a b : List UInt8) :
    constantTimeEquals a b = true ↔ a = b := by
  rw [constantTimeEquals, decide_eq_true_iff, Bits.gather_eq_zero_iff]
  constructor
  · rintro ⟨hlen, hbytes⟩
    have hlen : a.length = b.length := by
      by_contra hne
      rw [if_neg hne] at hlen
      cases hlen
    refine List.ext_getElem hlen fun i ha hb => ?_
    have hi := hbytes i (List.mem_range.mpr (lt_of_lt_of_le ha (le_max_left _ _)))
    rw [List.getD_eq_getElem _ _ ha, List.getD_eq_getElem _ _ hb] at hi
    exact UInt8.xor_eq_zero_iff.mp (UInt8.toNat_inj.mp hi)
  · rintro rfl
    simp

theorem credentialsMatch_eq_true_iff (suppliedUser suppliedPass user pass : List UInt8) :
    credentialsMatch suppliedUser suppliedPass user pass = true ↔
      suppliedUser = user ∧ suppliedPass = pass := by
  simp [credentialsMatch, constantTimeEquals_eq_true_iff]

end Auth

end BtClock
