import BtClock.Coding.LittleEndian

/-!
# The header of a gzip member

The fields which the flags announce stand one behind another before the deflate stream.  The
parser skips them, and what is left before the trailer is the stream.
-/

namespace BtClock

namespace Fonts

namespace Gzip

/-- Why there is no result: the blob is refused, or a byte outside it was read. -/
inductive Stop
  | malformed
  | outside
  deriving DecidableEq, Repr

structure GzipMemberInfo where
  deflateOffset : ℕ
  deflateSize : ℕ
  isize : UInt32
  deriving DecidableEq, Repr

def kGzipFixedHeaderLen : ℕ := 10

def kGzipTrailerLen : ℕ := 8

def kGzipFlagFtext : UInt8 := 0x01

def kGzipFlagFhcrc : UInt8 := 0x02

def kGzipFlagFextra : UInt8 := 0x04

def kGzipFlagFname : UInt8 := 0x08

def kGzipFlagFcomment : UInt8 := 0x10

def kGzipFlagReserved : UInt8 := 0xE0

def byteAt (gz : List UInt8) (i : ℕ) : Except Stop UInt8 :=
  match gz[i]? with
  | some b => .ok b
  | none => .error .outside

def refuseIf (p : Prop) [Decidable p] : Except Stop Unit :=
  if p then .error .malformed else .ok ()

/-- `LooksGzipped`, where a blob which does not is refused. -/
def looksGzipped (gz : List UInt8) : Except Stop Unit := do
  refuseIf (gz.length < kGzipFixedHeaderLen + kGzipTrailerLen)
  refuseIf ((← byteAt gz 0) ≠ 0x1F)
  refuseIf ((← byteAt gz 1) ≠ 0x8B)
  refuseIf ((← byteAt gz 2) ≠ 0x08)

/-- Behind the extra field, which its length precedes. -/
def skipExtra (gz : List UInt8) (flg : UInt8) (endOfPayload off : ℕ) : Except Stop ℕ :=
  if flg &&& kGzipFlagFextra ≠ 0 then do
    refuseIf (off + 2 > endOfPayload)
    let lo ← byteAt gz off
    let hi ← byteAt gz (off + 1)
    let xlen := lo.toNat ||| hi.toNat <<< 8
    refuseIf (off + 2 + xlen > endOfPayload)
    return off + 2 + xlen
  else return off

/-- The loop to the next NUL, with `left` bytes to the end of the payload. -/
def scanNul (gz : List UInt8) : ℕ → ℕ → Except Stop ℕ
  | 0, off => .ok off
  | left + 1, off => do
      let b ← byteAt gz off
      if b ≠ 0 then scanNul gz left (off + 1) else .ok off

/-- Behind a text which a NUL ends. -/
def skipText (flag : UInt8) (gz : List UInt8) (flg : UInt8) (endOfPayload off : ℕ) :
    Except Stop ℕ :=
  if flg &&& flag ≠ 0 then do
    let off ← scanNul gz (endOfPayload - off) off
    refuseIf (off ≥ endOfPayload)
    return off + 1
  else return off

def skipName : List UInt8 → UInt8 → ℕ → ℕ → Except Stop ℕ :=
  skipText kGzipFlagFname

def skipComment : List UInt8 → UInt8 → ℕ → ℕ → Except Stop ℕ :=
  skipText kGzipFlagFcomment

/-- Behind the checksum of the header. -/
def skipHcrc (flg : UInt8) (endOfPayload off : ℕ) : Except Stop ℕ :=
  if flg &&& kGzipFlagFhcrc ≠ 0 then do
    refuseIf (off + 2 > endOfPayload)
    return off + 2
  else return off

def readIsize (gz : List UInt8) : Except Stop UInt32 := do
  let b₀ ← byteAt gz (gz.length - 4)
  let b₁ ← byteAt gz (gz.length - 3)
  let b₂ ← byteAt gz (gz.length - 2)
  let b₃ ← byteAt gz (gz.length - 1)
  return b₀.toUInt32 ||| b₁.toUInt32 <<< 8 ||| b₂.toUInt32 <<< 16 ||| b₃.toUInt32 <<< 24

def parseGzipMemberHeader (gz : List UInt8) : Except Stop GzipMemberInfo := do
  looksGzipped gz
  let flg ← byteAt gz 3
  refuseIf (flg &&& kGzipFlagReserved ≠ 0)
  let endOfPayload := if gz.length ≥ kGzipTrailerLen then gz.length - kGzipTrailerLen else 0
  let off ← skipExtra gz flg endOfPayload kGzipFixedHeaderLen
  let off ← skipName gz flg endOfPayload off
  let off ← skipComment gz flg endOfPayload off
  let off ← skipHcrc flg endOfPayload off
  refuseIf (off > endOfPayload)
  let isize ← readIsize gz
  return ⟨off, endOfPayload - off, isize⟩

/-! ### The members -/

/-- A member as RFC 1952 lays it out.  A field which is there sets its flag. -/
structure Member where
  ftext : Bool
  mtime : UInt32
  xfl : UInt8
  os : UInt8
  extra : Option { extra : List UInt8 // extra.length ≤ 65535 }
  name : Option { name : List UInt8 // 0 ∉ name }
  comment : Option { comment : List UInt8 // 0 ∉ comment }
  hcrc : Option UInt16
  deflate : List UInt8
  crc : UInt32
  isize : UInt32

/-- The flags by what they announce. -/
def flags (ftext hcrc extra name comment : Bool) : UInt8 :=
  (if ftext then kGzipFlagFtext else 0) ||| (if hcrc then kGzipFlagFhcrc else 0) |||
    (if extra then kGzipFlagFextra else 0) ||| (if name then kGzipFlagFname else 0) |||
    (if comment then kGzipFlagFcomment else 0)

namespace Member

def flg (m : Member) : UInt8 :=
  flags m.ftext m.hcrc.isSome m.extra.isSome m.name.isSome m.comment.isSome

def extraField : Option { extra : List UInt8 // extra.length ≤ 65535 } → List UInt8
  | some ⟨extra, _⟩ => LittleEndian.ofNat 2 extra.length ++ extra
  | none => []

def textField : Option { text : List UInt8 // 0 ∉ text } → List UInt8
  | some ⟨text, _⟩ => text ++ [0]
  | none => []

def hcrcField : Option UInt16 → List UInt8
  | some hcrc => LittleEndian.ofNat 2 hcrc.toNat
  | none => []

def fixed (m : Member) : List UInt8 :=
  [0x1F, 0x8B, 0x08, m.flg] ++ LittleEndian.ofNat 4 m.mtime.toNat ++ [m.xfl, m.os]

/-- What stands before the deflate stream. -/
def header (m : Member) : List UInt8 :=
  m.fixed ++ extraField m.extra ++ textField m.name ++ textField m.comment ++ hcrcField m.hcrc

def trailer (m : Member) : List UInt8 :=
  LittleEndian.ofNat 4 m.crc.toNat ++ LittleEndian.ofNat 4 m.isize.toNat

def bytes (m : Member) : List UInt8 :=
  m.header ++ m.deflate ++ m.trailer

end Member

/-! ### What is read and what is left -/

section Reads

variable {α β : Type} {gz : List UInt8}

/-- No byte outside the blob was read. -/
def Inside (x : Except Stop α) : Prop :=
  x ≠ .error .outside

theorem Inside.bind {x : Except Stop α} {f : α → Except Stop β} (hx : Inside x)
    (hf : ∀ a, x = .ok a → Inside (f a)) : Inside (x >>= f) := by
  cases x with
  | ok a => exact hf a rfl
  | error stop =>
      intro hstop
      cases hstop
      exact hx rfl

@[simp]
theorem ok_bind (a : α) (f : α → Except Stop β) : (Except.ok a >>= f) = f a :=
  rfl

theorem bind_eq_ok {x : Except Stop α} {f : α → Except Stop β} {b : β} :
    (x >>= f) = .ok b ↔ ∃ a, x = .ok a ∧ f a = .ok b := by
  cases x with
  | ok a => exact ⟨fun h => ⟨a, rfl, h⟩, fun ⟨_, ha, h⟩ => by cases ha; exact h⟩
  | error stop => exact ⟨nofun, fun ⟨_, ha, _⟩ => nomatch ha⟩

theorem inside_pure (a : α) : Inside (pure a : Except Stop α) :=
  nofun

theorem inside_refuseIf (p : Prop) [Decidable p] : Inside (refuseIf p) := by
  rw [refuseIf]
  split <;> exact nofun

theorem refuseIf_eq_ok {p : Prop} [Decidable p] {u : Unit} (h : refuseIf p = .ok u) : ¬ p := by
  rw [refuseIf] at h
  split at h
  · cases h
  · assumption

theorem refuseIf_of_not {p : Prop} [Decidable p] (h : ¬ p) : refuseIf p = .ok () :=
  if_neg h

theorem inside_byteAt {i : ℕ} (h : i < gz.length) : Inside (byteAt gz i) := by
  rw [byteAt, List.getElem?_eq_getElem h]
  exact nofun

theorem inside_looksGzipped : Inside (looksGzipped gz) := by
  refine (inside_refuseIf _).bind fun _ hsize => ?_
  have hlen : 18 ≤ gz.length := Nat.le_of_not_lt (refuseIf_eq_ok hsize)
  refine (inside_byteAt (by omega)).bind fun _ _ => (inside_refuseIf _).bind fun _ _ => ?_
  refine (inside_byteAt (by omega)).bind fun _ _ => (inside_refuseIf _).bind fun _ _ => ?_
  exact (inside_byteAt (by omega)).bind fun _ _ => inside_refuseIf _

theorem length_of_looksGzipped (h : looksGzipped gz = .ok ()) : 18 ≤ gz.length := by
  obtain ⟨_, hsize, _⟩ := bind_eq_ok.mp h
  exact Nat.le_of_not_lt (refuseIf_eq_ok hsize)

theorem inside_skipExtra {flg : UInt8} {endOfPayload off : ℕ} (hend : endOfPayload ≤ gz.length) :
    Inside (skipExtra gz flg endOfPayload off) := by
  rw [skipExtra]
  split
  · refine (inside_refuseIf _).bind fun _ hroom => ?_
    have hle := Nat.le_of_not_lt (refuseIf_eq_ok hroom)
    refine (inside_byteAt (by omega)).bind fun _ _ => (inside_byteAt (by omega)).bind fun _ _ => ?_
    exact (inside_refuseIf _).bind fun _ _ => inside_pure _
  · exact inside_pure _

theorem inside_scanNul (left off : ℕ) (h : left = 0 ∨ off + left ≤ gz.length) :
    Inside (scanNul gz left off) := by
  induction left generalizing off with
  | zero => exact nofun
  | succ left ih =>
      refine (inside_byteAt (by omega)).bind fun b _ => ?_
      split
      · exact ih (off + 1) (by omega)
      · exact nofun

theorem inside_skipText {flag flg : UInt8} {endOfPayload off : ℕ}
    (hend : endOfPayload ≤ gz.length) : Inside (skipText flag gz flg endOfPayload off) := by
  rw [skipText]
  split
  · refine (inside_scanNul _ _ (by omega)).bind fun _ _ => ?_
    exact (inside_refuseIf _).bind fun _ _ => inside_pure _
  · exact inside_pure _

theorem inside_skipHcrc (flg : UInt8) (endOfPayload off : ℕ) :
    Inside (skipHcrc flg endOfPayload off) := by
  rw [skipHcrc]
  split
  · exact (inside_refuseIf _).bind fun _ _ => inside_pure _
  · exact inside_pure _

theorem inside_readIsize (h : 4 ≤ gz.length) : Inside (readIsize gz) := by
  refine (inside_byteAt (by omega)).bind fun _ _ => (inside_byteAt (by omega)).bind fun _ _ => ?_
  refine (inside_byteAt (by omega)).bind fun _ _ => (inside_byteAt (by omega)).bind fun _ _ => ?_
  exact inside_pure _

theorem inside_parse (gz : List UInt8) : Inside (parseGzipMemberHeader gz) := by
  refine inside_looksGzipped.bind fun _ hlooks => ?_
  have hlen := length_of_looksGzipped hlooks
  have hend : (if gz.length ≥ kGzipTrailerLen then gz.length - kGzipTrailerLen else 0) ≤
      gz.length := by
    split
    · exact Nat.sub_le _ _
    · exact Nat.zero_le _
  refine (inside_byteAt (by omega)).bind fun _ _ => (inside_refuseIf _).bind fun _ _ => ?_
  refine (inside_skipExtra hend).bind fun _ _ => (inside_skipText hend).bind fun _ _ => ?_
  refine (inside_skipText hend).bind fun _ _ => (inside_skipHcrc _ _ _).bind fun _ _ => ?_
  refine (inside_refuseIf _).bind fun _ _ => (inside_readIsize (by omega)).bind fun _ _ => ?_
  exact inside_pure _

/-- The stream goes on up to the trailer. -/
theorem offset_add_size {info : GzipMemberInfo} (h : parseGzipMemberHeader gz = .ok info) :
    info.deflateOffset + info.deflateSize = gz.length - 8 := by
  obtain ⟨_, hlooks, h⟩ := bind_eq_ok.mp h
  have hlen := length_of_looksGzipped hlooks
  have htrailer : gz.length ≥ kGzipTrailerLen := Nat.le_trans (by decide) hlen
  obtain ⟨_, -, h⟩ := bind_eq_ok.mp h
  obtain ⟨_, -, h⟩ := bind_eq_ok.mp h
  rw [if_pos htrailer] at h
  obtain ⟨_, -, h⟩ := bind_eq_ok.mp h
  obtain ⟨_, -, h⟩ := bind_eq_ok.mp h
  obtain ⟨_, -, h⟩ := bind_eq_ok.mp h
  obtain ⟨off, -, h⟩ := bind_eq_ok.mp h
  obtain ⟨_, hroom, h⟩ := bind_eq_ok.mp h
  obtain ⟨isize, -, h⟩ := bind_eq_ok.mp h
  cases h
  exact Nat.add_sub_cancel' (Nat.le_of_not_lt (refuseIf_eq_ok hroom))

end Reads

/-! ### Every member is parsed -/

section Members

variable {gz front rest : List UInt8}

theorem byteAt_append (front rest : List UInt8) (k : ℕ) :
    byteAt (front ++ rest) (front.length + k) = byteAt rest k := by
  rw [byteAt, byteAt, List.getElem?_append_right (Nat.le_add_right _ _), Nat.add_sub_cancel_left]

/-- A flag tells whether its field is there, and the reserved bits are zero. -/
theorem flags_and (ftext hcrc extra name comment : Bool) :
    let flg := flags ftext hcrc extra name comment
    flg &&& kGzipFlagReserved = 0 ∧ (flg &&& kGzipFlagFextra ≠ 0 ↔ extra = true) ∧
      (flg &&& kGzipFlagFname ≠ 0 ↔ name = true) ∧
        (flg &&& kGzipFlagFcomment ≠ 0 ↔ comment = true) ∧
          (flg &&& kGzipFlagFhcrc ≠ 0 ↔ hcrc = true) := by
  revert ftext hcrc extra name comment
  decide

theorem skipExtra_member {flg : UInt8} {endOfPayload : ℕ}
    (extra : Option { extra : List UInt8 // extra.length ≤ 65535 })
    (hflag : flg &&& kGzipFlagFextra ≠ 0 ↔ extra.isSome = true)
    (hend : (front ++ Member.extraField extra).length ≤ endOfPayload) :
    skipExtra (front ++ (Member.extraField extra ++ rest)) flg endOfPayload front.length =
      .ok (front ++ Member.extraField extra).length := by
  rw [List.length_append] at hend ⊢
  cases extra with
  | none =>
      have hzero : ¬ flg &&& kGzipFlagFextra ≠ 0 := fun h => nomatch hflag.mp h
      rw [skipExtra, if_neg hzero]
      rfl
  | some extra =>
      obtain ⟨extra, hle⟩ := extra
      have hset : flg &&& kGzipFlagFextra ≠ 0 := hflag.mpr rfl
      have hlength : (Member.extraField (some ⟨extra, hle⟩)).length = 2 + extra.length := by
        rw [Member.extraField, List.length_append, LittleEndian.length_ofNat]
      rw [hlength] at hend ⊢
      have hxlen : (UInt8.ofNat extra.length).toNat |||
          (UInt8.ofNat (extra.length / 256)).toNat <<< 8 = extra.length := by
        rw [LittleEndian.toNat_two]
        exact LittleEndian.toNat_ofNat (k := 2) (by omega)
      have hlo : byteAt (front ++ (Member.extraField (some ⟨extra, hle⟩) ++ rest)) front.length =
          .ok (UInt8.ofNat extra.length) :=
        byteAt_append front _ 0
      have hhi : byteAt (front ++ (Member.extraField (some ⟨extra, hle⟩) ++ rest))
          (front.length + 1) = .ok (UInt8.ofNat (extra.length / 256)) :=
        byteAt_append front _ 1
      rw [skipExtra, if_pos hset, refuseIf_of_not (by omega), hlo, hhi]
      simp only [ok_bind, hxlen]
      rw [refuseIf_of_not (by omega), ok_bind, Nat.add_assoc]
      rfl

/-- The scan stops at the NUL behind a text. -/
theorem scanNul_text {text : List UInt8} (htext : 0 ∉ text) (left : ℕ)
    (hleft : text.length < left) :
    scanNul (front ++ (text ++ 0 :: rest)) left front.length =
      .ok (front.length + text.length) := by
  induction text generalizing front left with
  | nil =>
      obtain ⟨left, rfl⟩ := Nat.exists_eq_succ_of_ne_zero (Nat.ne_of_gt hleft)
      have hread : byteAt (front ++ ([] ++ 0 :: rest)) front.length = .ok 0 :=
        byteAt_append front _ 0
      rw [scanNul, hread, ok_bind]
      rfl
  | cons b text ih =>
      obtain ⟨left, rfl⟩ := Nat.exists_eq_succ_of_ne_zero (Nat.ne_of_gt (Nat.zero_lt_of_lt hleft))
      have hread : byteAt (front ++ (b :: text ++ 0 :: rest)) front.length = .ok b :=
        byteAt_append front _ 0
      have hb : b ≠ 0 := fun h => htext (h ▸ List.mem_cons_self)
      have hrest := @ih (front ++ [b]) (fun h => htext (List.mem_cons_of_mem b h)) left
        (Nat.lt_of_succ_lt_succ hleft)
      rw [List.append_assoc, List.singleton_append, List.length_append, List.length_singleton]
        at hrest
      rw [scanNul, hread, ok_bind, if_pos hb, List.cons_append, hrest, List.length_cons]
      congr 1
      omega

theorem skipText_member {flag flg : UInt8} {endOfPayload : ℕ}
    (text : Option { text : List UInt8 // 0 ∉ text })
    (hflag : flg &&& flag ≠ 0 ↔ text.isSome = true)
    (hend : (front ++ Member.textField text).length ≤ endOfPayload) :
    skipText flag (front ++ (Member.textField text ++ rest)) flg endOfPayload front.length =
      .ok (front ++ Member.textField text).length := by
  rw [List.length_append] at hend ⊢
  cases text with
  | none =>
      have hzero : ¬ flg &&& flag ≠ 0 := fun h => nomatch hflag.mp h
      rw [skipText, if_neg hzero]
      rfl
  | some text =>
      obtain ⟨text, htext⟩ := text
      have hset : flg &&& flag ≠ 0 := hflag.mpr rfl
      have hlength : (Member.textField (some ⟨text, htext⟩)).length = text.length + 1 := by
        rw [Member.textField, List.length_append, List.length_singleton]
      rw [hlength] at hend ⊢
      have hbytes : Member.textField (some ⟨text, htext⟩) ++ rest = text ++ 0 :: rest := by
        rw [Member.textField, List.append_assoc, List.singleton_append]
      rw [skipText, if_pos hset, hbytes, scanNul_text htext _ (by omega), ok_bind,
        refuseIf_of_not (by omega), ok_bind, Nat.add_assoc]
      rfl

theorem skipHcrc_member {flg : UInt8} {endOfPayload off : ℕ} (hcrc : Option UInt16)
    (hflag : flg &&& kGzipFlagFhcrc ≠ 0 ↔ hcrc.isSome = true)
    (hend : off + (Member.hcrcField hcrc).length ≤ endOfPayload) :
    skipHcrc flg endOfPayload off = .ok (off + (Member.hcrcField hcrc).length) := by
  cases hcrc with
  | none =>
      have hzero : ¬ flg &&& kGzipFlagFhcrc ≠ 0 := fun h => nomatch hflag.mp h
      rw [skipHcrc, if_neg hzero]
      rfl
  | some hcrc =>
      have hset : flg &&& kGzipFlagFhcrc ≠ 0 := hflag.mpr rfl
      have hlength : (Member.hcrcField (some hcrc)).length = 2 := LittleEndian.length_ofNat 2 _
      rw [hlength] at hend ⊢
      rw [skipHcrc, if_pos hset, refuseIf_of_not (by omega), ok_bind]
      rfl

theorem readIsize_member (isize : UInt32) :
    readIsize (front ++ LittleEndian.ofNat 4 isize.toNat) = .ok isize := by
  have hlength : (front ++ LittleEndian.ofNat 4 isize.toNat).length = front.length + 4 := by
    rw [List.length_append, LittleEndian.length_ofNat]
  have hread : ∀ k, k < 4 → byteAt (front ++ LittleEndian.ofNat 4 isize.toNat)
      (front.length + 4 - (4 - k)) = byteAt (LittleEndian.ofNat 4 isize.toNat) k := by
    intro k hk
    have hindex : front.length + 4 - (4 - k) = front.length + k := by omega
    rw [hindex, byteAt_append]
  have hlt : isize.toNat < 256 ^ 4 := isize.toNat_lt
  rw [readIsize, hlength]
  rw [hread 0 (by decide), hread 1 (by decide), hread 2 (by decide), hread 3 (by decide)]
  refine congrArg Except.ok (UInt32.toNat_inj.mp ?_)
  rw [LittleEndian.toNat_four]
  exact LittleEndian.toNat_ofNat (k := 4) hlt

theorem length_fixed (m : Member) : m.fixed.length = kGzipFixedHeaderLen := by
  simp [Member.fixed, kGzipFixedHeaderLen]

theorem length_trailer (m : Member) : m.trailer.length = kGzipTrailerLen := by
  simp [Member.trailer, kGzipTrailerLen]

/-- The parser finds the stream of every member. -/
theorem parse_member (m : Member) :
    parseGzipMemberHeader m.bytes = .ok ⟨m.header.length, m.deflate.length, m.isize⟩ := by
  have hlength : m.bytes.length = m.header.length + m.deflate.length + kGzipTrailerLen := by
    rw [Member.bytes, List.length_append, List.length_append, length_trailer]
  have hheader : m.header.length = kGzipFixedHeaderLen + (Member.extraField m.extra).length +
      (Member.textField m.name).length + (Member.textField m.comment).length +
        (Member.hcrcField m.hcrc).length := by
    simp only [Member.header, List.length_append, length_fixed]
  have hlooks : looksGzipped m.bytes = .ok () := by
    have hsize : ¬ m.bytes.length < kGzipFixedHeaderLen + kGzipTrailerLen := by omega
    have h₀ : byteAt m.bytes 0 = .ok 0x1F := rfl
    have h₁ : byteAt m.bytes 1 = .ok 0x8B := rfl
    have h₂ : byteAt m.bytes 2 = .ok 0x08 := rfl
    rw [looksGzipped, refuseIf_of_not hsize, h₀, h₁, h₂]
    rfl
  have hflg : byteAt m.bytes 3 = .ok m.flg := rfl
  obtain ⟨hreserved, hextraFlag, hnameFlag, hcommentFlag, hhcrcFlag⟩ :=
    flags_and m.ftext m.hcrc.isSome m.extra.isSome m.name.isSome m.comment.isSome
  have hend : (if m.bytes.length ≥ kGzipTrailerLen then m.bytes.length - kGzipTrailerLen else 0) =
      m.header.length + m.deflate.length := by
    rw [if_pos (by omega), hlength, Nat.add_sub_cancel]
  have hextra : skipExtra m.bytes m.flg (m.header.length + m.deflate.length)
      kGzipFixedHeaderLen = .ok (m.fixed ++ Member.extraField m.extra).length := by
    have hbytes : m.bytes = m.fixed ++ (Member.extraField m.extra ++
        (Member.textField m.name ++ Member.textField m.comment ++ Member.hcrcField m.hcrc ++
          m.deflate ++ m.trailer)) := by
      simp only [Member.bytes, Member.header, List.append_assoc]
    rw [hbytes, ← length_fixed m]
    exact skipExtra_member m.extra hextraFlag
      (by rw [List.length_append, length_fixed]; omega)
  have hname : skipName m.bytes m.flg (m.header.length + m.deflate.length)
      (m.fixed ++ Member.extraField m.extra).length =
        .ok (m.fixed ++ Member.extraField m.extra ++ Member.textField m.name).length := by
    have hbytes : m.bytes = m.fixed ++ Member.extraField m.extra ++ (Member.textField m.name ++
        (Member.textField m.comment ++ Member.hcrcField m.hcrc ++ m.deflate ++ m.trailer)) := by
      simp only [Member.bytes, Member.header, List.append_assoc]
    rw [hbytes]
    exact skipText_member m.name hnameFlag
      (by rw [List.length_append, List.length_append, length_fixed]; omega)
  have hcomment : skipComment m.bytes m.flg (m.header.length + m.deflate.length)
      (m.fixed ++ Member.extraField m.extra ++ Member.textField m.name).length =
        .ok (m.fixed ++ Member.extraField m.extra ++ Member.textField m.name ++
          Member.textField m.comment).length := by
    have hbytes : m.bytes = m.fixed ++ Member.extraField m.extra ++ Member.textField m.name ++
        (Member.textField m.comment ++ (Member.hcrcField m.hcrc ++ m.deflate ++ m.trailer)) := by
      simp only [Member.bytes, Member.header, List.append_assoc]
    rw [hbytes]
    exact skipText_member m.comment hcommentFlag
      (by rw [List.length_append, List.length_append, List.length_append, length_fixed]; omega)
  have hhcrc : skipHcrc m.flg (m.header.length + m.deflate.length)
      (m.fixed ++ Member.extraField m.extra ++ Member.textField m.name ++
        Member.textField m.comment).length = .ok m.header.length := by
    have hfront : m.header.length = (m.fixed ++ Member.extraField m.extra ++
        Member.textField m.name ++ Member.textField m.comment).length +
          (Member.hcrcField m.hcrc).length := List.length_append
    rw [hfront]
    exact skipHcrc_member m.hcrc hhcrcFlag (by omega)
  have hisize : readIsize m.bytes = .ok m.isize := by
    have hbytes : m.bytes = m.header ++ m.deflate ++ LittleEndian.ofNat 4 m.crc.toNat ++
        LittleEndian.ofNat 4 m.isize.toNat := by
      simp only [Member.bytes, Member.trailer, List.append_assoc]
    rw [hbytes]
    exact readIsize_member m.isize
  have hallowed : refuseIf (m.flg &&& kGzipFlagReserved ≠ 0) = .ok () :=
    refuseIf_of_not (not_not_intro hreserved)
  rw [parseGzipMemberHeader, hlooks, ok_bind, hflg, ok_bind, hallowed, ok_bind, hend]
  dsimp only
  rw [hextra, ok_bind, hname, ok_bind, hcomment, ok_bind, hhcrc, ok_bind,
    refuseIf_of_not (by omega), ok_bind, hisize, ok_bind, Nat.add_sub_cancel_left]
  rfl

/-- Parsing inverts the layout of a member.  Of any blob only bytes inside it are read, and when it
is accepted the stream ends where the trailer begins. -/
theorem parse_inverts_layout :
    (∀ m : Member,
      parseGzipMemberHeader m.bytes = .ok ⟨m.header.length, m.deflate.length, m.isize⟩) ∧
      ∀ gz : List UInt8, Inside (parseGzipMemberHeader gz) ∧
        ∀ info, parseGzipMemberHeader gz = .ok info →
          info.deflateOffset + info.deflateSize = gz.length - 8 :=
  ⟨parse_member, fun gz => ⟨inside_parse gz, fun _ => offset_add_size⟩⟩

end Members

end Gzip

end Fonts

end BtClock
