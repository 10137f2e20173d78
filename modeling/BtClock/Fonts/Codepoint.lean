import BtClock.Coding.Utf8

/-!
# Reading a text for the renderer

The renderer reads one code point after another from a text which a NUL ends.
-/

namespace BtClock

namespace Fonts

open Utf8

/-- Whether `n` continuation bytes stand at `i`.  The reading stops at the first other byte, and
there is no result when it leaves the memory `p`. -/
def continues (p : List UInt8) : ℕ → ℕ → Option Bool
  | 0, _ => some true
  | n + 1, i =>
      match p[i]? with
      | none => none
      | some b => if IsContinuation b then continues p n (i + 1) else some false

/-- Whether a first byte of the kind `leads` has its `n` continuation bytes behind it. -/
def followed (p : List UInt8) (leads : Bool) (n : ℕ) : Option Bool :=
  if leads then continues p n 1 else some false

/-- The byte at `i`, which was read before. -/
def byteAt (p : List UInt8) (i : ℕ) : UInt8 :=
  p.getD i 0

/-- The code point at the front of the memory `p` and the number of its bytes. -/
def nextCodepoint (p : List UInt8) : Option (ℕ × ℕ) := do
  let c ← p[0]?
  if c < 0x80 then
    return (c.toNat, 1)
  let two ← followed p (LeadsTwo c) 1
  if two then
    return (scalarTwo c (byteAt p 1), 2)
  let three ← followed p (LeadsThree c) 2
  if three then
    return (scalarThree c (byteAt p 1) (byteAt p 2), 3)
  let four ← followed p (LeadsFour c) 3
  if four then
    return (scalarFour c (byteAt p 1) (byteAt p 2) (byteAt p 3), 4)
  return (0xFFFD, 1)

/-- A sequence is read in one step, whatever stands behind it. -/
theorem nextCodepoint_sequence {n : ℕ} {bytes : List UInt8} (h : Sequence n bytes)
    (rest : List UInt8) : nextCodepoint (bytes ++ rest) = some (n, bytes.length) := by
  cases h with
  | @one c0 h0 => simp [nextCodepoint, h0]
  | @two c0 c1 h0 h1 hmin =>
      simp [nextCodepoint, followed, continues, byteAt, h0.not_ascii, h0, h1]
  | @three c0 c1 c2 h0 h1 h2 hmin hsurrogate =>
      simp [nextCodepoint, followed, continues, byteAt, h0.not_ascii, h0.not_leadsTwo, h0, h1, h2]
  | @four c0 c1 c2 c3 h0 h1 h2 h3 hmin hmax =>
      simp [nextCodepoint, followed, continues, byteAt, h0.not_ascii, h0.not_leads.1,
        h0.not_leads.2, h0, h1, h2, h3]

/-- The NUL at the end continues nothing. -/
theorem followed_end (b : UInt8) (leads : Bool) (n : ℕ) :
    followed [b, 0] leads (n + 1) = some false := by
  have hzero : ¬ IsContinuation 0 := by decide
  cases leads <;> simp [followed, continues, hzero]

/-- A single byte before the end is read in one step. -/
theorem nextCodepoint_singleton (b : UInt8) : ∃ n, nextCodepoint [b, 0] = some (n, 1) := by
  by_cases hascii : b < 0x80
  · exact ⟨b.toNat, by simp [nextCodepoint, hascii]⟩
  · exact ⟨0xFFFD, by simp [nextCodepoint, hascii, followed_end]⟩

end Fonts

end BtClock
