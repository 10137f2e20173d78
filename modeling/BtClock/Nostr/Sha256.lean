import Mathlib.Data.List.Basic

/-!
# SHA-256

The incremental hash of the event verifier: a context of eight words with the bytes of
an unfinished block, fed by `sha256Update` and closed by `sha256Final`.
-/

namespace BtClock

namespace Nostr

/-- The eight working words. -/
structure Sha256Words where
  a : UInt32
  b : UInt32
  c : UInt32
  d : UInt32
  e : UInt32
  f : UInt32
  g : UInt32
  h : UInt32
  deriving DecidableEq, Repr

structure Sha256Ctx where
  state : Sha256Words
  bitlen : UInt64
  buf : List UInt8
  deriving DecidableEq, Repr

def kSha256K : List UInt32 :=
  [0x428a2f98, 0x71374491, 0xb5c0fbcf, 0xe9b5dba5, 0x3956c25b, 0x59f111f1, 0x923f82a4,
    0xab1c5ed5, 0xd807aa98, 0x12835b01, 0x243185be, 0x550c7dc3, 0x72be5d74, 0x80deb1fe,
    0x9bdc06a7, 0xc19bf174, 0xe49b69c1, 0xefbe4786, 0x0fc19dc6, 0x240ca1cc, 0x2de92c6f,
    0x4a7484aa, 0x5cb0a9dc, 0x76f988da, 0x983e5152, 0xa831c66d, 0xb00327c8, 0xbf597fc7,
    0xc6e00bf3, 0xd5a79147, 0x06ca6351, 0x14292967, 0x27b70a85, 0x2e1b2138, 0x4d2c6dfc,
    0x53380d13, 0x650a7354, 0x766a0abb, 0x81c2c92e, 0x92722c85, 0xa2bfe8a1, 0xa81a664b,
    0xc24b8b70, 0xc76c51a3, 0xd192e819, 0xd6990624, 0xf40e3585, 0x106aa070, 0x19a4c116,
    0x1e376c08, 0x2748774c, 0x34b0bcb5, 0x391c0cb3, 0x4ed8aa4a, 0x5b9cca4f, 0x682e6ff3,
    0x748f82ee, 0x78a5636f, 0x84c87814, 0x8cc70208, 0x90befffa, 0xa4506ceb, 0xbef9a3f7,
    0xc67178f2]

def rotr (x : UInt32) (n : UInt32) : UInt32 :=
  (x >>> n) ||| (x <<< (32 - n))

/-- The word of four bytes, the first one highest. -/
def wordOfBytes (b₀ b₁ b₂ b₃ : UInt8) : UInt32 :=
  (b₀.toUInt32 <<< 24) ||| (b₁.toUInt32 <<< 16) ||| (b₂.toUInt32 <<< 8) ||| b₃.toUInt32

/-- The words of a block. -/
def wordsOfBlock : List UInt8 → List UInt32
  | b₀ :: b₁ :: b₂ :: b₃ :: bytes => wordOfBytes b₀ b₁ b₂ b₃ :: wordsOfBlock bytes
  | _ => []

/-- The next `n` words of the message schedule, from the words so far, last first. -/
def extendSchedule : ℕ → List UInt32 → List UInt32
  | 0, w => w
  | n + 1, w =>
      let w₁₅ := w.getD 14 0
      let w₂ := w.getD 1 0
      let s₀ := rotr w₁₅ 7 ^^^ rotr w₁₅ 18 ^^^ (w₁₅ >>> 3)
      let s₁ := rotr w₂ 17 ^^^ rotr w₂ 19 ^^^ (w₂ >>> 10)
      extendSchedule n ((w.getD 15 0 + s₀ + w.getD 6 0 + s₁) :: w)

def sha256Round (s : Sha256Words) (kw : UInt32 × UInt32) : Sha256Words :=
  let S₁ := rotr s.e 6 ^^^ rotr s.e 11 ^^^ rotr s.e 25
  let ch := (s.e &&& s.f) ^^^ (~~~s.e &&& s.g)
  let t₁ := s.h + S₁ + ch + kw.1 + kw.2
  let S₀ := rotr s.a 2 ^^^ rotr s.a 13 ^^^ rotr s.a 22
  let mj := (s.a &&& s.b) ^^^ (s.a &&& s.c) ^^^ (s.b &&& s.c)
  let t₂ := S₀ + mj
  { a := t₁ + t₂, b := s.a, c := s.b, d := s.c,
    e := s.d + t₁, f := s.e, g := s.f, h := s.g }

def Sha256Words.add (s t : Sha256Words) : Sha256Words :=
  { a := s.a + t.a, b := s.b + t.b, c := s.c + t.c, d := s.d + t.d,
    e := s.e + t.e, f := s.f + t.f, g := s.g + t.g, h := s.h + t.h }

def sha256Block (s : Sha256Words) (block : List UInt8) : Sha256Words :=
  let w := (extendSchedule 48 (wordsOfBlock block).reverse).reverse
  s.add ((kSha256K.zip w).foldl sha256Round s)

def sha256Init : Sha256Ctx where
  state :=
    { a := 0x6a09e667, b := 0xbb67ae85, c := 0x3c6ef372, d := 0xa54ff53a,
      e := 0x510e527f, f := 0x9b05688c, g := 0x1f83d9ab, h := 0x5be0cd19 }
  bitlen := 0
  buf := []

/-- The loop of `Sha256Update`, each turn of which fills the block as far as the data
goes. -/
def sha256UpdateLoop : ℕ → Sha256Ctx → List UInt8 → Sha256Ctx
  | 0, c, _ => c
  | fuel + 1, c, data =>
      if data = [] then c
      else
        let take := min (64 - c.buf.length) data.length
        let buf := c.buf ++ data.take take
        if buf.length = 64 then
          sha256UpdateLoop fuel { c with state := sha256Block c.state buf, buf := [] }
            (data.drop take)
        else sha256UpdateLoop fuel { c with buf := buf } (data.drop take)

def sha256Update (c : Sha256Ctx) (data : List UInt8) : Sha256Ctx :=
  sha256UpdateLoop (data.length + 1)
    { c with bitlen := c.bitlen + UInt64.ofNat data.length * 8 } data

/-- The eight bytes of a length, the highest first. -/
def bytesOfLength (n : UInt64) : List UInt8 :=
  [(n >>> 56).toUInt8, (n >>> 48).toUInt8, (n >>> 40).toUInt8, (n >>> 32).toUInt8,
    (n >>> 24).toUInt8, (n >>> 16).toUInt8, (n >>> 8).toUInt8, n.toUInt8]

def bytesOfWord (w : UInt32) : List UInt8 :=
  [(w >>> 24).toUInt8, (w >>> 16).toUInt8, (w >>> 8).toUInt8, w.toUInt8]

def padTo (n : ℕ) (buf : List UInt8) : List UInt8 :=
  buf ++ List.replicate (n - buf.length) 0

def sha256Final (c : Sha256Ctx) : List UInt8 :=
  let buf := c.buf ++ [0x80]
  let (state, buf) :=
    if buf.length > 56 then (sha256Block c.state (padTo 64 buf), []) else (c.state, buf)
  let s := sha256Block state (padTo 56 buf ++ bytesOfLength c.bitlen)
  [s.a, s.b, s.c, s.d, s.e, s.f, s.g, s.h].flatMap bytesOfWord

/-- The digest of a byte string. -/
def sha256 (data : List UInt8) : List UInt8 :=
  sha256Final (sha256Update sha256Init data)

/-! ### Data which arrives in pieces -/

/-- One byte more; a full block is hashed at once. -/
def Sha256Ctx.push (c : Sha256Ctx) (b : UInt8) : Sha256Ctx :=
  if c.buf.length + 1 = 64 then
    { c with state := sha256Block c.state (c.buf ++ [b]), buf := [] }
  else { c with buf := c.buf ++ [b] }

namespace Sha256Ctx

def setBitlen (c : Sha256Ctx) (n : UInt64) : Sha256Ctx :=
  { c with bitlen := n }

theorem push_setBitlen (c : Sha256Ctx) (n : UInt64) (b : UInt8) :
    (c.setBitlen n).push b = (c.push b).setBitlen n := by
  unfold push
  split
  · rename_i h
    rw [if_pos (show c.buf.length + 1 = 64 from h)]
    rfl
  · rename_i h
    rw [if_neg (show c.buf.length + 1 ≠ 64 from h)]
    rfl

theorem foldl_push_setBitlen (c : Sha256Ctx) (n : UInt64) (data : List UInt8) :
    data.foldl push (c.setBitlen n) = (data.foldl push c).setBitlen n := by
  induction data generalizing c with
  | nil => rfl
  | cons b data ih => rw [List.foldl_cons, push_setBitlen, ih, List.foldl_cons]

theorem push_buf_lt {c : Sha256Ctx} (h : c.buf.length < 64) (b : UInt8) :
    (c.push b).buf.length < 64 := by
  unfold push
  split
  · exact Nat.zero_lt_succ _
  · simp only [List.length_append, List.length_singleton]
    omega

theorem foldl_push_buf_lt {c : Sha256Ctx} (h : c.buf.length < 64) (data : List UInt8) :
    (data.foldl push c).buf.length < 64 := by
  induction data generalizing c with
  | nil => exact h
  | cons b data ih => exact ih (push_buf_lt h b)

theorem foldl_push_of_lt {c : Sha256Ctx} {data : List UInt8}
    (h : c.buf.length + data.length < 64) :
    data.foldl push c = { c with buf := c.buf ++ data } := by
  induction data generalizing c with
  | nil => simp
  | cons b data ih =>
      rw [List.length_cons] at h
      have hpush : c.push b = { c with buf := c.buf ++ [b] } := if_neg (by omega)
      rw [List.foldl_cons, hpush, ih (by simp; omega)]
      simp

theorem foldl_push_of_eq {c : Sha256Ctx} {data : List UInt8} (hne : data ≠ [])
    (h : c.buf.length + data.length = 64) :
    data.foldl push c =
      { c with state := sha256Block c.state (c.buf ++ data), buf := [] } := by
  obtain ⟨front, b, rfl⟩ : ∃ front b, data = front ++ [b] :=
    ⟨data.dropLast, data.getLast hne, (List.dropLast_append_getLast hne).symm⟩
  rw [List.length_append, List.length_singleton] at h
  have hfront : front.foldl push c = { c with buf := c.buf ++ front } :=
    foldl_push_of_lt (by omega)
  rw [List.foldl_append, hfront, List.foldl_cons, List.foldl_nil, push,
    if_pos (by simp; omega), List.append_assoc]

end Sha256Ctx

/-- The loop takes whole pieces of a block where it could take the bytes one by one. -/
theorem sha256UpdateLoop_eq {fuel : ℕ} {c : Sha256Ctx} {data : List UInt8}
    (hfuel : data.length < fuel) (hbuf : c.buf.length < 64) :
    sha256UpdateLoop fuel c data = data.foldl Sha256Ctx.push c := by
  induction fuel generalizing c data with
  | zero => exact absurd hfuel (Nat.not_lt_zero _)
  | succ fuel ih =>
      rw [sha256UpdateLoop]
      split
      · rename_i hnil
        rw [hnil, List.foldl_nil]
      · rename_i hne
        have hpos : 0 < data.length := List.length_pos_iff.mpr hne
        set take := min (64 - c.buf.length) data.length with htake
        have hlen : (data.take take).length = take := by
          rw [List.length_take]
          omega
        have hsplit : data.foldl Sha256Ctx.push c =
            (data.drop take).foldl Sha256Ctx.push ((data.take take).foldl Sha256Ctx.push c) := by
          rw [← List.foldl_append, List.take_append_drop]
        have hdrop : (data.drop take).length < fuel := by
          rw [List.length_drop]
          omega
        have hsum : (c.buf ++ data.take take).length = c.buf.length + take := by
          rw [List.length_append, hlen]
        rw [hsplit]
        dsimp only
        rw [hsum]
        split
        · rename_i hfull
          have hblock : (data.take take).foldl Sha256Ctx.push c = _ :=
            Sha256Ctx.foldl_push_of_eq (List.ne_nil_of_length_pos (by omega))
              (hlen.symm ▸ hfull)
          rw [hblock]
          exact ih hdrop (Nat.zero_lt_succ 63)
        · rename_i hpart
          have hblock : (data.take take).foldl Sha256Ctx.push c =
              { c with buf := c.buf ++ data.take take } :=
            Sha256Ctx.foldl_push_of_lt (by omega)
          have hlt : (c.buf ++ data.take take).length < 64 := by omega
          rw [hblock]
          exact ih hdrop hlt

theorem sha256Update_eq {c : Sha256Ctx} (hbuf : c.buf.length < 64) (data : List UInt8) :
    sha256Update c data =
      (data.foldl Sha256Ctx.push c).setBitlen
        (c.bitlen + UInt64.ofNat data.length * 8) := by
  have hloop := sha256UpdateLoop_eq (Nat.lt_succ_self data.length)
    (c := c.setBitlen (c.bitlen + UInt64.ofNat data.length * 8)) hbuf
  rw [Sha256Ctx.foldl_push_setBitlen] at hloop
  exact hloop

/-- It does not matter in which pieces the data arrives. -/
theorem sha256Update_append {c : Sha256Ctx} (hbuf : c.buf.length < 64) (a b : List UInt8) :
    sha256Update c (a ++ b) = sha256Update (sha256Update c a) b := by
  have hlen : UInt64.ofNat (a ++ b).length * 8 =
      UInt64.ofNat a.length * 8 + UInt64.ofNat b.length * 8 := by
    rw [List.length_append, UInt64.ofNat_add, UInt64.add_mul]
  have hmid := Sha256Ctx.foldl_push_buf_lt hbuf a
  have hrest := sha256Update_eq
    (c := (a.foldl Sha256Ctx.push c).setBitlen (c.bitlen + UInt64.ofNat a.length * 8)) hmid b
  rw [sha256Update_eq hbuf a, hrest, sha256Update_eq hbuf, List.foldl_append,
    Sha256Ctx.foldl_push_setBitlen, hlen, ← UInt64.add_assoc]
  rfl

end Nostr

end BtClock
