import BtClock.Hash.Fips180
import BtClock.Nostr.Sha256

/-!
# The hash against the standard

However the data is cut into calls of `sha256Update`, `sha256Final` gives the digest the
standard defines for the whole of it.
-/

namespace BtClock

namespace Nostr

def Sha256Words.work (s : Sha256Words) : Fips180.Work :=
  { a := s.a, b := s.b, c := s.c, d := s.d, e := s.e, f := s.f, g := s.g, h := s.h }

@[simp]
theorem Sha256Words.work_add (s t : Sha256Words) : (s.add t).work = s.work.add t.work :=
  rfl

/-! ### Bytes and words -/

theorem shiftLeft_or_byte (v k : ℕ) {b : ℕ} (hb : b < 256) :
    v <<< (k + 8) ||| b <<< k = (v * 256 + b) <<< k := by
  have hstep : v <<< 8 ||| b = v * 256 + b := by
    rw [← Nat.shiftLeft_add_eq_or_of_lt hb, Nat.shiftLeft_eq]
  rw [Nat.add_comm k 8, Nat.shiftLeft_add, ← Nat.shiftLeft_or_distrib, hstep]

theorem wordOfBytes_eq (b₀ b₁ b₂ b₃ : UInt8) :
    wordOfBytes b₀ b₁ b₂ b₃ = UInt32.ofNat (BigEndian.toNat [b₀, b₁, b₂, b₃]) := by
  have h₀ := b₀.toNat_lt
  have h₁ := b₁.toNat_lt
  have h₂ := b₂.toNat_lt
  have h₃ := b₃.toNat_lt
  have hshift (b : UInt8) {k : ℕ} (hk : k ≤ 24) :
      b.toNat <<< k % 4294967296 = b.toNat <<< k := by
    have hb := b.toNat_lt
    have hpow : 2 ^ k ≤ 2 ^ 24 := Nat.pow_le_pow_right Nat.two_pos hk
    rw [Nat.shiftLeft_eq]
    apply Nat.mod_eq_of_lt
    calc b.toNat * 2 ^ k ≤ 255 * 2 ^ 24 := Nat.mul_le_mul (by omega) hpow
      _ < 4294967296 := by omega
  have hor : b₀.toNat <<< 24 ||| b₁.toNat <<< 16 ||| b₂.toNat <<< 8 ||| b₃.toNat =
      BigEndian.toNat [b₀, b₁, b₂, b₃] := by
    have hlast (v : ℕ) : v <<< 8 ||| b₃.toNat = v * 256 + b₃.toNat := by
      rw [← Nat.shiftLeft_add_eq_or_of_lt h₃, Nat.shiftLeft_eq]
    rw [shiftLeft_or_byte _ 16 h₁, shiftLeft_or_byte _ 8 h₂, hlast]
    simp [BigEndian.toNat]
  have hsize : 256 ^ 4 = UInt32.size := by decide
  have hlt : BigEndian.toNat [b₀, b₁, b₂, b₃] < UInt32.size :=
    hsize ▸ BigEndian.toNat_lt [b₀, b₁, b₂, b₃]
  apply UInt32.toNat_inj.mp
  rw [UInt32.toNat_ofNat_of_lt' hlt, ← hor]
  simp [wordOfBytes, hshift]

theorem toUInt8_shiftRight₃₂ (w : UInt32) {k : ℕ} (hk : k < 32) :
    (w >>> UInt32.ofNat k).toUInt8 = UInt8.ofNat (w.toNat / 2 ^ k) := by
  have hsize : k < UInt32.size := hk.trans (by decide)
  apply UInt8.toNat_inj.mp
  rw [UInt32.toNat_toUInt8, UInt32.toNat_shiftRight, UInt8.toNat_ofNat',
    UInt32.toNat_ofNat_of_lt' hsize, Nat.mod_eq_of_lt hk, Nat.shiftRight_eq_div_pow]

theorem toUInt8_shiftRight₆₄ (n : UInt64) {k : ℕ} (hk : k < 64) :
    (n >>> UInt64.ofNat k).toUInt8 = UInt8.ofNat (n.toNat / 2 ^ k) := by
  have hsize : k < UInt64.size := hk.trans (by decide)
  apply UInt8.toNat_inj.mp
  rw [UInt64.toNat_toUInt8, UInt64.toNat_shiftRight, UInt8.toNat_ofNat',
    UInt64.toNat_ofNat_of_lt' hsize, Nat.mod_eq_of_lt hk, Nat.shiftRight_eq_div_pow]

theorem bytesOfWord_eq (w : UInt32) : bytesOfWord w = BigEndian.ofNat 4 w.toNat := by
  have hbytes : bytesOfWord w =
      [24, 16, 8, 0].map fun k => (w >>> UInt32.ofNat k).toUInt8 := by
    simp [bytesOfWord]
  have hmap : ([24, 16, 8, 0].map fun k => (w >>> UInt32.ofNat k).toUInt8) =
      [24, 16, 8, 0].map fun k => UInt8.ofNat (w.toNat / 2 ^ k) := by
    apply List.map_congr_left
    intro k hk
    apply toUInt8_shiftRight₃₂
    revert k
    decide
  rw [hbytes, hmap]
  simp [BigEndian.ofNat, Nat.div_div_eq_div_mul]

theorem bytesOfLength_eq (n : UInt64) : bytesOfLength n = BigEndian.ofNat 8 n.toNat := by
  have hbytes : bytesOfLength n =
      [56, 48, 40, 32, 24, 16, 8, 0].map fun k => (n >>> UInt64.ofNat k).toUInt8 := by
    simp [bytesOfLength]
  have hmap : ([56, 48, 40, 32, 24, 16, 8, 0].map fun k => (n >>> UInt64.ofNat k).toUInt8) =
      [56, 48, 40, 32, 24, 16, 8, 0].map fun k => UInt8.ofNat (n.toNat / 2 ^ k) := by
    apply List.map_congr_left
    intro k hk
    apply toUInt8_shiftRight₆₄
    revert k
    decide
  rw [hbytes, hmap]
  simp [BigEndian.ofNat, Nat.div_div_eq_div_mul]

/-! ### The block function -/

theorem kSha256K_eq : kSha256K = Fips180.roundConstants := by
  rw [Fips180.roundConstants, Fips180.firstPrimes_eq]
  decide +kernel

theorem work_sha256Init : sha256Init.state.work = Fips180.initial := by
  decide +kernel

theorem work_sha256Round (s : Sha256Words) (k w : UInt32) :
    (sha256Round s (k, w)).work = Fips180.round s.work k w :=
  rfl

/-- The block is read word by word. -/
theorem wordsOfBlock_eq {n : ℕ} {block : List UInt8} (h : block.length = 4 * n) :
    wordsOfBlock block = (List.range n).map (Fips180.wordAt block) := by
  induction n generalizing block with
  | zero =>
      rw [List.length_eq_zero_iff.mp h]
      rfl
  | succ n ih =>
      obtain ⟨b₀, b₁, b₂, b₃, bytes, rfl⟩ :
          ∃ b₀ b₁ b₂ b₃ bytes, block = b₀ :: b₁ :: b₂ :: b₃ :: bytes := by
        match block, h with
        | b₀ :: b₁ :: b₂ :: b₃ :: bytes, _ => exact ⟨b₀, b₁, b₂, b₃, bytes, rfl⟩
      have hbytes : bytes.length = 4 * n := by
        simp only [List.length_cons] at h
        omega
      have hrest : Fips180.wordAt (b₀ :: b₁ :: b₂ :: b₃ :: bytes) ∘ Nat.succ =
          Fips180.wordAt bytes := by
        funext t
        have hindex : 4 * Nat.succ t = 4 * t + 4 := rfl
        rw [Function.comp_apply, Fips180.wordAt, hindex]
        rfl
      rw [wordsOfBlock, ih hbytes, List.range_succ_eq_map, List.map_cons, List.map_map, hrest,
        wordOfBytes_eq]
      rfl

/-- The words of the schedule so far, the last one first. -/
def wordsBefore (m : ℕ → UInt32) (k : ℕ) : List UInt32 :=
  ((List.range k).map (Fips180.schedule m)).reverse

theorem wordsBefore_succ (m : ℕ → UInt32) (k : ℕ) :
    wordsBefore m (k + 1) = Fips180.schedule m k :: wordsBefore m k := by
  rw [wordsBefore, List.range_succ, List.map_append, List.reverse_append]
  rfl

theorem getD_wordsBefore (m : ℕ → UInt32) (i j : ℕ) :
    (wordsBefore m (j + i + 1)).getD i 0 = Fips180.schedule m j := by
  induction i with
  | zero => rw [Nat.add_zero, wordsBefore_succ, List.getD_cons_zero]
  | succ i ih => rw [wordsBefore_succ, List.getD_cons_succ, ← Nat.add_assoc, ih]

theorem extendSchedule_wordsBefore (m : ℕ → UInt32) (n : ℕ) {k : ℕ} (hk : 16 ≤ k) :
    extendSchedule n (wordsBefore m k) = wordsBefore m (k + n) := by
  induction n generalizing k with
  | zero => rfl
  | succ n ih =>
      obtain ⟨j, rfl⟩ : ∃ j, k = j + 16 := ⟨k - 16, by omega⟩
      have hnext : Fips180.schedule m (j + 16) =
          Fips180.schedule m j + Fips180.sigma₀ (Fips180.schedule m (j + 1)) +
            Fips180.schedule m (j + 9) + Fips180.sigma₁ (Fips180.schedule m (j + 14)) := by
        rw [Fips180.schedule_of_le m hk]
        simp only [Nat.add_sub_cancel, Nat.reduceSubDiff]
        ac_rfl
      have hstep : extendSchedule (n + 1) (wordsBefore m (j + 16)) =
          extendSchedule n (Fips180.schedule m (j + 16) :: wordsBefore m (j + 16)) := by
        rw [hnext, ← getD_wordsBefore m 15 j, ← getD_wordsBefore m 14 (j + 1),
          ← getD_wordsBefore m 6 (j + 9), ← getD_wordsBefore m 1 (j + 14)]
        rfl
      rw [hstep, ← wordsBefore_succ, ih (by omega), Nat.add_right_comm, Nat.add_assoc]

theorem work_sha256Block (s : Sha256Words) {block : List UInt8} (h : block.length = 64) :
    (sha256Block s block).work = Fips180.compress s.work block := by
  have hwords : (wordsOfBlock block).reverse = wordsBefore (Fips180.wordAt block) 16 := by
    have hfirst : (List.range 16).map (Fips180.schedule (Fips180.wordAt block)) =
        (List.range 16).map (Fips180.wordAt block) := by
      apply List.map_congr_left
      intro t ht
      exact Fips180.schedule_of_lt _ (List.mem_range.mp ht)
    rw [wordsBefore, hfirst, wordsOfBlock_eq (n := 16) h]
  have hrounds (ts : List ℕ) (t : Sha256Words) :
      ((ts.map fun i => (Fips180.roundConstants.getD i 0,
        Fips180.schedule (Fips180.wordAt block) i)).foldl sha256Round t).work =
        ts.foldl (fun y i => Fips180.round y (Fips180.roundConstants.getD i 0)
          (Fips180.schedule (Fips180.wordAt block) i)) t.work := by
    induction ts generalizing t with
    | nil => rfl
    | cons i ts ih => rw [List.map_cons, List.foldl_cons, ih, work_sha256Round, List.foldl_cons]
  have hconstants : kSha256K =
      (List.range 64).map fun i => Fips180.roundConstants.getD i 0 := by
    rw [← kSha256K_eq]
    decide
  rw [sha256Block, hwords, extendSchedule_wordsBefore _ _ (Nat.le_refl 16), wordsBefore,
    List.reverse_reverse, hconstants, List.zip_map', Sha256Words.work_add, hrounds,
    Fips180.compress, Fips180.Work.add_comm]

/-! ### The buffer -/

theorem push_state_buf (c : Sha256Ctx) (b : UInt8) :
    ((c.push b).state, (c.push b).buf) = BlockHash.absorb 64 sha256Block (c.state, c.buf) b := by
  unfold Sha256Ctx.push BlockHash.absorb
  split
  · rfl
  · rfl

theorem foldl_push_state_buf (c : Sha256Ctx) (data : List UInt8) :
    ((data.foldl Sha256Ctx.push c).state, (data.foldl Sha256Ctx.push c).buf) =
      data.foldl (BlockHash.absorb 64 sha256Block) (c.state, c.buf) := by
  induction data generalizing c with
  | nil => rfl
  | cons b data ih => rw [List.foldl_cons, ih, push_state_buf, List.foldl_cons]

theorem work_foldl_sha256Block {bs : List (List UInt8)} (hbs : ∀ b ∈ bs, b.length = 64)
    (s : Sha256Words) :
    (bs.foldl sha256Block s).work = bs.foldl Fips180.compress s.work := by
  induction bs generalizing s with
  | nil => rfl
  | cons b bs ih =>
      rw [List.foldl_cons, ih fun b' hb' => hbs b' (List.mem_cons_of_mem b hb'),
        work_sha256Block s (hbs b (List.mem_cons_self ..)), List.foldl_cons]

theorem sha256Update_nil (c : Sha256Ctx) : sha256Update c [] = c := by
  rw [sha256Update, sha256UpdateLoop, if_pos rfl, List.length_nil]
  simp

/-- The calls together are one call with all the data. -/
theorem foldl_sha256Update {c : Sha256Ctx} (hbuf : c.buf.length < 64)
    (chunks : List (List UInt8)) :
    chunks.foldl sha256Update c = sha256Update c chunks.flatten := by
  induction chunks generalizing c with
  | nil => rw [List.flatten_nil, sha256Update_nil, List.foldl_nil]
  | cons chunk chunks ih =>
      have hnext : (sha256Update c chunk).buf.length < 64 := by
        rw [sha256Update_eq hbuf]
        exact Sha256Ctx.foldl_push_buf_lt hbuf chunk
      rw [List.foldl_cons, ih hnext, List.flatten_cons, sha256Update_append hbuf]

/-! ### The padding -/

/-- The context after a message of `length` bytes. -/
structure Sha256Ctx.Counts (c : Sha256Ctx) (length : ℕ) : Prop where
  bitlen_eq : c.bitlen.toNat = 8 * length
  buf_length : c.buf.length = length % 64

/-- The closing block, or the closing two, are those of the padding. -/
theorem sha256Final_eq {c : Sha256Ctx} {length : ℕ} (h : c.Counts length) :
    sha256Final c =
      ((BlockHash.parse 64 (c.buf ++ Fips180.paddingOf length)).foldl sha256Block
        c.state).work.words.flatMap fun w => BigEndian.ofNat 4 w.toNat := by
  have hbuf := h.buf_length
  have hbytes : bytesOfWord = fun w => BigEndian.ofNat 4 w.toNat := by
    funext w
    exact bytesOfWord_eq w
  have hlength : bytesOfLength c.bitlen = BigEndian.ofNat 8 (8 * length) := by
    rw [bytesOfLength_eq, h.bitlen_eq]
  rw [← hbytes, Fips180.paddingOf, ← hlength]
  unfold sha256Final
  dsimp only
  have hone : (c.buf ++ [0x80]).length = length % 64 + 1 := by
    rw [List.length_append, hbuf, List.length_singleton]
  rcases Fips180.zeroBytes_spec length with hzeros | ⟨hlong, hzeros⟩
  · have hpad : padTo 56 (c.buf ++ [0x80]) ++ bytesOfLength c.bitlen =
        c.buf ++ (0x80 :: List.replicate (Fips180.zeroBytes length) 0 ++
          bytesOfLength c.bitlen) := by
      have hcount : 56 - (c.buf ++ [0x80]).length = Fips180.zeroBytes length := by omega
      rw [padTo, hcount]
      simp
    have hblock : (c.buf ++ (0x80 :: List.replicate (Fips180.zeroBytes length) 0 ++
        bytesOfLength c.bitlen)).length = 64 := by
      simp [bytesOfLength]
      omega
    rw [if_neg (by omega), BlockHash.parse_self (by decide) hblock, ← hpad]
    rfl
  · have hfirst : (padTo 64 (c.buf ++ [0x80])).length = 64 := by
      rw [padTo, List.length_append, List.length_replicate]
      omega
    have hsecond : (padTo 56 [] ++ bytesOfLength c.bitlen).length = 64 := by
      rfl
    have hpad : padTo 64 (c.buf ++ [0x80]) ++ (padTo 56 [] ++ bytesOfLength c.bitlen) =
        c.buf ++ (0x80 :: List.replicate (Fips180.zeroBytes length) 0 ++
          bytesOfLength c.bitlen) := by
      have hcount : Fips180.zeroBytes length = (64 - (c.buf ++ [0x80]).length) + 56 := by omega
      rw [padTo, hcount, ← List.replicate_append_replicate]
      simp [padTo]
    rw [if_pos (by omega), ← hpad, BlockHash.parse_append (by decide) hfirst,
      BlockHash.parse_self (by decide) hsecond]
    rfl

/-- The buffered context is the message's complete blocks hashed, with the rest waiting. -/
theorem absorbed_push (data : List UInt8) :
    BlockHash.Absorbed 64 sha256Block sha256Init.state data
      ((data.foldl Sha256Ctx.push sha256Init).state,
        (data.foldl Sha256Ctx.push sha256Init).buf) := by
  rw [foldl_push_state_buf]
  exact BlockHash.absorbed_foldl (by decide) data

theorem counts_setBitlen (m : Fips180.Message) :
    ((m.bytes.foldl Sha256Ctx.push sha256Init).setBitlen
      (UInt64.ofNat m.bytes.length * 8)).Counts m.bytes.length where
  bitlen_eq := by
    have hlt := m.length_lt
    have hofNat : (UInt64.ofNat m.bytes.length).toNat = m.bytes.length :=
      UInt64.toNat_ofNat_of_lt' (by change m.bytes.length < 2 ^ 64; omega)
    change (UInt64.ofNat m.bytes.length * 8).toNat = 8 * m.bytes.length
    rw [UInt64.toNat_mul, hofNat]
    change m.bytes.length * 8 % 2 ^ 64 = 8 * m.bytes.length
    omega
  buf_length := (absorbed_push m.bytes).length_rest

/-- A message gives the digest of the standard however it is cut. -/
theorem sha256Final_chunks (m : Fips180.Message) (chunks : List (List UInt8))
    (h : chunks.flatten = m.bytes) :
    sha256Final (chunks.foldl sha256Update sha256Init) = Fips180.digest m := by
  have hempty : sha256Init.buf.length < 64 := by decide
  have hctx : chunks.foldl sha256Update sha256Init =
      (m.bytes.foldl Sha256Ctx.push sha256Init).setBitlen
        (UInt64.ofNat m.bytes.length * 8) := by
    rw [foldl_sha256Update hempty, h, sha256Update_eq hempty]
    simp [sha256Init]
  have hblocks (tail : List UInt8) :
      ((BlockHash.parse 64 ((m.bytes.foldl Sha256Ctx.push sha256Init).buf ++ tail)).foldl
          sha256Block (m.bytes.foldl Sha256Ctx.push sha256Init).state).work =
        (BlockHash.parse 64 (m.bytes ++ tail)).foldl Fips180.compress Fips180.initial := by
    rw [← (absorbed_push m.bytes).foldl_parse (by decide),
      work_foldl_sha256Block fun b => BlockHash.length_of_mem_parse, work_sha256Init]
  rw [hctx, sha256Final_eq (counts_setBitlen m), Fips180.digest, Fips180.digestWords,
    ← hblocks]
  rfl

/-- In three calls, the middle one empty. -/
theorem sha256Final_chunks_abc :
    sha256Final ([[97], [], [98, 99]].foldl sha256Update sha256Init) =
      Fips180.digest ⟨[97, 98, 99], by decide⟩ :=
  sha256Final_chunks ⟨[97, 98, 99], by decide⟩ [[97], [], [98, 99]] rfl

end Nostr

end BtClock
