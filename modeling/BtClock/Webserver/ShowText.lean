import BtClock.Data.Json
import BtClock.Fonts.Codepoint
import BtClock.Webserver.AuthGate

/-!
# A text on the panels

A text is split into one glyph for each panel.  The request for the text and the one for the
single cells are read here.
-/

namespace BtClock

namespace ShowText

open Utf8 Auth

abbrev Cell := List UInt8

/-! ### Splitting -/

/-- The length of the sequence at the front of a text, one where there is none. -/
def utf8CodepointByteLength : List UInt8 → ℕ
  | [] => 0
  | c0 :: rest =>
      if c0 < 0x80 then 1
      else if LeadsTwo c0 then
        match rest with
        | c1 :: _ =>
            if ¬ IsContinuation c1 then 1
            else if scalarTwo c0 c1 < 0x80 then 1
            else 2
        | _ => 1
      else if LeadsThree c0 then
        match rest with
        | c1 :: c2 :: _ =>
            if ¬ IsContinuation c1 ∨ ¬ IsContinuation c2 then 1
            else if scalarThree c0 c1 c2 < 0x800 then 1
            else if 0xD800 ≤ scalarThree c0 c1 c2 ∧ scalarThree c0 c1 c2 ≤ 0xDFFF then 1
            else 3
        | _ => 1
      else if LeadsFour c0 then
        match rest with
        | c1 :: c2 :: c3 :: _ =>
            if ¬ IsContinuation c1 ∨ ¬ IsContinuation c2 ∨ ¬ IsContinuation c3 then 1
            else if scalarFour c0 c1 c2 c3 < 0x10000 ∨ scalarFour c0 c1 c2 c3 > 0x10FFFF then 1
            else 4
        | _ => 1
      else 1

/-- The cells of `n` panels, empty behind the end of the text. -/
def fillPanels : ℕ → List UInt8 → List Cell
  | 0, _ => []
  | n + 1, text =>
      if utf8CodepointByteLength text = 0 then List.replicate (n + 1) []
      else
        text.take (utf8CodepointByteLength text) ::
          fillPanels n (text.drop (utf8CodepointByteLength text))

def splitShowTextAcrossPanels (text : List UInt8) (nPanels : ℕ) : Except String (List Cell) :=
  if nPanels = 0 then .error "no_panels" else .ok (fillPanels nPanels text)

/-! ### Glyphs -/

/-- A text is cut into glyphs: a sequence where one begins, a single byte elsewhere. -/
inductive Glyphs : List UInt8 → List Cell → Prop
  | nil : Glyphs [] []
  | sequence {n : ℕ} {bytes rest : List UInt8} {glyphs : List Cell} (h : Sequence n bytes)
      (hrest : Glyphs rest glyphs) : Glyphs (bytes ++ rest) (bytes :: glyphs)
  | byte {b : UInt8} {rest : List UInt8} {glyphs : List Cell}
      (h : ∀ n bytes, Sequence n bytes → ¬ bytes <+: b :: rest) (hrest : Glyphs rest glyphs) :
      Glyphs (b :: rest) ([b] :: glyphs)

/-- The length of a sequence, whatever stands behind it. -/
theorem utf8CodepointByteLength_sequence {n : ℕ} {bytes : List UInt8} (h : Sequence n bytes)
    (rest : List UInt8) : utf8CodepointByteLength (bytes ++ rest) = bytes.length := by
  cases h with
  | @one c0 h0 => simp [utf8CodepointByteLength, h0]
  | @two c0 c1 h0 h1 hmin =>
      simp [utf8CodepointByteLength, h0.not_ascii, h0, h1, Nat.not_lt.mpr hmin]
  | @three c0 c1 c2 h0 h1 h2 hmin hsurrogate =>
      simp [utf8CodepointByteLength, h0.not_ascii, h0.not_leadsTwo, h0, h1, h2,
        Nat.not_lt.mpr hmin, hsurrogate]
  | @four c0 c1 c2 c3 h0 h1 h2 h3 hmin hmax =>
      simp [utf8CodepointByteLength, h0.not_ascii, h0.not_leads.1, h0.not_leads.2, h0, h1, h2, h3,
        Nat.not_lt.mpr hmin, Nat.not_lt.mpr hmax]

/-- A length of more than one is that of a sequence. -/
theorem utf8CodepointByteLength_spec {text : List UInt8} (hne : text ≠ []) :
    utf8CodepointByteLength text = 1 ∨
      ∃ n bytes rest, Sequence n bytes ∧ text = bytes ++ rest ∧
        utf8CodepointByteLength text = bytes.length := by
  fun_cases utf8CodepointByteLength text with
  | case1 => exact absurd rfl hne
  | case5 c0 hascii h0 c1 rest h1 hmin =>
      exact Or.inr ⟨_, [c0, c1], rest, .two h0 (not_not.mp h1) (Nat.not_lt.mp hmin), rfl, rfl⟩
  | case10 c0 hascii htwo h0 c1 c2 rest hcont hmin hsurrogate =>
      obtain ⟨h1, h2⟩ := not_or.mp hcont
      exact Or.inr ⟨_, [c0, c1, c2], rest,
        .three h0 (not_not.mp h1) (not_not.mp h2) (Nat.not_lt.mp hmin) hsurrogate, rfl, rfl⟩
  | case14 c0 hascii htwo hthree h0 c1 c2 c3 rest hcont hrange =>
      obtain ⟨h1, hcont⟩ := not_or.mp hcont
      obtain ⟨h2, h3⟩ := not_or.mp hcont
      obtain ⟨hmin, hmax⟩ := not_or.mp hrange
      exact Or.inr ⟨_, [c0, c1, c2, c3], rest,
        .four h0 (not_not.mp h1) (not_not.mp h2) (not_not.mp h3) (Nat.not_lt.mp hmin)
          (Nat.not_lt.mp hmax), rfl, rfl⟩
  | _ => exact Or.inl rfl

theorem sequence_ne_nil {n : ℕ} {bytes : List UInt8} (h : Sequence n bytes) : bytes ≠ [] := by
  cases h <;> exact List.cons_ne_nil _ _

/-- Where no sequence begins, a single byte is taken. -/
theorem utf8CodepointByteLength_byte {b : UInt8} {rest : List UInt8}
    (h : ∀ n bytes, Sequence n bytes → ¬ bytes <+: b :: rest) :
    utf8CodepointByteLength (b :: rest) = 1 := by
  rcases utf8CodepointByteLength_spec (List.cons_ne_nil b rest) with hone |
    ⟨n, bytes, tail, hseq, htext, -⟩
  · exact hone
  · exact absurd ⟨tail, htext.symm⟩ (h n bytes hseq)

/-- The cells are the first glyphs, with empty cells behind them. -/
theorem fillPanels_eq {text : List UInt8} {glyphs : List Cell} (h : Glyphs text glyphs) (n : ℕ) :
    fillPanels n text = glyphs.take n ++ List.replicate (n - glyphs.length) [] := by
  induction h generalizing n with
  | nil =>
      cases n with
      | zero => rfl
      | succ n => simp [fillPanels, utf8CodepointByteLength]
  | @sequence v bytes rest glyphs hseq hrest ih =>
      cases n with
      | zero => simp [fillPanels]
      | succ n =>
          have hlen := utf8CodepointByteLength_sequence hseq rest
          have hpos : bytes.length ≠ 0 := mt List.length_eq_zero_iff.mp (sequence_ne_nil hseq)
          rw [fillPanels, hlen, if_neg hpos, List.take_left, List.drop_left, ih]
          simp
  | @byte b rest glyphs hbyte hrest ih =>
      cases n with
      | zero => simp [fillPanels]
      | succ n =>
          rw [fillPanels, utf8CodepointByteLength_byte hbyte, if_neg (by decide),
            List.take_succ_cons, List.take_zero, List.drop_succ_cons, List.drop_zero, ih]
          simp

/-- Every text is cut into glyphs. -/
theorem exists_glyphs (text : List UInt8) : ∃ glyphs, Glyphs text glyphs := by
  induction hlen : text.length using Nat.strong_induction_on generalizing text with
  | _ k ih =>
      cases text with
      | nil => exact ⟨[], .nil⟩
      | cons b rest =>
          by_cases hseq : ∃ n bytes, Sequence n bytes ∧ bytes <+: b :: rest
          · obtain ⟨n, bytes, hseq, tail, htext⟩ := hseq
            have hpos : 0 < bytes.length := List.length_pos_iff.mpr (sequence_ne_nil hseq)
            have hsum := congrArg List.length htext
            rw [List.length_append] at hsum
            obtain ⟨glyphs, hglyphs⟩ := ih tail.length (by omega) tail rfl
            exact ⟨bytes :: glyphs, htext ▸ .sequence hseq hglyphs⟩
          · obtain ⟨glyphs, hglyphs⟩ := ih rest.length (by simp [← hlen]) rest rfl
            exact ⟨[b] :: glyphs,
              .byte (fun n bytes h hpre => hseq ⟨n, bytes, h, hpre⟩) hglyphs⟩

theorem Glyphs.flatten_eq {text : List UInt8} {glyphs : List Cell} (h : Glyphs text glyphs) :
    glyphs.flatten = text := by
  induction h with
  | nil => rfl
  | sequence hseq hrest ih => rw [List.flatten_cons, ih]
  | byte hbyte hrest ih => rw [List.flatten_cons, ih, List.singleton_append]

/-- A glyph is a sequence or a single byte. -/
theorem Glyphs.of_mem {text : List UInt8} {glyphs : List Cell} (h : Glyphs text glyphs)
    {cell : Cell} (hcell : cell ∈ glyphs) : (∃ n, Sequence n cell) ∨ ∃ b, cell = [b] := by
  induction h with
  | nil => cases hcell
  | sequence hseq hrest ih =>
      rcases List.mem_cons.mp hcell with rfl | hmem
      · exact Or.inl ⟨_, hseq⟩
      · exact ih hmem
  | byte hbyte hrest ih =>
      rcases List.mem_cons.mp hcell with rfl | hmem
      · exact Or.inr ⟨_, rfl⟩
      · exact ih hmem

theorem flatten_replicate_nil (n : ℕ) : (List.replicate n ([] : Cell)).flatten = [] := by
  simp

/-- The cells are whole glyphs from the front of the text, and the renderer reads each of them in
one step. -/
theorem splitShowTextAcrossPanels_glyphs (text : List UInt8) {n : ℕ} (hn : 1 ≤ n) :
    ∃ cells, splitShowTextAcrossPanels text n = .ok cells ∧ cells.length ≤ n ∧
      cells.flatten <+: text ∧
      (∀ glyphs, Glyphs text glyphs → glyphs.length ≤ n → cells.flatten = text) ∧
      ∀ cell ∈ cells, cell ≠ [] →
        ((∃ c : Char, cell = encode c) ∨ ∃ b, cell = [b]) ∧
        (∃ codepoint, Fonts.nextCodepoint (cell ++ [0]) = some (codepoint, cell.length)) ∧
        ∀ c : Char, cell = encode c →
          Fonts.nextCodepoint (cell ++ [0]) = some (c.toNat, cell.length) := by
  obtain ⟨glyphs, hglyphs⟩ := exists_glyphs text
  refine ⟨fillPanels n text, if_neg (Nat.one_le_iff_ne_zero.mp hn), ?_, ?_, ?_, ?_⟩
  · rw [fillPanels_eq hglyphs, List.length_append, List.length_take, List.length_replicate]
    omega
  · rw [fillPanels_eq hglyphs, List.flatten_append, flatten_replicate_nil, List.append_nil]
    refine ⟨(glyphs.drop n).flatten, ?_⟩
    rw [← List.flatten_append, List.take_append_drop, hglyphs.flatten_eq]
  · intro glyphs' hglyphs' hle
    rw [fillPanels_eq hglyphs', List.flatten_append, flatten_replicate_nil, List.append_nil,
      List.take_of_length_le hle, hglyphs'.flatten_eq]
  · intro cell hcell hne
    rw [fillPanels_eq hglyphs, List.mem_append] at hcell
    have hmem : cell ∈ glyphs := by
      rcases hcell with hcell | hcell
      · exact List.mem_of_mem_take hcell
      · exact absurd (List.eq_of_mem_replicate hcell) hne
    have hchar : ∀ c : Char, cell = encode c →
        Fonts.nextCodepoint (cell ++ [0]) = some (c.toNat, cell.length) := by
      rintro c rfl
      exact Fonts.nextCodepoint_sequence (sequence_encode c) [0]
    rcases hglyphs.of_mem hmem with ⟨v, hseq⟩ | ⟨b, rfl⟩
    · exact ⟨Or.inl ⟨_, hseq.encode_eq.2.symm⟩,
        ⟨v, Fonts.nextCodepoint_sequence hseq [0]⟩, hchar⟩
    · exact ⟨Or.inr ⟨b, rfl⟩, Fonts.nextCodepoint_singleton b, hchar⟩

/-- An overlong form, an euro sign and a letter on two panels. -/
theorem splitShowTextAcrossPanels_two :
    ∃ cells, splitShowTextAcrossPanels [0xC0, 0xE2, 0x82, 0xAC, 0x41] 2 = .ok cells ∧
      cells.length ≤ 2 ∧ cells.flatten <+: [0xC0, 0xE2, 0x82, 0xAC, 0x41] := by
  obtain ⟨cells, hcells, hlen, hprefix, -⟩ :=
    splitShowTextAcrossPanels_glyphs [0xC0, 0xE2, 0x82, 0xAC, 0x41] (n := 2) (by decide)
  exact ⟨cells, hcells, hlen, hprefix⟩

end ShowText

end BtClock
