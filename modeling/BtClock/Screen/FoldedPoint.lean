import BtClock.Format.NumberSuffix
import BtClock.Reading.Packed
import Mathlib.Data.List.GetD

/-!
# The folded point

A decimal point shares a cell with the digit before it, or with all the digits before it.  The
text on the panels stays the same.
-/

namespace BtClock

namespace FoldedPoint

open Format

/-- What is shown on a panel. -/
abbrev CellText := List Char

/-! ### The price with a suffix -/

/-- The loop over the number: `i` characters are passed, the next cell is `idx`, and the character
before the point at `fold` takes it into its cell. -/
def writeNumber (panels : ℕ) (fold : Option ℕ) :
    ℕ → List Char → ℕ → List CellText → List CellText
  | _, [], _, out => out
  | i, c :: rest, idx, out =>
      if panels ≤ idx then out
      else if fold = some (i + 1) then
        match rest with
        | [] => out.set idx [c, '.']
        | _ :: rest => writeNumber panels fold (i + 2) rest (idx + 1) (out.set idx [c, '.'])
      else writeNumber panels fold (i + 1) rest (idx + 1) (out.set idx [c])

def suffixNumChars (panels : ℕ) (mowMode shareDot : Bool) : ℤ :=
  if mowMode || shareDot then (panels : ℤ) - 1 else (panels : ℤ) - 2

/-- The number of a price, as it is shown on a row of panels. -/
def suffixNumber (panels : ℕ) (priceInt : UInt64) (mowMode shareDot : Bool) : List Char :=
  formatNumberWithSuffix priceInt (suffixNumChars panels mowMode shareDot) mowMode

/-- The place of the point which is folded. -/
def foldedDot (numStr : List Char) (shareDot : Bool) : Option ℕ :=
  let dotPos := if shareDot then numStr.findIdx? (· = '.') else none
  dotPos.filter (0 < ·)

/-- The label, which is cleared when the number needs all panels, and the cells. -/
def layoutBtcPriceSuffixStrings (panels : ℕ) (priceInt : UInt64) (currency : CellText)
    (symbolUtf8 : Option CellText) (mowMode shareDot : Bool) : CellText × List CellText :=
  let numStr := suffixNumber panels priceInt mowMode shareDot
  let symbol := symbolUtf8.getD []
  let rawCellsLen := (if symbol = [] then 0 else 1) + numStr.length
  let fold := foldedDot numStr shareDot
  let cellsLen := rawCellsLen - (if fold.isSome then 1 else 0)
  let out := List.replicate panels []
  if cellsLen < panels then
    let digitCells := panels - 1
    let pad := if cellsLen < digitCells then digitCells - cellsLen else 0
    let idx := 1 + pad
    let (idx, out) := if symbol = [] then (idx, out) else (idx + 1, out.set idx symbol)
    ("BTC/".toList ++ currency, writeNumber panels fold 0 numStr idx out)
  else
    let (idx, out) := if symbol = [] ∨ panels = 0 then (0, out) else (1, out.set 0 symbol)
    ([], writeNumber panels none 0 numStr idx out)

/-! ### The fee rate -/

/-- Digits end a run backwards from a cell on. -/
def runStart (cells : List CellText) : ℕ → ℕ
  | 0 => 0
  | k + 1 =>
      let cell := cells.getD k []
      if cell.length = 1 ∧ '0' ≤ cell.headD ' ' ∧ cell.headD ' ' ≤ '9' then runStart cells k
      else k + 1

def pushCell (slots : ℕ) (seq : List CellText) (s : CellText) : List CellText :=
  if seq.length < slots then seq ++ [s] else seq

/-- The cells of the digits. -/
def digitCells (digits : List Char) : List CellText :=
  digits.map fun c => if c = ' ' then [] else [c]

def feeRateDigitCells (digits : List Char) (shareDot : Bool) : List CellText :=
  let cells := digitCells digits
  if shareDot = false then cells
  else
    match cells.findIdx? (· = ['.']) with
    | none => cells
    | some dotIdx =>
        let start := runStart cells dotIdx
        if start = dotIdx then cells
        else
          let slots := digits.length
          let merged := ((cells.take dotIdx).drop start).flatten ++ ['.']
          let seq := ((cells.take start).filter (· ≠ [])).foldl (pushCell slots) []
          let seq := pushCell slots seq merged
          let seq := ((cells.drop (dotIdx + 1)).filter (· ≠ [])).foldl (pushCell slots) seq
          List.replicate (slots - seq.length) [] ++ seq

/-! ### The loop over the number -/

variable {panels : ℕ} {s : List Char}

/-- A cell for each character. -/
def oneEach (s : List Char) : List CellText :=
  s.map fun c => [c]

theorem length_oneEach (s : List Char) : (oneEach s).length = s.length :=
  List.length_map _

theorem nil_notMem_oneEach (s : List Char) : [] ∉ oneEach s :=
  Packed.nil_notMem_map_singleton s

theorem flatten_oneEach (s : List Char) : (oneEach s).flatten = s :=
  Packed.flatten_map_singleton s

/-- Characters before the fold get a cell each. -/
theorem writeNumber_append (fold : Option ℕ) (i : ℕ) (written : List CellText)
    (rest : List Char) (n : ℕ) (hfold : ∀ k < s.length, fold ≠ some (i + k + 1))
    (hroom : written.length + s.length ≤ panels) :
    writeNumber panels fold i (s ++ rest) written.length
        (written ++ List.replicate (s.length + n) []) =
      writeNumber panels fold (i + s.length) rest (written ++ oneEach s).length
        (written ++ oneEach s ++ List.replicate n []) := by
  induction s generalizing i written with
  | nil => simp [oneEach]
  | cons c s ih =>
      rw [List.length_cons] at hfold hroom
      have hhead : fold ≠ some (i + 1) := hfold 0 (Nat.succ_pos _)
      have hnext := ih (i + 1) (written ++ [[c]])
        (fun k hk => by
          have hne := hfold (k + 1) (Nat.succ_lt_succ hk)
          rwa [Nat.add_right_comm i 1 k])
        (by rw [List.length_append, List.length_singleton]; omega)
      have hcells : List.replicate (s.length + 1 + n) ([] : CellText) =
          List.replicate (s.length + n + 1) [] := by
        rw [Nat.add_right_comm]
      rw [List.cons_append, writeNumber.eq_def]
      simp only [List.length_cons, hcells]
      rw [if_neg (by omega), if_neg hhead, Packed.set_append_replicate]
      rw [List.length_append, List.length_singleton] at hnext
      rw [hnext]
      simp only [oneEach, List.map_cons, List.append_assoc, List.singleton_append]
      rw [Nat.add_right_comm i 1, Nat.add_assoc]

/-- The characters which are left get a cell each. -/
theorem writeNumber_end (fold : Option ℕ) (i : ℕ) (written : List CellText)
    (hfold : ∀ k < s.length, fold ≠ some (i + k + 1))
    (hroom : written.length + s.length ≤ panels) :
    writeNumber panels fold i s written.length (written ++ List.replicate s.length []) =
      written ++ oneEach s := by
  have hall := writeNumber_append fold i written [] 0 hfold hroom
  rw [List.append_nil, Nat.add_zero] at hall
  rw [hall, List.replicate_zero, List.append_nil, writeNumber]

/-- A digit takes the point behind it into its cell. -/
theorem writeNumber_fold (i : ℕ) (written : List CellText) (c point : Char) (rest : List Char)
    (n : ℕ)
    (hroom : written.length < panels) :
    writeNumber panels (some (i + 1)) i (c :: point :: rest) written.length
        (written ++ List.replicate (n + 1) []) =
      writeNumber panels (some (i + 1)) (i + 2) rest (written ++ [[c, '.']]).length
        (written ++ [[c, '.']] ++ List.replicate n []) := by
  rw [writeNumber.eq_def]
  simp only [if_neg (Nat.not_le.mpr hroom), if_true, Packed.set_append_replicate]
  rw [List.length_append, List.length_singleton]

/-- The folded point stands behind a character. -/
theorem exists_split_of_foldedDot {s : List Char} {shareDot : Bool} {d : ℕ}
    (h : foldedDot s shareDot = some d) :
    ∃ init c back, s = init ++ c :: '.' :: back ∧ d = init.length + 1 := by
  obtain ⟨hdot, hpos⟩ := Option.filter_eq_some_iff.mp h
  have hpos : 0 < d := of_decide_eq_true hpos
  cases shareDot with
  | false => cases hdot
  | true =>
      obtain ⟨hlt, hpoint, -⟩ := List.findIdx?_eq_some_iff_getElem.mp hdot
      obtain ⟨e, rfl⟩ := Nat.exists_eq_add_one_of_ne_zero (Nat.ne_of_gt hpos)
      refine ⟨s.take e, s[e], s.drop (e + 2), ?_, by rw [List.length_take_of_le (by omega)]⟩
      have hchar : s[e + 1] = '.' := of_decide_eq_true hpoint
      rw [← hchar, List.getElem_cons_drop, List.getElem_cons_drop,
        List.take_append_drop]

/-- The loop fills the row: the cells are not empty and make up the number. -/
theorem exists_cells_of_writeNumber (written : List CellText) (s : List Char) (shareDot : Bool) :
    ∃ cells : List CellText,
      cells.length + (if (foldedDot s shareDot).isSome then 1 else 0) = s.length ∧
        [] ∉ cells ∧ cells.flatten = s ∧
          writeNumber (written.length + cells.length) (foldedDot s shareDot) 0 s written.length
            (written ++ List.replicate cells.length []) = written ++ cells := by
  cases hdot : foldedDot s shareDot with
  | none =>
      refine ⟨oneEach s, length_oneEach s, nil_notMem_oneEach s, flatten_oneEach s, ?_⟩
      rw [length_oneEach]
      exact writeNumber_end none 0 written (fun k _ => (Option.some_ne_none _).symm) (Nat.le_refl _)
  | some d =>
      obtain ⟨init, c, back, rfl, rfl⟩ := exists_split_of_foldedDot hdot
      have hlength : (oneEach init ++ [c, '.'] :: oneEach back).length =
          init.length + (back.length + 1) := by
        rw [List.length_append, List.length_cons, length_oneEach, length_oneEach]
      refine ⟨oneEach init ++ [c, '.'] :: oneEach back, ?_, ?_, ?_, ?_⟩
      · rw [hlength, Option.isSome_some, if_pos rfl, List.length_append]
        simp only [List.length_cons]
        omega
      · simp [oneEach]
      · simp [flatten_oneEach]
      · have hbefore : ∀ k < init.length, some (init.length + 1) ≠ some (0 + k + 1) := by
          intro k hk heq
          have hk' := Option.some.inj heq
          omega
        have hbehind : ∀ k < back.length,
            some (init.length + 1) ≠ some (init.length + 2 + k + 1) := by
          intro k _ heq
          have hk' := Option.some.inj heq
          omega
        rw [hlength, writeNumber_append _ 0 written (c :: '.' :: back) (back.length + 1) hbefore
          (by omega), Nat.zero_add, writeNumber_fold, writeNumber_end _ _ _ hbehind]
        · rw [List.append_assoc, List.append_assoc, List.singleton_append]
        · rw [List.length_append, List.length_append, length_oneEach, List.length_singleton]
          omega
        · rw [List.length_append, length_oneEach]
          omega

/-! ### The row of the price -/

/-- The point which is folded is one character of the number. -/
theorem foldedDot_le_length (numStr : List Char) (shareDot : Bool) :
    (if (foldedDot numStr shareDot).isSome then 1 else 0) ≤ numStr.length := by
  obtain ⟨cells, hlength, -⟩ := exists_cells_of_writeNumber [] numStr shareDot
  exact hlength ▸ Nat.le_add_left _ _

/-- The number fills the row behind the label, the blanks and the symbol. -/
theorem row_shows (blank : ℕ) {front : List CellText} (numStr : List Char) (shareDot : Bool)
    (hfront : [] ∉ front)
    (hroom : 1 + blank + front.length +
      (numStr.length - (if (foldedDot numStr shareDot).isSome then 1 else 0)) = panels) :
    ∃ row, writeNumber panels (foldedDot numStr shareDot) 0 numStr (1 + blank + front.length)
        (List.replicate (1 + blank) [] ++ front ++
          List.replicate (panels - (1 + blank + front.length)) []) = row ∧
      row.length = panels ∧ Packed.Shows row.tail (front.flatten ++ numStr) := by
  obtain ⟨cells, hlength, hne, hflat, hwrite⟩ :=
    exists_cells_of_writeNumber (List.replicate (1 + blank) [] ++ front) numStr shareDot
  have hwritten : (List.replicate (1 + blank) [] ++ front).length = 1 + blank + front.length := by
    rw [List.length_append, List.length_replicate]
  have hcells : 1 + blank + front.length + cells.length = panels := by
    rw [← hroom, ← hlength, Nat.add_sub_cancel]
  rw [hwritten, hcells] at hwrite
  refine ⟨_, rfl, ?_, ?_⟩
  · rw [← hcells, Nat.add_sub_cancel_left, hcells, hwrite, List.length_append, hwritten, hcells]
  · rw [← hcells, Nat.add_sub_cancel_left, hcells, hwrite, Nat.add_comm 1, List.replicate_succ,
      List.append_assoc, List.cons_append, List.tail_cons, ← hflat, ← List.flatten_append]
    exact Packed.shows_replicate_append blank fun hmem => (List.mem_append.mp hmem).elim hfront hne

theorem layoutBtcPriceSuffixStrings_shows (panels : ℕ) (priceInt : UInt64) (currency : CellText)
    (symbolUtf8 : Option CellText) (mowMode shareDot : Bool)
    (h : (layoutBtcPriceSuffixStrings panels priceInt currency symbolUtf8 mowMode shareDot).1 ≠
      []) :
    (layoutBtcPriceSuffixStrings panels priceInt currency symbolUtf8 mowMode shareDot).2.length =
        panels ∧
      Packed.Shows
        (layoutBtcPriceSuffixStrings panels priceInt currency symbolUtf8 mowMode shareDot).2.tail
        (symbolUtf8.getD [] ++ suffixNumber panels priceInt mowMode shareDot) := by
  unfold layoutBtcPriceSuffixStrings at h ⊢
  generalize suffixNumber panels priceInt mowMode shareDot = numStr at h ⊢
  generalize symbolUtf8.getD [] = symbol at h ⊢
  have hfold := foldedDot_le_length numStr shareDot
  dsimp only at h ⊢
  generalize hcells : (if symbol = [] then 0 else 1) + numStr.length -
    (if (foldedDot numStr shareDot).isSome = true then 1 else 0) = cellsLen at h ⊢
  by_cases hfit : cellsLen < panels
  swap
  · rw [if_neg hfit] at h
    exact absurd rfl h
  have hpad : (if cellsLen < panels - 1 then panels - 1 - cellsLen else 0) =
      panels - 1 - cellsLen := by
    split_ifs
    · rfl
    · omega
  rw [if_pos hfit, hpad]
  obtain ⟨blank, hblank⟩ : ∃ blank, panels = 1 + blank + cellsLen :=
    ⟨panels - 1 - cellsLen, by omega⟩
  have hidx : panels - 1 - cellsLen = blank := by omega
  rw [hidx]
  by_cases hsymbol : symbol = []
  · rw [if_pos hsymbol] at hcells ⊢
    obtain ⟨row, hrow, hshows⟩ := row_shows blank numStr shareDot List.not_mem_nil
      (show 1 + blank + 0 + _ = panels by omega)
    rw [Packed.replicate_eq_append (show 1 + blank ≤ panels by omega), hsymbol]
    rw [List.append_nil] at hrow
    exact hrow ▸ hshows
  · rw [if_neg hsymbol] at hcells ⊢
    obtain ⟨row, hrow, hshows⟩ := row_shows blank numStr shareDot
      (show [] ∉ [symbol] from fun hmem => hsymbol (List.mem_singleton.mp hmem).symm)
      (show 1 + blank + 1 + _ = panels by omega)
    rw [Packed.set_replicate symbol (show 1 + blank < panels by omega)]
    rw [List.flatten_singleton] at hshows
    exact hrow ▸ hshows

/-! ### The row of the fee rate -/

theorem foldl_pushCell {slots : ℕ} {seq cells : List CellText}
    (h : seq.length + cells.length ≤ slots) : cells.foldl (pushCell slots) seq = seq ++ cells := by
  induction cells generalizing seq with
  | nil => rw [List.foldl_nil, List.append_nil]
  | cons cell cells ih =>
      rw [List.length_cons] at h
      rw [List.foldl_cons, pushCell, if_pos (by omega), ih, List.append_assoc,
        List.singleton_append]
      rw [List.length_append, List.length_singleton]
      omega

def IsDigit (c : Char) : Prop :=
  '0' ≤ c ∧ c ≤ '9'

theorem ne_blank_of_isDigit {c : Char} (h : IsDigit c) : c ≠ ' ' := by
  rintro rfl
  exact absurd h.1 (by decide)

theorem ne_point_of_isDigit {c : Char} (h : IsDigit c) : c ≠ '.' := by
  rintro rfl
  exact absurd h.1 (by decide)

/-- Blanks are empty cells, and other characters get a cell each. -/
theorem digitCells_eq (blanks : ℕ) {num : List Char} (h : ' ' ∉ num) :
    digitCells (List.replicate blanks ' ' ++ num) = List.replicate blanks [] ++ oneEach num := by
  rw [digitCells, List.map_append, List.map_replicate, if_pos rfl, oneEach]
  congr 1
  apply List.map_congr_left
  intro c hc
  rw [if_neg fun heq : c = ' ' => h (heq ▸ hc)]

/-- The run before the point ends at the blanks. -/
theorem runStart_digits (blanks : ℕ) {whole : List Char} (hwhole : ∀ c ∈ whole, IsDigit c)
    (rest : List CellText) {j : ℕ} (hj : j ≤ whole.length) :
    runStart (List.replicate blanks [] ++ oneEach whole ++ rest) (blanks + j) = blanks := by
  induction j with
  | zero =>
      cases blanks with
      | zero => rfl
      | succ k =>
          have hblank : (List.replicate (k + 1) [] ++ oneEach whole ++ rest).getD k [] = [] := by
            rw [List.append_assoc, List.getD_append _ _ _ _ (by rw [List.length_replicate]; omega),
              List.getD_replicate _ (Nat.lt_succ_self k)]
          rw [Nat.add_zero, runStart, hblank]
          exact if_neg fun hcell => absurd hcell.1 (by decide)
  | succ j ih =>
      have hlt : j < whole.length := hj
      have hcell : (List.replicate blanks [] ++ oneEach whole ++ rest).getD (blanks + j) [] =
          [whole[j]] := by
        rw [List.getD_append _ _ _ _ (by
            rw [List.length_append, List.length_replicate, length_oneEach]; omega),
          List.getD_append_right _ _ _ _ (by rw [List.length_replicate]; omega),
          List.length_replicate, Nat.add_sub_cancel_left,
          List.getD_eq_getElem _ _ (by rw [length_oneEach]; exact hlt)]
        exact List.getElem_map _
      have hdigit := hwhole whole[j] (List.getElem_mem hlt)
      rw [← Nat.add_assoc, runStart, hcell]
      exact (if_pos ⟨rfl, hdigit.1, hdigit.2⟩).trans (ih (Nat.le_of_succ_le hj))

/-- Without a point no cell is one. -/
theorem findIdx?_point_eq_none {num : List Char} (blanks : ℕ) (h : '.' ∉ num) :
    (List.replicate blanks [] ++ oneEach num).findIdx? (· = ['.']) = none := by
  rw [List.findIdx?_eq_none_iff]
  intro cell hcell
  rw [decide_eq_false_iff_not]
  rintro rfl
  rcases List.mem_append.mp hcell with hblank | hone
  · exact absurd (List.eq_of_mem_replicate hblank) (List.cons_ne_nil _ _)
  · obtain ⟨c, hc, heq⟩ := List.mem_map.mp hone
    exact h ((List.cons.inj heq).1 ▸ hc)

/-- A number with at most one point has none, or digits on both sides of it. -/
theorem split_point {num : List Char} (hnum : ∀ c ∈ num, IsDigit c ∨ c = '.')
    (hpoint : num.count '.' ≤ 1) :
    (∀ c ∈ num, IsDigit c) ∨ ∃ whole frac, num = whole ++ '.' :: frac ∧
      (∀ c ∈ whole, IsDigit c) ∧ ∀ c ∈ frac, IsDigit c := by
  by_cases hmem : '.' ∈ num
  · obtain ⟨whole, frac, rfl, hfirst⟩ := List.eq_append_cons_of_mem hmem
    rw [List.count_append, List.count_cons_self] at hpoint
    have hlast : '.' ∉ frac := List.count_eq_zero.mp (by omega)
    refine Or.inr ⟨whole, frac, rfl, fun c hc => ?_, fun c hc => ?_⟩
    · exact (hnum c (List.mem_append_left _ hc)).resolve_right fun heq => hfirst (heq ▸ hc)
    · exact (hnum c (List.mem_append_right _ (List.mem_cons_of_mem _ hc))).resolve_right
        fun heq => hlast (heq ▸ hc)
  · exact Or.inl fun c hc => (hnum c hc).resolve_right fun heq => hmem (heq ▸ hc)

theorem notMem_of_digits {num : List Char} (h : ∀ c ∈ num, IsDigit c) :
    ' ' ∉ num ∧ '.' ∉ num :=
  ⟨fun hmem => ne_blank_of_isDigit (h _ hmem) rfl, fun hmem => ne_point_of_isDigit (h _ hmem) rfl⟩

/-- The cells of a number with a point, and the place of the point. -/
theorem digitCells_point (blanks : ℕ) {whole frac : List Char} (hwhole : ∀ c ∈ whole, IsDigit c)
    (hfrac : ∀ c ∈ frac, IsDigit c) :
    digitCells (List.replicate blanks ' ' ++ (whole ++ '.' :: frac)) =
        List.replicate blanks [] ++ oneEach whole ++ ['.'] :: oneEach frac ∧
      (List.replicate blanks [] ++ oneEach whole ++ ['.'] :: oneEach frac).findIdx?
        (· = ['.']) = some (blanks + whole.length) := by
  have hblank : ' ' ∉ whole ++ '.' :: frac := by
    rw [List.mem_append, List.mem_cons, not_or, not_or]
    exact ⟨(notMem_of_digits hwhole).1, by decide, (notMem_of_digits hfrac).1⟩
  constructor
  · rw [digitCells_eq blanks hblank, oneEach, List.map_append, List.map_cons, List.append_assoc]
    rfl
  · rw [List.findIdx?_append, findIdx?_point_eq_none blanks (notMem_of_digits hwhole).2,
      List.findIdx?_cons, decide_eq_true rfl, if_pos rfl, Option.map_some, Option.none_or,
      Nat.zero_add, List.length_append, List.length_replicate, length_oneEach]

/-- The digits before the point share a cell with it. -/
theorem feeRateDigitCells_point (blanks : ℕ) {whole frac : List Char}
    (hwhole : ∀ c ∈ whole, IsDigit c) (hfrac : ∀ c ∈ frac, IsDigit c) (hne : whole ≠ []) :
    feeRateDigitCells (List.replicate blanks ' ' ++ (whole ++ '.' :: frac)) true =
      List.replicate (blanks + whole.length) [] ++ (whole ++ ['.']) :: oneEach frac := by
  obtain ⟨hcells, hdot⟩ := digitCells_point blanks hwhole hfrac
  have hfront : (List.replicate blanks ([] : CellText) ++ oneEach whole).length =
      blanks + whole.length := by
    rw [List.length_append, List.length_replicate, length_oneEach]
  have hpos : 0 < whole.length := List.length_pos_iff.mpr hne
  have hlength : (List.replicate blanks ' ' ++ (whole ++ '.' :: frac)).length =
      blanks + (whole.length + (frac.length + 1)) := by
    rw [List.length_append, List.length_append, List.length_replicate, List.length_cons]
  rw [feeRateDigitCells]
  simp only [hcells, hdot, Bool.true_eq_false, if_false,
    runStart_digits blanks hwhole (['.'] :: oneEach frac) (Nat.le_refl whole.length), hlength]
  rw [if_neg (by omega)]
  have hwhole' : (List.replicate blanks [] ++ oneEach whole ++ ['.'] :: oneEach frac).take
      (blanks + whole.length) = List.replicate blanks [] ++ oneEach whole :=
    List.take_left' hfront
  have hrun : (List.replicate blanks [] ++ oneEach whole).drop blanks = oneEach whole :=
    List.drop_left' List.length_replicate
  have hleft : ((List.replicate blanks [] ++ oneEach whole ++ ['.'] :: oneEach frac).take
      blanks).filter (· ≠ []) = [] := by
    rw [List.append_assoc, List.take_left' List.length_replicate, List.filter_replicate]
    rfl
  have hright : ((List.replicate blanks [] ++ oneEach whole ++ ['.'] :: oneEach frac).drop
      (blanks + whole.length + 1)).filter (· ≠ []) = oneEach frac := by
    rw [← List.drop_drop, List.drop_left' hfront, List.drop_one, List.tail_cons,
      List.filter_eq_self]
    intro cell hcell
    exact decide_eq_true fun heq => nil_notMem_oneEach frac (heq ▸ hcell)
  have hmerged : pushCell (blanks + (whole.length + (frac.length + 1))) [] (whole ++ ['.']) =
      [whole ++ ['.']] :=
    if_pos (show 0 < blanks + (whole.length + (frac.length + 1)) by omega)
  have hroom : [whole ++ ['.']].length + (oneEach frac).length ≤
      blanks + (whole.length + (frac.length + 1)) := by
    rw [List.length_singleton, length_oneEach]
    omega
  rw [hwhole', hrun, hleft, hright, List.foldl_nil, flatten_oneEach, hmerged,
    foldl_pushCell hroom, List.singleton_append, List.length_cons, length_oneEach]
  congr 2
  omega

/-- A row of blanks and a number shows the number, whether the point is folded or not. -/
theorem feeRateDigitCells_shows (blanks : ℕ) {num : List Char}
    (hnum : ∀ c ∈ num, IsDigit c ∨ c = '.') (hpoint : num.count '.' ≤ 1) (shareDot : Bool) :
    (feeRateDigitCells (List.replicate blanks ' ' ++ num) shareDot).length = blanks + num.length ∧
      Packed.Shows (feeRateDigitCells (List.replicate blanks ' ' ++ num) shareDot) num := by
  -- Without a fold the cells are those of the characters.
  have hplain : ' ' ∉ num → feeRateDigitCells (List.replicate blanks ' ' ++ num) shareDot =
      digitCells (List.replicate blanks ' ' ++ num) →
        (feeRateDigitCells (List.replicate blanks ' ' ++ num) shareDot).length =
            blanks + num.length ∧
          Packed.Shows (feeRateDigitCells (List.replicate blanks ' ' ++ num) shareDot) num := by
    intro hblank hcells
    rw [hcells, digitCells_eq blanks hblank]
    refine ⟨by rw [List.length_append, List.length_replicate, length_oneEach], ?_⟩
    have hshows := Packed.shows_replicate_append blanks (nil_notMem_oneEach num)
    rwa [flatten_oneEach] at hshows
  have hblank : ' ' ∉ num := fun hmem =>
    (hnum _ hmem).elim (fun hdigit => ne_blank_of_isDigit hdigit rfl) (by decide)
  cases shareDot with
  | false => exact hplain hblank (by simp only [feeRateDigitCells, if_true])
  | true =>
      rcases split_point hnum hpoint with hdigits | ⟨whole, frac, rfl, hwhole, hfrac⟩
      · refine hplain hblank ?_
        rw [feeRateDigitCells]
        simp only [Bool.true_eq_false, if_false, digitCells_eq blanks hblank,
          findIdx?_point_eq_none blanks (notMem_of_digits hdigits).2]
      by_cases hne : whole = []
      · subst hne
        obtain ⟨hcells, hdot⟩ := digitCells_point blanks hwhole hfrac
        refine hplain hblank ?_
        rw [feeRateDigitCells]
        have hrun := runStart_digits blanks hwhole (['.'] :: oneEach frac) (Nat.le_refl 0)
        rw [Nat.add_zero] at hrun
        simp only [Bool.true_eq_false, if_false, hcells, hdot, List.length_nil, Nat.add_zero, hrun,
          if_true]
      · rw [feeRateDigitCells_point blanks hwhole hfrac hne]
        refine ⟨?_, ?_⟩
        · rw [List.length_append, List.length_replicate, List.length_cons, length_oneEach,
            List.length_append, List.length_cons, Nat.add_assoc]
        · have hcells : [] ∉ (whole ++ ['.']) :: oneEach frac := by
            rw [List.mem_cons, not_or]
            exact ⟨fun heq => hne (List.append_eq_nil_iff.mp heq.symm).1, nil_notMem_oneEach frac⟩
          have hshows := Packed.shows_replicate_append (blanks + whole.length) hcells
          rwa [List.flatten_cons, flatten_oneEach, List.append_assoc, List.singleton_append]
            at hshows

/-! ### Both rows -/

/-- Folding the point loses nothing: the cells show the same text, packed to the right. -/
structure FoldsNothingAway : Prop where
  price panels priceInt currency symbolUtf8 mowMode shareDot :
    (layoutBtcPriceSuffixStrings panels priceInt currency symbolUtf8 mowMode shareDot).1 ≠ [] →
      (layoutBtcPriceSuffixStrings panels priceInt currency symbolUtf8 mowMode shareDot).2.length =
          panels ∧
        Packed.Shows
          (layoutBtcPriceSuffixStrings panels priceInt currency symbolUtf8 mowMode shareDot).2.tail
          (symbolUtf8.getD [] ++
            formatNumberWithSuffix priceInt (suffixNumChars panels mowMode shareDot) mowMode)
  fee blanks (num : List Char) : (∀ c ∈ num, IsDigit c ∨ c = '.') → num.count '.' ≤ 1 →
    (feeRateDigitCells (List.replicate blanks ' ' ++ num) true).flatten =
        (feeRateDigitCells (List.replicate blanks ' ' ++ num) false).flatten ∧
      ∀ shareDot,
        (feeRateDigitCells (List.replicate blanks ' ' ++ num) shareDot).length =
            blanks + num.length ∧
          Packed.Shows (feeRateDigitCells (List.replicate blanks ' ' ++ num) shareDot) num

theorem foldsNothingAway : FoldsNothingAway where
  price := layoutBtcPriceSuffixStrings_shows
  fee blanks num hnum hpoint := by
    have hshows := feeRateDigitCells_shows blanks hnum hpoint
    exact ⟨(hshows true).2.flatten.trans (hshows false).2.flatten.symm, hshows⟩

end FoldedPoint

end BtClock
