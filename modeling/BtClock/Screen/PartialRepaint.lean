import BtClock.Screen.SatsPerCurrency
import BtClock.Transition.Repaint
import Mathlib.Data.Fin.Tuple.Basic

/-!
# Partial repaints

A renderer fills the slots of a screen for the new value and selects the panels whose cells differ
from those of the value before.  The block height always shows what a full repaint shows.  The
satoshis for a unit of currency do not: the label panel is left alone when the value moves into or
out of the range of the other label.
-/

namespace BtClock

open FoldedPoint (CellText)

namespace PartialRepaint

inductive PaintSlot.Kind where
  | kBlank
  | kLabelSplit
  | kDigit
  | kSatsGlyph
  | kBtcGlyph
  deriving DecidableEq

structure PaintSlot where
  kind : PaintSlot.Kind := .kBlank
  text : CellText := []
  deriving DecidableEq

/-- The slots of a screen, and the panels which are painted. -/
structure DataScreen (panels : ℕ) where
  slots : Fin panels → PaintSlot
  update : Fin panels → Bool

def paintDataScreen {panels : ℕ} (shown : Fin panels → PaintSlot) (screen : DataScreen panels) :
    Fin panels → PaintSlot :=
  Repaint.painted screen.update shown screen.slots

/-! ### The block height -/

def blockHeightDropsLabel (height : UInt32) (panels : ℕ) : Bool :=
  panels ≤ (toString height.toNat).length

/-- Right-justified digits; those in front are cut off where there is no room. -/
def formatDigits (h : UInt32) (slots : ℕ) : List Char :=
  let buf := (toString h.toNat).toList
  if slots < buf.length then buf.drop (buf.length - slots)
  else List.replicate (slots - buf.length) ' ' ++ buf

/-- On `k + 1` panels. -/
def renderBlockHeightScreen (k : ℕ) (blockHeight prevHeight : UInt32) (fullRefreshMode : Bool) :
    DataScreen (k + 1) :=
  let cellDiffReset := prevHeight == 0
  let nowOverflow := blockHeightDropsLabel blockHeight (k + 1)
  let prevOverflow := !cellDiffReset && blockHeightDropsLabel prevHeight (k + 1)
  let layoutChanged := nowOverflow != prevOverflow
  let cellForce := cellDiffReset || layoutChanged
  let digitPanels := if nowOverflow then k + 1 else k
  let prevDigitPanels := if prevOverflow then k + 1 else k
  let digitBase := if nowOverflow then 0 else 1
  let newDigits := formatDigits blockHeight digitPanels
  -- Not filled when it is not read.
  let oldDigits :=
    if !cellDiffReset && !layoutChanged then formatDigits prevHeight prevDigitPanels else []
  { slots := fun panel =>
      if panel.val < digitBase then { kind := .kLabelSplit, text := "BLOCK/HEIGHT".toList }
      else { kind := .kDigit, text := [newDigits.getD (panel - digitBase) ' '] }
    update := fun panel =>
      if panel.val < digitBase then cellForce || fullRefreshMode
      else cellForce || fullRefreshMode ||
        newDigits.getD (panel - digitBase) ' ' != oldDigits.getD (panel - digitBase) ' ' }

/-- What a full repaint of a height shows. -/
def blockHeightLayout (k : ℕ) (height : UInt32) : Fin (k + 1) → PaintSlot :=
  (renderBlockHeightScreen k height 0 true).slots

/-! ### Satoshis for a unit of currency -/

/-- What stays the same from one price to the next. -/
structure MoscowTimeSettings where
  currency : CellText
  satsVariant : UInt8
  useSatsSymbol : Bool
  useBtcSymbol : Bool
  useMscwTime : Bool
  shareDot : Bool

def kBtcSignUtf8 : CellText := ['₿']

def satsGlyphUtf8 (variant : UInt8) : CellText :=
  [Char.ofNat (0xE000 + (variant &&& 0x0F).toNat)]

namespace MoscowTimeSettings

def reserveMarker (s : MoscowTimeSettings) : Bool :=
  s.useSatsSymbol || s.useBtcSymbol

def layout (s : MoscowTimeSettings) (k : ℕ) (price : List Char) : SatsPerCurrencyLayout :=
  computeSatsPerCurrencyLayout k price s.reserveMarker s.shareDot

/-- The label of the classic range. -/
def moscow (s : MoscowTimeSettings) (k : ℕ) (price : List Char) : Bool :=
  s.useMscwTime && s.currency == "USD".toList && !(s.layout k price).fractional &&
    decide (0 < satsPerUnit price) && decide (satsPerUnit price < 100000)

def labelText (s : MoscowTimeSettings) (k : ℕ) (price : List Char) : CellText :=
  if s.moscow k price then "MSCW/TIME".toList else "SATS/".toList ++ s.currency

def digitSlot (s : MoscowTimeSettings) (isSats : Bool) (cell : CellText) : PaintSlot :=
  if isSats then
    if s.useBtcSymbol then { kind := .kBtcGlyph, text := kBtcSignUtf8 }
    else if s.useSatsSymbol then { kind := .kSatsGlyph, text := satsGlyphUtf8 s.satsVariant }
    else { kind := .kBlank, text := [] }
  else if cell = [] then { kind := .kBlank, text := [] }
  else { kind := .kDigit, text := cell }

end MoscowTimeSettings

/-- On `k + 1` panels. -/
def renderMoscowTimeScreen (k : ℕ) (s : MoscowTimeSettings) (price prevPrice : List Char)
    (fullRefreshMode : Bool) : DataScreen (k + 1) :=
  let cellDiffReset := prevPrice.isEmpty
  let now := s.layout k price
  let before := if cellDiffReset then SatsPerCurrencyLayout.blank k else s.layout k prevPrice
  { slots := Fin.cons { kind := .kLabelSplit, text := s.labelText k price } fun i =>
      s.digitSlot (now.isSats.getD i false) (now.cells.getD i [])
    update := Fin.cons (cellDiffReset || fullRefreshMode) fun i =>
      cellDiffReset || fullRefreshMode || now.cells.getD i [] != before.cells.getD i [] ||
        now.isSats.getD i false != before.isSats.getD i false }

/-- What a full repaint of a price shows. -/
def moscowTimeLayout (k : ℕ) (s : MoscowTimeSettings) (price : List Char) :
    Fin (k + 1) → PaintSlot :=
  (renderMoscowTimeScreen k s price [] true).slots

/-- The satoshis are between 1 and 99999, and not shown as a fraction. -/
def InClassicRange (k : ℕ) (s : MoscowTimeSettings) (price : List Char) : Prop :=
  (0 < satsPerUnit price ∧ satsPerUnit price < 100000) ∧
    ¬SatsPerCurrencyLayout.ShownAsFraction k price s.reserveMarker s.shareDot

/-! ### The block height shows what a full repaint shows -/

/-- A full repaint shows its slots, whatever was shown. -/
theorem paint_blockHeight_full (k : ℕ) (height : UInt32) (shown : Fin (k + 1) → PaintSlot) :
    paintDataScreen shown (renderBlockHeightScreen k height 0 true) =
      blockHeightLayout k height :=
  Repaint.painted_of_forall_marked (fun panel => by
    simp only [renderBlockHeightScreen, Bool.or_true, Bool.true_or, ite_self]) _ _

/-- The panels which are left alone are those on which nothing changes. -/
theorem blockHeightLayout_eq_of_not_update {k : ℕ} {blockHeight prevHeight : UInt32} {full : Bool}
    {panel : Fin (k + 1)}
    (h : (renderBlockHeightScreen k blockHeight prevHeight full).update panel = false) :
    blockHeightLayout k prevHeight panel = blockHeightLayout k blockHeight panel := by
  cases hreset : prevHeight == 0 with
  | true =>
    simp only [renderBlockHeightScreen, hreset, Bool.true_or, ite_self, Bool.true_eq_false] at h
  | false =>
    simp only [renderBlockHeightScreen, hreset, Bool.false_or, Bool.not_false, Bool.true_and]
      at h
    have hsame : blockHeightDropsLabel blockHeight (k + 1) =
        blockHeightDropsLabel prevHeight (k + 1) := by
      by_contra hne
      have hlayout := bne_iff_ne.mpr hne
      simp only [hlayout, Bool.true_or, ite_self, Bool.true_eq_false] at h
    simp only [blockHeightLayout, renderBlockHeightScreen, hsame]
    by_cases hlabel : panel.val < if blockHeightDropsLabel prevHeight (k + 1) then 0 else 1
    · rw [if_pos hlabel, if_pos hlabel]
    · simp only [hsame, bne_self_eq_false, Bool.not_false, if_true, if_neg hlabel, Bool.false_or,
        Bool.or_eq_false_iff, bne_eq_false_iff_eq] at h
      rw [if_neg hlabel, if_neg hlabel, h.2]

theorem paint_blockHeight (k : ℕ) (blockHeight prevHeight : UInt32) (full : Bool) :
    paintDataScreen (blockHeightLayout k prevHeight)
        (renderBlockHeightScreen k blockHeight prevHeight full) =
      blockHeightLayout k blockHeight :=
  Repaint.painted_eq_frame_iff.mpr fun _ => blockHeightLayout_eq_of_not_update

/-! ### The label of the satoshis -/

variable {k : ℕ} {s : MoscowTimeSettings} {price prevPrice : List Char} {full : Bool}

theorem moscow_iff :
    s.moscow k price = true ↔
      s.useMscwTime = true ∧ s.currency = "USD".toList ∧ InClassicRange k s price := by
  have hfraction : (s.layout k price).fractional = false ↔
      ¬SatsPerCurrencyLayout.ShownAsFraction k price s.reserveMarker s.shareDot := by
    rw [← SatsPerCurrencyLayout.fractional_iff, Bool.not_eq_true]
    rfl
  simp only [MoscowTimeSettings.moscow, InClassicRange, Bool.and_eq_true, beq_iff_eq,
    Bool.not_eq_true', decide_eq_true_eq, hfraction]
  tauto

theorem labelText_eq_iff :
    s.labelText k prevPrice = s.labelText k price ↔
      s.moscow k prevPrice = s.moscow k price := by
  unfold MoscowTimeSettings.labelText
  cases s.moscow k prevPrice <;> cases s.moscow k price <;> simp

/-- The label stays the same. -/
theorem moscow_eq_iff :
    s.moscow k prevPrice = s.moscow k price ↔
      s.useMscwTime = false ∨ s.currency ≠ "USD".toList ∨
        (InClassicRange k s prevPrice ↔ InClassicRange k s price) := by
  rw [Bool.eq_iff_iff, moscow_iff, moscow_iff, ← Bool.not_eq_true]
  tauto

/-- The digit panels which are left alone are those on which nothing changes. -/
theorem moscowTimeLayout_succ_of_not_update {i : Fin k}
    (h : (renderMoscowTimeScreen k s price prevPrice full).update i.succ = false) :
    moscowTimeLayout k s prevPrice i.succ = moscowTimeLayout k s price i.succ := by
  simp only [renderMoscowTimeScreen, Fin.cons_succ, Bool.or_eq_false_iff,
    bne_eq_false_iff_eq] at h
  obtain ⟨⟨⟨hreset, -⟩, hcell⟩, hsats⟩ := h
  simp only [hreset, Bool.false_eq_true, if_false] at hcell hsats
  simp only [moscowTimeLayout, renderMoscowTimeScreen, Fin.cons_succ, hcell, hsats]

theorem update_label_eq_false_iff :
    (renderMoscowTimeScreen k s price prevPrice full).update 0 = false ↔
      ¬(prevPrice = [] ∨ full = true) := by
  simp only [renderMoscowTimeScreen, Fin.cons_zero, Bool.or_eq_false_iff, not_or,
    List.isEmpty_eq_false_iff, Bool.not_eq_true, ne_eq]

theorem moscowTimeLayout_zero_eq_iff :
    moscowTimeLayout k s prevPrice 0 = moscowTimeLayout k s price 0 ↔
      s.moscow k prevPrice = s.moscow k price := by
  rw [← labelText_eq_iff]
  simp only [moscowTimeLayout, renderMoscowTimeScreen, Fin.cons_zero, PaintSlot.mk.injEq,
    true_and]

/-- Painted over the frame of the price before, a frame shows what a full repaint shows exactly
when the label panel is painted or the label stays the same. -/
theorem paint_moscowTime_iff :
    paintDataScreen (moscowTimeLayout k s prevPrice)
          (renderMoscowTimeScreen k s price prevPrice full) = moscowTimeLayout k s price ↔
      (prevPrice = [] ∨ full = true) ∨ s.moscow k prevPrice = s.moscow k price := by
  refine Repaint.painted_eq_frame_iff.trans ?_
  rw [← moscowTimeLayout_zero_eq_iff, or_iff_not_imp_left, ← update_label_eq_false_iff]
  constructor
  · intro h hlabel
    exact h 0 hlabel
  · intro h panel hpanel
    cases panel using Fin.cases with
    | zero => exact h hpanel
    | succ i => exact moscowTimeLayout_succ_of_not_update hpanel

/-- The label panel is painted, or the label of both prices is the same. -/
def LabelFollows (k : ℕ) (s : MoscowTimeSettings) (price prevPrice : List Char) (full : Bool) :
    Prop :=
  prevPrice = [] ∨ full = true ∨ s.useMscwTime = false ∨ s.currency ≠ "USD".toList ∨
    (InClassicRange k s prevPrice ↔ InClassicRange k s price)

theorem paint_moscowTime_iff_labelFollows :
    paintDataScreen (moscowTimeLayout k s prevPrice)
          (renderMoscowTimeScreen k s price prevPrice full) = moscowTimeLayout k s price ↔
      LabelFollows k s price prevPrice full := by
  rw [paint_moscowTime_iff, moscow_eq_iff, or_assoc]
  rfl

/-! ### Both screens -/

/-- The block height is shown as after a full repaint.  The satoshis are when the label panel is
painted, when the label cannot change, and when both prices are in the classic range or neither
is. -/
theorem paint_eq_layout_iff (k : ℕ) (blockHeight prevHeight : UInt32) (s : MoscowTimeSettings)
    (price prevPrice : List Char) (full : Bool) :
    paintDataScreen (blockHeightLayout k prevHeight)
          (renderBlockHeightScreen k blockHeight prevHeight full) =
        blockHeightLayout k blockHeight ∧
      (paintDataScreen (moscowTimeLayout k s prevPrice)
            (renderMoscowTimeScreen k s price prevPrice full) = moscowTimeLayout k s price ↔
        LabelFollows k s price prevPrice full) :=
  ⟨paint_blockHeight .., paint_moscowTime_iff_labelFollows⟩

/-- From 100100 to 99900 satoshis for a dollar the label of the classic range is not painted. -/
theorem label_stale_at_1001 :
    ¬∀ k s price prevPrice full,
      paintDataScreen (moscowTimeLayout k s prevPrice)
        (renderMoscowTimeScreen k s price prevPrice full) = moscowTimeLayout k s price := by
  intro h
  have hlabel := congrFun (h 6 ⟨"USD".toList, 7, true, false, true, false⟩ "1001".toList
    "999".toList false) 0
  revert hlabel
  decide

/-! ### Runs -/

/-- A screen of heights, each with its refresh mode, is always up to date. -/
theorem blockHeight_upToDate {shown : (UInt32 × Bool) × (Fin (k + 1) → PaintSlot)}
    (hs : Repaint.UpToDate (fun v => blockHeightLayout k v.1) shown)
    (values : List (UInt32 × Bool)) :
    Repaint.UpToDate (fun v => blockHeightLayout k v.1)
      (Transition.run
        (Repaint.paint (fun v => blockHeightLayout k v.1) fun old new =>
          (renderBlockHeightScreen k new.1 old.1 new.2).update)
        shown values) := by
  refine (Repaint.upToDate_run_iff hs values).mpr ?_ values [] (List.append_nil values).symm
  exact (Transition.along_iff_forall_split ..).mpr fun _ _ _ _ => paint_blockHeight ..

/-- A screen of prices is up to date all along a run exactly when the label follows each price. -/
theorem moscowTime_upToDate_iff {shown : (List Char × Bool) × (Fin (k + 1) → PaintSlot)}
    (hs : Repaint.UpToDate (fun v => moscowTimeLayout k s v.1) shown)
    (values : List (List Char × Bool)) :
    let step := Repaint.paint (fun v => moscowTimeLayout k s v.1) fun old new =>
      (renderMoscowTimeScreen k s new.1 old.1 new.2).update
    (∀ pre post, values = pre ++ post →
        Repaint.UpToDate (fun v => moscowTimeLayout k s v.1) (Transition.run step shown pre)) ↔
      Transition.Along step (fun st new => LabelFollows k s new.1 st.1.1 new.2) shown values :=
  (Repaint.upToDate_run_iff hs values).trans
    (Transition.along_congr (fun _ _ => paint_moscowTime_iff_labelFollows) _ _)

end PartialRepaint

end BtClock
