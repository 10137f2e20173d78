import BtClock.Arith.Strtod
import BtClock.Screen.FoldedPoint

/-!
# Satoshis for a unit of currency

The number of satoshis which a unit of a currency buys, right-justified on the panels behind the
label: a whole number, a number with a suffix where there is no room for it, or a fraction below
one satoshi.
-/

namespace BtClock

open Format
open FoldedPoint (CellText writeNumber)

/-- The rounded number of satoshis, or -1 for a text which is no price. -/
def satsPerUnit (price : List Char) : Int32 :=
  if price = [] then -1
  else
    let (p, consumed) := Double.strtod price
    if p ≤ 0.0 ∨ consumed = 0 then -1
    else
      let sats := 1e8 / p
      if sats > 4e9 then -1 else Double.castInt32 (sats + 0.5)

structure SatsPerCurrencyLayout where
  cells : List CellText
  isSats : List Bool
  fractional : Bool := false
  deriving DecidableEq

namespace SatsPerCurrencyLayout

def blank (slots : ℕ) : SatsPerCurrencyLayout where
  cells := List.replicate slots []
  isSats := List.replicate slots false

def kSatsPerCurrencyMax : Float := 4e9

/-- The number is in the last cells, and its glyph before them. -/
def suffixLayout (slots : ℕ) (sats : UInt64) (useSymbol : Bool) : SatsPerCurrencyLayout :=
  let budget : ℤ := if useSymbol then (slots : ℤ) - 1 else slots
  let suffix := formatNumberWithSuffix sats budget false
  let glyph := useSymbol && decide (suffix.length + 1 ≤ slots)
  let suffix :=
    if useSymbol && !glyph then formatNumberWithSuffix sats slots false else suffix
  let width := suffix.length + (if glyph then 1 else 0)
  let i := if width ≤ slots then slots - width else 0
  let l := blank slots
  let (i, isSats) :=
    if glyph && decide (i < slots) then (i + 1, l.isSats.set i true) else (i, l.isSats)
  { cells := writeNumber slots none 0 suffix i l.cells, isSats }

/-- A satoshi or more. -/
def integerLayout (slots : ℕ) (satsD : Float) (useSymbol : Bool) : SatsPerCurrencyLayout :=
  let sats := Double.trunc (-2 ^ 63) (2 ^ 63 - 1) (satsD + 0.5)
  let buf := (toString sats).toList
  if slots < buf.length then suffixLayout slots (UInt64.ofInt sats) useSymbol
  else
    let pad := slots - buf.length
    let l := blank slots
    { cells := writeNumber slots none 0 buf pad l.cells
      isSats := if useSymbol && decide (0 < pad) then l.isSats.set (pad - 1) true else l.isSats }

/-- The cells which the fraction does not have for its digits. -/
def reserved (useSymbol shareDot : Bool) : ℕ :=
  (if shareDot then 1 else 2) + (if useSymbol then 1 else 0)

/-- The text of a fraction with as many digits as there is room for. -/
def fractionText (slots : ℕ) (satsD : Float) (useSymbol shareDot : Bool) : List Char :=
  (snprintf 32 (Double.formatFixed (slots - reserved useSymbol shareDot) satsD)).toList

/-- Less than a satoshi. -/
def fractionLayout (slots : ℕ) (satsD : Float) (useSymbol shareDot : Bool) :
    SatsPerCurrencyLayout :=
  let l := blank slots
  if slots ≤ reserved useSymbol shareDot then
    { l with cells := l.cells.set (slots - 1) ['0'], fractional := true }
  else
    let buf := fractionText slots satsD useSymbol shareDot
    if buf.headD ' ' ≠ '0' then
      { cells := l.cells.set (slots - 1) ['1']
        isSats :=
          if useSymbol && decide (1 < slots) then l.isSats.set (slots - 2) true else l.isSats }
    else
      let (i, isSats) := if useSymbol then (1, l.isSats.set 0 true) else (0, l.isSats)
      let cells :=
        if shareDot then writeNumber slots none 0 (buf.drop 2) (i + 1) (l.cells.set i ['0', '.'])
        else writeNumber slots none 0 buf i l.cells
      { cells, isSats, fractional := true }

end SatsPerCurrencyLayout

open SatsPerCurrencyLayout in
def computeSatsPerCurrencyLayout (slots : ℕ) (price : List Char) (useSymbol shareDot : Bool) :
    SatsPerCurrencyLayout :=
  if slots = 0 ∨ price = [] then blank slots
  else
    let (p, consumed) := Double.strtod price
    if consumed = 0 then blank slots
    else if ¬p > 0.0 then blank slots
    else
      let satsD := 1e8 / p
      if ¬satsD > 0.0 then blank slots
      else if satsD > kSatsPerCurrencyMax then blank slots
      else if satsD ≥ 1.0 then integerLayout slots satsD useSymbol
      else fractionLayout slots satsD useSymbol shareDot

/-! ### What is shown as a fraction -/

namespace SatsPerCurrencyLayout

variable {slots : ℕ} {useSymbol shareDot : Bool}

/-- The price buys less than a satoshi, and not so nearly one that the digits round to it. -/
def ShownAsFraction (slots : ℕ) (price : List Char) (useSymbol shareDot : Bool) : Prop :=
  let p := (Double.strtod price).1
  slots ≠ 0 ∧ price ≠ [] ∧ (Double.strtod price).2 ≠ 0 ∧ p > 0.0 ∧ 1e8 / p > 0.0 ∧
    ¬1e8 / p > kSatsPerCurrencyMax ∧ ¬1e8 / p ≥ 1.0 ∧
      (slots ≤ reserved useSymbol shareDot ∨
        (fractionText slots (1e8 / p) useSymbol shareDot).headD ' ' = '0')

theorem suffixLayout_fractional (sats : UInt64) :
    (suffixLayout slots sats useSymbol).fractional = false := by
  simp only [suffixLayout]

theorem integerLayout_fractional (satsD : Float) :
    (integerLayout slots satsD useSymbol).fractional = false := by
  simp only [integerLayout]
  split
  · exact suffixLayout_fractional _
  · rfl

theorem fractionLayout_fractional (satsD : Float) :
    (fractionLayout slots satsD useSymbol shareDot).fractional = true ↔
      slots ≤ reserved useSymbol shareDot ∨
        (fractionText slots satsD useSymbol shareDot).headD ' ' = '0' := by
  simp only [fractionLayout]
  split
  case isTrue h => simp [h]
  case isFalse h =>
    split
    case isTrue hone => simpa [h] using hone
    case isFalse hzero => simpa [h] using hzero

theorem ite_blank_fractional (c : Prop) [Decidable c] (l : SatsPerCurrencyLayout) :
    (if c then blank slots else l).fractional = true ↔ ¬c ∧ l.fractional = true := by
  by_cases h : c
  · simp [h, blank]
  · simp [h]

theorem fractional_iff (price : List Char) :
    (computeSatsPerCurrencyLayout slots price useSymbol shareDot).fractional = true ↔
      ShownAsFraction slots price useSymbol shareDot := by
  simp only [computeSatsPerCurrencyLayout, ShownAsFraction, ite_blank_fractional, not_or, not_not,
    and_assoc]
  by_cases hone : 1e8 / (Double.strtod price).1 ≥ 1.0
  · simp only [hone, if_true, integerLayout_fractional, Bool.false_eq_true, not_true_eq_false,
      false_and]
  · simp only [hone, if_false, fractionLayout_fractional, not_false_eq_true, true_and]

end SatsPerCurrencyLayout

end BtClock
