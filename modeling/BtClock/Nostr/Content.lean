import BtClock.Data.Snapshot
import BtClock.Nostr.Event

/-!
# The contents of consumed events

The application data of the publisher (`ParseNip78Content`) and the amount and invoice of
a zap receipt.
-/

namespace BtClock

namespace Nostr

open Data

def isDigit (c : Char) : Bool :=
  decide ('0' ≤ c ∧ c ≤ '9')

def digitValue (c : Char) : ℕ :=
  c.toNat - '0'.toNat

/-- The value of a string of decimal digits. -/
def digitsValue (s : List Char) : ℕ :=
  s.foldl (fun v c => v * 10 + digitValue c) 0

/-- A whole number without sign which fits 32 bits.  The source stops at the first digit
which takes the value out of the range; every later digit keeps it out. -/
def parseDecimalU32 (s : String) : Option UInt32 :=
  if s = "" ∨ s.toList.all isDigit = false then none
  else if digitsValue s.toList > 0xFFFFFFFF then none
  else some (UInt32.ofNat (digitsValue s.toList))

/-- The value of a decimal number: its digits without the point, and the number of digits
behind the point. -/
def strtod (s : List Char) : Float :=
  let unsigned := s.dropWhile fun c => c = '+' || c = '-'
  let whole := unsigned.takeWhile isDigit
  let fraction := (unsigned.drop whole.length).drop 1
  let value :=
    Float.ofScientific (digitsValue (whole ++ fraction)) true fraction.length
  if s.head? = some '-' then -value else value

/-- A leading sign, digits and at most one point. -/
def parseDecimalDouble (s : String) : Option Float :=
  let unsigned :=
    match s.toList with
    | '+' :: rest => rest
    | '-' :: rest => rest
    | chars => chars
  if unsigned.all (fun c => isDigit c || c == '.') = true ∧
      unsigned.any isDigit = true ∧ unsigned.count '.' ≤ 1 then
    some (strtod s.toList)
  else none

/-- Rounds half away from zero. -/
def roundFee (d : Float) : Int32 :=
  Double.toInt32 (if d < 0 then Double.ceilInt (d - 0.5) else Double.floorInt (d + 0.5))

def kPricePrefix : String :=
  "price:"

/-- The partial snapshot which an application-data event reports. -/
def parseNip78Content (dTag content : String) : Option DataSnapshot :=
  if dTag = "blockheight" then
    (parseDecimalU32 content).map fun h => { blockHeight := some h }
  else if dTag = "medianFee" then
    (parseDecimalDouble content).map fun d =>
      { blockFeePrecise := some d, blockFee := some (roundFee d) }
  else if kPricePrefix.length < dTag.length ∧
      kPricePrefix.toList.isPrefixOf dTag.toList = true then
    if content = "" then none
    else
      let ccy := String.ofList (dTag.toList.drop kPricePrefix.length)
      some { prices := AList.insert ccy content ∅ }
  else none

/-- The amount of a zap receipt in millisatoshi, saturated at 64 bits. -/
def extractZapAmountMsat (ev : Event) : Option UInt64 :=
  match ev.findTag "amount" with
  | none => none
  | some t =>
      let v := (t.at 1).toList
      if v = [] ∨ v.all isDigit = false then none
      else some (UInt64.ofNat (min (digitsValue v) (2 ^ 64 - 1)))

def extractZapBolt11 (ev : Event) : Option String :=
  match ev.findTag "bolt11" with
  | none => none
  | some t => if t.at 1 = "" then none else some (t.at 1)

def shouldSurfaceZap (ev : Event) : Bool :=
  if ev.kind ≠ kKindZapReceipt then false
  else
    match extractZapAmountMsat ev with
    | none => false
    | some msat => decide (msat ≥ 1000)

end Nostr

end BtClock
