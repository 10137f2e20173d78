import BtClock.Screen.Render

/-!
# Numbers with a suffix

A great number is shown in thousands, millions and so on, with as many decimals as there is room
for.
-/

namespace BtClock

namespace Format

def kQuadrillion : Int64 := 1000000000000000

def kTrillion : Int64 := 1000000000000

def kBillion : Int64 := 1000000000

def kMillion : Int64 := 1000000

def kThousand : Int64 := 1000

/-- The size of `result`. -/
def kResultSize : ℕ := 24

/-- The number in its unit, and the letter of the unit; or none for a number without one. -/
def suffixUnit (num : UInt64) (mowMode : Bool) : Option (Float × Char) :=
  let numD := num.toFloat
  let numDigits := (Double.castInt32 numD.log10).toInt + 1
  let signed := num.toInt64
  if kQuadrillion ≤ signed ∨ numDigits > 15 then some (numD / 1e15, 'Q')
  else if kTrillion ≤ signed ∨ numDigits > 12 then some (numD / 1e12, 'T')
  else if kBillion ≤ signed ∨ numDigits > 9 then some (numD / 1e9, 'B')
  else if kMillion ≤ signed ∨ numDigits > 6 ∨ (mowMode = true ∧ kThousand ≤ signed) then
    some (numD / 1e6, 'M')
  else if mowMode = false ∧ (kThousand ≤ signed ∨ numDigits > 3) then some (numD / 1e3, 'K')
  else if mowMode = false then none
  else some (numD / 1e6, 'M')

/-- The decimals up to `decimals`, which are cut and not rounded. -/
def mowText (numD : Float) (suffix : Char) (decimals : ℕ) : List Char :=
  let mowAsString := (snprintf 32 (Double.formatFixed 6 numD)).toList
  let take :=
    match mowAsString.findIdx? (· = '.') with
    | none => mowAsString.length
    | some dot => dot + 1 + decimals
  mowAsString.take take ++ [suffix]

/-- The text which the two calls of `snprintf` print, the second one when there is room for
more decimals. -/
def suffixText (numD : Float) (suffix : Char) (numCharacters : ℤ) (mowMode : Bool) : List Char :=
  let text :=
    if mowMode then mowText numD suffix 1 else (Double.formatFixed 0 numD).toList ++ [suffix]
  if (text.length : ℤ) < numCharacters then
    if mowMode then mowText numD suffix (1 + (numCharacters - text.length).toNat)
    else
      (Double.formatFixed (numCharacters - text.length - 1).toNat numD).toList ++ [suffix]
  else text

def formatNumberWithSuffix (num : UInt64) (numCharacters : ℤ) (mowMode : Bool) : List Char :=
  if num = 0 then if mowMode then ['0', 'M'] else ['0']
  else
    let text :=
      match suffixUnit num mowMode with
      | none => (toString num.toNat).toList
      | some (numD, suffix) => suffixText numD suffix numCharacters mowMode
    text.take (kResultSize - 1)

end Format

end BtClock
