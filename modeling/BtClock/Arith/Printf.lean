import BtClock.Arith.Double
import Mathlib.Data.Nat.Notation

/-!
# Doubles in decimal

The text which `printf` makes of a double under a `%.df` conversion: the exact binary
value, rounded to `d` decimals with ties to the even digit.
-/

namespace Double

open Float.Model UnpackedFloat

/-- The integer nearest to `num / den`, the even one of two. -/
def divRoundEven (num den : ℕ) : ℕ :=
  let q := num / den
  let r := num % den
  if 2 * r < den then q
  else if den < 2 * r then q + 1
  else q + q % 2

/-- The product of the positive number `m * 2 ^ e` with `scale`, as a fraction. -/
def scaledFraction (m : ℕ) (e : ℤ) (scale : ℕ) : ℕ × ℕ :=
  if 0 ≤ e then (m * 2 ^ e.toNat * scale, 1) else (m * scale, 2 ^ (-e).toNat)

/-- A number of `10 ^ (-decimals)`-ths in decimal notation. -/
def decimalText (decimals n : ℕ) : String :=
  if decimals = 0 then toString n
  else
    let fraction := toString (n % 10 ^ decimals)
    let zeros := String.ofList (List.replicate (decimals - fraction.length) '0')
    toString (n / 10 ^ decimals) ++ "." ++ zeros ++ fraction

def signText : Sign → String
  | .positive => ""
  | .negative => "-"

/-- The text of a number under the conversion `%.df` with `d = decimals`. -/
def formatFixed (decimals : ℕ) (x : Float) : String :=
  match x.toModel.unpack with
  | .notANumber => "nan"
  | .infinity s => signText s ++ "inf"
  | .zero s => signText s ++ decimalText decimals 0
  | .finite s m e _ =>
      let fraction := scaledFraction m e (10 ^ decimals)
      signText s ++ decimalText decimals (divRoundEven fraction.1 fraction.2)

/-- `std::round` of a positive number: the nearest integer, the larger one of two. -/
def round (x : Float) : Float :=
  match x.toModel.unpack with
  | .finite _ m e _ =>
      if 0 ≤ e then x
      else Float.ofNat ((2 * m + 2 ^ (-e).toNat) / 2 ^ ((-e).toNat + 1))
  | _ => x

example : formatFixed 1 9.96 = "10.0" ∧ formatFixed 0 (round 526.5) = "527" := by
  decide

end Double
