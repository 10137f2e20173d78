import BtClock.Arith.Double
import Mathlib.Data.Nat.Notation

/-!
# Doubles from text

`strtod` takes the longest front of a text which is a number: decimal or hexadecimal digits with
a point and an exponent, an infinity, or no number at all.  Blanks and a sign may stand before it.
-/

namespace Double

/-! ### Digits -/

def isSpace (c : Char) : Bool :=
  c ∈ [' ', '\t', '\n', '\x0b', '\x0c', '\r']

def digitValue (c : Char) : ℕ :=
  if c ≤ '9' then c.toNat - '0'.toNat
  else if c ≤ 'F' then c.toNat - 'A'.toNat + 10
  else c.toNat - 'a'.toNat + 10

def isDecimal (c : Char) : Bool :=
  '0' ≤ c && c ≤ '9'

def isHex (c : Char) : Bool :=
  isDecimal c || ('A' ≤ c && c ≤ 'F') || ('a' ≤ c && c ≤ 'f')

def digitsValue (base : ℕ) (digits : List Char) : ℕ :=
  digits.foldl (fun v c => v * base + digitValue c) 0

/-! ### The parts of a number -/

/-- A minus is in front, and what follows the sign. -/
def takeSign : List Char → Bool × List Char
  | '-' :: s => (true, s)
  | '+' :: s => (false, s)
  | s => (false, s)

/-- The digits on both sides of the point, and what follows them. -/
def takeSignificand (isDigit : Char → Bool) (s : List Char) :
    (List Char × List Char) × List Char :=
  let whole := s.takeWhile isDigit
  match s.dropWhile isDigit with
  | '.' :: s => ((whole, s.takeWhile isDigit), s.dropWhile isDigit)
  | s => ((whole, []), s)

/-- The exponent behind its letter; a letter without digits is left. -/
def takeExponent (letter : Char) (s : List Char) : ℤ × List Char :=
  match s with
  | [] => (0, [])
  | c :: rest =>
      let (negative, rest) := takeSign rest
      let digits := rest.takeWhile isDecimal
      if c.toLower = letter ∧ digits ≠ [] then
        let exponent : ℤ := digitsValue 10 digits
        (if negative then -exponent else exponent, rest.dropWhile isDecimal)
      else (0, s)

/-- What follows a word in letters of either case. -/
def dropWord (word s : List Char) : Option (List Char) :=
  if (s.take word.length).map Char.toLower = word then some (s.drop word.length) else none

/-! ### Numbers -/

/-- The double next to `m * 10 ^ e`. -/
def ofDecimal (m : ℕ) (e : ℤ) : Float :=
  if 0 ≤ e then Float.ofScientific m false e.toNat else Float.ofScientific m true (-e).toNat

/-- The double next to `m * 2 ^ e`. -/
def ofBinary (m : ℕ) (e : ℤ) : Float :=
  if 0 ≤ e then Float.ofScientific (m * 2 ^ e.toNat) false 0
  else Float.ofScientific (m * 5 ^ (-e).toNat) true (-e).toNat

def readDecimal (s : List Char) : Option (Float × List Char) :=
  let ((whole, fraction), s) := takeSignificand isDecimal s
  if whole = [] ∧ fraction = [] then none
  else
    let (exponent, s) := takeExponent 'e' s
    some (ofDecimal (digitsValue 10 (whole ++ fraction)) (exponent - fraction.length), s)

def readHex (s : List Char) : Option (Float × List Char) :=
  let ((whole, fraction), s) := takeSignificand isHex s
  if whole = [] ∧ fraction = [] then none
  else
    let (exponent, s) := takeExponent 'p' s
    some (ofBinary (digitsValue 16 (whole ++ fraction)) (exponent - 4 * fraction.length), s)

def infinity : Float :=
  1.0 / 0.0

/-- A payload in brackets may follow `nan`. -/
def dropPayload (s : List Char) : List Char :=
  match s with
  | '(' :: rest =>
      match rest.dropWhile fun c => c.isAlphanum || c == '_' with
      | ')' :: rest => rest
      | _ => s
  | s => s

/-- A number without its sign, and what follows it. -/
def readUnsigned (s : List Char) : Option (Float × List Char) :=
  match dropWord "infinity".toList s, dropWord "inf".toList s, dropWord "nan".toList s with
  | some rest, _, _ => some (infinity, rest)
  | none, some rest, _ => some (infinity, rest)
  | none, none, some rest => some (infinity - infinity, dropPayload rest)
  | none, none, none =>
      match (dropWord "0x".toList s).bind readHex with
      | some number => some number
      | none => readDecimal s

/-- The number in front of a text, and how many characters it takes: none if there is no number. -/
def strtod (s : List Char) : Float × ℕ :=
  let (negative, rest) := takeSign (s.dropWhile isSpace)
  match readUnsigned rest with
  | none => (0, 0)
  | some (x, rest) => (if negative then -x else x, s.length - rest.length)

example : (strtod " -12.5e1x".toList).1 == -125 ∧ (strtod " -12.5e1x".toList).2 = 8 ∧
    (strtod "0x1.8p1".toList).1 == 3 ∧ (strtod "usd".toList).2 = 0 := by
  decide

end Double
