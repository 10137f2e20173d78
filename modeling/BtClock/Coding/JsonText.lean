import Mathlib.Algebra.Group.Nat.Defs
import Mathlib.Data.Int.Notation
import Mathlib.Data.Nat.Notation

/-!
# JSON texts

The grammar of JSON, as relations between a value and the texts which stand for it: one
string has many texts, which differ in their escapes, and so has one number.  A string is
the list of its UTF-8 bytes, with one character for each byte.
-/

namespace JsonText

/-- Insignificant white space. -/
def White (w : List Char) : Prop :=
  ∀ c ∈ w, c = ' ' ∨ c = '\t' ∨ c = '\n' ∨ c = '\r'

/-! ### Strings -/

/-- The letter of a short escape, and the character it stands for. -/
def shortEscapes : List (Char × Char) :=
  [('"', '"'), ('\\', '\\'), ('/', '/'), ('b', Char.ofNat 8), ('f', Char.ofNat 12),
    ('n', '\n'), ('r', '\r'), ('t', '\t')]

def hexValue (c : Char) : Option ℕ :=
  if '0' ≤ c ∧ c ≤ '9' then some (c.toNat - '0'.toNat)
  else if 'a' ≤ c ∧ c ≤ 'f' then some (10 + (c.toNat - 'a'.toNat))
  else if 'A' ≤ c ∧ c ≤ 'F' then some (10 + (c.toNat - 'A'.toNat))
  else none

/-- An escape by number, which gives a unit of UTF-16. -/
inductive CodeUnit : ℕ → List Char → Prop
  | digits {a b c d : Char} {i j k l : ℕ} :
      hexValue a = some i → hexValue b = some j → hexValue c = some k →
        hexValue d = some l →
          CodeUnit (((i * 16 + j) * 16 + k) * 16 + l) ['\\', 'u', a, b, c, d]

/-- The UTF-8 bytes of a character. -/
def utf8 (c : Char) : List Char :=
  (String.utf8EncodeChar c).map fun b => Char.ofNat b.toNat

/-- The inside of a string; `numeric` tells whether escapes by number may occur. -/
inductive BodyText (numeric : Bool) : List Char → List Char → Prop
  | nil : BodyText numeric [] []
  | raw {c : Char} {s t : List Char} : 0x20 ≤ c.toNat → c ≠ '"' → c ≠ '\\' →
      BodyText numeric s t → BodyText numeric (c :: s) (c :: t)
  | short {e c : Char} {s t : List Char} : (e, c) ∈ shortEscapes →
      BodyText numeric s t → BodyText numeric (c :: s) ('\\' :: e :: t)
  | code {n : ℕ} {u s t : List Char} : numeric = true → CodeUnit n u →
      n < 0xD800 ∨ 0xDFFF < n → BodyText numeric s t →
        BodyText numeric (utf8 (Char.ofNat n) ++ s) (u ++ t)
  | pair {m n : ℕ} {u v s t : List Char} : numeric = true → CodeUnit m u → CodeUnit n v →
      0xD800 ≤ m ∧ m ≤ 0xDBFF → 0xDC00 ≤ n ∧ n ≤ 0xDFFF → BodyText numeric s t →
        BodyText numeric
          (utf8 (Char.ofNat (0x10000 + (m - 0xD800) * 0x400 + (n - 0xDC00))) ++ s)
          (u ++ v ++ t)

def StringText (numeric : Bool) (s : List Char) (t : List Char) : Prop :=
  ∃ body, BodyText numeric s body ∧ t = '"' :: body ++ ['"']

theorem BodyText.to_numeric {numeric : Bool} {s t : List Char} (h : BodyText numeric s t) :
    BodyText true s t := by
  induction h with
  | nil => exact .nil
  | raw hlow hquote hslash _ ih => exact .raw hlow hquote hslash ih
  | short hmem _ ih => exact .short hmem ih
  | code _ hunit hplain _ ih => exact .code rfl hunit hplain ih
  | pair _ hhigh hlow hm hn _ ih => exact .pair rfl hhigh hlow hm hn ih

/-- A text without escapes by number is a text as well where they may occur. -/
theorem StringText.to_numeric {numeric : Bool} {s t : List Char} (h : StringText numeric s t) :
    StringText true s t := by
  obtain ⟨body, hbody, rfl⟩ := h
  exact ⟨body, hbody.to_numeric, rfl⟩

/-! ### Numbers -/

def Digits (ds : List Char) : Prop :=
  ds ≠ [] ∧ ∀ c ∈ ds, '0' ≤ c ∧ c ≤ '9'

def digitsNat (ds : List Char) : ℕ :=
  ds.foldl (fun v c => v * 10 + (c.toNat - '0'.toNat)) 0

/-- The digits behind the point. -/
inductive FractionText : List Char → List Char → Prop
  | none : FractionText [] []
  | point {ds : List Char} : Digits ds → FractionText ds ('.' :: ds)

inductive ExponentText : ℤ → List Char → Prop
  | none : ExponentText 0 []
  | plain {e : Char} {ds : List Char} : e = 'e' ∨ e = 'E' → Digits ds →
      ExponentText (digitsNat ds) (e :: ds)
  | plus {e : Char} {ds : List Char} : e = 'e' ∨ e = 'E' → Digits ds →
      ExponentText (digitsNat ds) (e :: '+' :: ds)
  | minus {e : Char} {ds : List Char} : e = 'e' ∨ e = 'E' → Digits ds →
      ExponentText (-(digitsNat ds : ℤ)) (e :: '-' :: ds)

/-- The text of the number `± mantissa * 10 ^ scale`; only a zero begins with the digit 0. -/
inductive NumberText : Bool → ℕ → ℤ → List Char → Prop
  | mk {minus : Bool} {whole fraction point exponent : List Char} {x : ℤ} :
      Digits whole → whole.head? ≠ some '0' ∨ whole = ['0'] → FractionText fraction point →
        ExponentText x exponent →
          NumberText minus (digitsNat (whole ++ fraction)) (x - fraction.length)
            ((if minus then ['-'] else []) ++ whole ++ point ++ exponent)

/-- The text of a whole number. -/
def NatText (n : ℕ) (t : List Char) : Prop :=
  ∃ minus mantissa scale, NumberText minus mantissa scale t ∧ (minus = true → n = 0) ∧
    (0 ≤ scale → n = mantissa * 10 ^ scale.toNat) ∧
    (scale < 0 → mantissa = n * 10 ^ (-scale).toNat)

/-! ### Values -/

/-- A value, the items inside an array, the members inside an object. -/
inductive Part
  | value
  | items
  | members

inductive Text : Part → List Char → Prop
  | string {s t : List Char} : StringText true s t → Text .value t
  | number {minus : Bool} {mantissa : ℕ} {scale : ℤ} {t : List Char} :
      NumberText minus mantissa scale t → Text .value t
  | null : Text .value ['n', 'u', 'l', 'l']
  | true : Text .value ['t', 'r', 'u', 'e']
  | false : Text .value ['f', 'a', 'l', 's', 'e']
  | emptyArray {w : List Char} : White w → Text .value ('[' :: w ++ [']'])
  | array {t : List Char} : Text .items t → Text .value ('[' :: t ++ [']'])
  | emptyObject {w : List Char} : White w → Text .value ('{' :: w ++ ['}'])
  | object {t : List Char} : Text .members t → Text .value ('{' :: t ++ ['}'])
  | item {w t w' : List Char} : White w → Text .value t → White w' →
      Text .items (w ++ t ++ w')
  | items {w t w' ts : List Char} : White w → Text .value t → White w' → Text .items ts →
      Text .items (w ++ t ++ w' ++ ',' :: ts)
  | member {w₁ s k w₂ w₃ t w₄ : List Char} : White w₁ → StringText Bool.true s k → White w₂ →
      White w₃ → Text .value t → White w₄ →
        Text .members (w₁ ++ k ++ w₂ ++ ':' :: w₃ ++ t ++ w₄)
  | members {w₁ s k w₂ w₃ t w₄ ts : List Char} : White w₁ → StringText Bool.true s k →
      White w₂ → White w₃ → Text .value t → White w₄ → Text .members ts →
        Text .members (w₁ ++ k ++ w₂ ++ ':' :: w₃ ++ t ++ w₄ ++ ',' :: ts)

/-! ### Lists -/

/-- Texts of the items with commas and white space between them. -/
inductive Separated {α : Type*} (item : α → List Char → Prop) : List α → List Char → Prop
  | one {a : α} {w t w' : List Char} : White w → item a t → White w' →
      Separated item [a] (w ++ t ++ w')
  | cons {a : α} {as : List α} {w t w' ts : List Char} : White w → item a t → White w' →
      Separated item as ts → Separated item (a :: as) (w ++ t ++ w' ++ ',' :: ts)

/-- The text of an array. -/
inductive ArrayText {α : Type*} (item : α → List Char → Prop) : List α → List Char → Prop
  | nil {w : List Char} : White w → ArrayText item [] ('[' :: w ++ [']'])
  | cons {as : List α} {ts : List Char} : Separated item as ts →
      ArrayText item as ('[' :: ts ++ [']'])

theorem Separated.exists_of {α β : Type*} {item : α → List Char → Prop}
    {item' : β → List Char → Prop} (hitem : ∀ a t, item a t → ∃ b, item' b t) {as : List α}
    {ts : List Char} (h : Separated item as ts) : ∃ bs, Separated item' bs ts := by
  induction h with
  | one hw ht hw' =>
      obtain ⟨b, hb⟩ := hitem _ _ ht
      exact ⟨[b], .one hw hb hw'⟩
  | cons hw ht hw' _ ih =>
      obtain ⟨b, hb⟩ := hitem _ _ ht
      obtain ⟨bs, hbs⟩ := ih
      exact ⟨b :: bs, .cons hw hb hw' hbs⟩

/-- Items which stand for something else make up an array which stands for something else. -/
theorem ArrayText.exists_of {α β : Type*} {item : α → List Char → Prop}
    {item' : β → List Char → Prop} (hitem : ∀ a t, item a t → ∃ b, item' b t) {as : List α}
    {t : List Char} (h : ArrayText item as t) : ∃ bs, ArrayText item' bs t := by
  cases h with
  | nil hw => exact ⟨[], .nil hw⟩
  | cons hts =>
      obtain ⟨bs, hbs⟩ := hts.exists_of hitem
      exact ⟨bs, .cons hbs⟩

theorem Separated.text {α : Type*} {item : α → List Char → Prop}
    (hitem : ∀ a t, item a t → Text .value t) {as : List α} {ts : List Char}
    (h : Separated item as ts) : Text .items ts := by
  induction h with
  | one hw ht hw' => exact .item hw (hitem _ _ ht) hw'
  | cons hw ht hw' _ ih => exact .items hw (hitem _ _ ht) hw' ih

theorem ArrayText.text {α : Type*} {item : α → List Char → Prop}
    (hitem : ∀ a t, item a t → Text .value t) {as : List α} {t : List Char}
    (h : ArrayText item as t) : Text .value t := by
  cases h with
  | nil hw => exact .emptyArray hw
  | cons hts => exact .array (hts.text hitem)

end JsonText
