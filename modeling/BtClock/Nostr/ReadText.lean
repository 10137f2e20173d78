import BtClock.Arith.ExactDouble
import BtClock.Coding.JsonText
import BtClock.Nostr.RelayFrame

/-!
# What the walker reads

The walker takes every JSON text of a string, a number, an array or any other value up to its
end.  It reads the string or the number which the text stands for, but for the escapes by
number, which it passes through.
-/

namespace BtClock

namespace Nostr

open JsonText JsonWalker

/-! ### White space -/

theorem isWs_of_white {w : List Char} (h : White w) {c : Char} (hc : c ∈ w) : isWs c = true := by
  simpa [isWs, or_assoc] using h c hc

theorem skipWs_white {w : List Char} (h : White w) (s : List Char) :
    skipWs (w ++ s) = skipWs s :=
  List.dropWhile_append_of_pos fun _ hc => isWs_of_white h hc

theorem skipWs_white_cons {w : List Char} (h : White w) {c : Char} (hc : isWs c = false)
    (s : List Char) : skipWs (w ++ c :: s) = c :: s := by
  rw [skipWs_white h, skipWs_cons hc]

/-! ### Strings -/

theorem unescape_of_mem {e c : Char} (h : (e, c) ∈ shortEscapes) :
    unescape e = some c ∧ e ≠ 'u' := by
  have hall : shortEscapes.all (fun p => unescape p.1 = some p.2 && p.1 ≠ 'u') = true := by
    decide
  simpa using List.all_eq_true.mp hall (e, c) h

theorem stringBody_raw {c : Char} (hquote : c ≠ '"') (hslash : c ≠ '\\') (rest : List Char) :
    stringBody (c :: rest) = (stringBody rest).map fun (body, rest) => (c :: body, rest) := by
  rw [stringBody]
  · exact hquote
  · rintro - - - - - rfl
    exact absurd rfl hslash
  · rintro - - rfl
    exact absurd rfl hslash
  · rintro rfl
    exact absurd rfl hslash

theorem stringBody_short {e c : Char} (h : (e, c) ∈ shortEscapes) (rest : List Char) :
    stringBody ('\\' :: e :: rest) =
      (stringBody rest).map fun (body, rest) => (c :: body, rest) := by
  obtain ⟨hescape, hu⟩ := unescape_of_mem h
  rw [stringBody]
  · simp only [hescape]
  · rintro - - - - - rfl
    exact absurd rfl hu

/-- An escape by number is passed through. -/
theorem stringBody_codeUnit {n : ℕ} {u : List Char} (h : CodeUnit n u) (rest : List Char) :
    stringBody (u ++ rest) = (stringBody rest).map fun (body, rest) => (u ++ body, rest) := by
  cases h
  rfl

theorem stringBody_bodyText {s t : List Char} (h : BodyText false s t) (rest : List Char) :
    stringBody (t ++ '"' :: rest) = some (s, rest) := by
  induction h with
  | nil => rfl
  | raw _ hquote hslash _ ih =>
      rw [List.cons_append, stringBody_raw hquote hslash, ih]
      rfl
  | short hmem _ ih =>
      rw [List.cons_append, List.cons_append, stringBody_short hmem, ih]
      rfl
  | code hnumeric => cases hnumeric
  | pair hnumeric => cases hnumeric

theorem mem_codeUnit {n : ℕ} {u : List Char} (h : CodeUnit n u) : '\\' ∈ u := by
  cases h
  exact List.mem_cons_self

/-- A string with escapes by number is read to its end, and such an escape leaves its
backslash. -/
theorem exists_stringBody {s t : List Char} {numeric : Bool} (h : BodyText numeric s t) :
    ∃ s', (∀ rest, stringBody (t ++ '"' :: rest) = some (s', rest)) ∧
      (s' = s ∨ '\\' ∈ s') := by
  induction h with
  | nil => exact ⟨[], fun _ => rfl, .inl rfl⟩
  | @raw c s t _ hquote hslash _ ih =>
      obtain ⟨s', hs', hor⟩ := ih
      refine ⟨c :: s', fun rest => ?_, hor.imp (congrArg _) (List.mem_cons_of_mem c)⟩
      rw [List.cons_append, stringBody_raw hquote hslash, hs']
      rfl
  | @short e c s t hmem _ ih =>
      obtain ⟨s', hs', hor⟩ := ih
      refine ⟨c :: s', fun rest => ?_, hor.imp (congrArg _) (List.mem_cons_of_mem c)⟩
      rw [List.cons_append, List.cons_append, stringBody_short hmem, hs']
      rfl
  | @code n u s t _ hunit _ _ ih =>
      obtain ⟨s', hs', -⟩ := ih
      refine ⟨u ++ s', fun rest => ?_, .inr (List.mem_append_left _ (mem_codeUnit hunit))⟩
      rw [List.append_assoc, stringBody_codeUnit hunit, hs']
      rfl
  | @pair m n u v s t _ hhigh hlow _ _ _ ih =>
      obtain ⟨s', hs', -⟩ := ih
      refine ⟨u ++ (v ++ s'), fun rest => ?_,
        .inr (List.mem_append_left _ (mem_codeUnit hhigh))⟩
      rw [List.append_assoc, List.append_assoc, stringBody_codeUnit hhigh,
        stringBody_codeUnit hlow, hs']
      rfl

theorem parseString_stringText {s : String} {t : List Char} (h : StringText false s.toList t)
    (rest : List Char) : parseString (t ++ rest) = some (s, rest) := by
  obtain ⟨body, hbody, rfl⟩ := h
  have hread := stringBody_bodyText hbody rest
  simp [parseString, hread]

theorem exists_parseString {numeric : Bool} {s t : List Char} (h : StringText numeric s t) :
    ∃ v, (∀ rest, parseString (t ++ rest) = some (v, rest)) ∧
      (v.toList = s ∨ '\\' ∈ v.toList) := by
  obtain ⟨body, hbody, rfl⟩ := h
  obtain ⟨s', hread, hor⟩ := exists_stringBody hbody
  refine ⟨String.ofList s', fun rest => ?_, by simpa using hor⟩
  have hrest := hread rest
  simp [parseString, hrest]

/-! ### Numbers -/

theorem isDigit_of_digits {ds : List Char} (h : Digits ds) {c : Char} (hc : c ∈ ds) :
    isDigit c = true :=
  decide_eq_true (h.2 c hc)

theorem digitsNat_eq (ds : List Char) : digitsNat ds = digitsValue ds :=
  rfl

/-- The text goes on with something else than a digit. -/
def OffDigits (s : List Char) : Prop :=
  ∃ c rest, s = c :: rest ∧ isDigit c = false

theorem takeWhile_digits {ds s : List Char} (hds : Digits ds) (hs : OffDigits s) :
    (ds ++ s).takeWhile isDigit = ds ∧ (ds ++ s).dropWhile isDigit = s := by
  obtain ⟨c, rest, rfl, hc⟩ := hs
  have hall : ∀ d ∈ ds, isDigit d = true := fun d => isDigit_of_digits hds
  rw [List.takeWhile_append_of_pos hall, List.dropWhile_append_of_pos hall]
  simp [hc]

theorem takeSign_digits {ds : List Char} (hds : Digits ds) (s : List Char) :
    takeSign (ds ++ s) = (false, ds ++ s) := by
  obtain ⟨d, ds', rfl⟩ := List.exists_cons_of_ne_nil hds.1
  have hd : isDigit d = true := isDigit_of_digits hds List.mem_cons_self
  rw [List.cons_append, takeSign]
  · rintro rest h
    obtain ⟨rfl, -⟩ := List.cons.inj h
    cases hd
  · rintro rest h
    obtain ⟨rfl, -⟩ := List.cons.inj h
    cases hd

section Ends

variable {c : Char} (hc : isDelimiter c = true)

include hc

/-- A delimiter does not go on with the number. -/
theorem off_number_of_isDelimiter :
    isDigit c = false ∧ c ≠ '.' ∧ c ≠ 'e' ∧ c ≠ 'E' ∧ c ≠ '"' := by
  simp only [isDelimiter, isWs, Bool.or_eq_true, decide_eq_true_eq] at hc
  rcases hc with ((rfl | rfl) | rfl) | ((rfl | rfl) | rfl) | rfl <;> decide

theorem exponentText_head {x : ℤ} {t : List Char} (h : ExponentText x t) (rest : List Char) :
    ∃ d s, t ++ c :: rest = d :: s ∧ isDigit d = false ∧ d ≠ '.' := by
  obtain ⟨hdigit, hpoint, -⟩ := off_number_of_isDelimiter hc
  have hletter : ∀ e : Char, e = 'e' ∨ e = 'E' → isDigit e = false ∧ e ≠ '.' := by
    rintro e (rfl | rfl) <;> decide
  cases h with
  | none => exact ⟨c, rest, rfl, hdigit, hpoint⟩
  | plain he => exact ⟨_, _, rfl, hletter _ he⟩
  | plus he => exact ⟨_, _, rfl, hletter _ he⟩
  | minus he => exact ⟨_, _, rfl, hletter _ he⟩

theorem takeFraction_fractionText {fraction point : List Char} {x : ℤ} {t : List Char}
    (hpoint : FractionText fraction point) (h : ExponentText x t) (rest : List Char) :
    takeFraction (point ++ (t ++ c :: rest)) = (fraction, t ++ c :: rest) ∧
      OffDigits (point ++ (t ++ c :: rest)) := by
  obtain ⟨d, s, hhead, hdigit, hd⟩ := exponentText_head hc h rest
  rw [hhead]
  cases hpoint with
  | none =>
      refine ⟨?_, d, s, rfl, hdigit⟩
      rw [List.nil_append, takeFraction]
      rintro rest' hcons
      exact hd (List.cons.inj hcons).1
  | point hds =>
      obtain ⟨htake, hdrop⟩ := takeWhile_digits hds ⟨d, s, rfl, hdigit⟩
      refine ⟨?_, '.', _, rfl, rfl⟩
      rw [List.cons_append, takeFraction, htake, hdrop]

end Ends

theorem takeExponent_exponentText {x : ℤ} {t : List Char} (h : ExponentText x t) :
    ∃ negative m, (∀ c, isDelimiter c = true → ∀ rest,
        takeExponent (t ++ c :: rest) = ((negative, m), c :: rest)) ∧
      x = if negative then -(m : ℤ) else m := by
  have hoff : ∀ c, isDelimiter c = true → ∀ rest, OffDigits (c :: rest) :=
    fun c hc rest => ⟨c, rest, rfl, (off_number_of_isDelimiter hc).1⟩
  cases h with
  | none =>
      refine ⟨false, 0, fun c hc rest => ?_, rfl⟩
      obtain ⟨-, -, he, hE, -⟩ := off_number_of_isDelimiter hc
      simp [takeExponent, he, hE]
  | @plain e ds hsign hds =>
      refine ⟨false, digitsNat ds, fun c hc rest => ?_, rfl⟩
      obtain ⟨htake, hdrop⟩ := takeWhile_digits hds (hoff c hc rest)
      rw [List.cons_append, takeExponent, if_pos hsign, takeSign_digits hds]
      simp only [htake, hdrop, digitsNat_eq]
  | @plus e ds hsign hds =>
      refine ⟨false, digitsNat ds, fun c hc rest => ?_, rfl⟩
      obtain ⟨htake, hdrop⟩ := takeWhile_digits hds (hoff c hc rest)
      rw [List.cons_append, List.cons_append, takeExponent, if_pos hsign, takeSign]
      simp only [htake, hdrop, digitsNat_eq]
  | @minus e ds hsign hds =>
      refine ⟨true, digitsNat ds, fun c hc rest => ?_, rfl⟩
      obtain ⟨htake, hdrop⟩ := takeWhile_digits hds (hoff c hc rest)
      rw [List.cons_append, List.cons_append, takeExponent, if_pos hsign, takeSign]
      simp only [htake, hdrop, digitsNat_eq]

/-- A number is read to its end, as the nearest double of its value. -/
theorem parseNumber_numberText {minus : Bool} {mantissa : ℕ} {scale : ℤ} {t : List Char}
    (h : NumberText minus mantissa scale t) :
    ∃ d k, (∀ c, isDelimiter c = true → ∀ rest,
        parseNumber (t ++ c :: rest) = some (if minus then -d else d, c :: rest)) ∧
      (d = Float.ofScientific mantissa true k ∧ scale = -(k : ℤ) ∨
        d = Float.ofScientific mantissa false k ∧ scale = k) := by
  cases h with
  | @mk whole fraction point exponent x hwhole _ hpoint hexponent =>
      obtain ⟨negative, m, hexp, hx⟩ := takeExponent_exponentText hexponent
      have hread : ∀ c, isDelimiter c = true → ∀ rest,
          parseNumber ((if minus then ['-'] else []) ++ whole ++ point ++ exponent ++ c :: rest) =
            let mantissa := digitsNat (whole ++ fraction)
            let d :=
              if negative then Float.ofScientific mantissa true (m + fraction.length)
              else if m < fraction.length then
                Float.ofScientific mantissa true (fraction.length - m)
              else Float.ofScientific mantissa false (m - fraction.length)
            some (if minus then -d else d, c :: rest) := by
        intro c hc rest
        obtain ⟨hfraction, hoff⟩ := takeFraction_fractionText hc hpoint hexponent rest
        obtain ⟨htake, hdrop⟩ := takeWhile_digits hwhole hoff
        have hsign : takeSign ((if minus then ['-'] else []) ++ whole ++ point ++ exponent ++
            c :: rest) = (minus, whole ++ (point ++ (exponent ++ c :: rest))) := by
          simp only [List.append_assoc]
          cases minus with
          | true => rfl
          | false => exact takeSign_digits hwhole _
        simp only [parseNumber, hsign, htake, hdrop, hfraction, hexp c hc rest, digitsNat_eq]
        rw [if_neg fun hnil => hwhole.1 hnil.1]
      refine ⟨_, if negative then m + fraction.length else
        if m < fraction.length then fraction.length - m else m - fraction.length, hread, ?_⟩
      cases negative with
      | true =>
          rw [if_pos rfl] at hx
          exact .inl ⟨by simp, by simp; omega⟩
      | false =>
          rw [if_neg Bool.false_ne_true] at hx
          by_cases hlt : m < fraction.length
          · exact .inl ⟨by simp [hlt], by simp [hlt]; omega⟩
          · exact .inr ⟨by simp [hlt], by simp [hlt]; omega⟩

/-- A whole number below `2 ^ 53` is read back, however it is written. -/
theorem parseNumber_natText {n : ℕ} {t : List Char} (h : NatText n t) :
    ∃ d, (∀ c, isDelimiter c = true → ∀ rest, parseNumber (t ++ c :: rest) = some (d, c :: rest)) ∧
      (n < 2 ^ 53 → d.toUInt64 = UInt64.ofNat n ∧ (n < 2 ^ 32 → d.toUInt32 = UInt32.ofNat n)) := by
  obtain ⟨minus, mantissa, scale, hnumber, hminus, hpos, hneg⟩ := h
  obtain ⟨d, k, hread, hvalue⟩ := parseNumber_numberText hnumber
  refine ⟨_, hread, fun hn => ?_⟩
  have hunpack : d.toModel.unpack = Double.exactNat n := by
    rcases hvalue with ⟨rfl, hscale⟩ | ⟨rfl, hscale⟩
    · have hmantissa : mantissa = n * 10 ^ k := by
        rcases Nat.eq_zero_or_pos k with rfl | hk
        · have hn := hpos (by omega)
          rw [hscale] at hn
          simpa using hn.symm
        · have hm := hneg (by omega)
          rwa [hscale, Int.neg_neg, Int.toNat_natCast] at hm
      rw [hmantissa]
      exact Double.unpack_ofScientific_true hn k
    · have hvalue := hpos (by omega)
      rw [hscale, Int.toNat_natCast] at hvalue
      rw [hvalue] at hn ⊢
      exact Double.unpack_ofScientific_false hn
  cases minus with
  | false =>
      exact ⟨Double.toUInt64_of_unpack hn hunpack, fun h32 =>
        Double.toUInt32_of_unpack h32 hunpack⟩
  | true =>
      obtain rfl := hminus rfl
      obtain ⟨h64, h32⟩ := Double.convert_neg_zero hunpack
      exact ⟨h64, fun _ => h32⟩

/-! ### The brackets of a skipped value -/

/-- Text inside brackets which leaves the depth as it is. -/
def Neutral (opening closing : Char) (t : List Char) : Prop :=
  ∀ depth rest, skipBrackets opening closing (depth + 1) false (t ++ rest) =
    skipBrackets opening closing (depth + 1) false rest

/-- The brackets of an object or of an array. -/
inductive Brackets : Char → Char → Prop
  | object : Brackets '{' '}'
  | array : Brackets '[' ']'

section Brackets

variable {opening closing : Char}

theorem neutral_nil : Neutral opening closing [] :=
  fun _ _ => rfl

theorem Neutral.append {t u : List Char} (ht : Neutral opening closing t)
    (hu : Neutral opening closing u) : Neutral opening closing (t ++ u) := by
  intro depth rest
  rw [List.append_assoc, ht, hu]

theorem neutral_singleton {d : Char} (hquote : d ≠ '"') (hopen : d ≠ opening)
    (hclose : d ≠ closing) : Neutral opening closing [d] := by
  intro depth rest
  rw [List.singleton_append, skipBrackets, if_neg hquote, if_neg hopen, if_neg hclose]

theorem Neutral.cons {d : Char} {t : List Char} (ht : Neutral opening closing t)
    (hquote : d ≠ '"') (hopen : d ≠ opening) (hclose : d ≠ closing) :
    Neutral opening closing (d :: t) :=
  (neutral_singleton hquote hopen hclose).append ht

theorem neutral_of_forall {t : List Char}
    (h : ∀ d ∈ t, d ≠ '"' ∧ d ≠ opening ∧ d ≠ closing) : Neutral opening closing t := by
  induction t with
  | nil => exact neutral_nil
  | cons d t ih =>
      obtain ⟨hquote, hopen, hclose⟩ := h d List.mem_cons_self
      exact (ih fun e he => h e (List.mem_cons_of_mem d he)).cons hquote hopen hclose

theorem skipBrackets_raw {d : Char} (hquote : d ≠ '"') (hslash : d ≠ '\\') (depth : ℕ)
    (rest : List Char) :
    skipBrackets opening closing depth true (d :: rest) =
      skipBrackets opening closing depth true rest := by
  have hstring : (d != '"') = true := by simpa using hquote
  rw [skipBrackets, hstring]
  rintro - - rfl
  exact absurd rfl hslash

theorem hexValue_raw {d : Char} {i : ℕ} (h : hexValue d = some i) : d ≠ '"' ∧ d ≠ '\\' := by
  have hquote : hexValue '"' = none := by decide
  have hslash : hexValue '\\' = none := by decide
  constructor
  · rintro rfl
    rw [hquote] at h
    cases h
  · rintro rfl
    rw [hslash] at h
    cases h

theorem skipBrackets_codeUnit {n : ℕ} {u : List Char} (h : CodeUnit n u) (depth : ℕ)
    (rest : List Char) :
    skipBrackets opening closing depth true (u ++ rest) =
      skipBrackets opening closing depth true rest := by
  cases h with
  | digits ha hb hc hd =>
      simp only [List.cons_append, List.nil_append]
      rw [skipBrackets, skipBrackets_raw (hexValue_raw ha).1 (hexValue_raw ha).2,
        skipBrackets_raw (hexValue_raw hb).1 (hexValue_raw hb).2,
        skipBrackets_raw (hexValue_raw hc).1 (hexValue_raw hc).2,
        skipBrackets_raw (hexValue_raw hd).1 (hexValue_raw hd).2]

theorem skipBrackets_bodyText {numeric : Bool} {s t : List Char} (h : BodyText numeric s t)
    (depth : ℕ) (rest : List Char) :
    skipBrackets opening closing depth true (t ++ '"' :: rest) =
      skipBrackets opening closing depth false rest := by
  induction h with
  | nil =>
      rw [List.nil_append, skipBrackets]
      · rfl
      · rintro - - hcons
        cases hcons
  | raw _ hquote hslash _ ih => rw [List.cons_append, skipBrackets_raw hquote hslash, ih]
  | short _ _ ih => rw [List.cons_append, List.cons_append, skipBrackets, ih]
  | code _ hunit _ _ ih => rw [List.append_assoc, skipBrackets_codeUnit hunit, ih]
  | pair _ hhigh hlow _ _ _ ih =>
      rw [List.append_assoc, List.append_assoc, skipBrackets_codeUnit hhigh,
        skipBrackets_codeUnit hlow, ih]

theorem neutral_stringText {numeric : Bool} {s t : List Char} (h : StringText numeric s t) :
    Neutral opening closing t := by
  obtain ⟨body, hbody, rfl⟩ := h
  intro depth rest
  rw [List.append_assoc, List.cons_append, skipBrackets, if_pos rfl]
  exact skipBrackets_bodyText hbody (depth + 1) rest

variable (hb : Brackets opening closing)

include hb

theorem neutral_white {w : List Char} (h : White w) : Neutral opening closing w := by
  refine neutral_of_forall fun d hd => ?_
  rcases h d hd with rfl | rfl | rfl | rfl <;> cases hb <;> decide

theorem neutral_comma : Neutral opening closing [','] := by
  cases hb <;> exact neutral_singleton (by decide) (by decide) (by decide)

theorem neutral_colon : Neutral opening closing [':'] := by
  cases hb <;> exact neutral_singleton (by decide) (by decide) (by decide)

theorem neutral_digits {ds : List Char} (h : ∀ d ∈ ds, isDigit d = true) :
    Neutral opening closing ds := by
  refine neutral_of_forall fun d hd => ?_
  have hdigit := h d hd
  refine ⟨?_, ?_, ?_⟩
  · rintro rfl
    cases hdigit
  · rintro rfl
    cases hb <;> cases hdigit
  · rintro rfl
    cases hb <;> cases hdigit

theorem Neutral.enclose {t : List Char} (ht : Neutral opening closing t) {o c : Char}
    (hoc : Brackets o c) : Neutral opening closing (o :: t ++ [c]) := by
  cases hb <;> cases hoc
  · intro depth rest
    rw [List.append_assoc, List.cons_append, skipBrackets, if_neg (by decide), if_pos rfl, ht,
      List.singleton_append, skipBrackets, if_neg (by decide), if_neg (by decide), if_pos rfl,
      if_neg (by omega)]
    rfl
  · exact (ht.cons (by decide) (by decide) (by decide)).append
      (neutral_singleton (by decide) (by decide) (by decide))
  · exact (ht.cons (by decide) (by decide) (by decide)).append
      (neutral_singleton (by decide) (by decide) (by decide))
  · intro depth rest
    rw [List.append_assoc, List.cons_append, skipBrackets, if_neg (by decide), if_pos rfl, ht,
      List.singleton_append, skipBrackets, if_neg (by decide), if_neg (by decide), if_pos rfl,
      if_neg (by omega)]
    rfl

/-- A sign, a point or the letter of an exponent. -/
theorem Neutral.mark {t : List Char} (ht : Neutral opening closing t) {d : Char}
    (hd : d ∈ ['-', '+', '.', 'e', 'E']) : Neutral opening closing (d :: t) := by
  have hplain : ∀ d ∈ ['-', '+', '.', 'e', 'E'], d ≠ '"' ∧ d ≠ opening ∧ d ≠ closing := by
    cases hb <;> simp
  obtain ⟨hquote, hopen, hclose⟩ := hplain d hd
  exact ht.cons hquote hopen hclose

theorem neutral_exponentText {x : ℤ} {t : List Char} (h : ExponentText x t) :
    Neutral opening closing t := by
  have hletter : ∀ e : Char, e = 'e' ∨ e = 'E' → e ∈ ['-', '+', '.', 'e', 'E'] := by
    rintro e (rfl | rfl) <;> decide
  cases h with
  | none => exact neutral_nil
  | plain he hds =>
      exact (neutral_digits hb fun d => isDigit_of_digits hds).mark hb (hletter _ he)
  | plus he hds =>
      exact ((neutral_digits hb fun d => isDigit_of_digits hds).mark hb (by decide)).mark hb
        (hletter _ he)
  | minus he hds =>
      exact ((neutral_digits hb fun d => isDigit_of_digits hds).mark hb (by decide)).mark hb
        (hletter _ he)

theorem neutral_numberText {minus : Bool} {mantissa : ℕ} {scale : ℤ} {t : List Char}
    (h : NumberText minus mantissa scale t) : Neutral opening closing t := by
  cases h with
  | mk hwhole _ hpoint hexponent =>
      have hsign : Neutral opening closing (if minus then ['-'] else []) := by
        cases minus with
        | true => exact neutral_nil.mark hb (by decide)
        | false => exact neutral_nil
      have hfraction : ∀ {ds p : List Char}, FractionText ds p → Neutral opening closing p := by
        rintro ds p (_ | hds)
        · exact neutral_nil
        · exact (neutral_digits hb fun d => isDigit_of_digits hds).mark hb (by decide)
      exact ((hsign.append (neutral_digits hb fun d => isDigit_of_digits hwhole)).append
        (hfraction hpoint)).append (neutral_exponentText hb hexponent)

theorem neutral_member {s k w₁ w₂ w₃ w₄ t : List Char} (h₁ : White w₁)
    (hk : StringText true s k) (h₂ : White w₂) (h₃ : White w₃) (ht : Neutral opening closing t)
    (h₄ : White w₄) :
    Neutral opening closing (w₁ ++ k ++ w₂ ++ ':' :: w₃ ++ t ++ w₄) := by
  have hcolon : Neutral opening closing (':' :: w₃) :=
    (neutral_colon hb).append (neutral_white hb h₃)
  exact (((((neutral_white hb h₁).append (neutral_stringText hk)).append
    (neutral_white hb h₂)).append hcolon).append ht).append (neutral_white hb h₄)

/-- A value, and what stands inside an array or an object, leaves the depth as it is. -/
theorem neutral_text {part : Part} {t : List Char} (h : Text part t) :
    Neutral opening closing t := by
  induction h with
  | string h => exact neutral_stringText h
  | number h => exact neutral_numberText hb h
  | null => cases hb <;> exact neutral_of_forall (by simp)
  | true => cases hb <;> exact neutral_of_forall (by simp)
  | false => cases hb <;> exact neutral_of_forall (by simp)
  | emptyArray h => exact (neutral_white hb h).enclose hb .array
  | array _ ih => exact ih.enclose hb .array
  | emptyObject h => exact (neutral_white hb h).enclose hb .object
  | object _ ih => exact ih.enclose hb .object
  | item h₁ _ h₂ ih => exact ((neutral_white hb h₁).append ih).append (neutral_white hb h₂)
  | items h₁ _ h₂ _ ih ihs =>
      exact (((neutral_white hb h₁).append ih).append (neutral_white hb h₂)).append
        ((neutral_comma hb).append ihs)
  | member h₁ hk h₂ h₃ _ h₄ ih => exact neutral_member hb h₁ hk h₂ h₃ ih h₄
  | members h₁ hk h₂ h₃ _ h₄ _ ih ihs =>
      exact (neutral_member hb h₁ hk h₂ h₃ ih h₄).append ((neutral_comma hb).append ihs)

end Brackets

/-! ### A skipped value -/

theorem numberText_head {minus : Bool} {mantissa : ℕ} {scale : ℤ} {t : List Char}
    (h : NumberText minus mantissa scale t) :
    ∃ d s, t = d :: s ∧ (d = '-' ∨ isDigit d = true) := by
  cases h with
  | @mk whole _ _ _ _ hwhole =>
      obtain ⟨d, ds, rfl⟩ := List.exists_cons_of_ne_nil hwhole.1
      cases minus with
      | true => exact ⟨'-', _, rfl, .inl rfl⟩
      | false => exact ⟨d, _, rfl, .inr (isDigit_of_digits hwhole List.mem_cons_self)⟩

theorem not_isWs_of_number {d : Char} (h : d = '-' ∨ isDigit d = true) :
    isWs d = false ∧ d ≠ '"' ∧ d ≠ '{' ∧ d ≠ '[' ∧ d ≠ ']' := by
  rcases h with rfl | hdigit
  · decide
  · have hws : isWs d = false := by
      by_contra hws
      simp only [isWs, Bool.not_eq_false, Bool.or_eq_true, decide_eq_true_eq] at hws
      rcases hws with ((rfl | rfl) | rfl) | rfl <;> cases hdigit
    refine ⟨hws, ?_, ?_, ?_, ?_⟩ <;> (rintro rfl; cases hdigit)

section Skip

variable {c : Char} (hc : isDelimiter c = true)

include hc

/-- A value of any kind is skipped to its end. -/
theorem skipValue_text {t : List Char} (h : Text .value t) (rest : List Char) :
    skipValue (t ++ c :: rest) = some (c :: rest) := by
  have hbrackets : ∀ {o e : Char} {body : List Char}, Brackets o e → Neutral o e body →
      skipBrackets o e 0 false (o :: body ++ [e] ++ c :: rest) = some (c :: rest) := by
    intro o e body hoe hbody
    have hnext := hbody 0 (e :: c :: rest)
    have hquote : o ≠ '"' ∧ e ≠ '"' ∧ e ≠ o := by cases hoe <;> decide
    rw [List.append_assoc, List.cons_append, skipBrackets, if_neg hquote.1, if_pos rfl]
    refine hnext.trans ?_
    rw [skipBrackets, if_neg hquote.2.1, if_neg hquote.2.2, if_pos rfl, if_pos rfl]
  have hword : ∀ {d : Char} {ds : List Char}, (d :: ds).all (fun d => !isDelimiter d) = true →
      d ≠ '"' ∧ d ≠ '{' ∧ d ≠ '[' ∧ d ≠ '-' ∧ isDigit d = false →
        skipValue (d :: ds ++ c :: rest) = some (c :: rest) := by
    intro d ds hall hd
    obtain ⟨hquote, hobject, harray, hminus, hdigit⟩ := hd
    have hfirst : isDelimiter d = false := by simpa using List.all_eq_true.mp hall d
    have hws : isWs d = false := by
      rw [isDelimiter, Bool.or_eq_false_iff] at hfirst
      exact hfirst.2
    have hdrop : (d :: ds ++ c :: rest).dropWhile (fun d => !isDelimiter d) = c :: rest := by
      rw [List.dropWhile_append_of_pos (List.all_eq_true.mp hall)]
      simp [hc]
    rw [List.cons_append] at hdrop ⊢
    simp [skipValue, skipWs_cons hws, hquote, hobject, harray, hminus, hdigit, hfirst, hdrop]
  cases h with
  | string h =>
      obtain ⟨v, hall, -⟩ := exists_parseString h
      have hread := hall (c :: rest)
      obtain ⟨body, -, rfl⟩ := h
      rw [List.cons_append, List.cons_append] at hread ⊢
      simp only [skipValue, skipWs_cons (show isWs '"' = false from rfl), if_true, hread,
        Option.map_some]
  | number h =>
      obtain ⟨d, k, hnumber, -⟩ := parseNumber_numberText h
      have hread := hnumber c hc rest
      obtain ⟨e, s, rfl, he⟩ := numberText_head h
      obtain ⟨hws, hquote, hobject, harray, -⟩ := not_isWs_of_number he
      rw [List.cons_append] at hread ⊢
      simp [skipValue, skipWs_cons hws, hquote, hobject, harray, he, hread]
  | null => exact hword (by decide) (by decide)
  | true => exact hword (by decide) (by decide)
  | false => exact hword (by decide) (by decide)
  | emptyArray h =>
      have hskip := hbrackets .array (neutral_white .array h)
      rw [List.cons_append, List.cons_append] at hskip ⊢
      simpa [skipValue, skipWs_cons (show isWs '[' = false from rfl)] using hskip
  | array h =>
      have hskip := hbrackets .array (neutral_text .array h)
      rw [List.cons_append, List.cons_append] at hskip ⊢
      simpa [skipValue, skipWs_cons (show isWs '[' = false from rfl)] using hskip
  | emptyObject h =>
      have hskip := hbrackets .object (neutral_white .object h)
      rw [List.cons_append, List.cons_append] at hskip ⊢
      simpa [skipValue, skipWs_cons (show isWs '{' = false from rfl)] using hskip
  | object h =>
      have hskip := hbrackets .object (neutral_text .object h)
      rw [List.cons_append, List.cons_append] at hskip ⊢
      simpa [skipValue, skipWs_cons (show isWs '{' = false from rfl)] using hskip

end Skip

/-! ### Arrays -/

/-- Every text begins with a character which is neither white space nor the end of an array or
of an object. -/
def Starts {α : Type} (item : α → List Char → Prop) : Prop :=
  ∀ a t, item a t → ∃ c s, t = c :: s ∧ isWs c = false ∧ c ≠ ']' ∧ c ≠ '}'

section Starts

variable {α : Type} {item : α → List Char → Prop}

theorem Starts.skipWs_item (h : Starts item) {a : α} {w t : List Char} (hw : White w)
    (ht : item a t) (s : List Char) : skipWs (w ++ (t ++ s)) = t ++ s := by
  obtain ⟨c, t, rfl, hc, -⟩ := h a t ht
  exact skipWs_white_cons hw hc (t ++ s)

/-- The first item stands behind the white space, and each item takes up a character. -/
theorem Starts.skipWs_separated (h : Starts item) {as : List α} {ts : List Char}
    (hts : Separated item as ts) (rest : List Char) :
    as.length ≤ (skipWs (ts ++ rest)).length ∧
      ∃ c s, skipWs (ts ++ rest) = c :: s ∧ c ≠ ']' ∧ c ≠ '}' := by
  induction hts with
  | one hw ht _ =>
      rw [List.append_assoc, List.append_assoc, h.skipWs_item hw ht]
      obtain ⟨c, t, rfl, -, hc⟩ := h _ _ ht
      exact ⟨by simp, c, _, rfl, hc⟩
  | @cons a as w t w' ts hw ht _ _ ih =>
      have hle : (skipWs (ts ++ rest)).length ≤ (ts ++ rest).length :=
        (List.dropWhile_sublist _).length_le
      rw [List.append_assoc, List.append_assoc, List.append_assoc, h.skipWs_item hw ht]
      obtain ⟨c, t, rfl, -, hc⟩ := h a t ht
      refine ⟨?_, c, _, rfl, hc⟩
      simp only [List.length_append, List.length_cons] at hle ⊢
      omega

end Starts

/-- `read` takes every text of an item up to its end. -/
structure ReadsText {α : Type} (read : List Char → Option (α × List Char))
    (item : α → List Char → Prop) : Prop where
  starts : Starts item
  reads : ∀ {a t}, item a t → ∀ rest, read (t ++ rest) = some (a, rest)

section Arrays

variable {α : Type} {read : List Char → Option (α × List Char)} {item : α → List Char → Prop}

theorem ReadsText.itemLoop (h : ReadsText read item) {as : List α} {ts : List Char}
    (hts : Separated item as ts) {fuel : ℕ} (hfuel : as.length ≤ fuel) (rest : List Char) :
    itemLoop read fuel (skipWs (ts ++ ']' :: rest)) = some (as, rest) := by
  induction hts generalizing fuel with
  | one hw ht hw' =>
      obtain ⟨fuel, rfl⟩ := Nat.exists_eq_succ_of_ne_zero (Nat.ne_of_gt hfuel)
      rw [List.append_assoc, List.append_assoc, h.starts.skipWs_item hw ht, JsonWalker.itemLoop,
        h.reads ht]
      simp [skipWs_white_cons hw' (show isWs ']' = false from rfl)]
  | cons hw ht hw' _ ih =>
      obtain ⟨fuel, rfl⟩ := Nat.exists_eq_succ_of_ne_zero
        (Nat.ne_of_gt (Nat.lt_of_lt_of_le (Nat.succ_pos _) hfuel))
      have hloop := ih (Nat.le_of_succ_le_succ hfuel)
      rw [List.append_assoc, List.append_assoc, List.append_assoc,
        h.starts.skipWs_item hw ht, JsonWalker.itemLoop, h.reads ht, List.cons_append]
      simp [skipWs_white_cons hw' (show isWs ',' = false from rfl), hloop]

/-- An array of readable items is read, whatever white space stands in it. -/
theorem ReadsText.parseArray (h : ReadsText read item) {as : List α} {t : List Char}
    (ht : ArrayText item as t) (rest : List Char) :
    parseArray read (t ++ rest) = some (as, rest) := by
  cases ht with
  | nil hw =>
      have hskip := skipWs_white_cons hw (show isWs ']' = false from rfl) rest
      simp [JsonWalker.parseArray, expect, hskip]
  | @cons as ts hts =>
      obtain ⟨hlen, c, s, hc, hne, -⟩ := h.starts.skipWs_separated hts (']' :: rest)
      have hloop := h.itemLoop hts hlen rest
      rw [List.append_assoc, List.cons_append, List.singleton_append]
      rw [hc] at hloop
      simp only [JsonWalker.parseArray, expect, if_true, hc, Option.bind_eq_bind,
        Option.bind_some]
      split
      · rename_i heq
        exact absurd (List.cons.inj heq).1 hne
      · exact hloop

theorem starts_arrayText : Starts (ArrayText item) := by
  rintro as t (_ | _)
  · exact ⟨'[', _, rfl, rfl, by decide⟩
  · exact ⟨'[', _, rfl, rfl, by decide⟩

end Arrays

end Nostr

end BtClock
