import BtClock.Arith.Bits
import BtClock.Reading.InPlace
import BtClock.Webserver.ShowRequests

/-!
# Decoding in place

The decoder of the server writes what a value stands for over the value itself.
-/

namespace BtClock

namespace Webserver

namespace UrlDecode

open Reading
open ShowText (PercentEncodes charOfByte toNat_charOfByte)

/-! ### The decoder -/

def hexValue (c : UInt8) : Option ℕ :=
  if 0x30 ≤ c ∧ c ≤ 0x39 then some (c.toNat - 0x30)
  else if 0x61 ≤ c ∧ c ≤ 0x66 then some (c.toNat - 0x61 + 10)
  else if 0x41 ≤ c ∧ c ≤ 0x46 then some (c.toNat - 0x41 + 10)
  else none

/-- The body of the loop, for what is read from the index `r` on. -/
def look (buf : ℕ → UInt8) : Move UInt8 :=
  if buf 0 = 0 then .stop
  else if buf 0 = 0x2B then .write 0x20 0
  else if buf 0 = 0x25 then
    if buf 1 = 0 then .fail
    else if buf 2 = 0 then .fail
    else
      match hexValue (buf 1), hexValue (buf 2) with
      | some hi, some lo => .write (UInt8.ofNat (hi <<< 4 ||| lo)) 2
      | _, _ => .fail
  else .write (buf 0) 0

/-- Whether the value is well formed, and the memory from the buffer on. -/
def urlDecodeInPlace (fuel : ℕ) (buf : ℕ → UInt8) : Option (Bool × (ℕ → UInt8)) :=
  (Pass.run look fuel ⟨buf, 0, 0⟩).map fun (ok, p) =>
    (ok, if ok then Function.update p.memory p.w 0 else p.memory)

/-! ### What a value stands for -/

/-- A text with a zero behind it. -/
structure HoldsText (memory : ℕ → UInt8) (s : List UInt8) : Prop where
  reads : ∀ i ≤ s.length, memory i = s.getD i 0
  free : 0 ∉ s

structure CBuffer where
  memory : ℕ → UInt8
  text : List UInt8
  holds : HoldsText memory text

/-- Any byte may be escaped, with digits of either case, a blank may be a plus, and every byte but
the plus and the percent sign may stand for itself. -/
inductive UrlEncodes : List UInt8 → List UInt8 → Prop
  | nil : UrlEncodes [] []
  | plain {b : UInt8} {raw s : List UInt8} (hplus : b ≠ 0x2B) (hpercent : b ≠ 0x25)
      (h : UrlEncodes raw s) : UrlEncodes (b :: raw) (b :: s)
  | blank {raw s : List UInt8} (h : UrlEncodes raw s) : UrlEncodes (0x2B :: raw) (0x20 :: s)
  | escape {x y b : UInt8} {hi lo : ℕ} {raw s : List UInt8} (hx : hexValue x = some hi)
      (hy : hexValue y = some lo) (hb : b.toNat = 16 * hi + lo) (h : UrlEncodes raw s) :
      UrlEncodes (0x25 :: x :: y :: raw) (b :: s)

/-- Two digits are in front. -/
def HasDigits (raw : List UInt8) : Prop :=
  ∃ x y rest, raw = x :: y :: rest ∧ (hexValue x).isSome ∧ (hexValue y).isSome

/-- A percent sign is not followed by two digits. -/
def Malformed (raw : List UInt8) : Prop :=
  ∃ before after, raw = before ++ 0x25 :: after ∧ ¬HasDigits after

/-- The decoder undoes the encoding, refuses the values with a percent sign which no digits
follow and no others, and nowhere writes ahead of what it has read. -/
structure UndoesFormEncoding (buf : CBuffer) : Prop where
  returns : ∀ fuel, buf.text.length < fuel →
    ∃ ok memory', urlDecodeInPlace fuel buf.memory = some (ok, memory')
  undoes : ∀ s, 0 ∉ s → UrlEncodes buf.text s → ∀ fuel, buf.text.length < fuel →
    ∃ memory', urlDecodeInPlace fuel buf.memory = some (true, memory') ∧ HoldsText memory' s
  rejects : ∀ fuel, buf.text.length < fuel →
    ((∃ memory', urlDecodeInPlace fuel buf.memory = some (false, memory')) ↔
      Malformed buf.text)
  behind : ∀ p, Pass.Reaches look ⟨buf.memory, 0, 0⟩ p → p.w ≤ p.r

/-! ### The digits -/

theorem hexValue_lt {x : UInt8} {v : ℕ} (h : hexValue x = some v) : v < 16 := by
  simp only [hexValue, UInt8.le_iff_toNat_le] at h
  split_ifs at h with hdigit hlower hupper <;> cases h
  · have hle : x.toNat ≤ 0x39 := hdigit.2
    omega
  · have hle : x.toNat ≤ 0x66 := hlower.2
    omega
  · have hle : x.toNat ≤ 0x46 := hupper.2
    omega

theorem ne_zero_of_hexValue {x : UInt8} {v : ℕ} (h : hexValue x = some v) : x ≠ 0 := by
  rintro rfl
  cases h

theorem ne_percent_of_hexValue {x : UInt8} {v : ℕ} (h : hexValue x = some v) : x ≠ 0x25 := by
  rintro rfl
  cases h

theorem toNat_join {hi lo : ℕ} (hhi : hi < 16) (hlo : lo < 16) :
    (UInt8.ofNat (hi <<< 4 ||| lo)).toNat = 16 * hi + lo := by
  have hpow : 2 ^ 4 = 16 := rfl
  rw [Bits.shiftLeft_or_eq_add hlo, hpow, Nat.mul_comm, UInt8.toNat_ofNat']
  exact Nat.mod_eq_of_lt (by omega)

/-! ### The relation -/

theorem UrlEncodes.unique {raw s t : List UInt8} (hs : UrlEncodes raw s)
    (ht : UrlEncodes raw t) : s = t := by
  induction hs generalizing t with
  | nil =>
      cases ht
      rfl
  | plain hplus hpercent h ih =>
      cases ht with
      | plain _ _ h' => rw [ih h']
      | blank _ => exact absurd rfl hplus
      | escape _ _ _ _ => exact absurd rfl hpercent
  | blank h ih =>
      cases ht with
      | plain hplus _ _ => exact absurd rfl hplus
      | blank h' => rw [ih h']
  | escape hx hy hb h ih =>
      cases ht with
      | plain _ hpercent _ => exact absurd rfl hpercent
      | escape hx' hy' hb' h' =>
          rw [hx, Option.some.injEq] at hx'
          rw [hy, Option.some.injEq] at hy'
          rw [← hx', ← hy', ← hb, UInt8.toNat_inj] at hb'
          rw [hb', ih h']

/-- A percent sign in front has its digits, or there is one behind. -/
theorem malformed_cons_iff {b : UInt8} {raw : List UInt8} :
    Malformed (b :: raw) ↔ b = 0x25 ∧ ¬HasDigits raw ∨ Malformed raw := by
  constructor
  · rintro ⟨before, after, hsplit, hdigits⟩
    cases before with
    | nil =>
        obtain ⟨rfl, rfl⟩ := List.cons.inj hsplit
        exact Or.inl ⟨rfl, hdigits⟩
    | cons c before =>
        obtain ⟨rfl, rfl⟩ := List.cons.inj hsplit
        exact Or.inr ⟨before, after, rfl, hdigits⟩
  · rintro (⟨rfl, hdigits⟩ | ⟨before, after, rfl, hdigits⟩)
    · exact ⟨[], raw, rfl, hdigits⟩
    · exact ⟨b :: before, after, rfl, hdigits⟩

theorem not_malformed_nil : ¬Malformed [] := by
  rintro ⟨before, after, hsplit, -⟩
  exact absurd (List.append_eq_nil_iff.mp hsplit.symm).2 (List.cons_ne_nil _ _)

theorem UrlEncodes.not_malformed {raw s : List UInt8} (h : UrlEncodes raw s) :
    ¬Malformed raw := by
  induction h with
  | nil => exact not_malformed_nil
  | plain hplus hpercent h ih =>
      rw [malformed_cons_iff, not_or]
      exact ⟨fun hfront => hpercent hfront.1, ih⟩
  | blank h ih =>
      rw [malformed_cons_iff, not_or]
      exact ⟨fun hfront => absurd hfront.1 (by decide), ih⟩
  | @escape x y b hi lo raw s hx hy hb h ih =>
      rw [malformed_cons_iff, malformed_cons_iff, malformed_cons_iff, not_or, not_or, not_or]
      have hdigits : HasDigits (x :: y :: raw) :=
        ⟨x, y, raw, rfl, by rw [hx, Option.isSome_some], by rw [hy, Option.isSome_some]⟩
      exact ⟨fun hfront => hfront.2 hdigits, fun hfront => ne_percent_of_hexValue hx hfront.1,
        fun hfront => ne_percent_of_hexValue hy hfront.1, ih⟩

/-! ### The body of the loop -/

variable {memory : ℕ → UInt8} {b : UInt8} {raw : List UInt8}

theorem HoldsText.head (h : HoldsText memory (b :: raw)) : memory 0 = b :=
  h.reads 0 (Nat.zero_le _)

theorem HoldsText.head_ne (h : HoldsText memory (b :: raw)) : b ≠ 0 := fun hb =>
  h.free (hb ▸ List.mem_cons_self)

theorem HoldsText.tail (h : HoldsText memory (b :: raw)) :
    HoldsText (fun k => memory (1 + k)) raw where
  reads i hi := by
    rw [Nat.add_comm, h.reads (i + 1) (Nat.succ_le_succ hi), List.getD_cons_succ]
  free hmem := h.free (List.mem_cons_of_mem _ hmem)

theorem look_nil (h : HoldsText memory []) : look memory = .stop :=
  if_pos (h.reads 0 (Nat.zero_le _))

theorem look_blank (h : HoldsText memory (0x2B :: raw)) : look memory = .write 0x20 0 := by
  rw [look, h.head, if_neg h.head_ne, if_pos rfl]

theorem look_plain (h : HoldsText memory (b :: raw)) (hplus : b ≠ 0x2B) (hpercent : b ≠ 0x25) :
    look memory = .write b 0 := by
  rw [look, h.head, if_neg h.head_ne, if_neg hplus, if_neg hpercent]

theorem look_escape {x y : UInt8} {hi lo : ℕ} (h : HoldsText memory (0x25 :: x :: y :: raw))
    (hx : hexValue x = some hi) (hy : hexValue y = some lo) :
    look memory = .write (UInt8.ofNat (hi <<< 4 ||| lo)) 2 := by
  have hone : memory 1 = x := h.tail.head
  have htwo : memory 2 = y := h.tail.tail.head
  rw [look, h.head, if_neg (by decide), if_neg (by decide), if_pos rfl, hone, htwo,
    if_neg (ne_zero_of_hexValue hx), if_neg (ne_zero_of_hexValue hy), hx, hy]

theorem look_fail (h : HoldsText memory (0x25 :: raw)) (hdigits : ¬HasDigits raw) :
    look memory = .fail := by
  rw [look, h.head, if_neg (by decide), if_neg (by decide), if_pos rfl]
  match raw, h, hdigits with
  | [], h, _ => exact if_pos (h.reads 1 (Nat.le_refl 1))
  | [x], h, _ =>
      have hone : memory 1 = x := h.tail.head
      have htwo : memory 2 = 0 := h.reads 2 (Nat.le_refl 2)
      rw [hone, if_neg h.tail.head_ne, if_pos htwo]
  | x :: y :: rest, h, hdigits =>
      have hone : memory 1 = x := h.tail.head
      have htwo : memory 2 = y := h.tail.tail.head
      rw [hone, htwo, if_neg h.tail.head_ne, if_neg h.tail.tail.head_ne]
      cases hx : hexValue x with
      | none => rfl
      | some hi =>
          cases hy : hexValue y with
          | none => rfl
          | some lo =>
              exact absurd ⟨x, y, rest, rfl, by rw [hx]; rfl, by rw [hy]; rfl⟩ hdigits

/-! ### The loop -/

theorem exists_of_hasDigits {raw : List UInt8} (h : HasDigits raw) :
    ∃ x y rest hi lo, raw = x :: y :: rest ∧ hexValue x = some hi ∧ hexValue y = some lo := by
  obtain ⟨x, y, rest, rfl, hx, hy⟩ := h
  obtain ⟨hi, hhi⟩ := Option.isSome_iff_exists.mp hx
  obtain ⟨lo, hlo⟩ := Option.isSome_iff_exists.mp hy
  exact ⟨x, y, rest, hi, lo, rfl, hhi, hlo⟩

/-- The loop tells an encoding from a malformed text. -/
def Decodes (fuel : ℕ) (memory : ℕ → UInt8) (raw : List UInt8) : Prop :=
  ∃ ok out, Pass.scan look fuel memory = some (ok, out) ∧
    (ok = true → UrlEncodes raw out) ∧ (ok = false → Malformed raw)

/-- A front of the text is read, and the loop goes on behind it. -/
theorem Decodes.write {fuel : ℕ} {rest : List UInt8} {a : UInt8} {skip : ℕ}
    (h : Decodes fuel (fun k => memory (skip + 1 + k)) rest) (hlook : look memory = .write a skip)
    (hencodes : ∀ out, UrlEncodes rest out → UrlEncodes raw (a :: out))
    (hmalformed : Malformed rest → Malformed raw) : Decodes (fuel + 1) memory raw := by
  obtain ⟨ok, out, hscan, htrue, hfalse⟩ := h
  refine ⟨ok, a :: out, ?_, fun hok => hencodes out (htrue hok),
    fun hok => hmalformed (hfalse hok)⟩
  rw [Pass.scan, hlook]
  simp only [hscan, Option.map_some]

/-- The loop which leaves the text alone. -/
theorem scan_sound (h : HoldsText memory raw) {fuel : ℕ} (hfuel : raw.length < fuel) :
    Decodes fuel memory raw := by
  induction hn : raw.length using Nat.strong_induction_on generalizing raw memory fuel with
  | _ n ih =>
      subst hn
      obtain ⟨fuel, rfl⟩ := Nat.exists_eq_add_one_of_ne_zero (Nat.ne_zero_of_lt hfuel)
      have hrest : ∀ {memory : ℕ → UInt8} {rest : List UInt8}, HoldsText memory rest →
          rest.length < raw.length → Decodes fuel memory rest := fun hholds hlt =>
        ih _ hlt hholds (hlt.trans_le (Nat.le_of_lt_succ hfuel)) rfl
      cases raw with
      | nil =>
          refine ⟨true, [], ?_, fun _ => .nil, fun hok => Bool.noConfusion hok⟩
          rw [Pass.scan, look_nil h]
      | cons b raw =>
          by_cases hplus : b = 0x2B
          · subst hplus
            exact (hrest h.tail (Nat.lt_succ_self _)).write (look_blank h) (fun _ => .blank)
              fun hmal => malformed_cons_iff.mpr (Or.inr hmal)
          by_cases hpercent : b = 0x25
          · subst hpercent
            by_cases hdigits : HasDigits raw
            · obtain ⟨x, y, rest, hi, lo, rfl, hx, hy⟩ := exists_of_hasDigits hdigits
              have hjoin := toNat_join (hexValue_lt hx) (hexValue_lt hy)
              have hbehind : HoldsText (fun k => memory (2 + 1 + k)) rest := by
                have htail := h.tail.tail.tail
                simp only [← Nat.add_assoc] at htail
                exact htail
              have hshorter : rest.length < (0x25 :: x :: y :: rest).length := by
                simp only [List.length_cons]
                omega
              refine (hrest hbehind hshorter).write (look_escape h hx hy)
                (fun _ => .escape hx hy hjoin) fun hmal => ?_
              rw [malformed_cons_iff, malformed_cons_iff, malformed_cons_iff]
              exact Or.inr (Or.inr (Or.inr hmal))
            · refine ⟨false, [], ?_, fun hok => Bool.noConfusion hok,
                fun _ => malformed_cons_iff.mpr (Or.inl ⟨rfl, hdigits⟩)⟩
              rw [Pass.scan, look_fail h hdigits]
          · exact (hrest h.tail (Nat.lt_succ_self _)).write (look_plain h hplus hpercent)
              (fun _ => .plain hplus hpercent) fun hmal => malformed_cons_iff.mpr (Or.inr hmal)

/-- The loop in place writes what the other one does. -/
theorem run_sound (h : HoldsText memory raw) {fuel : ℕ} (hfuel : raw.length < fuel) :
    ∃ ok q, Pass.run look fuel ⟨memory, 0, 0⟩ = some (ok, q) ∧
      (ok = true → UrlEncodes raw q.written) ∧ (ok = false → Malformed raw) := by
  obtain ⟨ok, out, hscan, htrue, hfalse⟩ := scan_sound h hfuel
  have hrest : (⟨memory, 0, 0⟩ : Pass UInt8).rest = memory := by
    funext k
    rw [Pass.rest, Nat.zero_add]
  have hle : (⟨memory, 0, 0⟩ : Pass UInt8).w ≤ (⟨memory, 0, 0⟩ : Pass UInt8).r := Nat.le_refl 0
  have hrun := Pass.run_eq_scan look fuel hle
  rw [hrest, hscan, Option.map_some] at hrun
  obtain ⟨⟨ok', q⟩, hq, heq⟩ := Option.map_eq_some_iff.mp hrun
  obtain ⟨rfl, rfl⟩ := Prod.mk.inj heq
  exact ⟨_, q, hq, htrue, hfalse⟩

/-- The zero behind the output ends it. -/
theorem holdsText_written (q : Pass UInt8) (hfree : 0 ∉ q.written) :
    HoldsText (Function.update q.memory q.w 0) q.written where
  reads i hi := by
    have hlength : q.written.length = q.w := by
      rw [Pass.written, List.length_map, List.length_range]
    rcases Nat.lt_or_eq_of_le (hlength ▸ hi) with hlt | rfl
    · rw [Function.update_of_ne (Nat.ne_of_lt hlt), Pass.written, List.getD_eq_getElem?_getD,
        List.getElem?_map, List.getElem?_range hlt]
      rfl
    · rw [Function.update_self, List.getD_eq_default _ _ hlength.le]
  free := hfree

theorem undoesFormEncoding (buf : CBuffer) : UndoesFormEncoding buf where
  returns fuel hfuel := by
    obtain ⟨ok, q, hrun, -, -⟩ := run_sound buf.holds hfuel
    exact ⟨ok, _, by rw [urlDecodeInPlace, hrun, Option.map_some]⟩
  undoes s hfree hencodes fuel hfuel := by
    obtain ⟨ok, q, hrun, htrue, hfalse⟩ := run_sound buf.holds hfuel
    cases ok with
    | false => exact absurd (hfalse rfl) hencodes.not_malformed
    | true =>
        obtain rfl : s = q.written := hencodes.unique (htrue rfl)
        refine ⟨_, ?_, holdsText_written q hfree⟩
        rw [urlDecodeInPlace, hrun, Option.map_some]
        rfl
  rejects fuel hfuel := by
    obtain ⟨ok, q, hrun, htrue, hfalse⟩ := run_sound buf.holds hfuel
    constructor
    · rintro ⟨memory', hfail⟩
      rw [urlDecodeInPlace, hrun, Option.map_some] at hfail
      exact hfalse (congrArg Prod.fst (Option.some.inj hfail))
    · intro hmal
      cases ok with
      | false => exact ⟨_, by rw [urlDecodeInPlace, hrun, Option.map_some]⟩
      | true => exact absurd hmal (htrue rfl).not_malformed
  behind p hreach := hreach.le (Nat.le_refl 0)

/-! ### The decoder of the handlers -/

theorem hexDigit_charOfByte (x : UInt8) : Nostr.hexDigit (charOfByte x) = hexValue x := by
  have hle : ∀ {c : Char}, c ≤ charOfByte x ↔ c.toNat ≤ x.toNat := fun {c} => by
    rw [← toNat_charOfByte x]
    rfl
  have hge : ∀ {c : Char}, charOfByte x ≤ c ↔ x.toNat ≤ c.toNat := fun {c} => by
    rw [← toNat_charOfByte x]
    rfl
  simp only [Nostr.hexDigit, hexValue, hle, hge, toNat_charOfByte, UInt8.le_iff_toNat_le,
    Nat.add_comm 10]
  rfl

theorem charOfByte_eq_iff {b : UInt8} {c : UInt8} : charOfByte b = charOfByte c ↔ b = c := by
  rw [← Char.toNat_inj, toNat_charOfByte, toNat_charOfByte, UInt8.toNat_inj]

theorem UrlEncodes.percentEncodes {raw s : List UInt8} (h : UrlEncodes raw s) :
    PercentEncodes (raw.map charOfByte) s := by
  induction h with
  | nil => exact .nil
  | plain hplus hpercent h ih =>
      exact .plain (fun heq => hplus (charOfByte_eq_iff (c := 0x2B).mp heq))
        (fun heq => hpercent (charOfByte_eq_iff (c := 0x25).mp heq)) ih
  | blank h ih => exact .blank ih
  | escape hx hy hb h ih =>
      exact .escape (by rw [hexDigit_charOfByte, hx]) (by rw [hexDigit_charOfByte, hy]) hb ih

/-- A value which the handlers decode is an encoding. -/
theorem exists_encodes_of_isSome {raw : List UInt8}
    (h : (Webserver.urlDecodeInPlace (raw.map charOfByte)).isSome) : ∃ s, UrlEncodes raw s := by
  induction hn : raw.length using Nat.strong_induction_on generalizing raw with
  | _ n ih =>
      subst hn
      cases raw with
      | nil => exact ⟨[], .nil⟩
      | cons b raw =>
          rw [List.map_cons, Webserver.urlDecodeInPlace.eq_def] at h
          by_cases hplus : b = 0x2B
          · subst hplus
            rw [show charOfByte 0x2B = '+' from rfl] at h
            simp only [if_true, Option.isSome_map] at h
            obtain ⟨s, hs⟩ := ih raw.length (Nat.lt_succ_self _) h rfl
            exact ⟨0x20 :: s, .blank hs⟩
          have hplus' : charOfByte b ≠ '+' := fun heq =>
            hplus (charOfByte_eq_iff (c := 0x2B).mp heq)
          simp only [if_neg hplus'] at h
          by_cases hpercent : b = 0x25
          · subst hpercent
            rw [show charOfByte 0x25 = '%' from rfl] at h
            simp only [if_true] at h
            rcases raw with _ | ⟨x, _ | ⟨y, rest⟩⟩
            · exact absurd h Bool.false_ne_true
            · exact absurd h Bool.false_ne_true
            · simp only [List.map_cons, hexDigit_charOfByte] at h
              cases hx : hexValue x with
              | none => simp [hx] at h
              | some hi =>
                  cases hy : hexValue y with
                  | none => simp [hx, hy] at h
                  | some lo =>
                      simp only [hx, hy, Option.isSome_map] at h
                      obtain ⟨s, hs⟩ := ih rest.length (by simp only [List.length_cons]; omega)
                        h rfl
                      have hjoin := toNat_join (hexValue_lt hx) (hexValue_lt hy)
                      exact ⟨_ :: s, .escape hx hy hjoin hs⟩
          · have hpercent' : charOfByte b ≠ '%' := fun heq =>
              hpercent (charOfByte_eq_iff (c := 0x25).mp heq)
            simp only [if_neg hpercent', Option.isSome_map] at h
            obtain ⟨s, hs⟩ := ih raw.length (Nat.lt_succ_self _) h rfl
            exact ⟨b :: s, .plain hplus hpercent hs⟩

/-- What the handlers get is what stands in the buffer. -/
theorem urlDecodeInPlace_handlers (buf : CBuffer) {fuel : ℕ} (hfuel : buf.text.length < fuel) :
    ∃ ok q, Pass.run look fuel ⟨buf.memory, 0, 0⟩ = some (ok, q) ∧
      Webserver.urlDecodeInPlace (buf.text.map charOfByte) =
        if ok then some (q.written.map charOfByte) else none := by
  obtain ⟨ok, q, hrun, htrue, hfalse⟩ := run_sound buf.holds hfuel
  refine ⟨ok, q, hrun, ?_⟩
  cases ok with
  | true => exact (htrue rfl).percentEncodes.urlDecodeInPlace
  | false =>
      refine Option.not_isSome_iff_eq_none.mp fun hsome => ?_
      obtain ⟨s, hs⟩ := exists_encodes_of_isSome hsome
      exact hs.not_malformed (hfalse rfl)

end UrlDecode

end Webserver

end BtClock
