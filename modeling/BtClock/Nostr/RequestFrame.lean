import BtClock.Coding.JsonText
import BtClock.Coding.SelfDelimiting
import BtClock.Nostr.EventText
import BtClock.Nostr.RelaySession

/-!
# The frames of the requests

A `REQ` carries the fields of its filter which are set, and a `CLOSE` the id alone.
-/

namespace BtClock

namespace Nostr

open JsonEmit (appendUint)

open JsonText JsonWalker

namespace RequestFrame

/-- Only the quote and the backslash are escaped. -/
def escape (c : Char) : List Char :=
  if c = '"' ∨ c = '\\' then ['\\', c] else [c]

def appendString (s : String) : List Char :=
  '"' :: s.toList.flatMap escape ++ ['"']

def appendStringArray (v : List String) : List Char :=
  '[' :: joinComma (v.map appendString) ++ [']']

/-- A field of the filter which is set. -/
inductive FilterField
  | kinds (kinds : List UInt32)
  | authors (authors : List String)
  | dTags (dTags : List String)
  | pTags (pTags : List String)
  | since (since : UInt64)
  | limit (limit : ℕ)
  deriving DecidableEq, Repr

inductive FieldName
  | kinds | authors | dTags | pTags | since | limit
  deriving DecidableEq, Repr

namespace FilterField

def name : FilterField → FieldName
  | .kinds _ => .kinds
  | .authors _ => .authors
  | .dTags _ => .dTags
  | .pTags _ => .pTags
  | .since _ => .since
  | .limit _ => .limit

def value : FilterField → List Char
  | .kinds v => '[' :: joinComma (v.map fun k => appendUint k.toNat) ++ [']']
  | .authors v | .dTags v | .pTags v => appendStringArray v
  | .since v => appendUint v.toNat
  | .limit v => appendUint v

end FilterField

def FieldName.key : FieldName → List Char
  | .kinds => ['k', 'i', 'n', 'd', 's']
  | .authors => ['a', 'u', 't', 'h', 'o', 'r', 's']
  | .dTags => ['#', 'd']
  | .pTags => ['#', 'p']
  | .since => ['s', 'i', 'n', 'c', 'e']
  | .limit => ['l', 'i', 'm', 'i', 't']

/-- The key with its colon. -/
def FieldName.text (n : FieldName) : List Char :=
  '"' :: n.key ++ ['"', ':']

def FilterField.text (f : FilterField) : List Char :=
  f.name.text ++ f.value

/-- The fields which are set, in the order in which they are written. -/
def filterFields (f : Filter) : List FilterField :=
  (if f.kinds ≠ [] then [.kinds f.kinds] else []) ++
    (if f.authors ≠ [] then [.authors f.authors] else []) ++
    (if f.dTags ≠ [] then [.dTags f.dTags] else []) ++
    (if f.pTags ≠ [] then [.pTags f.pTags] else []) ++
    (if f.since > 0 then [.since f.since] else []) ++
    (if f.limit > 0 then [.limit f.limit] else [])

/-- `["REQ",` and `["CLOSE",` -/
def kReq : List Char := ['[', '"', 'R', 'E', 'Q', '"', ',']

def kClose : List Char := ['[', '"', 'C', 'L', 'O', 'S', 'E', '"', ',']

def buildReqJson (subId : String) (f : Filter) : List Char :=
  kReq ++ appendString subId ++ [',', '{'] ++ joinComma ((filterFields f).map FilterField.text) ++
    ['}', ']']

def buildCloseJson (subId : String) : List Char :=
  kClose ++ appendString subId ++ [']']

end RequestFrame

open RequestFrame

def RelayMessage.text : RelayMessage → List Char
  | .req subId filter => buildReqJson subId filter
  | .close subId => buildCloseJson subId

namespace RequestFrame

/-! ### Reading back -/

theorem stringBody_escape (c : Char) (rest : List Char) :
    stringBody (escape c ++ rest) =
      (stringBody rest).map fun (body, rest) => (c :: body, rest) := by
  rw [escape]
  split_ifs with h
  · rcases h with rfl | rfl <;> simp [stringBody, unescape]
  · rw [not_or] at h
    rw [List.singleton_append, stringBody]
    · exact h.1
    · rintro - - - - - rfl
      exact absurd rfl h.2
    · rintro - - rfl
      exact absurd rfl h.2
    · rintro rfl
      exact absurd rfl h.2

theorem stringBody_escaped (cs rest : List Char) :
    stringBody (cs.flatMap escape ++ '"' :: rest) = some (cs, rest) := by
  induction cs with
  | nil => rfl
  | cons c cs ih =>
      rw [List.flatMap_cons, List.append_assoc, stringBody_escape, ih]
      rfl

theorem selfDelimiting_appendString : SelfDelimiting appendString := by
  refine SelfDelimiting.of_read fun s rest => (?_ : parseString _ = _)
  have hbody := stringBody_escaped s.toList rest
  simp [parseString, appendString, hbody]

theorem selfDelimiting_appendStringArray : SelfDelimiting appendStringArray := by
  have hitems := (selfDelimiting_appendString.delimitedBy fun c => c = ',' ∨ c = ']').separated
    (by decide) fun a => ⟨'"', _, rfl, by decide⟩
  intro a b rest rest' heq
  exact hitems a b rest rest' (List.cons.inj heq).2

theorem delimitedBy_appendUint {close : Char} (h : isDigit close = false) :
    DelimitedBy (fun c => c = ',' ∨ c = close) appendUint := by
  refine .of_notMem (fun a b hab => ?_) fun n c hc hstop => ?_
  · rw [← digitsValue_appendUint a, hab, digitsValue_appendUint]
  · have hdigit := isDigit_of_mem_appendUint hc
    rcases hstop with rfl | rfl
    · cases hdigit
    · rw [h] at hdigit
      cases hdigit

theorem exists_cons_appendUint (n : ℕ) :
    ∃ c cs, appendUint n = c :: cs ∧ isDigit c = true := by
  have hne : appendUint n ≠ [] := Nat.toDigits_ne_nil
  obtain ⟨c, cs, h⟩ := List.exists_cons_of_ne_nil hne
  have hmem : c ∈ appendUint n := h ▸ List.mem_cons_self
  exact ⟨c, cs, h, isDigit_of_mem_appendUint hmem⟩

theorem selfDelimiting_kinds : SelfDelimiting fun kinds : List UInt32 =>
    '[' :: joinComma (kinds.map fun k => appendUint k.toNat) ++ [']'] := by
  have hkind : DelimitedBy (fun c => c = ',' ∨ c = ']') fun k : UInt32 => appendUint k.toNat := by
    intro a b c d rest rest' hc hd heq
    obtain ⟨hab, hrest⟩ := delimitedBy_appendUint (by decide) _ _ c d rest rest' hc hd heq
    exact ⟨UInt32.toNat_inj.mp hab, hrest⟩
  have hitems := hkind.separated (by decide) fun a => by
    obtain ⟨c, cs, h, hdigit⟩ := exists_cons_appendUint a.toNat
    refine ⟨c, cs, h, ?_⟩
    rintro rfl
    cases hdigit
  intro a b rest rest' heq
  exact hitems a b rest rest' (List.cons.inj heq).2

theorem selfDelimiting_fieldName : SelfDelimiting FieldName.text := by
  refine SelfDelimiting.of_prefixFree fun a b => ?_
  cases a <;> cases b <;> decide

/-- The stops behind a field are the comma and the closing brace. -/
theorem delimitedBy_field : DelimitedBy (fun c => c = ',' ∨ c = '}') FilterField.text := by
  intro a b c d rest rest' hc hd heq
  rw [FilterField.text, FilterField.text, List.append_assoc, List.append_assoc] at heq
  obtain ⟨hname, hvalue⟩ := selfDelimiting_fieldName _ _ _ _ heq
  have harray (v w : List String)
      (h : appendStringArray v ++ c :: rest = appendStringArray w ++ d :: rest') :=
    selfDelimiting_appendStringArray v w _ _ h
  have huint (m n : ℕ) (h : appendUint m ++ c :: rest = appendUint n ++ d :: rest') :=
    delimitedBy_appendUint (by decide) m n c d rest rest' hc hd h
  cases a with
  | kinds v =>
      cases b <;> cases hname
      rename_i w
      obtain ⟨rfl, hrest⟩ := selfDelimiting_kinds v w _ _ hvalue
      exact ⟨rfl, hrest⟩
  | authors v =>
      cases b <;> cases hname
      rename_i w
      obtain ⟨rfl, hrest⟩ := harray v w hvalue
      exact ⟨rfl, hrest⟩
  | dTags v =>
      cases b <;> cases hname
      rename_i w
      obtain ⟨rfl, hrest⟩ := harray v w hvalue
      exact ⟨rfl, hrest⟩
  | pTags v =>
      cases b <;> cases hname
      rename_i w
      obtain ⟨rfl, hrest⟩ := harray v w hvalue
      exact ⟨rfl, hrest⟩
  | since v =>
      cases b <;> cases hname
      rename_i w
      obtain ⟨hnat, hrest⟩ := huint v.toNat w.toNat hvalue
      exact ⟨congrArg _ (UInt64.toNat_inj.mp hnat), hrest⟩
  | limit v =>
      cases b <;> cases hname
      rename_i w
      obtain ⟨rfl, hrest⟩ := huint v w hvalue
      exact ⟨rfl, hrest⟩

/-- A filter with one more field. -/
def setField (f : Filter) : FilterField → Filter
  | .kinds v => { f with kinds := v }
  | .authors v => { f with authors := v }
  | .dTags v => { f with dTags := v }
  | .pTags v => { f with pTags := v }
  | .since v => { f with since := v }
  | .limit v => { f with limit := v }

theorem foldl_setField_ite (acc : Filter) (m : FilterField) {p : Prop} [Decidable p]
    (h : ¬ p → setField acc m = acc) :
    (if p then [m] else []).foldl setField acc = setField acc m := by
  split_ifs with hp
  · rfl
  · exact (h hp).symm

/-- The fields which are left out have their defaults. -/
theorem foldl_setField_filterFields (f : Filter) : (filterFields f).foldl setField {} = f := by
  simp only [filterFields, List.foldl_append]
  rw [foldl_setField_ite _ (.kinds f.kinds), foldl_setField_ite _ (.authors f.authors),
    foldl_setField_ite _ (.dTags f.dTags), foldl_setField_ite _ (.pTags f.pTags),
    foldl_setField_ite _ (.since f.since), foldl_setField_ite _ (.limit f.limit)]
  · rfl
  · intro h
    simp [setField, Nat.eq_zero_of_not_pos h]
  · intro h
    have hzero : f.since = 0 :=
      UInt64.toNat_inj.mp (Nat.eq_zero_of_not_pos fun hpos => h (UInt64.lt_iff_toNat_lt.mpr hpos))
    simp [setField, hzero]
  all_goals
    intro h
    simp [setField, not_not.mp h]

theorem selfDelimiting_fields : SelfDelimiting fun f : Filter =>
    joinComma ((filterFields f).map FilterField.text) ++ ['}'] := by
  intro f g rest rest' heq
  obtain ⟨hfields, hrest⟩ := delimitedBy_field.separated (by decide)
    (fun m => ⟨'"', _, rfl, by decide⟩) _ _ rest rest' heq
  rw [← foldl_setField_filterFields f, hfields, foldl_setField_filterFields]
  exact ⟨rfl, hrest⟩

theorem selfDelimiting_buildReqJson :
    SelfDelimiting fun m : String × Filter => buildReqJson m.1 m.2 := by
  have hbody := (selfDelimiting_appendString.pair selfDelimiting_fields [',', '{']).enclose
    kReq [']']
  intro m m' rest rest' heq
  refine hbody m m' rest rest' ?_
  simpa only [buildReqJson, List.append_assoc, List.cons_append, List.nil_append] using heq

theorem selfDelimiting_buildCloseJson : SelfDelimiting buildCloseJson := by
  have hbody := selfDelimiting_appendString.enclose kClose [']']
  intro m m' rest rest' heq
  refine hbody m m' rest rest' ?_
  simpa only [buildCloseJson, List.append_assoc] using heq

theorem req_ne_close (subId subId' : String) (f : Filter) :
    buildReqJson subId f ≠ buildCloseJson subId' := by
  simp [buildReqJson, buildCloseJson, kReq, kClose]

end RequestFrame

/-- What a relay gets tells it the subscription and the whole of its filter. -/
theorem RelayMessage.text_injective : Function.Injective RelayMessage.text := by
  intro m m' heq
  cases m with
  | req subId filter =>
      cases m' with
      | req subId' filter' =>
          have hpair : (subId, filter) = (subId', filter') :=
            selfDelimiting_buildReqJson.injective heq
          obtain ⟨rfl, rfl⟩ := Prod.mk.inj hpair
          rfl
      | close subId' => exact absurd heq (req_ne_close subId subId' filter)
  | close subId =>
      cases m' with
      | req subId' filter' => exact absurd heq.symm (req_ne_close subId' subId filter')
      | close subId' =>
          obtain rfl := selfDelimiting_buildCloseJson.injective heq
          rfl

/-! ### JSON texts -/

namespace RequestFrame

/-- A string without control characters. -/
def Printable (s : String) : Prop :=
  ∀ c ∈ s.toList, 0x20 ≤ c.toNat

theorem stringText_appendString {s : String} (h : Printable s) :
    StringText true s.toList (appendString s) := by
  refine ⟨s.toList.flatMap escape, ?_, rfl⟩
  have hbody (cs : List Char) (hcs : ∀ c ∈ cs, 0x20 ≤ c.toNat) :
      BodyText true cs (cs.flatMap escape) := by
    induction cs with
    | nil => exact .nil
    | cons c cs ih =>
        have hrest := ih fun d hd => hcs d (List.mem_cons_of_mem c hd)
        rw [List.flatMap_cons, escape]
        split_ifs with hc
        · rcases hc with rfl | rfl
          · exact .short (by decide) hrest
          · exact .short (by decide) hrest
        · rw [not_or] at hc
          exact .raw (hcs c List.mem_cons_self) hc.1 hc.2 hrest
  exact hbody s.toList h

theorem head?_appendUint {n : ℕ} (h : 0 < n) : (appendUint n).head? ≠ some '0' := by
  induction n using Nat.strongRecOn with
  | ind n ih =>
      rcases Nat.lt_or_ge n 10 with hlt | hge
      · rw [appendUint, Nat.toDigits_of_lt_base hlt]
        interval_cases n <;> decide
      · have hpos : 0 < n / 10 := Nat.div_pos hge (by decide)
        obtain ⟨c, cs, hcons, -⟩ := exists_cons_appendUint (n / 10)
        have hhead := ih (n / 10) (Nat.div_lt_self h (by decide)) hpos
        rw [appendUint, Nat.toDigits_of_base_le (by decide) hge]
        rw [appendUint] at hcons hhead
        rw [hcons] at hhead ⊢
        exact hhead

theorem text_appendUint (n : ℕ) : Text .value (appendUint n) := by
  have hdigits : Digits (appendUint n) :=
    ⟨Nat.toDigits_ne_nil, fun c hc => of_decide_eq_true (isDigit_of_mem_appendUint hc)⟩
  have hzero : (appendUint n).head? ≠ some '0' ∨ appendUint n = ['0'] := by
    rcases Nat.eq_zero_or_pos n with rfl | hpos
    · exact .inr rfl
    · exact .inl (head?_appendUint hpos)
  have hnumber := @NumberText.mk false _ [] [] [] 0 hdigits hzero .none .none
  exact .number (by simpa using hnumber)

theorem text_array {α : Type} {text : α → List Char} {as : List α}
    (h : ∀ a ∈ as, Text .value (text a)) :
    Text .value ('[' :: joinComma (as.map text) ++ [']']) := by
  cases as with
  | nil => exact .emptyArray white_nil
  | cons a as =>
      have hitems : Separated (fun a t => t = text a ∧ Text .value t) (a :: as)
          (joinComma ((a :: as).map text)) :=
        separated_joinComma text a as fun b hb => ⟨rfl, h b hb⟩
      exact .array (hitems.text fun b t ht => ht.2)

/-- The strings of a filter. -/
def strings (f : Filter) : List String :=
  f.authors ++ f.dTags ++ f.pTags

theorem text_value {f : Filter} (h : ∀ s ∈ strings f, Printable s) {m : FilterField}
    (hm : m ∈ filterFields f) : Text .value m.value := by
  have harray (v : List String) (hv : ∀ s ∈ v, s ∈ strings f) :
      Text .value (appendStringArray v) :=
    text_array fun s hs => .string (stringText_appendString (h s (hv s hs)))
  cases m with
  | kinds v => exact text_array fun k _ => text_appendUint k.toNat
  | authors v =>
      obtain ⟨-, rfl⟩ : f.authors ≠ [] ∧ v = f.authors := by simpa [filterFields] using hm
      exact harray f.authors fun s hs => by simp [strings, hs]
  | dTags v =>
      obtain ⟨-, rfl⟩ : f.dTags ≠ [] ∧ v = f.dTags := by simpa [filterFields] using hm
      exact harray f.dTags fun s hs => by simp [strings, hs]
  | pTags v =>
      obtain ⟨-, rfl⟩ : f.pTags ≠ [] ∧ v = f.pTags := by simpa [filterFields] using hm
      exact harray f.pTags fun s hs => by simp [strings, hs]
  | since v => exact text_appendUint v.toNat
  | limit v => exact text_appendUint v

theorem stringText_key (n : FieldName) : StringText true n.key ('"' :: n.key ++ ['"']) := by
  refine stringText_raw true _ ?_
  cases n <;> decide

/-- The members of an object without white space. -/
theorem text_members {m : FilterField} {ms : List FilterField}
    (h : ∀ f ∈ m :: ms, Text .value f.value) :
    Text .members (joinComma ((m :: ms).map FilterField.text)) := by
  induction ms generalizing m with
  | nil =>
      have hone := Text.member white_nil (stringText_key m.name) white_nil white_nil
        (h m List.mem_cons_self) white_nil
      simpa [FilterField.text, FieldName.text, joinComma_singleton] using hone
  | cons n ms ih =>
      have hmore := Text.members white_nil (stringText_key m.name) white_nil white_nil
        (h m List.mem_cons_self) white_nil (ih fun f hf => h f (List.mem_cons_of_mem m hf))
      rw [List.map_cons, List.map_cons, joinComma_cons_cons, ← List.map_cons]
      simpa [FilterField.text, FieldName.text] using hmore

theorem text_object {f : Filter} (h : ∀ s ∈ strings f, Printable s) :
    Text .value ('{' :: joinComma ((filterFields f).map FilterField.text) ++ ['}']) := by
  have hvalues : ∀ m ∈ filterFields f, Text .value m.value := fun m hm => text_value h hm
  cases hfields : filterFields f with
  | nil => exact .emptyObject white_nil
  | cons m ms =>
      rw [hfields] at hvalues
      exact .object (text_members hvalues)

end RequestFrame

/-- No string of the message has a control character. -/
def RelayMessage.Printable : RelayMessage → Prop
  | .req subId filter =>
      RequestFrame.Printable subId ∧ ∀ s ∈ strings filter, RequestFrame.Printable s
  | .close subId => RequestFrame.Printable subId

/-- What a relay gets is a JSON text, and tells it the subscription and the whole of its
filter. -/
theorem RelayMessage.text_json_injective :
    Function.Injective RelayMessage.text ∧
      ∀ m : RelayMessage, m.Printable → Text .value m.text := by
  refine ⟨RelayMessage.text_injective, fun m h => ?_⟩
  have hname (s : List Char)
      (hs : s.all (fun c => 0x20 ≤ c.toNat && c != '"' && c != '\\') = true) :
      Text .value ('"' :: s ++ ['"']) :=
    .string (stringText_raw true s hs)
  have hlast {t : List Char} (ht : Text .value t) : Text .items t := by
    simpa using Text.item white_nil ht white_nil
  have hitems {t ts : List Char} (ht : Text .value t) (hts : Text .items ts) :
      Text .items (t ++ ',' :: ts) := by
    simpa using Text.items white_nil ht white_nil hts
  cases m with
  | req subId filter =>
      have htext := Text.array (hitems (hname ['R', 'E', 'Q'] (by decide))
        (hitems (.string (stringText_appendString h.1)) (hlast (text_object h.2))))
      simpa [text, buildReqJson, kReq] using htext
  | close subId =>
      have htext := Text.array (hitems (hname ['C', 'L', 'O', 'S', 'E'] (by decide))
        (hlast (.string (stringText_appendString h))))
      simpa [text, buildCloseJson, kClose] using htext

theorem RelayMessage.text_json_zaps :
    Text .value
      (RelayMessage.text (.req "zap-0" { kinds := [9735], pTags := ["ab", "cd"], limit := 1 })) := by
  refine RelayMessage.text_json_injective.2 _ ⟨?_, fun s hs => ?_⟩
  · simp [RequestFrame.Printable]
  · have hmem : s = "ab" ∨ s = "cd" := by simpa [strings] using hs
    rcases hmem with rfl | rfl <;> simp [RequestFrame.Printable]

end Nostr

end BtClock
