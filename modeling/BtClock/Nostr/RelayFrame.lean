import BtClock.Nostr.EventVerify
import BtClock.Nostr.Parser

/-!
# The frame of an event

A relay sends an event as an object with seven members, written without white space.  The
walker reads back exactly the event, for all strings in it, as long as its two numbers
survive the way through a double.
-/

namespace BtClock

namespace Nostr

open JsonEmit JsonWalker

/-! ### Strings -/

/-- A character is written as it stands, or as an escape which stands for it. -/
theorem escapeChar_cases (c : Char) :
    escapeChar c = [c] ∧ c ≠ '"' ∧ c ≠ '\\' ∨
      ∃ e, escapeChar c = ['\\', e] ∧ e ≠ 'u' ∧ unescape e = some c := by
  unfold escapeChar
  by_cases hquote : c = '"'
  · subst hquote
    exact Or.inr ⟨'"', rfl, by decide, rfl⟩
  rw [if_neg hquote]
  by_cases hslash : c = '\\'
  · subst hslash
    exact Or.inr ⟨'\\', rfl, by decide, rfl⟩
  rw [if_neg hslash]
  by_cases hn : c = '\n'
  · subst hn
    exact Or.inr ⟨'n', rfl, by decide, rfl⟩
  rw [if_neg hn]
  by_cases hr : c = '\r'
  · subst hr
    exact Or.inr ⟨'r', rfl, by decide, rfl⟩
  rw [if_neg hr]
  by_cases ht : c = '\t'
  · subst ht
    exact Or.inr ⟨'t', rfl, by decide, rfl⟩
  rw [if_neg ht]
  by_cases hb : c = Char.ofNat 8
  · subst hb
    exact Or.inr ⟨'b', rfl, by decide, rfl⟩
  rw [if_neg hb]
  by_cases hf : c = Char.ofNat 12
  · subst hf
    exact Or.inr ⟨'f', rfl, by decide, rfl⟩
  rw [if_neg hf]
  exact Or.inl ⟨rfl, hquote, hslash⟩

theorem stringBody_escapeChar (c : Char) (rest : List Char) :
    stringBody (escapeChar c ++ rest) =
      (stringBody rest).map fun (body, rest) => (c :: body, rest) := by
  rcases escapeChar_cases c with ⟨htext, hquote, hslash⟩ | ⟨e, htext, hu, he⟩
  · rw [htext, List.singleton_append, stringBody]
    · exact hquote
    · rintro - - - - - rfl
      exact absurd rfl hslash
    · rintro - - rfl
      exact absurd rfl hslash
    · rintro rfl
      exact absurd rfl hslash
  · rw [htext, List.cons_append, List.singleton_append, stringBody]
    · simp only [he]
    · rintro - - - - - rfl
      exact absurd rfl hu

theorem stringBody_escaped (cs rest : List Char) :
    stringBody (cs.flatMap escapeChar ++ '"' :: rest) = some (cs, rest) := by
  induction cs with
  | nil => rfl
  | cons c cs ih =>
      rw [List.flatMap_cons, List.append_assoc, stringBody_escapeChar, ih]
      rfl

/-- A string literal is read back. -/
theorem parseString_appendString (s : String) (rest : List Char) :
    parseString (appendString s ++ rest) = some (s, rest) := by
  have hbody := stringBody_escaped s.toList rest
  simp [parseString, appendString, hbody]

/-! ### Numbers -/

theorem digitsValue_appendUint (n : ℕ) : digitsValue (appendUint n) = n := by
  have h := Nat.ofDigitChars_ten_toDigits (n := n)
  simp only [Nat.ofDigitChars] at h
  have hstep : (fun v c => v * 10 + digitValue c) =
      fun v (c : Char) => 10 * v + (c.toNat - '0'.toNat) := by
    funext v c
    rw [digitValue, Nat.mul_comm]
  rw [digitsValue, appendUint, hstep]
  exact h

theorem isDigit_of_mem_appendUint {n : ℕ} {c : Char} (h : c ∈ appendUint n) :
    isDigit c = true := by
  have hdigit := Nat.isDigit_of_mem_toDigits (by decide) (by decide) h
  simpa [isDigit, Char.isDigit, Char.le_def, UInt32.le_iff_toNat_le] using hdigit

/-- A member ends at a comma or at the closing brace. -/
def EndsMember (c : Char) : Prop :=
  c = ',' ∨ c = '}'

theorem parseNumber_appendUint (n : ℕ) {c : Char} (hc : EndsMember c) (rest : List Char) :
    parseNumber (appendUint n ++ c :: rest) =
      some (Float.ofScientific n false 0, c :: rest) := by
  have hall : ∀ d ∈ appendUint n, isDigit d = true := fun d => isDigit_of_mem_appendUint
  have hend : isDigit c = false := by rcases hc with rfl | rfl <;> decide
  have hsign : takeSign (appendUint n ++ c :: rest) = (false, appendUint n ++ c :: rest) := by
    cases hdigits : appendUint n with
    | nil => rcases hc with rfl | rfl <;> rfl
    | cons d ds =>
        have hd : isDigit d = true := hall d (hdigits ▸ List.mem_cons_self)
        rw [List.cons_append, takeSign]
        · intro ds' h
          obtain ⟨rfl, -⟩ := List.cons.inj h
          cases hd
        · intro ds' h
          obtain ⟨rfl, -⟩ := List.cons.inj h
          cases hd
  have htake : (appendUint n ++ c :: rest).takeWhile isDigit = appendUint n := by
    rw [List.takeWhile_append_of_pos hall]
    simp [hend]
  have hdrop : (appendUint n ++ c :: rest).dropWhile isDigit = c :: rest := by
    rw [List.dropWhile_append_of_pos hall]
    simp [hend]
  have hfraction : takeFraction (c :: rest) = ([], c :: rest) := by
    rcases hc with rfl | rfl <;> rfl
  have hexponent : takeExponent (c :: rest) = ((false, 0), c :: rest) := by
    rcases hc with rfl | rfl <;> rfl
  have hne : appendUint n ≠ [] := Nat.toDigits_ne_nil
  simp only [parseNumber, hsign, htake, hdrop, hfraction, hexponent]
  simp [hne, digitsValue_appendUint]

/-! ### Arrays -/

theorem skipWs_cons {c : Char} (h : isWs c = false) (rest : List Char) :
    skipWs (c :: rest) = c :: rest := by
  simp [skipWs, h]

theorem joinComma_cons_cons (x y : List Char) (items : List (List Char)) :
    joinComma (x :: y :: items) = x ++ ',' :: joinComma (y :: items) := by
  simp [joinComma]

theorem joinComma_singleton (x : List Char) : joinComma [x] = x := by
  simp [joinComma]

theorem length_lt_joinComma (x : List Char) (items : List (List Char))
    (h : ∀ y ∈ x :: items, y ≠ []) : items.length < (joinComma (x :: items)).length := by
  have hx : 0 < x.length := List.length_pos_iff.mpr (h x List.mem_cons_self)
  induction items generalizing x with
  | nil => simpa [joinComma_singleton] using hx
  | cons y items ih =>
      have hy : ∀ z ∈ y :: items, z ≠ [] := fun z hz => h z (List.mem_cons_of_mem x hz)
      have hlen := ih y hy (List.length_pos_iff.mpr (hy y List.mem_cons_self))
      rw [joinComma_cons_cons]
      simp only [List.length_append, List.length_cons]
      omega

/-- `item` reads back what `text` writes. -/
structure ReadsBack {α : Type} (item : List Char → Option (α × List Char))
    (text : α → List Char) : Prop where
  reads : ∀ a rest, item (text a ++ rest) = some (a, rest)
  head : ∀ a, ∃ c cs, text a = c :: cs ∧ isWs c = false ∧ c ≠ ']'

section

variable {α : Type} {item : List Char → Option (α × List Char)} {text : α → List Char}

theorem ReadsBack.joinComma_head (h : ReadsBack item text) (a : α) (as : List α)
    (rest : List Char) :
    ∃ c cs, joinComma ((a :: as).map text) ++ rest = c :: cs ∧ isWs c = false ∧ c ≠ ']' := by
  obtain ⟨c, cs, hc, hws, hne⟩ := h.head a
  cases as with
  | nil => exact ⟨c, cs ++ rest, by simp [joinComma, hc], hws, hne⟩
  | cons b bs =>
      refine ⟨c, cs ++ (',' :: joinComma ((b :: bs).map text) ++ rest), ?_, hws, hne⟩
      rw [List.map_cons, List.map_cons, joinComma_cons_cons, hc]
      simp

theorem ReadsBack.itemLoop (h : ReadsBack item text) (a : α) (as : List α) {fuel : ℕ}
    (hfuel : as.length < fuel) (rest : List Char) :
    itemLoop item fuel (joinComma ((a :: as).map text) ++ ']' :: rest) =
      some (a :: as, rest) := by
  induction as generalizing a fuel with
  | nil =>
      obtain ⟨fuel, rfl⟩ := Nat.exists_eq_succ_of_ne_zero (Nat.ne_of_gt hfuel)
      have hskip : skipWs (']' :: rest) = ']' :: rest := skipWs_cons rfl rest
      simp [JsonWalker.itemLoop, joinComma_singleton, h.reads, hskip]
  | cons b bs ih =>
      obtain ⟨fuel, rfl⟩ := Nat.exists_eq_succ_of_ne_zero (Nat.ne_of_gt (Nat.zero_lt_of_lt hfuel))
      have hloop := ih b (Nat.lt_of_succ_lt_succ hfuel)
      obtain ⟨c, cs, hc, hws, -⟩ := h.joinComma_head b bs (']' :: rest)
      have hcomma (s : List Char) : skipWs (',' :: s) = ',' :: s := skipWs_cons rfl s
      rw [hc] at hloop
      rw [List.map_cons, List.map_cons, joinComma_cons_cons, List.append_assoc,
        List.cons_append, ← List.map_cons, hc]
      simp [JsonWalker.itemLoop, h.reads, hcomma, skipWs_cons hws, hloop]

/-- An array without white space is read back. -/
theorem ReadsBack.parseArray (h : ReadsBack item text) (as : List α) (rest : List Char) :
    parseArray item ('[' :: joinComma (as.map text) ++ ']' :: rest) = some (as, rest) := by
  cases as with
  | nil =>
      have hskip : skipWs (']' :: rest) = ']' :: rest := skipWs_cons rfl rest
      simp [JsonWalker.parseArray, expect, joinComma, hskip]
  | cons a as =>
      obtain ⟨c, cs, hc, hws, hne⟩ := h.joinComma_head a as (']' :: rest)
      have hfuel : as.length < (c :: cs).length := by
        have hne : ∀ y ∈ (a :: as).map text, y ≠ [] := by
          intro y hy hnil
          obtain ⟨b, -, rfl⟩ := List.mem_map.mp hy
          obtain ⟨d, ds, hd, -, -⟩ := h.head b
          rw [hd] at hnil
          cases hnil
        have hlen := length_lt_joinComma (text a) (as.map text) hne
        rw [← hc, List.length_append, List.map_cons]
        simp only [List.length_map] at hlen
        omega
      have hloop := h.itemLoop a as hfuel rest
      rw [hc] at hloop
      rw [List.cons_append, hc]
      simp only [JsonWalker.parseArray, expect, if_true, skipWs_cons hws, Option.bind_eq_bind,
        Option.bind_some]
      split
      · simp_all
      · exact hloop

end

/-- The text of a tag. -/
def tagText (t : Tag) : List Char :=
  '[' :: joinComma (t.values.map appendString) ++ [']']

theorem readsBack_appendString : ReadsBack parseString appendString where
  reads := parseString_appendString
  head s := ⟨'"', _, rfl, rfl, by decide⟩

theorem parseTag_tagText (t : Tag) (rest : List Char) :
    parseTag (tagText t ++ rest) = some (t, rest) := by
  have h := readsBack_appendString.parseArray t.values rest
  rw [tagText, List.append_assoc, parseTag, List.singleton_append, h]
  rfl

theorem readsBack_tagText : ReadsBack parseTag tagText where
  reads := parseTag_tagText
  head t := ⟨'[', _, rfl, rfl, by decide⟩

def tagsText (tags : List Tag) : List Char :=
  '[' :: joinComma (tags.map tagText) ++ [']']

theorem parseTags_tagsText (tags : List Tag) (rest : List Char) :
    parseTags (tagsText tags ++ rest) = some (tags, rest) := by
  have h := readsBack_tagText.parseArray tags rest
  rwa [tagsText, List.append_assoc, parseTags, List.singleton_append]

/-! ### The object -/

/-- A member of the object: its key, the text of its value, and what it does to the event. -/
structure Member where
  key : String
  text : List Char
  update : Event → Event

def Member.full (m : Member) : List Char :=
  appendString m.key ++ ':' :: m.text

/-- The walker reads the member as it is meant. -/
structure Member.Reads (m : Member) : Prop where
  head : ∃ c cs, m.text = c :: cs ∧ isWs c = false
  field : ∀ ev c rest, EndsMember c →
    parseField ev m.key (m.text ++ c :: rest) = some (m.update ev, c :: rest)

def members (ev : Event) : List Member :=
  [{ key := "id", text := appendString ev.id, update := fun e => { e with id := ev.id } },
    { key := "pubkey"
      text := appendString ev.pubkey
      update := fun e => { e with pubkey := ev.pubkey } },
    { key := "created_at"
      text := appendUint ev.createdAt.toNat
      update := fun e => { e with createdAt := ev.createdAt } },
    { key := "kind"
      text := appendUint ev.kind.toNat
      update := fun e => { e with kind := ev.kind } },
    { key := "tags", text := tagsText ev.tags, update := fun e => { e with tags := ev.tags } },
    { key := "content"
      text := appendString ev.content
      update := fun e => { e with content := ev.content } },
    { key := "sig", text := appendString ev.sig, update := fun e => { e with sig := ev.sig } }]

theorem fieldLoop_full {m : Member} (h : m.Reads) (ev : Event) {c : Char}
    (hc : EndsMember c) (fuel : ℕ) (rest : List Char) :
    fieldLoop (fuel + 1) ev (m.full ++ c :: rest) =
      if c = ',' then fieldLoop fuel (m.update ev) (skipWs rest) else some (m.update ev) := by
  obtain ⟨d, ds, hd, hws⟩ := h.head
  have hcolon (s : List Char) : skipWs (':' :: s) = ':' :: s := skipWs_cons rfl s
  have hend : skipWs (c :: rest) = c :: rest := by
    rcases hc with rfl | rfl <;> exact skipWs_cons rfl rest
  have hfield := h.field ev c rest hc
  rw [hd, List.cons_append] at hfield
  rw [Member.full, List.append_assoc, List.cons_append, hd, List.cons_append, fieldLoop,
    parseString_appendString]
  rcases hc with rfl | rfl <;> simp [hcolon, expect, skipWs_cons hws, hfield, hend]

theorem joinComma_full_head (m : Member) (ms : List Member) :
    ∃ cs, joinComma ((m :: ms).map Member.full) = '"' :: cs := by
  cases ms with
  | nil => exact ⟨_, joinComma_singleton m.full⟩
  | cons m' ms =>
      rw [List.map_cons, List.map_cons, joinComma_cons_cons]
      exact ⟨_, rfl⟩

theorem fieldLoop_members (m : Member) (ms : List Member) (h : ∀ m' ∈ m :: ms, m'.Reads)
    (ev : Event) {fuel : ℕ} (hfuel : ms.length < fuel) (rest : List Char) :
    fieldLoop fuel ev (joinComma ((m :: ms).map Member.full) ++ '}' :: rest) =
      some ((m :: ms).foldl (fun e m' => m'.update e) ev) := by
  have hm := h m List.mem_cons_self
  obtain ⟨fuel, rfl⟩ := Nat.exists_eq_succ_of_ne_zero (Nat.ne_of_gt (Nat.zero_lt_of_lt hfuel))
  induction ms generalizing ev m fuel with
  | nil =>
      rw [List.map_singleton, joinComma_singleton, fieldLoop_full hm ev (Or.inr rfl)]
      rfl
  | cons m' ms ih =>
      have hms : ∀ m'' ∈ m' :: ms, m''.Reads := fun m'' h'' => h m'' (List.mem_cons_of_mem m h'')
      have hlt := Nat.lt_of_succ_lt_succ hfuel
      obtain ⟨fuel, rfl⟩ := Nat.exists_eq_succ_of_ne_zero (Nat.ne_of_gt (Nat.zero_lt_of_lt hlt))
      have hquote : skipWs (joinComma ((m' :: ms).map Member.full) ++ '}' :: rest) =
          joinComma ((m' :: ms).map Member.full) ++ '}' :: rest := by
        obtain ⟨cs, hcs⟩ := joinComma_full_head m' ms
        rw [hcs]
        exact skipWs_cons rfl _
      rw [List.map_cons, List.map_cons, joinComma_cons_cons, List.append_assoc,
        List.cons_append, ← List.map_cons, fieldLoop_full hm ev (Or.inl rfl), if_pos rfl, hquote,
        ih m' hms (m.update ev) (hms m' List.mem_cons_self) fuel hlt]
      rfl

/-- The numbers of the event survive the way through a double. -/
structure ExactNumbers (ev : Event) : Prop where
  createdAt : (Float.ofScientific ev.createdAt.toNat false 0).toUInt64 = ev.createdAt
  kind : (Float.ofScientific ev.kind.toNat false 0).toUInt32 = ev.kind

theorem appendUint_head (n : ℕ) : ∃ c cs, appendUint n = c :: cs ∧ isWs c = false := by
  cases hdigits : appendUint n with
  | nil => exact absurd hdigits Nat.toDigits_ne_nil
  | cons c cs =>
      have hc : isDigit c = true := isDigit_of_mem_appendUint (hdigits ▸ List.mem_cons_self)
      refine ⟨c, cs, rfl, ?_⟩
      by_contra hws
      simp only [isWs, Bool.not_eq_false, Bool.or_eq_true, decide_eq_true_eq] at hws
      rcases hws with ((rfl | rfl) | rfl) | rfl <;> cases hc

theorem reads_members {ev : Event} (h : ExactNumbers ev) : ∀ m ∈ members ev, m.Reads := by
  have hstring (s : String) : ∃ c cs, appendString s = c :: cs ∧ isWs c = false :=
    ⟨'"', _, rfl, rfl⟩
  simp only [members, List.forall_mem_cons]
  refine ⟨⟨hstring _, ?_⟩, ⟨hstring _, ?_⟩, ⟨appendUint_head _, ?_⟩, ⟨appendUint_head _, ?_⟩,
    ⟨⟨'[', _, rfl, rfl⟩, ?_⟩, ⟨hstring _, ?_⟩, ⟨hstring _, ?_⟩, List.forall_mem_nil _⟩
  all_goals intro e c rest hc
  · simp [parseField, parseString_appendString]
  · simp [parseField, parseString_appendString]
  · simp [parseField, parseNumber_appendUint _ hc, h.createdAt]
  · simp [parseField, parseNumber_appendUint _ hc, h.kind]
  · simp [parseField, parseTags_tagsText]
  · simp [parseField, parseString_appendString]
  · simp [parseField, parseString_appendString]

def eventObject (ev : Event) : List Char :=
  '{' :: joinComma ((members ev).map Member.full) ++ ['}']

theorem parseEventObject_eventObject {ev : Event} (h : ExactNumbers ev) :
    parseEventObject (eventObject ev) = some ev := by
  obtain ⟨m, ms, hmembers⟩ : ∃ m ms, members ev = m :: ms := ⟨_, _, rfl⟩
  obtain ⟨cs, hcs⟩ := joinComma_full_head m ms
  have hfuel : ms.length < ('"' :: cs ++ ['}']).length := by
    have hne : ∀ y ∈ (m :: ms).map Member.full, y ≠ [] := by
      intro y hy hnil
      obtain ⟨m', -, rfl⟩ := List.mem_map.mp hy
      simp [Member.full] at hnil
    have hlen := length_lt_joinComma m.full (ms.map Member.full) hne
    rw [← List.map_cons, hcs, List.length_map] at hlen
    rw [List.length_append]
    omega
  have hfields := fieldLoop_members m ms (hmembers ▸ reads_members h) {} hfuel []
  have hupdates : (m :: ms).foldl (fun e m' => m'.update e) {} = ev := by
    rw [← hmembers]
    rfl
  have hopen : skipWs (eventObject ev) = eventObject ev := skipWs_cons rfl _
  rw [hcs, hupdates] at hfields
  rw [parseEventObject, hopen, eventObject, hmembers, hcs]
  simp only [List.cons_append, expect, if_true, Option.bind_eq_bind, Option.bind_some,
    skipWs_cons (show isWs '"' = false from rfl)]
  exact hfields

/-! ### What a value takes up -/

/-- Text which leaves the brackets as they are. -/
def Transparent (t : List Char) : Prop :=
  ∀ depth rest, skipBrackets '{' '}' depth false (t ++ rest) =
    skipBrackets '{' '}' depth false rest

theorem Transparent.append {t u : List Char} (ht : Transparent t) (hu : Transparent u) :
    Transparent (t ++ u) := by
  intro depth rest
  rw [List.append_assoc, ht, hu]

theorem transparent_of_forall {t : List Char}
    (h : ∀ c ∈ t, c ≠ '"' ∧ c ≠ '{' ∧ c ≠ '}') : Transparent t := by
  intro depth rest
  induction t with
  | nil => rfl
  | cons c t ih =>
      obtain ⟨hquote, hopen, hclose⟩ := h c List.mem_cons_self
      rw [List.cons_append, skipBrackets, if_neg hquote, if_neg hopen, if_neg hclose]
      exact ih fun d hd => h d (List.mem_cons_of_mem c hd)

theorem skipBrackets_escapeChar (depth : ℕ) (c : Char) (rest : List Char) :
    skipBrackets '{' '}' depth true (escapeChar c ++ rest) =
      skipBrackets '{' '}' depth true rest := by
  rcases escapeChar_cases c with ⟨htext, hquote, hslash⟩ | ⟨e, htext, -, -⟩
  · have hstring : (c != '"') = true := by simpa using hquote
    rw [htext, List.singleton_append, skipBrackets, hstring]
    rintro - - rfl
    exact absurd rfl hslash
  · rw [htext, List.cons_append, List.singleton_append, skipBrackets]

theorem transparent_appendString (s : String) : Transparent (appendString s) := by
  intro depth rest
  have hbody (cs : List Char) :
      skipBrackets '{' '}' depth true (cs.flatMap escapeChar ++ '"' :: rest) =
        skipBrackets '{' '}' depth false rest := by
    induction cs with
    | nil =>
        rw [List.flatMap_nil, List.nil_append, skipBrackets]
        · rfl
        · rintro - - h
          cases h
    | cons c cs ih => rw [List.flatMap_cons, List.append_assoc, skipBrackets_escapeChar, ih]
  rw [appendString, List.append_assoc, List.cons_append, skipBrackets, if_pos rfl]
  exact hbody s.toList

theorem transparent_joinComma {items : List (List Char)}
    (h : ∀ t ∈ items, Transparent t) : Transparent (joinComma items) := by
  induction items with
  | nil => exact transparent_of_forall (List.forall_mem_nil _)
  | cons t items ih =>
      have ht := h t List.mem_cons_self
      have hitems := ih fun u hu => h u (List.mem_cons_of_mem t hu)
      cases items with
      | nil => rwa [joinComma_singleton]
      | cons u items =>
          rw [joinComma_cons_cons, List.append_cons]
          exact (ht.append (transparent_of_forall (by simp))).append hitems

theorem transparent_appendUint (n : ℕ) : Transparent (appendUint n) := by
  refine transparent_of_forall fun c hc => ?_
  have hdigit := isDigit_of_mem_appendUint hc
  refine ⟨?_, ?_, ?_⟩
  all_goals
    rintro rfl
    cases hdigit

/-- An array is transparent when its items are. -/
theorem transparent_array {items : List (List Char)} (h : ∀ t ∈ items, Transparent t) :
    Transparent ('[' :: joinComma items ++ [']']) :=
  ((transparent_of_forall (t := ['[']) (by simp)).append (transparent_joinComma h)).append
    (transparent_of_forall (by simp))

theorem transparent_tagsText (tags : List Tag) : Transparent (tagsText tags) := by
  refine transparent_array fun t ht => ?_
  obtain ⟨tag, -, rfl⟩ := List.mem_map.mp ht
  refine transparent_array fun u hu => ?_
  obtain ⟨v, -, rfl⟩ := List.mem_map.mp hu
  exact transparent_appendString v

theorem transparent_members (ev : Event) :
    Transparent (joinComma ((members ev).map Member.full)) := by
  refine transparent_joinComma fun t ht => ?_
  obtain ⟨m, hm, rfl⟩ := List.mem_map.mp ht
  have htext : Transparent m.text := by
    simp only [members, List.mem_cons, List.not_mem_nil, or_false] at hm
    rcases hm with rfl | rfl | rfl | rfl | rfl | rfl | rfl
    · exact transparent_appendString _
    · exact transparent_appendString _
    · exact transparent_appendUint _
    · exact transparent_appendUint _
    · exact transparent_tagsText _
    · exact transparent_appendString _
    · exact transparent_appendString _
  have hcolon : Transparent (':' :: m.text) :=
    (transparent_of_forall (t := [':']) (by simp)).append htext
  exact (transparent_appendString m.key).append hcolon

theorem skipValue_brace (t : List Char) :
    skipValue ('{' :: t) = skipBrackets '{' '}' 1 false t := by
  have hopen : skipWs ('{' :: t) = '{' :: t := skipWs_cons rfl t
  simp only [skipValue, hopen]
  rfl

theorem skipValue_eventObject (ev : Event) (rest : List Char) :
    skipValue (eventObject ev ++ rest) = some rest := by
  have hclose : skipBrackets '{' '}' 1 false ('}' :: rest) = some rest := rfl
  rw [eventObject, List.append_assoc, List.cons_append, skipValue_brace,
    transparent_members ev 1]
  exact hclose

/-! ### The frame -/

/-- The frame in which a relay sends the event. -/
def eventFrame (subId : String) (ev : Event) : String :=
  String.ofList <|
    '[' :: appendString "EVENT" ++ ',' :: appendString subId ++ ',' :: eventObject ev ++ [']']

/-- The walker reads back the event which a relay sends. -/
theorem parseEnvelope_eventFrame (subId : String) {ev : Event} (h : ExactNumbers ev) :
    parseEnvelope (eventFrame subId ev) = some (.event subId ev) := by
  have hquote (s : String) (rest : List Char) :
      skipWs (appendString s ++ rest) = appendString s ++ rest := skipWs_cons rfl _
  have hcomma (rest : List Char) : skipWs (',' :: rest) = ',' :: rest := skipWs_cons rfl _
  have hopen (rest : List Char) : skipWs (eventObject ev ++ rest) = eventObject ev ++ rest :=
    skipWs_cons rfl _
  have hlist : skipWs (eventFrame subId ev).toList =
      '[' :: (appendString "EVENT" ++ (',' :: (appendString subId ++
        (',' :: (eventObject ev ++ [']']))))) := by
    rw [eventFrame, String.toList_ofList, List.cons_append, List.cons_append, List.cons_append]
    simp only [List.append_assoc, List.cons_append]
    exact skipWs_cons rfl _
  have htake : (eventObject ev ++ [']']).take
      ((eventObject ev ++ [']']).length - [']'].length) = eventObject ev := by
    simp
  simp only [parseEnvelope, hlist, expect, if_true, hquote, hcomma, hopen, htake,
    parseString_appendString, skipValue_eventObject, parseEventObject_eventObject h,
    Option.bind_eq_bind, Option.bind_some]
  rfl

end Nostr

end BtClock
