import BtClock.Nostr.Canonical
import BtClock.Nostr.ReadText

/-!
# The texts of an event

A relay may encode an event in many ways: the members stand in any order, with white space
between them, further members may stand among them, and a string may be escaped in many
ways.  Whatever the encoding, the walker reads the event back, but for the members in which
a character is escaped by number.
-/

namespace BtClock

namespace Nostr

open JsonText JsonWalker

/-- The members of an event object. -/
inductive Field
  | id
  | pubkey
  | createdAt
  | kind
  | tags
  | content
  | sig
  deriving DecidableEq, Repr

def Field.all : List Field :=
  [.id, .pubkey, .createdAt, .kind, .tags, .content, .sig]

def Field.name : Field → String
  | .id => "id"
  | .pubkey => "pubkey"
  | .createdAt => "created_at"
  | .kind => "kind"
  | .tags => "tags"
  | .content => "content"
  | .sig => "sig"

def TagText (numeric : Bool) (t : Tag) : List Char → Prop :=
  ArrayText (fun s => StringText numeric s.toList) t.values

/-- The texts of the value of a field. -/
def FieldText (numeric : Bool) (ev : Event) : Field → List Char → Prop
  | .id => StringText numeric ev.id.toList
  | .pubkey => StringText numeric ev.pubkey.toList
  | .createdAt => NatText ev.createdAt.toNat
  | .kind => NatText ev.kind.toNat
  | .tags => ArrayText (TagText numeric) ev.tags
  | .content => StringText numeric ev.content.toList
  | .sig => StringText numeric ev.sig.toList

/-- The texts of a field with its name, or of a further member, which is `none`.  The fields in
which escapes by number may occur are given. -/
inductive MemberText (numeric : Field → Bool) (ev : Event) : Option Field → List Char → Prop
  | field {f : Field} {k w w' t : List Char} : StringText (numeric f) f.name.toList k →
      White w → White w' → FieldText (numeric f) ev f t →
        MemberText numeric ev (some f) (k ++ (w ++ ':' :: (w' ++ t)))
  | extra {s k w w' t : List Char} : StringText true s k → (∀ f : Field, s ≠ f.name.toList) →
      White w → White w' → Text .value t →
        MemberText numeric ev none (k ++ (w ++ ':' :: (w' ++ t)))

/-- The texts of an event: each field occurs once. -/
inductive EventText (numeric : Field → Bool) (ev : Event) : List Char → Prop
  | object {w w' body : List Char} {fs : List (Option Field)} : White w → White w' →
      Separated (MemberText numeric ev) fs body → (fs.filterMap id).Perm Field.all →
        EventText numeric ev (w ++ '{' :: (body ++ '}' :: w'))

/-! ### Fields -/

/-- The two events agree on the field. -/
def Field.Agree (e ev : Event) : Field → Prop
  | .id => e.id = ev.id
  | .pubkey => e.pubkey = ev.pubkey
  | .createdAt => e.createdAt = ev.createdAt
  | .kind => e.kind = ev.kind
  | .tags => e.tags = ev.tags
  | .content => e.content = ev.content
  | .sig => e.sig = ev.sig

/-- Puts the field of `ev` into `e`. -/
def Field.copy (ev e : Event) : Field → Event
  | .id => { e with id := ev.id }
  | .pubkey => { e with pubkey := ev.pubkey }
  | .createdAt => { e with createdAt := ev.createdAt }
  | .kind => { e with kind := ev.kind }
  | .tags => { e with tags := ev.tags }
  | .content => { e with content := ev.content }
  | .sig => { e with sig := ev.sig }

theorem Field.copy_self (e : Event) (f : Field) : f.copy e e = e := by
  cases f <;> rfl

theorem Field.agree_copy (ev e : Event) (f : Field) : f.Agree (f.copy ev e) ev := by
  cases f <;> rfl

/-- The other fields stay as they are. -/
theorem Field.agree_copy_iff {f g : Field} (hne : g ≠ f) (x e ev : Event) :
    g.Agree (f.copy x e) ev ↔ g.Agree e ev := by
  cases f <;> cases g <;> first | exact Iff.rfl | exact absurd rfl hne

theorem name_ne_of_mem {v : String} (h : '\\' ∈ v.toList) (f : Field) : v ≠ f.name := by
  rintro rfl
  revert h
  cases f <;> decide

/-- A member with another name is skipped. -/
theorem parseField_extra {v : String} (h : ∀ f : Field, v ≠ f.name) (e : Event) (s : List Char) :
    parseField e v s = (skipValue s).map fun s => (e, s) := by
  have hid : v ≠ "id" := h .id
  have hpubkey : v ≠ "pubkey" := h .pubkey
  have hcreatedAt : v ≠ "created_at" := h .createdAt
  have hkind : v ≠ "kind" := h .kind
  have htags : v ≠ "tags" := h .tags
  have hcontent : v ≠ "content" := h .content
  have hsig : v ≠ "sig" := h .sig
  simp only [parseField, hid, hpubkey, hcreatedAt, hkind, htags, hcontent, hsig, if_false]

/-! ### Values -/

theorem starts_stringText {numeric : Bool} :
    Starts fun s : String => StringText numeric s.toList := by
  rintro s t ⟨body, -, rfl⟩
  exact ⟨'"', _, rfl, rfl, by decide, by decide⟩

theorem readsText_parseString :
    ReadsText parseString fun s : String => StringText false s.toList where
  starts := starts_stringText
  reads := parseString_stringText

theorem readsText_parseTag : ReadsText parseTag (TagText false) where
  starts _ t ht := starts_arrayText _ t ht
  reads ht rest := by
    rw [parseTag, readsText_parseString.parseArray ht]
    rfl

theorem text_head {t : List Char} (h : Text .value t) : ∃ c s, t = c :: s ∧ isWs c = false := by
  cases h with
  | string h =>
      obtain ⟨body, -, rfl⟩ := h
      exact ⟨'"', _, rfl, rfl⟩
  | number h =>
      obtain ⟨c, s, rfl, hc⟩ := numberText_head h
      exact ⟨c, s, rfl, (not_isWs_of_number hc).1⟩
  | null => exact ⟨'n', _, rfl, rfl⟩
  | true => exact ⟨'t', _, rfl, rfl⟩
  | false => exact ⟨'f', _, rfl, rfl⟩
  | emptyArray => exact ⟨'[', _, rfl, rfl⟩
  | array => exact ⟨'[', _, rfl, rfl⟩
  | emptyObject => exact ⟨'{', _, rfl, rfl⟩
  | object => exact ⟨'{', _, rfl, rfl⟩

theorem FieldText.text {numeric : Bool} {ev : Event} {f : Field} {t : List Char}
    (h : FieldText numeric ev f t) : Text .value t := by
  have hnat : ∀ {n : ℕ}, NatText n t → Text .value t := by
    rintro n ⟨minus, mantissa, scale, hnumber, -⟩
    exact .number hnumber
  cases f with
  | id => exact .string h.to_numeric
  | pubkey => exact .string h.to_numeric
  | createdAt => exact hnat h
  | kind => exact hnat h
  | tags =>
      exact ArrayText.text (fun _ _ htag =>
        ArrayText.text (fun _ _ hs => .string (StringText.to_numeric hs)) htag) h
  | content => exact .string h.to_numeric
  | sig => exact .string h.to_numeric

/-- The text is read as `a`. -/
def ReadAs {α : Type} (read : List Char → Option (α × List Char)) (a : α) (t : List Char) :
    Prop :=
  (∃ c s, t = c :: s ∧ isWs c = false ∧ c ≠ ']' ∧ c ≠ '}') ∧
    ∀ rest, read (t ++ rest) = some (a, rest)

theorem readsText_readAs {α : Type} (read : List Char → Option (α × List Char)) :
    ReadsText read (ReadAs read) where
  starts _ _ h := h.1
  reads h := h.2

/-- Tags are read to their end, also with escapes by number. -/
theorem exists_parseTags {numeric : Bool} {tags : List Tag} {t : List Char}
    (h : ArrayText (TagText numeric) tags t) :
    ∃ tags', ∀ rest, parseTags (t ++ rest) = some (tags', rest) := by
  have hstring : ∀ s t, StringText numeric (String.toList s) t →
      ∃ v, ReadAs parseString v t := by
    intro s t ht
    obtain ⟨v, hread, -⟩ := exists_parseString ht
    exact ⟨v, starts_stringText s t ht, hread⟩
  have htag : ∀ tag t, TagText numeric tag t → ∃ tag', ReadAs parseTag tag' t := by
    intro tag t ht
    obtain ⟨values, hvalues⟩ := ArrayText.exists_of hstring ht
    refine ⟨⟨values⟩, starts_arrayText _ t ht, fun rest => ?_⟩
    rw [parseTag, (readsText_readAs parseString).parseArray hvalues]
    rfl
  obtain ⟨tags', htags⟩ := h.exists_of htag
  exact ⟨tags', (readsText_readAs parseTag).parseArray htags⟩

section Values

variable {ev : Event}

/-- The value of a field without escapes by number is read. -/
theorem parseField_fieldText {f : Field} (hexact : f = .createdAt → ev.createdAt.toNat < 2 ^ 53)
    {t : List Char} (h : FieldText false ev f t) {c : Char} (hc : isDelimiter c = true) (e : Event)
    (rest : List Char) :
    parseField e f.name (t ++ c :: rest) = some (f.copy ev e, c :: rest) := by
  cases f with
  | id => simp [parseField, Field.name, Field.copy, parseString_stringText h]
  | pubkey => simp [parseField, Field.name, Field.copy, parseString_stringText h]
  | createdAt =>
      obtain ⟨d, hread, hd⟩ := parseNumber_natText h
      simp [parseField, Field.name, Field.copy, hread c hc, (hd (hexact rfl)).1]
  | kind =>
      have hlt : ev.kind.toNat < 2 ^ 32 := ev.kind.toNat_lt
      obtain ⟨d, hread, hd⟩ := parseNumber_natText h
      simp [parseField, Field.name, Field.copy, hread c hc, (hd (by omega)).2 hlt]
  | tags => simp [parseField, parseTags, Field.name, Field.copy, readsText_parseTag.parseArray h]
  | content => simp [parseField, Field.name, Field.copy, parseString_stringText h]
  | sig => simp [parseField, Field.name, Field.copy, parseString_stringText h]

/-- The value of a field is read whatever stands behind it, also with escapes by number. -/
theorem exists_parseField_name {numeric : Bool} {f : Field} {t : List Char}
    (h : FieldText numeric ev f t) :
    ∃ x, ∀ c, isDelimiter c = true → ∀ e rest,
      parseField e f.name (t ++ c :: rest) = some (f.copy x e, c :: rest) := by
  have hnumber : ∀ {n : ℕ}, NatText n t →
      ∃ d, ∀ c, isDelimiter c = true →
        ∀ rest, parseNumber (t ++ c :: rest) = some (d, c :: rest) := by
    rintro n hn
    obtain ⟨d, hread, -⟩ := parseNumber_natText hn
    exact ⟨d, hread⟩
  cases f with
  | id =>
      obtain ⟨v, hread, -⟩ := exists_parseString h
      exact ⟨{ id := v }, fun c _ e rest => by simp [parseField, Field.name, Field.copy, hread]⟩
  | pubkey =>
      obtain ⟨v, hread, -⟩ := exists_parseString h
      exact ⟨{ pubkey := v }, fun c _ e rest => by
        simp [parseField, Field.name, Field.copy, hread]⟩
  | createdAt =>
      obtain ⟨d, hread⟩ := hnumber h
      exact ⟨{ createdAt := d.toUInt64 }, fun c hc e rest => by
        simp [parseField, Field.name, Field.copy, hread c hc]⟩
  | kind =>
      obtain ⟨d, hread⟩ := hnumber h
      exact ⟨{ kind := d.toUInt32 }, fun c hc e rest => by
        simp [parseField, Field.name, Field.copy, hread c hc]⟩
  | tags =>
      obtain ⟨tags, hread⟩ := exists_parseTags h
      exact ⟨{ tags := tags }, fun c _ e rest => by
        simp [parseField, Field.name, Field.copy, hread]⟩
  | content =>
      obtain ⟨v, hread, -⟩ := exists_parseString h
      exact ⟨{ content := v }, fun c _ e rest => by
        simp [parseField, Field.name, Field.copy, hread]⟩
  | sig =>
      obtain ⟨v, hread, -⟩ := exists_parseString h
      exact ⟨{ sig := v }, fun c _ e rest => by simp [parseField, Field.name, Field.copy, hread]⟩

/-- A field with escapes by number is read under its own name, and skipped under another
one.  The other fields stay as they are. -/
theorem exists_parseField {numeric : Bool} {f : Field} {t : List Char}
    (h : FieldText numeric ev f t) {v : String}
    (hv : v.toList = f.name.toList ∨ '\\' ∈ v.toList) {c : Char} (hc : isDelimiter c = true)
    (e : Event) (rest : List Char) :
    ∃ x, parseField e v (t ++ c :: rest) = some (f.copy x e, c :: rest) := by
  rcases hv with hv | hv
  · obtain rfl := String.toList_injective hv
    obtain ⟨x, hread⟩ := exists_parseField_name h
    exact ⟨x, hread c hc e rest⟩
  · refine ⟨e, ?_⟩
    rw [parseField_extra (name_ne_of_mem hv), skipValue_text hc h.text, Field.copy_self]
    rfl

end Values

/-! ### Members -/

/-- What reading a member does: the event agrees with `ev` on the member's field and on all
others where it did before. -/
def Improves (numeric : Field → Bool) (ev : Event) (f : Option Field) (e e' : Event) : Prop :=
  ∀ g : Field, numeric g = false → f = some g ∨ g.Agree e ev → g.Agree e' ev

theorem starts_memberText {numeric : Field → Bool} {ev : Event} :
    Starts (MemberText numeric ev) := by
  rintro f t (⟨⟨body, -, rfl⟩⟩ | ⟨⟨body, -, rfl⟩⟩)
  · exact ⟨'"', _, rfl, rfl, by decide, by decide⟩
  · exact ⟨'"', _, rfl, rfl, by decide, by decide⟩

/-- The loop at a name, the white space around the colon and a value. -/
theorem fieldLoop_step {e e' : Event} {v : String} {k w₁ w₂ t w₃ : List Char} {c d : Char}
    {s rest : List Char} (hk : ∀ rest, parseString (k ++ rest) = some (v, rest))
    (h₁ : White w₁) (h₂ : White w₂) (ht : ∃ c s, t = c :: s ∧ isWs c = false)
    (h₃ : White w₃) (hd : EndsMember d) (hs : w₃ ++ d :: rest = c :: s)
    (hfield : parseField e v (t ++ c :: s) = some (e', c :: s)) (fuel : ℕ) :
    fieldLoop (fuel + 1) e (k ++ (w₁ ++ ':' :: (w₂ ++ t)) ++ (w₃ ++ d :: rest)) =
      if d = ',' then fieldLoop fuel e' (skipWs rest) else some e' := by
  obtain ⟨a, t, rfl, ha⟩ := ht
  have hcolon := skipWs_white_cons h₁ (show isWs ':' = false from rfl)
    (w₂ ++ (a :: t ++ c :: s))
  have hvalue := skipWs_white_cons h₂ ha (t ++ c :: s)
  have hend : skipWs (c :: s) = d :: rest := by
    rw [← hs]
    refine skipWs_white_cons h₃ ?_ rest
    rcases hd with rfl | rfl <;> rfl
  rw [List.cons_append] at hfield hcolon
  simp only [hs, List.append_assoc, List.cons_append, fieldLoop, hk, hcolon, expect, if_true,
    hvalue, hfield, hend, Option.bind_eq_bind, Option.bind_some]
  rcases hd with rfl | rfl <;> rfl

theorem EndsMember.isDelimiter {d : Char} (h : EndsMember d) : isDelimiter d = true := by
  rcases h with rfl | rfl <;> rfl

/-- Behind a value stands a delimiter. -/
theorem exists_isDelimiter {w : List Char} (hw : White w) {d : Char} (hd : isDelimiter d = true)
    (rest : List Char) : ∃ c s, w ++ d :: rest = c :: s ∧ isDelimiter c = true := by
  cases w with
  | nil => exact ⟨d, rest, rfl, hd⟩
  | cons c w =>
      have hc : isWs c = true := isWs_of_white hw List.mem_cons_self
      exact ⟨c, w ++ d :: rest, rfl, by simp [JsonWalker.isDelimiter, hc]⟩

/-- A member with any of the texts is read, which improves the event. -/
structure ReadsMember (numeric : Field → Bool) (ev : Event)
    (item : Option Field → List Char → Prop) : Prop where
  starts : Starts item
  reads : ∀ {f t}, item f t → ∀ {w}, White w → ∀ {d}, EndsMember d → ∀ e rest,
    ∃ e', Improves numeric ev f e e' ∧ ∀ fuel,
      fieldLoop (fuel + 1) e (t ++ (w ++ d :: rest)) =
        if d = ',' then fieldLoop fuel e' (skipWs rest) else some e'

section Run

variable {numeric : Field → Bool} {ev : Event} {item : Option Field → List Char → Prop}

/-- The loop reads all members. -/
theorem ReadsMember.fieldLoop (h : ReadsMember numeric ev item) {fs : List (Option Field)}
    {body : List Char} (hbody : Separated item fs body) {fuel : ℕ} (hfuel : fs.length ≤ fuel)
    (e : Event) (rest : List Char) :
    ∃ e', JsonWalker.fieldLoop fuel e (skipWs (body ++ '}' :: rest)) = some e' ∧
      ∀ g : Field, numeric g = false → some g ∈ fs ∨ g.Agree e ev → g.Agree e' ev := by
  induction hbody generalizing fuel e with
  | @one f w t w' hw ht hw' =>
      obtain ⟨fuel, rfl⟩ := Nat.exists_eq_succ_of_ne_zero (Nat.ne_of_gt hfuel)
      obtain ⟨e', himproves, hloop⟩ := h.reads ht hw' (Or.inr rfl) e rest
      refine ⟨e', ?_, fun g hg hor => himproves g hg (hor.imp_left ?_)⟩
      · rw [List.append_assoc, List.append_assoc, h.starts.skipWs_item hw ht, hloop]
        rfl
      · intro hmem
        exact (List.mem_singleton.mp hmem).symm
  | @cons f fs w t w' body hw ht hw' _ ih =>
      obtain ⟨fuel, rfl⟩ := Nat.exists_eq_succ_of_ne_zero
        (Nat.ne_of_gt (Nat.lt_of_lt_of_le (Nat.succ_pos _) hfuel))
      obtain ⟨e', himproves, hloop⟩ := h.reads ht hw' (Or.inl rfl) e (body ++ '}' :: rest)
      obtain ⟨e'', hread, hagree⟩ := ih (Nat.le_of_succ_le_succ hfuel) e'
      refine ⟨e'', ?_, fun g hg hor => hagree g hg ?_⟩
      · rw [List.append_assoc, List.append_assoc, List.append_assoc, List.cons_append,
          h.starts.skipWs_item hw ht, hloop, if_pos rfl, hread]
      · rcases hor with hmem | hg'
        · rcases List.mem_cons.mp hmem with heq | hmem
          · exact .inr (himproves g hg (.inl heq.symm))
          · exact .inl hmem
        · exact .inr (himproves g hg (.inr hg'))

/-- An object of such members is read, and agrees with `ev` on the fields which stand in it. -/
theorem ReadsMember.parseEventObject (h : ReadsMember numeric ev item) {fs : List (Option Field)}
    {body w : List Char} (hw : White w) (hbody : Separated item fs body) (rest : List Char) :
    ∃ ev', parseEventObject (w ++ '{' :: (body ++ '}' :: rest)) = some ev' ∧
      ∀ g : Field, numeric g = false → some g ∈ fs → g.Agree ev' ev := by
  obtain ⟨hlen, c, s, hc, -, hne⟩ := h.starts.skipWs_separated hbody ('}' :: rest)
  obtain ⟨ev', hread, hagree⟩ := h.fieldLoop hbody hlen {} rest
  have hopen := skipWs_white_cons hw (show isWs '{' = false from rfl) (body ++ '}' :: rest)
  refine ⟨ev', ?_, fun g hg hmem => hagree g hg (.inl hmem)⟩
  rw [hc] at hread
  simp only [JsonWalker.parseEventObject, hopen, expect, if_true, hc, Option.bind_eq_bind,
    Option.bind_some]
  split
  · rename_i heq
    exact absurd (List.cons.inj heq).1 hne
  · exact hread

/-- A further member leaves the event as it is. -/
theorem fieldLoop_extra {s k w₁ w₂ t : List Char} (hk : StringText true s k)
    (hs : ∀ f : Field, s ≠ f.name.toList) (h₁ : White w₁) (h₂ : White w₂) (ht : Text .value t)
    {w : List Char} (hw : White w) {d : Char} (hd : EndsMember d) (e : Event) (rest : List Char)
    (fuel : ℕ) :
    JsonWalker.fieldLoop (fuel + 1) e (k ++ (w₁ ++ ':' :: (w₂ ++ t)) ++ (w ++ d :: rest)) =
      if d = ',' then JsonWalker.fieldLoop fuel e (skipWs rest) else some e := by
  obtain ⟨c, s', hrest, hc⟩ := exists_isDelimiter hw hd.isDelimiter rest
  obtain ⟨v, hread, hv⟩ := exists_parseString hk
  have hname : ∀ f : Field, v ≠ f.name := by
    rcases hv with hv | hv
    · rintro f rfl
      exact hs f hv.symm
    · exact name_ne_of_mem hv
  have hfield : parseField e v (t ++ c :: s') = some (e, c :: s') := by
    rw [parseField_extra hname, skipValue_text hc ht]
    rfl
  exact fieldLoop_step hread h₁ h₂ (text_head ht) hw hd hrest hfield fuel

theorem improves_none (e : Event) : Improves numeric ev none e e := by
  rintro g - (heq | hg)
  · cases heq
  · exact hg

theorem improves_copy (f : Field) (e : Event) : Improves numeric ev (some f) e (f.copy ev e) := by
  rintro g - hor
  by_cases hne : g = f
  · exact hne ▸ Field.agree_copy ev e f
  · refine (Field.agree_copy_iff hne ev e ev).mpr (hor.resolve_left fun heq => hne ?_)
    exact (Option.some.inj heq).symm

theorem readsMember_memberText (hexact : ev.createdAt.toNat < 2 ^ 53) :
    ReadsMember numeric ev (MemberText numeric ev) where
  starts := starts_memberText
  reads := by
    intro f t h w hw d hd e rest
    obtain ⟨c, s, hs, hc⟩ := exists_isDelimiter hw hd.isDelimiter rest
    cases h with
    | @field f k w₁ w₂ t hk h₁ h₂ ht =>
        cases hf : numeric f with
        | false =>
            rw [hf] at hk ht
            exact ⟨f.copy ev e, improves_copy f e,
              fieldLoop_step (parseString_stringText hk) h₁ h₂ (text_head ht.text) hw hd hs
                (parseField_fieldText (fun _ => hexact) ht hc e s)⟩
        | true =>
            obtain ⟨v, hread, hv⟩ := exists_parseString hk
            obtain ⟨x, hfield⟩ := exists_parseField ht hv hc e s
            refine ⟨f.copy x e, ?_,
              fieldLoop_step hread h₁ h₂ (text_head ht.text) hw hd hs hfield⟩
            intro g hg hor
            have hne : g ≠ f := by
              rintro rfl
              rw [hf] at hg
              cases hg
            exact (Field.agree_copy_iff hne x e ev).mpr
              (hor.resolve_left fun heq => hne (Option.some.inj heq).symm)
    | extra hk hx h₁ h₂ ht =>
        exact ⟨e, improves_none e, fieldLoop_extra hk hx h₁ h₂ ht hw hd e rest⟩

theorem mem_of_perm_all {fs : List (Option Field)} (h : (fs.filterMap id).Perm Field.all)
    (g : Field) : some g ∈ fs := by
  have hmem : g ∈ fs.filterMap id := by
    rw [h.mem_iff]
    cases g <;> decide
  simpa using hmem

/-- The event which is read agrees with the encoded one on all fields without escapes by
number. -/
theorem exists_parseEventObject (hexact : ev.createdAt.toNat < 2 ^ 53) {t : List Char}
    (h : EventText numeric ev t) :
    ∃ ev', parseEventObject t = some ev' ∧
      ∀ g : Field, numeric g = false → g.Agree ev' ev := by
  cases h with
  | @object w w' body fs hw _ hbody hperm =>
      obtain ⟨ev', hread, hagree⟩ :=
        (readsMember_memberText hexact).parseEventObject hw hbody w'
      exact ⟨ev', hread, fun g hg => hagree g hg (mem_of_perm_all hperm g)⟩

end Run

/-! ### Texts without white space -/

theorem white_nil : White [] :=
  fun _ hc => absurd hc List.not_mem_nil

theorem separated_joinComma {α : Type} {item : α → List Char → Prop} (text : α → List Char)
    (a : α) (as : List α) (h : ∀ b ∈ a :: as, item b (text b)) :
    Separated item (a :: as) (joinComma ((a :: as).map text)) := by
  induction as generalizing a with
  | nil =>
      have hone := Separated.one white_nil (h a List.mem_cons_self) white_nil
      rw [List.nil_append, List.append_nil] at hone
      rwa [List.map_singleton, joinComma_singleton]
  | cons b as ih =>
      have hrest := ih b fun d hd => h d (List.mem_cons_of_mem a hd)
      have hcons := Separated.cons white_nil (h a List.mem_cons_self) white_nil hrest
      rw [List.nil_append, List.append_nil] at hcons
      rwa [List.map_cons, List.map_cons, joinComma_cons_cons]

theorem stringText_raw (numeric : Bool) (s : List Char)
    (h : s.all (fun c => 0x20 ≤ c.toNat && c != '"' && c != '\\') = true) :
    StringText numeric s ('"' :: s ++ ['"']) := by
  refine ⟨s, ?_, rfl⟩
  induction s with
  | nil => exact .nil
  | cons c s ih =>
      simp only [List.all_cons, Bool.and_eq_true, decide_eq_true_eq, bne_iff_ne] at h
      obtain ⟨⟨⟨hlow, hquote⟩, hslash⟩, hs⟩ := h
      exact .raw hlow hquote hslash (ih hs)

theorem stringText_name (f : Field) (numeric : Bool) :
    StringText numeric f.name.toList ('"' :: f.name.toList ++ ['"']) := by
  refine stringText_raw numeric _ ?_
  cases f <;> decide

theorem natText_of_digits (ds : List Char) (h : Digits ds)
    (hzero : ds.head? ≠ some '0' ∨ ds = ['0']) : NatText (digitsNat ds) ds := by
  have hnumber := @NumberText.mk false ds [] [] [] 0 h hzero .none .none
  refine ⟨false, digitsNat ds, 0, by simpa using hnumber, nofun, fun _ => ?_, fun hneg => ?_⟩
  · simp
  · exact absurd hneg (Int.lt_irrefl 0)

/-- A field without white space. -/
def compactMember (text : Field → List Char) (f : Field) : List Char :=
  '"' :: f.name.toList ++ ['"'] ++ ':' :: text f

/-- The members in the order of the fields, without white space. -/
theorem eventText_compact {numeric : Field → Bool} {ev : Event} {text : Field → List Char}
    (h : ∀ f, FieldText (numeric f) ev f (text f)) :
    EventText numeric ev ('{' :: (joinComma (Field.all.map (compactMember text)) ++ ['}'])) := by
  have hmember : ∀ o ∈ Field.all.map some,
      MemberText numeric ev o (o.elim [] (compactMember text)) := by
    intro o ho
    obtain ⟨f, -, rfl⟩ := List.mem_map.mp ho
    exact .field (stringText_name f (numeric f)) white_nil white_nil (h f)
  have hbody := separated_joinComma (fun o => Option.elim o [] (compactMember text)) _ _ hmember
  rw [← List.map_cons, ← Field.all, List.map_map] at hbody
  exact EventText.object white_nil white_nil hbody (.of_eq (by decide))

end Nostr

end BtClock
