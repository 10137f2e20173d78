import BtClock.Nostr.EventText

/-!
# The envelope of an event

A relay wraps an event into an array behind the name of the subscription.  The walker skips
the event as one value, and reads it within these bounds.  The members which it does not know
are skipped as well, so that they leave no trace.
-/

namespace BtClock

namespace Nostr

open JsonText JsonWalker

/-- A field with its text, or a further member, which is `none`. -/
inductive PlacedText (value : Field → List Char) : Option Field → List Char → Prop
  | field {f : Field} {k w w' : List Char} : StringText false f.name.toList k → White w →
      White w' → PlacedText value (some f) (k ++ (w ++ ':' :: (w' ++ value f)))
  | extra {s k w w' t : List Char} : StringText true s k → (∀ f : Field, s ≠ f.name.toList) →
      White w → White w' → Text .value t →
        PlacedText value none (k ++ (w ++ ':' :: (w' ++ t)))

/-- The texts of an object with the given texts of the fields, in any order and among any
further members. -/
inductive ObjectText (value : Field → List Char) : List Char → Prop
  | mk {fs : List (Option Field)} {body : List Char} : Separated (PlacedText value) fs body →
      (fs.filterMap id).Perm Field.all → ObjectText value ('{' :: (body ++ ['}']))

/-- The texts of a frame with the text `sub` of the subscription. -/
inductive FrameText (sub : List Char) (value : Field → List Char) : List Char → Prop
  | mk {w₀ w₁ w₂ w₃ w₄ w₅ w₆ type object rest : List Char} : White w₀ → White w₁ → White w₂ →
      White w₃ → White w₄ → White w₅ → White w₆ → StringText false "EVENT".toList type →
        ObjectText value object →
          FrameText sub value (w₀ ++ '[' :: (w₁ ++ (type ++ (w₂ ++ ',' :: (w₃ ++ (sub ++
            (w₄ ++ ',' :: (w₅ ++ (object ++ (w₆ ++ ']' :: rest))))))))))

/-! ### The object -/

theorem starts_placedText {value : Field → List Char} : Starts (PlacedText value) := by
  rintro f t (⟨⟨body, -, rfl⟩⟩ | ⟨⟨body, -, rfl⟩⟩)
  · exact ⟨'"', _, rfl, rfl, by decide, by decide⟩
  · exact ⟨'"', _, rfl, rfl, by decide, by decide⟩

theorem starts_stringText_list {numeric : Bool} : Starts (StringText numeric) := by
  rintro s t ⟨body, -, rfl⟩
  exact ⟨'"', _, rfl, rfl, by decide, by decide⟩

section Object

variable {value : Field → List Char} (hvalue : ∀ f, Text .value (value f))

include hvalue

theorem PlacedText.member {f : Option Field} {t : List Char} (h : PlacedText value f t) :
    ∃ s k w w' v, t = k ++ (w ++ ':' :: (w' ++ v)) ∧ StringText true s k ∧ White w ∧ White w' ∧
      Text .value v := by
  cases h with
  | @field f _ _ _ hk hw hw' => exact ⟨_, _, _, _, _, rfl, hk.to_numeric, hw, hw', hvalue f⟩
  | extra hk _ hw hw' ht => exact ⟨_, _, _, _, _, rfl, hk, hw, hw', ht⟩

theorem text_members {fs : List (Option Field)} {body : List Char}
    (h : Separated (PlacedText value) fs body) : Text .members body := by
  induction h with
  | one hw ht hw' =>
      obtain ⟨s, k, w₁, w₂, v, rfl, hk, h₁, h₂, hv⟩ := ht.member hvalue
      have hmember := Text.member hw hk h₁ h₂ hv hw'
      simpa only [List.append_assoc, List.cons_append] using hmember
  | cons hw ht hw' _ ih =>
      obtain ⟨s, k, w₁, w₂, v, rfl, hk, h₁, h₂, hv⟩ := ht.member hvalue
      have hmembers := Text.members hw hk h₁ h₂ hv hw' ih
      simpa only [List.append_assoc, List.cons_append] using hmembers

theorem ObjectText.text {t : List Char} (h : ObjectText value t) : Text .value t := by
  cases h with
  | mk hbody _ => exact .object (text_members hvalue hbody)

end Object

/-- The event of which each field is taken from its own one. -/
def assembled (x : Field → Event) : Event where
  id := (x .id).id
  pubkey := (x .pubkey).pubkey
  createdAt := (x .createdAt).createdAt
  kind := (x .kind).kind
  tags := (x .tags).tags
  content := (x .content).content
  sig := (x .sig).sig

theorem copy_assembled (x : Field → Event) (f : Field) (e : Event) :
    f.copy (assembled x) e = f.copy (x f) e := by
  cases f <;> rfl

theorem Field.agree_of_copy_eq {f : Field} {x ev e : Event} (h : f.copy x e = f.copy ev e) :
    f.Agree x ev := by
  have hself := f.agree_copy ev e
  rw [← h] at hself
  cases f <;> exact hself

theorem eq_of_forall_agree {e ev : Event} (h : ∀ f : Field, f.Agree e ev) : e = ev := by
  cases e
  cases ev
  obtain rfl := h .id
  obtain rfl := h .pubkey
  obtain rfl := h .createdAt
  obtain rfl := h .kind
  obtain rfl := h .tags
  obtain rfl := h .content
  obtain rfl := h .sig
  rfl

/-! ### The frame -/

section Frame

variable {value : Field → List Char}

theorem readsMember_placedText (hvalue : ∀ f, Text .value (value f)) {ev : Event}
    (hread : ∀ f c, isDelimiter c = true → ∀ e rest,
      parseField e f.name (value f ++ c :: rest) = some (f.copy ev e, c :: rest)) :
    ReadsMember (fun _ => false) ev (PlacedText value) where
  starts := starts_placedText
  reads := by
    intro f t h w hw d hd e rest
    obtain ⟨c, s, hs, hc⟩ := exists_isDelimiter hw hd.isDelimiter rest
    cases h with
    | @field f k w₁ w₂ hk h₁ h₂ =>
        exact ⟨f.copy ev e, improves_copy f e,
          fieldLoop_step (parseString_stringText hk) h₁ h₂ (text_head (hvalue f)) hw hd hs
            (hread f c hc e s)⟩
    | extra hk hx h₁ h₂ ht =>
        exact ⟨e, improves_none e, fieldLoop_extra hk hx h₁ h₂ ht hw hd e rest⟩

/-- The further members leave no trace in the event. -/
theorem parseEventObject_objectText (hvalue : ∀ f, Text .value (value f)) {ev : Event}
    (hread : ∀ f c, isDelimiter c = true → ∀ e rest,
      parseField e f.name (value f ++ c :: rest) = some (f.copy ev e, c :: rest))
    {t : List Char} (h : ObjectText value t) : parseEventObject t = some ev := by
  cases h with
  | mk hbody hperm =>
      obtain ⟨ev', hparse, hagree⟩ :=
        (readsMember_placedText hvalue hread).parseEventObject white_nil hbody []
      rw [List.nil_append] at hparse
      rw [hparse, eq_of_forall_agree fun f => hagree f rfl (mem_of_perm_all hperm f)]

/-- The frame is read as the event which the walker reads in the object, with the object as
its bounds. -/
theorem parseEnvelope_frameText (hvalue : ∀ f, Text .value (value f)) {s sub : List Char}
    (hsub : StringText true s sub) {v : String}
    (hv : ∀ rest, parseString (sub ++ rest) = some (v, rest)) {ev : Event}
    (hev : ∀ t, ObjectText value t → parseEventObject t = some ev) {frame : String}
    (h : FrameText sub value frame.toList) : parseEnvelope frame = some (.event v ev) := by
  generalize hframe : frame.toList = text at h
  cases h with
  | @mk w₀ w₁ w₂ w₃ w₄ w₅ w₆ type object rest h₀ h₁ h₂ h₃ h₄ h₅ h₆ htype hobject =>
      have hcomma : isWs ',' = false := rfl
      obtain ⟨c, tail, htail, hc⟩ :=
        exists_isDelimiter h₆ (rfl : isDelimiter ']' = true) rest
      have hskip := skipValue_text hc (hobject.text hvalue) tail
      have hopen : skipWs (w₅ ++ (object ++ c :: tail)) = object ++ c :: tail := by
        obtain ⟨d, ds, hd, hws⟩ := text_head (hobject.text hvalue)
        rw [hd, List.cons_append]
        exact skipWs_white_cons h₅ hws _
      have htake : (object ++ c :: tail).take
          ((object ++ c :: tail).length - (c :: tail).length) = object := by
        rw [List.length_append, Nat.add_sub_cancel]
        exact List.take_left
      have hread : parseString (type ++ (w₂ ++ ',' :: (w₃ ++ (sub ++ (w₄ ++ ',' ::
          (w₅ ++ (object ++ c :: tail))))))) = some ("EVENT", _) :=
        parseString_stringText (s := "EVENT") htype _
      simp only [parseEnvelope, hframe, htail,
        skipWs_white_cons h₀ (show isWs '[' = false from rfl), expect, if_true,
        starts_stringText_list.skipWs_item h₁ htype, hread,
        skipWs_white_cons h₂ hcomma, starts_stringText_list.skipWs_item h₃ hsub, hv,
        skipWs_white_cons h₄ hcomma, hopen, hskip, htake, hev object hobject, Option.bind_eq_bind,
        Option.bind_some]
      rfl

end Frame

/-- Every value is skipped to its end.  So a frame is read as one event whatever further
members stand in it, and the event is the encoded one in each field which is written without
escapes by number and, for the time, below `2 ^ 53`. -/
theorem skipValue_parseEnvelope :
    (∀ t, Text .value t → ∀ c, isDelimiter c = true → ∀ rest,
        skipValue (t ++ c :: rest) = some (c :: rest)) ∧
      ∀ (ev : Event) (value : Field → List Char) (s sub : List Char),
        (∀ f, FieldText true ev f (value f)) → StringText true s sub →
          ∃ (v : String) (ev' : Event),
            (∀ frame : String, FrameText sub value frame.toList →
              parseEnvelope frame = some (.event v ev')) ∧
            (StringText false s sub → v.toList = s) ∧
            ∀ f : Field, FieldText false ev f (value f) →
              (f = .createdAt → ev.createdAt.toNat < 2 ^ 53) → f.Agree ev' ev := by
  refine ⟨fun t ht c hc rest => skipValue_text hc ht rest, fun ev value s sub hvalue hsub => ?_⟩
  have htext : ∀ f, Text .value (value f) := fun f => (hvalue f).text
  obtain ⟨v, hv, -⟩ := exists_parseString hsub
  choose x hx using fun f => exists_parseField_name (hvalue f)
  have hread : ∀ f c, isDelimiter c = true → ∀ e rest,
      parseField e f.name (value f ++ c :: rest) = some (f.copy (assembled x) e, c :: rest) := by
    intro f c hc e rest
    rw [hx f c hc, copy_assembled]
  refine ⟨v, assembled x, fun frame hframe => ?_, fun hplain => ?_, fun f hplain hexact => ?_⟩
  · exact parseEnvelope_frameText htext hsub hv
      (fun t => parseEventObject_objectText htext hread) hframe
  · have hself : StringText false (String.ofList s).toList sub := by rwa [String.toList_ofList]
    have heq := (hv []).symm.trans (parseString_stringText hself [])
    rw [(Prod.mk.inj (Option.some.inj heq)).1, String.toList_ofList]
  · have heq := (hread f ',' rfl {} []).symm.trans
      (parseField_fieldText hexact hplain rfl {} [])
    exact Field.agree_of_copy_eq (Prod.mk.inj (Option.some.inj heq)).1

/-- A bracket and an escaped quote inside a string do not end the array. -/
theorem skipValue_quotedBracket :
    skipValue ['[', '"', ']', '\\', '"', '"', ']', ',', ']'] = some [',', ']'] := by
  have hbody : BodyText true [']', '"'] [']', '\\', '"'] :=
    .raw (by decide) (by decide) (by decide) (.short (by decide) .nil)
  have hitem : Text .items (([] ++ ['"', ']', '\\', '"', '"']) ++ []) :=
    .item white_nil (.string ⟨_, hbody, rfl⟩) white_nil
  exact skipValue_parseEnvelope.1 _ (.array hitem) ',' rfl [']']

end Nostr

end BtClock
