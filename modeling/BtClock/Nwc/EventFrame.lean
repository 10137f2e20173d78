import BtClock.Nostr.EventText
import BtClock.Nwc.Client

/-!
# Events on the wire

What becomes of an event between its sender and the walker: an event which this firmware or a
relay encodes reaches the check of its id with the same canonical serialization.
-/

namespace BtClock

namespace Nwc

open JsonText Nostr JsonWalker

theorem exactNumbers_of_lt {ev : Event} (h : ev.createdAt.toNat < 2 ^ 53) : ExactNumbers ev := by
  have hkind : ev.kind.toNat < 2 ^ 32 := ev.kind.toNat_lt
  have hexact : ∀ n < 2 ^ 53,
      (Float.ofScientific n false 0).toModel.unpack = Double.exactNat n := by
    intro n hn
    have hunpack := Double.unpack_ofScientific_false (m := n) (e := 0) (by simpa using hn)
    simpa using hunpack
  constructor
  · rw [Double.toUInt64_of_unpack h (hexact _ h), UInt64.ofNat_toNat]
  · rw [Double.toUInt32_of_unpack hkind (hexact _ (by omega)), UInt32.ofNat_toNat]

theorem serializeEventFrame_eq (ev : Event) :
    serializeEventFrame ev =
      "[\"EVENT\"," ++ String.ofList (eventObject ev) ++ "]" := by
  have htag : (fun t : Tag => ['['] ++ joinComma (t.values.map JsonEmit.appendString) ++ [']']) =
      tagText := by
    funext t
    simp [tagText]
  have hid : JsonEmit.appendString "id" = "\"id\"".toList := by decide
  have hpubkey : JsonEmit.appendString "pubkey" = "\"pubkey\"".toList := by decide
  have hcreatedAt : JsonEmit.appendString "created_at" = "\"created_at\"".toList := by decide
  have hkind : JsonEmit.appendString "kind" = "\"kind\"".toList := by decide
  have htags : JsonEmit.appendString "tags" = "\"tags\"".toList := by decide
  have hcontent : JsonEmit.appendString "content" = "\"content\"".toList := by decide
  have hsig : JsonEmit.appendString "sig" = "\"sig\"".toList := by decide
  apply String.toList_injective
  unfold serializeEventFrame
  rw [htag]
  simp [eventObject, members, Member.full, tagsText, joinComma, hid, hpubkey, hcreatedAt, hkind,
    htags, hcontent, hsig]

/-- Every encoding of an event is accepted, and each field without escapes by number is received
as it was sent.  Without such escapes in the fields under the id, the canonical serialization is
the one of the sender; and the object of a frame which this firmware sends gives its event
back. -/
theorem serializeCanonical_parseEventObject (ev : Event) (hexact : ev.createdAt.toNat < 2 ^ 53) :
    (∀ (numeric : Field → Bool) (t : List Char), EventText numeric ev t →
      ∃ ev', parseEventObject t = some ev' ∧
        (∀ f : Field, numeric f = false → f.Agree ev' ev) ∧
        ((∀ f : Field, f ≠ .sig → numeric f = false) →
          ev'.id = ev.id ∧ serializeCanonical ev' = serializeCanonical ev ∧
            ∀ secp, verifyEvent secp ev = .ok → verifyEvent secp ev' ≠ .idMismatch)) ∧
      ∃ object, serializeEventFrame ev = "[\"EVENT\"," ++ String.ofList object ++ "]" ∧
        parseEventObject object = some ev := by
  refine ⟨fun numeric t ht => ?_, eventObject ev, serializeEventFrame_eq ev,
    parseEventObject_eventObject (exactNumbers_of_lt hexact)⟩
  obtain ⟨ev', hread, hagree⟩ := exists_parseEventObject hexact ht
  refine ⟨ev', hread, hagree, fun hplain => ?_⟩
  have hid : ev'.id = ev.id := hagree .id (hplain .id (by decide))
  have hcanonical : serializeCanonical ev' = serializeCanonical ev := by
    rw [serializeCanonical_eq_iff]
    exact ⟨hagree .pubkey (hplain .pubkey (by decide)),
      hagree .createdAt (hplain .createdAt (by decide)), hagree .kind (hplain .kind (by decide)),
      hagree .tags (hplain .tags (by decide)), hagree .content (hplain .content (by decide))⟩
  refine ⟨hid, hcanonical, fun secp hok => ?_⟩
  obtain ⟨pk, sig, xonly, -, -, hhash, -⟩ := (verifyEvent_eq_ok_iff secp ev).mp hok
  rw [← hid, ← hcanonical] at hhash
  -- the other branches give other results
  unfold verifyEvent
  rw [hhash]
  split
  · rename_i idBytes _ _ heq _ _
    obtain rfl := Option.some.inj heq
    rw [if_neg (not_not.mpr rfl)]
    split
    · nofun
    · split <;> nofun
  · nofun

/-- An event with one tag. -/
def sampleEvent : Event :=
  { id := "ab", pubkey := "cd", createdAt := 1700000000, kind := 1, tags := [⟨["e", "x"]⟩]
    content := "A", sig := "ef" }

/-- Texts of its fields, with white space inside the tags and the given text of the content. -/
def sampleText (content : List Char) : Field → List Char
  | .id => '"' :: ['a', 'b'] ++ ['"']
  | .pubkey => '"' :: ['c', 'd'] ++ ['"']
  | .createdAt => "1700000000".toList
  | .kind => ['1']
  | .tags =>
      '[' :: ([' '] ++ ('[' :: joinComma (["e", "x"].map fun s => '"' :: s.toList ++ ['"']) ++
        [']']) ++ [' ']) ++ [']']
  | .content => content
  | .sig => '"' :: ['e', 'f'] ++ ['"']

theorem fieldText_sampleText {numeric : Field → Bool} {content : List Char}
    (h : StringText (numeric .content) sampleEvent.content.toList content) (f : Field) :
    FieldText (numeric f) sampleEvent f (sampleText content f) := by
  have hdigits : ∀ ds : List Char, ds ≠ [] → ds.all isDigit = true → Digits ds :=
    fun ds hne hall => ⟨hne, fun c hc => of_decide_eq_true (List.all_eq_true.mp hall c hc)⟩
  cases f with
  | id => exact stringText_raw _ ['a', 'b'] (by decide)
  | pubkey => exact stringText_raw _ ['c', 'd'] (by decide)
  | createdAt =>
      exact natText_of_digits "1700000000".toList (hdigits _ (by decide) (by decide))
        (.inl (by decide))
  | kind => exact natText_of_digits ['1'] (hdigits _ (by decide) (by decide)) (.inl (by decide))
  | tags =>
      have hvalue : ∀ s ∈ ["e", "x"],
          StringText (numeric .tags) s.toList ('"' :: s.toList ++ ['"']) := by
        intro s hs
        refine stringText_raw _ s.toList ?_
        rcases List.mem_pair.mp hs with rfl | rfl <;> decide
      have hspace : White [' '] := by simp [White]
      exact .cons (.one hspace (.cons (separated_joinComma _ "e" ["x"] hvalue)) hspace)
  | content => exact h
  | sig => exact stringText_raw _ ['e', 'f'] (by decide)

theorem serializeCanonical_parseEventObject_sample :
    ∃ ev', parseEventObject ('{' :: (joinComma (Field.all.map
        (compactMember (sampleText ['"', 'A', '"']))) ++ ['}'])) = some ev' ∧
      ev'.id = "ab" ∧ serializeCanonical ev' = serializeCanonical sampleEvent := by
  have hlt : sampleEvent.createdAt.toNat < 2 ^ 53 := by decide
  have htext := eventText_compact (@fieldText_sampleText (fun _ => false) _
    (stringText_raw false ['A'] (by decide)))
  obtain ⟨ev', hread, -, hplain⟩ :=
    (serializeCanonical_parseEventObject sampleEvent hlt).1 _ _ htext
  obtain ⟨hid, hcanonical, -⟩ := hplain fun _ _ => rfl
  exact ⟨ev', hread, hid, hcanonical⟩

/-- The six characters of an escape by number are taken as they stand, so that the letter A of
the content is lost. -/
theorem not_serializeCanonical_parseEventObject_codeUnit :
    ¬ ∀ (ev : Event) (t : List Char), ev.createdAt.toNat < 2 ^ 53 →
      EventText (fun _ => true) ev t →
        ∃ ev', parseEventObject t = some ev' ∧
          serializeCanonical ev' = serializeCanonical ev := by
  intro h
  have hunit : CodeUnit 0x41 ['\\', 'u', '0', '0', '4', '1'] :=
    @CodeUnit.digits '0' '0' '4' '1' 0 0 4 1 rfl rfl rfl rfl
  have hbody := @BodyText.code true _ _ _ _ rfl hunit (.inl (by decide)) .nil
  rw [show utf8 (Char.ofNat 0x41) ++ [] = sampleEvent.content.toList by decide] at hbody
  have hcontent : StringText true sampleEvent.content.toList
      ('"' :: ['\\', 'u', '0', '0', '4', '1'] ++ ['"']) := ⟨_, hbody, rfl⟩
  have htext := eventText_compact (@fieldText_sampleText (fun _ => true) _ hcontent)
  have hlt : sampleEvent.createdAt.toNat < 2 ^ 53 := by decide
  obtain ⟨ev', hread, hcanonical⟩ := h sampleEvent _ hlt htext
  have hvalue : (parseEventObject ('{' :: (joinComma (Field.all.map (compactMember (sampleText
      ('"' :: ['\\', 'u', '0', '0', '4', '1'] ++ ['"'])))) ++ ['}']))).map Event.content =
        some "\\u0041" := by
    decide
  rw [hread, Option.map_some] at hvalue
  have hlost := ((serializeCanonical_eq_iff ev' sampleEvent).mp hcanonical).2.2.2.2
  rw [Option.some.inj hvalue] at hlost
  revert hlost
  decide

end Nwc

end BtClock
