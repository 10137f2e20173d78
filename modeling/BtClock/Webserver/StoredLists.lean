import BtClock.Screen.RotationIndex
import BtClock.Settings.JoinedText
import BtClock.Webserver.SettingsHooks

/-!
# The lists of a request as they are read again

A list is stored as one string.  An empty string reads as a default, or as the legacy slot, and an
entry with a comma reads as several.
-/

namespace BtClock

namespace Settings

/-! ### What an accepted request leaves in the store -/

/-- The last block which writes a key decides what it holds. -/
theorem storeAfter_key (key : String) {pre post : List PatchBlock} {block : PatchBlock}
    {prefs : Prefs} (h : AllAccepted (pre ++ block :: post) prefs)
    (hpost : ∀ b ∈ post, WritesOnly (· ≠ key) b) :
    ∃ effect, block (storeAfter pre prefs) = .ok effect ∧
      storeAfter (pre ++ block :: post) prefs key =
        applyWrites (storeAfter pre prefs) effect.writes key := by
  obtain ⟨hpre, effect, hblock, -⟩ := (allAccepted_append pre (block :: post) prefs).mp h
  refine ⟨effect, hblock, ?_⟩
  rw [storeAfter_append_of_accepted hpre, storeAfter_cons_ok hblock]
  exact storeAfter_frame hpost (fun hne => hne rfl) _

theorem writesOnly_ne_of_eq {block : PatchBlock} {k key : String}
    (h : WritesOnly (· = k) block) (hne : k ≠ key) : WritesOnly (· ≠ key) block :=
  h.mono fun _ heq => heq ▸ hne

section Request

variable {ctx : DeviceContext} {members : List (String × Json)} {prefs : Prefs}

/-- The text which the block at place `n` stores, when the ones behind leave its list alone. -/
theorem getString_listBlock {n : ℕ} {block : PatchBlock}
    (hn : (listBlocks ctx (.object members))[n]? = some block) {key d text : String}
    {bootOnly : Bool} (hkey : key ∈ listKeys)
    (hall : AllAccepted (blocks ctx members) prefs)
    (hblock : ∀ store effect, block store = .ok effect →
      effect = storeString key d text bootOnly store)
    (hbehind : ∀ b ∈ (listBlocks ctx (.object members)).drop (n + 1), WritesOnly (· ≠ key) b) :
    (storeAfter (blocks ctx members) prefs).getString key d = text := by
  have hsplit : blocks ctx members = blocksUpTo ctx members n ++ block ::
      ((listBlocks ctx (.object members)).drop (n + 1) ++
        nestedBlocks ctx (.object members)) := by
    rw [← List.singleton_append, ← List.append_assoc, ← blocksUpTo_succ ctx members hn,
      blocksUpTo, List.append_assoc, ← List.append_assoc (List.take ..), List.take_append_drop,
      ← List.append_assoc]
    rfl
  rw [hsplit] at hall ⊢
  obtain ⟨effect, hb, hstored⟩ := storeAfter_key key hall fun b hb => by
    rcases List.mem_append.mp hb with hb | hb
    · exact hbehind b hb
    · refine (writesOnly_nestedBlocks hb).mono ?_
      rintro k hk rfl
      exact hk hkey
  rw [Prefs.getString_congr hstored, hblock _ effect hb, getString_storeString]

theorem getString_actCurrencies_after {items : List Json}
    (hitems : (Json.object members).getObjectItem kActCurrencies = some (.array items))
    (hall : AllAccepted (blocks ctx members) prefs) :
    (storeAfter (blocks ctx members) prefs).getString kActCurrencies "USD,EUR,JPY" =
      joinCsv (keptCurrencies ctx.availableCurrencies items) := by
  refine getString_listBlock (n := 3) rfl (by decide) hall
    (fun store effect => patchActCurrencies_eq_ok hitems) ?_
  intro b hb
  simp only [listBlocks, List.drop_succ_cons, List.drop_zero, List.mem_cons,
    List.not_mem_nil, or_false] at hb
  rcases hb with rfl | rfl | rfl | rfl
  · exact writesOnly_ne_of_eq (writesOnly_patchZapPubkey _) (by decide)
  · exact writesOnly_ne_of_eq (writesOnly_patchZapPubkeys _) (by decide)
  · exact writesOnly_ne_of_eq (writesOnly_patchRelay _) (by decide)
  · exact writesOnly_ne_of_eq (writesOnly_patchRelays _) (by decide)

theorem getString_relayList_after {items : List Json}
    (hitems : (Json.object members).getObjectItem kNostrRelays = some (.array items))
    (hall : AllAccepted (blocks ctx members) prefs) :
    (storeAfter (blocks ctx members) prefs).getString kNostrRelays "" =
      joinCsv (keptEntries items) :=
  getString_listBlock (n := 7) rfl (by decide) hall
    (fun store effect => patchRelays_eq_ok hitems) nofun

end Request

/-! ### The lists of an accepted block -/

theorem length_le_of_joinPubkeys {items : List Json} {count : ℕ} {joined out : String}
    (h : joinPubkeys items count joined = .ok out) (hcount : count ≤ kMaxZapPubkeys) :
    count + (keptEntries items).length ≤ kMaxZapPubkeys := by
  induction items, count, joined using joinPubkeys.induct with
  | case1 count joined => exact hcount
  | case2 items count joined ih =>
      rw [joinPubkeys, if_pos rfl] at h
      exact ih h hcount
  | case3 s items count joined hs e he => simp [joinPubkeys, hs, he] at h
  | case4 s items count joined hs hcheck hmany => simp [joinPubkeys, hs, hcheck, hmany] at h
  | case5 s items count joined hs hcheck hfew ih =>
      simp only [joinPubkeys, if_neg hs, hcheck, if_neg hfew] at h
      have hkept : keptEntries (.string s :: items) = s :: keptEntries items :=
        List.filter_cons_of_pos (by simpa using hs)
      have hrest := ih h (Nat.le_of_not_lt hfew)
      rw [hkept, List.length_cons]
      omega
  | case6 => simp_all [joinPubkeys]

theorem length_le_of_joinRelays {items : List Json} {count n : ℕ} {joined out : String}
    (h : joinRelays items count joined = .ok (n, out)) (hcount : count ≤ kMaxNostrRelays) :
    count + (keptEntries items).length ≤ kMaxNostrRelays := by
  induction items, count, joined using joinRelays.induct with
  | case1 count joined => exact hcount
  | case2 items count joined ih =>
      rw [joinRelays, if_pos rfl] at h
      exact ih h hcount
  | case3 s items count joined hs hscheme => simp [joinRelays, hs, hscheme] at h
  | case4 s items count joined hs hscheme hmany => simp [joinRelays, hs, hscheme, hmany] at h
  | case5 s items count joined hs hscheme hfew ih =>
      rw [joinRelays, if_neg hs, if_neg hscheme, if_neg hfew] at h
      have hkept : keptEntries (.string s :: items) = s :: keptEntries items :=
        List.filter_cons_of_pos (by simpa using hs)
      have hrest := ih h (Nat.le_of_not_lt hfew)
      rw [hkept, List.length_cons]
      omega
  | case6 => simp_all [joinRelays]

theorem length_le_of_patchZapPubkeys {root : Json} {items : List Json}
    (hitems : root.getObjectItem kNostrZapPubkeys = some (.array items)) {prefs : Prefs}
    {effect : Effect} (h : patchZapPubkeys root prefs = .ok effect) :
    (keptEntries items).length ≤ kMaxZapPubkeys := by
  simp only [patchZapPubkeys, hitems, validated] at h
  cases hjoin : joinPubkeys items 0 "" with
  | error e => rw [hjoin] at h; cases h
  | ok joined => simpa using length_le_of_joinPubkeys hjoin (Nat.zero_le _)

theorem length_le_of_patchRelays {root : Json} {items : List Json}
    (hitems : root.getObjectItem kNostrRelays = some (.array items)) {prefs : Prefs}
    {effect : Effect} (h : patchRelays root prefs = .ok effect) :
    (keptEntries items).length ≤ kMaxNostrRelays := by
  simp only [patchRelays, hitems, validated, checkRelays] at h
  cases hjoin : joinRelays items 0 "" with
  | error e => rw [hjoin] at h; cases h
  | ok out => simpa using length_le_of_joinRelays hjoin (Nat.zero_le _)

/-- A public key is hexadecimal, so it has no comma. -/
theorem notMem_comma_of_checkPubkey {key s : String} (h : checkPubkey key s = .ok ()) :
    ',' ∉ s.toList := by
  intro hmem
  have hdigit := List.all_eq_true.mp (checkPubkey_eq_ok h).2 ',' hmem
  exact absurd hdigit (by decide)

/-! ### The lists which are read again -/

/-- A list of at most `cap` entries with a fallback reads as itself exactly when it is not empty
and no entry has a comma. -/
theorem readList_eq_iff {entries fallback : List String} {cap : ℕ} (hcap : entries.length ≤ cap)
    (hpos : 0 < cap) (hblank : "" ∉ entries) (hfallback : fallback ≠ []) :
    (if joinCsv entries ≠ "" then splitCsv (joinCsv entries) else fallback).take cap = entries ↔
      entries ≠ [] ∧ ∀ s ∈ entries, ',' ∉ s.toList := by
  have hkept : entries.filter (· ≠ "") = entries :=
    List.filter_eq_self.mpr fun s hs => by
      simpa using fun heq : s = "" => hblank (heq ▸ hs)
  by_cases hnil : entries = []
  · subst hnil
    have hempty : joinCsv [] = "" := rfl
    refine iff_of_false ?_ fun h => h.1 rfl
    rw [if_neg (not_not_intro hempty)]
    intro h
    rcases List.take_eq_nil_iff.mp h with hzero | hfb
    · omega
    · exact hfallback hfb
  · have hjoined : joinCsv entries ≠ "" := by
      rw [Ne, joinCsv_eq_empty_iff, hkept]
      exact hnil
    rw [if_pos hjoined]
    constructor
    · intro h
      refine ⟨hnil, fun s hs => ?_⟩
      rw [← h] at hs
      exact notMem_comma_of_mem_splitCsv (List.mem_of_mem_take hs)
    · rintro ⟨-, hcommas⟩
      rw [splitCsv_joinCsv, flatMap_splitCsv hcommas, hkept, List.take_of_length_le hcap]

end Settings

namespace Webserver

open Settings

/-! ### What the firmware reads back -/

def kDataSourceNostr : UInt8 := 2

structure NostrSourceConfig where
  enabled : Bool
  relayUrls : List String
  authorPubkeyHex : String

def readNostrSourceConfig (prefs : Prefs) : NostrSourceConfig where
  enabled := prefs.getU8 "dataSource" (defaultIntFor "dataSource").toUInt32.toUInt8 ==
    kDataSourceNostr
  relayUrls := readRelayUrls prefs
  authorPubkeyHex := readString prefs kNostrPubKey

/-- The submitted codes which are not blank and not missing from the available ones. -/
def submittedCurrencies (ctx : DeviceContext) (items : List Json) : List String :=
  (stringEntries items).filter fun code => code ≠ "" ∧ code ∈ ctx.availableCurrencies

/-- Every list of the body reads back as it was submitted, without its blank entries and without
the currencies which are not available. -/
structure ListsSurvive (ctx : DeviceContext) (members : List (String × Json)) (after : Prefs) :
    Prop where
  currencies : ∀ items, (Json.object members).getObjectItem kActCurrencies = some (.array items) →
    activeCurrencies after = submittedCurrencies ctx items
  recipients : ∀ items,
    (Json.object members).getObjectItem kNostrZapPubkeys = some (.array items) →
      (readZapListenerConfig after).zapPubkeys = keptEntries items
  relays : ∀ items, (Json.object members).getObjectItem kNostrRelays = some (.array items) →
    (readNostrSourceConfig after).relayUrls = keptEntries items ∧
      (readZapListenerConfig after).relayUrls = keptEntries items

/-- No list of the body is left without an entry, and no entry has the separator. -/
structure ListsStorable (ctx : DeviceContext) (members : List (String × Json)) : Prop where
  currencies : ∀ items, (Json.object members).getObjectItem kActCurrencies = some (.array items) →
    submittedCurrencies ctx items ≠ [] ∧ ∀ s ∈ submittedCurrencies ctx items, ',' ∉ s.toList
  recipients : ∀ items,
    (Json.object members).getObjectItem kNostrZapPubkeys = some (.array items) →
      keptEntries items ≠ []
  relays : ∀ items, (Json.object members).getObjectItem kNostrRelays = some (.array items) →
    keptEntries items ≠ [] ∧ ∀ s ∈ keptEntries items, ',' ∉ s.toList

theorem blank_notMem_keptEntries (items : List Json) : "" ∉ keptEntries items :=
  fun h => ne_empty_of_mem_keptEntries h rfl

theorem readString_ne_empty {key : String} (h : defaultStringFor key ≠ "") (prefs : Prefs) :
    readString prefs key ≠ "" := by
  rw [readString]
  split
  · exact h
  · rename_i hread
    exact fun hempty => hread ⟨hempty, h⟩

/-- The legacy slot is never empty, its default stands for the empty string. -/
theorem legacySlot_ne_nil {key : String} (h : defaultStringFor key ≠ "") (prefs : Prefs) :
    (if readString prefs key ≠ "" then [readString prefs key] else []) ≠ [] := by
  rw [if_pos (readString_ne_empty h prefs)]
  exact List.cons_ne_nil _ _

/-- The codes which a stored list of currencies reads as. -/
theorem activeCurrencies_eq_iff {ctx : DeviceContext} {items : List Json} {prefs : Prefs}
    (hstored : prefs.getString kActCurrencies "USD,EUR,JPY" =
      joinCsv (keptCurrencies ctx.availableCurrencies items)) :
    activeCurrencies prefs = submittedCurrencies ctx items ↔
      submittedCurrencies ctx items ≠ [] ∧
        ∀ s ∈ submittedCurrencies ctx items, ',' ∉ s.toList := by
  constructor
  · intro h
    refine ⟨h ▸ activeCurrencies_ne_nil prefs, fun s hs => ?_⟩
    rw [← h, activeCurrencies] at hs
    split at hs
    · rw [List.mem_singleton.mp hs]
      decide
    · exact notMem_comma_of_mem_splitCsv hs
  · rintro ⟨hne, hcommas⟩
    have havail : ctx.availableCurrencies ≠ [] := by
      intro hnone
      refine hne (List.filter_eq_nil_iff.mpr fun s _ => ?_)
      simp [hnone]
    have hsub : (keptCurrencies ctx.availableCurrencies items).filter (· ≠ "") =
        submittedCurrencies ctx items := by
      rw [keptCurrencies, List.filter_filter, submittedCurrencies]
      refine List.filter_congr fun s _ => ?_
      simp [havail]
    have hjoined : joinCsv (keptCurrencies ctx.availableCurrencies items) ≠ "" := by
      rw [Ne, joinCsv_eq_empty_iff, hsub]
      exact hne
    have hkept : ∀ s ∈ keptCurrencies ctx.availableCurrencies items, ',' ∉ s.toList := by
      intro s hs
      by_cases hblank : s = ""
      · rw [hblank]
        decide
      · refine hcommas s ?_
        rw [← hsub]
        exact List.mem_filter.mpr ⟨hs, by simpa using hblank⟩
    have hread : readString prefs "actCurrencies" =
        joinCsv (keptCurrencies ctx.availableCurrencies items) := by
      rw [← hstored, readString]
      refine if_neg fun h => hjoined ?_
      rw [← hstored]
      exact h.1
    have hcodes : splitCsv (readString prefs "actCurrencies") = submittedCurrencies ctx items := by
      rw [hread, splitCsv_joinCsv, flatMap_splitCsv hkept, hsub]
    rw [activeCurrencies, hcodes]
    exact if_neg hne

/-! ### One request -/

section Request

variable {ctx : DeviceContext} {members : List (String × Json)} {prefs : Prefs}

theorem recipients_after_iff (hall : AllAccepted (blocks ctx members) prefs) {items : List Json}
    (hitems : (Json.object members).getObjectItem kNostrZapPubkeys = some (.array items)) :
    (readZapListenerConfig (storeAfter (blocks ctx members) prefs)).zapPubkeys =
        keptEntries items ↔ keptEntries items ≠ [] := by
  have hblock : patchZapPubkeys (.object members) ∈ blocks ctx members := by
    simp [blocks, listBlocks]
  obtain ⟨store, effect, hok⟩ := hall.exists_ok hblock
  have hcommas : ∀ s ∈ keptEntries items, ',' ∉ s.toList :=
    fun s hs => notMem_comma_of_checkPubkey ((patchZapPubkeys_eq_ok hitems hok).2 s hs)
  rw [zapPubkeys_after hall, csvAfter_of_list hitems]
  refine (readList_eq_iff (length_le_of_patchZapPubkeys hitems hok) (by decide)
    (blank_notMem_keptEntries items) (legacySlot_ne_nil (by decide) prefs)).trans ?_
  exact and_iff_left hcommas

theorem relays_after_iff (hall : AllAccepted (blocks ctx members) prefs) {items : List Json}
    (hitems : (Json.object members).getObjectItem kNostrRelays = some (.array items)) :
    readRelayUrls (storeAfter (blocks ctx members) prefs) = keptEntries items ↔
      keptEntries items ≠ [] ∧ ∀ s ∈ keptEntries items, ',' ∉ s.toList := by
  have hblock : patchRelays (.object members) ∈ blocks ctx members := by
    simp [blocks, listBlocks]
  obtain ⟨store, effect, hok⟩ := hall.exists_ok hblock
  simp only [readRelayUrls, readString_nostrRelays, getString_relayList_after hitems hall]
  exact readList_eq_iff (length_le_of_patchRelays hitems hok) (by decide)
    (blank_notMem_keptEntries items) (legacySlot_ne_nil (by decide) _)

end Request

/-- The lists of an accepted request survive their storage exactly when none of them is left
without an entry and no entry has the separator in it. -/
theorem applyPatch_listsSurvive_iff (ctx : DeviceContext) (members : List (String × Json))
    (prefs : Prefs)
    (haccepted : (applyPatch ctx (some (.object members)) prefs).result.status = .ok) :
    ListsSurvive ctx members
        (applyWrites prefs (applyPatch ctx (some (.object members)) prefs).writes) ↔
      ListsStorable ctx members := by
  have hall : AllAccepted (blocks ctx members) prefs := (status_eq_ok_iff _ prefs).mp haccepted
  constructor
  · intro h
    exact
      { currencies := fun items hitems =>
          (activeCurrencies_eq_iff (getString_actCurrencies_after hitems hall)).mp
            (h.currencies items hitems)
        recipients := fun items hitems =>
          (recipients_after_iff hall hitems).mp (h.recipients items hitems)
        relays := fun items hitems => (relays_after_iff hall hitems).mp (h.relays items hitems).1 }
  · intro h
    exact
      { currencies := fun items hitems =>
          (activeCurrencies_eq_iff (getString_actCurrencies_after hitems hall)).mpr
            (h.currencies items hitems)
        recipients := fun items hitems =>
          (recipients_after_iff hall hitems).mpr (h.recipients items hitems)
        relays := fun items hitems =>
          have hread := (relays_after_iff hall hitems).mpr (h.relays items hitems)
          ⟨hread, hread⟩ }

/-- Three lists of one or two entries. -/
def threeLists : List (String × Json) :=
  [(kActCurrencies, .array [.string "EUR", .string "", .string "XYZ"]),
    (kNostrZapPubkeys, .array [.string (String.ofList (List.replicate 64 'a'))]),
    (kNostrRelays, .array [.string "ws://a", .string "ws://b"])]

theorem threeLists_survive :
    ListsSurvive { availableCurrencies := ["USD", "EUR"] } threeLists
      (applyWrites Prefs.empty (applyPatch { availableCurrencies := ["USD", "EUR"] }
        (some (.object threeLists)) Prefs.empty).writes) := by
  refine (applyPatch_listsSurvive_iff _ _ _ (by decide)).mpr ?_
  have hcurrencies : (Json.object threeLists).getObjectItem kActCurrencies =
      some (.array [.string "EUR", .string "", .string "XYZ"]) := rfl
  have hpubkeys : (Json.object threeLists).getObjectItem kNostrZapPubkeys =
      some (.array [.string (String.ofList (List.replicate 64 'a'))]) := rfl
  have hrelays : (Json.object threeLists).getObjectItem kNostrRelays =
      some (.array [.string "ws://a", .string "ws://b"]) := rfl
  constructor
  · intro items hitems
    rw [hcurrencies] at hitems
    cases hitems
    decide
  · intro items hitems
    rw [hpubkeys] at hitems
    cases hitems
    decide
  · intro items hitems
    rw [hrelays] at hitems
    cases hitems
    decide

/-- The request which removes every recipient. -/
def noRecipients : List (String × Json) :=
  [(kNostrZapPubkeys, .array [])]

/-- The empty list is accepted, and the recipient of the legacy slot is heard again. -/
theorem noRecipients_not_survive :
    (applyPatch {} (some (.object noRecipients)) Prefs.empty).result.status = .ok ∧
      ¬ListsSurvive {} noRecipients (applyWrites Prefs.empty
        (applyPatch {} (some (.object noRecipients)) Prefs.empty).writes) := by
  have hread : (readZapListenerConfig (applyWrites Prefs.empty
      (applyPatch {} (some (.object noRecipients)) Prefs.empty).writes)).zapPubkeys ≠ [] := by
    decide
  refine ⟨by decide, fun h => hread ?_⟩
  have hlist : (Json.object noRecipients).getObjectItem kNostrZapPubkeys = some (.array []) := rfl
  exact h.recipients [] hlist

end Webserver

end BtClock
