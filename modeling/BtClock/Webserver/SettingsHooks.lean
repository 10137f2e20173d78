import BtClock.Nostr.SubscriptionManager
import BtClock.Screen.Layout
import BtClock.Settings.Get
import BtClock.Settings.Touched

/-!
# The change hooks of the settings request

A handled PATCH calls the hook of each group of settings of which it finds a key among the
touched ones.  The hooks refresh what the running firmware holds of the settings.
-/

namespace BtClock

namespace Webserver

open Settings

inductive Hook
  | dnd
  | tz
  | invertedColor
  | font
  | satsVariant
  | blockFlashColor
  | blockFeeDec
  | ledBrightness
  | disableLeds
  | ledFlashOnUpd
  | screens
  | frontlight
  | mdns
  | nostr
  deriving DecidableEq, Repr

/-- The shape of the key of a screen's visibility. -/
def isVisibleKey (k : String) : Bool :=
  decide (7 < k.length) && "screen".toList.isPrefixOf k.toList &&
    "Visible".toList.isSuffixOf k.toList

/-- The comparisons with the touched keys. -/
def Hook.watches (k : String) : Hook → Bool
  | .dnd =>
      k ∈ [kDndEnabled, kDndTimeEnabled, kDndStartHour, kDndStartMin, kDndEndHour, kDndEndMin]
  | .tz => k == "tzString"
  | .invertedColor => k == kInvertedColor
  | .font => k == kFontName
  | .satsVariant => k == "satsVariant"
  | .blockFlashColor => k == "blockFlashColor"
  | .blockFeeDec => k == "blockFeeDec"
  | .ledBrightness => k == "ledBrightness"
  | .disableLeds => k == "disableLeds"
  | .ledFlashOnUpd => k == "ledFlashOnUpd"
  | .screens =>
      k == kScreenOrder || isVisibleKey k || k == kActCurrencies ||
        (k == "miningPoolStats" || k == "bitaxeEnabled")
  | .frontlight =>
      k ∈ ["luxLightToggle", "flOffWhenDark", "flMaxBrightness", "flEffectDelay", "flAlwaysOn",
        "flDisable", "flFlashOnUpd", "flOffOnDnd"]
  | .mdns => k ∈ ["mdnsEnabled", "hostnamePrefix"]
  | .nostr =>
      k ∈ [kNostrZapPubkey, "nostrZapNotify", "ledFlashOnZap", "flFlashOnZap", "scrnRestoreZap"]

/-- Does the handler call the hook?  All hooks are installed. -/
def Hook.called (h : Hook) (r : PatchResult) : Bool :=
  r.touchedKeys.any h.watches

/-! ### What the firmware reads -/

inductive LiveValue
  | flag (b : Bool)
  | number (n : UInt32)
  | text (s : String)
  deriving DecidableEq, Repr

/-- A setting which the running firmware holds a copy of, read under one key. -/
structure LiveSetting where
  hook : Hook
  key : String
  read : Prefs → LiveValue
  read_congr : ∀ {prefs prefs' : Prefs}, prefs key = prefs' key → read prefs = read prefs'

def liveFlag (hook : Hook) (key : String) : LiveSetting where
  hook := hook
  key := key
  read prefs := .flag (readBool prefs key)
  read_congr h := congrArg LiveValue.flag (Prefs.getBool_congr h _)

def liveNumber (hook : Hook) (key : String) : LiveSetting where
  hook := hook
  key := key
  read prefs := .number (readU32 prefs key)
  read_congr h := congrArg LiveValue.number (readU32_congr h)

def liveText (hook : Hook) (key : String) : LiveSetting where
  hook := hook
  key := key
  read prefs := .text (readString prefs key)
  read_congr h := congrArg LiveValue.text (readString_congr h)

def liveVisible (id : Int32) : LiveSetting where
  hook := .screens
  key := visibleKey id
  read prefs := .flag (prefs.getBool (visibleKey id) (SlotMap.defaultScreenVisible id))
  read_congr h := congrArg LiveValue.flag (Prefs.getBool_congr h _)

/-- The settings of the groups which are read under their own key. -/
def liveSettings : List LiveSetting :=
  [liveFlag .nostr "nostrZapNotify", liveFlag .nostr "ledFlashOnZap",
    liveFlag .nostr "flFlashOnZap", liveFlag .nostr "scrnRestoreZap", liveFlag .dnd kDndEnabled,
    liveFlag .dnd kDndTimeEnabled, liveNumber .dnd kDndStartHour, liveNumber .dnd kDndStartMin,
    liveNumber .dnd kDndEndHour, liveNumber .dnd kDndEndMin, liveText .tz "tzString",
    liveFlag .invertedColor kInvertedColor, liveText .font kFontName,
    liveNumber .satsVariant "satsVariant", liveNumber .blockFlashColor "blockFlashColor",
    liveFlag .blockFeeDec "blockFeeDec", liveNumber .ledBrightness "ledBrightness",
    liveFlag .disableLeds "disableLeds", liveFlag .ledFlashOnUpd "ledFlashOnUpd",
    liveText .screens kScreenOrder, liveText .screens kActCurrencies,
    liveFlag .screens "miningPoolStats", liveFlag .screens "bitaxeEnabled",
    liveNumber .frontlight "luxLightToggle", liveFlag .frontlight "flOffWhenDark",
    liveNumber .frontlight "flMaxBrightness", liveNumber .frontlight "flEffectDelay",
    liveFlag .frontlight "flAlwaysOn", liveFlag .frontlight "flDisable",
    liveFlag .frontlight "flFlashOnUpd", liveFlag .frontlight "flOffOnDnd",
    liveFlag .mdns "mdnsEnabled", liveText .mdns "hostnamePrefix"] ++
  catalogIds.map liveVisible

/-- The recipients in the list `csv`, or in the legacy slot when it is empty. -/
def zapPubkeysOf (csv legacy : String) : List String :=
  let out := if csv ≠ "" then splitCsv csv else if legacy ≠ "" then [legacy] else []
  out.take kMaxZapPubkeys

/-- What the zap listeners read. -/
def readZapListenerConfig (prefs : Prefs) : Nostr.ZapListenerConfig where
  enabled := readBool prefs "nostrZapNotify"
  relayUrls := readRelayUrls prefs
  zapPubkeys :=
    zapPubkeysOf (readString prefs kNostrZapPubkeys) (readString prefs kNostrZapPubkey)
  ledFlashOnZap := readBool prefs "ledFlashOnZap"
  frontlightFlashOnZap := readBool prefs "flFlashOnZap"
  zapScreenNotify := readBool prefs "nostrZapNotify"
  zapScreenAutoRestore := readBool prefs "scrnRestoreZap"

/-! ### What is asked of an accepted request -/

/-- A setting which reads another value than before has its hook called, or a reboot is asked
for. -/
def TakesEffect (ctx : DeviceContext) (body : Option Json) (prefs : Prefs) : Prop :=
  let out := applyPatch ctx body prefs
  let prefs' := applyWrites prefs out.writes
  (∀ s ∈ liveSettings, s.read prefs' ≠ s.read prefs →
    s.hook.called out.result = true ∨ out.result.rebootRequired = true) ∧
  ((readZapListenerConfig prefs').zapPubkeys ≠ (readZapListenerConfig prefs).zapPubkeys →
    Hook.nostr.called out.result = true ∨ out.result.rebootRequired = true)

/-- The legacy string of the body, which counts without a list only. -/
def legacyString (list legacy : Option Json) : Option String :=
  match list, legacy with
  | some (.array _), _ => none
  | _, some (.string s) => some s
  | _, _ => none

/-- The list under `key` which the body leaves, of a field with the legacy key `legacyKey`. -/
def csvAfter (key legacyKey : String) (root : Json) (prefs : Prefs) : String :=
  match root.getObjectItem key with
  | some (.array items) => joinCsv (keptEntries items)
  | list => (legacyString list (root.getObjectItem legacyKey)).getD (prefs.getString key "")

/-- A gate of the zaps, each with a field of its own. -/
def ZapGate (key : String) : Prop :=
  key ∈ ["nostrZapNotify", "ledFlashOnZap", "flFlashOnZap", "scrnRestoreZap"]

/-- The body leaves the recipients as they are read, or it asks for another value of a gate of
the zaps, of a field which needs a reboot or of the list of relays. -/
def RecipientsHeard (body : Option Json) (prefs : Prefs) : Prop :=
  ∀ members, body = some (.object members) →
    zapPubkeysOf (csvAfter kNostrZapPubkeys kNostrZapPubkey (.object members) prefs)
          (readString prefs kNostrZapPubkey) = (readZapListenerConfig prefs).zapPubkeys ∨
      MemberAsks (fun key => ZapGate key ∨ BootOnlyKey key) members prefs ∨
      csvAfter kNostrRelays kNostrRelay (.object members) prefs ≠
        prefs.getString kNostrRelays ""

/-! ### The hooks against the reports -/

/-- A report of the key of a live setting is one which its hook watches. -/
theorem watches_of_reports {s : LiveSetting} (hs : s ∈ liveSettings) {t : String}
    (h : Reports t s.key) : s.hook.watches t = true := by
  have hkey : ∀ s ∈ liveSettings, s.hook.watches s.key = true ∧
      s.key ∉ ["fgColor", "bgColor"] ∧
      (s.key ∈ [kDndStartMin, kDndEndHour, kDndEndMin] →
        s.hook.watches kDndStartHour = true) := by
    decide
  obtain ⟨hown, hcolor, htimes⟩ := hkey s hs
  rcases h with rfl | ⟨_, hmem⟩ | ⟨rfl, hmem⟩
  · exact hown
  · exact absurd hmem hcolor
  · exact htimes hmem

theorem called_of_ne {s : LiveSetting} (hs : s ∈ liveSettings) {bs : List PatchBlock}
    (hbs : ∀ block ∈ bs, EveryEffect Effect.Candid block) {prefs : Prefs}
    (hne : s.read (storeAfter bs prefs) ≠ s.read prefs) :
    s.hook.called (runBlocks bs prefs).result = true := by
  have hkey : storeAfter bs prefs s.key ≠ prefs s.key := fun h => hne (s.read_congr h)
  obtain ⟨t, ht, hreports⟩ := exists_reports_of_ne hbs hkey
  exact List.any_eq_true.mpr ⟨t, ht, watches_of_reports hs hreports⟩

/-! ### What reaches the listeners -/

/-- The effect calls the hook of the zap listeners or asks for a reboot. -/
def Heard (effect : Effect) : Prop :=
  (∃ t ∈ effect.touchedKeys, Hook.nostr.watches t = true) ∨ effect.rebootRequired = true

def HeardBy (bs : List PatchBlock) (prefs : Prefs) : Prop :=
  (∃ t ∈ touchedBy bs prefs, Hook.nostr.watches t = true) ∨ rebootBy bs prefs = true

theorem heardBy_iff (bs : List PatchBlock) (prefs : Prefs) :
    HeardBy bs prefs ↔ Hook.nostr.called (runBlocks bs prefs).result = true ∨
      (runBlocks bs prefs).result.rebootRequired = true := by
  rw [HeardBy, Hook.called, List.any_eq_true]
  rfl

theorem heardBy_nil (prefs : Prefs) : ¬ HeardBy [] prefs := by
  rintro (⟨t, ht, _⟩ | h)
  · cases ht
  · cases h

theorem heardBy_append {bs : List PatchBlock} {prefs : Prefs} (h : AllAccepted bs prefs)
    (cs : List PatchBlock) :
    HeardBy (bs ++ cs) prefs ↔ HeardBy bs prefs ∨ HeardBy cs (storeAfter bs prefs) := by
  simp only [HeardBy, touchedBy_append h, rebootBy_append h, List.mem_append, or_and_right,
    exists_or, Bool.or_eq_true]
  exact or_or_or_comm

theorem heardBy_cons {block : PatchBlock} {prefs : Prefs} {effect : Effect}
    (h : block prefs = .ok effect) (bs : List PatchBlock) :
    HeardBy (block :: bs) prefs ↔
      Heard effect ∨ HeardBy bs (applyWrites prefs effect.writes) := by
  simp only [HeardBy, Heard, touchedBy_cons_ok h, rebootBy_cons_ok h, List.mem_append,
    or_and_right, exists_or, Bool.or_eq_true]
  exact or_or_or_comm

/-- An accepted block which the listeners do not hear of. -/
def Unheard (block : PatchBlock) : Prop :=
  EveryEffect (¬ Heard ·) block

theorem not_heardBy {bs : List PatchBlock} (hbs : ∀ block ∈ bs, Unheard block) {prefs : Prefs}
    (h : AllAccepted bs prefs) : ¬ HeardBy bs prefs := by
  induction bs generalizing prefs with
  | nil => exact heardBy_nil prefs
  | cons block bs ih =>
      obtain ⟨effect, hb, hrest⟩ := h
      rw [heardBy_cons hb]
      rintro (hheard | hheard)
      · exact hbs block List.mem_cons_self prefs effect hb hheard
      · exact ih (fun b hmem => hbs b (List.mem_cons_of_mem _ hmem)) hrest hheard

theorem not_heard_empty : ¬ Heard {} := by
  rintro (⟨t, ht, _⟩ | h)
  · cases ht
  · cases h

theorem not_heard_of_ite {c : Prop} [Decidable c] {effect : Effect} (h : ¬ Heard effect) :
    ¬ Heard (if c then effect else {}) :=
  of_ite_effect (P := (¬ Heard ·)) h not_heard_empty

theorem not_heard_singleton {t : String} (ht : Hook.nostr.watches t = false)
    (writes : List PrefsWrite) : ¬ Heard { writes := writes, touchedKeys := [t] } := by
  rintro (⟨t', ht', hwatches⟩ | h)
  · rw [List.mem_singleton.mp ht', ht] at hwatches
    cases hwatches
  · cases h

theorem unheard_beforeRelays {ctx : DeviceContext} {root : Json} {block : PatchBlock}
    (h : block ∈ BeforeRelays ctx root) : Unheard block := by
  simp only [BeforeRelays, List.mem_cons, List.not_mem_nil, or_false] at h
  rcases h with rfl | rfl | rfl | rfl | rfl | rfl
  · simp only [patchInvertedColor]
    split
    · exact everyEffect_accepted fun _ => not_heard_of_ite (not_heard_singleton (by decide) _)
    · exact everyEffect_skip not_heard_empty
  · simp only [patchTimePerScreen]
    split
    · exact everyEffect_accepted fun _ =>
        not_heard_of_ite (not_heard_of_ite (not_heard_singleton (by decide) _))
    · exact everyEffect_skip not_heard_empty
  · simp only [patchTxPower]
    split
    · refine everyEffect_accepted fun prefs => ?_
      simp only [storeTxPower]
      split
      · split
        · exact not_heard_empty
        · exact not_heard_singleton (by decide) _
      · exact not_heard_of_ite (not_heard_singleton (by decide) _)
    · exact everyEffect_skip not_heard_empty
  · simp only [patchActCurrencies]
    split
    · exact everyEffect_validated fun _ _ => not_heard_of_ite (not_heard_singleton (by decide) _)
    · exact everyEffect_skip not_heard_empty
  · simp only [patchZapPubkey]
    split
    · exact everyEffect_skip not_heard_empty
    · exact everyEffect_validated fun _ _ => not_heard_of_ite (not_heard_singleton (by decide) _)
    · exact everyEffect_skip not_heard_empty
  · simp only [patchZapPubkeys]
    split
    · exact everyEffect_validated fun _ _ => not_heard_of_ite (not_heard_singleton (by decide) _)
    · exact everyEffect_skip not_heard_empty

theorem nostr_watches_field {k : String} (h : Hook.nostr.watches k = true) :
    findField k ≠ none := by
  have hall : ∀ k ∈ [kNostrZapPubkey, "nostrZapNotify", "ledFlashOnZap", "flFlashOnZap",
      "scrnRestoreZap"], findField k ≠ none := by
    decide
  exact hall k (of_decide_eq_true h)

theorem unheard_nestedBlocks {ctx : DeviceContext} {root : Json} {block : PatchBlock}
    (h : block ∈ nestedBlocks ctx root) : Unheard block := by
  simp only [nestedBlocks, List.cons_append, List.mem_cons, List.mem_append, List.mem_map,
    List.not_mem_nil, or_false] at h
  rcases h with rfl | ⟨s, _, rfl⟩ | rfl | rfl
  · refine everyEffect_validated fun csv prefs => ?_
    cases csv with
    | none => exact not_heard_empty
    | some csv => exact not_heard_of_ite (not_heard_singleton (by decide) _)
  · simp only [patchVisible]
    split
    · refine everyEffect_accepted fun prefs => not_heard_of_ite (not_heard_singleton ?_ _)
      by_contra hwatches
      exact nostr_watches_field ((Bool.not_eq_false _).mp hwatches) (findField_visibleKey _)
    · exact everyEffect_skip not_heard_empty
  · simp only [patchDndTimeEnabled]
    split
    · exact everyEffect_accepted fun _ => not_heard_of_ite (not_heard_singleton (by decide) _)
    · exact everyEffect_skip not_heard_empty
  · simp only [patchDnd]
    split
    · exact everyEffect_validated fun _ _ => not_heard_of_ite (not_heard_singleton (by decide) _)
    · exact everyEffect_skip not_heard_empty

/-! ### The walk and the relays -/

theorem memberAsks_or {K L : String → Prop} {ms : List (String × Json)} {prefs : Prefs} :
    MemberAsks (fun key => K key ∨ L key) ms prefs ↔
      MemberAsks K ms prefs ∨ MemberAsks L ms prefs := by
  simp only [MemberAsks, or_and_right, and_or_left, exists_or]

theorem heardBy_walk_iff {ctx : DeviceContext} {root : Json} {ms : List (String × Json)}
    {prefs : Prefs} (h : AllAccepted (ms.map (patchMember ctx root)) prefs) :
    HeardBy (ms.map (patchMember ctx root)) prefs ↔
      MemberAsks (fun key => ZapGate key ∨ BootOnlyKey key) ms prefs := by
  have hgate : MemberAsks (fun key => Hook.nostr.watches key = true) ms prefs ↔
      MemberAsks ZapGate ms prefs := by
    refine exists_congr fun m => and_congr_right fun _ => ?_
    rw [← and_assoc, ← and_assoc]
    refine and_congr_left fun _ => ?_
    constructor
    · rintro ⟨hwatches, hbelow⟩
      rcases List.mem_cons.mp (of_decide_eq_true hwatches) with heq | hmem
      · rw [heq] at hbelow
        exact absurd (by decide) hbelow
      · exact ⟨hmem, hbelow⟩
    · rintro ⟨hgate, hbelow⟩
      exact ⟨decide_eq_true (List.mem_cons_of_mem _ hgate), hbelow⟩
  rw [memberAsks_or, ← hgate, ← touchedBy_walk_iff h, ← rebootBy_walk_iff h]
  rfl

theorem heard_storeString_relays (d value : String) (prefs : Prefs) :
    Heard (storeString kNostrRelays d value true prefs) ↔
      prefs.getString kNostrRelays d ≠ value := by
  simp only [storeString]
  split_ifs with h
  · exact iff_of_true (Or.inr rfl) h
  · exact iff_of_false not_heard_empty h

theorem heardBy_singleton {block : PatchBlock} {prefs : Prefs} {effect : Effect}
    (h : block prefs = .ok effect) : HeardBy [block] prefs ↔ Heard effect := by
  rw [heardBy_cons h, or_iff_left (heardBy_nil _)]

section Blocks

variable {ctx : DeviceContext} {members : List (String × Json)} {prefs : Prefs}

/-- The blocks in front of the relays leave their list alone. -/
theorem storeAfter_front_relays :
    storeAfter (memberBlocks ctx members ++ BeforeRelays ctx (.object members)) prefs
      kNostrRelays = prefs kNostrRelays := by
  refine storeAfter_frame (K := (· ≠ kNostrRelays)) ?_ (not_not_intro rfl) prefs
  intro block hblock
  rcases List.mem_append.mp hblock with hblock | hblock
  · obtain ⟨m, _, rfl⟩ := List.mem_map.mp hblock
    refine (writesOnly_patchMember ctx _ m).mono ?_
    rintro key ⟨_, hbelow⟩ rfl
    exact hbelow (by decide)
  · exact (offRelays_of_mem_beforeRelays hblock).mono fun _ hkey => hkey.2.1

theorem patchRelay_eq (root : Json) :
    patchRelay root =
      match legacyString (root.getObjectItem kNostrRelays) (root.getObjectItem kNostrRelay) with
      | some s => accepted (storeString kNostrRelays "" s true)
      | none => skip := by
  simp only [patchRelay, legacyString]
  split <;> simp_all

theorem patchRelays_of_no_list {root : Json}
    (h : ∀ items, root.getObjectItem kNostrRelays ≠ some (.array items)) :
    patchRelays root = skip := by
  unfold patchRelays
  split
  · rename_i items hitems
    exact absurd hitems (h items)
  · rfl

theorem csvAfter_of_list {key legacyKey : String} {root : Json} {items : List Json}
    (h : root.getObjectItem key = some (.array items)) (prefs : Prefs) :
    csvAfter key legacyKey root prefs = joinCsv (keptEntries items) := by
  simp only [csvAfter, h]

theorem csvAfter_of_no_list {key legacyKey : String} {root : Json}
    (h : ∀ items, root.getObjectItem key ≠ some (.array items)) (prefs : Prefs) :
    csvAfter key legacyKey root prefs =
      (legacyString (root.getObjectItem key) (root.getObjectItem legacyKey)).getD
        (prefs.getString key "") := by
  unfold csvAfter
  split
  · rename_i items hitems
    exact absurd hitems (h items)
  · rfl

/-- The two blocks of the relays are heard of when the body leaves another list. -/
theorem heardBy_relays_iff {store : Prefs} (hstore : store kNostrRelays = prefs kNostrRelays)
    (h : AllAccepted [patchRelay (.object members), patchRelays (.object members)] store) :
    HeardBy [patchRelay (.object members), patchRelays (.object members)] store ↔
      csvAfter kNostrRelays kNostrRelay (.object members) prefs ≠
        prefs.getString kNostrRelays "" := by
  obtain ⟨effect, hb, effect', hb', _⟩ := h
  rw [heardBy_cons hb, heardBy_singleton hb']
  rw [patchRelay_eq] at hb
  have hread := Prefs.getString_congr hstore ""
  by_cases hitems : ∃ items, (Json.object members).getObjectItem kNostrRelays = some (.array items)
  · obtain ⟨items, hitems⟩ := hitems
    rw [hitems] at hb
    cases hb
    rw [patchRelays_eq_ok hitems hb', or_iff_right not_heard_empty, heard_storeString_relays,
      csvAfter_of_list hitems, applyWrites_nil, hread]
    exact ne_comm
  · have hnone := not_exists.mp hitems
    rw [patchRelays_of_no_list hnone] at hb'
    cases hb'
    rw [or_iff_left not_heard_empty, csvAfter_of_no_list hnone]
    match hlegacy : legacyString ((Json.object members).getObjectItem kNostrRelays)
      ((Json.object members).getObjectItem kNostrRelay) with
    | some s =>
        rw [hlegacy] at hb
        cases hb
        rw [heard_storeString_relays, hread]
        exact ne_comm
    | none =>
        rw [hlegacy] at hb
        cases hb
        exact iff_of_false not_heard_empty (not_not_intro rfl)

theorem blocks_eq_relays :
    blocks ctx members = (memberBlocks ctx members ++ BeforeRelays ctx (.object members)) ++
      ([patchRelay (.object members), patchRelays (.object members)] ++
        nestedBlocks ctx (.object members)) := by
  simp only [blocks, listBlocks_eq, List.append_assoc]
  rfl

theorem heardBy_blocks_iff (h : AllAccepted (blocks ctx members) prefs) :
    HeardBy (blocks ctx members) prefs ↔
      MemberAsks (fun key => ZapGate key ∨ BootOnlyKey key) members prefs ∨
        csvAfter kNostrRelays kNostrRelay (.object members) prefs ≠
          prefs.getString kNostrRelays "" := by
  rw [blocks_eq_relays] at h ⊢
  obtain ⟨hfront, hrest⟩ := (allAccepted_append _ _ prefs).mp h
  obtain ⟨hrelays, hnested⟩ := (allAccepted_append _ _ _).mp hrest
  obtain ⟨hwalk, hbefore⟩ := (allAccepted_append _ _ prefs).mp hfront
  rw [heardBy_append hfront, heardBy_append hrelays, heardBy_append hwalk,
    or_iff_left (not_heardBy (fun _ => unheard_beforeRelays) hbefore),
    or_iff_left (not_heardBy (fun _ => unheard_nestedBlocks) hnested),
    heardBy_relays_iff storeAfter_front_relays hrelays]
  exact or_congr_left (heardBy_walk_iff hwalk)

/-! ### The recipients -/

theorem patchZapPubkey_eq (root : Json) :
    patchZapPubkey root =
      match legacyString (root.getObjectItem kNostrZapPubkeys)
        (root.getObjectItem kNostrZapPubkey) with
      | some s =>
          validated (if s = "" then .ok () else checkPubkey kNostrZapPubkey s) fun _ =>
            storeString kNostrZapPubkeys "" s false
      | none => skip := by
  simp only [patchZapPubkey, legacyString]
  split <;> simp_all

theorem patchZapPubkeys_of_no_list {root : Json}
    (h : ∀ items, root.getObjectItem kNostrZapPubkeys ≠ some (.array items)) :
    patchZapPubkeys root = skip := by
  unfold patchZapPubkeys
  split
  · rename_i items hitems
    exact absurd hitems (h items)
  · rfl

/-- After the two blocks of the recipients, their list is the one which the body leaves. -/
theorem getString_zapBlocks {store : Prefs}
    (hstore : store kNostrZapPubkeys = prefs kNostrZapPubkeys)
    (h : AllAccepted [patchZapPubkey (.object members), patchZapPubkeys (.object members)] store) :
    (storeAfter [patchZapPubkey (.object members), patchZapPubkeys (.object members)]
        store).getString kNostrZapPubkeys "" =
      csvAfter kNostrZapPubkeys kNostrZapPubkey (.object members) prefs := by
  obtain ⟨effect, hb, effect', hb', _⟩ := h
  rw [storeAfter_cons_ok hb, storeAfter_cons_ok hb', storeAfter_nil]
  rw [patchZapPubkey_eq] at hb
  have hread := Prefs.getString_congr hstore ""
  by_cases hitems :
      ∃ items, (Json.object members).getObjectItem kNostrZapPubkeys = some (.array items)
  · obtain ⟨items, hitems⟩ := hitems
    rw [(patchZapPubkeys_eq_ok hitems hb').1, getString_storeString, csvAfter_of_list hitems]
  · have hnone := not_exists.mp hitems
    rw [patchZapPubkeys_of_no_list hnone] at hb'
    cases hb'
    rw [csvAfter_of_no_list hnone, applyWrites_nil]
    match hlegacy : legacyString ((Json.object members).getObjectItem kNostrZapPubkeys)
      ((Json.object members).getObjectItem kNostrZapPubkey) with
    | some s =>
        rw [hlegacy] at hb
        dsimp only at hb
        cases hcheck : (if s = "" then .ok () else checkPubkey kNostrZapPubkey s :
          Except PatchError Unit) with
        | error e =>
            rw [hcheck] at hb
            cases hb
        | ok a =>
            rw [hcheck] at hb
            cases hb
            exact getString_storeString ..
    | none =>
        rw [hlegacy] at hb
        cases hb
        exact hread

/-- The keys under which the recipients are stored. -/
def zapKeys : List String :=
  [kNostrZapPubkey, kNostrZapPubkeys]

theorem writesOnly_patchMember_zap (root : Json) (m : String × Json) :
    WritesOnly (· ∉ zapKeys) (patchMember ctx root m) := by
  refine (writesOnly_patchMember ctx root m).mono ?_
  rintro key ⟨_, hbelow⟩ hmem
  have hzap : ∀ key ∈ zapKeys, key ∈ handledBelow := by decide
  exact hbelow (hzap key hmem)

theorem writesOnly_nestedBlocks_zap {root : Json} {block : PatchBlock}
    (h : block ∈ nestedBlocks ctx root) : WritesOnly (· ∉ zapKeys) block := by
  simp only [nestedBlocks, List.cons_append, List.mem_cons, List.mem_append, List.mem_map,
    List.not_mem_nil, or_false] at h
  rcases h with rfl | ⟨s, _, rfl⟩ | rfl | rfl
  · exact (writesOnly_patchScreenOrder ctx root).mono fun key hkey => hkey ▸ by decide
  · refine (writesOnly_patchVisible ctx s).mono ?_
    rintro key ⟨id, rfl⟩ hmem
    have hfield : ∀ key ∈ zapKeys, findField key ≠ none := by decide
    exact hfield _ hmem (findField_visibleKey id)
  · exact (writesOnly_patchDndTimeEnabled root).mono fun key hkey => hkey ▸ by decide
  · exact (writesOnly_patchDnd root).mono (by decide)

/-- The blocks around those of the recipients. -/
def aroundZaps (ctx : DeviceContext) (members : List (String × Json)) :
    List PatchBlock × List PatchBlock :=
  (memberBlocks ctx members ++
    [patchInvertedColor (.object members), patchTimePerScreen (.object members),
      patchTxPower (.object members), patchActCurrencies ctx (.object members)],
    [patchRelay (.object members), patchRelays (.object members)] ++
      nestedBlocks ctx (.object members))

theorem blocks_eq_zaps :
    blocks ctx members = (aroundZaps ctx members).1 ++
      ([patchZapPubkey (.object members), patchZapPubkeys (.object members)] ++
        (aroundZaps ctx members).2) := by
  simp only [blocks, listBlocks, aroundZaps, List.append_assoc]
  rfl

theorem writesOnly_aroundZaps {block : PatchBlock}
    (h : block ∈ (aroundZaps ctx members).1 ∨ block ∈ (aroundZaps ctx members).2) :
    WritesOnly (· ∉ zapKeys) block := by
  rcases h with h | h
  · rcases List.mem_append.mp h with h | h
    · obtain ⟨m, _, rfl⟩ := List.mem_map.mp h
      exact writesOnly_patchMember_zap _ m
    · simp only [List.mem_cons, List.not_mem_nil, or_false] at h
      rcases h with rfl | rfl | rfl | rfl
      · exact (writesOnly_patchInvertedColor _).mono (by decide)
      · exact (writesOnly_patchTimePerScreen _).mono fun key hkey => hkey ▸ by decide
      · exact (writesOnly_patchTxPower _).mono fun key hkey => hkey ▸ by decide
      · exact (writesOnly_patchActCurrencies ctx _).mono fun key hkey => hkey ▸ by decide
  · rcases List.mem_append.mp h with h | h
    · simp only [List.mem_cons, List.not_mem_nil, or_false] at h
      rcases h with rfl | rfl
      · exact (writesOnly_patchRelay _).mono fun key hkey => hkey ▸ by decide
      · exact (writesOnly_patchRelays _).mono fun key hkey => hkey ▸ by decide
    · exact writesOnly_nestedBlocks_zap h

/-- The legacy slot is never written. -/
theorem storeAfter_legacyZap :
    storeAfter (blocks ctx members) prefs kNostrZapPubkey = prefs kNostrZapPubkey := by
  refine storeAfter_frame (K := (· ≠ kNostrZapPubkey)) ?_ (not_not_intro rfl) prefs
  intro block hblock
  have hlegacy (key : String) (hkey : key ∉ zapKeys) : key ≠ kNostrZapPubkey := by
    rintro rfl
    exact hkey (by decide)
  rw [blocks_eq_zaps] at hblock
  rcases List.mem_append.mp hblock with hblock | hblock
  · exact (writesOnly_aroundZaps (Or.inl hblock)).mono hlegacy
  rcases List.mem_append.mp hblock with hblock | hblock
  · simp only [List.mem_cons, List.not_mem_nil, or_false] at hblock
    rcases hblock with rfl | rfl
    · exact (writesOnly_patchZapPubkey _).mono fun key hkey => hkey ▸ by decide
    · exact (writesOnly_patchZapPubkeys _).mono fun key hkey => hkey ▸ by decide
  · exact (writesOnly_aroundZaps (Or.inr hblock)).mono hlegacy

theorem getString_zapPubkeys_after (h : AllAccepted (blocks ctx members) prefs) :
    (storeAfter (blocks ctx members) prefs).getString kNostrZapPubkeys "" =
      csvAfter kNostrZapPubkeys kNostrZapPubkey (.object members) prefs := by
  rw [blocks_eq_zaps] at h ⊢
  obtain ⟨hfront, hrest⟩ := (allAccepted_append _ _ prefs).mp h
  obtain ⟨hzaps, _⟩ := (allAccepted_append _ _ _).mp hrest
  have hkey : ¬ kNostrZapPubkeys ∉ zapKeys := not_not_intro (by decide)
  have haround : ∀ block ∈ (aroundZaps ctx members).2, WritesOnly (· ∉ zapKeys) block :=
    fun _ hblock => writesOnly_aroundZaps (Or.inr hblock)
  have hbehind := storeAfter_frame haround hkey
    (storeAfter [patchZapPubkey (.object members), patchZapPubkeys (.object members)]
      (storeAfter (aroundZaps ctx members).1 prefs))
  rw [storeAfter_append_of_accepted hfront, storeAfter_append_of_accepted hzaps,
    Prefs.getString_congr hbehind]
  exact getString_zapBlocks (storeAfter_frame (K := (· ∉ zapKeys))
    (fun _ hblock => writesOnly_aroundZaps (Or.inl hblock)) hkey prefs) hzaps

theorem zapPubkeys_after (h : AllAccepted (blocks ctx members) prefs) :
    (readZapListenerConfig (storeAfter (blocks ctx members) prefs)).zapPubkeys =
      zapPubkeysOf (csvAfter kNostrZapPubkeys kNostrZapPubkey (.object members) prefs)
        (readString prefs kNostrZapPubkey) := by
  have hlist : readString (storeAfter (blocks ctx members) prefs) kNostrZapPubkeys =
      csvAfter kNostrZapPubkeys kNostrZapPubkey (.object members) prefs := by
    rw [← getString_zapPubkeys_after h, readString,
      show defaultStringFor kNostrZapPubkeys = "" from rfl]
    exact if_neg fun hne => hne.2 rfl
  show zapPubkeysOf _ _ = _
  rw [hlist, readString_congr storeAfter_legacyZap]

end Blocks

/-- An accepted request takes effect exactly when it leaves the recipients of the zaps as they
are read, or has the zap listeners told or a reboot asked for on account of another setting. -/
theorem takesEffect_iff (ctx : DeviceContext) (body : Option Json) (prefs : Prefs)
    (haccepted : (applyPatch ctx body prefs).result.status = .ok) :
    TakesEffect ctx body prefs ↔ RecipientsHeard body prefs := by
  match body with
  | some (.object members) =>
      have hall : AllAccepted (blocks ctx members) prefs :=
        (status_eq_ok_iff _ prefs).mp haccepted
      have hlive : ∀ s ∈ liveSettings,
          s.read (storeAfter (blocks ctx members) prefs) ≠ s.read prefs →
            s.hook.called (runBlocks (blocks ctx members) prefs).result = true :=
        fun s hs hne => called_of_ne hs (fun _ => candid_blocks) hne
      have hheard := (heardBy_iff (blocks ctx members) prefs).symm.trans (heardBy_blocks_iff hall)
      have hzaps := zapPubkeys_after hall
      constructor
      · rintro ⟨_, hrecipients⟩ members' hbody
        cases hbody
        by_cases hsame : zapPubkeysOf
            (csvAfter kNostrZapPubkeys kNostrZapPubkey (.object members) prefs)
            (readString prefs kNostrZapPubkey) = (readZapListenerConfig prefs).zapPubkeys
        · exact Or.inl hsame
        · exact Or.inr (hheard.mp (hrecipients fun hafter => hsame (hzaps.symm.trans hafter)))
      · intro hcondition
        refine ⟨fun s hs hne => Or.inl (hlive s hs hne), fun hne => ?_⟩
        rcases hcondition members rfl with hsame | hasks
        · exact absurd (hzaps.trans hsame) hne
        · exact hheard.mpr hasks
  | none => cases haccepted
  | some .null => cases haccepted
  | some (.bool _) => cases haccepted
  | some (.number _) => cases haccepted
  | some (.string _) => cases haccepted
  | some (.array _) => cases haccepted

/-- A clock without recipients is told of one. -/
def newRecipient : Json :=
  .object [(kNostrZapPubkeys, .array [.string (String.ofList (List.replicate 64 'a'))])]

/-- The new recipient is stored and accepted, and the listeners are not told. -/
theorem newRecipient_not_takesEffect :
    (applyPatch {} (some newRecipient) Prefs.empty).result.status = .ok ∧
      ¬TakesEffect {} (some newRecipient) Prefs.empty := by
  have hstatus : (applyPatch {} (some newRecipient) Prefs.empty).result.status = .ok := by
    decide
  have hsilent : Hook.nostr.called (applyPatch {} (some newRecipient) Prefs.empty).result = false ∧
      (applyPatch {} (some newRecipient) Prefs.empty).result.rebootRequired = false := by
    decide
  have hchanged : (readZapListenerConfig (applyWrites Prefs.empty
        (applyPatch {} (some newRecipient) Prefs.empty).writes)).zapPubkeys ≠
      (readZapListenerConfig Prefs.empty).zapPubkeys := by
    decide
  refine ⟨hstatus, fun h => ?_⟩
  rcases h.2 hchanged with hcalled | hreboot
  · rw [hsilent.1] at hcalled
    cases hcalled
  · rw [hsilent.2] at hreboot
    cases hreboot

/-- The same recipient, together with the gate of the zaps. -/
def newRecipientAndGate : Json :=
  .object [(kNostrZapPubkeys, .array [.string (String.ofList (List.replicate 64 'a'))]),
    ("nostrZapNotify", .bool true)]

theorem newRecipientAndGate_takesEffect :
    TakesEffect {} (some newRecipientAndGate) Prefs.empty := by
  refine (takesEffect_iff {} (some newRecipientAndGate) Prefs.empty (by decide)).mpr ?_
  intro members hbody
  cases hbody
  refine Or.inr (Or.inl ⟨("nostrZapNotify", .bool true), ?_, Or.inl ?_, by decide, ?_⟩)
  · exact List.mem_cons_of_mem _ List.mem_cons_self
  · exact List.mem_cons_self
  · exact ⟨{ key := "nostrZapNotify", kind := .bool }, by decide, fun h => nomatch h⟩

end Webserver

end BtClock
