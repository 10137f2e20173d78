import BtClock.Settings.Get
import Mathlib.Data.List.Nodup

/-!
# The members of the GET response

What the response holds under each name.  A field of the schema stands there once, unless it is
redacted.
-/

namespace BtClock

namespace Settings

variable {key : String} {l r : Members} {v : Json}

/-! ### Names which stand once -/

theorem deleteItem_cons (key : String) (m : String × Json) (l : Members) :
    deleteItem key (m :: l) = if m.1 = key then l else m :: deleteItem key l := by
  simp [deleteItem, List.eraseP_cons]

/-- The key names one member at most. -/
def AtMostOnce (key : String) (l : Members) : Prop :=
  (l.map Prod.fst).count key ≤ 1

theorem map_fst_deleteItem (key : String) (l : Members) :
    (deleteItem key l).map Prod.fst = (l.map Prod.fst).erase key := by
  induction l with
  | nil => rfl
  | cons m l ih =>
      rw [deleteItem_cons, List.map_cons, List.erase_cons]
      by_cases h : m.1 = key
      · simp [h]
      · simp [h, ih]

theorem AtMostOnce.deleteItem (h : AtMostOnce key l) (other : String) :
    AtMostOnce key (deleteItem other l) := by
  rw [AtMostOnce, map_fst_deleteItem]
  exact Nat.le_trans (List.erase_sublist.count_le key) h

theorem AtMostOnce.append (h : AtMostOnce key l) (hr : key ∉ r.map Prod.fst) :
    AtMostOnce key (l ++ r) := by
  rw [AtMostOnce, List.map_append, List.count_append, List.count_eq_zero_of_not_mem hr]
  exact h

theorem notMem_deleteItem (h : key ∉ l.map Prod.fst) (other : String) :
    key ∉ (deleteItem other l).map Prod.fst := by
  rw [map_fst_deleteItem]
  exact mt List.mem_of_mem_erase h

theorem AtMostOnce.notMem_deleteItem (h : AtMostOnce key l) :
    key ∉ (Settings.deleteItem key l).map Prod.fst := by
  rw [map_fst_deleteItem]
  intro hmem
  have hcount := List.count_pos_iff.mpr hmem
  rw [List.count_erase_self] at hcount
  rw [AtMostOnce] at h
  omega

/-! ### The value of a key -/

/-- The first member of that name, as the response shows it. -/
def lookup (key : String) (l : Members) : Option Json :=
  (Json.object l).getObjectItem key

theorem lookup_cons (key : String) (m : String × Json) (l : Members) :
    lookup key (m :: l) = if m.1 = key then some m.2 else lookup key l := by
  by_cases h : m.1 = key
  · simp [lookup, Json.getObjectItem, h]
  · simp [lookup, Json.getObjectItem, h]

theorem lookup_append (h : lookup key l = some v) (r : Members) :
    lookup key (l ++ r) = some v := by
  obtain ⟨m, hm, rfl⟩ := Option.map_eq_some_iff.mp h
  simp [lookup, Json.getObjectItem, List.find?_append, hm]

theorem lookup_append_of_notMem (h : key ∉ l.map Prod.fst) (r : Members) :
    lookup key (l ++ r) = lookup key r := by
  induction l with
  | nil => rfl
  | cons m l ih =>
      rw [List.map_cons, List.mem_cons, not_or] at h
      rw [List.cons_append, lookup_cons, if_neg (Ne.symm h.1), ih h.2]

theorem lookup_deleteItem {other : String} (h : key ≠ other) (l : Members) :
    lookup key (deleteItem other l) = lookup key l := by
  induction l with
  | nil => rfl
  | cons m l ih =>
      rw [deleteItem_cons, lookup_cons]
      by_cases hm : m.1 = other
      · rw [if_pos hm, if_neg fun (hkey : m.1 = key) => h (hkey.symm.trans hm)]
      · rw [if_neg hm, lookup_cons, ih]

/-- A name which stands in the list once stands there with the value which is read. -/
theorem AtMostOnce.lookup_eq (h : AtMostOnce key l) (hmem : (key, v) ∈ l) :
    lookup key l = some v := by
  induction l with
  | nil => cases hmem
  | cons m l ih =>
      rw [lookup_cons]
      rcases List.mem_cons.mp hmem with rfl | hmem
      · rw [if_pos rfl]
      · rw [AtMostOnce, List.map_cons, List.count_cons] at h
        have hpos : 0 < (l.map Prod.fst).count key :=
          List.count_pos_iff.mpr (List.mem_map_of_mem hmem)
        by_cases heq : m.1 = key
        · rw [heq, beq_self_eq_true, if_pos rfl] at h
          omega
        · rw [if_neg heq]
          exact ih (Nat.le_trans (Nat.le_add_right _ _) h) hmem

theorem lookup_eq_none (h : key ∉ l.map Prod.fst) : lookup key l = none := by
  rw [← List.append_nil l, lookup_append_of_notMem h]
  rfl

/-! ### Lists under two names -/

theorem lookup_emitCurrencies (hkey : key ≠ kActCurrencies) (h : lookup key l = some v)
    (ctx : DeviceContext) (prefs : Prefs) : lookup key (emitCurrencies ctx prefs l) = some v := by
  rw [← lookup_deleteItem hkey] at h
  exact lookup_append h _

theorem lookup_emitList {k legacy : String} (hk : key ≠ k) (hlegacy : key ≠ legacy)
    (h : lookup key l = some v) (csv : String) :
    lookup key (emitList k legacy csv l) = some v := by
  rw [← lookup_deleteItem hk, ← lookup_deleteItem hlegacy] at h
  exact lookup_append h _

section EmitList

variable {legacyKey csv : String}

theorem lookup_emitList_self (h : AtMostOnce key l) :
    lookup key (emitList key legacyKey csv l) = some (strings (splitCsv csv)) := by
  rw [emitList, lookup_append_of_notMem (notMem_deleteItem h.notMem_deleteItem legacyKey),
    lookup_cons, if_pos rfl]

theorem lookup_emitList_legacy (hne : legacyKey ≠ key) (h : AtMostOnce legacyKey l) :
    lookup legacyKey (emitList key legacyKey csv l) =
      some (.string ((splitCsv csv).headD "")) := by
  rw [emitList, lookup_append_of_notMem (h.deleteItem key).notMem_deleteItem, lookup_cons,
    if_neg hne.symm, lookup_cons, if_pos rfl]

theorem AtMostOnce.emitList (h : AtMostOnce key l) {k : String} (hk : key ≠ k)
    (hlegacy : key ≠ legacyKey) : AtMostOnce key (Settings.emitList k legacyKey csv l) :=
  ((h.deleteItem k).deleteItem legacyKey).append (by simp [hk, hlegacy])

theorem AtMostOnce.emitList_legacy (hne : legacyKey ≠ key) (h : AtMostOnce legacyKey l) :
    AtMostOnce legacyKey (Settings.emitList key legacyKey csv l) := by
  rw [AtMostOnce, Settings.emitList, List.map_append, List.count_append,
    List.count_eq_zero_of_not_mem (h.deleteItem key).notMem_deleteItem]
  simp [hne.symm]

end EmitList

/-! ### The fields and the facts of the device -/

theorem lookup_map_emitField {f : FieldSpec} (h : findField key = some f) (prefs : Prefs) :
    lookup key (kFields.map (emitField prefs)) = some (emitField prefs f).2 := by
  have hfind : kFields.find? (fun f => f.key == key) = some f := by
    simp only [findField] at h
    split at h
    · cases h
    · exact h
  simp [lookup, Json.getObjectItem, List.find?_map, Function.comp_def, emitField, hfind]

theorem map_fst_map_emitField (prefs : Prefs) :
    (kFields.map (emitField prefs)).map Prod.fst = kFields.map FieldSpec.key := by
  rw [List.map_map]
  rfl

theorem mem_map_fst_ite {c : Prop} [Decidable c] {m : String × Json} {k : String}
    (h : k ∈ (if c then [] else [m]).map Prod.fst) : k = m.1 := by
  split at h
  · cases h
  · exact List.mem_singleton.mp h

def deviceFactNames : List String :=
  ["numScreens", "hostname", "ip", "wifiMac", "txPower", "hwRev", "fsRev", "gitRev", "gitTag",
    "lastBuildTime"]

theorem mem_deviceFactNames {ctx : DeviceContext} {k : String}
    (h : k ∈ (deviceFacts ctx).map Prod.fst) : k ∈ deviceFactNames := by
  simp only [deviceFacts, List.map_append, List.mem_append] at h
  rcases h with ((h | h) | h) | h
  · exact List.mem_append_left ["gitRev", "gitTag", "lastBuildTime"] h
  · rw [mem_map_fst_ite h]
    simp [deviceFactNames]
  · rw [mem_map_fst_ite h]
    simp [deviceFactNames]
  · split at h
    · rw [List.mem_singleton.mp h]
      simp [deviceFactNames]
    · cases h

/-- The facts of the device are not fields of the schema. -/
theorem notMem_deviceFacts (h : key ∈ kFields.map FieldSpec.key) (ctx : DeviceContext) :
    key ∉ (deviceFacts ctx).map Prod.fst := by
  have hdisjoint : ∀ k ∈ deviceFactNames, k ∉ kFields.map FieldSpec.key := by
    decide
  exact fun hmem => hdisjoint key (mem_deviceFactNames hmem) h

/-! ### The members in front of the replaced ones -/

def baseMembers (ctx : DeviceContext) (prefs : Prefs) : Members :=
  deviceFacts ctx ++ kFields.map (emitField prefs) ++ timerMembers prefs ++ catalogMembers ctx

/-- The members with the three lists. -/
def listMembers (ctx : DeviceContext) (prefs : Prefs) : Members :=
  emitList kNostrZapPubkeys kNostrZapPubkey (zapPubkeyCsv prefs)
    (emitList kNostrRelays kNostrRelay (relayCsv prefs)
      (emitCurrencies ctx prefs (baseMembers ctx prefs)))

theorem plainMembers_eq (ctx : DeviceContext) (prefs : Prefs) :
    plainMembers ctx prefs = listMembers ctx prefs ++
      ([screensMember ctx prefs, dndBlock prefs] ++ (frontlightMembers ctx ++
        passwordFlags prefs)) := by
  rw [plainMembers, List.append_assoc, List.append_assoc]
  rfl

def responseMembers (ctx : DeviceContext) (prefs : Prefs) : Members :=
  redactPoolUser prefs (redactNwcUri prefs (plainMembers ctx prefs))

/-- The keys which the response replaces or deletes. -/
def replacedKeys : List String :=
  [kActCurrencies, kNostrRelays, kNostrRelay, kNostrZapPubkeys, kNostrZapPubkey, kNwcUri,
    kMiningPoolUser]

theorem replacedKeys_mem : ∀ key ∈ replacedKeys, key ∈ kFields.map FieldSpec.key := by
  decide

section Response

variable (ctx : DeviceContext) (prefs : Prefs)

theorem fieldKeys_notMem_timer : ∀ key ∈ kFields.map FieldSpec.key,
    key ∉ ["timerSeconds", "timePerScreen", "timerRunning", "availableFonts", "availablePools",
      "availableCurrencies"] := by
  decide

/-- A field of the schema stands once in front. -/
theorem atMostOnce_baseMembers (h : key ∈ kFields.map FieldSpec.key) :
    AtMostOnce key (baseMembers ctx prefs) := by
  have hfields : AtMostOnce key (deviceFacts ctx ++ kFields.map (emitField prefs)) := by
    rw [AtMostOnce, List.map_append, List.count_append, map_fst_map_emitField,
      List.count_eq_zero_of_not_mem (notMem_deviceFacts h ctx), Nat.zero_add]
    exact List.nodup_iff_count.mp kFields_keys_nodup key
  have hbehind := fieldKeys_notMem_timer key h
  simp only [List.mem_cons, List.not_mem_nil, or_false, not_or] at hbehind
  exact (hfields.append (by simp [timerMembers, kTimerSeconds, hbehind])).append
    (by simp [catalogMembers, hbehind])

theorem lookup_redacted (hnwc : key ≠ kNwcUri) (huser : key ≠ kMiningPoolUser)
    (h : lookup key (plainMembers ctx prefs) = some v) :
    lookup key (responseMembers ctx prefs) = some v := by
  have hredacted : lookup key (redactNwcUri prefs (plainMembers ctx prefs)) = some v := by
    apply lookup_append
    apply lookup_append
    rwa [lookup_deleteItem hnwc]
  rw [responseMembers, redactPoolUser]
  split
  · apply lookup_append
    rwa [lookup_deleteItem huser]
  · exact hredacted

/-- The names which the three lists replace. -/
def listNames : List String :=
  [kActCurrencies, kNostrRelays, kNostrRelay, kNostrZapPubkeys, kNostrZapPubkey]

theorem lookup_plain_of_base (hne : ∀ other ∈ listNames, key ≠ other)
    (h : lookup key (baseMembers ctx prefs) = some v) :
    lookup key (plainMembers ctx prefs) = some v := by
  have hcurrencies := lookup_emitCurrencies (hne _ (by decide)) h ctx prefs
  have hrelays := lookup_emitList (hne kNostrRelays (by decide))
    (hne kNostrRelay (by decide)) hcurrencies (relayCsv prefs)
  have hpubkeys := lookup_emitList (hne kNostrZapPubkeys (by decide))
    (hne kNostrZapPubkey (by decide)) hrelays (zapPubkeyCsv prefs)
  rw [plainMembers_eq]
  exact lookup_append hpubkeys _

/-- What stands in front and is not replaced is shown. -/
theorem lookup_of_base (hne : ∀ other ∈ replacedKeys, key ≠ other)
    (h : lookup key (baseMembers ctx prefs) = some v) :
    lookup key (responseMembers ctx prefs) = some v := by
  refine lookup_redacted ctx prefs (hne _ (by decide)) (hne _ (by decide)) ?_
  refine lookup_plain_of_base ctx prefs (fun other hother => hne other ?_) h
  exact List.mem_append_left [kNwcUri, kMiningPoolUser] hother

theorem lookup_baseMembers {f : FieldSpec} (hf : findField key = some f) :
    lookup key (baseMembers ctx prefs) = some (emitField prefs f).2 := by
  have hmem : key ∈ kFields.map FieldSpec.key := List.mem_map.mpr ⟨f, findField_eq_some hf⟩
  refine lookup_append (lookup_append ?_ _) _
  rw [lookup_append_of_notMem (notMem_deviceFacts hmem ctx), lookup_map_emitField hf]

/-- A field which is not replaced stands in the response as it is stored. -/
theorem lookup_response {f : FieldSpec} (hf : findField key = some f)
    (hne : ∀ other ∈ replacedKeys, key ≠ other) :
    lookup key (responseMembers ctx prefs) = some (emitField prefs f).2 :=
  lookup_of_base ctx prefs hne (lookup_baseMembers ctx prefs hf)

theorem lookup_list (hnwc : key ≠ kNwcUri) (huser : key ≠ kMiningPoolUser)
    (h : lookup key (listMembers ctx prefs) = some v) :
    lookup key (responseMembers ctx prefs) = some v := by
  refine lookup_redacted ctx prefs hnwc huser ?_
  rw [plainMembers_eq]
  exact lookup_append h _

theorem lookup_txPower :
    lookup kTxPower (responseMembers ctx prefs) = some (ofInt32 ctx.txPower) := by
  refine lookup_of_base ctx prefs (by decide) ?_
  refine lookup_append (lookup_append (lookup_append ?_ _) _) _
  exact lookup_append (lookup_append (lookup_append rfl _) _) _

theorem lookup_timePerScreen :
    lookup "timePerScreen" (responseMembers ctx prefs) =
      some (ofUInt32 ((prefs.getU32 kTimerSeconds kDefaultTimerSeconds + 59) / 60)) := by
  refine lookup_of_base ctx prefs (by decide) (lookup_append ?_ _)
  have hfields : "timePerScreen" ∉ kFields.map FieldSpec.key :=
    fun h => fieldKeys_notMem_timer _ h (by decide)
  have hfacts : "timePerScreen" ∉ (deviceFacts ctx).map Prod.fst :=
    fun h => absurd (mem_deviceFactNames h) (by decide)
  rw [lookup_append_of_notMem, timerMembers]
  · rfl
  · rw [List.map_append, map_fst_map_emitField, List.mem_append, not_or]
    exact ⟨hfacts, hfields⟩

theorem lookup_actCurrencies :
    lookup kActCurrencies (responseMembers ctx prefs) =
      some (strings ((splitCsv (readString prefs kActCurrencies)).filter fun code =>
        ctx.availableCurrencies = [] ∨ code ∈ ctx.availableCurrencies)) := by
  have hbase : AtMostOnce kActCurrencies (baseMembers ctx prefs) :=
    atMostOnce_baseMembers ctx prefs (replacedKeys_mem _ (by decide))
  refine lookup_list ctx prefs (by decide) (by decide) ?_
  refine lookup_emitList (by decide) (by decide) (lookup_emitList (by decide) (by decide) ?_ _) _
  rw [emitCurrencies, lookup_append_of_notMem hbase.notMem_deleteItem, lookup_cons, if_pos rfl]

theorem AtMostOnce.emitCurrencies (hne : key ≠ kActCurrencies) (h : AtMostOnce key l) :
    AtMostOnce key (Settings.emitCurrencies ctx prefs l) :=
  (h.deleteItem _).append (by simp [hne])

theorem lookup_nostrRelays :
    lookup kNostrRelays (responseMembers ctx prefs) =
      some (strings (splitCsv (relayCsv prefs))) := by
  have hbase : AtMostOnce kNostrRelays (baseMembers ctx prefs) :=
    atMostOnce_baseMembers ctx prefs (replacedKeys_mem _ (by decide))
  refine lookup_list ctx prefs (by decide) (by decide) ?_
  exact lookup_emitList (by decide) (by decide)
    (lookup_emitList_self (hbase.emitCurrencies ctx prefs (by decide))) _

theorem lookup_nostrRelay :
    lookup kNostrRelay (responseMembers ctx prefs) =
      some (.string ((splitCsv (relayCsv prefs)).headD "")) := by
  have hbase : AtMostOnce kNostrRelay (baseMembers ctx prefs) :=
    atMostOnce_baseMembers ctx prefs (replacedKeys_mem _ (by decide))
  refine lookup_list ctx prefs (by decide) (by decide) ?_
  exact lookup_emitList (by decide) (by decide)
    (lookup_emitList_legacy (by decide) (hbase.emitCurrencies ctx prefs (by decide))) _

theorem lookup_nostrZapPubkeys :
    lookup kNostrZapPubkeys (responseMembers ctx prefs) =
      some (strings (splitCsv (zapPubkeyCsv prefs))) := by
  have hbase : AtMostOnce kNostrZapPubkeys (baseMembers ctx prefs) :=
    atMostOnce_baseMembers ctx prefs (replacedKeys_mem _ (by decide))
  refine lookup_list ctx prefs (by decide) (by decide) ?_
  exact lookup_emitList_self
    ((hbase.emitCurrencies ctx prefs (by decide)).emitList (by decide) (by decide))

/-! ### The members behind -/

def behindNames : List String :=
  ["screens", "dnd", "hasFrontlight", "hasLightLevel", "lightLevel", "httpAuthPassSet",
    "otaPassSet", "proxyPassSet", "nwcUriSet", "nwcUriMasked", "miningPoolUserSet"]

theorem fieldKeys_notMem_behind : ∀ key ∈ kFields.map FieldSpec.key, key ∉ behindNames := by
  decide

theorem notMem_listMembers (hfacts : key ∉ deviceFactNames)
    (hfields : key ∉ kFields.map FieldSpec.key)
    (hbehind : key ∉ ["timerSeconds", "timePerScreen", "timerRunning", "availableFonts",
      "availablePools", "availableCurrencies"]) (hne : ∀ other ∈ listNames, key ≠ other) :
    key ∉ (listMembers ctx prefs).map Prod.fst := by
  have hbase : key ∉ (baseMembers ctx prefs).map Prod.fst := by
    simp only [List.mem_cons, List.not_mem_nil, or_false, not_or] at hbehind
    rw [baseMembers, List.map_append, List.map_append, List.map_append, map_fst_map_emitField]
    simp only [List.mem_append, not_or]
    refine ⟨⟨⟨fun h => hfacts (mem_deviceFactNames h), hfields⟩, ?_⟩, ?_⟩
    · simp [timerMembers, kTimerSeconds, hbehind]
    · simp [catalogMembers, hbehind]
  have hemit : ∀ {l : Members} (k legacyKey csv : String), k ∈ listNames → legacyKey ∈ listNames →
      key ∉ l.map Prod.fst → key ∉ (emitList k legacyKey csv l).map Prod.fst := by
    intro l k legacyKey csv hk hlegacy h
    rw [emitList, List.map_append, List.mem_append, not_or]
    refine ⟨notMem_deleteItem (notMem_deleteItem h _) _, ?_⟩
    simp [hne k hk, hne legacyKey hlegacy]
  refine hemit _ _ _ (by decide) (by decide) (hemit _ _ _ (by decide) (by decide) ?_)
  rw [emitCurrencies, List.map_append, List.mem_append, not_or]
  refine ⟨notMem_deleteItem hbase _, ?_⟩
  simp [hne kActCurrencies (by decide)]

theorem lookup_screens :
    lookup "screens" (responseMembers ctx prefs) = some (screensMember ctx prefs).2 := by
  refine lookup_redacted ctx prefs (by decide) (by decide) ?_
  rw [plainMembers_eq, lookup_append_of_notMem]
  · rfl
  · exact notMem_listMembers ctx prefs (by decide)
      (fun h => fieldKeys_notMem_behind _ h (by decide)) (by decide) (by decide)

theorem lookup_dnd :
    lookup "dnd" (responseMembers ctx prefs) = some (dndBlock prefs).2 := by
  refine lookup_redacted ctx prefs (by decide) (by decide) ?_
  rw [plainMembers_eq, lookup_append_of_notMem]
  · rfl
  · exact notMem_listMembers ctx prefs (by decide)
      (fun h => fieldKeys_notMem_behind _ h (by decide)) (by decide) (by decide)

/-! ### A field stands once -/

/-- What stands for the pairing. -/
def nwcUriMembers (prefs : Prefs) : Members :=
  ("nwcUriSet", isSet prefs kNwcUri) ::
    if prefs.getString kNwcUri "" = "" then [] else nwcUriMasked (prefs.getString kNwcUri "")

theorem redactNwcUri_eq (root : Members) :
    redactNwcUri prefs root = deleteItem kNwcUri root ++ nwcUriMembers prefs :=
  List.append_assoc ..

theorem notMem_nwcUriMembers (h : key ∉ behindNames) :
    key ∉ (nwcUriMembers prefs).map Prod.fst := by
  simp only [behindNames, List.mem_cons, List.not_mem_nil, or_false, not_or] at h
  rw [nwcUriMembers, List.map_cons, List.mem_cons, not_or]
  refine ⟨by simp [h], ?_⟩
  split
  · exact List.not_mem_nil
  · rw [nwcUriMasked]
    split <;> simp [h]

theorem atMostOnce_plainMembers (h : key ∈ kFields.map FieldSpec.key)
    (hbelow : key ∉ handledBelow) : AtMostOnce key (plainMembers ctx prefs) := by
  have hne : ∀ other ∈ handledBelow, key ≠ other := fun other hother heq => hbelow (heq ▸ hother)
  have hbehind := fieldKeys_notMem_behind key h
  simp only [behindNames, List.mem_cons, List.not_mem_nil, or_false, not_or] at hbehind
  have hlist : AtMostOnce key (listMembers ctx prefs) := by
    have hcurrencies := (atMostOnce_baseMembers ctx prefs h).emitCurrencies ctx prefs
      (hne _ (by decide))
    refine AtMostOnce.emitList ?_ (hne _ (by decide)) (hne _ (by decide))
    by_cases hrelay : key = kNostrRelay
    · subst hrelay
      exact AtMostOnce.emitList_legacy (by decide) hcurrencies
    · exact hcurrencies.emitList (hne _ (by decide)) hrelay
  rw [plainMembers_eq]
  refine hlist.append ?_
  rw [frontlightMembers]
  split <;> simp [screensMember, dndBlock, passwordFlags, hbehind]

theorem atMostOnce_redactNwcUri (h : key ∈ kFields.map FieldSpec.key)
    (hbelow : key ∉ handledBelow) :
    AtMostOnce key (redactNwcUri prefs (plainMembers ctx prefs)) := by
  rw [redactNwcUri_eq]
  exact ((atMostOnce_plainMembers ctx prefs h hbelow).deleteItem kNwcUri).append
    (notMem_nwcUriMembers prefs (fieldKeys_notMem_behind key h))

/-- A field stands in the response once, if it does. -/
theorem atMostOnce_response (h : key ∈ kFields.map FieldSpec.key) (hbelow : key ∉ handledBelow) :
    AtMostOnce key (responseMembers ctx prefs) := by
  have hnwc := atMostOnce_redactNwcUri ctx prefs h hbelow
  have hbehind := fieldKeys_notMem_behind key h
  simp only [behindNames, List.mem_cons, List.not_mem_nil, or_false, not_or] at hbehind
  rw [responseMembers, redactPoolUser]
  split
  · exact (hnwc.deleteItem kMiningPoolUser).append (by simp [hbehind])
  · exact hnwc

/-- The pairing is not shown. -/
theorem lookup_nwcUri : lookup kNwcUri (responseMembers ctx prefs) = none := by
  have hplain := atMostOnce_plainMembers ctx prefs (replacedKeys_mem kNwcUri (by decide))
    (by decide)
  have hnwc : kNwcUri ∉ (redactNwcUri prefs (plainMembers ctx prefs)).map Prod.fst := by
    rw [redactNwcUri_eq, List.map_append, List.mem_append, not_or]
    exact ⟨hplain.notMem_deleteItem, notMem_nwcUriMembers prefs (by decide)⟩
  refine lookup_eq_none ?_
  rw [responseMembers, redactPoolUser]
  split
  · rw [List.map_append, List.mem_append, not_or]
    exact ⟨notMem_deleteItem hnwc _, by simp [kNwcUri]⟩
  · exact hnwc

/-- The user of a pool is shown unless it is a key. -/
theorem lookup_miningPoolUser {f : FieldSpec} (hf : findField kMiningPoolUser = some f) :
    lookup kMiningPoolUser (responseMembers ctx prefs) =
      if activePool prefs ∈ kSecretUserPools then none else some (emitField prefs f).2 := by
  have honce : AtMostOnce kMiningPoolUser (redactNwcUri prefs (plainMembers ctx prefs)) :=
    atMostOnce_redactNwcUri ctx prefs (replacedKeys_mem _ (by decide)) (by decide)
  rw [responseMembers, redactPoolUser]
  split
  · refine lookup_eq_none ?_
    rw [List.map_append, List.mem_append, not_or]
    exact ⟨honce.notMem_deleteItem, by simp [kMiningPoolUser]⟩
  · rw [redactNwcUri_eq]
    refine lookup_append ?_ _
    rw [lookup_deleteItem (by decide)]
    exact lookup_plain_of_base ctx prefs (by decide) (lookup_baseMembers ctx prefs hf)

end Response

end Settings

end BtClock
