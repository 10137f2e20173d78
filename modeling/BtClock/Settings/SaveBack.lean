import BtClock.Settings.SavedScreens

/-!
# Saving the settings as they were read

A save of what was just read changes nothing exactly when the store holds what the page shows.
-/

namespace BtClock

namespace Settings

open Nwc (isHexString)
open SettingsPage SlotMap

variable (facts ctx : DeviceContext) (prefs : Prefs)

theorem patchInvertedColor_unchanged :
    patchInvertedColor (.object (responseMembers ctx prefs)) prefs = .ok {} := by
  have hfield : findField kInvertedColor = some { key := kInvertedColor, kind := .bool } := rfl
  have hitem : (Json.object (responseMembers ctx prefs)).getObjectItem kInvertedColor =
      some (.bool (prefs.getBool kInvertedColor false)) :=
    lookup_response ctx prefs hfield (by decide)
  rw [patchInvertedColor, hitem]
  exact congrArg Except.ok (if_neg (not_not_intro rfl))

/-! ### The timer -/

/-- The stored seconds are whole minutes, or more than the page can set. -/
def TimerSaved (prefs : Prefs) : Prop :=
  ∃ s, prefs kTimerSeconds = some (.u32 s) ∧ (s % 60 = 0 ∨ 216000 < s)

/-- The minutes become seconds without a loss. -/
theorem castUInt32_minutes {m : UInt32} (hpos : 0 < m) (hmax : m ≤ 3600) :
    Double.castUInt32 (Float.ofNat m.toNat * 60) = m * 60 := by
  have hlow : 0 < m.toNat := UInt32.lt_iff_toNat_lt.mp hpos
  have hhigh : m.toNat ≤ 3600 := UInt32.le_iff_toNat_le.mp hmax
  have hsixty : (60 : Float).toModel.unpack = Double.exactNat 60 := Double.unpack_ofNat (by decide)
  rw [Double.castUInt32_mul (Double.unpack_ofNat (by omega)) hsixty (by omega) (by omega),
    UInt32.ofNat_mul, UInt32.ofNat_toNat]
  rfl

theorem storeTimePerScreen_eq_none_iff (m : UInt32) :
    storeTimePerScreen (Float.ofNat m.toNat) prefs = {} ↔
      (0 < m ∧ m ≤ 3600 → prefs.getU32 kTimerSeconds 0 = m * 60) := by
  have hpos : (0 : Float) < Float.ofNat m.toNat ↔ 0 < m := ofUInt32_lt_iff (a := 0)
  have hmax : Float.ofNat m.toNat ≤ 3600 ↔ m ≤ 3600 := by
    rw [UInt32.le_iff_toNat_le]
    exact Double.ofNat_le_ofNat_iff (Nat.lt_trans m.toNat_lt (by decide)) (by decide)
  simp only [storeTimePerScreen, hpos, hmax]
  by_cases hrange : 0 < m ∧ m ≤ 3600
  · rw [if_pos hrange, castUInt32_minutes hrange.1 hrange.2, imp_iff_right hrange]
    split_ifs with hsame
    · refine iff_of_false (fun h => ?_) hsame
      cases congrArg Effect.writes h
    · exact iff_of_true rfl (not_not.mp hsame)
  · rw [if_neg hrange]
    exact iff_of_true rfl fun h => absurd h hrange

/-- The seconds of the minutes which are shown, rounded up. -/
theorem minutes_eq_iff (s : UInt32) :
    (0 < (s + 59) / 60 ∧ (s + 59) / 60 ≤ 3600 → s = (s + 59) / 60 * 60) ↔
      s % 60 = 0 ∨ 216000 < s := by
  have hlt := s.toNat_lt
  rw [UInt32.lt_iff_toNat_lt, UInt32.le_iff_toNat_le, UInt32.lt_iff_toNat_lt, ← UInt32.toNat_inj,
    ← UInt32.toNat_inj, UInt32.toNat_mul, UInt32.toNat_div, UInt32.toNat_add, UInt32.toNat_mod]
  change (0 < (s.toNat + 59) % 2 ^ 32 / 60 ∧ (s.toNat + 59) % 2 ^ 32 / 60 ≤ 3600 →
    s.toNat = (s.toNat + 59) % 2 ^ 32 / 60 * 60 % 2 ^ 32) ↔ s.toNat % 60 = 0 ∨ 216000 < s.toNat
  generalize s.toNat = n at hlt
  by_cases hwrap : n + 59 < 2 ^ 32
  · rw [Nat.mod_eq_of_lt hwrap, Nat.mod_eq_of_lt (by omega)]
    omega
  · -- the sum wraps around to less than a minute
    have hzero : (n + 59) % 2 ^ 32 / 60 = 0 := by omega
    rw [hzero]
    omega

theorem patchTimePerScreen_unchanged_iff :
    patchTimePerScreen (.object (responseMembers ctx prefs)) prefs = .ok {} ↔ TimerSaved prefs := by
  have hitem : (Json.object (responseMembers ctx prefs)).getObjectItem "timePerScreen" =
      some (ofUInt32 ((prefs.getU32 kTimerSeconds kDefaultTimerSeconds + 59) / 60)) :=
    lookup_timePerScreen ctx prefs
  rw [patchTimePerScreen, hitem, ofUInt32]
  dsimp only [accepted]
  rw [Except.ok.injEq, storeTimePerScreen_eq_none_iff, TimerSaved]
  have hother : (∀ s, prefs kTimerSeconds ≠ some (.u32 s)) →
      ∀ d, prefs.getU32 kTimerSeconds d = d := by
    intro hnone d
    rw [Prefs.getU32]
    split
    · rename_i s hs
      exact absurd hs (hnone s)
    · rfl
  by_cases hstored : ∃ s, prefs kTimerSeconds = some (.u32 s)
  · obtain ⟨s, hs⟩ := hstored
    rw [getU32_of_stored hs, getU32_of_stored hs, minutes_eq_iff, hs]
    simp only [Option.some.injEq, PrefValue.u32.injEq, exists_eq_left']
  · have hnone : ∀ s, prefs kTimerSeconds ≠ some (.u32 s) := not_exists.mp hstored
    rw [hother hnone, hother hnone]
    exact iff_of_false (by decide) fun h => hstored ⟨h.choose, h.choose_spec.1⟩

/-! ### The power of the radio -/

/-- The power of the device is the stored one; the reset value stands for none, and a value which is
out of range is not stored. -/
def TxPowerSaved (power : Int32) (prefs : Prefs) : Prop :=
  if power = 80 then ∀ v, prefs kTxPower ≠ some (.u32 v)
  else -1 ≤ power → power ≤ 78 → prefs kTxPower = some (.u32 power.toUInt32)

theorem storeTxPower_eq_none_iff (power : Int32) :
    storeTxPower power prefs = {} ↔ TxPowerSaved power prefs := by
  have hsome : ∀ w t, ({ writes := [w], touchedKeys := t } : Effect) ≠ {} := by
    intro w t h
    cases congrArg Effect.writes h
  rw [storeTxPower, TxPowerSaved]
  by_cases hstored : ∃ v, prefs kTxPower = some (.u32 v)
  · obtain ⟨v, hv⟩ := hstored
    have hread : ∀ d, prefs.getI32 kTxPower d = v.toInt32 := fun d => by
      rw [Prefs.getI32, getU32_of_stored hv]
    have habsent : ¬(v.toInt32 = 12345 ∧ v.toInt32 = 67890) := by
      rintro ⟨h, h'⟩
      exact absurd (h.symm.trans h') (by decide)
    have hsame : prefs kTxPower = some (.u32 power.toUInt32) ↔ v.toInt32 = power := by
      rw [hv, Option.some_inj, PrefValue.u32.injEq]
      constructor
      · rintro rfl
        exact Int32.toInt32_toUInt32 power
      · rintro rfl
        exact (UInt32.toUInt32_toInt32 v).symm
    simp only [hread, habsent, hsame, if_false, false_or]
    split_ifs with hreset hstore
    · exact iff_of_false (hsome _ _) fun h => h v hv
    · exact iff_of_false (hsome _ _) fun h => hstore.2.2 (h hstore.1 hstore.2.1)
    · exact iff_of_true rfl fun hlow hhigh => by_contra fun hne => hstore ⟨hlow, hhigh, hne⟩
  · have hnone : ∀ v, prefs kTxPower ≠ some (.u32 v) := not_exists.mp hstored
    have hread : ∀ d, prefs.getI32 kTxPower d = d := by
      intro d
      rw [Prefs.getI32, Prefs.getU32]
      split
      · rename_i v hv
        exact absurd hv (hnone v)
      · exact Int32.toInt32_toUInt32 d
    simp only [hread, hnone, ne_eq, not_false_eq_true, implies_true, and_self, if_true, true_or]
    split_ifs with hreset hstore
    · exact iff_of_true rfl trivial
    · exact iff_of_false (hsome _ _) fun h => h hstore.1 hstore.2.1
    · exact iff_of_true rfl fun hlow hhigh => hstore ⟨hlow, hhigh, trivial⟩

theorem patchTxPower_unchanged_iff :
    patchTxPower (.object (responseMembers ctx prefs)) prefs = .ok {} ↔
      TxPowerSaved ctx.txPower prefs := by
  have hitem : (Json.object (responseMembers ctx prefs)).getObjectItem kTxPower =
      some (ofInt32 ctx.txPower) := lookup_txPower ctx prefs
  rw [patchTxPower, hitem, ofInt32]
  dsimp only [accepted]
  rw [Double.castInt32_ofInt, Except.ok.injEq, storeTxPower_eq_none_iff]

/-! ### The quiet hours -/

theorem dndMember_response (key : String) :
    dndMember (.object (responseMembers ctx prefs)) key = (dndBlock prefs).2.getObjectItem key := by
  have hitem : (Json.object (responseMembers ctx prefs)).getObjectItem "dnd" =
      some (dndBlock prefs).2 := lookup_dnd ctx prefs
  rw [dndMember, hitem]
  rfl

theorem patchDndTimeEnabled_unchanged :
    patchDndTimeEnabled (.object (responseMembers ctx prefs)) prefs = .ok {} := by
  have hitem : dndMember (.object (responseMembers ctx prefs)) "dndTimeEnabled" =
      some (.bool (prefs.getBool kDndTimeEnabled false)) := dndMember_response ctx prefs _
  rw [patchDndTimeEnabled, hitem]
  exact congrArg Except.ok (if_neg (not_not_intro rfl))

theorem inRange_ofNat {n hi : ℕ} (h : n ≤ hi) (hhi : hi < 2 ^ 53) :
    inRange (Float.ofNat n) 0 (Float.ofNat hi) = true := by
  have hzero : (0 : Float) ≤ Float.ofNat n :=
    (Double.ofNat_le_ofNat_iff (by decide) (Nat.lt_of_le_of_lt h hhi)).mpr (Nat.zero_le _)
  have hhigh : Float.ofNat n ≤ Float.ofNat hi :=
    (Double.ofNat_le_ofNat_iff (Nat.lt_of_le_of_lt h hhi) hhi).mpr h
  rw [inRange, decide_eq_true hzero, decide_eq_true hhigh]
  rfl

/-- A number which the schema allows is within its bound. -/
theorem readU32_le_of_allows {f : FieldSpec} (hf : f ∈ kFields) (hkind : f.kind = .uint)
    (hmax : f.maxValue ≠ 0) (h : f.Allows (f.read prefs)) : readU32 prefs f.key ≤ f.maxValue := by
  have hdefault : defaultIntFor f.key = f.defaultInt := by
    rw [defaultIntFor, findField_key f hf]
    simp only [hkind]
  simp only [FieldSpec.read, hkind, FieldSpec.Allows] at h
  rw [readU32, hdefault]
  exact (h.2 (.inl trivial)).2 hmax

theorem patchDnd_unchanged (h : ∀ f ∈ kFields, Shown prefs f.key → f.Allows (f.read prefs)) :
    patchDnd (.object (responseMembers ctx prefs)) prefs = .ok {} := by
  have hbound : ∀ f, findField f.key = some f → f.key ∉ handledBelow ∧ f.key ≠ kNwcUri ∧
      f.key ≠ kMiningPoolUser → f.kind = .uint → f.maxValue ≠ 0 →
        readU32 prefs f.key ≤ f.maxValue := by
    intro f hfield hkey hkind hmax
    have hf := (findField_eq_some hfield).1
    exact readU32_le_of_allows prefs hf hkind hmax
      (h f hf ⟨hkey.1, hkey.2.1, fun heq => absurd heq hkey.2.2⟩)
  have hstartHour : readU32 prefs kDndStartHour ≤ 23 :=
    hbound { key := kDndStartHour, kind := .uint, maxValue := 23, defaultInt := 22 } rfl (by decide)
      rfl (by decide)
  have hstartMin : readU32 prefs kDndStartMin ≤ 59 :=
    hbound { key := kDndStartMin, kind := .uint, maxValue := 59 } rfl (by decide) rfl (by decide)
  have hendHour : readU32 prefs kDndEndHour ≤ 23 :=
    hbound { key := kDndEndHour, kind := .uint, maxValue := 23, defaultInt := 7 } rfl (by decide)
      rfl (by decide)
  have hendMin : readU32 prefs kDndEndMin ≤ 59 :=
    hbound { key := kDndEndMin, kind := .uint, maxValue := 59 } rfl (by decide) rfl (by decide)
  have hcheck : checkDnd (Float.ofNat (readU32 prefs kDndStartHour).toNat)
      (Float.ofNat (readU32 prefs kDndStartMin).toNat)
      (Float.ofNat (readU32 prefs kDndEndHour).toNat)
      (Float.ofNat (readU32 prefs kDndEndMin).toNat) =
        .ok
          { startHour := readU32 prefs kDndStartHour
            startMinute := readU32 prefs kDndStartMin
            endHour := readU32 prefs kDndEndHour
            endMinute := readU32 prefs kDndEndMin } := by
    rw [checkDnd, if_pos, Double.castUInt32_ofNat, Double.castUInt32_ofNat, Double.castUInt32_ofNat,
      Double.castUInt32_ofNat]
    rw [Bool.and_eq_true, Bool.and_eq_true, Bool.and_eq_true]
    rw [UInt32.le_iff_toNat_le] at hstartHour hstartMin hendHour hendMin
    exact ⟨⟨⟨inRange_ofNat hstartHour (by decide), inRange_ofNat hendHour (by decide)⟩,
      inRange_ofNat hstartMin (by decide)⟩, inRange_ofNat hendMin (by decide)⟩
  rw [patchDnd, dndMember_response, dndMember_response, dndMember_response, dndMember_response]
  change validated (checkDnd (Float.ofNat (readU32 prefs kDndStartHour).toNat)
    (Float.ofNat (readU32 prefs kDndStartMin).toNat) (Float.ofNat (readU32 prefs kDndEndHour).toNat)
    (Float.ofNat (readU32 prefs kDndEndMin).toNat)) storeDnd prefs = _
  rw [hcheck, validated_unchanged_iff]
  refine ⟨_, rfl, if_neg ?_⟩
  simp only [not_or, not_not]
  exact ⟨rfl, rfl, rfl, rfl⟩

/-! ### The whole request -/

/-- The store holds what the page shows. -/
structure Settled (facts : DeviceContext) (prefs : Prefs) : Prop where
  fits : ∀ f ∈ kFields, Shown prefs f.key → f.Allows (f.read prefs)
  font : facts.availableFonts.map AvailableFontOption.id = [] ∨
    prefs.getString kFontName (defaultStringFor kFontName) ∈
      facts.availableFonts.map AvailableFontOption.id
  pool : facts.availablePools = [] ∨ activePool prefs ∈ facts.availablePools
  nostrPubKey : prefs.getString kNostrPubKey (defaultStringFor kNostrPubKey) = "" ∨
    (prefs.getString kNostrPubKey (defaultStringFor kNostrPubKey)).length = 64 ∧
      isHexString (prefs.getString kNostrPubKey (defaultStringFor kNostrPubKey)).toList = true
  /-- The legacy slot holds the first relay. -/
  nostrRelay : prefs.getString kNostrRelay kDefaultRelay = firstRelay prefs
  nostrRelays : RelaysSaved prefs
  nostrZapPubkeys : PubkeysSaved prefs
  actCurrencies : Rejoins (isAvailable facts) (prefs.getString kActCurrencies "USD,EUR,JPY")
    (readString prefs kActCurrencies)
  timerSeconds : TimerSaved prefs
  txPower : TxPowerSaved facts.txPower prefs
  screenOrder : OrderSaved facts prefs

theorem checkCatalog_eq_ok_iff {key s : String} {options : List String} :
    checkCatalog key options (.string s) = .ok () ↔ options = [] ∨ s ∈ options := by
  rw [checkCatalog]
  split_ifs with hempty hmem
  · exact iff_of_true rfl (.inl hempty)
  · exact iff_of_true rfl (.inr hmem)
  · exact iff_of_false nofun (not_or.mpr ⟨hempty, hmem⟩)

theorem checkNostrPubKey_eq_ok_iff {s : String} :
    checkNostrPubKey (.string s) = .ok () ↔
      s = "" ∨ s.length = 64 ∧ isHexString s.toList = true := by
  rw [checkNostrPubKey]
  split_ifs with hempty
  · exact iff_of_true rfl (.inl hempty)
  · rw [checkPubkey_eq_ok_iff, or_iff_right hempty]

/-- The blocks behind the walk change nothing. -/
theorem blocks_unchanged_iff (h : ∀ f ∈ kFields, Shown prefs f.key → f.Allows (f.read prefs)) :
    ((∀ block ∈ listBlocks (buildDeviceContext facts prefs)
          (.object (responseMembers (buildDeviceContext facts prefs) prefs)),
        block prefs = .ok {}) ∧
        ∀ block ∈ nestedBlocks (buildDeviceContext facts prefs)
          (.object (responseMembers (buildDeviceContext facts prefs) prefs)),
          block prefs = .ok {}) ↔
      TimerSaved prefs ∧ TxPowerSaved facts.txPower prefs ∧
        Rejoins (isAvailable facts) (prefs.getString kActCurrencies "USD,EUR,JPY")
          (readString prefs kActCurrencies) ∧
        PubkeysSaved prefs ∧ RelaysSaved prefs ∧ OrderSaved facts prefs := by
  have hvisible : ∀ block ∈ (screenEntries (.object (responseMembers
      (buildDeviceContext facts prefs) prefs))).map (patchVisible (buildDeviceContext facts prefs)),
        block prefs = .ok {} := by
    intro block hblock
    rw [screenEntries_response] at hblock
    obtain ⟨entry, hentry, rfl⟩ := List.mem_map.mp hblock
    exact patchVisible_unchanged facts prefs hentry
  simp only [listBlocks, nestedBlocks, List.forall_mem_cons, List.forall_mem_append,
    List.cons_append, patchInvertedColor_unchanged, patchTimePerScreen_unchanged_iff,
    patchTxPower_unchanged_iff, patchActCurrencies_unchanged_iff, patchZapPubkey_unchanged,
    patchZapPubkeys_unchanged_iff, patchRelay_unchanged, patchRelays_unchanged_iff,
    patchScreenOrder_unchanged_iff, patchDndTimeEnabled_unchanged, patchDnd_unchanged _ prefs h,
    List.not_mem_nil, false_imp_iff, implies_true, true_and, and_true, and_assoc]
  rw [and_iff_left hvisible]
  exact Iff.rfl

/-- Saving what was just read changes nothing exactly when the store holds what the page shows. -/
theorem applyPatch_buildGetResponse_unchanged_iff :
    (applyPatch (buildDeviceContext facts prefs)
        (some (buildGetResponse prefs (buildDeviceContext facts prefs))) prefs).Unchanged ↔
      Settled facts prefs := by
  have hblocks : applyPatch (buildDeviceContext facts prefs)
      (some (buildGetResponse prefs (buildDeviceContext facts prefs))) prefs =
        runBlocks (blocks (buildDeviceContext facts prefs)
          (responseMembers (buildDeviceContext facts prefs) prefs)) prefs := rfl
  rw [hblocks, runBlocks_unchanged_iff, blocks, List.forall_mem_append, List.forall_mem_append,
    walk_unchanged_iff]
  constructor
  · rintro ⟨⟨⟨hfits, hpass, hrelay⟩, hlist⟩, hnested⟩
    obtain ⟨htimer, hpower, hcurrencies, hpubkeys, hrelays, horder⟩ :=
      (blocks_unchanged_iff facts prefs hfits).mp ⟨hlist, hnested⟩
    exact
      { fits := hfits
        font := checkCatalog_eq_ok_iff.mp hpass.font
        pool := checkCatalog_eq_ok_iff.mp hpass.pool
        nostrPubKey := checkNostrPubKey_eq_ok_iff.mp hpass.pubKey
        nostrRelay := hrelay
        nostrRelays := hrelays
        nostrZapPubkeys := hpubkeys
        actCurrencies := hcurrencies
        timerSeconds := htimer
        txPower := hpower
        screenOrder := horder }
  · intro h
    obtain ⟨hrelay, hnwc⟩ := h.nostrRelays.membersPass (buildDeviceContext facts prefs)
    obtain ⟨hlist, hnested⟩ := (blocks_unchanged_iff facts prefs h.fits).mpr
      ⟨h.timerSeconds, h.txPower, h.actCurrencies, h.nostrZapPubkeys, h.nostrRelays, h.screenOrder⟩
    refine ⟨⟨⟨h.fits, ?_, h.nostrRelay⟩, hlist⟩, hnested⟩
    exact
      { font := checkCatalog_eq_ok_iff.mpr h.font
        pool := checkCatalog_eq_ok_iff.mpr h.pool
        relay := hrelay
        nwc := hnwc
        pubKey := checkNostrPubKey_eq_ok_iff.mpr h.nostrPubKey }

instance (f : FieldSpec) (n : UInt32) : Decidable (f.InRange n) :=
  inferInstanceAs (Decidable (_ ∧ _))

instance (f : FieldSpec) (v : PrefValue) : Decidable (f.Allows v) :=
  match v with
  | .str s => inferInstanceAs (Decidable (f.kind = .string ∧ s.length ≤ f.cap ∧ Plain s))
  | .u32 n => inferInstanceAs (Decidable (f.kind ≠ .string ∧ (_ → f.InRange n)))

/-- The slots which a save of an empty store fills. -/
def savedOnce : Prefs := fun key =>
  if key = kTimerSeconds then some (.u32 600)
  else if key = kNostrRelays then some (.str kDefaultRelay)
  else if key = kNostrZapPubkeys then some (.str (defaultStringFor kNostrZapPubkey))
  else if key = kScreenOrder then some (.str "0,3,4,6,10,20,30,40")
  else none

theorem fits_savedOnce : ∀ f ∈ kFields, f.Allows (f.read savedOnce) := by
  decide +kernel

/-- The list reads as its only entry. -/
theorem rejoins_singleton {s shown : String} (hs : s ≠ "") (hcomma : ',' ∉ s.toList) :
    Rejoins (fun _ => true) s shown := by
  have hlist : s.toList ≠ [] := fun hnil => hs (String.toList_eq_nil_iff.mp hnil)
  rw [Rejoins, if_neg hs, List.splitOn_eq_singleton hcomma]
  exact ⟨by simpa using hlist.symm, fun _ _ => rfl⟩

/-- A second save changes nothing. -/
theorem unchanged_savedOnce :
    (applyPatch (buildDeviceContext { txPower := 80 } savedOnce)
      (some (buildGetResponse savedOnce (buildDeviceContext { txPower := 80 } savedOnce)))
        savedOnce).Unchanged := by
  refine (applyPatch_buildGetResponse_unchanged_iff _ _).mpr ?_
  have hrelays : splitCsv (relayCsv savedOnce) = [kDefaultRelay] := by decide
  have hpubkeys : splitCsv (zapPubkeyCsv savedOnce) = [defaultStringFor kNostrZapPubkey] := by
    decide
  have hcodes : ∀ code ∈ splitCsv "USD,EUR,JPY", isAvailable { txPower := 80 } code = true :=
    fun _ _ => rfl
  exact
    { fits := fun f hf _ => fits_savedOnce f hf
      font := .inl rfl
      pool := .inl rfl
      nostrPubKey := .inr (by decide)
      nostrRelay := by
        rw [firstRelay, hrelays]
        rfl
      nostrRelays :=
        { rejoins := rejoins_singleton (by decide) (by decide)
          valid := by
            rw [hrelays]
            decide
          few := by
            rw [hrelays]
            decide
          budget := by
            rw [hrelays]
            decide }
      nostrZapPubkeys :=
        { rejoins := rejoins_singleton (by decide) (by decide)
          valid := by
            rw [hpubkeys]
            decide
          few := by
            rw [hpubkeys]
            decide }
      actCurrencies := ⟨by decide, hcodes⟩
      timerSeconds := ⟨600, rfl, .inl rfl⟩
      txPower := nofun
      screenOrder := ⟨[0, 3, 4, 6, 10, 20, 30, 40], by decide, by decide⟩ }

/-- An empty store shows a timer of ten minutes, and the save stores it. -/
theorem not_unchanged_empty :
    ¬(applyPatch (buildDeviceContext {} Prefs.empty)
      (some (buildGetResponse Prefs.empty (buildDeviceContext {} Prefs.empty)))
        Prefs.empty).Unchanged := by
  intro h
  have hblocks := (runBlocks_unchanged_iff _ _).mp h
  have htimer := hblocks (patchTimePerScreen (.object (responseMembers
    (buildDeviceContext {} Prefs.empty) Prefs.empty)))
      (List.mem_append_left _ (List.mem_append_right _ (.tail _ (.head _))))
  obtain ⟨s, hs, -⟩ := (patchTimePerScreen_unchanged_iff _ Prefs.empty).mp htimer
  cases hs

end Settings

end BtClock
