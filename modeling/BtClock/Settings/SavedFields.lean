import BtClock.Arith.WholeNumber
import BtClock.Settings.InsideSchema
import BtClock.Settings.Response

/-!
# Saving the fields as they were read

The page sends the whole settings object on every save.  A run changes nothing when none of its
blocks does, and the walk over the members does not when the schema allows every field which is
shown.
-/

namespace BtClock

namespace Settings

/-! ### A run which changes nothing -/

/-- The call succeeds and neither writes nor reports anything. -/
structure PatchOutcome.Unchanged (out : PatchOutcome) : Prop where
  status : out.result.status = .ok
  touchedKeys : out.result.touchedKeys = []
  rebootRequired : out.result.rebootRequired = false
  writes : out.writes = []

theorem runBlocks_unchanged_iff (bs : List PatchBlock) (prefs : Prefs) :
    (runBlocks bs prefs).Unchanged ↔ ∀ block ∈ bs, block prefs = .ok {} := by
  induction bs with
  | nil => exact iff_of_true ⟨rfl, rfl, rfl, rfl⟩ (List.forall_mem_nil _)
  | cons block bs ih =>
      rw [List.forall_mem_cons, ← ih, runBlocks]
      cases h : block prefs with
      | error e => exact iff_of_false (fun hout => e.status_ne_ok hout.status) fun h => by cases h.1
      | ok effect =>
          dsimp only
          constructor
          · rintro ⟨hstatus, htouched, hreboot, hwrites⟩
            obtain ⟨ht, htouched⟩ := List.append_eq_nil_iff.mp htouched
            obtain ⟨hr, hreboot⟩ := (Bool.or_eq_false_iff ..).mp hreboot
            obtain ⟨hw, hwrites⟩ := List.append_eq_nil_iff.mp hwrites
            obtain rfl : effect = {} := by
              cases effect
              cases hw
              cases ht
              cases hr
              rfl
            exact ⟨rfl, hstatus, htouched, hreboot, hwrites⟩
          · rintro ⟨heffect, hstatus, htouched, hreboot, hwrites⟩
            obtain rfl := Except.ok.inj heffect
            exact ⟨hstatus, htouched, hreboot, hwrites⟩

/-! ### A single field -/

section Field

variable {f : FieldSpec} {prefs : Prefs}

/-- What the field reads from the store. -/
def FieldSpec.read (f : FieldSpec) (prefs : Prefs) : PrefValue :=
  match f.kind with
  | .string => .str (prefs.getString f.key f.defaultStr)
  | .uint => .u32 (prefs.getU32 f.key f.defaultInt.toUInt32)
  | .int => .u32 (prefs.getI32 f.key f.defaultInt).toUInt32
  | .uChar => .u32 (prefs.getU8 f.key f.defaultInt.toUInt32.toUInt8).toUInt32
  | .bool => .u32 (if prefs.getBool f.key f.defaultBool then 1 else 0)

theorem allows_read_string_iff (hkind : f.kind = .string) :
    f.Allows (f.read prefs) ↔
      (prefs.getString f.key f.defaultStr).length ≤ f.cap ∧
        Plain (prefs.getString f.key f.defaultStr) := by
  simp only [FieldSpec.read, hkind, FieldSpec.Allows, true_and]

theorem applyString_unchanged_iff {s : String} :
    applyString f s prefs = .unchanged ↔
      (s.length ≤ f.cap ∧ Plain s) ∧ prefs.getString f.key f.defaultStr = s := by
  rw [applyString, ← hasControlBytes_eq_false_iff]
  change (if s.length > f.cap then ApplyOutcome.rejected else _) = _ ↔ _
  split_ifs with hlen hcontrol hsame
  · exact iff_of_false (fun h => by cases h) fun h => Nat.not_le.mpr hlen h.1.1
  · exact iff_of_false (fun h => by cases h) fun h => Bool.false_ne_true (h.1.2.symm.trans hcontrol)
  · exact iff_of_true rfl ⟨⟨Nat.not_lt.mp hlen, (Bool.not_eq_true _).mp hcontrol⟩, hsame⟩
  · exact iff_of_false (fun h => by cases h) fun h => hsame h.2

theorem applyScalar_string (hkind : f.kind = .string) (s : String) :
    applyScalar f (.string s) prefs = applyString f s prefs := by
  simp only [applyScalar, hkind]

theorem ofUInt32_lt_iff {a b : UInt32} :
    Float.ofNat a.toNat < Float.ofNat b.toNat ↔ a < b := by
  rw [Double.ofNat_lt_ofNat_iff (Nat.lt_trans a.toNat_lt (by decide))
    (Nat.lt_trans b.toNat_lt (by decide))]
  exact UInt32.lt_iff_toNat_lt.symm

theorem not_ofUInt32_neg (a : UInt32) : ¬ Float.ofNat a.toNat < 0 := by
  have hzero := ofUInt32_lt_iff (a := a) (b := 0)
  exact fun h => UInt32.not_lt_zero (hzero.mp h)

theorem applyUint_unchanged_iff {v : UInt32}
    (hv : prefs.getU32 f.key f.defaultInt.toUInt32 = v) :
    applyUint f (Float.ofNat v.toNat) prefs = .unchanged ↔ f.InRange v := by
  rw [applyUint, if_neg (not_ofUInt32_neg v), FieldSpec.InRange]
  simp only [ofUInt32_lt_iff, Double.castUInt32_ofNat, hv, if_true]
  split_ifs with hmax hmin
  · exact iff_of_false (fun h => by cases h) fun h => UInt32.not_le.mpr hmax.2 (h.2 hmax.1)
  · exact iff_of_false (fun h => by cases h) fun h => UInt32.not_le.mpr hmin.2 (h.1 hmin.1)
  · refine iff_of_true rfl ⟨fun hne => ?_, fun hne => ?_⟩
    · exact UInt32.not_lt.mp fun hlt => hmin ⟨hne, hlt⟩
    · exact UInt32.not_lt.mp fun hlt => hmax ⟨hne, hlt⟩

theorem applyUChar_unchanged_iff {v : UInt8}
    (hv : prefs.getU8 f.key f.defaultInt.toUInt32.toUInt8 = v) :
    applyUChar f (Float.ofNat v.toUInt32.toNat) prefs = .unchanged ↔
      (f.maxValue ≠ 0 → v.toUInt32 ≤ f.maxValue) := by
  rw [applyUChar, if_neg (not_ofUInt32_neg _)]
  simp only [ofUInt32_lt_iff, Double.castUInt32_ofNat, hv, UInt8.toUInt8_toUInt32, if_true]
  split_ifs with hmax
  · exact iff_of_false (fun h => by cases h) fun h => UInt32.not_le.mpr hmax.2 (h hmax.1)
  · exact iff_of_true rfl fun hne => UInt32.not_lt.mp fun hlt => hmax ⟨hne, hlt⟩

/-- A field takes back what it shows when the schema allows it. -/
theorem applyScalar_emitField (hf : f ∈ kFields) (prefs : Prefs) :
    applyScalar f (emitField prefs f).2 prefs = .unchanged ↔ f.Allows (f.read prefs) := by
  simp only [applyScalar, emitField, FieldSpec.read]
  cases hkind : f.kind with
  | string =>
      dsimp only [FieldSpec.Allows]
      rw [applyString_unchanged_iff, and_iff_left rfl, and_iff_right hkind]
  | uint =>
      dsimp only [FieldSpec.Allows, ofUInt32]
      rw [applyUint_unchanged_iff rfl, hkind]
      simp
  | int =>
      dsimp only [FieldSpec.Allows, ofInt32]
      rw [applyInt, Double.castInt32_ofInt, if_pos rfl, hkind]
      simp
  | uChar =>
      dsimp only [FieldSpec.Allows, ofUInt32]
      rw [applyUChar_unchanged_iff rfl, hkind, FieldSpec.InRange, (uChar_bounds f hf hkind).1]
      simp
  | bool =>
      dsimp only [FieldSpec.Allows]
      rw [applyBool, if_pos rfl, hkind]
      simp

theorem patchField_unchanged_iff {ctx : DeviceContext} {root : Json} {key : String} {item : Json} :
    patchField ctx root f key item prefs = .ok {} ↔
      checkMember ctx root (relayCsv prefs) key item = .ok () ∧
        applyScalar f item prefs = .unchanged := by
  rw [patchField]
  cases hcheck : checkMember ctx root (relayCsv prefs) key item with
  | error e => exact iff_of_false (fun h => by cases h) fun h => by cases h.1
  | ok _ =>
      dsimp only
      cases happly : applyScalar f item prefs with
      | rejected => exact iff_of_false (fun h => by cases h) fun h => by cases h.2
      | unchanged => exact iff_of_true rfl ⟨rfl, rfl⟩
      | changed w =>
          refine iff_of_false (fun h => ?_) fun h => by cases h.2
          cases congrArg Effect.writes (Except.ok.inj h)

end Field

/-! ### The walk over the members -/

/-- The field stands in the response under its own key. -/
def Shown (prefs : Prefs) (key : String) : Prop :=
  key ∉ handledBelow ∧ key ≠ kNwcUri ∧
    (key = kMiningPoolUser → activePool prefs ∉ kSecretUserPools)

section Walk

variable (ctx : DeviceContext) (prefs : Prefs)

theorem forall_memberBlocks_iff :
    (∀ block ∈ memberBlocks ctx (responseMembers ctx prefs), block prefs = .ok {}) ↔
      ∀ f ∈ kFields, f.key ∉ handledBelow → ∀ v,
        lookup f.key (responseMembers ctx prefs) = some v →
          patchField ctx (.object (responseMembers ctx prefs)) f f.key v prefs = .ok {} := by
  rw [memberBlocks, List.forall_mem_map]
  constructor
  · intro h f hf hbelow v hv
    have hmember := h (f.key, v) (Json.mem_of_getObjectItem hv)
    rwa [patchMember, if_neg hbelow, findField_key f hf] at hmember
  · intro h m hm
    rw [patchMember]
    split
    · rfl
    · rename_i hbelow
      cases hfield : findField m.1 with
      | none => rfl
      | some f =>
          obtain ⟨hf, hkey⟩ := findField_eq_some hfield
          rw [← hkey] at hbelow ⊢
          have honce := atMostOnce_response ctx prefs (List.mem_map_of_mem hf) hbelow
          refine h f hf hbelow m.2 (honce.lookup_eq ?_)
          rw [hkey]
          exact hm

theorem lookup_shown {f : FieldSpec} (hf : f ∈ kFields) (hshown : Shown prefs f.key)
    (hrelay : f.key ≠ kNostrRelay) :
    lookup f.key (responseMembers ctx prefs) = some (emitField prefs f).2 := by
  obtain ⟨hbelow, hnwc, huser⟩ := hshown
  have hfield := findField_key f hf
  by_cases hkey : f.key = kMiningPoolUser
  · rw [hkey] at hfield ⊢
    rw [lookup_miningPoolUser ctx prefs hfield, if_neg (huser hkey)]
  · refine lookup_response ctx prefs hfield ?_
    have hne : ∀ other ∈ handledBelow, f.key ≠ other :=
      fun other hother heq => hbelow (heq ▸ hother)
    simp only [replacedKeys, List.forall_mem_cons]
    exact ⟨hne _ (by decide), hne _ (by decide), hrelay, hne _ (by decide), hne _ (by decide), hnwc,
      hkey, nofun⟩

theorem lookup_notShown {f : FieldSpec} (hf : f ∈ kFields) (hbelow : f.key ∉ handledBelow)
    (hshown : ¬ Shown prefs f.key) : lookup f.key (responseMembers ctx prefs) = none := by
  by_cases hnwc : f.key = kNwcUri
  · rw [hnwc]
    exact lookup_nwcUri ctx prefs
  · have huser : f.key = kMiningPoolUser ∧ activePool prefs ∈ kSecretUserPools := by
      by_contra hnot
      exact hshown ⟨hbelow, hnwc, fun hkey hpool => hnot ⟨hkey, hpool⟩⟩
    have hfield := findField_key f hf
    rw [huser.1] at hfield ⊢
    rw [lookup_miningPoolUser ctx prefs hfield, if_pos huser.2]

/-- The first relay, which stands under the legacy key. -/
def firstRelay (prefs : Prefs) : String :=
  (splitCsv (relayCsv prefs)).headD ""

/-- The checks of the members which have one. -/
structure MembersPass (ctx : DeviceContext) (prefs : Prefs) : Prop where
  font : checkCatalog kFontName (ctx.availableFonts.map AvailableFontOption.id)
    (.string (prefs.getString kFontName (defaultStringFor kFontName))) = .ok ()
  pool : checkCatalog kMiningPoolName ctx.availablePools (.string (activePool prefs)) = .ok ()
  relay : checkNostrRelay (.string (firstRelay prefs)) = .ok ()
  nwc : checkNwcEnabled (.object (responseMembers ctx prefs)) (relayCsv prefs)
    (.bool (prefs.getBool kNwcEnabled false)) = .ok ()
  pubKey : checkNostrPubKey
    (.string (prefs.getString kNostrPubKey (defaultStringFor kNostrPubKey))) = .ok ()

theorem forall_checkMember_iff :
    (∀ f ∈ kFields, Shown prefs f.key → f.key ≠ kNostrRelay →
        checkMember ctx (.object (responseMembers ctx prefs)) (relayCsv prefs) f.key
          (emitField prefs f).2 = .ok ()) ∧
      checkNostrRelay (.string (firstRelay prefs)) = .ok () ↔ MembersPass ctx prefs := by
  have hshown : ∀ key ∈ [kFontName, kMiningPoolName, kNwcEnabled, kNostrPubKey],
      key ∉ handledBelow ∧ key ≠ kNwcUri ∧ key ≠ kMiningPoolUser ∧ key ≠ kNostrRelay := by
    decide
  constructor
  · rintro ⟨h, hrelay⟩
    have hmember : ∀ key ∈ [kFontName, kMiningPoolName, kNwcEnabled, kNostrPubKey], ∀ f,
        findField key = some f → checkMember ctx (.object (responseMembers ctx prefs))
          (relayCsv prefs) key (emitField prefs f).2 = .ok () := by
      intro key hkey f hfield
      obtain ⟨hbelow, hnwc, huser, hne⟩ := hshown key hkey
      obtain ⟨hf, rfl⟩ := findField_eq_some hfield
      exact h f hf ⟨hbelow, hnwc, fun heq => absurd heq huser⟩ hne
    exact
      { font := hmember kFontName (by decide) _ rfl
        pool := hmember kMiningPoolName (by decide) _ rfl
        relay := hrelay
        nwc := hmember kNwcEnabled (by decide) _ rfl
        pubKey := hmember kNostrPubKey (by decide) _ rfl }
  · intro h
    refine ⟨fun f hf hfshown hne => ?_, h.relay⟩
    have hfield := findField_key f hf
    rw [checkMember]
    split_ifs with hfont hpool hnwc huri hpub
    · rw [hfont] at hfield ⊢
      obtain rfl := Option.some.inj hfield
      exact h.font
    · rw [hpool] at hfield ⊢
      obtain rfl := Option.some.inj hfield
      exact h.pool
    · rw [hnwc] at hfield
      obtain rfl := Option.some.inj hfield
      exact h.nwc
    · exact absurd huri hfshown.2.1
    · rw [hpub] at hfield
      obtain rfl := Option.some.inj hfield
      exact h.pubKey
    · rfl

theorem checkMember_nostrRelay (root : Json) (csv : String) (item : Json) :
    checkMember ctx root csv kNostrRelay item = checkNostrRelay item := by
  rw [checkMember, if_neg (by decide), if_neg (by decide), if_pos rfl]

/-- The walk changes nothing when each field which is shown is allowed by the schema and passes its
check, and the legacy slot holds the first relay. -/
theorem walk_unchanged_iff :
    (∀ block ∈ memberBlocks ctx (responseMembers ctx prefs), block prefs = .ok {}) ↔
      (∀ f ∈ kFields, Shown prefs f.key → f.Allows (f.read prefs)) ∧ MembersPass ctx prefs ∧
        prefs.getString kNostrRelay kDefaultRelay = firstRelay prefs := by
  rw [forall_memberBlocks_iff, ← forall_checkMember_iff]
  constructor
  · intro h
    have hrelay := h _ (findField_eq_some findField_nostrRelay).1 (by decide) _
      (lookup_nostrRelay ctx prefs)
    obtain ⟨hcheck, happly⟩ := patchField_unchanged_iff.mp hrelay
    rw [checkMember_nostrRelay] at hcheck
    rw [applyScalar_string rfl, applyString_unchanged_iff] at happly
    obtain ⟨hfits, hlegacy⟩ := happly
    have hmember : ∀ f ∈ kFields, Shown prefs f.key → f.key ≠ kNostrRelay →
        checkMember ctx (.object (responseMembers ctx prefs)) (relayCsv prefs) f.key
            (emitField prefs f).2 = .ok () ∧
          applyScalar f (emitField prefs f).2 prefs = .unchanged := by
      intro f hf hshown hne
      exact patchField_unchanged_iff.mp
        (h f hf hshown.1 _ (lookup_shown ctx prefs hf hshown hne))
    refine ⟨fun f hf hshown => ?_, ⟨fun f hf hshown hne => (hmember f hf hshown hne).1, hcheck⟩,
      hlegacy⟩
    by_cases hkey : f.key = kNostrRelay
    · have hfield := findField_key f hf
      rw [hkey, findField_nostrRelay] at hfield
      obtain rfl := Option.some.inj hfield
      rw [← hlegacy] at hfits
      exact (allows_read_string_iff rfl).mpr hfits
    · exact (applyScalar_emitField hf prefs).mp (hmember f hf hshown hkey).2
  · rintro ⟨hallowed, ⟨hcheck, hrelay⟩, hlegacy⟩ f hf hbelow v hv
    by_cases hshown : Shown prefs f.key
    · by_cases hkey : f.key = kNostrRelay
      · rw [hkey, lookup_nostrRelay] at hv
        obtain rfl := Option.some.inj hv
        have hfield := findField_key f hf
        rw [hkey, findField_nostrRelay] at hfield
        obtain rfl := Option.some.inj hfield
        have hfits := (allows_read_string_iff rfl).mp (hallowed _ hf hshown)
        rw [hlegacy] at hfits
        rw [patchField_unchanged_iff, checkMember_nostrRelay, applyScalar_string rfl,
          applyString_unchanged_iff]
        exact ⟨hrelay, hfits, hlegacy⟩
      · obtain rfl := Option.some.inj ((lookup_shown ctx prefs hf hshown hkey).symm.trans hv)
        exact patchField_unchanged_iff.mpr ⟨hcheck f hf hshown hkey,
          (applyScalar_emitField hf prefs).mpr (hallowed f hf hshown)⟩
    · rw [lookup_notShown ctx prefs hf hbelow hshown] at hv
      cases hv

end Walk

end Settings

end BtClock
