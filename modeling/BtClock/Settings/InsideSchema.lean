import BtClock.Arith.Truncation
import BtClock.Settings.JoinedText
import BtClock.Settings.RelayBudget

/-!
# Stored settings and the schema

Every write of a PATCH is allowed by the field of its key, except for the lists: their
entries are joined without a look at the length of the text, and those of two of them without a
look at the characters.
-/

namespace BtClock

namespace Settings

/-- The longest string of a field. -/
def FieldSpec.cap (f : FieldSpec) : ℕ :=
  if f.maxValue > 0 then f.maxValue.toNat else kDefaultStringMaxLen

/-- A bound of zero is no bound. -/
def FieldSpec.InRange (f : FieldSpec) (n : UInt32) : Prop :=
  (f.minValue ≠ 0 → f.minValue ≤ n) ∧ (f.maxValue ≠ 0 → n ≤ f.maxValue)

def FieldSpec.Allows (f : FieldSpec) : PrefValue → Prop
  | .str s => f.kind = .string ∧ s.length ≤ f.cap ∧ Plain s
  | .u32 n => f.kind ≠ .string ∧ (f.kind = .uint ∨ f.kind = .uChar → f.InRange n)

/-- Every field which is stored has a value of the schema. -/
def InsideSchema (prefs : Prefs) : Prop :=
  ∀ f ∈ kFields, ∀ v, prefs f.key = some v → f.Allows v

/-- The blocks up to the `n`-th one behind the walk over the members. -/
def blocksUpTo (ctx : DeviceContext) (members : List (String × Json)) (n : ℕ) :
    List PatchBlock :=
  memberBlocks ctx members ++ (listBlocks ctx (.object members)).take n

/-- The condition on a request, for each list whose block is reached and passes. -/
structure ListsFit (ctx : DeviceContext) (members : List (String × Json)) (prefs : Prefs) :
    Prop where
  currencies : ∀ items, (Json.object members).getObjectItem kActCurrencies = some (.array items) →
    AllAccepted (blocksUpTo ctx members 4) prefs →
      csvLength ((keptCurrencies ctx.availableCurrencies items).dropWhile (· = "")) ≤
          kDefaultStringMaxLen ∧
        ∀ s ∈ keptCurrencies ctx.availableCurrencies items, Plain s
  pubkeys : ∀ items, (Json.object members).getObjectItem kNostrZapPubkeys = some (.array items) →
    AllAccepted (blocksUpTo ctx members 6) prefs →
      (keptEntries items).length ≤ 3
  relays : ∀ items, (Json.object members).getObjectItem kNostrRelays = some (.array items) →
    AllAccepted (blocksUpTo ctx members 8) prefs →
      csvLength (keptEntries items) ≤ kDefaultStringMaxLen ∧ ∀ s ∈ keptEntries items, Plain s

/-- A request whose body comes from a text; no number of a text is a NaN. -/
structure ParsedRequest where
  ctx : DeviceContext
  body : Option Json
  number : ∀ members, body = some (.object members) →
    ∀ key d, (key, Json.number d) ∈ members → d.isNaN = false

def patchParsed (prefs : Prefs) (request : ParsedRequest) : Prefs :=
  patchStep prefs (request.ctx, request.body)

/-- A body which is not an object has nothing to fit. -/
def RequestFits (prefs : Prefs) (request : ParsedRequest) : Prop :=
  ∀ members, request.body = some (.object members) → ListsFit request.ctx members prefs

/-! ### Writes which the schema allows -/

def PrefsWrite.Allowed (w : PrefsWrite) : Prop :=
  ∀ f ∈ kFields, f.key = w.key → ∀ v, w.stored = some v → f.Allows v

theorem PrefsWrite.allowed_of_field {w : PrefsWrite} {f : FieldSpec}
    (hf : findField w.key = some f) (h : ∀ v, w.stored = some v → f.Allows v) : w.Allowed := by
  intro g hg hkey v hv
  have hfound := findField_key g hg
  rw [hkey, hf, Option.some.injEq] at hfound
  exact hfound ▸ h v hv

/-- A key which is no field of the schema. -/
theorem PrefsWrite.allowed_of_unknown {w : PrefsWrite} (h : findField w.key = none) :
    w.Allowed := by
  intro g hg hkey
  have hfound := findField_key g hg
  rw [hkey, h] at hfound
  cases hfound

theorem PrefsWrite.allowed_setBool {key : String} {f : FieldSpec} (hf : findField key = some f)
    (hkind : f.kind = .bool) (b : Bool) : (PrefsWrite.setBool key b).Allowed := by
  refine PrefsWrite.allowed_of_field hf fun v hv => ?_
  cases hv
  simp [FieldSpec.Allows, hkind]

theorem InsideSchema.apply {prefs : Prefs} (h : InsideSchema prefs) {w : PrefsWrite}
    (hw : w.Allowed) : InsideSchema (w.apply prefs) := by
  intro f hf v hv
  by_cases hkey : f.key = w.key
  · rw [hkey, PrefsWrite.apply_key] at hv
    exact hw f hf hkey v hv
  · rw [PrefsWrite.apply_of_ne hkey] at hv
    exact h f hf v hv

theorem InsideSchema.applyWrites {prefs : Prefs} (h : InsideSchema prefs)
    {ws : List PrefsWrite} (hws : ∀ w ∈ ws, w.Allowed) :
    InsideSchema (applyWrites prefs ws) := by
  induction ws generalizing prefs with
  | nil => exact h
  | cons w ws ih =>
      obtain ⟨hw, hws⟩ := List.forall_mem_cons.mp hws
      exact ih (h.apply hw) hws

/-! ### A single field -/

/-- The bounds of the schema are numbers, and truncate to themselves. -/
theorem castUInt32_bounds : ∀ f ∈ kFields,
    ((Float.ofNat f.minValue.toNat).isNaN = false ∧
        Double.castUInt32 (Float.ofNat f.minValue.toNat) = f.minValue) ∧
      (Float.ofNat f.maxValue.toNat).isNaN = false ∧
        Double.castUInt32 (Float.ofNat f.maxValue.toNat) = f.maxValue := by
  decide +kernel

theorem inRange_castUInt32 {f : FieldSpec} (hf : f ∈ kFields) {d : Float}
    (hd : d.isNaN = false)
    (hmax : ¬(f.maxValue ≠ 0 ∧ Float.ofNat f.maxValue.toNat < d))
    (hmin : ¬(f.minValue ≠ 0 ∧ d < Float.ofNat f.minValue.toNat)) :
    f.InRange (Double.castUInt32 d) := by
  obtain ⟨⟨hminNum, hminEq⟩, hmaxNum, hmaxEq⟩ := castUInt32_bounds f hf
  constructor
  · intro hne
    rw [← hminEq]
    exact Double.castUInt32_le hminNum hd fun hlt => hmin ⟨hne, hlt⟩
  · intro hne
    rw [← hmaxEq]
    exact Double.castUInt32_le hd hmaxNum fun hlt => hmax ⟨hne, hlt⟩

/-- A byte field has an upper bound only, which is a byte. -/
theorem uChar_bounds : ∀ f ∈ kFields, f.kind = .uChar → f.minValue = 0 ∧ f.maxValue ≤ 255 := by
  decide

theorem toUInt32_toUInt8_le (n : UInt32) : n.toUInt8.toUInt32 ≤ n := by
  rw [UInt32.le_iff_toNat_le, UInt8.toNat_toUInt32, UInt32.toNat_toUInt8]
  exact Nat.mod_le ..

/-- A string which the validator does not reject. -/
theorem fits_of_applyString {f : FieldSpec} {s : String} {prefs : Prefs}
    (h : applyString f s prefs ≠ .rejected) : s.length ≤ f.cap ∧ Plain s := by
  by_cases hlen : s.length > f.cap
  · exact absurd (if_pos hlen) h
  · by_cases hplain : hasControlBytes s = true
    · exact absurd ((if_neg hlen).trans (if_pos hplain)) h
    · exact ⟨Nat.le_of_not_lt hlen,
        (hasControlBytes_eq_false_iff s).mp (Bool.eq_false_of_not_eq_true hplain)⟩

/-- What the validator of a single field writes is allowed. -/
theorem allowed_of_changed {f : FieldSpec} (hf : f ∈ kFields) {item : Json}
    (hitem : ∀ d, item = .number d → d.isNaN = false) {prefs : Prefs} {w : PrefsWrite}
    (h : applyScalar f item prefs = .changed w) : w.Allowed := by
  have hfield : findField w.key = some f := by
    rw [(of_changed h).1, findField_key f hf]
  refine PrefsWrite.allowed_of_field hfield fun v hv => ?_
  simp only [applyScalar] at h
  split at h
  · rename_i s hkind
    obtain ⟨hlen, hplain⟩ := fits_of_applyString (by rw [h]; rintro ⟨⟩)
    simp only [applyString] at h
    (repeat' split at h) <;> cases h
    all_goals
      cases hv
      exact ⟨hkind, hlen, hplain⟩
  · rename_i d hkind
    simp only [applyUint] at h
    (repeat' split at h) <;> cases h
    rename_i hmax hmin _
    cases hv
    exact ⟨by simp [hkind], fun _ => inRange_castUInt32 hf (hitem d rfl) hmax hmin⟩
  · rename_i d hkind
    simp only [applyInt] at h
    (repeat' split at h) <;> cases h
    cases hv
    simp [FieldSpec.Allows, hkind]
  · rename_i d hkind
    simp only [applyUChar] at h
    (repeat' split at h) <;> cases h
    rename_i hmax _
    cases hv
    obtain ⟨hzero, -⟩ := uChar_bounds f hf hkind
    have hrange := inRange_castUInt32 hf (hitem d rfl) hmax fun hmin => hmin.1 hzero
    refine ⟨by simp [hkind], fun _ => ⟨fun hne => absurd hzero hne, fun hne => ?_⟩⟩
    exact UInt32.le_trans (toUInt32_toUInt8_le _) (hrange.2 hne)
  · rename_i b hkind
    simp only [applyBool] at h
    (repeat' split at h) <;> cases h
    cases hv
    simp [FieldSpec.Allows, hkind]
  · cases h

/-- What is written by a block at a store is allowed. -/
def WritesAllowed (block : PatchBlock) (prefs : Prefs) : Prop :=
  ∀ effect, block prefs = .ok effect → ∀ w ∈ effect.writes, w.Allowed

theorem writesAllowed_patchMember {ctx : DeviceContext} {root : Json} {m : String × Json}
    (hm : ∀ d, m.2 = .number d → d.isNaN = false) (prefs : Prefs) :
    WritesAllowed (patchMember ctx root m) prefs := by
  intro effect hb w hw
  rcases patchMember_cases ctx root m with ⟨-, heq⟩ | ⟨spec, -, hspec, heq⟩
  · rw [heq] at hb
    cases hb
    cases hw
  · rw [heq] at hb
    rcases patchField_eq_ok hb with ⟨-, ⟨-, hwrites⟩ | ⟨u, hscalar, hwrites⟩⟩
    · rw [hwrites] at hw
      cases hw
    · rw [hwrites] at hw
      rw [List.mem_singleton.mp hw]
      exact allowed_of_changed (findField_eq_some hspec).1 hm hscalar

theorem fits_of_patchField {ctx : DeviceContext} {root : Json} {spec : FieldSpec} {key s : String}
    (hkind : spec.kind = .string) {prefs : Prefs} {effect : Effect}
    (h : patchField ctx root spec key (.string s) prefs = .ok effect) :
    s.length ≤ spec.cap ∧ Plain s := by
  have hstring : applyScalar spec (.string s) prefs = applyString spec s prefs := by
    simp only [applyScalar, hkind]
  refine fits_of_applyString fun hrej : applyString spec s prefs = .rejected => ?_
  rcases (patchField_eq_ok h).2 with ⟨heq, -⟩ | ⟨w, heq, -⟩
  · rw [hstring, hrej] at heq
    cases heq
  · rw [hstring, hrej] at heq
    cases heq

/-! ### The other blocks -/

theorem writesAllowed_skip (prefs : Prefs) : WritesAllowed skip prefs := by
  intro effect hb w hw
  cases hb
  cases hw

theorem writesAllowed_of_unknown {K : String → Prop} {block : PatchBlock}
    (h : WritesOnly K block) (hK : ∀ key, K key → findField key = none) (prefs : Prefs) :
    WritesAllowed block prefs :=
  fun effect hb w hw => PrefsWrite.allowed_of_unknown (hK _ (h prefs effect hb w hw))

theorem findField_colors : findField "fgColor" = none ∧ findField "bgColor" = none := by
  decide

theorem writesAllowed_patchInvertedColor (root : Json) (prefs : Prefs) :
    WritesAllowed (patchInvertedColor root) prefs := by
  rw [patchInvertedColor]
  split
  · intro effect hb w hw
    cases hb
    have hmem := mem_writes_of_ite hw
    simp only [List.mem_cons, List.not_mem_nil, or_false] at hmem
    rcases hmem with rfl | rfl | rfl
    · exact PrefsWrite.allowed_setBool rfl rfl _
    · exact PrefsWrite.allowed_of_unknown findField_colors.1
    · exact PrefsWrite.allowed_of_unknown findField_colors.2
  · exact writesAllowed_skip prefs

theorem writesAllowed_patchDndTimeEnabled (root : Json) (prefs : Prefs) :
    WritesAllowed (patchDndTimeEnabled root) prefs := by
  rw [patchDndTimeEnabled]
  split
  · intro effect hb w hw
    cases hb
    rw [List.mem_singleton.mp (mem_writes_of_ite hw)]
    exact PrefsWrite.allowed_setBool rfl rfl _
  · exact writesAllowed_skip prefs

theorem le_of_inRange {v hi : Float} {n : UInt32} (hhi : Double.castUInt32 hi = n)
    (h : inRange v 0 hi = true) : Double.castUInt32 v ≤ n := by
  simp only [inRange, Bool.and_eq_true, decide_eq_true_eq] at h
  rw [← hhi]
  exact Double.castUInt32_le_of_le h.2

theorem checkDnd_eq_ok {sh sm eh em : Float} {t : DndTimes} (h : checkDnd sh sm eh em = .ok t) :
    t.startHour ≤ 23 ∧ t.startMinute ≤ 59 ∧ t.endHour ≤ 23 ∧ t.endMinute ≤ 59 := by
  have hhour : Double.castUInt32 23 = 23 := by decide
  have hminute : Double.castUInt32 59 = 59 := by decide
  simp only [checkDnd, Bool.and_eq_true] at h
  split at h
  · rename_i hrange
    obtain ⟨⟨⟨hsh, heh⟩, hsm⟩, hem⟩ := hrange
    cases h
    exact ⟨le_of_inRange hhour hsh, le_of_inRange hminute hsm, le_of_inRange hhour heh,
      le_of_inRange hminute hem⟩
  · cases h

/-- A time of the day, whose field has an upper bound only. -/
theorem PrefsWrite.allowed_setU32 {key : String} {f : FieldSpec} (hf : findField key = some f)
    (hkind : f.kind = .uint) (hzero : f.minValue = 0) {n : UInt32} (hn : n ≤ f.maxValue) :
    (PrefsWrite.setU32 key n).Allowed := by
  refine PrefsWrite.allowed_of_field hf fun v hv => ?_
  cases hv
  exact ⟨by simp [hkind], fun _ => ⟨fun hne => absurd hzero hne, fun _ => hn⟩⟩

theorem writesAllowed_patchDnd (root : Json) (prefs : Prefs) :
    WritesAllowed (patchDnd root) prefs := by
  rw [patchDnd]
  split
  · rename_i sh sm eh em _ _ _ _
    intro effect hb w hw
    cases hcheck : checkDnd sh sm eh em with
    | error e =>
        rw [validated, hcheck] at hb
        cases hb
    | ok t =>
        rw [validated, hcheck] at hb
        cases hb
        obtain ⟨hsh, hsm, heh, hem⟩ := checkDnd_eq_ok hcheck
        have hmem := mem_writes_of_ite hw
        simp only [List.mem_cons, List.not_mem_nil, or_false] at hmem
        rcases hmem with rfl | rfl | rfl | rfl
        · exact PrefsWrite.allowed_setU32 rfl rfl rfl hsh
        · exact PrefsWrite.allowed_setU32 rfl rfl rfl hsm
        · exact PrefsWrite.allowed_setU32 rfl rfl rfl heh
        · exact PrefsWrite.allowed_setU32 rfl rfl rfl hem
  · exact writesAllowed_skip prefs

theorem findField_visibleKey (id : Int32) : findField (visibleKey id) = none := by
  have hnone : ∀ f ∈ kFields, f.key.toList.take 6 ≠ "screen".toList := by decide
  cases hf : findField (visibleKey id) with
  | none => rfl
  | some f =>
      obtain ⟨hmem, hkey⟩ := findField_eq_some hf
      refine absurd ?_ (hnone f hmem)
      rw [hkey]
      simp [visibleKey, List.take_take, List.take_append]

theorem writesAllowed_nestedBlocks {ctx : DeviceContext} {root : Json} {block : PatchBlock}
    (h : block ∈ nestedBlocks ctx root) (prefs : Prefs) : WritesAllowed block prefs := by
  simp only [nestedBlocks, List.cons_append, List.mem_cons, List.mem_append, List.mem_map,
    List.not_mem_nil, or_false] at h
  rcases h with rfl | ⟨s, -, rfl⟩ | rfl | rfl
  · refine writesAllowed_of_unknown (writesOnly_patchScreenOrder ctx root) ?_ prefs
    rintro key rfl
    decide
  · refine writesAllowed_of_unknown (writesOnly_patchVisible ctx s) ?_ prefs
    rintro key ⟨id, rfl⟩
    exact findField_visibleKey id
  · exact writesAllowed_patchDndTimeEnabled root prefs
  · exact writesAllowed_patchDnd root prefs

/-! ### The blocks of the lists -/

def listKeys : List String :=
  [kActCurrencies, kNostrZapPubkeys, kNostrRelays]

/-- A text which the field of a list allows. -/
def FitsText (s : String) : Prop :=
  s.length ≤ kDefaultStringMaxLen ∧ Plain s

instance (s : String) : Decidable (FitsText s) :=
  inferInstanceAs (Decidable (_ ∧ _))

theorem exists_listField {key : String} (h : key ∈ listKeys) :
    ∃ f, findField key = some f ∧ f.kind = .string ∧ f.cap = kDefaultStringMaxLen := by
  simp only [listKeys, List.mem_cons, List.not_mem_nil, or_false] at h
  rcases h with rfl | rfl | rfl
  · exact ⟨_, rfl, rfl, rfl⟩
  · exact ⟨_, rfl, rfl, rfl⟩
  · exact ⟨_, rfl, rfl, rfl⟩

theorem allowed_storeString {key : String} (hkey : key ∈ listKeys) {value : String}
    (hfits : FitsText value) {d : String} {bootOnly : Bool} {prefs : Prefs} :
    ∀ w ∈ (storeString key d value bootOnly prefs).writes, w.Allowed := by
  intro w hw
  obtain ⟨f, hf, hkind, hcap⟩ := exists_listField hkey
  rw [List.mem_singleton.mp (mem_writes_of_ite hw)]
  refine PrefsWrite.allowed_of_field hf fun v hv => ?_
  cases hv
  exact ⟨hkind, hcap ▸ hfits.1, hfits.2⟩

/-- The stored text of a list, or its default. -/
theorem InsideSchema.fits_getString {prefs : Prefs} (h : InsideSchema prefs) {key : String}
    (hkey : key ∈ listKeys) {d : String} (hd : FitsText d) : FitsText (prefs.getString key d) := by
  obtain ⟨f, hf, -, hcap⟩ := exists_listField hkey
  obtain ⟨hmem, hfkey⟩ := findField_eq_some hf
  rw [Prefs.getString]
  split
  · rename_i s hs
    obtain ⟨-, hlen, hplain⟩ := h f hmem (.str s) (by rw [hfkey, hs])
    exact ⟨hcap ▸ hlen, hplain⟩
  · exact hd

theorem patchActCurrencies_eq_ok {ctx : DeviceContext} {root : Json} {items : List Json}
    (hitems : root.getObjectItem kActCurrencies = some (.array items)) {prefs : Prefs}
    {effect : Effect} (h : patchActCurrencies ctx root prefs = .ok effect) :
    effect = storeString kActCurrencies "USD,EUR,JPY"
      (joinCsv (keptCurrencies ctx.availableCurrencies items)) false prefs := by
  simp only [patchActCurrencies, hitems, validated] at h
  cases hjoin : joinCurrencies ctx.availableCurrencies items "" with
  | error e => rw [hjoin] at h; cases h
  | ok joined =>
      rw [hjoin] at h
      cases h
      rw [joinCurrencies_eq hjoin, joinCsv]

theorem patchZapPubkeys_eq_ok {root : Json} {items : List Json}
    (hitems : root.getObjectItem kNostrZapPubkeys = some (.array items)) {prefs : Prefs}
    {effect : Effect} (h : patchZapPubkeys root prefs = .ok effect) :
    effect = storeString kNostrZapPubkeys "" (joinCsv (keptEntries items)) false prefs ∧
      ∀ s ∈ keptEntries items, checkPubkey kNostrZapPubkeys s = .ok () := by
  simp only [patchZapPubkeys, hitems, validated] at h
  cases hjoin : joinPubkeys items 0 "" with
  | error e => rw [hjoin] at h; cases h
  | ok joined =>
      rw [hjoin] at h
      cases h
      obtain ⟨hout, hall⟩ := joinPubkeys_eq hjoin
      exact ⟨by rw [hout, joinCsv], hall⟩

theorem patchRelays_eq_ok {root : Json} {items : List Json}
    (hitems : root.getObjectItem kNostrRelays = some (.array items)) {prefs : Prefs}
    {effect : Effect} (h : patchRelays root prefs = .ok effect) :
    effect = storeString kNostrRelays "" (joinCsv (keptEntries items)) true prefs := by
  simp only [patchRelays, hitems, validated, checkRelays] at h
  cases hjoin : joinRelays items 0 "" with
  | error e => rw [hjoin] at h; cases h
  | ok out =>
      obtain ⟨n, joined⟩ := out
      rw [hjoin] at h
      simp only at h
      split at h
      · cases h
      · cases h
        rw [joinRelays_eq hjoin, joinCsv]

/-- A block of a list does nothing without the list. -/
theorem writesAllowed_of_list (root : Json) (key : String) {block : PatchBlock} {prefs : Prefs}
    (hskip : (∀ items, root.getObjectItem key ≠ some (.array items)) → block = skip)
    (h : ∀ items, root.getObjectItem key = some (.array items) → WritesAllowed block prefs) :
    WritesAllowed block prefs := by
  by_cases hlist : ∃ items, root.getObjectItem key = some (.array items)
  · obtain ⟨items, hitems⟩ := hlist
    exact h items hitems
  · rw [hskip fun items hitems => hlist ⟨items, hitems⟩]
    exact writesAllowed_skip prefs

theorem writesAllowed_patchActCurrencies {ctx : DeviceContext} {root : Json} {prefs : Prefs}
    (h : ∀ items, root.getObjectItem kActCurrencies = some (.array items) →
      FitsText (joinCsv (keptCurrencies ctx.availableCurrencies items))) :
    WritesAllowed (patchActCurrencies ctx root) prefs := by
  refine writesAllowed_of_list root kActCurrencies ?_ fun items hitems effect hb w hw => ?_
  · intro hnone
    rw [patchActCurrencies]
    split
    · rename_i items hitems
      exact absurd hitems (hnone items)
    · rfl
  · rw [patchActCurrencies_eq_ok hitems hb] at hw
    exact allowed_storeString (by decide) (h items hitems) w hw

theorem fitsText_of_checkPubkey {key s : String} (h : checkPubkey key s = .ok ()) :
    FitsText s := by
  refine ⟨?_, plain_of_checkPubkey h⟩
  rw [(checkPubkey_eq_ok h).1]
  decide

/-- The legacy key is a single public key, or blank. -/
theorem writesAllowed_patchZapPubkey (root : Json) (prefs : Prefs) :
    WritesAllowed (patchZapPubkey root) prefs := by
  rw [patchZapPubkey]
  split
  · exact writesAllowed_skip prefs
  · rename_i s _ _
    intro effect hb w hw
    by_cases hs : s = ""
    · simp only [validated, if_pos hs] at hb
      cases hb
      exact allowed_storeString (by decide) (by rw [hs]; decide) w hw
    · simp only [validated, if_neg hs] at hb
      cases hcheck : checkPubkey kNostrZapPubkey s with
      | error e =>
          rw [hcheck] at hb
          cases hb
      | ok u =>
          rw [hcheck] at hb
          cases hb
          exact allowed_storeString (by decide) (fitsText_of_checkPubkey hcheck) w hw
  · exact writesAllowed_skip prefs

theorem writesAllowed_patchZapPubkeys {root : Json} {prefs : Prefs}
    (h : ∀ items, root.getObjectItem kNostrZapPubkeys = some (.array items) →
      (∀ s ∈ keptEntries items, checkPubkey kNostrZapPubkeys s = .ok ()) →
        FitsText (joinCsv (keptEntries items))) :
    WritesAllowed (patchZapPubkeys root) prefs := by
  refine writesAllowed_of_list root kNostrZapPubkeys ?_ fun items hitems effect hb w hw => ?_
  · intro hnone
    rw [patchZapPubkeys]
    split
    · rename_i items hitems
      exact absurd hitems (hnone items)
    · rfl
  · obtain ⟨rfl, hall⟩ := patchZapPubkeys_eq_ok hitems hb
    exact allowed_storeString (by decide) (h items hitems hall) w hw

theorem writesAllowed_patchRelay {root : Json} {prefs : Prefs}
    (h : ∀ s, root.getObjectItem kNostrRelay = some (.string s) → FitsText s) :
    WritesAllowed (patchRelay root) prefs := by
  rw [patchRelay]
  split
  · exact writesAllowed_skip prefs
  · rename_i s hs _
    intro effect hb w hw
    cases hb
    exact allowed_storeString (by decide) (h s hs) w hw
  · exact writesAllowed_skip prefs

theorem writesAllowed_patchRelays {root : Json} {prefs : Prefs}
    (h : ∀ items, root.getObjectItem kNostrRelays = some (.array items) →
      FitsText (joinCsv (keptEntries items))) :
    WritesAllowed (patchRelays root) prefs := by
  refine writesAllowed_of_list root kNostrRelays ?_ fun items hitems effect hb w hw => ?_
  · intro hnone
    rw [patchRelays]
    split
    · rename_i items hitems
      exact absurd hitems (hnone items)
    · rfl
  · rw [patchRelays_eq_ok hitems hb] at hw
    exact allowed_storeString (by decide) (h items hitems) w hw

theorem fitsText_currencies_iff (valid : List String) (items : List Json) :
    FitsText (joinCsv (keptCurrencies valid items)) ↔
      csvLength ((keptCurrencies valid items).dropWhile (· = "")) ≤ kDefaultStringMaxLen ∧
        ∀ s ∈ keptCurrencies valid items, Plain s := by
  rw [FitsText, length_joinCsv, plain_joinCsv]

theorem ne_empty_of_mem_keptEntries {items : List Json} {s : String}
    (h : s ∈ keptEntries items) : s ≠ "" := by
  simpa using List.of_mem_filter h

theorem fitsText_entries_iff (items : List Json) :
    FitsText (joinCsv (keptEntries items)) ↔
      csvLength (keptEntries items) ≤ kDefaultStringMaxLen ∧
        ∀ s ∈ keptEntries items, Plain s := by
  rw [FitsText, length_joinCsv_of_nonempty fun s => ne_empty_of_mem_keptEntries, plain_joinCsv]

/-- Three public keys fit, four do not. -/
theorem fitsText_pubkeys_iff {items : List Json}
    (h : ∀ s ∈ keptEntries items, checkPubkey kNostrZapPubkeys s = .ok ()) :
    FitsText (joinCsv (keptEntries items)) ↔ (keptEntries items).length ≤ 3 := by
  have hlen : (keptEntries items).map (fun s => s.length + 1) =
      List.replicate (keptEntries items).length 65 := by
    rw [← List.map_const']
    exact List.map_congr_left fun s hs => by rw [(checkPubkey_eq_ok (h s hs)).1]
  rw [fitsText_entries_iff, csvLength, hlen, List.sum_replicate_nat]
  constructor
  · intro hfits
    have hmax := hfits.1
    simp only [kDefaultStringMaxLen] at hmax
    omega
  · intro hthree
    refine ⟨?_, fun s hs => plain_of_checkPubkey (h s hs)⟩
    simp only [kDefaultStringMaxLen]
    omega

/-! ### One request -/

theorem InsideSchema.storeAfter {prefs : Prefs} (h : InsideSchema prefs) {bs : List PatchBlock}
    (hbs : ∀ block ∈ bs, ∀ store, WritesAllowed block store) :
    InsideSchema (storeAfter bs prefs) :=
  storeAfter_invariant (fun block hmem store effect hstore hb =>
    hstore.applyWrites (hbs block hmem store effect hb)) h

/-- One more block, whose writes are looked at once all blocks are accepted. -/
theorem InsideSchema.snoc {bs cs : List PatchBlock} {block : PatchBlock} {prefs : Prefs}
    (h : InsideSchema (Settings.storeAfter bs prefs)) (hcs : cs = bs ++ [block])
    (hblock : AllAccepted cs prefs → WritesAllowed block (Settings.storeAfter bs prefs)) :
    InsideSchema (Settings.storeAfter cs prefs) := by
  subst hcs
  rcases storeAfter_append bs [block] prefs with ⟨hall, heq⟩ | ⟨-, heq⟩
  · rw [heq]
    cases hb : block (Settings.storeAfter bs prefs) with
    | error e =>
        rw [storeAfter_cons_error hb]
        exact h
    | ok effect =>
        rw [storeAfter_cons_ok hb]
        refine h.applyWrites (hblock ?_ effect hb)
        rw [allAccepted_append]
        exact ⟨hall, effect, hb, trivial⟩
  · rw [heq]
    exact h

/-- What a block of a list leaves in the store, when nothing behind it writes the list. -/
theorem fits_of_insideSchema_storeAfter {bs cs : List PatchBlock} {block : PatchBlock}
    {prefs : Prefs} {key d text : String} {bootOnly : Bool} (hkey : key ∈ listKeys)
    (hd : FitsText d) (hall : AllAccepted (bs ++ [block]) prefs)
    (hblock : ∀ effect, block (storeAfter bs prefs) = .ok effect →
      effect = storeString key d text bootOnly (storeAfter bs prefs))
    (hcs : ∀ b ∈ cs, WritesOnly (· ≠ key) b)
    (h : InsideSchema (storeAfter (bs ++ [block] ++ cs) prefs)) : FitsText text := by
  have hfits := h.fits_getString hkey hd
  rw [storeAfter_append_of_accepted hall,
    Prefs.getString_congr (storeAfter_frame hcs (not_not_intro rfl) _)] at hfits
  obtain ⟨hbs, effect, hb, -⟩ := (allAccepted_append bs [block] prefs).mp hall
  rw [storeAfter_append_of_accepted hbs, storeAfter_cons_ok hb, storeAfter_nil, hblock effect hb,
    getString_storeString] at hfits
  exact hfits

section Request

variable {ctx : DeviceContext} {members : List (String × Json)} {prefs : Prefs}

/-- A legacy relay was looked at in the walk over the members. -/
theorem fits_of_allAccepted_members (h : AllAccepted (memberBlocks ctx members) prefs)
    {s : String} (hs : (Json.object members).getObjectItem kNostrRelay = some (.string s)) :
    FitsText s := by
  obtain ⟨store, effect, hok⟩ := h.exists_ok (List.mem_map_of_mem (Json.mem_of_getObjectItem hs))
  have hbelow : kNostrRelay ∉ handledBelow := by decide
  simp only [patchMember, if_neg hbelow, findField_nostrRelay] at hok
  exact fits_of_patchField rfl hok

variable (ctx members) in
theorem blocksUpTo_succ {n : ℕ} {block : PatchBlock}
    (h : (listBlocks ctx (.object members))[n]? = some block) :
    blocksUpTo ctx members (n + 1) = blocksUpTo ctx members n ++ [block] := by
  rw [blocksUpTo, blocksUpTo, List.take_add_one, h, List.append_assoc]
  rfl

variable (ctx members) in
theorem blocks_eq :
    blocks ctx members = blocksUpTo ctx members 8 ++ nestedBlocks ctx (.object members) :=
  rfl

theorem InsideSchema.blocksUpTo_three (h : InsideSchema prefs)
    (hnumber : ∀ key d, (key, Json.number d) ∈ members → d.isNaN = false) :
    InsideSchema (Settings.storeAfter (blocksUpTo ctx members 3) prefs) := by
  refine h.storeAfter fun block hblock store => ?_
  rcases List.mem_append.mp hblock with hblock | hblock
  · obtain ⟨⟨key, item⟩, hm, rfl⟩ := List.mem_map.mp hblock
    refine writesAllowed_patchMember (fun d hd => hnumber key d ?_) store
    obtain rfl : item = .number d := hd
    exact hm
  · simp only [listBlocks, List.take_succ_cons, List.take_zero, List.mem_cons,
      List.not_mem_nil, or_false] at hblock
    rcases hblock with rfl | rfl | rfl
    · exact writesAllowed_patchInvertedColor _ store
    · refine writesAllowed_of_unknown (writesOnly_patchTimePerScreen _) ?_ store
      rintro key rfl
      decide
    · refine writesAllowed_of_unknown (writesOnly_patchTxPower _) ?_ store
      rintro key rfl
      decide

/-- A request which meets the condition keeps the store inside the schema. -/
theorem InsideSchema.runBlocks (h : InsideSchema prefs)
    (hnumber : ∀ key d, (key, Json.number d) ∈ members → d.isNaN = false)
    (hfit : ListsFit ctx members prefs) :
    InsideSchema (Settings.storeAfter (blocks ctx members) prefs) := by
  have h3 : InsideSchema (Settings.storeAfter (blocksUpTo ctx members 3) prefs) :=
    h.blocksUpTo_three hnumber
  have h4 : InsideSchema (Settings.storeAfter (blocksUpTo ctx members 4) prefs) := by
    refine h3.snoc (blocksUpTo_succ ctx members rfl) fun hall => ?_
    refine writesAllowed_patchActCurrencies fun items hitems => ?_
    exact (fitsText_currencies_iff _ _).mpr (hfit.currencies items hitems hall)
  have h5 : InsideSchema (Settings.storeAfter (blocksUpTo ctx members 5) prefs) :=
    h4.snoc (blocksUpTo_succ ctx members rfl) fun _ => writesAllowed_patchZapPubkey _ _
  have h6 : InsideSchema (Settings.storeAfter (blocksUpTo ctx members 6) prefs) := by
    refine h5.snoc (blocksUpTo_succ ctx members rfl) fun hall => ?_
    refine writesAllowed_patchZapPubkeys fun items hitems hkeys => ?_
    exact (fitsText_pubkeys_iff hkeys).mpr (hfit.pubkeys items hitems hall)
  have h7 : InsideSchema (Settings.storeAfter (blocksUpTo ctx members 7) prefs) := by
    refine h6.snoc (blocksUpTo_succ ctx members rfl) fun hall => ?_
    refine writesAllowed_patchRelay fun s hs => ?_
    exact fits_of_allAccepted_members ((allAccepted_append _ _ _).mp hall).1 hs
  have h8 : InsideSchema (Settings.storeAfter (blocksUpTo ctx members 8) prefs) := by
    refine h7.snoc (blocksUpTo_succ ctx members rfl) fun hall => ?_
    refine writesAllowed_patchRelays fun items hitems => ?_
    exact (fitsText_entries_iff items).mpr (hfit.relays items hitems hall)
  rw [blocks_eq]
  rcases storeAfter_append (blocksUpTo ctx members 8) (nestedBlocks ctx (.object members)) prefs
    with ⟨-, heq⟩ | ⟨-, heq⟩
  · rw [heq]
    exact h8.storeAfter fun block hblock store => writesAllowed_nestedBlocks hblock store
  · rw [heq]
    exact h8

theorem writesOnly_nestedBlocks {root : Json} {block : PatchBlock}
    (h : block ∈ nestedBlocks ctx root) : WritesOnly (· ∉ listKeys) block := by
  simp only [nestedBlocks, List.cons_append, List.mem_cons, List.mem_append, List.mem_map,
    List.not_mem_nil, or_false] at h
  rcases h with rfl | ⟨s, -, rfl⟩ | rfl | rfl
  · exact (writesOnly_patchScreenOrder ctx root).mono fun key hkey => hkey ▸ by decide
  · refine (writesOnly_patchVisible ctx s).mono ?_
    rintro key ⟨id, rfl⟩ hmem
    obtain ⟨f, hf, -⟩ := exists_listField hmem
    rw [findField_visibleKey] at hf
    cases hf
  · exact (writesOnly_patchDndTimeEnabled root).mono fun key hkey => hkey ▸ by decide
  · exact (writesOnly_patchDnd root).mono (by decide)

/-- What the block at place `n` leaves in the store, when the ones behind leave its list alone. -/
theorem fits_of_insideSchema {n : ℕ} {block : PatchBlock}
    (hn : (listBlocks ctx (.object members))[n]? = some block) {key d text : String}
    {bootOnly : Bool} (hkey : key ∈ listKeys) (hd : FitsText d)
    (hall : AllAccepted (blocksUpTo ctx members (n + 1)) prefs)
    (hblock : ∀ store effect, block store = .ok effect →
      effect = storeString key d text bootOnly store)
    (hbehind : ∀ b ∈ (listBlocks ctx (.object members)).drop (n + 1), WritesOnly (· ≠ key) b)
    (h : InsideSchema (Settings.storeAfter (blocks ctx members) prefs)) : FitsText text := by
  have hsplit : blocks ctx members = blocksUpTo ctx members n ++ [block] ++
      ((listBlocks ctx (.object members)).drop (n + 1) ++
        nestedBlocks ctx (.object members)) := by
    rw [← blocksUpTo_succ ctx members hn, blocksUpTo, List.append_assoc,
      ← List.append_assoc (List.take ..), List.take_append_drop, ← List.append_assoc]
    rfl
  rw [blocksUpTo_succ ctx members hn] at hall
  rw [hsplit] at h
  refine fits_of_insideSchema_storeAfter hkey hd hall (hblock _) ?_ h
  intro b hb
  rcases List.mem_append.mp hb with hb | hb
  · exact hbehind b hb
  · refine (writesOnly_nestedBlocks hb).mono ?_
    rintro k hk rfl
    exact hk hkey

/-- A store which is inside the schema after a request has lists which fit. -/
theorem ListsFit.of_insideSchema
    (h : InsideSchema (Settings.storeAfter (blocks ctx members) prefs)) :
    ListsFit ctx members prefs := by
  have hempty : FitsText "" := by decide
  constructor
  · intro items hitems hall
    rw [← fitsText_currencies_iff]
    refine fits_of_insideSchema rfl (by decide) (by decide) hall
      (fun store effect => patchActCurrencies_eq_ok hitems) ?_ h
    intro b hb
    simp only [listBlocks, List.drop_succ_cons, List.drop_zero, List.mem_cons,
      List.not_mem_nil, or_false] at hb
    rcases hb with rfl | rfl | rfl | rfl
    · exact (writesOnly_patchZapPubkey _).mono fun key hkey => hkey ▸ by decide
    · exact (writesOnly_patchZapPubkeys _).mono fun key hkey => hkey ▸ by decide
    · exact (writesOnly_patchRelay _).mono fun key hkey => hkey ▸ by decide
    · exact (writesOnly_patchRelays _).mono fun key hkey => hkey ▸ by decide
  · intro items hitems hall
    have hkeys : ∀ s ∈ keptEntries items, checkPubkey kNostrZapPubkeys s = .ok () := by
      rw [blocksUpTo_succ ctx members (n := 5) rfl, allAccepted_append] at hall
      obtain ⟨-, effect, hb, -⟩ := hall
      exact (patchZapPubkeys_eq_ok hitems hb).2
    rw [← fitsText_pubkeys_iff hkeys]
    refine fits_of_insideSchema rfl (by decide) hempty hall
      (fun store effect hb => (patchZapPubkeys_eq_ok hitems hb).1) ?_ h
    intro b hb
    simp only [listBlocks, List.drop_succ_cons, List.drop_zero, List.mem_cons,
      List.not_mem_nil, or_false] at hb
    rcases hb with rfl | rfl
    · exact (writesOnly_patchRelay _).mono fun key hkey => hkey ▸ by decide
    · exact (writesOnly_patchRelays _).mono fun key hkey => hkey ▸ by decide
  · intro items hitems hall
    rw [← fitsText_entries_iff]
    refine fits_of_insideSchema rfl (by decide) hempty hall
      (fun store effect => patchRelays_eq_ok hitems) ?_ h
    exact nofun

end Request

/-! ### Every run -/

/-- A request keeps the store inside the schema exactly when its lists fit. -/
theorem insideSchema_patchParsed_iff {prefs : Prefs} (h : InsideSchema prefs)
    (request : ParsedRequest) :
    InsideSchema (patchParsed prefs request) ↔ RequestFits prefs request := by
  obtain ⟨ctx, body, hnumber⟩ := request
  cases body with
  | none => exact iff_of_true h nofun
  | some root =>
      cases root with
      | object members =>
          constructor
          · rintro hafter _ ⟨⟩
            exact ListsFit.of_insideSchema hafter
          · intro hfit
            exact h.runBlocks (hnumber members rfl) (hfit members rfl)
      | null => exact iff_of_true h nofun
      | bool b => exact iff_of_true h nofun
      | number d => exact iff_of_true h nofun
      | string s => exact iff_of_true h nofun
      | array items => exact iff_of_true h nofun

theorem insideSchema_empty : InsideSchema Prefs.empty :=
  fun _ _ _ hv => nomatch hv

/-- In a run from the empty store every store is inside the schema exactly when in each
request every list which is stored fits. -/
theorem forall_insideSchema_iff (requests : List ParsedRequest) :
    (∀ pre post, requests = pre ++ post →
        InsideSchema (Transition.run patchParsed Prefs.empty pre)) ↔
      Transition.Along patchParsed RequestFits Prefs.empty requests :=
  Transition.forall_prefix_iff_along (I := InsideSchema)
    (fun _ request h => insideSchema_patchParsed_iff h request) insideSchema_empty requests

/-- One relay with a control byte. -/
def controlRelay : ParsedRequest where
  ctx := {}
  body := some (.object [relayList ["ws://a\x01"]])
  number members hmembers key d hd := by
    cases hmembers
    cases hd with
    | tail _ h => cases h

theorem not_insideSchema_controlRelay :
    ¬InsideSchema (Transition.run patchParsed Prefs.empty [controlRelay]) := by
  intro h
  have hstored : Transition.run patchParsed Prefs.empty [controlRelay] kNostrRelays =
      some (.str "ws://a\x01") := by
    decide
  have hlist : kNostrRelays ∈ listKeys := by decide
  obtain ⟨f, hf, -⟩ := exists_listField hlist
  obtain ⟨hmem, hkey⟩ := findField_eq_some hf
  have hallowed := h f hmem (.str "ws://a\x01") (by rw [hkey, hstored])
  exact absurd hallowed.2.2 (by decide)

end Settings

end BtClock
