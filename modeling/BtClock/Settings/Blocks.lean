import BtClock.Settings.Patch

/-!
# What a block reads and writes

A block is rejected or has an effect.  Most blocks reject on the body alone, and every
block writes keys of its own.
-/

namespace BtClock

namespace Settings

def Rejects (block : PatchBlock) (prefs : Prefs) : Prop :=
  ∃ e, block prefs = .error e

/-- An accepted block which finds its values in the store. -/
def Quiet (block : PatchBlock) (prefs : Prefs) : Prop :=
  ∃ effect, block prefs = .ok effect ∧ effect.writes = []

theorem not_rejects_iff {block : PatchBlock} {prefs : Prefs} :
    ¬Rejects block prefs ↔ ∃ effect, block prefs = .ok effect := by
  cases h : block prefs with
  | error e => simp [Rejects, h]
  | ok effect => simp [Rejects, h]

/-- The block writes keys with the property `K` only. -/
def WritesOnly (K : String → Prop) (block : PatchBlock) : Prop :=
  ∀ prefs effect, block prefs = .ok effect → ∀ w ∈ effect.writes, K w.key

theorem WritesOnly.mono {K L : String → Prop} (hKL : ∀ key, K key → L key)
    {block : PatchBlock} (h : WritesOnly K block) : WritesOnly L block :=
  fun prefs effect hb w hw => hKL _ (h prefs effect hb w hw)

/-- A key which the block does not write keeps its value. -/
theorem WritesOnly.frame {K : String → Prop} {block : PatchBlock} (h : WritesOnly K block)
    {prefs : Prefs} {effect : Effect} (hb : block prefs = .ok effect) {key : String}
    (hkey : ¬K key) : applyWrites prefs effect.writes key = prefs key := by
  apply applyWrites_of_notMem
  intro w hw hwkey
  exact hkey (hwkey ▸ h prefs effect hb w hw)

theorem writesOnly_skip (K : String → Prop) : WritesOnly K skip := by
  intro prefs effect hb w hw
  cases hb
  cases hw

theorem writesOnly_accepted {K : String → Prop} {effect : Prefs → Effect}
    (h : ∀ prefs, ∀ w ∈ (effect prefs).writes, K w.key) : WritesOnly K (accepted effect) := by
  intro prefs eff hb w hw
  cases hb
  exact h prefs w hw

theorem writesOnly_validated {α : Type} {K : String → Prop} {check : Except PatchError α}
    {effect : α → Prefs → Effect} (h : ∀ a prefs, ∀ w ∈ (effect a prefs).writes, K w.key) :
    WritesOnly K (validated check effect) := by
  intro prefs eff hb w hw
  cases check with
  | error e => cases hb
  | ok a =>
      cases hb
      exact h a prefs w hw

/-! ### The keys of the effects -/

/-- An effect under a condition writes nothing else. -/
theorem mem_writes_of_ite {c : Prop} [Decidable c] {effect : Effect} {w : PrefsWrite}
    (hw : w ∈ (if c then effect else {}).writes) : w ∈ effect.writes := by
  split at hw
  · exact hw
  · cases hw

theorem storeString_key {key defaultValue value : String} {bootOnly : Bool} {prefs : Prefs}
    {w : PrefsWrite} (hw : w ∈ (storeString key defaultValue value bootOnly prefs).writes) :
    w.key = key := by
  rw [List.mem_singleton.mp (mem_writes_of_ite hw)]
  rfl

/-- A stored string reads back. -/
theorem getString_storeString (key d value : String) (bootOnly : Bool) (prefs : Prefs) :
    (applyWrites prefs (storeString key d value bootOnly prefs).writes).getString key d =
      value := by
  simp only [storeString]
  split
  · exact getString_setString key value d prefs
  · rename_i h
    exact not_not.mp h

theorem storeInvertedColor_key {v : Bool} {prefs : Prefs} {w : PrefsWrite}
    (hw : w ∈ (storeInvertedColor v prefs).writes) :
    w.key ∈ [kInvertedColor, "fgColor", "bgColor"] :=
  List.mem_map_of_mem (mem_writes_of_ite hw)

theorem storeTimePerScreen_key {minutes : Float} {prefs : Prefs} {w : PrefsWrite}
    (hw : w ∈ (storeTimePerScreen minutes prefs).writes) : w.key = kTimerSeconds := by
  rw [List.mem_singleton.mp (mem_writes_of_ite (mem_writes_of_ite hw))]
  rfl

theorem storeTxPower_key {raw : Int32} {prefs : Prefs} {w : PrefsWrite}
    (hw : w ∈ (storeTxPower raw prefs).writes) : w.key = kTxPower := by
  simp only [storeTxPower] at hw
  split at hw
  · split at hw
    · cases hw
    · rw [List.mem_singleton.mp hw]
      rfl
  · rw [List.mem_singleton.mp (mem_writes_of_ite hw)]
    rfl

theorem storeVisible_key {ctx : DeviceContext} {id : Int32} {next : Bool} {prefs : Prefs}
    {w : PrefsWrite} (hw : w ∈ (storeVisible ctx id next prefs).writes) :
    w.key = visibleKey id := by
  rw [List.mem_singleton.mp (mem_writes_of_ite hw)]
  rfl

theorem storeDndTimeEnabled_key {next : Bool} {prefs : Prefs} {w : PrefsWrite}
    (hw : w ∈ (storeDndTimeEnabled next prefs).writes) : w.key = kDndTimeEnabled := by
  rw [List.mem_singleton.mp (mem_writes_of_ite hw)]
  rfl

theorem storeDnd_key {t : DndTimes} {prefs : Prefs} {w : PrefsWrite}
    (hw : w ∈ (storeDnd t prefs).writes) :
    w.key ∈ [kDndStartHour, kDndStartMin, kDndEndHour, kDndEndMin] :=
  List.mem_map_of_mem (mem_writes_of_ite hw)

/-! ### A single field -/

/-- The field of the store reads as the body's value. -/
def ReadsAs (f : FieldSpec) (v : Json) (prefs : Prefs) : Prop :=
  match f.kind, v with
  | .string, .string s => prefs.getString f.key f.defaultStr = s
  | .uint, .number d => prefs.getU32 f.key f.defaultInt.toUInt32 = Double.castUInt32 d
  | .int, .number d => prefs.getI32 f.key f.defaultInt = Double.castInt32 d
  | .uChar, .number d =>
      prefs.getU8 f.key f.defaultInt.toUInt32.toUInt8 = (Double.castUInt32 d).toUInt8
  | .bool, .bool b => prefs.getBool f.key f.defaultBool = b
  | _, _ => False

theorem readsAs_of_unchanged {f : FieldSpec} {v : Json} {prefs : Prefs}
    (h : applyScalar f v prefs = .unchanged) : ReadsAs f v prefs := by
  simp only [applyScalar] at h
  split at h
  · rename_i hkind
    grind [applyString, ReadsAs]
  · rename_i hkind
    grind [applyUint, ReadsAs]
  · rename_i hkind
    grind [applyInt, ReadsAs]
  · rename_i hkind
    grind [applyUChar, ReadsAs]
  · rename_i hkind
    grind [applyBool, ReadsAs]
  · cases h

/-- A changed field writes its own key, and reads back as the body's value. -/
theorem of_changed {f : FieldSpec} {v : Json} {prefs : Prefs} {w : PrefsWrite}
    (h : applyScalar f v prefs = .changed w) :
    w.key = f.key ∧ ReadsAs f v (w.apply prefs) := by
  simp only [applyScalar] at h
  split at h
  · rename_i s hkind
    simp only [applyString] at h
    (repeat' split at h) <;> cases h
    all_goals simp [ReadsAs, hkind, PrefsWrite.key, getString_setString]
  · rename_i d hkind
    simp only [applyUint] at h
    (repeat' split at h) <;> cases h
    simp [ReadsAs, hkind, PrefsWrite.key, getU32_setU32]
  · rename_i d hkind
    simp only [applyInt] at h
    (repeat' split at h) <;> cases h
    simp [ReadsAs, hkind, PrefsWrite.key, getI32_setI32]
  · rename_i d hkind
    simp only [applyUChar] at h
    (repeat' split at h) <;> cases h
    simp [ReadsAs, hkind, PrefsWrite.key, getU8_setU8]
  · rename_i b hkind
    simp only [applyBool] at h
    (repeat' split at h) <;> cases h
    simp [ReadsAs, hkind, PrefsWrite.key, getBool_setBool]
  · cases h

/-- An accepted field has passed its checks, and is written unless it reads so already. -/
theorem patchField_eq_ok {ctx : DeviceContext} {root : Json} {spec : FieldSpec}
    {key : String} {item : Json} {prefs : Prefs} {effect : Effect}
    (h : patchField ctx root spec key item prefs = .ok effect) :
    checkMember ctx root (relayCsv prefs) key item = .ok () ∧
      ((applyScalar spec item prefs = .unchanged ∧ effect.writes = []) ∨
        ∃ w, applyScalar spec item prefs = .changed w ∧ effect.writes = [w]) := by
  simp only [patchField] at h
  split at h
  · cases h
  · rename_i hcheck
    split at h
    · cases h
    · rename_i hscalar
      cases h
      exact ⟨hcheck, Or.inl ⟨hscalar, rfl⟩⟩
    · rename_i w hscalar
      cases h
      exact ⟨hcheck, Or.inr ⟨w, hscalar, rfl⟩⟩

theorem readsAs_of_patchField {ctx : DeviceContext} {root : Json} {spec : FieldSpec}
    {key : String} {item : Json} {prefs : Prefs} {effect : Effect}
    (h : patchField ctx root spec key item prefs = .ok effect) :
    ReadsAs spec item (applyWrites prefs effect.writes) := by
  rcases patchField_eq_ok h with ⟨-, ⟨hscalar, hwrites⟩ | ⟨w, hscalar, hwrites⟩⟩
  · rw [hwrites]
    exact readsAs_of_unchanged hscalar
  · rw [hwrites]
    exact (of_changed hscalar).2

theorem writesOnly_patchField (ctx : DeviceContext) (root : Json) (spec : FieldSpec)
    (key : String) (item : Json) :
    WritesOnly (· = spec.key) (patchField ctx root spec key item) := by
  intro prefs effect hb w hw
  rcases patchField_eq_ok hb with ⟨-, ⟨-, hwrites⟩ | ⟨v, hscalar, hwrites⟩⟩
  · rw [hwrites] at hw
    cases hw
  · rw [hwrites] at hw
    rw [List.mem_singleton.mp hw]
    exact (of_changed hscalar).1

/-! ### The keys of the blocks -/

/-- A member is skipped or is a field of the schema with its checks. -/
theorem patchMember_cases (ctx : DeviceContext) (root : Json) (m : String × Json) :
    ((m.1 ∈ handledBelow ∨ findField m.1 = none) ∧ patchMember ctx root m = skip) ∨
      ∃ spec, m.1 ∉ handledBelow ∧ findField m.1 = some spec ∧
        patchMember ctx root m = patchField ctx root spec m.1 m.2 := by
  by_cases hbelow : m.1 ∈ handledBelow
  · exact Or.inl ⟨Or.inl hbelow, by simp only [patchMember, if_pos hbelow]⟩
  · cases hspec : findField m.1 with
    | none => exact Or.inl ⟨Or.inr rfl, by simp only [patchMember, if_neg hbelow, hspec]⟩
    | some spec =>
        exact Or.inr ⟨spec, hbelow, rfl, by simp only [patchMember, if_neg hbelow, hspec]⟩

/-- A member writes its own key only, and none of the keys with a block of their own. -/
theorem writesOnly_patchMember (ctx : DeviceContext) (root : Json) (m : String × Json) :
    WritesOnly (fun key => key = m.1 ∧ key ∉ handledBelow) (patchMember ctx root m) := by
  rcases patchMember_cases ctx root m with ⟨-, heq⟩ | ⟨spec, hbelow, hspec, heq⟩
  · rw [heq]
    exact writesOnly_skip _
  · rw [heq]
    have hkeys : ∀ key, key = spec.key → key = m.1 ∧ key ∉ handledBelow := by
      rintro key rfl
      rw [(findField_eq_some hspec).2]
      exact ⟨rfl, hbelow⟩
    exact (writesOnly_patchField ctx root spec m.1 m.2).mono hkeys

/-- An accepted field of the schema has passed its checks and reads back. -/
theorem of_patchMember_eq_ok {ctx : DeviceContext} {root : Json} {key : String} {item : Json}
    {spec : FieldSpec} (hbelow : key ∉ handledBelow) (hspec : findField key = some spec)
    {prefs : Prefs} {effect : Effect}
    (h : patchMember ctx root (key, item) prefs = .ok effect) :
    checkMember ctx root (relayCsv prefs) key item = .ok () ∧
      ReadsAs spec item (applyWrites prefs effect.writes) := by
  have heq : patchMember ctx root (key, item) = patchField ctx root spec key item := by
    simp only [patchMember, if_neg hbelow, hspec]
  rw [heq] at h
  exact ⟨(patchField_eq_ok h).1, readsAs_of_patchField h⟩

/-- A legacy relay which is accepted is a string, and reads back as that string. -/
theorem getString_of_patchMember_relay {ctx : DeviceContext} {root : Json} {item : Json}
    {prefs : Prefs} {effect : Effect}
    (h : patchMember ctx root (kNostrRelay, item) prefs = .ok effect) :
    ∃ s, item = .string s ∧
      (applyWrites prefs effect.writes).getString kNostrRelay kDefaultRelay = s := by
  have hreads := (of_patchMember_eq_ok (by decide) findField_nostrRelay h).2
  cases item <;> simp only [ReadsAs] at hreads
  exact ⟨_, rfl, hreads⟩

theorem findField_nwcEnabled :
    findField kNwcEnabled = some { key := kNwcEnabled, kind := .bool, bootOnly := true } :=
  rfl

/-- An accepted NWC switch is a Boolean within the budget, and reads back. -/
theorem getBool_of_patchMember_nwc {ctx : DeviceContext} {root : Json} {item : Json}
    {prefs : Prefs} {effect : Effect}
    (h : patchMember ctx root (kNwcEnabled, item) prefs = .ok effect) :
    ∃ b, item = .bool b ∧ checkNwcEnabled root (relayCsv prefs) (.bool b) = .ok () ∧
      (applyWrites prefs effect.writes).getBool kNwcEnabled false = b := by
  obtain ⟨hcheck, hreads⟩ := of_patchMember_eq_ok (by decide) findField_nwcEnabled h
  cases item <;> simp only [ReadsAs] at hreads
  exact ⟨_, rfl, hcheck, hreads⟩

theorem writesOnly_patchInvertedColor (root : Json) :
    WritesOnly (· ∈ [kInvertedColor, "fgColor", "bgColor"]) (patchInvertedColor root) := by
  simp only [patchInvertedColor]
  split
  · exact writesOnly_accepted fun prefs w hw => storeInvertedColor_key hw
  · exact writesOnly_skip _

theorem writesOnly_patchTimePerScreen (root : Json) :
    WritesOnly (· = kTimerSeconds) (patchTimePerScreen root) := by
  simp only [patchTimePerScreen]
  split
  · exact writesOnly_accepted fun prefs w hw => storeTimePerScreen_key hw
  · exact writesOnly_skip _

theorem writesOnly_patchTxPower (root : Json) :
    WritesOnly (· = kTxPower) (patchTxPower root) := by
  simp only [patchTxPower]
  split
  · exact writesOnly_accepted fun prefs w hw => storeTxPower_key hw
  · exact writesOnly_skip _

theorem writesOnly_patchActCurrencies (ctx : DeviceContext) (root : Json) :
    WritesOnly (· = kActCurrencies) (patchActCurrencies ctx root) := by
  simp only [patchActCurrencies]
  split
  · exact writesOnly_validated fun joined prefs w hw => storeString_key hw
  · exact writesOnly_skip _

theorem writesOnly_patchZapPubkey (root : Json) :
    WritesOnly (· = kNostrZapPubkeys) (patchZapPubkey root) := by
  simp only [patchZapPubkey]
  split
  · exact writesOnly_skip _
  · exact writesOnly_validated fun joined prefs w hw => storeString_key hw
  · exact writesOnly_skip _

theorem writesOnly_patchZapPubkeys (root : Json) :
    WritesOnly (· = kNostrZapPubkeys) (patchZapPubkeys root) := by
  simp only [patchZapPubkeys]
  split
  · exact writesOnly_validated fun joined prefs w hw => storeString_key hw
  · exact writesOnly_skip _

theorem writesOnly_patchRelay (root : Json) :
    WritesOnly (· = kNostrRelays) (patchRelay root) := by
  simp only [patchRelay]
  split
  · exact writesOnly_skip _
  · exact writesOnly_accepted fun prefs w hw => storeString_key hw
  · exact writesOnly_skip _

theorem writesOnly_patchRelays (root : Json) :
    WritesOnly (· = kNostrRelays) (patchRelays root) := by
  simp only [patchRelays]
  split
  · rename_i items hitems
    intro prefs
    have h : WritesOnly (· = kNostrRelays)
        (validated (checkRelays items (nwcAfter root prefs)) fun joined =>
          storeString kNostrRelays "" joined true) :=
      writesOnly_validated fun joined prefs w hw => storeString_key hw
    exact h prefs
  · exact writesOnly_skip _

theorem writesOnly_patchScreenOrder (ctx : DeviceContext) (root : Json) :
    WritesOnly (· = kScreenOrder) (patchScreenOrder ctx root) := by
  apply writesOnly_validated
  intro csv prefs w hw
  cases csv with
  | none => cases hw
  | some csv => exact storeString_key hw

theorem writesOnly_patchVisible (ctx : DeviceContext) (s : Json) :
    WritesOnly (fun key => ∃ id, key = visibleKey id) (patchVisible ctx s) := by
  simp only [patchVisible]
  split
  · exact writesOnly_accepted fun prefs w hw => ⟨_, storeVisible_key hw⟩
  · exact writesOnly_skip _

theorem writesOnly_patchDndTimeEnabled (root : Json) :
    WritesOnly (· = kDndTimeEnabled) (patchDndTimeEnabled root) := by
  simp only [patchDndTimeEnabled]
  split
  · exact writesOnly_accepted fun prefs w hw => storeDndTimeEnabled_key hw
  · exact writesOnly_skip _

theorem writesOnly_patchDnd (root : Json) :
    WritesOnly (· ∈ [kDndStartHour, kDndStartMin, kDndEndHour, kDndEndMin])
      (patchDnd root) := by
  simp only [patchDnd]
  split
  · exact writesOnly_validated fun t prefs w hw => storeDnd_key hw
  · exact writesOnly_skip _

/-! ### The blocks which reject on the body alone -/

/-- Whether the block is rejected does not depend on the store. -/
def RejectsStatically (block : PatchBlock) : Prop :=
  ∀ prefs prefs', Rejects block prefs → Rejects block prefs'

theorem rejectsStatically_accepted (effect : Prefs → Effect) :
    RejectsStatically (accepted effect) := by
  intro prefs prefs' h
  obtain ⟨e, h⟩ := h
  cases h

theorem rejectsStatically_skip : RejectsStatically skip :=
  rejectsStatically_accepted _

theorem rejectsStatically_validated {α : Type} (check : Except PatchError α)
    (effect : α → Prefs → Effect) : RejectsStatically (validated check effect) := by
  intro prefs prefs' h
  cases check with
  | error e => exact ⟨e, rfl⟩
  | ok a =>
      obtain ⟨e, h⟩ := h
      cases h

/-- The list of relays is checked against the NWC switch which the body leaves. -/
theorem rejects_patchRelays_congr {root : Json} {prefs prefs' : Prefs}
    (h : nwcAfter root prefs = nwcAfter root prefs') (hr : Rejects (patchRelays root) prefs) :
    Rejects (patchRelays root) prefs' := by
  simp only [patchRelays] at hr ⊢
  split at hr
  · rename_i items hitems
    have hr' : Rejects (validated (checkRelays items (nwcAfter root prefs')) fun joined =>
        storeString kNostrRelays "" joined true) prefs := by
      rw [← h]
      exact hr
    exact rejectsStatically_validated _ _ prefs prefs' hr'
  · exact rejectsStatically_skip prefs prefs' hr

/-- The blocks in front of the list of relays. -/
def BeforeRelays (ctx : DeviceContext) (root : Json) : List PatchBlock :=
  [patchInvertedColor root, patchTimePerScreen root, patchTxPower root,
    patchActCurrencies ctx root, patchZapPubkey root, patchZapPubkeys root]

theorem listBlocks_eq (ctx : DeviceContext) (root : Json) :
    listBlocks ctx root =
      (BeforeRelays ctx root ++ [patchRelay root]) ++ [patchRelays root] :=
  rfl

theorem rejectsStatically_of_mem_beforeRelays {ctx : DeviceContext} {root : Json}
    {block : PatchBlock} (h : block ∈ BeforeRelays ctx root) : RejectsStatically block := by
  simp only [BeforeRelays, List.mem_cons, List.not_mem_nil, or_false] at h
  rcases h with rfl | rfl | rfl | rfl | rfl | rfl
  · simp only [patchInvertedColor]
    split <;> exact rejectsStatically_accepted _
  · simp only [patchTimePerScreen]
    split <;> exact rejectsStatically_accepted _
  · simp only [patchTxPower]
    split <;> exact rejectsStatically_accepted _
  · simp only [patchActCurrencies]
    split <;> first | exact rejectsStatically_validated _ _ | exact rejectsStatically_skip
  · simp only [patchZapPubkey]
    split <;> first | exact rejectsStatically_validated _ _ | exact rejectsStatically_skip
  · simp only [patchZapPubkeys]
    split <;> first | exact rejectsStatically_validated _ _ | exact rejectsStatically_skip

theorem rejectsStatically_patchRelay (root : Json) : RejectsStatically (patchRelay root) := by
  simp only [patchRelay]
  split <;> exact rejectsStatically_accepted _

theorem rejectsStatically_of_mem_nestedBlocks {ctx : DeviceContext} {root : Json}
    {block : PatchBlock} (h : block ∈ nestedBlocks ctx root) : RejectsStatically block := by
  simp only [nestedBlocks, List.cons_append, List.mem_cons, List.mem_append, List.mem_map,
    List.not_mem_nil, or_false] at h
  rcases h with rfl | ⟨s, -, rfl⟩ | rfl | rfl
  · exact rejectsStatically_validated _ _
  · simp only [patchVisible]
    split <;> exact rejectsStatically_accepted _
  · simp only [patchDndTimeEnabled]
    split <;> exact rejectsStatically_accepted _
  · simp only [patchDnd]
    split <;> first | exact rejectsStatically_validated _ _ | exact rejectsStatically_skip

/-! ### The blocks which stay off the relays -/

/-- The key is neither a relay slot nor the NWC switch. -/
def OffRelays (key : String) : Prop :=
  key ≠ kNostrRelay ∧ key ≠ kNostrRelays ∧ key ≠ kNwcEnabled

instance (key : String) : Decidable (OffRelays key) :=
  inferInstanceAs (Decidable (_ ∧ _ ∧ _))

theorem offRelays_visibleKey (id : Int32) : OffRelays (visibleKey id) := by
  have hne : ∀ key : String, key.toList.head? ≠ some 's' → visibleKey id ≠ key := by
    rintro key hkey rfl
    exact hkey (visibleKey_head id)
  exact ⟨hne _ (by decide), hne _ (by decide), hne _ (by decide)⟩

theorem offRelays_of_eq {k : String} (h : OffRelays k) {key : String} (hkey : key = k) :
    OffRelays key :=
  hkey ▸ h

theorem offRelays_of_mem_beforeRelays {ctx : DeviceContext} {root : Json}
    {block : PatchBlock} (h : block ∈ BeforeRelays ctx root) :
    WritesOnly OffRelays block := by
  simp only [BeforeRelays, List.mem_cons, List.not_mem_nil, or_false] at h
  rcases h with rfl | rfl | rfl | rfl | rfl | rfl
  · exact (writesOnly_patchInvertedColor root).mono (by decide)
  · exact (writesOnly_patchTimePerScreen root).mono fun _ => offRelays_of_eq (by decide)
  · exact (writesOnly_patchTxPower root).mono fun _ => offRelays_of_eq (by decide)
  · exact (writesOnly_patchActCurrencies ctx root).mono fun _ => offRelays_of_eq (by decide)
  · exact (writesOnly_patchZapPubkey root).mono fun _ => offRelays_of_eq (by decide)
  · exact (writesOnly_patchZapPubkeys root).mono fun _ => offRelays_of_eq (by decide)

theorem offRelays_of_mem_nestedBlocks {ctx : DeviceContext} {root : Json}
    {block : PatchBlock} (h : block ∈ nestedBlocks ctx root) :
    WritesOnly OffRelays block := by
  simp only [nestedBlocks, List.cons_append, List.mem_cons, List.mem_append, List.mem_map,
    List.not_mem_nil, or_false] at h
  rcases h with rfl | ⟨s, -, rfl⟩ | rfl | rfl
  · exact (writesOnly_patchScreenOrder ctx root).mono fun _ => offRelays_of_eq (by decide)
  · exact (writesOnly_patchVisible ctx s).mono fun _ ⟨id, hid⟩ =>
      offRelays_of_eq (offRelays_visibleKey id) hid
  · exact (writesOnly_patchDndTimeEnabled root).mono fun _ => offRelays_of_eq (by decide)
  · exact (writesOnly_patchDnd root).mono (by decide)

end Settings

end BtClock
