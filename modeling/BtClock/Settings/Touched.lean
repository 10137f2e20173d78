import BtClock.Settings.InsideSchema

/-!
# What a request reports

The caller of a PATCH learns which keys were touched, by the names of the blocks which touched
them, and whether a reboot is asked for.  A key which holds another value than before was
reported by some block.
-/

namespace BtClock

namespace Settings

/-- The name under which a block reports a write: the key itself, but for the colours, which go
with their polarity, and for the times of the schedule, which go with its start hour. -/
def Reports (touched key : String) : Prop :=
  touched = key ∨ (touched = kInvertedColor ∧ key ∈ ["fgColor", "bgColor"]) ∨
    (touched = kDndStartHour ∧ key ∈ [kDndStartMin, kDndEndHour, kDndEndMin])

instance (touched key : String) : Decidable (Reports touched key) :=
  inferInstanceAs (Decidable (_ ∨ _ ∨ _))

/-- Every write is reported, and what is reported was written. -/
structure Effect.Candid (effect : Effect) : Prop where
  reported : ∀ w ∈ effect.writes, ∃ t ∈ effect.touchedKeys, Reports t w.key
  written : ∀ t ∈ effect.touchedKeys, ∃ w ∈ effect.writes, w.key = t

/-- Every effect of the block, when it accepts, has the property. -/
def EveryEffect (P : Effect → Prop) (block : PatchBlock) : Prop :=
  ∀ prefs effect, block prefs = .ok effect → P effect

section EveryEffect

variable {P : Effect → Prop}

theorem everyEffect_accepted {effect : Prefs → Effect} (h : ∀ prefs, P (effect prefs)) :
    EveryEffect P (accepted effect) := by
  intro prefs eff hb
  cases hb
  exact h prefs

theorem everyEffect_skip (h : P {}) : EveryEffect P skip :=
  everyEffect_accepted fun _ => h

theorem everyEffect_validated {α : Type} {check : Except PatchError α}
    {effect : α → Prefs → Effect} (h : ∀ a prefs, P (effect a prefs)) :
    EveryEffect P (validated check effect) := by
  intro prefs eff hb
  cases check with
  | error e => cases hb
  | ok a =>
      cases hb
      exact h a prefs

/-- An effect under a condition, which is none otherwise. -/
theorem of_ite_effect {c : Prop} [Decidable c] {effect : Effect} (h : P effect) (hnone : P {}) :
    P (if c then effect else {}) := by
  split_ifs
  · exact h
  · exact hnone

end EveryEffect

theorem candid_none : Effect.Candid {} :=
  ⟨fun _ hw => (nomatch hw), fun _ ht => (nomatch ht)⟩

theorem candid_singleton (w : PrefsWrite) (reboot : Bool) :
    Effect.Candid { writes := [w], touchedKeys := [w.key], rebootRequired := reboot } := by
  constructor
  · intro v hv
    rw [List.mem_singleton.mp hv]
    exact ⟨w.key, List.mem_cons_self, Or.inl rfl⟩
  · intro t ht
    rw [List.mem_singleton.mp ht]
    exact ⟨w, List.mem_cons_self, rfl⟩

theorem candid_storeString (key d value : String) (bootOnly : Bool) (prefs : Prefs) :
    (storeString key d value bootOnly prefs).Candid :=
  of_ite_effect (candid_singleton (.setString key value) bootOnly) candid_none

/-! ### The blocks -/

theorem candid_patchMember (ctx : DeviceContext) (root : Json) (m : String × Json) :
    EveryEffect Effect.Candid (patchMember ctx root m) := by
  rcases patchMember_cases ctx root m with ⟨_, heq⟩ | ⟨spec, _, hspec, heq⟩
  · rw [heq]
    exact everyEffect_skip candid_none
  · rw [heq]
    intro prefs effect hb
    simp only [patchField] at hb
    split at hb
    · cases hb
    split at hb
    · cases hb
    · cases hb
      exact candid_none
    · rename_i w hscalar
      cases hb
      have hkey : m.1 = w.key := by
        rw [(of_changed hscalar).1, (findField_eq_some hspec).2]
      rw [hkey]
      exact candid_singleton w spec.bootOnly

theorem candid_patchInvertedColor (root : Json) :
    EveryEffect Effect.Candid (patchInvertedColor root) := by
  simp only [patchInvertedColor]
  split
  · refine everyEffect_accepted fun prefs => of_ite_effect ⟨fun w hw => ?_, fun t ht => ?_⟩
      candid_none
    · refine ⟨kInvertedColor, List.mem_cons_self, ?_⟩
      simp only [List.mem_cons, List.not_mem_nil, or_false] at hw
      rcases hw with rfl | rfl | rfl
      · exact Or.inl rfl
      · exact (by decide : Reports kInvertedColor "fgColor")
      · exact (by decide : Reports kInvertedColor "bgColor")
    · exact ⟨_, List.mem_cons_self, (List.mem_singleton.mp ht).symm⟩
  · exact everyEffect_skip candid_none

theorem candid_patchTimePerScreen (root : Json) :
    EveryEffect Effect.Candid (patchTimePerScreen root) := by
  simp only [patchTimePerScreen]
  split
  · exact everyEffect_accepted fun prefs => of_ite_effect
      (of_ite_effect (candid_singleton (.setU32 kTimerSeconds _) false) candid_none) candid_none
  · exact everyEffect_skip candid_none

theorem candid_patchTxPower (root : Json) : EveryEffect Effect.Candid (patchTxPower root) := by
  simp only [patchTxPower]
  split
  · refine everyEffect_accepted fun prefs => ?_
    simp only [storeTxPower]
    split
    · split
      · exact candid_none
      · exact candid_singleton (.remove kTxPower) false
    · exact of_ite_effect (candid_singleton (.setI32 kTxPower _) false) candid_none
  · exact everyEffect_skip candid_none

theorem candid_patchVisible (ctx : DeviceContext) (s : Json) :
    EveryEffect Effect.Candid (patchVisible ctx s) := by
  simp only [patchVisible]
  split
  · exact everyEffect_accepted fun prefs =>
      of_ite_effect (candid_singleton (.setBool (visibleKey _) _) false) candid_none
  · exact everyEffect_skip candid_none

theorem candid_patchDndTimeEnabled (root : Json) :
    EveryEffect Effect.Candid (patchDndTimeEnabled root) := by
  simp only [patchDndTimeEnabled]
  split
  · exact everyEffect_accepted fun prefs =>
      of_ite_effect (candid_singleton (.setBool kDndTimeEnabled _) false) candid_none
  · exact everyEffect_skip candid_none

theorem candid_patchDnd (root : Json) : EveryEffect Effect.Candid (patchDnd root) := by
  simp only [patchDnd]
  split
  · refine everyEffect_validated fun t prefs => of_ite_effect ⟨fun w hw => ?_, fun t ht => ?_⟩
      candid_none
    · refine ⟨kDndStartHour, List.mem_cons_self, ?_⟩
      simp only [List.mem_cons, List.not_mem_nil, or_false] at hw
      rcases hw with rfl | rfl | rfl | rfl
      · exact Or.inl rfl
      · exact (by decide : Reports kDndStartHour kDndStartMin)
      · exact (by decide : Reports kDndStartHour kDndEndHour)
      · exact (by decide : Reports kDndStartHour kDndEndMin)
    · exact ⟨_, List.mem_cons_self, (List.mem_singleton.mp ht).symm⟩
  · exact everyEffect_skip candid_none

theorem candid_listBlocks {ctx : DeviceContext} {root : Json} {block : PatchBlock}
    (h : block ∈ listBlocks ctx root) : EveryEffect Effect.Candid block := by
  simp only [listBlocks, List.mem_cons, List.not_mem_nil, or_false] at h
  rcases h with rfl | rfl | rfl | rfl | rfl | rfl | rfl | rfl
  · exact candid_patchInvertedColor root
  · exact candid_patchTimePerScreen root
  · exact candid_patchTxPower root
  · simp only [patchActCurrencies]
    split
    · exact everyEffect_validated fun _ _ => candid_storeString ..
    · exact everyEffect_skip candid_none
  · simp only [patchZapPubkey]
    split
    · exact everyEffect_skip candid_none
    · exact everyEffect_validated fun _ _ => candid_storeString ..
    · exact everyEffect_skip candid_none
  · simp only [patchZapPubkeys]
    split
    · exact everyEffect_validated fun _ _ => candid_storeString ..
    · exact everyEffect_skip candid_none
  · simp only [patchRelay]
    split
    · exact everyEffect_skip candid_none
    · exact everyEffect_accepted fun _ => candid_storeString ..
    · exact everyEffect_skip candid_none
  · simp only [patchRelays]
    split
    · intro prefs
      exact (everyEffect_validated fun _ _ => candid_storeString .. :
        EveryEffect Effect.Candid (validated (checkRelays _ (nwcAfter root prefs)) fun joined =>
          storeString kNostrRelays "" joined true)) prefs
    · exact everyEffect_skip candid_none

theorem candid_nestedBlocks {ctx : DeviceContext} {root : Json} {block : PatchBlock}
    (h : block ∈ nestedBlocks ctx root) : EveryEffect Effect.Candid block := by
  simp only [nestedBlocks, List.cons_append, List.mem_cons, List.mem_append, List.mem_map,
    List.not_mem_nil, or_false] at h
  rcases h with rfl | ⟨s, _, rfl⟩ | rfl | rfl
  · refine everyEffect_validated fun csv prefs => ?_
    cases csv with
    | none => exact candid_none
    | some csv => exact candid_storeString ..
  · exact candid_patchVisible ctx s
  · exact candid_patchDndTimeEnabled root
  · exact candid_patchDnd root

theorem candid_blocks {ctx : DeviceContext} {members : List (String × Json)}
    {block : PatchBlock} (h : block ∈ blocks ctx members) :
    EveryEffect Effect.Candid block := by
  rcases List.mem_append.mp h with h | h
  · rcases List.mem_append.mp h with h | h
    · obtain ⟨m, _, rfl⟩ := List.mem_map.mp h
      exact candid_patchMember ctx _ m
    · exact candid_listBlocks h
  · exact candid_nestedBlocks h

/-- The keys of the schema which the blocks behind the walk over the members write. -/
def behindKeys : List String :=
  [kInvertedColor, "fgColor", "bgColor", kTimerSeconds, kTxPower, kActCurrencies,
    kNostrZapPubkeys, kNostrRelays, kScreenOrder, kDndTimeEnabled, kDndStartHour, kDndStartMin,
    kDndEndHour, kDndEndMin]

theorem writesOnly_behindWalk {ctx : DeviceContext} {root : Json} {block : PatchBlock}
    (h : block ∈ listBlocks ctx root ++ nestedBlocks ctx root) :
    WritesOnly (fun key => key ∈ behindKeys ∨ findField key = none) block := by
  have hof {K : String → Prop} (hblock : WritesOnly K block)
      (hK : ∀ key, K key → key ∈ behindKeys) :
      WritesOnly (fun key => key ∈ behindKeys ∨ findField key = none) block :=
    hblock.mono fun key hkey => Or.inl (hK key hkey)
  simp only [listBlocks, nestedBlocks, List.cons_append, List.nil_append, List.mem_cons,
    List.mem_append, List.mem_map, List.not_mem_nil, or_false] at h
  rcases h with rfl | rfl | rfl | rfl | rfl | rfl | rfl | rfl | rfl | ⟨s, _, rfl⟩ | rfl | rfl
  · exact hof (writesOnly_patchInvertedColor root) (by decide)
  · exact hof (writesOnly_patchTimePerScreen root) fun key hkey => hkey ▸ by decide
  · exact hof (writesOnly_patchTxPower root) fun key hkey => hkey ▸ by decide
  · exact hof (writesOnly_patchActCurrencies ctx root) fun key hkey => hkey ▸ by decide
  · exact hof (writesOnly_patchZapPubkey root) fun key hkey => hkey ▸ by decide
  · exact hof (writesOnly_patchZapPubkeys root) fun key hkey => hkey ▸ by decide
  · exact hof (writesOnly_patchRelay root) fun key hkey => hkey ▸ by decide
  · exact hof (writesOnly_patchRelays root) fun key hkey => hkey ▸ by decide
  · exact hof (writesOnly_patchScreenOrder ctx root) fun key hkey => hkey ▸ by decide
  · refine (writesOnly_patchVisible ctx s).mono ?_
    rintro key ⟨id, rfl⟩
    exact Or.inr (findField_visibleKey id)
  · exact hof (writesOnly_patchDndTimeEnabled root) fun key hkey => hkey ▸ by decide
  · exact hof (writesOnly_patchDnd root) (by decide)

theorem blocks_eq_walk (ctx : DeviceContext) (members : List (String × Json)) :
    blocks ctx members = members.map (patchMember ctx (.object members)) ++
      (listBlocks ctx (.object members) ++ nestedBlocks ctx (.object members)) := by
  simp only [blocks, memberBlocks, List.append_assoc]

/-- Another field of the schema is written by the walk alone. -/
theorem storeAfter_blocks_of_field {ctx : DeviceContext} {members : List (String × Json)}
    {prefs : Prefs} {key : String} (hfield : findField key ≠ none) (hkey : key ∉ behindKeys)
    (h : AllAccepted (blocks ctx members) prefs) :
    storeAfter (blocks ctx members) prefs key =
      storeAfter (members.map (patchMember ctx (.object members))) prefs key := by
  rw [blocks_eq_walk] at h ⊢
  obtain ⟨hwalk, _⟩ := (allAccepted_append _ _ prefs).mp h
  rw [storeAfter_append_of_accepted hwalk]
  exact storeAfter_frame (fun _ hblock => writesOnly_behindWalk hblock)
    (not_or.mpr ⟨hkey, hfield⟩) _

/-! ### The run of the blocks -/

/-- The keys which the blocks touch. -/
def touchedBy (bs : List PatchBlock) (prefs : Prefs) : List String :=
  (runBlocks bs prefs).result.touchedKeys

/-- Whether one of the blocks asks for a reboot. -/
def rebootBy (bs : List PatchBlock) (prefs : Prefs) : Bool :=
  (runBlocks bs prefs).result.rebootRequired

@[simp]
theorem touchedBy_nil (prefs : Prefs) : touchedBy [] prefs = [] :=
  rfl

theorem touchedBy_cons_ok {block : PatchBlock} {bs : List PatchBlock} {prefs : Prefs}
    {effect : Effect} (h : block prefs = .ok effect) :
    touchedBy (block :: bs) prefs =
      effect.touchedKeys ++ touchedBy bs (applyWrites prefs effect.writes) := by
  simp only [touchedBy, runBlocks, h]

theorem rebootBy_cons_ok {block : PatchBlock} {bs : List PatchBlock} {prefs : Prefs}
    {effect : Effect} (h : block prefs = .ok effect) :
    rebootBy (block :: bs) prefs =
      (effect.rebootRequired || rebootBy bs (applyWrites prefs effect.writes)) := by
  simp only [rebootBy, runBlocks, h]

/-- After an accepted run, a key which holds another value than before was reported. -/
theorem exists_reports_of_ne {bs : List PatchBlock}
    (hbs : ∀ block ∈ bs, EveryEffect Effect.Candid block) {prefs : Prefs} {key : String}
    (hne : storeAfter bs prefs key ≠ prefs key) :
    ∃ t ∈ touchedBy bs prefs, Reports t key := by
  induction bs generalizing prefs with
  | nil => exact absurd rfl hne
  | cons block bs ih =>
      cases hb : block prefs with
      | error e =>
          rw [storeAfter_cons_error hb] at hne
          exact absurd rfl hne
      | ok effect =>
          rw [storeAfter_cons_ok hb] at hne
          rw [touchedBy_cons_ok hb]
          by_cases hkey : ∃ w ∈ effect.writes, w.key = key
          · obtain ⟨w, hw, rfl⟩ := hkey
            obtain ⟨t, ht, hreports⟩ :=
              (hbs block List.mem_cons_self prefs effect hb).reported w hw
            exact ⟨t, List.mem_append_left _ ht, hreports⟩
          · have hsame : applyWrites prefs effect.writes key = prefs key :=
              applyWrites_of_notMem (fun w hw hwkey => hkey ⟨w, hw, hwkey⟩) prefs
            rw [← hsame] at hne
            obtain ⟨t, ht, hreports⟩ :=
              ih (fun b hmem => hbs b (List.mem_cons_of_mem _ hmem)) hne
            exact ⟨t, List.mem_append_right _ ht, hreports⟩

/-- What is touched are keys which the blocks write. -/
theorem of_mem_touchedBy {K : String → Prop} {bs : List PatchBlock}
    (hcandid : ∀ block ∈ bs, EveryEffect Effect.Candid block)
    (hbs : ∀ block ∈ bs, WritesOnly K block) {prefs : Prefs} {t : String}
    (ht : t ∈ touchedBy bs prefs) : K t := by
  induction bs generalizing prefs with
  | nil => cases ht
  | cons block bs ih =>
      cases hb : block prefs with
      | error e =>
          simp only [touchedBy, runBlocks, hb] at ht
          cases ht
      | ok effect =>
          rw [touchedBy_cons_ok hb] at ht
          rcases List.mem_append.mp ht with ht | ht
          · obtain ⟨w, hw, rfl⟩ :=
              (hcandid block List.mem_cons_self prefs effect hb).written t ht
            exact hbs block List.mem_cons_self prefs effect hb w hw
          · exact ih (fun b hmem => hcandid b (List.mem_cons_of_mem _ hmem))
              (fun b hmem => hbs b (List.mem_cons_of_mem _ hmem)) ht

theorem touchedBy_append {bs : List PatchBlock} {prefs : Prefs} (h : AllAccepted bs prefs)
    (cs : List PatchBlock) :
    touchedBy (bs ++ cs) prefs = touchedBy bs prefs ++ touchedBy cs (storeAfter bs prefs) := by
  induction bs generalizing prefs with
  | nil => rfl
  | cons block bs ih =>
      obtain ⟨effect, hb, hrest⟩ := h
      rw [List.cons_append, touchedBy_cons_ok hb, touchedBy_cons_ok hb, storeAfter_cons_ok hb,
        ih hrest, List.append_assoc]

theorem rebootBy_append {bs : List PatchBlock} {prefs : Prefs} (h : AllAccepted bs prefs)
    (cs : List PatchBlock) :
    rebootBy (bs ++ cs) prefs = (rebootBy bs prefs || rebootBy cs (storeAfter bs prefs)) := by
  induction bs generalizing prefs with
  | nil => rfl
  | cons block bs ih =>
      obtain ⟨effect, hb, hrest⟩ := h
      rw [List.cons_append, rebootBy_cons_ok hb, rebootBy_cons_ok hb, storeAfter_cons_ok hb,
        ih hrest, Bool.or_assoc]

/-! ### What the members ask for -/

/-- Some member of a schema field with the property `K` has another value than the store. -/
def MemberAsks (K : String → Prop) (members : List (String × Json)) (prefs : Prefs) : Prop :=
  ∃ m ∈ members, K m.1 ∧ m.1 ∉ handledBelow ∧ ∃ spec, findField m.1 = some spec ∧
    applyScalar spec m.2 prefs ≠ .unchanged

theorem applyScalar_congr {spec : FieldSpec} {prefs prefs' : Prefs}
    (h : prefs spec.key = prefs' spec.key) (item : Json) :
    applyScalar spec item prefs = applyScalar spec item prefs' := by
  simp only [applyScalar, applyString, applyUint, applyInt, applyUChar, applyBool,
    Prefs.getString_congr h, Prefs.getU32_congr h, Prefs.getI32_congr h, Prefs.getU8_congr h,
    Prefs.getBool_congr h]

/-- An accepted member finds its value in the store, or it writes and reports it. -/
theorem patchMember_eq_ok {ctx : DeviceContext} {root : Json} {m : String × Json}
    {prefs : Prefs} {effect : Effect} (h : patchMember ctx root m prefs = .ok effect) :
    ((∀ spec, m.1 ∉ handledBelow → findField m.1 = some spec →
        applyScalar spec m.2 prefs = .unchanged) ∧ effect = {}) ∨
      ∃ spec w, m.1 ∉ handledBelow ∧ findField m.1 = some spec ∧
        applyScalar spec m.2 prefs = .changed w ∧
          effect = { writes := [w], touchedKeys := [m.1], rebootRequired := spec.bootOnly } := by
  rcases patchMember_cases ctx root m with ⟨hskip, heq⟩ | ⟨spec, hbelow, hspec, heq⟩
  · rw [heq] at h
    cases h
    refine Or.inl ⟨fun spec hbelow hspec => ?_, rfl⟩
    rcases hskip with hskip | hskip
    · exact absurd hskip hbelow
    · rw [hskip] at hspec
      cases hspec
  · rw [heq] at h
    simp only [patchField] at h
    split at h
    · cases h
    split at h
    · cases h
    · rename_i hscalar
      cases h
      refine Or.inl ⟨fun spec' _ hspec' => ?_, rfl⟩
      rw [hspec] at hspec'
      cases hspec'
      exact hscalar
    · rename_i w hscalar
      cases h
      exact Or.inr ⟨spec, w, hbelow, hspec, hscalar, rfl⟩

theorem memberAsks_cons {K : String → Prop} {m : String × Json} {ms : List (String × Json)}
    {prefs : Prefs} :
    MemberAsks K (m :: ms) prefs ↔ MemberAsks K [m] prefs ∨ MemberAsks K ms prefs := by
  simp only [MemberAsks, List.mem_cons, List.not_mem_nil, or_false, exists_eq_or_imp,
    exists_eq_left]

/-- A write outside of the property does not change what is asked for. -/
theorem memberAsks_congr {K : String → Prop} {prefs prefs' : Prefs}
    (h : ∀ key, K key → prefs key = prefs' key) (ms : List (String × Json)) :
    MemberAsks K ms prefs ↔ MemberAsks K ms prefs' := by
  refine exists_congr fun m => and_congr_right fun _ => and_congr_right fun hK =>
    and_congr_right fun _ => exists_congr fun spec => and_congr_right fun hspec => ?_
  have hkey : prefs spec.key = prefs' spec.key := by
    rw [(findField_eq_some hspec).2]
    exact h m.1 hK
  rw [applyScalar_congr hkey]

/-- The walk touches a key with the property exactly when a member asks for another value than
the store before the walk. -/
theorem touchedBy_walk_iff {K : String → Prop} {ctx : DeviceContext} {root : Json}
    {ms : List (String × Json)} {prefs : Prefs}
    (hall : AllAccepted (ms.map (patchMember ctx root)) prefs) :
    (∃ t ∈ touchedBy (ms.map (patchMember ctx root)) prefs, K t) ↔ MemberAsks K ms prefs := by
  induction ms generalizing prefs with
  | nil =>
      constructor
      · rintro ⟨t, ht, _⟩
        cases ht
      · rintro ⟨m, hm, _⟩
        cases hm
  | cons m ms ih =>
      obtain ⟨effect, hb, hrest⟩ := hall
      rw [List.map_cons, touchedBy_cons_ok hb, memberAsks_cons]
      rcases patchMember_eq_ok hb with ⟨hquiet, rfl⟩ | ⟨spec, w, hbelow, hspec, hscalar, rfl⟩
      · have hnot : ¬ MemberAsks K [m] prefs := by
          rintro ⟨m', hm', _, hbelow, spec, hspec, hasks⟩
          rw [List.mem_singleton.mp hm'] at hbelow hspec hasks
          exact hasks (hquiet spec hbelow hspec)
        rw [or_iff_right hnot]
        exact ih hrest
      · have hasks : MemberAsks K [m] prefs ↔ K m.1 := by
          constructor
          · rintro ⟨m', hm', hK, _⟩
            rw [← List.mem_singleton.mp hm']
            exact hK
          · intro hK
            refine ⟨m, List.mem_cons_self, hK, hbelow, spec, hspec, ?_⟩
            rw [hscalar]
            nofun
        rw [hasks]
        by_cases hK : K m.1
        · exact iff_of_true ⟨m.1, List.mem_cons_self, hK⟩ (Or.inl hK)
        · have hsame (key : String) (hkey : K key) :
              applyWrites prefs [w] key = prefs key := by
            refine PrefsWrite.apply_of_ne ?_ prefs
            rintro rfl
            rw [(of_changed hscalar).1, (findField_eq_some hspec).2] at hkey
            exact hK hkey
          rw [or_iff_right hK, ← memberAsks_congr hsame ms, ← ih hrest]
          constructor
          · rintro ⟨t, ht, hKt⟩
            rcases List.mem_cons.mp ht with rfl | ht
            · exact absurd hKt hK
            · exact ⟨t, ht, hKt⟩
          · rintro ⟨t, ht, hKt⟩
            exact ⟨t, List.mem_cons_of_mem _ ht, hKt⟩

/-- The key of a field which takes effect after a reboot only. -/
def BootOnlyKey (key : String) : Prop :=
  ∃ spec, findField key = some spec ∧ spec.bootOnly = true

/-- The walk asks for a reboot exactly when it touches a key which needs one. -/
theorem rebootBy_walk_iff {ctx : DeviceContext} {root : Json} {ms : List (String × Json)}
    {prefs : Prefs} (hall : AllAccepted (ms.map (patchMember ctx root)) prefs) :
    rebootBy (ms.map (patchMember ctx root)) prefs = true ↔ MemberAsks BootOnlyKey ms prefs := by
  rw [← touchedBy_walk_iff hall]
  induction ms generalizing prefs with
  | nil =>
      constructor
      · nofun
      · rintro ⟨t, ht, _⟩
        cases ht
  | cons m ms ih =>
      obtain ⟨effect, hb, hrest⟩ := hall
      rw [List.map_cons, touchedBy_cons_ok hb, rebootBy_cons_ok hb, Bool.or_eq_true, ih hrest]
      have hfirst : effect.rebootRequired = true ↔ ∃ t ∈ effect.touchedKeys, BootOnlyKey t := by
        rcases patchMember_eq_ok hb with ⟨_, rfl⟩ | ⟨spec, w, _, hspec, _, rfl⟩
        · simp
        · simp [BootOnlyKey, hspec]
      simp only [hfirst, List.mem_append, or_and_right, exists_or]

/-! ### What a list of blocks asks for -/

/-- A report of a key with the property has the property. -/
def ReportClosed (K : String → Prop) : Prop :=
  ∀ t key, Reports t key → K key → K t

theorem reportClosed_of {K : String → Prop} (hcolors : ∀ key ∈ ["fgColor", "bgColor"], ¬ K key)
    (htimes : ∀ key ∈ [kDndStartMin, kDndEndHour, kDndEndMin], K key → K kDndStartHour) :
    ReportClosed K := by
  rintro t key (rfl | ⟨_, hmem⟩ | ⟨rfl, hmem⟩) hkey
  · exact hkey
  · exact absurd hkey (hcolors key hmem)
  · exact htimes key hmem hkey

/-- The blocks touch a key with the property exactly when `asks` holds of the store before them,
and `asks` looks at these keys only. -/
structure Asks (K : String → Prop) (bs : List PatchBlock) (asks : Prefs → Prop) : Prop where
  candid : ∀ block ∈ bs, EveryEffect Effect.Candid block
  congr : ∀ prefs prefs' : Prefs, (∀ key, K key → prefs key = prefs' key) →
    (asks prefs ↔ asks prefs')
  touches : ∀ prefs, AllAccepted bs prefs → ((∃ t ∈ touchedBy bs prefs, K t) ↔ asks prefs)

section Asks

variable {K : String → Prop}

/-- Without a touch the keys with the property keep their values. -/
theorem storeAfter_of_not_touched (hK : ReportClosed K) {bs : List PatchBlock}
    (hcandid : ∀ block ∈ bs, EveryEffect Effect.Candid block) {prefs : Prefs}
    (hnot : ¬ ∃ t ∈ touchedBy bs prefs, K t) {key : String} (hkey : K key) :
    storeAfter bs prefs key = prefs key := by
  by_contra hne
  obtain ⟨t, ht, hreports⟩ := exists_reports_of_ne hcandid hne
  exact hnot ⟨t, ht, hK t key hreports hkey⟩

/-- Up to the first touch the store is the one before, so each part may be asked about that
one. -/
theorem Asks.append (hK : ReportClosed K) {bs cs : List PatchBlock} {asks asks' : Prefs → Prop}
    (h : Asks K bs asks) (h' : Asks K cs asks') :
    Asks K (bs ++ cs) fun prefs => asks prefs ∨ asks' prefs where
  candid block hblock := by
    rcases List.mem_append.mp hblock with hblock | hblock
    · exact h.candid block hblock
    · exact h'.candid block hblock
  congr prefs prefs' hsame := or_congr (h.congr prefs prefs' hsame) (h'.congr prefs prefs' hsame)
  touches prefs hall := by
    obtain ⟨hfirst, hrest⟩ := (allAccepted_append bs cs prefs).mp hall
    simp only [touchedBy_append hfirst, List.mem_append, or_and_right, exists_or]
    rw [h.touches prefs hfirst, h'.touches _ hrest]
    refine or_congr_right' fun hnot => h'.congr _ _ fun key hkey => ?_
    exact storeAfter_of_not_touched hK h.candid (fun ht => hnot ((h.touches prefs hfirst).mp ht))
      hkey

theorem Asks.of_iff {bs : List PatchBlock} {asks asks' : Prefs → Prop} (h : Asks K bs asks)
    (hiff : ∀ prefs, asks prefs ↔ asks' prefs) : Asks K bs asks' where
  candid := h.candid
  congr prefs prefs' hsame :=
    (hiff prefs).symm.trans ((h.congr prefs prefs' hsame).trans (hiff prefs'))
  touches prefs hall := (h.touches prefs hall).trans (hiff prefs)

theorem asks_nil : Asks K [] fun _ => False where
  candid _ hblock := nomatch hblock
  congr _ _ _ := Iff.rfl
  touches _ _ := iff_of_false (fun ⟨_, ht, _⟩ => nomatch ht) id

/-- Blocks which write other keys ask for nothing. -/
theorem asks_of_writesOnly {bs : List PatchBlock}
    (hcandid : ∀ block ∈ bs, EveryEffect Effect.Candid block)
    (hbs : ∀ block ∈ bs, WritesOnly (¬ K ·) block) : Asks K bs fun _ => False where
  candid := hcandid
  congr _ _ _ := Iff.rfl
  touches _ _ := iff_of_false (fun ⟨_, ht, hkey⟩ => of_mem_touchedBy hcandid hbs ht hkey) id

theorem asks_walk (ctx : DeviceContext) (root : Json) (ms : List (String × Json)) :
    Asks K (ms.map (patchMember ctx root)) (MemberAsks K ms) where
  candid block hblock := by
    obtain ⟨m, _, rfl⟩ := List.mem_map.mp hblock
    exact candid_patchMember ctx root m
  congr _ _ hsame := memberAsks_congr hsame ms
  touches _ hall := touchedBy_walk_iff hall

/-- One block, by its accepted effects. -/
theorem asks_singleton {block : PatchBlock} {asks : Prefs → Prop}
    (hcandid : EveryEffect Effect.Candid block)
    (hcongr : ∀ prefs prefs' : Prefs, (∀ key, K key → prefs key = prefs' key) →
      (asks prefs ↔ asks prefs'))
    (htouches : ∀ prefs effect, block prefs = .ok effect →
      ((∃ t ∈ effect.touchedKeys, K t) ↔ asks prefs)) : Asks K [block] asks where
  candid b hb := by
    rw [List.mem_singleton.mp hb]
    exact hcandid
  congr := hcongr
  touches prefs hall := by
    obtain ⟨effect, hb, _⟩ := hall
    rw [touchedBy_cons_ok hb, touchedBy_nil, List.append_nil]
    exact htouches prefs effect hb

theorem asks_skip : Asks K [skip] fun _ => False := by
  refine asks_singleton (everyEffect_skip candid_none) (fun _ _ _ => Iff.rfl)
    fun prefs effect hb => ?_
  cases hb
  exact iff_of_false (fun ⟨_, ht, _⟩ => nomatch ht) id

/-- A block behind a check asks with the value which passes it. -/
theorem asks_validated {α : Type} {check : Except PatchError α} {effect : α → Prefs → Effect}
    {asks : α → Prefs → Prop} (hcandid : ∀ a prefs, (effect a prefs).Candid)
    (hcongr : ∀ a, ∀ prefs prefs' : Prefs, (∀ key, K key → prefs key = prefs' key) →
      (asks a prefs ↔ asks a prefs'))
    (htouches : ∀ a prefs, (∃ t ∈ (effect a prefs).touchedKeys, K t) ↔ asks a prefs) :
    Asks K [validated check effect] fun prefs => ∃ a, check.toOption = some a ∧ asks a prefs := by
  refine asks_singleton (everyEffect_validated hcandid) (fun prefs prefs' hsame => ?_)
    fun prefs eff hb => ?_
  · exact exists_congr fun a => and_congr_right fun _ => hcongr a prefs prefs' hsame
  · cases check with
    | error e => cases hb
    | ok a =>
        cases hb
        rw [htouches a prefs]
        exact ⟨fun hasks => ⟨a, rfl, hasks⟩, fun ⟨_, rfl, hasks⟩ => hasks⟩

/-- A family of blocks asks when one of them does. -/
theorem asks_map (hK : ReportClosed K) {α : Type} {block : α → PatchBlock}
    {asks : α → Prefs → Prop} (h : ∀ a, Asks K [block a] (asks a)) (as : List α) :
    Asks K (as.map block) fun prefs => ∃ a ∈ as, asks a prefs := by
  induction as with
  | nil =>
      simp only [List.not_mem_nil, false_and, exists_false]
      exact asks_nil
  | cons a as ih =>
      simp only [List.mem_cons, or_and_right, exists_or, exists_eq_left]
      exact (h a).append hK ih

/-- An effect under a condition, with one report. -/
theorem touched_ite_iff {c : Prop} [Decidable c] {writes : List PrefsWrite} {t : String}
    {reboot : Bool} (ht : K t) :
    (∃ u ∈ (if c then ({ writes := writes, touchedKeys := [t], rebootRequired := reboot } : Effect)
      else {}).touchedKeys, K u) ↔ c := by
  by_cases hc : c
  · rw [if_pos hc]
    exact iff_of_true ⟨t, List.mem_cons_self, ht⟩ hc
  · rw [if_neg hc]
    exact iff_of_false (fun ⟨_, hu, _⟩ => nomatch hu) hc

end Asks

end Settings

end BtClock
