import BtClock.Reading.Collapse
import BtClock.Screen.Carousel
import BtClock.Settings.Response
import Mathlib.Data.List.TakeWhile

/-!
# The settings page and the rotation

The settings page lists the screens in their stored order.  The rotation is built from the same
store.  The enabled screens of the page are compared with the screens which the rotation visits.
-/

namespace BtClock

open Settings SlotMap RotationPlan Collapse

namespace SettingsPage

/-! ### The page -/

/-- The rotatable screens with their labels. -/
def kScreenKinds : List (Int32 × String) :=
  [(0, "Block Height"), (3, "Time"), (4, "Halving countdown"), (6, "Block Fee Rate"),
    (10, "Sats per dollar"), (20, "Ticker"), (30, "Market Cap"), (40, "Bitcoin Supply"),
    (70, "Mining Pool Hashrate"), (71, "Mining Pool Earnings"),
    (72, "Mining Pool Estimated Earnings"), (80, "Bitaxe Hashrate"),
    (81, "Bitaxe Best Difficulty"), (90, "NWC Balance")]

def screensCatalog : List ScreenInfo :=
  kScreenKinds.map fun s =>
    { id := s.1, name := s.2, defaultVisible := defaultScreenVisible s.1 }

/-- The earnings are hidden when the pool does not report them. -/
def screenIsHidden (prefs : Prefs) (apiId : Int32) : Bool :=
  let poolName := readString prefs "miningPoolName"
  if apiId = kApiIdMiningPoolEarnings then !MiningPools.poolSupportsDailyEarnings poolName
  else if apiId = kApiIdMiningPoolEstimatedEarnings then
    !MiningPools.poolSupportsEstimatedEarnings poolName
  else false

/-- What a request takes beside the store: the facts about the device, the catalogue, and the
gates as they are stored. -/
def buildDeviceContext (facts : DeviceContext) (prefs : Prefs) : DeviceContext :=
  { facts with
    miningPoolStatsEnabled := readBool prefs "miningPoolStats"
    bitaxeEnabled := readBool prefs "bitaxeEnabled"
    nwcEnabled := readBool prefs "nwcEnabled"
    screens := screensCatalog
    hiddenScreenIds := (screensCatalog.map ScreenInfo.id).filter (screenIsHidden prefs) }

/-- Is an entry of the page enabled? -/
def isEnabledEntry (entry : Json) : Bool :=
  match entry.getObjectItem "enabled" with
  | some (.bool enabled) => enabled
  | _ => false

/-- The ids of the enabled entries, as the page reads them. -/
def enabledEntryIds (response : Json) : List Json :=
  ((screenEntries response).filter isEnabledEntry).filterMap fun entry => entry.getObjectItem "id"

/-- The ids of the screens which are listed as enabled. -/
def enabledIds (ctx : DeviceContext) (prefs : Prefs) : List Int32 :=
  (((emittedIds ctx prefs).filterMap (screenById ctx)).filter fun s =>
    prefs.getBool (visibleKey s.id) s.defaultVisible).map ScreenInfo.id

/-! ### The rotation -/

/-- The ids of the slots, where a screen with one slot for each currency counts once. -/
def rotationIds (prefs : Prefs) (currencyCount : ℕ) : List Int32 :=
  collapse isPerCurrencyKind
    ((buildRotationSequence (readString prefs "screenOrder") (screenEnabled prefs)
      currencyCount).map fun slot => apiIdForSlot slot currencyCount)

/-! ### When they agree -/

/-- A screen of the page which is enabled. -/
def screenShown (prefs : Prefs) (apiId : Int32) : Bool :=
  screenEnabled prefs apiId && !screenIsHidden prefs apiId

/-- The ids which the page reads from the stored order. -/
def plainOrder (csv : String) : List Int32 :=
  (splitCsv csv).filterMap parseScreenId

/-- The enabled ids which the rotation reads from the stored order. -/
def orderedIds (prefs : Prefs) (csv : String) : List Int32 :=
  (parseScreenOrderCsv csv).filter fun id => decide (id ∈ catalogIds) && screenEnabled prefs id

/-- A stored order of which both make the same. -/
structure SameReading (prefs : Prefs) (csv : String) : Prop where
  /-- It names the screens which the page shows as enabled, and no other ones. -/
  complete : ∀ id, id ∈ orderedIds prefs csv ↔ id ∈ catalogIds ∧ screenShown prefs id = true
  /-- It names each of them once. -/
  once : (collapse isPerCurrencyKind (orderedIds prefs csv)).Nodup
  /-- What only the rotation can read comes last, in the order of the catalogue. -/
  plain : (collapse isPerCurrencyKind (orderedIds prefs csv)).Pairwise fun id id' =>
    (id' ∈ plainOrder csv → id ∈ plainOrder csv) ∧
      (id ∉ plainOrder csv → id' ∉ plainOrder csv → id < id')

/-- Without a stored order the screens which the page shows are those of the slots, and the slots
are in the order of the catalogue. -/
structure SameDefault (prefs : Prefs) (n : ℕ) : Prop where
  some : ∃ id ∈ catalogIds, screenShown prefs id = true
  shown : ∀ id ∈ catalogIds, screenEnabled prefs id = true → screenShown prefs id = true
  sorted : ∀ slot slot', slot < slot' → slot' < slotCount n →
    screenEnabled prefs (apiIdForSlot slot n) = true →
    screenEnabled prefs (apiIdForSlot slot' n) = true →
    apiIdForSlot slot n ≤ apiIdForSlot slot' n

/-- When the page and the rotation agree.  A rotation with no screen stays on the block height. -/
def Agree (prefs : Prefs) (n : ℕ) : Prop :=
  let csv := readString prefs "screenOrder"
  if csv = "" then SameDefault prefs n
  else if orderedIds prefs csv = [] then
    ∀ id ∈ catalogIds, screenShown prefs id = true ↔ id = kApiIdBlockHeight
  else SameReading prefs csv

/-! ### The entries of the response -/

/-- The page reads the enabled screens of the model. -/
theorem enabledEntryIds_buildGetResponse (ctx : DeviceContext) (prefs : Prefs) :
    enabledEntryIds (buildGetResponse prefs ctx) = (enabledIds ctx prefs).map ofInt32 := by
  have hitem : (buildGetResponse prefs ctx).getObjectItem "screens" =
      some (screensMember ctx prefs).2 := lookup_screens ctx prefs
  rw [enabledEntryIds, screenEntries, hitem]
  dsimp only [screensMember]
  rw [enabledIds, List.map_map]
  generalize (emittedIds ctx prefs).filterMap (screenById ctx) = screens
  have hentries : ∀ k : ℕ, ((screens.mapIdx fun i s => emitScreen prefs s (k + i)).filter
      isEnabledEntry).filterMap (fun entry => entry.getObjectItem "id") =
        (screens.filter fun s => prefs.getBool (visibleKey s.id) s.defaultVisible).map
          (ofInt32 ∘ ScreenInfo.id) := by
    induction screens with
    | nil => exact fun _ => rfl
    | cons s screens ih =>
        intro k
        have hrest := ih (k + 1)
        rw [List.mapIdx_cons]
        have hshift : (fun i s => emitScreen prefs s (k + (i + 1))) =
            fun i s => emitScreen prefs s (k + 1 + i) := by
          funext i s
          rw [Nat.add_assoc, Nat.add_comm 1]
        have henabled : isEnabledEntry (emitScreen prefs s (k + 0)) =
            prefs.getBool (visibleKey s.id) s.defaultVisible := rfl
        have hid : (emitScreen prefs s (k + 0)).getObjectItem "id" = some (ofInt32 s.id) := rfl
        rw [hshift, List.filter_cons, List.filter_cons, henabled]
        split
        · rw [List.filterMap_cons, hid]
          exact congrArg (ofInt32 s.id :: ·) hrest
        · exact hrest
  have hzero := hentries 0
  simp only [Nat.zero_add] at hzero
  exact hzero

/-! ### The order of the page -/

/-- The stored order gives the ids which are shown, each one at its first occurrence. -/
theorem persistedOrder_spec (ctx : DeviceContext) (items : List String) (emitted : List Int32)
    (h : emitted.Nodup) :
    ∃ more, persistedOrder ctx items emitted = emitted ++ more ∧ (emitted ++ more).Nodup ∧
      more.Sublist (items.filterMap parseScreenId) ∧
      ∀ id, id ∈ emitted ++ more ↔ id ∈ emitted ∨
        id ∈ items.filterMap parseScreenId ∧ id ∈ ctx.screens.map ScreenInfo.id ∧
          id ∉ ctx.hidden := by
  induction items generalizing emitted with
  | nil =>
      refine ⟨[], (List.append_nil _).symm, ?_, List.Sublist.refl _, fun id => ?_⟩
      · rwa [List.append_nil]
      · simp
  | cons item items ih =>
      rw [persistedOrder]
      cases hv : parseScreenId item with
      | none =>
          rw [List.filterMap_cons_none hv]
          exact ih emitted h
      | some v =>
          rw [List.filterMap_cons_some hv]
          dsimp only
          split
          · rename_i hskip
            obtain ⟨more, heq, hnodup, hsub, hmem⟩ := ih emitted h
            refine ⟨more, heq, hnodup, hsub.cons v, fun id => ?_⟩
            rw [hmem, List.mem_cons]
            by_cases hid : id = v
            · subst hid
              rcases hskip with hskip | hskip | hskip
              · simp [hskip]
              · simp [hskip]
              · exact iff_of_true (.inl hskip) (.inl hskip)
            · simp only [hid, false_or]
          · rename_i htake
            simp only [not_or, not_not] at htake
            have hnodup' : (emitted ++ [v]).Nodup := by
              refine List.nodup_append.mpr ⟨h, List.nodup_singleton v, fun a ha b hb heq => ?_⟩
              obtain rfl := List.mem_singleton.mp hb
              exact htake.2.2 (heq ▸ ha)
            obtain ⟨more, heq, hnodup, hsub, hmem⟩ := ih (emitted ++ [v]) hnodup'
            rw [List.append_assoc] at heq hnodup hmem
            refine ⟨v :: more, heq, hnodup, hsub.cons_cons v, fun id => ?_⟩
            rw [List.singleton_append] at hmem
            rw [hmem, List.mem_append, List.mem_singleton, List.mem_cons]
            by_cases hid : id = v
            · subst hid
              simp [htake]
            · simp only [hid, false_or, or_false]

theorem screens_ids (facts : DeviceContext) (prefs : Prefs) :
    (buildDeviceContext facts prefs).screens.map ScreenInfo.id = catalogIds :=
  rfl

theorem screenById_of_mem (facts : DeviceContext) (prefs : Prefs) {id : Int32}
    (h : id ∈ catalogIds) :
    ∃ s, screenById (buildDeviceContext facts prefs) id = some s ∧ s.id = id ∧
      s.defaultVisible = defaultScreenVisible id := by
  have hall : catalogIds.all (fun id => decide (∃ s ∈ screenById { screens := screensCatalog } id,
      s.id = id ∧ s.defaultVisible = defaultScreenVisible id)) = true := by decide
  obtain ⟨s, hs, hid, hvisible⟩ := of_decide_eq_true (List.all_eq_true.mp hall id h)
  exact ⟨s, hs, hid, hvisible⟩

theorem filter_visible_ids (facts : DeviceContext) (prefs : Prefs) {ids : List Int32}
    (h : ∀ id ∈ ids, id ∈ catalogIds) :
    ((ids.filterMap (screenById (buildDeviceContext facts prefs))).filter fun s =>
      prefs.getBool (visibleKey s.id) s.defaultVisible).map ScreenInfo.id =
        ids.filter fun id => prefs.getBool (visibleKey id) (defaultScreenVisible id) := by
  induction ids with
  | nil => rfl
  | cons id ids ih =>
      obtain ⟨s, hs, rfl, hvisible⟩ := screenById_of_mem facts prefs (h id List.mem_cons_self)
      rw [List.filterMap_cons_some hs, List.filter_cons, List.filter_cons, hvisible,
        ← ih fun id hid => h id (List.mem_cons_of_mem _ hid)]
      split
      · rfl
      · rfl

/-- The feature of the screen is off. -/
def Gated (prefs : Prefs) (id : Int32) : Prop :=
  (id = 70 ∨ id = 71 ∨ id = 72) ∧ readBool prefs "miningPoolStats" = false ∨
    (id = 80 ∨ id = 81) ∧ readBool prefs "bitaxeEnabled" = false ∨
      id = 90 ∧ readBool prefs "nwcEnabled" = false

theorem mem_hidden_iff (facts : DeviceContext) (prefs : Prefs) {id : Int32}
    (h : id ∈ catalogIds) :
    id ∈ (buildDeviceContext facts prefs).hidden ↔
      screenIsHidden prefs id = true ∨ Gated prefs id := by
  have hcapability : id ∈ (screensCatalog.map ScreenInfo.id).filter (screenIsHidden prefs) ↔
      screenIsHidden prefs id = true := by
    rw [List.mem_filter]
    exact and_iff_right h
  have hgate : ∀ (gate : Bool) (ids : List Int32),
      id ∈ (if gate = true then [] else ids) ↔ id ∈ ids ∧ gate = false := by
    intro gate ids
    cases gate <;> simp
  rw [DeviceContext.hidden, List.mem_append, List.mem_append, List.mem_append, hgate, hgate, hgate,
    or_assoc, or_assoc]
  refine or_congr hcapability ?_
  simp only [List.mem_cons, List.not_mem_nil, or_false, Gated, buildDeviceContext]

theorem screenEnabled_iff (prefs : Prefs) (id : Int32) :
    screenEnabled prefs id = true ↔
      ¬ Gated prefs id ∧ ¬ (id = 72 ∧ screenIsHidden prefs id = true) ∧
        prefs.getBool (visibleKey id) (defaultScreenVisible id) = true := by
  have hestimate : id = 72 ∧ screenIsHidden prefs id = true ↔ id = 72 ∧
      MiningPools.poolSupportsEstimatedEarnings (readString prefs "miningPoolName") = false := by
    refine and_congr_right ?_
    rintro rfl
    exact iff_of_eq (Bool.not_eq_true' _)
  rw [hestimate, screenEnabled, Gated]
  split_ifs <;> simp_all

/-- The page shows what the rotation may show, but for the hidden earnings. -/
theorem screenShown_iff (facts : DeviceContext) (prefs : Prefs) {id : Int32}
    (h : id ∈ catalogIds) :
    screenShown prefs id = true ↔ id ∉ (buildDeviceContext facts prefs).hidden ∧
      prefs.getBool (visibleKey id) (defaultScreenVisible id) = true := by
  rw [screenShown, Bool.and_eq_true, Bool.not_eq_true', mem_hidden_iff facts prefs h,
    screenEnabled_iff]
  cases screenIsHidden prefs id <;> simp

/-- The enabled screens of the catalogue. -/
def shownIds (prefs : Prefs) : List Int32 :=
  catalogIds.filter (screenShown prefs)

theorem mem_shownIds {prefs : Prefs} {id : Int32} :
    id ∈ shownIds prefs ↔ id ∈ catalogIds ∧ screenShown prefs id = true :=
  List.mem_filter

/-- The page lists the stored ids first, and then the others. -/
theorem enabledIds_eq (facts : DeviceContext) (prefs : Prefs) :
    ∃ front, enabledIds (buildDeviceContext facts prefs) prefs =
        front ++ (shownIds prefs).filter (fun id => id ∉ front) ∧
      front.Nodup ∧ front.Sublist (plainOrder (prefs.getString kScreenOrder "")) ∧
      ∀ id, id ∈ front ↔ id ∈ plainOrder (prefs.getString kScreenOrder "") ∧
        id ∈ shownIds prefs := by
  obtain ⟨stored, hstored, hnodup, hsub, hmem⟩ := persistedOrder_spec
    (buildDeviceContext facts prefs) (splitCsv (prefs.getString kScreenOrder "")) []
    List.nodup_nil
  rw [List.nil_append] at hstored hnodup hmem
  rw [screens_ids] at hmem
  simp only [List.not_mem_nil, false_or] at hmem
  have hfront : ∀ id, id ∈ stored.filter
      (fun id => prefs.getBool (visibleKey id) (defaultScreenVisible id)) ↔
        id ∈ plainOrder (prefs.getString kScreenOrder "") ∧ id ∈ shownIds prefs := by
    intro id
    rw [List.mem_filter, hmem, mem_shownIds, and_assoc, and_assoc]
    refine and_congr_right fun _ => and_congr_right fun hid => ?_
    exact (screenShown_iff facts prefs hid).symm
  refine ⟨stored.filter fun id => prefs.getBool (visibleKey id) (defaultScreenVisible id), ?_,
    hnodup.filter _, List.filter_sublist.trans hsub, hfront⟩
  have hids : ∀ id ∈ emittedIds (buildDeviceContext facts prefs) prefs, id ∈ catalogIds := by
    intro id hid
    rw [emittedIds, hstored, screens_ids] at hid
    rcases List.mem_append.mp hid with hid | hid
    · exact ((hmem id).mp hid).2.1
    · exact (List.mem_filter.mp hid).1
  rw [enabledIds, filter_visible_ids facts prefs hids, emittedIds, hstored, screens_ids,
    List.filter_append, List.filter_filter, shownIds, List.filter_filter]
  refine congrArg _ (List.filter_congr fun id hid => ?_)
  have hshown := screenShown_iff facts prefs hid
  rw [Bool.eq_iff_iff, Bool.and_eq_true, Bool.and_eq_true, decide_eq_true_eq, decide_eq_true_eq,
    hshown, List.mem_filter]
  tauto

/-! ### The order of the rotation -/

section Rotation

variable {n : ℕ}

theorem map_expandApiId (id : Int32) :
    (expandApiId id n).map (fun slot => apiIdForSlot slot n) =
      List.replicate (expandApiId id n).length id := by
  refine List.eq_replicate_iff.mpr ⟨List.length_map _, fun id' hid' => ?_⟩
  obtain ⟨slot, hslot, rfl⟩ := List.mem_map.mp hid'
  exact apiIdForSlot_of_mem_expandApiId hslot

/-- A screen of the catalogue has a slot, and more than one if they belong to currencies. -/
theorem length_expandApiId (hn : 1 ≤ n) {id : Int32} (h : id ∈ catalogIds) :
    (expandApiId id n).length ≠ 0 ∧
      ((expandApiId id n).length ≠ 1 → isPerCurrencyKind id = true) := by
  have hagnostic : catalogIds.all (fun id => decide (isPerCurrencyKind id = false →
      id ≠ kApiIdBlockFeeRate → (kAgnosticApiIds.lookup id).isSome = true)) = true := by decide
  rw [expandApiId]
  cases hkind : isPerCurrencyKind id with
  | true =>
      rw [if_pos rfl, List.length_map, List.length_range]
      exact ⟨Nat.one_le_iff_ne_zero.mp hn, fun _ => rfl⟩
  | false =>
      obtain ⟨slot, hslot⟩ : ∃ slot, agnosticSlotForApiId id n = some slot := by
        rw [agnosticSlotForApiId]
        split
        · rw [if_neg (Nat.one_le_iff_ne_zero.mp hn)]
          exact ⟨_, rfl⟩
        · rename_i hfee
          exact Option.isSome_iff_exists.mp
            (of_decide_eq_true (List.all_eq_true.mp hagnostic id h) hkind hfee)
      rw [if_neg Bool.false_ne_true, hslot]
      exact ⟨Nat.one_ne_zero, fun hne => absurd rfl hne⟩

theorem mem_orderedIds {prefs : Prefs} {csv : String} {id : Int32} :
    id ∈ orderedIds prefs csv ↔
      id ∈ parseScreenOrderCsv csv ∧ id ∈ catalogIds ∧ screenEnabled prefs id = true := by
  rw [orderedIds, List.mem_filter, Bool.and_eq_true, decide_eq_true_eq]

/-- A rotation with no screen. -/
theorem collapse_blockHeight (n : ℕ) :
    collapse isPerCurrencyKind ((orBlockHeight []).map fun slot => apiIdForSlot slot n) =
      [kApiIdBlockHeight] := by
  rw [orBlockHeight, if_pos rfl, List.map_singleton, apiIdForSlot_agnostic n 1 (by decide)]
  rfl

/-- With a stored order the rotation visits the screens which it reads, in their order. -/
theorem rotationIds_of_order (hn : 1 ≤ n) {prefs : Prefs}
    (h : readString prefs "screenOrder" ≠ "") :
    rotationIds prefs n =
      if orderedIds prefs (readString prefs "screenOrder") = [] then [kApiIdBlockHeight]
      else collapse isPerCurrencyKind (orderedIds prefs (readString prefs "screenOrder")) := by
  have hexpand : ∀ id ∈ orderedIds prefs (readString prefs "screenOrder"),
      (expandApiId id n).length ≠ 0 ∧
        ((expandApiId id n).length ≠ 1 → isPerCurrencyKind id = true) :=
    fun id hid => length_expandApiId hn (mem_orderedIds.mp hid).2.1
  have hcatalog : buildRotationSequence (readString prefs "screenOrder") (screenEnabled prefs) n =
      buildRotationSequence (readString prefs "screenOrder")
        (fun id => decide (id ∈ catalogIds) && screenEnabled prefs id) n :=
    buildRotationSequence_congr n fun id hid _ => by simp [hid]
  rw [rotationIds, hcatalog, buildRotationSequence, if_neg h]
  generalize hids : orderedIds prefs (readString prefs "screenOrder") = ids at hexpand
  rw [orderedIds] at hids
  rw [hids]
  by_cases hnil : ids = []
  · rw [if_pos hnil, hnil]
    exact collapse_blockHeight n
  · have hseq : ids.flatMap (fun id => expandApiId id n) ≠ [] := by
      intro hflat
      obtain ⟨id, hid⟩ := List.exists_mem_of_ne_nil ids hnil
      have hempty := List.flatMap_eq_nil_iff.mp hflat id hid
      exact (hexpand id hid).1 (by rw [hempty]; rfl)
    rw [if_neg hnil, orBlockHeight, if_neg hseq, List.map_flatMap]
    simp only [map_expandApiId]
    exact collapse_flatMap_replicate hexpand

end Rotation

/-! ### The comparison -/

theorem readString_screenOrder (prefs : Prefs) :
    readString prefs "screenOrder" = prefs.getString kScreenOrder "" := by
  have hdefault : defaultStringFor "screenOrder" = "" := by decide
  simp [readString, hdefault, kScreenOrder]

theorem pairwise_shownIds (prefs : Prefs) :
    (shownIds prefs).Pairwise fun id id' => id ≤ id' ∧ id ≠ id' := by
  refine List.Pairwise.filter _ ?_
  decide

theorem nodup_shownIds (prefs : Prefs) : (shownIds prefs).Nodup :=
  (pairwise_shownIds prefs).imp And.right

theorem isBlank_of_isDigit {c : Char} (h : c.isDigit = true) : isBlank c = false := by
  rw [isBlank, Bool.or_eq_false_iff, beq_eq_false_iff_ne, beq_eq_false_iff_ne]
  constructor <;> rintro rfl <;> exact absurd h (by decide)

/-- A number in plain digits is read by both. -/
theorem parseOrderItem_of_parseScreenId {c : Char} {item : List Char} {id : Int32}
    (h : parseScreenId (String.ofList (c :: item)) = some id) :
    parseOrderItem (c :: item) = some id := by
  rw [parseScreenId, String.toList_ofList] at h
  split at h
  · rename_i hdigits
    have hall := List.all_eq_true.mp hdigits
    have hfirst := hall c List.mem_cons_self
    have hplain : parseDigits (c :: item) = some id := by
      have htake : (c :: item).takeWhile (fun c => !isBlank c) = c :: item := by
        refine List.takeWhile_eq_self_iff.mpr fun d hd => ?_
        rw [isBlank_of_isDigit (hall d hd)]
        rfl
      rw [parseDigits, htake, if_pos ⟨List.cons_ne_nil c item, hdigits⟩]
      exact h
    have hdrop : (c :: item).dropWhile isBlank = c :: item :=
      List.dropWhile_cons_of_neg (by rw [isBlank_of_isDigit hfirst]; exact Bool.false_ne_true)
    rw [parseOrderItem, hdrop]
    split
    · rename_i heq
      rw [(List.cons.inj heq).1] at hfirst
      exact absurd hfirst (by decide)
    · rename_i heq
      rw [(List.cons.inj heq).1] at hfirst
      exact absurd hfirst (by decide)
    · exact hplain
  · cases h

theorem plainOrder_sublist (csv : String) : (plainOrder csv).Sublist (parseScreenOrderCsv csv) := by
  rw [plainOrder, splitCsv, parseScreenOrderCsv, List.filterMap_map]
  generalize csv.toList.splitOn ',' = items
  induction items with
  | nil => exact List.Sublist.refl _
  | cons item items ih =>
      have hskip : (List.filterMap parseOrderItem items).Sublist
          (List.filterMap parseOrderItem (item :: items)) := by
        cases hread : parseOrderItem item with
        | none => rw [List.filterMap_cons_none hread]
        | some id =>
            rw [List.filterMap_cons_some hread]
            exact List.sublist_cons_self _ _
      cases item with
      | nil =>
          rw [List.filter_cons_of_neg (by simp)]
          exact ih.trans hskip
      | cons c item =>
          rw [List.filter_cons_of_pos (by simp)]
          cases hid : (parseScreenId ∘ String.ofList) (c :: item) with
          | none =>
              rw [List.filterMap_cons_none hid]
              exact ih.trans hskip
          | some id =>
              rw [List.filterMap_cons_some hid,
                List.filterMap_cons_some (parseOrderItem_of_parseScreenId hid)]
              exact ih.cons_cons id

/-- With a stored order the two agree when they read it alike. -/
theorem enabledIds_eq_collapse_iff (facts : DeviceContext) (prefs : Prefs) :
    enabledIds (buildDeviceContext facts prefs) prefs =
        collapse isPerCurrencyKind (orderedIds prefs (readString prefs "screenOrder")) ↔
      SameReading prefs (readString prefs "screenOrder") := by
  obtain ⟨front, heq, hnodup, hsub, hfront⟩ := enabledIds_eq facts prefs
  rw [← readString_screenOrder] at hsub hfront
  generalize readString prefs "screenOrder" = csv at *
  have hin : ∀ id ∈ front, id ∈ catalogIds ∧ screenShown prefs id = true :=
    fun id hid => mem_shownIds.mp ((hfront id).mp hid).2
  have hordered : front.Sublist (orderedIds prefs csv) := by
    have hkeep : front.filter (fun id => decide (id ∈ catalogIds) && screenEnabled prefs id) =
        front := by
      refine List.filter_eq_self.mpr fun id hid => ?_
      obtain ⟨hmem, hshown⟩ := hin id hid
      rw [screenShown, Bool.and_eq_true] at hshown
      rw [decide_eq_true hmem, hshown.1]
      rfl
    rw [← hkeep]
    exact (hsub.trans (plainOrder_sublist csv)).filter _
  have hlt : (shownIds prefs).Pairwise fun id id' => id < id' :=
    (pairwise_shownIds prefs).imp fun h => Int32.lt_of_le_of_ne h.1 h.2
  rw [heq, append_filter_eq_collapse_iff (fun a b hab hba => absurd hba (Int32.lt_asymm hab))
    hordered hnodup (fun id hid => mem_shownIds.mpr (hin id hid)) (nodup_shownIds prefs) hlt]
  simp only [mem_shownIds]
  -- an id which the page shows is in front exactly when the page reads it from the order
  have hpairs : (∀ id, id ∈ orderedIds prefs csv ↔
      id ∈ catalogIds ∧ screenShown prefs id = true) → ∀ {a b : Int32},
        a ∈ collapse isPerCurrencyKind (orderedIds prefs csv) →
        b ∈ collapse isPerCurrencyKind (orderedIds prefs csv) →
        (((b ∈ front → a ∈ front) ∧ (a ∉ front → b ∉ front → a < b)) ↔
          ((b ∈ plainOrder csv → a ∈ plainOrder csv) ∧
            (a ∉ plainOrder csv → b ∉ plainOrder csv → a < b))) := by
    intro hcomplete a b ha hb
    have hiff : ∀ id ∈ collapse isPerCurrencyKind (orderedIds prefs csv),
        (id ∈ front ↔ id ∈ plainOrder csv) := by
      intro id hid
      rw [hfront, mem_shownIds, ← hcomplete]
      exact and_iff_left (mem_collapse.mp hid)
    rw [hiff a ha, hiff b hb]
  constructor
  · rintro ⟨hcomplete, honce, hplain⟩
    exact ⟨hcomplete, honce, hplain.imp_of_mem fun ha hb h => (hpairs hcomplete ha hb).mp h⟩
  · rintro ⟨hcomplete, honce, hplain⟩
    exact ⟨hcomplete, honce, hplain.imp_of_mem fun ha hb h => (hpairs hcomplete ha hb).mpr h⟩

/-- The screen of the block height alone is listed when no other one is enabled. -/
theorem enabledIds_eq_blockHeight_iff (facts : DeviceContext) (prefs : Prefs) :
    enabledIds (buildDeviceContext facts prefs) prefs = [kApiIdBlockHeight] ↔
      ∀ id ∈ catalogIds, screenShown prefs id = true ↔ id = kApiIdBlockHeight := by
  obtain ⟨front, heq, hnodup, -, hfront⟩ := enabledIds_eq facts prefs
  have hmem : ∀ id, id ∈ enabledIds (buildDeviceContext facts prefs) prefs ↔
      id ∈ catalogIds ∧ screenShown prefs id = true := by
    intro id
    rw [heq, List.mem_append, List.mem_filter, decide_eq_true_eq, mem_shownIds]
    by_cases hid : id ∈ front
    · exact iff_of_true (.inl hid) (mem_shownIds.mp ((hfront id).mp hid).2)
    · simp only [hid, false_or, not_false_eq_true, and_true]
  have hone : (enabledIds (buildDeviceContext facts prefs) prefs).Nodup := by
    rw [heq]
    refine List.nodup_append.mpr ⟨hnodup, (nodup_shownIds prefs).filter _, fun a ha b hb h => ?_⟩
    exact of_decide_eq_true (List.mem_filter.mp hb).2 (h ▸ ha)
  constructor
  · intro h id hid
    rw [h] at hmem
    have hiff := hmem id
    rw [List.mem_singleton, and_iff_right hid] at hiff
    exact hiff.symm
  · intro h
    refine List.perm_singleton.mp
      ((List.perm_ext_iff_of_nodup hone (List.nodup_singleton _)).mpr fun id => ?_)
    rw [hmem, List.mem_singleton]
    refine ⟨fun hid => (h id hid.1).mp hid.2, ?_⟩
    rintro rfl
    have hcatalog : kApiIdBlockHeight ∈ catalogIds := by decide
    exact ⟨hcatalog, (h _ hcatalog).mpr rfl⟩

/-! ### Without a stored order -/

section Default

variable {n : ℕ}

/-- Only the slots of currencies share their id. -/
theorem eq_or_isPerCurrencyKind (hn : 1 ≤ n) {slot slot' : ℕ} (h : slot < slotCount n)
    (h' : slot' < slotCount n) (heq : apiIdForSlot slot n = apiIdForSlot slot' n) :
    slot = slot' ∨ isPerCurrencyKind (apiIdForSlot slot n) = true := by
  have hmem := mem_expandApiId_apiIdForSlot hn h
  have hmem' := mem_expandApiId_apiIdForSlot hn h'
  rw [← heq] at hmem'
  obtain ⟨-, hone⟩ := length_expandApiId hn (apiIdForSlot_mem_catalogIds h)
  by_cases hlen : (expandApiId (apiIdForSlot slot n) n).length = 1
  · obtain ⟨only, honly⟩ := List.length_eq_one_iff.mp hlen
    rw [honly, List.mem_singleton] at hmem hmem'
    exact .inl (hmem.trans hmem'.symm)
  · exact .inr (hone hlen)

/-- The slots which are enabled, in their order. -/
def enabledSlots (prefs : Prefs) (n : ℕ) : List ℕ :=
  (List.range (slotCount n)).filter fun slot => screenEnabled prefs (apiIdForSlot slot n)

theorem mem_enabledSlots {prefs : Prefs} {slot : ℕ} :
    slot ∈ enabledSlots prefs n ↔
      slot < slotCount n ∧ screenEnabled prefs (apiIdForSlot slot n) = true := by
  rw [enabledSlots, List.mem_filter, List.mem_range]

theorem rotationIds_of_default {prefs : Prefs} (h : readString prefs "screenOrder" = "") :
    rotationIds prefs n =
      collapse isPerCurrencyKind
        ((orBlockHeight (enabledSlots prefs n)).map fun slot => apiIdForSlot slot n) := by
  have hnonneg : catalogIds.all (fun id => decide (0 ≤ id)) = true := by decide
  rw [rotationIds, buildRotationSequence, if_pos h, enabledSlots]
  congr 3
  refine List.filter_congr fun slot hslot => ?_
  rw [List.all_eq_true.mp hnonneg _ (apiIdForSlot_mem_catalogIds (List.mem_range.mp hslot)),
    Bool.true_and]

theorem mem_map_enabledSlots (hn : 1 ≤ n) {prefs : Prefs} {id : Int32} :
    id ∈ (enabledSlots prefs n).map (fun slot => apiIdForSlot slot n) ↔
      id ∈ catalogIds ∧ screenEnabled prefs id = true := by
  constructor
  · intro h
    obtain ⟨slot, hslot, rfl⟩ := List.mem_map.mp h
    obtain ⟨hlt, henabled⟩ := mem_enabledSlots.mp hslot
    exact ⟨apiIdForSlot_mem_catalogIds hlt, henabled⟩
  · rintro ⟨hid, henabled⟩
    obtain ⟨slot, hslot⟩ := List.exists_mem_of_length_pos
      (Nat.pos_of_ne_zero (length_expandApiId hn hid).1)
    obtain rfl := apiIdForSlot_of_mem_expandApiId hslot
    exact List.mem_map_of_mem (mem_enabledSlots.mpr ⟨expandApiId_lt hslot, henabled⟩)

/-- What holds of the enabled slots, one before the other. -/
theorem pairwise_enabledSlots_iff {r : Int32 → Int32 → Prop} {prefs : Prefs} :
    ((enabledSlots prefs n).map fun slot => apiIdForSlot slot n).Pairwise r ↔
      ∀ slot slot', slot < slot' → slot' < slotCount n →
        screenEnabled prefs (apiIdForSlot slot n) = true →
        screenEnabled prefs (apiIdForSlot slot' n) = true →
        r (apiIdForSlot slot n) (apiIdForSlot slot' n) := by
  rw [List.pairwise_map, enabledSlots, List.pairwise_filter, List.pairwise_iff_getElem]
  simp only [List.length_range, List.getElem_range]
  constructor
  · intro h slot slot' hlt hlt'
    exact h slot slot' (Nat.lt_trans hlt hlt') hlt' hlt
  · intro h slot slot' _ hlt' hlt
    exact h slot slot' hlt hlt'

theorem enabledIds_eq_default_iff (hn : 1 ≤ n) (facts : DeviceContext) {prefs : Prefs}
    (h : readString prefs "screenOrder" = "") :
    enabledIds (buildDeviceContext facts prefs) prefs = rotationIds prefs n ↔
      SameDefault prefs n := by
  have hpage : enabledIds (buildDeviceContext facts prefs) prefs = shownIds prefs := by
    obtain ⟨front, heq, -, hsub, -⟩ := enabledIds_eq facts prefs
    rw [← readString_screenOrder, h, plainOrder, splitCsv_empty] at hsub
    obtain rfl := List.sublist_nil.mp hsub
    rw [heq, List.nil_append]
    exact List.filter_eq_self.mpr fun id _ => decide_eq_true List.not_mem_nil
  have hshown : ∀ {id}, id ∈ catalogIds → screenShown prefs id = true →
      id ∈ (enabledSlots prefs n).map fun slot => apiIdForSlot slot n := by
    intro id hid hon
    rw [screenShown, Bool.and_eq_true] at hon
    exact (mem_map_enabledSlots hn).mpr ⟨hid, hon.1⟩
  rw [hpage, rotationIds_of_default h]
  by_cases hnil : enabledSlots prefs n = []
  · -- no screen is enabled, and the rotation has one all the same
    rw [hnil, collapse_blockHeight]
    rw [hnil] at hshown
    constructor
    · intro hone
      have hmem : kApiIdBlockHeight ∈ shownIds prefs := by
        rw [hone]
        exact List.mem_cons_self
      obtain ⟨hid, hon⟩ := mem_shownIds.mp hmem
      cases hshown hid hon
    · rintro ⟨⟨id, hid, hon⟩, -, -⟩
      cases hshown hid hon
  · rw [orBlockHeight, if_neg hnil, eq_comm, collapse_eq_iff_of_sorted
      (fun a b => Int32.le_antisymm) Int32.le_refl ?_ (pairwise_shownIds prefs)]
    · simp only [mem_map_enabledSlots hn, mem_shownIds]
      rw [pairwise_enabledSlots_iff]
      constructor
      · rintro ⟨hsame, hsorted⟩
        obtain ⟨slot, hslot⟩ := List.exists_mem_of_ne_nil _ hnil
        have hmem := (mem_map_enabledSlots hn).mp (List.mem_map_of_mem hslot)
        exact ⟨⟨_, (hsame _).mp hmem⟩, fun id hid hon => ((hsame id).mp ⟨hid, hon⟩).2, hsorted⟩
      · rintro ⟨-, hsame, hsorted⟩
        refine ⟨fun id => and_congr_right fun hid => ⟨hsame id hid, fun hon => ?_⟩, hsorted⟩
        rw [screenShown, Bool.and_eq_true] at hon
        exact hon.1
    · refine pairwise_enabledSlots_iff.mpr fun slot slot' hlt hlt' _ _ heq => ?_
      exact (eq_or_isPerCurrencyKind hn (Nat.lt_trans hlt hlt') hlt' heq).resolve_left
        (Nat.ne_of_lt hlt)

end Default

/-- The page shows the enabled screens, and they are those of the rotation in its order exactly when
the stored order reads alike for both. -/
theorem settingsPage_eq_rotation_iff (facts : DeviceContext) (prefs : Prefs) {n : ℕ}
    (hn : 1 ≤ n) :
    enabledEntryIds (buildGetResponse prefs (buildDeviceContext facts prefs)) =
        (enabledIds (buildDeviceContext facts prefs) prefs).map ofInt32 ∧
      (enabledIds (buildDeviceContext facts prefs) prefs = rotationIds prefs n ↔
        Agree prefs n) := by
  refine ⟨enabledEntryIds_buildGetResponse _ prefs, ?_⟩
  rw [Agree]
  split_ifs with hcsv hnil
  · exact enabledIds_eq_default_iff hn facts hcsv
  · rw [rotationIds_of_order hn hcsv, if_pos hnil]
    exact enabledIds_eq_blockHeight_iff facts prefs
  · rw [rotationIds_of_order hn hcsv, if_neg hnil]
    exact enabledIds_eq_collapse_iff facts prefs

/-- A store with an order and nothing else. -/
def storedOrder (csv : String) : Prefs := fun key =>
  if key = kScreenOrder then some (.str csv) else none

/-- A full order of the screens which are on by default, with two currencies. -/
theorem settingsPage_eq_rotation_full :
    enabledIds (buildDeviceContext {} (storedOrder "20,10,30,0,3,4,6,40"))
        (storedOrder "20,10,30,0,3,4,6,40") =
      rotationIds (storedOrder "20,10,30,0,3,4,6,40") 2 := by
  refine (settingsPage_eq_rotation_iff {} (storedOrder "20,10,30,0,3,4,6,40")
    (by decide)).2.mpr ?_
  have hcsv : readString (storedOrder "20,10,30,0,3,4,6,40") "screenOrder" =
      "20,10,30,0,3,4,6,40" := by decide
  have hordered : orderedIds (storedOrder "20,10,30,0,3,4,6,40") "20,10,30,0,3,4,6,40" =
      [20, 10, 30, 0, 3, 4, 6, 40] := by decide
  have hshown : shownIds (storedOrder "20,10,30,0,3,4,6,40") = [0, 3, 4, 6, 10, 20, 30, 40] := by
    decide
  have hplain : plainOrder "20,10,30,0,3,4,6,40" = [20, 10, 30, 0, 3, 4, 6, 40] := by
    decide
  rw [Agree, hcsv, if_neg (by decide), hordered, if_neg (by decide)]
  refine ⟨fun id => ?_, ?_, ?_⟩
  · rw [← mem_shownIds, hshown, hordered]
    exact List.Perm.mem_iff (by decide)
  · rw [hordered]
    decide
  · rw [hordered, hplain]
    decide

/-- An order of one screen: the page lists the other ones behind it, the rotation does not. -/
theorem settingsPage_ne_rotation_partial :
    enabledIds (buildDeviceContext {} (storedOrder "3")) (storedOrder "3") =
        [3, 0, 4, 6, 10, 20, 30, 40] ∧
      rotationIds (storedOrder "3") 1 = [3] := by
  decide

end SettingsPage

end BtClock
