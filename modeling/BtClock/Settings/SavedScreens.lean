import BtClock.Screen.SettingsPage
import BtClock.Settings.SavedLists
import Mathlib.Data.List.Dedup

/-!
# Saving the screens as they were read

The response lists every screen which is not hidden, each with its place.  The same list is
accepted as a full order, and its text is the stored one when that names the same screens.
-/

namespace BtClock

namespace Settings

open SettingsPage SlotMap

/-! ### The entries of a full order -/

section Orders

variable {prefs : Prefs} {screens : List ScreenInfo}

/-- The entries from the place `k` on. -/
def entriesFrom (prefs : Prefs) (k : ℕ) (screens : List ScreenInfo) : List Json :=
  screens.mapIdx fun i s => emitScreen prefs s (k + i)

/-- The screens with their places, from `k` on. -/
def placesFrom (k : ℕ) (screens : List ScreenInfo) : List (Int32 × Int32) :=
  screens.mapIdx fun i s => (Int32.ofNat (k + i), s.id)

theorem entriesFrom_cons (prefs : Prefs) (k : ℕ) (s : ScreenInfo) (screens : List ScreenInfo) :
    entriesFrom prefs k (s :: screens) =
      emitScreen prefs s k :: entriesFrom prefs (k + 1) screens := by
  rw [entriesFrom, List.mapIdx_cons, Nat.add_zero, entriesFrom]
  refine congrArg (_ :: ·) (congrArg (fun f => screens.mapIdx f) ?_)
  funext i s
  rw [Nat.add_assoc, Nat.add_comm 1]

theorem placesFrom_cons (k : ℕ) (s : ScreenInfo) (screens : List ScreenInfo) :
    placesFrom k (s :: screens) = (Int32.ofNat k, s.id) :: placesFrom (k + 1) screens := by
  rw [placesFrom, List.mapIdx_cons, Nat.add_zero, placesFrom]
  refine congrArg (_ :: ·) (congrArg (fun f => screens.mapIdx f) ?_)
  funext i s
  rw [Nat.add_assoc, Nat.add_comm 1]

theorem toInt_ofNat_of_lt {n : ℕ} (h : n < 2 ^ 31) : (Int32.ofNat n).toInt = n :=
  Int32.toInt_ofNat_of_lt h

/-- A place which is shown is read back. -/
theorem readOrders_entriesFrom {catalog : List Int32} {len : ℕ} (hlen : len < 2 ^ 31)
    (hcatalog : ∀ s ∈ screens, s.id ∈ catalog) (hids : (screens.map ScreenInfo.id).Nodup) {k : ℕ}
    (hk : k + screens.length ≤ len) {pairs : List (Int32 × Int32)}
    (hnew : ∀ s ∈ screens, s.id ∉ pairs.map Prod.snd)
    (hplaces : ∀ place ∈ pairs.map Prod.fst, place.toInt < k) :
    readOrders catalog len (entriesFrom prefs k screens) pairs =
      .ok (pairs ++ placesFrom k screens) := by
  induction screens generalizing k pairs with
  | nil => exact congrArg Except.ok (List.append_nil pairs).symm
  | cons s screens ih =>
      obtain ⟨hs, hcatalog⟩ := List.forall_mem_cons.mp hcatalog
      obtain ⟨hfresh, hnew⟩ := List.forall_mem_cons.mp hnew
      rw [List.map_cons, List.nodup_cons] at hids
      rw [List.length_cons] at hk
      have hlt : k < 2 ^ 31 := by omega
      have hplace := toInt_ofNat_of_lt hlt
      have hid : (emitScreen prefs s k).getObjectItem "id" = some (ofInt32 s.id) := rfl
      have horder : (emitScreen prefs s k).getObjectItem "order" =
          some (.number (Float.ofNat k)) := rfl
      have hnotMem : Int32.ofNat k ∉ pairs.map Prod.fst := by
        intro hmem
        have hbelow := hplaces _ hmem
        omega
      have hrange : ¬(Int32.ofNat k < 0 ∨ (len : ℤ) ≤ (Int32.ofNat k).toInt) := by
        rw [Int32.lt_iff_toInt_lt, hplace, not_or]
        exact ⟨by simp, by omega⟩
      rw [entriesFrom_cons, readOrders, hid, horder, ofInt32]
      dsimp only
      rw [Double.castInt32_ofInt, Double.castInt32_ofNat hlt, if_neg (fun h => h.2 hs),
        if_neg hfresh, if_neg hrange, if_neg hnotMem, ih hcatalog hids.2 (by omega),
        placesFrom_cons, List.append_assoc, List.singleton_append]
      · intro t ht
        rw [List.map_append, List.mem_append, not_or]
        refine ⟨hnew t ht, fun hmem => hids.1 ?_⟩
        obtain hid : t.id = s.id := List.mem_singleton.mp hmem
        rw [← hid]
        exact List.mem_map_of_mem ht
      · intro place hmem
        rw [List.map_append, List.mem_append] at hmem
        rcases hmem with hmem | hmem
        · have hbelow := hplaces place hmem
          omega
        · obtain rfl : place = Int32.ofNat k := List.mem_singleton.mp hmem
          omega

theorem map_snd_placesFrom (k : ℕ) (screens : List ScreenInfo) :
    (placesFrom k screens).map Prod.snd = screens.map ScreenInfo.id := by
  induction screens generalizing k with
  | nil => rfl
  | cons s screens ih => rw [placesFrom_cons, List.map_cons, ih, List.map_cons]

theorem pairwise_placesFrom {k : ℕ} (hk : k + screens.length < 2 ^ 31) :
    (placesFrom k screens).Pairwise fun p q => p.1 < q.1 := by
  induction screens generalizing k with
  | nil => exact List.Pairwise.nil
  | cons s screens ih =>
      rw [List.length_cons] at hk
      rw [placesFrom_cons]
      refine List.Pairwise.cons (fun p hp => ?_) (ih (by omega))
      obtain ⟨i, hi, rfl⟩ := List.mem_mapIdx.mp hp
      rw [Int32.lt_iff_toInt_lt, toInt_ofNat_of_lt (by omega), toInt_ofNat_of_lt (by omega)]
      omega

theorem toList_toString_ne_nil {id : Int32} (h : id ∈ catalogIds) : (toString id).toList ≠ [] := by
  intro hnil
  have hparse := (parseOrderItem_toString h).2
  rw [hnil] at hparse
  cases hparse

/-- The places are in order, and the text is that of the ids. -/
theorem orderCsv_placesFrom (h : screens.length < 2 ^ 31)
    (hcatalog : ∀ s ∈ screens, s.id ∈ catalogIds) :
    orderCsv (placesFrom 0 screens) = screenOrderCsv (screens.map ScreenInfo.id) := by
  have hsorted : (placesFrom 0 screens).Pairwise fun p q =>
      (p.1 < q.1 || (p.1 = q.1 && p.2 ≤ q.2)) = true :=
    (pairwise_placesFrom (by omega)).imp fun hlt => by rw [decide_eq_true hlt, Bool.true_or]
  have hjoin : orderCsv (placesFrom 0 screens) =
      joinCsv ((screens.map ScreenInfo.id).map toString) := by
    rw [orderCsv, List.mergeSort_of_pairwise hsorted, ← map_snd_placesFrom 0, joinCsv,
      List.foldl_map, List.foldl_map]
  rw [hjoin, ← String.toList_inj, toList_joinCsv, screenOrderCsv, String.toList_ofList,
    Separated.foldl_append_nil fun part hpart => ?_, List.map_map]
  · rfl
  · rw [List.map_map, List.map_map] at hpart
    obtain ⟨s, hs, rfl⟩ := List.mem_map.mp hpart
    exact toList_toString_ne_nil (hcatalog s hs)

end Orders

/-! ### The ids which are listed -/

section Listed

variable (facts : DeviceContext) (prefs : Prefs)

/-- The screens which are not hidden. -/
def listedIds (facts : DeviceContext) (prefs : Prefs) : List Int32 :=
  catalogIds.filter fun id => id ∉ (buildDeviceContext facts prefs).hidden

theorem nodup_catalogIds : catalogIds.Nodup := by
  decide

theorem nodup_listedIds : (listedIds facts prefs).Nodup :=
  nodup_catalogIds.filter _

theorem mem_listedIds {id : Int32} :
    id ∈ listedIds facts prefs ↔
      id ∈ catalogIds ∧ id ∉ (buildDeviceContext facts prefs).hidden := by
  rw [listedIds, List.mem_filter, decide_eq_true_eq]

/-- The block height is never hidden. -/
theorem listedIds_ne_nil : listedIds facts prefs ≠ [] := by
  have hmem : (0 : Int32) ∈ listedIds facts prefs := by
    rw [mem_listedIds, mem_hidden_iff facts prefs (by decide)]
    refine ⟨by decide, ?_⟩
    rintro (hhidden | (⟨hid, -⟩ | ⟨hid, -⟩ | ⟨hid, -⟩))
    · exact Bool.false_ne_true hhidden
    · exact absurd hid (by decide)
    · exact absurd hid (by decide)
    · exact absurd hid (by decide)
  exact List.ne_nil_of_mem hmem

theorem emittedIds_perm :
    (emittedIds (buildDeviceContext facts prefs) prefs).Perm (listedIds facts prefs) := by
  obtain ⟨stored, hstored, hnodup, -, hmem⟩ := persistedOrder_spec
    (buildDeviceContext facts prefs) (splitCsv (prefs.getString kScreenOrder "")) []
    List.nodup_nil
  rw [List.nil_append] at hstored hnodup hmem
  rw [screens_ids] at hmem
  simp only [List.not_mem_nil, false_or] at hmem
  rw [emittedIds, hstored, screens_ids]
  refine (List.perm_ext_iff_of_nodup ?_ (nodup_listedIds facts prefs)).mpr fun id => ?_
  · refine List.nodup_append.mpr ⟨hnodup, nodup_catalogIds.filter _, fun a ha b hb heq => ?_⟩
    exact (of_decide_eq_true (List.mem_filter.mp hb).2).2 (heq ▸ ha)
  · rw [List.mem_append, List.mem_filter, decide_eq_true_eq, mem_listedIds]
    by_cases hid : id ∈ stored
    · exact iff_of_true (.inl hid) ((hmem id).mp hid).2
    · simp only [hid, false_or, not_false_eq_true, and_true]

theorem parseScreenId_toString {id : Int32} (h : id ∈ catalogIds) :
    parseScreenId (toString id) = some id := by
  have hall : catalogIds.all (fun id => decide (parseScreenId (toString id) = some id)) = true := by
    decide
  exact of_decide_eq_true (List.all_eq_true.mp hall id h)

/-- The text of an order is read back. -/
theorem filterMap_parseScreenId {ids : List Int32} (hne : ids ≠ [])
    (h : ∀ id ∈ ids, id ∈ catalogIds) :
    (splitCsv (screenOrderCsv ids)).filterMap parseScreenId = ids := by
  have hcomma : ∀ item ∈ ids.map fun id => (toString id).toList, ',' ∉ item := by
    intro item hitem
    obtain ⟨id, hid, rfl⟩ := List.mem_map.mp hitem
    exact (parseOrderItem_toString (h id hid)).1
  have hblank : ∀ item ∈ ids.map fun id => (toString id).toList, (!item.isEmpty) = true := by
    intro item hitem
    obtain ⟨id, hid, rfl⟩ := List.mem_map.mp hitem
    rw [Bool.not_eq_true', List.isEmpty_eq_false_iff]
    exact toList_toString_ne_nil (h id hid)
  rw [splitCsv, screenOrderCsv, String.toList_ofList,
    List.splitOn_intercalate _ hcomma (by simpa using hne), List.filter_eq_self.mpr hblank,
    List.map_map, List.filterMap_map]
  clear hcomma hblank hne
  induction ids with
  | nil => rfl
  | cons id ids ih =>
      have hid : (parseScreenId ∘ String.ofList ∘ fun id => (toString id).toList) id = some id := by
        rw [Function.comp_apply, Function.comp_apply, String.ofList_toList]
        exact parseScreenId_toString (h id List.mem_cons_self)
      rw [List.filterMap_cons_some hid, ih fun id hid => h id (List.mem_cons_of_mem _ hid)]

/-- An order of all screens which are listed is shown as it is stored. -/
theorem emittedIds_of_stored {ids : List Int32} (hperm : ids.Perm (listedIds facts prefs))
    (h : prefs.getString kScreenOrder "" = screenOrderCsv ids) :
    emittedIds (buildDeviceContext facts prefs) prefs = ids := by
  obtain ⟨stored, hstored, hnodup, hsub, hmem⟩ := persistedOrder_spec
    (buildDeviceContext facts prefs) (splitCsv (prefs.getString kScreenOrder "")) []
    List.nodup_nil
  have hne : ids ≠ [] := fun hnil => listedIds_ne_nil facts prefs (List.nil_perm.mp (hnil ▸ hperm))
  have hcatalog : ∀ id ∈ ids, id ∈ catalogIds := fun id hid =>
    ((mem_listedIds facts prefs).mp (hperm.mem_iff.mp hid)).1
  rw [List.nil_append] at hstored hnodup hmem
  rw [h, filterMap_parseScreenId hne hcatalog] at hsub hmem
  simp only [List.not_mem_nil, false_or, screens_ids, ← mem_listedIds] at hmem
  have hall : stored.Perm ids := by
    refine (List.perm_ext_iff_of_nodup hnodup
      (hperm.nodup_iff.mpr (nodup_listedIds facts prefs))).mpr fun id => ?_
    rw [hmem]
    exact and_iff_left_of_imp hperm.mem_iff.mp
  obtain rfl := hsub.eq_of_length hall.length_eq
  rw [emittedIds, hstored, screens_ids]
  refine List.append_right_eq_self.mpr (List.filter_eq_nil_iff.mpr fun id hid hrest => ?_)
  obtain ⟨hshown, hnot⟩ := of_decide_eq_true hrest
  exact hnot (hperm.mem_iff.mpr ((mem_listedIds facts prefs).mpr ⟨hid, hshown⟩))

/-- The stored order names every screen which is listed, and no other one. -/
def OrderSaved (facts : DeviceContext) (prefs : Prefs) : Prop :=
  ∃ ids, ids.Perm (listedIds facts prefs) ∧ prefs.getString kScreenOrder "" = screenOrderCsv ids

theorem orderSaved_iff :
    prefs.getString kScreenOrder "" =
        screenOrderCsv (emittedIds (buildDeviceContext facts prefs) prefs) ↔
      OrderSaved facts prefs := by
  constructor
  · intro h
    exact ⟨_, emittedIds_perm facts prefs, h⟩
  · rintro ⟨ids, hperm, h⟩
    rw [emittedIds_of_stored facts prefs hperm h]
    exact h

/-! ### The blocks of the screens -/

/-- The screens of the response, in their order. -/
def listedScreens (facts : DeviceContext) (prefs : Prefs) : List ScreenInfo :=
  (emittedIds (buildDeviceContext facts prefs) prefs).filterMap
    (screenById (buildDeviceContext facts prefs))

theorem mem_catalogIds_of_emitted {id : Int32}
    (h : id ∈ emittedIds (buildDeviceContext facts prefs) prefs) : id ∈ catalogIds :=
  ((mem_listedIds facts prefs).mp ((emittedIds_perm facts prefs).mem_iff.mp h)).1

theorem map_id_listedScreens :
    (listedScreens facts prefs).map ScreenInfo.id =
      emittedIds (buildDeviceContext facts prefs) prefs := by
  have hcatalog : ∀ id ∈ emittedIds (buildDeviceContext facts prefs) prefs, id ∈ catalogIds :=
    fun _ => mem_catalogIds_of_emitted facts prefs
  rw [listedScreens]
  generalize emittedIds (buildDeviceContext facts prefs) prefs = ids at hcatalog
  induction ids with
  | nil => rfl
  | cons id ids ih =>
      obtain ⟨s, hs, hid, -⟩ := screenById_of_mem facts prefs (hcatalog id List.mem_cons_self)
      rw [List.filterMap_cons_some hs, List.map_cons, hid,
        ih fun id hid => hcatalog id (List.mem_cons_of_mem _ hid)]

theorem of_mem_listedScreens {s : ScreenInfo} (h : s ∈ listedScreens facts prefs) :
    s.id ∈ catalogIds ∧ s.defaultVisible = defaultScreenVisible s.id := by
  obtain ⟨id, hid, hfound⟩ := List.mem_filterMap.mp h
  have hcatalog := mem_catalogIds_of_emitted facts prefs hid
  obtain ⟨t, ht, rfl, hvisible⟩ := screenById_of_mem facts prefs hcatalog
  obtain rfl := Option.some.inj (ht.symm.trans hfound)
  exact ⟨hcatalog, hvisible⟩

theorem length_listedScreens :
    (listedScreens facts prefs).length = (listedIds facts prefs).length := by
  rw [← (emittedIds_perm facts prefs).length_eq, ← map_id_listedScreens, List.length_map]

theorem screenEntries_response :
    screenEntries (.object (responseMembers (buildDeviceContext facts prefs) prefs)) =
      entriesFrom prefs 0 (listedScreens facts prefs) := by
  have hitem : (Json.object (responseMembers (buildDeviceContext facts prefs) prefs)).getObjectItem
      "screens" = some (screensMember (buildDeviceContext facts prefs) prefs).2 :=
    lookup_screens _ prefs
  rw [screenEntries, hitem, screensMember]
  simp only [entriesFrom, Nat.zero_add, listedScreens]

theorem hasOrder_of_mem {k : ℕ} {screens : List ScreenInfo} {entry : Json}
    (h : entry ∈ entriesFrom prefs k screens) : hasOrder entry = true := by
  obtain ⟨i, hi, rfl⟩ := List.mem_mapIdx.mp h
  rfl

theorem checkScreenOrder_response :
    checkScreenOrder (buildDeviceContext facts prefs)
        (entriesFrom prefs 0 (listedScreens facts prefs)) =
      .ok (some (screenOrderCsv (emittedIds (buildDeviceContext facts prefs) prefs))) := by
  have hlen : (entriesFrom prefs 0 (listedScreens facts prefs)).length =
      (listedScreens facts prefs).length := List.length_mapIdx
  have hshort : (listedScreens facts prefs).length < 2 ^ 31 := by
    rw [length_listedScreens]
    exact Nat.lt_of_le_of_lt (List.length_filter_le _ _) (by decide)
  have hcatalog : ∀ s ∈ listedScreens facts prefs, s.id ∈ catalogIds :=
    fun s hs => (of_mem_listedScreens facts prefs hs).1
  have hids : ((listedScreens facts prefs).map ScreenInfo.id).Nodup := by
    rw [map_id_listedScreens]
    exact (emittedIds_perm facts prefs).nodup_iff.mpr (nodup_listedIds facts prefs)
  have hall : (entriesFrom prefs 0 (listedScreens facts prefs)).all hasOrder = true :=
    List.all_eq_true.mpr fun entry hentry => hasOrder_of_mem prefs hentry
  have hany : (entriesFrom prefs 0 (listedScreens facts prefs)).any hasOrder = true := by
    have hne : entriesFrom prefs 0 (listedScreens facts prefs) ≠ [] := by
      rw [Ne, ← List.length_eq_zero_iff, hlen, length_listedScreens, List.length_eq_zero_iff]
      exact listedIds_ne_nil facts prefs
    obtain ⟨entry, hentry⟩ := List.exists_mem_of_ne_nil _ hne
    exact List.any_eq_true.mpr ⟨entry, hentry, hasOrder_of_mem prefs hentry⟩
  have hread : readOrders catalogIds (listedScreens facts prefs).length
      (entriesFrom prefs 0 (listedScreens facts prefs)) [] =
        .ok ([] ++ placesFrom 0 (listedScreens facts prefs)) :=
    readOrders_entriesFrom hshort hcatalog hids (Nat.zero_add _).le (fun _ _ => List.not_mem_nil)
      nofun
  have hplaces : (placesFrom 0 (listedScreens facts prefs)).length =
      (listedIds facts prefs).length := by
    rw [placesFrom, List.length_mapIdx, length_listedScreens]
  rw [checkScreenOrder, screens_ids, nodup_catalogIds.dedup,
    if_neg (fun h => Bool.false_ne_true (h.2.symm.trans hall)), if_pos hany, hlen, hread]
  dsimp only
  rw [List.nil_append, if_neg (fun h => h.2.1 hplaces), orderCsv_placesFrom hshort hcatalog,
    map_id_listedScreens]

theorem patchScreenOrder_unchanged_iff :
    patchScreenOrder (buildDeviceContext facts prefs)
        (.object (responseMembers (buildDeviceContext facts prefs) prefs)) prefs = .ok {} ↔
      OrderSaved facts prefs := by
  rw [patchScreenOrder, screenEntries_response, checkScreenOrder_response, validated_unchanged_iff,
    ← orderSaved_iff]
  constructor
  · rintro ⟨csv, hcsv, hstore⟩
    obtain rfl := Except.ok.inj hcsv
    exact storeString_eq_none_iff.mp hstore
  · intro h
    exact ⟨_, rfl, storeString_eq_none_iff.mpr h⟩

theorem defaultVisible_of_mem {id : Int32} (h : id ∈ catalogIds) :
    defaultVisible (buildDeviceContext facts prefs) id = defaultScreenVisible id := by
  have hall : catalogIds.all (fun id =>
      defaultVisible { screens := screensCatalog } id == defaultScreenVisible id) = true := by
    decide
  exact eq_of_beq (List.all_eq_true.mp hall id h)

/-- The visibility of a screen is shown with the default which it is compared with. -/
theorem patchVisible_unchanged {entry : Json}
    (h : entry ∈ entriesFrom prefs 0 (listedScreens facts prefs)) :
    patchVisible (buildDeviceContext facts prefs) entry prefs = .ok {} := by
  obtain ⟨i, hi, rfl⟩ := List.mem_mapIdx.mp h
  obtain ⟨hcatalog, hvisible⟩ := of_mem_listedScreens facts prefs (List.getElem_mem hi)
  generalize (listedScreens facts prefs)[i] = s at hcatalog hvisible
  have hid : (emitScreen prefs s (0 + i)).getObjectItem "id" =
      some (.number (Float.ofInt s.id.toInt)) := rfl
  have henabled : (emitScreen prefs s (0 + i)).getObjectItem "enabled" =
      some (.bool (prefs.getBool (visibleKey s.id) s.defaultVisible)) := rfl
  rw [patchVisible, hid, henabled]
  dsimp only
  rw [Double.castInt32_ofInt, accepted, storeVisible, defaultVisible_of_mem facts prefs hcatalog,
    hvisible, if_neg (not_not_intro rfl)]

end Listed

end Settings

end BtClock
