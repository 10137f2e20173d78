import BtClock.Screen.RotationPlan
import Mathlib.Data.List.Nodup
import Mathlib.Data.List.Perm.Lattice
import Mathlib.Tactic.IntervalCases

/-!
# One layout of the slots

The slot map, the rotation plan and the screen manager each compute with the layout of the
slots.  They agree on it, so a stored order of all screens is another order of the slots
which the device shows without one.
-/

namespace BtClock

open SlotMap RotationPlan

/-- The rotatable screens with their catalogue ids. -/
def screenKindList : List (ScreenType × Int32) :=
  [(.blockHeight, 0), (.clock, 3), (.halving, 4), (.blockFeeRate, 6), (.moscowTime, 10),
    (.btcPrice, 20), (.marketCap, 30), (.bitcoinSupply, 40), (.miningPoolHashrate, 70),
    (.miningPoolEarnings, 71), (.miningPoolEstimatedEarnings, 72), (.bitaxeHashrate, 80),
    (.bitaxeBestDiff, 81), (.nwcBalance, 90)]

def catalogIds : List Int32 :=
  screenKindList.map Prod.snd

/-- The kind of a catalogue id. -/
def kindForApiId (apiId : Int32) : Option ScreenType :=
  (screenKindList.find? fun entry => entry.2 == apiId).map Prod.fst

/-- The text of a stored order. -/
def screenOrderCsv (ids : List Int32) : String :=
  String.ofList ([','].intercalate (ids.map fun id => (toString id).toList))

/-- The catalogue id of the per-currency slots at distance `off` inside a currency's group. -/
def apiIdForOffset (off : ℕ) : Int32 :=
  match off with
  | 0 => kApiIdMoscowTime
  | 1 => kApiIdBtcPrice
  | 2 => kApiIdMarketCap
  | _ => -1

/-! ### The three parts of the layout -/

/-- A slot is an agnostic one, one of a currency's group, or the last. -/
theorem slot_cases {n slot : ℕ} (h : slot < slotCount n) :
    slot < kAgnosticSlots ∨
      (∃ k < n, ∃ off < kPerCurrencySlots,
        slot = kAgnosticSlots + kPerCurrencySlots * k + off) ∨
      slot = slotCount n - 1 := by
  rw [slotCount_eq] at h ⊢
  simp only [kAgnosticSlots, kPerCurrencySlots]
  by_cases hlo : slot < 10
  · exact .inl hlo
  · by_cases hfee : slot = 3 * n + 11 - 1
    · exact .inr (.inr hfee)
    · exact .inr (.inl ⟨(slot - 10) / 3, by omega, (slot - 10) % 3, by omega, by omega⟩)

section Parts

variable {n : ℕ}

theorem group_slot_lt {k off : ℕ} (hk : k < n) (hoff : off < kPerCurrencySlots) :
    kAgnosticSlots + kPerCurrencySlots * k + off < slotCount n - 1 := by
  rw [slotCount_eq]
  simp only [kAgnosticSlots, kPerCurrencySlots] at hoff ⊢
  omega

theorem agnostic_slot_lt {slot : ℕ} (h : slot < kAgnosticSlots) : slot < slotCount n - 1 := by
  rw [slotCount_eq]
  simp only [kAgnosticSlots] at h
  omega

@[simp]
theorem apiIdForSlot_fee : apiIdForSlot (slotCount n - 1) n = kApiIdBlockFeeRate := by
  have hlt : ¬ slotCount n - 1 ≥ slotCount n :=
    Nat.not_le.mpr (Nat.sub_lt (slotCount_pos n) Nat.one_pos)
  simp only [apiIdForSlot, hlt, if_false, if_true]

/-- The id of an agnostic slot does not depend on the currencies. -/
theorem apiIdForSlot_agnostic (n m : ℕ) {slot : ℕ} (h : slot < kAgnosticSlots) :
    apiIdForSlot slot n = apiIdForSlot slot m := by
  have hlt : ∀ k, slot < slotCount k - 1 := fun k => agnostic_slot_lt h
  have hin : ∀ k, ¬ slot ≥ slotCount k := fun k => by have := hlt k; omega
  have hfee : ∀ k, slot ≠ slotCount k - 1 := fun k => Nat.ne_of_lt (hlt k)
  simp only [apiIdForSlot, hin, hfee, if_false]

theorem apiIdForSlot_perCurrency {k off : ℕ} (hk : k < n) (hoff : off < kPerCurrencySlots) :
    apiIdForSlot (kAgnosticSlots + kPerCurrencySlots * k + off) n = apiIdForOffset off := by
  have hlt := group_slot_lt hk hoff
  have hmod : (kPerCurrencySlots * k + off) % kPerCurrencySlots = off := by
    rw [Nat.mul_add_mod, Nat.mod_eq_of_lt hoff]
  generalize hslot : kPerCurrencySlots * k + off = slot at hmod
  rw [Nat.add_assoc, hslot] at hlt ⊢
  rw [Nat.add_comm, kAgnosticSlots] at hlt ⊢
  have hin : ¬ slot + 10 ≥ slotCount n := by omega
  have hfee : slot + 10 ≠ slotCount n - 1 := Nat.ne_of_lt hlt
  simp only [apiIdForSlot, hin, hfee, if_false, kAgnosticSlots, Nat.add_sub_cancel, hmod]
  rfl

theorem kindForSlot_group {k off : ℕ} (hk : k < n) (hoff : off < kPerCurrencySlots) :
    kindForSlot n (kAgnosticSlots + kPerCurrencySlots * k + off) = kindForOffset off := by
  rw [kindForSlot_perCurrency (by omega) (Nat.ne_of_lt (group_slot_lt hk hoff)), Nat.add_assoc,
    Nat.add_sub_cancel_left, Nat.mul_add_mod, Nat.mod_eq_of_lt hoff]

end Parts

/-! ### Slots and ids -/

theorem isPerCurrencyKind_apiIdForOffset {off : ℕ} (h : off < kPerCurrencySlots) :
    isPerCurrencyKind (apiIdForOffset off) = true ∧
      offsetForApiId (apiIdForOffset off) = off := by
  match off, h with
  | 0, _ => decide
  | 1, _ => decide
  | 2, _ => decide

theorem apiIdForOffset_offsetForApiId {apiId : Int32} (h : isPerCurrencyKind apiId = true) :
    apiIdForOffset (offsetForApiId apiId) = apiId := by
  simp only [isPerCurrencyKind, Bool.or_eq_true, beq_iff_eq, or_assoc] at h
  rcases h with rfl | rfl | rfl <;> decide

section Agreement

variable {n : ℕ}

theorem apiIdForSlot_of_agnosticSlotForApiId {apiId : Int32} {slot : ℕ}
    (h : agnosticSlotForApiId apiId n = some slot) : apiIdForSlot slot n = apiId := by
  unfold agnosticSlotForApiId at h
  split at h
  · rename_i hfee
    split at h
    · cases h
    · obtain rfl := Option.some.inj h
      rw [apiIdForSlot_fee, hfee]
  · have hmem : (apiId, slot) ∈ kAgnosticApiIds := by
      obtain ⟨before, after, heq, -⟩ := List.lookup_eq_some_iff.mp h
      simp [heq]
    have hid : ∀ entry ∈ kAgnosticApiIds, apiIdForSlot entry.2 1 = entry.1 := by decide
    rw [apiIdForSlot_agnostic n 1 (kAgnosticApiIds_lt _ hmem)]
    exact hid _ hmem

/-- Every slot of an id carries that id. -/
theorem apiIdForSlot_of_mem_expandApiId {apiId : Int32} {slot : ℕ}
    (h : slot ∈ expandApiId apiId n) : apiIdForSlot slot n = apiId := by
  unfold expandApiId at h
  split at h
  · rename_i hkind
    obtain ⟨k, hk, rfl⟩ := List.mem_map.mp h
    rw [apiIdForSlot_perCurrency (List.mem_range.mp hk) (offsetForApiId_lt apiId),
      apiIdForOffset_offsetForApiId hkind]
  · exact apiIdForSlot_of_agnosticSlotForApiId (Option.mem_toList.mp h)

/-- Every slot is one of the slots of its id. -/
theorem mem_expandApiId_apiIdForSlot (hn : 1 ≤ n) {slot : ℕ} (h : slot < slotCount n) :
    slot ∈ expandApiId (apiIdForSlot slot n) n := by
  rcases slot_cases h with hlo | ⟨k, hk, off, hoff, rfl⟩ | rfl
  · have hself : ∀ slot < kAgnosticSlots, slot ∈ expandApiId (apiIdForSlot slot 1) 1 := by
      decide
    have hkind : ∀ slot < kAgnosticSlots, isPerCurrencyKind (apiIdForSlot slot 1) = false ∧
        apiIdForSlot slot 1 ≠ kApiIdBlockFeeRate := by decide
    obtain ⟨hper, hfee⟩ := hkind slot hlo
    have hmem := hself slot hlo
    rw [apiIdForSlot_agnostic n 1 hlo]
    simpa only [expandApiId, hper, Bool.false_eq_true, if_false, agnosticSlotForApiId,
      hfee] using hmem
  · obtain ⟨hper, hoffset⟩ := isPerCurrencyKind_apiIdForOffset hoff
    rw [apiIdForSlot_perCurrency hk hoff, expandApiId, if_pos hper, hoffset]
    exact List.mem_map.mpr ⟨k, List.mem_range.mpr hk, rfl⟩
  · have hzero : n ≠ 0 := Nat.one_le_iff_ne_zero.mp hn
    rw [apiIdForSlot_fee, expandApiId, if_neg (by decide), agnosticSlotForApiId,
      if_pos rfl, if_neg hzero]
    simp

/-- The slot on display and its id name the same kind. -/
theorem kindForApiId_apiIdForSlot {slot : ℕ} (h : slot < slotCount n) :
    kindForApiId (apiIdForSlot slot n) = some (kindForSlot n slot) := by
  rcases slot_cases h with hlo | ⟨k, hk, off, hoff, rfl⟩ | rfl
  · have hone : ∀ slot < kAgnosticSlots,
        kindForApiId (apiIdForSlot slot 1) = some (kindForSlot 1 slot) := by decide
    rw [apiIdForSlot_agnostic n 1 hlo, kindForSlot_agnostic n 1 hlo]
    exact hone slot hlo
  · have hgroup : ∀ off < kPerCurrencySlots,
        kindForApiId (apiIdForOffset off) = some (kindForOffset off) := by decide
    rw [apiIdForSlot_perCurrency hk hoff, kindForSlot_group hk hoff]
    exact hgroup off hoff
  · rw [apiIdForSlot_fee, kindForSlot_fee]
    decide

theorem apiIdForSlot_mem_catalogIds {slot : ℕ} (h : slot < slotCount n) :
    apiIdForSlot slot n ∈ catalogIds := by
  obtain ⟨entry, hentry, -⟩ := Option.map_eq_some_iff.mp (kindForApiId_apiIdForSlot h)
  have hid := List.find?_some hentry
  rw [← eq_of_beq hid]
  exact List.mem_map_of_mem (List.mem_of_find?_eq_some hentry)

/-- The id and the currency of a slot give the slot back. -/
theorem slotForApiId_apiIdForSlot (hn : 1 ≤ n) {slot i : ℕ} (h : slot < slotCount n)
    (hi : kAgnosticSlots ≤ slot → slot ≠ slotCount n - 1 →
      i = (slot - kAgnosticSlots) / kPerCurrencySlots) :
    slotForApiId (apiIdForSlot slot n) n i = some slot := by
  have hzero : n ≠ 0 := Nat.one_le_iff_ne_zero.mp hn
  rcases slot_cases h with hlo | ⟨k, hk, off, hoff, rfl⟩ | rfl
  · have hone : ∀ slot < kAgnosticSlots, ∀ n i, n ≠ 0 →
        slotForApiId (apiIdForSlot slot 1) n i = some slot := by
      intro slot hlo n i hn
      simp only [kAgnosticSlots] at hlo
      interval_cases slot
      all_goals
        rw [slotForApiId, if_neg hn]
        rfl
    rw [apiIdForSlot_agnostic n 1 hlo]
    exact hone slot hlo n i hzero
  · have hik : i = k := by
      rw [hi (by omega) (Nat.ne_of_lt (group_slot_lt hk hoff)), Nat.add_assoc,
        Nat.add_sub_cancel_left, Nat.mul_add_div (by decide), Nat.div_eq_of_lt hoff,
        Nat.add_zero]
    have hpref : ¬ i ≥ n := by omega
    rw [apiIdForSlot_perCurrency hk hoff, slotForApiId, if_neg hzero, if_neg hpref, hik]
    have hthree : off < 3 := hoff
    interval_cases off
    · rfl
    · rfl
    · rfl
  · rw [apiIdForSlot_fee, slotForApiId, if_neg hzero]
    rfl

/-- Under another currency a per-currency slot keeps its id. -/
theorem apiIdForSlot_transposeSlotToCurrency {slot i : ℕ} (hlo : kAgnosticSlots ≤ slot)
    (hlt : slot < slotCount n - 1) (hi : i < n) :
    apiIdForSlot (transposeSlotToCurrency slot i n) n = apiIdForSlot slot n := by
  rcases slot_cases (Nat.lt_of_lt_of_le hlt (Nat.sub_le _ _)) with
    hagnostic | ⟨k, hk, off, hoff, rfl⟩ | rfl
  · exact absurd hlo (Nat.not_le.mpr hagnostic)
  · have hgroup : kAgnosticSlots + kPerCurrencySlots * k + off ≥ kAgnosticSlots ∧
        ¬ (n > 0 ∧ kAgnosticSlots + kPerCurrencySlots * k + off = slotCount n - 1) :=
      ⟨hlo, fun h => Nat.ne_of_lt hlt h.2⟩
    have hoffset : (kAgnosticSlots + kPerCurrencySlots * k + off - kAgnosticSlots) %
        kPerCurrencySlots = off := by
      rw [Nat.add_assoc, Nat.add_sub_cancel_left, Nat.mul_add_mod, Nat.mod_eq_of_lt hoff]
    rw [transposeSlotToCurrency, if_pos hgroup, hoffset, apiIdForSlot_perCurrency hi hoff,
      apiIdForSlot_perCurrency hk hoff]
  · exact absurd hlt (Nat.lt_irrefl _)

/-! ### A stored order of all screens -/

theorem nodup_expandApiId (apiId : Int32) : (expandApiId apiId n).Nodup := by
  unfold expandApiId
  split
  · refine List.Nodup.map (fun a b hab => ?_) List.nodup_range
    simp only [kPerCurrencySlots] at hab
    omega
  · cases agnosticSlotForApiId apiId n <;> simp

theorem nodup_flatMap_expandApiId {ids : List Int32} (h : ids.Nodup) :
    (ids.flatMap fun apiId => expandApiId apiId n).Nodup := by
  refine List.nodup_flatMap.mpr ⟨fun apiId _ => nodup_expandApiId apiId, ?_⟩
  refine h.imp fun hne slot hslot hslot' => hne ?_
  rw [← apiIdForSlot_of_mem_expandApiId hslot, apiIdForSlot_of_mem_expandApiId hslot']

theorem nodup_orBlockHeight {sequence : List ℕ} (h : sequence.Nodup) :
    (orBlockHeight sequence).Nodup := by
  unfold orBlockHeight
  split
  · exact List.nodup_singleton 0
  · exact h

theorem perm_orBlockHeight {a b : List ℕ} (h : a.Perm b) :
    (orBlockHeight a).Perm (orBlockHeight b) := by
  unfold orBlockHeight
  by_cases hb : b = []
  · rw [if_pos hb, if_pos (List.Perm.eq_nil (hb ▸ h))]
  · have ha : a ≠ [] := fun ha => hb (List.Perm.eq_nil (ha ▸ h.symm))
    rwa [if_neg hb, if_neg ha]

/-- An order of all screens visits the slots which are visited without an order. -/
theorem buildRotationSequence_perm (hn : 1 ≤ n) {csv : String}
    (hcsv : (parseScreenOrderCsv csv).Perm catalogIds) (isEnabled : Int32 → Bool) :
    (buildRotationSequence csv isEnabled n).Nodup ∧
      (buildRotationSequence csv isEnabled n).Perm
        (buildRotationSequence "" isEnabled n) := by
  have hne : csv ≠ "" := by
    rintro rfl
    exact absurd (hcsv.length_eq) (by decide)
  have hids : ((parseScreenOrderCsv csv).filter isEnabled).Nodup :=
    (hcsv.nodup_iff.mpr (by decide)).filter _
  have hnodup := nodup_flatMap_expandApiId (n := n) hids
  rw [buildRotationSequence, if_neg hne, buildRotationSequence, if_pos rfl]
  refine ⟨nodup_orBlockHeight hnodup, perm_orBlockHeight ?_⟩
  refine (List.perm_ext_iff_of_nodup hnodup (List.nodup_range.filter _)).mpr fun slot => ?_
  simp only [List.mem_flatMap, List.mem_filter, List.mem_range, Bool.and_eq_true,
    decide_eq_true_eq]
  constructor
  · rintro ⟨apiId, ⟨-, henabled⟩, hslot⟩
    have hlt := expandApiId_lt hslot
    have hid := apiIdForSlot_of_mem_expandApiId hslot
    have hnonneg : catalogIds.all (fun id => decide (0 ≤ id)) = true := by decide
    have hslot := List.all_eq_true.mp hnonneg _ (apiIdForSlot_mem_catalogIds hlt)
    exact ⟨hlt, of_decide_eq_true hslot, hid ▸ henabled⟩
  · rintro ⟨hlt, -, henabled⟩
    exact ⟨apiIdForSlot slot n,
      ⟨hcsv.mem_iff.mpr (apiIdForSlot_mem_catalogIds hlt), henabled⟩,
      mem_expandApiId_apiIdForSlot hn hlt⟩

end Agreement

theorem parseOrderItem_toString {id : Int32} (h : id ∈ catalogIds) :
    ',' ∉ (toString id).toList ∧ parseOrderItem (toString id).toList = some id := by
  have hall : catalogIds.all (fun id => decide (',' ∉ (toString id).toList ∧
      parseOrderItem (toString id).toList = some id)) = true := by decide
  exact of_decide_eq_true (List.all_eq_true.mp hall id h)

/-- The stored text of an order of the screens is read back. -/
theorem parseScreenOrderCsv_screenOrderCsv {ids : List Int32} (hne : ids ≠ [])
    (h : ∀ id ∈ ids, id ∈ catalogIds) : parseScreenOrderCsv (screenOrderCsv ids) = ids := by
  have hcomma : ∀ item ∈ ids.map fun id => (toString id).toList, ',' ∉ item := by
    intro item hitem
    obtain ⟨id, hid, rfl⟩ := List.mem_map.mp hitem
    exact (parseOrderItem_toString (h id hid)).1
  rw [parseScreenOrderCsv, screenOrderCsv, String.toList_ofList,
    List.splitOn_intercalate _ hcomma (by simpa using hne), List.filterMap_map]
  clear hcomma hne
  induction ids with
  | nil => rfl
  | cons id ids ih =>
      have hid : (parseOrderItem ∘ fun id => (toString id).toList) id = some id :=
        (parseOrderItem_toString (h id List.mem_cons_self)).2
      rw [List.filterMap_cons_some hid, ih fun id hid => h id (List.mem_cons_of_mem _ hid)]

/-- The slot map, the planner and the manager compute with one layout, in which a stored
order of all screens permutes the slots shown without one. -/
theorem layout_agrees {n : ℕ} (hn : 1 ≤ n) :
    (∀ slot < slotCount n, ∀ i,
      (kAgnosticSlots ≤ slot → slot ≠ slotCount n - 1 →
        i = (slot - kAgnosticSlots) / kPerCurrencySlots) →
      slotForApiId (apiIdForSlot slot n) n i = some slot) ∧
    (∀ slot < slotCount n, kindForApiId (apiIdForSlot slot n) = some (kindForSlot n slot) ∧
      slot ∈ expandApiId (apiIdForSlot slot n) n) ∧
    (∀ apiId slot, slot ∈ expandApiId apiId n ∨ agnosticSlotForApiId apiId n = some slot →
      apiIdForSlot slot n = apiId ∧ kindForApiId apiId = some (kindForSlot n slot)) ∧
    (∀ slot i, kAgnosticSlots ≤ slot → slot < slotCount n - 1 → i < n →
      apiIdForSlot (transposeSlotToCurrency slot i n) n = apiIdForSlot slot n) ∧
    (∀ csv isEnabled, (parseScreenOrderCsv csv).Perm catalogIds →
      (buildRotationSequence csv isEnabled n).Nodup ∧
        (buildRotationSequence csv isEnabled n).Perm
          (buildRotationSequence "" isEnabled n)) ∧
    ∀ ids : List Int32, ids.Perm catalogIds → parseScreenOrderCsv (screenOrderCsv ids) = ids := by
  refine ⟨fun slot h i hi => slotForApiId_apiIdForSlot hn h hi,
    fun slot h => ⟨kindForApiId_apiIdForSlot h, mem_expandApiId_apiIdForSlot hn h⟩,
    ?_, fun slot i hlo hlt hi => apiIdForSlot_transposeSlotToCurrency hlo hlt hi,
    fun csv isEnabled hcsv => buildRotationSequence_perm hn hcsv isEnabled, ?_⟩
  · intro apiId slot h
    have hkeep : apiIdForSlot slot n = apiId ∧ slot < slotCount n := by
      rcases h with h | h
      · exact ⟨apiIdForSlot_of_mem_expandApiId h, expandApiId_lt h⟩
      · exact ⟨apiIdForSlot_of_agnosticSlotForApiId h, agnosticSlotForApiId_lt h⟩
    exact ⟨hkeep.1, hkeep.1 ▸ kindForApiId_apiIdForSlot hkeep.2⟩
  · intro ids hids
    have hne : ids ≠ [] := by
      rintro rfl
      exact absurd hids.length_eq (by decide)
    exact parseScreenOrderCsv_screenOrderCsv hne fun id hid => hids.mem_iff.mp hid

theorem layout_agrees_two :
    slotForApiId 30 2 1 = some 15 ∧ apiIdForSlot 15 2 = 30 ∧
      (buildRotationSequence "90,81,80,72,71,70,40,30,20,10,6,4,3,0" (fun _ => true) 2).Perm
        (buildRotationSequence "" (fun _ => true) 2) := by
  have hagrees := layout_agrees (n := 2) (by decide)
  refine ⟨hagrees.1 15 (by decide) 1 fun _ _ => rfl, ?_, ?_⟩
  · exact (hagrees.2.2.1 30 15 (.inl (by decide))).1
  · exact (hagrees.2.2.2.2.1 _ _ (by decide)).2

end BtClock
