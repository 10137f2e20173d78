import BtClock.Screen.ManagerRun

/-!
# Replacing the currencies keeps the screen

`setCurrencies` is meant to leave the user on the screen being viewed.  A per-currency
slot is identified by its kind and its currency code; its index moves when the list
changes.  The slot bound is tested before the code is looked up, so a slot which the
shorter layout no longer has is dropped although its code is still there.
-/

namespace BtClock

namespace ScreenManager

open SlotMap

/-- The displayed slot is a per-currency slot of the code `c`. -/
def DisplaysCurrency (s : ScreenManager) (c : String) : Prop :=
  kAgnosticSlots ≤ s.slot ∧ s.slot ≠ s.slotCount - 1 ∧
    s.currencies[(s.slot - kAgnosticSlots) / kPerCurrencySlots]? = some c

instance (s : ScreenManager) (c : String) : Decidable (s.DisplaysCurrency c) :=
  inferInstanceAs (Decidable (_ ∧ _ ∧ _))

/-- Replacing the currencies by `new` leaves the user's screen as it is. -/
def KeepsScreen (s : ScreenManager) (new : List String) : Prop :=
  let s' := s.setCurrencies new
  (∀ c, s.DisplaysCurrency c → c ∈ new →
    (s'.kindForSlot s'.slot, s'.currentCurrency) =
      (s.kindForSlot s.slot, s.currentCurrency)) ∧
  (s.slot < kAgnosticSlots ∨ s.slot = s.slotCount - 1 →
    s'.kindForSlot s'.slot = s.kindForSlot s.slot)

/-- The displayed slot index still exists in the new layout.  An empty code is never
looked up, so there the index itself must still denote it. -/
def SlotSurvives (s : ScreenManager) (new : List String) : Prop :=
  ∀ c, s.DisplaysCurrency c → c ∈ new →
    s.slot < SlotMap.slotCount new.length ∧
      (c = "" → s.slot ≠ SlotMap.slotCount new.length - 1 ∧
        new[(s.slot - kAgnosticSlots) / kPerCurrencySlots]? = some "")

theorem isFeeRateSlot_iff (s : ScreenManager) :
    s.isFeeRateSlot = true ↔ s.slot = s.slotCount - 1 := by
  simp [isFeeRateSlot]

theorem DisplaysCurrency.currentCurrency {s : ScreenManager} {c : String}
    (h : s.DisplaysCurrency c) : s.currentCurrency = some c := by
  obtain ⟨hlo, hfee, hc⟩ := h
  rw [ScreenManager.currentCurrency, if_neg, hc]
  rw [isFeeRateSlot_iff]
  omega

theorem DisplaysCurrency.kind {s : ScreenManager} {c : String}
    (h : s.DisplaysCurrency c) :
    s.kindForSlot s.slot =
      kindForOffset ((s.slot - kAgnosticSlots) % kPerCurrencySlots) :=
  kindForSlot_perCurrency h.1 h.2.1

theorem DisplaysCurrency.kind_ne_fee {s : ScreenManager} {c : String}
    (h : s.DisplaysCurrency c) : s.kindForSlot s.slot ≠ .blockFeeRate :=
  fun hk => h.2.1 (kindForSlot_eq_blockFeeRate_iff.mp hk)

@[simp]
theorem setCurrencies_currencies (s : ScreenManager) {new : List String}
    (hnew : new ≠ []) : (s.setCurrencies new).currencies = new := by
  simp [setCurrencies, hnew]

theorem setCurrencies_slotCount (s : ScreenManager) {new : List String}
    (hnew : new ≠ []) :
    (s.setCurrencies new).slotCount = SlotMap.slotCount new.length := by
  rw [slotCount, setCurrencies_currencies s hnew]

theorem setCurrencies_slot_of_fee {s : ScreenManager} {new : List String}
    (hnew : new ≠ []) (h : s.slot = s.slotCount - 1) :
    (s.setCurrencies new).slot = SlotMap.slotCount new.length - 1 := by
  have hk : s.kindForSlot s.slot = .blockFeeRate :=
    kindForSlot_eq_blockFeeRate_iff.mpr h
  simp [setCurrencies, hnew, hk]

theorem setCurrencies_slot_of_agnostic {s : ScreenManager} {new : List String}
    (hnew : new ≠ []) (h : s.slot < kAgnosticSlots) :
    (s.setCurrencies new).slot = s.slot := by
  have hk : s.kindForSlot s.slot ≠ .blockFeeRate := fun hk => by
    have := kindForSlot_eq_blockFeeRate_iff.mp hk
    rw [slotCount_eq] at this
    simp only [kAgnosticSlots] at h
    omega
  have hn : ¬ s.slot ≥ SlotMap.slotCount new.length := by
    rw [slotCount_eq]
    simp only [kAgnosticSlots] at h
    omega
  have hlo : ¬ s.slot ≥ kAgnosticSlots := Nat.not_le.mpr h
  simp only [setCurrencies, hnew, hk, hn, hlo, dif_neg, not_false_eq_true, if_false,
    ne_eq, not_true, false_and]

theorem setCurrencies_slot_of_beyond {s : ScreenManager} {new : List String}
    {c : String} (hnew : new ≠ []) (h : s.DisplaysCurrency c)
    (hn : SlotMap.slotCount new.length ≤ s.slot) :
    (s.setCurrencies new).slot = 0 := by
  simp [setCurrencies, hnew, h.kind_ne_fee, hn]

/-- The code held back by `setCurrencies` is the one on display. -/
theorem DisplaysCurrency.ccyBefore {s : ScreenManager} {c : String}
    (h : s.DisplaysCurrency c) :
    (if s.slot ≥ kAgnosticSlots ∧ s.isFeeRateSlot = false then
        s.currencies.getD ((s.slot - kAgnosticSlots) / kPerCurrencySlots) ""
      else "") = c := by
  obtain ⟨hlo, hfee, hc⟩ := h
  have : s.isFeeRateSlot = false := by simp [isFeeRateSlot, hfee]
  rw [if_pos ⟨hlo, this⟩, List.getD_eq_getElem?_getD, hc, Option.getD_some]

theorem setCurrencies_slot_of_code {s : ScreenManager} {new : List String}
    {c : String} (h : s.DisplaysCurrency c) (hc : c ≠ "") (hmem : c ∈ new)
    (hn : s.slot < SlotMap.slotCount new.length) :
    ∃ i, new[i]? = some c ∧
      (s.setCurrencies new).slot =
        kAgnosticSlots + kPerCurrencySlots * i +
          (s.slot - kAgnosticSlots) % kPerCurrencySlots := by
  have hnew : new ≠ [] := List.ne_nil_of_mem hmem
  obtain ⟨i, hi⟩ : ∃ i, new.findIdx? (· == c) = some i := by
    rw [← Option.isSome_iff_exists, List.findIdx?_isSome, List.any_eq_true]
    exact ⟨c, hmem, by simp⟩
  refine ⟨i, ?_, ?_⟩
  · obtain ⟨hlt, heq, -⟩ := List.findIdx?_eq_some_iff_getElem.mp hi
    rw [List.getElem?_eq_getElem hlt, beq_iff_eq.mp heq]
  · have hoff : offsetOfKind (s.kindForSlot s.slot) =
        (s.slot - kAgnosticSlots) % kPerCurrencySlots := by
      rw [h.kind, offsetOfKind_kindForOffset (Nat.mod_lt _ (by decide))]
    simp only [setCurrencies, hnew, dif_neg, not_false_eq_true, h.ccyBefore,
      h.kind_ne_fee, Nat.not_le.mpr hn, ge_iff_le, hc, hi, hoff, if_true, if_false, ne_eq]

theorem setCurrencies_slot_of_emptyCode {s : ScreenManager} {new : List String}
    (h : s.DisplaysCurrency "") (hnew : new ≠ [])
    (hn : s.slot < SlotMap.slotCount new.length) :
    (s.setCurrencies new).slot = s.slot := by
  simp only [setCurrencies, hnew, dif_neg, not_false_eq_true, h.ccyBefore,
    h.kind_ne_fee, Nat.not_le.mpr hn, ge_iff_le, if_false, ne_eq, not_true]

/-- A slot of a currency group shows the kind at its offset, for the group's code. -/
theorem displaysCurrency_of_slot {s : ScreenManager} {c : String} {i off : ℕ}
    (hi : s.currencies[i]? = some c) (hoff : off < kPerCurrencySlots)
    (hslot : s.slot = kAgnosticSlots + kPerCurrencySlots * i + off) :
    s.DisplaysCurrency c ∧ s.kindForSlot s.slot = kindForOffset off := by
  obtain ⟨hlt, -⟩ := List.getElem?_eq_some_iff.mp hi
  have hsub : s.slot - kAgnosticSlots = kPerCurrencySlots * i + off := by omega
  have hd : s.DisplaysCurrency c := by
    refine ⟨by omega, ?_, ?_⟩
    · rw [slotCount, slotCount_eq, hslot]
      simp only [kAgnosticSlots, kPerCurrencySlots] at hoff ⊢
      omega
    · rw [hsub, Nat.mul_add_div (by decide), Nat.div_eq_of_lt hoff, Nat.add_zero, hi]
  refine ⟨hd, ?_⟩
  rw [hd.kind, hsub, Nat.mul_add_mod, Nat.mod_eq_of_lt hoff]

/-- A slot of no currency stays on its kind under every replacement. -/
theorem setCurrencies_kind_of_no_currency (s : ScreenManager) (new : List String)
    (h : s.slot < kAgnosticSlots ∨ s.slot = s.slotCount - 1) :
    (s.setCurrencies new).kindForSlot (s.setCurrencies new).slot =
      s.kindForSlot s.slot := by
  by_cases hnew : new = []
  · simp [setCurrencies, hnew]
  rcases h with h | h
  · rw [setCurrencies_slot_of_agnostic hnew h]
    exact kindForSlot_agnostic _ _ h
  · have hk : s.kindForSlot s.slot = .blockFeeRate :=
      kindForSlot_eq_blockFeeRate_iff.mpr h
    rw [hk, setCurrencies_slot_of_fee hnew h, ← setCurrencies_slotCount s hnew]
    exact kindForSlot_fee _

/-- A surviving slot with a code is carried to the same kind and the same code. -/
theorem setCurrencies_keeps_of_code {s : ScreenManager} {new : List String}
    {c : String} (h : s.DisplaysCurrency c) (hc : c ≠ "") (hmem : c ∈ new)
    (hn : s.slot < SlotMap.slotCount new.length) :
    (s.setCurrencies new).kindForSlot (s.setCurrencies new).slot =
        s.kindForSlot s.slot ∧
      (s.setCurrencies new).currentCurrency = s.currentCurrency := by
  obtain ⟨i, hi, hslot⟩ := setCurrencies_slot_of_code h hc hmem hn
  have hcur := setCurrencies_currencies s (List.ne_nil_of_mem hmem)
  obtain ⟨hd, hk⟩ := displaysCurrency_of_slot (hcur ▸ hi) (Nat.mod_lt _ (by decide)) hslot
  exact ⟨hk.trans h.kind.symm, hd.currentCurrency.trans h.currentCurrency.symm⟩

/-- A slot beyond the new layout becomes the block-height slot. -/
theorem setCurrencies_kind_of_beyond {s : ScreenManager} {new : List String}
    {c : String} (hnew : new ≠ []) (h : s.DisplaysCurrency c)
    (hn : SlotMap.slotCount new.length ≤ s.slot) :
    (s.setCurrencies new).kindForSlot (s.setCurrencies new).slot ≠
      s.kindForSlot s.slot := by
  have hzero : (s.setCurrencies new).kindForSlot 0 = .blockHeight := by
    simp [kindForSlot, BtClock.kindForSlot, slotCount_eq]
  rw [setCurrencies_slot_of_beyond hnew h hn, hzero, h.kind]
  exact (kindForOffset_ne_blockHeight (Nat.mod_lt _ (by decide))).symm

theorem displaysCurrency_empty_of_same_slot {s : ScreenManager} {new : List String}
    (h : s.DisplaysCurrency "") (hnew : new ≠ [])
    (hn : s.slot < SlotMap.slotCount new.length)
    (hfee : s.slot ≠ SlotMap.slotCount new.length - 1)
    (hcode : new[(s.slot - kAgnosticSlots) / kPerCurrencySlots]? = some "") :
    (s.setCurrencies new).DisplaysCurrency "" := by
  have hslot := setCurrencies_slot_of_emptyCode h hnew hn
  refine ⟨hslot ▸ h.1, ?_, ?_⟩
  · rwa [hslot, setCurrencies_slotCount s hnew]
  · rwa [hslot, setCurrencies_currencies s hnew]

/-- An empty code stays on display exactly when its index still denotes it. -/
theorem setCurrencies_keeps_of_emptyCode {s : ScreenManager} {new : List String}
    (h : s.DisplaysCurrency "") (hnew : new ≠ [])
    (hn : s.slot < SlotMap.slotCount new.length) :
    ((s.setCurrencies new).kindForSlot (s.setCurrencies new).slot =
          s.kindForSlot s.slot ∧
        (s.setCurrencies new).currentCurrency = s.currentCurrency) ↔
      s.slot ≠ SlotMap.slotCount new.length - 1 ∧
        new[(s.slot - kAgnosticSlots) / kPerCurrencySlots]? = some "" := by
  have hslot := setCurrencies_slot_of_emptyCode h hnew hn
  constructor
  · rintro ⟨hk, hcur⟩
    have hfee : s.slot ≠ SlotMap.slotCount new.length - 1 := fun hfee => by
      refine h.kind_ne_fee (hk ▸ kindForSlot_eq_blockFeeRate_iff.mpr ?_)
      rw [hslot, setCurrencies_currencies s hnew, hfee]
    refine ⟨hfee, ?_⟩
    rw [h.currentCurrency, currentCurrency, if_neg, hslot,
      setCurrencies_currencies s hnew] at hcur
    · exact hcur
    · rw [isFeeRateSlot_iff, hslot, setCurrencies_slotCount s hnew]
      have := h.1
      omega
  · rintro ⟨hfee, hcode⟩
    have hd := displaysCurrency_empty_of_same_slot h hnew hn hfee hcode
    refine ⟨?_, hd.currentCurrency.trans h.currentCurrency.symm⟩
    rw [hd.kind, hslot, h.kind]

/-- Replacing the currencies keeps the screen exactly when the slot index on display
still exists. -/
theorem setCurrencies_keepsScreen_iff (s : ScreenManager) (new : List String) :
    s.KeepsScreen new ↔ s.SlotSurvives new := by
  constructor
  · rintro ⟨hkeep, -⟩ c hd hmem
    have hnew : new ≠ [] := List.ne_nil_of_mem hmem
    obtain ⟨hk, hcur⟩ := Prod.mk.inj (hkeep c hd hmem)
    have hn : s.slot < SlotMap.slotCount new.length := by
      by_contra hn
      exact setCurrencies_kind_of_beyond hnew hd (Nat.not_lt.mp hn) hk
    refine ⟨hn, ?_⟩
    rintro rfl
    exact (setCurrencies_keeps_of_emptyCode hd hnew hn).mp ⟨hk, hcur⟩
  · intro hsurv
    refine ⟨fun c hd hmem => ?_, setCurrencies_kind_of_no_currency s new⟩
    have hnew : new ≠ [] := List.ne_nil_of_mem hmem
    obtain ⟨hn, hempty⟩ := hsurv c hd hmem
    rw [Prod.mk.injEq]
    by_cases hc : c = ""
    · subst hc
      exact (setCurrencies_keeps_of_emptyCode hd hnew hn).mpr (hempty rfl)
    · exact setCurrencies_keeps_of_code hd hc hmem hn

/-- The Bitcoin price in euro, the second of two currencies, is dropped when the dollar
is removed. -/
theorem setCurrencies_drops_kept_code :
    ∃ s, Reachable s ∧ s.DisplaysCurrency "EUR" ∧ ¬ s.KeepsScreen ["EUR"] := by
  have hd : ((create 0 ["USD", "EUR"] (by decide)).step (.setSlot 14 0)).DisplaysCurrency
      "EUR" := by decide
  refine ⟨_, (reachable_create 0 ["USD", "EUR"] (by decide)).step (.setSlot 14 0), hd, ?_⟩
  rintro ⟨hkeep, -⟩
  have hk := congrArg Prod.fst (hkeep "EUR" hd (by decide))
  have hnew : ["EUR"] ≠ [] := by decide
  exact setCurrencies_kind_of_beyond hnew hd (by decide) hk

end ScreenManager

end BtClock
