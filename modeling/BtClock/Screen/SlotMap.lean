import Mathlib.Data.List.Basic

/-!
# Screen kinds and the slot map

A rotation slot is a screen kind together with, for the per-currency kinds, a position
in the list of active currencies.  The ten currency-agnostic slots come first, then three
slots for each currency, and the fee-rate slot is last.
-/

namespace BtClock

/-- The screen which is on display. -/
inductive ScreenType
  | blockHeight
  | moscowTime
  | btcPrice
  | blockFeeRate
  | clock
  | halving
  | bitcoinSupply
  | marketCap
  | miningPoolHashrate
  | miningPoolEarnings
  | miningPoolEstimatedEarnings
  | bitaxeHashrate
  | bitaxeBestDiff
  | nwcBalance
  | custom
  | debug
  | nostrZap
  | nwcPaymentNotify
  | otaUpdate
  deriving DecidableEq, Repr

namespace SlotMap

def kAgnosticSlots : ℕ := 10

def kPerCurrencySlots : ℕ := 3

def slotCount (currencyCount : ℕ) : ℕ :=
  kAgnosticSlots + kPerCurrencySlots * currencyCount + 1

/-- The slot of the same per-currency kind under another currency. -/
def transposeSlotToCurrency (currentSlot newCurrencyIndex currencyCount : ℕ) : ℕ :=
  let total := slotCount currencyCount
  let off :=
    if currentSlot ≥ kAgnosticSlots ∧ ¬(currencyCount > 0 ∧ currentSlot = total - 1) then
      (currentSlot - kAgnosticSlots) % kPerCurrencySlots
    else 0
  kAgnosticSlots + kPerCurrencySlots * newCurrencyIndex + off

theorem slotCount_eq (n : ℕ) : slotCount n = 3 * n + 11 := by
  simp only [slotCount, kAgnosticSlots, kPerCurrencySlots]
  omega

theorem slotCount_pos (n : ℕ) : 0 < slotCount n := by
  simp [slotCount]

theorem transposeSlotToCurrency_lt (slot : ℕ) {i n : ℕ} (hi : i < n) :
    transposeSlotToCurrency slot i n < slotCount n := by
  have hoff : (slot - kAgnosticSlots) % kPerCurrencySlots < 3 :=
    Nat.mod_lt _ (by decide)
  rw [slotCount_eq, transposeSlotToCurrency]
  split
  all_goals
    simp only [kAgnosticSlots, kPerCurrencySlots] at hoff ⊢
    omega

end SlotMap

open SlotMap

/-- The kind of a slot when `currencyCount` currencies are active. -/
def kindForSlot (currencyCount slot : ℕ) : ScreenType :=
  if slot = slotCount currencyCount - 1 then .blockFeeRate
  else
    match slot with
    | 0 => .blockHeight
    | 1 => .clock
    | 2 => .halving
    | 3 => .bitcoinSupply
    | 4 => .miningPoolHashrate
    | 5 => .miningPoolEarnings
    | 6 => .bitaxeHashrate
    | 7 => .bitaxeBestDiff
    | 8 => .nwcBalance
    | 9 => .miningPoolEstimatedEarnings
    | slot =>
        match (slot - kAgnosticSlots) % kPerCurrencySlots with
        | 0 => .moscowTime
        | 1 => .btcPrice
        | 2 => .marketCap
        | _ => .blockHeight

/-- The kind of the slot at distance `off` inside a currency's group. -/
def kindForOffset (off : ℕ) : ScreenType :=
  match off with
  | 0 => .moscowTime
  | 1 => .btcPrice
  | 2 => .marketCap
  | _ => .blockHeight

/-- The distance of a per-currency kind from the start of its group. -/
def offsetOfKind (kind : ScreenType) : ℕ :=
  match kind with
  | .moscowTime => 0
  | .btcPrice => 1
  | .marketCap => 2
  | _ => 0

theorem offsetOfKind_kindForOffset {off : ℕ} (h : off < kPerCurrencySlots) :
    offsetOfKind (kindForOffset off) = off := by
  match off, h with
  | 0, _ => rfl
  | 1, _ => rfl
  | 2, _ => rfl

theorem kindForOffset_ne_blockHeight {off : ℕ} (h : off < kPerCurrencySlots) :
    kindForOffset off ≠ .blockHeight := by
  match off, h with
  | 0, _ => decide
  | 1, _ => decide
  | 2, _ => decide

@[simp]
theorem kindForSlot_fee (n : ℕ) : kindForSlot n (slotCount n - 1) = .blockFeeRate := by
  simp [kindForSlot]

/-- The kind of a currency-agnostic slot does not depend on the currencies. -/
theorem kindForSlot_agnostic (n m : ℕ) {slot : ℕ} (h : slot < kAgnosticSlots) :
    kindForSlot n slot = kindForSlot m slot := by
  have hfee : ∀ k, slot ≠ slotCount k - 1 := fun k => by
    rw [slotCount_eq]
    simp only [kAgnosticSlots] at h
    omega
  simp only [kindForSlot, hfee, if_false]

theorem kindForSlot_perCurrency {n slot : ℕ} (hlo : kAgnosticSlots ≤ slot)
    (hfee : slot ≠ slotCount n - 1) :
    kindForSlot n slot =
      kindForOffset ((slot - kAgnosticSlots) % kPerCurrencySlots) := by
  obtain ⟨k, rfl⟩ := Nat.exists_eq_add_of_le' hlo
  simp only [kindForSlot, hfee, if_false, kindForOffset]
  rfl

theorem kindForSlot_eq_blockFeeRate_iff {n slot : ℕ} :
    kindForSlot n slot = .blockFeeRate ↔ slot = slotCount n - 1 := by
  constructor
  · intro h
    by_contra hfee
    simp only [kindForSlot, hfee, if_false] at h
    split at h <;> try exact absurd h (by decide)
    split at h <;> exact absurd h (by decide)
  · rintro rfl
    exact kindForSlot_fee n

end BtClock
