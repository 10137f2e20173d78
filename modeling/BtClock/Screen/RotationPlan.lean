import BtClock.Screen.SlotMap
import BtClock.Settings.Api
import Mathlib.Data.Int.Notation

/-!
# The rotation plan

The rotation sequence is built from the stored screen order, the visibility of the
screens and the number of active currencies.  A screen is stored under its catalogue id; a
per-currency id stands for one slot of each currency.
-/

namespace BtClock

open Settings

/-! ### Catalogue ids and slots -/

namespace SlotMap

def kApiIdBlockHeight : Int32 := 0

def kApiIdClock : Int32 := 3

def kApiIdHalving : Int32 := 4

def kApiIdBlockFeeRate : Int32 := 6

def kApiIdMoscowTime : Int32 := 10

def kApiIdBtcPrice : Int32 := 20

def kApiIdMarketCap : Int32 := 30

def kApiIdBitcoinSupply : Int32 := 40

def kApiIdMiningPoolHashrate : Int32 := 70

def kApiIdMiningPoolEarnings : Int32 := 71

def kApiIdMiningPoolEstimatedEarnings : Int32 := 72

def kApiIdBitaxeHashrate : Int32 := 80

def kApiIdBitaxeBestDiff : Int32 := 81

def kApiIdNwcBalance : Int32 := 90

/-- The wallet balance is hidden unless the user asks for it. -/
def defaultScreenVisible (apiId : Int32) : Bool :=
  apiId != kApiIdNwcBalance

/-- The catalogue id of a slot, `-1` beyond the layout. -/
def apiIdForSlot (slot currencyCount : ℕ) : Int32 :=
  if slot ≥ slotCount currencyCount then -1
  else if slot = slotCount currencyCount - 1 then kApiIdBlockFeeRate
  else
    match slot with
    | 0 => kApiIdBlockHeight
    | 1 => kApiIdClock
    | 2 => kApiIdHalving
    | 3 => kApiIdBitcoinSupply
    | 4 => kApiIdMiningPoolHashrate
    | 5 => kApiIdMiningPoolEarnings
    | 6 => kApiIdBitaxeHashrate
    | 7 => kApiIdBitaxeBestDiff
    | 8 => kApiIdNwcBalance
    | 9 => kApiIdMiningPoolEstimatedEarnings
    | slot =>
        match (slot - kAgnosticSlots) % kPerCurrencySlots with
        | 0 => kApiIdMoscowTime
        | 1 => kApiIdBtcPrice
        | 2 => kApiIdMarketCap
        | _ => -1

/-- The slot of a catalogue id, for a per-currency id the one of the preferred currency. -/
def slotForApiId (apiId : Int32) (currencyCount preferredCurrencyIndex : ℕ) : Option ℕ :=
  if currencyCount = 0 then none
  else
    let preferred :=
      if preferredCurrencyIndex ≥ currencyCount then 0 else preferredCurrencyIndex
    if apiId = kApiIdBlockHeight then some 0
    else if apiId = kApiIdClock then some 1
    else if apiId = kApiIdHalving then some 2
    else if apiId = kApiIdBitcoinSupply then some 3
    else if apiId = kApiIdMiningPoolHashrate then some 4
    else if apiId = kApiIdMiningPoolEarnings then some 5
    else if apiId = kApiIdBitaxeHashrate then some 6
    else if apiId = kApiIdBitaxeBestDiff then some 7
    else if apiId = kApiIdNwcBalance then some 8
    else if apiId = kApiIdMiningPoolEstimatedEarnings then some 9
    else if apiId = kApiIdBlockFeeRate then some (slotCount currencyCount - 1)
    else if apiId = kApiIdMoscowTime then
      some (kAgnosticSlots + kPerCurrencySlots * preferred)
    else if apiId = kApiIdBtcPrice then
      some (kAgnosticSlots + kPerCurrencySlots * preferred + 1)
    else if apiId = kApiIdMarketCap then
      some (kAgnosticSlots + kPerCurrencySlots * preferred + 2)
    else none

end SlotMap

/-! ### Which screens are enabled -/

namespace MiningPools

/-- The known pools which pay nothing out to a single user. -/
def kSoloPools : List String :=
  ["noderunners", "satoshi_radio", "public_pool", "local_public_pool", "ckpool",
    "eu_ckpool", "nerdminers_org", "nerdminer_io", "viabtc"]

/-- An unknown pool is taken to pay out. -/
def poolSupportsDailyEarnings (poolName : String) : Bool :=
  decide (poolName ∉ kSoloPools)

def poolSupportsEstimatedEarnings (poolName : String) : Bool :=
  poolName == "blitzpool"

end MiningPools

/-- May the rotation show the screen?  The feature which the screen belongs to must be on,
and the screen visible. -/
def screenEnabled (prefs : Prefs) (apiId : Int32) : Bool :=
  if (apiId = 70 ∨ apiId = 71 ∨ apiId = 72) ∧ readBool prefs "miningPoolStats" = false then
    false
  else if apiId = 72 ∧
      MiningPools.poolSupportsEstimatedEarnings (readString prefs "miningPoolName") = false then
    false
  else if (apiId = 80 ∨ apiId = 81) ∧ readBool prefs "bitaxeEnabled" = false then false
  else if apiId = 90 ∧ readBool prefs "nwcEnabled" = false then false
  else prefs.getBool (visibleKey apiId) (SlotMap.defaultScreenVisible apiId)

namespace RotationPlan

open SlotMap

/-! ### The stored order -/

def isBlank (c : Char) : Bool :=
  c == ' ' || c == '\t'

/-- The digits up to the first blank, in the arithmetic of the integer type. -/
def parseDigits (item : List Char) : Option Int32 :=
  let digits := item.takeWhile fun c => !isBlank c
  if digits ≠ [] ∧ digits.all Char.isDigit = true then
    some (digits.foldl (fun v c => v * 10 + Int32.ofNat (c.toNat - '0'.toNat)) 0)
  else none

def parseOrderItem (item : List Char) : Option Int32 :=
  match item.dropWhile isBlank with
  | '-' :: digits => (parseDigits digits).map fun v => -v
  | '+' :: digits => parseDigits digits
  | digits => parseDigits digits

/-- The ids of the stored order; what is not a number is dropped. -/
def parseScreenOrderCsv (csv : String) : List Int32 :=
  (csv.toList.splitOn ',').filterMap parseOrderItem

/-! ### The sequence -/

def isPerCurrencyKind (apiId : Int32) : Bool :=
  apiId == kApiIdMoscowTime || apiId == kApiIdBtcPrice || apiId == kApiIdMarketCap

/-- The distance of a per-currency id from the start of its group. -/
def offsetForApiId (apiId : Int32) : ℕ :=
  if apiId = kApiIdBtcPrice then 1 else if apiId = kApiIdMarketCap then 2 else 0

/-- The ids which belong to no currency, the fee rate apart, with their slots. -/
def kAgnosticApiIds : List (Int32 × ℕ) :=
  [(kApiIdBlockHeight, 0), (kApiIdClock, 1), (kApiIdHalving, 2), (kApiIdBitcoinSupply, 3),
    (kApiIdMiningPoolHashrate, 4), (kApiIdMiningPoolEarnings, 5),
    (kApiIdBitaxeHashrate, 6), (kApiIdBitaxeBestDiff, 7), (kApiIdNwcBalance, 8),
    (kApiIdMiningPoolEstimatedEarnings, 9)]

/-- The slot of an id which belongs to no currency. -/
def agnosticSlotForApiId (apiId : Int32) (currencyCount : ℕ) : Option ℕ :=
  if apiId = kApiIdBlockFeeRate then
    if currencyCount = 0 then none else some (slotCount currencyCount - 1)
  else kAgnosticApiIds.lookup apiId

/-- The slots of an id: one for each currency, the one slot of the others, none of an
unknown id. -/
def expandApiId (apiId : Int32) (currencyCount : ℕ) : List ℕ :=
  if isPerCurrencyKind apiId then
    (List.range currencyCount).map fun k =>
      kAgnosticSlots + kPerCurrencySlots * k + offsetForApiId apiId
  else (agnosticSlotForApiId apiId currencyCount).toList

/-- A rotation is never empty: with every screen disabled it stays on the block height. -/
def orBlockHeight (sequence : List ℕ) : List ℕ :=
  if sequence = [] then [0] else sequence

/-- Without a stored order every enabled slot is visited in the order of the slots. -/
def buildRotationSequence (screenOrderCsv : String) (isEnabled : Int32 → Bool)
    (currencyCount : ℕ) : List ℕ :=
  if screenOrderCsv = "" then
    orBlockHeight ((List.range (slotCount currencyCount)).filter fun slot =>
      decide (0 ≤ apiIdForSlot slot currencyCount) &&
        isEnabled (apiIdForSlot slot currencyCount))
  else
    orBlockHeight (((parseScreenOrderCsv screenOrderCsv).filter isEnabled).flatMap
      fun apiId => expandApiId apiId currencyCount)

def kNoSavedSlot : UInt32 := 0xFFFFFFFF

/-- The slot on which the device resumes after the boot. -/
def resumeSlot (savedSlot : UInt32) (slotCount : ℕ) (sequence : List ℕ) : Option ℕ :=
  let feeSlot := decide (slotCount > 0) && savedSlot.toNat == slotCount - 1
  if savedSlot ≠ kNoSavedSlot ∧ savedSlot.toNat < slotCount ∧
      (feeSlot = true ∨ savedSlot.toNat ∈ sequence) then
    some savedSlot.toNat
  else sequence.head?

/-- The loop of `StepSequence` with `guard` turns left. -/
def stepSequenceLoop (sequence : List ℕ) (direction : ℤ) (skip : Option (ℕ → Bool)) :
    ℕ → ℕ → ℕ
  | 0, idx => idx
  | guard + 1, idx =>
      if skip.any fun skip => skip (sequence.getD idx 0) then
        stepSequenceLoop sequence direction skip guard
          (if direction ≥ 0 then (idx + 1) % sequence.length
            else (idx + sequence.length - 1) % sequence.length)
      else idx

/-- The slot and the index of a step from the entry `currentIdx`. -/
def stepSequence (sequence : List ℕ) (currentIdx : ℕ) (direction : ℤ)
    (skip : Option (ℕ → Bool)) : ℕ × ℕ :=
  let n := sequence.length
  if n = 0 then (0, 0)
  else
    let idx :=
      stepSequenceLoop sequence direction skip n
        (if direction ≥ 0 then (currentIdx + 1) % n else (currentIdx + n - 1) % n)
    (sequence.getD idx 0, idx)

theorem orBlockHeight_ne_nil (sequence : List ℕ) : orBlockHeight sequence ≠ [] := by
  unfold orBlockHeight
  split
  · simp
  · assumption

theorem mem_orBlockHeight {sequence : List ℕ} {slot : ℕ}
    (h : slot ∈ orBlockHeight sequence) : slot = 0 ∨ slot ∈ sequence := by
  unfold orBlockHeight at h
  split at h
  · exact .inl (List.mem_singleton.mp h)
  · exact .inr h

theorem offsetForApiId_lt (apiId : Int32) : offsetForApiId apiId < kPerCurrencySlots := by
  unfold offsetForApiId
  split
  · decide
  · split <;> decide

theorem kAgnosticApiIds_lt : ∀ entry ∈ kAgnosticApiIds, entry.2 < kAgnosticSlots := by
  decide

theorem agnosticSlotForApiId_lt {apiId : Int32} {n slot : ℕ}
    (h : agnosticSlotForApiId apiId n = some slot) : slot < slotCount n := by
  unfold agnosticSlotForApiId at h
  split at h
  · split at h
    · cases h
    · obtain rfl := Option.some.inj h
      exact Nat.sub_lt (slotCount_pos n) Nat.one_pos
  · have hmem : (apiId, slot) ∈ kAgnosticApiIds := by
      obtain ⟨before, after, heq, -⟩ := List.lookup_eq_some_iff.mp h
      simp [heq]
    have hlt : slot < kAgnosticSlots := kAgnosticApiIds_lt _ hmem
    rw [slotCount_eq]
    simp only [kAgnosticSlots] at hlt
    omega

theorem expandApiId_lt {apiId : Int32} {n slot : ℕ} (h : slot ∈ expandApiId apiId n) :
    slot < slotCount n := by
  unfold expandApiId at h
  split at h
  · obtain ⟨k, hk, rfl⟩ := List.mem_map.mp h
    have hk : k < n := List.mem_range.mp hk
    have hoff := offsetForApiId_lt apiId
    rw [slotCount_eq]
    simp only [kAgnosticSlots, kPerCurrencySlots] at hoff ⊢
    omega
  · exact agnosticSlotForApiId_lt (Option.mem_toList.mp h)

theorem buildRotationSequence_ne_nil (csv : String) (isEnabled : Int32 → Bool) (n : ℕ) :
    buildRotationSequence csv isEnabled n ≠ [] := by
  unfold buildRotationSequence
  split <;> exact orBlockHeight_ne_nil _

/-- Every entry of a rotation sequence is a slot of the layout it was built for. -/
theorem buildRotationSequence_lt {csv : String} {isEnabled : Int32 → Bool} {n slot : ℕ}
    (h : slot ∈ buildRotationSequence csv isEnabled n) : slot < slotCount n := by
  unfold buildRotationSequence at h
  split at h
  · rcases mem_orBlockHeight h with rfl | hmem
    · exact slotCount_pos n
    · exact List.mem_range.mp (List.mem_filter.mp hmem).1
  · rcases mem_orBlockHeight h with rfl | hmem
    · exact slotCount_pos n
    · obtain ⟨apiId, -, hslot⟩ := List.mem_flatMap.mp hmem
      exact expandApiId_lt hslot

theorem resumeSlot_lt {savedSlot : UInt32} {count slot : ℕ} {sequence : List ℕ}
    (hseq : ∀ slot ∈ sequence, slot < count)
    (h : resumeSlot savedSlot count sequence = some slot) : slot < count := by
  simp only [resumeSlot] at h
  split at h
  · rename_i hsaved
    obtain rfl := Option.some.inj h
    exact hsaved.2.1
  · exact hseq slot (List.mem_of_mem_head? h)

end RotationPlan

end BtClock
