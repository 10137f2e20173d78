import BtClock.Arith.Double
import Mathlib.Data.List.AList

/-!
# The data snapshot and the hub

Sources report partial snapshots to the `DataHub`, which merges them into the one the
screens read.
-/

namespace BtClock

namespace Data

structure PoolStats where
  name : String := ""
  hashrate : String := ""
  dailySats : Option Int64 := none
  workers : Option Int32 := none
  estimatedSats : Option Int64 := none
  deriving DecidableEq

structure BitaxeStats where
  hostname : String := ""
  hashrateGhs : Option Float := none
  bestDiff : Option String := none
  temperatureC : Option Float := none
  sharesAccepted : Option Int32 := none
  deriving DecidableEq

structure LatestZap where
  amountSats : Option Int64 := none
  message : String := ""
  receivedMs : Int64 := 0
  deriving DecidableEq

structure NwcPayment where
  direction : UInt8 := 0
  amountSats : Option Int64 := none
  description : String := ""
  receivedMs : Int64 := 0
  deriving DecidableEq

structure DataSnapshot where
  blockHeight : Option UInt32 := none
  blockFee : Option Int32 := none
  blockFeePrecise : Option Float := none
  prices : AList fun _ : String => String := ∅
  pool : PoolStats := {}
  bitaxe : BitaxeStats := {}
  latestZap : LatestZap := {}
  nwcBalanceMsat : Option Int64 := none
  nwcLastPayment : NwcPayment := {}

/-- May `newHeight` replace `prevHeight`? -/
def isValidUpdate (prevHeight newHeight : UInt32) : Bool :=
  if newHeight = 0 then false
  else if prevHeight = 0 then true
  else decide (newHeight ≥ prevHeight)

/-- Two optional numbers differ, by the comparison `!=` of doubles. -/
def doubleDiffers : Option Float → Option Float → Bool
  | none, none => false
  | some x, some y => !(x == y)
  | _, _ => true

namespace DataSnapshot

def priceOf (s : DataSnapshot) (ccy : String) : Option String :=
  s.prices.lookup ccy

/-! Each field is merged on its own, with the flag whether it changed. -/

def mergeBlockHeight (mine other : Option UInt32) : Option UInt32 × Bool :=
  match other with
  | none => (mine, false)
  | some h =>
      if mine ≠ some h ∧ isValidUpdate (mine.getD 0) h = true then (some h, true)
      else (mine, false)

def mergeBlockFee (mine other : Option Int32) : Option Int32 × Bool :=
  match other with
  | none => (mine, false)
  | some fee => if mine ≠ some fee then (some fee, true) else (mine, false)

def mergeBlockFeePrecise (mine other : Option Float) : Option Float × Bool :=
  match other with
  | none => (mine, false)
  | some fee =>
      if doubleDiffers mine (some fee) then (some fee, true) else (mine, false)

/-- One turn of the loop over the reported prices. -/
def mergePrice (st : AList (fun _ : String => String) × Bool)
    (entry : (_ : String) × String) : AList (fun _ : String => String) × Bool :=
  if st.1.lookup entry.1 ≠ some entry.2 then (st.1.insert entry.1 entry.2, true) else st

def mergePrices (mine other : AList fun _ : String => String) :
    AList (fun _ : String => String) × Bool :=
  other.entries.foldl mergePrice (mine, false)

def mergePool (mine other : PoolStats) : PoolStats × Bool :=
  if other.name ≠ "" ∧ mine ≠ other then (other, true) else (mine, false)

def mergeBitaxe (mine other : BitaxeStats) : BitaxeStats × Bool :=
  if other.hostname ≠ "" ∧
      (mine.hostname ≠ other.hostname ∨
        doubleDiffers mine.hashrateGhs other.hashrateGhs = true ∨
        mine.bestDiff ≠ other.bestDiff ∨
        doubleDiffers mine.temperatureC other.temperatureC = true ∨
        mine.sharesAccepted ≠ other.sharesAccepted) then (other, true)
  else (mine, false)

def mergeLatestZap (mine other : LatestZap) : LatestZap × Bool :=
  if other.receivedMs > mine.receivedMs then (other, true) else (mine, false)

def mergeNwcBalance (mine other : Option Int64) : Option Int64 × Bool :=
  match other with
  | none => (mine, false)
  | some msat => if mine ≠ some msat then (some msat, true) else (mine, false)

def mergeNwcLastPayment (mine other : NwcPayment) : NwcPayment × Bool :=
  if other.receivedMs > mine.receivedMs then (other, true) else (mine, false)

/-- `Merge`: the merged snapshot, and whether any field changed. -/
def merge (s other : DataSnapshot) : DataSnapshot × Bool :=
  let height := mergeBlockHeight s.blockHeight other.blockHeight
  let fee := mergeBlockFee s.blockFee other.blockFee
  let precise := mergeBlockFeePrecise s.blockFeePrecise other.blockFeePrecise
  let prices := mergePrices s.prices other.prices
  let pool := mergePool s.pool other.pool
  let bitaxe := mergeBitaxe s.bitaxe other.bitaxe
  let zap := mergeLatestZap s.latestZap other.latestZap
  let balance := mergeNwcBalance s.nwcBalanceMsat other.nwcBalanceMsat
  let payment := mergeNwcLastPayment s.nwcLastPayment other.nwcLastPayment
  ({ blockHeight := height.1
     blockFee := fee.1
     blockFeePrecise := precise.1
     prices := prices.1
     pool := pool.1
     bitaxe := bitaxe.1
     latestZap := zap.1
     nwcBalanceMsat := balance.1
     nwcLastPayment := payment.1 },
    height.2 || fee.2 || precise.2 || prices.2 || pool.2 || bitaxe.2 || zap.2 ||
      balance.2 || payment.2)

end DataSnapshot

/-- The hub's snapshot after a report.  `Report` calls back when the merge changed it. -/
def report (hub partialSnapshot : DataSnapshot) : DataSnapshot :=
  (hub.merge partialSnapshot).1

end Data

end BtClock
