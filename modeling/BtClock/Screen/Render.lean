import BtClock.Arith.Printf
import BtClock.Data.Snapshot
import BtClock.Screen.Manager
import BtClock.Settings.Schema

/-!
# Painting the current screen

The part of `ScreenManager` which paints: what `shouldRender` compares, and what `render`
hands to the screen renderers and remembers of it.  A renderer receives the values to
show and the values it showed before, in whose place stands a sentinel when every cell is
to be painted.
-/

namespace BtClock

open Data Settings

/-! ### Preferences -/

/-- The settings which the renderers read. -/
structure RenderPrefs where
  useSatsSymbol : Bool
  useBtcSymbol : Bool
  useMscwTime : Bool
  useBlkCountdown : Bool
  supplyPercent : Bool
  mcapBigChar : Bool
  blockFeeDec : Bool
  suffixPrice : Bool
  mowMode : Bool
  decimalShareDot : Bool
  hideLeadZero : Bool
  verticalDesc : Bool
  refrScrnChange : Bool
  fullRefreshMin : Int32
  digitFontPx : UInt32
  labelFitPct : UInt32

def readRenderPrefs (prefs : Prefs) : RenderPrefs :=
  let symMode := readU32 prefs "priceSymMode"
  let symMode := if symMode > 2 then 0 else symMode
  { useSatsSymbol := symMode == 1
    useBtcSymbol := symMode == 2
    useMscwTime := readBool prefs "useMscwTime"
    useBlkCountdown := readBool prefs "useBlkCountdown"
    supplyPercent := readBool prefs "supplyPercent"
    mcapBigChar := readBool prefs "mcapBigChar"
    blockFeeDec := readBool prefs "blockFeeDec"
    suffixPrice := readBool prefs "suffixPrice"
    mowMode := readBool prefs "mowMode"
    decimalShareDot := readBool prefs "decimalShareDot"
    hideLeadZero := readBool prefs "hideLeadZero"
    verticalDesc := readBool prefs "verticalDesc"
    refrScrnChange := readBool prefs "refrScrnChange"
    fullRefreshMin := (readU32 prefs "fullRefreshMin").toInt32
    digitFontPx := readU32 prefs "digitFontPx"
    labelFitPct := readU32 prefs "labelFitPct" }

/-- A font without the bitcoin sign shows no marker in its place. -/
def resolveSymbolMode (rp : RenderPrefs) (digitFontHasBtcSign : Bool) : RenderPrefs :=
  if rp.useBtcSymbol = true ∧ digitFontHasBtcSign = false then
    { rp with useBtcSymbol := false }
  else rp

/-! ### The refresh policy -/

namespace RefreshPolicy

/-- The time of the last full refresh before the first one. -/
def kNever : ℤ := -1

/-- Is the next paint a full refresh?  A full refresh restarts the window. -/
def decide (lastFullRefreshMs nowMs : ℤ) (isScreenChange isForceFull refrScrnChange : Bool)
    (fullRefreshMin : Int32) : ℤ × Bool :=
  let full :=
    if isForceFull then true
    else if isScreenChange then
      if refrScrnChange then true
      else
        lastFullRefreshMs == kNever ||
          nowMs - lastFullRefreshMs ≥ fullRefreshMin.toInt * 60 * 1000
    else false
  (if full then nowMs else lastFullRefreshMs, full)

end RefreshPolicy

/-! ### Values -/

def kMinPlausibleEpoch : ℤ := 1577836800

/-- The local time of day and date; months count from zero. -/
structure Tm where
  min : ℤ
  hour : ℤ
  mday : ℤ
  mon : ℤ
  deriving DecidableEq

/-- A reading of the clocks: the milliseconds since boot, and the calendar time with its
local form. -/
structure Moment where
  ms : ℤ
  time : ℤ
  tm : Tm

structure BitaxeHashrateParts where
  value : String
  suffix : String

/-- The characters which `snprintf` leaves in a buffer of the given size. -/
def snprintf (size : ℕ) (text : String) : String :=
  (text.take (size - 1)).toString

def splitBitaxeHashrate (ghs : Float) : BitaxeHashrateParts :=
  if ¬ ghs > 0.0 then { value := "0", suffix := "GH" }
  else if ghs < 1000.0 then
    { value := snprintf 24 (Double.formatFixed 0 (Double.round ghs)), suffix := "GH" }
  else if ghs < 1000000.0 then
    let t := ghs / 1000.0
    { value :=
        snprintf 24
          (if t < 10.0 then Double.formatFixed 1 t
          else Double.formatFixed 0 (Double.round t))
      suffix := "TH" }
  else
    let p := ghs / 1000000.0
    { value :=
        snprintf 24
          (if p < 10.0 then Double.formatFixed 1 p
          else Double.formatFixed 0 (Double.round p))
      suffix := "PH" }

def formatBitaxeHashrate (ghs : Float) : String :=
  let parts := splitBitaxeHashrate ghs
  parts.value ++ parts.suffix

/-- The text of the Bitaxe hashrate, which the renderer and the manager both derive. -/
def bitaxeHashrateText (bitaxe : BitaxeStats) : String :=
  match bitaxe.hashrateGhs with
  | some ghs => if bitaxe.hostname = "" then "OFFLINE" else formatBitaxeHashrate ghs
  | none => "OFFLINE"

def bitaxeBestDiffText (bitaxe : BitaxeStats) : String :=
  match bitaxe.bestDiff with
  | some best => if bitaxe.hostname = "" ∨ best = "" then "OFFLINE" else best
  | none => "OFFLINE"

def currencySymbolUtf8 (ccy : String) : String :=
  match ccy with
  | "USD" => "$"
  | "EUR" => "€"
  | "GBP" => "£"
  | "JPY" => "¥"
  | "CAD" => "$"
  | "AUD" => "$"
  | ccy => ccy

/-! ### The calls of the renderers -/

/-- The sizes which `Render` sets for all renderers. -/
structure GlyphSizes where
  digitFontPx : UInt32
  labelFitPct : UInt32
  deriving DecidableEq

def RenderPrefs.sizes (rp : RenderPrefs) : GlyphSizes where
  digitFontPx := rp.digitFontPx
  labelFitPct := rp.labelFitPct

/-- The values which a renderer shows. -/
inductive View
  | blockHeight (height : UInt32) (verticalDesc : Bool)
  | moscowTime (ccy price : String) (satsVariant : UInt8)
      (useSatsSymbol useBtcSymbol useMscwTime decimalShareDot verticalDesc : Bool)
  | btcPrice (ccy price symbol : String)
      (suffixPrice mowMode decimalShareDot verticalDesc : Bool)
  | feeRate (fee : Float) (decimalShareDot verticalDesc : Bool)
  | clock (valid : Bool) (hour min mday mon : ℤ) (verticalDesc hideLeadZero : Bool)
  | halving (height : UInt32) (useBlkCountdown verticalDesc : Bool)
  | bitcoinSupply (height : UInt32) (mcapBigChar supplyPercent verticalDesc : Bool)
  | marketCap (ccy price : String) (height : UInt32)
      (mcapBigChar decimalShareDot verticalDesc : Bool)
  | miningPoolHashrate (pool : PoolStats) (verticalDesc : Bool)
  | miningPoolEarnings (pool : PoolStats) (verticalDesc : Bool)
  | miningPoolEstimatedEarnings (pool : PoolStats) (verticalDesc : Bool)
  | bitaxeHashrate (value : String) (verticalDesc : Bool)
  | bitaxeBestDiff (value : String) (verticalDesc : Bool)
  | custom (cells : List String)
  | nostrZap (zap : LatestZap) (useSatsSymbol useBtcSymbol : Bool) (satsVariant : UInt8)
      (verticalDesc : Bool)
  | nwcBalance (sats : Option Int64) (useSatsSymbol useBtcSymbol : Bool)
      (satsVariant : UInt8) (verticalDesc : Bool)
  | nwcPaymentNotify (payment : NwcPayment) (useSatsSymbol useBtcSymbol : Bool)
      (satsVariant : UInt8) (verticalDesc : Bool)
  deriving DecidableEq

/-- The previous values which a renderer is given. -/
inductive PrevValue
  | none
  | height (h : UInt32)
  | price (p : String)
  | fee (f : Float)
  | clock (valid : Bool) (hour min mday mon : ℤ)
  | cap (price : String) (height : UInt32)
  | pool (p : PoolStats)
  | text (value : String)
  | cells (cells : List String) (forceRepaint : Bool)
  | balance (sats : Option Int64)
  deriving DecidableEq

structure RenderCall where
  view : View
  prev : PrevValue
  fullRefreshMode : Bool
  sizes : GlyphSizes
  deriving DecidableEq

/-! ### The manager's memory of the last paint -/

structure LastRendered where
  lastFullRefreshMs : ℤ := RefreshPolicy.kNever
  height : UInt32 := 0
  price : String := ""
  priceApplyMs : ℤ := 0
  fee : Float := -1.0
  capHeight : UInt32 := 0
  capPrice : String := ""
  poolHashrate : PoolStats := {}
  poolEarnings : PoolStats := {}
  poolEstimatedEarnings : PoolStats := {}
  bitaxeHashrate : String := ""
  bitaxeBestDiff : String := ""
  clockValid : Bool := false
  clockHour : ℤ := -1
  clockMin : ℤ := -1
  clockMday : ℤ := -1
  clockMon : ℤ := -1
  customCells : Vector String 8 := Vector.replicate 8 ""
  nwcBalance : Option Int64 := none

/-- The screen manager with what it remembers of the last paint.  `panels` is the number
of panels of the board. -/
structure Display where
  manager : ScreenManager
  last : LastRendered := {}
  satsVariant : UInt8 := 7
  panels : ℕ := 7

namespace Display

/-- The price of the current currency.  A slot beyond the layout has no currency. -/
def currentPrice (d : Display) (snap : DataSnapshot) : Option (String × String) :=
  match d.manager.currentCurrency with
  | none => none
  | some ccy => (snap.priceOf ccy).map fun price => (ccy, price)

/-- Was a price painted less than `minSecPriceUpd` seconds ago? -/
def priceThrottleBlocks (d : Display) (prefs : Prefs) (now : Moment) : Bool :=
  let minS := readU32 prefs "minSecPriceUpd"
  if minS = 0 then false
  else decide (now.ms - d.last.priceApplyMs < (minS.toNat : ℤ) * 1000)

def kFeeEpsilon : Float := 1e-3

/-- The fee which `ShouldRender` looks at: the precise one when there is one. -/
def comparedFee (snap : DataSnapshot) : Float :=
  match snap.blockFeePrecise, snap.blockFee with
  | some fee, _ => fee
  | none, some fee => Float.ofInt fee.toInt
  | none, none => -1.0

/-- The fee which `Render` shows: the precise one is preferred when `blockFeeDec` is
set. -/
def shownFee (rp : RenderPrefs) (snap : DataSnapshot) : Float :=
  match snap.blockFeePrecise, snap.blockFee with
  | some precise, some fee => if rp.blockFeeDec then precise else Float.ofInt fee.toInt
  | some precise, none => precise
  | none, some fee => Float.ofInt fee.toInt
  | none, none => -1.0

def balanceSats (snap : DataSnapshot) : Option Int64 :=
  snap.nwcBalanceMsat.map (· / 1000)

/-- The switch of `ShouldRender` over the kinds: does the snapshot carry a value for the
current screen which differs from the last one painted? -/
def valueChanged (d : Display) (prefs : Prefs) (now : Moment) (snap : DataSnapshot) :
    Bool :=
  match d.manager.currentKind with
  | .blockHeight | .halving | .bitcoinSupply =>
      match snap.blockHeight with
      | some h => h != d.last.height
      | none => false
  | .moscowTime | .btcPrice =>
      match d.currentPrice snap with
      | none => false
      | some (_, price) =>
          if price = d.last.price then false else !d.priceThrottleBlocks prefs now
  | .blockFeeRate =>
      let fee := comparedFee snap
      if fee < 0.0 then false else decide ((fee - d.last.fee).abs > kFeeEpsilon)
  | .clock =>
      if now.time < kMinPlausibleEpoch then !d.last.clockValid
      else
        !d.last.clockValid || now.tm.min != d.last.clockMin ||
          now.tm.hour != d.last.clockHour || now.tm.mday != d.last.clockMday ||
          now.tm.mon != d.last.clockMon
  | .marketCap =>
      match d.currentPrice snap, snap.blockHeight with
      | some (_, price), some h =>
          let heightChanged := h != d.last.capHeight
          let priceChanged := price != d.last.capPrice
          if !heightChanged && !priceChanged then false
          else if !heightChanged && priceChanged && d.priceThrottleBlocks prefs now then
            false
          else true
      | _, _ => false
  | .miningPoolHashrate =>
      snap.pool.hashrate != d.last.poolHashrate.hashrate ||
        snap.pool.name != d.last.poolHashrate.name
  | .miningPoolEarnings =>
      snap.pool.dailySats != d.last.poolEarnings.dailySats ||
        snap.pool.name != d.last.poolEarnings.name
  | .miningPoolEstimatedEarnings =>
      snap.pool.estimatedSats != d.last.poolEstimatedEarnings.estimatedSats ||
        snap.pool.name != d.last.poolEstimatedEarnings.name
  | .bitaxeHashrate => bitaxeHashrateText snap.bitaxe != d.last.bitaxeHashrate
  | .bitaxeBestDiff => bitaxeBestDiffText snap.bitaxe != d.last.bitaxeBestDiff
  | .nwcBalance => d.last.nwcBalance != balanceSats snap
  | .custom | .nostrZap | .nwcPaymentNotify | .debug | .otaUpdate => false

def shouldRender (d : Display) (prefs : Prefs) (now : Moment) (snap : DataSnapshot) :
    Bool :=
  if d.manager.otaActive then false
  else if d.manager.debugMode then false
  else if d.manager.dirty || d.manager.screenChangePending then true
  else d.valueChanged prefs now snap

/-- The first `panels` custom cells are painted and remembered. -/
def rememberCells (d : Display) : Vector String 8 :=
  Vector.ofFn fun i =>
    if i < d.panels then d.manager.customCells[i] else d.last.customCells[i]

/-- The switch of `Render` over the kinds: the call of the kind's renderer, `none` where
the snapshot lacks its data, and what is remembered of the call.  With `forceRepaint` the
previous value is the renderer's sentinel. -/
def renderKind (d : Display) (rp : RenderPrefs) (now : Moment) (snap : DataSnapshot)
    (forceRepaint forceFull : Bool) : LastRendered × Option RenderCall :=
  let last := d.last
  let paint (remembered : LastRendered) (view : View) (prev : PrevValue) :=
    (remembered,
      some
        { view := view
          prev := prev
          fullRefreshMode := forceFull
          sizes := rp.sizes })
  match d.manager.currentKind with
  | .blockHeight =>
      match snap.blockHeight with
      | some h =>
          paint { last with height := h } (.blockHeight h rp.verticalDesc)
            (.height (if forceRepaint then 0 else last.height))
      | none => (last, none)
  | .moscowTime =>
      match d.currentPrice snap with
      | some (ccy, price) =>
          paint { last with price := price, priceApplyMs := now.ms }
            (.moscowTime ccy price d.satsVariant rp.useSatsSymbol rp.useBtcSymbol
              rp.useMscwTime rp.decimalShareDot rp.verticalDesc)
            (.price (if forceRepaint then "" else last.price))
      | none => (last, none)
  | .btcPrice =>
      match d.currentPrice snap with
      | some (ccy, price) =>
          paint { last with price := price, priceApplyMs := now.ms }
            (.btcPrice ccy price (currencySymbolUtf8 ccy) rp.suffixPrice rp.mowMode
              rp.decimalShareDot rp.verticalDesc)
            (.price (if forceRepaint then "" else last.price))
      | none => (last, none)
  | .blockFeeRate =>
      let fee := shownFee rp snap
      paint { last with fee := fee } (.feeRate fee rp.decimalShareDot rp.verticalDesc)
        (.fee (if forceRepaint then -1.0 else last.fee))
  | .clock =>
      let valid := decide (now.time ≥ kMinPlausibleEpoch)
      let view :=
        if valid then
          View.clock true now.tm.hour now.tm.min now.tm.mday (now.tm.mon + 1)
            rp.verticalDesc rp.hideLeadZero
        else View.clock false 0 0 0 0 rp.verticalDesc rp.hideLeadZero
      let remembered :=
        if valid then
          { last with
            clockValid := true
            clockHour := now.tm.hour
            clockMin := now.tm.min
            clockMday := now.tm.mday
            clockMon := now.tm.mon }
        else { last with clockValid := false }
      paint remembered view
        (.clock (if forceRepaint then false else last.clockValid) last.clockHour
          last.clockMin last.clockMday last.clockMon)
  | .halving =>
      match snap.blockHeight with
      | some h =>
          paint { last with height := h } (.halving h rp.useBlkCountdown rp.verticalDesc)
            (.height (if forceRepaint then 0 else last.height))
      | none => (last, none)
  | .bitcoinSupply =>
      match snap.blockHeight with
      | some h =>
          paint { last with height := h }
            (.bitcoinSupply h rp.mcapBigChar rp.supplyPercent rp.verticalDesc)
            (.height (if forceRepaint then 0 else last.height))
      | none => (last, none)
  | .marketCap =>
      match d.currentPrice snap, snap.blockHeight with
      | some (ccy, price), some h =>
          paint { last with capPrice := price, capHeight := h, priceApplyMs := now.ms }
            (.marketCap ccy price h rp.mcapBigChar rp.decimalShareDot rp.verticalDesc)
            (.cap (if forceRepaint then "" else last.capPrice)
              (if forceRepaint then 0 else last.capHeight))
      | _, _ => (last, none)
  | .miningPoolHashrate =>
      paint { last with poolHashrate := snap.pool }
        (.miningPoolHashrate snap.pool rp.verticalDesc)
        (.pool (if forceRepaint then {} else last.poolHashrate))
  | .miningPoolEarnings =>
      paint { last with poolEarnings := snap.pool }
        (.miningPoolEarnings snap.pool rp.verticalDesc)
        (.pool (if forceRepaint then {} else last.poolEarnings))
  | .miningPoolEstimatedEarnings =>
      paint { last with poolEstimatedEarnings := snap.pool }
        (.miningPoolEstimatedEarnings snap.pool rp.verticalDesc)
        (.pool (if forceRepaint then {} else last.poolEstimatedEarnings))
  | .bitaxeHashrate =>
      paint { last with bitaxeHashrate := bitaxeHashrateText snap.bitaxe }
        (.bitaxeHashrate (bitaxeHashrateText snap.bitaxe) rp.verticalDesc)
        (.text (if forceRepaint then "" else last.bitaxeHashrate))
  | .bitaxeBestDiff =>
      paint { last with bitaxeBestDiff := bitaxeBestDiffText snap.bitaxe }
        (.bitaxeBestDiff (bitaxeBestDiffText snap.bitaxe) rp.verticalDesc)
        (.text (if forceRepaint then "" else last.bitaxeBestDiff))
  | .custom =>
      paint { last with customCells := d.rememberCells }
        (.custom (d.manager.customCells.toList.take d.panels))
        (.cells (last.customCells.toList.take d.panels) forceRepaint)
  | .nostrZap =>
      paint last
        (.nostrZap snap.latestZap rp.useSatsSymbol rp.useBtcSymbol d.satsVariant
          rp.verticalDesc) .none
  | .nwcBalance =>
      paint { last with nwcBalance := balanceSats snap }
        (.nwcBalance (balanceSats snap) rp.useSatsSymbol rp.useBtcSymbol d.satsVariant
          rp.verticalDesc)
        (.balance (if forceRepaint then none else last.nwcBalance))
  | .nwcPaymentNotify =>
      paint last
        (.nwcPaymentNotify snap.nwcLastPayment rp.useSatsSymbol rp.useBtcSymbol
          d.satsVariant rp.verticalDesc) .none
  | .debug | .otaUpdate => (last, none)

/-- The preferences in effect: a marker which the digit font lacks is not shown. -/
def effectivePrefs (prefs : Prefs) (digitFontHasBtcSign : Bool) : RenderPrefs :=
  resolveSymbolMode (readRenderPrefs prefs) digitFontHasBtcSign

/-- The time of the last full refresh after the next paint, and whether that paint is
one. -/
def refreshDecision (d : Display) (rp : RenderPrefs) (now : Moment) : ℤ × Bool :=
  RefreshPolicy.decide d.last.lastFullRefreshMs now.ms d.manager.screenChangePending
    d.manager.dirty rp.refrScrnChange rp.fullRefreshMin

/-- Is every cell to be painted? -/
def forceRepaint (d : Display) (rp : RenderPrefs) (now : Moment) : Bool :=
  (d.refreshDecision rp now).2 || d.manager.screenChangePending || d.manager.dirty

def stamped (d : Display) (lastFullRefreshMs : ℤ) : Display :=
  { d with last := { d.last with lastFullRefreshMs := lastFullRefreshMs } }

/-- The manager after a paint which remembers `last`. -/
def painted (d : Display) (last : LastRendered) : Display :=
  { d with manager := d.manager.paintDone, last := last }

/-- `Render`: the manager after the paint, and the call of the renderer, if any.  Both
repaint requests are served even where the snapshot lacks the data. -/
def render (d : Display) (prefs : Prefs) (digitFontHasBtcSign : Bool) (now : Moment)
    (snap : DataSnapshot) : Display × Option RenderCall :=
  if d.manager.otaActive then (d, none)
  else if d.manager.debugMode then (d, none)
  else
    let rp := effectivePrefs prefs digitFontHasBtcSign
    let decision := d.refreshDecision rp now
    let result :=
      (d.stamped decision.1).renderKind rp now snap (d.forceRepaint rp now) decision.2
    (d.painted result.1, result.2)

/-- `RenderDebug`: the next paint of a screen is a full one. -/
def renderDebug (d : Display) (prefs : Prefs) (nowMs : ℤ) (forceFull : Bool) : Display :=
  let rp := readRenderPrefs prefs
  let decision :=
    RefreshPolicy.decide d.last.lastFullRefreshMs nowMs forceFull forceFull
      rp.refrScrnChange rp.fullRefreshMin
  { d with
    manager := d.manager.markDirty
    last := { d.last with
      lastFullRefreshMs := decision.1
      height := 0
      price := ""
      fee := -1.0
      capHeight := 0
      capPrice := ""
      poolHashrate := {}
      poolEarnings := {}
      clockValid := false
      bitaxeHashrate := ""
      bitaxeBestDiff := "" } }

@[simp]
theorem currentPrice_painted (d : Display) (last : LastRendered) (snap : DataSnapshot) :
    (d.painted last).currentPrice snap = d.currentPrice snap :=
  rfl

@[simp]
theorem currentKind_painted (d : Display) (last : LastRendered) :
    (d.painted last).manager.currentKind = d.manager.currentKind :=
  rfl

@[simp]
theorem manager_stamped (d : Display) (t : ℤ) : (d.stamped t).manager = d.manager :=
  rfl

@[simp]
theorem painted_stamped (d : Display) (t : ℤ) (last : LastRendered) :
    (d.stamped t).painted last = d.painted last :=
  rfl

end Display

end BtClock
