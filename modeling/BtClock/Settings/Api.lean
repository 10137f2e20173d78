import BtClock.Data.Json
import BtClock.Settings.NostrConfig

/-!
# The settings interface

What the two requests of the settings interface take beside the store, and the result of a
PATCH.
-/

namespace BtClock

namespace Settings

structure AvailableFontOption where
  id : String
  hasBtcSymbol : Bool := true
  deriving DecidableEq, Repr

structure ScreenInfo where
  id : Int32
  name : String
  defaultVisible : Bool := true
  deriving DecidableEq, Repr

/-- The facts about the device which do not come from the store. -/
structure DeviceContext where
  hostname : String := ""
  ip : String := ""
  wifiMac : String := ""
  txPower : Int32 := 0
  numScreens : Int32 := 3
  hasFrontlight : Bool := false
  hasLightLevel : Bool := false
  lightLevel : Float32 := 0
  hwRev : String := ""
  fsRev : String := ""
  gitRev : String := ""
  gitTag : String := ""
  lastBuildTimeUnix : Int64 := 0
  availableFonts : List AvailableFontOption := []
  availablePools : List String := []
  availableCurrencies : List String := []
  screens : List ScreenInfo := []
  hiddenScreenIds : List Int32 := []
  miningPoolStatsEnabled : Bool := true
  bitaxeEnabled : Bool := true
  nwcEnabled : Bool := true

/-- The screens which are left out, for want of the capability or of the feature. -/
def DeviceContext.hidden (ctx : DeviceContext) : List Int32 :=
  ctx.hiddenScreenIds ++
    (if ctx.miningPoolStatsEnabled then [] else [70, 71, 72]) ++
    (if ctx.bitaxeEnabled then [] else [80, 81]) ++
    (if ctx.nwcEnabled then [] else [90])

/-- The key of the visibility of a screen, in a buffer of 24 bytes. -/
def visibleKey (id : Int32) : String :=
  String.ofList (("screen" ++ toString id ++ "Visible").toList.take 23)

theorem visibleKey_head (id : Int32) : (visibleKey id).toList.head? = some 's' := by
  simp [visibleKey]

inductive PatchStatus
  | ok
  | badRequest
  | badField
  deriving DecidableEq, Repr

structure PatchError where
  status : PatchStatus
  error : String
  /-- An error is never reported as a success. -/
  status_ne_ok : status ≠ .ok
  deriving DecidableEq, Repr

def badRequest (error : String) : PatchError :=
  { status := .badRequest, error := error, status_ne_ok := nofun }

def badField (error : String) : PatchError :=
  { status := .badField, error := error, status_ne_ok := nofun }

structure PatchResult where
  status : PatchStatus := .ok
  rebootRequired : Bool := false
  error : String := ""
  /-- The keys which the call changed. -/
  touchedKeys : List String := []
  deriving DecidableEq, Repr

end Settings

end BtClock
