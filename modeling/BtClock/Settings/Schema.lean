import BtClock.Settings.Prefs
import Mathlib.Data.List.Basic

/-!
# The settings schema

The table of the fields which the settings interface knows, and the readers which take
their default from it.
-/

namespace BtClock

namespace Settings

inductive FieldKind
  | string
  | uint
  | int
  | bool
  | uChar
  deriving DecidableEq, Repr

structure FieldSpec where
  key : String
  kind : FieldKind
  /-- A change takes effect after a reboot only. -/
  bootOnly : Bool := false
  /-- Both bounds are zero for a field without a range. -/
  minValue : UInt32 := 0
  maxValue : UInt32 := 0
  defaultBool : Bool := false
  defaultInt : Int32 := 0
  defaultStr : String := ""
  deriving DecidableEq, Repr

def kFields : List FieldSpec :=
  [ { key := "actCurrencies", kind := .string, defaultStr := "USD,EUR,JPY" },
    { key := "bitaxeEnabled", kind := .bool },
    { key := "bitaxeHostname", kind := .string, defaultStr := "bitaxe1" },
    { key := "bitaxePollSec", kind := .uint, minValue := 5, maxValue := 300,
      defaultInt := 10 },
    { key := "blockFeeDec", kind := .bool, defaultBool := true },
    { key := "blockFlashColor", kind := .uint, maxValue := 0xFFFFFF,
      defaultInt := 0xE04300 },
    { key := "ceDisableSSL", kind := .bool, bootOnly := true },
    { key := "ceEndpoint", kind := .string, bootOnly := true,
      defaultStr := "ws-staging.btclock.dev" },
    { key := "dataSource", kind := .uChar, bootOnly := true, maxValue := 3 },
    { key := "digitFontPx", kind := .uint, minValue := 80, maxValue := 220,
      defaultInt := 180 },
    { key := "labelFitPct", kind := .uint, minValue := 25, maxValue := 100,
      defaultInt := 100 },
    { key := "disableLeds", kind := .bool },
    { key := "dndEnabled", kind := .bool },
    { key := "dndEndHour", kind := .uint, maxValue := 23, defaultInt := 7 },
    { key := "dndEndMin", kind := .uint, maxValue := 59 },
    { key := "dndStartHour", kind := .uint, maxValue := 23, defaultInt := 22 },
    { key := "dndStartMin", kind := .uint, maxValue := 59 },
    { key := "dndTimeEnabled", kind := .bool },
    { key := "enableDebugLog", kind := .bool, bootOnly := true },
    { key := "flAlwaysOn", kind := .bool, defaultBool := true },
    { key := "flDisable", kind := .bool },
    { key := "flEffectDelay", kind := .uint, maxValue := 1000, defaultInt := 15 },
    { key := "flFlashOnUpd", kind := .bool, defaultBool := true },
    { key := "flFlashOnZap", kind := .bool, defaultBool := true },
    { key := "flMaxBrightness", kind := .uint, maxValue := 65535, defaultInt := 2048 },
    { key := "flOffOnDnd", kind := .bool, defaultBool := true },
    { key := "flOffWhenDark", kind := .bool, defaultBool := true },
    { key := "fontName", kind := .string, defaultStr := "antonio" },
    { key := "fullRefreshMin", kind := .uint, maxValue := 1440, defaultInt := 60 },
    { key := "gitReleaseUrl", kind := .string,
      defaultStr := "https://git.btclock.dev/api/v1/repos/btclock/btclock_v4/releases/latest" },
    { key := "hideLeadZero", kind := .bool },
    { key := "hostnamePrefix", kind := .string, defaultStr := "btclock" },
    { key := "httpAuthEnabled", kind := .bool, bootOnly := true },
    { key := "httpAuthPass", kind := .string, bootOnly := true },
    { key := "httpAuthUser", kind := .string, bootOnly := true, defaultStr := "btclock" },
    { key := "inverseButtons", kind := .bool },
    { key := "invertedColor", kind := .bool },
    { key := "ledBrightness", kind := .uint, maxValue := 255, defaultInt := 128 },
    { key := "ledFlashOnUpd", kind := .bool, defaultBool := true },
    { key := "ledFlashOnZap", kind := .bool, defaultBool := true },
    { key := "ledTestOnPower", kind := .bool, defaultBool := true },
    { key := "localPoolHost", kind := .string, bootOnly := true,
      defaultStr := "umbrel.local:2019" },
    { key := "luxLightToggle", kind := .uint, maxValue := 65535, defaultInt := 128 },
    { key := "mcapBigChar", kind := .bool, defaultBool := true },
    { key := "mdnsEnabled", kind := .bool, defaultBool := true },
    { key := "mempoolInstance", kind := .string, bootOnly := true,
      defaultStr := "mempool.space" },
    { key := "mempoolSecure", kind := .bool, bootOnly := true, defaultBool := true },
    { key := "minSecPriceUpd", kind := .uint, minValue := 1, maxValue := 3600,
      defaultInt := 30 },
    { key := "miningPoolName", kind := .string, defaultStr := "noderunners" },
    { key := "miningPoolStats", kind := .bool },
    { key := "miningPoolUser", kind := .string,
      defaultStr := "38Qkkei3SuF1Eo45BaYmRHUneRD54yyTFy" },
    { key := "poolWorker", kind := .string },
    { key := "mowMode", kind := .bool },
    { key := "nostrPubKey", kind := .string, bootOnly := true,
      defaultStr := "642317135fd4c4205323b9dea8af3270657e62d51dc31a657c0ec8aab31c6288" },
    { key := "nostrRelay", kind := .string, bootOnly := true,
      defaultStr := "wss://relay.primal.net" },
    { key := "nostrRelays", kind := .string, bootOnly := true },
    { key := "nostrZapNotify", kind := .bool },
    { key := "nostrZapPubkey", kind := .string,
      defaultStr := "b5127a08cf33616274800a4387881a9f98e04b9c37116e92de5250498635c422" },
    { key := "nostrZapPubkeys", kind := .string },
    { key := "nwcUri", kind := .string, bootOnly := true },
    { key := "nwcEnabled", kind := .bool, bootOnly := true },
    { key := "nwcRefreshSecs", kind := .uint, bootOnly := true, minValue := 15, maxValue := 3600,
      defaultInt := 60 },
    { key := "nwcFlashOnPay", kind := .bool, defaultBool := true },
    { key := "nwcShowNotify", kind := .bool, defaultBool := true },
    { key := "otaEnabled", kind := .bool, bootOnly := true, defaultBool := true },
    { key := "otaPass", kind := .string, bootOnly := true },
    { key := "poolGlobalStats", kind := .bool, defaultBool := true },
    { key := "poolLogosUrl", kind := .string,
      defaultStr := "https://git.btclock.dev/btclock/mining-pool-logos/raw/branch/main" },
    { key := "poolPollSec", kind := .uint, minValue := 10, maxValue := 3600,
      defaultInt := 60 },
    { key := "priceSymMode", kind := .uint, maxValue := 2 },
    { key := "proxyEnabled", kind := .bool },
    { key := "proxyType", kind := .uChar, maxValue := 4 },
    { key := "proxyHost", kind := .string },
    { key := "proxyPort", kind := .uint, minValue := 1, maxValue := 65535,
      defaultInt := 1080 },
    { key := "proxyUser", kind := .string },
    { key := "proxyPass", kind := .string },
    { key := "proxyBypass", kind := .string,
      defaultStr := "*.local,192.168.*,10.*,127.0.0.1" },
    { key := "refrScrnChange", kind := .bool },
    { key := "satsVariant", kind := .uint, maxValue := 15, defaultInt := 7 },
    { key := "scrnRestoreZap", kind := .bool, defaultBool := true },
    { key := "stealFocus", kind := .bool, defaultBool := true },
    { key := "suffixPrice", kind := .bool },
    { key := "decimalShareDot", kind := .bool },
    { key := "supplyPercent", kind := .bool },
    { key := "tzString", kind := .string, defaultStr := "Europe/Amsterdam" },
    { key := "useBlkCountdown", kind := .bool, defaultBool := true },
    { key := "useMscwTime", kind := .bool, defaultBool := true },
    { key := "verticalDesc", kind := .bool, defaultBool := true },
    { key := "wifiRebootMin", kind := .uint, maxValue := 120, defaultInt := 10 },
    { key := "wpTimeout", kind := .uint, bootOnly := true, maxValue := 3600,
      defaultInt := 900 } ]

/-- No field has the empty key. -/
def findField (key : String) : Option FieldSpec :=
  if key = "" then none else kFields.find? fun f => f.key == key

theorem findField_eq_some {key : String} {f : FieldSpec} (h : findField key = some f) :
    f ∈ kFields ∧ f.key = key := by
  simp only [findField] at h
  split at h
  · cases h
  · exact ⟨List.mem_of_find?_eq_some h, by simpa using List.find?_some h⟩

/-- Each key stands in the table once. -/
theorem kFields_keys_nodup : (kFields.map FieldSpec.key).Nodup := by
  decide +kernel

/-- A field of the table is found under its key. -/
theorem findField_key : ∀ f ∈ kFields, findField f.key = some f := by
  decide +kernel

def defaultBoolFor (key : String) : Bool :=
  match findField key with
  | some f => if f.kind = .bool then f.defaultBool else false
  | none => false

def defaultIntFor (key : String) : Int32 :=
  match findField key with
  | some f =>
      match f.kind with
      | .uint | .int | .uChar => f.defaultInt
      | _ => 0
  | none => 0

def defaultStringFor (key : String) : String :=
  match findField key with
  | some f => if f.kind = .string then f.defaultStr else ""
  | none => ""

def readBool (prefs : Prefs) (key : String) : Bool :=
  prefs.getBool key (defaultBoolFor key)

def readU32 (prefs : Prefs) (key : String) : UInt32 :=
  prefs.getU32 key (defaultIntFor key).toUInt32

/-- A stored empty string reads as the default of the schema. -/
def readString (prefs : Prefs) (key : String) : String :=
  let out := prefs.getString key (defaultStringFor key)
  if out = "" ∧ defaultStringFor key ≠ "" then defaultStringFor key else out

theorem readString_congr {prefs prefs' : Prefs} {key : String} (h : prefs key = prefs' key) :
    readString prefs key = readString prefs' key := by
  simp only [readString, Prefs.getString_congr h]

theorem readU32_congr {prefs prefs' : Prefs} {key : String} (h : prefs key = prefs' key) :
    readU32 prefs key = readU32 prefs' key :=
  Prefs.getU32_congr h _

end Settings

end BtClock
