import BtClock.Nwc.Uri
import BtClock.Settings.Patch

/-!
# The GET request

The response holds the facts about the device and every field of the schema.  The members
which have another form, or which must not be shown, are deleted afterwards and replaced.
-/

namespace BtClock

namespace Settings

open Nwc (parsePairingUri maskedUri)

abbrev Members := List (String × Json)

/-- Deletes the first member of that name. -/
def deleteItem (key : String) (root : Members) : Members :=
  root.eraseP fun m => m.1 == key

def ofInt32 (v : Int32) : Json :=
  .number (Float.ofInt v.toInt)

def ofUInt32 (v : UInt32) : Json :=
  .number (Float.ofNat v.toNat)

def strings (items : List String) : Json :=
  .array (items.map Json.string)

def emitField (prefs : Prefs) (f : FieldSpec) : String × Json :=
  (f.key,
    match f.kind with
    | .string => .string (prefs.getString f.key f.defaultStr)
    | .uint => ofUInt32 (prefs.getU32 f.key f.defaultInt.toUInt32)
    | .int => ofInt32 (prefs.getI32 f.key f.defaultInt)
    | .uChar => ofUInt32 (prefs.getU8 f.key f.defaultInt.toUInt32.toUInt8).toUInt32
    | .bool => .bool (prefs.getBool f.key f.defaultBool))

/-- The facts of the device; an unknown revision or build time is left out. -/
def deviceFacts (ctx : DeviceContext) : Members :=
  [("numScreens", ofInt32 ctx.numScreens), ("hostname", .string ctx.hostname),
    ("ip", .string ctx.ip), ("wifiMac", .string ctx.wifiMac),
    ("txPower", ofInt32 ctx.txPower), ("hwRev", .string ctx.hwRev),
    ("fsRev", .string ctx.fsRev)] ++
    (if ctx.gitRev = "" then [] else [("gitRev", .string ctx.gitRev)]) ++
    (if ctx.gitTag = "" then [] else [("gitTag", .string ctx.gitTag)]) ++
    if 0 < ctx.lastBuildTimeUnix then
      [("lastBuildTime", .number (Float.ofInt ctx.lastBuildTimeUnix.toInt))]
    else []

def kTimerActive : String := "timerActive"

def kDefaultTimerSeconds : UInt32 := 600

/-- The minutes are rounded up. -/
def timerMembers (prefs : Prefs) : Members :=
  let timerS := prefs.getU32 kTimerSeconds kDefaultTimerSeconds
  [("timerSeconds", ofUInt32 timerS), ("timePerScreen", ofUInt32 ((timerS + 59) / 60)),
    ("timerRunning", .bool (prefs.getBool kTimerActive true))]

def catalogMembers (ctx : DeviceContext) : Members :=
  [("availableFonts", .array (ctx.availableFonts.map fun opt =>
      .object [("id", .string opt.id), ("hasBtcSymbol", .bool opt.hasBtcSymbol)])),
    ("availablePools", strings ctx.availablePools),
    ("availableCurrencies", strings ctx.availableCurrencies)]

/-- A stored currency which is no longer available is left out. -/
def emitCurrencies (ctx : DeviceContext) (prefs : Prefs) (root : Members) : Members :=
  let codes := (splitCsv (readString prefs kActCurrencies)).filter fun code =>
    ctx.availableCurrencies = [] ∨ code ∈ ctx.availableCurrencies
  deleteItem kActCurrencies root ++ [(kActCurrencies, strings codes)]

/-- A list which is stored as one string, and its first item under the legacy key. -/
def emitList (key legacyKey csv : String) (root : Members) : Members :=
  deleteItem legacyKey (deleteItem key root) ++
    [(key, strings (splitCsv csv)), (legacyKey, .string ((splitCsv csv).headD ""))]

/-- The list of public keys, the legacy slot when it is empty. -/
def zapPubkeyCsv (prefs : Prefs) : String :=
  let csv := readString prefs kNostrZapPubkeys
  if csv = "" then readString prefs kNostrZapPubkey else csv

/-- A decimal number, in the arithmetic of the integer type. -/
def parseScreenId (item : String) : Option Int32 :=
  if item.toList.all Char.isDigit then
    some (item.toList.foldl (fun v c => v * 10 + Int32.ofNat (c.toNat - '0'.toNat)) 0)
  else none

/-- The ids of the stored order which are shown, each one once. -/
def persistedOrder (ctx : DeviceContext) : List String → List Int32 → List Int32
  | [], emitted => emitted
  | item :: items, emitted =>
      match parseScreenId item with
      | none => persistedOrder ctx items emitted
      | some v =>
          if v ∉ ctx.screens.map ScreenInfo.id ∨ v ∈ ctx.hidden ∨ v ∈ emitted then
            persistedOrder ctx items emitted
          else persistedOrder ctx items (emitted ++ [v])

/-- The stored order first, then the other screens in the order of the catalogue. -/
def emittedIds (ctx : DeviceContext) (prefs : Prefs) : List Int32 :=
  let stored := persistedOrder ctx (splitCsv (prefs.getString kScreenOrder "")) []
  stored ++ (ctx.screens.map ScreenInfo.id).filter fun id =>
    id ∉ ctx.hidden ∧ id ∉ stored

/-- The last entry of the catalogue with that id. -/
def screenById (ctx : DeviceContext) (id : Int32) : Option ScreenInfo :=
  ctx.screens.reverse.find? fun s => s.id == id

def emitScreen (prefs : Prefs) (s : ScreenInfo) (order : ℕ) : Json :=
  .object
    [("id", ofInt32 s.id), ("name", .string s.name),
      ("enabled", .bool (prefs.getBool (visibleKey s.id) s.defaultVisible)),
      ("order", .number (Float.ofNat order))]

def screensMember (ctx : DeviceContext) (prefs : Prefs) : String × Json :=
  ("screens", .array (((emittedIds ctx prefs).filterMap (screenById ctx)).mapIdx fun i s =>
    emitScreen prefs s i))

def kDndEnabled : String := "dndEnabled"

def dndBlock (prefs : Prefs) : String × Json :=
  ("dnd", .object
    [("enabled", .bool (prefs.getBool kDndEnabled false)),
      ("dndTimeEnabled", .bool (prefs.getBool kDndTimeEnabled false)),
      ("startHour", ofUInt32 (readU32 prefs kDndStartHour)),
      ("startMinute", ofUInt32 (readU32 prefs kDndStartMin)),
      ("endHour", ofUInt32 (readU32 prefs kDndEndHour)),
      ("endMinute", ofUInt32 (readU32 prefs kDndEndMin))])

def frontlightMembers (ctx : DeviceContext) : Members :=
  [("hasFrontlight", .bool ctx.hasFrontlight), ("hasLightLevel", .bool ctx.hasLightLevel)] ++
    if ctx.hasLightLevel then [("lightLevel", .number ctx.lightLevel.toFloat)] else []

def kHttpAuthPass : String := "httpAuthPass"

def kOtaPass : String := "otaPass"

def kProxyPass : String := "proxyPass"

/-- Whether a secret is set. -/
def isSet (prefs : Prefs) (key : String) : Json :=
  .bool (prefs.getString key "" ≠ "")

def passwordFlags (prefs : Prefs) : Members :=
  [("httpAuthPassSet", isSet prefs kHttpAuthPass), ("otaPassSet", isSet prefs kOtaPass),
    ("proxyPassSet", isSet prefs kProxyPass)]

/-- A C string ends at the first NUL, which a percent escape can decode to. -/
def cStr (s : String) : String :=
  String.ofList (s.toList.takeWhile fun c => c.toNat ≠ 0)

/-- The masked form, if the stored URI is a pairing. -/
def nwcUriMasked (raw : String) : Members :=
  match parsePairingUri raw with
  | .ok parsed => [("nwcUriMasked", .string (cStr (maskedUri parsed)))]
  | .error _ => []

def redactNwcUri (prefs : Prefs) (root : Members) : Members :=
  let raw := prefs.getString kNwcUri ""
  deleteItem kNwcUri root ++ [("nwcUriSet", isSet prefs kNwcUri)] ++
    if raw = "" then [] else nwcUriMasked raw

def kMiningPoolUser : String := "miningPoolUser"

/-- The pools whose user is an API key. -/
def kSecretUserPools : List String :=
  ["viabtc", "foundry_usa"]

def activePool (prefs : Prefs) : String :=
  prefs.getString kMiningPoolName "noderunners"

def redactPoolUser (prefs : Prefs) (root : Members) : Members :=
  if activePool prefs ∈ kSecretUserPools then
    deleteItem kMiningPoolUser root ++ [("miningPoolUserSet", isSet prefs kMiningPoolUser)]
  else root

/-- The members before the secrets are redacted. -/
def plainMembers (ctx : DeviceContext) (prefs : Prefs) : Members :=
  let root := deviceFacts ctx ++ kFields.map (emitField prefs)
  let root := root ++ timerMembers prefs ++ catalogMembers ctx
  let root := emitCurrencies ctx prefs root
  let root := emitList kNostrRelays kNostrRelay (relayCsv prefs) root
  let root := emitList kNostrZapPubkeys kNostrZapPubkey (zapPubkeyCsv prefs) root
  root ++ [screensMember ctx prefs, dndBlock prefs] ++ frontlightMembers ctx ++
    passwordFlags prefs

def buildGetResponse (prefs : Prefs) (ctx : DeviceContext) : Json :=
  .object (redactPoolUser prefs (redactNwcUri prefs (plainMembers ctx prefs)))

end Settings

end BtClock
