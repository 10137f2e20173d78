import BtClock.Arith.Double
import BtClock.Nwc.Uri
import BtClock.Settings.Api

/-!
# The PATCH request

A body is applied block by block: first its members in their order, then one block for each
field with a form of its own.  A block validates its field and then writes it, before the
next block is looked at.
-/

namespace BtClock

namespace Settings

open Nwc (looksLikeRelay parsePairingUri isHexString)

/-- What an accepted block does. -/
structure Effect where
  writes : List PrefsWrite := []
  touchedKeys : List String := []
  rebootRequired : Bool := false

abbrev PatchBlock := Prefs → Except PatchError Effect

/-- A block whose checks do not look at the store. -/
def validated {α : Type} (check : Except PatchError α) (effect : α → Prefs → Effect) :
    PatchBlock :=
  fun prefs => check.map fun a => effect a prefs

/-- A block without checks. -/
def accepted (effect : Prefs → Effect) : PatchBlock :=
  fun prefs => .ok (effect prefs)

/-- A block whose field is not in the body. -/
def skip : PatchBlock :=
  accepted fun _ => {}

/-! ### A single field -/

def kDefaultStringMaxLen : ℕ := 256

def hasControlBytes (s : String) : Bool :=
  s.toList.any fun c => c.toNat < 0x20 || c.toNat = 0x7F

inductive ApplyOutcome
  | rejected
  | unchanged
  | changed (write : PrefsWrite)
  deriving DecidableEq, Repr

def applyString (f : FieldSpec) (s : String) (prefs : Prefs) : ApplyOutcome :=
  let cap := if f.maxValue > 0 then f.maxValue.toNat else kDefaultStringMaxLen
  if s.length > cap then .rejected
  else if hasControlBytes s then .rejected
  else if prefs.getString f.key f.defaultStr = s then .unchanged
  else .changed (.setString f.key s)

def applyUint (f : FieldSpec) (d : Float) (prefs : Prefs) : ApplyOutcome :=
  if d < 0 then .rejected
  else if f.maxValue ≠ 0 ∧ Float.ofNat f.maxValue.toNat < d then .rejected
  else if f.minValue ≠ 0 ∧ d < Float.ofNat f.minValue.toNat then .rejected
  else if prefs.getU32 f.key f.defaultInt.toUInt32 = Double.castUInt32 d then .unchanged
  else .changed (.setU32 f.key (Double.castUInt32 d))

def applyInt (f : FieldSpec) (d : Float) (prefs : Prefs) : ApplyOutcome :=
  if prefs.getI32 f.key f.defaultInt = Double.castInt32 d then .unchanged
  else .changed (.setI32 f.key (Double.castInt32 d))

/-- The lower bound is not looked at. -/
def applyUChar (f : FieldSpec) (d : Float) (prefs : Prefs) : ApplyOutcome :=
  let next := (Double.castUInt32 d).toUInt8
  if d < 0 then .rejected
  else if f.maxValue ≠ 0 ∧ Float.ofNat f.maxValue.toNat < d then .rejected
  else if prefs.getU8 f.key f.defaultInt.toUInt32.toUInt8 = next then .unchanged
  else .changed (.setU8 f.key next)

def applyBool (f : FieldSpec) (next : Bool) (prefs : Prefs) : ApplyOutcome :=
  if prefs.getBool f.key f.defaultBool = next then .unchanged
  else .changed (.setBool f.key next)

def applyScalar (f : FieldSpec) (v : Json) (prefs : Prefs) : ApplyOutcome :=
  match f.kind, v with
  | .string, .string s => applyString f s prefs
  | .uint, .number d => applyUint f d prefs
  | .int, .number d => applyInt f d prefs
  | .uChar, .number d => applyUChar f d prefs
  | .bool, .bool b => applyBool f b prefs
  | _, _ => .rejected

def isNumber : Json → Bool
  | .number _ => true
  | _ => false

/-- The error for a rejected field. -/
def rejection (spec : FieldSpec) (item : Json) : PatchError :=
  if spec.minValue ≠ 0 ∨ spec.maxValue ≠ 0 then
    if isNumber item = false ∧ spec.kind ≠ .bool ∧ spec.kind ≠ .string then
      badField (spec.key ++ ":bad_type")
    else badRequest ("range:" ++ spec.key)
  else badField (spec.key ++ ":bad_type")

/-! ### The members of the body -/

def kFontName : String := "fontName"

def kMiningPoolName : String := "miningPoolName"

def kNostrPubKey : String := "nostrPubKey"

def kNwcEnabled : String := "nwcEnabled"

def kNwcUri : String := "nwcUri"

/-- The keys with a block of their own, and the offsets, which are ignored. -/
def handledBelow : List String :=
  ["screens", "dnd", "actCurrencies", "timePerScreen", "txPower", "invertedColor",
    "nostrZapPubkey", "nostrZapPubkeys", "nostrRelays", "tzOffset", "gmtOffset"]

/-- An empty catalogue disables the check. -/
def checkCatalog (key : String) (options : List String) (item : Json) :
    Except PatchError Unit :=
  if options = [] then .ok ()
  else
    match item with
    | .string s => if s ∈ options then .ok () else .error (badField (key ++ ":unknown"))
    | _ => .error (badField (key ++ ":bad_type"))

def checkNostrRelay (item : Json) : Except PatchError Unit :=
  match item with
  | .string s =>
      if s ≠ "" ∧ looksLikeRelay s = false then
        .error (badField (kNostrRelay ++ ":bad_scheme"))
      else .ok ()
  | _ => .error (badField (kNostrRelay ++ ":bad_type"))

def isNonemptyString : Json → Bool
  | .string s => s ≠ ""
  | _ => false

/-- The number of relays in the body's list, in the stored list `csv` without one. -/
def relayCount (root : Json) (csv : String) : ℕ :=
  match root.getObjectItem kNostrRelays with
  | some (.array items) => items.countP isNonemptyString
  | _ => (splitCsv csv).length

def checkNwcEnabled (root : Json) (csv : String) (item : Json) : Except PatchError Unit :=
  match item with
  | .bool true =>
      if relayCount root csv + 1 > kMaxNostrRelays then
        .error (badField "nwcEnabled:exceeds_relay_budget")
      else .ok ()
  | _ => .ok ()

def nwcUriError : Nwc.ParseError → String
  | .badScheme => "nwcUri:bad_scheme"
  | .badPubkey => "nwcUri:bad_pubkey"
  | .badSecret => "nwcUri:bad_secret"
  | .badRelay => "nwcUri:bad_relay"
  | .badPercentEscape => "nwcUri:bad_escape"

def checkNwcUri (item : Json) : Except PatchError Unit :=
  match item with
  | .string s =>
      if s = "" then .ok ()
      else
        match parsePairingUri s with
        | .ok _ => .ok ()
        | .error e => .error (badField (nwcUriError e))
  | _ => .error (badField (kNwcUri ++ ":bad_type"))

/-- A public key of 64 hex digits. -/
def checkPubkey (key s : String) : Except PatchError Unit :=
  if s.length ≠ 64 then .error (badField (key ++ ":bad_length"))
  else if isHexString s.toList = false then .error (badField (key ++ ":bad_hex"))
  else .ok ()

def checkNostrPubKey (item : Json) : Except PatchError Unit :=
  match item with
  | .string s => if s = "" then .ok () else checkPubkey kNostrPubKey s
  | _ => .error (badField (kNostrPubKey ++ ":bad_type"))

/-- The checks of a member beyond its type and range; `csv` is the stored list of relays. -/
def checkMember (ctx : DeviceContext) (root : Json) (csv : String) (key : String)
    (item : Json) : Except PatchError Unit :=
  if key = kFontName then
    checkCatalog key (ctx.availableFonts.map AvailableFontOption.id) item
  else if key = kMiningPoolName then checkCatalog key ctx.availablePools item
  else if key = kNostrRelay then checkNostrRelay item
  else if key = kNwcEnabled then checkNwcEnabled root csv item
  else if key = kNwcUri then checkNwcUri item
  else if key = kNostrPubKey then checkNostrPubKey item
  else .ok ()

def patchField (ctx : DeviceContext) (root : Json) (spec : FieldSpec) (key : String)
    (item : Json) : PatchBlock :=
  fun prefs =>
    match checkMember ctx root (relayCsv prefs) key item with
    | .error e => .error e
    | .ok () =>
        match applyScalar spec item prefs with
        | .rejected => .error (rejection spec item)
        | .unchanged => .ok {}
        | .changed w =>
            .ok { writes := [w], touchedKeys := [key], rebootRequired := spec.bootOnly }

/-- One step of the walk over the members; a key which is not known is ignored. -/
def patchMember (ctx : DeviceContext) (root : Json) (m : String × Json) : PatchBlock :=
  if m.1 ∈ handledBelow then skip
  else
    match findField m.1 with
    | none => skip
    | some spec => patchField ctx root spec m.1 m.2

/-! ### The fields with a block of their own -/

def kInvertedColor : String := "invertedColor"

def kTimerSeconds : String := "timerSeconds"

def kTxPower : String := "txPower"

def kActCurrencies : String := "actCurrencies"

def kNostrZapPubkey : String := "nostrZapPubkey"

def kNostrZapPubkeys : String := "nostrZapPubkeys"

def kScreenOrder : String := "screenOrder"

def kDndTimeEnabled : String := "dndTimeEnabled"

def kDndStartHour : String := "dndStartHour"

def kDndStartMin : String := "dndStartMin"

def kDndEndHour : String := "dndEndHour"

def kDndEndMin : String := "dndEndMin"

/-- Stores a string which differs from the stored one. -/
def storeString (key defaultValue value : String) (bootOnly : Bool) (prefs : Prefs) :
    Effect :=
  if prefs.getString key defaultValue ≠ value then
    { writes := [.setString key value], touchedKeys := [key], rebootRequired := bootOnly }
  else {}

/-- The two colours follow the polarity. -/
def storeInvertedColor (v : Bool) (prefs : Prefs) : Effect :=
  if prefs.getBool kInvertedColor false ≠ v then
    { writes :=
        [.setBool kInvertedColor v, .setU32 "fgColor" (if v then 0xFFFF else 0),
          .setU32 "bgColor" (if v then 0 else 0xFFFF)]
      touchedKeys := [kInvertedColor] }
  else {}

def patchInvertedColor (root : Json) : PatchBlock :=
  match root.getObjectItem kInvertedColor with
  | some (.bool v) => accepted (storeInvertedColor v)
  | _ => skip

/-- The minutes are stored as seconds. -/
def storeTimePerScreen (minutes : Float) (prefs : Prefs) : Effect :=
  let next := Double.castUInt32 (minutes * 60)
  if 0 < minutes ∧ minutes ≤ 3600 then
    if prefs.getU32 kTimerSeconds 0 ≠ next then
      { writes := [.setU32 kTimerSeconds next], touchedKeys := [kTimerSeconds] }
    else {}
  else {}

def patchTimePerScreen (root : Json) : PatchBlock :=
  match root.getObjectItem "timePerScreen" with
  | some (.number d) => accepted (storeTimePerScreen d)
  | _ => skip

/-- The value 80 resets the power, so it removes the key. -/
def storeTxPower (raw : Int32) (prefs : Prefs) : Effect :=
  let a := prefs.getI32 kTxPower 12345
  let absent := a = 12345 ∧ prefs.getI32 kTxPower 67890 = 67890
  if raw = 80 then
    if absent then {} else { writes := [.remove kTxPower], touchedKeys := [kTxPower] }
  else if -1 ≤ raw ∧ raw ≤ 78 ∧ (absent ∨ a ≠ raw) then
    { writes := [.setI32 kTxPower raw], touchedKeys := [kTxPower] }
  else {}

def patchTxPower (root : Json) : PatchBlock :=
  match root.getObjectItem kTxPower with
  | some (.number d) => accepted (storeTxPower (Double.castInt32 d))
  | _ => skip

/-- A currency which is not known is dropped. -/
def joinCurrencies (valid : List String) : List Json → String → Except PatchError String
  | [], joined => .ok joined
  | .string code :: items, joined =>
      if valid ≠ [] ∧ code ∉ valid then joinCurrencies valid items joined
      else joinCurrencies valid items (appendCsv joined code)
  | _ :: _, _ => .error (badRequest "currency:not_string")

def patchActCurrencies (ctx : DeviceContext) (root : Json) : PatchBlock :=
  match root.getObjectItem kActCurrencies with
  | some (.array items) =>
      validated (joinCurrencies ctx.availableCurrencies items "") fun joined =>
        storeString kActCurrencies "USD,EUR,JPY" joined false
  | _ => skip

/-- The legacy key stands for a list of one, unless the list is in the body. -/
def patchZapPubkey (root : Json) : PatchBlock :=
  match root.getObjectItem kNostrZapPubkeys, root.getObjectItem kNostrZapPubkey with
  | some (.array _), _ => skip
  | _, some (.string s) =>
      validated (if s = "" then .ok () else checkPubkey kNostrZapPubkey s) fun _ =>
        storeString kNostrZapPubkeys "" s false
  | _, _ => skip

/-- Blank entries are ignored. -/
def joinPubkeys : List Json → ℕ → String → Except PatchError String
  | [], _, joined => .ok joined
  | .string s :: items, count, joined =>
      if s = "" then joinPubkeys items count joined
      else
        match checkPubkey kNostrZapPubkeys s with
        | .error e => .error e
        | .ok () =>
            if count + 1 > kMaxZapPubkeys then
              .error (badField (kNostrZapPubkeys ++ ":too_many"))
            else joinPubkeys items (count + 1) (appendCsv joined s)
  | _ :: _, _, _ => .error (badField (kNostrZapPubkeys ++ ":not_string"))

def patchZapPubkeys (root : Json) : PatchBlock :=
  match root.getObjectItem kNostrZapPubkeys with
  | some (.array items) =>
      validated (joinPubkeys items 0 "") fun joined =>
        storeString kNostrZapPubkeys "" joined false
  | _ => skip

/-- The legacy key stands for a list of one, unless the list is in the body. -/
def patchRelay (root : Json) : PatchBlock :=
  match root.getObjectItem kNostrRelays, root.getObjectItem kNostrRelay with
  | some (.array _), _ => skip
  | _, some (.string s) => accepted (storeString kNostrRelays "" s true)
  | _, _ => skip

/-- The number of relays and the list; blank entries are ignored. -/
def joinRelays : List Json → ℕ → String → Except PatchError (ℕ × String)
  | [], count, joined => .ok (count, joined)
  | .string s :: items, count, joined =>
      if s = "" then joinRelays items count joined
      else if looksLikeRelay s = false then
        .error (badField (kNostrRelays ++ ":bad_scheme"))
      else if count + 1 > kMaxNostrRelays then
        .error (badField (kNostrRelays ++ ":too_many"))
      else joinRelays items (count + 1) (appendCsv joined s)
  | _ :: _, _, _ => .error (badField (kNostrRelays ++ ":not_string"))

/-- Whether NWC is enabled once the body is applied. -/
def nwcAfter (root : Json) (prefs : Prefs) : Bool :=
  match root.getObjectItem kNwcEnabled with
  | some (.bool b) => b
  | _ => prefs.getBool kNwcEnabled false

def checkRelays (items : List Json) (nwc : Bool) : Except PatchError String :=
  match joinRelays items 0 "" with
  | .error e => .error e
  | .ok (count, joined) =>
      if nwc ∧ count + 1 > kMaxNostrRelays then
        .error (badField (kNostrRelays ++ ":exceeds_nwc_budget"))
      else .ok joined

def patchRelays (root : Json) : PatchBlock :=
  match root.getObjectItem kNostrRelays with
  | some (.array items) => fun prefs =>
      validated (checkRelays items (nwcAfter root prefs))
        (fun joined => storeString kNostrRelays "" joined true) prefs
  | _ => skip

/-- The pairs of order and id of a full reorder. -/
def readOrders (catalog : List Int32) (len : ℕ) :
    List Json → List (Int32 × Int32) → Except PatchError (List (Int32 × Int32))
  | [], pairs => .ok pairs
  | s :: entries, pairs =>
      match s.getObjectItem "id", s.getObjectItem "order" with
      | some (.number id), some (.number order) =>
          let iid := Double.castInt32 id
          let iord := Double.castInt32 order
          if catalog ≠ [] ∧ iid ∉ catalog then .error (badRequest "screens:unknown_id")
          else if iid ∈ pairs.map Prod.snd then .error (badRequest "screens:dup_id")
          else if iord < 0 ∨ (len : ℤ) ≤ iord.toInt then
            .error (badRequest "screens:order_range")
          else if iord ∈ pairs.map Prod.fst then .error (badRequest "screens:dup_order")
          else readOrders catalog len entries (pairs ++ [(iord, iid)])
      | _, _ => .error (badRequest "screens:bad_entry")

def orderCsv (pairs : List (Int32 × Int32)) : String :=
  (pairs.mergeSort fun p q => p.1 < q.1 || (p.1 = q.1 && p.2 ≤ q.2)).foldl
    (fun csv p => appendCsv csv (toString p.2)) ""

def hasOrder (s : Json) : Bool :=
  match s.getObjectItem "order" with
  | some (.number _) => true
  | _ => false

/-- The order of the screens, which covers the visible ones or all of them; nothing
without an order in any entry. -/
def checkScreenOrder (ctx : DeviceContext) (entries : List Json) :
    Except PatchError (Option String) :=
  let catalog := (ctx.screens.map ScreenInfo.id).dedup
  let effectiveCatalog := catalog.filter fun id => id ∉ ctx.hidden
  if entries.any hasOrder ∧ entries.all hasOrder = false then
    .error (badRequest "screens:partial_order")
  else if entries.any hasOrder then
    match readOrders catalog entries.length entries [] with
    | .error e => .error e
    | .ok pairs =>
        if catalog ≠ [] ∧ pairs.length ≠ effectiveCatalog.length ∧
            pairs.length ≠ catalog.length then
          .error (badRequest "screens:incomplete")
        else .ok (some (orderCsv pairs))
  else .ok none

def screenEntries (root : Json) : List Json :=
  match root.getObjectItem "screens" with
  | some (.array entries) => entries
  | _ => []

def patchScreenOrder (ctx : DeviceContext) (root : Json) : PatchBlock :=
  validated (checkScreenOrder ctx (screenEntries root)) fun csv prefs =>
    match csv with
    | some csv => storeString kScreenOrder "" csv false prefs
    | none => {}

def defaultVisible (ctx : DeviceContext) (id : Int32) : Bool :=
  match ctx.screens.find? fun cs => cs.id == id with
  | some cs => cs.defaultVisible
  | none => true

/-- Any id is taken, of a screen or not. -/
def storeVisible (ctx : DeviceContext) (id : Int32) (next : Bool) (prefs : Prefs) : Effect :=
  if prefs.getBool (visibleKey id) (defaultVisible ctx id) ≠ next then
    { writes := [.setBool (visibleKey id) next], touchedKeys := [visibleKey id] }
  else {}

def patchVisible (ctx : DeviceContext) (s : Json) : PatchBlock :=
  match s.getObjectItem "id", s.getObjectItem "enabled" with
  | some (.number id), some (.bool next) =>
      accepted (storeVisible ctx (Double.castInt32 id) next)
  | _, _ => skip

def storeDndTimeEnabled (next : Bool) (prefs : Prefs) : Effect :=
  if prefs.getBool kDndTimeEnabled false ≠ next then
    { writes := [.setBool kDndTimeEnabled next], touchedKeys := [kDndTimeEnabled] }
  else {}

/-- The `dnd` member, which counts as an object only. -/
def dndMember (root : Json) (key : String) : Option Json :=
  (root.getObjectItem "dnd").bind fun dnd => dnd.getObjectItem key

def patchDndTimeEnabled (root : Json) : PatchBlock :=
  match dndMember root "dndTimeEnabled" with
  | some (.bool next) => accepted (storeDndTimeEnabled next)
  | _ => skip

def inRange (v : Float) (lo hi : Float) : Bool :=
  lo ≤ v && v ≤ hi

structure DndTimes where
  startHour : UInt32
  startMinute : UInt32
  endHour : UInt32
  endMinute : UInt32
  deriving DecidableEq, Repr

def checkDnd (sh sm eh em : Float) : Except PatchError DndTimes :=
  if inRange sh 0 23 && inRange eh 0 23 && inRange sm 0 59 && inRange em 0 59 then
    .ok
      { startHour := Double.castUInt32 sh
        startMinute := Double.castUInt32 sm
        endHour := Double.castUInt32 eh
        endMinute := Double.castUInt32 em }
  else .error (badRequest "dnd:range")

/-- The four numbers are written together. -/
def storeDnd (t : DndTimes) (prefs : Prefs) : Effect :=
  if prefs.getU32 kDndStartHour 22 ≠ t.startHour ∨
      prefs.getU32 kDndStartMin 0 ≠ t.startMinute ∨
      prefs.getU32 kDndEndHour 7 ≠ t.endHour ∨ prefs.getU32 kDndEndMin 0 ≠ t.endMinute then
    { writes :=
        [.setU32 kDndStartHour t.startHour, .setU32 kDndStartMin t.startMinute,
          .setU32 kDndEndHour t.endHour, .setU32 kDndEndMin t.endMinute]
      touchedKeys := [kDndStartHour] }
  else {}

/-- All four numbers or none. -/
def patchDnd (root : Json) : PatchBlock :=
  match dndMember root "startHour", dndMember root "startMinute",
    dndMember root "endHour", dndMember root "endMinute" with
  | some (.number sh), some (.number sm), some (.number eh), some (.number em) =>
      validated (checkDnd sh sm eh em) storeDnd
  | _, _, _, _ => skip

/-! ### The whole body -/

/-- The blocks after the walk over the members, up to the list of relays. -/
def listBlocks (ctx : DeviceContext) (root : Json) : List PatchBlock :=
  [patchInvertedColor root, patchTimePerScreen root, patchTxPower root,
    patchActCurrencies ctx root, patchZapPubkey root, patchZapPubkeys root, patchRelay root,
    patchRelays root]

/-- The blocks of the nested members. -/
def nestedBlocks (ctx : DeviceContext) (root : Json) : List PatchBlock :=
  patchScreenOrder ctx root :: (screenEntries root).map (patchVisible ctx) ++
    [patchDndTimeEnabled root, patchDnd root]

def memberBlocks (ctx : DeviceContext) (members : List (String × Json)) :
    List PatchBlock :=
  members.map (patchMember ctx (.object members))

def blocks (ctx : DeviceContext) (members : List (String × Json)) : List PatchBlock :=
  memberBlocks ctx members ++ listBlocks ctx (.object members) ++
    nestedBlocks ctx (.object members)

structure PatchOutcome where
  result : PatchResult := {}
  /-- The calls of the writer, in their order. -/
  writes : List PrefsWrite := []

/-- The first rejected block ends the call; what was written before stays. -/
def runBlocks : List PatchBlock → Prefs → PatchOutcome
  | [], _ => {}
  | block :: rest, prefs =>
      match block prefs with
      | .error e => { result := { status := e.status, error := e.error } }
      | .ok effect =>
          let out := runBlocks rest (applyWrites prefs effect.writes)
          { result :=
              { out.result with
                rebootRequired := effect.rebootRequired || out.result.rebootRequired
                touchedKeys := effect.touchedKeys ++ out.result.touchedKeys }
            writes := effect.writes ++ out.writes }

/-- A PATCH request with the parsed body, if it parses. -/
def applyPatch (ctx : DeviceContext) (body : Option Json) (prefs : Prefs) : PatchOutcome :=
  match body with
  | none => { result := { status := .badRequest, error := "json" } }
  | some (.object members) => runBlocks (blocks ctx members) prefs
  | some _ => { result := { status := .badRequest, error := "not_object" } }

end Settings

end BtClock
