import BtClock.EventLoop.Policy
import BtClock.Screen.Render
import BtClock.Screen.RotationIndex

/-!
# The application

The state which the event loop works on: the screen manager with the panels, the data
hub's snapshot, the queues and flags which the other tasks fill, and the network
coordinator.  Every action returns the paints which it made, in their order.
-/

namespace BtClock

open Data Settings

/-! ### The state -/

inductive ButtonId
  | k0
  | k1
  | k2
  | k3
  deriving DecidableEq, Repr

inductive ButtonEvent
  | click
  | longPress
  deriving DecidableEq, Repr

structure ButtonInput where
  id : ButtonId
  event : ButtonEvent
  deriving DecidableEq, Repr

/-- A command of the control interface.  A restart ends the run and is not modelled. -/
inductive ControlCommand
  | fullRefresh
  | identify
  | showScreen (argI : Int32)
  | showCurrency (argS : String)
  | nextScreen
  | prevScreen
  | stopDataSources
  | restartDataSources
  | showCustom
  | setBlockFeeDec (argI : Int32)
  | setFont
  | setTimezone
  | publishLiveStatus
  | rebuildScreens
  deriving DecidableEq, Repr

/-- Something which was painted on the panels. -/
inductive Paint
  | screen (call : RenderCall)
  | debug (forceFull : Bool)
  | otaUpdate
  | provisioning
  deriving DecidableEq

structure NetworkCoordinator where
  graceMs : UInt32 := 20000
  bootStamped : Bool := false
  bootMs : UInt32 := 0
  connectedOnce : Bool := false
  connectMs : UInt32 := 0
  bootFinalized : Bool := false
  apUp : Bool := false
  deriving DecidableEq, Repr

structure AppCtx where
  display : Display
  currencies : List String
  prefs : Prefs
  /-- Does the digit font of a font family have the bitcoin sign? -/
  digitFontHasBtcSign : String → Bool
  fontName : String
  hub : Option DataSnapshot
  commands : List ControlCommand := []
  pendingCustom : Option (List String) := none
  /-- The buttons come up at the end of the boot. -/
  buttons : Bool := false
  buttonQ : List ButtonInput := []
  notified : Bool := false
  zapNotifyPending : Bool := false
  zapScreenAutoRestore : Bool := true
  nwcNotifyPending : Bool := false
  nwcNotifyAutoRestore : Bool := true
  otaOverlayRenderPending : Bool := false
  lastDebugRenderMs : ℤ := 0
  netCoordinator : Option NetworkCoordinator := none
  apMode : Bool := false

namespace AppCtx

def sm (ctx : AppCtx) : ScreenManager :=
  ctx.display.manager

def withManager (ctx : AppCtx) (s : ScreenManager) : AppCtx :=
  { ctx with display := { ctx.display with manager := s } }

/-- A call of one of the manager's operations. -/
def call (ctx : AppCtx) (op : ScreenManager.Op) : AppCtx :=
  ctx.withManager (ctx.sm.step op)

/-- An update of the manager together with the currencies. -/
def onScreens (ctx : AppCtx) (f : ScreenCtx → ScreenCtx) : AppCtx :=
  let c := f { sm := ctx.sm, currencies := ctx.currencies }
  { ctx.withManager c.sm with currencies := c.currencies }

/-! ### Painting -/

/-- `ScreenManager::Render`. -/
def render (ctx : AppCtx) (now : Moment) (snap : DataSnapshot) : AppCtx × List Paint :=
  let result :=
    ctx.display.render ctx.prefs (ctx.digitFontHasBtcSign ctx.fontName) now snap
  ({ ctx with display := result.1 }, (result.2.map Paint.screen).toList)

/-- A paint of the hub's snapshot, if there is a hub. -/
def renderHub (ctx : AppCtx) (now : Moment) : AppCtx × List Paint :=
  match ctx.hub with
  | some snap => ctx.render now snap
  | none => (ctx, [])

/-- A paint of the hub's snapshot, of placeholders without a hub. -/
def renderOrEmpty (ctx : AppCtx) (now : Moment) : AppCtx × List Paint :=
  ctx.render now (ctx.hub.getD {})

/-- `ScreenManager::RenderDebug`, which always paints. -/
def renderDebug (ctx : AppCtx) (nowMs : ℤ) (forceFull : Bool) : AppCtx × List Paint :=
  ({ ctx with
      display := ctx.display.renderDebug ctx.prefs nowMs forceFull
      lastDebugRenderMs := nowMs },
    [.debug forceFull])

/-! ### The control commands -/

/-- One command, and whether it asks for a paint. -/
def handleCommand (now : Moment) (ctx : AppCtx) : ControlCommand → AppCtx × Bool
  | .fullRefresh => (ctx.call .markDirty, true)
  | .identify => (ctx, false)
  | .showScreen argI => (ctx.call (.setSlot argI.toUInt32.toNat now.ms), true)
  | .showCurrency argS => (ctx.call (.setCurrency argS now.ms), true)
  | .nextScreen => (ctx.call (.nextScreen now.ms), true)
  | .prevScreen => (ctx.call (.prevScreen now.ms), true)
  | .stopDataSources => (ctx, false)
  | .restartDataSources => (ctx, false)
  | .showCustom =>
      match ctx.pendingCustom with
      | some cells =>
          ({ ctx.call (.setCustomCells cells now.ms) with pendingCustom := none }, true)
      | none => (ctx, false)
  | .setBlockFeeDec _ => (ctx, false)
  | .setFont =>
      ({ ctx with fontName := readString ctx.prefs "fontName" }.call .markDirty, true)
  | .setTimezone => (ctx.call .markDirty, true)
  | .publishLiveStatus => (ctx, false)
  | .rebuildScreens => (ctx.onScreens (ScreenCtx.rebuildScreens ctx.prefs), true)

/-- All queued commands, one after the other. -/
def handleCommands (now : Moment) : AppCtx → List ControlCommand → AppCtx × Bool
  | ctx, [] => (ctx, false)
  | ctx, cmd :: cmds =>
      let first := ctx.handleCommand now cmd
      let rest := handleCommands now first.1 cmds
      (rest.1, first.2 || rest.2)

/-- The queued commands, with at most one paint at their end. -/
def drainControlCommands (ctx : AppCtx) (now : Moment) : AppCtx × List Paint :=
  let result := handleCommands now { ctx with commands := [] } ctx.commands
  if result.2 then result.1.renderHub now else (result.1, [])

/-! ### The buttons -/

/-- The pause survives a reboot. -/
def persistTimerActive (ctx : AppCtx) : AppCtx :=
  { ctx with prefs := (PrefsWrite.setBool "timerActive" (!ctx.sm.rot.paused)).apply ctx.prefs }

def handleButton (ctx : AppCtx) (now : Moment) (input : ButtonInput) :
    AppCtx × List Paint :=
  if input.event ≠ .click then (ctx, [])
  else
    match input.id with
    | .k0 => ((ctx.call .togglePaused).persistTimerActive, [])
    | .k1 =>
        if ctx.sm.debugMode then (ctx, [])
        else (ctx.call (.nextScreen now.ms)).renderHub now
    | .k2 =>
        if ctx.sm.debugMode then (ctx, [])
        else (ctx.call (.prevScreen now.ms)).renderHub now
    | .k3 =>
        let ctx := ctx.call (.toggleDebug now.ms)
        if ctx.sm.debugMode then ctx.renderDebug now.ms true else ctx.renderHub now

/-! ### The network coordinator -/

/-- The state of the network at a pass of the loop: the station's connection, and the
codes which upstream serves, empty when the fetch fails or is not made. -/
structure Network where
  connected : Bool
  fetched : List String
  deriving DecidableEq, Repr

def stopProvisioningPortal (ctx : AppCtx) (now : Moment) : AppCtx × List Paint :=
  { ctx with apMode := false }.renderOrEmpty now

def startProvisioningPortal (ctx : AppCtx) : AppCtx × List Paint :=
  ({ ctx with apMode := true }, [.provisioning])

/-- The end of the boot: a first paint, and the buttons come up. -/
def finishBoot (ctx : AppCtx) (now : Moment) : AppCtx × List Paint :=
  if ctx.apMode then (ctx, [])
  else
    let result := ctx.renderOrEmpty now
    ({ result.1 with buttons := true }, result.2)

def kBootDataTimeoutMs : UInt32 := 30000

end AppCtx

namespace NetworkCoordinator

def stampBoot (c : NetworkCoordinator) (nowMs : UInt32) : NetworkCoordinator :=
  if c.bootStamped then c else { c with bootMs := nowMs, bootStamped := true }

/-- Has the data arrived, or the time for it run out? -/
def bootDue (c : NetworkCoordinator) (hub : Option DataSnapshot) (nowMs : UInt32) : Bool :=
  c.connectedOnce && !c.bootFinalized &&
    ((hub.bind DataSnapshot.blockHeight).isSome ||
      decide (nowMs - c.connectMs ≥ AppCtx.kBootDataTimeoutMs))

end NetworkCoordinator

namespace AppCtx

/-- The portal goes down once the station is back. -/
def tickTeardown (c : NetworkCoordinator) (net : Network) (now : Moment) (ctx : AppCtx) :
    NetworkCoordinator × AppCtx × List Paint :=
  if shouldTeardownAp c.apUp net.connected then
    ({ c with apUp := false }, ctx.stopProvisioningPortal now)
  else (c, ctx, [])

/-- The first connection prunes the currencies. -/
def tickConnect (c : NetworkCoordinator) (net : Network) (nowMs : UInt32) (ctx : AppCtx) :
    NetworkCoordinator × AppCtx :=
  if net.connected = true ∧ c.connectedOnce = false then
    ({ c with connectedOnce := true, connectMs := nowMs },
      ctx.onScreens (ScreenCtx.refreshUpstreamCurrencies net.fetched))
  else (c, ctx)

def tickBoot (c : NetworkCoordinator) (now : Moment) (nowMs : UInt32) (ctx : AppCtx) :
    NetworkCoordinator × AppCtx × List Paint :=
  if c.bootDue ctx.hub nowMs then
    ({ c with bootFinalized := true }, ctx.finishBoot now)
  else (c, ctx, [])

def tickFallback (c : NetworkCoordinator) (net : Network) (nowMs : UInt32) (ctx : AppCtx) :
    NetworkCoordinator × AppCtx × List Paint :=
  if shouldStartFallbackAp c.connectedOnce c.apUp net.connected nowMs c.bootMs c.graceMs then
    ({ c with apUp := true }, ctx.startProvisioningPortal)
  else (c, ctx, [])

/-- `NetworkCoordinator::Tick`. -/
def tick (ctx : AppCtx) (net : Network) (now : Moment) : AppCtx × List Paint :=
  match ctx.netCoordinator with
  | none => (ctx, [])
  | some c =>
      let nowMs := UInt32.ofInt now.ms
      let down := tickTeardown (c.stampBoot nowMs) net now ctx
      let connect := tickConnect down.1 net nowMs down.2.1
      let boot := tickBoot connect.1 now nowMs connect.2
      let up := tickFallback boot.1 net nowMs boot.2.1
      ({ up.2.1 with netCoordinator := some up.1 }, down.2.2 ++ boot.2.2 ++ up.2.2)

end AppCtx

end BtClock
