import BtClock.EventLoop.AppCtx
import BtClock.Transition.Run

/-!
# A pass of the event loop

One pass serves one thing: the queued commands, a button, or after the wait the first of
the pending paints, notifications, rotation and block.  The other tasks work between the
passes; they fill the queues and raise the flags.
-/

namespace BtClock

open Data Settings

namespace AppCtx

/-! ### What a pass serves after the wait -/

/-- A paint of what changed, if the loop was woken up. -/
def serveData (got : Bool) (now : Moment) (snap : DataSnapshot) (ctx : AppCtx) :
    AppCtx × List Paint :=
  if got && ctx.display.shouldRender ctx.prefs now snap then ctx.render now snap
  else (ctx, [])

/-- The reaction to a new block: the display is taken to the block height, or the
rotation timer restarted. -/
def serveFreshBlock (got : Bool) (now : Moment) (snap : DataSnapshot) (ctx : AppCtx) :
    AppCtx × List Paint :=
  let stealFocus := readBool ctx.prefs "stealFocus"
  if BlockEventPolicy.shouldSteal stealFocus ctx.sm.currentKind then
    if (ctx.sm.setKind .blockHeight now.ms).2 then
      (ctx.call (.setKind .blockHeight now.ms)).render now snap
    else ctx.serveData got now snap
  else if BlockEventPolicy.shouldRestartTimerOnBlockUpdate stealFocus ctx.sm.currentKind then
    (ctx.call (.restartTimer now.ms)).serveData got now snap
  else ctx.serveData got now snap

/-- Is the snapshot's height a new block which is not caught up with? -/
def freshBlock (ctx : AppCtx) (snap : DataSnapshot) : Bool :=
  (ctx.sm.consumeNewBlock snap.blockHeight).2 &&
    !BlockEventPolicy.isCatchUpJump ctx.sm.lastSeenHeight (snap.blockHeight.getD 0)

def serveBlock (got : Bool) (now : Moment) (snap : DataSnapshot) (ctx : AppCtx) :
    AppCtx × List Paint :=
  let seen := ctx.call (.consumeNewBlock snap.blockHeight)
  if ctx.freshBlock snap then seen.serveFreshBlock got now snap
  else seen.serveData got now snap

/-- The period of the rotation in milliseconds; zero turns it off. -/
def autoRotateMs (ctx : AppCtx) : ℤ :=
  ((ctx.prefs.getU32 "timerSeconds" 600).toNat : ℤ) * 1000

def serveRotation (got : Bool) (now : Moment) (ctx : AppCtx) : AppCtx × List Paint :=
  let rotated := decide (ctx.autoRotateMs > 0) &&
    (ctx.sm.maybeAutoRotate now.ms ctx.autoRotateMs).2
  let ctx :=
    if ctx.autoRotateMs > 0 then ctx.call (.maybeAutoRotate now.ms ctx.autoRotateMs) else ctx
  match ctx.hub with
  | none => (ctx, [])
  | some snap => if rotated then ctx.render now snap else ctx.serveBlock got now snap

/-- The time for which a notification stays up. -/
def noticeTimeout (ctx : AppCtx) : ℤ :=
  ZapOverlayPolicy.computeTimeoutMs (ctx.prefs.getU32 "timerSeconds" 0).toNat

def serveNwcNotify (got : Bool) (now : Moment) (ctx : AppCtx) : AppCtx × List Paint :=
  let pending := ctx.nwcNotifyPending
  let ctx := { ctx with nwcNotifyPending := false }
  match pending, ctx.hub with
  | true, some snap =>
      if readBool ctx.prefs "nwcShowNotify" then
        (ctx.call (.setNwcPaymentNotify now.ms ctx.nwcNotifyAutoRestore
          ctx.noticeTimeout)).render now snap
      else (ctx, [])
  | _, _ => ctx.serveRotation got now

def serveZap (got : Bool) (now : Moment) (ctx : AppCtx) : AppCtx × List Paint :=
  let pending := ctx.zapNotifyPending
  let ctx := { ctx with zapNotifyPending := false }
  match pending, ctx.hub with
  | true, some snap =>
      (ctx.call (.setZapNotify now.ms ctx.zapScreenAutoRestore ctx.noticeTimeout)).render
        now snap
  | _, _ => ctx.serveNwcNotify got now

/-- Is the debug screen to be painted again? -/
def debugDue (ctx : AppCtx) (now : Moment) : Bool :=
  ctx.sm.debugMode && decide (now.ms - ctx.lastDebugRenderMs ≥ 10000)

/-- Nothing is painted before the end of the boot. -/
def serve (got : Bool) (now : Moment) (ctx : AppCtx) : AppCtx × List Paint :=
  if ctx.buttons = false then (ctx, [])
  else if ctx.debugDue now then ctx.renderDebug now.ms false
  else if ctx.otaOverlayRenderPending then
    ({ ctx with otaOverlayRenderPending := false }, [.otaUpdate])
  else ctx.serveZap got now

/-! ### Steps -/

/-- One pass of the loop. -/
def pass (ctx : AppCtx) (now : Moment) (net : Network) : AppCtx × List Paint :=
  if ctx.buttons = true ∧ ctx.commands ≠ [] then ctx.drainControlCommands now
  else
    match ctx.buttonQ with
    | input :: inputs => { ctx with buttonQ := inputs }.handleButton now input
    | [] =>
        let ticked := { ctx with notified := false }.tick net now
        let served := ticked.1.serve ctx.notified now
        (served.1, ticked.2 ++ served.2)

/-- The custom text of a factory reset, centred on the panels. -/
def erasingCells (panels : ℕ) : List String :=
  let letters := ["E", "R", "A", "S", "I", "N", "G"].take panels
  let pad := (panels - letters.length) / 2
  List.replicate pad " " ++ letters ++ List.replicate (panels - letters.length - pad) " "

/-- Something that happens to the application: a pass of its loop, or an action of another
task between two passes. -/
inductive Event
  | pass (now : Moment) (net : Network)
  /-- A data source reports to the hub. -/
  | report (partialSnapshot : DataSnapshot)
  /-- The loop is woken up, as it is every minute for the clock. -/
  | wake
  | postCommand (cmd : ControlCommand)
  /-- The cells of a custom text, which the command `showCustom` takes. -/
  | postCustomCells (cells : List String)
  | pressButton (input : ButtonInput)
  | raiseZap
  | raiseNwcNotify
  | setAutoRestore (zap nwcNotify : Bool)
  /-- The settings interface writes to the store. -/
  | writePrefs (prefs : Prefs)
  | setPaused (paused : Bool)
  | restartTimer (nowMs : ℤ)
  /-- The next paint repaints everything, as after the fetch of a pool logo. -/
  | markDirty
  | setSatsVariant (variant : UInt8)
  /-- A firmware update is about to start. -/
  | preFlash
  | factoryReset (now : Moment)

/-- The effect of an event, and the paints which are made. -/
def stepPaints (ctx : AppCtx) : Event → AppCtx × List Paint
  | .pass now net => ctx.pass now net
  | .report partialSnapshot =>
      match ctx.hub with
      | none => (ctx, [])
      | some snap =>
          let merged := snap.merge partialSnapshot
          ({ ctx with hub := some merged.1, notified := ctx.notified || merged.2 }, [])
  | .wake => ({ ctx with notified := true }, [])
  | .postCommand cmd => ({ ctx with commands := ctx.commands ++ [cmd] }, [])
  | .postCustomCells cells => ({ ctx with pendingCustom := some cells }, [])
  | .pressButton input =>
      (if ctx.buttons then { ctx with buttonQ := ctx.buttonQ ++ [input] } else ctx, [])
  | .raiseZap => ({ ctx with zapNotifyPending := true, notified := true }, [])
  | .raiseNwcNotify => ({ ctx with nwcNotifyPending := true, notified := true }, [])
  | .setAutoRestore zap nwcNotify =>
      ({ ctx with zapScreenAutoRestore := zap, nwcNotifyAutoRestore := nwcNotify }, [])
  | .writePrefs prefs => ({ ctx with prefs := prefs }, [])
  | .setPaused paused => (ctx.call (.setPaused paused), [])
  | .restartTimer nowMs => (ctx.call (.restartTimer nowMs), [])
  | .markDirty => (ctx.call .markDirty, [])
  | .setSatsVariant variant =>
      ({ ctx with display := { ctx.display with satsVariant := variant } }.call .markDirty,
        [])
  | .preFlash =>
      ({ ctx.call (.setOtaOverlay true) with
          otaOverlayRenderPending := true
          notified := true }, [])
  | .factoryReset now =>
      (ctx.call (.setCustomCells (erasingCells ctx.display.panels) now.ms)).renderOrEmpty now

def step (ctx : AppCtx) (e : Event) : AppCtx :=
  (ctx.stepPaints e).1

def paints (ctx : AppCtx) (e : Event) : List Paint :=
  (ctx.stepPaints e).2

/-- The application after the boot, from what the store and the board hold.  Without
credentials of a network there is neither a hub nor a coordinator. -/
def boot (prefs : Prefs) (lastSlot lastBlockHeight : UInt32) (nowMs : ℤ)
    (satsVariant : UInt8) (panels : ℕ) (digitFontHasBtcSign : String → Bool)
    (hasCredentials : Bool) : AppCtx :=
  let screens := ScreenCtx.initScreenManager prefs lastSlot lastBlockHeight nowMs
  { display :=
      { manager := screens.sm
        satsVariant := satsVariant
        panels := panels }
    currencies := screens.currencies
    prefs := prefs
    digitFontHasBtcSign := digitFontHasBtcSign
    fontName := readString prefs "fontName"
    hub := if hasCredentials then some {} else none
    netCoordinator := if hasCredentials then some {} else none
    apMode := !hasCredentials }

/-! ### The three kinds of passes -/

theorem pass_of_commands {ctx : AppCtx} (h : ctx.buttons = true ∧ ctx.commands ≠ [])
    (now : Moment) (net : Network) : ctx.pass now net = ctx.drainControlCommands now :=
  if_pos h

theorem pass_of_button {ctx : AppCtx} (h : ¬ (ctx.buttons = true ∧ ctx.commands ≠ []))
    {input : ButtonInput} {inputs : List ButtonInput} (hq : ctx.buttonQ = input :: inputs)
    (now : Moment) (net : Network) :
    ctx.pass now net = { ctx with buttonQ := inputs }.handleButton now input := by
  rw [pass, if_neg h]
  split
  · rename_i hq'
    obtain ⟨rfl, rfl⟩ := List.cons.inj (hq.symm.trans hq')
    rfl
  · rename_i hq'
    cases hq.symm.trans hq'

theorem pass_of_wait {ctx : AppCtx} (h : ¬ (ctx.buttons = true ∧ ctx.commands ≠ []))
    (hq : ctx.buttonQ = []) (now : Moment) (net : Network) :
    ctx.pass now net =
      (({ ctx with notified := false }.tick net now).1.serve ctx.notified now).map id
        fun paints => ({ ctx with notified := false }.tick net now).2 ++ paints := by
  rw [pass, if_neg h]
  split
  · rename_i hq'
    cases hq.symm.trans hq'
  · rfl

end AppCtx

end BtClock
