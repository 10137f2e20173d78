import BtClock.Screen.SlotMap
import Mathlib.Data.Int.Notation

/-!
# The decisions of the event loop

The predicates which the event loop consults for a new block, for the time which a
notification stays up, and for the provisioning portal.
-/

namespace BtClock

namespace BlockEventPolicy

/-- Does a new block take the display to the block height?  The debug screen and the zap
are respected. -/
def shouldSteal (stealFocus : Bool) (current : ScreenType) : Bool :=
  if stealFocus = false then false
  else
    match current with
    | .blockHeight => false
    | .debug => false
    | .nostrZap => false
    | _ => true

/-- Does a new block on the block height restart the rotation timer? -/
def shouldRestartTimerOnBlockUpdate (stealFocus : Bool) (current : ScreenType) : Bool :=
  if stealFocus = false then false else current == .blockHeight

def kCatchUpJumpBlocks : UInt32 := 100

/-- Does the height catch up with the chain after some time offline? -/
def isCatchUpJump (prevHeight newHeight : UInt32) : Bool :=
  if prevHeight = 0 then false
  else if newHeight ≤ prevHeight then false
  else decide (newHeight - prevHeight > kCatchUpJumpBlocks)

end BlockEventPolicy

namespace ZapOverlayPolicy

def kFallbackMs : ℤ := 8000

def computeTimeoutMs (timerSeconds : ℤ) : ℤ :=
  if timerSeconds ≤ 0 then kFallbackMs else timerSeconds * 1000

end ZapOverlayPolicy

/-- Is the provisioning portal brought up beside the station?  Only before the first
connection, and after the grace period. -/
def shouldStartFallbackAp (hasConnectedOnce apUp staConnected : Bool)
    (nowMs bootMs graceMs : UInt32) : Bool :=
  if hasConnectedOnce then false
  else if apUp then false
  else if staConnected then false
  else decide (nowMs - bootMs ≥ graceMs)

def shouldTeardownAp (apUp staConnected : Bool) : Bool :=
  apUp && staConnected

end BtClock
