import BtClock.Transition.Run
import BtClock.Transition.Script
import Mathlib.Logic.Function.Basic

/-!
# The LED controller

Any task posts effects to a queue of eight.  The LED task takes them one by one, plays them on the
strip and paints the resting colours again.  The setters of the control server change the
preferences and the resting colours meanwhile.
-/

namespace BtClock

namespace Leds

open Transition

inductive LedEffect
  | kSetBoot | kSetProvisioning | kSetIdle | kBlockFlash | kIdentify | kZap | kDataError
  | kDataBlockError | kDataPriceError | kFlashSuccess | kFlashError | kFlashUpdate | kHeartbeat
  | kWifiConnecting | kWifiConnectError | kWifiConnectSuccess | kWifiWaitForConfig | kBootFailed
  | kPowerTest | kTimerPause | kTimerResume | kDndOn | kDndOff
  deriving DecidableEq, Repr

structure Rgb where
  r : UInt8
  g : UInt8
  b : UInt8
  deriving DecidableEq, Repr

def kBootPalette : List Rgb :=
  [⟨255, 0, 0⟩, ⟨255, 128, 0⟩, ⟨255, 255, 0⟩, ⟨0, 255, 0⟩, ⟨0, 0, 255⟩, ⟨148, 0, 211⟩]

def packRgb (r g b : UInt8) : UInt32 :=
  r.toUInt32 <<< 16 ||| g.toUInt32 <<< 8 ||| b.toUInt32

def unpack (rgb : UInt32) : Rgb :=
  ⟨(rgb >>> 16 &&& 0xff).toUInt8, (rgb >>> 8 &&& 0xff).toUInt8, (rgb &&& 0xff).toUInt8⟩

def scale (channel brightness : UInt8) : UInt8 :=
  UInt8.ofNat (channel.toNat * brightness.toNat / 255)

/-- A colour as the strip shows it at the given brightness. -/
def lit (rgb : UInt32) (brightness : UInt8) : Rgb :=
  ⟨scale (unpack rgb).r brightness, scale (unpack rgb).g brightness,
    scale (unpack rgb).b brightness⟩

def black : Rgb :=
  ⟨0, 0, 0⟩

/-- What the board fixes. -/
structure Board where
  count : ℕ
  count_le : count ≤ 8
  ledChainReversed : Bool
  /-- The breathing curve: the peak, the tick and the number of ticks. -/
  breath : UInt8 → ℕ → ℕ → UInt8

/-- The state which the tasks share. -/
structure Shared where
  brightness : UInt8
  blockFlashColor : UInt32
  disabled : Bool
  flashOnUpdate : Bool
  restingPixels : ℕ → UInt32
  /-- What the do-not-disturb predicate answers. -/
  suppressed : Bool

inductive Mode
  | kBoot | kProvisioning | kIdle | kBootFailed | kWifiConnecting
  deriving DecidableEq, Repr

/-- Whether the queue is waited for with a timeout. -/
def Mode.ticks : Mode → Bool
  | .kBoot | .kProvisioning | .kWifiConnecting => true
  | .kIdle | .kBootFailed => false

/-- What the LED task did with the last event it did not swallow. -/
inductive Painted
  /-- Painted black for do-not-disturb. -/
  | blackout
  | played (ev : LedEffect) (bright : UInt8)
  deriving DecidableEq, Repr

/-- What the LED task owns. -/
structure Painter where
  mode : Mode
  frame : UInt32
  /-- The strip's buffer, by the position in the chain. -/
  buffer : ℕ → Rgb
  shown : ℕ → Rgb
  /-- Kept for the statements; the task does not read it. -/
  painted : Option Painted

abbrev LedScript := Script Shared Painter

section Strip

variable (board : Board)

def physIdx (logical : ℕ) : ℕ :=
  if board.ledChainReversed then board.count - 1 - logical else logical

def writePixel (idx : ℕ) (color : Rgb) : LedScript PUnit :=
  .act (fun _ p => { p with buffer := Function.update p.buffer (physIdx board idx) color })
    (pure ⟨⟩)

def pushPixel (idx : ℕ) (rgb : UInt32) (brightness : UInt8) : LedScript PUnit :=
  writePixel board idx (lit rgb brightness)

def refresh : LedScript PUnit :=
  .act (fun _ p => { p with shown := p.buffer }) (pure ⟨⟩)

def vTaskDelay (ms : ℕ) : LedScript PUnit :=
  .pause ms (pure ⟨⟩)

/-- A colour for each pixel, at one brightness. -/
def paintColors (rgb : ℕ → UInt32) (brightness : UInt8) : LedScript PUnit := do
  Script.upTo board.count fun i => pushPixel board i (rgb i) brightness
  refresh

def paintUniform (rgb : UInt32) (brightness : UInt8) : LedScript PUnit :=
  paintColors board (fun _ => rgb) brightness

/-- `g_resting_pixels` is read without the mutex, a pixel at a time. -/
def pushResting (idx : ℕ) (brightness : UInt8) : LedScript PUnit :=
  .act (fun g p => { p with
    buffer := Function.update p.buffer (physIdx board idx) (lit (g.restingPixels idx) brightness) })
    (pure ⟨⟩)

def paintResting (brightness : UInt8) : LedScript PUnit := do
  Script.upTo board.count fun i => pushResting board i brightness
  refresh

def paintAllOff : LedScript PUnit := do
  Script.upTo board.count fun i => writePixel board i black
  refresh

end Strip

def currentBrightness : LedScript UInt8 :=
  .ask fun g => pure g.brightness

def currentBlockFlashColor : LedScript UInt32 :=
  .ask fun g => pure g.blockFlashColor

def effectsDisabled : LedScript Bool :=
  .ask fun g => pure g.disabled

def dndSuppressed : LedScript Bool :=
  .ask fun g => pure g.suppressed

/-! ### The effects -/

section Effects

variable (board : Board)

def playTwoColorBlink (c1 c2 : UInt32) (dMs times : ℕ) : LedScript PUnit := do
  Script.upTo times fun _ => do
    paintUniform board c1 (← currentBrightness)
    vTaskDelay dMs
    paintUniform board c2 (← currentBrightness)
    vTaskDelay dMs
  paintAllOff board

def playColorBlink (rgb : UInt32) (dMs times : ℕ) : LedScript PUnit :=
  Script.upTo times fun _ => do
    paintUniform board rgb (← currentBrightness)
    vTaskDelay dMs
    paintAllOff board
    vTaskDelay dMs

/-- Twelve steps up to the brightness at the start, a hold, and twelve down to black. -/
def playFadePulse (rgb : UInt32) : LedScript PUnit := do
  let peak ← currentBrightness
  Script.upTo 12 fun i => do
    paintUniform board rgb (UInt8.ofNat (peak.toNat * (i + 1) / 12))
    vTaskDelay 25
  vTaskDelay 250
  Script.upTo 12 fun i => do
    paintUniform board rgb (UInt8.ofNat (peak.toNat * (11 - i) / 12))
    vTaskDelay 25

def playIdentify : LedScript PUnit := do
  playTwoColorBlink board (packRgb 255 0 0) (packRgb 0 255 255) 100 2
  playTwoColorBlink board (packRgb 0 255 0) (packRgb 0 0 255) 100 2

def playZap : LedScript PUnit :=
  Script.upTo 8 fun n => do
    Script.upTo board.count fun i => do
      let color := if i &&& 1 ≠ 0 then packRgb 128 0 128 else packRgb 255 226 41
      pushPixel board i color (← currentBrightness)
    refresh
    vTaskDelay (30 + n * 7 % 60)

def playDataError : LedScript PUnit := do
  Script.upTo 60 fun t => do
    paintUniform board (packRgb (board.breath 255 t 60) 0 0) (← currentBrightness)
    vTaskDelay 33
  paintAllOff board

def playHeartbeat : LedScript PUnit := do
  Script.upTo 30 fun t => do
    paintUniform board (packRgb 0 0 (board.breath 200 t 30)) (← currentBrightness)
    vTaskDelay 33
  paintAllOff board

/-- One pixel of the colour, the others off. -/
def paintSingle (idx : ℕ) (rgb : UInt32) (bright : UInt8) : LedScript PUnit :=
  paintColors board (fun j => if j = idx then rgb else 0) bright

def sweepDelay (startMs endMs : ℤ) (step n : ℕ) : ℕ :=
  if n = 1 then startMs.toNat
  else (startMs + ((endMs - startMs) * step).tdiv (n - 1 : ℕ)).toNat

def playSweepNoClear (rgb : UInt32) (startMs endMs : ℤ) : LedScript PUnit := do
  if board.count = 0 then return
  let bright ← currentBrightness
  Script.upTo board.count fun step => do
    paintSingle board step rgb bright
    vTaskDelay (sweepDelay startMs endMs step board.count)

def holdSingle (idx : ℕ) (rgb : UInt32) (holdMs : ℕ) : LedScript PUnit := do
  paintSingle board idx rgb (← currentBrightness)
  vTaskDelay holdMs

def playTimerPause : LedScript PUnit := do
  if board.count = 0 then return
  playSweepNoClear board (packRgb 255 120 0) 80 300
  holdSingle board (board.count - 1) (packRgb 255 0 0) 500
  paintAllOff board

def playTimerResume : LedScript PUnit := do
  if board.count = 0 then return
  holdSingle board 0 (packRgb 255 0 0) 500
  playSweepNoClear board (packRgb 0 200 0) 300 80
  paintAllOff board

/-- The palette's colour of a pixel in a frame. -/
def bootColor (frame : UInt32) (i : ℕ) : UInt32 :=
  let c := kBootPalette.getD ((frame + UInt32.ofNat i) % 6).toNat black
  packRgb c.r c.g c.b

def playPowerTest : LedScript PUnit := do
  Script.upTo 12 fun frame => do
    Script.upTo board.count fun i => do
      pushPixel board i (bootColor (UInt32.ofNat frame) i) (← currentBrightness)
    refresh
    vTaskDelay 120
  paintAllOff board

end Effects

/-! ### The task -/

section Task

variable (board : Board)

def setMode (mode : Mode) : LedScript PUnit :=
  .act (fun _ p => { p with mode := mode }) (pure ⟨⟩)

def resetFrame : LedScript PUnit :=
  .act (fun _ p => { p with frame := 0 }) (pure ⟨⟩)

def notePainted (painted : Painted) : LedScript PUnit :=
  .act (fun _ p => { p with painted := some painted }) (pure ⟨⟩)

/-- A one-shot effect ends in the resting colours at the brightness read before it. -/
def backToIdle (bright : UInt8) : LedScript PUnit := do
  setMode .kIdle
  paintResting board bright

/-- The `switch` over the effects. -/
def play (ev : LedEffect) (bright : UInt8) : LedScript PUnit :=
  match ev with
  | .kSetBoot => do
    setMode .kBoot
    resetFrame
  | .kSetProvisioning => do
    setMode .kProvisioning
    resetFrame
  | .kSetIdle => backToIdle board bright
  | .kBlockFlash => do
    playTwoColorBlink board (← currentBlockFlashColor) (packRgb 8 2 0) 250 3
    backToIdle board bright
  | .kIdentify => do
    playIdentify board
    backToIdle board bright
  | .kZap => do
    playZap board
    backToIdle board bright
  | .kDataError => do
    playDataError board
    backToIdle board bright
  | .kDataBlockError => do
    playColorBlink board (packRgb 128 0 128) 150 2
    backToIdle board bright
  | .kDataPriceError => do
    playColorBlink board (packRgb 177 90 31) 150 2
    backToIdle board bright
  | .kFlashSuccess => do
    playColorBlink board (packRgb 0 255 0) 150 3
    backToIdle board bright
  | .kFlashError => do
    playColorBlink board (packRgb 255 0 0) 250 3
    backToIdle board bright
  | .kFlashUpdate => do
    let enabled ← (.ask fun g => pure g.flashOnUpdate : LedScript Bool)
    if enabled then
      playTwoColorBlink board (packRgb 0 230 0) (packRgb 230 230 0) 250 3
    backToIdle board bright
  | .kHeartbeat => do
    playHeartbeat board
    backToIdle board bright
  | .kWifiConnecting => do
    setMode .kWifiConnecting
    resetFrame
    paintAllOff board
  | .kWifiConnectError => do
    playTwoColorBlink board (packRgb 8 161 236) (packRgb 255 0 0) 100 3
    backToIdle board bright
  | .kWifiConnectSuccess => do
    playColorBlink board (packRgb 0 255 0) 150 3
    backToIdle board bright
  | .kWifiWaitForConfig => do
    playTwoColorBlink board (packRgb 8 161 236) (packRgb 156 225 240) 100 1
    backToIdle board bright
  | .kBootFailed => do
    setMode .kBootFailed
    paintUniform board (packRgb 255 0 0) bright
  | .kPowerTest => do
    playPowerTest board
    backToIdle board bright
  | .kTimerPause => do
    playTimerPause board
    backToIdle board bright
  | .kTimerResume => do
    playTimerResume board
    backToIdle board bright
  | .kDndOn => do
    playFadePulse board (packRgb 120 0 200)
    setMode .kIdle
    paintAllOff board
  | .kDndOff => do
    playFadePulse board (packRgb 255 140 0)
    backToIdle board bright

/-- The colour of a pixel in a frame of an animated mode. -/
def frameColor (mode : Mode) (frame : UInt32) (i : ℕ) : UInt32 :=
  match mode with
  | .kBoot => bootColor frame i
  | .kProvisioning =>
    let v := board.breath 255 (frame % 120).toNat 120
    packRgb 0 v v
  | .kWifiConnecting =>
    let litPixel := if 0 < board.count then frame.toNat % board.count else 0
    if i = litPixel then packRgb 16 197 236 else 0
  | .kIdle | .kBootFailed => 0

/-- The tick after the event, or after the timeout. -/
def tick : LedScript PUnit :=
  .own fun p =>
    if p.mode.ticks then do
      paintColors board (frameColor board p.mode p.frame) (← currentBrightness)
      .act (fun _ p => { p with frame := p.frame + 1 }) (pure ⟨⟩)
    else pure ⟨⟩

/-- An entry of the queue: an effect and whether it passes do-not-disturb. -/
structure Posted where
  effect : LedEffect
  bypassDnd : Bool
  deriving DecidableEq, Repr

/-- Whether the event is gated; the second look is not taken when the first one decides. -/
def gated (bypassDnd : Bool) : LedScript Bool := do
  if ← effectsDisabled then pure true
  else if bypassDnd then pure false
  else dndSuppressed

/-- What the task does with an event it took. -/
def handle (p : Posted) : LedScript PUnit := do
  if (← gated p.bypassDnd) && p.effect != .kSetIdle then return
  if (← dndSuppressed) && p.effect == .kSetIdle then
    setMode .kIdle
    paintAllOff board
    notePainted .blackout
  else
    let bright ← currentBrightness
    play board p.effect bright
    notePainted (.played p.effect bright)
    tick board

end Task

/-! ### The setters -/

/-- A step of a setter while it holds the mutex. -/
inductive SetterStep
  | writeResting (i : ℕ) (rgb : UInt32)
  | setDisabled (disabled : Bool)
  /-- Muted exactly when the first `n` resting pixels are black. -/
  | muteIfBlack (n : ℕ)
  /-- The mutex is given back; an idle event is still to be posted. -/
  | unlock
  /-- An idle event is posted and the mutex given back. -/
  | postIdle
  deriving DecidableEq, Repr

/-- What a setter still does after it gave the mutex back. -/
inductive Owed
  | postIdle
  /-- The resting pixels are cleared under the mutex, with an idle event at the end. -/
  | clear
  deriving DecidableEq, Repr

structure LedController where
  shared : Shared
  queue : List Posted
  /-- The effects which did not fit into the queue. -/
  drops : List LedEffect
  /-- The rest of what the LED task does with its event. -/
  task : LedScript PUnit
  painter : Painter
  /-- What the setter which holds the mutex still does there. -/
  setter : List SetterStep
  owed : List Owed

namespace LedController

/-- The state after `InitLeds` with the stored preferences. -/
def initLeds (prefs : Shared) : LedController where
  shared := { prefs with restingPixels := fun _ => 0 }
  queue := []
  drops := []
  task := pure ⟨⟩
  painter := ⟨.kBoot, 0, fun _ => black, fun _ => black, none⟩
  setter := []
  owed := []

def kQueueLength : ℕ := 8

def send (c : LedController) (ev : LedEffect) (bypassDnd : Bool) : LedController :=
  if c.queue.length < kQueueLength then { c with queue := c.queue ++ [⟨ev, bypassDnd⟩] }
  else { c with drops := c.drops ++ [ev] }

def postLedEffect (c : LedController) (ev : LedEffect) : LedController :=
  if ev ≠ .kSetIdle ∧ c.shared.suppressed = true then c else c.send ev false

def postLedEffectForce (c : LedController) (ev : LedEffect) : LedController :=
  if c.shared.disabled = true ∧ ev ≠ .kSetIdle then c else c.send ev true

def setLedSolidColor (board : Board) (rgb : UInt32) : List SetterStep :=
  let rgb := rgb &&& 0x00ffffff
  (List.range board.count).map (fun i => .writeResting i rgb) ++ [.setDisabled (rgb == 0)] ++
    [.unlock]

def setLedPixels (board : Board) (pixels : List UInt32) : List SetterStep :=
  let n := min pixels.length board.count
  (List.range n).map (fun i => .writeResting i (pixels.getD i 0 &&& 0x00ffffff)) ++
    [.muteIfBlack n] ++ [.unlock]

/-- The second half of `SetLedDisabled(true)`. -/
def clearResting : List SetterStep :=
  (List.range 8).map (fun i => .writeResting i 0) ++ [.postIdle]

def stepSetter (c : LedController) (step : SetterStep) (rest : List SetterStep) :
    LedController :=
  match step with
  | .writeResting i rgb =>
    { c with
      setter := rest
      shared := { c.shared with restingPixels := Function.update c.shared.restingPixels i rgb } }
  | .setDisabled disabled =>
    { c with setter := rest, shared := { c.shared with disabled := disabled } }
  | .muteIfBlack n =>
    { c with
      setter := rest
      shared := { c.shared with
        disabled := (List.range n).all fun i => c.shared.restingPixels i == 0 } }
  | .unlock => { c with setter := rest, owed := c.owed ++ [.postIdle] }
  | .postIdle => { c with setter := rest }.postLedEffect .kSetIdle

def resume (c : LedController) (k : ℕ) : LedController :=
  match c.owed[k]? with
  | none => c
  | some .postIdle => { c with owed := c.owed.eraseIdx k }.postLedEffect .kSetIdle
  | some .clear =>
    if c.setter = [] then { c with owed := c.owed.eraseIdx k, setter := clearResting } else c

/-- The LED task moves on: it takes an event, its wait ends, or it does its next action. -/
def stepTask (board : Board) (c : LedController) : LedController :=
  match c.task with
  | .done _ =>
    match c.queue with
    | p :: queue => { c with queue := queue, task := handle board p }
    | [] => if c.painter.mode.ticks then { c with task := tick board } else c
  | task =>
    if task.asks ∧ c.setter ≠ [] then c
    else
      { c with
        painter := (task.next c.shared c.painter).1
        task := (task.next c.shared c.painter).2 }

/-- What happens next; a task which needs the mutex while a setter holds it waits. -/
inductive Move
  | postLedEffect (ev : LedEffect)
  | postLedEffectForce (ev : LedEffect)
  | setLedBrightness (brightness : UInt8)
  | setBlockFlashColor (rgb : UInt32)
  | setLedFlashOnUpdate (enabled : Bool)
  | setLedDisabled (disabled : Bool)
  | setLedSolidColor (rgb : UInt32)
  | setLedPixels (pixels : List UInt32)
  /-- The setter which holds the mutex does its next step. -/
  | setter
  /-- A setter does what it still owes. -/
  | resume (k : ℕ)
  /-- The answer of the do-not-disturb predicate changes. -/
  | dnd (suppressed : Bool)
  | task
  deriving DecidableEq, Repr

/-- A change of the shared state under the mutex. -/
def locked (c : LedController) (change : LedController → LedController) : LedController :=
  if c.setter = [] then change c else c

def step (board : Board) (c : LedController) : Move → LedController
  | .postLedEffect ev =>
    if ev = .kSetIdle then c.postLedEffect ev else c.locked (·.postLedEffect ev)
  | .postLedEffectForce ev => c.locked (·.postLedEffectForce ev)
  | .setLedBrightness brightness =>
    c.locked fun c => { c with shared := { c.shared with brightness := brightness } }
  | .setBlockFlashColor rgb =>
    c.locked fun c =>
      { c with shared := { c.shared with blockFlashColor := rgb &&& 0x00ffffff } }
  | .setLedFlashOnUpdate enabled =>
    c.locked fun c => { c with shared := { c.shared with flashOnUpdate := enabled } }
  | .setLedDisabled disabled =>
    c.locked fun c =>
      { c with
        shared := { c.shared with disabled := disabled }
        owed := if disabled then c.owed ++ [.clear] else c.owed }
  | .setLedSolidColor rgb => c.locked fun c => { c with setter := setLedSolidColor board rgb }
  | .setLedPixels pixels => c.locked fun c => { c with setter := setLedPixels board pixels }
  | .setter =>
    match c.setter with
    | [] => c
    | step :: rest => c.stepSetter step rest
  | .resume k => c.resume k
  | .dnd suppressed => { c with shared := { c.shared with suppressed := suppressed } }
  | .task => c.stepTask board

/-- `GetLedState`: the pixels which `/api/lights` reports. -/
def getLedStatePixels (board : Board) (c : LedController) : List UInt32 :=
  (List.range board.count).map c.shared.restingPixels

/-- No task is at work and nothing waits. -/
def AtRest (c : LedController) : Prop :=
  c.task = .done ⟨⟩ ∧ c.queue = [] ∧ c.setter = [] ∧ c.owed = []

end LedController

end Leds

end BtClock
