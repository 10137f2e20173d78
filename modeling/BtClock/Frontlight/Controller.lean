import BtClock.Frontlight.Logic

/-!
# The frontlight controller

The state of `FrontlightController` after `Start`: the event queue, the fader, the duty of
every panel channel, the gates, and the locals of `TaskLoop`.  A call of a public method is
one step, and so is one turn of the task's loop.  Whether the do-not-disturb predicate
holds, and the time, are inputs of the step which asks for them.
-/

namespace BtClock

namespace Frontlight

inductive FrontlightEvent
  | on
  | off
  | ambientOn
  | ambientOff
  | darkOff
  | setBrightness
  | blockFlash
  | zapFlash
  | setChannelDuties
  deriving DecidableEq, Repr

structure FrontlightCommand where
  event : FrontlightEvent
  value : ℕ := 0
  deriving DecidableEq, Repr

inductive PulsePhase
  | idle
  | firstHalf
  | midHold
  | secondHalf
  deriving DecidableEq, Repr

/-- The flash animation of `TaskLoop`. -/
structure Pulse where
  phase : PulsePhase := .idle
  maxBrightness : ℕ := kDefaultMaxDuty
  totalTicks : ℕ := 0
  tickDelayMs : ℕ := kDefaultEffectDelayMs
  midHoldMs : ℕ := 0
  tick : ℕ := 0
  holdUntilMs : ℤ := 0
  firstDir : StaggerDirection := .in_
  deriving DecidableEq, Repr

structure FrontlightController where
  queue : List FrontlightCommand := []
  fader : FrontlightFader := {}
  /-- The duty last written to each channel of the PCA9685. -/
  channels : List ℕ
  configuredBrightness : ℕ := kDefaultMaxDuty
  logicalOn : Bool := false
  effectDelayMs : ℕ := kDefaultEffectDelayMs
  disabled : Bool := false
  alwaysOn : Bool := true
  flashOnUpdate : Bool := true
  offOnDnd : Bool := true
  policy : FrontlightAmbientPolicy := {}
  lastDndSuppressed : Bool := false
  pendingManualDuties : List ℕ := []
  pulse : Pulse := {}

namespace FrontlightController

/-- The constructor and a successful `Start`: every channel is written to 0. -/
def start (channelCount : ℕ) : FrontlightController where
  channels := List.replicate channelCount 0

def kQueueDepth : ℕ := 8

def kManualCap : ℕ := 8

def channelCount (s : FrontlightController) : ℕ :=
  s.channels.length

/-! ### The calls -/

/-- The non-blocking send: a command which finds the queue full is dropped. -/
def sendOrDrop (s : FrontlightController) (cmd : FrontlightCommand) :
    FrontlightController :=
  if s.queue.length < kQueueDepth then { s with queue := s.queue ++ [cmd] } else s

/-- A command as the mute and the do-not-disturb gate forward it. -/
def forcedOff (cmd : FrontlightCommand) : FrontlightCommand :=
  if cmd.event = .off then cmd else { event := .ambientOff }

def post (s : FrontlightController) (cmd : FrontlightCommand) (dndActive : Bool) :
    FrontlightController :=
  if s.disabled then s.sendOrDrop (forcedOff cmd)
  else if s.alwaysOn = true ∧ cmd.event = .ambientOff then s
  else if cmd.event = .blockFlash ∧ s.flashOnUpdate = false then s
  else if s.offOnDnd = true ∧ dndActive = true then s.sendOrDrop (forcedOff cmd)
  else s.sendOrDrop cmd

def setConfiguredBrightness (s : FrontlightController) (duty : ℕ) (dndActive : Bool) :
    FrontlightController :=
  s.post { event := .setBrightness, value := duty } dndActive

def onAmbientLux (s : FrontlightController) (lux : Float32) (dndActive : Bool) :
    FrontlightController :=
  let noted := { s.policy with outputOn := s.logicalOn }
  let result := noted.evaluate lux
  let s' := { s with policy := result.1 }
  match result.2 with
  | .none => s'
  | .on => s'.post { event := .ambientOn } dndActive
  | .off => s'.post { event := if result.1.dark then .darkOff else .ambientOff } dndActive

/-- The duties wait in a staging area, not in the queue entry. -/
def setChannelDuties (s : FrontlightController) (duties : List ℕ) :
    FrontlightController :=
  { s with pendingManualDuties := duties.take kManualCap }.sendOrDrop
    { event := .setChannelDuties }

def onDndStateMaybeChanged (s : FrontlightController) (dndActive : Bool) :
    FrontlightController :=
  let currentlySuppressed := dndActive && s.offOnDnd
  let s' := { s with lastDndSuppressed := currentlySuppressed }
  if currentlySuppressed = s.lastDndSuppressed then s'
  else s'.sendOrDrop { event := if currentlySuppressed then .ambientOff else .ambientOn }

def setAmbientAutoOff (s : FrontlightController) (enabled : Bool) : FrontlightController :=
  { s with policy.cfg.ambientAutoEnabled := enabled }

def setLuxThreshold (s : FrontlightController) (lux : UInt32) : FrontlightController :=
  { s with policy.cfg.luxThreshold := lux }

def setOffWhenDark (s : FrontlightController) (enabled : Bool) : FrontlightController :=
  { s with policy.cfg.offWhenDark := enabled }

/-! ### The task -/

def setUserOff (s : FrontlightController) (on : Bool) : FrontlightController :=
  { s with policy.userOff := on }

def writeAllChannels (s : FrontlightController) (duty : ℕ) : FrontlightController :=
  { s with channels := List.replicate s.channelCount duty }

def writeStaggeredTick (s : FrontlightController) (tick maxBrightness : ℕ)
    (direction : StaggerDirection) : FrontlightController :=
  { s with
    channels := (List.range s.channelCount).map fun i =>
      computeStaggeredDuty tick i s.channelCount maxBrightness kFadeStep direction }

def cancelPulse (s : FrontlightController) : FrontlightController :=
  { s with pulse.phase := .idle, pulse.tick := 0 }

def fadeTo (s : FrontlightController) (duty : ℕ) : FrontlightController :=
  { s with fader := s.fader.setTarget duty }

def startPulse (s : FrontlightController) (ev : FrontlightEvent) : FrontlightController :=
  let s := s.setUserOff false
  let maxBrightness :=
    if s.configuredBrightness > 0 then s.configuredBrightness else kDefaultMaxDuty
  let firstDir : StaggerDirection := if s.logicalOn then .out else .in_
  { s with
    pulse :=
      { phase := .firstHalf
        maxBrightness := maxBrightness
        totalTicks := staggerTotalTicks s.channelCount maxBrightness kFadeStep
        tickDelayMs := staggerDelayMs s.effectDelayMs s.channelCount
        midHoldMs := if ev = .blockFlash then kBlockFlashHoldMs else kZapFlashHoldMs
        tick := 0
        holdUntilMs := s.pulse.holdUntilMs
        firstDir := firstDir }
    fader := s.fader.snap (if firstDir = .in_ then 0 else maxBrightness) }

/-- `kSetChannelDuties`: the staged duties overwrite the first channels, and the fader
snaps to the first of them. -/
def applyChannelDuties (s : FrontlightController) : FrontlightController :=
  let duties := s.pendingManualDuties
  let anyOn := (duties.take s.channelCount).any (· > 0)
  let s' :=
    { s.cancelPulse with
      channels := duties.take s.channelCount ++ s.channels.drop duties.length
      fader := s.fader.snap (duties.headD 0)
      logicalOn := anyOn }
  if anyOn then s'.setUserOff false else s'

/-- The turn of the loop which takes a command off the queue. -/
def receive (s : FrontlightController) (cmd : FrontlightCommand) : FrontlightController :=
  match cmd.event with
  | .on =>
      { (s.setUserOff false).cancelPulse.fadeTo s.configuredBrightness with
        logicalOn := true }
  | .off => { (s.setUserOff true).cancelPulse.fadeTo 0 with logicalOn := false }
  | .ambientOn =>
      if s.policy.userOff then s
      else { s.cancelPulse.fadeTo s.configuredBrightness with logicalOn := true }
  | .ambientOff | .darkOff => { s.cancelPulse.fadeTo 0 with logicalOn := false }
  | .setBrightness =>
      let s' := { s with configuredBrightness := cmd.value }
      let s' := if cmd.value > 0 then s'.setUserOff false else s'
      if s'.logicalOn then s'.cancelPulse.fadeTo cmd.value else s'
  | .setChannelDuties => s.applyChannelDuties
  | .blockFlash | .zapFlash =>
      let s' := s.startPulse cmd.event
      let s' := s'.writeStaggeredTick 0 s'.pulse.maxBrightness s'.pulse.firstDir
      { s' with pulse.tick := 1 }

/-- The turn of the loop which finds no command within its wait. -/
def advance (s : FrontlightController) (msNow : ℤ) : FrontlightController :=
  match s.pulse.phase with
  | .idle =>
      let s' := { s with fader := s.fader.step }
      s'.writeAllChannels s'.fader.current
  | .firstHalf =>
      if s.pulse.tick < s.pulse.totalTicks then
        let s' := s.writeStaggeredTick s.pulse.tick s.pulse.maxBrightness s.pulse.firstDir
        { s' with pulse.tick := s.pulse.tick + 1 }
      else
        { s with
          pulse.phase := .midHold
          pulse.holdUntilMs := msNow + s.pulse.midHoldMs
          pulse.tick := 0 }
  | .midHold =>
      if s.pulse.holdUntilMs ≤ msNow then
        { s with pulse.phase := .secondHalf, pulse.tick := 0 }
      else s
  | .secondHalf =>
      if s.pulse.tick < s.pulse.totalTicks then
        let s' := s.writeStaggeredTick s.pulse.tick s.pulse.maxBrightness
          s.pulse.firstDir.inverse
        { s' with pulse.tick := s.pulse.tick + 1 }
      else
        let restore := if s.logicalOn then s.configuredBrightness else 0
        let s' := { s with fader := s.fader.snap restore }
        (s'.writeAllChannels restore).cancelPulse

/-- With no animation running the task waits for a command without a limit. -/
def waitsForever (s : FrontlightController) : Bool :=
  s.pulse.phase = .idle && s.fader.atTarget

def taskTurn (s : FrontlightController) (msNow : ℤ) : FrontlightController :=
  match s.queue with
  | cmd :: queue => { s with queue := queue }.receive cmd
  | [] => if s.waitsForever then s else s.advance msNow

/-! ### Steps -/

inductive Op
  | post (cmd : FrontlightCommand) (dndActive : Bool)
  | setConfiguredBrightness (duty : ℕ) (dndActive : Bool)
  | onAmbientLux (lux : Float32) (dndActive : Bool)
  | setChannelDuties (duties : List ℕ)
  | onDndStateMaybeChanged (dndActive : Bool)
  | setDisabled (disabled : Bool)
  | setAlwaysOn (alwaysOn : Bool)
  | setFlashOnUpdate (enabled : Bool)
  | setOffOnDnd (enabled : Bool)
  | setEffectDelay (ms : ℕ)
  | setAmbientAutoOff (enabled : Bool)
  | setLuxThreshold (lux : UInt32)
  | setOffWhenDark (enabled : Bool)
  | task (msNow : ℤ)

def Op.isTask : Op → Bool
  | .task _ => true
  | _ => false

def step (s : FrontlightController) : Op → FrontlightController
  | .post cmd dndActive => s.post cmd dndActive
  | .setConfiguredBrightness duty dndActive => s.setConfiguredBrightness duty dndActive
  | .onAmbientLux lux dndActive => s.onAmbientLux lux dndActive
  | .setChannelDuties duties => s.setChannelDuties duties
  | .onDndStateMaybeChanged dndActive => s.onDndStateMaybeChanged dndActive
  | .setDisabled disabled => { s with disabled := disabled }
  | .setAlwaysOn alwaysOn => { s with alwaysOn := alwaysOn }
  | .setFlashOnUpdate enabled => { s with flashOnUpdate := enabled }
  | .setOffOnDnd enabled => { s with offOnDnd := enabled }
  | .setEffectDelay ms => { s with effectDelayMs := ms }
  | .setAmbientAutoOff enabled => s.setAmbientAutoOff enabled
  | .setLuxThreshold lux => s.setLuxThreshold lux
  | .setOffWhenDark enabled => s.setOffWhenDark enabled
  | .task msNow => s.taskTurn msNow

end FrontlightController

end Frontlight

end BtClock
