import Mathlib.Data.Int.Notation
import Mathlib.Data.List.Basic

/-!
# The pure logic of the frontlight

The linear fader, the staggered duty of a flash and the ambient-light policy.  A duty is
a natural number: the fader clamps what it is given and the stagger is clamped to its
brightness.
-/

namespace BtClock

namespace Frontlight

def kDefaultMaxDuty : ℕ := 2048

def kFadeStep : ℕ := 25

def kDefaultEffectDelayMs : ℕ := 15

def kDefaultLuxThreshold : UInt32 := 128

def kBlockFlashHoldMs : ℕ := 0

def kZapFlashHoldMs : ℕ := 250

/-- The fader of the controller, with maximum `kDefaultMaxDuty` and step `kFadeStep`.
Both duties stay below the maximum. -/
structure FrontlightFader where
  current : ℕ := 0
  target : ℕ := 0
  current_le : current ≤ kDefaultMaxDuty := by decide
  target_le : target ≤ kDefaultMaxDuty := by decide
  deriving DecidableEq

namespace FrontlightFader

def setTarget (f : FrontlightFader) (target : ℕ) : FrontlightFader :=
  { f with target := min target kDefaultMaxDuty, target_le := Nat.min_le_right _ _ }

def snap (_ : FrontlightFader) (value : ℕ) : FrontlightFader where
  current := min value kDefaultMaxDuty
  target := min value kDefaultMaxDuty
  current_le := Nat.min_le_right _ _
  target_le := Nat.min_le_right _ _

/-- The duty after one tick. -/
def next (f : FrontlightFader) : ℕ :=
  if f.current < f.target then min (f.current + kFadeStep) f.target
  else max (f.current - kFadeStep) f.target

theorem next_le (f : FrontlightFader) : f.next ≤ kDefaultMaxDuty := by
  have hc := f.current_le
  have ht := f.target_le
  unfold next
  split <;> omega

def step (f : FrontlightFader) : FrontlightFader :=
  { f with current := f.next, current_le := f.next_le }

def atTarget (f : FrontlightFader) : Bool :=
  f.current == f.target

@[simp]
theorem setTarget_current (f : FrontlightFader) (target : ℕ) :
    (f.setTarget target).current = f.current :=
  rfl

@[simp]
theorem setTarget_target (f : FrontlightFader) (target : ℕ) :
    (f.setTarget target).target = min target kDefaultMaxDuty :=
  rfl

@[simp]
theorem snap_current (f : FrontlightFader) (value : ℕ) :
    (f.snap value).current = min value kDefaultMaxDuty :=
  rfl

@[simp]
theorem snap_target (f : FrontlightFader) (value : ℕ) :
    (f.snap value).target = min value kDefaultMaxDuty :=
  rfl

@[simp]
theorem step_target (f : FrontlightFader) : f.step.target = f.target :=
  rfl

/-- A fader on its way to black loses a full step in each tick. -/
theorem step_current_of_target_zero {f : FrontlightFader} (h : f.target = 0) :
    f.step.current = f.current - kFadeStep := by
  simp [step, next, h]

end FrontlightFader

inductive StaggerDirection
  | in_
  | out
  deriving DecidableEq, Repr

def StaggerDirection.inverse : StaggerDirection → StaggerDirection
  | .in_ => .out
  | .out => .in_

def clampDuty (value maxBrightness : ℤ) : ℤ :=
  if value < 0 then 0
  else if value > maxBrightness then maxBrightness
  else value

/-- The duty of the LED `ledIndex` of `numLeds` at the tick `tick` of a flash. -/
def computeStaggeredDuty (tick ledIndex numLeds maxBrightness step : ℕ)
    (direction : StaggerDirection) : ℕ :=
  if numLeds = 0 ∨ step = 0 ∨ numLeds ≤ ledIndex then 0
  else if maxBrightness = 0 then 0
  else
    let phaseStep := maxBrightness / numLeds
    let dutyCycle : ℤ :=
      match direction with
      | .in_ => (tick : ℤ) * step
      | .out => (maxBrightness : ℤ) - (tick : ℤ) * step
    let offset : ℤ :=
      match direction with
      | .in_ => (ledIndex : ℤ) * phaseStep
      | .out => ((numLeds : ℤ) - 1 - ledIndex) * phaseStep
    (clampDuty (dutyCycle - offset) maxBrightness).toNat

def staggerTotalTicks (numLeds maxBrightness step : ℕ) : ℕ :=
  if numLeds = 0 ∨ step = 0 ∨ maxBrightness = 0 then 0
  else
    let bound := maxBrightness + (numLeds - 1) * (maxBrightness / numLeds)
    bound / step + 1

def staggerDelayMs (effectDelayMs numLeds : ℕ) : ℕ :=
  if numLeds = 0 then effectDelayMs
  else if effectDelayMs / numLeds = 0 then 1
  else effectDelayMs / numLeds

structure FrontlightAmbientConfig where
  ambientAutoEnabled : Bool := true
  luxThreshold : UInt32 := kDefaultLuxThreshold
  offWhenDark : Bool := false
  deriving DecidableEq, Repr

def kDarkEnterLux : Float32 := 1.0

def kDarkExitLux : Float32 := 2.0

inductive FrontlightAmbientAction
  | none
  | on
  | off
  deriving DecidableEq, Repr

structure FrontlightAmbientPolicy where
  cfg : FrontlightAmbientConfig := {}
  userOff : Bool := false
  dark : Bool := false
  outputOn : Bool := false
  deriving DecidableEq, Repr

namespace FrontlightAmbientPolicy

/-- The normal path of `Evaluate`, outside the dark range. -/
def evaluateThreshold (p : FrontlightAmbientPolicy) (lux : Float32) :
    FrontlightAmbientAction :=
  let luxU := lux.toUInt32
  if luxU < p.cfg.luxThreshold then
    if p.userOff then .none
    else if p.outputOn then .none
    else .on
  else if p.cfg.luxThreshold < luxU then
    if p.outputOn then .off else .none
  else .none

def evaluate (p : FrontlightAmbientPolicy) (lux : Float32) :
    FrontlightAmbientPolicy × FrontlightAmbientAction :=
  -- a negative reading is the sensor's error value
  if lux < 0 then (p, .none)
  else if p.cfg.ambientAutoEnabled = false ∨ p.cfg.luxThreshold = 0 then (p, .none)
  else if p.cfg.offWhenDark then
    if p.dark then
      if kDarkExitLux ≤ lux then
        let p' := { p with dark := false }
        (p', p'.evaluateThreshold lux)
      else (p, if p.outputOn then .off else .none)
    else if lux < kDarkEnterLux then
      ({ p with dark := true }, if p.outputOn then .off else .none)
    else (p, p.evaluateThreshold lux)
  else
    let p' := { p with dark := false }
    (p', p'.evaluateThreshold lux)

end FrontlightAmbientPolicy

end Frontlight

end BtClock
