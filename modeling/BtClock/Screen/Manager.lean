import BtClock.Screen.SlotMap
import Mathlib.Data.Int.Notation

/-!
# The screen manager

The navigation state of `ScreenManager`: the active currencies, the displayed slot, the
auto-rotate timer, the overlay latches and the rotation sequence.  The constructor
asserts that the currency list is not empty and `setCurrencies` refuses an empty one, so
the structure carries that fact.
-/

namespace BtClock

open SlotMap

/-- The pause flag and the time of the last advance. -/
structure RotationTimer where
  paused : Bool := false
  lastChangeMs : ℤ := 0
  deriving DecidableEq, Repr

namespace RotationTimer

def shouldAdvance (t : RotationTimer) (nowMs periodMs : ℤ) : Bool :=
  if t.paused then false else decide (nowMs - t.lastChangeMs ≥ periodMs)

def restart (t : RotationTimer) (nowMs : ℤ) : RotationTimer :=
  { t with lastChangeMs := nowMs }

end RotationTimer

structure ScreenManager where
  currencies : List String
  currencies_ne_nil : currencies ≠ []
  slot : ℕ := 0
  dirty : Bool := true
  screenChangePending : Bool := false
  rot : RotationTimer := {}
  lastSeenHeight : UInt32 := 0
  customActive : Bool := false
  customCells : Vector String 8 := Vector.replicate 8 ""
  zapActive : Bool := false
  zapAutoRestore : Bool := true
  zapActiveUntil : ℤ := 0
  nwcNotifyActive : Bool := false
  nwcNotifyAutoRestore : Bool := true
  nwcNotifyActiveUntil : ℤ := 0
  debugMode : Bool := false
  otaActive : Bool := false
  skipPredicate : Option (ScreenType → Bool) := none
  rotationSequence : List ℕ := []
  rotationIdx : ℕ := 0

namespace ScreenManager

/-- The constructor: the first slot is shown and the rotation timer starts. -/
def create (nowMs : ℤ) (currencies : List String) (h : currencies ≠ []) :
    ScreenManager where
  currencies := currencies
  currencies_ne_nil := h
  rot := { lastChangeMs := nowMs }

def kZapTimeoutMs : ℤ := 8000

def slotCount (s : ScreenManager) : ℕ :=
  SlotMap.slotCount s.currencies.length

def isFeeRateSlot (s : ScreenManager) : Bool :=
  s.slot == s.slotCount - 1

def kindForSlot (s : ScreenManager) (slot : ℕ) : ScreenType :=
  BtClock.kindForSlot s.currencies.length slot

/-- The kind on display: overlays outrank the rotation slot. -/
def currentKind (s : ScreenManager) : ScreenType :=
  if s.otaActive then .otaUpdate
  else if s.debugMode then .debug
  else if s.nwcNotifyActive then .nwcPaymentNotify
  else if s.zapActive then .nostrZap
  else if s.customActive then .custom
  else s.kindForSlot s.slot

/-- The currency code of the displayed slot, `""` on a currency-agnostic slot.  `none` is
the read past the end of `currencies` of a slot beyond the layout. -/
def currentCurrency (s : ScreenManager) : Option String :=
  if s.slot < kAgnosticSlots ∨ s.isFeeRateSlot = true then some ""
  else s.currencies[(s.slot - kAgnosticSlots) / kPerCurrencySlots]?

/-- Does the skip predicate reject the kind of `slot`? -/
def skips (s : ScreenManager) (slot : ℕ) : Bool :=
  match s.skipPredicate with
  | none => false
  | some pred => pred (s.kindForSlot slot)

/-- One step around a cycle of `n` positions, forward for `direction ≥ 0`. -/
def stepCyclic (n : ℕ) (direction : ℤ) (i : ℕ) : ℕ :=
  if direction ≥ 0 then (i + 1) % n else (i + n - 1) % n

theorem stepCyclic_lt {n : ℕ} (hn : 0 < n) (direction : ℤ) (i : ℕ) :
    stepCyclic n direction i < n := by
  unfold stepCyclic
  split <;> exact Nat.mod_lt _ hn

/-- The loop of `AdvancePastSkipped` with `guard` turns left. -/
def advancePastSkippedLoop (s : ScreenManager) (direction : ℤ) : ℕ → ℕ → ℕ
  | 0, slot => slot
  | guard + 1, slot =>
      if s.skips slot then
        advancePastSkippedLoop s direction guard (stepCyclic s.slotCount direction slot)
      else slot

def advancePastSkipped (s : ScreenManager) (direction : ℤ) : ScreenManager :=
  match s.skipPredicate with
  | none => s
  | some _ =>
      { s with slot := advancePastSkippedLoop s direction s.slotCount s.slot }

/-- The index of `slot` in the rotation sequence, its length when it is absent. -/
def indexForSlot (s : ScreenManager) (slot : ℕ) : ℕ :=
  s.rotationSequence.idxOf slot

/-- The loop of `AdvanceInSequence` with `guard` turns left, from the sequence index
`idx`. -/
def advanceInSequenceLoop (s : ScreenManager) (direction : ℤ) : ℕ → ℕ → ℕ
  | 0, idx => idx
  | guard + 1, idx =>
      if s.skips (s.rotationSequence.getD idx 0) then
        advanceInSequenceLoop s direction guard
          (stepCyclic s.rotationSequence.length direction idx)
      else idx

def advanceInSequence (s : ScreenManager) (direction : ℤ) : ScreenManager :=
  if s.rotationSequence = [] then s
  else
    let idx :=
      advanceInSequenceLoop s direction s.rotationSequence.length s.rotationIdx
    { s with rotationIdx := idx, slot := s.rotationSequence.getD idx 0 }

/-- The position of the displayed slot in the rotation sequence, the start when it is
not in it. -/
def syncRotationIdx (s : ScreenManager) : ℕ :=
  let idx := s.indexForSlot s.slot
  if idx < s.rotationSequence.length then idx else 0

def setRotationSequence (s : ScreenManager) (sequence : List ℕ) : ScreenManager :=
  let s := { s with rotationSequence := sequence, rotationIdx := 0 }
  if s.rotationSequence = [] then s
  else { s with rotationIdx := s.syncRotationIdx }

/-- Every overlay which a navigation dismisses is cleared. -/
def clearOverlays (s : ScreenManager) : ScreenManager :=
  { s with customActive := false, zapActive := false, nwcNotifyActive := false }

/-- The end of every navigation: a repaint is due and the rotation period restarts. -/
def markNavigation (s : ScreenManager) (nowMs : ℤ) : ScreenManager :=
  { s with screenChangePending := true, rot := s.rot.restart nowMs }

def setSlot (s : ScreenManager) (slot : ℕ) (nowMs : ℤ) : ScreenManager :=
  let s := { s with slot := slot % s.slotCount }
  let s :=
    if s.rotationSequence = [] then s
    else { s with rotationIdx := s.syncRotationIdx }
  s.clearOverlays.markNavigation nowMs

/-- The first slot of the given kind. -/
def slotOfKind (s : ScreenManager) (kind : ScreenType) : Option ℕ :=
  (List.range s.slotCount).find? fun slot => s.kindForSlot slot == kind

def setKind (s : ScreenManager) (kind : ScreenType) (nowMs : ℤ) :
    ScreenManager × Bool :=
  match s.slotOfKind kind with
  | some slot => (s.setSlot slot nowMs, true)
  | none => (s, false)

def setCurrency (s : ScreenManager) (ccy : String) (nowMs : ℤ) :
    ScreenManager × Bool :=
  match s.currencies.findIdx? (· == ccy) with
  | some i =>
      (s.setSlot (transposeSlotToCurrency s.slot i s.currencies.length) nowMs, true)
  | none => (s, false)

def setCustomCells (s : ScreenManager) (cells : List String) (nowMs : ℤ) :
    ScreenManager :=
  { s with
    customCells := Vector.ofFn fun i => cells.getD i ""
    customActive := true
    zapActive := false
    nwcNotifyActive := false }.markNavigation nowMs

/-- The time an overlay stays up: the caller's when positive, else the default. -/
def overlayTimeout (timeoutMs : ℤ) : ℤ :=
  if timeoutMs > 0 then timeoutMs else kZapTimeoutMs

def setNwcPaymentNotify (s : ScreenManager) (nowMs : ℤ) (autoRestore : Bool)
    (timeoutMs : ℤ) : ScreenManager :=
  { s with
    nwcNotifyActive := true
    nwcNotifyAutoRestore := autoRestore
    nwcNotifyActiveUntil := nowMs + overlayTimeout timeoutMs
    zapActive := false }.markNavigation nowMs

def setZapNotify (s : ScreenManager) (nowMs : ℤ) (autoRestore : Bool)
    (timeoutMs : ℤ) : ScreenManager :=
  { s with
    zapActive := true
    zapAutoRestore := autoRestore
    nwcNotifyActive := false
    zapActiveUntil := nowMs + overlayTimeout timeoutMs }.markNavigation nowMs

/-- The move which `NextScreen`, `PrevScreen` and `MaybeAutoRotate` share.  Leaving an
overlay lands on the slot under it. -/
def stepRotation (s : ScreenManager) (direction : ℤ) (exitingOverlay : Bool) :
    ScreenManager :=
  if s.rotationSequence = [] then
    let s :=
      if exitingOverlay then s
      else { s with slot := stepCyclic s.slotCount direction s.slot }
    s.advancePastSkipped direction
  else
    let s :=
      if exitingOverlay then s
      else
        { s with
          rotationIdx := stepCyclic s.rotationSequence.length direction s.rotationIdx }
    s.advanceInSequence direction

def overlayActive (s : ScreenManager) : Bool :=
  s.customActive || s.zapActive || s.nwcNotifyActive

def nextScreen (s : ScreenManager) (nowMs : ℤ) : ScreenManager :=
  (s.clearOverlays.stepRotation 1 s.overlayActive).markNavigation nowMs

def prevScreen (s : ScreenManager) (nowMs : ℤ) : ScreenManager :=
  (s.clearOverlays.stepRotation (-1) s.overlayActive).markNavigation nowMs

def maybeAutoRotate (s : ScreenManager) (nowMs periodMs : ℤ) : ScreenManager × Bool :=
  if s.otaActive then (s, false)
  else if s.debugMode then (s, false)
  else if s.nwcNotifyActive then
    if s.nwcNotifyAutoRestore = true ∧ nowMs > s.nwcNotifyActiveUntil then
      ({ s with nwcNotifyActive := false }.markNavigation nowMs, true)
    else (s, false)
  else if s.zapActive then
    if s.zapAutoRestore = true ∧ nowMs > s.zapActiveUntil then
      ({ s with zapActive := false }.markNavigation nowMs, true)
    else (s, false)
  else if s.rot.shouldAdvance nowMs periodMs then
    let exitingCustom := s.customActive
    let s := { s with customActive := false }
    ((s.stepRotation 1 exitingCustom).markNavigation nowMs, true)
  else (s, false)

/-- The (kind, currency code) pair of the displayed slot goes to its place in the new
layout. -/
def setCurrencies (s : ScreenManager) (currencies : List String) : ScreenManager :=
  if h : currencies = [] then s
  else
    let kindBefore := s.kindForSlot s.slot
    let ccyBefore :=
      if s.slot ≥ kAgnosticSlots ∧ s.isFeeRateSlot = false then
        s.currencies.getD ((s.slot - kAgnosticSlots) / kPerCurrencySlots) ""
      else ""
    let n := SlotMap.slotCount currencies.length
    let slot :=
      if kindBefore = .blockFeeRate then n - 1
      else if s.slot ≥ n then 0
      else if ccyBefore ≠ "" then
        match currencies.findIdx? (· == ccyBefore) with
        | some i => kAgnosticSlots + kPerCurrencySlots * i + offsetOfKind kindBefore
        | none => 0
      else s.slot
    { s with currencies := currencies, currencies_ne_nil := h, slot := slot }

def markDirty (s : ScreenManager) : ScreenManager :=
  { s with dirty := true }

/-- The end of a paint: both repaint requests are served. -/
def paintDone (s : ScreenManager) : ScreenManager :=
  { s with dirty := false, screenChangePending := false }

def setPaused (s : ScreenManager) (paused : Bool) : ScreenManager :=
  { s with rot := { s.rot with paused := paused } }

def togglePaused (s : ScreenManager) : ScreenManager :=
  s.setPaused (!s.rot.paused)

def setOtaOverlay (s : ScreenManager) (active : Bool) : ScreenManager :=
  { s with otaActive := active }

def enterDebug (s : ScreenManager) : ScreenManager :=
  { s with debugMode := true }

def exitDebug (s : ScreenManager) (nowMs : ℤ) : ScreenManager :=
  { s with debugMode := false, dirty := true, rot := s.rot.restart nowMs }

def toggleDebug (s : ScreenManager) (nowMs : ℤ) : ScreenManager :=
  if s.debugMode then s.exitDebug nowMs else s.enterDebug

def restartTimer (s : ScreenManager) (nowMs : ℤ) : ScreenManager :=
  { s with rot := s.rot.restart nowMs }

def setSkipPredicate (s : ScreenManager) (pred : Option (ScreenType → Bool)) :
    ScreenManager :=
  { s with skipPredicate := pred }

def seedLastSeenHeight (s : ScreenManager) (height : UInt32) : ScreenManager :=
  { s with lastSeenHeight := height }

/-- Is the snapshot's height a block which was not seen yet? -/
def consumeNewBlock (s : ScreenManager) (blockHeight : Option UInt32) :
    ScreenManager × Bool :=
  match blockHeight with
  | none => (s, false)
  | some h =>
      ({ s with lastSeenHeight := h },
        decide (s.lastSeenHeight ≠ 0) && decide (h ≠ s.lastSeenHeight))

end ScreenManager

end BtClock
