import BtClock.Screen.Manager
import BtClock.Transition.Run

/-!
# Runs of the screen manager

Every operation of `ScreenManager` is one event.  A state is reachable when a run of
such events leads to it from a freshly constructed manager.
-/

namespace BtClock

namespace ScreenManager

/-- A call of one of the manager's operations. -/
inductive Op
  | setSlot (slot : ℕ) (nowMs : ℤ)
  | setKind (kind : ScreenType) (nowMs : ℤ)
  | setCurrency (ccy : String) (nowMs : ℤ)
  | setCurrencies (currencies : List String)
  | setRotationSequence (sequence : List ℕ)
  | setSkipPredicate (pred : Option (ScreenType → Bool))
  | setCustomCells (cells : List String) (nowMs : ℤ)
  | setZapNotify (nowMs : ℤ) (autoRestore : Bool) (timeoutMs : ℤ)
  | setNwcPaymentNotify (nowMs : ℤ) (autoRestore : Bool) (timeoutMs : ℤ)
  | nextScreen (nowMs : ℤ)
  | prevScreen (nowMs : ℤ)
  | maybeAutoRotate (nowMs periodMs : ℤ)
  | setPaused (paused : Bool)
  | togglePaused
  | restartTimer (nowMs : ℤ)
  | setOtaOverlay (active : Bool)
  | enterDebug
  | exitDebug (nowMs : ℤ)
  | toggleDebug (nowMs : ℤ)
  | markDirty
  | paintDone
  | seedLastSeenHeight (height : UInt32)
  | consumeNewBlock (blockHeight : Option UInt32)

def step (s : ScreenManager) : Op → ScreenManager
  | .setSlot slot nowMs => s.setSlot slot nowMs
  | .setKind kind nowMs => (s.setKind kind nowMs).1
  | .setCurrency ccy nowMs => (s.setCurrency ccy nowMs).1
  | .setCurrencies currencies => s.setCurrencies currencies
  | .setRotationSequence sequence => s.setRotationSequence sequence
  | .setSkipPredicate pred => s.setSkipPredicate pred
  | .setCustomCells cells nowMs => s.setCustomCells cells nowMs
  | .setZapNotify nowMs autoRestore timeoutMs =>
      s.setZapNotify nowMs autoRestore timeoutMs
  | .setNwcPaymentNotify nowMs autoRestore timeoutMs =>
      s.setNwcPaymentNotify nowMs autoRestore timeoutMs
  | .nextScreen nowMs => s.nextScreen nowMs
  | .prevScreen nowMs => s.prevScreen nowMs
  | .maybeAutoRotate nowMs periodMs => (s.maybeAutoRotate nowMs periodMs).1
  | .setPaused paused => s.setPaused paused
  | .togglePaused => s.togglePaused
  | .restartTimer nowMs => s.restartTimer nowMs
  | .setOtaOverlay active => s.setOtaOverlay active
  | .enterDebug => s.enterDebug
  | .exitDebug nowMs => s.exitDebug nowMs
  | .toggleDebug nowMs => s.toggleDebug nowMs
  | .markDirty => s.markDirty
  | .paintDone => s.paintDone
  | .seedLastSeenHeight height => s.seedLastSeenHeight height
  | .consumeNewBlock blockHeight => (s.consumeNewBlock blockHeight).1

/-- The states which a run from the constructor reaches. -/
def Reachable (s : ScreenManager) : Prop :=
  ∃ (nowMs : ℤ) (currencies : List String) (h : currencies ≠ []) (ops : List Op),
    s = Transition.run step (create nowMs currencies h) ops

theorem reachable_create (nowMs : ℤ) (currencies : List String)
    (h : currencies ≠ []) : Reachable (create nowMs currencies h) :=
  ⟨nowMs, currencies, h, [], rfl⟩

theorem Reachable.step {s : ScreenManager} (hs : Reachable s) (op : Op) :
    Reachable (s.step op) := by
  obtain ⟨nowMs, currencies, h, ops, rfl⟩ := hs
  exact ⟨nowMs, currencies, h, ops ++ [op],
    (Transition.run_append_singleton _ _ _ _).symm⟩

end ScreenManager

end BtClock
