import BtClock.Screen.ManagerRun

/-!
# The overlays of the screen manager

The update screen, the debug screen, the two notifications and the custom text are laid
over the rotation, each with its own latch.  The kind on display is the one of the topmost
latch, and most operations leave the latches alone.
-/

namespace BtClock

namespace ScreenManager

/-- The latches of the overlays, from the topmost to the lowest one. -/
structure Latches where
  ota : Bool
  debug : Bool
  nwcNotify : Bool
  zap : Bool
  custom : Bool
  deriving DecidableEq

def latches (s : ScreenManager) : Latches where
  ota := s.otaActive
  debug := s.debugMode
  nwcNotify := s.nwcNotifyActive
  zap := s.zapActive
  custom := s.customActive

/-- A call which is about the currencies, the rotation timer or the next paint. -/
def Op.keepsOverlays : Op → Bool
  | .setCurrencies _ => true
  | .setRotationSequence _ => true
  | .setSkipPredicate _ => true
  | .setPaused _ => true
  | .togglePaused => true
  | .restartTimer _ => true
  | .markDirty => true
  | .paintDone => true
  | .seedLastSeenHeight _ => true
  | .consumeNewBlock _ => true
  | _ => false

theorem latches_step {s : ScreenManager} (op : Op) (hop : op.keepsOverlays = true) :
    (s.step op).latches = s.latches := by
  cases op with
  | setCurrencies currencies =>
      simp only [step, setCurrencies]
      split <;> rfl
  | setRotationSequence sequence =>
      simp only [step, setRotationSequence]
      split <;> rfl
  | consumeNewBlock blockHeight => cases blockHeight <;> rfl
  | setSkipPredicate | setPaused | togglePaused | restartTimer | markDirty | paintDone
  | seedLastSeenHeight => rfl
  | _ => cases hop

@[simp]
theorem latches_advancePastSkipped (s : ScreenManager) (direction : ℤ) :
    (s.advancePastSkipped direction).latches = s.latches := by
  unfold advancePastSkipped
  split <;> rfl

@[simp]
theorem latches_advanceInSequence (s : ScreenManager) (direction : ℤ) :
    (s.advanceInSequence direction).latches = s.latches := by
  unfold advanceInSequence
  split <;> rfl

@[simp]
theorem latches_stepRotation (s : ScreenManager) (direction : ℤ) (exitingOverlay : Bool) :
    (s.stepRotation direction exitingOverlay).latches = s.latches := by
  simp only [stepRotation]
  split
  · rw [latches_advancePastSkipped]
    split <;> rfl
  · rw [latches_advanceInSequence]
    split <;> rfl

@[simp]
theorem zapActive_stepRotation (s : ScreenManager) (direction : ℤ) (exitingOverlay : Bool) :
    (s.stepRotation direction exitingOverlay).zapActive = s.zapActive :=
  congrArg Latches.zap (s.latches_stepRotation direction exitingOverlay)

@[simp]
theorem nwcNotifyActive_stepRotation (s : ScreenManager) (direction : ℤ)
    (exitingOverlay : Bool) :
    (s.stepRotation direction exitingOverlay).nwcNotifyActive = s.nwcNotifyActive :=
  congrArg Latches.nwcNotify (s.latches_stepRotation direction exitingOverlay)

@[simp]
theorem latches_markNavigation (s : ScreenManager) (nowMs : ℤ) :
    (s.markNavigation nowMs).latches = s.latches :=
  rfl

/-- A navigation to a slot dismisses the notifications and the custom text. -/
theorem latches_setSlot (s : ScreenManager) (slot : ℕ) (nowMs : ℤ) :
    (s.setSlot slot nowMs).latches =
      { s.latches with nwcNotify := false, zap := false, custom := false } := by
  simp only [setSlot]
  split <;> rfl

/-- A call about the update screen or the debug screen. -/
def Op.system : Op → Bool
  | .setOtaOverlay _ => true
  | .enterDebug => true
  | .exitDebug _ => true
  | .toggleDebug _ => true
  | _ => false

theorem system_latches_stepRotation (s : ScreenManager) (direction : ℤ)
    (exitingOverlay : Bool) :
    (s.stepRotation direction exitingOverlay).otaActive = s.otaActive ∧
      (s.stepRotation direction exitingOverlay).debugMode = s.debugMode :=
  ⟨congrArg Latches.ota (s.latches_stepRotation direction exitingOverlay),
    congrArg Latches.debug (s.latches_stepRotation direction exitingOverlay)⟩

theorem system_latches_setSlot (s : ScreenManager) (slot : ℕ) (nowMs : ℤ) :
    (s.setSlot slot nowMs).otaActive = s.otaActive ∧
      (s.setSlot slot nowMs).debugMode = s.debugMode :=
  ⟨congrArg Latches.ota (s.latches_setSlot slot nowMs),
    congrArg Latches.debug (s.latches_setSlot slot nowMs)⟩

/-- The update screen and the debug screen have calls of their own. -/
theorem system_latches_step {s : ScreenManager} {op : Op} (hop : op.system = false) :
    (s.step op).otaActive = s.otaActive ∧ (s.step op).debugMode = s.debugMode := by
  cases op with
  | setOtaOverlay | enterDebug | exitDebug | toggleDebug => cases hop
  | nextScreen nowMs => exact s.clearOverlays.system_latches_stepRotation 1 _
  | prevScreen nowMs => exact s.clearOverlays.system_latches_stepRotation (-1) _
  | setSlot slot nowMs => exact s.system_latches_setSlot slot nowMs
  | setKind kind nowMs =>
      simp only [step, setKind]
      split
      · exact s.system_latches_setSlot _ nowMs
      · exact ⟨rfl, rfl⟩
  | setCurrency ccy nowMs =>
      simp only [step, setCurrency]
      split
      · exact s.system_latches_setSlot _ nowMs
      · exact ⟨rfl, rfl⟩
  | setCurrencies currencies =>
      simp only [step, setCurrencies]
      split <;> exact ⟨rfl, rfl⟩
  | setRotationSequence sequence =>
      simp only [step, setRotationSequence]
      split <;> exact ⟨rfl, rfl⟩
  | maybeAutoRotate nowMs periodMs =>
      simp only [step, maybeAutoRotate]
      split_ifs
      all_goals first
        | exact ⟨rfl, rfl⟩
        | exact system_latches_stepRotation _ 1 _
  | consumeNewBlock blockHeight => cases blockHeight <;> exact ⟨rfl, rfl⟩
  | _ => exact ⟨rfl, rfl⟩

/-- Only `SetOtaOverlay` touches the latch of the update screen. -/
theorem otaActive_step {s : ScreenManager} {op : Op}
    (hop : ∀ active, op ≠ .setOtaOverlay active) :
    (s.step op).otaActive = s.otaActive := by
  cases hsystem : op.system with
  | false => exact (system_latches_step hsystem).1
  | true =>
      cases op with
      | setOtaOverlay active => exact absurd rfl (hop active)
      | toggleDebug nowMs =>
          simp only [step, toggleDebug]
          split <;> rfl
      | enterDebug | exitDebug => rfl
      | _ => cases hsystem

/-- At most one of the two notifications is up. -/
theorem oneNotice_step {s : ScreenManager}
    (h : ¬ (s.zapActive = true ∧ s.nwcNotifyActive = true)) (op : Op) :
    ¬ ((s.step op).zapActive = true ∧ (s.step op).nwcNotifyActive = true) := by
  have hsetSlot (slot : ℕ) (nowMs : ℤ) : (s.setSlot slot nowMs).zapActive = false :=
    congrArg Latches.zap (s.latches_setSlot slot nowMs)
  cases op with
  | setSlot slot nowMs => simp [step, hsetSlot]
  | setKind kind nowMs =>
      simp only [step, setKind]
      split
      · simp [hsetSlot]
      · exact h
  | setCurrency ccy nowMs =>
      simp only [step, setCurrency]
      split
      · simp [hsetSlot]
      · exact h
  | setCurrencies currencies =>
      simp only [step, setCurrencies]
      split <;> exact h
  | setRotationSequence sequence =>
      simp only [step, setRotationSequence]
      split <;> exact h
  | setCustomCells cells nowMs => simp [step, setCustomCells, markNavigation]
  | setZapNotify nowMs autoRestore timeoutMs =>
      simp [step, setZapNotify, markNavigation]
  | setNwcPaymentNotify nowMs autoRestore timeoutMs =>
      simp [step, setNwcPaymentNotify, markNavigation]
  | nextScreen nowMs => simp [step, nextScreen, markNavigation, clearOverlays]
  | prevScreen nowMs => simp [step, prevScreen, markNavigation, clearOverlays]
  | maybeAutoRotate nowMs periodMs =>
      simp only [step, maybeAutoRotate]
      split_ifs <;> simp_all [markNavigation]
  | toggleDebug nowMs =>
      simp only [step, toggleDebug]
      split <;> exact h
  | consumeNewBlock blockHeight => cases blockHeight <;> exact h
  | _ => exact h

/-- A slot shows no overlay. -/
theorem kindForSlot_ne_notice (s : ScreenManager) (slot : ℕ) :
    s.kindForSlot slot ≠ .nwcPaymentNotify ∧ s.kindForSlot slot ≠ .nostrZap := by
  unfold kindForSlot BtClock.kindForSlot
  split
  · decide
  · split <;> try decide
    split <;> decide

theorem currentKind_eq_nwcPaymentNotify_iff (s : ScreenManager) :
    s.currentKind = .nwcPaymentNotify ↔
      s.otaActive = false ∧ s.debugMode = false ∧ s.nwcNotifyActive = true := by
  have hslot := (s.kindForSlot_ne_notice s.slot).1
  unfold currentKind
  split_ifs <;> simp_all

theorem currentKind_eq_nostrZap_iff (s : ScreenManager) :
    s.currentKind = .nostrZap ↔
      s.otaActive = false ∧ s.debugMode = false ∧ s.nwcNotifyActive = false ∧
        s.zapActive = true := by
  have hslot := (s.kindForSlot_ne_notice s.slot).2
  unfold currentKind
  split_ifs <;> simp_all

/-- A notification which is on display stays there as long as the latches do. -/
theorem currentKind_congr {s s' : ScreenManager} (h : s'.latches = s.latches)
    (hkind : s.currentKind = .nwcPaymentNotify ∨ s.currentKind = .nostrZap) :
    s'.currentKind = s.currentKind := by
  simp only [latches, Latches.mk.injEq] at h
  obtain ⟨hota, hdebug, hnwc, hzap, -⟩ := h
  rcases hkind with hkind | hkind
  · rw [hkind, currentKind_eq_nwcPaymentNotify_iff, hota, hdebug, hnwc]
    exact (currentKind_eq_nwcPaymentNotify_iff s).mp hkind
  · rw [hkind, currentKind_eq_nostrZap_iff, hota, hdebug, hnwc, hzap]
    exact (currentKind_eq_nostrZap_iff s).mp hkind

end ScreenManager

end BtClock
