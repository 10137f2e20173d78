import BtClock.Screen.Overlay
import BtClock.Screen.RotationPlan
import BtClock.Screen.SetCurrencies

/-!
# The rotation stays inside the layout

The boot and the command which rebuilds the screens install the currencies together with a
rotation sequence for them.  The refresh of the currencies after the first connection
replaces the currencies alone, so the sequence may keep entries for slots which the
smaller layout no longer has.
-/

namespace BtClock

open SlotMap RotationPlan Settings

/-! ### What the firmware does with the manager -/

/-- The stored currency codes, the dollar when there is none. -/
def activeCurrencies (prefs : Prefs) : List String :=
  let codes := splitCsv (readString prefs "actCurrencies")
  if codes = [] then ["USD"] else codes

theorem activeCurrencies_ne_nil (prefs : Prefs) : activeCurrencies prefs ≠ [] := by
  simp only [activeCurrencies]
  split
  · simp
  · assumption

/-- The screen manager, and the currencies which the firmware keeps beside it. -/
structure ScreenCtx where
  sm : ScreenManager
  currencies : List String

namespace ScreenCtx

/-- Installs the sequence of the stored screen order for the manager's currencies. -/
def planRotation (prefs : Prefs) (s : ScreenManager) : ScreenManager :=
  s.setRotationSequence
    (buildRotationSequence (readString prefs "screenOrder") (screenEnabled prefs)
      s.currencies.length)

/-- The earnings of a pool which pays nothing out are skipped. -/
def skipEarnings (prefs : Prefs) (kind : ScreenType) : Bool :=
  kind == .miningPoolEarnings &&
    !MiningPools.poolSupportsDailyEarnings (readString prefs "miningPoolName")

/-- `InitScreenManager`, from the settings and the persisted slot and height. -/
def initScreenManager (prefs : Prefs) (lastSlot lastBlockHeight : UInt32) (nowMs : ℤ) :
    ScreenCtx :=
  let currencies := activeCurrencies prefs
  let s := ScreenManager.create nowMs currencies (activeCurrencies_ne_nil prefs)
  let s := s.setPaused (!prefs.getBool "timerActive" true)
  let s := planRotation prefs s
  let s :=
    match resumeSlot lastSlot s.slotCount s.rotationSequence with
    | some slot => s.setSlot slot nowMs
    | none => s
  let s := if lastBlockHeight ≠ 0 then s.seedLastSeenHeight lastBlockHeight else s
  { sm := s.setSkipPredicate (some (skipEarnings prefs)), currencies := currencies }

/-- The command `kRebuildScreens`. -/
def rebuildScreens (prefs : Prefs) (c : ScreenCtx) : ScreenCtx where
  sm := planRotation prefs (c.sm.setCurrencies (activeCurrencies prefs))
  currencies := activeCurrencies prefs

/-- The active codes which upstream serves, upstream's first code when there is none. -/
def pruneCurrencies (active available : List String) : List String :=
  let filtered := active.filter fun code => decide (code ∈ available)
  if filtered = [] then available.head?.toList else filtered

/-- `RefreshUpstreamCurrencies`, from the codes which were fetched. -/
def refreshUpstreamCurrencies (fetched : List String) (c : ScreenCtx) : ScreenCtx :=
  if fetched = [] then c
  else
    let filtered := pruneCurrencies c.currencies fetched
    if filtered = c.currencies then c
    else { sm := c.sm.setCurrencies filtered, currencies := filtered }

end ScreenCtx

/-- A call which replaces the currencies or the sequence. -/
def ScreenManager.Op.rebuilds : ScreenManager.Op → Bool
  | .setCurrencies _ => true
  | .setRotationSequence _ => true
  | _ => false

/-- What the firmware does with the manager after the boot.  The currencies and the
sequence are replaced by the two functions above only. -/
inductive FirmwareOp
  | manager (op : ScreenManager.Op) (keeps : op.rebuilds = false)
  | rebuildScreens (prefs : Prefs)
  | refreshUpstreamCurrencies (fetched : List String)

namespace ScreenCtx

def step (c : ScreenCtx) : FirmwareOp → ScreenCtx
  | .manager op _ => { c with sm := c.sm.step op }
  | .rebuildScreens prefs => c.rebuildScreens prefs
  | .refreshUpstreamCurrencies fetched => c.refreshUpstreamCurrencies fetched

/-- The refresh leaves the currencies as they are, or every entry of the installed
sequence is a slot of the layout for the pruned list. -/
def KeepsRotation (c : ScreenCtx) : FirmwareOp → Prop
  | .refreshUpstreamCurrencies fetched =>
      fetched = [] ∨ pruneCurrencies c.currencies fetched = c.currencies ∨
        ∀ slot ∈ c.sm.rotationSequence,
          slot < slotCount (pruneCurrencies c.currencies fetched).length
  | _ => True

end ScreenCtx

/-! ### The invariant -/

namespace ScreenManager

/-- The displayed slot and the rotation are inside the layout. -/
structure Placed (s : ScreenManager) : Prop where
  slot_lt : s.slot < s.slotCount
  entries_lt : ∀ slot ∈ s.rotationSequence, slot < s.slotCount
  sequence_ne_nil : s.rotationSequence ≠ []
  rotationIdx_lt : s.rotationIdx < s.rotationSequence.length

/-- The index which `currentCurrency` computes for a per-currency slot. -/
def currencyIndex (s : ScreenManager) : Option ℕ :=
  if s.slot < kAgnosticSlots ∨ s.isFeeRateSlot = true then none
  else some ((s.slot - kAgnosticSlots) / kPerCurrencySlots)

/-- The index invariant of the manager. -/
structure IndexInvariant (s : ScreenManager) : Prop extends Placed s where
  currencyIndex_lt : ∀ i, s.currencyIndex = some i → i < s.currencies.length
  overlays : ¬ (s.zapActive = true ∧ s.nwcNotifyActive = true)

theorem Placed.currencyIndex_lt {s : ScreenManager} (h : s.Placed) {i : ℕ}
    (hi : s.currencyIndex = some i) : i < s.currencies.length := by
  have hlt : s.slot < 3 * s.currencies.length + 11 := by
    simpa [slotCount, slotCount_eq] using h.slot_lt
  unfold currencyIndex at hi
  split at hi
  · cases hi
  · rename_i hslot
    obtain rfl := Option.some.inj hi
    simp only [isFeeRateSlot, slotCount, slotCount_eq, beq_iff_eq, not_or] at hslot
    simp only [kAgnosticSlots, kPerCurrencySlots] at hslot ⊢
    omega

theorem Placed.indexInvariant {s : ScreenManager} (h : s.Placed)
    (hoverlays : ¬ (s.zapActive = true ∧ s.nwcNotifyActive = true)) : s.IndexInvariant where
  toPlaced := h
  currencyIndex_lt _ hi := h.currencyIndex_lt hi
  overlays := hoverlays

theorem slotCount_pos (s : ScreenManager) : 0 < s.slotCount :=
  SlotMap.slotCount_pos _

theorem syncRotationIdx_lt {s : ScreenManager} (h : s.rotationSequence ≠ []) :
    s.syncRotationIdx < s.rotationSequence.length := by
  simp only [syncRotationIdx]
  split
  · assumption
  · exact List.length_pos_iff.mpr h

/-- A sequence for the layout puts the rotation inside it. -/
theorem placed_setRotationSequence {s : ScreenManager} {sequence : List ℕ}
    (hslot : s.slot < s.slotCount) (hne : sequence ≠ [])
    (hentries : ∀ slot ∈ sequence, slot < s.slotCount) :
    (s.setRotationSequence sequence).Placed := by
  simp only [setRotationSequence, hne, if_false]
  exact ⟨hslot, hentries, hne, syncRotationIdx_lt hne⟩

theorem placed_setSlot {s : ScreenManager} (h : s.Placed) (slot : ℕ) (nowMs : ℤ) :
    (s.setSlot slot nowMs).Placed := by
  simp only [setSlot, h.sequence_ne_nil, if_false]
  exact ⟨Nat.mod_lt _ s.slotCount_pos, h.entries_lt, h.sequence_ne_nil,
    syncRotationIdx_lt h.sequence_ne_nil⟩

theorem advanceInSequenceLoop_lt (s : ScreenManager) (direction : ℤ) (guard : ℕ) {idx : ℕ}
    (h : idx < s.rotationSequence.length) :
    s.advanceInSequenceLoop direction guard idx < s.rotationSequence.length := by
  induction guard generalizing idx with
  | zero => exact h
  | succ guard ih =>
      simp only [advanceInSequenceLoop]
      split
      · exact ih (stepCyclic_lt (Nat.zero_lt_of_lt h) direction _)
      · exact h

theorem placed_advanceInSequence {s : ScreenManager} (h : s.Placed) (direction : ℤ) :
    (s.advanceInSequence direction).Placed := by
  have hidx := s.advanceInSequenceLoop_lt direction s.rotationSequence.length
    h.rotationIdx_lt
  simp only [advanceInSequence, h.sequence_ne_nil, if_false]
  refine ⟨?_, h.entries_lt, h.sequence_ne_nil, hidx⟩
  show s.rotationSequence.getD _ 0 < s.slotCount
  rw [List.getD_eq_getElem?_getD, List.getElem?_eq_getElem hidx, Option.getD_some]
  exact h.entries_lt _ (List.getElem_mem hidx)

theorem Placed.withIdx {s : ScreenManager} (h : s.Placed) {idx : ℕ}
    (hidx : idx < s.rotationSequence.length) : { s with rotationIdx := idx }.Placed :=
  ⟨h.slot_lt, h.entries_lt, h.sequence_ne_nil, hidx⟩

theorem placed_stepRotation {s : ScreenManager} (h : s.Placed) (direction : ℤ)
    (exitingOverlay : Bool) : (s.stepRotation direction exitingOverlay).Placed := by
  simp only [stepRotation, h.sequence_ne_nil, if_false]
  cases exitingOverlay with
  | true => exact placed_advanceInSequence h direction
  | false =>
      have hidx := stepCyclic_lt (List.length_pos_iff.mpr h.sequence_ne_nil) direction
        s.rotationIdx
      exact placed_advanceInSequence (h.withIdx hidx) direction

theorem Placed.clearOverlays {s : ScreenManager} (h : s.Placed) : s.clearOverlays.Placed :=
  ⟨h.slot_lt, h.entries_lt, h.sequence_ne_nil, h.rotationIdx_lt⟩

theorem Placed.markNavigation {s : ScreenManager} (h : s.Placed) (nowMs : ℤ) :
    (s.markNavigation nowMs).Placed :=
  ⟨h.slot_lt, h.entries_lt, h.sequence_ne_nil, h.rotationIdx_lt⟩

theorem placed_maybeAutoRotate {s : ScreenManager} (h : s.Placed) (nowMs periodMs : ℤ) :
    (s.maybeAutoRotate nowMs periodMs).1.Placed := by
  have hplain : ∀ zap nwc custom : Bool, ({ s with
      zapActive := zap, nwcNotifyActive := nwc, customActive := custom }).Placed :=
    fun _ _ _ => ⟨h.slot_lt, h.entries_lt, h.sequence_ne_nil, h.rotationIdx_lt⟩
  unfold maybeAutoRotate
  split_ifs
  · exact h
  · exact h
  · exact (hplain _ _ _).markNavigation nowMs
  · exact h
  · exact (hplain _ _ _).markNavigation nowMs
  · exact h
  · exact (placed_stepRotation (hplain _ _ _) 1 _).markNavigation nowMs
  · exact h

/-- Only a replacement of the currencies can leave the rotation outside the layout. -/
theorem placed_step {s : ScreenManager} (h : s.Placed) {op : Op}
    (hop : op.rebuilds = false) : (s.step op).Placed := by
  have hsame : ∀ s' : ScreenManager, s'.currencies = s.currencies → s'.slot = s.slot →
      s'.rotationSequence = s.rotationSequence → s'.rotationIdx = s.rotationIdx →
      s'.Placed := by
    intro s' hcurrencies hslot hsequence hidx
    have hcount : s'.slotCount = s.slotCount := by rw [slotCount, slotCount, hcurrencies]
    exact ⟨by rw [hslot, hcount]; exact h.slot_lt,
      by rw [hsequence, hcount]; exact h.entries_lt,
      by rw [hsequence]; exact h.sequence_ne_nil,
      by rw [hidx, hsequence]; exact h.rotationIdx_lt⟩
  cases op with
  | setSlot slot nowMs => exact placed_setSlot h slot nowMs
  | setKind kind nowMs =>
      simp only [step, setKind]
      split
      · exact placed_setSlot h _ nowMs
      · exact h
  | setCurrency ccy nowMs =>
      simp only [step, setCurrency]
      split
      · exact placed_setSlot h _ nowMs
      · exact h
  | setCurrencies currencies => cases hop
  | setRotationSequence sequence => cases hop
  | nextScreen nowMs =>
      exact (placed_stepRotation h.clearOverlays 1 _).markNavigation nowMs
  | prevScreen nowMs =>
      exact (placed_stepRotation h.clearOverlays (-1) _).markNavigation nowMs
  | maybeAutoRotate nowMs periodMs => exact placed_maybeAutoRotate h nowMs periodMs
  | toggleDebug nowMs =>
      simp only [step, toggleDebug]
      split <;> exact hsame _ rfl rfl rfl rfl
  | consumeNewBlock blockHeight => cases blockHeight <;> exact hsame _ rfl rfl rfl rfl
  | _ => exact hsame _ rfl rfl rfl rfl

theorem offsetOfKind_lt (kind : ScreenType) : offsetOfKind kind < kPerCurrencySlots := by
  cases kind <;> decide

/-- The display is inside the new layout, whatever it was before. -/
theorem setCurrencies_slot_lt (s : ScreenManager) {new : List String} (hnew : new ≠ []) :
    (s.setCurrencies new).slot < SlotMap.slotCount new.length := by
  have hpos := SlotMap.slotCount_pos new.length
  simp only [setCurrencies, hnew, dif_neg, not_false_eq_true]
  generalize (if s.slot ≥ kAgnosticSlots ∧ s.isFeeRateSlot = false then _ else "") = ccy
  split_ifs with _ hbeyond
  · exact Nat.sub_lt hpos Nat.one_pos
  · exact hpos
  · split
    · rename_i i hi
      have hlt : i < new.length := (List.findIdx?_eq_some_iff_getElem.mp hi).1
      have hoff := offsetOfKind_lt (s.kindForSlot s.slot)
      rw [slotCount_eq]
      simp only [kAgnosticSlots, kPerCurrencySlots] at hoff ⊢
      omega
    · exact hpos
  · exact Nat.not_le.mp hbeyond

theorem setCurrencies_rotation (s : ScreenManager) (new : List String) :
    (s.setCurrencies new).rotationSequence = s.rotationSequence ∧
      (s.setCurrencies new).rotationIdx = s.rotationIdx := by
  unfold setCurrencies
  split <;> exact ⟨rfl, rfl⟩

/-- A replacement keeps the rotation inside the layout exactly when the new layout has all
its entries. -/
theorem placed_setCurrencies_iff {s : ScreenManager} (h : s.Placed) {new : List String}
    (hnew : new ≠ []) :
    (s.setCurrencies new).Placed ↔
      ∀ slot ∈ s.rotationSequence, slot < SlotMap.slotCount new.length := by
  obtain ⟨hsequence, hidx⟩ := s.setCurrencies_rotation new
  have hcount := setCurrencies_slotCount s hnew
  constructor
  · intro h' slot hslot
    rw [← hcount]
    exact h'.entries_lt slot (hsequence ▸ hslot)
  · intro hentries
    refine ⟨?_, ?_, ?_, ?_⟩
    · rw [hcount]
      exact s.setCurrencies_slot_lt hnew
    · rw [hsequence, hcount]
      exact hentries
    · rw [hsequence]
      exact h.sequence_ne_nil
    · rw [hidx, hsequence]
      exact h.rotationIdx_lt

end ScreenManager

namespace ScreenCtx

theorem indexInvariant_planRotation (prefs : Prefs) {s : ScreenManager}
    (hslot : s.slot < s.slotCount)
    (hoverlays : ¬ (s.zapActive = true ∧ s.nwcNotifyActive = true)) :
    (planRotation prefs s).IndexInvariant := by
  refine (ScreenManager.placed_setRotationSequence hslot ?_ ?_).indexInvariant ?_
  · exact buildRotationSequence_ne_nil _ _ _
  · exact fun slot hmem => buildRotationSequence_lt hmem
  · exact ScreenManager.oneNotice_step hoverlays (.setRotationSequence _)

theorem indexInvariant_initScreenManager (prefs : Prefs) (lastSlot lastBlockHeight : UInt32)
    (nowMs : ℤ) : (initScreenManager prefs lastSlot lastBlockHeight nowMs).sm.IndexInvariant := by
  have hplan := indexInvariant_planRotation prefs
    (s := (ScreenManager.create nowMs (activeCurrencies prefs)
      (activeCurrencies_ne_nil prefs)).setPaused (!prefs.getBool "timerActive" true))
    (SlotMap.slotCount_pos _) (fun hboth => Bool.false_ne_true hboth.1)
  simp only [initScreenManager]
  generalize planRotation prefs _ = s at hplan ⊢
  have hresume : (match resumeSlot lastSlot s.slotCount s.rotationSequence with
      | some slot => s.setSlot slot nowMs
      | none => s).IndexInvariant := by
    split
    · exact (ScreenManager.placed_setSlot hplan.toPlaced _ nowMs).indexInvariant
        (ScreenManager.oneNotice_step hplan.overlays (.setSlot _ nowMs))
    · exact hplan
  have hkeeps : ∀ (s : ScreenManager) (op : ScreenManager.Op), op.rebuilds = false →
      s.IndexInvariant → (s.step op).IndexInvariant := fun s op hop h =>
    (ScreenManager.placed_step h.toPlaced hop).indexInvariant
      (ScreenManager.oneNotice_step h.overlays op)
  refine hkeeps _ (.setSkipPredicate (some (skipEarnings prefs))) rfl ?_
  split
  · exact hkeeps _ (.seedLastSeenHeight lastBlockHeight) rfl hresume
  · exact hresume

theorem indexInvariant_rebuildScreens (prefs : Prefs) {c : ScreenCtx}
    (h : c.sm.IndexInvariant) : (c.rebuildScreens prefs).sm.IndexInvariant := by
  have hne := activeCurrencies_ne_nil prefs
  refine indexInvariant_planRotation prefs ?_
    (ScreenManager.oneNotice_step h.overlays (.setCurrencies _))
  rw [ScreenManager.setCurrencies_slotCount _ hne]
  exact c.sm.setCurrencies_slot_lt hne

theorem pruneCurrencies_ne_nil (active : List String) {available : List String}
    (h : available ≠ []) : pruneCurrencies active available ≠ [] := by
  simp only [pruneCurrencies]
  split
  · obtain ⟨code, codes, rfl⟩ := List.exists_cons_of_ne_nil h
    simp
  · assumption

theorem indexInvariant_refreshUpstreamCurrencies_iff {c : ScreenCtx}
    (h : c.sm.IndexInvariant) (fetched : List String) :
    (c.refreshUpstreamCurrencies fetched).sm.IndexInvariant ↔
      c.KeepsRotation (.refreshUpstreamCurrencies fetched) := by
  simp only [refreshUpstreamCurrencies, KeepsRotation]
  by_cases hfetched : fetched = []
  · simp [hfetched, h]
  by_cases hsame : pruneCurrencies c.currencies fetched = c.currencies
  · simp [hfetched, hsame, h]
  have hne := pruneCurrencies_ne_nil c.currencies hfetched
  simp only [hfetched, hsame, if_false, false_or]
  rw [← ScreenManager.placed_setCurrencies_iff h.toPlaced hne]
  exact ⟨fun h' => h'.toPlaced, fun h' => h'.indexInvariant
    (ScreenManager.oneNotice_step h.overlays (.setCurrencies _))⟩

/-- One step keeps the index invariant exactly when it keeps the rotation. -/
theorem indexInvariant_step_iff {c : ScreenCtx} (h : c.sm.IndexInvariant)
    (op : FirmwareOp) : (c.step op).sm.IndexInvariant ↔ c.KeepsRotation op := by
  cases op with
  | manager op hop =>
      refine iff_of_true ?_ trivial
      exact (ScreenManager.placed_step h.toPlaced hop).indexInvariant
        (ScreenManager.oneNotice_step h.overlays op)
  | rebuildScreens prefs => exact iff_of_true (indexInvariant_rebuildScreens prefs h) trivial
  | refreshUpstreamCurrencies fetched =>
      exact indexInvariant_refreshUpstreamCurrencies_iff h fetched

/-- The index invariant holds all along a run from the boot exactly when every refresh of
the currencies keeps the rotation. -/
theorem forall_indexInvariant_iff (prefs : Prefs) (lastSlot lastBlockHeight : UInt32)
    (nowMs : ℤ) (ops : List FirmwareOp) :
    (∀ pre post, ops = pre ++ post →
      (Transition.run step (initScreenManager prefs lastSlot lastBlockHeight nowMs)
        pre).sm.IndexInvariant) ↔
      Transition.Along step KeepsRotation
        (initScreenManager prefs lastSlot lastBlockHeight nowMs) ops :=
  Transition.forall_prefix_iff_along (I := fun c : ScreenCtx => c.sm.IndexInvariant)
    (fun _ op h => indexInvariant_step_iff h op)
    (indexInvariant_initScreenManager prefs lastSlot lastBlockHeight nowMs) ops

/-- A fresh device rotates over three currencies.  Upstream serves the first of them only;
one step back from the block height then shows a slot beyond the layout, whose currency is
read past the end of the list. -/
theorem refreshUpstreamCurrencies_leaves_layout :
    ∃ c, c = Transition.run step (initScreenManager Prefs.empty kNoSavedSlot 0 0)
        [.refreshUpstreamCurrencies ["USD"], .manager (.prevScreen 0) rfl] ∧
      ¬ c.sm.IndexInvariant ∧ c.sm.currentCurrency = none := by
  refine ⟨_, rfl, fun h => ?_, by decide⟩
  have hlt := h.slot_lt
  revert hlt
  decide

end ScreenCtx

end BtClock
