import BtClock.Screen.Render

/-!
# A paint settles the screen

After a paint of a snapshot the manager should not ask for another paint of the same
snapshot.  `Render` and `ShouldRender` select the fee and treat an implausible time in
different ways, and there, and only there, the screen does not settle.
-/

namespace BtClock

namespace Display

open Data Settings

/-- The fee which is shown is as good as the one which is compared. -/
def FeeSettles (rp : RenderPrefs) (snap : DataSnapshot) : Prop :=
  ∀ precise fee, snap.blockFeePrecise = some precise → snap.blockFee = some fee →
    rp.blockFeeDec = true ∨ precise < 0.0 ∨
      ¬ (precise - Float.ofInt fee.toInt).abs > kFeeEpsilon

/-- The snapshot and the time at which a paint settles the current screen. -/
def Settles (d : Display) (prefs : Prefs) (now : Moment) (snap : DataSnapshot) : Prop :=
  d.manager.otaActive = false → d.manager.debugMode = false →
    match d.manager.currentKind with
    | .blockFeeRate => FeeSettles (readRenderPrefs prefs) snap
    | .clock => kMinPlausibleEpoch ≤ now.time
    | _ => True

theorem effectivePrefs_blockFeeDec (prefs : Prefs) (sign : Bool) :
    (effectivePrefs prefs sign).blockFeeDec = (readRenderPrefs prefs).blockFeeDec := by
  simp only [effectivePrefs, resolveSymbolMode]
  split
  · rfl
  · rfl

/-- The comparison of the fee with the one just shown. -/
theorem fee_settles_iff (rp : RenderPrefs) (snap : DataSnapshot) :
    (if comparedFee snap < 0.0 then false
      else decide ((comparedFee snap - shownFee rp snap).abs > kFeeEpsilon)) = false ↔
      FeeSettles rp snap := by
  have hself : ∀ x : Float, ¬ (x - x).abs > kFeeEpsilon := Double.not_lt_abs_sub_self
  cases hprecise : snap.blockFeePrecise with
  | none =>
      cases hfee : snap.blockFee with
      | none =>
          have hneg : (-1.0 : Float) < 0.0 := by decide
          simp [FeeSettles, comparedFee, hprecise, hfee, hneg]
      | some fee => simp [FeeSettles, comparedFee, shownFee, hprecise, hfee, hself]
  | some precise =>
      cases hfee : snap.blockFee with
      | none => simp [FeeSettles, comparedFee, shownFee, hprecise, hfee, hself]
      | some fee =>
          cases hdec : rp.blockFeeDec with
          | true => simp [FeeSettles, comparedFee, shownFee, hprecise, hfee, hdec, hself]
          | false =>
              have hiff : FeeSettles rp snap ↔ precise < 0.0 ∨
                  ¬ (precise - Float.ofInt fee.toInt).abs > kFeeEpsilon := by
                simp [FeeSettles, hprecise, hfee, hdec]
              simp [hiff, comparedFee, shownFee, hprecise, hfee, hdec, imp_iff_not_or]

/-- What a kind's renderer is given, and what the kind is compared with, agree. -/
theorem valueChanged_renderKind (d : Display) (rp : RenderPrefs) (prefs : Prefs)
    (now : Moment) (snap : DataSnapshot) (forceRepaint forceFull : Bool) :
    (d.painted (d.renderKind rp now snap forceRepaint forceFull).1).valueChanged
        prefs now snap = false ↔
      match d.manager.currentKind with
      | .blockFeeRate => FeeSettles rp snap
      | .clock => kMinPlausibleEpoch ≤ now.time
      | _ => True := by
  simp only [valueChanged, currentKind_painted, currentPrice_painted]
  cases hkind : d.manager.currentKind with
  | blockHeight | halving | bitcoinSupply =>
      cases hheight : snap.blockHeight <;> simp [renderKind, painted, hkind, hheight]
  | moscowTime | btcPrice =>
      cases hprice : d.currentPrice snap <;> simp [renderKind, painted, hkind, hprice]
  | marketCap =>
      cases hprice : d.currentPrice snap with
      | none => simp
      | some price =>
          cases hheight : snap.blockHeight <;>
            simp [renderKind, painted, hkind, hprice, hheight]
  | blockFeeRate => simpa [renderKind, painted, hkind] using fee_settles_iff rp snap
  | clock =>
      by_cases htime : kMinPlausibleEpoch ≤ now.time
      · have hnot : ¬ now.time < kMinPlausibleEpoch := by omega
        simp [renderKind, painted, hkind, htime, hnot]
      · have hlt : now.time < kMinPlausibleEpoch := by omega
        simp [renderKind, painted, hkind, htime, hlt]
  | miningPoolHashrate | miningPoolEarnings | miningPoolEstimatedEarnings =>
      simp [renderKind, painted, hkind]
  | bitaxeHashrate | bitaxeBestDiff | nwcBalance => simp [renderKind, painted, hkind]
  | custom | nostrZap | nwcPaymentNotify | debug | otaUpdate => simp

/-- Without a request left, `ShouldRender` compares the values. -/
theorem shouldRender_painted (d : Display) (last : LastRendered) (prefs : Prefs)
    (now : Moment) (snap : DataSnapshot) (hota : d.manager.otaActive = false)
    (hdebug : d.manager.debugMode = false) :
    (d.painted last).shouldRender prefs now snap =
      (d.painted last).valueChanged prefs now snap := by
  simp [shouldRender, painted, ScreenManager.paintDone, hota, hdebug]

/-- Right after a paint the manager asks for no other one of the same snapshot, if and
only if the paint settles the screen. -/
theorem not_shouldRender_render_iff (d : Display) (prefs throttlePrefs : Prefs)
    (sign : Bool) (now : Moment) (snap : DataSnapshot) :
    (d.render prefs sign now snap).1.shouldRender throttlePrefs now snap = false ↔
      d.Settles prefs now snap := by
  by_cases hota : d.manager.otaActive = true
  · simp [render, shouldRender, Settles, hota]
  by_cases hdebug : d.manager.debugMode = true
  · simp [render, shouldRender, Settles, hota, hdebug]
  rw [Bool.not_eq_true] at hota hdebug
  simp only [render, hota, hdebug, Bool.false_eq_true, if_false]
  rw [shouldRender_painted _ _ _ _ _ hota hdebug, ← painted_stamped,
    valueChanged_renderKind, manager_stamped]
  have hdec : FeeSettles (effectivePrefs prefs sign) snap ↔
      FeeSettles (readRenderPrefs prefs) snap := by
    simp only [FeeSettles, effectivePrefs_blockFeeDec]
  simp only [Settles, hota, hdebug, forall_const]
  cases d.manager.currentKind with
  | blockFeeRate => exact hdec
  | _ => rfl

/-- The fee screen of a display which shows whole fees. -/
def wholeFeeDisplay : Display where
  manager := (ScreenManager.create 0 ["USD"] (by simp)).setSlot 13 0

def wholeFeePrefs : Prefs := fun key =>
  if key = "blockFeeDec" then some (.u32 0) else none

/-- A precise fee other than the whole one: every data push paints the same digits
again. -/
theorem whole_fee_does_not_settle :
    ((wholeFeeDisplay.render wholeFeePrefs true ⟨1000, 1700000000, ⟨0, 0, 1, 0⟩⟩
        { blockFee := some 5, blockFeePrecise := some 5.5 }).1.shouldRender wholeFeePrefs
      ⟨1000, 1700000000, ⟨0, 0, 1, 0⟩⟩
      { blockFee := some 5, blockFeePrecise := some 5.5 }) = true := by
  decide

end Display

end BtClock
