import BtClock.Screen.Glass
import BtClock.Screen.Overlay

/-!
# The panels are fresh after every paint

The manager asks for a partial repaint against the values which it remembers, so these
must be the ones on the panels.  Three steps break this: a paint which drops a repaint
request because the snapshot lacks the data, a change of the currencies which moves the
display without a request, and the clock at a date which went back by one month.
-/

namespace BtClock

open Data Settings

namespace Display

/-- The view which the manager remembers of the current screen, `none` where the
remembered value is the renderer's sentinel. -/
def lastView (d : Display) (rp : RenderPrefs) : Option View :=
  match d.manager.currentKind with
  | .blockHeight =>
      if d.last.height = 0 then none else some (.blockHeight d.last.height rp.verticalDesc)
  | .moscowTime =>
      if d.last.price = "" then none
      else d.manager.currentCurrency.map fun ccy =>
        .moscowTime ccy d.last.price d.satsVariant rp.useSatsSymbol rp.useBtcSymbol
          rp.useMscwTime rp.decimalShareDot rp.verticalDesc
  | .btcPrice =>
      if d.last.price = "" then none
      else d.manager.currentCurrency.map fun ccy =>
        .btcPrice ccy d.last.price (currencySymbolUtf8 ccy) rp.suffixPrice rp.mowMode
          rp.decimalShareDot rp.verticalDesc
  | .blockFeeRate =>
      if d.last.fee < 0.0 then none
      else some (.feeRate d.last.fee rp.decimalShareDot rp.verticalDesc)
  | .clock =>
      if d.last.clockValid then
        some (.clock true d.last.clockHour d.last.clockMin d.last.clockMday
          (d.last.clockMon + 1) rp.verticalDesc rp.hideLeadZero)
      else none
  | .halving =>
      if d.last.height = 0 then none
      else some (.halving d.last.height rp.useBlkCountdown rp.verticalDesc)
  | .bitcoinSupply =>
      if d.last.height = 0 then none
      else some
        (.bitcoinSupply d.last.height rp.mcapBigChar rp.supplyPercent rp.verticalDesc)
  | .marketCap =>
      if d.last.capPrice = "" ∨ d.last.capHeight = 0 then none
      else d.manager.currentCurrency.map fun ccy =>
        .marketCap ccy d.last.capPrice d.last.capHeight rp.mcapBigChar
          rp.decimalShareDot rp.verticalDesc
  | .miningPoolHashrate =>
      if d.last.poolHashrate.name = "" then none
      else some (.miningPoolHashrate d.last.poolHashrate rp.verticalDesc)
  | .miningPoolEarnings =>
      if d.last.poolEarnings.name = "" then none
      else some (.miningPoolEarnings d.last.poolEarnings rp.verticalDesc)
  | .miningPoolEstimatedEarnings =>
      if d.last.poolEstimatedEarnings.name = "" then none
      else some
        (.miningPoolEstimatedEarnings d.last.poolEstimatedEarnings rp.verticalDesc)
  | .bitaxeHashrate =>
      if d.last.bitaxeHashrate = "" then none
      else some (.bitaxeHashrate d.last.bitaxeHashrate rp.verticalDesc)
  | .bitaxeBestDiff =>
      if d.last.bitaxeBestDiff = "" then none
      else some (.bitaxeBestDiff d.last.bitaxeBestDiff rp.verticalDesc)
  | .custom => some (.custom (d.last.customCells.toList.take d.panels))
  | .nwcBalance =>
      if d.last.nwcBalance = none then none
      else some
        (.nwcBalance d.last.nwcBalance rp.useSatsSymbol rp.useBtcSymbol d.satsVariant
          rp.verticalDesc)
  | .nostrZap | .nwcPaymentNotify | .debug | .otaUpdate => none

/-- The local date which the clock would compare is the remembered one, although the
remembered month counts from zero and the shown one from one. -/
def ClockMonthBack (d : Display) (now : Moment) : Prop :=
  d.manager.currentKind = .clock ∧ d.last.clockValid = true ∧
    (if kMinPlausibleEpoch ≤ now.time then
      d.last.clockMday = now.tm.mday ∧ d.last.clockMon = now.tm.mon + 1
    else d.last.clockMday = 0 ∧ d.last.clockMon = 0)

instance (d : Display) (now : Moment) : Decidable (d.ClockMonthBack now) :=
  inferInstanceAs (Decidable (_ ∧ _ ∧ ite _ _ _))

theorem rememberCells_take (d : Display) :
    d.rememberCells.toList.take d.panels = d.manager.customCells.toList.take d.panels := by
  apply List.ext_getElem
  · simp
  · intro i h _
    have hi : i < d.panels := by
      simp only [List.length_take] at h
      omega
    simp [rememberCells, hi]

theorem currentCurrency_of_price {d : Display} {snap : DataSnapshot} {ccy price : String}
    (h : d.currentPrice snap = some (ccy, price)) :
    d.manager.currentCurrency = some ccy := by
  rw [currentPrice] at h
  cases hccy : d.manager.currentCurrency with
  | none => simp [hccy] at h
  | some c => simp_all

/-- A forced repaint paints every cell. -/
theorem asksFull_of_force {d : Display} {rp : RenderPrefs} {now : Moment}
    {snap : DataSnapshot} {forceFull : Bool} {call : RenderCall}
    (h : (d.renderKind rp now snap true forceFull).2 = some call) :
    call.asksFull = true := by
  cases hkind : d.manager.currentKind with
  | blockHeight | halving | bitcoinSupply =>
      cases hheight : snap.blockHeight with
      | none => simp [renderKind, hkind, hheight] at h
      | some height =>
          simp only [renderKind, hkind, hheight, Option.some.injEq] at h
          simp [← h, RenderCall.asksFull]
  | moscowTime | btcPrice =>
      cases hprice : d.currentPrice snap with
      | none => simp [renderKind, hkind, hprice] at h
      | some price =>
          simp only [renderKind, hkind, hprice, Option.some.injEq] at h
          simp [← h, RenderCall.asksFull]
  | marketCap =>
      cases hprice : d.currentPrice snap with
      | none => simp [renderKind, hkind, hprice] at h
      | some price =>
          cases hheight : snap.blockHeight with
          | none => simp [renderKind, hkind, hprice, hheight] at h
          | some height =>
              simp only [renderKind, hkind, hprice, hheight, Option.some.injEq] at h
              simp [← h, RenderCall.asksFull]
  | blockFeeRate =>
      have hneg : (-1.0 : Float) < 0.0 := by decide
      simp only [renderKind, hkind, Option.some.injEq] at h
      simp [← h, RenderCall.asksFull, hneg]
  | clock =>
      simp only [renderKind, hkind, Option.some.injEq] at h
      by_cases htime : now.time ≥ kMinPlausibleEpoch
      · simp [← h, RenderCall.asksFull, htime]
      · simp [← h, RenderCall.asksFull, htime]
  | miningPoolHashrate | miningPoolEarnings | miningPoolEstimatedEarnings | bitaxeHashrate
  | bitaxeBestDiff | custom | nwcBalance | nostrZap | nwcPaymentNotify =>
      simp only [renderKind, hkind, Option.some.injEq] at h
      simp [← h, RenderCall.asksFull]
  | debug | otaUpdate => simp [renderKind, hkind] at h

@[simp]
theorem currentPrice_stamped (d : Display) (t : ℤ) (snap : DataSnapshot) :
    (d.stamped t).currentPrice snap = d.currentPrice snap :=
  rfl

/-- The view of a call does not depend on what was painted before. -/
theorem view_renderKind (d : Display) (t : ℤ) (rp : RenderPrefs) (now : Moment)
    (snap : DataSnapshot) (forceRepaint forceFull : Bool) :
    ((d.stamped t).renderKind rp now snap forceRepaint forceFull).2.map RenderCall.view =
      d.fullView rp now snap := by
  have hpanels : (d.stamped t).panels = d.panels := rfl
  have hvariant : (d.stamped t).satsVariant = d.satsVariant := rfl
  simp only [fullView]
  cases hkind : d.manager.currentKind with
  | blockHeight | halving | bitcoinSupply =>
      cases hheight : snap.blockHeight <;> simp [renderKind, hkind, hheight]
  | moscowTime | btcPrice =>
      cases hprice : d.currentPrice snap <;> simp [renderKind, hkind, hprice, hvariant]
  | marketCap =>
      cases hprice : d.currentPrice snap with
      | none => simp [renderKind, hkind, hprice]
      | some price =>
          cases hheight : snap.blockHeight <;> simp [renderKind, hkind, hprice, hheight]
  | _ => simp [renderKind, hkind, hpanels, hvariant]

theorem fullView_stamped (d : Display) (t : ℤ) (rp : RenderPrefs) (now : Moment)
    (snap : DataSnapshot) : (d.stamped t).fullView rp now snap = d.fullView rp now snap :=
  view_renderKind d t rp now snap true true

/-- Either nothing is painted and nothing remembered, or a renderer is called. -/
theorem renderKind_cases (d : Display) (rp : RenderPrefs) (now : Moment)
    (snap : DataSnapshot) (forceRepaint forceFull : Bool) :
    d.renderKind rp now snap forceRepaint forceFull = (d.last, none) ∨
      ∃ last view prev, d.renderKind rp now snap forceRepaint forceFull =
        (last, some ⟨view, prev, forceFull, rp.sizes⟩) := by
  cases hkind : d.manager.currentKind with
  | blockHeight | halving | bitcoinSupply =>
      cases hheight : snap.blockHeight with
      | none => exact .inl (by simp only [renderKind, hkind, hheight])
      | some height => exact .inr ⟨_, _, _, by simp only [renderKind, hkind, hheight]; rfl⟩
  | moscowTime | btcPrice =>
      cases hprice : d.currentPrice snap with
      | none => exact .inl (by simp only [renderKind, hkind, hprice])
      | some price => exact .inr ⟨_, _, _, by simp only [renderKind, hkind, hprice]; rfl⟩
  | marketCap =>
      cases hprice : d.currentPrice snap with
      | none => exact .inl (by simp only [renderKind, hkind, hprice])
      | some price =>
          cases hheight : snap.blockHeight with
          | none => exact .inl (by simp only [renderKind, hkind, hprice, hheight])
          | some height =>
              exact .inr ⟨_, _, _, by simp only [renderKind, hkind, hprice, hheight]; rfl⟩
  | debug | otaUpdate => exact .inl (by simp only [renderKind, hkind])
  | _ => exact .inr ⟨_, _, _, by simp only [renderKind, hkind]; rfl⟩

/-- What is remembered after a call is the view of the call. -/
theorem lastView_painted {d : Display} {rp : RenderPrefs} {now : Moment}
    {snap : DataSnapshot} {forceRepaint forceFull : Bool} {view last : View}
    (hview : d.fullView rp now snap = some view)
    (hlast : (d.painted (d.renderKind rp now snap forceRepaint forceFull).1).lastView rp =
      some last) : last = view := by
  have hccy (remembered : LastRendered) :
      (d.painted remembered).manager.currentCurrency = d.manager.currentCurrency := rfl
  simp only [lastView, currentKind_painted, hccy] at hlast
  cases hkind : d.manager.currentKind with
  | blockHeight | halving | bitcoinSupply =>
      cases hheight : snap.blockHeight with
      | none => simp [fullView, renderKind, hkind, hheight] at hview
      | some height =>
          simp [fullView, renderKind, hkind, hheight] at hview
          simp [renderKind, painted, hkind, hheight] at hlast
          rw [← hview, ← hlast.2]
  | moscowTime | btcPrice =>
      cases hprice : d.currentPrice snap with
      | none => simp [fullView, renderKind, hkind, hprice] at hview
      | some price =>
          simp [fullView, renderKind, hkind, hprice] at hview
          simp [renderKind, painted, hkind, hprice, currentCurrency_of_price hprice] at hlast
          rw [← hview, ← hlast.2]
  | marketCap =>
      cases hprice : d.currentPrice snap with
      | none => simp [fullView, renderKind, hkind, hprice] at hview
      | some price =>
          cases hheight : snap.blockHeight with
          | none => simp [fullView, renderKind, hkind, hprice, hheight] at hview
          | some height =>
              simp [fullView, renderKind, hkind, hprice, hheight] at hview
              simp [renderKind, painted, hkind, hprice, hheight,
                currentCurrency_of_price hprice] at hlast
              rw [← hview, ← hlast.2]
  | clock =>
      by_cases htime : now.time ≥ kMinPlausibleEpoch
      · simp [fullView, renderKind, hkind, htime] at hview
        simp [renderKind, painted, hkind, htime] at hlast
        rw [← hview, ← hlast]
      · simp [renderKind, painted, hkind, htime] at hlast
  | custom =>
      simp only [fullView, renderKind, hkind, Option.map_some, Option.some.injEq] at hview
      simp only [renderKind, painted, hkind, Option.some.injEq] at hlast
      rw [← hview, ← hlast, d.rememberCells_take]
  | blockFeeRate | miningPoolHashrate | miningPoolEarnings | miningPoolEstimatedEarnings
  | bitaxeHashrate | bitaxeBestDiff | nwcBalance =>
      simp [fullView, renderKind, hkind] at hview
      simp [renderKind, painted, hkind] at hlast
      rw [← hview, ← hlast.2]
  | nostrZap | nwcPaymentNotify | debug | otaUpdate => simp [hkind] at hlast

/-- A partial repaint is asked for against the remembered view. -/
theorem prevView_eq_lastView {d : Display} {rp : RenderPrefs} {now : Moment}
    {snap : DataSnapshot} {call : RenderCall}
    (h : (d.renderKind rp now snap false false).2 = some call)
    (hfull : call.asksFull = false) (hclock : ¬ d.ClockMonthBack now) :
    ∃ last, d.lastView rp = some last ∧ call.prevView = some last := by
  cases hkind : d.manager.currentKind with
  | blockHeight | halving | bitcoinSupply =>
      cases hheight : snap.blockHeight with
      | none => simp [renderKind, hkind, hheight] at h
      | some height =>
          simp only [renderKind, hkind, hheight, Option.some.injEq] at h
          simp [← h, RenderCall.asksFull] at hfull
          simp [← h, RenderCall.prevView, lastView, hkind, hfull]
  | moscowTime | btcPrice =>
      cases hprice : d.currentPrice snap with
      | none => simp [renderKind, hkind, hprice] at h
      | some price =>
          simp only [renderKind, hkind, hprice, Option.some.injEq] at h
          simp [← h, RenderCall.asksFull] at hfull
          simp [← h, RenderCall.prevView, lastView, hkind, hfull,
            currentCurrency_of_price hprice]
  | marketCap =>
      cases hprice : d.currentPrice snap with
      | none => simp [renderKind, hkind, hprice] at h
      | some price =>
          cases hheight : snap.blockHeight with
          | none => simp [renderKind, hkind, hprice, hheight] at h
          | some height =>
              simp only [renderKind, hkind, hprice, hheight, Option.some.injEq] at h
              simp [← h, RenderCall.asksFull] at hfull
              simp [← h, RenderCall.prevView, lastView, hkind, hfull,
                currentCurrency_of_price hprice]
  | clock =>
      exfalso
      simp only [renderKind, hkind, Option.some.injEq] at h
      apply hclock
      by_cases htime : kMinPlausibleEpoch ≤ now.time
      · simp [← h, RenderCall.asksFull, htime] at hfull
        simp [ClockMonthBack, hkind, hfull, htime]
      · simp [← h, RenderCall.asksFull, htime] at hfull
        simp [ClockMonthBack, hkind, hfull, htime]
  | blockFeeRate | miningPoolHashrate | miningPoolEarnings | miningPoolEstimatedEarnings
  | bitaxeHashrate | bitaxeBestDiff | custom =>
      simp only [renderKind, hkind, Option.some.injEq] at h
      simp [← h, RenderCall.asksFull] at hfull
      simp [← h, RenderCall.prevView, lastView, hkind, hfull]
  | nwcBalance =>
      simp only [renderKind, hkind, Option.some.injEq] at h
      simp [← h, RenderCall.asksFull] at hfull
      obtain ⟨sats, hsats⟩ := Option.isSome_iff_exists.mp hfull
      simp [← h, RenderCall.prevView, lastView, hkind, hsats]
  | nostrZap | nwcPaymentNotify =>
      simp only [renderKind, hkind, Option.some.injEq] at h
      simp [← h, RenderCall.asksFull] at hfull
  | debug | otaUpdate => simp [renderKind, hkind] at h

end Display

/-! ### The operations of the manager -/

namespace ScreenManager

/-- The kind on display, with its currency where the kind has one. -/
def displayed (s : ScreenManager) : ScreenType × Option String :=
  (s.currentKind,
    match s.currentKind with
    | .moscowTime | .btcPrice | .marketCap => s.currentCurrency
    | _ => none)

/-- No repaint is due, nor will leaving the debug screen request one. -/
structure Quiet (s : ScreenManager) : Prop where
  debugMode : s.debugMode = false
  dirty : s.dirty = false
  screenChangePending : s.screenChangePending = false

theorem Quiet.not_repaintDue {s : ScreenManager} (h : s.Quiet) :
    ¬ (s.dirty = true ∨ s.screenChangePending = true) := by
  simp [h.dirty, h.screenChangePending]

theorem quiet_of_not_repaintDue {s : ScreenManager} (hdebug : s.debugMode = false)
    (h : ¬ (s.dirty = true ∨ s.screenChangePending = true)) : s.Quiet := by
  simp only [not_or, Bool.not_eq_true] at h
  exact ⟨hdebug, h.1, h.2⟩

theorem quiet_of_setCurrencies {s : ScreenManager} {l : List String}
    (h : (s.setCurrencies l).Quiet) : s.Quiet := by
  unfold setCurrencies at h
  split at h
  · exact h
  · exact ⟨h.debugMode, h.dirty, h.screenChangePending⟩

theorem not_quiet_markNavigation (s : ScreenManager) (nowMs : ℤ) :
    ¬ (s.markNavigation nowMs).Quiet := fun h => by
  have hpending := h.screenChangePending
  simp [markNavigation] at hpending

theorem maybeAutoRotate_of_quiet {s : ScreenManager} {nowMs periodMs : ℤ}
    (h : (s.maybeAutoRotate nowMs periodMs).1.Quiet) :
    (s.maybeAutoRotate nowMs periodMs).1 = s := by
  unfold maybeAutoRotate at h ⊢
  split_ifs at h ⊢
  all_goals first
    | rfl
    | exact absurd h (not_quiet_markNavigation _ _)

/-- The operations which change the display request a repaint, except for the change of
the currencies. -/
theorem displayed_of_quiet_step {s : ScreenManager} {op : Op}
    (hop : op.navigates = true) (hcurrencies : ∀ l, op ≠ .setCurrencies l)
    (hquiet : (s.step op).Quiet) : s.Quiet ∧ (s.step op).displayed = s.displayed := by
  cases op with
  | setSlot | setCustomCells | setZapNotify | setNwcPaymentNotify | nextScreen
  | prevScreen => exact absurd hquiet (not_quiet_markNavigation _ _)
  | setKind kind nowMs =>
      simp only [step, setKind] at hquiet ⊢
      cases hslot : s.slotOfKind kind with
      | none =>
          rw [hslot] at hquiet
          exact ⟨hquiet, rfl⟩
      | some slot =>
          rw [hslot] at hquiet
          exact absurd hquiet (not_quiet_markNavigation _ _)
  | setCurrency ccy nowMs =>
      simp only [step, setCurrency] at hquiet ⊢
      cases hi : s.currencies.findIdx? (· == ccy) with
      | none =>
          rw [hi] at hquiet
          exact ⟨hquiet, rfl⟩
      | some i =>
          rw [hi] at hquiet
          exact absurd hquiet (not_quiet_markNavigation _ _)
  | maybeAutoRotate nowMs periodMs =>
      have heq : s.step (.maybeAutoRotate nowMs periodMs) = s :=
        maybeAutoRotate_of_quiet hquiet
      rw [heq] at hquiet ⊢
      exact ⟨hquiet, rfl⟩
  | setCurrencies l => exact absurd rfl (hcurrencies l)
  | setRotationSequence sequence =>
      simp only [step, setRotationSequence] at hquiet ⊢
      split at hquiet
      · rename_i hnil
        rw [if_pos hnil]
        exact ⟨⟨hquiet.debugMode, hquiet.dirty, hquiet.screenChangePending⟩, rfl⟩
      · rename_i hnil
        rw [if_neg hnil]
        exact ⟨⟨hquiet.debugMode, hquiet.dirty, hquiet.screenChangePending⟩, rfl⟩
  | setSkipPredicate | setPaused | togglePaused | restartTimer | seedLastSeenHeight =>
      exact ⟨⟨hquiet.debugMode, hquiet.dirty, hquiet.screenChangePending⟩, rfl⟩
  | consumeNewBlock blockHeight =>
      cases blockHeight with
      | none => exact ⟨hquiet, rfl⟩
      | some h => exact ⟨⟨hquiet.debugMode, hquiet.dirty, hquiet.screenChangePending⟩, rfl⟩
  | enterDebug => cases hquiet.debugMode
  | exitDebug | markDirty => cases hquiet.dirty
  | toggleDebug nowMs =>
      simp only [step, toggleDebug] at hquiet
      split at hquiet
      · cases hquiet.dirty
      · cases hquiet.debugMode
  | setOtaOverlay | paintDone => cases hop

end ScreenManager

/-! ### Runs of the board -/

/-- The remembered view of a display depends on its manager through what is displayed. -/
theorem Display.lastView_congr {d : Display} {s : ScreenManager} (rp : RenderPrefs)
    (h : s.displayed = d.manager.displayed) :
    ({ d with manager := s } : Display).lastView rp = d.lastView rp := by
  obtain ⟨hkind, hccy⟩ := Prod.mk.injEq .. ▸ h
  simp only [Display.lastView, hkind] at hccy ⊢
  cases hd : d.manager.currentKind with
  | moscowTime | btcPrice | marketCap =>
      simp only [hd] at hccy
      simp [hccy]
  | _ => rfl

namespace Board

variable {Glass : Type*} (R : Renderers Glass) (prefs : Prefs) (sign : Bool)

/-- A paint for which the snapshot has the data leaves the whole layout of the current
kind on the panels. -/
def PaintsFresh (b : Board Glass) : BoardOp Glass → Prop
  | .render now snap =>
      ∀ view, b.display.fullView (Display.effectivePrefs prefs sign) now snap = some view →
        (b.step R prefs sign (.render now snap)).glass =
          R.layout (Display.effectivePrefs prefs sign).sizes view
  | _ => True

/-- Is a repaint of all cells due? -/
def RepaintDue (b : Board Glass) : Prop :=
  b.display.manager.dirty = true ∨ b.display.manager.screenChangePending = true

instance (b : Board Glass) : Decidable b.RepaintDue :=
  inferInstanceAs (Decidable (_ ∨ _))

/-- The steps after which the remembered values are those on the panels.  A paint without
data comes at no due repaint, the clock is not set back by one month, and a change of the
currencies moves the display only when a repaint is due. -/
def KeepsTrack (b : Board Glass) : BoardOp Glass → Prop
  | .render now snap =>
      (b.display.manager.debugMode = true ∨
        (b.display.fullView (Display.effectivePrefs prefs sign) now snap).isSome = true ∨
          ¬ b.RepaintDue) ∧
        (b.RepaintDue ∨ ¬ b.display.ClockMonthBack now)
  | .manager (.setCurrencies l) _ =>
      b.display.manager.debugMode = true ∨ b.RepaintDue ∨
        (b.display.manager.setCurrencies l).displayed = b.display.manager.displayed
  | _ => True

instance (b : Board Glass) : DecidablePred (b.KeepsTrack prefs sign) := fun op =>
  match op with
  | .render _ _ => inferInstanceAs (Decidable ((_ ∨ _ ∨ ¬ _) ∧ (_ ∨ ¬ _)))
  | .manager (.setCurrencies _) _ => inferInstanceAs (Decidable (_ ∨ _ ∨ _ = _))
  | .renderDebug .. => isTrue trivial
  | .manager op _ => by
      cases op
      case setCurrencies => exact inferInstanceAs (Decidable (_ ∨ _ ∨ _ = _))
      all_goals exact isTrue trivial

/-- Where no repaint is due, the remembered view of the current screen is on the
panels. -/
structure Tracks (b : Board Glass) : Prop where
  otaActive : b.display.manager.otaActive = false
  shown : b.display.manager.Quiet →
    ∀ view, b.display.lastView (Display.effectivePrefs prefs sign) = some view →
      b.glass = R.layout (Display.effectivePrefs prefs sign).sizes view

theorem tracks_manager {b : Board Glass} (hb : b.Tracks R prefs sign)
    {op : ScreenManager.Op} (hop : op.navigates = true)
    (h : b.KeepsTrack prefs sign (.manager op hop)) :
    (b.withManager (b.display.manager.step op)).Tracks R prefs sign := by
  have hota : ∀ active, op ≠ .setOtaOverlay active := by
    rintro active rfl
    cases hop
  refine ⟨(ScreenManager.otaActive_step hota).trans hb.otaActive, fun hquiet view hview => ?_⟩
  have hsame : b.display.manager.Quiet ∧
      (b.display.manager.step op).displayed = b.display.manager.displayed := by
    by_cases hcurrencies : ∃ l, op = .setCurrencies l
    · obtain ⟨l, rfl⟩ := hcurrencies
      have hbefore := ScreenManager.quiet_of_setCurrencies hquiet
      refine ⟨hbefore, ?_⟩
      rcases h with hdebug | hdue | hdisplayed
      · rw [hbefore.debugMode] at hdebug
        cases hdebug
      · exact absurd hdue hbefore.not_repaintDue
      · exact hdisplayed
    · exact ScreenManager.displayed_of_quiet_step hop
        (fun l hl => hcurrencies ⟨l, hl⟩) hquiet
  refine hb.shown hsame.1 view ?_
  rw [← hview]
  exact (Display.lastView_congr _ hsame.2).symm

/-- A paint on the debug screen paints nothing. -/
theorem step_render_of_debug {b : Board Glass} (now : Moment) (snap : DataSnapshot)
    (hota : b.display.manager.otaActive = false)
    (hdebug : b.display.manager.debugMode = true) :
    b.step R prefs sign (.render now snap) = b := by
  simp [step, Display.render, hota, hdebug]

/-- The repaint requests of a paint, and the call which it makes of a renderer. -/
theorem step_render_eq {b : Board Glass} (now : Moment) (snap : DataSnapshot)
    (hota : b.display.manager.otaActive = false)
    (hdebug : b.display.manager.debugMode = false) :
    ∃ (t : ℤ) (forceRepaint forceFull : Bool),
      (forceRepaint = false → forceFull = false ∧ ¬ b.RepaintDue) ∧
      (b.step R prefs sign (.render now snap)).display =
        b.display.painted ((b.display.stamped t).renderKind
          (Display.effectivePrefs prefs sign) now snap forceRepaint forceFull).1 ∧
      (b.step R prefs sign (.render now snap)).glass =
        ((b.display.stamped t).renderKind (Display.effectivePrefs prefs sign) now snap
          forceRepaint forceFull).2.elim b.glass fun call => R.paint call b.glass := by
  refine ⟨(b.display.refreshDecision (Display.effectivePrefs prefs sign) now).1,
    b.display.forceRepaint (Display.effectivePrefs prefs sign) now,
    (b.display.refreshDecision (Display.effectivePrefs prefs sign) now).2, ?_, ?_, ?_⟩
  · intro hforce
    simp only [Display.forceRepaint, Bool.or_eq_false_iff] at hforce
    simp [RepaintDue, hforce]
  · simp [step, Display.render, hota, hdebug]
  · simp [step, Display.render, hota, hdebug]

/-- The call which a paint makes leaves the whole layout of its view. -/
theorem paint_eq_layout {b : Board Glass} (hb : b.Tracks R prefs sign)
    (hdebug : b.display.manager.debugMode = false) {t : ℤ} {now : Moment}
    {snap : DataSnapshot} {forceRepaint forceFull : Bool} {call : RenderCall}
    (hforce : forceRepaint = false → forceFull = false ∧ ¬ b.RepaintDue)
    (hclock : b.RepaintDue ∨ ¬ b.display.ClockMonthBack now)
    (hcall : ((b.display.stamped t).renderKind (Display.effectivePrefs prefs sign) now snap
      forceRepaint forceFull).2 = some call)
    (hsizes : call.sizes = (Display.effectivePrefs prefs sign).sizes) :
    R.paint call b.glass = R.layout call.sizes call.view := by
  cases hfull : call.asksFull with
  | true => exact R.paint_full call b.glass hfull
  | false =>
      cases forceRepaint with
      | true =>
          rw [Display.asksFull_of_force hcall] at hfull
          cases hfull
      | false =>
          obtain ⟨rfl, hdue⟩ := hforce rfl
          obtain ⟨last, hlast, hprev⟩ :=
            Display.prevView_eq_lastView hcall hfull (hclock.resolve_left hdue)
          have hquiet := ScreenManager.quiet_of_not_repaintDue hdebug hdue
          rw [hb.shown hquiet last hlast, ← hsizes]
          exact R.paint_partial call last hfull hprev

theorem tracks_render {b : Board Glass} (hb : b.Tracks R prefs sign) {now : Moment}
    {snap : DataSnapshot} (h : b.KeepsTrack prefs sign (.render now snap)) :
    b.PaintsFresh R prefs sign (.render now snap) ∧
      (b.step R prefs sign (.render now snap)).Tracks R prefs sign := by
  by_cases hdebug : b.display.manager.debugMode = true
  · have hkind : b.display.manager.currentKind = .debug := by
      simp [ScreenManager.currentKind, hb.otaActive, hdebug]
    refine ⟨fun view hview => ?_, ?_⟩
    · simp [Display.fullView, Display.renderKind, hkind] at hview
    · rwa [step_render_of_debug R prefs sign now snap hb.otaActive hdebug]
  rw [Bool.not_eq_true] at hdebug
  obtain ⟨hdata, hclock⟩ := h
  obtain ⟨t, forceRepaint, forceFull, hforce, hdisplay, hglass⟩ :=
    step_render_eq R prefs sign now snap hb.otaActive hdebug
  have hota : (b.step R prefs sign (.render now snap)).display.manager.otaActive = false := by
    rw [hdisplay]
    exact hb.otaActive
  have hview := Display.view_renderKind b.display t (Display.effectivePrefs prefs sign) now
    snap forceRepaint forceFull
  rcases (b.display.stamped t).renderKind_cases (Display.effectivePrefs prefs sign) now
    snap forceRepaint forceFull with hnone | ⟨last, view, prev, hcall⟩
  · -- no renderer is called: the panels and what is remembered of them stay
    rw [hnone] at hdisplay hglass hview
    have hfull : b.display.fullView (Display.effectivePrefs prefs sign) now snap = none :=
      hview.symm
    refine ⟨fun view hview => ?_, hota, fun hquiet view hlast => ?_⟩
    · rw [hfull] at hview
      cases hview
    · have hdue : ¬ b.RepaintDue := by simpa [hdebug, hfull] using hdata
      rw [hdisplay] at hlast
      rw [hglass]
      exact hb.shown (ScreenManager.quiet_of_not_repaintDue hdebug hdue) view hlast
  · have hpainted : (b.step R prefs sign (.render now snap)).glass =
        R.layout (Display.effectivePrefs prefs sign).sizes view := by
      rw [hglass, hcall]
      exact paint_eq_layout R prefs sign hb hdebug hforce hclock (congrArg Prod.snd hcall) rfl
    rw [hcall] at hview
    have hfull : b.display.fullView (Display.effectivePrefs prefs sign) now snap =
        some view := hview.symm
    refine ⟨fun view' hview' => ?_, hota, fun hquiet view' hlast => ?_⟩
    · rw [hpainted, Option.some.inj (hfull.symm.trans hview')]
    · rw [hdisplay] at hlast
      have heq : view' = view :=
        Display.lastView_painted (d := b.display.stamped t)
          ((Display.fullView_stamped ..).trans hfull) hlast
      rw [hpainted, heq]

theorem tracks_renderDebug {b : Board Glass} (hb : b.Tracks R prefs sign) (nowMs : ℤ)
    (forceFull : Bool) (shown : Glass) :
    (b.step R prefs sign (.renderDebug nowMs forceFull shown)).Tracks R prefs sign where
  otaActive := hb.otaActive
  shown hquiet := by cases hquiet.dirty

theorem tracks_step {b : Board Glass} {op : BoardOp Glass} (hb : b.Tracks R prefs sign)
    (h : b.KeepsTrack prefs sign op) :
    b.PaintsFresh R prefs sign op ∧ (b.step R prefs sign op).Tracks R prefs sign := by
  cases op with
  | manager op hop => exact ⟨trivial, tracks_manager R prefs sign hb hop h⟩
  | render now snap => exact tracks_render R prefs sign hb h
  | renderDebug nowMs forceFull shown =>
      exact ⟨trivial, tracks_renderDebug R prefs sign hb nowMs forceFull shown⟩

/-- A board whose manager was just constructed, with anything on its panels. -/
def create (nowMs : ℤ) (currencies : List String) (h : currencies ≠ [])
    (satsVariant : UInt8) (panels : ℕ) (glass : Glass) : Board Glass where
  display :=
    { manager := ScreenManager.create nowMs currencies h
      satsVariant := satsVariant
      panels := panels }
  glass := glass

/-- In a run whose steps keep track of the panels, every paint leaves the whole layout. -/
theorem along_paintsFresh (nowMs : ℤ) (currencies : List String) (hne : currencies ≠ [])
    (satsVariant : UInt8) (panels : ℕ) (glass : Glass) (ops : List (BoardOp Glass))
    (h : Transition.Along (step R prefs sign) (KeepsTrack prefs sign)
      (create nowMs currencies hne satsVariant panels glass) ops) :
    Transition.Along (step R prefs sign) (PaintsFresh R prefs sign)
      (create nowMs currencies hne satsVariant panels glass) ops := by
  refine h.mono_of_invariant (I := Tracks R prefs sign)
    (fun b op hb hop => tracks_step R prefs sign hb hop) ?_
  exact ⟨rfl, fun hquiet => by cases hquiet.dirty⟩

/-- Renderers which leave garbage, `none`, after a partial repaint against anything else
than what is on the panels. -/
def exactRenderers : Renderers (Option View) where
  layout _ view := some view
  paint call glass :=
    if call.asksFull = true ∨ (glass.isSome = true ∧ call.prevView = glass) then
      some call.view
    else none
  paint_full call glass h := by simp [h]
  paint_partial call prev _ h := by simp [h]

/-- A paint of the block height, at a time without a calendar. -/
def renderHeight (h : UInt32) : BoardOp (Option View) :=
  .render ⟨0, 0, ⟨0, 0, 1, 0⟩⟩ { blockHeight := some h }

/-- Two blocks in a row keep track of the panels. -/
theorem two_blocks_paintsFresh :
    Transition.Along (step exactRenderers Prefs.empty true)
      (PaintsFresh exactRenderers Prefs.empty true)
      (create 0 ["USD"] (by simp) 7 7 none) [renderHeight 100, renderHeight 101] :=
  along_paintsFresh exactRenderers Prefs.empty true 0 ["USD"] (by simp) 7 7 none
    [renderHeight 100, renderHeight 101] (by decide)

/-- The price of the second currency is on display when the list shrinks to the first.
The display moves to the block height, and paints only the digits which differ from the
height shown long before. -/
theorem setCurrencies_goes_stale :
    ¬ Transition.Along (step exactRenderers Prefs.empty true)
      (PaintsFresh exactRenderers Prefs.empty true)
      (create 0 ["USD", "EUR"] (by simp) 7 7 none)
      [renderHeight 100, .manager (.setSlot 14 0) rfl,
        .render ⟨0, 0, ⟨0, 0, 1, 0⟩⟩ { prices := AList.insert "EUR" "5" ∅ },
        .manager (.setCurrencies ["USD"]) rfl, renderHeight 101] := by
  intro h
  have hglass := h.2.2.2.2.1 (.blockHeight 101 true) (by decide)
  revert hglass
  decide

end Board

end BtClock
