import BtClock.EventLoop.Frame

/-!
# The panels while a firmware update is shown

Once the update screen is requested, only that screen should be painted.  The paints of
the data screens look at the latch; the debug screen and the provisioning portal do not.
-/

namespace BtClock

open Data Settings

namespace AppCtx

/-- While the update screen is latched, a step paints nothing but that screen. -/
def PaintsOnlyUpdate (ctx : AppCtx) (e : Event) : Prop :=
  ctx.sm.otaActive = true → ∀ p ∈ ctx.paints e, p = .otaUpdate

/-- The first waiting button opens the debug screen. -/
def OpensDebug (ctx : AppCtx) : Prop :=
  ctx.sm.debugMode = false ∧ ctx.buttonQ.head? = some ⟨.k3, .click⟩

/-- The grace period for the first connection is over. -/
def portalDue (ctx : AppCtx) (now : Moment) (net : Network) : Bool :=
  ctx.netCoordinator.elim false fun c =>
    shouldStartFallbackAp c.connectedOnce c.apUp net.connected (UInt32.ofInt now.ms)
      (c.stampBoot (UInt32.ofInt now.ms)).bootMs c.graceMs

/-- Nothing paints over the update screen: a pass with a waiting button does not open the
debug screen, and one without waiting commands and buttons finds neither the debug screen
due for its repaint nor the portal due. -/
def UpdateStays (ctx : AppCtx) : Event → Prop
  | .pass now net =>
      ctx.sm.otaActive = true → ctx.buttons = false ∨ ctx.commands = [] →
        ¬ ctx.OpensDebug ∧
          (ctx.buttonQ = [] → ctx.debugDue now = false ∧ ctx.portalDue now net = false)
  | _ => True

/-! ### The paints which look at the latch -/

theorem paints_render_of_ota {ctx : AppCtx} (h : ctx.sm.otaActive = true) (now : Moment)
    (snap : DataSnapshot) : (ctx.render now snap).2 = [] := by
  have hdisplay : ctx.display.manager.otaActive = true := h
  simp [render, Display.render, hdisplay]

theorem paints_renderHub_of_ota {ctx : AppCtx} (h : ctx.sm.otaActive = true)
    (now : Moment) : (ctx.renderHub now).2 = [] := by
  unfold renderHub
  split
  · exact paints_render_of_ota h now _
  · rfl

theorem otaActive_call {ctx : AppCtx} (h : ctx.sm.otaActive = true)
    {op : ScreenManager.Op} (hop : ∀ active, op ≠ .setOtaOverlay active) :
    (ctx.call op).sm.otaActive = true :=
  (ScreenManager.otaActive_step hop).trans h

theorem otaActive_handleCommand {ctx : AppCtx} (h : ctx.sm.otaActive = true)
    (now : Moment) (cmd : ControlCommand) :
    (ctx.handleCommand now cmd).1.sm.otaActive = true := by
  cases cmd with
  | showScreen | showCurrency | nextScreen | prevScreen | fullRefresh | setTimezone =>
      exact otaActive_call h (fun _ hop => by cases hop)
  | showCustom =>
      simp only [handleCommand]
      split
      · exact otaActive_call h (fun _ hop => by cases hop)
      · exact h
  | rebuildScreens =>
      exact (congrArg ScreenManager.Latches.ota (ctx.latches_rebuildScreens _)).trans h
  | _ => exact h

theorem otaActive_handleCommands {ctx : AppCtx} (h : ctx.sm.otaActive = true)
    (now : Moment) (cmds : List ControlCommand) :
    (handleCommands now ctx cmds).1.sm.otaActive = true := by
  induction cmds generalizing ctx with
  | nil => exact h
  | cons cmd cmds ih => exact ih (otaActive_handleCommand h now cmd)

theorem paints_drainControlCommands_of_ota {ctx : AppCtx} (h : ctx.sm.otaActive = true)
    (now : Moment) : (ctx.drainControlCommands now).2 = [] := by
  have htaken : ({ ctx with commands := [] } : AppCtx).sm.otaActive = true := h
  simp only [drainControlCommands]
  split
  · exact paints_renderHub_of_ota (otaActive_handleCommands htaken now _) now
  · rfl

theorem paints_serveData_of_ota {ctx : AppCtx} (h : ctx.sm.otaActive = true)
    (now : Moment) (snap : DataSnapshot) (got : Bool) :
    (ctx.serveData got now snap).2 = [] := by
  unfold serveData
  split
  · exact paints_render_of_ota h now snap
  · rfl

theorem paints_serveFreshBlock_of_ota {ctx : AppCtx} (h : ctx.sm.otaActive = true)
    (now : Moment) (snap : DataSnapshot) (got : Bool) :
    (ctx.serveFreshBlock got now snap).2 = [] := by
  simp only [serveFreshBlock]
  split_ifs
  · exact paints_render_of_ota (otaActive_call h (fun _ hop => by cases hop)) now snap
  · exact paints_serveData_of_ota h now snap got
  · exact paints_serveData_of_ota (otaActive_call h (fun _ hop => by cases hop)) now snap got
  · exact paints_serveData_of_ota h now snap got

theorem paints_serveBlock_of_ota {ctx : AppCtx} (h : ctx.sm.otaActive = true)
    (now : Moment) (snap : DataSnapshot) (got : Bool) :
    (ctx.serveBlock got now snap).2 = [] := by
  have hseen : (ctx.call (.consumeNewBlock snap.blockHeight)).sm.otaActive = true :=
    otaActive_call h (fun _ hop => by cases hop)
  simp only [serveBlock]
  split
  · exact paints_serveFreshBlock_of_ota hseen now snap got
  · exact paints_serveData_of_ota hseen now snap got

theorem paints_serveRotation_of_ota {ctx : AppCtx} (h : ctx.sm.otaActive = true)
    (now : Moment) (got : Bool) : (ctx.serveRotation got now).2 = [] := by
  have hrotated : (if ctx.autoRotateMs > 0 then
      ctx.call (.maybeAutoRotate now.ms ctx.autoRotateMs) else ctx).sm.otaActive = true := by
    split
    · exact otaActive_call h (fun _ hop => by cases hop)
    · exact h
  simp only [serveRotation]
  split
  · rfl
  · split
    · exact paints_render_of_ota hrotated now _
    · exact paints_serveBlock_of_ota hrotated now _ got

theorem paints_serveNwcNotify_of_ota {ctx : AppCtx} (h : ctx.sm.otaActive = true)
    (now : Moment) (got : Bool) : (ctx.serveNwcNotify got now).2 = [] := by
  have htaken : ({ ctx with nwcNotifyPending := false } : AppCtx).sm.otaActive = true := h
  simp only [serveNwcNotify]
  split
  · split
    · exact paints_render_of_ota (otaActive_call htaken (fun _ hop => by cases hop)) now _
    · rfl
  · exact paints_serveRotation_of_ota htaken now got

theorem paints_serveZap_of_ota {ctx : AppCtx} (h : ctx.sm.otaActive = true)
    (now : Moment) (got : Bool) : (ctx.serveZap got now).2 = [] := by
  have htaken : ({ ctx with zapNotifyPending := false } : AppCtx).sm.otaActive = true := h
  simp only [serveZap]
  split
  · exact paints_render_of_ota (otaActive_call htaken (fun _ hop => by cases hop)) now _
  · exact paints_serveNwcNotify_of_ota htaken now got

/-! ### The paints which do not -/

/-- A button paints the debug screen exactly when it opens it. -/
theorem paints_handleButton_of_ota {ctx : AppCtx} (h : ctx.sm.otaActive = true)
    (now : Moment) (input : ButtonInput) :
    (ctx.handleButton now input).2 =
      if ctx.sm.debugMode = false ∧ input = ⟨.k3, .click⟩ then [.debug true] else [] := by
  have hhub (op : ScreenManager.Op) (hop : ∀ active, op ≠ .setOtaOverlay active) :
      ((ctx.call op).renderHub now).2 = [] :=
    paints_renderHub_of_ota (otaActive_call h hop) now
  have htoggle : (ctx.call (.toggleDebug now.ms)).sm.debugMode = !ctx.sm.debugMode := by
    show (ctx.sm.toggleDebug now.ms).debugMode = _
    unfold ScreenManager.toggleDebug
    split <;> simp_all [ScreenManager.exitDebug, ScreenManager.enterDebug]
  obtain ⟨id, event⟩ := input
  cases event with
  | longPress => simp [handleButton]
  | click =>
      cases id with
      | k0 => simp [handleButton]
      | k1 | k2 =>
          cases hdebug : ctx.sm.debugMode with
          | false => simp [handleButton, hdebug, hhub]
          | true => simp [handleButton, hdebug]
      | k3 =>
          simp only [handleButton, htoggle]
          cases hdebug : ctx.sm.debugMode with
          | false => simp [renderDebug]
          | true => simp [hhub]

theorem paints_renderOrEmpty_of_ota {ctx : AppCtx} (h : ctx.sm.otaActive = true)
    (now : Moment) : (ctx.renderOrEmpty now).2 = [] :=
  paints_render_of_ota h now _

theorem paints_tickTeardown_of_ota {ctx : AppCtx} (h : ctx.sm.otaActive = true)
    (c : NetworkCoordinator) (net : Network) (now : Moment) :
    (tickTeardown c net now ctx).2.2 = [] := by
  have hdown : ({ ctx with apMode := false } : AppCtx).sm.otaActive = true := h
  unfold tickTeardown
  split
  · exact paints_renderOrEmpty_of_ota hdown now
  · rfl

theorem paints_tickBoot_of_ota {ctx : AppCtx} (h : ctx.sm.otaActive = true)
    (c : NetworkCoordinator) (now : Moment) (nowMs : UInt32) :
    (tickBoot c now nowMs ctx).2.2 = [] := by
  simp only [tickBoot, finishBoot]
  split
  · split
    · rfl
    · exact paints_renderOrEmpty_of_ota h now
  · rfl

theorem shouldStartFallbackAp_connected (once apUp : Bool) (nowMs bootMs graceMs : UInt32) :
    shouldStartFallbackAp once apUp true nowMs bootMs graceMs = false := by
  cases once <;> cases apUp <;> rfl

/-- A tick paints over the update screen exactly when the portal is due. -/
theorem paints_tick_of_ota {ctx : AppCtx} (h : ctx.sm.otaActive = true) (now : Moment)
    (net : Network) :
    (ctx.tick net now).2 = if ctx.portalDue now net then [.provisioning] else [] := by
  cases hc : ctx.netCoordinator with
  | none => simp [tick, portalDue, hc]
  | some c =>
      have hota {ctx' : AppCtx} (ht : ctx.Ticked ctx') : ctx'.sm.otaActive = true :=
        (congrArg ScreenManager.Latches.ota ht.latches).trans h
      have hdown := ctx.ticked_tickTeardown now (c.stampBoot (UInt32.ofInt now.ms)) net
      have hconnect := hdown.trans (ticked_tickConnect _
        (tickTeardown (c.stampBoot (UInt32.ofInt now.ms)) net now ctx).1 net
        (UInt32.ofInt now.ms))
      simp only [tick, portalDue, hc, Option.elim_some, paints_tickTeardown_of_ota h,
        paints_tickBoot_of_ota (hota hconnect), List.nil_append]
      cases hnet : net.connected with
      | true => simp [tickFallback, hnet, shouldStartFallbackAp_connected]
      | false =>
          -- without a connection the tick only finishes the boot, at the most
          have hstamp : (c.stampBoot (UInt32.ofInt now.ms)).connectedOnce = c.connectedOnce ∧
              (c.stampBoot (UInt32.ofInt now.ms)).apUp = c.apUp ∧
              (c.stampBoot (UInt32.ofInt now.ms)).graceMs = c.graceMs := by
            unfold NetworkCoordinator.stampBoot
            split <;> exact ⟨rfl, rfl, rfl⟩
          obtain ⟨honce, hap, hgrace⟩ := hstamp
          have hstay : tickTeardown (c.stampBoot (UInt32.ofInt now.ms)) net now ctx =
              (c.stampBoot (UInt32.ofInt now.ms), ctx, []) := by
            simp [tickTeardown, shouldTeardownAp, hnet]
          simp only [hstay, tickConnect, hnet, Bool.false_eq_true, false_and, if_false,
            tickFallback, tickBoot]
          rw [← honce, ← hap, ← hgrace]
          split <;> split <;> simp_all [startProvisioningPortal]

theorem paints_serve_of_ota {ctx : AppCtx} (h : ctx.sm.otaActive = true) (now : Moment)
    (got : Bool) :
    (ctx.serve got now).2 =
      if ctx.buttons = true ∧ ctx.debugDue now = true then [.debug false]
      else if ctx.buttons = true ∧ ctx.otaOverlayRenderPending = true then [.otaUpdate]
      else [] := by
  have hzap := paints_serveZap_of_ota h now got
  unfold serve
  cases ctx.buttons <;> cases ctx.debugDue now <;> cases ctx.otaOverlayRenderPending <;>
    simp [renderDebug, hzap]

/-! ### Runs -/

theorem debugDue_ticked {ctx ctx' : AppCtx} (h : ctx.Ticked ctx') (now : Moment) :
    ctx'.debugDue now = ctx.debugDue now := by
  have hdebug : ctx'.sm.debugMode = ctx.sm.debugMode :=
    congrArg ScreenManager.Latches.debug h.latches
  rw [debugDue, debugDue, hdebug, h.lastDebugRenderMs]

/-- The paints of a pass which serves neither a command nor a button. -/
theorem paints_wait_iff {ctx : AppCtx} (hbooted : ctx.Booted) (h : ctx.sm.otaActive = true)
    (now : Moment) (net : Network) (got : Bool) :
    (∀ p ∈ (ctx.tick net now).2 ++ ((ctx.tick net now).1.serve got now).2,
        p = Paint.otaUpdate) ↔
      ctx.debugDue now = false ∧ ctx.portalDue now net = false := by
  have hticked := ctx.ticked_tick now net
  have hota : (ctx.tick net now).1.sm.otaActive = true :=
    (congrArg ScreenManager.Latches.ota hticked.latches).trans h
  rw [paints_tick_of_ota h, paints_serve_of_ota hota, debugDue_ticked hticked]
  cases hdue : ctx.debugDue now with
  | false =>
      cases ctx.portalDue now net with
      | false =>
          refine iff_of_true (fun p hp => ?_) ⟨rfl, rfl⟩
          simp only [Bool.false_eq_true, and_false, if_false, List.nil_append] at hp
          split at hp
          · exact List.mem_singleton.mp hp
          · cases hp
      | true => simp
  | true =>
      have hdebug : ctx.sm.debugMode = true := by
        simp only [debugDue, Bool.and_eq_true] at hdue
        exact hdue.1
      have hbuttons := hticked.buttons (hbooted.debugMode hdebug)
      simp [hbuttons]

theorem paintsOnlyUpdate_pass_iff {ctx : AppCtx} (hbooted : ctx.Booted) (now : Moment)
    (net : Network) :
    ctx.PaintsOnlyUpdate (.pass now net) ↔ ctx.UpdateStays (.pass now net) := by
  refine imp_congr_right fun h => ?_
  simp only [paints, stepPaints]
  by_cases hdrain : ctx.buttons = true ∧ ctx.commands ≠ []
  · rw [pass_of_commands hdrain, paints_drainControlCommands_of_ota h]
    refine iff_of_true (by simp) fun hwait => ?_
    rcases hwait with hbuttons | hcommands
    · cases hdrain.1.symm.trans hbuttons
    · exact absurd hcommands hdrain.2
  have hwait : ctx.buttons = false ∨ ctx.commands = [] := by
    rw [not_and_or, Bool.not_eq_true, not_not] at hdrain
    exact hdrain
  simp only [hwait, true_implies]
  cases hq : ctx.buttonQ with
  | cons input inputs =>
      have hrest : ({ ctx with buttonQ := inputs } : AppCtx).sm.otaActive = true := h
      have hbutton : ({ ctx with buttonQ := inputs }.handleButton now input).2 =
          if ctx.sm.debugMode = false ∧ input = ⟨.k3, .click⟩ then [.debug true] else [] :=
        paints_handleButton_of_ota hrest now input
      rw [pass_of_button hdrain hq, hbutton]
      simp only [OpensDebug, hq, List.head?_cons, Option.some.injEq, reduceCtorEq,
        false_implies, and_true]
      by_cases hopens : ctx.sm.debugMode = false ∧ input = ⟨.k3, .click⟩
      · rw [if_pos hopens]
        simp [hopens]
      · rw [if_neg hopens]
        simp [hopens]
  | nil =>
      have hidle : ({ ctx with notified := false } : AppCtx).Booted := hbooted.congr rfl id rfl
      have hopens : ¬ ctx.OpensDebug := fun hopens => by simp [OpensDebug, hq] at hopens
      rw [pass_of_wait hdrain hq]
      exact (paints_wait_iff hidle h now net ctx.notified).trans
        ⟨fun hdue => ⟨hopens, fun _ => hdue⟩, fun hstays => hstays.2 rfl⟩

/-- A step paints over the update screen exactly when it is one of the three. -/
theorem paintsOnlyUpdate_iff {ctx : AppCtx} (hbooted : ctx.Booted) (e : Event) :
    ctx.PaintsOnlyUpdate e ↔ ctx.UpdateStays e := by
  cases e with
  | pass now net => exact paintsOnlyUpdate_pass_iff hbooted now net
  | factoryReset now =>
      refine iff_of_true (fun h => ?_) trivial
      have hpaints : ctx.paints (.factoryReset now) = [] :=
        paints_renderOrEmpty_of_ota (otaActive_call h (fun _ hop => by cases hop)) now
      simp [hpaints]
  | report partialSnapshot =>
      refine iff_of_true (fun _ => ?_) trivial
      simp only [paints, stepPaints]
      split <;> simp
  | _ => exact iff_of_true (fun _ p hp => by cases hp) trivial

variable (prefs : Prefs) (lastSlot lastBlockHeight : UInt32) (nowMs : ℤ)
  (satsVariant : UInt8) (panels : ℕ) (digitFontHasBtcSign : String → Bool)
  (hasCredentials : Bool)

/-- In a run from the boot nothing is painted over the update screen exactly when, at every
step, the debug screen is not opened, not due for its repaint, and the portal not due. -/
theorem along_paintsOnlyUpdate_iff (es : List Event) :
    Transition.Along step PaintsOnlyUpdate
        (boot prefs lastSlot lastBlockHeight nowMs satsVariant panels digitFontHasBtcSign
          hasCredentials) es ↔
      Transition.Along step UpdateStays
        (boot prefs lastSlot lastBlockHeight nowMs satsVariant panels digitFontHasBtcSign
          hasCredentials) es :=
  Transition.along_congr_of_invariant (I := Booted) (fun _ e h => booted_step h e)
    (fun _ e h => paintsOnlyUpdate_iff h e)
    (booted_boot prefs lastSlot lastBlockHeight nowMs satsVariant panels
      digitFontHasBtcSign hasCredentials) es

/-- The boot, the first connection with a height in hand, the request of the update
screen, and a click of the fourth button: the debug screen is painted over the update
screen. -/
def debugOverUpdate : List Event :=
  let now : Moment := ⟨1000, 0, ⟨0, 0, 1, 0⟩⟩
  [.report { blockHeight := some 900000 }, .pass now ⟨true, []⟩, .preFlash,
    .pass now ⟨true, []⟩, .pressButton ⟨.k3, .click⟩, .pass now ⟨true, []⟩]

theorem not_paintsOnlyUpdate_debugOverUpdate :
    ¬ Transition.Along step PaintsOnlyUpdate
      (boot Prefs.empty RotationPlan.kNoSavedSlot 0 0 7 7 (fun _ => true) true)
      debugOverUpdate := by
  intro h
  have hpaint := h.2.2.2.2.2.1 (by decide) (.debug true) (by decide)
  cases hpaint

end AppCtx

end BtClock
