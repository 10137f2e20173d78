import BtClock.EventLoop.Pass
import BtClock.Screen.Overlay

/-!
# What the actions of the loop leave alone

Frame lemmas: the buttons and the debug timer are touched by few actions, a paint leaves
the overlays alone, and so does a tick of the network coordinator.  Hence the overlays
which come from a button or from a pass are up only after the boot has ended.
-/

namespace BtClock

open Data Settings

theorem ScreenCtx.latches_planRotation (prefs : Prefs) (s : ScreenManager) :
    (ScreenCtx.planRotation prefs s).latches = s.latches :=
  ScreenManager.latches_step (.setRotationSequence _) rfl

/-- No overlay is up after the boot. -/
theorem ScreenCtx.latches_initScreenManager (prefs : Prefs)
    (lastSlot lastBlockHeight : UInt32) (nowMs : ℤ) :
    (ScreenCtx.initScreenManager prefs lastSlot lastBlockHeight nowMs).sm.latches =
      ⟨false, false, false, false, false⟩ := by
  have hplan := ScreenCtx.latches_planRotation prefs
    ((ScreenManager.create nowMs (activeCurrencies prefs)
      (activeCurrencies_ne_nil prefs)).setPaused (!prefs.getBool "timerActive" true))
  simp only [ScreenCtx.initScreenManager]
  generalize ScreenCtx.planRotation prefs _ = s at hplan ⊢
  have hset : ∀ slot, (s.setSlot slot nowMs).latches = ⟨false, false, false, false, false⟩ := by
    intro slot
    rw [ScreenManager.latches_setSlot, hplan]
    rfl
  cases RotationPlan.resumeSlot lastSlot s.slotCount s.rotationSequence with
  | none =>
    dsimp only
    split_ifs <;> exact hplan
  | some slot =>
    dsimp only
    split_ifs <;> exact hset slot

namespace AppCtx

variable (ctx : AppCtx) (now : Moment) (snap : DataSnapshot) (got : Bool)

/-! ### The buttons and the debug timer -/

/-- The buttons, their queue, and the time of the last paint of the debug screen. -/
def controls : Bool × List ButtonInput × ℤ :=
  (ctx.buttons, ctx.buttonQ, ctx.lastDebugRenderMs)

@[simp]
theorem controls_call (op : ScreenManager.Op) : (ctx.call op).controls = ctx.controls :=
  rfl

@[simp]
theorem controls_onScreens (f : ScreenCtx → ScreenCtx) :
    (ctx.onScreens f).controls = ctx.controls :=
  rfl

@[simp]
theorem controls_render : (ctx.render now snap).1.controls = ctx.controls :=
  rfl

@[simp]
theorem controls_renderHub : (ctx.renderHub now).1.controls = ctx.controls := by
  unfold renderHub
  split <;> rfl

theorem controls_handleCommand (cmd : ControlCommand) :
    (ctx.handleCommand now cmd).1.controls = ctx.controls := by
  cases cmd with
  | showCustom =>
      simp only [handleCommand]
      split <;> rfl
  | _ => rfl

theorem controls_handleCommands (ctx : AppCtx) (cmds : List ControlCommand) :
    (handleCommands now ctx cmds).1.controls = ctx.controls := by
  induction cmds generalizing ctx with
  | nil => rfl
  | cons cmd cmds ih => exact (ih _).trans (ctx.controls_handleCommand now cmd)

theorem controls_drainControlCommands :
    (ctx.drainControlCommands now).1.controls = ctx.controls := by
  simp only [drainControlCommands]
  split
  · exact (controls_renderHub ..).trans (controls_handleCommands ..)
  · exact controls_handleCommands ..

@[simp]
theorem controls_serveData : (ctx.serveData got now snap).1.controls = ctx.controls := by
  unfold serveData
  split <;> rfl

@[simp]
theorem controls_serveFreshBlock :
    (ctx.serveFreshBlock got now snap).1.controls = ctx.controls := by
  simp only [serveFreshBlock]
  split_ifs <;> simp

@[simp]
theorem controls_serveBlock : (ctx.serveBlock got now snap).1.controls = ctx.controls := by
  simp only [serveBlock]
  split_ifs <;> simp

@[simp]
theorem controls_serveRotation : (ctx.serveRotation got now).1.controls = ctx.controls := by
  simp only [serveRotation]
  split <;> split_ifs <;> simp

@[simp]
theorem controls_serveNwcNotify : (ctx.serveNwcNotify got now).1.controls = ctx.controls := by
  simp only [serveNwcNotify]
  split
  · split_ifs <;> rfl
  · exact controls_serveRotation ..

@[simp]
theorem controls_serveZap : (ctx.serveZap got now).1.controls = ctx.controls := by
  simp only [serveZap]
  split
  · rfl
  · exact controls_serveNwcNotify ..

theorem buttons_serve : (ctx.serve got now).1.buttons = ctx.buttons := by
  unfold serve
  split_ifs
  · rfl
  · rfl
  · rfl
  · exact congrArg Prod.fst (ctx.controls_serveZap now got)

theorem buttons_handleButton (input : ButtonInput) :
    (ctx.handleButton now input).1.buttons = ctx.buttons := by
  have hhub (op : ScreenManager.Op) : ((ctx.call op).renderHub now).1.buttons = ctx.buttons :=
    congrArg Prod.fst (controls_renderHub (ctx.call op) now)
  simp only [handleButton]
  split
  · rfl
  · split
    · rfl
    · split <;> first | rfl | exact hhub _
    · split <;> first | rfl | exact hhub _
    · split <;> first | rfl | exact hhub _

/-! ### The overlays -/

theorem latches_render : (ctx.render now snap).1.sm.latches = ctx.sm.latches := by
  simp only [render, sm, Display.render]
  split
  · rfl
  · split <;> rfl

theorem latches_refreshUpstreamCurrencies (fetched : List String) :
    (ctx.onScreens (ScreenCtx.refreshUpstreamCurrencies fetched)).sm.latches =
      ctx.sm.latches := by
  simp only [onScreens, ScreenCtx.refreshUpstreamCurrencies]
  split_ifs
  · rfl
  · rfl
  · exact ScreenManager.latches_step (.setCurrencies _) rfl

/-- What the manager remembers beside the overlays: the height which it saw last, and when
the notifications end. -/
def seen (s : ScreenManager) : UInt32 × (Bool × ℤ) × Bool × ℤ :=
  (s.lastSeenHeight, (s.zapAutoRestore, s.zapActiveUntil), s.nwcNotifyAutoRestore,
    s.nwcNotifyActiveUntil)

theorem seen_render : seen (ctx.render now snap).1.sm = seen ctx.sm := by
  simp only [render, sm, Display.render]
  split
  · rfl
  · split <;> rfl

theorem seen_refreshUpstreamCurrencies (fetched : List String) :
    seen (ctx.onScreens (ScreenCtx.refreshUpstreamCurrencies fetched)).sm = seen ctx.sm := by
  simp only [onScreens, ScreenCtx.refreshUpstreamCurrencies, ScreenManager.setCurrencies]
  split_ifs <;> rfl

theorem latches_rebuildScreens (prefs : Prefs) :
    (ctx.onScreens (ScreenCtx.rebuildScreens prefs)).sm.latches = ctx.sm.latches :=
  (ScreenManager.latches_step (.setRotationSequence _) rfl).trans
    (ScreenManager.latches_step (.setCurrencies _) rfl)

/-- What a part of the coordinator's tick leaves alone. -/
structure Ticked (ctx ctx' : AppCtx) : Prop where
  latches : ctx'.sm.latches = ctx.sm.latches
  buttons : ctx.buttons = true → ctx'.buttons = true
  buttonQ : ctx'.buttonQ = ctx.buttonQ
  lastDebugRenderMs : ctx'.lastDebugRenderMs = ctx.lastDebugRenderMs
  seen : AppCtx.seen ctx'.sm = AppCtx.seen ctx.sm
  hub : ctx'.hub = ctx.hub
  prefs : ctx'.prefs = ctx.prefs
  zapNotifyPending : ctx'.zapNotifyPending = ctx.zapNotifyPending
  nwcNotifyPending : ctx'.nwcNotifyPending = ctx.nwcNotifyPending
  otaOverlayRenderPending : ctx'.otaOverlayRenderPending = ctx.otaOverlayRenderPending

theorem Ticked.refl : Ticked ctx ctx :=
  ⟨rfl, id, rfl, rfl, rfl, rfl, rfl, rfl, rfl, rfl⟩

variable {ctx} in
theorem Ticked.trans {ctx' ctx'' : AppCtx} (h : Ticked ctx ctx') (h' : Ticked ctx' ctx'') :
    Ticked ctx ctx'' where
  latches := h'.latches.trans h.latches
  buttons hb := h'.buttons (h.buttons hb)
  buttonQ := h'.buttonQ.trans h.buttonQ
  lastDebugRenderMs := h'.lastDebugRenderMs.trans h.lastDebugRenderMs
  seen := h'.seen.trans h.seen
  hub := h'.hub.trans h.hub
  prefs := h'.prefs.trans h.prefs
  zapNotifyPending := h'.zapNotifyPending.trans h.zapNotifyPending
  nwcNotifyPending := h'.nwcNotifyPending.trans h.nwcNotifyPending
  otaOverlayRenderPending := h'.otaOverlayRenderPending.trans h.otaOverlayRenderPending

variable (c : NetworkCoordinator) (net : Network) (nowMs : UInt32)

theorem ticked_tickTeardown : Ticked ctx (tickTeardown c net now ctx).2.1 := by
  unfold tickTeardown
  split
  · exact ⟨latches_render { ctx with apMode := false } now _, id, rfl, rfl,
      seen_render { ctx with apMode := false } now _, rfl, rfl, rfl, rfl, rfl⟩
  · exact Ticked.refl ctx

theorem ticked_tickConnect : Ticked ctx (tickConnect c net nowMs ctx).2 := by
  unfold tickConnect
  split
  · exact ⟨ctx.latches_refreshUpstreamCurrencies net.fetched, id, rfl, rfl,
      ctx.seen_refreshUpstreamCurrencies net.fetched, rfl, rfl, rfl, rfl, rfl⟩
  · exact Ticked.refl ctx

theorem ticked_tickBoot : Ticked ctx (tickBoot c now nowMs ctx).2.1 := by
  unfold tickBoot
  split
  · simp only [finishBoot]
    split
    · exact Ticked.refl ctx
    · exact ⟨ctx.latches_render now _, fun _ => rfl, rfl, rfl, ctx.seen_render now _,
        rfl, rfl, rfl, rfl, rfl⟩
  · exact Ticked.refl ctx

theorem ticked_tickFallback : Ticked ctx (tickFallback c net nowMs ctx).2.1 := by
  unfold tickFallback
  split
  · exact ⟨rfl, id, rfl, rfl, rfl, rfl, rfl, rfl, rfl, rfl⟩
  · exact Ticked.refl ctx

theorem ticked_tick : Ticked ctx (ctx.tick net now).1 := by
  simp only [tick]
  split
  · exact Ticked.refl ctx
  · rename_i c _
    have hdown := ctx.ticked_tickTeardown now (c.stampBoot (UInt32.ofInt now.ms)) net
    generalize tickTeardown (c.stampBoot (UInt32.ofInt now.ms)) net now ctx = down at hdown ⊢
    have hconnect := hdown.trans
      (down.2.1.ticked_tickConnect down.1 net (UInt32.ofInt now.ms))
    generalize tickConnect down.1 net (UInt32.ofInt now.ms) down.2.1 = connect at hconnect ⊢
    have hboot := hconnect.trans
      (connect.2.ticked_tickBoot now connect.1 (UInt32.ofInt now.ms))
    generalize tickBoot connect.1 now (UInt32.ofInt now.ms) connect.2 = boot at hboot ⊢
    have hup := hboot.trans (boot.2.1.ticked_tickFallback boot.1 net (UInt32.ofInt now.ms))
    exact ⟨hup.latches, hup.buttons, hup.buttonQ, hup.lastDebugRenderMs, hup.seen,
      hup.hub, hup.prefs, hup.zapNotifyPending, hup.nwcNotifyPending,
      hup.otaOverlayRenderPending⟩

/-! ### Before the end of the boot -/

/-- A waiting button, the debug screen and a notification are there only after the end of
the boot. -/
structure Booted : Prop where
  buttonQ : ctx.buttonQ ≠ [] → ctx.buttons = true
  debugMode : ctx.sm.debugMode = true → ctx.buttons = true
  nwcNotify : ctx.sm.nwcNotifyActive = true → ctx.buttons = true
  zap : ctx.sm.zapActive = true → ctx.buttons = true

variable {ctx}

theorem booted_of_buttons (h : ctx.buttons = true) : ctx.Booted :=
  ⟨fun _ => h, fun _ => h, fun _ => h, fun _ => h⟩

/-- Before the end of the boot nothing comes up by itself. -/
theorem Booted.congr {ctx' : AppCtx} (h : ctx.Booted)
    (hlatches : ctx'.sm.latches = ctx.sm.latches)
    (hbuttons : ctx.buttons = true → ctx'.buttons = true)
    (hbuttonQ : ctx'.buttonQ = ctx.buttonQ) : ctx'.Booted where
  buttonQ hq := hbuttons (h.buttonQ (hbuttonQ ▸ hq))
  debugMode hd := hbuttons (h.debugMode
    ((congrArg ScreenManager.Latches.debug hlatches).symm.trans hd))
  nwcNotify hn := hbuttons (h.nwcNotify
    ((congrArg ScreenManager.Latches.nwcNotify hlatches).symm.trans hn))
  zap hz := hbuttons (h.zap ((congrArg ScreenManager.Latches.zap hlatches).symm.trans hz))

theorem booted_pass (h : ctx.Booted) (now : Moment) (net : Network) :
    (ctx.pass now net).1.Booted := by
  unfold pass
  split_ifs with hdrain
  · exact booted_of_buttons
      ((congrArg Prod.fst (ctx.controls_drainControlCommands now)).trans hdrain.1)
  · split
    · rename_i input inputs hq
      have hbuttons : ctx.buttons = true := h.buttonQ (by rw [hq]; simp)
      exact booted_of_buttons ((buttons_handleButton _ now input).trans hbuttons)
    · have hticked := ({ ctx with notified := false } : AppCtx).ticked_tick now net
      have hbooted : ({ ctx with notified := false }.tick net now).1.Booted :=
        h.congr hticked.latches hticked.buttons hticked.buttonQ
      cases hbuttons : ({ ctx with notified := false }.tick net now).1.buttons with
      | true => exact booted_of_buttons ((buttons_serve _ now ctx.notified).trans hbuttons)
      | false => simpa only [serve, hbuttons, if_true] using hbooted

theorem booted_step (h : ctx.Booted) (e : Event) : (ctx.step e).Booted := by
  have hcall (op : ScreenManager.Op) (hop : op.keepsOverlays = true) : (ctx.call op).Booted :=
    h.congr (ScreenManager.latches_step op hop) id rfl
  cases e with
  | pass now net => exact booted_pass h now net
  | report partialSnapshot =>
      simp only [step, stepPaints]
      split
      · exact h
      · exact ⟨h.buttonQ, h.debugMode, h.nwcNotify, h.zap⟩
  | pressButton input =>
      simp only [step, stepPaints]
      split
      · rename_i hbuttons
        exact booted_of_buttons hbuttons
      · exact h
  | setPaused paused => exact hcall (.setPaused paused) rfl
  | restartTimer nowMs => exact hcall (.restartTimer nowMs) rfl
  | markDirty => exact hcall .markDirty rfl
  | factoryReset now =>
      have hrender := (ctx.call (.setCustomCells (erasingCells ctx.display.panels)
        now.ms)).latches_render now (ctx.hub.getD {})
      have hcleared : (ctx.call (.setCustomCells (erasingCells ctx.display.panels)
          now.ms)).Booted :=
        ⟨h.buttonQ, h.debugMode, (fun hn => nomatch hn), (fun hz => nomatch hz)⟩
      exact hcleared.congr hrender id rfl
  | wake | postCommand | postCustomCells | raiseZap | raiseNwcNotify | setAutoRestore
  | writePrefs | setSatsVariant | preFlash =>
      exact ⟨h.buttonQ, h.debugMode, h.nwcNotify, h.zap⟩

theorem booted_boot (prefs : Prefs) (lastSlot lastBlockHeight : UInt32) (nowMs : ℤ)
    (satsVariant : UInt8) (panels : ℕ) (digitFontHasBtcSign : String → Bool)
    (hasCredentials : Bool) :
    (boot prefs lastSlot lastBlockHeight nowMs satsVariant panels digitFontHasBtcSign
      hasCredentials).Booted := by
  have hlatches := ScreenCtx.latches_initScreenManager prefs lastSlot lastBlockHeight nowMs
  refine ⟨fun hq => absurd rfl hq, fun hd => ?_, fun hn => ?_, fun hz => ?_⟩
  · cases (congrArg ScreenManager.Latches.debug hlatches).symm.trans hd
  · cases (congrArg ScreenManager.Latches.nwcNotify hlatches).symm.trans hn
  · cases (congrArg ScreenManager.Latches.zap hlatches).symm.trans hz

end AppCtx

end BtClock
