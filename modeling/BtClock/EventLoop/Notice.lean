import BtClock.EventLoop.Frame

/-!
# A notification stays until its deadline

A zap or a wallet payment is laid over the rotation until its deadline.  Until then only
the user or another notification should change the display.  A new block respects the zap,
but takes the display from the payment.
-/

namespace BtClock

open Data Settings

/-- The deadline of the notification on display, if it ends by itself. -/
def ScreenManager.noticeDeadline (s : ScreenManager) : Option ℤ :=
  match s.currentKind with
  | .nwcPaymentNotify =>
      if s.nwcNotifyAutoRestore then some s.nwcNotifyActiveUntil else none
  | .nostrZap => if s.zapAutoRestore then some s.zapActiveUntil else none
  | _ => none

/-- A command which takes the display somewhere. -/
def ControlCommand.navigates : ControlCommand → Bool
  | .showScreen _ => true
  | .showCurrency _ => true
  | .nextScreen => true
  | .prevScreen => true
  | .showCustom => true
  | _ => false

/-- A click of a button which takes the display somewhere. -/
def ButtonInput.navigates (input : ButtonInput) : Bool :=
  input.event == .click && input.id != .k0

namespace AppCtx

/-- What may take a notification with the given deadline off the display: the deadline, an
action of the user, or another notification. -/
def MayEndNotice (ctx : AppCtx) (deadline : ℤ) : Event → Prop
  | .pass now _ =>
      deadline < now.ms ∨ ctx.commands.any ControlCommand.navigates = true ∨
        ctx.buttonQ.head?.any ButtonInput.navigates = true ∨
        ctx.zapNotifyPending = true ∨
        (ctx.nwcNotifyPending = true ∧ readBool ctx.prefs "nwcShowNotify" = true)
  | .preFlash => True
  | .factoryReset _ => True
  | _ => False

/-- A step which is none of those leaves the notification on display. -/
def KeepsNotice (ctx : AppCtx) (e : Event) : Prop :=
  ∀ deadline, ctx.sm.noticeDeadline = some deadline → ¬ ctx.MayEndNotice deadline e →
    (ctx.step e).sm.currentKind = ctx.sm.currentKind

/-- A pass gets as far as the block: nothing else waits to be served. -/
def Idle (ctx : AppCtx) : Prop :=
  ctx.commands = [] ∧ ctx.buttonQ = [] ∧ ctx.otaOverlayRenderPending = false ∧
    ctx.zapNotifyPending = false ∧ ctx.nwcNotifyPending = false

/-- No new block steals the display from a payment before its deadline. -/
def NoBlockSteals (ctx : AppCtx) : Event → Prop
  | .pass now _ =>
      ctx.sm.currentKind = .nwcPaymentNotify → ctx.sm.nwcNotifyAutoRestore = true →
        now.ms ≤ ctx.sm.nwcNotifyActiveUntil → ctx.Idle →
          ∀ snap, ctx.hub = some snap → ctx.freshBlock snap = true →
            readBool ctx.prefs "stealFocus" = false
  | _ => True

/-! ### The steps which leave the overlays alone -/

theorem latches_renderHub (ctx : AppCtx) (now : Moment) :
    (ctx.renderHub now).1.sm.latches = ctx.sm.latches := by
  unfold renderHub
  split
  · exact ctx.latches_render now _
  · rfl

theorem latches_call {ctx : AppCtx} {op : ScreenManager.Op} (hop : op.keepsOverlays = true) :
    (ctx.call op).sm.latches = ctx.sm.latches :=
  ScreenManager.latches_step op hop

theorem latches_handleCommand {ctx : AppCtx} (now : Moment) {cmd : ControlCommand}
    (hcmd : cmd.navigates = false) :
    (ctx.handleCommand now cmd).1.sm.latches = ctx.sm.latches := by
  cases cmd with
  | showScreen | showCurrency | nextScreen | prevScreen | showCustom => cases hcmd
  | rebuildScreens => exact ctx.latches_rebuildScreens ctx.prefs
  | _ => rfl

theorem latches_handleCommands {ctx : AppCtx} (now : Moment) {cmds : List ControlCommand}
    (hcmds : cmds.any ControlCommand.navigates = false) :
    (handleCommands now ctx cmds).1.sm.latches = ctx.sm.latches := by
  induction cmds generalizing ctx with
  | nil => rfl
  | cons cmd cmds ih =>
      rw [List.any_cons, Bool.or_eq_false_iff] at hcmds
      exact (ih hcmds.2).trans (latches_handleCommand now hcmds.1)

theorem latches_drainControlCommands {ctx : AppCtx} (now : Moment)
    (hcmds : ctx.commands.any ControlCommand.navigates = false) :
    (ctx.drainControlCommands now).1.sm.latches = ctx.sm.latches := by
  have hcommands : (handleCommands now { ctx with commands := [] } ctx.commands).1.sm.latches =
      ctx.sm.latches := latches_handleCommands now hcmds
  simp only [drainControlCommands]
  split
  · exact (latches_renderHub _ now).trans hcommands
  · exact hcommands

theorem latches_handleButton {ctx : AppCtx} (now : Moment) {input : ButtonInput}
    (hinput : input.navigates = false) :
    (ctx.handleButton now input).1.sm.latches = ctx.sm.latches := by
  obtain ⟨id, event⟩ := input
  cases event with
  | longPress => rfl
  | click =>
      cases id with
      | k0 => rfl
      | k1 | k2 | k3 => cases hinput

theorem latches_serveData (ctx : AppCtx) (got : Bool) (now : Moment) (snap : DataSnapshot) :
    (ctx.serveData got now snap).1.sm.latches = ctx.sm.latches := by
  unfold serveData
  split
  · exact ctx.latches_render now snap
  · rfl

/-! ### A pass with a notification on display -/

theorem noticeDeadline_cases {s : ScreenManager} {deadline : ℤ}
    (h : s.noticeDeadline = some deadline) :
    (s.currentKind = .nwcPaymentNotify ∧ s.nwcNotifyAutoRestore = true ∧
        s.nwcNotifyActiveUntil = deadline) ∨
      (s.currentKind = .nostrZap ∧ s.zapActiveUntil = deadline) := by
  unfold ScreenManager.noticeDeadline at h
  split at h
  · rename_i hkind
    split at h
    · rename_i hrestore
      exact .inl ⟨hkind, hrestore, Option.some.inj h⟩
    · cases h
  · rename_i hkind
    split at h
    · exact .inr ⟨hkind, Option.some.inj h⟩
    · cases h
  · cases h

theorem isNotice_of_deadline {s : ScreenManager} {deadline : ℤ}
    (h : s.noticeDeadline = some deadline) :
    s.currentKind = .nwcPaymentNotify ∨ s.currentKind = .nostrZap :=
  (noticeDeadline_cases h).imp And.left And.left

theorem debugMode_of_notice {s : ScreenManager}
    (h : s.currentKind = .nwcPaymentNotify ∨ s.currentKind = .nostrZap) :
    s.debugMode = false := by
  rcases h with h | h
  · exact ((ScreenManager.currentKind_eq_nwcPaymentNotify_iff s).mp h).2.1
  · exact ((ScreenManager.currentKind_eq_nostrZap_iff s).mp h).2.1

/-- Before the deadline the rotation does not touch a notification. -/
theorem maybeAutoRotate_of_deadline {s : ScreenManager} {deadline : ℤ}
    (h : s.noticeDeadline = some deadline) {nowMs : ℤ} (hnow : nowMs ≤ deadline)
    (periodMs : ℤ) : s.maybeAutoRotate nowMs periodMs = (s, false) := by
  have hlate : ¬ nowMs > deadline := Int.not_lt.mpr hnow
  rcases noticeDeadline_cases h with ⟨hkind, -, rfl⟩ | ⟨hkind, rfl⟩
  · obtain ⟨hota, hdebug, hnwc⟩ :=
      (ScreenManager.currentKind_eq_nwcPaymentNotify_iff s).mp hkind
    simp [ScreenManager.maybeAutoRotate, hota, hdebug, hnwc, hlate]
  · obtain ⟨hota, hdebug, hnwc, hzap⟩ := (ScreenManager.currentKind_eq_nostrZap_iff s).mp hkind
    simp [ScreenManager.maybeAutoRotate, hota, hdebug, hnwc, hzap, hlate]

/-- The first slot is the block height. -/
theorem slotOfKind_blockHeight (s : ScreenManager) : s.slotOfKind .blockHeight = some 0 := by
  have hrange : List.range s.slotCount = 0 :: (List.range (s.slotCount - 1)).map (· + 1) := by
    obtain ⟨n, hn⟩ : ∃ n, s.slotCount = n + 1 :=
      Nat.exists_eq_succ_of_ne_zero (Nat.ne_of_gt s.slotCount_pos)
    rw [hn, List.range_succ_eq_map]
    rfl
  have hkind : s.kindForSlot 0 = .blockHeight := by
    simp [ScreenManager.kindForSlot, kindForSlot, SlotMap.slotCount_eq]
  rw [ScreenManager.slotOfKind, hrange, List.find?_cons, hkind]
  rfl

/-- A fresh block takes the display from a payment exactly when it steals the focus. -/
theorem currentKind_serveFreshBlock_iff {ctx : AppCtx}
    (hkind : ctx.sm.currentKind = .nwcPaymentNotify ∨ ctx.sm.currentKind = .nostrZap)
    (got : Bool) (now : Moment) (snap : DataSnapshot) :
    (ctx.serveFreshBlock got now snap).1.sm.currentKind = ctx.sm.currentKind ↔
      (ctx.sm.currentKind = .nwcPaymentNotify → readBool ctx.prefs "stealFocus" = false) := by
  have hdata := ScreenManager.currentKind_congr (ctx.latches_serveData got now snap) hkind
  simp only [serveFreshBlock]
  cases hsteal : readBool ctx.prefs "stealFocus" with
  | false =>
      refine iff_of_true ?_ fun _ => rfl
      simpa [BlockEventPolicy.shouldSteal, BlockEventPolicy.shouldRestartTimerOnBlockUpdate]
        using hdata
  | true =>
      rcases hkind with hnwc | hzap
      · -- the steal: the slot of the block height is shown, and no latch is left
        refine iff_of_false (fun hsame => ?_) (by simp [hnwc])
        have hset : ctx.sm.setKind .blockHeight now.ms = (ctx.sm.setSlot 0 now.ms, true) := by
          simp [ScreenManager.setKind, slotOfKind_blockHeight]
        rw [hnwc] at hsame
        simp only [BlockEventPolicy.shouldSteal, Bool.true_eq_false, if_false, if_true,
          hset] at hsame
        have hlatch := ((ScreenManager.currentKind_eq_nwcPaymentNotify_iff _).mp hsame).2.2
        have hcleared : (ctx.call (.setKind .blockHeight now.ms)).sm.latches.nwcNotify =
            false := by
          show (ctx.sm.setKind .blockHeight now.ms).1.latches.nwcNotify = false
          rw [hset, ScreenManager.latches_setSlot]
        have hrender := latches_render (ctx.call (.setKind .blockHeight now.ms)) now snap
        exact Bool.false_ne_true
          (hcleared.symm.trans ((congrArg ScreenManager.Latches.nwcNotify hrender).symm.trans
            hlatch))
      · refine iff_of_true ?_ (by simp [hzap])
        simpa [BlockEventPolicy.shouldSteal, BlockEventPolicy.shouldRestartTimerOnBlockUpdate,
          hzap] using hdata

/-- The hub has a fresh block, and it steals the display from a payment. -/
def BlockSteals (ctx : AppCtx) : Prop :=
  ctx.sm.currentKind = .nwcPaymentNotify ∧
    (∃ snap, ctx.hub = some snap ∧ ctx.freshBlock snap = true) ∧
    readBool ctx.prefs "stealFocus" = true

theorem currentKind_serveBlock_iff {ctx : AppCtx}
    (hkind : ctx.sm.currentKind = .nwcPaymentNotify ∨ ctx.sm.currentKind = .nostrZap)
    (got : Bool) (now : Moment) {snap : DataSnapshot} (hhub : ctx.hub = some snap) :
    (ctx.serveBlock got now snap).1.sm.currentKind = ctx.sm.currentKind ↔
      ¬ ctx.BlockSteals := by
  have hseen : (ctx.call (.consumeNewBlock snap.blockHeight)).sm.currentKind =
      ctx.sm.currentKind := ScreenManager.currentKind_congr (latches_call rfl) hkind
  simp only [serveBlock, BlockSteals, hhub, Option.some.injEq, exists_eq_left']
  cases hfresh : ctx.freshBlock snap with
  | false =>
      refine iff_of_true ?_ (by simp)
      exact (ScreenManager.currentKind_congr (latches_serveData _ got now snap)
        (hseen ▸ hkind)).trans hseen
  | true =>
      have hiff := currentKind_serveFreshBlock_iff (hseen ▸ hkind) got now snap
      have hprefs : (ctx.call (.consumeNewBlock snap.blockHeight)).prefs = ctx.prefs := rfl
      rw [hseen, hprefs] at hiff
      simpa using hiff

theorem currentKind_serveRotation_iff {ctx : AppCtx} {deadline : ℤ}
    (hdeadline : ctx.sm.noticeDeadline = some deadline) {now : Moment}
    (hnow : now.ms ≤ deadline) (got : Bool) :
    (ctx.serveRotation got now).1.sm.currentKind = ctx.sm.currentKind ↔
      ¬ ctx.BlockSteals := by
  have hrotate := maybeAutoRotate_of_deadline hdeadline hnow ctx.autoRotateMs
  have hcall : ctx.call (.maybeAutoRotate now.ms ctx.autoRotateMs) = ctx := by
    show ctx.withManager (ctx.sm.maybeAutoRotate now.ms ctx.autoRotateMs).1 = ctx
    rw [hrotate]
    rfl
  simp only [serveRotation, hcall, ite_self, hrotate, Bool.and_false, Bool.false_eq_true,
    if_false]
  cases hhub : ctx.hub with
  | none => simp [BlockSteals, hhub]
  | some snap => exact currentKind_serveBlock_iff (isNotice_of_deadline hdeadline) got now hhub

/-- What the wait of a pass leads to: the notification stays, unless nothing else waits to
be served and a fresh block steals the display. -/
theorem currentKind_serve_iff {ctx : AppCtx} {deadline : ℤ} (hbuttons : ctx.buttons = true)
    (hdeadline : ctx.sm.noticeDeadline = some deadline) {now : Moment}
    (hnow : now.ms ≤ deadline) (hzap : ctx.zapNotifyPending = false)
    (hnwc : ctx.nwcNotifyPending = true → readBool ctx.prefs "nwcShowNotify" = false)
    (got : Bool) :
    (ctx.serve got now).1.sm.currentKind = ctx.sm.currentKind ↔
      ¬ (ctx.otaOverlayRenderPending = false ∧
        ctx.nwcNotifyPending = false ∧ ctx.BlockSteals) := by
  have hdebug := debugMode_of_notice (isNotice_of_deadline hdeadline)
  have hcleared : ({ ctx with zapNotifyPending := false, nwcNotifyPending := false } :
      AppCtx).sm.noticeDeadline = some deadline := hdeadline
  have hrotation := currentKind_serveRotation_iff hcleared hnow got
  simp only [serve, hbuttons, Bool.true_eq_false, if_false, debugDue, hdebug, Bool.false_and,
    Bool.false_eq_true]
  cases hota : ctx.otaOverlayRenderPending with
  | true =>
      simp only [if_true, Bool.true_eq_false, false_and, not_false_eq_true, iff_true]
      rfl
  | false =>
      simp only [Bool.false_eq_true, if_false, serveZap, hzap, serveNwcNotify, true_and]
      cases hpending : ctx.nwcNotifyPending with
      | false =>
          simp only [true_and]
          exact hrotation
      | true =>
          cases hhub : ctx.hub with
          | none =>
              have hstays : ¬ BlockSteals
                  { ctx with zapNotifyPending := false, nwcNotifyPending := false } := by
                simp [BlockSteals, hhub]
              simp only [Bool.true_eq_false, false_and, not_false_eq_true, iff_true]
              have hkeeps := hrotation.mpr hstays
              simp only [hhub] at hkeeps
              exact hkeeps
          | some snap =>
              simp only [hnwc hpending, Bool.false_eq_true, if_false, Bool.true_eq_false,
                false_and, not_false_eq_true, iff_true]
              rfl

/-! ### Runs -/

theorem noticeDeadline_ticked {ctx ctx' : AppCtx} (h : ctx.Ticked ctx')
    {deadline : ℤ} (hdeadline : ctx.sm.noticeDeadline = some deadline) :
    ctx'.sm.noticeDeadline = some deadline := by
  have hkind := ScreenManager.currentKind_congr h.latches (isNotice_of_deadline hdeadline)
  have hseen := h.seen
  simp only [seen, Prod.mk.injEq] at hseen
  obtain ⟨-, ⟨hzap, hzapUntil⟩, hnwc, hnwcUntil⟩ := hseen
  rw [← hdeadline, ScreenManager.noticeDeadline, ScreenManager.noticeDeadline, hkind, hzap,
    hzapUntil, hnwc, hnwcUntil]

theorem blockSteals_ticked {ctx ctx' : AppCtx} (h : ctx.Ticked ctx')
    (hkind : ctx.sm.currentKind = .nwcPaymentNotify ∨ ctx.sm.currentKind = .nostrZap) :
    ctx'.BlockSteals ↔ ctx.BlockSteals := by
  have hheight : ctx'.sm.lastSeenHeight = ctx.sm.lastSeenHeight := congrArg Prod.fst h.seen
  have hfresh (snap : DataSnapshot) : ctx'.freshBlock snap = ctx.freshBlock snap := by
    unfold freshBlock ScreenManager.consumeNewBlock
    rw [hheight]
    cases snap.blockHeight with
    | none => rfl
    | some height => rfl
  simp only [BlockSteals, ScreenManager.currentKind_congr h.latches hkind, h.hub, h.prefs,
    hfresh]

/-- With a notification on display a pass changes the kind exactly when it gets as far as a
block which steals the display. -/
theorem currentKind_pass_iff {ctx : AppCtx} (hbooted : ctx.Booted) {deadline : ℤ}
    (hdeadline : ctx.sm.noticeDeadline = some deadline) {now : Moment} (net : Network)
    (h : ¬ ctx.MayEndNotice deadline (.pass now net)) :
    (ctx.step (.pass now net)).sm.currentKind = ctx.sm.currentKind ↔
      ¬ (ctx.Idle ∧ ctx.BlockSteals) := by
  have hkind := isNotice_of_deadline hdeadline
  have hbuttons : ctx.buttons = true := by
    rcases hkind with hnwc | hzap
    · exact hbooted.nwcNotify ((ScreenManager.currentKind_eq_nwcPaymentNotify_iff _).mp hnwc).2.2
    · exact hbooted.zap ((ScreenManager.currentKind_eq_nostrZap_iff _).mp hzap).2.2.2
  simp only [MayEndNotice, not_or, Bool.not_eq_true, Int.not_lt, not_and] at h
  obtain ⟨hnow, hcommands, hbutton, hzap, hnwc⟩ := h
  simp only [step, stepPaints]
  by_cases hdrain : ctx.buttons = true ∧ ctx.commands ≠ []
  · rw [pass_of_commands hdrain]
    refine iff_of_true ?_ fun hsteals => hdrain.2 hsteals.1.1
    exact ScreenManager.currentKind_congr (latches_drainControlCommands now hcommands) hkind
  cases hq : ctx.buttonQ with
  | cons input inputs =>
      rw [hq] at hbutton
      rw [pass_of_button hdrain hq]
      refine iff_of_true ?_ fun hsteals => List.cons_ne_nil _ _ (hq.symm.trans hsteals.1.2.1)
      refine ScreenManager.currentKind_congr ?_ hkind
      exact latches_handleButton now hbutton
  | nil =>
      have hempty : ctx.commands = [] := by simpa [hbuttons] using hdrain
      have hticked := ({ ctx with notified := false } : AppCtx).ticked_tick now net
      have hserve := currentKind_serve_iff (hticked.buttons hbuttons)
        (noticeDeadline_ticked hticked hdeadline) hnow (hticked.zapNotifyPending.trans hzap)
        (fun hpending => by
          rw [hticked.prefs]
          exact hnwc (hticked.nwcNotifyPending.symm.trans hpending)) ctx.notified
      rw [ScreenManager.currentKind_congr hticked.latches hkind,
        hticked.otaOverlayRenderPending, hticked.nwcNotifyPending,
        blockSteals_ticked hticked hkind] at hserve
      have hidle : ctx.Idle ↔
          ctx.otaOverlayRenderPending = false ∧ ctx.nwcNotifyPending = false := by
        simp [Idle, hempty, hq, hzap]
      rw [pass_of_wait hdrain hq, hidle, and_assoc]
      exact hserve

/-- A step takes a notification off the display early exactly when a new block steals it
from a payment. -/
theorem keepsNotice_iff {ctx : AppCtx} (hbooted : ctx.Booted) (e : Event) :
    ctx.KeepsNotice e ↔ ctx.NoBlockSteals e := by
  have hkeeps (hlatches : (ctx.step e).sm.latches = ctx.sm.latches) : ctx.KeepsNotice e :=
    fun deadline hdeadline _ =>
      ScreenManager.currentKind_congr hlatches (isNotice_of_deadline hdeadline)
  cases e with
  | pass now net =>
      constructor
      · intro h hkind hrestore hnow hidle snap hhub hfresh
        have hdeadline : ctx.sm.noticeDeadline = some ctx.sm.nwcNotifyActiveUntil := by
          simp [ScreenManager.noticeDeadline, hkind, hrestore]
        have hmay : ¬ ctx.MayEndNotice ctx.sm.nwcNotifyActiveUntil (.pass now net) := by
          obtain ⟨hcommands, hq, -, hzap, hnwc⟩ := hidle
          simp [MayEndNotice, hcommands, hq, hzap, hnwc, hnow]
        have hsteals := (currentKind_pass_iff hbooted hdeadline net hmay).mp
          (h _ hdeadline hmay)
        rw [← Bool.not_eq_true]
        exact fun hsteal => hsteals ⟨hidle, hkind, ⟨snap, hhub, hfresh⟩, hsteal⟩
      · intro h deadline hdeadline hmay
        refine (currentKind_pass_iff hbooted hdeadline net hmay).mpr ?_
        rintro ⟨hidle, hkind, ⟨snap, hhub, hfresh⟩, hsteal⟩
        rcases noticeDeadline_cases hdeadline with ⟨-, hrestore, rfl⟩ | ⟨hzap, -⟩
        · have hnow : now.ms ≤ ctx.sm.nwcNotifyActiveUntil := by
            simp only [MayEndNotice, not_or, Int.not_lt] at hmay
            exact hmay.1
          rw [h hkind hrestore hnow hidle snap hhub hfresh] at hsteal
          cases hsteal
        · cases hkind.symm.trans hzap
  | preFlash | factoryReset => exact iff_of_true (fun _ _ h => absurd trivial h) trivial
  | report partialSnapshot =>
      refine iff_of_true (hkeeps ?_) trivial
      simp only [step, stepPaints]
      split <;> rfl
  | pressButton input =>
      refine iff_of_true (hkeeps ?_) trivial
      simp only [step, stepPaints]
      split <;> rfl
  | _ => exact iff_of_true (hkeeps rfl) trivial

variable (prefs : Prefs) (lastSlot lastBlockHeight : UInt32) (nowMs : ℤ)
  (satsVariant : UInt8) (panels : ℕ) (digitFontHasBtcSign : String → Bool)
  (hasCredentials : Bool)

/-- In a run from the boot every notification stays until its deadline, the next action of
the user or the next notification, exactly when no new block steals the display from a
payment. -/
theorem along_keepsNotice_iff (es : List Event) :
    Transition.Along step KeepsNotice
        (boot prefs lastSlot lastBlockHeight nowMs satsVariant panels digitFontHasBtcSign
          hasCredentials) es ↔
      Transition.Along step NoBlockSteals
        (boot prefs lastSlot lastBlockHeight nowMs satsVariant panels digitFontHasBtcSign
          hasCredentials) es :=
  Transition.along_congr_of_invariant (I := Booted) (fun _ e h => booted_step h e)
    (fun _ e h => keepsNotice_iff h e)
    (booted_boot prefs lastSlot lastBlockHeight nowMs satsVariant panels
      digitFontHasBtcSign hasCredentials) es

/-- The boot, the first connection with a height in hand, a wallet payment, and one second
later the next block. -/
def blockOverPayment : List Event :=
  [.report { blockHeight := some 900000 }, .pass ⟨1000, 0, ⟨0, 0, 1, 0⟩⟩ ⟨true, []⟩,
    .raiseNwcNotify, .pass ⟨2000, 0, ⟨0, 0, 1, 0⟩⟩ ⟨true, []⟩,
    .report { blockHeight := some 900001 }, .pass ⟨3000, 0, ⟨0, 0, 1, 0⟩⟩ ⟨true, []⟩]

/-- The payment is taken off the display seven seconds before its deadline. -/
theorem not_keepsNotice_blockOverPayment :
    ¬ Transition.Along step KeepsNotice
      (boot Prefs.empty RotationPlan.kNoSavedSlot 0 0 7 7 (fun _ => true) true)
      blockOverPayment := by
  intro h
  have hkind := h.2.2.2.2.2.1 10000 (by decide) (by
    simp only [MayEndNotice]
    decide)
  revert hkind
  decide

end AppCtx

end BtClock
