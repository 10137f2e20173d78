import BtClock.EventLoop.Frame
import BtClock.Transition.History

/-!
# How the network is brought up

The coordinator keeps a few flags and stamps, and the panels, the radio and the buttons follow
them.  What they are after a run is told by the passes of the run alone: the portal comes up after
the grace period when there was no connection, and the boot ends behind the first connection, when
there is a height or the time for it has run out.
-/

namespace BtClock

open Data Settings Transition

namespace AppCtx

/-! ### What leaves the network alone -/

/-- What the coordinator reads and brings up. -/
def network (ctx : AppCtx) : Option NetworkCoordinator × Bool × Option DataSnapshot × Bool :=
  (ctx.netCoordinator, ctx.apMode, ctx.hub, ctx.buttons)

/-- An action of the loop which is none of the coordinator. -/
structure LeavesNetwork (ctx : AppCtx) (result : AppCtx × List Paint) : Prop where
  network : result.1.network = ctx.network
  portal : Paint.provisioning ∉ result.2

section Frame

variable {ctx ctx' : AppCtx} {result : AppCtx × List Paint} (now : Moment) (snap : DataSnapshot)
  (got : Bool)

theorem LeavesNetwork.of_eq (h : LeavesNetwork ctx' result) (hctx : ctx'.network = ctx.network) :
    LeavesNetwork ctx result :=
  ⟨h.network.trans hctx, h.portal⟩

theorem leavesNetwork_nil (h : ctx'.network = ctx.network) : LeavesNetwork ctx (ctx', []) :=
  ⟨h, List.not_mem_nil⟩

theorem leavesNetwork_render : LeavesNetwork ctx (ctx.render now snap) := by
  refine ⟨rfl, fun hmem => ?_⟩
  simp [render] at hmem

theorem leavesNetwork_renderDebug (nowMs : ℤ) (forceFull : Bool) :
    LeavesNetwork ctx (ctx.renderDebug nowMs forceFull) :=
  ⟨rfl, by simp [renderDebug]⟩

theorem leavesNetwork_renderHub : LeavesNetwork ctx (ctx.renderHub now) := by
  unfold renderHub
  split
  · exact leavesNetwork_render now _
  · exact leavesNetwork_nil rfl

theorem network_handleCommand (ctx : AppCtx) (cmd : ControlCommand) :
    (ctx.handleCommand now cmd).1.network = ctx.network := by
  cases cmd with
  | showCustom =>
      simp only [handleCommand]
      split <;> rfl
  | _ => rfl

theorem network_handleCommands (ctx : AppCtx) (cmds : List ControlCommand) :
    (handleCommands now ctx cmds).1.network = ctx.network := by
  induction cmds generalizing ctx with
  | nil => rfl
  | cons cmd cmds ih => exact (ih _).trans (network_handleCommand now ctx cmd)

theorem leavesNetwork_drainControlCommands :
    LeavesNetwork ctx (ctx.drainControlCommands now) := by
  have hcommands : (handleCommands now { ctx with commands := [] } ctx.commands).1.network =
      ctx.network := network_handleCommands now _ _
  simp only [drainControlCommands]
  split
  · exact (leavesNetwork_renderHub now).of_eq hcommands
  · exact leavesNetwork_nil hcommands

theorem leavesNetwork_handleButton (input : ButtonInput) :
    LeavesNetwork ctx (ctx.handleButton now input) := by
  have hhub (op : ScreenManager.Op) : LeavesNetwork ctx ((ctx.call op).renderHub now) :=
    (leavesNetwork_renderHub now).of_eq rfl
  simp only [handleButton]
  split
  · exact leavesNetwork_nil rfl
  · split
    · exact leavesNetwork_nil rfl
    · split
      · exact leavesNetwork_nil rfl
      · exact hhub _
    · split
      · exact leavesNetwork_nil rfl
      · exact hhub _
    · split
      · exact (leavesNetwork_renderDebug _ _).of_eq rfl
      · exact hhub _

theorem leavesNetwork_serveData : LeavesNetwork ctx (ctx.serveData got now snap) := by
  unfold serveData
  split
  · exact leavesNetwork_render now snap
  · exact leavesNetwork_nil rfl

theorem leavesNetwork_serveFreshBlock : LeavesNetwork ctx (ctx.serveFreshBlock got now snap) := by
  simp only [serveFreshBlock]
  split_ifs
  · exact (leavesNetwork_render now snap).of_eq rfl
  · exact leavesNetwork_serveData now snap got
  · exact (leavesNetwork_serveData now snap got).of_eq rfl
  · exact leavesNetwork_serveData now snap got

theorem leavesNetwork_serveBlock : LeavesNetwork ctx (ctx.serveBlock got now snap) := by
  simp only [serveBlock]
  split
  · exact (leavesNetwork_serveFreshBlock now snap got).of_eq rfl
  · exact (leavesNetwork_serveData now snap got).of_eq rfl

theorem leavesNetwork_serveRotation : LeavesNetwork ctx (ctx.serveRotation got now) := by
  simp only [serveRotation]
  split
  · refine leavesNetwork_nil ?_
    split <;> rfl
  · split_ifs
    · exact (leavesNetwork_render now _).of_eq rfl
    · exact leavesNetwork_render now _
    · exact (leavesNetwork_serveBlock now _ got).of_eq rfl
    · exact leavesNetwork_serveBlock now _ got

theorem leavesNetwork_serveNwcNotify : LeavesNetwork ctx (ctx.serveNwcNotify got now) := by
  simp only [serveNwcNotify]
  split
  · split
    · exact (leavesNetwork_render now _).of_eq rfl
    · exact leavesNetwork_nil rfl
  · exact (leavesNetwork_serveRotation now got).of_eq rfl

theorem leavesNetwork_serveZap : LeavesNetwork ctx (ctx.serveZap got now) := by
  simp only [serveZap]
  split
  · exact (leavesNetwork_render now _).of_eq rfl
  · exact (leavesNetwork_serveNwcNotify now got).of_eq rfl

theorem leavesNetwork_serve : LeavesNetwork ctx (ctx.serve got now) := by
  unfold serve
  split
  · exact leavesNetwork_nil rfl
  · split
    · exact leavesNetwork_renderDebug _ _
    · split
      · exact ⟨rfl, by simp⟩
      · exact leavesNetwork_serveZap now got

end Frame

/-! ### A tick of the coordinator -/

/-- The coordinator after a tick. -/
def nextCoordinator (c : NetworkCoordinator) (connected : Bool) (hub : Option DataSnapshot)
    (nowMs : UInt32) : NetworkCoordinator :=
  let bootMs := if c.bootStamped then c.bootMs else nowMs
  let connectMs := if connected && !c.connectedOnce then nowMs else c.connectMs
  { graceMs := c.graceMs
    bootStamped := true
    bootMs := bootMs
    connectedOnce := c.connectedOnce || connected
    connectMs := connectMs
    bootFinalized := c.bootFinalized ||
      (c.connectedOnce || connected) &&
        ((hub.bind DataSnapshot.blockHeight).isSome ||
          decide (nowMs - connectMs ≥ kBootDataTimeoutMs))
    apUp := !connected && (c.apUp || !c.connectedOnce && decide (nowMs - bootMs ≥ c.graceMs)) }

/-- The radio and the buttons follow the coordinator, which has no portal up once there was a
connection. -/
structure Follows (c : NetworkCoordinator) (ctx : AppCtx) : Prop where
  apMode : ctx.apMode = c.apUp
  buttons : ctx.buttons = c.bootFinalized
  apart : c.apUp = true → c.connectedOnce = false

section Tick

variable {c : NetworkCoordinator} {ctx : AppCtx} (net : Network) (now : Moment) (nowMs : UInt32)

theorem follows_stampBoot (h : Follows c ctx) : Follows (c.stampBoot nowMs) ctx := by
  unfold NetworkCoordinator.stampBoot
  split
  · exact h
  · exact ⟨h.apMode, h.buttons, h.apart⟩

theorem follows_tickTeardown (h : Follows c ctx) :
    Follows (tickTeardown c net now ctx).1 (tickTeardown c net now ctx).2.1 := by
  unfold tickTeardown
  split
  · exact ⟨rfl, h.buttons, fun hup => (Bool.false_ne_true hup).elim⟩
  · exact h

theorem apUp_tickTeardown (hconnected : net.connected = true) :
    (tickTeardown c net now ctx).1.apUp = false := by
  unfold tickTeardown
  split
  · rfl
  · rename_i hdown
    simpa [shouldTeardownAp, hconnected] using hdown

theorem paints_tickTeardown :
    Paint.provisioning ∉ (tickTeardown c net now ctx).2.2 ∧
      (c.apUp = false → (tickTeardown c net now ctx).2.2 = []) := by
  unfold tickTeardown
  split
  · rename_i hdown
    refine ⟨LeavesNetwork.portal (leavesNetwork_render now _), ?_⟩
    intro hup
    simp [shouldTeardownAp, hup] at hdown
  · exact ⟨List.not_mem_nil, fun _ => rfl⟩

theorem follows_tickConnect (h : Follows c ctx) (hdown : net.connected = true → c.apUp = false) :
    Follows (tickConnect c net nowMs ctx).1 (tickConnect c net nowMs ctx).2 := by
  unfold tickConnect
  split
  · rename_i hfirst
    refine ⟨h.apMode, h.buttons, fun hup => ?_⟩
    rw [hdown hfirst.1] at hup
    exact (Bool.false_ne_true hup).elim
  · exact h

/-- The buttons come up with the flag: the portal is down by then. -/
theorem follows_tickBoot (h : Follows c ctx) :
    Follows (tickBoot c now nowMs ctx).1 (tickBoot c now nowMs ctx).2.1 := by
  unfold tickBoot
  split
  · rename_i hdue
    have hconnected : c.connectedOnce = true := by
      simp only [NetworkCoordinator.bootDue, Bool.and_eq_true] at hdue
      exact hdue.1.1
    have hap : ctx.apMode = false := by
      rw [h.apMode]
      by_contra hup
      rw [h.apart (Bool.not_eq_false _ ▸ hup)] at hconnected
      exact Bool.false_ne_true hconnected
    have hfinish : ctx.finishBoot now =
        ({ (ctx.renderOrEmpty now).1 with buttons := true }, (ctx.renderOrEmpty now).2) :=
      if_neg (by simp [hap])
    rw [hfinish]
    exact ⟨h.apMode, rfl, h.apart⟩
  · exact h

theorem paints_tickBoot :
    Paint.provisioning ∉ (tickBoot c now nowMs ctx).2.2 ∧
      (c.bootDue ctx.hub nowMs = false → (tickBoot c now nowMs ctx).2.2 = []) := by
  unfold tickBoot
  split
  · rename_i hdue
    refine ⟨?_, fun hnot => by simp [hdue] at hnot⟩
    unfold finishBoot
    split
    · exact List.not_mem_nil
    · exact (leavesNetwork_render now _).portal
  · exact ⟨List.not_mem_nil, fun _ => rfl⟩

theorem follows_tickFallback (h : Follows c ctx) :
    Follows (tickFallback c net nowMs ctx).1 (tickFallback c net nowMs ctx).2.1 := by
  unfold tickFallback
  split
  · rename_i hup
    refine ⟨rfl, h.buttons, fun _ => ?_⟩
    by_contra honce
    simp [shouldStartFallbackAp, honce] at hup
  · exact h

theorem stampBoot_eq :
    c.stampBoot nowMs =
      { c with
        bootStamped := true
        bootMs := if c.bootStamped then c.bootMs else nowMs } := by
  obtain ⟨grace, stamped, bootMs, once, connectMs, finalized, up⟩ := c
  cases stamped <;> rfl

theorem fst_tickTeardown :
    (tickTeardown c net now ctx).1 = { c with apUp := !net.connected && c.apUp } := by
  obtain ⟨grace, stamped, bootMs, once, connectMs, finalized, up⟩ := c
  unfold tickTeardown shouldTeardownAp
  cases net.connected <;> cases up <;> rfl

theorem fst_tickConnect :
    (tickConnect c net nowMs ctx).1 =
      { c with
        connectedOnce := c.connectedOnce || net.connected
        connectMs := if net.connected && !c.connectedOnce then nowMs else c.connectMs } := by
  obtain ⟨grace, stamped, bootMs, once, connectMs, finalized, up⟩ := c
  unfold tickConnect
  cases net.connected <;> cases once <;> rfl

theorem fst_tickBoot :
    (tickBoot c now nowMs ctx).1 =
      { c with
        bootFinalized := c.bootFinalized || c.connectedOnce &&
          ((ctx.hub.bind DataSnapshot.blockHeight).isSome ||
            decide (nowMs - c.connectMs ≥ kBootDataTimeoutMs)) } := by
  obtain ⟨grace, stamped, bootMs, once, connectMs, finalized, up⟩ := c
  cases hready : (ctx.hub.bind DataSnapshot.blockHeight).isSome ||
      decide (nowMs - connectMs ≥ kBootDataTimeoutMs) <;>
    cases once <;> cases finalized <;> simp [tickBoot, NetworkCoordinator.bootDue, hready]

theorem fst_tickFallback :
    (tickFallback c net nowMs ctx).1 =
      { c with
        apUp := c.apUp || !c.connectedOnce && !net.connected &&
          decide (nowMs - c.bootMs ≥ c.graceMs) } := by
  obtain ⟨grace, stamped, bootMs, once, connectMs, finalized, up⟩ := c
  cases hlate : decide (nowMs - bootMs ≥ grace) <;> cases hconnected : net.connected <;>
    cases once <;> cases up <;>
      simp [tickFallback, shouldStartFallbackAp, startProvisioningPortal, hlate, hconnected]

/-- The portal is painted when it comes up. -/
theorem snd_tickFallback :
    (tickFallback c net nowMs ctx).2.2 =
      if (tickFallback c net nowMs ctx).1.apUp && !c.apUp then [.provisioning] else [] := by
  obtain ⟨grace, stamped, bootMs, once, connectMs, finalized, up⟩ := c
  cases hlate : decide (nowMs - bootMs ≥ grace) <;> cases hconnected : net.connected <;>
    cases once <;> cases up <;>
      simp [tickFallback, shouldStartFallbackAp, startProvisioningPortal, hlate, hconnected]

/-- What a tick does: the coordinator goes on, the radio and the buttons follow it, and the
portal is painted when it comes up. -/
theorem tick_of_follows (hc : ctx.netCoordinator = some c) (h : Follows c ctx) :
    let c' := nextCoordinator c net.connected ctx.hub (UInt32.ofInt now.ms)
    let result := ctx.tick net now
    result.1.netCoordinator = some c' ∧ Follows c' result.1 ∧
      result.2.count .provisioning = (if c'.apUp && !c.apUp then 1 else 0) ∧
      (c.apUp = false → c'.apUp = false → c'.bootFinalized = false → result.2 = []) := by
  let nowMs := UInt32.ofInt now.ms
  let down := tickTeardown (c.stampBoot nowMs) net now ctx
  let connect := tickConnect down.1 net nowMs down.2.1
  let boot := tickBoot connect.1 now nowMs connect.2
  let up := tickFallback boot.1 net nowMs boot.2.1
  have htick : ctx.tick net now =
      ({ up.2.1 with netCoordinator := some up.1 }, down.2.2 ++ boot.2.2 ++ up.2.2) := by
    simp only [tick, hc, up, boot, connect, down, nowMs]
  have hhub : connect.2.hub = ctx.hub :=
    (down.2.1.ticked_tickConnect down.1 net nowMs).hub.trans
      (ctx.ticked_tickTeardown now (c.stampBoot nowMs) net).hub
  have hboot : boot.1.apUp = (!net.connected && c.apUp) := by
    simp only [boot, connect, down, fst_tickBoot, fst_tickConnect, fst_tickTeardown, stampBoot_eq]
  have hnext : up.1 = nextCoordinator c net.connected ctx.hub nowMs := by
    rw [← hhub]
    simp only [up, boot, fst_tickFallback, fst_tickBoot, nextCoordinator]
    simp only [connect, down, fst_tickConnect, fst_tickTeardown, stampBoot_eq]
    cases net.connected <;> simp
  have hfollows : Follows up.1 up.2.1 :=
    follows_tickFallback net nowMs (follows_tickBoot now nowMs (follows_tickConnect net nowMs
      (follows_tickTeardown net now (follows_stampBoot nowMs h)) (apUp_tickTeardown net now)))
  have hportal : up.2.2 = if up.1.apUp && !c.apUp then [.provisioning] else [] := by
    have hpaints : up.2.2 = if up.1.apUp && !boot.1.apUp then [.provisioning] else [] :=
      snd_tickFallback net nowMs
    rw [hpaints, hboot, hnext]
    cases hconnected : net.connected <;> simp [nextCoordinator]
  rw [htick, ← hnext]
  refine ⟨rfl, ⟨hfollows.apMode, hfollows.buttons, hfollows.apart⟩, ?_, fun hdown hup hfin => ?_⟩
  · simp only [List.count_append, hportal,
      List.count_eq_zero.mpr (paints_tickTeardown net now).1,
      List.count_eq_zero.mpr (paints_tickBoot now nowMs).1, down, boot]
    split <;> rfl
  · have hdue : connect.1.bootDue connect.2.hub nowMs = false := by
      have hfin' : boot.1.bootFinalized = false := by
        simpa only [up, fst_tickFallback] using hfin
      simp only [boot, fst_tickBoot, Bool.or_eq_false_iff] at hfin'
      rw [NetworkCoordinator.bootDue, Bool.and_right_comm, hfin'.2, Bool.false_and]
    have hstamped : (c.stampBoot nowMs).apUp = false := by rwa [stampBoot_eq]
    simp only [hportal, hup, Bool.false_and, if_neg Bool.false_ne_true, List.append_nil,
      down, boot, (paints_tickTeardown net now).2 hstamped, (paints_tickBoot now nowMs).2 hdue]

end Tick

/-! ### What the passes tell -/

def Event.passMs? : Event → Option UInt32
  | .pass now _ => some (UInt32.ofInt now.ms)
  | _ => none

def Event.connectMs? : Event → Option UInt32
  | .pass now net => if net.connected then some (UInt32.ofInt now.ms) else none
  | _ => none

/-- A report with a height which the hub takes when it has none. -/
def Event.reportsHeight : Event → Bool
  | .report partialSnapshot => partialSnapshot.blockHeight.any (· ≠ 0)
  | _ => false

def firstPass (past : List Event) : Option UInt32 :=
  past.findSome? Event.passMs?

def firstConnect (past : List Event) : Option UInt32 :=
  past.findSome? Event.connectMs?

/-- A pass without a connection, as all before it, and late. -/
def GraceOver (past : List Event) : Event → Prop
  | .pass now net =>
      net.connected = false ∧ firstConnect past = none ∧
        ∃ boot, firstPass past = some boot ∧ UInt32.ofInt now.ms - boot ≥ 20000
  | _ => False

/-- A pass behind the first connection, or with it, which finds a height or is late. -/
def BootReady (past : List Event) : Event → Prop
  | .pass now net =>
      ∃ connect, firstConnect (past ++ [.pass now net]) = some connect ∧
        (past.any Event.reportsHeight = true ∨
          UInt32.ofInt now.ms - connect ≥ kBootDataTimeoutMs)
  | _ => False

/-- The coordinator and the hub remember what the passes told. -/
structure Recorded (past : List Event) (c : NetworkCoordinator) (hub : Option DataSnapshot) :
    Prop where
  graceMs : c.graceMs = 20000
  boot : firstPass past = if c.bootStamped then some c.bootMs else none
  connect : firstConnect past = if c.connectedOnce then some c.connectMs else none
  stamped : c.connectedOnce = true → c.bootStamped = true
  connected : c.bootFinalized = true → c.connectedOnce = true
  finalized : c.bootFinalized = true ↔ Sometime BootReady past
  portal : c.apUp = true ↔ Sometime GraceOver past ∧ firstConnect past = none
  hasHub : hub.isSome = true
  height : (hub.bind DataSnapshot.blockHeight).isSome = past.any Event.reportsHeight

section Recorded

variable {past : List Event} {c : NetworkCoordinator} {hub hub' : Option DataSnapshot} {e : Event}

theorem firstConnect_append (es : List Event) :
    firstConnect (past ++ es) = (firstConnect past).or (firstConnect es) :=
  List.findSome?_append

theorem not_of_not_pass (past : List Event) (he : e.passMs? = none) :
    ¬ GraceOver past e ∧ ¬ BootReady past e := by
  cases e with
  | pass => cases he
  | _ => exact ⟨id, id⟩

/-- The other events tell the coordinator nothing. -/
theorem Recorded.aside (h : Recorded past c hub) (he : e.passMs? = none)
    (hhub : hub'.isSome = true)
    (hheight : (hub'.bind DataSnapshot.blockHeight).isSome =
      ((hub.bind DataSnapshot.blockHeight).isSome || e.reportsHeight)) :
    Recorded (past ++ [e]) c hub' := by
  have hconnect : e.connectMs? = none := by
    cases e with
    | pass => cases he
    | _ => rfl
  obtain ⟨hgrace, hready⟩ := not_of_not_pass past he
  have hfirst : firstConnect (past ++ [e]) = firstConnect past := by
    simp [firstConnect, hconnect]
  exact
    { graceMs := h.graceMs
      boot := by rw [← h.boot]; simp [firstPass, he]
      connect := hfirst.trans h.connect
      stamped := h.stamped
      connected := h.connected
      finalized := by rw [sometime_append_singleton, or_iff_left hready, h.finalized]
      portal := by rw [sometime_append_singleton, or_iff_left hgrace, hfirst, h.portal]
      hasHub := hhub
      height := by rw [hheight, h.height]; simp }

theorem exists_ite_some {α : Type*} {b : Bool} {a : α} {Q : α → Prop} :
    (∃ x, (if b then some a else none) = some x ∧ Q x) ↔ b = true ∧ Q a := by
  cases b <;> simp

theorem Recorded.pass (h : Recorded past c hub) (now : Moment) (net : Network) :
    Recorded (past ++ [.pass now net])
      (nextCoordinator c net.connected hub (UInt32.ofInt now.ms)) hub := by
  generalize hms : UInt32.ofInt now.ms = nowMs
  have hconnect : firstConnect (past ++ [.pass now net]) =
      if (nextCoordinator c net.connected hub nowMs).connectedOnce then
        some (nextCoordinator c net.connected hub nowMs).connectMs else none := by
    have hfirst : firstConnect [Event.pass now net] =
        if net.connected then some nowMs else none := by
      simp [firstConnect, Event.connectMs?, hms]
    rw [firstConnect_append, hfirst, h.connect]
    cases hc : c.connectedOnce <;> cases net.connected <;> simp [nextCoordinator, hc]
  have hready : BootReady past (.pass now net) ↔
      (nextCoordinator c net.connected hub nowMs).connectedOnce = true ∧
        (past.any Event.reportsHeight = true ∨
          nowMs - (nextCoordinator c net.connected hub nowMs).connectMs ≥ kBootDataTimeoutMs) := by
    rw [BootReady, hconnect, hms, exists_ite_some]
  have hgrace : GraceOver past (.pass now net) ↔
      net.connected = false ∧ c.connectedOnce = false ∧
        c.bootStamped = true ∧ nowMs - c.bootMs ≥ 20000 := by
    have honce : firstConnect past = none ↔ c.connectedOnce = false := by
      rw [h.connect]
      cases c.connectedOnce <;> simp
    rw [GraceOver, honce, h.boot, hms, exists_ite_some]
  refine
    { graceMs := h.graceMs
      boot := ?_
      connect := hconnect
      stamped := fun _ => rfl
      connected := ?_
      finalized := ?_
      portal := ?_
      hasHub := h.hasHub
      height := by rw [h.height]; simp [Event.reportsHeight] }
  · have hfirst : firstPass (past ++ [.pass now net]) = (firstPass past).or (some nowMs) := by
      simp [firstPass, Event.passMs?, hms]
    rw [hfirst, h.boot]
    cases hc : c.bootStamped <;> simp [nextCoordinator, hc]
  · simp only [nextCoordinator, Bool.or_eq_true, Bool.and_eq_true]
    rintro (hfin | ⟨honce, -⟩)
    · exact Or.inl (h.connected hfin)
    · exact honce
  · rw [sometime_append_singleton, ← h.finalized, hready, ← h.height]
    simp only [nextCoordinator, Bool.or_eq_true, Bool.and_eq_true, decide_eq_true_eq]
  · have hportal := h.portal
    rw [sometime_append_singleton, hgrace, hconnect]
    rw [h.connect] at hportal
    cases hc : c.connectedOnce with
    | true =>
        have hdown : c.apUp = false := by simpa [hc] using hportal
        simp [nextCoordinator, hc, hdown]
    | false =>
        have hup : Sometime GraceOver past ↔ c.apUp = true := by simpa [hc] using hportal.symm
        rw [hup]
        cases net.connected <;> cases hb : c.bootStamped <;>
          simp [nextCoordinator, hc, hb, h.graceMs]

end Recorded

/-! ### A step of the application -/

theorem isSome_mergeBlockHeight (mine other : Option UInt32) :
    (DataSnapshot.mergeBlockHeight mine other).1.isSome =
      (mine.isSome || other.any (· ≠ 0)) := by
  cases other with
  | none => simp [DataSnapshot.mergeBlockHeight]
  | some h =>
      cases mine with
      | none =>
          by_cases hzero : h = 0
          · simp [DataSnapshot.mergeBlockHeight, isValidUpdate, hzero]
          · simp [DataSnapshot.mergeBlockHeight, isValidUpdate, hzero]
      | some m =>
          simp only [DataSnapshot.mergeBlockHeight]
          split <;> simp

theorem Follows.congr {c : NetworkCoordinator} {ctx ctx' : AppCtx} (h : Follows c ctx)
    (hctx : ctx'.network = ctx.network) : Follows c ctx' where
  apMode := (congrArg (fun n => n.2.1) hctx).trans h.apMode
  buttons := (congrArg (fun n => n.2.2.2) hctx).trans h.buttons
  apart := h.apart

/-- Once the boot has ended, a tick changes nothing. -/
theorem Recorded.nextCoordinator_eq {past : List Event} {c : NetworkCoordinator}
    {hub : Option DataSnapshot} (h : Recorded past c hub) (hfin : c.bootFinalized = true)
    (connected : Bool) (nowMs : UInt32) : nextCoordinator c connected hub nowMs = c := by
  have honce := h.connected hfin
  have hstamped := h.stamped honce
  have hdown : c.apUp = false := by simpa [h.connect, honce] using h.portal
  obtain ⟨grace, stamped, bootMs, once, connectMs, finalized, up⟩ := c
  simp only at honce hstamped hdown hfin
  subst honce hstamped hdown hfin
  simp [nextCoordinator]

section Pass

variable {past : List Event} {c : NetworkCoordinator} {ctx : AppCtx}

/-- What a pass does to the network, whatever it serves. -/
theorem network_pass (hbooted : ctx.Booted) (hc : ctx.netCoordinator = some c)
    (hfollows : Follows c ctx) (hrec : Recorded past c ctx.hub) (now : Moment) (net : Network) :
    let c' := nextCoordinator c net.connected ctx.hub (UInt32.ofInt now.ms)
    let result := ctx.pass now net
    result.1.netCoordinator = some c' ∧ Follows c' result.1 ∧ result.1.hub = ctx.hub ∧
      result.2.count .provisioning = (if c'.apUp && !c.apUp then 1 else 0) ∧
      (c.apUp = false → c'.apUp = false → c'.bootFinalized = false → result.2 = []) := by
  intro c'
  have hserved : ctx.buttons = true → LeavesNetwork ctx (ctx.pass now net) →
      (ctx.pass now net).1.netCoordinator = some c' ∧ Follows c' (ctx.pass now net).1 ∧
        (ctx.pass now net).1.hub = ctx.hub ∧
        (ctx.pass now net).2.count .provisioning = (if c'.apUp && !c.apUp then 1 else 0) ∧
        (c.apUp = false → c'.apUp = false → c'.bootFinalized = false →
          (ctx.pass now net).2 = []) := by
    intro hbuttons hleaves
    have hfin : c.bootFinalized = true := hfollows.buttons ▸ hbuttons
    have hsame : c' = c := hrec.nextCoordinator_eq hfin net.connected _
    rw [hsame, List.count_eq_zero.mpr hleaves.portal]
    refine ⟨(congrArg Prod.fst hleaves.network).trans hc, hfollows.congr hleaves.network,
      congrArg (fun n => n.2.2.1) hleaves.network, by simp, fun _ _ hnot => ?_⟩
    rw [hfin] at hnot
    cases hnot
  by_cases hdrain : ctx.buttons = true ∧ ctx.commands ≠ []
  · refine hserved hdrain.1 ?_
    rw [pass_of_commands hdrain]
    exact leavesNetwork_drainControlCommands now
  · cases hq : ctx.buttonQ with
    | cons input inputs =>
        refine hserved (hbooted.buttonQ (by simp [hq])) ?_
        rw [pass_of_button hdrain hq]
        exact (leavesNetwork_handleButton now input).of_eq rfl
    | nil =>
        rw [pass_of_wait hdrain hq]
        obtain ⟨hnet, hticked, hcount, hquiet⟩ :=
          @tick_of_follows _ { ctx with notified := false } net now hc
            ⟨hfollows.1, hfollows.2, hfollows.3⟩
        have hhub := (ticked_tick { ctx with notified := false } now net).hub
        generalize ({ ctx with notified := false } : AppCtx).tick net now = ticked at *
        have hleaves : LeavesNetwork ticked.1 (ticked.1.serve ctx.notified now) :=
          leavesNetwork_serve now ctx.notified
        refine ⟨(congrArg Prod.fst hleaves.network).trans hnet, hticked.congr hleaves.network,
          (congrArg (fun n => n.2.2.1) hleaves.network).trans hhub, ?_, fun hdown hup hfin => ?_⟩
        · rw [Prod.map_snd, List.count_append, List.count_eq_zero.mpr hleaves.portal]
          exact hcount
        · have hbuttons : ticked.1.buttons = false := hticked.buttons.trans hfin
          rw [Prod.map_snd, hquiet hdown hup hfin, serve, if_pos hbuttons]
          rfl

end Pass

/-! ### A run of the application -/

/-- What is known after the events of the past. -/
structure BroughtUp (past : List Event) (ctx : AppCtx) (paints : List Paint) : Prop where
  booted : ctx.Booted
  coordinator : ∃ c, ctx.netCoordinator = some c ∧ Follows c ctx ∧ Recorded past c ctx.hub
  painted : Sometime GraceOver past → paints.count .provisioning = 1
  unpainted : ¬ Sometime GraceOver past → paints.count .provisioning = 0
  quiet : ¬ Sometime GraceOver past → ¬ Sometime BootReady past →
    (∀ now, .factoryReset now ∉ past) → paints = []

section Run

variable {past : List Event} {ctx : AppCtx} {paints : List Paint}

theorem firstConnect_of_graceOver {e : Event} (h : GraceOver past e) :
    firstConnect (past ++ [e]) = none := by
  cases e with
  | pass now net =>
      obtain ⟨hconnected, hnone, -⟩ := h
      rw [firstConnect_append, hnone, Option.none_or]
      simp [firstConnect, Event.connectMs?, hconnected]
  | _ => exact h.elim

/-- The portal comes up at the first pass for which the grace period is over. -/
theorem apUp_next {c c' : NetworkCoordinator} {hub hub' : Option DataSnapshot} {e : Event}
    (h : Recorded past c hub) (h' : Recorded (past ++ [e]) c' hub') :
    (c'.apUp && !c.apUp) = true ↔ ¬ Sometime GraceOver past ∧ GraceOver past e := by
  have hfirst : firstConnect (past ++ [e]) = none → firstConnect past = none := by
    rw [firstConnect_append, Option.or_eq_none_iff]
    exact And.left
  rw [Bool.and_eq_true, h'.portal, sometime_append_singleton, Bool.not_eq_true', ← Bool.not_eq_true,
    h.portal]
  constructor
  · rintro ⟨⟨hgrace, hnone⟩, hnot⟩
    have hbefore : ¬ Sometime GraceOver past := fun hs => hnot ⟨hs, hfirst hnone⟩
    exact ⟨hbefore, hgrace.resolve_left hbefore⟩
  · rintro ⟨hbefore, hgrace⟩
    exact ⟨⟨Or.inr hgrace, firstConnect_of_graceOver hgrace⟩, fun hs => hbefore hs.1⟩

theorem BroughtUp.pass (h : BroughtUp past ctx paints) (now : Moment) (net : Network) :
    BroughtUp (past ++ [.pass now net]) (ctx.pass now net).1
      (paints ++ (ctx.pass now net).2) := by
  obtain ⟨c, hc, hfollows, hrec⟩ := h.coordinator
  obtain ⟨hnet, hfollows', hhub, hcount, hquiet⟩ :=
    network_pass h.booted hc hfollows hrec now net
  have hrec' := hrec.pass now net
  have hup := apUp_next hrec hrec'
  generalize nextCoordinator c net.connected ctx.hub (UInt32.ofInt now.ms) = c' at *
  refine
    { booted := booted_pass h.booted now net
      coordinator := ⟨c', hnet, hfollows', hhub.symm ▸ hrec'⟩
      painted := fun hpast => ?_
      unpainted := fun hpast => ?_
      quiet := fun hgrace hready hreset => ?_ }
  · rw [List.count_append, hcount]
    by_cases hbefore : Sometime GraceOver past
    · rw [h.painted hbefore, if_neg (mt hup.mp fun hs => hs.1 hbefore)]
    · have hgrace := (sometime_append_singleton.mp hpast).resolve_left hbefore
      rw [h.unpainted hbefore, if_pos (hup.mpr ⟨hbefore, hgrace⟩)]
  · rw [sometime_append_singleton, not_or] at hpast
    rw [List.count_append, hcount, h.unpainted hpast.1, if_neg (mt hup.mp fun hs => hpast.2 hs.2)]
  · have hdown' : c'.apUp = false := by
      rw [← Bool.not_eq_true, hrec'.portal]
      exact fun hs => hgrace hs.1
    have hfin' : c'.bootFinalized = false := by
      rwa [← Bool.not_eq_true, hrec'.finalized]
    rw [sometime_append_singleton, not_or] at hgrace hready
    have hdown : c.apUp = false := by
      rw [← Bool.not_eq_true, hrec.portal]
      exact fun hs => hgrace.1 hs.1
    rw [hquiet hdown hdown' hfin', List.append_nil]
    exact h.quiet hgrace.1 hready.1 fun now' hmem =>
      hreset now' (List.mem_append_left _ hmem)

/-- An event which is not a pass only reports, or leaves the network alone. -/
theorem step_of_not_pass {e : Event} (he : e.passMs? = none) (hhub : ctx.hub.isSome = true) :
    (ctx.step e).netCoordinator = ctx.netCoordinator ∧
      (∀ c, Follows c ctx → Follows c (ctx.step e)) ∧ (ctx.step e).hub.isSome = true ∧
      ((ctx.step e).hub.bind DataSnapshot.blockHeight).isSome =
        ((ctx.hub.bind DataSnapshot.blockHeight).isSome || e.reportsHeight) := by
  have hleaves (h : (ctx.step e).network = ctx.network) (hreport : e.reportsHeight = false) :
      (ctx.step e).netCoordinator = ctx.netCoordinator ∧
        (∀ c, Follows c ctx → Follows c (ctx.step e)) ∧ (ctx.step e).hub.isSome = true ∧
        ((ctx.step e).hub.bind DataSnapshot.blockHeight).isSome =
          ((ctx.hub.bind DataSnapshot.blockHeight).isSome || e.reportsHeight) := by
    have hsame : (ctx.step e).hub = ctx.hub := congrArg (fun n => n.2.2.1) h
    rw [hreport, Bool.or_false, hsame]
    exact ⟨congrArg Prod.fst h, fun c hc => hc.congr h, hhub, rfl⟩
  cases e with
  | pass => cases he
  | report partialSnapshot =>
      obtain ⟨snap, hsnap⟩ := Option.isSome_iff_exists.mp hhub
      have hstep : ctx.step (.report partialSnapshot) =
          { ctx with
            hub := some (snap.merge partialSnapshot).1
            notified := ctx.notified || (snap.merge partialSnapshot).2 } := by
        simp [step, stepPaints, hsnap]
      rw [hstep]
      refine ⟨rfl, fun c hc => ⟨hc.1, hc.2, hc.3⟩, rfl, ?_⟩
      rw [hsnap, Option.bind_some, Option.bind_some]
      exact isSome_mergeBlockHeight snap.blockHeight partialSnapshot.blockHeight
  | pressButton input =>
      refine hleaves ?_ rfl
      simp only [step, stepPaints]
      split <;> rfl
  | _ => exact hleaves rfl rfl

theorem paints_of_not_pass {e : Event} (he : e.passMs? = none) :
    Paint.provisioning ∉ ctx.paints e ∧
      ((∀ now, e ≠ .factoryReset now) → ctx.paints e = []) := by
  cases e with
  | pass => cases he
  | report partialSnapshot =>
      simp only [paints, stepPaints]
      split <;> exact ⟨List.not_mem_nil, fun _ => rfl⟩
  | factoryReset now =>
      exact ⟨(leavesNetwork_render now _).portal, fun h => (h now rfl).elim⟩
  | _ => exact ⟨List.not_mem_nil, fun _ => rfl⟩

theorem BroughtUp.step (h : BroughtUp past ctx paints) (e : Event) :
    BroughtUp (past ++ [e]) (ctx.step e) (paints ++ ctx.paints e) := by
  by_cases he : e.passMs? = none
  · obtain ⟨c, hc, hfollows, hrec⟩ := h.coordinator
    obtain ⟨hnet, hfollows', hhub, hheight⟩ := step_of_not_pass (e := e) he hrec.hasHub
    obtain ⟨hportal, hpaints⟩ := @paints_of_not_pass ctx _ he
    have hrec' := hrec.aside he hhub hheight
    obtain ⟨hgrace, hready⟩ := not_of_not_pass past he
    exact
      { booted := booted_step h.booted e
        coordinator := ⟨c, hnet.trans hc, hfollows' c hfollows, hrec'⟩
        painted := by
          rw [sometime_append_singleton, or_iff_left hgrace, List.count_append,
            List.count_eq_zero.mpr hportal]
          exact h.painted
        unpainted := by
          rw [sometime_append_singleton, or_iff_left hgrace, List.count_append,
            List.count_eq_zero.mpr hportal]
          exact h.unpainted
        quiet := by
          rw [sometime_append_singleton, sometime_append_singleton, or_iff_left hgrace,
            or_iff_left hready]
          intro hnot hnot' hreset
          rw [hpaints fun now hnow => hreset now (by simp [hnow]), List.append_nil]
          exact h.quiet hnot hnot' fun now hmem => hreset now (List.mem_append_left _ hmem) }
  · cases e with
    | pass now net => exact h.pass now net
    | _ => exact (he rfl).elim

end Run

section Boot

variable (prefs : Prefs) (lastSlot lastBlockHeight : UInt32) (nowMs : ℤ)
  (satsVariant : UInt8) (panels : ℕ) (digitFontHasBtcSign : String → Bool)

theorem broughtUp_boot :
    BroughtUp []
      (boot prefs lastSlot lastBlockHeight nowMs satsVariant panels digitFontHasBtcSign true)
      [] where
  booted := booted_boot prefs lastSlot lastBlockHeight nowMs satsVariant panels
    digitFontHasBtcSign true
  coordinator := ⟨{}, rfl, ⟨rfl, rfl, fun hup => (Bool.false_ne_true hup).elim⟩,
    { graceMs := rfl
      boot := rfl
      connect := rfl
      stamped := id
      connected := id
      finalized := iff_of_false Bool.false_ne_true sometime_nil
      portal := iff_of_false Bool.false_ne_true fun hs => sometime_nil hs.1
      hasHub := rfl
      height := rfl }⟩
  painted hs := (sometime_nil hs).elim
  unpainted _ := rfl
  quiet _ _ _ := rfl

/-- After any run with credentials, the passes alone tell how far the network is up.  The portal
is up when the grace period went by before the first connection, and until that; the buttons are
up behind the first connection, from the pass which found a height, or was late.  The portal is
painted once, when it comes up, and before the one or the other nothing but a factory reset paints
over the spinner. -/
theorem bringup_of_run (events : List Event) :
    let start := boot prefs lastSlot lastBlockHeight nowMs satsVariant panels digitFontHasBtcSign
      true
    let ctx := reached stepPaints start events
    let paints := emitted stepPaints start events
    (ctx.apMode = true ↔ Sometime GraceOver events ∧ firstConnect events = none) ∧
      (ctx.buttons = true ↔ Sometime BootReady events) ∧
      (Paint.provisioning ∈ paints ↔ Sometime GraceOver events) ∧
      paints.count .provisioning ≤ 1 ∧
      (¬ Sometime GraceOver events → ¬ Sometime BootReady events →
        (∀ now, .factoryReset now ∉ events) → paints = []) := by
  intro start ctx paints
  have hrun : BroughtUp ([] ++ events) ctx ([] ++ paints) :=
    history_invariant (I := BroughtUp) (fun _ _ _ e h => h.step e)
      (broughtUp_boot prefs lastSlot lastBlockHeight nowMs satsVariant panels digitFontHasBtcSign)
      events
  simp only [List.nil_append] at hrun
  obtain ⟨c, -, hfollows, hrec⟩ := hrun.coordinator
  refine ⟨by rw [hfollows.apMode, hrec.portal], by rw [hfollows.buttons, hrec.finalized], ?_, ?_,
    hrun.quiet⟩
  · rw [← List.count_pos_iff]
    by_cases hgrace : Sometime GraceOver events
    · simp [hrun.painted hgrace, hgrace]
    · simp [hrun.unpainted hgrace, hgrace]
  · by_cases hgrace : Sometime GraceOver events
    · rw [hrun.painted hgrace]
    · simp [hrun.unpainted hgrace]

end Boot

end AppCtx

end BtClock
