import BtClock.Screen.ManagerRun
import BtClock.Screen.Render

/-!
# What the panels show

The screen renderers are taken as given: a renderer which is asked for all cells paints
the whole layout of its values, and one which is given previous values turns their layout
into the layout of the new values.  The panels are run together with the manager.
-/

namespace BtClock

open Data Settings

namespace RenderCall

/-- Is every cell to be painted?  The clock paints every cell at a new date. -/
def asksFull (call : RenderCall) : Bool :=
  call.fullRefreshMode ||
    match call.view, call.prev with
    | _, .none => true
    | _, .height h => h == 0
    | _, .price p => p == ""
    | _, .fee f => f < 0.0
    | .clock _ _ _ mday mon _ _, .clock valid _ _ prevMday prevMon =>
        !valid || prevMday != mday || prevMon != mon
    | _, .clock .. => true
    | _, .cap p h => p == "" || h == 0
    | _, .pool p => p.name == ""
    | _, .text v => v == ""
    | _, .cells _ forceRepaint => forceRepaint
    | _, .balance sats => sats.isNone

/-- The view with the previous values in the place of the new ones. -/
def prevView (call : RenderCall) : Option View :=
  match call.view, call.prev with
  | .blockHeight _ vertical, .height h => some (.blockHeight h vertical)
  | .moscowTime ccy _ variant sats btc mscw dot vertical, .price p =>
      some (.moscowTime ccy p variant sats btc mscw dot vertical)
  | .btcPrice ccy _ symbol suffix mow dot vertical, .price p =>
      some (.btcPrice ccy p symbol suffix mow dot vertical)
  | .feeRate _ dot vertical, .fee f => some (.feeRate f dot vertical)
  | .clock _ _ _ _ _ vertical lead, .clock valid hour min mday mon =>
      some (.clock valid hour min mday mon vertical lead)
  | .halving _ countdown vertical, .height h => some (.halving h countdown vertical)
  | .bitcoinSupply _ big percent vertical, .height h =>
      some (.bitcoinSupply h big percent vertical)
  | .marketCap ccy _ _ big dot vertical, .cap p h =>
      some (.marketCap ccy p h big dot vertical)
  | .miningPoolHashrate _ vertical, .pool p => some (.miningPoolHashrate p vertical)
  | .miningPoolEarnings _ vertical, .pool p => some (.miningPoolEarnings p vertical)
  | .miningPoolEstimatedEarnings _ vertical, .pool p =>
      some (.miningPoolEstimatedEarnings p vertical)
  | .bitaxeHashrate _ vertical, .text v => some (.bitaxeHashrate v vertical)
  | .bitaxeBestDiff _ vertical, .text v => some (.bitaxeBestDiff v vertical)
  | .custom _, .cells cells _ => some (.custom cells)
  | .nwcBalance _ sats btc variant vertical, .balance b =>
      some (.nwcBalance b sats btc variant vertical)
  | _, _ => none

end RenderCall

/-- The screen renderers, over any description `Glass` of what the panels show. -/
structure Renderers (Glass : Type*) where
  layout : GlyphSizes → View → Glass
  paint : RenderCall → Glass → Glass
  paint_full : ∀ (call : RenderCall) (glass : Glass), call.asksFull = true →
    paint call glass = layout call.sizes call.view
  paint_partial : ∀ (call : RenderCall) (prev : View), call.asksFull = false →
    call.prevView = some prev →
    paint call (layout call.sizes prev) = layout call.sizes call.view

/-- The board: the screen manager, and its panels. -/
structure Board (Glass : Type*) where
  display : Display
  glass : Glass

/-- A call which does not stand for a paint or for the update screen. -/
def ScreenManager.Op.navigates : ScreenManager.Op → Bool
  | .paintDone => false
  | .setOtaOverlay _ => false
  | _ => true

/-- An operation of the manager, a paint, or the debug screen. -/
inductive BoardOp (Glass : Type*)
  | manager (op : ScreenManager.Op) (navigates : op.navigates = true)
  | render (now : Moment) (snap : DataSnapshot)
  | renderDebug (nowMs : ℤ) (forceFull : Bool) (shown : Glass)

namespace Board

variable {Glass : Type*}

def withManager (b : Board Glass) (s : ScreenManager) : Board Glass :=
  { b with display := { b.display with manager := s } }

def step (R : Renderers Glass) (prefs : Prefs) (sign : Bool) (b : Board Glass) :
    BoardOp Glass → Board Glass
  | .manager op _ => b.withManager (b.display.manager.step op)
  | .render now snap =>
      let result := b.display.render prefs sign now snap
      { display := result.1
        glass := result.2.elim b.glass fun call => R.paint call b.glass }
  | .renderDebug nowMs forceFull shown =>
      { display := b.display.renderDebug prefs nowMs forceFull, glass := shown }

end Board

namespace Display

/-- The view of the current kind for a snapshot, `none` where the snapshot lacks the data
which the kind needs. -/
def fullView (d : Display) (rp : RenderPrefs) (now : Moment) (snap : DataSnapshot) :
    Option View :=
  (d.renderKind rp now snap true true).2.map RenderCall.view

end Display

end BtClock
