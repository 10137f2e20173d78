import BtClock.Leds.Controller

/-!
# What the strip shows at rest

When nothing is left to do, the strip shows what the event the task acted upon last leaves: for
the one-shot effects the colours which `/api/lights` reports.  No interleaving of the setters with
the task leaves anything else, as long as no idle event is dropped.
-/

namespace BtClock

namespace Leds

open Transition

section Strip

variable (board : Board)

def Shows (t : Painter) (color : ℕ → Rgb) : Prop :=
  ∀ i < board.count, t.shown (physIdx board i) = color i

/-- The mode which an effect which was played leaves. -/
def modeAfter : LedEffect → Mode
  | .kSetBoot => .kBoot
  | .kSetProvisioning => .kProvisioning
  | .kWifiConnecting => .kWifiConnecting
  | .kBootFailed => .kBootFailed
  | _ => .kIdle

/-- What an effect leaves on a pixel when no animation follows. -/
def picture (pixels : ℕ → UInt32) (bright : UInt8) (ev : LedEffect) (i : ℕ) : Rgb :=
  match ev with
  | .kBootFailed => lit (packRgb 255 0 0) bright
  | .kDndOn => black
  | _ => lit (pixels i) bright

/-- The strip shows the frame which the animation painted last. -/
def Animates (t : Painter) : Prop :=
  ∃ bright, Shows board t fun i => lit (frameColor board t.mode (t.frame - 1) i) bright

/-- What an effect which was played at the given brightness leaves. -/
def RestsAfter (pixels : ℕ → UInt32) (bright : UInt8) (ev : LedEffect) (t : Painter) : Prop :=
  t.mode = modeAfter ev ∧
    if (modeAfter ev).ticks then Animates board t else Shows board t (picture pixels bright ev)

/-- What the task leaves when it waits for the queue. -/
def Rests (pixels : ℕ → UInt32) (t : Painter) : Prop :=
  match t.painted with
  | none => t.mode = .kBoot
  | some .blackout => t.mode = .kIdle ∧ Shows board t fun _ => black
  | some (.played ev bright) => RestsAfter board pixels bright ev t

/-- Only the pixels of the strip matter. -/
theorem Rests.congr {board : Board} {pixels pixels' : ℕ → UInt32} {t : Painter}
    (h : Rests board pixels t) (heq : ∀ i < board.count, pixels i = pixels' i) :
    Rests board pixels' t := by
  unfold Rests at *
  rcases hlast : t.painted with _ | _ | ⟨ev, bright⟩
  · rwa [hlast] at h
  · rwa [hlast] at h
  · rw [hlast] at h
    refine ⟨h.1, ?_⟩
    have hshows := h.2
    split at hshows
    · next hticks => rwa [if_pos hticks]
    · next hticks =>
      rw [if_neg hticks]
      intro i hi
      rw [hshows i hi]
      unfold picture
      rw [heq i hi]

/-! ### Painting the strip -/

variable {board} {R : Shared → Prop} {I : Painter → Prop}

theorem physIdx_inj {i j : ℕ} (hi : i < board.count) (hj : j < board.count)
    (h : physIdx board i = physIdx board j) : i = j := by
  unfold physIdx at h
  split at h
  · omega
  · exact h

/-- The buffer alone differs. -/
structure SameButBuffer (t t' : Painter) : Prop where
  mode : t'.mode = t.mode
  frame : t'.frame = t.frame
  shown : t'.shown = t.shown
  painted : t'.painted = t.painted

/-- The script paints one pixel. -/
def Paints (board : Board) (R : Shared → Prop) (i : ℕ) (color : Rgb) (p : LedScript PUnit) : Prop :=
  ∃ f, p = .act f (.done ⟨⟩) ∧ ∀ g t, R g →
    f g t = { t with buffer := Function.update t.buffer (physIdx board i) color }

theorem paints_writePixel (i : ℕ) (color : Rgb) :
    Paints board R i color (writePixel board i color) :=
  ⟨_, rfl, fun _ _ _ => rfl⟩

theorem meets_paint {color : ℕ → Rgb} {body : ℕ → LedScript PUnit} {t : Painter}
    (hbody : ∀ i < board.count, Paints board R i (color i) (body i))
    (hbuffer : ∀ t t', SameButBuffer t t' → I t → I t') (hI : I t)
    (hshown : ∀ t' : Painter, t'.mode = t.mode → Shows board t' color → I t') :
    (do Script.upTo board.count body; refresh : LedScript PUnit).Meets R I
      (fun _ t' => Shows board t' color ∧ t'.mode = t.mode ∧ t'.frame = t.frame ∧
        t'.painted = t.painted) t := by
  have hstart : SameButBuffer t t ∧ I t ∧
      ∀ i < 0, t.buffer (physIdx board i) = color i :=
    ⟨⟨rfl, rfl, rfl, rfl⟩, hI, fun i hi => absurd hi (Nat.not_lt_zero i)⟩
  refine (Script.Meets.upTo (J := fun n t' => SameButBuffer t t' ∧ I t' ∧
    ∀ i < n, t'.buffer (physIdx board i) = color i) ?_ hI hstart).bind ?_
  · rintro n hn t' ⟨hsame, hI', hpainted⟩
    obtain ⟨f, hf, hpaints⟩ := hbody n hn
    rw [hf]
    refine .act hI' fun g hg => ?_
    rw [hpaints g t' hg]
    have hnext : I { t' with
        buffer := Function.update t'.buffer (physIdx board n) (color n) } :=
      hbuffer t' _ ⟨rfl, rfl, rfl, rfl⟩ hI'
    refine .done hnext ⟨⟨hsame.1, hsame.2, hsame.3, hsame.4⟩, hnext, fun i hi => ?_⟩
    rcases Nat.lt_succ_iff_lt_or_eq.mp hi with hlt | rfl
    · have hne : physIdx board i ≠ physIdx board n :=
        fun heq => Nat.ne_of_lt hlt (physIdx_inj (Nat.lt_trans hlt hn) hn heq)
      simpa [Function.update_of_ne hne] using hpainted i hlt
    · simp
  · rintro _ t' ⟨hsame, hI', hpainted⟩
    refine .act hI' fun g _ => .done ?_ ⟨hpainted, hsame.mode, hsame.frame, hsame.painted⟩
    exact hshown _ hsame.mode hpainted

theorem meets_paintColors (rgb : ℕ → UInt32) (bright : UInt8) {t : Painter}
    (hbuffer : ∀ t t', SameButBuffer t t' → I t → I t') (hI : I t)
    (hshown : ∀ t' : Painter, t'.mode = t.mode → Shows board t' (fun i => lit (rgb i) bright) →
      I t') :
    (paintColors board rgb bright).Meets R I
      (fun _ t' => Shows board t' (fun i => lit (rgb i) bright) ∧ t'.mode = t.mode ∧
        t'.frame = t.frame ∧ t'.painted = t.painted) t :=
  meets_paint (fun i _ => paints_writePixel i _) hbuffer hI hshown

theorem meets_paintAllOff {t : Painter} (hbuffer : ∀ t t', SameButBuffer t t' → I t → I t')
    (hI : I t)
    (hshown : ∀ t' : Painter, t'.mode = t.mode → Shows board t' (fun _ => black) → I t') :
    (paintAllOff board).Meets R I
      (fun _ t' => Shows board t' (fun _ => black) ∧ t'.mode = t.mode ∧ t'.frame = t.frame ∧
        t'.painted = t.painted) t :=
  meets_paint (fun i _ => paints_writePixel i black) hbuffer hI hshown

theorem meets_backToIdle {bright : UInt8} {color : ℕ → Rgb} {t : Painter}
    (hcolor : ∀ g, R g → ∀ i < board.count, lit (g.restingPixels i) bright = color i)
    (hbuffer : ∀ t t', SameButBuffer t t' → I t → I t') (hI : I t)
    (hidle : I { t with mode := .kIdle })
    (hshown : ∀ t' : Painter, t'.mode = .kIdle → Shows board t' color → I t') :
    (backToIdle board bright).Meets R I
      (fun _ t' => t'.mode = .kIdle ∧ Shows board t' color) t := by
  have hbody : ∀ i < board.count,
      Paints board R i (color i) (pushResting board i bright) := by
    refine fun i hi => ⟨_, rfl, fun g t hg => ?_⟩
    rw [hcolor g hg i hi]
  refine .act hI fun g _ => ?_
  exact (meets_paint hbody hbuffer hidle hshown).weaken fun _ t' h => ⟨h.2.1, h.1⟩

theorem meets_tick_of_idle {t : Painter} {Q : PUnit → Painter → Prop} (ht : t.mode.ticks = false)
    (hI : I t) (hQ : Q ⟨⟩ t) : (tick board).Meets R I Q t := by
  refine .own hI ?_
  simp only [ht]
  exact .done hI hQ

/-- The gate asks twice at most; the first answer decides when the effects are disabled. -/
theorem meets_gated (bypassDnd : Bool) {t : Painter} (hI : I t) :
    (gated bypassDnd).Meets R I
      (fun gate t' => t' = t ∧ ((∀ g, R g → g.disabled = true) → gate = true)) t := by
  refine .ask hI fun g hg => ?_
  change Script.Meets _ _ _ (if _ then _ else _) _
  split
  · exact .done hI ⟨rfl, fun _ => rfl⟩
  · next hoff =>
    have hoff' : ¬ ∀ g, R g → g.disabled = true := fun hall => hoff (hall g hg)
    split
    · exact .done hI ⟨rfl, fun hall => absurd hall hoff'⟩
    · exact .ask hI fun g' _ => .done hI ⟨rfl, fun hall => absurd hall hoff'⟩

end Strip

/-! ### One event -/

section Handle

variable {board : Board} {pixels : ℕ → UInt32}

/-- The rely condition: the resting colours stay what they are. -/
def Holding (pixels : ℕ → UInt32) (g : Shared) : Prop :=
  g.restingPixels = pixels

/-- The assertion about a script which nobody disturbs. -/
abbrev Leaves (pixels : ℕ → UInt32) (p : LedScript PUnit) (Q : Painter → Prop) : Prop :=
  ∀ t, p.Meets (Holding pixels) (fun _ => True) (fun _ => Q) t

theorem leaves_idle (bright : UInt8) :
    Leaves pixels (backToIdle board bright)
      fun t => t.mode = .kIdle ∧ Shows board t fun i => lit (pixels i) bright :=
  fun _ => meets_backToIdle (fun g hg i _ => by rw [hg]) (fun _ _ _ => id) trivial trivial
    fun _ _ _ => trivial

/-- Whatever an effect does before, it leaves what comes after it. -/
theorem leaves_after {α : Type} {Q : Painter → Prop} (p : Script Shared Painter α)
    {next : α → LedScript PUnit} (h : ∀ a, Leaves pixels (next a) Q) :
    Leaves pixels (p >>= next) Q :=
  fun t => (Script.meets_true _ p t).bind fun a t _ => h a t

theorem leaves_setMode (mode : Mode) {next : LedScript PUnit} {Q : Painter → Prop}
    (h : ∀ t, t.mode = mode → next.Meets (Holding pixels) (fun _ => True) (fun _ => Q) t) :
    Leaves pixels (do setMode mode; next) Q :=
  fun _ => .act trivial fun _ _ => h _ rfl

theorem meets_resetFrame {mode : Mode} {t : Painter} (h : t.mode = mode) :
    resetFrame.Meets (Holding pixels) (fun _ => True) (fun _ t' => t'.mode = mode) t :=
  .act trivial fun _ _ => .done trivial h

theorem leaves_off (mode : Mode) :
    Leaves pixels (do setMode mode; paintAllOff board)
      fun t => t.mode = mode ∧ Shows board t fun _ => black :=
  leaves_setMode mode fun _ h => (meets_paintAllOff (fun _ _ _ => id) trivial
    fun _ _ _ => trivial).weaken fun _ _ h' => ⟨h'.2.1.trans h, h'.1⟩

/-- What the switch leaves to the tick. -/
def LeftBy (board : Board) (pixels : ℕ → UInt32) (bright : UInt8) (ev : LedEffect)
    (t : Painter) : Prop :=
  t.mode = modeAfter ev ∧ ((modeAfter ev).ticks = false → Shows board t (picture pixels bright ev))

theorem leftBy_of_shows {ev : LedEffect} {bright : UInt8} {t : Painter}
    (h : t.mode = modeAfter ev ∧ Shows board t (picture pixels bright ev)) :
    LeftBy board pixels bright ev t :=
  ⟨h.1, fun _ => h.2⟩

theorem leftBy_of_ticks {ev : LedEffect} {bright : UInt8} {t : Painter}
    (hticks : (modeAfter ev).ticks = true) (h : t.mode = modeAfter ev) :
    LeftBy board pixels bright ev t :=
  ⟨h, fun hnot => absurd (hticks.symm.trans hnot) Bool.noConfusion⟩

theorem leaves_oneShot {ev : LedEffect} {bright : UInt8} (hmode : modeAfter ev = .kIdle)
    (hpicture : picture pixels bright ev = fun i => lit (pixels i) bright) :
    Leaves pixels (backToIdle board bright) (LeftBy board pixels bright ev) := by
  refine fun t => (leaves_idle bright t).weaken fun _ t' h => leftBy_of_shows ?_
  rw [hmode, hpicture]
  exact h

theorem leaves_play (ev : LedEffect) (bright : UInt8) :
    Leaves pixels (play board ev bright) (LeftBy board pixels bright ev) := by
  cases ev with
  | kSetBoot =>
      exact leaves_setMode .kBoot fun _ h =>
        (meets_resetFrame h).weaken fun _ _ h => leftBy_of_ticks rfl h
  | kSetProvisioning =>
      exact leaves_setMode .kProvisioning fun _ h =>
        (meets_resetFrame h).weaken fun _ _ h => leftBy_of_ticks rfl h
  | kSetIdle => exact leaves_oneShot rfl rfl
  | kWifiConnecting =>
      refine leaves_setMode .kWifiConnecting fun t h => (meets_resetFrame h).bind fun _ t h => ?_
      exact (meets_paintAllOff (fun _ _ _ => id) trivial fun _ _ _ => trivial).weaken
        fun _ _ h' => leftBy_of_ticks rfl (h'.2.1.trans h)
  | kBootFailed =>
      refine leaves_setMode .kBootFailed fun t h => ?_
      exact (meets_paintColors _ bright (fun _ _ _ => id) trivial fun _ _ _ => trivial).weaken
        fun _ _ h' => leftBy_of_shows ⟨h'.2.1.trans h, h'.1⟩
  | kDndOn =>
      exact leaves_after _ fun _ t => (leaves_off .kIdle t).weaken fun _ _ h => leftBy_of_shows h
  | kBlockFlash =>
      exact leaves_after _ fun col => leaves_after _ fun _ => leaves_oneShot rfl rfl
  | kFlashUpdate =>
      refine leaves_after _ fun enabled => ?_
      cases enabled with
      | true => exact leaves_after _ fun _ => leaves_oneShot rfl rfl
      | false => exact leaves_oneShot rfl rfl
  | _ => exact leaves_after _ fun _ => leaves_oneShot rfl rfl

/-- A tick paints the next frame of an animated mode. -/
theorem meets_tick {t : Painter} (ht : t.mode.ticks = true) :
    (tick board).Meets (Holding pixels) (fun _ => True)
      (fun _ t' => t'.mode = t.mode ∧ t'.painted = t.painted ∧ Animates board t') t := by
  refine .own trivial ?_
  simp only [ht]
  refine .ask trivial fun g _ => ?_
  refine (meets_paintColors _ _ (fun _ _ _ => id) trivial fun _ _ _ => trivial).bind ?_
  rintro _ t' ⟨hshown, hmode, hframe, hpainted⟩
  refine .act trivial fun _ _ => .done trivial ⟨hmode, hpainted, g.brightness, fun i hi => ?_⟩
  simpa [hmode, hframe] using hshown i hi

theorem meets_tick_after {ev : LedEffect} {bright : UInt8} {t : Painter}
    (h : LeftBy board pixels bright ev t) :
    (tick board).Meets (Holding pixels) (fun _ => True)
      (fun _ t' => t'.painted = t.painted ∧ RestsAfter board pixels bright ev t') t := by
  cases hticks : (modeAfter ev).ticks with
  | true =>
      refine (meets_tick (h.1 ▸ hticks)).weaken fun _ t' ht => ⟨ht.2.1, ht.1.trans h.1, ?_⟩
      rw [if_pos hticks]
      exact ht.2.2
  | false =>
      refine meets_tick_of_idle (h.1 ▸ hticks) trivial ⟨rfl, h.1, ?_⟩
      rw [if_neg (by simp [hticks])]
      exact h.2 hticks

theorem rests_tick {t : Painter} (h : Rests board pixels t) (ht : t.mode.ticks = true) :
    (tick board).Meets (Holding pixels) (fun _ => True) (fun _ => Rests board pixels) t := by
  refine (meets_tick ht).weaken ?_
  rintro _ t' ⟨hmode, hpainted, hanimates⟩
  unfold Rests at h ⊢
  rw [hpainted]
  rcases hlast : t.painted with _ | _ | ⟨ev, bright⟩
  · rw [hlast] at h
    exact hmode.trans h
  · rw [hlast] at h
    rw [h.1] at ht
    cases ht
  · rw [hlast] at h
    refine ⟨hmode.trans h.1, ?_⟩
    rw [if_pos (h.1 ▸ ht)]
    exact hanimates

/-- Whatever the task does with an event, it leaves the strip as it is to be at rest. -/
theorem rests_handle {t : Painter} (p : Posted)
    (h : p.effect = .kSetIdle ∨ Rests board pixels t) :
    (handle board p).Meets (Holding pixels) (fun _ => True) (fun _ => Rests board pixels) t := by
  have hplay : ∀ bright, Leaves pixels
      (do play board p.effect bright; notePainted (.played p.effect bright); tick board)
      (Rests board pixels) := by
    intro bright t
    refine (leaves_play p.effect bright t).bind fun _ t hleft => ?_
    have hnoted : LeftBy board pixels bright p.effect
        { t with painted := some (.played p.effect bright) } := ⟨hleft.1, hleft.2⟩
    refine .act trivial fun _ _ => (meets_tick_after hnoted).weaken fun _ t' h => ?_
    unfold Rests
    rw [h.1]
    exact h.2
  refine (meets_gated p.bypassDnd trivial).bind ?_
  rintro gate _ ⟨rfl, -⟩
  split
  · next hgate =>
    have hne : p.effect ≠ .kSetIdle := by simpa using (Bool.and_eq_true_iff.mp hgate).2
    exact .done trivial (h.resolve_left hne)
  · refine .ask trivial fun g _ => ?_
    change Script.Meets _ _ _ (if _ then _ else _) _
    split
    · exact (leaves_off .kIdle _).bind fun _ t hoff => .act trivial fun _ _ => .done trivial hoff
    · exact .ask trivial fun g _ => hplay g.brightness _

end Handle

/-! ### The whole controller -/

namespace LedController

variable {board : Board} {c : LedController}

/-- An idle event is still to be taken. -/
def IdleComes (c : LedController) : Prop :=
  c.setter ≠ [] ∨ c.owed ≠ [] ∨ ∃ p ∈ c.queue, p.effect = .kSetIdle

/-- A setter gives the mutex back in its last step, with an idle event posted or owed. -/
def Sealed (setter : List SetterStep) : Prop :=
  ∀ step ∈ setter.getLast?, step = .unlock ∨ step = .postIdle

/-- The strip is as it is to be at rest, or will be painted again. -/
def Settles (board : Board) (c : LedController) : Prop :=
  .kSetIdle ∈ c.drops ∨ c.IdleComes ∨
    c.task.Meets (Holding c.shared.restingPixels) (fun _ => True)
      (fun _ => Rests board c.shared.restingPixels) c.painter

structure Invariant (board : Board) (c : LedController) : Prop where
  sealed : Sealed c.setter
  settles : c.Settles board

theorem Settles.of {c' : LedController} (h : c.Settles board) (hdrops : c.drops ⊆ c'.drops)
    (hcomes : c.IdleComes → c'.IdleComes) (htask : c'.task = c.task)
    (hpainter : c'.painter = c.painter)
    (hpixels : c'.shared.restingPixels = c.shared.restingPixels) : c'.Settles board := by
  rcases h with hdrop | hidle | hmeets
  · exact .inl (hdrops hdrop)
  · exact .inr (.inl (hcomes hidle))
  · right; right
    rw [htask, hpainter, hpixels]
    exact hmeets

theorem settles_of_idleComes (h : c.IdleComes) : c.Settles board :=
  .inr (.inl h)

theorem Settles.send (h : c.Settles board) (ev : LedEffect) (bypassDnd : Bool) :
    (c.send ev bypassDnd).Settles board := by
  unfold LedController.send
  split
  · refine h.of (List.Subset.refl _) (Or.imp_right (Or.imp_right ?_)) rfl rfl rfl
    rintro ⟨p, hp, hidle⟩
    exact ⟨p, List.mem_append_left _ hp, hidle⟩
  · exact h.of (List.subset_append_left _ _) id rfl rfl rfl

/-- An idle event is queued or dropped. -/
theorem settles_postIdle (c : LedController) : (c.postLedEffect .kSetIdle).Settles board := by
  unfold postLedEffect send
  rw [if_neg (by simp)]
  split
  · exact .inr (.inl (.inr (.inr ⟨_, List.mem_append_right _ (List.mem_singleton_self _), rfl⟩)))
  · exact .inl (List.mem_append_right _ (List.mem_singleton_self _))

theorem Settles.postLedEffect (h : c.Settles board) (ev : LedEffect) :
    (c.postLedEffect ev).Settles board := by
  unfold LedController.postLedEffect
  split
  · exact h
  · exact h.send ev false

theorem Settles.postLedEffectForce (h : c.Settles board) (ev : LedEffect) :
    (c.postLedEffectForce ev).Settles board := by
  unfold LedController.postLedEffectForce
  split
  · exact h
  · exact h.send ev true

@[simp]
theorem setter_send (c : LedController) (ev : LedEffect) (bypassDnd : Bool) :
    (c.send ev bypassDnd).setter = c.setter := by
  unfold send
  split <;> rfl

@[simp]
theorem setter_postLedEffect (c : LedController) (ev : LedEffect) :
    (c.postLedEffect ev).setter = c.setter := by
  unfold LedController.postLedEffect
  split
  · rfl
  · exact setter_send c ev false

@[simp]
theorem setter_postLedEffectForce (c : LedController) (ev : LedEffect) :
    (c.postLedEffectForce ev).setter = c.setter := by
  unfold LedController.postLedEffectForce
  split
  · rfl
  · exact setter_send c ev true

/-! ### The setters -/

theorem sealed_append (pre : List SetterStep) {step : SetterStep}
    (h : step = .unlock ∨ step = .postIdle) : Sealed (pre ++ [step]) := by
  intro last hlast
  rw [List.getLast?_concat, Option.mem_some_iff] at hlast
  exact hlast ▸ h

theorem Sealed.tail {step : SetterStep} {rest : List SetterStep} (h : Sealed (step :: rest)) :
    Sealed rest := by
  intro last hlast
  refine h last ?_
  rw [Option.mem_def] at hlast ⊢
  rw [List.getLast?_cons, hlast, Option.getD_some]

/-- Only the last step of a setter gives the mutex back. -/
theorem Sealed.tail_ne_nil {step : SetterStep} {rest : List SetterStep} (h : Sealed (step :: rest))
    (hunlock : step ≠ .unlock) (hpost : step ≠ .postIdle) : rest ≠ [] := by
  rintro rfl
  exact (h step rfl).elim hunlock hpost

theorem Invariant.stepSetter {step : SetterStep} {rest : List SetterStep}
    (h : Invariant board c) (hsetter : c.setter = step :: rest) :
    Invariant board (c.stepSetter step rest) := by
  have hsealed : Sealed (step :: rest) := hsetter ▸ h.sealed
  cases step with
  | writeResting i rgb =>
      exact ⟨hsealed.tail,
        settles_of_idleComes (.inl (hsealed.tail_ne_nil SetterStep.noConfusion
          SetterStep.noConfusion))⟩
  | setDisabled disabled =>
      exact ⟨hsealed.tail,
        settles_of_idleComes (.inl (hsealed.tail_ne_nil SetterStep.noConfusion
          SetterStep.noConfusion))⟩
  | muteIfBlack n =>
      exact ⟨hsealed.tail,
        settles_of_idleComes (.inl (hsealed.tail_ne_nil SetterStep.noConfusion
          SetterStep.noConfusion))⟩
  | unlock =>
      exact ⟨hsealed.tail,
        settles_of_idleComes (.inr (.inl (List.append_ne_nil_of_right_ne_nil _
          (List.cons_ne_nil _ _))))⟩
  | postIdle =>
      refine ⟨?_, settles_postIdle _⟩
      simpa [LedController.stepSetter] using hsealed.tail

theorem Invariant.resume (h : Invariant board c) (k : ℕ) : Invariant board (c.resume k) := by
  unfold LedController.resume
  split
  · exact h
  · refine ⟨?_, settles_postIdle _⟩
    rw [setter_postLedEffect]
    exact h.sealed
  · split
    · exact ⟨sealed_append _ (.inr rfl), settles_of_idleComes (.inl
        (List.append_ne_nil_of_right_ne_nil _ (List.cons_ne_nil _ _)))⟩
    · exact h

/-! ### The task -/

theorem Invariant.stepTask (h : Invariant board c) : Invariant board (c.stepTask board) := by
  unfold LedController.stepTask
  split
  · next hdone =>
    split
    · next p queue hqueue =>
      refine ⟨h.sealed, ?_⟩
      by_cases hidle : p.effect = .kSetIdle
      · exact .inr (.inr (rests_handle p (.inl hidle)))
      · rcases h.settles with hdrop | hcomes | hmeets
        · exact .inl hdrop
        · refine .inr (.inl (hcomes.imp_right (Or.imp_right ?_)))
          rintro ⟨q, hq, hqidle⟩
          rw [hqueue] at hq
          rcases List.mem_cons.mp hq with rfl | hq
          · exact absurd hqidle hidle
          · exact ⟨q, hq, hqidle⟩
        · rw [hdone] at hmeets
          exact .inr (.inr (rests_handle p (.inr hmeets.of_done)))
    · split
      · next hqueue hticks =>
        refine ⟨h.sealed, ?_⟩
        rcases h.settles with hdrop | hcomes | hmeets
        · exact .inl hdrop
        · exact .inr (.inl hcomes)
        · rw [hdone] at hmeets
          exact .inr (.inr (rests_tick hmeets.of_done hticks))
      · exact h
  · split
    · exact h
    · refine ⟨h.sealed, ?_⟩
      rcases h.settles with hdrop | hcomes | hmeets
      · exact .inl hdrop
      · exact .inr (.inl hcomes)
      · exact .inr (.inr (hmeets.next rfl))

/-! ### Every move -/

theorem Invariant.locked (h : Invariant board c) {change : LedController → LedController}
    (hchange : c.setter = [] → Invariant board (change c)) : Invariant board (c.locked change) := by
  unfold LedController.locked
  split
  · next hsetter => exact hchange hsetter
  · exact h

theorem Invariant.shared (h : Invariant board c) {shared : Shared}
    (hpixels : shared.restingPixels = c.shared.restingPixels) :
    Invariant board { c with shared := shared } :=
  ⟨h.sealed, h.settles.of (List.Subset.refl _) id rfl rfl hpixels⟩

theorem Invariant.step (h : Invariant board c) (m : Move) : Invariant board (c.step board m) := by
  cases m with
  | postLedEffect ev =>
      have hpost : Invariant board (c.postLedEffect ev) :=
        ⟨setter_postLedEffect c ev ▸ h.sealed, h.settles.postLedEffect ev⟩
      change Invariant board (if ev = .kSetIdle then _ else _)
      split
      · exact hpost
      · exact h.locked fun _ => hpost
  | postLedEffectForce ev =>
      dsimp only [LedController.step]
      refine h.locked fun _ => ⟨?_, h.settles.postLedEffectForce ev⟩
      exact setter_postLedEffectForce c ev ▸ h.sealed
  | setLedBrightness brightness =>
      dsimp only [LedController.step]
      refine h.locked fun _ => ?_
      exact h.shared rfl
  | setBlockFlashColor rgb =>
      dsimp only [LedController.step]
      refine h.locked fun _ => ?_
      exact h.shared rfl
  | setLedFlashOnUpdate enabled =>
      dsimp only [LedController.step]
      refine h.locked fun _ => ?_
      exact h.shared rfl
  | setLedDisabled disabled =>
      dsimp only [LedController.step]
      refine h.locked fun _ => ?_
      refine ⟨h.sealed, h.settles.of (List.Subset.refl _) ?_ rfl rfl rfl⟩
      refine Or.imp_right (Or.imp_left fun howed => ?_)
      cases disabled with
      | true => exact List.append_ne_nil_of_left_ne_nil howed _
      | false => exact howed
  | setLedSolidColor rgb =>
      dsimp only [LedController.step]
      exact h.locked fun _ => ⟨sealed_append _ (.inl rfl),
        settles_of_idleComes (.inl (List.append_ne_nil_of_right_ne_nil _ (List.cons_ne_nil _ _)))⟩
  | setLedPixels pixels =>
      dsimp only [LedController.step]
      exact h.locked fun _ => ⟨sealed_append _ (.inl rfl),
        settles_of_idleComes (.inl (List.append_ne_nil_of_right_ne_nil _ (List.cons_ne_nil _ _)))⟩
  | setter =>
      cases hsetter : c.setter with
      | nil =>
          simp only [LedController.step, hsetter]
          exact h
      | cons step rest =>
          simp only [LedController.step, hsetter]
          exact h.stepSetter hsetter
  | resume k => exact h.resume k
  | dnd suppressed => exact h.shared rfl
  | task => exact h.stepTask

theorem invariant_initLeds (board : Board) (prefs : Shared) :
    Invariant board (initLeds prefs) :=
  ⟨fun _ h => absurd h (Option.not_mem_none _), .inr (.inr (.done trivial rfl))⟩

theorem rests_of_invariant (h : Invariant board c) (hrest : c.AtRest)
    (hdrops : .kSetIdle ∉ c.drops) : Rests board c.shared.restingPixels c.painter := by
  obtain ⟨htask, hqueue, hsetter, howed⟩ := hrest
  rcases h.settles with hdrop | hcomes | hmeets
  · exact absurd hdrop hdrops
  · simp [IdleComes, hqueue, hsetter, howed] at hcomes
  · rw [htask] at hmeets
    exact hmeets.of_done

/-- At rest the strip shows what the last event the task acted upon leaves, with the resting
colours as `/api/lights` reports them then. -/
theorem rests_of_run (board : Board) (prefs : Shared) (moves : List Move) :
    let c := run (step board) (initLeds prefs) moves
    c.AtRest → .kSetIdle ∉ c.drops →
      Rests board (fun i => (c.getLedStatePixels board).getD i 0) c.painter := by
  intro c hrest hdrops
  have hinvariant : Invariant board c :=
    run_invariant (fun c m h => h.step m) (invariant_initLeds board prefs) moves
  refine (rests_of_invariant hinvariant hrest hdrops).congr fun i hi => ?_
  simp [getLedStatePixels, hi]

def demoBoard : Board :=
  ⟨4, by decide, true, fun _ _ _ => 0⟩

def demoPrefs : Shared :=
  ⟨128, 0xe04300, false, true, fun _ => 0, false⟩

/-- Orange on a strip of four. -/
theorem rests_of_run_orange :
    let c := run (step demoBoard) (initLeds demoPrefs)
      (.setLedSolidColor 0xff8000 :: List.replicate 6 .setter ++ .resume 0 ::
        List.replicate 13 .task)
    Rests demoBoard (fun i => (c.getLedStatePixels demoBoard).getD i 0) c.painter :=
  rests_of_run demoBoard demoPrefs _ ⟨rfl, rfl, rfl, rfl⟩ (by decide +kernel)

/-! ### A muted strip -/

/-- A strip which shows nothing, with no animation under way. -/
def Dark (board : Board) (t : Painter) : Prop :=
  t.mode = .kIdle ∧ Shows board t fun _ => black

/-- The rely condition: the effects stay disabled and the resting colours black. -/
def Silent (board : Board) (g : Shared) : Prop :=
  g.disabled = true ∧ ∀ i < board.count, g.restingPixels i = 0

/-- The steps of the setters which leave the strip muted. -/
def Mutes (board : Board) : SetterStep → Prop
  | .writeResting _ rgb => rgb = 0
  | .setDisabled disabled => disabled = true
  | .muteIfBlack n => n ≤ board.count
  | .unlock | .postIdle => True

/-- The calls which ask for light. -/
def AsksForLight (board : Board) : Move → Prop
  | .setLedDisabled disabled => disabled = false
  | .setLedSolidColor rgb => rgb &&& 0x00ffffff ≠ 0
  | .setLedPixels pixels => ∃ rgb ∈ pixels.take board.count, rgb &&& 0x00ffffff ≠ 0
  | _ => False

structure Muted (board : Board) (c : LedController) : Prop where
  silent : Silent board c.shared
  setter : ∀ step ∈ c.setter, Mutes board step
  task : c.task.Meets (Silent board) (Dark board) (fun _ _ => True) c.painter

theorem lit_zero (bright : UInt8) : lit 0 bright = black := by
  simp [lit, black, unpack, scale]

theorem Dark.sameButBuffer {t t' : Painter} (h : Dark board t) (hsame : SameButBuffer t t') :
    Dark board t' :=
  ⟨hsame.mode.trans h.1, fun i hi => by rw [hsame.shown, h.2 i hi]⟩

theorem dark_paintAllOff {t : Painter} (h : Dark board t) :
    (paintAllOff board).Meets (Silent board) (Dark board) (fun _ => Dark board) t := by
  refine (meets_paintAllOff (fun _ _ hsame h => h.sameButBuffer hsame) h ?_).weaken ?_
  · exact fun t' hmode hshown => ⟨hmode.trans h.1, hshown⟩
  · exact fun _ t' hoff => ⟨hoff.2.1.trans h.1, hoff.1⟩

theorem dark_handle {t : Painter} (p : Posted) (h : Dark board t) :
    (handle board p).Meets (Silent board) (Dark board) (fun _ _ => True) t := by
  have hbuffer : ∀ t t', SameButBuffer t t' → Dark board t → Dark board t' :=
    fun _ _ hsame h => h.sameButBuffer hsame
  refine (meets_gated p.bypassDnd h).bind ?_
  rintro gate s ⟨rfl, hgate⟩
  have hgate : gate = true := hgate fun g hg => hg.1
  split
  · exact .done h trivial
  · next hpass =>
    have hidle : p.effect = .kSetIdle := by simpa [hgate] using hpass
    refine .ask h fun g _ => ?_
    change Script.Meets _ _ _ (if _ then _ else _) _
    split
    · refine .act h fun _ _ => ?_
      have hdark : Dark board { s with mode := .kIdle } := ⟨rfl, h.2⟩
      refine (dark_paintAllOff hdark).bind fun _ t' hoff => ?_
      exact .act hoff fun _ _ => .done hoff trivial
    · refine .ask h fun g _ => ?_
      rw [hidle]
      have hcolor : ∀ g', Silent board g' → ∀ i < board.count,
          lit (g'.restingPixels i) g.brightness = black :=
        fun g' hg i hi => by rw [hg.2 i hi, lit_zero]
      have hrest := meets_backToIdle hcolor hbuffer h ⟨rfl, h.2⟩
        fun t' hmode hshown => ⟨hmode, hshown⟩
      refine hrest.bind fun _ t' hidle' => .act hidle' fun _ _ => ?_
      exact meets_tick_of_idle (by rw [hidle'.1]; rfl) hidle' trivial

theorem Muted.send (h : Muted board c) (ev : LedEffect) (bypassDnd : Bool) :
    Muted board (c.send ev bypassDnd) := by
  unfold LedController.send
  split <;> exact ⟨h.silent, h.setter, h.task⟩

theorem Muted.postLedEffect (h : Muted board c) (ev : LedEffect) :
    Muted board (c.postLedEffect ev) := by
  unfold LedController.postLedEffect
  split
  · exact h
  · exact h.send ev false

theorem Muted.postLedEffectForce (h : Muted board c) (ev : LedEffect) :
    Muted board (c.postLedEffectForce ev) := by
  unfold LedController.postLedEffectForce
  split
  · exact h
  · exact h.send ev true

theorem Muted.stepSetter {step : SetterStep} {rest : List SetterStep} (h : Muted board c)
    (hsetter : c.setter = step :: rest) : Muted board (c.stepSetter step rest) := by
  have hmutes : ∀ s ∈ step :: rest, Mutes board s := hsetter ▸ h.setter
  have hstep : Mutes board step := hmutes step List.mem_cons_self
  have hrest : ∀ s ∈ rest, Mutes board s := fun s hs => hmutes s (List.mem_cons_of_mem _ hs)
  cases step with
  | writeResting i rgb =>
      refine ⟨⟨h.silent.1, fun j hj => ?_⟩, hrest, h.task⟩
      obtain rfl : rgb = 0 := hstep
      by_cases hji : j = i
      · simp [LedController.stepSetter, hji]
      · simpa [LedController.stepSetter, Function.update_of_ne hji] using h.silent.2 j hj
  | setDisabled disabled => exact ⟨⟨hstep, h.silent.2⟩, hrest, h.task⟩
  | muteIfBlack n =>
      refine ⟨⟨?_, h.silent.2⟩, hrest, h.task⟩
      rw [LedController.stepSetter, List.all_eq_true]
      intro i hi
      have hlt : i < board.count := Nat.lt_of_lt_of_le (List.mem_range.mp hi) hstep
      simpa using h.silent.2 i hlt
  | unlock => exact ⟨h.silent, hrest, h.task⟩
  | postIdle =>
      have hlast : Muted board { c with setter := rest } := ⟨h.silent, hrest, h.task⟩
      exact hlast.postLedEffect .kSetIdle

theorem Muted.resume (h : Muted board c) (k : ℕ) : Muted board (c.resume k) := by
  unfold LedController.resume
  split
  · exact h
  · have hpaid : Muted board { c with owed := c.owed.eraseIdx k } :=
      ⟨h.silent, h.setter, h.task⟩
    exact hpaid.postLedEffect .kSetIdle
  · split
    · refine ⟨h.silent, fun step hstep => ?_, h.task⟩
      rcases List.mem_append.mp hstep with hstep | hstep
      · obtain ⟨i, -, rfl⟩ := List.mem_map.mp hstep
        exact rfl
      · rw [List.mem_singleton.mp hstep]
        trivial
    · exact h

theorem Muted.stepTask (h : Muted board c) : Muted board (c.stepTask board) := by
  have hdark : Dark board c.painter := h.task.here
  unfold LedController.stepTask
  split
  · split
    · exact ⟨h.silent, h.setter, dark_handle _ hdark⟩
    · rw [if_neg (by rw [hdark.1]; exact Bool.false_ne_true)]
      exact h
  · split
    · exact h
    · exact ⟨h.silent, h.setter, h.task.next h.silent⟩

theorem Muted.locked (h : Muted board c) {change : LedController → LedController}
    (hchange : Muted board (change c)) : Muted board (c.locked change) := by
  unfold LedController.locked
  split
  · exact hchange
  · exact h

theorem Muted.step (h : Muted board c) {m : Move} (hm : ¬ AsksForLight board m) :
    Muted board (c.step board m) := by
  cases m with
  | postLedEffect ev =>
      change Muted board (if ev = .kSetIdle then _ else _)
      split
      · exact h.postLedEffect ev
      · exact h.locked (h.postLedEffect ev)
  | postLedEffectForce ev =>
      dsimp only [LedController.step]
      exact h.locked (h.postLedEffectForce ev)
  | setLedBrightness brightness =>
      dsimp only [LedController.step]
      exact h.locked ⟨h.silent, h.setter, h.task⟩
  | setBlockFlashColor rgb =>
      dsimp only [LedController.step]
      exact h.locked ⟨h.silent, h.setter, h.task⟩
  | setLedFlashOnUpdate enabled =>
      dsimp only [LedController.step]
      exact h.locked ⟨h.silent, h.setter, h.task⟩
  | setLedDisabled disabled =>
      dsimp only [LedController.step]
      exact h.locked ⟨⟨by simpa [AsksForLight] using hm, h.silent.2⟩, h.setter, h.task⟩
  | setLedSolidColor rgb =>
      dsimp only [LedController.step]
      refine h.locked ⟨h.silent, fun step hstep => ?_, h.task⟩
      have hblack : rgb &&& 0x00ffffff = 0 := by simpa [AsksForLight] using hm
      simp only [LedController.setLedSolidColor, hblack, List.mem_append, List.mem_map,
        List.mem_singleton] at hstep
      rcases hstep with (⟨i, -, rfl⟩ | rfl) | rfl
      · exact rfl
      · exact rfl
      · trivial
  | setLedPixels pixels =>
      dsimp only [LedController.step]
      refine h.locked ⟨h.silent, fun step hstep => ?_, h.task⟩
      simp only [LedController.setLedPixels, List.mem_append, List.mem_map,
        List.mem_singleton] at hstep
      rcases hstep with (⟨i, hi, rfl⟩ | rfl) | rfl
      · have hlt := List.mem_range.mp hi
        by_contra hlit
        refine hm ⟨pixels.getD i 0, ?_, hlit⟩
        rw [List.getD_eq_getElem?_getD, List.getElem?_eq_getElem (by omega), Option.getD_some,
          ← List.getElem_take (j := board.count) (h := by rw [List.length_take]; omega)]
        exact List.getElem_mem _
      · exact Nat.min_le_right _ _
      · trivial
  | setter =>
      cases hsetter : c.setter with
      | nil =>
          simp only [LedController.step, hsetter]
          exact h
      | cons step rest =>
          simp only [LedController.step, hsetter]
          exact h.stepSetter hsetter
  | resume k => exact h.resume k
  | dnd suppressed => exact ⟨h.silent, h.setter, h.task⟩
  | task => exact h.stepTask

theorem muted_of_rests (hrests : Rests board c.shared.restingPixels c.painter) (hrest : c.AtRest)
    (hmode : c.painter.mode = .kIdle) (hsilent : Silent board c.shared) : Muted board c := by
  obtain ⟨htask, -, hsetter, -⟩ := hrest
  refine ⟨hsilent, by simp [hsetter], ?_⟩
  rw [htask]
  refine .done ⟨hmode, ?_⟩ trivial
  unfold Rests at hrests
  rcases hlast : c.painter.painted with _ | _ | ⟨ev, bright⟩
  · rw [hlast, hmode] at hrests
    cases hrests
  · rw [hlast] at hrests
    exact hrests.2
  · rw [hlast] at hrests
    obtain ⟨hafter, hshows⟩ := hrests
    have hidle : modeAfter ev = .kIdle := hafter.symm.trans hmode
    rw [hidle, if_neg (by decide : ¬ Mode.kIdle.ticks = true)] at hshows
    intro i hi
    rw [hshows i hi]
    unfold picture
    split
    · cases hidle
    · rfl
    · rw [hsilent.2 i hi, lit_zero]

/-- Once the muted strip is at rest no effect lights a pixel, whoever posts it and however the
tasks interleave, until a setter asks for light. -/
theorem dark_while_muted (board : Board) (prefs : Shared) (before after : List Move) :
    let c := run (step board) (initLeds prefs) before
    c.AtRest → .kSetIdle ∉ c.drops → c.painter.mode = .kIdle → c.shared.disabled = true →
      (∀ rgb ∈ c.getLedStatePixels board, rgb = 0) → (∀ m ∈ after, ¬ AsksForLight board m) →
        Shows board (run (step board) c after).painter fun _ => black := by
  intro c hrest hdrops hmode hdisabled hpixels hafter
  have hinvariant : Invariant board c :=
    run_invariant (fun c m h => h.step m) (invariant_initLeds board prefs) before
  have hsilent : Silent board c.shared :=
    ⟨hdisabled, fun i hi => hpixels _ (List.mem_map_of_mem (List.mem_range.mpr hi))⟩
  have hmuted : Muted board c :=
    muted_of_rests (rests_of_invariant hinvariant hrest hdrops) hrest hmode hsilent
  have halong : Along (step board) (fun _ m => ¬ AsksForLight board m) c after := by
    refine (along_iff_forall_split _ _ _ _).mpr ?_
    rintro pre m post rfl
    exact hafter m (List.mem_append_right _ List.mem_cons_self)
  exact (halong.invariant (fun _ _ h hm => h.step hm) hmuted).task.here.2

/-- Two effects after `SetLedDisabled(true)`, one of them forced. -/
theorem dark_while_muted_twoEffects :
    Shows demoBoard
      (run (step demoBoard)
        (run (step demoBoard) (initLeds demoPrefs)
          (.setLedDisabled true :: .resume 0 :: List.replicate 9 .setter ++
            List.replicate 13 .task))
        (.postLedEffectForce .kDndOn :: .postLedEffect .kZap :: List.replicate 4 .task)).painter
      fun _ => black :=
  dark_while_muted demoBoard demoPrefs _ _ ⟨rfl, rfl, rfl, rfl⟩ (by decide +kernel) rfl rfl
    (fun _ hrgb => List.eq_of_mem_replicate (n := 4) hrgb) (by simp [AsksForLight])

end LedController

end Leds

end BtClock
