import BtClock.EventLoop.AppCtx
import BtClock.Reading.Stretch
import BtClock.Transition.Emit

/-!
# The buttons

The task of the buttons reads the port of the four pins at each tick.  A pin is low while its
button is pressed.  A level counts when two samples in a row agree on it, and the time of a press
decides whether it is a click or a long press.
-/

namespace BtClock

namespace ButtonReader

open Stretch Transition

def kDebounceTicks : ℕ := 2

def kLongPressTicks : ℕ := 40

def kAllLongPressTicks : ℕ := 250

/-- The state of one button. -/
structure State where
  lastRaw : Bool := true
  stableTicks : ℕ := 0
  pressed : Bool := false
  pressTicks : ℕ := 0
  longFired : Bool := false
  deriving DecidableEq, Repr

namespace State

/-- The level is stable for one tick more, or it starts anew. -/
def countStable (s : State) (rawHigh : Bool) : State :=
  if rawHigh = s.lastRaw then
    { s with
      stableTicks := if s.stableTicks < kDebounceTicks then s.stableTicks + 1 else s.stableTicks }
  else { s with lastRaw := rawHigh, stableTicks := 1 }

/-- A level which is stable becomes the debounced one. -/
def acceptLevel (s : State) : State × List ButtonEvent :=
  let debouncedPressed := !s.lastRaw
  if kDebounceTicks ≤ s.stableTicks ∧ debouncedPressed ≠ s.pressed then
    if debouncedPressed then ({ s with pressed := true, pressTicks := 0, longFired := false }, [])
    else
      ({ s with pressed := false, pressTicks := 0 }, if s.longFired then [] else [.click])
  else (s, [])

/-- The ticks of a press, with the counter of 16 bits at its end. -/
def countPress (s : State) : State × List ButtonEvent :=
  if s.pressed then
    let s := { s with
      pressTicks := if s.pressTicks < 65535 then s.pressTicks + 1 else s.pressTicks }
    if ¬ s.longFired ∧ kLongPressTicks ≤ s.pressTicks then
      ({ s with longFired := true }, [.longPress])
    else (s, [])
  else (s, [])

/-- The body of the loop over the buttons. -/
def sample (s : State) (rawHigh : Bool) : State × List ButtonEvent :=
  let accepted := (s.countStable rawHigh).acceptLevel
  let counted := accepted.1.countPress
  (counted.1, accepted.2 ++ counted.2)

end State

/-- What a tick does besides.  An input is offered to the queue, which drops it when it is
full. -/
inductive Effect
  | send (input : ButtonInput)
  | allLongPress
  deriving DecidableEq, Repr

def rawHigh (rawPort : UInt16) (i : Fin 4) : Bool :=
  rawPort &&& (1 <<< UInt16.ofNat i) ≠ 0

def buttonId : Fin 4 → ButtonId
  | 0 => .k0
  | 1 => .k1
  | 2 => .k2
  | 3 => .k3

/-- The logical button of a pin. -/
def logical (inverted : Bool) (i : Fin 4) : ButtonId :=
  buttonId (if inverted then i else 3 - i)

/-- The task, with what it keeps from tick to tick. -/
structure Reader where
  state : Fin 4 → State := fun _ => {}
  allPressedTicks : ℕ := 0
  allLongFired : Bool := false

variable (inverted callback : Bool)

/-- One turn of `Run`, with what `ReadPort` gives, which is nothing when the read fails. -/
def tick (r : Reader) : Option UInt16 → Reader × List Effect
  | none => (r, [])
  | some rawPort =>
      let next i := (r.state i).sample (rawHigh rawPort i)
      let state i := (next i).1
      let sends := (List.finRange 4).flatMap fun i =>
        (next i).2.map fun event => Effect.send ⟨logical inverted i, event⟩
      if ∀ i, (state i).pressed = true then
        let ticks :=
          if r.allPressedTicks < 4294967295 then r.allPressedTicks + 1 else r.allPressedTicks
        if ¬ r.allLongFired ∧ kAllLongPressTicks ≤ ticks then
          ({ state, allPressedTicks := ticks, allLongFired := true },
            sends ++ if callback then [.allLongPress] else [])
        else ({ state, allPressedTicks := ticks, allLongFired := r.allLongFired }, sends)
      else ({ state, allPressedTicks := 0, allLongFired := false }, sends)

/-! ### What is asked of it -/

/-- The debounced state after a tick, from the levels at the ticks: the one which the last two
levels agree on, or the one before. -/
def debounced (high : ℕ → Bool) : ℕ → Bool
  | 0 => false
  | 1 => false
  | t + 2 =>
      if high (t + 2) = high (t + 1) then !high (t + 2) else debounced high (t + 1)

/-- What a press comes to at a tick. -/
def pressEvent (p : ℕ → Bool) (t : ℕ) : List ButtonEvent :=
  if held p t = kLongPressTicks then [.longPress]
  else if p t = false ∧ 0 < held p (t - 1) ∧ held p (t - 1) < kLongPressTicks then [.click]
  else []

/-- Every press gives one event, and nothing else gives any.  A press which has not ended at the
last tick has given its long press, or nothing so far. -/
structure PressSpec (high : ℕ → Bool) (n : ℕ) (sent : ℕ → List ButtonEvent) : Prop where
  press : ∀ a b, IsStretch (debounced high) n a b →
    during sent a b =
      if kLongPressTicks ≤ b - a then [(a + (kLongPressTicks - 1), .longPress)]
      else if b ≤ n then [(b, .click)]
      else []
  only : ∀ t event, 1 ≤ t → t ≤ n → event ∈ sent t →
    ∃ a b, IsStretch (debounced high) n a b ∧ a ≤ t ∧ t ≤ b
  unstable : (∀ t, 1 ≤ t → t < n → high (t + 1) ≠ high t) → during sent 1 n = []

/-- A stretch at which all are pressed gives one reset when it is long enough. -/
structure ResetSpec (callback : Bool) (all : ℕ → Bool) (n : ℕ) (resets : ℕ → List Effect) :
    Prop where
  reset : ∀ a b, IsStretch all n a b →
    during resets a (b - 1) =
      if callback = true ∧ kAllLongPressTicks ≤ b - a then
        [(a + (kAllLongPressTicks - 1), .allLongPress)]
      else []
  only : ∀ t effect, 1 ≤ t → t ≤ n → effect ∈ resets t → ∃ a b, IsStretch all n a b ∧ a ≤ t ∧ t < b

/-! ### One button -/

section Button

variable {high : ℕ → Bool} {n : ℕ} {s : State}

theorem debounced_succ (high : ℕ → Bool) (n : ℕ) :
    debounced high (n + 1) =
      if 1 ≤ n ∧ high (n + 1) = high n then !high (n + 1) else debounced high n := by
  cases n with
  | zero => rfl
  | succ n => simp [debounced]

/-- The state of a button follows the levels at the first ticks. -/
structure Follows (high : ℕ → Bool) (n : ℕ) (s : State) : Prop where
  lastRaw : s.lastRaw = if n = 0 then true else high n
  stableTicks : s.stableTicks =
    if n = 0 then 0 else if 2 ≤ n ∧ high n = high (n - 1) then 2 else 1
  pressed : s.pressed = debounced high n
  pressTicks : s.pressTicks = min (held (debounced high) n) 65535
  longFired : s.pressed = true → (s.longFired = true ↔ kLongPressTicks ≤ held (debounced high) n)

theorem follows_zero (high : ℕ → Bool) : Follows high 0 {} :=
  ⟨rfl, rfl, rfl, rfl, nofun⟩

/-- The level has been stable for two ticks when it is the one before. -/
theorem Follows.countStable (h : Follows high n s) :
    s.countStable (high (n + 1)) =
      { s with
        lastRaw := high (n + 1)
        stableTicks := if 1 ≤ n ∧ high (n + 1) = high n then 2 else 1 } := by
  have hraw := h.lastRaw
  have hstable := h.stableTicks
  rw [State.countStable]
  cases n with
  | zero =>
      simp only [if_true] at hraw hstable
      simp only [hraw, hstable]
      split
      · rename_i heq
        simp [heq, kDebounceTicks]
      · simp
  | succ n =>
      simp only [Nat.succ_ne_zero, if_false] at hraw hstable
      simp only [hraw, Nat.le_add_left, true_and]
      split
      · rename_i heq
        rw [hstable]
        simp only [heq]
        congr 1
        split
        · rfl
        · rfl
      · rfl

/-- A change of the debounced state is accepted. -/
theorem Follows.acceptLevel (h : Follows high n s) :
    (s.countStable (high (n + 1))).acceptLevel =
      if debounced high (n + 1) = debounced high n then (s.countStable (high (n + 1)), [])
      else if debounced high (n + 1) = true then
        ({ s.countStable (high (n + 1)) with
            pressed := true, pressTicks := 0, longFired := false }, [])
      else
        ({ s.countStable (high (n + 1)) with pressed := false, pressTicks := 0 },
          if s.longFired then [] else [.click]) := by
  rw [h.countStable, State.acceptLevel, debounced_succ, h.pressed]
  by_cases hstable : 1 ≤ n ∧ high (n + 1) = high n
  · simp only [if_pos hstable, kDebounceTicks, Nat.le_refl, true_and]
    by_cases heq : (!high (n + 1)) = debounced high n
    · rw [if_neg (not_not_intro heq), if_pos heq]
    · rw [if_pos heq, if_neg heq]
  · simp only [if_neg hstable, kDebounceTicks, if_true]
    rw [if_neg]
    rintro ⟨hle, -⟩
    exact absurd hle (by decide)

/-- A press which has lasted `k` ticks, and one tick more. -/
theorem countPress_of_pressed {k : ℕ} (hpressed : s.pressed = true)
    (hticks : s.pressTicks = min k 65535) (hlong : s.longFired = true ↔ kLongPressTicks ≤ k) :
    s.countPress =
      ({ s with pressTicks := min (k + 1) 65535, longFired := decide (kLongPressTicks ≤ k + 1) },
        if k + 1 = kLongPressTicks then [.longPress] else []) := by
  have hnext : (if s.pressTicks < 65535 then s.pressTicks + 1 else s.pressTicks) =
      min (k + 1) 65535 := by
    rw [hticks]
    split <;> omega
  have hreached : kLongPressTicks ≤ min (k + 1) 65535 ↔ kLongPressTicks ≤ k + 1 := by
    unfold kLongPressTicks
    omega
  rw [State.countPress, if_pos hpressed]
  simp only [hnext, hreached, hlong, not_le]
  unfold kLongPressTicks
  by_cases hfired : k < 40 ∧ 40 ≤ k + 1
  · rw [if_pos hfired, if_pos (by omega), decide_eq_true hfired.2]
  · have hsame : s.longFired = decide (40 ≤ k + 1) := by
      rw [Bool.eq_iff_iff, hlong, decide_eq_true_iff]
      unfold kLongPressTicks
      omega
    rw [if_neg hfired, if_neg (by omega), ← hsame]

/-- The counters are those of the press, from the level which is counted in. -/
theorem follows_succ {s' : State} (hraw : s'.lastRaw = high (n + 1))
    (hstable : s'.stableTicks = if 1 ≤ n ∧ high (n + 1) = high n then 2 else 1)
    (hpressed : s'.pressed = debounced high (n + 1))
    (hticks : s'.pressTicks = min (held (debounced high) (n + 1)) 65535)
    (hlong : s'.pressed = true →
      (s'.longFired = true ↔ kLongPressTicks ≤ held (debounced high) (n + 1))) :
    Follows high (n + 1) s' := by
  refine ⟨hraw, ?_, hpressed, hticks, hlong⟩
  rw [hstable, if_neg (Nat.succ_ne_zero n), Nat.add_sub_cancel]
  refine if_congr (and_congr_left' ?_) rfl rfl
  omega

theorem pressEvent_of_on {p : ℕ → Bool} (h : p (n + 1) = true) :
    pressEvent p (n + 1) = if held p n + 1 = kLongPressTicks then [.longPress] else [] := by
  rw [pressEvent, held_succ_of_on h]
  split
  · rfl
  · exact if_neg fun hoff => Bool.false_ne_true (hoff.1.symm.trans h)

theorem pressEvent_of_off {p : ℕ → Bool} (h : p (n + 1) = false) :
    pressEvent p (n + 1) =
      if 0 < held p n ∧ held p n < kLongPressTicks then [.click] else [] := by
  rw [pressEvent, held_of_off h, if_neg (by decide), Nat.add_sub_cancel]
  simp only [h, true_and]

/-- A press which is counted goes on. -/
theorem follows_countPress (hraw : s.lastRaw = high (n + 1))
    (hstable : s.stableTicks = if 1 ≤ n ∧ high (n + 1) = high n then 2 else 1)
    (hpressed : s.pressed = true) (hnow : debounced high (n + 1) = true)
    (hticks : s.pressTicks = min (held (debounced high) n) 65535)
    (hlong : s.longFired = true ↔ kLongPressTicks ≤ held (debounced high) n) :
    Follows high (n + 1) s.countPress.1 ∧
      s.countPress.2 = pressEvent (debounced high) (n + 1) := by
  rw [countPress_of_pressed hpressed hticks hlong, pressEvent_of_on hnow]
  refine ⟨follows_succ hraw hstable (hpressed.trans hnow.symm) ?_ fun _ => ?_, rfl⟩
  · rw [held_succ_of_on hnow]
  · rw [held_succ_of_on hnow]
    exact decide_eq_true_iff

theorem countPress_of_released (h : s.pressed = false) : s.countPress = (s, []) := by
  rw [State.countPress, h, if_neg Bool.false_ne_true]

theorem follows_released (hraw : s.lastRaw = high (n + 1))
    (hstable : s.stableTicks = if 1 ≤ n ∧ high (n + 1) = high n then 2 else 1)
    (hpressed : s.pressed = false) (hnow : debounced high (n + 1) = false)
    (hticks : s.pressTicks = 0) : Follows high (n + 1) s := by
  refine follows_succ hraw hstable (hpressed.trans hnow.symm) ?_ fun hon => ?_
  · rw [hticks, held_of_off hnow]
    rfl
  · cases hpressed.symm.trans hon

/-- One tick follows the levels, and gives what the press comes to. -/
theorem Follows.sample (h : Follows high n s) :
    Follows high (n + 1) (s.sample (high (n + 1))).1 ∧
      (s.sample (high (n + 1))).2 = pressEvent (debounced high) (n + 1) := by
  obtain ⟨hraw, hstable, hpressed, hticks, hfired⟩ :
      (s.countStable (high (n + 1))).lastRaw = high (n + 1) ∧
        (s.countStable (high (n + 1))).stableTicks =
          (if 1 ≤ n ∧ high (n + 1) = high n then 2 else 1) ∧
        (s.countStable (high (n + 1))).pressed = debounced high n ∧
        (s.countStable (high (n + 1))).pressTicks = min (held (debounced high) n) 65535 ∧
        (s.countStable (high (n + 1))).longFired = s.longFired := by
    rw [h.countStable]
    exact ⟨rfl, rfl, h.pressed, h.pressTicks, rfl⟩
  have hlong := h.longFired
  rw [h.pressed] at hlong
  rw [State.sample, h.acceptLevel]
  generalize s.countStable (high (n + 1)) = s' at *
  cases hbefore : debounced high n with
  | false =>
      have hheld : held (debounced high) n = 0 := held_of_off hbefore
      rw [hbefore] at hpressed
      rw [hheld] at hticks
      cases hnow : debounced high (n + 1) with
      | false =>
          have hfollows := follows_released hraw hstable hpressed hnow hticks
          rw [if_pos rfl, countPress_of_released hpressed, pressEvent_of_off hnow, hheld]
          exact ⟨hfollows, rfl⟩
      | true =>
          -- a press begins, and its counter with it
          rw [if_neg (by decide), if_pos rfl]
          have hnone : false = true ↔ kLongPressTicks ≤ held (debounced high) n := by
            rw [hheld]
            decide
          exact follows_countPress (s := { s' with
            pressed := true, pressTicks := 0, longFired := false }) hraw hstable rfl hnow
            (by rw [hheld]; rfl) hnone
  | true =>
      rw [hbefore] at hpressed
      have hpos : 0 < held (debounced high) n := (held_pos_iff rfl).mpr hbefore
      cases hnow : debounced high (n + 1) with
      | false =>
          -- the press ends, with a click unless the long press was given
          rw [if_neg (by decide), if_neg (by decide)]
          have hfollows := follows_released (s := { s' with pressed := false, pressTicks := 0 })
            hraw hstable rfl hnow rfl
          rw [countPress_of_released rfl, List.append_nil, pressEvent_of_off hnow]
          refine ⟨hfollows, ?_⟩
          have hclick := hlong hbefore
          dsimp only
          by_cases hlast : kLongPressTicks ≤ held (debounced high) n
          · rw [if_pos (hclick.mpr hlast), if_neg fun hlt => Nat.not_le.mpr hlt.2 hlast]
          · rw [if_neg (mt hclick.mp hlast), if_pos ⟨hpos, Nat.not_le.mp hlast⟩]
      | true =>
          rw [if_pos rfl]
          have hlong' : s'.longFired = true ↔ kLongPressTicks ≤ held (debounced high) n := by
            rw [hfired]
            exact hlong hbefore
          exact follows_countPress hraw hstable hpressed hnow hticks hlong'

end Button

/-! ### All the buttons -/

/-- The level of a pin at a tick, the first one being tick 1. -/
def level (samples : List UInt16) (i : Fin 4) (t : ℕ) : Bool :=
  (samples[t - 1]?.map fun rawPort => rawHigh rawPort i).getD true

/-- All four buttons are pressed. -/
def allPressed (samples : List UInt16) (t : ℕ) : Bool :=
  decide (∀ i, debounced (level samples i) t = true)

structure ReaderFollows (samples : List UInt16) (n : ℕ) (r : Reader) : Prop where
  state : ∀ i, Follows (level samples i) n (r.state i)
  ticks : r.allPressedTicks = min (held (allPressed samples) n) 4294967295
  fired : r.allLongFired = true ↔ kAllLongPressTicks ≤ held (allPressed samples) n

theorem readerFollows_zero (samples : List UInt16) : ReaderFollows samples 0 {} :=
  ⟨fun i => follows_zero (level samples i), rfl,
    iff_of_false Bool.false_ne_true (Nat.not_succ_le_zero 249)⟩

section Tick

variable {samples : List UInt16} {n : ℕ} {r : Reader} {rawPort : UInt16}

theorem level_succ (h : samples[n]? = some rawPort) (i : Fin 4) :
    level samples i (n + 1) = rawHigh rawPort i := by
  rw [level, Nat.add_sub_cancel, h]
  rfl

/-- What a tick gives, by the presses and the time for which all of them last. -/
def tickEffects (samples : List UInt16) (t : ℕ) : List Effect :=
  ((List.finRange 4).flatMap fun i => (pressEvent (debounced (level samples i)) t).map fun event =>
    Effect.send ⟨logical inverted i, event⟩) ++
      if callback = true ∧ held (allPressed samples) t = kAllLongPressTicks then [.allLongPress]
      else []

theorem ReaderFollows.tick (h : ReaderFollows samples n r) (hport : samples[n]? = some rawPort) :
    ReaderFollows samples (n + 1) (tick inverted callback r (some rawPort)).1 ∧
      (tick inverted callback r (some rawPort)).2 =
        tickEffects inverted callback samples (n + 1) := by
  have hsample : ∀ i, Follows (level samples i) (n + 1) ((r.state i).sample (rawHigh rawPort i)).1 ∧
      ((r.state i).sample (rawHigh rawPort i)).2 =
        pressEvent (debounced (level samples i)) (n + 1) := by
    intro i
    rw [← level_succ hport i]
    exact (h.state i).sample
  have hall : (∀ i, ((r.state i).sample (rawHigh rawPort i)).1.pressed = true) ↔
      allPressed samples (n + 1) = true := by
    rw [allPressed, decide_eq_true_iff]
    exact forall_congr' fun i => by rw [(hsample i).1.pressed]
  unfold ButtonReader.tick
  simp only [hall, (hsample _).2]
  cases hnow : allPressed samples (n + 1) with
  | false =>
      have hheld : held (allPressed samples) (n + 1) = 0 := held_of_off hnow
      rw [if_neg Bool.false_ne_true]
      refine ⟨⟨fun i => (hsample i).1, ?_, ?_⟩, ?_⟩
      · rw [hheld]
        rfl
      · rw [hheld]
        exact iff_of_false Bool.false_ne_true (by decide)
      · rw [tickEffects, hheld, if_neg fun hand => absurd hand.2 (by decide), List.append_nil]
  | true =>
      have hheld : held (allPressed samples) (n + 1) = held (allPressed samples) n + 1 :=
        held_succ_of_on hnow
      have hticks : (if r.allPressedTicks < 4294967295 then r.allPressedTicks + 1
          else r.allPressedTicks) = min (held (allPressed samples) (n + 1)) 4294967295 := by
        rw [h.ticks, hheld]
        split <;> omega
      have hreached : kAllLongPressTicks ≤ min (held (allPressed samples) (n + 1)) 4294967295 ↔
          kAllLongPressTicks ≤ held (allPressed samples) n + 1 := by
        rw [hheld]
        unfold kAllLongPressTicks
        omega
      rw [if_pos rfl]
      simp only [hticks, hreached]
      by_cases hfire : ¬ r.allLongFired = true ∧
          kAllLongPressTicks ≤ held (allPressed samples) n + 1
      · rw [if_pos hfire]
        have hlast : held (allPressed samples) (n + 1) = kAllLongPressTicks := by
          have hnot := mt h.fired.mpr hfire.1
          omega
        refine ⟨⟨fun i => (hsample i).1, rfl, ?_⟩, ?_⟩
        · rw [hlast]
          exact iff_of_true rfl (Nat.le_refl _)
        · rw [tickEffects]
          simp only [hlast, and_true]
      · rw [if_neg hfire]
        have hnot : held (allPressed samples) (n + 1) ≠ kAllLongPressTicks := by
          intro hlast
          refine hfire ⟨mt h.fired.mp ?_, ?_⟩
          · omega
          · omega
        refine ⟨⟨fun i => (hsample i).1, rfl, ?_⟩, ?_⟩
        · have hfired := h.fired
          constructor
          · intro hon
            have hle := hfired.mp hon
            omega
          · intro hle
            exact not_not.mp fun hoff => hfire ⟨hoff, by omega⟩
        · rw [tickEffects, if_neg fun hand => hnot hand.2, List.append_nil]

end Tick

theorem readerFollows_reached (samples : List UInt16) :
    ∀ n ≤ samples.length, ReaderFollows samples n
      (reached (tick inverted callback) {} ((samples.take n).map some)) := by
  intro n
  induction n with
  | zero => exact fun _ => readerFollows_zero samples
  | succ n ih =>
      intro hn
      have hport : samples[n]? = some samples[n] := List.getElem?_eq_getElem hn
      rw [List.take_add_one, hport, Option.toList_some, List.map_append, reached_append]
      exact ((ih (Nat.le_of_succ_le hn)).tick inverted callback hport).1

/-! ### Runs with failed reads -/

/-- What the turns of a run give. -/
def runEffects (ports : List (Option UInt16)) : List (List Effect) :=
  outputs (tick inverted callback) {} ports

/-- The turns whose read succeeds are the ticks which are counted. -/
def countedEffects (ports : List (Option UInt16)) : List (List Effect) :=
  ((ports.zip (runEffects inverted callback ports)).filter fun x => x.1.isSome).map Prod.snd

def effectsAt (ports : List (Option UInt16)) (t : ℕ) : List Effect :=
  (countedEffects inverted callback ports)[t - 1]?.getD []

/-- What is sent for the button of a pin. -/
def sentAt (ports : List (Option UInt16)) (i : Fin 4) (t : ℕ) : List ButtonEvent :=
  (effectsAt inverted callback ports t).filterMap fun
    | .send input => if input.id = logical inverted i then some input.event else none
    | .allLongPress => none

def resetsAt (ports : List (Option UInt16)) (t : ℕ) : List Effect :=
  (effectsAt inverted callback ports t).filter (· = .allLongPress)

theorem filter_isSome_eq (ports : List (Option UInt16)) :
    ports.filter Option.isSome = ports.reduceOption.map some := by
  induction ports with
  | nil => rfl
  | cons port ports ih =>
      cases port with
      | none => exact ih
      | some rawPort => exact congrArg (some rawPort :: ·) ih

/-- A failed read counts for nothing. -/
theorem countedEffects_eq (ports : List (Option UInt16)) :
    countedEffects inverted callback ports =
      outputs (tick inverted callback) {} (ports.reduceOption.map some) := by
  have hskip : ∀ (r : Reader) (port : Option UInt16), port.isSome = false →
      tick inverted callback r port = (r, []) := by
    intro r port hport
    rw [Option.isSome_eq_false_iff.mp hport |> Option.isNone_iff_eq_none.mp]
    rfl
  rw [countedEffects, runEffects, zip_outputs_filter hskip, filter_isSome_eq]
  exact List.map_snd_zip (Nat.le_of_eq (length_outputs _ _))

theorem effectsAt_eq (ports : List (Option UInt16)) (n : ℕ) :
    effectsAt inverted callback ports (n + 1) =
      if n < ports.reduceOption.length then tickEffects inverted callback ports.reduceOption (n + 1)
      else [] := by
  rw [effectsAt, countedEffects_eq, Nat.add_sub_cancel, getElem?_outputs, List.getElem?_map]
  split
  · rename_i hn
    have hport : ports.reduceOption[n]? = some ports.reduceOption[n] := List.getElem?_eq_getElem hn
    have hfollows := readerFollows_reached inverted callback _ n (Nat.le_of_lt hn)
    rw [hport, ← (hfollows.tick inverted callback hport).2, List.map_take]
    rfl
  · rename_i hn
    rw [List.getElem?_eq_none (Nat.not_lt.mp hn)]
    rfl

theorem logical_inj {inverted : Bool} {i j : Fin 4} :
    logical inverted i = logical inverted j ↔ i = j := by
  constructor
  · revert inverted i j
    decide
  · exact congrArg _

/-- A button gets what its own press comes to. -/
theorem filterMap_tickEffects (samples : List UInt16) (i : Fin 4) (t : ℕ) :
    ((tickEffects inverted callback samples t).filterMap fun
      | .send input => if input.id = logical inverted i then some input.event else none
      | .allLongPress => none) = pressEvent (debounced (level samples i)) t := by
  have hnone : (if callback = true ∧ held (allPressed samples) t = kAllLongPressTicks
      then [Effect.allLongPress] else []).filterMap (fun
      | .send input => if input.id = logical inverted i then some input.event else none
      | .allLongPress => none) = [] := by
    split <;> rfl
  rw [tickEffects, List.filterMap_append, hnone, List.append_nil, List.filterMap_flatMap]
  simp only [List.filterMap_map]
  rw [flatMap_eq_of_ne (x := i) (List.nodup_finRange 4) (List.mem_finRange i) fun j _ hne => ?_]
  · simp
  · simp [logical_inj, hne]

theorem filter_tickEffects (samples : List UInt16) (t : ℕ) :
    (tickEffects inverted callback samples t).filter (· = .allLongPress) =
      if callback = true ∧ held (allPressed samples) t = kAllLongPressTicks then [.allLongPress]
      else [] := by
  rw [tickEffects, List.filter_append, List.filter_flatMap]
  have hsend : ∀ i : Fin 4, ((pressEvent (debounced (level samples i)) t).map fun event =>
      Effect.send ⟨logical inverted i, event⟩).filter (· = .allLongPress) = [] := by
    simp
  rw [List.flatMap_eq_nil_iff.mpr fun i _ => hsend i, List.nil_append]
  split <;> rfl

/-! ### The specifications -/

section Spec

variable {high : ℕ → Bool} {n : ℕ} {sent : ℕ → List ButtonEvent}

theorem debounced_zero (high : ℕ → Bool) : debounced high 0 = false :=
  rfl

theorem debounced_of_unstable (h : ∀ t, 1 ≤ t → t < n → high (t + 1) ≠ high t) :
    ∀ t ≤ n, debounced high t = false := by
  intro t
  induction t with
  | zero => exact fun _ => rfl
  | succ t ih =>
      intro ht
      rw [debounced_succ, if_neg fun hstable => h t hstable.1 ht hstable.2]
      exact ih (Nat.le_of_succ_le ht)

theorem on_of_mem_pressEvent {p : ℕ → Bool} (h0 : p 0 = false) {t : ℕ} {event : ButtonEvent}
    (h : event ∈ pressEvent p t) : p t = true ∨ p (t - 1) = true := by
  rw [pressEvent] at h
  split at h
  · rename_i hlong
    exact .inl ((held_pos_iff h0).mp (by rw [hlong]; decide))
  · split at h
    · rename_i hclick
      exact .inr ((held_pos_iff h0).mp hclick.2.1)
    · cases h

/-- Inside a press only the long press comes. -/
theorem pressEvent_inside {p : ℕ → Bool} {a b t : ℕ} (h : IsStretch p n a b) (ha : a ≤ t)
    (hb : t < b) :
    pressEvent p t = if t = a + (kLongPressTicks - 1) then [.longPress] else [] := by
  have hiff := h.held_eq_iff ha hb (k := kLongPressTicks) (by decide)
  rw [pressEvent, h.inside t ha hb]
  simp only [hiff, Bool.true_eq_false, false_and, if_false]
  rfl

theorem pressEvent_end {p : ℕ → Bool} {a b : ℕ} (h : IsStretch p n a b) (hb : b ≤ n) :
    pressEvent p b = if b - a < kLongPressTicks then [.click] else [] := by
  have hlt := h.lt
  have hheld : held p (b - 1) = b - a := by
    have hpos := h.pos
    rw [h.held_eq (by omega) (by omega)]
    omega
  rw [pressEvent, held_of_off (h.after hb), if_neg (by decide), hheld]
  simp only [h.after hb, true_and]
  exact if_congr (and_iff_right (by omega)) rfl rfl

theorem pressSpec_of_eq (hin : ∀ t, 1 ≤ t → t ≤ n → sent t = pressEvent (debounced high) t)
    (hend : sent (n + 1) = []) : PressSpec high n sent := by
  refine ⟨fun a b h => ?_, fun t event h1 hn hevent => ?_, fun hunstable => ?_⟩
  · have hpos := h.pos
    have hlt := h.lt
    have hle := h.le
    have hinside : ∀ t, a ≤ t → t < b →
        sent t = if t = a + (kLongPressTicks - 1) then [.longPress] else [] := by
      intro t ha hb
      rw [hin t (by omega) (by omega), pressEvent_inside h ha hb]
    have hlast : sent b = if b ≤ n ∧ b - a < kLongPressTicks then [.click] else [] := by
      by_cases hb : b ≤ n
      · rw [hin b (by omega) hb, pressEvent_end h hb]
        simp only [hb, true_and]
      · have heq : b = n + 1 := by omega
        rw [if_neg fun hand => hb hand.1, heq, hend]
    by_cases hlong : kLongPressTicks ≤ b - a
    · rw [if_pos hlong]
      refine during_eq_single (Nat.le_add_right _ _) ?_ ?_ fun k hak hkb hne => ?_
      · unfold kLongPressTicks at *
        omega
      · rw [hinside _ (Nat.le_add_right _ _), if_pos rfl]
        unfold kLongPressTicks at *
        omega
      · rcases Nat.lt_or_eq_of_le hkb with hlt | rfl
        · rw [hinside k hak hlt, if_neg hne]
        · rw [hlast, if_neg fun hand => Nat.not_le.mpr hand.2 hlong]
    · rw [if_neg hlong]
      have hnone : ∀ k, a ≤ k → k < b → sent k = [] := by
        intro k hak hkb
        rw [hinside k hak hkb, if_neg]
        omega
      split
      · rename_i hb
        refine during_eq_single (Nat.le_of_lt hlt) (Nat.le_refl _) ?_ fun k hak hkb hne => ?_
        · rw [hlast, if_pos ⟨hb, Nat.not_le.mp hlong⟩]
        · exact hnone k hak (by omega)
      · rename_i hb
        refine during_eq_nil fun k hak hkb => ?_
        rcases Nat.lt_or_eq_of_le hkb with hlt | rfl
        · exact hnone k hak hlt
        · rw [hlast, if_neg fun hand => hb hand.1]
  · rw [hin t h1 hn] at hevent
    rcases on_of_mem_pressEvent (debounced_zero high) hevent with hon | hon
    · obtain ⟨a, b, h, ha, hb⟩ := exists_isStretch (debounced_zero high) hon hn
      exact ⟨a, b, h, ha, Nat.le_of_lt hb⟩
    · obtain ⟨a, b, h, ha, hb⟩ := exists_isStretch (n := n) (debounced_zero high) hon (by omega)
      exact ⟨a, b, h, by omega, by omega⟩
  · refine during_eq_nil fun t h1 hn => ?_
    have hoff := debounced_of_unstable hunstable
    rw [hin t h1 hn]
    refine List.eq_nil_iff_forall_not_mem.mpr fun event hevent => ?_
    rcases on_of_mem_pressEvent (debounced_zero high) hevent with hon | hon
    · cases (hoff t hn).symm.trans hon
    · cases (hoff (t - 1) (by omega)).symm.trans hon

theorem resetSpec_of_eq {callback : Bool} {all : ℕ → Bool} {resets : ℕ → List Effect}
    (h0 : all 0 = false)
    (hin : ∀ t, 1 ≤ t → t ≤ n → resets t =
      if callback = true ∧ held all t = kAllLongPressTicks then [.allLongPress] else []) :
    ResetSpec callback all n resets := by
  refine ⟨fun a b h => ?_, fun t effect h1 hn heffect => ?_⟩
  · have hpos := h.pos
    have hle := h.le
    have hlt := h.lt
    have hinside : ∀ t, a ≤ t → t < b → resets t =
        if callback = true ∧ t = a + (kAllLongPressTicks - 1) then [.allLongPress] else [] := by
      intro t ha hb
      have hiff := h.held_eq_iff ha hb (k := kAllLongPressTicks) (by decide)
      rw [hin t (by omega) (by omega)]
      simp only [hiff]
      rfl
    split
    · rename_i hfire
      refine during_eq_single (Nat.le_add_right _ _) (by omega) ?_ fun k hak hkb hne => ?_
      · rw [hinside _ (Nat.le_add_right _ _), if_pos ⟨hfire.1, rfl⟩]
        omega
      · rw [hinside k hak (by omega), if_neg fun hand => hne hand.2]
    · rename_i hnot
      refine during_eq_nil fun k hak hkb => ?_
      rw [hinside k hak (by omega), if_neg fun hand => hnot ⟨hand.1, by omega⟩]
  · rw [hin t h1 hn] at heffect
    split at heffect
    · rename_i hfire
      exact exists_isStretch h0 ((held_pos_iff h0).mp (by rw [hfire.2]; decide)) hn
    · cases heffect

end Spec

/-- Every press gives one event, samples which never agree give none, a failed read gives nothing,
and the reset comes once for each time all four are held for long enough. -/
theorem run_one_event_per_press (ports : List (Option UInt16)) :
    (∀ k : ℕ, ports[k]? = some none → (runEffects inverted callback ports)[k]? = some []) ∧
      (∀ i, PressSpec (level ports.reduceOption i) ports.reduceOption.length
        (sentAt inverted callback ports i)) ∧
      ResetSpec callback (allPressed ports.reduceOption) ports.reduceOption.length
        (resetsAt inverted callback ports) := by
  have hcounted : ∀ t, 1 ≤ t → t ≤ ports.reduceOption.length →
      effectsAt inverted callback ports t =
        tickEffects inverted callback ports.reduceOption t := by
    intro t h1 hn
    obtain ⟨t, rfl⟩ := Nat.exists_eq_add_of_le' h1
    rw [effectsAt_eq, if_pos (Nat.lt_of_succ_le hn)]
  refine ⟨fun k hk => ?_, fun i => pressSpec_of_eq (fun t h1 hn => ?_) ?_,
    resetSpec_of_eq ?_ fun t h1 hn => ?_⟩
  · rw [runEffects, getElem?_outputs, hk]
    rfl
  · rw [sentAt, hcounted t h1 hn, filterMap_tickEffects]
  · rw [sentAt, effectsAt_eq, if_neg (Nat.lt_irrefl _), List.filterMap_nil]
  · exact decide_eq_false fun h => Bool.false_ne_true (h 0)
  · rw [resetsAt, hcounted t h1 hn, filter_tickEffects]

end ButtonReader

end BtClock
