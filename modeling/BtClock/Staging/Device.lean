import Mathlib.Data.List.Basic
import Mathlib.Data.Int.Notation

/-!
# Staged writing

An image is streamed into a slot through a handle, and then the slot is selected.  The functions
of the device give a code, of which zero is success.
-/

namespace Staging

/-- What is seen of a device: the selected slot, what the slots hold, and what went through each
open handle. -/
structure View (π η α : Type*) where
  selected : π
  contents : π → List α
  streams : η → Option (π × List α)

namespace View

variable {π η α : Type*} {u v w : View π η α} {h : η}

/-- The selected slot and the handles other than `h` are as they were. -/
structure OnlyAt (h : η) (v w : View π η α) : Prop where
  selected : w.selected = v.selected
  streams : ∀ k, k ≠ h → w.streams k = v.streams k

theorem OnlyAt.refl (h : η) (v : View π η α) : OnlyAt h v v :=
  ⟨rfl, fun _ _ => rfl⟩

theorem OnlyAt.trans (huv : OnlyAt h u v) (hvw : OnlyAt h v w) : OnlyAt h u w :=
  ⟨hvw.selected.trans huv.selected, fun k hk => (hvw.streams k hk).trans (huv.streams k hk)⟩

end View

structure Device (φ π η α : Type*) where
  view : φ → View π η α
  start : π → φ → ℤ × η × φ
  append : η → List α → φ → ℤ × φ
  finish : η → φ → ℤ × φ
  drop : η → φ → φ
  select : π → φ → ℤ × φ

variable {φ π η α : Type*}

/-- A handle is new when it is opened, and it is closed by `finish` as well when that fails; a
finished image is in its slot; only a successful `select` selects. -/
structure Device.Lawful (d : Device φ π η α) : Prop where
  start_ok : ∀ {p f h f'}, d.start p f = (0, h, f') →
    (d.view f).streams h = none ∧ (d.view f').streams h = some (p, []) ∧
      View.OnlyAt h (d.view f) (d.view f')
  start_failed : ∀ {p f rc h f'}, d.start p f = (rc, h, f') → rc ≠ 0 →
    (d.view f').selected = (d.view f).selected ∧ (d.view f').streams = (d.view f).streams
  append_onlyAt : ∀ h xs f, View.OnlyAt h (d.view f) (d.view (d.append h xs f).2)
  append_ok : ∀ {h xs f f' p ys}, d.append h xs f = (0, f') →
    (d.view f).streams h = some (p, ys) → (d.view f').streams h = some (p, ys ++ xs)
  finish_onlyAt : ∀ h f, View.OnlyAt h (d.view f) (d.view (d.finish h f).2)
  finish_closes : ∀ h f, (d.view (d.finish h f).2).streams h = none
  finish_ok : ∀ {h f f' p ys}, d.finish h f = (0, f') →
    (d.view f).streams h = some (p, ys) → ys <+: (d.view f').contents p
  drop_onlyAt : ∀ h f, View.OnlyAt h (d.view f) (d.view (d.drop h f))
  drop_closes : ∀ h f, (d.view (d.drop h f)).streams h = none
  select_ok : ∀ {p f f'}, d.select p f = (0, f') → (d.view f').selected = p
  select_failed : ∀ {p f rc f'}, d.select p f = (rc, f') → rc ≠ 0 →
    (d.view f').selected = (d.view f).selected
  select_streams : ∀ p f, (d.view (d.select p f).2).streams = (d.view f).streams
  select_contents : ∀ p f, (d.view (d.select p f).2).contents = (d.view f).contents

/-! ### The device which is what is seen of it -/

section Ideal

variable [DecidableEq η]

variable [DecidableEq π]

end Ideal

end Staging
