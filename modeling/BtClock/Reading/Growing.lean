import Mathlib.Data.List.Basic
import Mathlib.Data.Nat.Notation

/-!
# Parsers of a growing buffer

A parser is called again whenever the buffer has grown, and may ask for more.  Any other answer
is to stay what it is.
-/

namespace Reading

variable {α β : Type*} {more : β → Prop} {parse : List α → β}

/-- An answer which does not ask for more is the one for every longer buffer. -/
def Settles (more : β → Prop) (parse : List α → β) : Prop :=
  ∀ front back, ¬more (parse front) → parse (front ++ back) = parse front

namespace Settles

variable {bytes : List α} {m n : ℕ}

theorem of_take (h : Settles more parse) (hn : ¬more (parse (bytes.take n))) :
    parse bytes = parse (bytes.take n) := by
  have hall := h (bytes.take n) (bytes.drop n) hn
  rwa [List.take_append_drop] at hall

theorem take (h : Settles more parse) (hle : m ≤ n) (hm : ¬more (parse (bytes.take m))) :
    parse (bytes.take n) = parse (bytes.take m) := by
  have hfront : (bytes.take n).take m = bytes.take m := by
    rw [List.take_take, Nat.min_eq_left hle]
  rw [← hfront] at hm ⊢
  exact h.of_take hm

end Settles

end Reading
