import Mathlib.Data.List.Basic
import Mathlib.Data.Nat.Notation

/-!
# Cells which are packed to the right

A row of cells shows a text: the cells on the left are empty, the others are not, and in their
order they make up the text.
-/

namespace Packed

variable {α : Type*}

def Shows (cells : List (List α)) (text : List α) : Prop :=
  ∃ blanks shown, cells = List.replicate blanks [] ++ shown ∧ [] ∉ shown ∧ shown.flatten = text

variable {cells shown written : List (List α)} {cell text : List α} {n : ℕ}

theorem Shows.flatten (h : Shows cells text) : cells.flatten = text := by
  obtain ⟨blanks, shown, rfl, -, rfl⟩ := h
  rw [List.flatten_append, List.flatten_replicate_nil, List.nil_append]

theorem shows_replicate_append (blanks : ℕ) (h : [] ∉ shown) :
    Shows (List.replicate blanks [] ++ shown) shown.flatten :=
  ⟨blanks, shown, rfl, h, rfl⟩

theorem nil_notMem_map_singleton (text : List α) : [] ∉ text.map fun a => [a] := by
  rw [List.mem_map]
  rintro ⟨a, -, ha⟩
  exact List.cons_ne_nil a [] ha

theorem flatten_map_singleton (text : List α) : (text.map fun a => [a]).flatten = text := by
  induction text with
  | nil => rfl
  | cons a text ih => rw [List.map_cons, List.flatten_cons, ih, List.singleton_append]

/-- A cell is written where the empty ones begin. -/
theorem set_append_replicate (written : List (List α)) (cell : List α) (n : ℕ) :
    (written ++ List.replicate (n + 1) []).set written.length cell =
      written ++ [cell] ++ List.replicate n [] := by
  rw [List.set_append_right _ _ (Nat.le_refl _), Nat.sub_self, List.replicate_succ,
    List.set_cons_zero, List.append_assoc, List.singleton_append]

theorem replicate_eq_append {m n : ℕ} (h : m ≤ n) :
    List.replicate n ([] : List α) = List.replicate m [] ++ List.replicate (n - m) [] := by
  rw [List.replicate_append_replicate, Nat.add_sub_cancel' h]

/-- A cell is written among empty ones. -/
theorem set_replicate (cell : List α) {m n : ℕ} (h : m < n) :
    (List.replicate n []).set m cell =
      List.replicate m [] ++ [cell] ++ List.replicate (n - (m + 1)) [] := by
  have hset := set_append_replicate (List.replicate m []) cell (n - (m + 1))
  rw [List.length_replicate, List.replicate_append_replicate] at hset
  rw [← hset, show m + (n - (m + 1) + 1) = n by omega]

end Packed
