import Mathlib.Data.List.Basic
import Mathlib.Data.Nat.Notation

/-!
# Stream ciphers

A state gives a block of keys and the next state.  The input is combined with the keys block
by block.  Where combining twice with one key does nothing, the cipher undoes itself.
-/

namespace StreamCipher

variable {σ α κ : Type*} (op : α → κ → α) (block : σ → List κ) (next : σ → σ) (width : ℕ)

/-- The loop over the blocks of the input, the last of which may be short. -/
def combine : ℕ → σ → List α → List α
  | 0, _, _ => []
  | fuel + 1, s, input =>
      match input with
      | [] => []
      | _ :: _ =>
          List.zipWith op (input.take width) (block s) ++
            combine fuel (next s) (input.drop width)

@[simp]
theorem combine_nil (fuel : ℕ) (s : σ) : combine op block next width fuel s [] = [] := by
  cases fuel <;> rfl

theorem combine_succ {input : List α} (h : input ≠ []) (fuel : ℕ) (s : σ) :
    combine op block next width (fuel + 1) s input =
      List.zipWith op (input.take width) (block s) ++
        combine op block next width fuel (next s) (input.drop width) := by
  cases input with
  | nil => exact absurd rfl h
  | cons a input => rfl

theorem zipWith_zipWith_self (hop : ∀ a k, op (op a k) k = a) {input : List α} {keys : List κ}
    (h : input.length ≤ keys.length) :
    List.zipWith op (List.zipWith op input keys) keys = input := by
  induction input generalizing keys with
  | nil => rfl
  | cons a input ih =>
      cases keys with
      | nil => simp at h
      | cons k keys =>
          simp only [List.zipWith_cons_cons, hop]
          rw [ih (by simpa using h)]

section Full

variable {block width} (hblock : ∀ s, (block s).length = width) (hwidth : 0 < width)

include hblock

theorem length_zipWith_take (s : σ) (input : List α) :
    (List.zipWith op (input.take width) (block s)).length = min width input.length := by
  rw [List.length_zipWith, List.length_take, hblock]
  omega

/-- The first block of the output and the rest of it. -/
theorem take_drop_combine (fuel : ℕ) (input : List α) (s : σ) :
    (combine op block next width (fuel + 1) s input).take width =
        List.zipWith op (input.take width) (block s) ∧
      (combine op block next width (fuel + 1) s input).drop width =
        combine op block next width fuel (next s) (input.drop width) := by
  by_cases hnil : input = []
  · subst hnil
    simp
  rw [combine_succ op block next width hnil]
  have hlen := length_zipWith_take op hblock s input
  rcases Nat.lt_or_ge input.length width with hlt | hle
  · have hrest : input.drop width = [] := List.drop_eq_nil_of_le (Nat.le_of_lt hlt)
    have hshort : (List.zipWith op (input.take width) (block s)).length ≤ width := by
      rw [hlen]
      exact Nat.min_le_left _ _
    simp only [hrest, combine_nil, List.append_nil]
    exact ⟨List.take_of_length_le hshort, List.drop_eq_nil_of_le hshort⟩
  · have hfull : (List.zipWith op (input.take width) (block s)).length = width := by
      rw [hlen, Nat.min_eq_left hle]
    exact ⟨List.take_left' hfull, List.drop_left' hfull⟩

include hwidth

theorem length_combine {fuel : ℕ} {input : List α} (hfuel : input.length ≤ fuel) (s : σ) :
    (combine op block next width fuel s input).length = input.length := by
  induction fuel generalizing s input with
  | zero =>
      rw [List.length_eq_zero_iff.mp (Nat.le_zero.mp hfuel)]
      rfl
  | succ fuel ih =>
      by_cases hnil : input = []
      · rw [hnil, combine_nil]
      · have hpos := List.length_pos_iff.mpr hnil
        have hdrop : (input.drop width).length ≤ fuel := by
          rw [List.length_drop]
          omega
        rw [combine_succ op block next width hnil, List.length_append,
          length_zipWith_take op hblock, ih hdrop, List.length_drop]
        omega

/-- To combine twice is to do nothing. -/
theorem combine_combine (hop : ∀ a k, op (op a k) k = a) {fuel : ℕ} {input : List α}
    (hfuel : input.length ≤ fuel) (s : σ) :
    combine op block next width fuel s (combine op block next width fuel s input) = input := by
  induction fuel generalizing s input with
  | zero =>
      rw [List.length_eq_zero_iff.mp (Nat.le_zero.mp hfuel)]
      rfl
  | succ fuel ih =>
      by_cases hnil : input = []
      · simp [hnil]
      have hpos := List.length_pos_iff.mpr hnil
      have hne : combine op block next width (fuel + 1) s input ≠ [] := by
        intro h
        have hlen := length_combine op next hblock hwidth hfuel s
        rw [h] at hlen
        exact Nat.ne_of_lt hpos hlen
      obtain ⟨htake, hdrop⟩ := take_drop_combine op next hblock fuel input s
      have hkeys : (input.take width).length ≤ (block s).length := by
        rw [hblock]
        exact List.length_take_le _ _
      have hrest : (input.drop width).length ≤ fuel := by
        rw [List.length_drop]
        omega
      rw [combine_succ op block next width hne, htake, hdrop,
        zipWith_zipWith_self op hop hkeys, ih hrest, List.take_append_drop]

end Full

end StreamCipher
