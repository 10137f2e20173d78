import Mathlib.Algebra.Order.BigOperators.Group.List
import Mathlib.Algebra.Order.Group.Nat
import Mathlib.Algebra.Ring.Nat
import Mathlib.Data.List.Basic
import Mathlib.Data.List.TakeWhile

/-!
# Separated texts

Parts which are joined with a separator between each two can be told apart again when the
separator stands in none of them.
-/

namespace Separated

variable {α : Type*} {sep : α}

/-- The parts up to now with one more part, the separator in front unless it is the first. -/
def append [DecidableEq α] (sep : α) (out part : List α) : List α :=
  (if out = [] then [] else out ++ [sep]) ++ part

/-- Some of the parts are no longer than all of them. -/
theorem sum_length_filter_le (p : List α → Bool) (parts : List (List α)) :
    ((parts.filter p).map fun part => part.length + 1).sum ≤
      (parts.map fun part => part.length + 1).sum :=
  (List.filter_sublist.map _).sum_le_sum fun _ _ => Nat.zero_le _

section Join

variable [DecidableEq α] {out part : List α} {parts : List (List α)}

theorem append_ne_nil (out : List α) (h : part ≠ []) : append sep out part ≠ [] := by
  simp [append, h]

theorem foldl_append_ne_nil (hout : out ≠ []) (parts : List (List α)) :
    parts.foldl (append sep) out ≠ [] := by
  induction parts generalizing out with
  | nil => exact hout
  | cons part parts ih => exact ih (by simp [append, hout])

theorem foldl_append_eq_nil_iff (h : ∀ part ∈ parts, part ≠ []) :
    parts.foldl (append sep) [] = [] ↔ parts = [] := by
  cases parts with
  | nil => simp
  | cons part parts =>
      have hfirst : append sep [] part ≠ [] := append_ne_nil [] (h part List.mem_cons_self)
      exact iff_of_false (foldl_append_ne_nil hfirst parts) (List.cons_ne_nil _ _)

theorem mem_foldl_append {c : α} (h : c ∈ parts.foldl (append sep) out) :
    c ∈ out ∨ c = sep ∨ ∃ part ∈ parts, c ∈ part := by
  induction parts generalizing out with
  | nil => exact Or.inl h
  | cons part parts ih =>
      rcases ih h with hout | hsep | ⟨p, hp, hc⟩
      · rw [append, List.mem_append] at hout
        rcases hout with hout | hpart
        · split at hout
          · cases hout
          · rcases List.mem_append.mp hout with hmem | hmem
            · exact Or.inl hmem
            · exact Or.inr (Or.inl (List.mem_singleton.mp hmem))
        · exact Or.inr (Or.inr ⟨part, List.mem_cons_self, hpart⟩)
      · exact Or.inr (Or.inl hsep)
      · exact Or.inr (Or.inr ⟨p, List.mem_cons_of_mem _ hp, hc⟩)

theorem foldl_append (hout : out ≠ []) (h : ∀ part ∈ parts, part ≠ []) :
    parts.foldl (append sep) out = [sep].intercalate (out :: parts) := by
  induction parts generalizing out with
  | nil => simp
  | cons part parts ih =>
      have hpart := h part List.mem_cons_self
      rw [List.foldl_cons, ih (append_ne_nil out hpart)
        fun p hp => h p (List.mem_cons_of_mem _ hp), List.intercalate_cons_cons]
      rw [append, if_neg hout]
      cases parts with
      | nil => simp
      | cons p parts => simp [List.intercalate_cons_cons]

theorem length_foldl_append_le (parts : List (List α)) (out : List α) :
    (parts.foldl (append sep) out).length ≤
      out.length + (parts.map fun part => part.length + 1).sum := by
  induction parts generalizing out with
  | nil => simp
  | cons part parts ih =>
      have hpart : (append sep out part).length ≤ out.length + (part.length + 1) := by
        rw [append, List.length_append]
        split
        · rw [List.length_nil]
          omega
        · rw [List.length_append, List.length_singleton]
          omega
      have hrest := ih (append sep out part)
      rw [List.foldl_cons, List.map_cons, List.sum_cons]
      omega

/-- Parts which are not empty are joined by the separator. -/
theorem foldl_append_nil (h : ∀ part ∈ parts, part ≠ []) :
    parts.foldl (append sep) [] = [sep].intercalate parts := by
  cases parts with
  | nil => simp
  | cons part parts =>
      have hfirst : append sep [] part = part := by simp [append]
      rw [List.foldl_cons, hfirst, foldl_append (h part List.mem_cons_self)
        fun p hp => h p (List.mem_cons_of_mem _ hp)]

/-- The parts are what stands between the separators. -/
theorem splitOn_foldl_append (hparts : parts ≠ []) (hne : ∀ part ∈ parts, part ≠ [])
    (hsep : ∀ part ∈ parts, sep ∉ part) : (parts.foldl (append sep) []).splitOn sep = parts := by
  rw [foldl_append_nil hne]
  exact List.splitOn_intercalate sep hsep hparts

end Join

section Cut

variable [DecidableEq α] {front xs : List α}

/-- The text is cut at its first separator. -/
theorem takeWhile_ne_append (h : sep ∉ front) (rest : List α) :
    (front ++ sep :: rest).takeWhile (· ≠ sep) = front ∧
      (front ++ sep :: rest).dropWhile (· ≠ sep) = sep :: rest := by
  have hpos : ∀ c ∈ front, decide (c ≠ sep) = true := by
    intro c hc
    exact decide_eq_true (ne_of_mem_of_not_mem hc h)
  rw [List.takeWhile_append_of_pos hpos, List.dropWhile_append_of_pos hpos]
  simp

/-- Without a separator it is not cut. -/
theorem takeWhile_ne_of_not_mem (h : sep ∉ xs) :
    xs.takeWhile (· ≠ sep) = xs ∧ xs.dropWhile (· ≠ sep) = [] := by
  have hpos : ∀ c ∈ xs, decide (c ≠ sep) = true := by
    intro c hc
    exact decide_eq_true (ne_of_mem_of_not_mem hc h)
  exact ⟨List.takeWhile_eq_self_iff.mpr hpos, List.dropWhile_eq_nil_iff.mpr hpos⟩

end Cut

section SplitOn

variable [BEq α] [LawfulBEq α] {xs part : List α}

theorem splitOn_cons_self (sep : α) (xs : List α) :
    (sep :: xs).splitOn sep = [] :: xs.splitOn sep := by
  rw [List.splitOn_cons_eq_if_modifyHead, if_pos (beq_self_eq_true sep)]

theorem splitOn_cons_of_ne {c : α} (h : c ≠ sep) (xs : List α) :
    ∃ part parts, xs.splitOn sep = part :: parts ∧
      (c :: xs).splitOn sep = (c :: part) :: parts := by
  obtain ⟨part, parts, hparts⟩ := List.exists_cons_of_ne_nil (List.splitOn_ne_nil sep xs)
  refine ⟨part, parts, hparts, ?_⟩
  rw [List.splitOn_cons_eq_if_modifyHead, if_neg (by simpa using h), hparts,
    List.modifyHead_cons]

/-- What stands in front of the first separator goes to the first part. -/
theorem splitOn_append_of_not_mem {front : List α} (h : sep ∉ front) (xs : List α) :
    ∃ part parts, xs.splitOn sep = part :: parts ∧
      (front ++ xs).splitOn sep = (front ++ part) :: parts := by
  induction front with
  | nil =>
      obtain ⟨part, parts, hparts⟩ := List.exists_cons_of_ne_nil (List.splitOn_ne_nil sep xs)
      exact ⟨part, parts, hparts, hparts⟩
  | cons c front ih =>
      rw [List.mem_cons, not_or] at h
      obtain ⟨part, parts, hparts, hfront⟩ := ih h.2
      obtain ⟨first, rest, hrest, hcons⟩ := splitOn_cons_of_ne (Ne.symm h.1) (front ++ xs)
      rw [hfront, List.cons.injEq] at hrest
      refine ⟨part, parts, hparts, ?_⟩
      rw [List.cons_append, hcons, ← hrest.1, ← hrest.2, List.cons_append]

/-- A translation which gives the separator for nothing else translates the parts. -/
theorem splitOn_flatMap {β : Type*} [BEq β] [LawfulBEq β] {f : α → List β} {sep' : β}
    (hsep : f sep = [sep']) (hother : ∀ c, c ≠ sep → sep' ∉ f c) (xs : List α) :
    (xs.flatMap f).splitOn sep' = (xs.splitOn sep).map (List.flatMap f) := by
  induction xs with
  | nil => simp
  | cons c xs ih =>
      rw [List.flatMap_cons]
      by_cases hc : c = sep
      · rw [hc, hsep, List.singleton_append, splitOn_cons_self, splitOn_cons_self, ih,
          List.map_cons, List.flatMap_nil]
      · obtain ⟨part, parts, hparts, hcons⟩ := splitOn_cons_of_ne hc xs
        obtain ⟨first, rest, hrest, hfront⟩ :=
          splitOn_append_of_not_mem (hother c hc) (xs.flatMap f)
        rw [ih, hparts, List.map_cons, List.cons.injEq] at hrest
        rw [hfront, hcons, List.map_cons, List.flatMap_cons, ← hrest.1, ← hrest.2]

/-- The separator stands in none of the parts, and nothing else is in them. -/
theorem of_mem_splitOn (h : part ∈ xs.splitOn sep) : sep ∉ part ∧ ∀ c ∈ part, c ∈ xs := by
  induction xs generalizing part with
  | nil =>
      rw [List.splitOn_nil, List.mem_singleton] at h
      simp [h]
  | cons c xs ih =>
      by_cases hc : c = sep
      · subst hc
        rw [splitOn_cons_self] at h
        rcases List.mem_cons.mp h with rfl | hmem
        · simp
        · obtain ⟨hnot, hsub⟩ := ih hmem
          exact ⟨hnot, fun d hd => List.mem_cons_of_mem _ (hsub d hd)⟩
      · obtain ⟨first, parts, hparts, hsplit⟩ := splitOn_cons_of_ne hc xs
        rw [hsplit] at h
        rcases List.mem_cons.mp h with rfl | hmem
        · obtain ⟨hnot, hsub⟩ := ih (hparts ▸ List.mem_cons_self)
          refine ⟨?_, ?_⟩
          · rw [List.mem_cons, not_or]
            exact ⟨Ne.symm hc, hnot⟩
          · intro d hd
            rcases List.mem_cons.mp hd with rfl | hd
            · exact List.mem_cons_self
            · exact List.mem_cons_of_mem _ (hsub d hd)
        · obtain ⟨hnot, hsub⟩ := ih (hparts ▸ List.mem_cons_of_mem _ hmem)
          exact ⟨hnot, fun d hd => List.mem_cons_of_mem _ (hsub d hd)⟩

theorem suffix_of_splitOn_eq_append {parts : List (List α)}
    (h : xs.splitOn sep = parts ++ [part]) (hparts : parts ≠ []) :
    (sep :: part) <:+ xs := by
  refine ⟨[sep].intercalate parts, ?_⟩
  have hxs : [sep].intercalate (parts ++ [part]) = xs := by
    rw [← h, List.intercalate_splitOn]
  rw [← hxs]
  clear h hxs
  induction parts with
  | nil => exact absurd rfl hparts
  | cons p parts ih =>
      cases parts with
      | nil => simp [List.intercalate_cons_cons]
      | cons q parts =>
          have htail := ih (List.cons_ne_nil _ _)
          rw [List.cons_append, List.cons_append, List.intercalate_cons_cons,
            List.intercalate_cons_cons]
          rw [List.cons_append] at htail
          rw [← htail]
          simp

/-- The last part is what stands behind the last separator. -/
theorem getLast?_splitOn_eq_some_iff :
    (xs.splitOn sep).getLast? = some part ↔ sep ∉ part ∧ (xs = part ∨ (sep :: part) <:+ xs) := by
  constructor
  · intro hlast
    obtain ⟨parts, hparts⟩ := List.getLast?_eq_some_iff.mp hlast
    have hmem : part ∈ xs.splitOn sep := by
      rw [hparts]
      exact List.mem_append_right _ List.mem_cons_self
    refine ⟨(of_mem_splitOn hmem).1, ?_⟩
    by_cases hnil : parts = []
    · subst hnil
      have hxs : [sep].intercalate (xs.splitOn sep) = xs := List.intercalate_splitOn sep
      rw [hparts] at hxs
      exact Or.inl (by simpa using hxs.symm)
    · exact Or.inr (suffix_of_splitOn_eq_append hparts hnil)
  · rintro ⟨hsep, rfl | ⟨front, rfl⟩⟩
    · rw [List.splitOn_eq_singleton hsep]
      rfl
    · rw [List.splitOn_append_cons_self, List.splitOn_eq_singleton hsep]
      simp

/-- The parts are as long as the text, with one separator more. -/
theorem sum_length_splitOn (sep : α) (xs : List α) :
    ((xs.splitOn sep).map fun part => part.length + 1).sum = xs.length + 1 := by
  induction xs with
  | nil => simp
  | cons c xs ih =>
      by_cases hc : c = sep
      · subst hc
        rw [splitOn_cons_self, List.map_cons, List.sum_cons, ih]
        simp only [List.length_nil, List.length_cons]
        omega
      · obtain ⟨first, parts, hparts, hsplit⟩ := splitOn_cons_of_ne hc xs
        rw [hparts, List.map_cons, List.sum_cons] at ih
        rw [hsplit, List.map_cons, List.sum_cons, List.length_cons, List.length_cons]
        omega

end SplitOn

/-- Some of the parts give the text back when they are all of them. -/
theorem foldl_append_filter_splitOn_iff [DecidableEq α] {xs : List α} {p : List α → Bool}
    (hxs : xs ≠ []) (hp : ∀ part, p part = true → part ≠ []) :
    ((xs.splitOn sep).filter p).foldl (append sep) [] = xs ↔
      ∀ part ∈ xs.splitOn sep, p part = true := by
  constructor
  · intro h
    have hkept : (xs.splitOn sep).filter p ≠ [] := by
      intro hnil
      rw [hnil] at h
      exact hxs h.symm
    have hsplit : (((xs.splitOn sep).filter p).foldl (append sep) []).splitOn sep =
        (xs.splitOn sep).filter p :=
      splitOn_foldl_append hkept (fun part hpart => hp part (List.mem_filter.mp hpart).2)
        fun part hpart => (of_mem_splitOn (List.mem_filter.mp hpart).1).1
    rw [h] at hsplit
    exact List.filter_eq_self.mp hsplit.symm
  · intro h
    rw [List.filter_eq_self.mpr h, foldl_append_nil fun part hpart => hp part (h part hpart)]
    exact List.intercalate_splitOn sep

end Separated
