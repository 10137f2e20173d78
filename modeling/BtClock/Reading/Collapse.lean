import Mathlib.Data.List.Nodup

/-!
# Orders with repeated items

A list may name an item more than once.  It can be read by the first occurrences, or with the
repeats left out which stand next to each other.  The two readings are compared.
-/

namespace Collapse

variable {α : Type*} [DecidableEq α] {p : α → Bool} {r : α → α → Prop}

/-- Of equal neighbours, one is kept where the item allows it. -/
def collapse (p : α → Bool) : List α → List α
  | [] => []
  | a :: l => if p a = true ∧ l.head? = some a then collapse p l else a :: collapse p l

theorem collapse_cons_of_repeated {a : α} {l : List α} (hp : p a = true)
    (h : l.head? = some a) : collapse p (a :: l) = collapse p l :=
  if_pos ⟨hp, h⟩

theorem mem_collapse {a : α} {l : List α} : a ∈ collapse p l ↔ a ∈ l := by
  induction l with
  | nil => exact Iff.rfl
  | cons b l ih =>
      rw [collapse]
      split
      · rename_i hrep
        rw [ih, List.mem_cons]
        refine ⟨.inr, fun h => h.elim (fun heq => ?_) id⟩
        rw [heq]
        exact List.mem_of_mem_head? hrep.2
      · rw [List.mem_cons, List.mem_cons, ih]

/-- A relation in which the repeated items stand to themselves sees no repeats. -/
theorem pairwise_collapse_iff (hr : ∀ a, p a = true → r a a) {l : List α} :
    (collapse p l).Pairwise r ↔ l.Pairwise r := by
  induction l with
  | nil => exact Iff.rfl
  | cons a l ih =>
      rw [collapse]
      split
      · rename_i hrep
        rw [ih, List.pairwise_cons]
        refine ⟨fun h => ⟨fun b hb => ?_, h⟩, And.right⟩
        cases l with
        | nil => cases hb
        | cons c l =>
            obtain rfl : c = a := Option.some.inj hrep.2
            rcases List.mem_cons.mp hb with rfl | hb
            · exact hr b hrep.1
            · exact (List.pairwise_cons.mp h).1 b hb
      · rw [List.pairwise_cons, List.pairwise_cons, ih]
        exact and_congr_left' (forall_congr' fun b => imp_congr_left mem_collapse)

/-- In a sorted list only the items are repeated which may be left out. -/
theorem collapse_sorted {le : α → α → Prop} (hle : ∀ a b, le a b → le b a → a = b) {l : List α}
    (h : l.Pairwise le) (hrep : l.Pairwise fun a b => a = b → p a = true) :
    (collapse p l).Pairwise fun a b => le a b ∧ a ≠ b := by
  induction l with
  | nil => exact List.Pairwise.nil
  | cons a l ih =>
      rw [List.pairwise_cons] at h hrep
      rw [collapse]
      split
      · exact ih h.2 hrep.2
      · rename_i hkept
        refine List.pairwise_cons.mpr ⟨fun b hb => ?_, ih h.2 hrep.2⟩
        have hb' := mem_collapse.mp hb
        refine ⟨h.1 b hb', fun heq => hkept ⟨hrep.1 b hb' heq, ?_⟩⟩
        -- what stands between two equal items of a sorted list is equal to them
        cases l with
        | nil => cases hb'
        | cons c l =>
            subst heq
            have hac := h.1 c List.mem_cons_self
            rcases List.mem_cons.mp hb' with rfl | hb'
            · rfl
            · rw [List.head?_cons, hle a c hac ((List.pairwise_cons.mp h.2).1 a hb')]

/-- Without the repeats the list is the sorted one when it has the same items, sorted as well. -/
theorem collapse_eq_iff_of_sorted {le : α → α → Prop} (hle : ∀ a b, le a b → le b a → a = b)
    (hrefl : ∀ a, le a a) {l all : List α} (hrep : l.Pairwise fun a b => a = b → p a = true)
    (hall : all.Pairwise fun a b => le a b ∧ a ≠ b) :
    collapse p l = all ↔ (∀ a, a ∈ l ↔ a ∈ all) ∧ l.Pairwise le := by
  constructor
  · rintro rfl
    exact ⟨fun a => mem_collapse.symm,
      (pairwise_collapse_iff fun a _ => hrefl a).mp (hall.imp And.left)⟩
  · rintro ⟨hmem, hsorted⟩
    have hstrict := collapse_sorted (p := p) hle hsorted hrep
    refine List.Perm.eq_of_pairwise (fun a b _ _ hab hba => hle a b hab.1 hba.1) hstrict hall ?_
    refine (List.perm_ext_iff_of_nodup (hstrict.imp And.right) (hall.imp And.right)).mpr fun a => ?_
    rw [mem_collapse, hmem]

/-- The items written several times in a row, where that is allowed. -/
theorem collapse_flatMap_replicate {m : α → ℕ} {l : List α}
    (hm : ∀ a ∈ l, m a ≠ 0 ∧ (m a ≠ 1 → p a = true)) :
    collapse p (l.flatMap fun a => List.replicate (m a) a) = collapse p l := by
  induction l with
  | nil => rfl
  | cons a l ih =>
      have hrep : ∀ k, (k ≠ 0 → p a = true) → ∀ rest : List α,
          collapse p (List.replicate (k + 1) a ++ rest) = collapse p (a :: rest) := by
        intro k hk rest
        induction k with
        | zero => rfl
        | succ k ihk =>
            have hp := hk (Nat.succ_ne_zero k)
            rw [← ihk fun _ => hp, List.replicate_succ, List.cons_append,
              collapse_cons_of_repeated hp rfl]
      have hhead : (l.flatMap fun a => List.replicate (m a) a).head? = l.head? := by
        cases l with
        | nil => rfl
        | cons b l =>
            obtain ⟨k, hk⟩ := Nat.exists_eq_succ_of_ne_zero (hm b (by simp)).1
            rw [List.flatMap_cons, hk, List.replicate_succ]
            rfl
      obtain ⟨hne, hone⟩ := hm a List.mem_cons_self
      obtain ⟨k, hk⟩ := Nat.exists_eq_succ_of_ne_zero hne
      rw [List.flatMap_cons, hk, hrep k fun hne => hone (by omega), collapse, collapse, hhead,
        ih fun b hb => hm b (List.mem_cons_of_mem a hb)]

/-! ### Two readings of an order -/

theorem pairwise_idxOf {l : List α} (h : l.Nodup) :
    l.Pairwise fun a b => l.idxOf a ≤ l.idxOf b := by
  refine List.pairwise_iff_getElem.mpr fun i j hi hj hij => ?_
  rw [h.idxOf_getElem i hi, h.idxOf_getElem j hj]
  exact Nat.le_of_lt hij

/-- What has a property stands in front of what has it not. -/
theorem filter_append_filter_not {β : Type*} {q : β → Bool} {l : List β}
    (h : l.Pairwise fun a b => q b = true → q a = true) :
    l.filter q ++ l.filter (fun a => !q a) = l := by
  induction l with
  | nil => rfl
  | cons a l ih =>
      rw [List.pairwise_cons] at h
      cases hq : q a with
      | true =>
          rw [List.filter_cons_of_pos hq, List.filter_cons_of_neg (by simp [hq]), List.cons_append,
            ih h.2]
      | false =>
          have hnone : l.filter q = [] := List.filter_eq_nil_iff.mpr fun b hb hqb =>
            Bool.false_ne_true (hq.symm.trans (h.1 b hb hqb))
          have hall : l.filter (fun a => !q a) = l := by
            have hsplit := ih h.2
            rwa [hnone] at hsplit
          rw [List.filter_cons_of_neg (by simp [hq]), List.filter_cons_of_pos (by simp [hq]), hnone,
            hall]
          rfl

/-- A list of first occurrences, with the missing items in their usual order behind, is the list
without the repeats exactly when that one has every item once, and those of the first list in
front. -/
theorem append_filter_eq_collapse_iff {l front all : List α}
    (hr : ∀ a b, r a b → r b a → a = b) (hsub : front.Sublist l) (hnodup : front.Nodup)
    (hfront : ∀ a ∈ front, a ∈ all) (hall : all.Nodup) (hsorted : all.Pairwise r) :
    front ++ all.filter (fun a => a ∉ front) = collapse p l ↔
      (∀ a, a ∈ l ↔ a ∈ all) ∧ (collapse p l).Nodup ∧
        (collapse p l).Pairwise fun a b =>
          (b ∈ front → a ∈ front) ∧ (a ∉ front → b ∉ front → r a b) := by
  have hmem : ∀ a, a ∈ front ++ all.filter (fun a => a ∉ front) ↔ a ∈ all := by
    intro a
    simp only [List.mem_append, List.mem_filter, decide_eq_true_eq]
    by_cases ha : a ∈ front
    · exact iff_of_true (.inl ha) (hfront a ha)
    · simp only [ha, false_or, not_false_eq_true, and_true]
  have hrest : ∀ {l : List α}, ∀ a ∈ l.filter (fun a => a ∉ front), a ∉ front :=
    fun a ha => of_decide_eq_true (List.mem_filter.mp ha).2
  constructor
  · intro h
    rw [← h]
    refine ⟨fun a => ?_, ?_, ?_⟩
    · rw [← hmem a, h, mem_collapse]
    · refine List.nodup_append.mpr ⟨hnodup, hall.filter _, fun a ha b hb heq => ?_⟩
      exact hrest b hb (heq ▸ ha)
    · refine List.pairwise_append.mpr
        ⟨?_, ?_, fun a ha b _ => ⟨fun _ => ha, fun hn => absurd ha hn⟩⟩
      · exact List.pairwise_of_forall_mem_list fun a ha b _ => ⟨fun _ => ha, fun hn => absurd ha hn⟩
      · refine (hsorted.filter _).imp_of_mem fun ha hb hab => ?_
        exact ⟨fun hb' => absurd hb' (hrest _ hb), fun _ _ => hab⟩
  · rintro ⟨hsame, honce, horder⟩
    have hsplit := filter_append_filter_not (q := fun a => decide (a ∈ front))
      (horder.imp fun h hb => decide_eq_true (h.1 (of_decide_eq_true hb)))
    have hfirst : (collapse p l).filter (fun a => a ∈ front) = front := by
      have hidx : l.Pairwise fun a b => (collapse p l).idxOf a ≤ (collapse p l).idxOf b :=
        (pairwise_collapse_iff (p := p) (r := fun a b =>
          (collapse p l).idxOf a ≤ (collapse p l).idxOf b) fun a _ => Nat.le_refl _).mp
          (pairwise_idxOf honce)
      refine List.Perm.eq_of_pairwise (fun a b ha hb hab hba => ?_)
        ((pairwise_idxOf honce).filter _) (hidx.sublist hsub) ?_
      · exact (List.idxOf_inj (List.mem_filter.mp ha).1).mp (Nat.le_antisymm hab hba)
      · refine (List.perm_ext_iff_of_nodup (honce.filter _) hnodup).mpr fun a => ?_
        rw [List.mem_filter, mem_collapse, decide_eq_true_eq]
        exact and_iff_right_of_imp (hsub.mem)
    have hlast : (collapse p l).filter (fun a => !decide (a ∈ front)) =
        all.filter fun a => a ∉ front := by
      have hnot : (fun a => !decide (a ∈ front)) = fun a => decide (a ∉ front) := by
        funext a
        rw [decide_not]
      rw [hnot]
      refine List.Perm.eq_of_pairwise (fun a b _ _ => hr a b) ?_ (hsorted.filter _) ?_
      · exact (horder.filter _).imp_of_mem fun ha hb h => h.2 (hrest _ ha) (hrest _ hb)
      · refine (List.perm_ext_iff_of_nodup (honce.filter _) (hall.filter _)).mpr fun a => ?_
        rw [List.mem_filter, List.mem_filter, mem_collapse, hsame]
    rw [← hsplit, hfirst, hlast]

end Collapse
