import Mathlib.Data.List.Forall2
import Mathlib.Data.List.TakeWhile

/-!
# A cursor which goes forward only

Each wanted element takes the first element of a list behind the cursor which it matches, and the
cursor goes behind that one.  One which matches nothing there moves the cursor to the end.  So
all the elements which some wanted one matches are taken only if the wanted ones come in their
order and nothing else comes before the last of them.
-/

namespace Cursor

variable {α β : Type*} (r : α → β → Bool)

/-- The first element from an index on which matches. -/
def findFrom (list : List α) (start : ℕ) (b : β) : Option ℕ :=
  ((list.drop start).findIdx? fun a => r a b).map (start + ·)

/-- The indices which are taken. -/
def taken (list : List α) : ℕ → List β → List ℕ
  | _, [] => []
  | start, b :: wanted =>
      match findFrom r list start b with
      | none => taken list (max start list.length) wanted
      | some k => k :: taken list (k + 1) wanted

/-- Some wanted element matches. -/
def wantedBy (wanted : List β) (a : α) : Bool :=
  wanted.any (r a)

/-- The elements which are wanted match, one by one, the first of the wanted ones. -/
def InFront (list : List α) (wanted : List β) : Prop :=
  ∃ front, front <+: wanted ∧
    List.Forall₂ (fun a b => r a b = true) (list.filter (wantedBy r wanted)) front

variable {r} {list : List α} {start k : ℕ} {b : β} {wanted : List β}

theorem findFrom_eq_some (h : findFrom r list start b = some k) :
    start ≤ k ∧ (∃ hk : k < list.length, r list[k] b = true) ∧
      ∀ j, start ≤ j → j < k → ∀ hj : j < list.length, r list[j] b = false := by
  obtain ⟨i, hi, rfl⟩ := Option.map_eq_some_iff.mp h
  obtain ⟨hlt, hmatch, hfirst⟩ := List.findIdx?_eq_some_iff_getElem.mp hi
  rw [List.length_drop] at hlt
  rw [List.getElem_drop] at hmatch
  refine ⟨Nat.le_add_right _ _, ⟨by omega, hmatch⟩, fun j hle hj hjlt => ?_⟩
  have hnot := hfirst (j - start) (by omega)
  simp only [List.getElem_drop, Nat.add_sub_cancel' hle] at hnot
  simpa using hnot

theorem findFrom_eq_none (h : findFrom r list start b = none) {j : ℕ} (hle : start ≤ j)
    (hj : j < list.length) : r list[j] b = false := by
  have hall := List.findIdx?_eq_none_iff.mp (Option.map_eq_none_iff.mp h)
  exact hall list[j] (List.mem_drop_iff_getElem.mpr ⟨j - start, by omega, by
    simp only [Nat.add_sub_cancel' hle]⟩)

theorem wantedBy_cons_iff {a : α} :
    wantedBy r (b :: wanted) a = true ↔ r a b = true ∨ wantedBy r wanted a = true := by
  simp [wantedBy]

theorem wantedBy_iff {a : α} : wantedBy r wanted a = true ↔ ∃ b ∈ wanted, r a b = true :=
  List.any_eq_true

/-! ### What is taken -/

theorem taken_of_length_le (h : list.length ≤ start) (wanted : List β) :
    taken r list start wanted = [] := by
  induction wanted generalizing start with
  | nil => rfl
  | cons b wanted ih =>
      have hnone : findFrom r list start b = none := by
        rw [findFrom, List.drop_of_length_le h]
        rfl
      rw [taken, hnone]
      exact ih (Nat.le_max_right _ _)

theorem of_mem_taken (h : k ∈ taken r list start wanted) :
    start ≤ k ∧ ∃ hk : k < list.length, wantedBy r wanted list[k] = true := by
  induction wanted generalizing start with
  | nil => cases h
  | cons b wanted ih =>
      rw [taken] at h
      split at h
      · obtain ⟨hle, hk, hwanted⟩ := ih h
        exact ⟨Nat.le_trans (Nat.le_max_left _ _) hle, hk, wantedBy_cons_iff.mpr (Or.inr hwanted)⟩
      · rename_i i hsome
        obtain ⟨hle, ⟨hi, hmatch⟩, _⟩ := findFrom_eq_some hsome
        rcases List.mem_cons.mp h with rfl | hmem
        · exact ⟨hle, hi, wantedBy_cons_iff.mpr (Or.inl hmatch)⟩
        · obtain ⟨hlt, hk, hwanted⟩ := ih hmem
          exact ⟨by omega, hk, wantedBy_cons_iff.mpr (Or.inr hwanted)⟩

/-- No element is taken twice. -/
theorem nodup_taken (list : List α) (start : ℕ) (wanted : List β) :
    (taken r list start wanted).Nodup := by
  induction wanted generalizing start with
  | nil => exact List.nodup_nil
  | cons b wanted ih =>
      rw [taken]
      split
      · exact ih _
      · rename_i i _
        refine List.nodup_cons.mpr ⟨fun hmem => ?_, ih _⟩
        have hlt := (of_mem_taken hmem).1
        omega

theorem exists_of_forall₂ {R : α → β → Prop} {xs : List α} {ys : List β}
    (h : List.Forall₂ R xs ys) {x : α} (hx : x ∈ xs) : ∃ y ∈ ys, R x y := by
  induction h with
  | nil => cases hx
  | cons hxy _ ih =>
      rcases List.mem_cons.mp hx with rfl | hx
      · exact ⟨_, List.mem_cons_self, hxy⟩
      · obtain ⟨y, hy, hxy⟩ := ih hx
        exact ⟨y, List.mem_cons_of_mem _ hy, hxy⟩

/-- A list is wanted by one more as it was when what this one matches was wanted anyway. -/
theorem filter_wantedBy_cons (h : ∀ x ∈ list, r x b = true → wantedBy r wanted x = true) :
    list.filter (wantedBy r (b :: wanted)) = list.filter (wantedBy r wanted) := by
  refine List.filter_congr fun x hx => Bool.eq_iff_iff.mpr (wantedBy_cons_iff.trans ?_)
  exact ⟨fun hor => hor.elim (h x hx) id, Or.inr⟩

/-- Elements which the first wanted one does not match are not wanted by those in front. -/
theorem filter_eq_nil_of_front {before rest : List α} {front : List β}
    (hbefore : ∀ x ∈ before, r x b = false) (hpre : front <+: b :: wanted)
    (hall : List.Forall₂ (fun a b => r a b = true)
      (before.filter (wantedBy r (b :: wanted)) ++ rest) front) :
    before.filter (wantedBy r (b :: wanted)) = [] := by
  cases hfilter : before.filter (wantedBy r (b :: wanted)) with
  | nil => rfl
  | cons x xs =>
      have hx : x ∈ before := List.mem_of_mem_filter (hfilter ▸ List.mem_cons_self)
      rw [hfilter] at hall
      obtain ⟨c, front, hmatch, _, rfl⟩ := List.forall₂_cons_left_iff.mp hall
      rw [(List.cons_prefix_cons.mp hpre).1, hbefore x hx] at hmatch
      cases hmatch

/-- Behind elements which do not match, one which matches is in front of the others. -/
theorem inFront_append_cons_iff {before after : List α} {a : α}
    (hbefore : ∀ x ∈ before, r x b = false) (ha : r a b = true) :
    InFront r (before ++ a :: after) (b :: wanted) ↔
      (∀ x ∈ before, wantedBy r wanted x = false) ∧
        (∀ x ∈ after, r x b = true → wantedBy r wanted x = true) ∧ InFront r after wanted := by
  have hwanted : wantedBy r (b :: wanted) a = true := wantedBy_cons_iff.mpr (Or.inl ha)
  rw [InFront, List.filter_append, List.filter_cons_of_pos hwanted]
  constructor
  · rintro ⟨front, hpre, hall⟩
    have hnil := filter_eq_nil_of_front hbefore hpre hall
    rw [hnil, List.nil_append] at hall
    obtain ⟨c, front, _, hrest, rfl⟩ := List.forall₂_cons_left_iff.mp hall
    have hfront := (List.cons_prefix_cons.mp hpre).2
    have hafter : ∀ x ∈ after, r x b = true → wantedBy r wanted x = true := by
      intro x hx hmatch
      have hmem : x ∈ after.filter (wantedBy r (b :: wanted)) :=
        List.mem_filter.mpr ⟨hx, wantedBy_cons_iff.mpr (Or.inl hmatch)⟩
      obtain ⟨c, hc, hxc⟩ := exists_of_forall₂ hrest hmem
      exact wantedBy_iff.mpr ⟨c, hfront.subset hc, hxc⟩
    refine ⟨fun x hx => ?_, hafter, front, hfront, filter_wantedBy_cons hafter ▸ hrest⟩
    have hnot := List.filter_eq_nil_iff.mp hnil x hx
    exact Bool.eq_false_iff.mpr fun h => hnot (wantedBy_cons_iff.mpr (Or.inr h))
  · rintro ⟨hnot, hafter, front, hfront, hrest⟩
    have hnil : before.filter (wantedBy r (b :: wanted)) = [] := by
      refine List.filter_eq_nil_iff.mpr fun x hx h => ?_
      rcases wantedBy_cons_iff.mp h with hmatch | hwanted
      · exact Bool.false_ne_true ((hbefore x hx).symm.trans hmatch)
      · exact Bool.false_ne_true ((hnot x hx).symm.trans hwanted)
    refine ⟨b :: front, List.cons_prefix_cons.mpr ⟨rfl, hfront⟩, ?_⟩
    rw [hnil, List.nil_append, filter_wantedBy_cons hafter]
    exact List.Forall₂.cons ha hrest

section Index

variable {P : α → Prop}

theorem forall_mem_drop_iff :
    (∀ x ∈ list.drop start, P x) ↔ ∀ k, start ≤ k → ∀ hk : k < list.length, P list[k] := by
  constructor
  · intro h k hle hk
    exact h _ (List.mem_drop_iff_getElem.mpr ⟨k - start, by omega, by
      simp only [Nat.add_sub_cancel' hle]⟩)
  · intro h x hx
    obtain ⟨i, hi, rfl⟩ := List.mem_drop_iff_getElem.mp hx
    exact h _ (Nat.le_add_right _ _) (by omega)

theorem forall_mem_take_drop_iff :
    (∀ x ∈ (list.drop start).take (k - start), P x) ↔
      ∀ j, start ≤ j → j < k → ∀ hj : j < list.length, P list[j] := by
  constructor
  · intro h j hle hlt hj
    refine h _ (List.mem_iff_getElem.mpr ⟨j - start, ?_, ?_⟩)
    · rw [List.length_take, List.length_drop]
      omega
    · simp only [List.getElem_take, List.getElem_drop, Nat.add_sub_cancel' hle]
  · intro h x hx
    obtain ⟨i, hi, rfl⟩ := List.mem_iff_getElem.mp hx
    rw [List.length_take, List.length_drop] at hi
    rw [List.getElem_take, List.getElem_drop]
    exact h _ (Nat.le_add_right _ _) (by omega) (by omega)

end Index

theorem inFront_drop_iff_of_findFrom_none (h : findFrom r list start b = none) :
    InFront r (list.drop start) (b :: wanted) ↔
      ∀ k, start ≤ k → ∀ hk : k < list.length, wantedBy r (b :: wanted) list[k] = false := by
  have hnot : ∀ x ∈ list.drop start, r x b = false :=
    forall_mem_drop_iff.mpr fun k hle hk => findFrom_eq_none h hle hk
  rw [← forall_mem_drop_iff (P := fun x => wantedBy r (b :: wanted) x = false)]
  constructor
  · rintro ⟨front, hpre, hall⟩ x hx
    rw [← List.append_nil (List.filter _ _)] at hall
    have hnil := filter_eq_nil_of_front hnot hpre hall
    exact Bool.eq_false_iff.mpr (List.filter_eq_nil_iff.mp hnil x hx)
  · intro hall
    refine ⟨[], List.nil_prefix, ?_⟩
    rw [List.filter_eq_nil_iff.mpr fun x hx => Bool.eq_false_iff.mp (hall x hx)]
    exact List.Forall₂.nil

theorem inFront_drop_iff_of_findFrom_some (h : findFrom r list start b = some k) :
    InFront r (list.drop start) (b :: wanted) ↔
      (∀ j, start ≤ j → j < k → ∀ hj : j < list.length, wantedBy r wanted list[j] = false) ∧
        (∀ j, k + 1 ≤ j → ∀ hj : j < list.length, r list[j] b = true →
          wantedBy r wanted list[j] = true) ∧ InFront r (list.drop (k + 1)) wanted := by
  obtain ⟨hle, ⟨hk, hmatch⟩, hfirst⟩ := findFrom_eq_some h
  have hsplit : list.drop start =
      (list.drop start).take (k - start) ++ list[k] :: list.drop (k + 1) := by
    conv_lhs => rw [← List.take_append_drop (k - start) (list.drop start), List.drop_drop,
      Nat.add_sub_cancel' hle, List.drop_eq_getElem_cons hk]
  have hnot : ∀ x ∈ (list.drop start).take (k - start), r x b = false :=
    forall_mem_take_drop_iff.mpr hfirst
  rw [hsplit, inFront_append_cons_iff hnot hmatch, forall_mem_take_drop_iff, forall_mem_drop_iff]

/-- Nothing which is wanted is passed over exactly when it stands in front. -/
theorem forall_mem_taken_iff (list : List α) (start : ℕ) (wanted : List β) :
    (∀ k, start ≤ k → ∀ hk : k < list.length,
        wantedBy r wanted list[k] = true → k ∈ taken r list start wanted) ↔
      InFront r (list.drop start) wanted := by
  induction wanted generalizing start with
  | nil =>
      refine iff_of_true (fun _ _ _ h => by cases h) ⟨[], List.nil_prefix, ?_⟩
      have hnil : (list.drop start).filter (wantedBy r []) = [] :=
        List.filter_eq_nil_iff.mpr fun _ _ => Bool.false_ne_true
      rw [hnil]
      exact List.Forall₂.nil
  | cons b wanted ih =>
      rw [taken]
      split
      · rename_i hnone
        rw [taken_of_length_le (Nat.le_max_right _ _), inFront_drop_iff_of_findFrom_none hnone]
        simp only [List.not_mem_nil, imp_false, Bool.not_eq_true]
      · rename_i i hsome
        obtain ⟨hle, -, hfirst⟩ := findFrom_eq_some hsome
        rw [inFront_drop_iff_of_findFrom_some hsome, ← ih (i + 1)]
        constructor
        · intro h
          have hbehind : ∀ k, i + 1 ≤ k → ∀ hk : k < list.length,
              wantedBy r (b :: wanted) list[k] = true → k ∈ taken r list (i + 1) wanted := by
            intro k hlt hk hwanted
            refine (List.mem_cons.mp (h k (by omega) hk hwanted)).resolve_left ?_
            omega
          refine ⟨fun j hjle hjlt hj => ?_, fun j hjle hj hjb => ?_, fun k hlt hk hwanted => ?_⟩
          · refine Bool.eq_false_iff.mpr fun hwanted => ?_
            have hmem := h j hjle hj (wantedBy_cons_iff.mpr (Or.inr hwanted))
            rcases List.mem_cons.mp hmem with rfl | hmem
            · omega
            · have hgt := (of_mem_taken hmem).1
              omega
          · exact (of_mem_taken (hbehind j hjle hj (wantedBy_cons_iff.mpr (Or.inl hjb)))).2.2
          · exact hbehind k hlt hk (wantedBy_cons_iff.mpr (Or.inr hwanted))
        · rintro ⟨hnone, hafter, htaken⟩ k hkle hk hwanted
          rw [wantedBy_cons_iff] at hwanted
          rcases Nat.lt_trichotomy k i with hlt | rfl | hlt
          · rcases hwanted with hkb | hkw
            · exact absurd ((hfirst k hkle hlt hk).symm.trans hkb) Bool.false_ne_true
            · exact absurd ((hnone k hkle hlt hk).symm.trans hkw) Bool.false_ne_true
          · exact List.mem_cons_self
          · exact List.mem_cons_of_mem _
              (htaken k hlt hk (hwanted.elim (hafter k hlt hk) id))

end Cursor
