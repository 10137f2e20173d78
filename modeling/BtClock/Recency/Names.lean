import BtClock.Recency.Fifo
import Mathlib.Data.List.Dedup
import Mathlib.Data.List.Induction
import Mathlib.Data.List.Perm.Subperm

/-!
# Keys with names

Keys which carry names come one behind the other, and an entry hits only keys of its name.  Then
every name has a newcomer.  It has no other one exactly when the entry of its first key hits the
later ones, as long as the queue is long enough to keep that entry.
-/

namespace Fifo

open Transition

variable {ε κ ι : Type*} {hits : ε → κ → Bool} {entry : κ → ε}

theorem newcomers_split {q : List ε} {pre post : List κ} {k : κ}
    (h : knows hits (run (serve hits entry) q pre) k = false) :
    newcomers hits entry q (pre ++ k :: post) =
      newcomers hits entry q pre ++
        k :: newcomers hits entry (push (run (serve hits entry) q pre) (entry k)) post := by
  rw [newcomers_append, newcomers_cons_of_not_knows h]

/-- What the queue starts with hits none of the keys, and the entry of a key hits only keys of
its name. -/
structure HitsByName (hits : ε → κ → Bool) (entry : κ → ε) (name : κ → ι) (q : List ε)
    (ks : List κ) : Prop where
  old : ∀ e ∈ q, ∀ k ∈ ks, hits e k = false
  other : ∀ k ∈ ks, ∀ l ∈ ks, hits (entry k) l = true → name k = name l

/-- The entry of the first key of a name hits the later ones. -/
def HitsAgain (hits : ε → κ → Bool) (entry : κ → ε) (name : κ → ι) (ks : List κ) : Prop :=
  ∀ pre k mid l post, ks = pre ++ k :: (mid ++ l :: post) → name k = name l →
    name k ∉ pre.map name → hits (entry k) l = true

/-- Fewer than `n` names come between two keys of one name. -/
def FewNames [DecidableEq ι] (name : κ → ι) (n : ℕ) (ks : List κ) : Prop :=
  ∀ pre k mid l post, ks = pre ++ k :: (mid ++ l :: post) → name k = name l →
    (mid.map name).dedup.length < n

variable {name : κ → ι} {q : List ε}

theorem HitsAgain.of_append {ks ls : List κ} (h : HitsAgain hits entry name (ks ++ ls)) :
    HitsAgain hits entry name ks := by
  rintro pre k mid l post rfl
  exact h pre k mid l (post ++ ls) (by simp)

theorem FewNames.of_append [DecidableEq ι] {n : ℕ} {ks ls : List κ}
    (h : FewNames name n (ks ++ ls)) : FewNames name n ks := by
  rintro pre k mid l post rfl
  exact h pre k mid l (post ++ ls) (by simp)

namespace HitsByName

theorem of_append {ks ls : List κ} (h : HitsByName hits entry name q (ks ++ ls)) :
    HitsByName hits entry name q ks where
  old e he k hk := h.old e he k (List.mem_append_left ls hk)
  other k hk l hl := h.other k (List.mem_append_left ls hk) l (List.mem_append_left ls hl)

/-- A key which the queue knows is hit by the entry of a newcomer of its name. -/
theorem exists_newcomer {ks post : List κ} {k : κ}
    (h : HitsByName hits entry name q (ks ++ k :: post))
    (hknows : knows hits (run (serve hits entry) q ks) k = true) :
    ∃ l ∈ newcomers hits entry q ks, name l = name k ∧ hits (entry l) k = true := by
  have hk : k ∈ ks ++ k :: post := List.mem_append_right ks List.mem_cons_self
  obtain ⟨e, he, hek⟩ := knows_eq_true_iff.mp hknows
  rw [run_serve] at he
  rcases List.mem_append.mp (List.mem_of_mem_drop he) with he | he
  · rw [h.old e he k hk] at hek
    cases hek
  · obtain ⟨l, hl, rfl⟩ := List.mem_map.mp he
    have hmem : l ∈ ks ++ k :: post :=
      List.mem_append_left _ ((newcomers_sublist q ks).subset hl)
    exact ⟨l, hl, h.other l hmem k hk hek, hek⟩

/-- The first key of a name is a newcomer. -/
theorem not_knows_first {pre post : List κ} {k : κ}
    (h : HitsByName hits entry name q (pre ++ k :: post)) (hfirst : name k ∉ pre.map name) :
    knows hits (run (serve hits entry) q pre) k = false := by
  rw [← Bool.not_eq_true]
  intro hknows
  obtain ⟨l, hl, hname, -⟩ := h.exists_newcomer hknows
  exact hfirst (List.mem_map.mpr ⟨l, (newcomers_sublist q pre).subset hl, hname⟩)

/-- Every key shares its name with a newcomer. -/
theorem name_mem_newcomers {ks : List κ} (h : HitsByName hits entry name q ks) {k : κ}
    (hk : k ∈ ks) : name k ∈ (newcomers hits entry q ks).map name := by
  have hin : name k ∈ ks.map name := List.mem_map_of_mem hk
  obtain ⟨ns, ns', hnames, hfirst⟩ := List.eq_append_cons_of_mem hin
  obtain ⟨pre, rest, rfl, rfl, hrest⟩ := List.map_eq_append_iff.mp hnames
  obtain ⟨l, post, rfl, hname, -⟩ := List.map_eq_cons_iff.mp hrest
  rw [← hname] at hfirst ⊢
  rw [newcomers_split (h.not_knows_first hfirst), List.map_append]
  exact List.mem_append_right _ List.mem_cons_self

/-- If a name has one newcomer, then the entry of its first key hits the later ones. -/
theorem hits_of_count_le_one [DecidableEq ι] {pre mid post : List κ} {k l : κ}
    (h : HitsByName hits entry name q (pre ++ k :: (mid ++ l :: post))) (hkl : name k = name l)
    (hfirst : name k ∉ pre.map name)
    (hone : ((newcomers hits entry q (pre ++ k :: (mid ++ l :: post))).map name).count
      (name k) ≤ 1) : hits (entry k) l = true := by
  have hnew := h.not_knows_first hfirst
  rw [newcomers_split hnew, List.map_append, List.map_cons, List.count_append,
    List.count_cons_self] at hone
  have hlater : name k ∉ (newcomers hits entry
      (push (run (serve hits entry) q pre) (entry k)) (mid ++ l :: post)).map name := by
    rw [← List.count_eq_zero]
    omega
  have hsame : pre ++ k :: (mid ++ l :: post) = (pre ++ k :: mid) ++ l :: post := by simp
  have hrun : run (serve hits entry) q (pre ++ k :: mid) =
      run (serve hits entry) (push (run (serve hits entry) q pre) (entry k)) mid := by
    rw [run_append, run_cons, serve_of_not_knows hnew]
  cases hknows : knows hits (run (serve hits entry) q (pre ++ k :: mid)) l with
  | false =>
      rw [hrun] at hknows
      rw [newcomers_split hknows, List.map_append, List.map_cons, hkl] at hlater
      exact absurd (List.mem_append_right _ List.mem_cons_self) hlater
  | true =>
      rw [hsame] at h
      obtain ⟨m, hm, hml, hhit⟩ := h.exists_newcomer hknows
      rw [newcomers_split hnew] at hm
      rcases List.mem_append.mp hm with hm | hm
      · have hin : name k ∈ pre.map name :=
          List.mem_map.mpr ⟨m, (newcomers_sublist q pre).subset hm, hml.trans hkl.symm⟩
        exact absurd hin hfirst
      · rcases List.mem_cons.mp hm with rfl | hm
        · exact hhit
        · rw [newcomers_append, List.map_append] at hlater
          exact absurd (List.mem_append_left _
            (List.mem_map.mpr ⟨m, hm, hml.trans hkl.symm⟩)) hlater

/-- The queue knows a key whose name has come. -/
theorem knows_run_of_name [DecidableEq ι] {ks : List κ} {k : κ}
    (h : HitsByName hits entry name q (ks ++ [k]))
    (hagain : HitsAgain hits entry name (ks ++ [k]))
    (hfew : FewNames name q.length (ks ++ [k]))
    (hnodup : ((newcomers hits entry q ks).map name).Nodup)
    (hname : name k ∈ (newcomers hits entry q ks).map name) :
    knows hits (run (serve hits entry) q ks) k = true := by
  obtain ⟨l, hl, hlk⟩ := List.mem_map.mp hname
  obtain ⟨pre, post, rfl, hnew⟩ := mem_newcomers_iff.mp hl
  rw [newcomers_split hnew, List.map_append, List.map_cons] at hnodup
  obtain ⟨-, hlater, hapart⟩ := List.nodup_append.mp hnodup
  have hsame : pre ++ l :: post ++ [k] = pre ++ l :: (post ++ k :: []) := by simp
  -- a newcomer is the first key of its name
  have hfirst : name l ∉ pre.map name := by
    intro hin
    obtain ⟨m, hm, hml⟩ := List.mem_map.mp hin
    have hmem := h.of_append.of_append.name_mem_newcomers hm
    exact hapart (name l) (hml ▸ hmem) (name l) List.mem_cons_self rfl
  refine knows_run_of_split (newcomers_split hnew) ?_ (hagain pre l post k [] hsame hlk hfirst)
  refine Nat.lt_of_le_of_lt ?_ (hfew pre l post k [] hsame hlk)
  rw [← List.length_map name]
  refine (List.subperm_of_subset (List.nodup_cons.mp hlater).2 ?_).length_le
  intro n hn
  exact List.mem_dedup.mpr (((newcomers_sublist _ post).map name).subset hn)

/-- No two newcomers share a name. -/
theorem nodup_newcomers [DecidableEq ι] {ks : List κ} (h : HitsByName hits entry name q ks)
    (hagain : HitsAgain hits entry name ks) (hfew : FewNames name q.length ks) :
    ((newcomers hits entry q ks).map name).Nodup := by
  induction ks using List.reverseRecOn with
  | nil => exact List.nodup_nil
  | append_singleton ks k ih =>
      have hnodup := ih h.of_append hagain.of_append hfew.of_append
      rw [newcomers_append]
      cases hk : knows hits (run (serve hits entry) q ks) k with
      | true =>
          rw [newcomers_cons_of_knows hk, newcomers, List.append_nil]
          exact hnodup
      | false =>
          have hname : name k ∉ (newcomers hits entry q ks).map name := by
            intro hmem
            rw [h.knows_run_of_name hagain hfew hnodup hmem] at hk
            cases hk
          rw [newcomers_cons_of_not_knows hk, newcomers, List.map_append, List.map_singleton]
          exact hnodup.append (List.nodup_singleton _) (List.disjoint_singleton.mpr hname)

end HitsByName

end Fifo
