import Mathlib.Data.List.Basic
import Mathlib.Data.List.Perm.Subperm
import Mathlib.Data.Nat.Notation

/-!
# A ledger of resources

A ledger says what was opened and what was closed, in order.  It is replayed on the resources
which are held, and the replay fails where a resource is opened which is held or closed which is
not.
-/

namespace Ledger

variable {κ : Type*} [DecidableEq κ]

inductive Entry (κ : Type*)
  | opened (k : κ)
  | closed (k : κ)
  deriving DecidableEq, Repr

def replay : List κ → List (Entry κ) → Option (List κ)
  | held, [] => some held
  | held, .opened k :: log => if k ∈ held then none else replay (k :: held) log
  | held, .closed k :: log => if k ∈ held then replay (held.erase k) log else none

theorem replay_append (held : List κ) (a b : List (Entry κ)) :
    replay held (a ++ b) = (replay held a).bind fun held' => replay held' b := by
  induction a generalizing held with
  | nil => rfl
  | cons e a ih =>
      cases e with
      | opened k =>
          rw [List.cons_append, replay, replay]
          split
          · rfl
          · exact ih _
      | closed k =>
          rw [List.cons_append, replay, replay]
          split
          · exact ih _
          · rfl

/-- What was opened and is not held any more was closed. -/
theorem count_of_replay {held held' : List κ} {log : List (Entry κ)}
    (h : replay held log = some held') (k : κ) :
    held.count k + log.count (.opened k) = held'.count k + log.count (.closed k) := by
  induction log generalizing held with
  | nil =>
      obtain rfl := Option.some.inj h
      rfl
  | cons e log ih =>
      cases e with
      | opened j =>
          rw [replay] at h
          split at h
          · cases h
          · have hrest := ih h
            have hother : (Entry.opened j :: log).count (.closed k) = log.count (.closed k) :=
              List.count_cons_of_ne (by simp)
            rw [hother]
            by_cases hjk : j = k
            · subst hjk
              rw [List.count_cons_self] at hrest ⊢
              omega
            · rw [List.count_cons_of_ne hjk] at hrest
              rw [List.count_cons_of_ne fun heq => hjk (Entry.opened.inj heq)]
              exact hrest
      | closed j =>
          rw [replay] at h
          split at h
          · rename_i hmem
            have hrest := ih h
            have hother : (Entry.closed j :: log).count (.opened k) = log.count (.opened k) :=
              List.count_cons_of_ne (by simp)
            rw [hother]
            by_cases hjk : j = k
            · subst hjk
              have hpos := List.count_pos_iff.mpr hmem
              rw [List.count_erase_self] at hrest
              rw [List.count_cons_self]
              omega
            · rw [List.count_erase_of_ne (Ne.symm hjk)] at hrest
              rw [List.count_cons_of_ne fun heq => hjk (Entry.closed.inj heq)]
              exact hrest
          · cases h

/-- Whenever a part of the ledger was replayed, what is held has the property. -/
def Always (P : List κ → Prop) (held : List κ) (log : List (Entry κ)) : Prop :=
  ∀ pre, pre <+: log → ∃ held', replay held pre = some held' ∧ P held'

theorem always_nil {P : List κ → Prop} {held : List κ} (h : P held) : Always P held [] := by
  intro pre hpre
  obtain rfl := List.prefix_nil.mp hpre
  exact ⟨held, rfl, h⟩

theorem Always.append {P : List κ → Prop} {held held' : List κ} {a b : List (Entry κ)}
    (ha : Always P held a) (hreplay : replay held a = some held') (hb : Always P held' b) :
    Always P held (a ++ b) := by
  intro pre hpre
  rcases Nat.le_total pre.length a.length with hle | hle
  · exact ha pre (List.prefix_of_prefix_length_le hpre (List.prefix_append a b) hle)
  · obtain ⟨more, rfl⟩ :=
      List.prefix_of_prefix_length_le (List.prefix_append a b) hpre hle
    obtain ⟨held'', hmore, hP⟩ := hb more ((List.prefix_append_right_inj a).mp hpre)
    refine ⟨held'', ?_, hP⟩
    rw [replay_append, hreplay]
    exact hmore

theorem always_singleton {P : List κ → Prop} {held held' : List κ} {e : Entry κ}
    (h : P held) (he : replay held [e] = some held') (h' : P held') : Always P held [e] := by
  intro pre hpre
  rcases List.prefix_cons_iff.mp hpre with rfl | ⟨more, rfl, hmore⟩
  · exact ⟨held, rfl, h⟩
  · obtain rfl := List.prefix_nil.mp hmore
    exact ⟨held', he, h'⟩

/-- The ledger, from nothing held on, leaves `held`, and the property holds all the time. -/
structure Leaves (P : List κ → Prop) (log : List (Entry κ)) (held : List κ) : Prop where
  replayed : replay [] log = some held
  always : Always P [] log

theorem leaves_nil {P : List κ → Prop} (h : P []) : Leaves P [] [] :=
  ⟨rfl, always_nil h⟩

theorem Leaves.holds {P : List κ → Prop} {log : List (Entry κ)} {held : List κ}
    (h : Leaves P log held) : P held := by
  obtain ⟨held', hreplay, hP⟩ := h.always log List.prefix_rfl
  obtain rfl := Option.some.inj (h.replayed.symm.trans hreplay)
  exact hP

theorem Leaves.snoc {P : List κ → Prop} {log : List (Entry κ)} {held held' : List κ}
    {e : Entry κ} (h : Leaves P log held) (he : replay held [e] = some held') (h' : P held') :
    Leaves P (log ++ [e]) held' where
  replayed := by rw [replay_append, h.replayed]; exact he
  always := h.always.append h.replayed (always_singleton h.holds he h')

/-- Some of what is held is closed, where the property holds of less as well. -/
theorem Leaves.closeAll {P : List κ → Prop} (hless : ∀ held k, P held → P (held.erase k))
    {log : List (Entry κ)} {held : List κ} (h : Leaves P log held) {ks : List κ}
    (hks : ks.Subperm held) : Leaves P (log ++ ks.map .closed) (held.diff ks) := by
  induction ks generalizing log held with
  | nil => simpa using h
  | cons k ks ih =>
      have hmem : k ∈ held := hks.subset List.mem_cons_self
      have hclosed : Leaves P (log ++ [.closed k]) (held.erase k) :=
        h.snoc (by simp [replay, hmem]) (hless held k h.holds)
      have hrest : ks.Subperm (held.erase k) := by
        have herase := hks.erase k
        rwa [List.erase_cons_head] at herase
      rw [List.map_cons, List.append_cons, List.diff_cons]
      exact ih hclosed hrest

end Ledger
