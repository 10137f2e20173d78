import Mathlib.Data.List.Rotate
import Mathlib.Data.Nat.Find
import Mathlib.Logic.Function.Iterate

/-!
# Steps around a cycle which skip some of its points

A bounded search follows a step function until a point is not skipped.  On a cycle the search
visits every point which is not skipped once before it comes back, and the search the other way
undoes it.
-/

namespace Skipping

variable {α : Type*} (skip : α → Bool) (f : α → α)

/-- The first point from `x` on which is not skipped, within `fuel` steps. -/
def seek : ℕ → α → α
  | 0, x => x
  | fuel + 1, x => if skip x then seek fuel (f x) else x

/-- The next point on a cycle of `n` points. -/
def next (n : ℕ) (x : α) : α :=
  seek skip f n (f x)

/-- The first `n` points from `x` on. -/
def orbit (n : ℕ) (x : α) : List α :=
  (List.range n).map fun d => f^[d] x

/-- The points behind `x` which are not skipped, in the order of the cycle. -/
def ahead (n : ℕ) (x : α) : List α :=
  (orbit f n (f x)).filter fun y => !skip y

variable {skip f}

theorem seek_of_not_skip {x : α} (h : skip x = false) (fuel : ℕ) : seek skip f fuel x = x := by
  cases fuel with
  | zero => rfl
  | succ fuel => rw [seek, h, if_neg Bool.false_ne_true]

/-- The search stops where the first point is not skipped. -/
theorem seek_eq {x : α} {d fuel : ℕ} (hbefore : ∀ e < d, skip (f^[e] x) = true)
    (hat : skip (f^[d] x) = false) (hfuel : d ≤ fuel) : seek skip f fuel x = f^[d] x := by
  induction d generalizing x fuel with
  | zero => exact seek_of_not_skip hat fuel
  | succ d ih =>
      obtain ⟨fuel, rfl⟩ : ∃ m, fuel = m + 1 := ⟨fuel - 1, by omega⟩
      have hx : skip x = true := hbefore 0 (Nat.succ_pos d)
      rw [seek, hx, if_pos rfl, Function.iterate_succ_apply]
      exact ih (fun e he => hbefore (e + 1) (Nat.succ_lt_succ he)) hat (by omega)

@[simp]
theorem length_orbit (n : ℕ) (x : α) : (orbit f n x).length = n := by
  simp [orbit]

theorem getElem_orbit {n d : ℕ} (x : α) (h : d < (orbit f n x).length) :
    (orbit f n x)[d] = f^[d] x := by
  simp [orbit]

/-- A point is found in front, or every point is skipped. -/
theorem ahead_cases (skip : α → Bool) (f : α → α) (n : ℕ) (x : α) :
    ahead skip f n x = [] ∨ ∃ d < n, (∀ e < d, skip (f^[e] (f x)) = true) ∧
      skip (f^[d] (f x)) = false := by
  rcases h : (ahead skip f n x) with _ | ⟨p, ps⟩
  · exact Or.inl rfl
  · have hex : ∃ d, d < n ∧ skip (f^[d] (f x)) = false := by
      have hp : p ∈ ahead skip f n x := h ▸ List.mem_cons_self
      obtain ⟨hmem, hskip⟩ := List.mem_filter.mp hp
      obtain ⟨d, hd, rfl⟩ := List.mem_map.mp hmem
      exact ⟨d, List.mem_range.mp hd, by simpa using hskip⟩
    classical
    obtain ⟨hd, hskip⟩ := Nat.find_spec hex
    refine Or.inr ⟨Nat.find hex, hd, fun e he => ?_, hskip⟩
    by_contra hne
    exact Nat.find_min hex he ⟨he.trans hd, by simpa using hne⟩

section Cycle

variable {n : ℕ} {x : α} (hx : f^[n] x = x)

include hx

/-- Along a cycle the points from a later one on are a rotation. -/
theorem orbit_iterate {m : ℕ} (hm : m ≤ n) : orbit f n (f^[m] x) = (orbit f n x).rotate m := by
  refine List.ext_getElem (by simp) fun i hi hi' => ?_
  have hin : i < n := by simpa using hi
  rw [List.getElem_rotate, getElem_orbit, getElem_orbit, ← Function.iterate_add_apply]
  simp only [length_orbit]
  rcases Nat.lt_or_ge (i + m) n with hlt | hge
  · rw [Nat.mod_eq_of_lt hlt]
  · have hmod : (i + m) % n = i + m - n := by
      rw [Nat.mod_eq_sub_mod hge, Nat.mod_eq_of_lt (by omega)]
    have hsum : i + m = (i + m - n) + n := by omega
    rw [hmod, hsum, Function.iterate_add_apply, hx, Nat.add_sub_cancel]

/-- What lies ahead of a point, and what lies ahead of the next one. -/
theorem ahead_next (hne : ahead skip f n x ≠ []) :
    ∃ ps, ahead skip f n x = next skip f n x :: ps ∧
      ahead skip f n (next skip f n x) = ps ++ [next skip f n x] := by
  obtain hnil | ⟨d, hd, hbefore, hat⟩ := ahead_cases skip f n x
  · exact absurd hnil hne
  have hnext : next skip f n x = f^[d] (f x) := seek_eq hbefore hat hd.le
  have hfx : f^[n] (f x) = f x := by
    rw [← Function.iterate_succ_apply, Function.iterate_succ_apply', hx]
  have hlen : d < (orbit f n (f x)).length := by simpa using hd
  have hsplit : orbit f n (f x) = (orbit f n (f x)).take d ++ f^[d] (f x) ::
      (orbit f n (f x)).drop (d + 1) := by
    have hdrop := List.drop_eq_getElem_cons hlen
    rw [getElem_orbit] at hdrop
    rw [← hdrop, List.take_append_drop]
  have hskipped : ((orbit f n (f x)).take d).filter (fun y => !skip y) = [] := by
    refine List.filter_eq_nil_iff.mpr fun y hy => ?_
    obtain ⟨e, he, rfl⟩ := List.getElem_of_mem hy
    have hed : e < d := lt_of_lt_of_le he (List.length_take_le _ _)
    rw [List.getElem_take, getElem_orbit, hbefore e hed]
    simp
  have hrotate : orbit f n (f (f^[d] (f x))) =
      (orbit f n (f x)).drop (d + 1) ++ ((orbit f n (f x)).take d ++ [f^[d] (f x)]) := by
    rw [← Function.iterate_succ_apply' f d, orbit_iterate hfx hd,
      List.rotate_eq_drop_append_take hlen, List.take_add_one,
      List.getElem?_eq_getElem hlen, getElem_orbit, Option.toList_some]
  have hahead := congrArg (List.filter fun y => !skip y) hsplit
  rw [List.filter_append, hskipped, List.nil_append,
    List.filter_cons_of_pos (by simp [hat])] at hahead
  refine ⟨((orbit f n (f x)).drop (d + 1)).filter fun y => !skip y, ?_, ?_⟩
  · rw [hnext, ahead, hahead]
  · rw [hnext, ahead, hrotate, List.filter_append, List.filter_append, hskipped,
      List.nil_append, List.filter_cons_of_pos (by simp [hat]), List.filter_nil]

theorem iterate_iterate_cycle (m : ℕ) : f^[n] (f^[m] x) = f^[m] x := by
  rw [← Function.iterate_add_apply, Nat.add_comm, Function.iterate_add_apply, hx]

theorem next_cycle (hne : ahead skip f n x ≠ []) :
    f^[n] (next skip f n x) = next skip f n x := by
  obtain hnil | ⟨d, hd, hbefore, hat⟩ := ahead_cases skip f n x
  · exact absurd hnil hne
  · have hnext : next skip f n x = f^[d] (f x) := seek_eq hbefore hat hd.le
    rw [hnext, ← Function.iterate_succ_apply]
    exact iterate_iterate_cycle hx (d + 1)

/-- The points which repeated steps visit are the ones ahead, in turn. -/
theorem map_iterate_next {k : ℕ} (hk : k ≤ (ahead skip f n x).length) :
    (List.range k).map (fun j => (next skip f n)^[j + 1] x) = (ahead skip f n x).take k := by
  induction k generalizing x with
  | zero => simp
  | succ k ih =>
      have hne : ahead skip f n x ≠ [] := List.ne_nil_of_length_pos (by omega)
      obtain ⟨ps, hahead, hnext⟩ := ahead_next hx hne
      have hkps : k ≤ ps.length := by
        rw [hahead, List.length_cons] at hk
        omega
      have hrest := ih (next_cycle hx hne) (by rw [hnext, List.length_append]; omega)
      rw [hnext, List.take_append_of_le_length hkps] at hrest
      rw [List.range_succ_eq_map, List.map_cons, List.map_map, hahead, List.take_succ_cons,
        ← hrest]
      rfl

/-- A point which is not skipped is itself the last one ahead of it. -/
theorem ahead_eq_append (hskip : skip x = false) (hn : 0 < n) :
    ∃ ps, ahead skip f n x = ps ++ [x] := by
  obtain ⟨m, rfl⟩ : ∃ m, n = m + 1 := ⟨n - 1, by omega⟩
  have hlast : orbit f (m + 1) (f x) = orbit f m (f x) ++ [x] := by
    rw [orbit, List.range_succ, List.map_append, List.map_singleton,
      ← Function.iterate_succ_apply, hx]
    rfl
  rw [ahead, hlast, List.filter_append, List.filter_cons_of_pos (by simp [hskip])]
  exact ⟨_, rfl⟩

/-- After as many steps as there are points which are not skipped, the walk is back. -/
theorem iterate_next_length (hskip : skip x = false) (hn : 0 < n) :
    (next skip f n)^[(ahead skip f n x).length] x = x := by
  obtain ⟨ps, hps⟩ := ahead_eq_append hx hskip hn
  have hvisits := map_iterate_next hx (Nat.le_refl (ahead skip f n x).length)
  have hlen : (ahead skip f n x).length = ps.length + 1 := by simp [hps]
  rw [List.take_length, hlen, List.range_succ, List.map_append, hps] at hvisits
  rw [hlen]
  exact List.singleton_inj.mp (List.append_inj_right hvisits (by simp))

/-- The next point is one of those ahead. -/
theorem next_mem_ahead (hskip : skip x = false) (hn : 0 < n) :
    next skip f n x ∈ ahead skip f n x := by
  obtain ⟨ps, hps⟩ := ahead_eq_append hx hskip hn
  have hne : ahead skip f n x ≠ [] := by simp [hps]
  obtain ⟨rest, hahead, -⟩ := ahead_next hx hne
  rw [hahead]
  exact List.mem_cons_self

section Symm

variable {g : α → α} (hg : ∀ d, g (f^[d + 1] x) = f^[d] x)

omit hx

include hg

/-- Steps the other way run through the cycle backwards. -/
theorem iterate_symm {d e : ℕ} (he : e ≤ d) : g^[e] (f^[d] x) = f^[d - e] x := by
  induction e with
  | zero => rfl
  | succ e ih =>
      have hstep : d - e = (d - (e + 1)) + 1 := by omega
      rw [Function.iterate_succ_apply', ih (by omega), hstep, hg]

include hx

theorem iterate_symm_cycle : g^[n] x = x := by
  have hback := iterate_symm hg (Nat.le_refl n)
  rwa [hx, Nat.sub_self] at hback

/-- The search the other way comes back. -/
theorem next_next_symm (hskip : skip x = false) (hn : 0 < n) :
    next skip g n (next skip f n x) = x := by
  obtain hnil | ⟨d, hd, hbefore, hat⟩ := ahead_cases skip f n x
  · obtain ⟨ps, hps⟩ := ahead_eq_append hx hskip hn
    rw [hps] at hnil
    simp at hnil
  have hnext : next skip f n x = f^[d + 1] x := seek_eq hbefore hat hd.le
  rw [hnext, next, hg]
  have hseek : seek skip g n (f^[d] x) = g^[d] (f^[d] x) := by
    refine seek_eq (fun e he => ?_) ?_ hd.le
    · have hstep : d - e = (d - e - 1) + 1 := by omega
      rw [iterate_symm hg he.le, hstep]
      exact hbefore (d - e - 1) (by omega)
    · rw [iterate_symm hg (Nat.le_refl d), Nat.sub_self]
      exact hskip
  rw [hseek, iterate_symm hg (Nat.le_refl d), Nat.sub_self]
  rfl

end Symm

end Cycle

end Skipping
