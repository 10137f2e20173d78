import Mathlib.Data.List.Nodup
import Mathlib.Data.Nat.Notation

/-!
# Stretches of a signal

A signal is on or off at each tick, from the first tick on.  A stretch is a longest sequence of
ticks at which it is on, as far as it has been seen.
-/

namespace Stretch

/-- For how many ticks the signal has been on. -/
def held (p : ℕ → Bool) : ℕ → ℕ
  | 0 => 0
  | t + 1 => if p (t + 1) then held p t + 1 else 0

/-- Among the first `n` ticks the signal is on from `a` up to `b`, and no longer. -/
structure IsStretch (p : ℕ → Bool) (n a b : ℕ) : Prop where
  pos : 1 ≤ a
  lt : a < b
  le : b ≤ n + 1
  inside : ∀ t, a ≤ t → t < b → p t = true
  before : p (a - 1) = false
  after : b ≤ n → p b = false

variable {p : ℕ → Bool} {n a b t : ℕ}

theorem held_of_off (h : p t = false) : held p t = 0 := by
  cases t with
  | zero => rfl
  | succ t => rw [held, h, if_neg Bool.false_ne_true]

theorem held_succ_of_on (h : p (t + 1) = true) : held p (t + 1) = held p t + 1 := by
  rw [held, if_pos h]

theorem held_pos_iff (h : p 0 = false) : 0 < held p t ↔ p t = true := by
  constructor
  · intro hpos
    by_contra hoff
    rw [held_of_off ((Bool.not_eq_true _).mp hoff)] at hpos
    exact Nat.lt_irrefl 0 hpos
  · intro hon
    cases t with
    | zero => cases h.symm.trans hon
    | succ t =>
        rw [held_succ_of_on hon]
        exact Nat.succ_pos _

/-- Inside a stretch the ticks count from its first one. -/
theorem IsStretch.held_eq (h : IsStretch p n a b) (ha : a ≤ t) (hb : t < b) :
    held p t = t - a + 1 := by
  obtain ⟨k, rfl⟩ := Nat.exists_eq_add_of_le ha
  induction k with
  | zero =>
      obtain ⟨a, rfl⟩ := Nat.exists_eq_add_of_le' h.pos
      have hoff : p a = false := h.before
      rw [Nat.add_zero, held_succ_of_on (h.inside _ (Nat.le_refl _) h.lt), held_of_off hoff]
      omega
  | succ k ih =>
      have hon := h.inside (a + (k + 1)) ha hb
      have hprev := ih (Nat.le_add_right _ _) (by omega)
      rw [← Nat.add_assoc] at hon ⊢
      rw [held_succ_of_on hon, hprev]
      omega

theorem IsStretch.held_eq_iff (h : IsStretch p n a b) (ha : a ≤ t) (hb : t < b) {k : ℕ}
    (hk : 1 ≤ k) : held p t = k ↔ t = a + k - 1 := by
  rw [h.held_eq ha hb]
  omega

theorem exists_start (h0 : p 0 = false) (ht : p t = true) :
    ∃ a, 1 ≤ a ∧ a ≤ t ∧ p (a - 1) = false ∧ ∀ k, a ≤ k → k ≤ t → p k = true := by
  induction t with
  | zero => cases h0.symm.trans ht
  | succ t ih =>
      cases hprev : p t with
      | false =>
          refine ⟨t + 1, Nat.le_add_left _ _, Nat.le_refl _, hprev, fun k hle hge => ?_⟩
          rwa [Nat.le_antisymm hge hle]
      | true =>
          obtain ⟨a, hpos, hle, hbefore, hall⟩ := ih hprev
          refine ⟨a, hpos, Nat.le_succ_of_le hle, hbefore, fun k hak hk => ?_⟩
          rcases Nat.lt_or_eq_of_le hk with hlt | rfl
          · exact hall k hak (Nat.le_of_lt_succ hlt)
          · exact ht

theorem exists_end (ht : p t = true) (hn : t ≤ n) :
    ∃ b, t < b ∧ b ≤ n + 1 ∧ (b ≤ n → p b = false) ∧ ∀ k, t ≤ k → k < b → p k = true := by
  obtain ⟨d, rfl⟩ := Nat.exists_eq_add_of_le hn
  induction d generalizing t with
  | zero =>
      refine ⟨t + 1, Nat.lt_succ_self _, Nat.le_refl _, fun hle => by omega, fun k hle hlt => ?_⟩
      rwa [Nat.le_antisymm (Nat.le_of_lt_succ hlt) hle]
  | succ d ih =>
      have hself : ∀ k, t ≤ k → k < t + 1 → p k = true := by
        intro k hle hlt
        rwa [Nat.le_antisymm (Nat.le_of_lt_succ hlt) hle]
      cases hnext : p (t + 1) with
      | false => exact ⟨t + 1, Nat.lt_succ_self _, by omega, fun _ => hnext, hself⟩
      | true =>
          obtain ⟨b, hlt, hle, hafter, hall⟩ := ih hnext (Nat.le_add_right _ _)
          refine ⟨b, by omega, by omega, fun hb => hafter (by omega), fun k hkle hk => ?_⟩
          rcases Nat.lt_or_eq_of_le hkle with hgt | rfl
          · exact hall k hgt hk
          · exact ht

/-- Every tick at which the signal is on is in a stretch. -/
theorem exists_isStretch (h0 : p 0 = false) (ht : p t = true) (hn : t ≤ n) :
    ∃ a b, IsStretch p n a b ∧ a ≤ t ∧ t < b := by
  obtain ⟨a, hpos, ha, hbefore, hfront⟩ := exists_start h0 ht
  obtain ⟨b, hb, hle, hafter, hback⟩ := exists_end ht hn
  refine ⟨a, b, ⟨hpos, by omega, hle, fun k hak hkb => ?_, hbefore, hafter⟩, ha, hb⟩
  rcases Nat.le_total k t with hkt | htk
  · exact hfront k hak hkt
  · exact hback k htk hkb

/-! ### What happens during a stretch -/

/-- What happens from one tick to another, with the ticks. -/
def during {ο : Type*} (out : ℕ → List ο) (a b : ℕ) : List (ℕ × ο) :=
  (List.range' a (b + 1 - a)).flatMap fun t => (out t).map (t, ·)

variable {ο : Type*} {out : ℕ → List ο}

theorem during_eq_nil (h : ∀ k, a ≤ k → k ≤ b → out k = []) : during out a b = [] := by
  refine List.flatMap_eq_nil_iff.mpr fun k hk => ?_
  obtain ⟨hak, hkb⟩ := List.mem_range'_1.mp hk
  rw [h k hak (by omega), List.map_nil]

theorem flatMap_eq_of_ne {α : Type*} {l : List α} {f : α → List ο} {x : α} (hl : l.Nodup)
    (hx : x ∈ l) (h : ∀ y ∈ l, y ≠ x → f y = []) : l.flatMap f = f x := by
  obtain ⟨front, back, rfl⟩ := List.append_of_mem hx
  obtain ⟨hfront, hback⟩ : x ∉ front ∧ x ∉ back := by
    have hcons := List.nodup_middle.mp hl
    rw [List.nodup_cons, List.mem_append, not_or] at hcons
    exact hcons.1
  have hnil : front.flatMap f = [] := List.flatMap_eq_nil_iff.mpr fun y hy =>
    h y (List.mem_append_left _ hy) fun heq => hfront (heq ▸ hy)
  have hnil' : back.flatMap f = [] := List.flatMap_eq_nil_iff.mpr fun y hy =>
    h y (List.mem_append_right _ (List.mem_cons_of_mem x hy)) fun heq => hback (heq ▸ hy)
  rw [List.flatMap_append, List.flatMap_cons, hnil, hnil', List.append_nil, List.nil_append]

/-- Only one tick has anything. -/
theorem during_eq_single {e : ο} (ha : a ≤ t) (hb : t ≤ b) (ht : out t = [e])
    (h : ∀ k, a ≤ k → k ≤ b → k ≠ t → out k = []) : during out a b = [(t, e)] := by
  rw [during, flatMap_eq_of_ne (x := t) List.nodup_range' (List.mem_range'_1.mpr ⟨ha, by omega⟩)
    fun k hk hne => ?_, ht]
  · rfl
  · obtain ⟨hak, hkb⟩ := List.mem_range'_1.mp hk
    rw [h k hak (by omega) hne, List.map_nil]

end Stretch
