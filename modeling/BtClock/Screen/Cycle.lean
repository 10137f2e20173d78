import BtClock.Screen.Manager
import BtClock.Screen.RotationPlan
import BtClock.Transition.Skipping

/-!
# The cycle of the rotation

From an entry of the sequence which is not skipped, the steps forward visit the entries which
are not skipped one after another and come back, and a step back undoes a step forward.
-/

namespace BtClock

namespace ScreenManager

variable (s : ScreenManager)

/-- Is the entry of that index skipped? -/
def skipsAt (idx : ℕ) : Bool :=
  s.skips (s.rotationSequence.getD idx 0)

/-- The indices of the entries which are not skipped. -/
def shown : List ℕ :=
  (List.range s.rotationSequence.length).filter fun idx => !s.skipsAt idx

/-- A row of steps forward, taken at the given times. -/
def nextScreens (times : List ℤ) : ScreenManager :=
  times.foldl nextScreen s

/-- The states after each of a row of steps. -/
def visits (s : ScreenManager) : List ℤ → List ScreenManager
  | [] => []
  | nowMs :: times => s.nextScreen nowMs :: visits (s.nextScreen nowMs) times

/-- The manager shows an entry of the sequence which is not skipped, under no overlay. -/
structure AtEntry : Prop where
  idx_lt : s.rotationIdx < s.rotationSequence.length
  slot_eq : s.slot = s.rotationSequence.getD s.rotationIdx 0
  not_skipped : s.skips s.slot = false
  no_overlay : s.overlayActive = false

/-- The step of the planner on the inputs of the manager. -/
def plannedStep (direction : ℤ) : ℕ × ℕ :=
  RotationPlan.stepSequence s.rotationSequence s.rotationIdx direction
    (s.skipPredicate.map fun pred slot => pred (s.kindForSlot slot))

/-- The manager on another entry. -/
def jump (idx : ℕ) : ScreenManager :=
  { s.clearOverlays with
    rotationIdx := idx
    slot := s.rotationSequence.getD idx 0 }

/-! ### One step -/

theorem advanceInSequenceLoop_eq_seek (direction : ℤ) (guard idx : ℕ) :
    s.advanceInSequenceLoop direction guard idx =
      Skipping.seek s.skipsAt (stepCyclic s.rotationSequence.length direction) guard idx := by
  induction guard generalizing idx with
  | zero => rfl
  | succ guard ih => rw [advanceInSequenceLoop, ih, Skipping.seek, skipsAt]

/-- A step from an entry is a jump to the next one. -/
theorem stepRotation_eq_jump (hne : s.rotationSequence ≠ []) (direction : ℤ) :
    s.clearOverlays.stepRotation direction false =
      s.jump (Skipping.next s.skipsAt (stepCyclic s.rotationSequence.length direction)
        s.rotationSequence.length s.rotationIdx) := by
  have hseq : s.clearOverlays.rotationSequence ≠ [] := hne
  have hstep : s.clearOverlays.stepRotation direction false =
      ({ s.clearOverlays with
        rotationIdx := stepCyclic s.rotationSequence.length direction s.rotationIdx } :
          ScreenManager).advanceInSequence direction := by
    rw [stepRotation, if_neg hseq]
    rfl
  rw [hstep, advanceInSequence, if_neg hseq, advanceInSequenceLoop_eq_seek]
  rfl

theorem stepSequenceLoop_eq_seek (direction : ℤ) (guard idx : ℕ) :
    RotationPlan.stepSequenceLoop s.rotationSequence direction
        (s.skipPredicate.map fun pred slot => pred (s.kindForSlot slot)) guard idx =
      Skipping.seek s.skipsAt (stepCyclic s.rotationSequence.length direction) guard idx := by
  have hskip : ∀ idx, ((s.skipPredicate.map fun pred slot => pred (s.kindForSlot slot)).any
      fun skip => skip (s.rotationSequence.getD idx 0)) = s.skipsAt idx := by
    intro idx
    rw [skipsAt, skips]
    cases s.skipPredicate <;> rfl
  induction guard generalizing idx with
  | zero => rfl
  | succ guard ih =>
      rw [RotationPlan.stepSequenceLoop, hskip, Skipping.seek, ih]
      rfl

theorem plannedStep_eq (hne : s.rotationSequence ≠ []) (direction : ℤ) :
    s.plannedStep direction =
      let idx := Skipping.next s.skipsAt (stepCyclic s.rotationSequence.length direction)
        s.rotationSequence.length s.rotationIdx
      (s.rotationSequence.getD idx 0, idx) := by
  have hlen : s.rotationSequence.length ≠ 0 := mt List.length_eq_zero_iff.mp hne
  rw [plannedStep, RotationPlan.stepSequence, if_neg hlen]
  simp only [stepSequenceLoop_eq_seek]
  rfl

section Navigate

variable {s} (hoverlay : s.overlayActive = false) (hne : s.rotationSequence ≠ [])

include hoverlay hne

theorem nextScreen_eq (nowMs : ℤ) :
    s.nextScreen nowMs =
      (s.jump (Skipping.next s.skipsAt (stepCyclic s.rotationSequence.length 1)
        s.rotationSequence.length s.rotationIdx)).markNavigation nowMs := by
  rw [nextScreen, hoverlay, stepRotation_eq_jump s hne]

theorem prevScreen_eq (nowMs : ℤ) :
    s.prevScreen nowMs =
      (s.jump (Skipping.next s.skipsAt (stepCyclic s.rotationSequence.length (-1))
        s.rotationSequence.length s.rotationIdx)).markNavigation nowMs := by
  rw [prevScreen, hoverlay, stepRotation_eq_jump s hne]

/-- Both steps are those of the planner. -/
theorem steps_eq_plannedStep (nowMs : ℤ) :
    ((s.nextScreen nowMs).slot, (s.nextScreen nowMs).rotationIdx) = s.plannedStep 1 ∧
      ((s.prevScreen nowMs).slot, (s.prevScreen nowMs).rotationIdx) = s.plannedStep (-1) := by
  rw [nextScreen_eq hoverlay hne, prevScreen_eq hoverlay hne, plannedStep_eq s hne,
    plannedStep_eq s hne]
  exact ⟨rfl, rfl⟩

end Navigate

/-! ### The indices as a cycle -/

theorem iterate_stepCyclic {n i : ℕ} (h : i < n) (d : ℕ) :
    (stepCyclic n 1)^[d] i = (i + d) % n := by
  induction d with
  | zero => exact (Nat.mod_eq_of_lt h).symm
  | succ d ih =>
      rw [Function.iterate_succ_apply', ih, stepCyclic, if_pos (by decide), Nat.mod_add_mod]
      rfl

theorem iterate_stepCyclic_length {n i : ℕ} (h : i < n) : (stepCyclic n 1)^[n] i = i := by
  rw [iterate_stepCyclic h, Nat.add_mod_right, Nat.mod_eq_of_lt h]

theorem stepCyclic_neg_stepCyclic {n i : ℕ} (h : i < n) (d : ℕ) :
    stepCyclic n (-1) ((stepCyclic n 1)^[d + 1] i) = (stepCyclic n 1)^[d] i := by
  have hpos : 0 < n := Nat.zero_lt_of_lt h
  rw [Function.iterate_succ_apply', iterate_stepCyclic h]
  have hj := Nat.mod_lt (i + d) hpos
  generalize (i + d) % n = j at hj
  have hforth : stepCyclic n 1 j = (j + 1) % n := if_pos (by decide)
  have hback : stepCyclic n (-1) (stepCyclic n 1 j) = (stepCyclic n 1 j + n - 1) % n :=
    if_neg (by decide)
  rw [hback, hforth]
  rcases Nat.lt_or_ge (j + 1) n with hlt | hge
  · rw [Nat.mod_eq_of_lt hlt, Nat.add_right_comm, Nat.add_sub_cancel, Nat.add_mod_right,
      Nat.mod_eq_of_lt hj]
  · obtain rfl : j + 1 = n := by omega
    rw [Nat.mod_self, Nat.zero_add, Nat.add_sub_cancel, Nat.mod_eq_of_lt hj]

theorem orbit_stepCyclic_perm {n i : ℕ} (h : i < n) :
    (Skipping.orbit (stepCyclic n 1) n i).Perm (List.range n) := by
  have hrotate : Skipping.orbit (stepCyclic n 1) n i = (List.range n).rotate i := by
    refine List.ext_getElem (by simp) fun d hd hd' => ?_
    rw [Skipping.getElem_orbit, iterate_stepCyclic h, List.getElem_rotate, List.getElem_range,
      List.length_range, Nat.add_comm]
  rw [hrotate]
  exact List.rotate_perm _ _

/-! ### A row of steps -/

/-- The next index of the rotation. -/
def nextIdx : ℕ → ℕ :=
  Skipping.next s.skipsAt (stepCyclic s.rotationSequence.length 1) s.rotationSequence.length

section Entry

variable {s}

theorem AtEntry.ne_nil (h : s.AtEntry) : s.rotationSequence ≠ [] :=
  List.ne_nil_of_length_pos (Nat.zero_lt_of_lt h.idx_lt)

theorem AtEntry.skipsAt_eq_false (h : s.AtEntry) : s.skipsAt s.rotationIdx = false := by
  rw [skipsAt, ← h.slot_eq, h.not_skipped]

theorem AtEntry.nextScreen_eq (h : s.AtEntry) (nowMs : ℤ) :
    s.nextScreen nowMs = (s.jump (s.nextIdx s.rotationIdx)).markNavigation nowMs :=
  ScreenManager.nextScreen_eq h.no_overlay h.ne_nil nowMs

theorem AtEntry.prevScreen_eq (h : s.AtEntry) (nowMs : ℤ) :
    s.prevScreen nowMs =
      (s.jump (Skipping.next s.skipsAt (stepCyclic s.rotationSequence.length (-1))
        s.rotationSequence.length s.rotationIdx)).markNavigation nowMs :=
  ScreenManager.prevScreen_eq h.no_overlay h.ne_nil nowMs

/-- The indices in front of an entry are those which are not skipped, in some order. -/
theorem AtEntry.ahead_perm (h : s.AtEntry) :
    (Skipping.ahead s.skipsAt (stepCyclic s.rotationSequence.length 1)
      s.rotationSequence.length s.rotationIdx).Perm s.shown :=
  (orbit_stepCyclic_perm (stepCyclic_lt (Nat.zero_lt_of_lt h.idx_lt) 1 _)).filter _

/-- What the search finds in either direction is not skipped. -/
theorem AtEntry.next_mem_shown (h : s.AtEntry) {direction : ℤ}
    (hcycle : (stepCyclic s.rotationSequence.length direction)^[s.rotationSequence.length]
      s.rotationIdx = s.rotationIdx) :
    Skipping.next s.skipsAt (stepCyclic s.rotationSequence.length direction)
      s.rotationSequence.length s.rotationIdx ∈ s.shown := by
  have hpos := Nat.zero_lt_of_lt h.idx_lt
  obtain ⟨hmem, hskip⟩ := List.mem_filter.mp
    (Skipping.next_mem_ahead hcycle h.skipsAt_eq_false hpos)
  obtain ⟨d, -, hd⟩ := List.mem_map.mp hmem
  refine List.mem_filter.mpr ⟨List.mem_range.mpr ?_, hskip⟩
  rw [← hd, ← Function.iterate_succ_apply, Function.iterate_succ_apply']
  exact stepCyclic_lt hpos direction _

theorem atEntry_jump {idx : ℕ} (hidx : idx ∈ s.shown) (nowMs : ℤ) :
    ((s.jump idx).markNavigation nowMs).AtEntry := by
  obtain ⟨hmem, hskip⟩ := List.mem_filter.mp hidx
  have hshown : s.skipsAt idx = false := by simpa using hskip
  exact ⟨List.mem_range.mp hmem, rfl, hshown, rfl⟩

/-- A step from an entry lands on an entry. -/
theorem AtEntry.nextScreen (h : s.AtEntry) (nowMs : ℤ) : (s.nextScreen nowMs).AtEntry := by
  rw [h.nextScreen_eq]
  exact atEntry_jump (h.next_mem_shown (iterate_stepCyclic_length h.idx_lt)) nowMs

theorem AtEntry.prevScreen (h : s.AtEntry) (nowMs : ℤ) : (s.prevScreen nowMs).AtEntry := by
  have hcycle := Skipping.iterate_symm_cycle (iterate_stepCyclic_length h.idx_lt)
    (stepCyclic_neg_stepCyclic h.idx_lt)
  rw [h.prevScreen_eq]
  exact atEntry_jump (h.next_mem_shown hcycle) nowMs

/-- A step changes neither the sequence nor what is skipped. -/
theorem AtEntry.nextIdx_nextScreen (h : s.AtEntry) (nowMs : ℤ) :
    (s.nextScreen nowMs).nextIdx = s.nextIdx := by
  rw [h.nextScreen_eq]
  rfl

/-- The indices which a row of steps visits. -/
theorem AtEntry.map_rotationIdx_visits (h : s.AtEntry) (times : List ℤ) :
    (s.visits times).map rotationIdx =
      (List.range times.length).map fun j => s.nextIdx^[j + 1] s.rotationIdx := by
  induction times generalizing s with
  | nil => rfl
  | cons nowMs times ih =>
      rw [visits, List.map_cons, ih (h.nextScreen nowMs), h.nextIdx_nextScreen,
        h.nextScreen_eq, List.length_cons, List.range_succ_eq_map, List.map_cons, List.map_map]
      rfl

/-- Every state of a row of steps stands on an entry which is not skipped. -/
theorem AtEntry.of_mem_visits (h : s.AtEntry) {times : List ℤ} {s' : ScreenManager}
    (hmem : s' ∈ s.visits times) : s'.AtEntry := by
  induction times generalizing s with
  | nil => cases hmem
  | cons nowMs times ih =>
      rcases List.mem_cons.mp hmem with rfl | hmem
      · exact h.nextScreen nowMs
      · exact ih (h.nextScreen nowMs) hmem

/-- As many steps as there are entries which are not skipped visit each of them once. -/
theorem AtEntry.visits_perm (h : s.AtEntry) {times : List ℤ}
    (hlen : times.length = s.shown.length) :
    ((s.visits times).map rotationIdx).Perm s.shown := by
  have hk : s.shown.length = (Skipping.ahead s.skipsAt
      (stepCyclic s.rotationSequence.length 1) s.rotationSequence.length
      s.rotationIdx).length := h.ahead_perm.length_eq.symm
  rw [h.map_rotationIdx_visits, hlen, hk]
  have hvisits := Skipping.map_iterate_next (iterate_stepCyclic_length h.idx_lt)
    (Nat.le_refl (Skipping.ahead s.skipsAt _ _ _).length)
  rw [List.take_length] at hvisits
  rw [nextIdx, hvisits]
  exact h.ahead_perm

theorem AtEntry.nextScreens (h : s.AtEntry) (times : List ℤ) :
    (s.nextScreens times).AtEntry ∧
      (s.nextScreens times).rotationSequence = s.rotationSequence ∧
      (s.nextScreens times).rotationIdx = s.nextIdx^[times.length] s.rotationIdx := by
  induction times generalizing s with
  | nil => exact ⟨h, rfl, rfl⟩
  | cons nowMs times ih =>
      obtain ⟨hentry, hseq, hidx⟩ := ih (h.nextScreen nowMs)
      rw [h.nextIdx_nextScreen] at hidx
      rw [h.nextScreen_eq] at hseq hidx hentry
      refine ⟨?_, ?_, ?_⟩
      all_goals rw [ScreenManager.nextScreens, List.foldl_cons, h.nextScreen_eq]
      · exact hentry
      · exact hseq
      · exact hidx

/-- ... and come back to the start. -/
theorem AtEntry.nextScreens_length_shown (h : s.AtEntry) {times : List ℤ}
    (hlen : times.length = s.shown.length) :
    (s.nextScreens times).rotationIdx = s.rotationIdx ∧
      (s.nextScreens times).slot = s.slot := by
  obtain ⟨hentry, hseq, hidx⟩ := h.nextScreens times
  have hback : s.nextIdx^[times.length] s.rotationIdx = s.rotationIdx := by
    rw [hlen, ← h.ahead_perm.length_eq]
    exact Skipping.iterate_next_length (iterate_stepCyclic_length h.idx_lt)
      h.skipsAt_eq_false (Nat.zero_lt_of_lt h.idx_lt)
  have hstart : (s.nextScreens times).rotationIdx = s.rotationIdx := hidx.trans hback
  refine ⟨hstart, ?_⟩
  rw [hentry.slot_eq, hseq, hstart, h.slot_eq]

/-- A step back undoes a step forward. -/
theorem AtEntry.prevScreen_nextScreen (h : s.AtEntry) (nowMs nowMs' : ℤ) :
    ((s.nextScreen nowMs).prevScreen nowMs').rotationIdx = s.rotationIdx ∧
      ((s.nextScreen nowMs).prevScreen nowMs').slot = s.slot := by
  have hback := Skipping.next_next_symm (iterate_stepCyclic_length h.idx_lt)
    (stepCyclic_neg_stepCyclic h.idx_lt) h.skipsAt_eq_false (Nat.zero_lt_of_lt h.idx_lt)
  have hnext := h.nextScreen nowMs
  rw [ScreenManager.prevScreen_eq hnext.no_overlay hnext.ne_nil, h.nextScreen_eq]
  refine ⟨hback, ?_⟩
  rw [h.slot_eq]
  exact congrArg (fun idx => s.rotationSequence.getD idx 0) hback

/-- From an entry which is not skipped, `k` steps visit each of the `k` entries which are not
skipped once and come back; no step shows a skipped one, a step back undoes a step, and every
step is the planner's. -/
theorem AtEntry.rotation_cycle (h : s.AtEntry) :
    (∀ times : List ℤ, times.length = s.shown.length →
      ((s.visits times).map rotationIdx).Perm s.shown ∧
        (s.nextScreens times).rotationIdx = s.rotationIdx ∧
        (s.nextScreens times).slot = s.slot) ∧
    ∀ times : List ℤ, ∀ s' ∈ s :: s.visits times, ∀ nowMs nowMs',
      (s'.nextScreen nowMs).AtEntry ∧ (s'.prevScreen nowMs).AtEntry ∧
      ((s'.nextScreen nowMs).prevScreen nowMs').slot = s'.slot ∧
      ((s'.nextScreen nowMs).slot, (s'.nextScreen nowMs).rotationIdx) = s'.plannedStep 1 ∧
      ((s'.prevScreen nowMs).slot, (s'.prevScreen nowMs).rotationIdx) =
        s'.plannedStep (-1) := by
  refine ⟨fun times hlen => ⟨h.visits_perm hlen, h.nextScreens_length_shown hlen⟩, ?_⟩
  intro times s' hmem nowMs nowMs'
  have hentry : s'.AtEntry := by
    rcases List.mem_cons.mp hmem with rfl | hmem
    · exact h
    · exact h.of_mem_visits hmem
  obtain ⟨hnext, hprev⟩ := steps_eq_plannedStep hentry.no_overlay hentry.ne_nil nowMs
  exact ⟨hentry.nextScreen nowMs, hentry.prevScreen nowMs,
    (hentry.prevScreen_nextScreen nowMs nowMs').2, hnext, hprev⟩

end Entry

/-- Four entries, the first slot twice, with the clock skipped. -/
def repeatedEntries : ScreenManager :=
  { create 0 ["USD"] (by decide) with
    skipPredicate := some (· == .clock)
    rotationSequence := [0, 1, 0, 2] }

theorem rotation_cycle_repeatedEntries :
    ((repeatedEntries.visits [5, 6, 7]).map rotationIdx).Perm repeatedEntries.shown ∧
      (repeatedEntries.nextScreens [5, 6, 7]).rotationIdx = 0 ∧
      (repeatedEntries.nextScreens [5, 6, 7]).slot = 0 :=
  (AtEntry.rotation_cycle ⟨by decide, rfl, rfl, rfl⟩).1 [5, 6, 7] (by decide)

example : (repeatedEntries.visits [5, 6, 7]).map rotationIdx = [2, 3, 0] := by
  decide

end ScreenManager

end BtClock
