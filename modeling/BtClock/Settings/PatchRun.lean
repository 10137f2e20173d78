import BtClock.Settings.Blocks

/-!
# The run of the blocks of one request

The store passes from block to block, up to the first rejected one.
-/

namespace BtClock

namespace Settings

/-- The store after the blocks, of which the first rejected one is the last. -/
def storeAfter (bs : List PatchBlock) (prefs : Prefs) : Prefs :=
  applyWrites prefs (runBlocks bs prefs).writes

/-- Every block is accepted by the store which the ones before it leave. -/
def AllAccepted : List PatchBlock → Prefs → Prop
  | [], _ => True
  | block :: bs, prefs =>
      ∃ effect, block prefs = .ok effect ∧ AllAccepted bs (applyWrites prefs effect.writes)

theorem applyWrites_append (prefs : Prefs) (ws vs : List PrefsWrite) :
    applyWrites prefs (ws ++ vs) = applyWrites (applyWrites prefs ws) vs :=
  List.foldl_append ..

section Step

variable {block : PatchBlock} {bs : List PatchBlock} {prefs : Prefs}

theorem runBlocks_cons_error {e : PatchError} (h : block prefs = .error e) :
    (runBlocks (block :: bs) prefs).writes = [] ∧
      (runBlocks (block :: bs) prefs).result.status = e.status := by
  simp only [runBlocks, h, and_self]

theorem runBlocks_cons_ok {effect : Effect} (h : block prefs = .ok effect) :
    (runBlocks (block :: bs) prefs).writes =
        effect.writes ++ (runBlocks bs (applyWrites prefs effect.writes)).writes ∧
      (runBlocks (block :: bs) prefs).result.status =
        (runBlocks bs (applyWrites prefs effect.writes)).result.status := by
  simp only [runBlocks, h, and_self]

theorem storeAfter_cons_error {e : PatchError} (h : block prefs = .error e) :
    storeAfter (block :: bs) prefs = prefs := by
  rw [storeAfter, (runBlocks_cons_error h).1, applyWrites_nil]

theorem storeAfter_cons_ok {effect : Effect} (h : block prefs = .ok effect) :
    storeAfter (block :: bs) prefs = storeAfter bs (applyWrites prefs effect.writes) := by
  rw [storeAfter, (runBlocks_cons_ok h).1, applyWrites_append, storeAfter]

end Step

@[simp]
theorem storeAfter_nil (prefs : Prefs) : storeAfter [] prefs = prefs :=
  rfl

theorem status_eq_ok_iff (bs : List PatchBlock) (prefs : Prefs) :
    (runBlocks bs prefs).result.status = .ok ↔ AllAccepted bs prefs := by
  induction bs generalizing prefs with
  | nil => simp [runBlocks, AllAccepted]
  | cons block bs ih =>
      cases h : block prefs with
      | error e =>
          rw [(runBlocks_cons_error h).2]
          simp [AllAccepted, h, e.status_ne_ok]
      | ok effect =>
          rw [(runBlocks_cons_ok h).2, ih]
          simp [AllAccepted, h]

theorem allAccepted_append (bs cs : List PatchBlock) (prefs : Prefs) :
    AllAccepted (bs ++ cs) prefs ↔
      AllAccepted bs prefs ∧ AllAccepted cs (storeAfter bs prefs) := by
  induction bs generalizing prefs with
  | nil => simp [AllAccepted]
  | cons block bs ih =>
      cases h : block prefs with
      | error e => simp [AllAccepted, h]
      | ok effect => simp [AllAccepted, h, ih, storeAfter_cons_ok h]

/-- In an accepted run every block is accepted by some store. -/
theorem AllAccepted.exists_ok {bs : List PatchBlock} {prefs : Prefs}
    (h : AllAccepted bs prefs) {block : PatchBlock} (hmem : block ∈ bs) :
    ∃ store effect, block store = .ok effect := by
  induction bs generalizing prefs with
  | nil => cases hmem
  | cons b bs ih =>
      obtain ⟨effect, hb, hrest⟩ := h
      rcases List.mem_cons.mp hmem with rfl | hmem
      · exact ⟨prefs, effect, hb⟩
      · exact ih hrest hmem

/-- After a rejection the blocks behind are not run. -/
theorem storeAfter_append (bs cs : List PatchBlock) (prefs : Prefs) :
    (AllAccepted bs prefs ∧
        storeAfter (bs ++ cs) prefs = storeAfter cs (storeAfter bs prefs)) ∨
      (¬AllAccepted bs prefs ∧ storeAfter (bs ++ cs) prefs = storeAfter bs prefs) := by
  induction bs generalizing prefs with
  | nil => exact Or.inl ⟨trivial, rfl⟩
  | cons block bs ih =>
      cases h : block prefs with
      | error e =>
          refine Or.inr ⟨by simp [AllAccepted, h], ?_⟩
          rw [List.cons_append, storeAfter_cons_error h, storeAfter_cons_error h]
      | ok effect =>
          rw [List.cons_append, storeAfter_cons_ok h, storeAfter_cons_ok h]
          simpa [AllAccepted, h] using ih (applyWrites prefs effect.writes)

theorem storeAfter_append_of_accepted {bs : List PatchBlock} {prefs : Prefs}
    (h : AllAccepted bs prefs) (cs : List PatchBlock) :
    storeAfter (bs ++ cs) prefs = storeAfter cs (storeAfter bs prefs) := by
  rcases storeAfter_append bs cs prefs with ⟨-, heq⟩ | ⟨hnot, -⟩
  · exact heq
  · exact absurd h hnot

theorem storeAfter_append_of_not_accepted {bs : List PatchBlock} {prefs : Prefs}
    (h : ¬AllAccepted bs prefs) (cs : List PatchBlock) :
    storeAfter (bs ++ cs) prefs = storeAfter bs prefs := by
  rcases storeAfter_append bs cs prefs with ⟨hall, -⟩ | ⟨-, heq⟩
  · exact absurd hall h
  · exact heq

/-- A property which every accepted block keeps holds after the run. -/
theorem storeAfter_invariant {I : Prefs → Prop} {bs : List PatchBlock}
    (hstep : ∀ block ∈ bs, ∀ prefs effect, I prefs → block prefs = .ok effect →
      I (applyWrites prefs effect.writes))
    {prefs : Prefs} (h : I prefs) : I (storeAfter bs prefs) := by
  induction bs generalizing prefs with
  | nil => exact h
  | cons block bs ih =>
      cases hb : block prefs with
      | error e =>
          rw [storeAfter_cons_error hb]
          exact h
      | ok effect =>
          rw [storeAfter_cons_ok hb]
          apply ih fun b hmem => hstep b (List.mem_cons_of_mem _ hmem)
          exact hstep block List.mem_cons_self prefs effect h hb

/-- A key which no block writes keeps its value. -/
theorem storeAfter_frame {K : String → Prop} {bs : List PatchBlock}
    (h : ∀ block ∈ bs, WritesOnly K block) {key : String} (hkey : ¬K key) (prefs : Prefs) :
    storeAfter bs prefs key = prefs key := by
  apply storeAfter_invariant (I := fun store => store key = prefs key)
  · intro block hmem store effect hstore hb
    rw [(h block hmem).frame hb hkey, hstore]
  · rfl

/-- A rejected block with nothing but quiet ones before it. -/
theorem rejected_without_writes_iff (bs : List PatchBlock) (prefs : Prefs) :
    (¬AllAccepted bs prefs ∧ (runBlocks bs prefs).writes = []) ↔
      ∃ pre block post, bs = pre ++ block :: post ∧ (∀ q ∈ pre, Quiet q prefs) ∧
        Rejects block prefs := by
  induction bs with
  | nil => simp [AllAccepted]
  | cons b bs ih =>
      cases hb : b prefs with
      | error e =>
          constructor
          · intro _
            exact ⟨[], b, bs, rfl, nofun, e, hb⟩
          · intro _
            exact ⟨by simp [AllAccepted, hb], (runBlocks_cons_error hb).1⟩
      | ok effect =>
          rw [(runBlocks_cons_ok hb).1]
          constructor
          · intro h
            obtain ⟨hnot, hwrites⟩ := h
            obtain ⟨heffect, hrest⟩ := List.append_eq_nil_iff.mp hwrites
            rw [heffect, applyWrites_nil] at hrest
            have hnot' : ¬AllAccepted bs prefs := by
              intro hall
              exact hnot ⟨effect, hb, by rwa [heffect]⟩
            obtain ⟨pre, block, post, rfl, hquiet, hrej⟩ := ih.mp ⟨hnot', hrest⟩
            refine ⟨b :: pre, block, post, rfl, ?_, hrej⟩
            intro q hq
            rcases List.mem_cons.mp hq with rfl | hq
            · exact ⟨effect, hb, heffect⟩
            · exact hquiet q hq
          · rintro ⟨pre, block, post, hsplit, hquiet, hrej⟩
            cases pre with
            | nil =>
                obtain ⟨rfl, rfl⟩ := List.cons_eq_cons.mp hsplit
                obtain ⟨e, he⟩ := hrej
                rw [hb] at he
                cases he
            | cons q pre =>
                simp only [List.cons_append, List.cons.injEq] at hsplit
                obtain ⟨rfl, rfl⟩ := hsplit
                obtain ⟨effect', hb', heffect⟩ := hquiet b List.mem_cons_self
                rw [hb] at hb'
                cases hb'
                obtain ⟨hnot, hwrites⟩ := ih.mpr ⟨pre, block, post, rfl,
                  fun q hq => hquiet q (List.mem_cons_of_mem _ hq), hrej⟩
                simp [AllAccepted, hb, heffect, hnot, hwrites]

end Settings

end BtClock
