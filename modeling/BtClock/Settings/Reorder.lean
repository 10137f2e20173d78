import BtClock.Arith.Truncation
import BtClock.Settings.JoinedText
import BtClock.Settings.PatchRun
import Mathlib.Data.List.Dedup
import Mathlib.Data.List.Nodup
import Mathlib.Data.List.Perm.Subperm

/-!
# The order of the screens

A reorder which is accepted names distinct screens at distinct places, and is stored in the
order of the places.  Its completeness is decided by its size alone, so that it covers the
visible screens unless a hidden one takes the place of a visible one.
-/

namespace BtClock

namespace Settings

/-- The place and the screen of an entry, when it gives both. -/
def submitted (s : Json) : Option (Float × Int32) :=
  match s.getObjectItem "id", s.getObjectItem "order" with
  | some (.number id), some (.number order) => some (order, Double.castInt32 id)
  | _, _ => none

def visibleIds (ctx : DeviceContext) : List Int32 :=
  (ctx.screens.map ScreenInfo.id).filter (· ∉ ctx.hidden)

def catalogue (ctx : DeviceContext) : List Int32 :=
  (ctx.screens.map ScreenInfo.id).dedup

def effectiveCatalogue (ctx : DeviceContext) : List Int32 :=
  (catalogue ctx).filter (· ∉ ctx.hidden)

/-- The text lists the submitted screens, each once and in the order of the places. -/
structure Reorder (entries : List Json) (csv : String) (placed : List (Float × Int32)) :
    Prop where
  perm : (placed.map some).Perm (entries.map submitted)
  text : csv = joinCsv (placed.map fun p => toString p.2)
  increasing : placed.Pairwise fun p q => p.1.isNaN = false → q.1.isNaN = false → p.1 < q.1
  once : (placed.map Prod.snd).Nodup

/-- A reorder of the catalogue with every visible screen in it. -/
structure FullReorder (ctx : DeviceContext) (entries : List Json) (csv : String)
    (placed : List (Float × Int32)) : Prop extends Reorder entries csv placed where
  catalog : ∀ id ∈ placed.map Prod.snd, id ∈ ctx.screens.map ScreenInfo.id
  visible : ∀ id ∈ visibleIds ctx, id ∈ placed.map Prod.snd

/-- There is a catalogue, and a hidden screen is named only with the whole of it. -/
def NamesTheVisible (ctx : DeviceContext) (entries : List Json) : Prop :=
  ctx.screens ≠ [] ∧
    (entries.length = (catalogue ctx).length ∨
      ∀ s ∈ entries, ∀ p ∈ submitted s, p.2 ∉ ctx.hidden)

/-! ### The entries which are read -/

section Read

variable {catalog : List Int32} {len : ℕ}

/-- A place as the code compares it. -/
def truncated (p : Float × Int32) : Int32 × Int32 :=
  (Double.castInt32 p.1, p.2)

theorem readOrders_eq_ok {entries : List Json} {pairs result : List (Int32 × Int32)}
    (hids : (pairs.map Prod.snd).Nodup) (hplaces : (pairs.map Prod.fst).Nodup)
    (h : readOrders catalog len entries pairs = .ok result) :
    ∃ read : List (Float × Int32), entries.map submitted = read.map some ∧
      result = pairs ++ read.map truncated ∧ (result.map Prod.snd).Nodup ∧
      (result.map Prod.fst).Nodup ∧ (catalog ≠ [] → ∀ p ∈ read, p.2 ∈ catalog) := by
  induction entries generalizing pairs with
  | nil =>
      cases h
      exact ⟨[], rfl, (List.append_nil _).symm, hids, hplaces, nofun⟩
  | cons s entries ih =>
      rw [readOrders] at h
      split at h
      · rename_i id order hid horder
        have hread : submitted s = some (order, Double.castInt32 id) := by
          rw [submitted, hid, horder]
        dsimp only at h
        split_ifs at h with hunknown hdup hrange hplace
        have hids' : ((pairs ++ [truncated (order, Double.castInt32 id)]).map Prod.snd).Nodup := by
          rw [List.map_append]
          exact List.Nodup.append hids (List.nodup_singleton _)
            (List.disjoint_singleton.mpr hdup)
        have hplaces' :
            ((pairs ++ [truncated (order, Double.castInt32 id)]).map Prod.fst).Nodup := by
          rw [List.map_append]
          exact List.Nodup.append hplaces (List.nodup_singleton _)
            (List.disjoint_singleton.mpr hplace)
        obtain ⟨read, hmap, rfl, hnodup, hnodup', hcatalog⟩ := ih hids' hplaces' h
        refine ⟨(order, Double.castInt32 id) :: read, ?_, ?_, hnodup, hnodup', ?_⟩
        · rw [List.map_cons, List.map_cons, hread, hmap]
        · rw [List.map_cons, List.append_assoc, List.singleton_append]
        · intro hne p hp
          rcases List.mem_cons.mp hp with rfl | hp
          · by_contra hnot
            exact hunknown ⟨hne, hnot⟩
          · exact hcatalog hne p hp
      · cases h

end Read

/-! ### The text -/

/-- The order in which the entries are stored. -/
def placeLe (p q : Int32 × Int32) : Bool :=
  p.1 < q.1 || (p.1 = q.1 && p.2 ≤ q.2)

theorem placeLe_iff {p q : Int32 × Int32} :
    placeLe p q = true ↔ p.1 < q.1 ∨ p.1 = q.1 ∧ p.2 ≤ q.2 := by
  simp [placeLe]

theorem placeLe_trans {p q r : Int32 × Int32} (h : placeLe p q = true) (h' : placeLe q r = true) :
    placeLe p r = true := by
  rw [placeLe_iff] at h h' ⊢
  rcases h with h | ⟨heq, hle⟩
  · rcases h' with h' | ⟨heq', -⟩
    · exact .inl (Int32.lt_trans h h')
    · exact .inl (heq' ▸ h)
  · rcases h' with h' | ⟨heq', hle'⟩
    · exact .inl (heq ▸ h')
    · exact .inr ⟨heq.trans heq', Int32.le_trans hle hle'⟩

theorem placeLe_total (p q : Int32 × Int32) : (placeLe p q || placeLe q p) = true := by
  rw [Bool.or_eq_true, placeLe_iff, placeLe_iff]
  by_cases heq : p.1 = q.1
  · exact (Int32.le_total p.2 q.2).imp (fun hle => .inr ⟨heq, hle⟩) fun hle => .inr ⟨heq.symm, hle⟩
  · exact (Int32.lt_or_lt_of_ne heq).imp .inl .inl

def submittedLe (p q : Float × Int32) : Bool :=
  placeLe (truncated p) (truncated q)

theorem pairwise_submittedLe (read : List (Float × Int32)) :
    (read.mergeSort submittedLe).Pairwise fun p q => submittedLe p q = true := by
  apply List.pairwise_mergeSort
  · exact fun _ _ _ => placeLe_trans
  · exact fun _ _ => placeLe_total ..

theorem map_truncated_mergeSort (read : List (Float × Int32)) :
    (read.mergeSort submittedLe).map truncated = (read.map truncated).mergeSort placeLe := by
  apply List.map_mergeSort
  exact fun _ _ _ _ => rfl

/-- The text of the pairs is that of the entries in the order of their places. -/
theorem orderCsv_eq (read : List (Float × Int32)) (h : ((read.map truncated).map Prod.fst).Nodup) :
    ∃ placed : List (Float × Int32), placed.Perm read ∧
      orderCsv (read.map truncated) = joinCsv (placed.map fun p => toString p.2) ∧
      placed.Pairwise fun p q => Double.castInt32 p.1 < Double.castInt32 q.1 := by
  have hperm : (read.mergeSort submittedLe).Perm read := List.mergeSort_perm ..
  refine ⟨read.mergeSort submittedLe, hperm, ?_, ?_⟩
  · have hcsv : orderCsv (read.map truncated) =
        ((read.map truncated).mergeSort placeLe).foldl
          (fun csv p => appendCsv csv (toString p.2)) "" := rfl
    rw [hcsv, ← map_truncated_mergeSort, joinCsv, List.foldl_map, List.foldl_map]
    rfl
  · have hdistinct : (read.mergeSort submittedLe).Pairwise fun p q =>
        Double.castInt32 p.1 ≠ Double.castInt32 q.1 := by
      rw [List.map_map] at h
      exact List.pairwise_map.mp ((hperm.map _).nodup_iff.mpr h)
    refine ((pairwise_submittedLe read).and hdistinct).imp ?_
    rintro p q ⟨hle, hne⟩
    rcases placeLe_iff.mp hle with hlt | ⟨heq, -⟩
    · exact hlt
    · exact absurd heq hne

/-! ### An accepted reorder -/

section Accepted

variable {ctx : DeviceContext} {entries : List Json} {csv : String}

theorem checkScreenOrder_eq_ok {result : Option String} (hany : entries.any hasOrder = true)
    (h : checkScreenOrder ctx entries = .ok result) :
    ∃ pairs, readOrders (catalogue ctx) entries.length entries [] = .ok pairs ∧
      result = some (orderCsv pairs) ∧
      (catalogue ctx ≠ [] → pairs.length = (effectiveCatalogue ctx).length ∨
        pairs.length = (catalogue ctx).length) := by
  rw [checkScreenOrder] at h
  split_ifs at h
  cases hread : readOrders (catalogue ctx) entries.length entries [] with
  | error e =>
      rw [catalogue] at hread
      rw [hread] at h
      cases h
  | ok pairs =>
      have hread' := hread
      rw [catalogue] at hread
      rw [hread] at h
      dsimp only at h
      split_ifs at h with hsize
      cases h
      refine ⟨pairs, rfl, rfl, fun hne => ?_⟩
      by_contra hnot
      rw [not_or] at hnot
      exact hsize ⟨hne, hnot⟩

/-- What the check knows of the screens: they are those of the catalogue, when there is one,
and they are as many as the visible ones or as all of them. -/
theorem reorder_of_accepted (hany : entries.any hasOrder = true)
    (h : checkScreenOrder ctx entries = .ok (some csv)) :
    ∃ placed, Reorder entries csv placed ∧
      (ctx.screens ≠ [] → (∀ id ∈ placed.map Prod.snd, id ∈ catalogue ctx) ∧
        (placed.length = (effectiveCatalogue ctx).length ∨
          placed.length = (catalogue ctx).length)) := by
  obtain ⟨pairs, hread, hcsv, hsize⟩ := checkScreenOrder_eq_ok hany h
  obtain ⟨read, hmap, rfl, hids, hplaces, hcatalog⟩ :=
    readOrders_eq_ok (by exact List.nodup_nil) (by exact List.nodup_nil) hread
  rw [List.nil_append] at hids hplaces hcsv hsize
  obtain ⟨placed, hperm, htext, hsorted⟩ := orderCsv_eq read hplaces
  have hne : ctx.screens ≠ [] → catalogue ctx ≠ [] := by
    intro hscreens
    rw [catalogue, ne_eq, List.dedup_eq_nil]
    simpa using hscreens
  have hlength : placed.length = (read.map truncated).length := by
    rw [hperm.length_eq, List.length_map]
  refine ⟨placed, ⟨?_, ?_, ?_, ?_⟩, fun hscreens => ⟨?_, ?_⟩⟩
  · rw [hmap]
    exact hperm.map some
  · rw [← htext]
    exact Option.some_inj.mp hcsv
  · exact hsorted.imp fun hlt hp hq => Double.lt_of_castInt32_lt hp hq hlt
  · rw [List.map_map] at hids
    exact (hperm.map Prod.snd).nodup_iff.mpr hids
  · intro id hid
    obtain ⟨p, hp, rfl⟩ := List.mem_map.mp hid
    exact hcatalog (hne hscreens) p (hperm.mem_iff.mp hp)
  · rw [hlength]
    exact hsize (hne hscreens)

theorem mem_visibleIds_iff {id : Int32} : id ∈ visibleIds ctx ↔ id ∈ effectiveCatalogue ctx := by
  simp only [visibleIds, effectiveCatalogue, catalogue, List.mem_filter, List.mem_dedup]

theorem nodup_effectiveCatalogue : (effectiveCatalogue ctx).Nodup :=
  (List.nodup_dedup _).filter _

theorem Reorder.mem_iff {placed : List (Float × Int32)} (h : Reorder entries csv placed)
    {p : Float × Int32} : p ∈ placed ↔ ∃ s ∈ entries, p ∈ submitted s := by
  have hmem := h.perm.mem_iff (a := some p)
  simpa [List.mem_map, Option.mem_def] using hmem

theorem Reorder.length_eq {placed : List (Float × Int32)} (h : Reorder entries csv placed) :
    (placed.map Prod.snd).length = entries.length := by
  have hlength := h.perm.length_eq
  rwa [List.length_map, List.length_map, ← List.length_map Prod.snd] at hlength

/-- As many distinct screens as there are leave none out. -/
theorem subset_of_length_le {l m : List Int32} (hl : l.Nodup) (hsub : l ⊆ m)
    (hlength : m.length ≤ l.length) : m ⊆ l :=
  ((List.subperm_of_subset hl hsub).perm_of_length_le hlength).symm.subset

/-- An accepted reorder is a full one exactly when it names the visible screens. -/
theorem fullReorder_iff (hany : entries.any hasOrder = true)
    (h : checkScreenOrder ctx entries = .ok (some csv)) :
    (∃ placed, FullReorder ctx entries csv placed) ↔ NamesTheVisible ctx entries := by
  obtain ⟨accepted, haccepted, hcatalogue⟩ := reorder_of_accepted hany h
  have hlength := haccepted.length_eq
  rw [List.length_map] at hlength
  constructor
  · rintro ⟨placed, hfull⟩
    have hplaced := hfull.toReorder.length_eq
    have hscreens : ctx.screens ≠ [] := by
      intro hempty
      obtain ⟨s, hs, -⟩ := List.any_eq_true.mp hany
      have hpos := List.length_pos_of_mem hs
      rw [← hplaced] at hpos
      have hmem := hfull.catalog _ (List.getElem_mem hpos)
      rw [hempty] at hmem
      cases hmem
    refine ⟨hscreens, ?_⟩
    rcases (hcatalogue hscreens).2 with heffective | hall
    · right
      intro s hs p hp hhidden
      have hsub : placed.map Prod.snd ⊆ effectiveCatalogue ctx := by
        apply subset_of_length_le nodup_effectiveCatalogue
        · exact fun id hid => hfull.visible id (mem_visibleIds_iff.mpr hid)
        · omega
      have hmem := hsub (List.mem_map_of_mem (hfull.toReorder.mem_iff.mpr ⟨s, hs, hp⟩))
      exact of_decide_eq_true (List.mem_filter.mp hmem).2 hhidden
    · left
      omega
  · rintro ⟨hscreens, hnamed⟩
    obtain ⟨hmem, hsize⟩ := hcatalogue hscreens
    have hlengthIds := haccepted.length_eq
    refine ⟨accepted, { haccepted with catalog := ?_, visible := ?_ }⟩
    · exact fun id hid => List.mem_dedup.mp (hmem id hid)
    · intro id hid
      rw [mem_visibleIds_iff] at hid
      by_cases hall : entries.length = (catalogue ctx).length
      · have hsub : catalogue ctx ⊆ accepted.map Prod.snd :=
          subset_of_length_le haccepted.once hmem (by omega)
        exact hsub (List.mem_filter.mp hid).1
      · have hhidden := hnamed.resolve_left hall
        have hvisible : accepted.map Prod.snd ⊆ effectiveCatalogue ctx := by
          intro id hid
          obtain ⟨p, hp, rfl⟩ := List.mem_map.mp hid
          obtain ⟨s, hs, hsub⟩ := haccepted.mem_iff.mp hp
          exact List.mem_filter.mpr ⟨hmem _ hid, decide_eq_true (hhidden s hs p hsub)⟩
        exact subset_of_length_le haccepted.once hvisible (by omega) hid

end Accepted

/-! ### The stored order -/

section Stored

variable {ctx : DeviceContext} {members : List (String × Json)} {prefs : Prefs}

/-- The order of the screens after the request. -/
def storedOrder (ctx : DeviceContext) (members : List (String × Json)) (prefs : Prefs) : String :=
  (applyWrites prefs (applyPatch ctx (some (.object members)) prefs).writes).getString
    kScreenOrder ""

theorem visibleKey_ne_screenOrder (id : Int32) : visibleKey id ≠ kScreenOrder := by
  intro h
  have hlength := congrArg (fun s => s.toList.length) h
  simp [visibleKey, kScreenOrder] at hlength
  omega

/-- The blocks behind the reorder do not write the order. -/
theorem writesOnly_behind_screenOrder (root : Json) :
    ∀ block ∈ (screenEntries root).map (patchVisible ctx) ++
      [patchDndTimeEnabled root, patchDnd root], WritesOnly (· ≠ kScreenOrder) block := by
  intro block hblock
  rw [List.mem_append] at hblock
  rcases hblock with hblock | hblock
  · obtain ⟨s, -, rfl⟩ := List.mem_map.mp hblock
    refine (writesOnly_patchVisible ctx s).mono ?_
    rintro key ⟨id, rfl⟩
    exact visibleKey_ne_screenOrder id
  · simp only [List.mem_cons, List.not_mem_nil, or_false] at hblock
    rcases hblock with rfl | rfl
    · refine (writesOnly_patchDndTimeEnabled root).mono ?_
      rintro key rfl
      decide
    · refine (writesOnly_patchDnd root).mono ?_
      exact fun key hkey heq => absurd (heq ▸ hkey) (by decide)

theorem storedOrder_of_ok
    (hok : (applyPatch ctx (some (.object members)) prefs).result.status = .ok)
    (hany : (screenEntries (.object members)).any hasOrder = true) :
    checkScreenOrder ctx (screenEntries (.object members)) =
      .ok (some (storedOrder ctx members prefs)) := by
  rw [applyPatch, status_eq_ok_iff, blocks, allAccepted_append] at hok
  obtain ⟨hbefore, effect, hblock, -⟩ := hok
  have hstored : storedOrder ctx members prefs =
      (storeAfter (blocks ctx members) prefs).getString kScreenOrder "" := rfl
  rw [hstored, blocks, storeAfter_append_of_accepted hbefore, nestedBlocks, List.cons_append,
    storeAfter_cons_ok hblock, Prefs.getString_congr
      (storeAfter_frame (writesOnly_behind_screenOrder _) (not_not_intro rfl) _)]
  rw [patchScreenOrder] at hblock
  cases hcheck : checkScreenOrder ctx (screenEntries (.object members)) with
  | error e =>
      rw [hcheck] at hblock
      cases hblock
  | ok result =>
      obtain ⟨pairs, -, rfl, -⟩ := checkScreenOrder_eq_ok hany hcheck
      rw [hcheck] at hblock
      cases hblock
      rw [getString_storeString]

/-- An accepted reorder is stored as a full one exactly when it names the visible screens. -/
theorem applyPatch_fullReorder_iff
    (hok : (applyPatch ctx (some (.object members)) prefs).result.status = .ok)
    (hany : (screenEntries (.object members)).any hasOrder = true) :
    (∃ placed, FullReorder ctx (screenEntries (.object members)) (storedOrder ctx members prefs)
        placed) ↔
      NamesTheVisible ctx (screenEntries (.object members)) :=
  fullReorder_iff hany (storedOrder_of_ok hok hany)

end Stored

/-- Three screens, of which the last one is hidden. -/
def threeScreens : DeviceContext :=
  { screens := [⟨0, "Block Height", true⟩, ⟨3, "Time", true⟩, ⟨71, "Earnings", true⟩]
    hiddenScreenIds := [71] }

def orderEntry (id order : Float) : Json :=
  .object [("id", .number id), ("order", .number order)]

def orderMembers (first second : Float) : List (String × Json) :=
  [("screens", .array [orderEntry first 0, orderEntry second 1])]

/-- The two visible screens, the other way round. -/
theorem fullReorder_swapped :
    ∃ placed, FullReorder threeScreens (screenEntries (.object (orderMembers 3 0)))
      (storedOrder threeScreens (orderMembers 3 0) Prefs.empty) placed :=
  (applyPatch_fullReorder_iff (by decide +kernel) (by decide)).mpr
    ⟨by decide, .inr (by decide)⟩

/-- The hidden screen in the place of a visible one has the right size. -/
theorem not_fullReorder_hidden :
    (applyPatch threeScreens (some (.object (orderMembers 0 71))) Prefs.empty).result.status =
        .ok ∧
      ¬∃ placed, FullReorder threeScreens (screenEntries (.object (orderMembers 0 71)))
        (storedOrder threeScreens (orderMembers 0 71) Prefs.empty) placed := by
  refine ⟨by decide +kernel, ?_⟩
  rintro ⟨placed, hfull⟩
  obtain ⟨p, hp, hid⟩ := List.mem_map.mp (hfull.visible 3 (by decide))
  obtain ⟨s, hs, hsub⟩ := hfull.toReorder.mem_iff.mp hp
  have hothers : ∀ s ∈ screenEntries (.object (orderMembers 0 71)), ∀ q ∈ submitted s,
      q.2 ≠ 3 := by
    decide
  exact hothers s hs p hsub hid

end Settings

end BtClock
