import BtClock.Settings.Atomic
import BtClock.Transition.Run

/-!
# The relay budget

Every relay has a connection of its own, and so has the wallet connection.  The two checks
of a PATCH keep their number within the budget as long as every relay string is one relay
and a switch of NWC is not left without the list of relays which it was checked against.
-/

namespace BtClock

namespace Settings

/-- The number of relays which the boot path reads. -/
def relaysRead (prefs : Prefs) : ℕ :=
  (splitCsv (relayCsv prefs)).length

def nwcOn (prefs : Prefs) : Bool :=
  prefs.getBool kNwcEnabled false

def WithinBudget (prefs : Prefs) : Prop :=
  relaysRead prefs + (if nwcOn prefs then 1 else 0) ≤ kMaxNostrRelays

abbrev PatchRequest := DeviceContext × Option Json

instance (prefs : Prefs) : Decidable (WithinBudget prefs) :=
  inferInstanceAs (Decidable (_ ≤ _))

/-- The store after one request. -/
def patchStep (prefs : Prefs) (request : PatchRequest) : Prefs :=
  applyWrites prefs (applyPatch request.1 request.2 prefs).writes

/-- The NWC switch with a member in it. -/
def noteSwitch (m : String × Json) (on : Bool) : Bool :=
  match m.2 with
  | .bool b => if m.1 = kNwcEnabled then b else on
  | _ => on

/-- The NWC switch which the walk over the members leaves. -/
def switchAfterWalk (ctx : DeviceContext) (root : Json) :
    List (String × Json) → Prefs → Bool → Bool
  | [], _, on => on
  | m :: ms, prefs, on =>
      match patchMember ctx root m prefs with
      | .error _ => on
      | .ok _ => switchAfterWalk ctx root ms (noteRelay m prefs) (noteSwitch m on)

/-- The body has a list of relays. -/
def HasRelayList (members : List (String × Json)) : Prop :=
  ∃ items, (Json.object members).getObjectItem kNostrRelays = some (.array items)

/-- No relay string of the body reads back as more than one relay. -/
structure OneRelayEach (members : List (String × Json)) : Prop where
  legacy : ∀ s, (kNostrRelay, Json.string s) ∈ members → (splitCsv s).length ≤ 1
  list : ∀ items, (Json.object members).getObjectItem kNostrRelays = some (.array items) →
    ∀ s, Json.string s ∈ items → (splitCsv s).length ≤ 1

/-- Everything passes its checks up to the list of relays. -/
def ListStored (ctx : DeviceContext) (members : List (String × Json)) (prefs : Prefs) :
    Prop :=
  MembersAccepted ctx (.object members) members prefs ∧
    ∀ block ∈ listBlocks ctx (.object members), ¬Rejects block prefs

/-- With the store full, NWC is switched on for the sake of a list which is not stored. -/
def Stranded (ctx : DeviceContext) (members : List (String × Json)) (prefs : Prefs) :
    Prop :=
  relaysRead prefs = kMaxNostrRelays ∧ HasRelayList members ∧
    switchAfterWalk ctx (.object members) members prefs (nwcOn prefs) = true ∧
    ¬ListStored ctx members prefs

/-- The condition on a request, with nothing to ask of a body which is not an object. -/
def BudgetSafe (prefs : Prefs) (request : PatchRequest) : Prop :=
  ∀ members, request.2 = some (.object members) →
    OneRelayEach members ∧ ¬Stranded request.1 members prefs

/-! ### The relays which are read -/

/-- The legacy slot is one relay. -/
def LegacyOne (prefs : Prefs) : Prop :=
  (splitCsv (readString prefs kNostrRelay)).length ≤ 1

structure BudgetInv (prefs : Prefs) : Prop where
  budget : WithinBudget prefs
  legacy : LegacyOne prefs

theorem relaysRead_of_list {prefs : Prefs} (h : readString prefs kNostrRelays ≠ "") :
    relaysRead prefs = (splitCsv (readString prefs kNostrRelays)).length := by
  simp only [relaysRead, relayCsv, if_neg h]

theorem relaysRead_of_empty {prefs : Prefs} (h : readString prefs kNostrRelays = "") :
    relaysRead prefs = (splitCsv (readString prefs kNostrRelay)).length := by
  simp only [relaysRead, relayCsv, if_pos h]

/-- A store with the same list reads the same number of relays, or one at most. -/
theorem relaysRead_of_same_list {prefs prefs' : Prefs}
    (h : prefs kNostrRelays = prefs' kNostrRelays) (hlegacy : LegacyOne prefs) :
    relaysRead prefs = relaysRead prefs' ∨ relaysRead prefs ≤ 1 := by
  by_cases hempty : readString prefs kNostrRelays = ""
  · right
    rw [relaysRead_of_empty hempty]
    exact hlegacy
  · left
    have hempty' : readString prefs' kNostrRelays ≠ "" := readString_congr h ▸ hempty
    rw [relaysRead_of_list hempty, relaysRead_of_list hempty', readString_congr h]

/-- Two stores with the same relay slots and the same switch. -/
structure SameBudget (prefs prefs' : Prefs) : Prop where
  list : prefs kNostrRelays = prefs' kNostrRelays
  legacy : prefs kNostrRelay = prefs' kNostrRelay
  switch : prefs kNwcEnabled = prefs' kNwcEnabled

theorem SameBudget.relaysRead_eq {prefs prefs' : Prefs} (h : SameBudget prefs prefs') :
    relaysRead prefs = relaysRead prefs' := by
  simp only [relaysRead, relayCsv, readString_congr h.list, readString_congr h.legacy]

theorem SameBudget.nwcOn_eq {prefs prefs' : Prefs} (h : SameBudget prefs prefs') :
    nwcOn prefs = nwcOn prefs' :=
  Prefs.getBool_congr h.switch _

theorem SameBudget.inv {prefs prefs' : Prefs} (h : SameBudget prefs prefs')
    (hinv : BudgetInv prefs') : BudgetInv prefs := by
  constructor
  · rw [WithinBudget, h.relaysRead_eq, h.nwcOn_eq]
    exact hinv.budget
  · rw [LegacyOne, readString_congr h.legacy]
    exact hinv.legacy

/-- Blocks which stay off the relays keep the budget as it is. -/
theorem sameBudget_storeAfter {bs : List PatchBlock}
    (h : ∀ block ∈ bs, WritesOnly OffRelays block) (prefs : Prefs) :
    SameBudget (storeAfter bs prefs) prefs where
  list := storeAfter_frame h (fun hkey => hkey.2.1 rfl) prefs
  legacy := storeAfter_frame h (fun hkey => hkey.1 rfl) prefs
  switch := storeAfter_frame h (fun hkey => hkey.2.2 rfl) prefs

/-! ### The walk over the members -/

/-- The check of the NWC switch holds for the store. -/
def Guarded (root : Json) (prefs : Prefs) : Prop :=
  relayCount root (relayCsv prefs) + 1 ≤ kMaxNostrRelays

/-- What holds of every store of the walk which starts at `start`. -/
structure WalkInv (root : Json) (start prefs : Prefs) : Prop where
  list : prefs kNostrRelays = start kNostrRelays
  legacy : LegacyOne prefs
  guarded : nwcOn prefs = true → nwcOn start = true ∨ Guarded root prefs

theorem Guarded.congr {root : Json} {prefs prefs' : Prefs} (h : Guarded root prefs')
    (hlist : prefs kNostrRelays = prefs' kNostrRelays) (hlegacy : LegacyOne prefs) :
    Guarded root prefs := by
  simp only [Guarded, relayCount] at h ⊢
  split at h
  · exact h
  · have hread := relaysRead_of_same_list hlist hlegacy
    simp only [relaysRead, kMaxNostrRelays] at hread h ⊢
    omega

theorem noteSwitch_of_ne {m : String × Json} (h : m.1 ≠ kNwcEnabled) (on : Bool) :
    noteSwitch m on = on := by
  simp only [noteSwitch, if_neg h]
  split <;> rfl

/-- An accepted member leaves the switch as it is noted. -/
theorem nwcOn_of_patchMember {ctx : DeviceContext} {root : Json} {m : String × Json}
    {prefs : Prefs} {effect : Effect} (hb : patchMember ctx root m prefs = .ok effect) :
    nwcOn (applyWrites prefs effect.writes) = noteSwitch m (nwcOn prefs) := by
  by_cases hm : m.1 = kNwcEnabled
  · obtain ⟨key, item⟩ := m
    subst hm
    obtain ⟨b, rfl, -, hon⟩ := getBool_of_patchMember_nwc hb
    simpa [noteSwitch, nwcOn] using hon
  · rw [noteSwitch_of_ne hm]
    exact Prefs.getBool_congr
      ((writesOnly_patchMember ctx root m).frame hb fun hkey => hm hkey.1.symm) _

theorem nwcOn_storeAfter_walk {ctx : DeviceContext} {root : Json}
    (ms : List (String × Json)) {prefs prefs' : Prefs} (h : SameRelays prefs prefs') :
    nwcOn (storeAfter (ms.map (patchMember ctx root)) prefs) =
      switchAfterWalk ctx root ms prefs' (nwcOn prefs) := by
  induction ms generalizing prefs prefs' with
  | nil => rfl
  | cons m ms ih =>
      rw [List.map_cons, switchAfterWalk]
      cases hb : patchMember ctx root m prefs with
      | error e =>
          obtain ⟨e', he'⟩ := rejects_patchMember_congr h ⟨e, hb⟩
          rw [storeAfter_cons_error hb, he']
      | ok effect =>
          have hok : ¬Rejects (patchMember ctx root m) prefs' := fun hr =>
            not_rejects_iff.mpr ⟨effect, hb⟩
              (rejects_patchMember_congr ⟨h.list.symm, h.legacy.symm⟩ hr)
          obtain ⟨effect', hb'⟩ := not_rejects_iff.mp hok
          rw [storeAfter_cons_ok hb, hb', ih (h.step hb), nwcOn_of_patchMember hb]

theorem legacyOne_of_getString {prefs : Prefs}
    (h : (splitCsv (prefs.getString kNostrRelay kDefaultRelay)).length ≤ 1) :
    LegacyOne prefs := by
  have hdefault : (splitCsv kDefaultRelay).length ≤ 1 := by decide
  rw [LegacyOne, readString_nostrRelay]
  split
  · exact hdefault
  · exact h

theorem guarded_of_checkNwcEnabled {root : Json} {prefs : Prefs}
    (h : checkNwcEnabled root (relayCsv prefs) (.bool true) = .ok ()) : Guarded root prefs := by
  simp only [checkNwcEnabled] at h
  split at h
  · cases h
  · rename_i hle
    exact Nat.le_of_not_lt hle

/-- One step of the walk. -/
theorem WalkInv.step {ctx : DeviceContext} {root : Json} {start prefs : Prefs}
    (h : WalkInv root start prefs) {m : String × Json}
    (hone : ∀ s, m = (kNostrRelay, Json.string s) → (splitCsv s).length ≤ 1)
    {effect : Effect} (hb : patchMember ctx root m prefs = .ok effect) :
    WalkInv root start (applyWrites prefs effect.writes) := by
  have hframe : ∀ {key}, ¬(key = m.1 ∧ key ∉ handledBelow) →
      applyWrites prefs effect.writes key = prefs key :=
    (writesOnly_patchMember ctx root m).frame hb
  have hlist : applyWrites prefs effect.writes kNostrRelays = prefs kNostrRelays :=
    hframe fun hkey => hkey.2 (by decide)
  have hlegacy : LegacyOne (applyWrites prefs effect.writes) := by
    by_cases hm : m.1 = kNostrRelay
    · obtain ⟨key, item⟩ := m
      subst hm
      obtain ⟨s, rfl, hs⟩ := getString_of_patchMember_relay hb
      apply legacyOne_of_getString
      rw [hs]
      exact hone s rfl
    · rw [LegacyOne, readString_congr (hframe fun hkey => hm hkey.1.symm)]
      exact h.legacy
  refine ⟨hlist.trans h.list, hlegacy, fun hon => ?_⟩
  by_cases hm : m.1 = kNwcEnabled
  · obtain ⟨key, item⟩ := m
    subst hm
    obtain ⟨b, rfl, hcheck, hread⟩ := getBool_of_patchMember_nwc hb
    have hb : b = true := hread.symm.trans hon
    subst hb
    exact Or.inr ((guarded_of_checkNwcEnabled hcheck).congr hlist hlegacy)
  · have hsame : nwcOn (applyWrites prefs effect.writes) = nwcOn prefs :=
      Prefs.getBool_congr (hframe fun hkey => hm hkey.1.symm) _
    rcases h.guarded (hsame ▸ hon) with hstart | hguard
    · exact Or.inl hstart
    · exact Or.inr (hguard.congr hlist hlegacy)

theorem walkInv_storeAfter (ctx : DeviceContext) (root : Json) {ms : List (String × Json)}
    (hone : ∀ s, (kNostrRelay, Json.string s) ∈ ms → (splitCsv s).length ≤ 1)
    {prefs : Prefs} (hlegacy : LegacyOne prefs) :
    WalkInv root prefs (storeAfter (ms.map (patchMember ctx root)) prefs) := by
  apply storeAfter_invariant (I := WalkInv root prefs)
  · intro block hblock store effect hinv hb
    obtain ⟨m, hm, rfl⟩ := List.mem_map.mp hblock
    apply hinv.step ?_ hb
    rintro s rfl
    exact hone s hm
  · exact ⟨rfl, hlegacy, Or.inl⟩

/-- After the walk the budget holds, or NWC is on and the list of a full store is to be
replaced. -/
theorem budget_after_walk {root : Json} {start prefs : Prefs} (h : WalkInv root start prefs)
    (hstart : WithinBudget start) :
    WithinBudget prefs ∨
      relaysRead start = kMaxNostrRelays ∧ nwcOn prefs = true ∧ Guarded root prefs ∧
        ∃ items, root.getObjectItem kNostrRelays = some (.array items) := by
  have hread := relaysRead_of_same_list h.list h.legacy
  simp only [WithinBudget, kMaxNostrRelays] at hstart ⊢
  cases hon : nwcOn prefs with
  | false =>
      left
      simp only [Bool.false_eq_true, if_false]
      split at hstart <;> omega
  | true =>
      rcases h.guarded hon with hs | hguard
      · left
        simp only [hs, if_true] at hstart ⊢
        omega
      · by_cases harray : ∃ items, root.getObjectItem kNostrRelays = some (.array items)
        · by_cases hfull : relaysRead start = 4
          · exact Or.inr ⟨hfull, rfl, hguard, harray⟩
          · left
            simp only [if_true]
            split at hstart <;> omega
        · left
          have hcount : relayCount root (relayCsv prefs) = relaysRead prefs := by
            simp only [relayCount]
            split
            · rename_i items hitems
              exact absurd ⟨items, hitems⟩ harray
            · rfl
          rw [Guarded, hcount] at hguard
          simpa [kMaxNostrRelays] using hguard

/-- Where the walk has switched NWC off, it is on again only with a check of its own. -/
theorem guarded_of_switched_off (ctx : DeviceContext) (root : Json)
    {pre post : List (String × Json)}
    (hone : ∀ s, (kNostrRelay, Json.string s) ∈ pre ++ (kNwcEnabled, .bool false) :: post →
      (splitCsv s).length ≤ 1)
    {prefs : Prefs} (hlegacy : LegacyOne prefs)
    (hall : AllAccepted
      ((pre ++ (kNwcEnabled, .bool false) :: post).map (patchMember ctx root)) prefs)
    (hon : nwcOn (storeAfter
      ((pre ++ (kNwcEnabled, .bool false) :: post).map (patchMember ctx root)) prefs) = true) :
    Guarded root (storeAfter
      ((pre ++ (kNwcEnabled, .bool false) :: post).map (patchMember ctx root)) prefs) := by
  rw [List.map_append, List.map_cons] at hall hon ⊢
  obtain ⟨hpre, effect, hb, -⟩ := (allAccepted_append _ _ _).mp hall
  rw [storeAfter_append_of_accepted hpre, storeAfter_cons_ok hb] at hon ⊢
  have hpreInv := walkInv_storeAfter ctx root
    (fun s hs => hone s (List.mem_append_left _ hs)) hlegacy
  have hmid := hpreInv.step
    (fun s hs => absurd (congrArg Prod.fst hs) (by simp [kNwcEnabled, kNostrRelay])) hb
  have hpost := walkInv_storeAfter ctx root
    (fun s hs => hone s (List.mem_append_right _ (List.mem_cons_of_mem _ hs))) hmid.legacy
  rcases hpost.guarded hon with hstart | hguard
  · rw [nwcOn_of_patchMember hb] at hstart
    simp [noteSwitch] at hstart
  · exact hguard

/-- Once the walk is accepted with NWC on, the check of the switch holds or the list of
relays is checked with NWC on. -/
theorem guarded_or_nwcAfter {ctx : DeviceContext} {members : List (String × Json)}
    {prefs : Prefs} (hlegacy : LegacyOne prefs) (hone : OneRelayEach members)
    (hall : AllAccepted (memberBlocks ctx members) prefs)
    (hon : nwcOn (storeAfter (memberBlocks ctx members) prefs) = true) :
    Guarded (.object members) (storeAfter (memberBlocks ctx members) prefs) ∨
      nwcAfter (.object members) prefs = true := by
  cases hitem : (Json.object members).getObjectItem kNwcEnabled with
  | none =>
      right
      rw [← nwcAfter_storeAfter_members hall]
      simp only [nwcAfter, hitem]
      exact hon
  | some item =>
      have hmem := Json.mem_of_getObjectItem hitem
      obtain ⟨store, effect, hok⟩ := hall.exists_ok (List.mem_map_of_mem hmem)
      obtain ⟨b, rfl, -, -⟩ := getBool_of_patchMember_nwc hok
      cases b with
      | true => exact Or.inr (by simp only [nwcAfter, hitem])
      | false =>
          left
          obtain ⟨pre, post, hsplit⟩ := List.append_of_mem hmem
          have hguard := guarded_of_switched_off ctx (.object members)
            (hsplit ▸ hone.legacy) hlegacy
          rw [← hsplit] at hguard
          exact hguard hall hon

/-! ### The list of relays -/

/-- The number of relays which are joined, and of those which the joined list has. -/
theorem joinRelays_eq_ok {items : List Json}
    (hone : ∀ s, Json.string s ∈ items → (splitCsv s).length ≤ 1) {count n : ℕ}
    {joined out : String} (h : joinRelays items count joined = .ok (n, out)) :
    n = count + items.countP isNonemptyString ∧
      (splitCsv out).length ≤ (splitCsv joined).length + items.countP isNonemptyString ∧
      (count ≤ kMaxNostrRelays → n ≤ kMaxNostrRelays) := by
  induction items generalizing count joined with
  | nil =>
      cases h
      simp
  | cons item items ih =>
      replace ih := @ih fun s hs => hone s (List.mem_cons_of_mem _ hs)
      cases item with
      | string s =>
          simp only [joinRelays] at h
          split at h
          · rename_i hempty
            simpa [isNonemptyString, hempty] using ih h
          · split at h
            · cases h
            · split at h
              · cases h
              · rename_i hne _ hcount
                obtain ⟨hn, hlen, hmax⟩ := ih h
                have hs := hone s List.mem_cons_self
                rw [splitCsv_appendCsv, List.length_append] at hlen
                have hpos : isNonemptyString (.string s) = true := by
                  simpa [isNonemptyString] using hne
                rw [List.countP_cons_of_pos hpos]
                refine ⟨by omega, by omega, fun _ => hmax (by omega)⟩
      | null => cases h
      | bool b => cases h
      | number d => cases h
      | array xs => cases h
      | object ms => cases h

/-- A stored list is within the budget when its relays are. -/
theorem budgetInv_of_list {prefs prefs' : Prefs} {csv : String} {n : ℕ}
    (hlist : prefs.getString kNostrRelays "" = csv)
    (hlegacy : prefs kNostrRelay = prefs' kNostrRelay)
    (hswitch : prefs kNwcEnabled = prefs' kNwcEnabled) (hone : LegacyOne prefs')
    (hcsv : (splitCsv csv).length ≤ n) (hmax : n ≤ kMaxNostrRelays)
    (hon : nwcOn prefs' = true → n + 1 ≤ kMaxNostrRelays) : BudgetInv prefs := by
  have hone' : LegacyOne prefs := by
    rw [LegacyOne, readString_congr hlegacy]
    exact hone
  have hread : relaysRead prefs ≤ n ∨ relaysRead prefs ≤ 1 := by
    rw [← readString_nostrRelays] at hlist
    by_cases hempty : csv = ""
    · right
      rw [relaysRead_of_empty (hlist.trans hempty)]
      exact hone'
    · left
      rw [relaysRead_of_list (by rw [hlist]; exact hempty), hlist]
      exact hcsv
  have hsame : nwcOn prefs = nwcOn prefs' := Prefs.getBool_congr hswitch _
  refine ⟨?_, hone'⟩
  simp only [WithinBudget, hsame, kMaxNostrRelays] at hmax hon ⊢
  cases h : nwcOn prefs' with
  | false =>
      simp only [Bool.false_eq_true, if_false]
      omega
  | true =>
      have := hon h
      simp only [if_true]
      omega

theorem patchRelay_cases (root : Json) :
    patchRelay root = skip ∨
      ∃ s, root.getObjectItem kNostrRelay = some (.string s) ∧
        patchRelay root = accepted (storeString kNostrRelays "" s true) := by
  simp only [patchRelay]
  split
  · exact Or.inl rfl
  · rename_i s hitem _
    exact Or.inr ⟨s, hitem, rfl⟩
  · exact Or.inl rfl

/-- The legacy relay which is copied into the list is one relay. -/
theorem budgetInv_of_patchRelay {members : List (String × Json)} (hone : OneRelayEach members)
    {prefs : Prefs} (h : BudgetInv prefs) {effect : Effect}
    (hb : patchRelay (.object members) prefs = .ok effect) :
    BudgetInv (applyWrites prefs effect.writes) := by
  have hlegacy := (writesOnly_patchRelay (.object members)).frame hb
    (by decide : ¬kNostrRelay = kNostrRelays)
  have hswitch := (writesOnly_patchRelay (.object members)).frame hb
    (by decide : ¬kNwcEnabled = kNostrRelays)
  rcases patchRelay_cases (.object members) with heq | ⟨s, hitem, heq⟩
  · rw [heq] at hb
    cases hb
    exact h
  · rw [heq] at hb
    cases hb
    have hs := hone.legacy s (Json.mem_of_getObjectItem hitem)
    exact budgetInv_of_list (getString_storeString ..) hlegacy hswitch h.legacy hs
      (by decide) (fun _ => by decide)

theorem not_hasRelayList_patchRelays {members : List (String × Json)}
    (h : ¬HasRelayList members) : patchRelays (.object members) = skip := by
  simp only [patchRelays]
  split
  · rename_i items hitems
    exact absurd ⟨items, hitems⟩ h
  · rfl

theorem hasRelayList_patchRelay {members : List (String × Json)} (h : HasRelayList members) :
    patchRelay (.object members) = skip := by
  obtain ⟨items, hitems⟩ := h
  simp only [patchRelay, hitems]

/-- The accepted list of relays is within the budget, if the switch is checked against it. -/
theorem budgetInv_of_patchRelays {members : List (String × Json)}
    (hone : OneRelayEach members) {items : List Json}
    (hitems : (Json.object members).getObjectItem kNostrRelays = some (.array items))
    {prefs : Prefs} (hlegacy : LegacyOne prefs)
    (hon : nwcOn prefs = true →
      Guarded (.object members) prefs ∨ nwcAfter (.object members) prefs = true)
    {effect : Effect} (hb : patchRelays (.object members) prefs = .ok effect) :
    BudgetInv (applyWrites prefs effect.writes) := by
  have hkeepLegacy := (writesOnly_patchRelays (.object members)).frame hb
    (by decide : ¬kNostrRelay = kNostrRelays)
  have hkeepSwitch := (writesOnly_patchRelays (.object members)).frame hb
    (by decide : ¬kNwcEnabled = kNostrRelays)
  simp only [patchRelays, hitems, validated, checkRelays] at hb
  cases hjoin : joinRelays items 0 "" with
  | error e =>
      rw [hjoin] at hb
      cases hb
  | ok result =>
      obtain ⟨n, joined⟩ := result
      obtain ⟨hn, hlen, hmax⟩ := joinRelays_eq_ok (hone.list items hitems) hjoin
      simp only [hjoin] at hb
      split at hb
      · cases hb
      · rename_i hbudget
        cases hb
        rw [splitCsv_empty, List.length_nil] at hlen
        refine budgetInv_of_list (getString_storeString ..) hkeepLegacy hkeepSwitch hlegacy
          (by omega : _ ≤ n) (hmax (Nat.zero_le _)) fun h => ?_
        rcases hon h with hguard | hafter
        · simp only [Guarded, relayCount, hitems] at hguard
          omega
        · rw [hafter] at hbudget
          simp only [true_and, Nat.not_lt, gt_iff_lt] at hbudget
          exact hbudget

/-! ### One request -/

theorem allAccepted_lists_iff (ctx : DeviceContext) (members : List (String × Json))
    (prefs : Prefs) :
    AllAccepted (memberBlocks ctx members ++ listBlocks ctx (.object members)) prefs ↔
      ListStored ctx members prefs := by
  have hwalk : AllAccepted (memberBlocks ctx members) prefs ↔
      MembersAccepted ctx (.object members) members prefs :=
    allAccepted_members_iff members ⟨rfl, rfl⟩
  rw [allAccepted_append, ListStored, hwalk]
  refine and_congr_right fun hmembers => ?_
  exact allAccepted_listBlocks_iff (nwcAfter_storeAfter_members (hwalk.mpr hmembers))

/-- The blocks between the walk and the list stay off the relays of a body with a list. -/
theorem sameBudget_beforeList (ctx : DeviceContext) {members : List (String × Json)}
    (h : HasRelayList members) (prefs : Prefs) :
    SameBudget
      (storeAfter (BeforeRelays ctx (.object members) ++ [patchRelay (.object members)]) prefs)
      prefs := by
  apply sameBudget_storeAfter
  intro block hblock
  rcases List.mem_append.mp hblock with hblock | hblock
  · exact offRelays_of_mem_beforeRelays hblock
  · rw [List.mem_singleton.mp hblock, hasRelayList_patchRelay h]
    exact writesOnly_skip _

/-- Without a list in the body every block behind the walk keeps the invariant. -/
theorem budgetInv_of_no_list {ctx : DeviceContext} {members : List (String × Json)}
    (hone : OneRelayEach members) (hno : ¬HasRelayList members) {prefs : Prefs}
    (h : BudgetInv prefs) :
    BudgetInv (storeAfter
      (listBlocks ctx (.object members) ++ nestedBlocks ctx (.object members)) prefs) := by
  apply storeAfter_invariant (I := BudgetInv)
  · intro block hblock store effect hinv hb
    have hoff : WritesOnly OffRelays block → BudgetInv (applyWrites store effect.writes) := by
      intro hwrites
      have hsame : SameBudget (applyWrites store effect.writes) store :=
        ⟨hwrites.frame hb fun hkey => hkey.2.1 rfl, hwrites.frame hb fun hkey => hkey.1 rfl,
          hwrites.frame hb fun hkey => hkey.2.2 rfl⟩
      exact hsame.inv hinv
    simp only [listBlocks_eq, List.mem_append, List.mem_singleton] at hblock
    rcases hblock with ((hblock | rfl) | rfl) | hblock
    · exact hoff (offRelays_of_mem_beforeRelays hblock)
    · exact budgetInv_of_patchRelay hone hinv hb
    · exact hoff (not_hasRelayList_patchRelays hno ▸ writesOnly_skip _)
    · exact hoff (offRelays_of_mem_nestedBlocks hblock)
  · exact h

/-- A list which is not stored leaves the relays as they are after the walk. -/
theorem sameBudget_of_not_stored {ctx : DeviceContext} {members : List (String × Json)}
    (hlist : HasRelayList members) {prefs : Prefs}
    (hnot : ¬AllAccepted (listBlocks ctx (.object members)) prefs) :
    SameBudget (storeAfter (listBlocks ctx (.object members)) prefs) prefs := by
  rw [listBlocks_eq] at hnot ⊢
  rw [allAccepted_append] at hnot
  by_cases hbefore : AllAccepted
      (BeforeRelays ctx (.object members) ++ [patchRelay (.object members)]) prefs
  · rw [storeAfter_append_of_accepted hbefore]
    have hrelays : Rejects (patchRelays (.object members)) (storeAfter
        (BeforeRelays ctx (.object members) ++ [patchRelay (.object members)]) prefs) := by
      by_contra hok
      exact hnot ⟨hbefore, (allAccepted_singleton _ _).mpr hok⟩
    obtain ⟨e, he⟩ := hrelays
    rw [storeAfter_cons_error he]
    exact sameBudget_beforeList ctx hlist prefs
  · rw [storeAfter_append_of_not_accepted hbefore]
    exact sameBudget_beforeList ctx hlist prefs

/-- A list which is stored is within the budget. -/
theorem budgetInv_of_stored {ctx : DeviceContext} {members : List (String × Json)}
    (hone : OneRelayEach members) (hlist : HasRelayList members) {prefs : Prefs}
    (hlegacy : LegacyOne prefs)
    (hwalk : AllAccepted (memberBlocks ctx members) prefs)
    (hlists : AllAccepted (listBlocks ctx (.object members))
      (storeAfter (memberBlocks ctx members) prefs)) :
    BudgetInv (storeAfter (listBlocks ctx (.object members))
      (storeAfter (memberBlocks ctx members) prefs)) := by
  have hwalkInv := walkInv_storeAfter ctx (.object members) hone.legacy hlegacy
  change WalkInv _ _ (storeAfter (memberBlocks ctx members) prefs) at hwalkInv
  have hsame := sameBudget_beforeList ctx hlist
    (storeAfter (memberBlocks ctx members) prefs)
  rw [listBlocks_eq] at hlists ⊢
  obtain ⟨hbefore, effect, hb, -⟩ := (allAccepted_append _ _ _).mp hlists
  rw [storeAfter_append_of_accepted hbefore, storeAfter_cons_ok hb, storeAfter_nil]
  obtain ⟨items, hitems⟩ := hlist
  have hlegacy' : LegacyOne (storeAfter (BeforeRelays ctx (.object members) ++
      [patchRelay (.object members)]) (storeAfter (memberBlocks ctx members) prefs)) := by
    rw [LegacyOne, readString_congr hsame.legacy]
    exact hwalkInv.legacy
  refine budgetInv_of_patchRelays hone hitems hlegacy' (fun hon => ?_) hb
  rw [hsame.nwcOn_eq] at hon
  rcases guarded_or_nwcAfter hlegacy hone hwalk hon with hguard | hafter
  · exact Or.inl (hguard.congr hsame.list hlegacy')
  · right
    rw [← hafter, ← nwcAfter_storeAfter_members hwalk]
    simp only [nwcAfter, Prefs.getBool_congr hsame.switch]

/-- One request which meets the condition keeps the invariant. -/
theorem BudgetInv.runBlocks {ctx : DeviceContext} {members : List (String × Json)}
    {prefs : Prefs} (h : BudgetInv prefs) (hone : OneRelayEach members)
    (hstranded : ¬Stranded ctx members prefs) :
    BudgetInv (storeAfter (blocks ctx members) prefs) := by
  have hwalk : WalkInv (.object members) prefs (storeAfter (memberBlocks ctx members) prefs) :=
    walkInv_storeAfter ctx (.object members) hone.legacy h.legacy
  have hbudget := budget_after_walk hwalk h.budget
  have hswitch : nwcOn (storeAfter (memberBlocks ctx members) prefs) =
      switchAfterWalk ctx (.object members) members prefs (nwcOn prefs) :=
    nwcOn_storeAfter_walk members ⟨rfl, rfl⟩
  by_cases hlist : HasRelayList members
  · by_cases hstored : ListStored ctx members prefs
    · have hall := (allAccepted_lists_iff ctx members prefs).mpr hstored
      obtain ⟨hmembers, hlists⟩ := (allAccepted_append _ _ _).mp hall
      rw [blocks, storeAfter_append_of_accepted hall, storeAfter_append_of_accepted hmembers]
      exact (sameBudget_storeAfter (fun _ => offRelays_of_mem_nestedBlocks) _).inv
        (budgetInv_of_stored hone hlist h.legacy hmembers hlists)
    · have hnot := mt (allAccepted_lists_iff ctx members prefs).mp hstored
      have hafter : BudgetInv (storeAfter (memberBlocks ctx members) prefs) := by
        rcases hbudget with hbudget | ⟨hfull, hon, -, -⟩
        · exact ⟨hbudget, hwalk.legacy⟩
        · exact absurd ⟨hfull, hlist, hswitch ▸ hon, hstored⟩ hstranded
      rw [blocks, storeAfter_append_of_not_accepted hnot]
      by_cases hmembers : AllAccepted (memberBlocks ctx members) prefs
      · rw [storeAfter_append_of_accepted hmembers]
        rw [allAccepted_append] at hnot
        exact (sameBudget_of_not_stored hlist fun hlists => hnot ⟨hmembers, hlists⟩).inv hafter
      · rw [storeAfter_append_of_not_accepted hmembers]
        exact hafter
  · have hafter : BudgetInv (storeAfter (memberBlocks ctx members) prefs) := by
      rcases hbudget with hbudget | ⟨-, -, -, hitems⟩
      · exact ⟨hbudget, hwalk.legacy⟩
      · exact absurd hitems hlist
    rw [blocks, List.append_assoc]
    by_cases hmembers : AllAccepted (memberBlocks ctx members) prefs
    · rw [storeAfter_append_of_accepted hmembers]
      exact budgetInv_of_no_list hone hlist hafter
    · rw [storeAfter_append_of_not_accepted hmembers]
      exact hafter

theorem BudgetInv.step {prefs : Prefs} (h : BudgetInv prefs) {request : PatchRequest}
    (hsafe : BudgetSafe prefs request) : BudgetInv (patchStep prefs request) := by
  obtain ⟨ctx, body⟩ := request
  cases body with
  | none => exact h
  | some root =>
      cases root with
      | object members =>
          obtain ⟨hone, hstranded⟩ := hsafe members rfl
          exact h.runBlocks hone hstranded
      | null => exact h
      | bool b => exact h
      | number d => exact h
      | string s => exact h
      | array items => exact h

def relayList (urls : List String) : String × Json :=
  (kNostrRelays, .array (urls.map Json.string))

end Settings

end BtClock
