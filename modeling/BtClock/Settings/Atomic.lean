import BtClock.Settings.PatchRun

/-!
# All or nothing

A rejected request has written nothing when the first rejected block comes before the first
one with something to write, and only then.
-/

namespace BtClock

namespace Settings

/-- A request which does not succeed makes no call of the writer. -/
def AllOrNothing (out : PatchOutcome) : Prop :=
  out.result.status ≠ .ok → out.writes = []

/-- The store with the legacy relay of a member in it. -/
def noteRelay (m : String × Json) (prefs : Prefs) : Prefs :=
  match m.2 with
  | .string s =>
      if m.1 = kNostrRelay then Function.update prefs kNostrRelay (some (.str s)) else prefs
  | _ => prefs

/-- Every member passes its checks against the store as it was, but for the legacy relay
of the members before it. -/
def MembersAccepted (ctx : DeviceContext) (root : Json) :
    List (String × Json) → Prefs → Prop
  | [], _ => True
  | m :: ms, prefs =>
      ¬Rejects (patchMember ctx root m) prefs ∧ MembersAccepted ctx root ms (noteRelay m prefs)

/-- Every member and every block passes its checks against the store as it was. -/
structure Valid (ctx : DeviceContext) (members : List (String × Json)) (prefs : Prefs) :
    Prop where
  walk : MembersAccepted ctx (.object members) members prefs
  lists : ∀ block ∈ listBlocks ctx (.object members), ¬Rejects block prefs
  nested : ∀ block ∈ nestedBlocks ctx (.object members), ¬Rejects block prefs

/-- In front of some rejected block every block finds its values in the store. -/
def RejectedFirst (ctx : DeviceContext) (members : List (String × Json)) (prefs : Prefs) :
    Prop :=
  ∃ pre block post, blocks ctx members = pre ++ block :: post ∧
    (∀ q ∈ pre, Quiet q prefs) ∧ Rejects block prefs

/-- The condition on a request, with nothing to ask of a body which is not an object. -/
def Atomic (ctx : DeviceContext) (body : Option Json) (prefs : Prefs) : Prop :=
  ∀ members, body = some (.object members) →
    Valid ctx members prefs ∨ RejectedFirst ctx members prefs

/-! ### The checks of the members do not see the writes -/

/-- Two stores with the same list of relays. -/
structure SameRelays (prefs prefs' : Prefs) : Prop where
  list : readString prefs kNostrRelays = readString prefs' kNostrRelays
  legacy : readString prefs kNostrRelay = readString prefs' kNostrRelay

theorem SameRelays.relayCsv_eq {prefs prefs' : Prefs} (h : SameRelays prefs prefs') :
    relayCsv prefs = relayCsv prefs' :=
  relayCsv_congr h.list h.legacy

theorem applyScalar_rejected_congr {f : FieldSpec} {v : Json} {prefs : Prefs}
    (h : applyScalar f v prefs = .rejected) (prefs' : Prefs) :
    applyScalar f v prefs' = .rejected := by
  simp only [applyScalar] at h ⊢
  split at h
  · grind [applyString]
  · grind [applyUint]
  · grind [applyInt]
  · grind [applyUChar]
  · grind [applyBool]
  · rfl

theorem rejects_patchField_congr {ctx : DeviceContext} {root : Json} {spec : FieldSpec}
    {key : String} {item : Json} {prefs prefs' : Prefs} (h : SameRelays prefs prefs')
    (hr : Rejects (patchField ctx root spec key item) prefs) :
    Rejects (patchField ctx root spec key item) prefs' := by
  obtain ⟨e, he⟩ := hr
  simp only [patchField, h.relayCsv_eq] at he
  split at he
  · rename_i e' hcheck
    exact ⟨e', by simp only [patchField, hcheck]⟩
  · rename_i hcheck
    split at he
    · rename_i hscalar
      refine ⟨rejection spec item, ?_⟩
      simp only [patchField, hcheck, applyScalar_rejected_congr hscalar prefs']
    · cases he
    · cases he

theorem rejects_patchMember_congr {ctx : DeviceContext} {root : Json} {m : String × Json}
    {prefs prefs' : Prefs} (h : SameRelays prefs prefs')
    (hr : Rejects (patchMember ctx root m) prefs) :
    Rejects (patchMember ctx root m) prefs' := by
  rcases patchMember_cases ctx root m with ⟨-, heq⟩ | ⟨spec, -, -, heq⟩
  · rw [heq] at hr ⊢
    exact rejectsStatically_skip prefs prefs' hr
  · rw [heq] at hr ⊢
    exact rejects_patchField_congr h hr

theorem noteRelay_of_ne {m : String × Json} (h : m.1 ≠ kNostrRelay) (prefs : Prefs) :
    noteRelay m prefs = prefs := by
  simp only [noteRelay, if_neg h]
  split <;> rfl

/-- An accepted member changes the list of relays as it is noted. -/
theorem SameRelays.step {ctx : DeviceContext} {root : Json} {m : String × Json}
    {prefs prefs' : Prefs} (h : SameRelays prefs prefs') {effect : Effect}
    (hb : patchMember ctx root m prefs = .ok effect) :
    SameRelays (applyWrites prefs effect.writes) (noteRelay m prefs') := by
  have hlist : applyWrites prefs effect.writes kNostrRelays = prefs kNostrRelays :=
    (writesOnly_patchMember ctx root m).frame hb fun hkey => hkey.2 (by decide)
  by_cases hm : m.1 = kNostrRelay
  · obtain ⟨key, item⟩ := m
    subst hm
    obtain ⟨s, rfl, hs⟩ := getString_of_patchMember_relay hb
    have hnote : noteRelay (kNostrRelay, .string s) prefs' =
        Function.update prefs' kNostrRelay (some (.str s)) := by
      simp [noteRelay]
    rw [hnote]
    constructor
    · rw [readString_congr hlist, h.list]
      exact readString_congr (Function.update_of_ne (by decide) ..).symm
    · simp only [readString_nostrRelay, hs]
      simp [Prefs.getString]
  · rw [noteRelay_of_ne hm]
    have hlegacy : applyWrites prefs effect.writes kNostrRelay = prefs kNostrRelay :=
      (writesOnly_patchMember ctx root m).frame hb fun hkey => hm hkey.1.symm
    constructor
    · rw [readString_congr hlist, h.list]
    · rw [readString_congr hlegacy, h.legacy]

/-- The walk over the members is accepted exactly when each passes its checks. -/
theorem allAccepted_members_iff {ctx : DeviceContext} {root : Json}
    (ms : List (String × Json)) {prefs prefs' : Prefs} (h : SameRelays prefs prefs') :
    AllAccepted (ms.map (patchMember ctx root)) prefs ↔
      MembersAccepted ctx root ms prefs' := by
  induction ms generalizing prefs prefs' with
  | nil => exact Iff.rfl
  | cons m ms ih =>
      rw [List.map_cons]
      constructor
      · rintro ⟨effect, hb, hrest⟩
        refine ⟨?_, (ih (h.step hb)).mp hrest⟩
        intro hr
        have hr' := rejects_patchMember_congr ⟨h.list.symm, h.legacy.symm⟩ hr
        exact not_rejects_iff.mpr ⟨effect, hb⟩ hr'
      · rintro ⟨hm, hrest⟩
        have hm' : ¬Rejects (patchMember ctx root m) prefs :=
          fun hr => hm (rejects_patchMember_congr h hr)
        obtain ⟨effect, hb⟩ := not_rejects_iff.mp hm'
        exact ⟨effect, hb, (ih (h.step hb)).mpr hrest⟩

/-! ### The blocks behind the walk -/

/-- Blocks which reject on the body alone are accepted one by one. -/
theorem allAccepted_iff_of_static {bs : List PatchBlock}
    (h : ∀ block ∈ bs, RejectsStatically block) (prefs prefs' : Prefs) :
    AllAccepted bs prefs ↔ ∀ block ∈ bs, ¬Rejects block prefs' := by
  induction bs generalizing prefs with
  | nil => simp [AllAccepted]
  | cons block bs ih =>
      have hstatic := h block List.mem_cons_self
      have ih := ih fun b hb => h b (List.mem_cons_of_mem _ hb)
      constructor
      · rintro ⟨effect, hb, hrest⟩ b hmem hr
        rcases List.mem_cons.mp hmem with rfl | hmem
        · exact not_rejects_iff.mpr ⟨effect, hb⟩ (hstatic _ _ hr)
        · exact (ih _).mp hrest b hmem hr
      · intro hall
        have hb : ¬Rejects block prefs :=
          fun hr => hall block List.mem_cons_self (hstatic _ _ hr)
        obtain ⟨effect, hb⟩ := not_rejects_iff.mp hb
        exact ⟨effect, hb, (ih _).mpr fun b hmem => hall b (List.mem_cons_of_mem _ hmem)⟩

/-- Once the walk is accepted, the NWC switch which the body leaves is known from the
body and the store before the call. -/
theorem nwcAfter_storeAfter_members {ctx : DeviceContext} {members : List (String × Json)}
    {prefs : Prefs} (h : AllAccepted (memberBlocks ctx members) prefs) :
    nwcAfter (.object members) (storeAfter (memberBlocks ctx members) prefs) =
      nwcAfter (.object members) prefs := by
  cases hitem : (Json.object members).getObjectItem kNwcEnabled with
  | none =>
      have hframe : ∀ block ∈ memberBlocks ctx members,
          WritesOnly (· ≠ kNwcEnabled) block := by
        intro block hblock
        obtain ⟨m, hm, rfl⟩ := List.mem_map.mp hblock
        refine WritesOnly.mono ?_ (writesOnly_patchMember ctx _ m)
        rintro key ⟨rfl, -⟩
        exact Json.ne_of_getObjectItem_eq_none hitem hm
      have hkey := storeAfter_frame hframe (not_not_intro rfl) prefs
      simp only [nwcAfter, hitem, Prefs.getBool_congr hkey]
  | some item =>
      obtain ⟨store, effect, hok⟩ :=
        h.exists_ok (List.mem_map_of_mem (Json.mem_of_getObjectItem hitem))
      obtain ⟨b, rfl, -, -⟩ := getBool_of_patchMember_nwc hok
      simp only [nwcAfter, hitem]

/-- The blocks in front of the list of relays leave the NWC switch alone. -/
theorem nwcAfter_storeAfter_offRelays {bs : List PatchBlock}
    (h : ∀ block ∈ bs, WritesOnly (· ≠ kNwcEnabled) block) (root : Json) (prefs : Prefs) :
    nwcAfter root (storeAfter bs prefs) = nwcAfter root prefs := by
  have hkey := storeAfter_frame h (not_not_intro rfl) prefs
  simp only [nwcAfter, Prefs.getBool_congr hkey]

theorem allAccepted_singleton (block : PatchBlock) (prefs : Prefs) :
    AllAccepted [block] prefs ↔ ¬Rejects block prefs := by
  rw [not_rejects_iff]
  simp [AllAccepted]

theorem allAccepted_listBlocks_iff {ctx : DeviceContext} {root : Json} {prefs prefs' : Prefs}
    (h : nwcAfter root prefs = nwcAfter root prefs') :
    AllAccepted (listBlocks ctx root) prefs ↔
      ∀ block ∈ listBlocks ctx root, ¬Rejects block prefs' := by
  have hstatic : ∀ block ∈ BeforeRelays ctx root ++ [patchRelay root],
      RejectsStatically block := by
    intro block hblock
    rcases List.mem_append.mp hblock with hblock | hblock
    · exact rejectsStatically_of_mem_beforeRelays hblock
    · rw [List.mem_singleton.mp hblock]
      exact rejectsStatically_patchRelay root
  have hframe : ∀ block ∈ BeforeRelays ctx root ++ [patchRelay root],
      WritesOnly (· ≠ kNwcEnabled) block := by
    intro block hblock
    rcases List.mem_append.mp hblock with hblock | hblock
    · exact (offRelays_of_mem_beforeRelays hblock).mono fun _ hkey => hkey.2.2
    · rw [List.mem_singleton.mp hblock]
      refine WritesOnly.mono ?_ (writesOnly_patchRelay root)
      rintro key rfl
      decide
  have hnwc : nwcAfter root (storeAfter (BeforeRelays ctx root ++ [patchRelay root]) prefs) =
      nwcAfter root prefs' := by
    rw [nwcAfter_storeAfter_offRelays hframe, h]
  have hrelays : Rejects (patchRelays root)
        (storeAfter (BeforeRelays ctx root ++ [patchRelay root]) prefs) ↔
      Rejects (patchRelays root) prefs' :=
    ⟨rejects_patchRelays_congr hnwc, rejects_patchRelays_congr hnwc.symm⟩
  rw [listBlocks_eq, allAccepted_append, allAccepted_singleton, hrelays,
    allAccepted_iff_of_static hstatic prefs prefs']
  simp only [List.forall_mem_append, List.forall_mem_singleton]

/-- A request succeeds exactly when every member and every block passes its checks against
the store before the call. -/
theorem allAccepted_blocks_iff (ctx : DeviceContext) (members : List (String × Json))
    (prefs : Prefs) : AllAccepted (blocks ctx members) prefs ↔ Valid ctx members prefs := by
  have hwalk : AllAccepted (memberBlocks ctx members) prefs ↔
      MembersAccepted ctx (.object members) members prefs :=
    allAccepted_members_iff members ⟨rfl, rfl⟩
  simp only [blocks, allAccepted_append]
  constructor
  · rintro ⟨⟨hmembers, hlists⟩, hnested⟩
    refine ⟨hwalk.mp hmembers, ?_, ?_⟩
    · exact (allAccepted_listBlocks_iff (nwcAfter_storeAfter_members hmembers)).mp hlists
    · exact (allAccepted_iff_of_static
        (fun _ => rejectsStatically_of_mem_nestedBlocks) _ prefs).mp hnested
  · intro h
    have hmembers := hwalk.mpr h.walk
    refine ⟨⟨hmembers, ?_⟩, ?_⟩
    · exact (allAccepted_listBlocks_iff (nwcAfter_storeAfter_members hmembers)).mpr h.lists
    · exact (allAccepted_iff_of_static
        (fun _ => rejectsStatically_of_mem_nestedBlocks) _ prefs).mpr h.nested

theorem runBlocks_allOrNothing_iff (ctx : DeviceContext) (members : List (String × Json))
    (prefs : Prefs) :
    AllOrNothing (runBlocks (blocks ctx members) prefs) ↔
      Valid ctx members prefs ∨ RejectedFirst ctx members prefs := by
  have hok := status_eq_ok_iff (blocks ctx members) prefs
  have hfirst := rejected_without_writes_iff (blocks ctx members) prefs
  rw [RejectedFirst, ← hfirst, ← allAccepted_blocks_iff, AllOrNothing, ne_eq, hok]
  tauto

/-- A request is all or nothing exactly when its body is valid or its first rejected block
comes before the first one with something to write. -/
theorem applyPatch_allOrNothing_iff (ctx : DeviceContext) (body : Option Json)
    (prefs : Prefs) : AllOrNothing (applyPatch ctx body prefs) ↔ Atomic ctx body prefs := by
  cases body with
  | none => simp [applyPatch, AllOrNothing, Atomic]
  | some root =>
      cases root with
      | object members =>
          rw [applyPatch, runBlocks_allOrNothing_iff]
          simp [Atomic]
      | null => simp [applyPatch, AllOrNothing, Atomic]
      | bool b => simp [applyPatch, AllOrNothing, Atomic]
      | number d => simp [applyPatch, AllOrNothing, Atomic]
      | string s => simp [applyPatch, AllOrNothing, Atomic]
      | array items => simp [applyPatch, AllOrNothing, Atomic]

/-- A LED brightness which is written before the range of the next member is checked. -/
def partialBody : Json :=
  .object [("ledBrightness", .number 10), ("wpTimeout", .number 100000)]

theorem not_allOrNothing_partialBody :
    (applyPatch {} (some partialBody) Prefs.empty).result.status = .badRequest ∧
      (applyPatch {} (some partialBody) Prefs.empty).writes =
        [.setU32 "ledBrightness" 10] ∧
      ¬AllOrNothing (applyPatch {} (some partialBody) Prefs.empty) := by
  have hstatus : (applyPatch {} (some partialBody) Prefs.empty).result.status =
      .badRequest := by
    decide
  have hwrites : (applyPatch {} (some partialBody) Prefs.empty).writes =
      [.setU32 "ledBrightness" 10] := by
    decide
  refine ⟨hstatus, hwrites, ?_⟩
  intro h
  have hnone := h (by rw [hstatus]; rintro ⟨⟩)
  rw [hwrites] at hnone
  cases hnone

/-- A request which fails without a write leaves the store as it was. -/
theorem store_eq_of_allOrNothing {ctx : DeviceContext} {body : Option Json} {prefs : Prefs}
    (h : AllOrNothing (applyPatch ctx body prefs))
    (hstatus : (applyPatch ctx body prefs).result.status ≠ .ok) :
    applyWrites prefs (applyPatch ctx body prefs).writes = prefs := by
  rw [h hstatus, applyWrites_nil]

end Settings

end BtClock
