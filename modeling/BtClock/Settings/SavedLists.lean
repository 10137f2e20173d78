import BtClock.Settings.SavedFields

/-!
# Saving the lists as they were read

A list is shown as an array, and its items are joined again.  The text is the stored one when no
item is blank, and when none is dropped.
-/

namespace BtClock

namespace Settings

open Nwc (looksLikeRelay isHexString)

variable {prefs : Prefs}

theorem storeString_eq_none_iff {key d value : String} {boot : Bool} :
    storeString key d value boot prefs = {} ↔ prefs.getString key d = value := by
  rw [storeString]
  split_ifs with h
  · refine iff_of_false (fun heffect => ?_) h
    cases congrArg Effect.writes heffect
  · exact iff_of_true rfl (not_not.mp h)

theorem validated_unchanged_iff {α : Type} {check : Except PatchError α}
    {effect : α → Prefs → Effect} :
    validated check effect prefs = .ok {} ↔ ∃ a, check = .ok a ∧ effect a prefs = {} := by
  cases check with
  | error e => exact iff_of_false nofun nofun
  | ok a =>
      constructor
      · intro h
        exact ⟨a, rfl, Except.ok.inj h⟩
      · rintro ⟨b, hb, heffect⟩
        obtain rfl := Except.ok.inj hb
        exact congrArg Except.ok heffect

/-! ### A list which is joined again -/

/-- The stored text has no blank piece and only kept ones; without a text none of the shown items is
kept. -/
def Rejoins (kept : String → Bool) (stored shown : String) : Prop :=
  if stored = "" then ∀ item ∈ splitCsv shown, kept item = false
  else [] ∉ stored.toList.splitOn ',' ∧ ∀ item ∈ splitCsv stored, kept item = true

theorem joinCsv_filter_eq_iff {kept : String → Bool} {stored shown : String}
    (h : stored ≠ "" → shown = stored) :
    joinCsv ((splitCsv shown).filter kept) = stored ↔ Rejoins kept stored shown := by
  rw [Rejoins]
  split_ifs with hstored
  · subst hstored
    rw [joinCsv_eq_empty_iff, List.filter_eq_self.mpr fun s hs => ?_, List.filter_eq_nil_iff]
    · simp only [Bool.not_eq_true]
    · simpa using ne_empty_of_mem_splitCsv (List.mem_filter.mp hs).1
  · rw [h hstored]
    exact joinCsv_filter_splitCsv hstored kept

section Join

variable {l : List String}

theorem joinCurrencies_strings (valid : List String) (l : List String) (joined : String) :
    joinCurrencies valid (l.map Json.string) joined =
      .ok ((l.filter fun code => valid = [] ∨ code ∈ valid).foldl appendCsv joined) := by
  induction l generalizing joined with
  | nil => rfl
  | cons code l ih =>
      rw [List.map_cons, joinCurrencies]
      split_ifs with hdrop
      · rw [ih, List.filter_cons_of_neg (by simpa using hdrop)]
      · rw [ih, List.filter_cons_of_pos (by simpa [imp_iff_not_or] using hdrop), List.foldl_cons]

theorem joinPubkeys_strings_iff (hne : ∀ s ∈ l, s ≠ "") {count : ℕ}
    (hcount : count ≤ kMaxZapPubkeys) {joined out : String} :
    joinPubkeys (l.map Json.string) count joined = .ok out ↔
      (∀ s ∈ l, checkPubkey kNostrZapPubkeys s = .ok ()) ∧ count + l.length ≤ kMaxZapPubkeys ∧
        l.foldl appendCsv joined = out := by
  induction l generalizing count joined with
  | nil =>
      rw [List.map_nil, joinPubkeys, Except.ok.injEq]
      simp [hcount]
  | cons s l ih =>
      obtain ⟨hs, hne⟩ := List.forall_mem_cons.mp hne
      rw [List.map_cons, joinPubkeys, if_neg hs, List.forall_mem_cons, List.length_cons]
      cases hcheck : checkPubkey kNostrZapPubkeys s with
      | error e => exact iff_of_false (fun h => by cases h) fun h => by cases h.1.1
      | ok _ =>
          dsimp only
          split_ifs with hmany
          · exact iff_of_false (fun h => by cases h) fun h => by omega
          · rw [ih hne (by omega), List.foldl_cons, Nat.add_right_comm, Nat.add_assoc]
            simp only [true_and]

theorem joinRelays_strings_iff (hne : ∀ s ∈ l, s ≠ "") {count : ℕ}
    (hcount : count ≤ kMaxNostrRelays) {joined : String} {out : ℕ × String} :
    joinRelays (l.map Json.string) count joined = .ok out ↔
      (∀ s ∈ l, looksLikeRelay s = true) ∧ count + l.length ≤ kMaxNostrRelays ∧
        (count + l.length, l.foldl appendCsv joined) = out := by
  induction l generalizing count joined with
  | nil =>
      rw [List.map_nil, joinRelays, Except.ok.injEq]
      simp [hcount]
  | cons s l ih =>
      obtain ⟨hs, hne⟩ := List.forall_mem_cons.mp hne
      rw [List.map_cons, joinRelays, if_neg hs, List.forall_mem_cons, List.length_cons]
      split_ifs with hscheme hmany
      · exact iff_of_false (fun h => by cases h)
          fun h => Bool.false_ne_true (hscheme.symm.trans h.1.1)
      · exact iff_of_false (fun h => by cases h) fun h => by omega
      · rw [ih hne (by omega), List.foldl_cons, Nat.add_right_comm, Nat.add_assoc,
          and_iff_right ((Bool.not_eq_false _).mp hscheme)]

end Join

/-! ### The blocks of the lists -/

section Blocks

variable (ctx : DeviceContext) (prefs : Prefs)

def isAvailable (ctx : DeviceContext) (code : String) : Bool :=
  ctx.availableCurrencies = [] ∨ code ∈ ctx.availableCurrencies

theorem patchActCurrencies_unchanged_iff :
    patchActCurrencies ctx (.object (responseMembers ctx prefs)) prefs = .ok {} ↔
      Rejoins (isAvailable ctx) (prefs.getString kActCurrencies "USD,EUR,JPY")
        (readString prefs kActCurrencies) := by
  have hitems : (Json.object (responseMembers ctx prefs)).getObjectItem kActCurrencies =
      some (strings ((splitCsv (readString prefs kActCurrencies)).filter (isAvailable ctx))) :=
    lookup_actCurrencies ctx prefs
  have hread : prefs.getString kActCurrencies "USD,EUR,JPY" ≠ "" →
      readString prefs kActCurrencies = prefs.getString kActCurrencies "USD,EUR,JPY" :=
    fun hne => if_neg fun h => hne h.1
  rw [patchActCurrencies, hitems, strings]
  dsimp only
  rw [validated_unchanged_iff, joinCurrencies_strings, ← joinCsv_filter_eq_iff hread]
  have htwice : ((splitCsv (readString prefs kActCurrencies)).filter (isAvailable ctx)).filter
      (fun code => ctx.availableCurrencies = [] ∨ code ∈ ctx.availableCurrencies) =
        (splitCsv (readString prefs kActCurrencies)).filter (isAvailable ctx) :=
    List.filter_eq_self.mpr fun code hcode => (List.mem_filter.mp hcode).2
  rw [htwice]
  constructor
  · rintro ⟨joined, hjoined, hstore⟩
    obtain rfl := Except.ok.inj hjoined
    exact (storeString_eq_none_iff.mp hstore).symm
  · intro h
    exact ⟨_, rfl, storeString_eq_none_iff.mpr h.symm⟩

theorem patchZapPubkey_unchanged :
    patchZapPubkey (.object (responseMembers ctx prefs)) prefs = .ok {} := by
  have hitems : (Json.object (responseMembers ctx prefs)).getObjectItem kNostrZapPubkeys =
      some (strings (splitCsv (zapPubkeyCsv prefs))) := lookup_nostrZapPubkeys ctx prefs
  rw [patchZapPubkey, hitems]
  rfl

theorem patchRelay_unchanged :
    patchRelay (.object (responseMembers ctx prefs)) prefs = .ok {} := by
  have hitems : (Json.object (responseMembers ctx prefs)).getObjectItem kNostrRelays =
      some (strings (splitCsv (relayCsv prefs))) := lookup_nostrRelays ctx prefs
  rw [patchRelay, hitems]
  rfl

/-- The stored public keys, which are saved as they are shown. -/
structure PubkeysSaved (prefs : Prefs) : Prop where
  rejoins : Rejoins (fun _ => true) (prefs.getString kNostrZapPubkeys "") (zapPubkeyCsv prefs)
  valid : ∀ s ∈ splitCsv (zapPubkeyCsv prefs), s.length = 64 ∧ isHexString s.toList = true
  few : (splitCsv (zapPubkeyCsv prefs)).length ≤ kMaxZapPubkeys

theorem checkPubkey_eq_ok_iff {key s : String} :
    checkPubkey key s = .ok () ↔ s.length = 64 ∧ isHexString s.toList = true := by
  refine ⟨checkPubkey_eq_ok, fun h => ?_⟩
  rw [checkPubkey, if_neg (not_not.mpr h.1), if_neg (by simp [h.2])]

theorem joinCsv_splitCsv_eq_iff {stored shown : String} (h : stored ≠ "" → shown = stored) :
    joinCsv (splitCsv shown) = stored ↔ Rejoins (fun _ => true) stored shown := by
  rw [← joinCsv_filter_eq_iff h, List.filter_true]

theorem patchZapPubkeys_unchanged_iff :
    patchZapPubkeys (.object (responseMembers ctx prefs)) prefs = .ok {} ↔ PubkeysSaved prefs := by
  have hitems : (Json.object (responseMembers ctx prefs)).getObjectItem kNostrZapPubkeys =
      some (strings (splitCsv (zapPubkeyCsv prefs))) := lookup_nostrZapPubkeys ctx prefs
  have hstored : readString prefs kNostrZapPubkeys = prefs.getString kNostrZapPubkeys "" :=
    if_neg fun h => h.2 rfl
  have hread : prefs.getString kNostrZapPubkeys "" ≠ "" →
      zapPubkeyCsv prefs = prefs.getString kNostrZapPubkeys "" := by
    intro hne
    rw [← hstored] at hne ⊢
    exact if_neg hne
  rw [patchZapPubkeys, hitems, strings]
  dsimp only
  rw [validated_unchanged_iff]
  simp only [joinPubkeys_strings_iff (fun s hs => ne_empty_of_mem_splitCsv hs) (Nat.zero_le _),
    storeString_eq_none_iff, checkPubkey_eq_ok_iff, Nat.zero_add]
  constructor
  · rintro ⟨joined, ⟨hvalid, hfew, rfl⟩, hsame⟩
    exact ⟨(joinCsv_splitCsv_eq_iff hread).mp hsame.symm, hvalid, hfew⟩
  · intro h
    exact ⟨_, ⟨h.valid, h.few, rfl⟩, ((joinCsv_splitCsv_eq_iff hread).mpr h.rejoins).symm⟩

/-- The relays, which are saved as they are shown; a wallet takes the place of one. -/
structure RelaysSaved (prefs : Prefs) : Prop where
  rejoins : Rejoins (fun _ => true) (prefs.getString kNostrRelays "") (relayCsv prefs)
  valid : ∀ s ∈ splitCsv (relayCsv prefs), looksLikeRelay s = true
  few : (splitCsv (relayCsv prefs)).length ≤ kMaxNostrRelays
  budget : prefs.getBool kNwcEnabled false = true →
    (splitCsv (relayCsv prefs)).length + 1 ≤ kMaxNostrRelays

theorem nwcAfter_response (prefs' : Prefs) :
    nwcAfter (.object (responseMembers ctx prefs)) prefs' = prefs.getBool kNwcEnabled false := by
  have hfield := findField_eq_some findField_nwcEnabled
  have hitem : (Json.object (responseMembers ctx prefs)).getObjectItem kNwcEnabled =
      some (.bool (prefs.getBool kNwcEnabled false)) :=
    lookup_shown ctx prefs hfield.1 ⟨by decide, by decide, fun heq => absurd heq (by decide)⟩
      (by decide)
  rw [nwcAfter, hitem]

theorem patchRelays_unchanged_iff :
    patchRelays (.object (responseMembers ctx prefs)) prefs = .ok {} ↔ RelaysSaved prefs := by
  have hitems : (Json.object (responseMembers ctx prefs)).getObjectItem kNostrRelays =
      some (strings (splitCsv (relayCsv prefs))) := lookup_nostrRelays ctx prefs
  have hread : prefs.getString kNostrRelays "" ≠ "" →
      relayCsv prefs = prefs.getString kNostrRelays "" := by
    intro hne
    rw [← readString_nostrRelays] at hne ⊢
    exact if_neg hne
  rw [patchRelays, hitems, strings]
  dsimp only
  rw [validated_unchanged_iff, nwcAfter_response]
  simp only [storeString_eq_none_iff]
  constructor
  · rintro ⟨joined, hcheck, hsame⟩
    rw [checkRelays] at hcheck
    split at hcheck
    · cases hcheck
    · rename_i count out hjoin
      rw [joinRelays_strings_iff (fun s hs => ne_empty_of_mem_splitCsv hs) (Nat.zero_le _),
        Nat.zero_add, Prod.mk.injEq] at hjoin
      obtain ⟨hvalid, hfew, rfl, rfl⟩ := hjoin
      split_ifs at hcheck with hbudget
      obtain rfl := Except.ok.inj hcheck
      refine ⟨(joinCsv_splitCsv_eq_iff hread).mp hsame.symm, hvalid, hfew, fun hnwc => ?_⟩
      exact Nat.not_lt.mp fun hlt => hbudget ⟨hnwc, hlt⟩
  · intro h
    have hjoin : joinRelays ((splitCsv (relayCsv prefs)).map Json.string) 0 "" =
        .ok ((splitCsv (relayCsv prefs)).length, joinCsv (splitCsv (relayCsv prefs))) := by
      rw [joinRelays_strings_iff (fun s hs => ne_empty_of_mem_splitCsv hs) (Nat.zero_le _),
        Nat.zero_add]
      exact ⟨h.valid, h.few, rfl⟩
    refine ⟨_, ?_, ((joinCsv_splitCsv_eq_iff hread).mpr h.rejoins).symm⟩
    rw [checkRelays, hjoin]
    exact if_neg fun hbudget => Nat.not_lt.mpr (h.budget hbudget.1) hbudget.2

/-- The relay and the wallet pass their checks when the list is saved. -/
theorem RelaysSaved.membersPass {prefs : Prefs} (h : RelaysSaved prefs) :
    checkNostrRelay (.string (firstRelay prefs)) = .ok () ∧
      checkNwcEnabled (.object (responseMembers ctx prefs)) (relayCsv prefs)
        (.bool (prefs.getBool kNwcEnabled false)) = .ok () := by
  constructor
  · refine if_neg fun hbad => ?_
    rw [firstRelay] at hbad
    cases hlist : splitCsv (relayCsv prefs) with
    | nil =>
        rw [hlist] at hbad
        exact hbad.1 rfl
    | cons s l =>
        rw [hlist] at hbad
        have hvalid := h.valid s (hlist ▸ List.mem_cons_self)
        exact Bool.false_ne_true (hbad.2.symm.trans hvalid)
  · have hcount : relayCount (.object (responseMembers ctx prefs)) (relayCsv prefs) =
        (splitCsv (relayCsv prefs)).length := by
      have hitems : (Json.object (responseMembers ctx prefs)).getObjectItem kNostrRelays =
          some (strings (splitCsv (relayCsv prefs))) := lookup_nostrRelays ctx prefs
      rw [relayCount, hitems, strings]
      dsimp only
      rw [List.countP_map, List.countP_eq_length]
      exact fun s hs => decide_eq_true (ne_empty_of_mem_splitCsv hs)
    cases hnwc : prefs.getBool kNwcEnabled false with
    | false => rfl
    | true =>
        have hbudget := h.budget hnwc
        rw [checkNwcEnabled, hcount]
        exact if_neg (Nat.not_lt.mpr hbudget)

end Blocks

end Settings

end BtClock
