import BtClock.Settings.Response
import Mathlib.Data.List.Forall2

/-!
# What the GET response tells about the secrets

Two stores which differ in their secrets only give the same response exactly when they hold
the same three passwords.  The wallet's secret and the keys of the pools stay hidden.
-/

namespace BtClock

namespace Settings

open Nwc (parsePairingUri maskedUri)

/-! ### Lists of members which agree up to some keys -/

/-- The same keys in the same order, and the same values under keys outside of `K`. -/
def AgreeOff (K : List String) (l l' : Members) : Prop :=
  List.Forall₂ (fun m m' => m.1 = m'.1 ∧ (m.1 ∉ K → m.2 = m'.2)) l l'

theorem AgreeOff.refl (K : List String) (l : Members) : AgreeOff K l l :=
  List.forall₂_same.mpr fun _ _ => ⟨rfl, fun _ => rfl⟩

theorem AgreeOff.append {K : List String} {l l' r r' : Members} (h : AgreeOff K l l')
    (hr : AgreeOff K r r') : AgreeOff K (l ++ r) (l' ++ r') :=
  List.rel_append h hr

theorem AgreeOff.eq {l l' : Members} (h : AgreeOff [] l l') : l = l' := by
  induction h with
  | nil => rfl
  | cons hm _ ih => rw [Prod.ext hm.1 (hm.2 List.not_mem_nil), ih]

theorem AgreeOff.deleteItem {K : List String} {l l' : Members} (h : AgreeOff K l l')
    (key : String) : AgreeOff K (deleteItem key l) (deleteItem key l') := by
  induction h with
  | nil => exact List.Forall₂.nil
  | @cons m m' l l' hm hrest ih =>
      rw [deleteItem_cons, deleteItem_cons, ← hm.1]
      split
      · exact hrest
      · exact List.Forall₂.cons hm ih

theorem AgreeOff.of_notMem {key : String} {K : List String} {l l' : Members}
    (h : AgreeOff (key :: K) l l') (hkey : key ∉ l.map Prod.fst) : AgreeOff K l l' := by
  induction h with
  | nil => exact List.Forall₂.nil
  | @cons m m' l l' hm _ ih =>
      rw [List.map_cons, List.mem_cons, not_or] at hkey
      refine List.Forall₂.cons ⟨hm.1, fun hK => hm.2 ?_⟩ (ih hkey.2)
      simp [Ne.symm hkey.1, hK]

/-- Once its only member is deleted, a key does not count any more. -/
theorem AgreeOff.forget {key : String} {K : List String} {l l' : Members}
    (h : AgreeOff (key :: K) l l') (honce : AtMostOnce key l) :
    AgreeOff K (Settings.deleteItem key l) (Settings.deleteItem key l') := by
  exact AgreeOff.of_notMem (h.deleteItem key) honce.notMem_deleteItem

/-! ### The two stores -/

def passwordKeys : List String :=
  [kHttpAuthPass, kOtaPass, kProxyPass]

def secretKeys : List String :=
  [kHttpAuthPass, kOtaPass, kProxyPass, kNwcUri, kMiningPoolUser]

/-- Two pairing URIs which differ in the secret only. -/
def SamePairing (raw raw' : String) : Prop :=
  ∃ a b, parsePairingUri raw = .ok a ∧ parsePairingUri raw' = .ok b ∧ Nwc.SameButSecret a b

/-- Two stores which differ in their secrets only, each of which is set in both or in
neither of them. -/
structure SameButSecrets (prefs prefs' : Prefs) : Prop where
  agree : ∀ key, key ∉ secretKeys → prefs key = prefs' key
  passwords : ∀ key ∈ passwordKeys, prefs.getString key "" = "" ↔ prefs'.getString key "" = ""
  nwcUri : prefs kNwcUri = prefs' kNwcUri ∨
    SamePairing (prefs.getString kNwcUri "") (prefs'.getString kNwcUri "")
  poolUser : prefs kMiningPoolUser = prefs' kMiningPoolUser ∨
    activePool prefs ∈ kSecretUserPools ∧ prefs.getString kMiningPoolUser "" ≠ "" ∧
      prefs'.getString kMiningPoolUser "" ≠ ""

/-- The two stores hold the same passwords. -/
def SamePasswords (prefs prefs' : Prefs) : Prop :=
  ∀ key ∈ passwordKeys, prefs.getString key "" = prefs'.getString key ""

/-- The keys which are redacted for the active pool. -/
def redactedKeys (prefs : Prefs) : List String :=
  if activePool prefs ∈ kSecretUserPools then [kNwcUri, kMiningPoolUser] else [kNwcUri]

/-! ### The response of one store -/

theorem findField_of_passwordKey {key : String} (h : key ∈ passwordKeys) :
    ∃ f, findField key = some f ∧ f.key = key ∧ f.kind = .string ∧ f.defaultStr = "" := by
  simp only [passwordKeys, List.mem_cons, List.not_mem_nil, or_false] at h
  rcases h with rfl | rfl | rfl
  · exact ⟨{ key := kHttpAuthPass, kind := .string, bootOnly := true }, rfl, rfl, rfl, rfl⟩
  · exact ⟨{ key := kOtaPass, kind := .string, bootOnly := true }, rfl, rfl, rfl, rfl⟩
  · exact ⟨{ key := kProxyPass, kind := .string }, rfl, rfl, rfl, rfl⟩

/-- No password is among the members which are replaced. -/
theorem passwordKeys_ne : ∀ key ∈ passwordKeys, ∀ other ∈ replacedKeys, key ≠ other := by
  decide

theorem lookup_password {key : String} (h : key ∈ passwordKeys) (prefs : Prefs)
    (ctx : DeviceContext) :
    (buildGetResponse prefs ctx).getObjectItem key =
      some (.string (prefs.getString key "")) := by
  obtain ⟨f, hf, hkey, hkind, hdefault⟩ := findField_of_passwordKey h
  refine (lookup_response ctx prefs hf (passwordKeys_ne key h)).trans ?_
  simp only [emitField, hkind, hdefault, hkey]

/-! ### The response of two stores -/

section TwoStores

variable {prefs prefs' : Prefs}

theorem emitField_congr {f : FieldSpec} (h : prefs f.key = prefs' f.key) :
    emitField prefs f = emitField prefs' f := by
  simp only [emitField, Prefs.getString_congr h, Prefs.getU32_congr h, Prefs.getI32_congr h,
    Prefs.getU8_congr h, Prefs.getBool_congr h]

theorem SameButSecrets.activePool_eq (h : SameButSecrets prefs prefs') :
    activePool prefs = activePool prefs' :=
  Prefs.getString_congr (h.agree _ (by decide)) _

/-- A field which is no password and is not redacted has the same value in both stores. -/
theorem SameButSecrets.eq_of_notMem (h : SameButSecrets prefs prefs') {key : String}
    (hpass : key ∉ passwordKeys) (hred : key ∉ redactedKeys prefs) :
    prefs key = prefs' key := by
  by_cases huser : key = kMiningPoolUser
  · subst huser
    rcases h.poolUser with heq | ⟨hpool, -⟩
    · exact heq
    · exact absurd (by simp [redactedKeys, hpool]) hred
  · apply h.agree
    have hnwc : key ≠ kNwcUri := by
      rintro rfl
      apply hred
      simp only [redactedKeys]
      split <;> decide
    simp only [passwordKeys, List.mem_cons, List.not_mem_nil, or_false, not_or] at hpass
    simp [secretKeys, hpass, hnwc, huser]

/-- The fields agree but for the keys which are redacted. -/
theorem agreeOff_fields (h : SameButSecrets prefs prefs')
    (hsame : SamePasswords prefs prefs') :
    AgreeOff (redactedKeys prefs) (kFields.map (emitField prefs))
      (kFields.map (emitField prefs')) := by
  rw [AgreeOff, List.forall₂_map_left_iff, List.forall₂_map_right_iff, List.forall₂_same]
  intro f hf
  refine ⟨rfl, fun hred => ?_⟩
  by_cases hpass : f.key ∈ passwordKeys
  · obtain ⟨g, hg, -, hkind, hdefault⟩ := findField_of_passwordKey hpass
    rw [findField_key f hf] at hg
    cases hg
    simp only [emitField, hkind, hdefault, hsame f.key hpass]
  · rw [emitField_congr (h.eq_of_notMem hpass hred)]

theorem AgreeOff.emitCurrencies {K : List String} {l l' : Members} (h : AgreeOff K l l')
    (hstored : prefs kActCurrencies = prefs' kActCurrencies) (ctx : DeviceContext) :
    AgreeOff K (emitCurrencies ctx prefs l) (emitCurrencies ctx prefs' l') := by
  simp only [Settings.emitCurrencies, readString_congr hstored]
  exact (h.deleteItem _).append (AgreeOff.refl K _)

theorem AgreeOff.emitList {K : List String} {l l' : Members} (h : AgreeOff K l l')
    (key legacyKey csv : String) :
    AgreeOff K (emitList key legacyKey csv l) (emitList key legacyKey csv l') :=
  ((h.deleteItem key).deleteItem legacyKey).append (AgreeOff.refl K _)

theorem SameButSecrets.visibleKey_eq (h : SameButSecrets prefs prefs') (id : Int32) :
    prefs (visibleKey id) = prefs' (visibleKey id) := by
  have hhead : ∀ key ∈ secretKeys, key.toList.head? ≠ some 's' := by decide
  exact h.agree _ fun hmem => hhead _ hmem (visibleKey_head id)

theorem SameButSecrets.screensMember_eq (h : SameButSecrets prefs prefs')
    (ctx : DeviceContext) : screensMember ctx prefs = screensMember ctx prefs' := by
  have horder : prefs kScreenOrder = prefs' kScreenOrder := h.agree _ (by decide)
  have hemit : emitScreen prefs = emitScreen prefs' := by
    funext s order
    simp only [emitScreen, Prefs.getBool_congr (h.visibleKey_eq s.id)]
  simp only [screensMember, emittedIds, Prefs.getString_congr horder, hemit]

theorem SameButSecrets.dndBlock_eq (h : SameButSecrets prefs prefs') :
    dndBlock prefs = dndBlock prefs' := by
  simp only [dndBlock, Prefs.getBool_congr (h.agree kDndEnabled (by decide)),
    Prefs.getBool_congr (h.agree kDndTimeEnabled (by decide)),
    readU32_congr (h.agree kDndStartHour (by decide)),
    readU32_congr (h.agree kDndStartMin (by decide)),
    readU32_congr (h.agree kDndEndHour (by decide)),
    readU32_congr (h.agree kDndEndMin (by decide))]

theorem SameButSecrets.timerMembers_eq (h : SameButSecrets prefs prefs') :
    timerMembers prefs = timerMembers prefs' := by
  simp only [timerMembers, Prefs.getU32_congr (h.agree kTimerSeconds (by decide)),
    Prefs.getBool_congr (h.agree kTimerActive (by decide))]

theorem SamePasswords.passwordFlags_eq (h : SamePasswords prefs prefs') :
    passwordFlags prefs = passwordFlags prefs' := by
  simp only [passwordFlags, isSet, h kHttpAuthPass (by decide), h kOtaPass (by decide),
    h kProxyPass (by decide)]

theorem agreeOff_plainMembers (h : SameButSecrets prefs prefs')
    (hsame : SamePasswords prefs prefs') (ctx : DeviceContext) :
    AgreeOff (redactedKeys prefs) (plainMembers ctx prefs) (plainMembers ctx prefs') := by
  have hrelays : relayCsv prefs = relayCsv prefs' :=
    relayCsv_congr (readString_congr (h.agree _ (by decide)))
      (readString_congr (h.agree _ (by decide)))
  have hpubkeys : zapPubkeyCsv prefs = zapPubkeyCsv prefs' := by
    simp only [zapPubkeyCsv, readString_congr (h.agree kNostrZapPubkeys (by decide)),
      readString_congr (h.agree kNostrZapPubkey (by decide))]
  simp only [plainMembers, ← hrelays, ← hpubkeys, ← h.screensMember_eq ctx, ← h.dndBlock_eq,
    ← h.timerMembers_eq, ← hsame.passwordFlags_eq]
  have hfields := (AgreeOff.refl _ (deviceFacts ctx)).append (agreeOff_fields h hsame)
  have hcatalogs := (hfields.append (AgreeOff.refl _ (timerMembers prefs))).append
    (AgreeOff.refl _ (catalogMembers ctx))
  have hcurrencies := hcatalogs.emitCurrencies (h.agree _ (by decide)) ctx
  have hlists := (hcurrencies.emitList kNostrRelays kNostrRelay (relayCsv prefs)).emitList
    kNostrZapPubkeys kNostrZapPubkey (zapPubkeyCsv prefs)
  exact ((hlists.append (AgreeOff.refl _ _)).append (AgreeOff.refl _ _)).append
    (AgreeOff.refl _ _)

end TwoStores

section TwoStores

variable {prefs prefs' : Prefs}

/-- The secret of the pairing is not in its masked form. -/
theorem nwcUri_shown_eq (h : SameButSecrets prefs prefs') :
    isSet prefs kNwcUri = isSet prefs' kNwcUri ∧
      (if prefs.getString kNwcUri "" = "" then []
        else nwcUriMasked (prefs.getString kNwcUri "")) =
      if prefs'.getString kNwcUri "" = "" then []
        else nwcUriMasked (prefs'.getString kNwcUri "") := by
  rcases h.nwcUri with heq | ⟨a, b, ha, hb, hsame⟩
  · simp only [isSet, Prefs.getString_congr heq, and_self]
  · have hne : ∀ {raw parsed}, parsePairingUri raw = .ok parsed → raw ≠ "" := by
      rintro raw parsed hparse rfl
      cases hparse
    have hmasked := Nwc.maskedUri_congr hsame (Nwc.secretHex_ne_of_parsePairingUri ha)
      (Nwc.secretHex_ne_of_parsePairingUri hb)
    simp [isSet, nwcUriMasked, ha, hb, hmasked, hne ha, hne hb]

theorem poolUser_shown_eq (h : SameButSecrets prefs prefs') :
    isSet prefs kMiningPoolUser = isSet prefs' kMiningPoolUser := by
  rcases h.poolUser with heq | ⟨-, hset, hset'⟩
  · simp only [isSet, Prefs.getString_congr heq]
  · simp only [isSet, hset, hset', ne_eq, not_false_eq_true]

/-- With the same passwords the responses are the same. -/
theorem response_eq (h : SameButSecrets prefs prefs') (hsame : SamePasswords prefs prefs')
    (ctx : DeviceContext) : buildGetResponse prefs ctx = buildGetResponse prefs' ctx := by
  have hplain := agreeOff_plainMembers h hsame ctx
  obtain ⟨hnwcSet, hmasked⟩ := nwcUri_shown_eq h
  have hredact : ∀ {K}, AgreeOff (kNwcUri :: K) (plainMembers ctx prefs)
      (plainMembers ctx prefs') →
      AgreeOff K (redactNwcUri prefs (plainMembers ctx prefs))
        (redactNwcUri prefs' (plainMembers ctx prefs')) := by
    intro K hK
    simp only [redactNwcUri, hnwcSet, hmasked]
    have honce := atMostOnce_plainMembers ctx prefs (replacedKeys_mem kNwcUri (by decide))
      (by decide)
    exact ((hK.forget honce).append (AgreeOff.refl _ _)).append (AgreeOff.refl _ _)
  have hresponse : redactPoolUser prefs (redactNwcUri prefs (plainMembers ctx prefs)) =
      redactPoolUser prefs' (redactNwcUri prefs' (plainMembers ctx prefs')) := by
    by_cases hpool : activePool prefs ∈ kSecretUserPools
    · have hpool' : activePool prefs' ∈ kSecretUserPools := h.activePool_eq ▸ hpool
      rw [redactedKeys, if_pos hpool] at hplain
      simp only [redactPoolUser, if_pos hpool, if_pos hpool', poolUser_shown_eq h]
      have honce := atMostOnce_redactNwcUri ctx prefs
        (replacedKeys_mem kMiningPoolUser (by decide)) (by decide)
      apply AgreeOff.eq
      exact ((hredact hplain).forget honce).append (AgreeOff.refl _ _)
    · have hpool' : activePool prefs' ∉ kSecretUserPools := h.activePool_eq ▸ hpool
      rw [redactedKeys, if_neg hpool] at hplain
      simp only [redactPoolUser, if_neg hpool, if_neg hpool']
      exact (hredact hplain).eq
  rw [buildGetResponse, hresponse, buildGetResponse]

end TwoStores

/-- The response does not tell two stores apart exactly when they hold the same passwords. -/
theorem response_eq_iff {prefs prefs' : Prefs} (h : SameButSecrets prefs prefs')
    (ctx : DeviceContext) :
    buildGetResponse prefs ctx = buildGetResponse prefs' ctx ↔ SamePasswords prefs prefs' := by
  constructor
  · intro heq key hkey
    have hlookup := lookup_password hkey prefs ctx
    rw [heq, lookup_password hkey prefs' ctx] at hlookup
    exact (Json.string.inj (Option.some.inj hlookup)).symm
  · intro hsame
    exact response_eq h hsame ctx

/-- A store with the given password, pairing and API key of a pool. -/
def storeWith (pass uri user : String) : Prefs := fun key =>
  if key = kHttpAuthPass then some (.str pass)
  else if key = kNwcUri then some (.str uri)
  else if key = kMiningPoolUser then some (.str user)
  else if key = kMiningPoolName then some (.str "viabtc")
  else none

theorem sameButSecrets_storeWith {pass pass' uri uri' user user' : String}
    (hpass : pass = "" ↔ pass' = "") (huri : SamePairing uri uri') (huser : user ≠ "")
    (huser' : user' ≠ "") :
    SameButSecrets (storeWith pass uri user) (storeWith pass' uri' user') where
  agree key hkey := by
    simp only [secretKeys, List.mem_cons, not_or] at hkey
    simp only [storeWith, if_neg hkey.1, if_neg hkey.2.2.2.1, if_neg hkey.2.2.2.2.1]
  passwords key hkey := by
    simp only [passwordKeys, List.mem_cons, List.not_mem_nil, or_false] at hkey
    rcases hkey with rfl | rfl | rfl
    · exact hpass
    · exact Iff.rfl
    · exact Iff.rfl
  nwcUri := Or.inr huri
  poolUser := by
    have hpool : activePool (storeWith pass uri user) = "viabtc" := rfl
    exact Or.inr ⟨hpool ▸ List.mem_cons_self, huser, huser'⟩

theorem samePasswords_storeWith (pass uri uri' user user' : String) :
    SamePasswords (storeWith pass uri user) (storeWith pass uri' user') := by
  intro key hkey
  simp only [passwordKeys, List.mem_cons, List.not_mem_nil, or_false] at hkey
  rcases hkey with rfl | rfl | rfl <;> rfl

def demoPubkey : String :=
  "0123456789abcdef0123456789abcdef0123456789abcdef0123456789abcdef"

def demoSecret : String :=
  "fedcba9876543210fedcba9876543210fedcba9876543210fedcba9876543210"

def demoUri (secret : String) : String :=
  "nostr+walletconnect://" ++ demoPubkey ++ "?relay=wss%3A%2F%2Frelay&secret=" ++ secret

theorem samePairing_demoUri : SamePairing (demoUri demoSecret) (demoUri demoPubkey) := by
  have hpair : ∀ secret ∈ [demoSecret, demoPubkey],
      parsePairingUri (demoUri secret) =
        .ok { walletPubkeyHex := demoPubkey, secretHex := secret, relays := ["wss://relay"] } := by
    decide +kernel
  exact ⟨_, _, hpair _ (by decide), hpair _ (by decide), rfl, rfl, rfl⟩

/-- The secret of the wallet and the API key of the pool do not change the response. -/
theorem response_eq_demo :
    buildGetResponse (storeWith "pass" (demoUri demoSecret) "key") {} =
      buildGetResponse (storeWith "pass" (demoUri demoPubkey) "other") {} :=
  (response_eq_iff (sameButSecrets_storeWith Iff.rfl samePairing_demoUri (by decide)
    (by decide)) {}).mpr (samePasswords_storeWith _ _ _ _ _)

/-- Two passwords give two responses. -/
theorem response_ne_of_password :
    SameButSecrets (storeWith "topsecret" (demoUri demoSecret) "key")
        (storeWith "another" (demoUri demoPubkey) "key") ∧
      buildGetResponse (storeWith "topsecret" (demoUri demoSecret) "key") {} ≠
        buildGetResponse (storeWith "another" (demoUri demoPubkey) "key") {} := by
  refine ⟨sameButSecrets_storeWith (by decide) samePairing_demoUri (by decide) (by decide), ?_⟩
  intro heq
  have hlookup := lookup_password (by decide : kHttpAuthPass ∈ passwordKeys)
    (storeWith "topsecret" (demoUri demoSecret) "key") {}
  rw [heq, lookup_password (by decide)] at hlookup
  have hpass := Json.string.inj (Option.some.inj hlookup)
  exact absurd hpass (by decide)

end Settings

end BtClock
