import BtClock.Settings.Get
import BtClock.Settings.Patch
import BtClock.Webserver.BasicAuth

/-!
# The gate in front of the handlers

With authentication enabled and a password in the store, a request passes with the Basic
header of the configured user and password only.  The header splits at its first colon and
has 512 bytes at most, while the settings take a user with a colon, and texts too long for
the header.
-/

namespace BtClock

namespace Auth

open Nostr (byteOfChar)

open Settings

def kHttpAuthEnabled : String := "httpAuthEnabled"

def kHttpAuthUser : String := "httpAuthUser"

def kDefaultUser : String := "btclock"

def kMaxHeader : ℕ := 512

def bytesOf (s : String) : List UInt8 :=
  s.toList.map byteOfChar

/-- Whether a request passes, by its `Authorization` header; a missing one reads as empty. -/
def requireHttpAuth (prefs : Prefs) (authorization : List Char) : Bool :=
  if prefs.getBool kHttpAuthEnabled false = false then true
  else
    let configuredUser := prefs.getString kHttpAuthUser kDefaultUser
    let configuredPass := prefs.getString kHttpAuthPass ""
    -- an empty password would lock everyone out
    if configuredPass = "" then true
    else
      let user := if configuredUser = "" then kDefaultUser else configuredUser
      if authorization.length = 0 then false
      else if authorization.length > kMaxHeader then false
      else
        match extractBasicToken authorization with
        | none => false
        | some token =>
            match decodeBase64 token with
            | none => false
            | some decoded =>
                match parseUserPass decoded with
                | none => false
                | some (suppliedUser, suppliedPass) =>
                    credentialsMatch suppliedUser suppliedPass (bytesOf user)
                      (bytesOf configuredPass)

/-- The scheme with its blank. -/
def scheme : List Char :=
  ['B', 'a', 's', 'i', 'c', ' ']

/-- The header which a client sends for a user and a password. -/
def basicHeader (user pass : List UInt8) : List Char :=
  scheme ++ standard.encode (user ++ kColon :: pass)

/-- The stored credentials. -/
def storedUser (prefs : Prefs) : List UInt8 :=
  bytesOf (prefs.getString kHttpAuthUser kDefaultUser)

def storedPass (prefs : Prefs) : List UInt8 :=
  bytesOf (prefs.getString kHttpAuthPass "")

/-- The user which the gate compares with. -/
def login (prefs : Prefs) : List UInt8 :=
  if storedUser prefs = [] then bytesOf kDefaultUser else storedUser prefs

/-- A user with a name of its own, without a colon, and short enough for the header together
with the password. -/
structure FitsHeader (prefs : Prefs) : Prop where
  named : storedUser prefs ≠ []
  noColon : kColon ∉ storedUser prefs
  short : (storedUser prefs).length + (storedPass prefs).length ≤ 377

/-! ### The header of a client -/

theorem length_basicHeader (user pass : List UInt8) :
    (basicHeader user pass).length = 6 + (user.length + pass.length + 3) / 3 * 4 := by
  have hscheme : scheme.length = 6 := rfl
  simp only [basicHeader, List.length_append, hscheme, Base64.length_encode, List.length_cons]
  omega

theorem length_basicHeader_le_iff (user pass : List UInt8) :
    (basicHeader user pass).length ≤ kMaxHeader ↔ user.length + pass.length ≤ 377 := by
  rw [length_basicHeader, kMaxHeader]
  omega

theorem extractBasicToken_append {token : List Char} (hne : token ≠ [])
    (hblank : ' ' ∉ token) : extractBasicToken (scheme ++ token) = some token := by
  have hlower : scheme.map asciiLower = "basic ".toList := by decide
  have hdrop : token.dropWhile (· = ' ') = token := by
    cases token with
    | nil => exact absurd rfl hne
    | cons c token =>
        have hc : c ≠ ' ' := fun h => hblank (h ▸ List.mem_cons_self)
        simp [hc]
  have htake : (scheme ++ token).take 6 = scheme := rfl
  have hrest : (scheme ++ token).drop 6 = token := rfl
  have hlen : ¬ (scheme ++ token).length < 6 := by simp [scheme]
  rw [extractBasicToken, if_neg hlen, htake, hrest, hdrop, if_neg (not_not.mpr hlower),
    if_neg hne]

theorem blank_notMem_encode (bytes : List UInt8) : ' ' ∉ standard.encode bytes := by
  intro h
  rcases standard.mem_encode h with hpad | ⟨n, hn, hdigit⟩
  · exact absurd hpad (by decide)
  · have hvalue := standard.value_digit n hn
    rw [← hdigit] at hvalue
    exact absurd hvalue (by simp [standard, show kB64Table ' ' = .bad by decide])

theorem bytesOf_eq_nil_iff (s : String) : bytesOf s = [] ↔ s = "" := by
  simp [bytesOf]

theorem bytesOf_effective (prefs : Prefs) :
    bytesOf (if prefs.getString kHttpAuthUser kDefaultUser = "" then kDefaultUser
      else prefs.getString kHttpAuthUser kDefaultUser) = login prefs := by
  simp only [login, storedUser, bytesOf_eq_nil_iff]
  split <;> rfl

/-- A request with the header of a client passes when the header is not too long and its text
is that of the configured user and password. -/
theorem requireHttpAuth_basicHeader_iff {prefs : Prefs}
    (henabled : prefs.getBool kHttpAuthEnabled false = true)
    (hpass : prefs.getString kHttpAuthPass "" ≠ "") (user pass : List UInt8) :
    requireHttpAuth prefs (basicHeader user pass) = true ↔
      user.length + pass.length ≤ 377 ∧
        user ++ kColon :: pass = login prefs ++ kColon :: storedPass prefs ∧
          kColon ∉ login prefs := by
  have hlen : (basicHeader user pass).length ≠ 0 := by simp [length_basicHeader]
  have htoken : standard.encode (user ++ kColon :: pass) ≠ [] := by
    intro h
    have hencode := standard.length_encode (user ++ kColon :: pass)
    rw [h, List.length_append, List.length_cons, List.length_nil] at hencode
    omega
  have hextract : extractBasicToken (basicHeader user pass) =
      some (standard.encode (user ++ kColon :: pass)) :=
    extractBasicToken_append htoken (blank_notMem_encode _)
  have hdecode : decodeBase64 (standard.encode (user ++ kColon :: pass)) =
      some (user ++ kColon :: pass) := by rw [decodeBase64_eq, Base64.decode_encode]
  rw [← length_basicHeader_le_iff, requireHttpAuth, if_neg (by simp [henabled]), if_neg hpass,
    if_neg hlen, hextract]
  simp only [hdecode, bytesOf_effective]
  by_cases hmax : (basicHeader user pass).length ≤ kMaxHeader
  · rw [if_neg (not_lt.mpr hmax)]
    simp only [hmax, true_and]
    cases hparse : parseUserPass (user ++ kColon :: pass) with
    | none =>
        simp only [Bool.false_eq_true, false_iff]
        rintro ⟨htext, hcolon⟩
        rw [parseUserPass_eq_some_iff.mpr ⟨htext, hcolon⟩] at hparse
        cases hparse
    | some supplied =>
        rw [credentialsMatch_eq_true_iff]
        constructor
        · rintro ⟨huser, hpass⟩
          rw [← huser, storedPass, ← hpass]
          exact parseUserPass_eq_some_iff.mp hparse
        · intro h
          have heq := Option.some.inj (hparse.symm.trans (parseUserPass_eq_some_iff.mpr h))
          rw [heq]
          exact ⟨rfl, rfl⟩
  · rw [if_pos (not_le.mp hmax)]
    simp [hmax]

/-! ### The stored credentials and no others -/

/-- The request of a user and a password passes when they are the stored ones. -/
def Unlocks (prefs : Prefs) (user pass : List UInt8) : Prop :=
  requireHttpAuth prefs (basicHeader user pass) = true ↔
    user = storedUser prefs ∧ pass = storedPass prefs

section

variable {prefs : Prefs}

theorem login_of_named (h : storedUser prefs ≠ []) : login prefs = storedUser prefs :=
  if_neg h

theorem FitsHeader.unlocks (hfits : FitsHeader prefs)
    (henabled : prefs.getBool kHttpAuthEnabled false = true)
    (hpass : prefs.getString kHttpAuthPass "" ≠ "") {user : List UInt8}
    (huser : kColon ∉ user ∨ user = storedUser prefs) (pass : List UInt8) :
    Unlocks prefs user pass := by
  rw [Unlocks, requireHttpAuth_basicHeader_iff henabled hpass, login_of_named hfits.named]
  constructor
  · rintro ⟨-, htext, -⟩
    rcases huser with huser | rfl
    · have hparse := parseUserPass_append huser pass
      rw [htext, parseUserPass_append hfits.noColon] at hparse
      cases hparse
      exact ⟨rfl, rfl⟩
    · exact ⟨rfl, List.tail_eq_of_cons_eq (List.append_cancel_left htext)⟩
  · rintro ⟨rfl, rfl⟩
    exact ⟨hfits.short, rfl, hfits.noColon⟩

theorem fitsHeader_of_unlocks (henabled : prefs.getBool kHttpAuthEnabled false = true)
    (hpass : prefs.getString kHttpAuthPass "" ≠ "")
    (h : Unlocks prefs (storedUser prefs) (storedPass prefs)) : FitsHeader prefs := by
  obtain ⟨hshort, htext, hcolon⟩ :=
    (requireHttpAuth_basicHeader_iff henabled hpass _ _).mp (h.mpr ⟨rfl, rfl⟩)
  have hlogin : storedUser prefs = login prefs := List.append_cancel_right htext
  refine ⟨fun hnil => ?_, hlogin ▸ hcolon, hshort⟩
  rw [hnil, login, if_pos hnil] at hlogin
  exact absurd hlogin (by decide)

/-- Cut at the first colon of the password, the text is the one of another pair. -/
theorem colon_notMem_storedPass (henabled : prefs.getBool kHttpAuthEnabled false = true)
    (hpass : prefs.getString kHttpAuthPass "" ≠ "") (hfits : FitsHeader prefs)
    (h : ∀ user pass, Unlocks prefs user pass) : kColon ∉ storedPass prefs := by
  intro hmem
  obtain ⟨pre, post, hsplit, -⟩ := List.eq_append_cons_of_mem hmem
  have hshort := hfits.short
  have haccept : requireHttpAuth prefs (basicHeader (storedUser prefs ++ kColon :: pre) post) =
      true := by
    refine (requireHttpAuth_basicHeader_iff henabled hpass _ _).mpr ⟨?_, ?_, ?_⟩
    · rw [hsplit] at hshort
      simp only [List.length_append, List.length_cons] at hshort ⊢
      omega
    · rw [login_of_named hfits.named, hsplit]
      simp
    · rw [login_of_named hfits.named]
      exact hfits.noColon
  have huser := ((h _ _).mp haccept).1
  simp at huser

/-- The stored credentials unlock the device, and no others, exactly when they fit the
header.  For this to hold of every pair of texts, those too of which the user has a colon, the
password has no colon either. -/
theorem unlocks_iff (henabled : prefs.getBool kHttpAuthEnabled false = true)
    (hpass : prefs.getString kHttpAuthPass "" ≠ "") :
    ((∀ user pass, kColon ∉ user ∨ user = storedUser prefs → Unlocks prefs user pass) ↔
        FitsHeader prefs) ∧
      ((∀ user pass, Unlocks prefs user pass) ↔
        FitsHeader prefs ∧ kColon ∉ storedPass prefs) := by
  refine ⟨⟨fun h => ?_, fun h user pass huser => h.unlocks henabled hpass huser pass⟩,
    fun h => ?_, ?_⟩
  · exact fitsHeader_of_unlocks henabled hpass (h _ _ (Or.inr rfl))
  · have hfits := fitsHeader_of_unlocks henabled hpass (h _ _)
    exact ⟨hfits, colon_notMem_storedPass henabled hpass hfits h⟩
  · rintro ⟨hfits, hcolon⟩ user pass
    by_cases huser : kColon ∈ user
    · have hreject : requireHttpAuth prefs (basicHeader user pass) ≠ true := by
        intro haccept
        obtain ⟨-, htext, -⟩ := (requireHttpAuth_basicHeader_iff henabled hpass _ _).mp haccept
        have hcount := congrArg (List.count kColon) htext
        rw [login_of_named hfits.named] at hcount
        simp only [List.count_append, List.count_cons_self, List.count_eq_zero.mpr hcolon,
          List.count_eq_zero.mpr hfits.noColon] at hcount
        have hpos := List.count_pos_iff.mpr huser
        omega
      refine iff_of_false hreject fun h => ?_
      exact hfits.noColon (h.1 ▸ huser)
    · exact hfits.unlocks henabled hpass (Or.inl huser) pass

end

/-- A request which enables the gate for that user. -/
def authBody (user : String) : Json :=
  .object
    [("httpAuthUser", .string user), ("httpAuthPass", .string "secret"),
      ("httpAuthEnabled", .bool true)]

/-- The store after that request. -/
def authStore (user : String) : Prefs :=
  applyWrites Prefs.empty (applyPatch {} (some (authBody user)) Prefs.empty).writes

theorem applyPatch_authBody {user : String} (h : user ∈ ["a:b", "ab"]) :
    let out := applyPatch {} (some (authBody user)) Prefs.empty
    (out.result.status, out.writes) =
      (.ok,
        [.setString kHttpAuthUser user, .setString kHttpAuthPass "secret",
          .setBool kHttpAuthEnabled true]) := by
  revert user
  decide

theorem authStore_spec (user : String) (h : user ∈ ["a:b", "ab"]) :
    (applyPatch {} (some (authBody user)) Prefs.empty).result.status = .ok ∧
      (authStore user).getBool kHttpAuthEnabled false = true ∧
        (authStore user).getString kHttpAuthPass "" = "secret" ∧
          (authStore user).getString kHttpAuthUser kDefaultUser = user := by
  obtain ⟨hstatus, hwrites⟩ := Prod.mk.inj (applyPatch_authBody h)
  refine ⟨hstatus, ?_⟩
  simp only [authStore, hwrites]
  exact ⟨rfl, rfl, rfl⟩

/-- The stored user `a:b` is locked out. -/
theorem not_unlocks_colon :
    (applyPatch {} (some (authBody "a:b")) Prefs.empty).result.status = .ok ∧
      (authStore "a:b").getBool kHttpAuthEnabled false = true ∧
        storedPass (authStore "a:b") ≠ [] ∧
          ¬Unlocks (authStore "a:b") (storedUser (authStore "a:b"))
            (storedPass (authStore "a:b")) := by
  obtain ⟨hstatus, henabled, hpass, huser⟩ := authStore_spec "a:b" (by simp)
  have hne : (authStore "a:b").getString kHttpAuthPass "" ≠ "" := by simp [hpass]
  refine ⟨hstatus, henabled, mt (bytesOf_eq_nil_iff _).mp hne, ?_⟩
  intro hunlocks
  obtain ⟨-, -, hcolon⟩ :=
    (requireHttpAuth_basicHeader_iff henabled hne _ _).mp (hunlocks.mpr ⟨rfl, rfl⟩)
  simp only [login, storedUser, huser] at hcolon
  exact hcolon (by decide)

theorem fitsHeader_ab : FitsHeader (authStore "ab") := by
  obtain ⟨-, -, hpass, huser⟩ := authStore_spec "ab" (by simp)
  refine ⟨?_, ?_, ?_⟩ <;> simp only [storedUser, storedPass, huser, hpass] <;> decide

/-- The stored user `ab` unlocks the device, and no other. -/
theorem unlocks_ab :
    (∀ user pass, kColon ∉ user ∨ user = storedUser (authStore "ab") →
        Unlocks (authStore "ab") user pass) ∧
      ∀ user pass, Unlocks (authStore "ab") user pass := by
  obtain ⟨-, henabled, hpass, -⟩ := authStore_spec "ab" (by simp)
  have hne : (authStore "ab").getString kHttpAuthPass "" ≠ "" := by simp [hpass]
  have hcolon : kColon ∉ storedPass (authStore "ab") := by
    rw [storedPass, hpass]
    decide
  exact ⟨(unlocks_iff henabled hne).1.mpr fitsHeader_ab,
    (unlocks_iff henabled hne).2.mpr ⟨fitsHeader_ab, hcolon⟩⟩

end Auth

end BtClock
