import BtClock.Coding.Separated
import BtClock.Nwc.Uri
import Mathlib.Data.List.Forall2

/-!
# The grammar of pairing URIs

A pairing is spelled as its public key and its parameters, in any order and with others between
them, each byte of a value as it is or as two hex digits.  The parser reads every spelling of a
pairing, and what it accepts is well formed.
-/

namespace BtClock

namespace Nwc

open Nostr

/-! ### The grammar -/

def IsHex64 (s : List Char) : Prop :=
  s.length = 64 ∧ ∀ c ∈ s, (hexDigit c).isSome = true

/-- Lower case hex digits only. -/
def IsLowerHex64 (s : List Char) : Prop :=
  s.length = 64 ∧ ∀ c ∈ s, '0' ≤ c ∧ c ≤ '9' ∨ 'a' ≤ c ∧ c ≤ 'f'

def IsWebsocket (url : String) : Prop :=
  "wss://".toList <+: url.toList ∨ "ws://".toList <+: url.toList

/-- The text spells the value, some bytes of it by two hex digits. -/
inductive Spells : List Char → List Char → Prop
  | nil : Spells [] []
  | plain {c : Char} {value text : List Char} (hc : c ≠ '%') (h : Spells value text) :
      Spells (c :: value) (c :: text)
  | escaped {hi lo : Char} {m n : ℕ} {value text : List Char} (hhi : hexDigit hi = some m)
      (hlo : hexDigit lo = some n) (h : Spells value text) :
      Spells (Char.ofNat (16 * m + n) :: value) ('%' :: hi :: lo :: text)

/-- The text spells a parameter; without an equals sign the value is empty. -/
inductive SpellsParam : String × String → List Char → Prop
  | bare {key : List Char} (hkey : '=' ∉ key) : SpellsParam (String.ofList key, "") key
  | pair {key value text : List Char} (hkey : '=' ∉ key) (h : Spells value text) :
      SpellsParam (String.ofList key, String.ofList value) (key ++ '=' :: text)

def valuesOf (key : String) (params : List (String × String)) : List String :=
  (params.filter fun param => param.1 = key).map Prod.snd

/-- What a wallet gives out. -/
structure Pairing where
  walletPubkey : List Char
  secret : String
  relays : List String
  lud16 : Option String
  walletPubkey_hex : IsHex64 walletPubkey
  secret_hex : IsHex64 secret.toList
  relays_ne_nil : relays ≠ []
  relays_websocket : ∀ r ∈ relays, IsWebsocket r

/-- The parameters are those of the pairing, in any order and with unknown ones between. -/
structure Pairing.Lists (p : Pairing) (params : List (String × String)) : Prop where
  relays : valuesOf "relay" params = p.relays
  secret : valuesOf "secret" params = [p.secret]
  lud16 : valuesOf "lud16" params = p.lud16.toList

/-- The URI spells the pairing. -/
def Pairing.SpelledBy (p : Pairing) (uri : String) : Prop :=
  ∃ params texts, p.Lists params ∧ List.Forall₂ SpellsParam params texts ∧
    (∀ text ∈ texts, '&' ∉ text) ∧
    uri.toList = kScheme.toList ++ (p.walletPubkey ++ '?' :: ['&'].intercalate texts)

def lowerCase (s : List Char) : String :=
  String.ofList (s.map Char.toLower)

/-- The pairing as the parser returns it. -/
def Pairing.parsed (p : Pairing) : PairingUri where
  walletPubkeyHex := lowerCase p.walletPubkey
  secretHex := lowerCase p.secret.toList
  relays := p.relays
  lud16 := p.lud16.getD ""

structure PairingUri.WellFormed (parsed : PairingUri) : Prop where
  walletPubkey : IsLowerHex64 parsed.walletPubkeyHex.toList
  secret : IsLowerHex64 parsed.secretHex.toList
  relays_ne_nil : parsed.relays ≠ []
  relays_websocket : ∀ r ∈ parsed.relays, IsWebsocket r

/-! ### Hex digits -/

/-- What holds of the bytes holds of the hex digits. -/
theorem of_hexDigit {P : Char → Prop}
    (h : ∀ n < 128, (hexDigit (Char.ofNat n)).isSome = true → P (Char.ofNat n)) {c : Char}
    (hc : (hexDigit c).isSome = true) : P c := by
  have hlt : c.toNat < 128 := Nat.lt_of_le_of_lt (toNat_of_hexDigit hc).2 (by decide)
  rw [← Char.ofNat_toNat c]
  exact h c.toNat hlt (by rwa [Char.ofNat_toNat])

theorem lowerHexCopy_eq {s : List Char} (h : ∀ c ∈ s, (hexDigit c).isSome = true) :
    lowerHexCopy s = lowerCase s := by
  have hbytes : ∀ n < 128, (hexDigit (Char.ofNat n)).isSome = true →
      (if 'A' ≤ Char.ofNat n ∧ Char.ofNat n ≤ 'F' then
        Char.ofNat ((Char.ofNat n).toNat + ('a'.toNat - 'A'.toNat)) else Char.ofNat n) =
          (Char.ofNat n).toLower := by
    decide
  rw [lowerHexCopy, lowerCase]
  refine congrArg String.ofList (List.map_congr_left fun c hc => ?_)
  exact of_hexDigit (P := fun c => (if 'A' ≤ c ∧ c ≤ 'F' then
    Char.ofNat (c.toNat + ('a'.toNat - 'A'.toNat)) else c) = c.toLower) hbytes (h c hc)

theorem isLowerHex64_lowerCase {s : List Char} (h : IsHex64 s) :
    IsLowerHex64 (lowerCase s).toList := by
  have hbytes : ∀ n < 128, (hexDigit (Char.ofNat n)).isSome = true →
      '0' ≤ (Char.ofNat n).toLower ∧ (Char.ofNat n).toLower ≤ '9' ∨
        'a' ≤ (Char.ofNat n).toLower ∧ (Char.ofNat n).toLower ≤ 'f' := by
    decide
  rw [lowerCase, String.toList_ofList]
  refine ⟨by rw [List.length_map, h.1], ?_⟩
  intro c hc
  obtain ⟨d, hd, rfl⟩ := List.mem_map.mp hc
  exact of_hexDigit (P := fun d => '0' ≤ d.toLower ∧ d.toLower ≤ '9' ∨
    'a' ≤ d.toLower ∧ d.toLower ≤ 'f') hbytes (h.2 d hd)

theorem isHex64_iff (s : List Char) :
    ¬(s.length ≠ 64 ∨ isHexString s = false) ↔ IsHex64 s := by
  rw [not_or, not_not, Bool.not_eq_false, isHexString, List.all_eq_true, IsHex64]

theorem looksLikeRelay_iff (url : String) : looksLikeRelay url = true ↔ IsWebsocket url := by
  rw [looksLikeRelay, Bool.or_eq_true, List.isPrefixOf_iff_prefix, List.isPrefixOf_iff_prefix,
    IsWebsocket]

/-! ### Values and parameters -/

theorem percentDecode_plain {c : Char} (hc : c ≠ '%') (text : List Char) :
    percentDecode (c :: text) = (percentDecode text).map (c :: ·) := by
  rw [percentDecode]
  · exact fun _ _ _ h => absurd h hc
  · exact hc

/-- A text decodes to the value which it spells. -/
theorem percentDecode_eq_some_iff {text value : List Char} :
    percentDecode text = some value ↔ Spells value text := by
  constructor
  · intro h
    induction text using percentDecode.induct generalizing value with
    | case1 =>
        rw [percentDecode, Option.some.injEq] at h
        rw [← h]
        exact .nil
    | case2 hi lo rest ih =>
        simp only [percentDecode, Option.bind_eq_bind, Option.bind_eq_some_iff] at h
        obtain ⟨m, hm, n, hn, out, hout, heq⟩ := h
        rw [Option.pure_def, Option.some.injEq] at heq
        rw [← heq]
        exact .escaped hm hn (ih hout)
    | case3 tail hshort =>
        rw [percentDecode] at h
        · cases h
        · exact hshort
    | case4 c rest _ hc ih =>
        rw [percentDecode_plain hc, Option.map_eq_some_iff] at h
        obtain ⟨out, hout, heq⟩ := h
        rw [← heq]
        exact .plain hc (ih hout)
  · intro h
    induction h with
    | nil => rw [percentDecode]
    | plain hc h ih => rw [percentDecode_plain hc, ih, Option.map_some]
    | escaped hhi hlo h ih => simp only [percentDecode, hhi, hlo, ih]; rfl

example : Spells "wss://a".toList "wss%3A%2f/a".toList :=
  percentDecode_eq_some_iff.mp (by decide)

theorem parsePair_eq_some_iff {text : List Char} {param : String × String} :
    parsePair text = some param ↔ SpellsParam param text := by
  constructor
  · intro h
    obtain ⟨value, hvalue, heq⟩ := Option.bind_eq_some_iff.mp h
    rw [Option.pure_def, Option.some.injEq] at heq
    rw [← heq]
    by_cases hmem : '=' ∈ text
    · obtain ⟨key, rest, rfl, hkey⟩ := List.eq_append_cons_of_mem hmem
      obtain ⟨htake, hdrop⟩ := Separated.takeWhile_ne_append hkey rest
      rw [hdrop, List.drop_one, List.tail_cons] at hvalue
      rw [htake]
      exact .pair hkey (percentDecode_eq_some_iff.mp hvalue)
    · obtain ⟨htake, hdrop⟩ := Separated.takeWhile_ne_of_not_mem hmem
      rw [hdrop, List.drop_nil, percentDecode, Option.some.injEq] at hvalue
      rw [htake, ← hvalue]
      exact .bare hmem
  · intro h
    cases h with
    | bare hkey =>
        obtain ⟨htake, hdrop⟩ := Separated.takeWhile_ne_of_not_mem hkey
        rw [parsePair, htake, hdrop]
        rfl
    | @pair key value rest hkey hvalue =>
        obtain ⟨htake, hdrop⟩ := Separated.takeWhile_ne_append hkey rest
        rw [parsePair, htake, hdrop, List.drop_one, List.tail_cons,
          percentDecode_eq_some_iff.mpr hvalue]
        rfl

/-! ### The query -/

theorem mapM_parsePair_eq_some_iff {texts : List (List Char)} {params : List (String × String)} :
    texts.mapM parsePair = some params ↔ List.Forall₂ SpellsParam params texts := by
  constructor
  · intro h
    induction texts generalizing params with
    | nil =>
        cases h
        exact .nil
    | cons text texts ih =>
        rw [List.mapM_cons] at h
        obtain ⟨param, hparam, hrest⟩ := Option.bind_eq_some_iff.mp h
        obtain ⟨rest, hmap, heq⟩ := Option.bind_eq_some_iff.mp hrest
        rw [Option.pure_def, Option.some.injEq] at heq
        rw [← heq]
        exact .cons (parsePair_eq_some_iff.mp hparam) (ih hmap)
  · intro h
    induction h with
    | nil => rfl
    | cons hparam hrest ih =>
        rw [List.mapM_cons, parsePair_eq_some_iff.mpr hparam, ih]
        rfl

/-- Nothing is lost of the texts but an empty one at the end. -/
theorem segments_intercalate {texts : List (List Char)} (h : ∀ text ∈ texts, '&' ∉ text) :
    segments '&' (['&'].intercalate texts) = texts ∨
      ∃ front, texts = front ++ [[]] ∧ segments '&' (['&'].intercalate texts) = front := by
  by_cases hnil : texts = []
  · subst hnil
    exact Or.inl rfl
  · have hsplit : (['&'].intercalate texts).splitOn '&' = texts :=
      List.splitOn_intercalate '&' h hnil
    rw [segments, hsplit]
    by_cases hlast : texts.getLast? = some []
    · rw [if_pos hlast]
      obtain ⟨front, rfl⟩ := List.getLast?_eq_some_iff.mp hlast
      exact Or.inr ⟨front, rfl, List.dropLast_concat⟩
    · rw [if_neg hlast]
      exact Or.inl rfl

theorem valuesOf_append (key : String) (params params' : List (String × String)) :
    valuesOf key (params ++ params') = valuesOf key params ++ valuesOf key params' := by
  rw [valuesOf, List.filter_append, List.map_append]
  rfl

theorem valuesOf_cons (key : String) (param : String × String)
    (params : List (String × String)) :
    valuesOf key (param :: params) =
      (if param.1 = key then [param.2] else []) ++ valuesOf key params := by
  unfold valuesOf
  by_cases h : param.1 = key
  · simp [h]
  · simp [h]

theorem valuesOf_of_spells_nil {params : List (String × String)}
    (h : List.Forall₂ SpellsParam params [[]]) {key : String} (hkey : key ≠ "") :
    valuesOf key params = [] := by
  obtain ⟨param, rest, hparam, hrest, rfl⟩ := List.forall₂_cons_right_iff.mp h
  obtain rfl := List.forall₂_nil_right_iff.mp hrest
  have hname : param.1 = "" := by
    generalize htext : ([] : List Char) = text at hparam
    cases hparam with
    | bare hkey => rw [← htext]
    | pair hkey hvalue => simp at htext
  rw [valuesOf_cons, hname, if_neg (Ne.symm hkey)]
  rfl

/-- The parameters which are read say what those which are spelled say. -/
theorem exists_parseQuery {params : List (String × String)} {texts : List (List Char)}
    (h : List.Forall₂ SpellsParam params texts) (hsep : ∀ text ∈ texts, '&' ∉ text) :
    ∃ read, parseQuery (['&'].intercalate texts) = some read ∧
      ∀ key, key ≠ "" → valuesOf key read = valuesOf key params := by
  rcases segments_intercalate hsep with hall | ⟨front, hfront, hread⟩
  · refine ⟨params, ?_, fun _ _ => rfl⟩
    rw [parseQuery, hall, mapM_parsePair_eq_some_iff.mpr h]
  · subst hfront
    refine ⟨params.take front.length, ?_, ?_⟩
    · have hfirst := List.forall₂_take_append params front [[]] h
      rw [parseQuery, hread, mapM_parsePair_eq_some_iff.mpr hfirst]
    · intro key hkey
      have hnone := valuesOf_of_spells_nil (List.forall₂_drop_append params front [[]] h) hkey
      conv_rhs => rw [← List.take_append_drop front.length params]
      rw [valuesOf_append, hnone, List.append_nil]

/-! ### The fields -/

/-- The relays and the secrets are such as the parser takes. -/
structure Admissible (params : List (String × String)) : Prop where
  relays : ∀ r ∈ valuesOf "relay" params, IsWebsocket r
  secrets : ∀ s ∈ valuesOf "secret" params, IsHex64 s.toList

/-- The relays are collected; of the secrets and the addresses the last one stays. -/
def filled (params : List (String × String)) (out : PairingUri) : PairingUri :=
  { out with
    relays := out.relays ++ valuesOf "relay" params
    secretHex := (valuesOf "secret" params).foldl (fun _ s => lowerHexCopy s.toList) out.secretHex
    lud16 := (valuesOf "lud16" params).foldl (fun _ s => s) out.lud16 }

theorem forall_valuesOf_cons (P : String → Prop) (key key' value : String)
    (params : List (String × String)) :
    (∀ v ∈ valuesOf key' ((key, value) :: params), P v) ↔
      (key = key' → P value) ∧ ∀ v ∈ valuesOf key' params, P v := by
  rw [valuesOf_cons, List.forall_mem_append]
  refine and_congr_left fun _ => ?_
  by_cases h : key = key'
  · simp [h]
  · simp [h]

theorem admissible_cons_iff (key value : String) (params : List (String × String)) :
    Admissible ((key, value) :: params) ↔
      ((key = "relay" → IsWebsocket value) ∧ (key = "secret" → IsHex64 value.toList)) ∧
        Admissible params := by
  constructor
  · rintro ⟨hrelays, hsecrets⟩
    obtain ⟨hrelay, hrelays⟩ := (forall_valuesOf_cons _ key "relay" value params).mp hrelays
    obtain ⟨hsecret, hsecrets⟩ := (forall_valuesOf_cons _ key "secret" value params).mp hsecrets
    exact ⟨⟨hrelay, hsecret⟩, hrelays, hsecrets⟩
  · rintro ⟨⟨hrelay, hsecret⟩, h⟩
    exact ⟨(forall_valuesOf_cons _ key "relay" value params).mpr ⟨hrelay, h.relays⟩,
      (forall_valuesOf_cons _ key "secret" value params).mpr ⟨hsecret, h.secrets⟩⟩

theorem readParams_eq_ok_iff {params : List (String × String)} {out result : PairingUri} :
    readParams params out = .ok result ↔ Admissible params ∧ result = filled params out := by
  induction params generalizing out with
  | nil =>
      have hnil : filled [] out = out := by simp [filled, valuesOf]
      rw [readParams, hnil, Except.ok.injEq, eq_comm]
      exact (and_iff_right ⟨by simp [valuesOf], by simp [valuesOf]⟩).symm
  | cons param params ih =>
      obtain ⟨key, value⟩ := param
      rw [readParams, admissible_cons_iff]
      by_cases hrelay : key = "relay"
      · subst hrelay
        rw [if_pos rfl]
        by_cases hws : IsWebsocket value
        · rw [if_pos ((looksLikeRelay_iff value).mpr hws), ih]
          simp [filled, valuesOf_cons, hws]
        · rw [if_neg (mt (looksLikeRelay_iff value).mp hws)]
          simp [hws]
      · rw [if_neg hrelay]
        by_cases hsecret : key = "secret"
        · subst hsecret
          rw [if_pos rfl]
          have hlength : value.length = value.toList.length := String.length_toList.symm
          by_cases hhex : IsHex64 value.toList
          · rw [if_neg (by rw [hlength]; exact (isHex64_iff _).mpr hhex), ih]
            simp [filled, valuesOf_cons, hhex]
          · rw [if_pos (by rw [hlength]; exact not_not.mp (mt (isHex64_iff _).mp hhex))]
            simp [hhex]
        · rw [if_neg hsecret]
          by_cases hlud16 : key = "lud16"
          · subst hlud16
            rw [if_pos rfl, ih]
            simp [filled, valuesOf_cons]
          · rw [if_neg hlud16, ih]
            simp [filled, valuesOf_cons, hrelay, hsecret, hlud16]

/-! ### The URI -/

theorem not_mem_of_isHex64 {pub : List Char} (h : IsHex64 pub) : '?' ∉ pub :=
  fun hmem => absurd (h.2 '?' hmem) (by decide)

theorem isLowerHex64_secretHex {params : List (String × String)} {out : PairingUri}
    (h : Admissible params) (hsecret : valuesOf "secret" params ≠ []) :
    IsLowerHex64 (filled params out).secretHex.toList := by
  obtain ⟨front, last, hlast⟩ := (List.eq_nil_or_concat (valuesOf "secret" params)).resolve_left
    hsecret
  have hhex : IsHex64 last.toList := h.secrets last (by rw [hlast]; simp)
  unfold filled
  rw [hlast, List.concat_eq_append, List.foldl_append, List.foldl_cons, List.foldl_nil,
    lowerHexCopy_eq hhex.2]
  exact isLowerHex64_lowerCase hhex

/-- Without a secret among the parameters the field stays empty, and only then. -/
theorem secretHex_eq_empty_iff {params : List (String × String)} {pub : String}
    (h : Admissible params) :
    (filled params { walletPubkeyHex := pub, secretHex := "" }).secretHex = "" ↔
      valuesOf "secret" params = [] := by
  constructor
  · intro hempty
    by_contra hne
    have hhex : IsLowerHex64
        (filled params { walletPubkeyHex := pub, secretHex := "" }).secretHex.toList :=
      isLowerHex64_secretHex h hne
    rw [hempty] at hhex
    cases hhex.1
  · intro hnil
    rw [filled, hnil]
    rfl

/-- The URI is a public key and parameters, relays and secrets among them. -/
structure IsPairingText (uri : String) (pub query : List Char)
    (params : List (String × String)) : Prop where
  text : uri.toList = kScheme.toList ++ (pub ++ '?' :: query)
  pub_hex : IsHex64 pub
  spells : List.Forall₂ SpellsParam params (segments '&' query)
  admissible : Admissible params
  relays : valuesOf "relay" params ≠ []
  secrets : valuesOf "secret" params ≠ []

/-- What the parser does behind an accepted public key. -/
def readQuery (pub query : List Char) : Except ParseError PairingUri :=
  match parseQuery query with
  | none => .error .badPercentEscape
  | some kvs =>
      match readParams kvs { walletPubkeyHex := lowerCase pub, secretHex := "" } with
      | .error e => .error e
      | .ok out =>
          if out.relays = [] then .error .badRelay
          else if out.secretHex = "" then .error .badSecret
          else .ok out

theorem parsePairingUri_eq_readQuery {uri : String} {pub query : List Char}
    (huri : uri.toList = kScheme.toList ++ (pub ++ '?' :: query)) (hpub : IsHex64 pub) :
    parsePairingUri uri = readQuery pub query := by
  have hscheme : kScheme.toList.isPrefixOf uri.toList = true := by
    rw [List.isPrefixOf_iff_prefix, huri]
    exact List.prefix_append _ _
  have hdrop : uri.toList.drop kScheme.length = pub ++ '?' :: query := by
    rw [huri, ← String.length_toList, List.drop_left]
  obtain ⟨htake, hrest⟩ := Separated.takeWhile_ne_append (not_mem_of_isHex64 hpub) query
  rw [parsePairingUri, if_neg (by rw [hscheme]; decide), hdrop]
  dsimp only
  rw [htake, hrest, List.drop_one, List.tail_cons, if_neg ((isHex64_iff pub).mpr hpub),
    lowerHexCopy_eq hpub.2]
  rfl

/-- Nothing is accepted without the scheme, a public key and a query. -/
theorem exists_text_of_parsePairingUri {uri : String} {parsed : PairingUri}
    (h : parsePairingUri uri = .ok parsed) :
    ∃ pub query, uri.toList = kScheme.toList ++ (pub ++ '?' :: query) ∧ IsHex64 pub := by
  rw [parsePairingUri] at h
  by_cases hscheme : kScheme.toList.isPrefixOf uri.toList = true
  · obtain ⟨rest, huri⟩ := List.isPrefixOf_iff_prefix.mp hscheme
    have hdrop : uri.toList.drop kScheme.length = rest := by
      rw [← huri, ← String.length_toList, List.drop_left]
    rw [if_neg (by rw [hscheme]; decide), hdrop] at h
    by_cases hmark : '?' ∈ rest
    · obtain ⟨pub, query, rfl, hpub⟩ := List.eq_append_cons_of_mem hmark
      obtain ⟨htake, -⟩ := Separated.takeWhile_ne_append hpub query
      dsimp only at h
      rw [htake] at h
      refine ⟨pub, query, huri.symm, ?_⟩
      by_contra hhex
      rw [if_pos (not_not.mp (mt (isHex64_iff pub).mp hhex))] at h
      cases h
    -- Without a query there are no parameters, and no relay among them.
    · obtain ⟨htake, hquery⟩ := Separated.takeWhile_ne_of_not_mem hmark
      dsimp only at h
      rw [htake, hquery] at h
      split at h
      · cases h
      · cases h
  · rw [if_pos (Bool.not_eq_true _ ▸ hscheme)] at h
    cases h

theorem readQuery_eq_ok_iff {pub query : List Char} {parsed : PairingUri} :
    readQuery pub query = .ok parsed ↔
      ∃ params, List.Forall₂ SpellsParam params (segments '&' query) ∧ Admissible params ∧
        valuesOf "relay" params ≠ [] ∧ valuesOf "secret" params ≠ [] ∧
          parsed = filled params { walletPubkeyHex := lowerCase pub, secretHex := "" } := by
  constructor
  · intro h
    unfold readQuery at h
    split at h
    · cases h
    · rename_i params hparams
      split at h
      · cases h
      · rename_i out hout
        obtain ⟨hadmissible, rfl⟩ := readParams_eq_ok_iff.mp hout
        split_ifs at h with hrelays hsecret
        cases h
        exact ⟨params, mapM_parsePair_eq_some_iff.mp hparams, hadmissible, hrelays,
          mt (secretHex_eq_empty_iff hadmissible).mpr hsecret, rfl⟩
  · rintro ⟨params, hspells, hadmissible, hrelays, hsecrets, rfl⟩
    have hfields : readParams params { walletPubkeyHex := lowerCase pub, secretHex := "" } =
        .ok (filled params { walletPubkeyHex := lowerCase pub, secretHex := "" }) :=
      readParams_eq_ok_iff.mpr ⟨hadmissible, rfl⟩
    rw [readQuery, parseQuery, mapM_parsePair_eq_some_iff.mpr hspells]
    dsimp only
    rw [hfields]
    exact (if_neg hrelays).trans (if_neg (mt (secretHex_eq_empty_iff hadmissible).mp hsecrets))

/-- What is accepted, and what is returned for it. -/
theorem parsePairingUri_eq_ok_iff {uri : String} {parsed : PairingUri} :
    parsePairingUri uri = .ok parsed ↔ ∃ pub query params, IsPairingText uri pub query params ∧
      parsed = filled params { walletPubkeyHex := lowerCase pub, secretHex := "" } := by
  constructor
  · intro h
    obtain ⟨pub, query, huri, hpub⟩ := exists_text_of_parsePairingUri h
    rw [parsePairingUri_eq_readQuery huri hpub] at h
    obtain ⟨params, hspells, hadmissible, hrelays, hsecrets, hparsed⟩ := readQuery_eq_ok_iff.mp h
    exact ⟨pub, query, params, ⟨huri, hpub, hspells, hadmissible, hrelays, hsecrets⟩, hparsed⟩
  · rintro ⟨pub, query, params, h, hparsed⟩
    rw [parsePairingUri_eq_readQuery h.text h.pub_hex]
    exact readQuery_eq_ok_iff.mpr
      ⟨params, h.spells, h.admissible, h.relays, h.secrets, hparsed⟩

/-- Every spelling of a pairing is read as the pairing. -/
theorem parsePairingUri_of_spelledBy {p : Pairing} {uri : String} (h : p.SpelledBy uri) :
    parsePairingUri uri = .ok p.parsed := by
  obtain ⟨params, texts, hlists, hspells, hsep, huri⟩ := h
  obtain ⟨read, hread, hvalues⟩ := exists_parseQuery hspells hsep
  have hrelays : valuesOf "relay" read = p.relays :=
    (hvalues "relay" (by decide)).trans hlists.relays
  have hsecret : valuesOf "secret" read = [p.secret] :=
    (hvalues "secret" (by decide)).trans hlists.secret
  have hlud16 : valuesOf "lud16" read = p.lud16.toList :=
    (hvalues "lud16" (by decide)).trans hlists.lud16
  refine parsePairingUri_eq_ok_iff.mpr ⟨p.walletPubkey, ['&'].intercalate texts, read, ?_, ?_⟩
  · constructor
    · exact huri
    · exact p.walletPubkey_hex
    · exact mapM_parsePair_eq_some_iff.mp hread
    · constructor
      · rw [hrelays]
        exact p.relays_websocket
      · rw [hsecret]
        simpa using p.secret_hex
    · rw [hrelays]
      exact p.relays_ne_nil
    · rw [hsecret]
      exact List.cons_ne_nil _ _
  · unfold filled Pairing.parsed
    rw [hrelays, hsecret, hlud16, List.foldl_cons, List.foldl_nil,
      lowerHexCopy_eq p.secret_hex.2]
    cases p.lud16 with
    | none => rfl
    | some address => rfl

/-- What is accepted is well formed. -/
theorem wellFormed_of_parsePairingUri {uri : String} {parsed : PairingUri}
    (h : parsePairingUri uri = .ok parsed) : parsed.WellFormed := by
  obtain ⟨pub, query, params, htext, rfl⟩ := parsePairingUri_eq_ok_iff.mp h
  constructor
  · exact isLowerHex64_lowerCase htext.pub_hex
  · exact isLowerHex64_secretHex htext.admissible htext.secrets
  · exact htext.relays
  · exact htext.admissible.relays

/-- The parser takes every spelling of a pairing for it, and takes nothing that is malformed. -/
theorem parsePairingUri_spec :
    (∀ (p : Pairing) (uri : String), p.SpelledBy uri → parsePairingUri uri = .ok p.parsed) ∧
      ∀ (uri : String) (parsed : PairingUri), parsePairingUri uri = .ok parsed →
        parsed.WellFormed :=
  ⟨fun _ _ h => parsePairingUri_of_spelledBy h, fun _ _ h => wellFormed_of_parsePairingUri h⟩

end Nwc

end BtClock
