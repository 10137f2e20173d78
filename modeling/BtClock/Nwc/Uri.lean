import BtClock.Nostr.EventVerify

/-!
# The pairing URI of Nostr Wallet Connect

A string is a byte string, with one character for each byte.
-/

namespace BtClock

namespace Nwc

open Nostr

inductive ParseError
  | badScheme
  | badPubkey
  | badSecret
  | badRelay
  | badPercentEscape
  deriving DecidableEq, Repr

structure PairingUri where
  walletPubkeyHex : String
  secretHex : String
  relays : List String := []
  lud16 : String := ""
  deriving DecidableEq, Repr

def kScheme : String := "nostr+walletconnect://"

def isHexString (s : List Char) : Bool :=
  s.all fun c => (hexDigit c).isSome

def lowerHexCopy (s : List Char) : String :=
  String.ofList (s.map fun c =>
    if 'A' ≤ c ∧ c ≤ 'F' then Char.ofNat (c.toNat + ('a'.toNat - 'A'.toNat)) else c)

/-- A plus sign stays as it is. -/
def percentDecode : List Char → Option (List Char)
  | [] => some []
  | '%' :: hi :: lo :: rest => do
      let h ← hexDigit hi
      let l ← hexDigit lo
      let out ← percentDecode rest
      return Char.ofNat (16 * h + l) :: out
  | '%' :: _ => none
  | c :: rest => (percentDecode rest).map (c :: ·)

/-- The pieces between the separators, with nothing after a separator at the end. -/
def segments (sep : Char) (s : List Char) : List (List Char) :=
  let pieces := s.splitOn sep
  if pieces.getLast? = some [] then pieces.dropLast else pieces

/-- The key of a pair and its decoded value, empty without an equals sign. -/
def parsePair (pair : List Char) : Option (String × String) := do
  let valueRaw := (pair.dropWhile (· ≠ '=')).drop 1
  let value ← percentDecode valueRaw
  return (String.ofList (pair.takeWhile (· ≠ '=')), String.ofList value)

def parseQuery (kvBlock : List Char) : Option (List (String × String)) :=
  (segments '&' kvBlock).mapM parsePair

def looksLikeRelay (url : String) : Bool :=
  "wss://".toList.isPrefixOf url.toList || "ws://".toList.isPrefixOf url.toList

/-- Fills the fields from the parameters; a key which is not known is ignored. -/
def readParams : List (String × String) → PairingUri → Except ParseError PairingUri
  | [], out => .ok out
  | (k, v) :: kvs, out =>
      if k = "relay" then
        if looksLikeRelay v then readParams kvs { out with relays := out.relays ++ [v] }
        else .error .badRelay
      else if k = "secret" then
        if v.length ≠ 64 ∨ isHexString v.toList = false then .error .badSecret
        else readParams kvs { out with secretHex := lowerHexCopy v.toList }
      else if k = "lud16" then readParams kvs { out with lud16 := v }
      else readParams kvs out

def parsePairingUri (uri : String) : Except ParseError PairingUri :=
  if kScheme.toList.isPrefixOf uri.toList = false then .error .badScheme
  else
    let rest := uri.toList.drop kScheme.length
    let pubPart := rest.takeWhile (· ≠ '?')
    let queryPart := (rest.dropWhile (· ≠ '?')).drop 1
    if pubPart.length ≠ 64 ∨ isHexString pubPart = false then .error .badPubkey
    else
      match parseQuery queryPart with
      | none => .error .badPercentEscape
      | some kvs =>
          match readParams kvs { walletPubkeyHex := lowerHexCopy pubPart, secretHex := "" } with
          | .error e => .error e
          | .ok out =>
              if out.relays = [] then .error .badRelay
              else if out.secretHex = "" then .error .badSecret
              else .ok out

/-- The three bytes of the ellipsis. -/
def kEllipsis : String := "\u00e2\u0080\u00a6"

def substr (s : String) (pos n : ℕ) : String :=
  String.ofList ((s.toList.drop pos).take n)

/-- The relay parameters, `relay=` in front of the first one. -/
def maskedRelays : List String → String
  | [] => ""
  | r :: rs => rs.foldl (fun out r => out ++ "&relay=" ++ r) ("relay=" ++ r)

def maskedUri (parsed : PairingUri) : String :=
  let pub :=
    if parsed.walletPubkeyHex.length ≥ 8 then substr parsed.walletPubkeyHex 0 8 ++ kEllipsis
    else parsed.walletPubkeyHex
  let secret := if parsed.secretHex = "" then "" else "&secret=" ++ kEllipsis
  let lud16 :=
    if parsed.lud16 = "" then ""
    else if parsed.lud16.length ≥ 7 then
      "&lud16=" ++ substr parsed.lud16 0 3 ++ kEllipsis ++
        substr parsed.lud16 (parsed.lud16.length - 3) 3
    else "&lud16=" ++ kEllipsis
  kScheme ++ pub ++ "?" ++ maskedRelays parsed.relays ++ secret ++ lud16

theorem secretHex_ne_of_parsePairingUri {uri : String} {parsed : PairingUri}
    (h : parsePairingUri uri = .ok parsed) : parsed.secretHex ≠ "" := by
  simp only [parsePairingUri] at h
  repeat' split at h
  all_goals simp_all

/-- Two pairings which differ in the secret only. -/
def SameButSecret (a b : PairingUri) : Prop :=
  a.walletPubkeyHex = b.walletPubkeyHex ∧ a.relays = b.relays ∧ a.lud16 = b.lud16

/-- The masked URI says of the secret only that there is one. -/
theorem maskedUri_congr {a b : PairingUri} (h : SameButSecret a b) (ha : a.secretHex ≠ "")
    (hb : b.secretHex ≠ "") : maskedUri a = maskedUri b := by
  obtain ⟨hpub, hrelays, hlud⟩ := h
  simp only [maskedUri, hpub, hrelays, hlud, if_neg ha, if_neg hb]

end Nwc

end BtClock
