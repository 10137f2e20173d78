import BtClock.Nostr.Event
import BtClock.Nostr.Sha256

/-!
# Event verification

An event is genuine when its id is the hash of its canonical serialization and its
signature verifies for that id under the event's public key.  The curve operations are
those of the vendored `libsecp256k1`, taken as a parameter.
-/

namespace BtClock

namespace Nostr

namespace JsonEmit

/-- The escape sequence of a character, or the character itself. -/
def escapeChar (c : Char) : List Char :=
  if c = '"' then ['\\', '"']
  else if c = '\\' then ['\\', '\\']
  else if c = '\n' then ['\\', 'n']
  else if c = '\r' then ['\\', 'r']
  else if c = '\t' then ['\\', 't']
  else if c = Char.ofNat 8 then ['\\', 'b']
  else if c = Char.ofNat 12 then ['\\', 'f']
  else [c]

/-- A JSON string literal with its quotes. -/
def appendString (s : String) : List Char :=
  '"' :: s.toList.flatMap escapeChar ++ ['"']

def appendUint (n : ℕ) : List Char :=
  Nat.toDigits 10 n

end JsonEmit

open JsonEmit

/-- The elements separated by commas. -/
def joinComma (items : List (List Char)) : List Char :=
  (items.intersperse [',']).flatten

/-- The pre-image of the event id: the array of the public key, the time, the kind, the
tags and the content, without white space. -/
def serializeCanonical (ev : Event) : List Char :=
  "[0,".toList ++ appendString ev.pubkey ++ [','] ++ appendUint ev.createdAt.toNat ++ [','] ++
    appendUint ev.kind.toNat ++ [','] ++
    ['['] ++ joinComma (ev.tags.map fun t =>
      ['['] ++ joinComma (t.values.map appendString) ++ [']']) ++ [']'] ++
    [','] ++ appendString ev.content ++ [']']

def hexDigit (c : Char) : Option ℕ :=
  if '0' ≤ c ∧ c ≤ '9' then some (c.toNat - '0'.toNat)
  else if 'a' ≤ c ∧ c ≤ 'f' then some (10 + (c.toNat - 'a'.toNat))
  else if 'A' ≤ c ∧ c ≤ 'F' then some (10 + (c.toNat - 'A'.toNat))
  else none

theorem toNat_of_hexDigit {c : Char} (h : (hexDigit c).isSome = true) :
    '0'.toNat ≤ c.toNat ∧ c.toNat ≤ 'f'.toNat := by
  simp only [hexDigit] at h
  split at h
  · rename_i hc
    exact ⟨hc.1, Nat.le_trans hc.2 (by decide)⟩
  · split at h
    · rename_i hc
      exact ⟨Nat.le_trans (by decide) hc.1, hc.2⟩
    · split at h
      · rename_i hc
        exact ⟨Nat.le_trans (by decide) hc.1, Nat.le_trans hc.2 (by decide)⟩
      · cases h

/-- The bytes of a string of pairs of hex digits. -/
def hexPairs : List Char → Option (List UInt8)
  | [] => some []
  | [_] => none
  | hi :: lo :: hex => do
      let h ← hexDigit hi
      let l ← hexDigit lo
      let bytes ← hexPairs hex
      return UInt8.ofNat (16 * h + l) :: bytes

/-- Decodes a hex string of exactly `expectedBytes` bytes. -/
def hexDecode (hex : String) (expectedBytes : ℕ) : Option (List UInt8) :=
  if hex.length ≠ expectedBytes * 2 then none else hexPairs hex.toList

/-- A character of a byte string as a byte. -/
def byteOfChar (c : Char) : UInt8 :=
  UInt8.ofNat c.toNat

/-- The functions of the vendored `libsecp256k1` which the verifier calls.  A parsed
x-only public key is the library's opaque record of bytes. -/
structure Secp256k1 where
  xonlyPubkeyParse : List UInt8 → Option (List UInt8)
  schnorrsigVerify : (sig msg xonly : List UInt8) → Bool

inductive EventVerifyResult
  | ok
  | badHexLength
  | idMismatch
  | schnorrInvalid
  deriving DecidableEq, Repr

def verifyEvent (secp : Secp256k1) (ev : Event) : EventVerifyResult :=
  match hexDecode ev.id 32, hexDecode ev.pubkey 32, hexDecode ev.sig 64 with
  | some idBytes, some pkBytes, some sigBytes =>
      if sha256 ((serializeCanonical ev).map byteOfChar) ≠ idBytes then .idMismatch
      else
        match secp.xonlyPubkeyParse pkBytes with
        | none => .schnorrInvalid
        | some xonly =>
            if secp.schnorrsigVerify sigBytes idBytes xonly then .ok
            else .schnorrInvalid
  | _, _, _ => .badHexLength

/-- The key, the message and the signature which an event presents to the library. -/
def Event.signature (ev : Event) : List UInt8 × List UInt8 × List UInt8 :=
  ((hexDecode ev.pubkey 32).getD [], (hexDecode ev.id 32).getD [],
    (hexDecode ev.sig 64).getD [])

/-- The library on the keys and signatures of the given events, which it accepts. -/
def Secp256k1.ofEvents (evs : List Event) : Secp256k1 where
  xonlyPubkeyParse pk :=
    if pk ∈ evs.map fun ev => ev.signature.1 then some pk else none
  schnorrsigVerify sig msg xonly :=
    decide ((xonly, msg, sig) ∈ evs.map Event.signature)

/-- What an accepted event guarantees: the id is the hash of the contents, and the
signature over it verifies under the public key. -/
theorem verifyEvent_eq_ok_iff (secp : Secp256k1) (ev : Event) :
    verifyEvent secp ev = .ok ↔
      ∃ pk sig xonly, hexDecode ev.pubkey 32 = some pk ∧ hexDecode ev.sig 64 = some sig ∧
        hexDecode ev.id 32 = some (sha256 ((serializeCanonical ev).map byteOfChar)) ∧
        secp.xonlyPubkeyParse pk = some xonly ∧
        secp.schnorrsigVerify sig (sha256 ((serializeCanonical ev).map byteOfChar))
          xonly = true := by
  unfold verifyEvent
  constructor
  · intro h
    split at h
    · rename_i idBytes pk sig hid hpk hsig
      split at h
      · cases h
      · rename_i hne
        have heq := not_ne_iff.mp hne
        split at h
        · cases h
        · rename_i xonly hx
          split at h
          · rename_i hv
            exact ⟨pk, sig, xonly, hpk, hsig, heq ▸ hid, hx, heq ▸ hv⟩
          · cases h
    · cases h
  · rintro ⟨pk, sig, xonly, hpk, hsig, hid, hx, hv⟩
    simp [hpk, hsig, hid, hx, hv]

end Nostr

end BtClock
