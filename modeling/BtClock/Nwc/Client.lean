import BtClock.Nostr.EventVerify
import BtClock.Nostr.SubscriptionManager
import BtClock.Nwc.JsonRpc
import BtClock.Nwc.Uri

/-!
# The Nostr Wallet Connect client

The state machine of `NwcClient` with the callbacks which `InitNwc` installs.  The ciphers
of NIP-04 and NIP-44, the curve operations of the signer and the JSON library are
parameters.  The keys are a function of the pairing, so their caches are left out.
-/

namespace BtClock

namespace Nwc

open Nostr

def kKindInfo : UInt32 := 13194

def kKindRequest : UInt32 := 23194

def kKindResponse : UInt32 := 23195

def kKindNotifModern : UInt32 := 23197

def kKindNotifLegacy : UInt32 := 23196

inductive EncryptionVariant
  | nip04
  | nip44V2
  deriving DecidableEq, Repr

def encryptionTagText : EncryptionVariant → String
  | .nip44V2 => "nip44_v2"
  | .nip04 => "nip04"

def parseEncryptionTag (token : String) : EncryptionVariant :=
  if token = "nip44_v2" ∨ token = "nip44-v2" ∨ token = "nip44" then .nip44V2 else .nip04

/-- What the client calls outside of its own code. -/
structure Library where
  decrypt : EncryptionVariant → (seckey pubkey : List UInt8) → String → Option String
  nip44ConversationKey : (seckey pubkey : List UInt8) → Option (List UInt8)
  nip44EncryptV2 : (conversationKey nonce : List UInt8) → String → String
  nip04Encrypt : (seckey pubkey iv : List UInt8) → String → String
  derivePubkeyXOnly : List UInt8 → Option (List UInt8)
  schnorrSign : (seckey msg aux : List UInt8) → Option (List UInt8)
  jsonParse : String → Option Json

/-- The clocks and the random bytes which one call draws. -/
structure Env where
  wallclockSecs : ℤ := 0
  uptimeSecs : ℤ := 0
  nonce : List UInt8 := List.replicate 32 0
  aux : List UInt8 := List.replicate 32 0

/-- The wall clock once it is set, the uptime before. -/
def Env.nowSecs (env : Env) : ℤ :=
  if env.wallclockSecs > 1700000000 then env.wallclockSecs else env.uptimeSecs

/-- The time as an unsigned number. -/
def Env.nowU64 (env : Env) : ℕ :=
  (env.nowSecs % 2 ^ 64).toNat

inductive State
  | idle
  | bootstrapping
  | ready
  | fatal
  deriving DecidableEq, Repr

structure SeenPayment where
  hash : String := ""
  tsSecs : ℕ := 0
  deriving DecidableEq, Repr

def kDedupRing : ℕ := 8

theorem kDedupRing_pos : 0 < kDedupRing := by decide

def kDedupWindowSecs : ℕ := 120

structure NwcClient where
  pairing : PairingUri
  encryption : EncryptionVariant := .nip44V2
  inflightRequestId : String := ""
  inflightMethod : String := ""
  balanceMsatCache : UInt64 := 0
  state : State := .idle
  dedupRing : Vector SeenPayment 8 := Vector.replicate 8 {}
  dedupNext : Fin 8 := ⟨0, kDedupRing_pos⟩
  /-- The one-shot latch of the balance callback. -/
  bootPollDone : Bool := false
  deriving DecidableEq

/-- A call of one of the client's hooks. -/
inductive Hook
  | publish (frame : String)
  | ready (info : InfoEvent)
  | balance (balanceMsat : UInt64)
  | payment (pn : PaymentNotification)
  deriving DecidableEq

structure RawNotification where
  kind : UInt32
  content : String
  eventId : String
  deriving DecidableEq, Repr

def hexChar (n : ℕ) : Char :=
  if n < 10 then Char.ofNat ('0'.toNat + n) else Char.ofNat ('a'.toNat + (n - 10))

def hexLowercase (bytes : List UInt8) : String :=
  String.ofList (bytes.flatMap fun b => [hexChar (b.toNat / 16), hexChar (b.toNat % 16)])

/-- Fills in the public key, the id and the signature. -/
def signEvent (lib : Library) (seckey aux : List UInt8) (ev : Event) : Option Event := do
  let pubkey ← lib.derivePubkeyXOnly seckey
  let ev := { ev with pubkey := hexLowercase pubkey }
  let id := sha256 ((serializeCanonical ev).map byteOfChar)
  let sig ← lib.schnorrSign seckey id aux
  return { ev with id := hexLowercase id, sig := hexLowercase sig }

def serializeEventFrame (ev : Event) : String :=
  String.ofList <|
    "[\"EVENT\",\x7b\"id\":".toList ++ JsonEmit.appendString ev.id ++
      ",\"pubkey\":".toList ++ JsonEmit.appendString ev.pubkey ++
      ",\"created_at\":".toList ++ JsonEmit.appendUint ev.createdAt.toNat ++
      ",\"kind\":".toList ++ JsonEmit.appendUint ev.kind.toNat ++
      ",\"tags\":[".toList ++
      joinComma (ev.tags.map fun t =>
        ['['] ++ joinComma (t.values.map JsonEmit.appendString) ++ [']']) ++
      "],\"content\":".toList ++ JsonEmit.appendString ev.content ++
      ",\"sig\":".toList ++ JsonEmit.appendString ev.sig ++ "\x7d]".toList

namespace NwcClient

/-- The secret key and the wallet's public key, decoded from the pairing. -/
def loadKeys (c : NwcClient) : Option (List UInt8 × List UInt8) := do
  let seckey ← hexDecode c.pairing.secretHex 32
  let walletPub ← hexDecode c.pairing.walletPubkeyHex 32
  return (seckey, walletPub)

def subIdInfo (c : NwcClient) : String :=
  "nwci-" ++ String.ofList (c.pairing.walletPubkeyHex.toList.take 8)

def subIdRpc (c : NwcClient) : String :=
  "nwcr-" ++ String.ofList (c.pairing.walletPubkeyHex.toList.take 8)

/-- The subscriptions which `Start` opens, and the new state. -/
def start (lib : Library) (c : NwcClient) : NwcClient × List (String × Filter) :=
  match c.loadKeys with
  | none => ({ c with state := .fatal }, [])
  | some (seckey, _) =>
      match lib.derivePubkeyXOnly seckey with
      | none => ({ c with state := .fatal }, [])
      | some ours =>
          ({ c with state := .bootstrapping },
            [(c.subIdInfo,
                { kinds := [kKindInfo], authors := [c.pairing.walletPubkeyHex], limit := 1 }),
              (c.subIdRpc,
                { kinds := [kKindResponse, kKindNotifModern, kKindNotifLegacy]
                  authors := [c.pairing.walletPubkeyHex]
                  pTags := [hexLowercase ours] })])

/-- The subscriptions which `Stop` closes, and the new state. -/
def stop (c : NwcClient) : NwcClient × List String :=
  ({ c with state := .idle, inflightRequestId := "", inflightMethod := "" },
    [c.subIdInfo, c.subIdRpc])

/-- The signed request event, if it can be made. -/
def signedRequest (lib : Library) (env : Env) (c : NwcClient) (payload : String) :
    Option Event :=
  if c.state = .fatal then none
  else do
    let (seckey, walletPub) ← c.loadKeys
    let content ←
      match c.encryption with
      | .nip44V2 =>
          (lib.nip44ConversationKey seckey walletPub).map fun key =>
            lib.nip44EncryptV2 key (env.nonce.take 32) payload
      | .nip04 => some (lib.nip04Encrypt seckey walletPub (env.nonce.take 16) payload)
    if content = "" then none
    else
      signEvent lib seckey env.aux
        { createdAt := UInt64.ofNat env.nowU64
          kind := kKindRequest
          content := content
          tags :=
            [⟨["p", c.pairing.walletPubkeyHex]⟩,
              ⟨["encryption", encryptionTagText c.encryption]⟩] }

def publishSignedRequest (lib : Library) (env : Env) (c : NwcClient) (payload : String) :
    NwcClient × List Hook :=
  match c.signedRequest lib env payload with
  | none => (c, [])
  | some ev => ({ c with inflightRequestId := ev.id }, [.publish (serializeEventFrame ev)])

def requestGetBalance (lib : Library) (env : Env) (c : NwcClient) : NwcClient × List Hook :=
  { c with inflightMethod := "get_balance" }.publishSignedRequest lib env
    buildGetBalanceRequest

def requestListTransactions (lib : Library) (env : Env) (c : NwcClient) (fromSecs : ℤ)
    (limit : ℕ) : NwcClient × List Hook :=
  { c with inflightMethod := "list_transactions" }.publishSignedRequest lib env
    (buildListTransactionsRequest fromSecs limit)

/-- The balance callback: the first one asks for the transactions of the last ten minutes,
if the wall clock is set. -/
def onBalance (lib : Library) (env : Env) (c : NwcClient) : NwcClient × List Hook :=
  if c.bootPollDone then (c, [])
  else
    let c := { c with bootPollDone := true }
    if env.wallclockSecs ≤ 1700000000 then (c, [])
    else c.requestListTransactions lib env (env.wallclockSecs - 600) 20

/-- Was a payment of that hash seen within the window? -/
def isDuplicatePayment (env : Env) (c : NwcClient) (hash : String) : Bool :=
  c.dedupRing.toList.any fun e =>
    e.tsSecs ≠ 0 && e.hash == hash &&
      (env.nowU64 = 0 || (env.nowU64 + 2 ^ 64 - e.tsSecs) % 2 ^ 64 ≤ kDedupWindowSecs)

def notePayment (env : Env) (c : NwcClient) (hash : String) : NwcClient :=
  { c with
    dedupRing := c.dedupRing.set c.dedupNext { hash := hash, tsSecs := env.nowU64 }
    dedupNext := c.dedupNext + 1 }

/-- The payment is dropped as a duplicate. -/
def dropsPayment (env : Env) (c : NwcClient) (pn : PaymentNotification) : Bool :=
  pn.paymentHash != "" && c.isDuplicatePayment env pn.paymentHash

def balanceAfter (balance : UInt64) (pn : PaymentNotification) : UInt64 :=
  match pn.direction with
  | .incoming => balance + pn.amountMsat
  | .outgoing =>
      let total := pn.amountMsat + pn.feesPaidMsat
      if balance > total then balance - total else 0
  | .unknown => balance

def applyPaymentToBalance (env : Env) (c : NwcClient) (pn : PaymentNotification) :
    NwcClient × List Hook :=
  if c.dropsPayment env pn then (c, [])
  else
    let c := if pn.paymentHash = "" then c else c.notePayment env pn.paymentHash
    ({ c with balanceMsatCache := balanceAfter c.balanceMsatCache pn }, [.payment pn])

section

variable (env : Env) (c : NwcClient) {pn : PaymentNotification}

theorem applyPaymentToBalance_of_drops (h : c.dropsPayment env pn = true) :
    c.applyPaymentToBalance env pn = (c, []) := by
  rw [applyPaymentToBalance, if_pos h]

theorem applyPaymentToBalance_hooks (h : c.dropsPayment env pn = false) :
    (c.applyPaymentToBalance env pn).2 = [.payment pn] := by
  simp [applyPaymentToBalance, h]

end

/-- Applies the payments in turn. -/
def applyPayments (env : Env) (c : NwcClient) : List PaymentNotification → NwcClient × List Hook
  | [] => (c, [])
  | pn :: pns =>
      let r := c.applyPaymentToBalance env pn
      let r' := applyPayments env r.1 pns
      (r'.1, r.2 ++ r'.2)

def onInfoEvent (lib : Library) (env : Env) (c : NwcClient) (ev : Event) :
    NwcClient × List Hook :=
  match decodeInfoEvent ev.content ev.tags with
  | none => (c, [])
  | some info =>
      let chosen : EncryptionVariant :=
        if "nip44_v2" ∈ info.encryption then .nip44V2 else .nip04
      -- the ready callback sends the first balance request
      let r := { c with encryption := chosen, state := .ready }.requestGetBalance lib env
      (r.1, .ready info :: r.2)

/-- The first tag of that name which has a value. -/
def findTagValue (ev : Event) (name : String) : Option String :=
  (ev.tags.find? fun t => decide (t.values.length ≥ 2) && t.values.head? == some name).map
    fun t => t.at 1

/-- The variant of a response: its own tag, or the one negotiated. -/
def responseVariant (c : NwcClient) (ev : Event) : EncryptionVariant :=
  match findTagValue ev "encryption" with
  | some token => parseEncryptionTag token
  | none => c.encryption

def matchesInflight (c : NwcClient) (ev : Event) : Bool :=
  findTagValue ev "e" == some c.inflightRequestId

def clearInflight (c : NwcClient) : NwcClient :=
  { c with inflightRequestId := "", inflightMethod := "" }

def onBalanceResponse (lib : Library) (env : Env) (c : NwcClient) (plaintext : String) :
    NwcClient × List Hook :=
  match decodeBalanceResponse (lib.jsonParse plaintext) with
  | .ok balance =>
      let r := { c with balanceMsatCache := balance }.clearInflight.onBalance lib env
      (r.1, .balance balance :: r.2)
  | .error _ => (c.clearInflight, [])

/-- The transactions are applied in the order of their settlement. -/
def onListTransactionsResponse (lib : Library) (env : Env) (c : NwcClient)
    (plaintext : String) : NwcClient × List Hook :=
  match decodeListTransactionsResponse (lib.jsonParse plaintext) with
  | .ok txs =>
      c.clearInflight.applyPayments env
        (txs.mergeSort fun a b => decide (a.settledAt ≤ b.settledAt))
  | .error _ => (c.clearInflight, [])

def onResponse (lib : Library) (env : Env) (c : NwcClient) (ev : Event) :
    NwcClient × List Hook :=
  match c.loadKeys with
  | none => (c, [])
  | some (seckey, walletPub) =>
      match lib.decrypt (c.responseVariant ev) seckey walletPub ev.content with
      | none => (c, [])
      | some plaintext =>
          if c.matchesInflight ev = true ∨ c.inflightRequestId = "" then
            if c.inflightMethod = "get_balance" then c.onBalanceResponse lib env plaintext
            else if c.inflightMethod = "list_transactions" then
              c.onListTransactionsResponse lib env plaintext
            else (c, [])
          else (c, [])

/-- What a notification leaves for the worker. -/
def rawNotification (ev : Event) : RawNotification where
  kind := ev.kind
  content := ev.content
  eventId := ev.id

def notificationVariant (kind : UInt32) : EncryptionVariant :=
  if kind = kKindNotifModern then .nip44V2 else .nip04

/-- `HandleEvent`: the new state, the hooks called, and the notification to enqueue. -/
def handleEvent (lib : Library) (env : Env) (c : NwcClient) (ev : Event) :
    (NwcClient × List Hook) × Option RawNotification :=
  if c.state = .fatal then ((c, []), none)
  else if ev.kind = kKindInfo then (c.onInfoEvent lib env ev, none)
  else if ev.kind = kKindResponse then (c.onResponse lib env ev, none)
  else if ev.kind = kKindNotifModern then ((c, []), some (rawNotification ev))
  else if ev.kind = kKindNotifLegacy then
    -- the legacy twin of a modern notification is dropped
    if c.state = .ready ∧ c.encryption = .nip44V2 then ((c, []), none)
    else ((c, []), some (rawNotification ev))
  else ((c, []), none)

theorem handleEvent_of_modern (lib : Library) (env : Env) {c : NwcClient} {ev : Event}
    (hstate : c.state ≠ .fatal) (hkind : ev.kind = kKindNotifModern) :
    c.handleEvent lib env ev = ((c, []), some (rawNotification ev)) := by
  have hinfo : ev.kind ≠ kKindInfo := by rw [hkind]; decide
  have hresponse : ev.kind ≠ kKindResponse := by rw [hkind]; decide
  rw [handleEvent, if_neg hstate, if_neg hinfo, if_neg hresponse, if_pos hkind]

/-- The balance is asked for again after a payment, unless another request is out. -/
def refreshBalance (lib : Library) (env : Env) (c : NwcClient) : NwcClient × List Hook :=
  if c.state = .ready ∧ (c.inflightMethod = "" ∨ c.inflightMethod = "get_balance") then
    c.requestGetBalance lib env
  else (c, [])

/-- The payment which the worker reads from a notification. -/
def decodeNotification (lib : Library) (c : NwcClient) (raw : RawNotification) :
    Option PaymentNotification :=
  match c.loadKeys with
  | none => none
  | some (seckey, walletPub) =>
      match lib.decrypt (notificationVariant raw.kind) seckey walletPub raw.content with
      | none => none
      | some plaintext => (decodePaymentNotification (lib.jsonParse plaintext)).toOption

/-- `DispatchRawNotification`, on the worker task. -/
def dispatchRawNotification (lib : Library) (env : Env) (c : NwcClient)
    (raw : RawNotification) : NwcClient × List Hook :=
  match c.decodeNotification lib raw with
  | none => (c, [])
  | some pn =>
      let r := c.applyPaymentToBalance env pn
      let r' := r.1.refreshBalance lib env
      (r'.1, r.2 ++ r'.2)

end NwcClient

end Nwc

end BtClock
