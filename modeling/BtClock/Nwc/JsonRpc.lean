import BtClock.Data.Json
import BtClock.Nostr.Content

/-!
# The payloads of Nostr Wallet Connect

The requests which the client sends, and the decoders of responses, notifications and the
INFO event.  A parsed payload is the value which the JSON library returns for it.
-/

namespace BtClock

namespace Nwc

def kUInt64Max : ℕ := 2 ^ 64 - 1

/-- A number which is not negative, or a string of digits which fits 64 bits. -/
def readUint64 (obj : Json) (key : String) : Option UInt64 :=
  match obj.getObjectItem key with
  | some (.number d) => if d < 0 then none else some d.toUInt64
  | some (.string s) =>
      if s = "" ∨ s.toList.all Nostr.isDigit = false then none
      else if Nostr.digitsValue s.toList > kUInt64Max then none
      else some (UInt64.ofNat (Nostr.digitsValue s.toList))
  | _ => none

def readString (obj : Json) (key : String) : Option String :=
  match obj.getObjectItem key with
  | some (.string s) => some s
  | _ => none

def isWs (c : Char) : Bool :=
  c = ' ' || c = '\t' || c = '\n' || c = '\r'

/-- The words of a text. -/
def splitWhitespace (s : String) : List String :=
  ((s.toList.splitOnP isWs).filter fun w => !w.isEmpty).map String.ofList

structure WalletError where
  code : String := ""
  message : String := ""
  deriving DecidableEq, Repr

/-- The error member of a response, if it says anything. -/
def extractWalletError (root : Json) : Option WalletError :=
  match root.getObjectItem "error" with
  | some err =>
      let e : WalletError :=
        { code := (readString err "code").getD ""
          message := (readString err "message").getD "" }
      if err.isObject = true ∧ (e.code ≠ "" ∨ e.message ≠ "") then some e else none
  | none => none

inductive RpcError
  | notJson
  | missingResultType
  | methodMismatch
  | walletError (err : WalletError)
  | missingResult
  deriving DecidableEq, Repr

/-- The preamble of the response decoders. -/
def openResponse (root : Option Json) (expected : String) : Except RpcError Json :=
  match root with
  | none => .error .notJson
  | some root =>
      match readString root "result_type" with
      | none => .error .missingResultType
      | some resultType =>
          if resultType ≠ expected then .error .methodMismatch
          else
            match extractWalletError root with
            | some err => .error (.walletError err)
            | none => .ok root

/-- The result object of an opened response. -/
def resultObject (root : Json) : Except RpcError Json :=
  match root.getObjectItem "result" with
  | some result => if result.isObject then .ok result else .error .missingResult
  | none => .error .missingResult

/-- The balance in millisatoshi. -/
def decodeBalanceResponse (root : Option Json) : Except RpcError UInt64 := do
  let result ← resultObject (← openResponse root "get_balance")
  match readUint64 result "balance" with
  | some balance => return balance
  | none => .error .missingResult

inductive PaymentDirection
  | unknown
  | incoming
  | outgoing
  deriving DecidableEq, Repr

structure PaymentNotification where
  direction : PaymentDirection := .unknown
  amountMsat : UInt64 := 0
  feesPaidMsat : UInt64 := 0
  description : String := ""
  paymentHash : String := ""
  createdAt : UInt64 := 0
  settledAt : UInt64 := 0
  deriving DecidableEq, Repr

/-- The fields which a transaction and a notification share. -/
def readPayment (obj : Json) (direction : PaymentDirection) : PaymentNotification where
  direction := direction
  amountMsat := (readUint64 obj "amount").getD 0
  feesPaidMsat := (readUint64 obj "fees_paid").getD 0
  description := (readString obj "description").getD ""
  paymentHash := (readString obj "payment_hash").getD ""
  createdAt := (readUint64 obj "created_at").getD 0
  settledAt := (readUint64 obj "settled_at").getD 0

def transactionDirection (tx : Json) : PaymentDirection :=
  match readString tx "type" with
  | some "incoming" => .incoming
  | some "outgoing" => .outgoing
  | _ => .unknown

def decodeListTransactionsResponse (root : Option Json) :
    Except RpcError (List PaymentNotification) := do
  let result ← resultObject (← openResponse root "list_transactions")
  match result.getObjectItem "transactions" with
  | some (.array txs) =>
      return (txs.filter Json.isObject).map fun tx =>
        readPayment tx (transactionDirection tx)
  -- no transactions in the window
  | _ => return []

def notificationDirection (root : Json) : PaymentDirection :=
  match readString root "notification_type" with
  | some "payment_received" => .incoming
  | some "payment_sent" => .outgoing
  | _ => .unknown

def decodePaymentNotification (root : Option Json) :
    Except RpcError PaymentNotification :=
  match root with
  | none => .error .notJson
  | some root =>
      let direction := notificationDirection root
      match root.getObjectItem "notification" with
      | some notif =>
          if notif.isObject then .ok (readPayment notif direction)
          else .ok { direction := direction }
      | none => .ok { direction := direction }

structure InfoEvent where
  methods : List String := []
  notifications : List String := []
  encryption : List String := []
  deriving DecidableEq, Repr

/-- The words of all the values of the tags of that name. -/
def tagWords (tags : List Nostr.Tag) (name : String) : List String :=
  (tags.filter fun t => t.values.head? = some name).flatMap fun t =>
    t.values.tail.flatMap splitWhitespace

def decodeInfoEvent (content : String) (tags : List Nostr.Tag) : Option InfoEvent :=
  if content = "" then none
  else
    some
      { methods := splitWhitespace content
        encryption := tagWords tags "encryption"
        notifications := tagWords tags "notifications" }

def buildGetBalanceRequest : String :=
  "\x7b\"method\":\"get_balance\",\"params\":\x7b\x7d\x7d"

/-- `from_secs` to now. -/
def buildListTransactionsRequest (fromSecs : ℤ) (limit : ℕ) : String :=
  "\x7b\"method\":\"list_transactions\",\"params\":\x7b\"from\":" ++ toString fromSecs ++
    ",\"limit\":" ++ toString limit ++ ",\"unpaid\":false\x7d\x7d"

end Nwc

end BtClock
