import BtClock.Nostr.RelayFrame
import BtClock.Nwc.SeenPayments
import BtClock.Nwc.WalletEvents

/-!
# A replay of payments which were shown before

A response to `list_transactions` is applied payment by payment, in the order of their
settlement, behind the same ring of seen payments as the live notifications.  The ring has
eight places.  A payment which was applied live is dropped as long as its record is
neither too old nor pushed out, and the payments before it in the same response push too.
-/

namespace BtClock

namespace Nwc

open Nostr Transition

namespace NwcClient

end NwcClient

namespace NwcCtx

end NwcCtx

/-! ### What a response does -/

namespace NwcClient

variable (lib : Library) (env : Env) (c : NwcClient)

end NwcClient

namespace NwcCtx

variable (lib : Library) (ctx : NwcCtx)

theorem frameEvent_eventFrame (subId : String) {ev : Event} (h : ExactNumbers ev) :
    frameEvent (eventFrame subId ev) = some ev := by
  rw [frameEvent, parseEnvelope_eventFrame subId h]

@[irreducible]
def liveContent : String :=
  "AgAAAAAAAAAAAAAAAAAAAAAAAAAAAAAAAAAAAAAAAAAB" ++
    ("/sHN+U6XmeQniJYOz24knZLlWn50jpaCxyCORSvVb082N9O/gY4tT9nopgxbfhyg+ORm2YjR9rToRHKt7KXT" ++
      "Ww6v18oeVMBsvnEM+hmB+wg3nRT4qy7IMmh/w+4fs3lfn5eeS6cI8moz7KXckedbwbJVS4ANIK9magkLoujI" ++
      "+Rgoe9IWlwE/4asWkxmM1GdgB5WAQ6rIEgguwYpAJ2DhHPwq")

/-- The notification of a payment, encrypted for `demoPairing`. -/
def liveEvent : Event where
  id := "cfe82861e010d01940e3b78cd45d8bb12ca9720e8a1d41a75c0303294962ea01"
  pubkey := "c6047f9441ed7d6d3045406e95c07cd85c778e4b8cef3ca7abac09b95c709ee5"
  createdAt := 1700000601
  kind := 23197
  tags :=
    [⟨["p", "2f8bde4d1a07209355b4a7250a5c5128e88b84bddc619ab7cba8d569b240efe4"]⟩,
      ⟨["encryption", "nip44_v2"]⟩]
  content := liveContent
  sig :=
    "422f80a7043f4142b2ec1a29bc241b56f6af5a9d9345de49a41329855b8bba53" ++
      "51653083b32486a0cd34fc11d354d268bca2bae7cfbd5b6f7acfeecc9142b8f9"

@[irreducible]
def livePlaintext : String :=
  "\x7b\"notification_type\":\"payment_received\",\"notification\":" ++
    ("\x7b\"payment_hash\":\"p9\",\"settled_at\":\"1700000600\"\x7d\x7d")

def livePayment : PaymentNotification where
  direction := .incoming
  paymentHash := "p9"
  settledAt := 1700000600

@[irreducible]
def replayContent : String :=
  "AgAAAAAAAAAAAAAAAAAAAAAAAAAAAAAAAAAAAAAAAAAC" ++
    ("SmuXloypN91U8gslSITe4x/qY8yZaw3xNCiiyfTkUsWa0thpC7fJDU9Dw7xvNMr+KECrYkGzvKQYPOOhQ4ue" ++
      "8E/L3xkbT7cqXnImJiw6IC+0SkqZohxsumN7+ltf2OqL28djOP+el37pjyIbnMyCmZ48qK9gR1Vg2G8wYbQf" ++
      "PaCOGzlfrkmb9CFt5JBK5tylrvo7E5ZI/sUJnQtyy1yPeq++Sg7GWE514VOWIimuuBATeOypkcP6bMy3/9GG" ++
      "/6u1PTF3+5qerFc1fV4PDnC8lxlVhJLz3qNUJvpZP7DmLgjOZLpFMRpb0Mvvy6s9TLFUgNvEGwk/ShBu5plP" ++
      "412HsLN9jUcp6dlxYNVUhNPirrBfQWMHJNQCOiz736hDBdo5kST+2fa1A8okY227a9hsi8/w9Nfl7/qTwmtk" ++
      "Qcy5Q2MBNdwdp/queZw50zQbSLR0wZROcV1YD73AHcLolth05DEY+b8c7Rqe4POptksdrmKe6D/THIjNraoH" ++
      "CGYRwuzKN4c18Yaxul0aPypUaKOBQNfXhQDkqz3xDmtdhWNtgIXsEFNxsX5nIOnVB5ZZoswRB+Bg7TMyUc3j" ++
      "OLdbo7bNcPAl7crVwjm06F1RxQq3PQ6LW6FxvI2VFR9ov8fKMbZ0Jk8AyJxJCl6gJseCIfjdBR+evTVcbFZs" ++
      "YVIiD7OWRYrlebFHFfHcgDM053gC1/Wqr3RAk4pSf2Z4bxZ4mYr7GhEr")

@[irreducible]
def replayPlaintext : String :=
  "\x7b\"result_type\":\"list_transactions\",\"result\":\x7b\"transactions\":[" ++
    ("\x7b\"payment_hash\":\"p1\",\"settled_at\":\"1700000592\"\x7d," ++
      "\x7b\"payment_hash\":\"p2\",\"settled_at\":\"1700000593\"\x7d," ++
      "\x7b\"payment_hash\":\"p3\",\"settled_at\":\"1700000594\"\x7d," ++
      "\x7b\"payment_hash\":\"p4\",\"settled_at\":\"1700000595\"\x7d," ++
      "\x7b\"payment_hash\":\"p5\",\"settled_at\":\"1700000596\"\x7d," ++
      "\x7b\"payment_hash\":\"p6\",\"settled_at\":\"1700000597\"\x7d," ++
      "\x7b\"payment_hash\":\"p7\",\"settled_at\":\"1700000598\"\x7d," ++
      "\x7b\"payment_hash\":\"p8\",\"settled_at\":\"1700000599\"\x7d," ++
      "\x7b\"payment_hash\":\"p9\",\"settled_at\":\"1700000600\"\x7d]\x7d\x7d")

/-- The hashes in `replayPlaintext` with the times of settlement. -/
def replayTable : List (String × String) :=
  [("p1", "1700000592"), ("p2", "1700000593"), ("p3", "1700000594"), ("p4", "1700000595"),
    ("p5", "1700000596"), ("p6", "1700000597"), ("p7", "1700000598"), ("p8", "1700000599"),
    ("p9", "1700000600")]

/-- The value of `livePlaintext`. -/
def liveJson : Json :=
  .object
    [("notification_type", .string "payment_received"),
      ("notification",
        .object [("payment_hash", .string "p9"), ("settled_at", .string "1700000600")])]

/-- The value of `replayPlaintext`. -/
def replayJson : Json :=
  .object
    [("result_type", .string "list_transactions"),
      ("result",
        .object
          [("transactions",
            .array
              (replayTable.map fun (hash, settledAt) =>
                .object
                  [("payment_hash", .string hash), ("settled_at", .string settledAt)]))])]

/-- The library on the two contents. -/
def replayLibrary : Library :=
  { demoLibrary with
    decrypt := fun _ _ _ content =>
      if content = replayContent then some replayPlaintext
      else if content = liveContent then some livePlaintext
      else none
    jsonParse := fun text =>
      if text = replayPlaintext then some replayJson
      else if text = livePlaintext then some liveJson
      else none }

/-- Texts which differ at some place of their first parts differ. -/
theorem append_ne_append {a b : String} {n : ℕ} {c d : Char} (ha : a.toList[n]? = some c)
    (hb : b.toList[n]? = some d) (hne : c ≠ d) (s t : String) : a ++ s ≠ b ++ t := by
  intro h
  have hchar := congrArg (fun u => u.toList[n]?) h
  simp only [String.toList_append] at hchar
  obtain ⟨hna, -⟩ := List.getElem?_eq_some_iff.mp ha
  obtain ⟨hnb, -⟩ := List.getElem?_eq_some_iff.mp hb
  rw [List.getElem?_append_left hna, List.getElem?_append_left hnb, ha, hb] at hchar
  exact hne (Option.some.inj hchar)

theorem liveContent_ne_replayContent : liveContent ≠ replayContent := by
  unfold liveContent replayContent
  refine append_ne_append (n := 43) (c := 'B') (d := 'C') ?_ ?_ (by decide) _ _
  · simp only [String.reduceToList]
    rfl
  · simp only [String.reduceToList]
    rfl

theorem livePlaintext_ne_replayPlaintext : livePlaintext ≠ replayPlaintext := by
  unfold livePlaintext replayPlaintext
  refine append_ne_append (n := 2) (c := 'n') (d := 'r') ?_ ?_ (by decide) _ _
  · simp only [String.reduceToList]
    rfl
  · simp only [String.reduceToList]
    rfl

theorem decrypt_liveContent (v : EncryptionVariant) (seckey pubkey : List UInt8) :
    replayLibrary.decrypt v seckey pubkey liveContent = some livePlaintext := by
  simp only [replayLibrary, if_neg liveContent_ne_replayContent, if_true]

theorem jsonParse_livePlaintext : replayLibrary.jsonParse livePlaintext = some liveJson := by
  simp only [replayLibrary, if_neg livePlaintext_ne_replayPlaintext, if_true]

/-- A notification which decrypts to `livePlaintext` is one of `livePayment`. -/
theorem decodeNotification_livePlaintext {lib : Library}
    (hparse : lib.jsonParse livePlaintext = some liveJson) {c : NwcClient}
    (hc : c.pairing = demoPairing) {ev : Event}
    (hdecrypt : ∀ v seckey pubkey, lib.decrypt v seckey pubkey ev.content = some livePlaintext) :
    c.decodeNotification lib (NwcClient.rawNotification ev) = some livePayment := by
  have hkeys : c.loadKeys.isSome = true := by
    unfold NwcClient.loadKeys
    rw [hc]
    decide
  obtain ⟨keys, hkeys⟩ := Option.isSome_iff_exists.mp hkeys
  have hdecode : decodePaymentNotification (some liveJson) = .ok livePayment := by
    decide
  simp only [NwcClient.decodeNotification, hkeys, NwcClient.rawNotification, hdecrypt, hparse,
    hdecode]
  rfl

end NwcCtx

end Nwc

end BtClock
