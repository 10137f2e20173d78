import BtClock.Nostr.Parser
import BtClock.Nwc.Client
import BtClock.Transition.Run

/-!
# Whose events the wallet client acts on

`InitNwc` hands every event frame of the relay to the client.  The client leaves the
verification to the layer below, which does not verify either.  What a forged event does is
then decided by the state it meets: an INFO event always gets through, a response needs
a request in flight and a content which decrypts, a notification is decrypted later on the
worker task.
-/

namespace BtClock

namespace Nwc

open Nostr

/-- The client with its notification queue.  Each queued notification is kept together
with the event it was copied from. -/
structure NwcCtx where
  client : NwcClient
  queue : List (RawNotification × Event) := []

def kQueueCapacity : ℕ := 8

/-- The relay sends a text frame, the worker takes a notification off the queue, or the main
loop asks for the balance. -/
inductive NwcStep
  | frame (text : String) (env : Env)
  | worker (env : Env)
  | refresh (env : Env)

namespace NwcCtx

def tryPush (ctx : NwcCtx) (raw : Option RawNotification) (ev : Event) : NwcCtx :=
  match raw with
  | none => ctx
  | some raw =>
      if ctx.queue.length < kQueueCapacity then
        { ctx with queue := ctx.queue ++ [(raw, ev)] }
      else ctx

/-- The event in a text frame, if it carries one. -/
def frameEvent (text : String) : Option Event :=
  match parseEnvelope text with
  | some (.event _ ev) => some ev
  | _ => none

/-- The state after a step, and the hooks which it calls. -/
def exec (lib : Library) (ctx : NwcCtx) : NwcStep → NwcCtx × List Hook
  | .frame text env =>
      match frameEvent text with
      | none => (ctx, [])
      | some ev =>
          let r := ctx.client.handleEvent lib env ev
          ({ ctx with client := r.1.1 }.tryPush r.2 ev, r.1.2)
  | .worker env =>
      match ctx.queue with
      | [] => (ctx, [])
      | (raw, _) :: queue =>
          let r := ctx.client.dispatchRawNotification lib env raw
          ({ client := r.1, queue := queue }, r.2)
  | .refresh env =>
      if ctx.client.state = .ready then
        let r := ctx.client.requestGetBalance lib env
        ({ ctx with client := r.1 }, r.2)
      else (ctx, [])

def step (lib : Library) (ctx : NwcCtx) (e : NwcStep) : NwcCtx :=
  (ctx.exec lib e).1

/-- The event verifies and the paired wallet is its author. -/
def Genuine (secp : Secp256k1) (ctx : NwcCtx) (ev : Event) : Prop :=
  verifyEvent secp ev = .ok ∧ ev.pubkey = ctx.client.pairing.walletPubkeyHex

/-- The event which a step works on. -/
def cause (ctx : NwcCtx) : NwcStep → Option Event
  | .frame text _ => frameEvent text
  | .worker _ => ctx.queue.head?.map Prod.snd
  | .refresh _ => none

/-- The step changes the client or calls one of its hooks. -/
def Acts (lib : Library) (ctx : NwcCtx) (e : NwcStep) : Prop :=
  (ctx.step lib e).client ≠ ctx.client ∨ (ctx.exec lib e).2 ≠ []

/-- A frame or a notification acts on the client only if it comes from a genuine event. -/
def CausedByWallet (lib : Library) (secp : Secp256k1) (ctx : NwcCtx) (e : NwcStep) : Prop :=
  (∀ env, e ≠ .refresh env) → ctx.Acts lib e →
    ∃ ev, ctx.cause e = some ev ∧ ctx.Genuine secp ev

end NwcCtx

namespace NwcClient

/-- The client takes the event for the response to the request in flight: its content
decrypts, and it names the request, unless the id of the request is unknown. -/
structure TakesResponse (lib : Library) (c : NwcClient) (ev : Event) : Prop where
  decrypts : ∃ seckey walletPub plaintext, c.loadKeys = some (seckey, walletPub) ∧
    lib.decrypt (c.responseVariant ev) seckey walletPub ev.content = some plaintext
  method : c.inflightMethod = "get_balance" ∨ c.inflightMethod = "list_transactions"
  request : c.matchesInflight ev = true ∨ c.inflightRequestId = ""

/-- The client takes the event for an INFO event or for a response. -/
def TakesEvent (lib : Library) (c : NwcClient) (ev : Event) : Prop :=
  c.state ≠ .fatal ∧
    (ev.kind = kKindInfo ∧ ev.content ≠ "" ∨ ev.kind = kKindResponse ∧ c.TakesResponse lib ev)

/-- The worker reads a payment from the notification, and either it is no duplicate or a
balance request goes out on its behalf. -/
def TakesNotification (lib : Library) (env : Env) (c : NwcClient) (raw : RawNotification) :
    Prop :=
  ∃ pn, c.decodeNotification lib raw = some pn ∧
    (c.dropsPayment env pn = false ∨
      c.state = .ready ∧
        (c.inflightMethod = "" ∨
          c.inflightMethod = "get_balance" ∧
            c.signedRequest lib env buildGetBalanceRequest ≠ none))

/-! ### What the handlers do -/

variable (lib : Library) (env : Env) (c : NwcClient)

theorem decodeInfoEvent_eq_none_iff (content : String) (tags : List Tag) :
    decodeInfoEvent content tags = none ↔ content = "" := by
  unfold decodeInfoEvent
  split <;> simp_all

theorem onInfoEvent_acts_iff (ev : Event) :
    (c.onInfoEvent lib env ev).1 ≠ c ∨ (c.onInfoEvent lib env ev).2 ≠ [] ↔
      ev.content ≠ "" := by
  unfold onInfoEvent
  cases h : decodeInfoEvent ev.content ev.tags with
  | none =>
      rw [decodeInfoEvent_eq_none_iff] at h
      simp [h]
  | some info =>
      have hne : ev.content ≠ "" := by
        intro he
        rw [← decodeInfoEvent_eq_none_iff ev.content ev.tags, h] at he
        cases he
      simp [hne]

theorem applyPaymentToBalance_inflightMethod (pn : PaymentNotification) :
    (c.applyPaymentToBalance env pn).1.inflightMethod = c.inflightMethod := by
  unfold applyPaymentToBalance
  split
  · rfl
  · dsimp only
    split <;> rfl

theorem applyPayments_inflightMethod (pns : List PaymentNotification) :
    (c.applyPayments env pns).1.inflightMethod = c.inflightMethod := by
  induction pns generalizing c with
  | nil => rfl
  | cons pn pns ih => exact (ih _).trans (c.applyPaymentToBalance_inflightMethod env pn)

/-- A client whose request is over is not the client before. -/
theorem ne_of_inflightMethod {c c' : NwcClient} (h : c'.inflightMethod = "")
    (hc : c.inflightMethod ≠ "") : c' ≠ c := by
  intro he
  rw [← he] at hc
  exact hc h

theorem onBalanceResponse_acts (hc : c.inflightMethod ≠ "") (plaintext : String) :
    (c.onBalanceResponse lib env plaintext).1 ≠ c ∨
      (c.onBalanceResponse lib env plaintext).2 ≠ [] := by
  unfold onBalanceResponse
  split
  · exact Or.inr (List.cons_ne_nil _ _)
  · exact Or.inl (ne_of_inflightMethod rfl hc)

theorem onListTransactionsResponse_acts (hc : c.inflightMethod ≠ "") (plaintext : String) :
    (c.onListTransactionsResponse lib env plaintext).1 ≠ c := by
  unfold onListTransactionsResponse
  split
  · exact ne_of_inflightMethod (applyPayments_inflightMethod env _ _) hc
  · exact ne_of_inflightMethod rfl hc

theorem onResponse_acts_iff (ev : Event) :
    (c.onResponse lib env ev).1 ≠ c ∨ (c.onResponse lib env ev).2 ≠ [] ↔
      c.TakesResponse lib ev := by
  unfold onResponse
  cases hk : c.loadKeys with
  | none =>
      refine iff_of_false (by simp) ?_
      rintro ⟨⟨sk, wp, pt, hkeys, -⟩, -, -⟩
      rw [hk] at hkeys
      cases hkeys
  | some keys =>
      obtain ⟨seckey, walletPub⟩ := keys
      dsimp only
      cases hd : lib.decrypt (c.responseVariant ev) seckey walletPub ev.content with
      | none =>
          refine iff_of_false (by simp) ?_
          rintro ⟨⟨sk, wp, pt, hkeys, hdec⟩, -, -⟩
          rw [hk] at hkeys
          cases hkeys
          rw [hd] at hdec
          cases hdec
      | some plaintext =>
          dsimp only
          have hdec : ∃ sk wp pt, c.loadKeys = some (sk, wp) ∧
              lib.decrypt (c.responseVariant ev) sk wp ev.content = some pt :=
            ⟨seckey, walletPub, plaintext, hk, hd⟩
          by_cases hm : c.matchesInflight ev = true ∨ c.inflightRequestId = ""
          · rw [if_pos hm]
            by_cases hb : c.inflightMethod = "get_balance"
            · have hne : c.inflightMethod ≠ "" := by rw [hb]; decide
              rw [if_pos hb]
              exact iff_of_true (c.onBalanceResponse_acts lib env hne plaintext)
                ⟨hdec, Or.inl hb, hm⟩
            · rw [if_neg hb]
              by_cases hl : c.inflightMethod = "list_transactions"
              · have hne : c.inflightMethod ≠ "" := by rw [hl]; decide
                rw [if_pos hl]
                exact iff_of_true
                  (Or.inl (c.onListTransactionsResponse_acts lib env hne plaintext))
                  ⟨hdec, Or.inr hl, hm⟩
              · rw [if_neg hl]
                refine iff_of_false (by simp) ?_
                intro h
                exact h.method.elim hb hl
          · rw [if_neg hm]
            exact iff_of_false (by simp) fun h => hm h.request

theorem handleEvent_acts_iff (ev : Event) :
    (c.handleEvent lib env ev).1.1 ≠ c ∨ (c.handleEvent lib env ev).1.2 ≠ [] ↔
      c.TakesEvent lib ev := by
  unfold handleEvent TakesEvent
  by_cases hf : c.state = .fatal
  · simp [hf]
  rw [if_neg hf]
  by_cases hi : ev.kind = kKindInfo
  · have hr : ev.kind ≠ kKindResponse := by rw [hi]; decide
    rw [if_pos hi]
    refine (c.onInfoEvent_acts_iff lib env ev).trans ?_
    constructor
    · exact fun h => ⟨hf, Or.inl ⟨hi, h⟩⟩
    · rintro ⟨-, ⟨-, h⟩ | ⟨h, -⟩⟩
      · exact h
      · exact absurd h hr
  rw [if_neg hi]
  by_cases hr : ev.kind = kKindResponse
  · rw [if_pos hr]
    refine (c.onResponse_acts_iff lib env ev).trans ?_
    constructor
    · exact fun h => ⟨hf, Or.inr ⟨hr, h⟩⟩
    · rintro ⟨-, ⟨h, -⟩ | ⟨-, h⟩⟩
      · exact absurd h hi
      · exact h
  rw [if_neg hr]
  refine iff_of_false ?_ (by simp [hi, hr])
  split
  · simp
  · split
    · split <;> simp
    · simp

theorem requestGetBalance_acts_iff :
    (c.requestGetBalance lib env).1 ≠ c ∨ (c.requestGetBalance lib env).2 ≠ [] ↔
      c.inflightMethod ≠ "get_balance" ∨
        c.signedRequest lib env buildGetBalanceRequest ≠ none := by
  have hreq : { c with inflightMethod := "get_balance" }.signedRequest lib env
      buildGetBalanceRequest = c.signedRequest lib env buildGetBalanceRequest := rfl
  unfold requestGetBalance publishSignedRequest
  rw [hreq]
  cases hs : c.signedRequest lib env buildGetBalanceRequest with
  | some ev => simp
  | none =>
      have hne : { c with inflightMethod := "get_balance" } ≠ c ↔
          c.inflightMethod ≠ "get_balance" := by
        constructor
        · intro h hm
          apply h
          rw [← hm]
        · intro hm h
          exact hm (congrArg NwcClient.inflightMethod h).symm
      simpa using hne

theorem dispatchRawNotification_acts_iff (raw : RawNotification) :
    (c.dispatchRawNotification lib env raw).1 ≠ c ∨
        (c.dispatchRawNotification lib env raw).2 ≠ [] ↔
      c.TakesNotification lib env raw := by
  unfold dispatchRawNotification TakesNotification
  cases hpn : c.decodeNotification lib raw with
  | none => simp
  | some pn =>
      dsimp only
      cases hdrop : c.dropsPayment env pn with
      | false =>
          rw [c.applyPaymentToBalance_hooks env hdrop]
          exact iff_of_true (Or.inr (List.cons_ne_nil _ _)) ⟨pn, rfl, Or.inl hdrop⟩
      | true =>
          rw [c.applyPaymentToBalance_of_drops env hdrop]
          simp only [List.nil_append, Option.some.injEq, exists_eq_left', hdrop,
            Bool.true_eq_false, false_or]
          unfold refreshBalance
          by_cases hr : c.state = .ready ∧
              (c.inflightMethod = "" ∨ c.inflightMethod = "get_balance")
          · rw [if_pos hr, c.requestGetBalance_acts_iff lib env]
            obtain ⟨hready, hm | hm⟩ := hr
            · simp [hready, hm]
            · simp [hready, hm]
          · rw [if_neg hr]
            refine iff_of_false (by simp) ?_
            rintro ⟨hready, hm | ⟨hm, -⟩⟩
            · exact hr ⟨hready, Or.inl hm⟩
            · exact hr ⟨hready, Or.inr hm⟩

end NwcClient

namespace NwcCtx

/-- A frame with a forged event is not taken by the client, nor is a notification from a
forged event by the worker. -/
def ForgedIsInert (lib : Library) (secp : Secp256k1) (ctx : NwcCtx) : NwcStep → Prop
  | .frame text _ =>
      ∀ ev, frameEvent text = some ev → ¬ ctx.Genuine secp ev →
        ¬ ctx.client.TakesEvent lib ev
  | .worker env =>
      ∀ raw ev, ctx.queue.head? = some (raw, ev) → ¬ ctx.Genuine secp ev →
        ¬ ctx.client.TakesNotification lib env raw
  | .refresh _ => True

@[simp]
theorem tryPush_client (ctx : NwcCtx) (raw : Option RawNotification) (ev : Event) :
    (ctx.tryPush raw ev).client = ctx.client := by
  unfold tryPush
  split
  · rfl
  · split <;> rfl

variable (lib : Library) (secp : Secp256k1) (ctx : NwcCtx)

theorem acts_frame_iff (text : String) (env : Env) :
    ctx.Acts lib (.frame text env) ↔
      ∃ ev, frameEvent text = some ev ∧ ctx.client.TakesEvent lib ev := by
  cases h : frameEvent text with
  | none => simp [Acts, step, exec, h]
  | some ev => simpa [Acts, step, exec, h] using ctx.client.handleEvent_acts_iff lib env ev

theorem acts_worker_iff (env : Env) :
    ctx.Acts lib (.worker env) ↔
      ∃ raw ev, ctx.queue.head? = some (raw, ev) ∧
        ctx.client.TakesNotification lib env raw := by
  cases h : ctx.queue with
  | nil => simp [Acts, step, exec, h]
  | cons q queue =>
      obtain ⟨raw, ev⟩ := q
      simpa [Acts, step, exec, h] using
        ctx.client.dispatchRawNotification_acts_iff lib env raw

theorem causedByWallet_iff (e : NwcStep) :
    ctx.CausedByWallet lib secp e ↔ ctx.ForgedIsInert lib secp e := by
  cases e with
  | frame text env =>
      simp only [CausedByWallet, acts_frame_iff, cause, ForgedIsInert]
      constructor
      · intro h ev hev hforged htakes
        obtain ⟨ev', hev', hgen⟩ := h (by simp) ⟨ev, hev, htakes⟩
        rw [hev] at hev'
        cases hev'
        exact hforged hgen
      · rintro h - ⟨ev, hev, htakes⟩
        refine ⟨ev, hev, ?_⟩
        by_contra hforged
        exact h ev hev hforged htakes
  | worker env =>
      simp only [CausedByWallet, acts_worker_iff, cause, ForgedIsInert]
      constructor
      · intro h raw ev hq hforged htakes
        obtain ⟨ev', hev', hgen⟩ := h (by simp) ⟨raw, ev, hq, htakes⟩
        rw [hq] at hev'
        cases hev'
        exact hforged hgen
      · rintro h - ⟨raw, ev, hq, htakes⟩
        refine ⟨ev, by simp [hq], ?_⟩
        by_contra hforged
        exact h raw ev hq hforged htakes
  | refresh env =>
      refine iff_of_true ?_ trivial
      intro h
      exact absurd rfl (h env)

/-- Over every sequence of frames, worker turns and refreshes, only events of the wallet act on
the client, if and only if every forged one meets a state in which it is inert. -/
theorem along_causedByWallet_iff (steps : List NwcStep) :
    Transition.Along (step lib) (CausedByWallet lib secp) ctx steps ↔
      Transition.Along (step lib) (ForgedIsInert lib secp) ctx steps :=
  Transition.along_congr (causedByWallet_iff lib secp) ctx steps

/-- A pairing whose secret key is the number 5, and whose wallet has the secret key 2. -/
def demoPairing : PairingUri where
  walletPubkeyHex := "c6047f9441ed7d6d3045406e95c07cd85c778e4b8cef3ca7abac09b95c709ee5"
  secretHex := "0000000000000000000000000000000000000000000000000000000000000005"
  relays := ["wss://relay.example"]

/-- The library on the keys of `demoPairing` and the balance request made at the second
1700000001 with zeros for random bytes. -/
def demoLibrary : Library where
  decrypt _ _ _ _ := none
  nip44ConversationKey seckey pubkey :=
    if hexLowercase seckey = demoPairing.secretHex ∧
        hexLowercase pubkey = demoPairing.walletPubkeyHex then
      hexDecode "5563dc351b0896595fb728b639d26680c20f9f1b9d00e1c02e75d0e445286cca" 32
    else none
  nip44EncryptV2 _ _ plaintext :=
    if plaintext = buildGetBalanceRequest then
      "AgAAAAAAAAAAAAAAAAAAAAAAAAAAAAAAAAAAAAAAAAAA+80LVDkxegheHT0UOAn4lz61IpDja5DIZHDp" ++
        "+SHQn7Q85fg1pNYaZJJGefAFpfVC/UcP0SHcYlIxPJoyyjHqcMuMxHTdC7B4yw649e2BgPsb7yLK7A9T" ++
        "ZxUeG9IgoN3SN48="
    else ""
  nip04Encrypt _ _ _ _ := ""
  derivePubkeyXOnly seckey :=
    if hexLowercase seckey = demoPairing.secretHex then
      hexDecode "2f8bde4d1a07209355b4a7250a5c5128e88b84bddc619ab7cba8d569b240efe4" 32
    else none
  schnorrSign _ msg _ :=
    if hexLowercase msg =
        "4381f6d832e895ef5e91edeab53412b94ba2014a2e5d51c2a5431e004bf269f2" then
      hexDecode
        ("c5f54dc445201e85859280359c9c302969f64668eb753ba219f0f2cd18e1da71" ++
          "fff0eecc6e97e2476ab9e7101d64b63cf62a8780305628a0afad703c2798d75d") 64
    else none
  jsonParse _ := none

/-- An INFO event without a signature. -/
def forgedInfoFrame : String :=
  "[\"EVENT\",\"nwci-c6047f94\",\x7b\"kind\":13194,\"content\":\"get_balance\"," ++
    "\"tags\":[[\"encryption\",\"nip44_v2\"]]\x7d]"

def forgedInfo : Event where
  kind := 13194
  tags := [⟨["encryption", "nip44_v2"]⟩]
  content := "get_balance"

theorem frameEvent_forgedInfoFrame : frameEvent forgedInfoFrame = some forgedInfo := by
  decide +kernel

/-- The unsigned INFO event makes a client which waits for one ready. -/
theorem not_causedByWallet_forgedInfo :
    ¬ Transition.Along (step demoLibrary)
      (CausedByWallet demoLibrary (Secp256k1.ofEvents []))
      { client := { pairing := demoPairing, state := .bootstrapping } }
      [.frame forgedInfoFrame { wallclockSecs := 1700000001 }] := by
  rintro ⟨h, -⟩
  rw [causedByWallet_iff] at h
  have hforged : ¬ Genuine (Secp256k1.ofEvents [])
      { client := { pairing := demoPairing, state := .bootstrapping } } forgedInfo := by
    rintro ⟨hverify, -⟩
    exact absurd hverify (by decide)
  have htakes : NwcClient.TakesEvent demoLibrary
      { pairing := demoPairing, state := .bootstrapping } forgedInfo :=
    ⟨by decide, Or.inl ⟨rfl, by decide⟩⟩
  exact h forgedInfo frameEvent_forgedInfoFrame hforged htakes

end NwcCtx

end Nwc

end BtClock
