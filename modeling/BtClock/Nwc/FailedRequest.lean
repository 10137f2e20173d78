import BtClock.Nwc.LifeCycle

/-!
# Requests which fail

The method of a request is noted before it is built, and its id before it is published.  A
request which fails leaves the earlier one in flight only where it would have noted the same.
-/

namespace BtClock

namespace Nwc

open Nostr Transition

/-- The two requests of the client. -/
inductive RequestKind
  | getBalance
  | listTransactions (fromSecs : ℤ) (limit : ℕ)

namespace RequestKind

def method : RequestKind → String
  | .getBalance => "get_balance"
  | .listTransactions _ _ => "list_transactions"

def payload : RequestKind → String
  | .getBalance => buildGetBalanceRequest
  | .listTransactions fromSecs limit => buildListTransactionsRequest fromSecs limit

end RequestKind

/-- The publish hook may be unset. -/
abbrev PublishFn := Option (String → Bool)

/-- The result of a request: the publish hook took its frame. -/
def requestResult (publish : PublishFn) (hooks : List Hook) : Bool :=
  hooks.any fun
    | .publish frame => publish.any fun send => send frame
    | _ => false

namespace NwcClient

variable (lib : Library) (env : Env) (c : NwcClient)

def request : RequestKind → NwcClient × List Hook
  | .getBalance => c.requestGetBalance lib env
  | .listTransactions fromSecs limit => c.requestListTransactions lib env fromSecs limit

/-- The call returns false: nothing could be signed, or the frame was not taken. -/
def Fails (publish : PublishFn) (kind : RequestKind) : Prop :=
  requestResult publish (c.request lib env kind).2 = false

/-- The request in flight is the one before, and a response does what it would have done. -/
structure LeavesInflight (c' : NwcClient) : Prop where
  requestId : c'.inflightRequestId = c.inflightRequestId
  method : c'.inflightMethod = c.inflightMethod
  response : ∀ env ev, c'.onResponse lib env ev = c.onResponse lib env ev

/-- The method in flight is the one of the request already, and where an event is signed, it
is the one in flight once more. -/
def Repeats (kind : RequestKind) : Prop :=
  c.inflightMethod = kind.method ∧
    ∀ ev, c.signedRequest lib env kind.payload = some ev → ev.id = c.inflightRequestId

/-! ### One request -/

theorem request_eq (kind : RequestKind) : c.request lib env kind =
    { c with inflightMethod := kind.method }.publishSignedRequest lib env kind.payload := by
  cases kind with
  | getBalance => rfl
  | listTransactions fromSecs limit => rfl

/-- What is signed does not depend on the method in flight. -/
theorem signedRequest_setMethod (method payload : String) :
    { c with inflightMethod := method }.signedRequest lib env payload =
      c.signedRequest lib env payload :=
  rfl

theorem request_of_none {kind : RequestKind}
    (h : c.signedRequest lib env kind.payload = none) :
    c.request lib env kind = ({ c with inflightMethod := kind.method }, []) := by
  rw [request_eq, publishSignedRequest, signedRequest_setMethod, h]

theorem request_of_some {kind : RequestKind} {ev : Event}
    (h : c.signedRequest lib env kind.payload = some ev) :
    c.request lib env kind =
      ({ c with inflightMethod := kind.method, inflightRequestId := ev.id },
        [.publish (serializeEventFrame ev)]) := by
  rw [request_eq, publishSignedRequest, signedRequest_setMethod, h]

theorem inflightMethod_request (kind : RequestKind) :
    (c.request lib env kind).1.inflightMethod = kind.method := by
  cases h : c.signedRequest lib env kind.payload with
  | none => rw [request_of_none lib env c h]
  | some ev => rw [request_of_some lib env c h]

/-- Whatever the request, it fails where nothing is published. -/
theorem fails_of_refused (kind : RequestKind) :
    c.Fails lib env (some fun _ => false) kind := by
  unfold Fails
  cases h : c.signedRequest lib env kind.payload with
  | none => rw [request_of_none lib env c h]; rfl
  | some ev => rw [request_of_some lib env c h]; rfl

/-- A request is forgotten unless it is repeated. -/
theorem leavesInflight_request_iff (kind : RequestKind) :
    c.LeavesInflight lib (c.request lib env kind).1 ↔ c.Repeats lib env kind := by
  cases h : c.signedRequest lib env kind.payload with
  | none =>
      rw [request_of_none lib env c h]
      constructor
      · intro hleaves
        refine ⟨hleaves.method.symm, fun ev hev => ?_⟩
        rw [h] at hev
        cases hev
      · rintro ⟨hmethod, -⟩
        rw [← hmethod]
        exact ⟨rfl, rfl, fun _ _ => rfl⟩
  | some ev =>
      rw [request_of_some lib env c h]
      constructor
      · intro hleaves
        refine ⟨hleaves.method.symm, fun ev' hev => ?_⟩
        rw [h] at hev
        cases hev
        exact hleaves.requestId
      · rintro ⟨hmethod, hid⟩
        rw [← hmethod, hid ev h]
        exact ⟨rfl, rfl, fun _ _ => rfl⟩

/-- The response to the earlier request is dropped once another id is noted. -/
theorem onResponse_of_overwritten {kind : RequestKind} {signed ev : Event}
    (h : c.signedRequest lib env kind.payload = some signed) (hne : signed.id ≠ "")
    (hev : c.matchesInflight ev = true) (hid : signed.id ≠ c.inflightRequestId) (env' : Env) :
    (c.request lib env kind).1.onResponse lib env' ev = ((c.request lib env kind).1, []) := by
  rw [request_of_some lib env c h]
  unfold onResponse
  have hother : findTagValue ev "e" ≠ some signed.id := by
    intro heq
    rw [matchesInflight, heq] at hev
    exact hid (by simpa using hev)
  split
  · rfl
  · split
    · rfl
    · rw [if_neg]
      rintro (hmatches | hempty)
      · exact hother (by simpa [matchesInflight] using hmatches)
      · exact hne hempty

end NwcClient

/-! ### The calls of a step -/

/-- A call of one of the requests, with the client as it is then. -/
structure Call where
  client : NwcClient
  kind : RequestKind
  env : Env

/-- The client and the hooks after a call. -/
def Call.result (lib : Library) (call : Call) : NwcClient × List Hook :=
  call.client.request lib call.env call.kind

namespace NwcClient

variable (lib : Library) (env : Env) (c : NwcClient)

/-- The ready callback asks for the balance. -/
def onInfoEventCall (ev : Event) : Option Call :=
  (decodeInfoEvent ev.content ev.tags).map fun info =>
    let chosen : EncryptionVariant := if "nip44_v2" ∈ info.encryption then .nip44V2 else .nip04
    ⟨{ c with encryption := chosen, state := .ready }, .getBalance, env⟩

/-- The first balance asks for the transactions. -/
def onBalanceCall : Option Call :=
  if c.bootPollDone ∨ env.wallclockSecs ≤ 1700000000 then none
  else some ⟨{ c with bootPollDone := true },
    .listTransactions (env.wallclockSecs - 600) 20, env⟩

def onResponseCall (ev : Event) : Option Call := do
  let (seckey, walletPub) ← c.loadKeys
  let plaintext ← lib.decrypt (c.responseVariant ev) seckey walletPub ev.content
  if (c.matchesInflight ev = true ∨ c.inflightRequestId = "") ∧
      c.inflightMethod = "get_balance" then
    let balance ← (decodeBalanceResponse (lib.jsonParse plaintext)).toOption
    { c with balanceMsatCache := balance }.clearInflight.onBalanceCall env
  else none

/-- A payment asks for the balance again. -/
def dispatchCall (raw : RawNotification) : Option Call := do
  let pn ← c.decodeNotification lib raw
  let c := (c.applyPaymentToBalance env pn).1
  if c.state = .ready ∧ (c.inflightMethod = "" ∨ c.inflightMethod = "get_balance") then
    some ⟨c, .getBalance, env⟩
  else none

def receiveCall (wired : Bool) (ev : Event) : Option Call :=
  if c.state = .fatal then none
  else if ev.kind = kKindInfo then c.onInfoEventCall env ev
  else if ev.kind = kKindResponse then c.onResponseCall lib env ev
  else
    match (c.handleEvent lib env ev).2 with
    | none => none
    | some raw => if wired then none else c.dispatchCall lib env raw

end NwcClient

/-- The request which an operation makes, itself or in a callback. -/
def LifeOp.call (lib : Library) (wired : Bool) (c : NwcClient) : LifeOp → Option Call
  | .start => none
  | .stop => none
  | .event ev env => c.receiveCall lib env wired ev
  | .requestGetBalance env => some ⟨c, .getBalance, env⟩
  | .requestListTransactions fromSecs limit env =>
      some ⟨c, .listTransactions fromSecs limit, env⟩
  | .tick env => if c.state = .ready then some ⟨c, .getBalance, env⟩ else none
  | .dispatch raw env => c.dispatchCall lib env raw

def IsPublish : Hook → Prop
  | .publish _ => True
  | _ => False

/-- The call is the last thing that is done, and the only one which publishes. -/
def Makes (lib : Library) (r : NwcClient × List Hook) : Option Call → Prop
  | none => ∀ hook ∈ r.2, ¬ IsPublish hook
  | some call => r.1 = (call.result lib).1 ∧
      ∃ hooks, r.2 = hooks ++ (call.result lib).2 ∧ ∀ hook ∈ hooks, ¬ IsPublish hook

theorem makes_requestGetBalance (lib : Library) (env : Env) (c : NwcClient) :
    Makes lib (c.requestGetBalance lib env) (some ⟨c, .getBalance, env⟩) :=
  ⟨rfl, [], rfl, fun _ h => absurd h List.not_mem_nil⟩

theorem makes_requestListTransactions (lib : Library) (env : Env) (c : NwcClient)
    (fromSecs : ℤ) (limit : ℕ) :
    Makes lib (c.requestListTransactions lib env fromSecs limit)
      (some ⟨c, .listTransactions fromSecs limit, env⟩) :=
  ⟨rfl, [], rfl, fun _ h => absurd h List.not_mem_nil⟩

theorem makes_none (lib : Library) (c : NwcClient) : Makes lib (c, []) none :=
  fun _ h => absurd h List.not_mem_nil

/-- Hooks before which publish nothing change nothing about the call. -/
theorem Makes.prepend {lib : Library} {r : NwcClient × List Hook} {call : Option Call}
    (h : Makes lib r call) {hooks : List Hook} (hhooks : ∀ hook ∈ hooks, ¬ IsPublish hook) :
    Makes lib (r.1, hooks ++ r.2) call := by
  cases call with
  | none =>
      intro hook hmem
      rcases List.mem_append.mp hmem with hmem | hmem
      · exact hhooks hook hmem
      · exact h hook hmem
  | some call =>
      obtain ⟨hclient, before, heq, hbefore⟩ := h
      refine ⟨hclient, hooks ++ before, ?_, ?_⟩
      · rw [List.append_assoc, ← heq]
      · intro hook hmem
        rcases List.mem_append.mp hmem with hmem | hmem
        · exact hhooks hook hmem
        · exact hbefore hook hmem

namespace NwcClient

variable (lib : Library) (env : Env) (c : NwcClient)

theorem onInfoEvent_makes (ev : Event) :
    Makes lib (c.onInfoEvent lib env ev) (c.onInfoEventCall env ev) := by
  unfold onInfoEvent onInfoEventCall
  cases decodeInfoEvent ev.content ev.tags with
  | none => exact makes_none lib c
  | some info =>
      have hready : ∀ hook ∈ [Hook.ready info], ¬ IsPublish hook := by simp [IsPublish]
      exact (makes_requestGetBalance lib env _).prepend hready

theorem onBalance_makes : Makes lib (c.onBalance lib env) (c.onBalanceCall env) := by
  unfold onBalance onBalanceCall
  by_cases hdone : c.bootPollDone = true
  · rw [if_pos hdone, if_pos (Or.inl hdone)]
    exact makes_none lib c
  · rw [if_neg hdone]
    dsimp only
    by_cases hclock : env.wallclockSecs ≤ 1700000000
    · rw [if_pos hclock, if_pos (Or.inr hclock)]
      exact makes_none lib _
    · rw [if_neg hclock, if_neg (by simp [hdone, hclock])]
      exact makes_requestListTransactions lib env _ _ _

theorem applyPaymentToBalance_silent (pn : PaymentNotification) :
    ∀ hook ∈ (c.applyPaymentToBalance env pn).2, ¬ IsPublish hook := by
  unfold applyPaymentToBalance
  split
  · simp
  · simp [IsPublish]

theorem applyPayments_silent (pns : List PaymentNotification) :
    ∀ hook ∈ (c.applyPayments env pns).2, ¬ IsPublish hook := by
  induction pns generalizing c with
  | nil => simp [applyPayments]
  | cons pn pns ih =>
      intro hook hmem
      rcases List.mem_append.mp hmem with hmem | hmem
      · exact c.applyPaymentToBalance_silent env pn hook hmem
      · exact ih _ hook hmem

theorem onResponse_makes (ev : Event) :
    Makes lib (c.onResponse lib env ev) (c.onResponseCall lib env ev) := by
  unfold onResponse onResponseCall
  cases c.loadKeys with
  | none => exact makes_none lib c
  | some keys =>
      obtain ⟨seckey, walletPub⟩ := keys
      cases hplain : lib.decrypt (c.responseVariant ev) seckey walletPub ev.content with
      | none => simpa [hplain] using makes_none lib c
      | some plaintext =>
          simp only [Option.bind_eq_bind, Option.bind_some, hplain]
          by_cases hmatches : c.matchesInflight ev = true ∨ c.inflightRequestId = ""
          · rw [if_pos hmatches]
            by_cases hmethod : c.inflightMethod = "get_balance"
            · rw [if_pos hmethod, if_pos ⟨hmatches, hmethod⟩]
              unfold onBalanceResponse
              cases decodeBalanceResponse (lib.jsonParse plaintext) with
              | error err => exact makes_none lib _
              | ok balance =>
                  have hbalance : ∀ hook ∈ [Hook.balance balance], ¬ IsPublish hook := by
                    simp [IsPublish]
                  exact (onBalance_makes lib env _).prepend hbalance
            · have hnone : ¬((c.matchesInflight ev = true ∨ c.inflightRequestId = "") ∧
                  c.inflightMethod = "get_balance") := fun h => hmethod h.2
              rw [if_neg hmethod, if_neg hnone]
              split
              · unfold onListTransactionsResponse
                cases decodeListTransactionsResponse (lib.jsonParse plaintext) with
                | error err => exact makes_none lib _
                | ok txs => exact applyPayments_silent env _ _
              · exact makes_none lib c
          · rw [if_neg hmatches, if_neg fun h => hmatches h.1]
            exact makes_none lib c

theorem dispatchRawNotification_makes (raw : RawNotification) :
    Makes lib (c.dispatchRawNotification lib env raw) (c.dispatchCall lib env raw) := by
  unfold dispatchRawNotification dispatchCall
  cases c.decodeNotification lib raw with
  | none => exact makes_none lib c
  | some pn =>
      have hsilent := c.applyPaymentToBalance_silent env pn
      simp only [Option.bind_eq_bind, Option.bind_some, refreshBalance]
      split
      · exact (makes_requestGetBalance lib env _).prepend hsilent
      · exact (makes_none lib _).prepend hsilent

theorem receive_makes (wired : Bool) (ev : Event) :
    Makes lib (c.receive lib wired env ev) (c.receiveCall lib env wired ev) := by
  unfold receive receiveCall
  by_cases hfatal : c.state = .fatal
  · rw [if_pos hfatal, handleEvent, if_pos hfatal]
    exact makes_none lib c
  rw [if_neg hfatal]
  by_cases hinfo : ev.kind = kKindInfo
  · rw [if_pos hinfo, handleEvent, if_neg hfatal, if_pos hinfo]
    exact c.onInfoEvent_makes lib env ev
  rw [if_neg hinfo]
  by_cases hresponse : ev.kind = kKindResponse
  · rw [if_pos hresponse, handleEvent, if_neg hfatal, if_neg hinfo, if_pos hresponse]
    exact c.onResponse_makes lib env ev
  rw [if_neg hresponse]
  have hself : (c.handleEvent lib env ev).1 = (c, []) := by
    unfold handleEvent
    rw [if_neg hfatal, if_neg hinfo, if_neg hresponse]
    split_ifs <;> rfl
  dsimp only
  rw [hself]
  cases (c.handleEvent lib env ev).2 with
  | none => exact makes_none lib c
  | some raw =>
      cases wired with
      | true => exact makes_none lib c
      | false => exact c.dispatchRawNotification_makes lib env raw

end NwcClient

namespace Life

variable (lib : Library) (wired : Bool)

/-- The calls listed are those which an operation makes. -/
theorem execClient_makes (c : NwcClient) (op : LifeOp) :
    Makes lib (execClient lib wired c op) (op.call lib wired c) := by
  cases op with
  | start => exact makes_none lib _
  | stop => exact makes_none lib _
  | event ev env => exact c.receive_makes lib env wired ev
  | requestGetBalance env => exact makes_requestGetBalance lib env c
  | requestListTransactions fromSecs limit env =>
      exact makes_requestListTransactions lib env c fromSecs limit
  | tick env =>
      simp only [execClient, LifeOp.call]
      split
      · exact makes_requestGetBalance lib env c
      · exact makes_none lib c
  | dispatch raw env => exact c.dispatchRawNotification_makes lib env raw

/-- An operation, with what the publish hook answers during it. -/
structure Attempt where
  op : LifeOp
  publish : PublishFn

def attempt (s : Life) (a : Attempt) : Life :=
  s.step lib wired a.op

/-- A request which fails leaves the client as it was. -/
def LeavesPending (s : Life) (a : Attempt) : Prop :=
  ∀ call, a.op.call lib wired s.client = some call →
    call.client.Fails lib call.env a.publish call.kind →
      call.client.LeavesInflight lib (call.result lib).1

/-- A request which fails repeats what is in flight. -/
def FailsRepeating (s : Life) (a : Attempt) : Prop :=
  ∀ call, a.op.call lib wired s.client = some call →
    call.client.Fails lib call.env a.publish call.kind →
      call.client.Repeats lib call.env call.kind

theorem leavesPending_iff (s : Life) (a : Attempt) :
    LeavesPending lib wired s a ↔ FailsRepeating lib wired s a := by
  have hcall (call : Call) :
      call.client.LeavesInflight lib (call.result lib).1 ↔
        call.client.Repeats lib call.env call.kind :=
    call.client.leavesInflight_request_iff lib call.env call.kind
  simp only [LeavesPending, FailsRepeating, hcall]

/-- All along a run the failing requests leave the client as it was exactly when each of them
repeats the one in flight. -/
theorem along_leavesPending_iff (pairing : PairingUri) (attempts : List Attempt) :
    Along (attempt lib wired) (LeavesPending lib wired) (new pairing) attempts ↔
      Along (attempt lib wired) (FailsRepeating lib wired) (new pairing) attempts :=
  along_congr (leavesPending_iff lib wired) (new pairing) attempts

/-- The transactions have been asked for, and the socket refuses the balance request. -/
def refusedAttempts : List Attempt :=
  [⟨.start, none⟩, ⟨.requestListTransactions 1700000001 20 {}, some fun _ => true⟩,
    ⟨.requestGetBalance {}, some fun _ => false⟩]

theorem not_along_leavesPending_refused :
    ¬ ∀ (lib : Library) (wired : Bool) (pairing : PairingUri) (attempts : List Attempt),
      Along (attempt lib wired) (LeavesPending lib wired) (new pairing) attempts := by
  intro h
  obtain ⟨-, -, hrefused, -⟩ := h NwcCtx.demoLibrary true NwcCtx.demoPairing refusedAttempts
  have hleaves := hrefused _ rfl (NwcClient.fails_of_refused _ _ _ .getBalance)
  have hmethod := hleaves.method
  rw [Call.result, NwcClient.inflightMethod_request] at hmethod
  have hpending := NwcClient.inflightMethod_request NwcCtx.demoLibrary {}
    (attempt NwcCtx.demoLibrary true (new NwcCtx.demoPairing) ⟨.start, none⟩).client
    (.listTransactions 1700000001 20)
  exact absurd (hmethod.trans hpending) (by decide)

end Life

end Nwc

end BtClock
