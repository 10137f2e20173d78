import BtClock.Nwc.SeenPayments
import BtClock.Nwc.WalletEvents

/-!
# The life cycle of the wallet client

A client is started and stopped, and events, requests and ticks come in any order between.
`HandleEvent` asks for the fatal state only.  An INFO event which arrives while the client is
not started makes it ready, and a response to a request made while it is stopped is taken.
-/

namespace BtClock

namespace Nwc

open Nostr Transition

namespace NwcClient

/-- `HandleEvent` with the queue wired, or with the notification dispatched at once. -/
def receive (lib : Library) (wired : Bool) (env : Env) (c : NwcClient) (ev : Event) :
    NwcClient × List Hook :=
  let r := c.handleEvent lib env ev
  match r.2 with
  | none => r.1
  | some raw => if wired then r.1 else r.1.1.dispatchRawNotification lib env raw

end NwcClient

/-- What happened last: nothing yet, a start (with an INFO event since then or not), or
a stop. -/
inductive Phase
  | fresh
  | started (informed : Bool)
  | stopped
  deriving DecidableEq

/-- A valid INFO event. -/
def IsInfo (ev : Event) : Prop :=
  ev.kind = kKindInfo ∧ ev.content ≠ ""

instance (ev : Event) : Decidable (IsInfo ev) :=
  inferInstanceAs (Decidable (_ ∧ _))

def Phase.event (phase : Phase) (ev : Event) : Phase :=
  match phase with
  | .started informed => .started (informed || decide (IsInfo ev))
  | phase => phase

/-- The operations on a client. -/
inductive LifeOp
  | start
  | stop
  | event (ev : Event) (env : Env)
  | requestGetBalance (env : Env)
  | requestListTransactions (fromSecs : ℤ) (limit : ℕ) (env : Env)
  | tick (env : Env)
  | dispatch (raw : RawNotification) (env : Env)

/-- The client with its history. -/
structure Life where
  client : NwcClient
  phase : Phase := .fresh

namespace Life

variable (lib : Library) (wired : Bool)

/-- The client after an operation, and the hooks which it calls. -/
def execClient (c : NwcClient) : LifeOp → NwcClient × List Hook
  | .start => ((c.start lib).1, [])
  | .stop => (c.stop.1, [])
  | .event ev env => c.receive lib wired env ev
  | .requestGetBalance env => c.requestGetBalance lib env
  | .requestListTransactions fromSecs limit env =>
      c.requestListTransactions lib env fromSecs limit
  | .tick env => if c.state = .ready then c.requestGetBalance lib env else (c, [])
  | .dispatch raw env => c.dispatchRawNotification lib env raw

def nextPhase (phase : Phase) : LifeOp → Phase
  | .start => .started false
  | .stop => .stopped
  | .event ev _ => phase.event ev
  | _ => phase

def step (s : Life) (op : LifeOp) : Life where
  client := (execClient lib wired s.client op).1
  phase := nextPhase s.phase op

/-- A call of one of the three callbacks of the user. -/
def IsCallback : Hook → Prop
  | .publish _ => False
  | _ => True

/-- The client is ready only with an INFO event since its last start, and an event which
comes after a stop does nothing. -/
structure KeepsLifeCycle (s : Life) (op : LifeOp) : Prop where
  ready : (s.step lib wired op).client.state = .ready →
    (s.step lib wired op).phase = .started true
  inert : ∀ ev env, op = .event ev env → s.phase = .stopped →
    (s.step lib wired op).client.state = s.client.state ∧
      (s.step lib wired op).client.balanceMsatCache = s.client.balanceMsatCache ∧
        ∀ hook ∈ (execClient lib wired s.client op).2, ¬ IsCallback hook

end Life

namespace NwcClient

/-- The event brings a balance or a new payment: it answers the request in flight, or, with no
queue wired, it notifies of a payment. -/
def Tells (lib : Library) (wired : Bool) (env : Env) (c : NwcClient) (ev : Event) : Prop :=
  ev.kind = kKindResponse ∧ (c.matchesInflight ev = true ∨ c.inflightRequestId = "") ∧
      (∃ seckey walletPub plaintext, c.loadKeys = some (seckey, walletPub) ∧
        lib.decrypt (c.responseVariant ev) seckey walletPub ev.content = some plaintext ∧
          (c.inflightMethod = "get_balance" ∧
              (∃ b, decodeBalanceResponse (lib.jsonParse plaintext) = .ok b) ∨
            c.inflightMethod = "list_transactions" ∧
              ∃ txs, decodeListTransactionsResponse (lib.jsonParse plaintext) = .ok txs ∧
                ∃ pn ∈ txs, c.dropsPayment env pn = false)) ∨
    wired = false ∧ (ev.kind = kKindNotifModern ∨ ev.kind = kKindNotifLegacy) ∧
      ∃ pn, c.decodeNotification lib (rawNotification ev) = some pn ∧
        c.dropsPayment env pn = false

end NwcClient

namespace Life

/-- No INFO event comes while the client is not started, and none which tells something
after a stop. -/
def Unheeded (lib : Library) (wired : Bool) (s : Life) (op : LifeOp) : Prop :=
  ∀ ev env, op = .event ev env →
    ((∀ informed, s.phase ≠ .started informed) → ¬ IsInfo ev) ∧
      (s.phase = .stopped → ¬ s.client.Tells lib wired env ev)

end Life

/-! ### The state of the client -/

namespace NwcClient

variable (lib : Library) (env : Env) (c : NwcClient)

@[simp]
theorem publishSignedRequest_state (payload : String) :
    (c.publishSignedRequest lib env payload).1.state = c.state := by
  unfold publishSignedRequest
  split <;> rfl

@[simp]
theorem requestGetBalance_state : (c.requestGetBalance lib env).1.state = c.state := by
  simp [requestGetBalance]

@[simp]
theorem requestListTransactions_state (fromSecs : ℤ) (limit : ℕ) :
    (c.requestListTransactions lib env fromSecs limit).1.state = c.state := by
  simp [requestListTransactions]

@[simp]
theorem onBalance_state : (c.onBalance lib env).1.state = c.state := by
  unfold onBalance
  split
  · rfl
  · dsimp only
    split
    · rfl
    · simp

@[simp]
theorem applyPaymentToBalance_state (pn : PaymentNotification) :
    (c.applyPaymentToBalance env pn).1.state = c.state := by
  unfold applyPaymentToBalance
  split
  · rfl
  · dsimp only
    split <;> rfl

@[simp]
theorem applyPayments_state (pns : List PaymentNotification) :
    (c.applyPayments env pns).1.state = c.state := by
  induction pns generalizing c with
  | nil => rfl
  | cons pn pns ih => exact (ih _).trans (c.applyPaymentToBalance_state env pn)

@[simp]
theorem refreshBalance_state : (c.refreshBalance lib env).1.state = c.state := by
  unfold refreshBalance
  split
  · simp
  · rfl

@[simp]
theorem dispatchRawNotification_state (raw : RawNotification) :
    (c.dispatchRawNotification lib env raw).1.state = c.state := by
  unfold dispatchRawNotification
  split
  · rfl
  · simp

@[simp]
theorem onResponse_state (ev : Event) : (c.onResponse lib env ev).1.state = c.state := by
  unfold onResponse
  split
  · rfl
  · split
    · rfl
    · split
      · split
        · unfold onBalanceResponse
          split
          · simp [clearInflight]
          · rfl
        · split
          · unfold onListTransactionsResponse
            split
            · simp [clearInflight]
            · rfl
          · rfl
      · rfl

theorem onInfoEvent_state (ev : Event) :
    (c.onInfoEvent lib env ev).1.state = if ev.content = "" then c.state else .ready := by
  unfold onInfoEvent
  cases h : decodeInfoEvent ev.content ev.tags with
  | none => rw [if_pos ((decodeInfoEvent_eq_none_iff _ _).mp h)]
  | some info =>
      have hne : ev.content ≠ "" := by
        intro he
        rw [(decodeInfoEvent_eq_none_iff _ ev.tags).mpr he] at h
        cases h
      simp [hne]

/-- Only an INFO event changes the state. -/
theorem receive_state (wired : Bool) (ev : Event) :
    (c.receive lib wired env ev).1.state =
      if c.state ≠ .fatal ∧ IsInfo ev then .ready else c.state := by
  unfold receive handleEvent IsInfo
  by_cases hfatal : c.state = .fatal
  · simp [hfatal]
  rw [if_neg hfatal]
  by_cases hinfo : ev.kind = kKindInfo
  · by_cases hcontent : ev.content = "" <;> simp [hinfo, hfatal, hcontent, onInfoEvent_state]
  have hnone : ¬ (c.state ≠ .fatal ∧ ev.kind = kKindInfo ∧ ev.content ≠ "") :=
    fun h => hinfo h.2.1
  rw [if_neg hinfo, if_neg hnone]
  by_cases hresponse : ev.kind = kKindResponse
  · simp [hresponse]
  rw [if_neg hresponse]
  by_cases hmodern : ev.kind = kKindNotifModern
  · cases wired <;> simp [hmodern]
  rw [if_neg hmodern]
  by_cases hlegacy : ev.kind = kKindNotifLegacy
  · rw [if_pos hlegacy]
    by_cases hready : c.state = .ready ∧ c.encryption = .nip44V2
    · simp [hready]
    · cases wired <;> simp [hready]
  · simp [hlegacy]

end NwcClient

/-! ### The callbacks of the client -/

open Life

/-- The result leaves the balance as it was and calls none of the callbacks. -/
def IsSilent (c : NwcClient) (r : NwcClient × List Hook) : Prop :=
  r.1.balanceMsatCache = c.balanceMsatCache ∧ ∀ hook ∈ r.2, ¬ IsCallback hook

theorem isSilent_self (c : NwcClient) : IsSilent c (c, []) :=
  ⟨rfl, by simp⟩

theorem not_isSilent {c : NwcClient} {r : NwcClient × List Hook} {hook : Hook}
    (hmem : hook ∈ r.2) (hcall : IsCallback hook) : ¬ IsSilent c r :=
  fun h => h.2 hook hmem hcall

namespace NwcClient

variable (lib : Library) (env : Env) (c : NwcClient)

@[simp]
theorem dropsPayment_clearInflight (pn : PaymentNotification) :
    c.clearInflight.dropsPayment env pn = c.dropsPayment env pn :=
  rfl

@[simp]
theorem isSilent_clearInflight_iff (r : NwcClient × List Hook) :
    IsSilent c.clearInflight r ↔ IsSilent c r :=
  Iff.rfl

theorem clearInflight_isSilent : IsSilent c (c.clearInflight, []) :=
  ⟨rfl, by simp⟩

/-- Applied payments are silent when every one of them is a duplicate. -/
theorem applyPayments_isSilent_iff (pns : List PaymentNotification) :
    IsSilent c (c.applyPayments env pns) ↔ ∀ pn ∈ pns, c.dropsPayment env pn = true := by
  induction pns with
  | nil => simp [applyPayments, isSilent_self]
  | cons pn pns ih =>
      rw [List.forall_mem_cons]
      cases hdrop : c.dropsPayment env pn with
      | true =>
          have happly : c.applyPayments env (pn :: pns) = c.applyPayments env pns := by
            rw [applyPayments, c.applyPaymentToBalance_of_drops env hdrop]
            rfl
          rw [happly, ih]
          simp
      | false =>
          have hmem : Hook.payment pn ∈ (c.applyPayments env (pn :: pns)).2 := by
            rw [applyPayments, c.applyPaymentToBalance_hooks env hdrop]
            exact List.mem_cons_self
          simp only [Bool.false_eq_true, false_and, iff_false]
          exact not_isSilent hmem trivial

theorem onBalanceResponse_isSilent_iff (plaintext : String) :
    IsSilent c (c.onBalanceResponse lib env plaintext) ↔
      ¬ ∃ b, decodeBalanceResponse (lib.jsonParse plaintext) = .ok b := by
  unfold onBalanceResponse
  cases hdecode : decodeBalanceResponse (lib.jsonParse plaintext) with
  | ok b =>
      have hcall : ¬ IsSilent c
          (({ c with balanceMsatCache := b }.clearInflight.onBalance lib env).1,
            .balance b :: ({ c with balanceMsatCache := b }.clearInflight.onBalance lib env).2) :=
        not_isSilent List.mem_cons_self trivial
      simp [hcall]
  | error e => simpa using c.clearInflight_isSilent

theorem onListTransactionsResponse_isSilent_iff (plaintext : String) :
    IsSilent c (c.onListTransactionsResponse lib env plaintext) ↔
      ¬ ∃ txs, decodeListTransactionsResponse (lib.jsonParse plaintext) = .ok txs ∧
        ∃ pn ∈ txs, c.dropsPayment env pn = false := by
  unfold onListTransactionsResponse
  cases hdecode : decodeListTransactionsResponse (lib.jsonParse plaintext) with
  | ok txs =>
      have happly := c.clearInflight.applyPayments_isSilent_iff env
        (txs.mergeSort fun a b => decide (a.settledAt ≤ b.settledAt))
      simpa using happly
  | error e => simpa using c.clearInflight_isSilent

/-- A payment which the inline dispatch of an idle client finds is told unless dropped. -/
theorem dispatchRawNotification_isSilent_iff (hidle : c.state = .idle)
    (raw : RawNotification) :
    IsSilent c (c.dispatchRawNotification lib env raw) ↔
      ¬ ∃ pn, c.decodeNotification lib raw = some pn ∧ c.dropsPayment env pn = false := by
  unfold dispatchRawNotification
  cases hdecode : c.decodeNotification lib raw with
  | none => simpa using isSilent_self c
  | some pn =>
      cases hdrop : c.dropsPayment env pn with
      | true =>
          have hrefresh : c.refreshBalance lib env = (c, []) := by
            simp [refreshBalance, hidle]
          simpa [c.applyPaymentToBalance_of_drops env hdrop, hrefresh, hdrop] using
            isSilent_self c
      | false =>
          have hmem : Hook.payment pn ∈ (c.applyPaymentToBalance env pn).2 ++
              ((c.applyPaymentToBalance env pn).1.refreshBalance lib env).2 := by
            simp [c.applyPaymentToBalance_hooks env hdrop]
          have hcall : IsCallback (Hook.payment pn) := trivial
          simpa [hdrop] using not_isSilent hmem hcall

theorem onResponse_isSilent_iff (ev : Event) :
    IsSilent c (c.onResponse lib env ev) ↔
      ¬ ((c.matchesInflight ev = true ∨ c.inflightRequestId = "") ∧
        ∃ seckey walletPub plaintext, c.loadKeys = some (seckey, walletPub) ∧
          lib.decrypt (c.responseVariant ev) seckey walletPub ev.content = some plaintext ∧
            (c.inflightMethod = "get_balance" ∧
                (∃ b, decodeBalanceResponse (lib.jsonParse plaintext) = .ok b) ∨
              c.inflightMethod = "list_transactions" ∧
                ∃ txs, decodeListTransactionsResponse (lib.jsonParse plaintext) = .ok txs ∧
                  ∃ pn ∈ txs, c.dropsPayment env pn = false)) := by
  unfold onResponse
  rcases hkeys : c.loadKeys with _ | ⟨seckey, walletPub⟩
  · simpa using isSilent_self c
  cases hdecrypt : lib.decrypt (c.responseVariant ev) seckey walletPub ev.content with
  | none => simpa [hdecrypt] using isSilent_self c
  | some plaintext =>
      by_cases hmatch : c.matchesInflight ev = true ∨ c.inflightRequestId = ""
      · by_cases hbalance : c.inflightMethod = "get_balance"
        · simp [hmatch, hbalance, hdecrypt, onBalanceResponse_isSilent_iff]
        · by_cases hlist : c.inflightMethod = "list_transactions"
          · simp [hmatch, hlist, hdecrypt, onListTransactionsResponse_isSilent_iff]
          · simpa [hmatch, hbalance, hlist, hdecrypt] using isSilent_self c
      · simpa [hmatch, hdecrypt] using isSilent_self c

/-- An event which is not an INFO event, taken by an idle client. -/
theorem receive_isSilent_iff (wired : Bool) {ev : Event} (hidle : c.state = .idle)
    (hinfo : ¬ IsInfo ev) :
    IsSilent c (c.receive lib wired env ev) ↔ ¬ c.Tells lib wired env ev := by
  have hready : ¬ (c.state = .ready ∧ c.encryption = .nip44V2) := by simp [hidle]
  have hfatal : c.state ≠ .fatal := by simp [hidle]
  unfold receive handleEvent Tells
  rw [if_neg hfatal]
  by_cases hkind : ev.kind = kKindInfo
  · have hcontent : ev.content = "" := by
      by_contra hne
      exact hinfo ⟨hkind, hne⟩
    have honInfo : c.onInfoEvent lib env ev = (c, []) := by
      rw [onInfoEvent, (decodeInfoEvent_eq_none_iff _ ev.tags).mpr hcontent]
    rw [if_pos hkind]
    simpa [honInfo, hkind, kKindInfo, kKindResponse, kKindNotifModern, kKindNotifLegacy]
      using isSilent_self c
  rw [if_neg hkind]
  by_cases hresponse : ev.kind = kKindResponse
  · rw [if_pos hresponse]
    simpa [hresponse, kKindResponse, kKindNotifModern, kKindNotifLegacy] using
      c.onResponse_isSilent_iff lib env ev
  rw [if_neg hresponse]
  by_cases hnotif : ev.kind = kKindNotifModern ∨ ev.kind = kKindNotifLegacy
  · have hraw : (if ev.kind = kKindNotifModern then ((c, []), some (rawNotification ev))
        else if ev.kind = kKindNotifLegacy then
          if c.state = .ready ∧ c.encryption = .nip44V2 then ((c, []), none)
          else ((c, []), some (rawNotification ev))
        else ((c, []), none)) =
          ((c, ([] : List Hook)), some (rawNotification ev)) := by
      rcases hnotif with h | h
      · rw [if_pos h]
      · simp [h, hready]
    rw [hraw]
    cases wired with
    | true => simpa [hresponse] using isSilent_self c
    | false =>
        simpa [hresponse, hnotif] using
          c.dispatchRawNotification_isSilent_iff lib env hidle (rawNotification ev)
  · obtain ⟨hmodern, hlegacy⟩ := not_or.mp hnotif
    rw [if_neg hmodern, if_neg hlegacy]
    simpa [hresponse, hnotif] using isSilent_self c

end NwcClient

/-! ### Runs -/

namespace Life

variable (lib : Library) (wired : Bool)

/-- A client which is not started is idle, and a ready one has seen an INFO event. -/
structure Tracks (s : Life) : Prop where
  idle : (∀ informed, s.phase ≠ .started informed) → s.client.state = .idle
  ready : s.client.state = .ready → s.phase = .started true

theorem start_state_ne_ready (c : NwcClient) : (c.start lib).1.state ≠ .ready := by
  unfold NwcClient.start
  split
  · simp
  · split <;> simp

/-- The operations other than an event leave the state, or leave it idle or not ready. -/
theorem tracks_step_of_not_event {s : Life} (hs : s.Tracks) {op : LifeOp}
    (hop : ∀ ev env, op ≠ .event ev env) : (s.step lib wired op).Tracks := by
  cases op with
  | start =>
      refine ⟨fun h => absurd rfl (h false), fun h => absurd h ?_⟩
      exact start_state_ne_ready lib s.client
  | stop => exact ⟨fun _ => rfl, fun h => by cases h⟩
  | event ev env => exact absurd rfl (hop ev env)
  | requestGetBalance env => exact ⟨by simpa [step, execClient, nextPhase] using hs.idle,
      by simpa [step, execClient, nextPhase] using hs.ready⟩
  | requestListTransactions fromSecs limit env =>
      exact ⟨by simpa [step, execClient, nextPhase] using hs.idle,
        by simpa [step, execClient, nextPhase] using hs.ready⟩
  | tick env =>
      by_cases hready : s.client.state = .ready
      · refine ⟨?_, ?_⟩
        · simpa [step, execClient, nextPhase, hready] using hs.idle
        · simpa [step, execClient, nextPhase, hready] using hs.ready hready
      · refine ⟨?_, ?_⟩
        · simpa [step, execClient, nextPhase, hready] using hs.idle
        · simp [step, execClient, nextPhase, hready]
  | dispatch raw env => exact ⟨by simpa [step, execClient, nextPhase] using hs.idle,
      by simpa [step, execClient, nextPhase] using hs.ready⟩

/-- An event while the client is started. -/
theorem tracks_step_of_started {s : Life} (hs : s.Tracks) {informed : Bool}
    (hphase : s.phase = .started informed) (ev : Event) (env : Env) :
    (s.step lib wired (.event ev env)).Tracks := by
  have hnext : (s.step lib wired (.event ev env)).phase =
      .started (informed || decide (IsInfo ev)) := by
    simp [step, nextPhase, hphase, Phase.event]
  refine ⟨fun h => absurd hnext (h _), fun h => ?_⟩
  rw [hnext]
  by_cases hinfo : IsInfo ev
  · simp [hinfo]
  · have hstate : s.client.state = .ready := by
      simpa [step, execClient, NwcClient.receive_state, hinfo] using h
    have hinformed := hs.ready hstate
    rw [hphase, Phase.started.injEq] at hinformed
    simp [hinformed]

/-- An event while the client is not started. -/
theorem tracks_step_of_not_started {s : Life} (hs : s.Tracks)
    (hphase : ∀ informed, s.phase ≠ .started informed) (ev : Event) (env : Env) :
    (s.step lib wired (.event ev env)).Tracks ↔ ¬ IsInfo ev := by
  have hidle : s.client.state = .idle := hs.idle hphase
  have hnext : (s.step lib wired (.event ev env)).phase = s.phase := by
    cases h : s.phase with
    | started informed => exact absurd h (hphase informed)
    | fresh => simp [step, nextPhase, h, Phase.event]
    | stopped => simp [step, nextPhase, h, Phase.event]
  have hstate : (s.step lib wired (.event ev env)).client.state =
      if IsInfo ev then .ready else .idle := by
    simp [step, execClient, NwcClient.receive_state, hidle]
  constructor
  · intro h hinfo
    rw [if_pos hinfo] at hstate
    exact hphase true (hnext ▸ h.ready hstate)
  · intro hinfo
    rw [if_neg hinfo] at hstate
    exact ⟨fun _ => hstate, fun h => by rw [hstate] at h; cases h⟩

theorem keepsLifeCycle_of_not_event {s : Life} (hs : s.Tracks) {op : LifeOp}
    (hop : ∀ ev env, op ≠ .event ev env) : KeepsLifeCycle lib wired s op :=
  ⟨(tracks_step_of_not_event lib wired hs hop).ready,
    fun ev env h => absurd h (hop ev env)⟩

theorem keepsLifeCycle_event_iff {s : Life} (hs : s.Tracks) (ev : Event) (env : Env) :
    KeepsLifeCycle lib wired s (.event ev env) ↔
      ((∀ informed, s.phase ≠ .started informed) → ¬ IsInfo ev) ∧
        (s.phase = .stopped → ¬ s.client.Tells lib wired env ev) := by
  by_cases hphase : ∀ informed, s.phase ≠ .started informed
  · have hidle := hs.idle hphase
    have htracks := tracks_step_of_not_started lib wired hs hphase ev env
    constructor
    · intro h
      have hinfo : ¬ IsInfo ev := by
        intro hinfo
        have hstate : (s.step lib wired (.event ev env)).client.state = .ready := by
          simp [step, execClient, NwcClient.receive_state, hidle, hinfo]
        have hstarted := h.ready hstate
        cases hs' : s.phase with
        | started informed => exact hphase informed hs'
        | fresh => simp [step, nextPhase, hs', Phase.event] at hstarted
        | stopped => simp [step, nextPhase, hs', Phase.event] at hstarted
      refine ⟨fun _ => hinfo, fun hstopped => ?_⟩
      exact (s.client.receive_isSilent_iff lib env wired hidle hinfo).mp
        (h.inert ev env rfl hstopped).2
    · intro h
      have hinfo := h.1 hphase
      refine ⟨(htracks.mpr hinfo).ready, fun ev' env' heq hstopped => ?_⟩
      cases heq
      have hstate : (s.step lib wired (.event ev env)).client.state = s.client.state := by
        simp [step, execClient, NwcClient.receive_state, hinfo]
      exact ⟨hstate,
        (s.client.receive_isSilent_iff lib env wired hidle hinfo).mpr (h.2 hstopped)⟩
  · obtain ⟨informed, hstarted⟩ := not_forall_not.mp hphase
    have hready := (tracks_step_of_started lib wired hs hstarted ev env).ready
    have hstopped : s.phase ≠ .stopped := by simp [hstarted]
    constructor
    · exact fun _ => ⟨fun h => absurd h hphase, fun h => absurd h hstopped⟩
    · exact fun _ => ⟨hready, fun _ _ _ h => absurd h hstopped⟩

theorem tracks_step {s : Life} (hs : s.Tracks) {op : LifeOp}
    (h : Unheeded lib wired s op) : (s.step lib wired op).Tracks := by
  by_cases hop : ∀ ev env, op ≠ .event ev env
  · exact tracks_step_of_not_event lib wired hs hop
  · obtain ⟨ev, hop⟩ := not_forall.mp hop
    obtain ⟨env, rfl⟩ := not_forall_not.mp hop
    by_cases hphase : ∀ informed, s.phase ≠ .started informed
    · exact (tracks_step_of_not_started lib wired hs hphase ev env).mpr
        ((h ev env rfl).1 hphase)
    · obtain ⟨informed, hstarted⟩ := not_forall_not.mp hphase
      exact tracks_step_of_started lib wired hs hstarted ev env

theorem keepsLifeCycle_iff {s : Life} (hs : s.Tracks) (op : LifeOp) :
    KeepsLifeCycle lib wired s op ↔ Unheeded lib wired s op := by
  by_cases hop : ∀ ev env, op ≠ .event ev env
  · exact iff_of_true (keepsLifeCycle_of_not_event lib wired hs hop)
      fun ev env h => absurd h (hop ev env)
  · obtain ⟨ev, hop⟩ := not_forall.mp hop
    obtain ⟨env, rfl⟩ := not_forall_not.mp hop
    rw [keepsLifeCycle_event_iff lib wired hs]
    constructor
    · intro h ev' env' heq
      cases heq
      exact h
    · exact fun h => h ev env rfl

/-- The client as its constructor leaves it. -/
def new (pairing : PairingUri) : Life where
  client := { pairing := pairing }

theorem tracks_new (pairing : PairingUri) : (new pairing).Tracks :=
  ⟨fun _ => rfl, fun h => by cases h⟩

/-- The life cycle is kept all along a run exactly when no event of the run which the client
heeds comes outside of its life. -/
theorem along_keepsLifeCycle_iff (pairing : PairingUri) (ops : List LifeOp) :
    Along (step lib wired) (KeepsLifeCycle lib wired) (new pairing) ops ↔
      Along (step lib wired) (Unheeded lib wired) (new pairing) ops := by
  constructor
  · refine Along.mono_of_invariant (fun s op hs h => ?_) (tracks_new pairing)
    have hop := (keepsLifeCycle_iff lib wired hs op).mp h
    exact ⟨hop, tracks_step lib wired hs hop⟩
  · refine Along.mono_of_invariant (fun s op hs h => ?_) (tracks_new pairing)
    exact ⟨(keepsLifeCycle_iff lib wired hs op).mpr h, tracks_step lib wired hs h⟩

/-- An INFO event which was in flight when the client was stopped. -/
def lateInfo : Event where
  kind := kKindInfo
  content := "get_balance"

/-- The stopped client is made ready by it. -/
theorem not_along_keepsLifeCycle_lateInfo :
    ¬ ∀ (lib : Library) (wired : Bool) (pairing : PairingUri) (ops : List LifeOp),
      Along (step lib wired) (KeepsLifeCycle lib wired) (new pairing) ops := by
  intro h
  have hrun := h NwcCtx.demoLibrary true NwcCtx.demoPairing
    [.start, .stop, .event lateInfo {}]
  obtain ⟨-, -, hinfo, -⟩ := hrun
  have hstarted := hinfo.ready (by simp [step, execClient, NwcClient.receive_state,
    NwcClient.stop, IsInfo, lateInfo])
  simp [step, nextPhase, Phase.event] at hstarted

end Life

end Nwc

end BtClock
