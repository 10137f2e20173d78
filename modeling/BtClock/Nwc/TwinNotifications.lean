import BtClock.Nwc.LifeCycle
import BtClock.Nwc.Replay
import BtClock.Recency.Names
import BtClock.Transition.Emit

/-!
# Payments which are told twice

A wallet with both encryptions publishes two notifications of a payment.  Once an INFO event
has named NIP-44, the client skips the one of kind 23196.  Before that, the ring of seen payments
alone keeps the second notification from the payment hook, and repetitions at any time.
-/

namespace BtClock

namespace Nwc

open Nostr Transition

/-- Payments, with the two events which tell of each. -/
structure Wallet (ι : Type*) where
  payment : ι → PaymentNotification
  legacy : ι → Event
  modern : ι → Event
  legacy_kind : ∀ i, (legacy i).kind = kKindNotifLegacy
  modern_kind : ∀ i, (modern i).kind = kKindNotifModern
  distinct : Function.Injective fun i => (payment i).paymentHash

/-- The payments which reach the payment hook. -/
def payments (hooks : List Hook) : List PaymentNotification :=
  hooks.filterMap fun
    | .payment pn => some pn
    | _ => none

@[simp]
theorem payments_nil : payments [] = [] :=
  rfl

@[simp]
theorem payments_append (hooks hooks' : List Hook) :
    payments (hooks ++ hooks') = payments hooks ++ payments hooks' :=
  List.filterMap_append

/-- The sightings of payments which carry a hash. -/
def hashed (ss : List Sighting) : List Sighting :=
  ss.filter fun s => s.hash != ""

@[simp]
theorem hashed_append (ss ss' : List Sighting) : hashed (ss ++ ss') = hashed ss ++ hashed ss' :=
  List.filter_append ..

/-- Whenever a payment comes again, it has a hash, and the record of its first sighting is
valid. -/
def Recognised (ss : List Sighting) : Prop :=
  ∀ pre s mid s' post, ss = pre ++ s :: (mid ++ s' :: post) → s.hash = s'.hash →
    s.hash ∉ pre.map Sighting.hash → s.hash ≠ "" ∧ s.record.hits s' = true

namespace Wallet

variable {ι : Type*} (w : Wallet ι) (lib : Library)

theorem eq_of_hash {i j : ι} (h : (w.payment i).paymentHash = (w.payment j).paymentHash) :
    i = j :=
  w.distinct h

/-- The event tells of the payment. -/
def Tells (ev : Event) (i : ι) : Prop :=
  ev = w.legacy i ∨ ev = w.modern i

/-- What the client reads in an event of the wallet is the payment of which it tells. -/
def Truthful (c : NwcClient) : Prop :=
  ∀ ev i pn, w.Tells ev i → c.decodeNotification lib (NwcClient.rawNotification ev) = some pn →
    pn = w.payment i

/-- The client can decrypt a notification of the payment. -/
def Readable (c : NwcClient) (i : ι) : Prop :=
  ∃ ev, w.Tells ev i ∧
    c.decodeNotification lib (NwcClient.rawNotification ev) = some (w.payment i)

/-- Every frame carries an INFO event or an event of the wallet. -/
def Delivers : NwcStep → Prop
  | .frame text _ =>
      ∃ ev, NwcCtx.frameEvent text = some ev ∧ (ev.kind = kKindInfo ∨ ∃ i, w.Tells ev i)
  | _ => True

/-- Nothing waits for the worker, and the ring has no valid record of a payment. -/
structure Unseen (ctx : NwcCtx) : Prop where
  queue : ctx.queue = []
  ring : ∀ e ∈ ctx.client.dedupRing.toList, ∀ i,
    e.tsSecs = 0 ∨ e.hash ≠ (w.payment i).paymentHash

end Wallet

namespace NwcCtx

variable {ι : Type*} (lib : Library) (w : Wallet ι)

/-- The payment which the worker reads in a step. -/
def sighted (ctx : NwcCtx) : NwcStep → List Sighting
  | .worker env =>
      match ctx.queue with
      | [] => []
      | (raw, _) :: _ =>
          (ctx.client.decodeNotification lib raw).toList.map fun pn =>
            { payment := pn, now := env.nowU64 }
  | _ => []

/-- The payments which the worker reads in a run. -/
def turns (ctx : NwcCtx) (steps : List NwcStep) : List Sighting :=
  emitted (fun ctx e => ((ctx.exec lib e).1, ctx.sighted lib e)) ctx steps

theorem turns_of_exec {ctx ctx' : NwcCtx} {e : NwcStep} {hooks : List Hook}
    (h : ctx.exec lib e = (ctx', hooks)) (steps : List NwcStep) :
    ctx.turns lib (e :: steps) = ctx.sighted lib e ++ ctx'.turns lib steps := by
  have hcons : ctx.turns lib (e :: steps) =
      ctx.sighted lib e ++ (ctx.exec lib e).1.turns lib steps := rfl
  rw [hcons, h]

/-- The notification goes on to the worker. -/
def Forwards (ctx : NwcCtx) (ev : Event) : Prop :=
  ctx.client.state ≠ .fatal ∧
    (ev.kind = kKindNotifModern ∨
      ev.kind = kKindNotifLegacy ∧
        ¬ (ctx.client.state = .ready ∧ ctx.client.encryption = .nip44V2)) ∧
    ctx.queue.length < kQueueCapacity

instance (ctx : NwcCtx) (ev : Event) : Decidable (ctx.Forwards ev) :=
  inferInstanceAs (Decidable (_ ∧ _ ∧ _))

/-- Some readable notification of the payment goes on to the worker. -/
def Forwarded (ctx : NwcCtx) (steps : List NwcStep) (i : ι) : Prop :=
  ∃ pre text env post ev, steps = pre ++ .frame text env :: post ∧ frameEvent text = some ev ∧
    w.Tells ev i ∧
    ctx.client.decodeNotification lib (NwcClient.rawNotification ev) = some (w.payment i) ∧
    (reached (exec lib) ctx pre).Forwards ev

/-- Each readable payment reaches the payment hook once, and the balance is what the payments
which reached the hook make of it. -/
structure NotifiedOnce (ctx : NwcCtx) (steps : List NwcStep) : Prop where
  once : ∀ i, w.Readable lib ctx.client i →
    (payments (emitted (exec lib) ctx steps)).count (w.payment i) = 1
  balance : (reached (exec lib) ctx steps).client.balanceMsatCache =
    (payments (emitted (exec lib) ctx steps)).foldl NwcClient.balanceAfter
      ctx.client.balanceMsatCache

end NwcCtx

/-! ### What a step does -/

namespace NwcClient

/-- The balance, the ring and the pairing stay, and no payment reaches the hook. -/
structure KeepsBooks (c : NwcClient) (r : NwcClient × List Hook) : Prop where
  balance : r.1.balanceMsatCache = c.balanceMsatCache
  ring : r.1.seenQueue = c.seenQueue
  pairing : r.1.pairing = c.pairing
  hooks : payments r.2 = []

variable (lib : Library) (env : Env) (c : NwcClient)

theorem keepsBooks_self : c.KeepsBooks (c, []) :=
  ⟨rfl, rfl, rfl, rfl⟩

theorem keepsBooks_requestGetBalance : c.KeepsBooks (c.requestGetBalance lib env) := by
  unfold requestGetBalance publishSignedRequest
  split
  · exact ⟨rfl, rfl, rfl, rfl⟩
  · exact ⟨rfl, rfl, rfl, rfl⟩

theorem keepsBooks_refreshBalance : c.KeepsBooks (c.refreshBalance lib env) := by
  unfold refreshBalance
  split
  · exact c.keepsBooks_requestGetBalance lib env
  · exact c.keepsBooks_self

theorem keepsBooks_onInfoEvent (ev : Event) : c.KeepsBooks (c.onInfoEvent lib env ev) := by
  unfold onInfoEvent
  split
  · exact c.keepsBooks_self
  · have hrequest (v : EncryptionVariant) :=
      keepsBooks_requestGetBalance lib env { c with encryption := v, state := .ready }
    exact ⟨(hrequest _).balance, (hrequest _).ring, (hrequest _).pairing, (hrequest _).hooks⟩

/-- Apart from the responses, no event reaches the books before the worker sees it. -/
theorem keepsBooks_handleEvent {ev : Event} (hkind : ev.kind ≠ kKindResponse) :
    c.KeepsBooks (c.handleEvent lib env ev).1 := by
  unfold handleEvent
  split_ifs
  · exact c.keepsBooks_self
  · exact c.keepsBooks_onInfoEvent lib env ev
  · exact c.keepsBooks_self
  · exact c.keepsBooks_self
  · exact c.keepsBooks_self
  · exact c.keepsBooks_self

/-- What the worker reads depends on the pairing only. -/
theorem decodeNotification_congr {c c' : NwcClient} (h : c'.pairing = c.pairing)
    (raw : RawNotification) :
    c'.decodeNotification lib raw = c.decodeNotification lib raw := by
  unfold decodeNotification loadKeys
  rw [h]

@[simp]
theorem pairing_applyPaymentToBalance (pn : PaymentNotification) :
    (c.applyPaymentToBalance env pn).1.pairing = c.pairing := by
  unfold applyPaymentToBalance
  split
  · rfl
  · dsimp only
    split <;> rfl

theorem balance_applyPaymentToBalance (pn : PaymentNotification) :
    (c.applyPaymentToBalance env pn).1.balanceMsatCache =
      (payments (c.applyPaymentToBalance env pn).2).foldl balanceAfter c.balanceMsatCache := by
  unfold applyPaymentToBalance
  split
  · rfl
  · dsimp only
    split <;> rfl

end NwcClient

/-- What sightings do to the books: those with a hash reach the payment hook if the ring does not
know them, and those without one always do. -/
structure Booked (c : NwcClient) (ss : List Sighting) (hooks : List Hook) (c' : NwcClient) :
    Prop where
  pairing : c'.pairing = c.pairing
  ring : c'.seenQueue =
    run (Fifo.serve SeenPayment.hits Sighting.record) c.seenQueue (hashed ss)
  named : (payments hooks).filter (fun pn => pn.paymentHash != "") =
    (Fifo.newcomers SeenPayment.hits Sighting.record c.seenQueue (hashed ss)).map
      Sighting.payment
  nameless : (payments hooks).filter (fun pn => pn.paymentHash == "") =
    (ss.filter fun s => s.hash == "").map Sighting.payment
  balance : c'.balanceMsatCache =
    (payments hooks).foldl NwcClient.balanceAfter c.balanceMsatCache

namespace Booked

theorem append {c c' c'' : NwcClient} {ss ss' : List Sighting} {hooks hooks' : List Hook}
    (h : Booked c ss hooks c') (h' : Booked c' ss' hooks' c'') :
    Booked c (ss ++ ss') (hooks ++ hooks') c'' where
  pairing := h'.pairing.trans h.pairing
  ring := by
    rw [hashed_append, run_append, ← h.ring]
    exact h'.ring
  named := by
    rw [payments_append, List.filter_append, h.named, h'.named, hashed_append,
      Fifo.newcomers_append, List.map_append, ← h.ring]
  nameless := by
    rw [payments_append, List.filter_append, h.nameless, h'.nameless, List.filter_append,
      List.map_append]
  balance := by
    rw [payments_append, List.foldl_append, ← h.balance]
    exact h'.balance

theorem of_keepsBooks {c : NwcClient} {r : NwcClient × List Hook} (h : c.KeepsBooks r) :
    Booked c [] r.2 r.1 where
  pairing := h.pairing
  ring := h.ring
  named := by
    rw [h.hooks]
    rfl
  nameless := by
    rw [h.hooks]
    rfl
  balance := by
    rw [h.hooks]
    exact h.balance

/-- A payment which the worker read is applied. -/
theorem apply (env : Env) (c : NwcClient) (pn : PaymentNotification) :
    Booked c [{ payment := pn, now := env.nowU64 }] (c.applyPaymentToBalance env pn).2
      (c.applyPaymentToBalance env pn).1 := by
  have hpairing := c.pairing_applyPaymentToBalance env pn
  have hring := c.seenQueue_applyPaymentToBalance env pn
  have hbalance := c.balance_applyPaymentToBalance env pn
  by_cases hhash : pn.paymentHash = ""
  · have hdrop : c.dropsPayment env pn = false := by simp [NwcClient.dropsPayment, hhash]
    have hhooks := c.applyPaymentToBalance_hooks env hdrop
    have hnone : sightings env [pn] = [] := by simp [sightings, hhash]
    have hhashed : hashed [{ payment := pn, now := env.nowU64 }] = [] := by
      simp [hashed, Sighting.hash, hhash]
    rw [hnone] at hring
    refine ⟨hpairing, ?_, ?_, ?_, hbalance⟩
    · rw [hhashed]
      exact hring
    · rw [hhooks, hhashed]
      simp [payments, hhash, Fifo.newcomers]
    · rw [hhooks]
      simp [payments, Sighting.hash, hhash]
  · have hone : sightings env [pn] = [{ payment := pn, now := env.nowU64 }] := by
      simp [sightings, hhash]
    have hhashed : hashed [{ payment := pn, now := env.nowU64 }] =
        [{ payment := pn, now := env.nowU64 }] := by
      simp [hashed, Sighting.hash, hhash]
    have hnameless : ([{ payment := pn, now := env.nowU64 }].filter
        fun s : Sighting => s.hash == "") = [] := by
      simp [Sighting.hash, hhash]
    rw [hone] at hring
    have hknows := c.dropsPayment_eq_true_iff env pn
    refine ⟨hpairing, ?_, ?_, ?_, hbalance⟩
    · rw [hhashed]
      exact hring
    · rw [hhashed]
      cases hdrop : c.dropsPayment env pn with
      | true =>
          rw [c.applyPaymentToBalance_of_drops env hdrop,
            Fifo.newcomers_cons_of_knows (hknows.mp hdrop).2]
          rfl
      | false =>
          have hunknown : Fifo.knows SeenPayment.hits c.seenQueue
              { payment := pn, now := env.nowU64 } = false := by
            rw [← Bool.not_eq_true]
            intro hk
            rw [hknows.mpr ⟨hhash, hk⟩] at hdrop
            cases hdrop
          rw [c.applyPaymentToBalance_hooks env hdrop,
            Fifo.newcomers_cons_of_not_knows hunknown]
          simp [payments, hhash, Fifo.newcomers]
    · rw [hnameless]
      cases hdrop : c.dropsPayment env pn with
      | true =>
          rw [c.applyPaymentToBalance_of_drops env hdrop]
          rfl
      | false =>
          rw [c.applyPaymentToBalance_hooks env hdrop]
          simp [payments, hhash]

end Booked

namespace NwcCtx

variable {ι : Type*} (lib : Library) (w : Wallet ι)

theorem keepsBooks_frame {ctx : NwcCtx} {text : String} {env : Env}
    (h : w.Delivers (.frame text env)) :
    ctx.client.KeepsBooks ((ctx.exec lib (.frame text env)).1.client,
      (ctx.exec lib (.frame text env)).2) := by
  obtain ⟨ev, hev, hkind⟩ := h
  have hresponse : ev.kind ≠ kKindResponse := by
    rcases hkind with hinfo | ⟨i, rfl | rfl⟩
    · rw [hinfo]
      decide
    · rw [w.legacy_kind]
      decide
    · rw [w.modern_kind]
      decide
  simp only [exec, hev, tryPush_client]
  exact ctx.client.keepsBooks_handleEvent lib env hresponse

theorem booked_exec (ctx : NwcCtx) {e : NwcStep} (h : w.Delivers e) :
    Booked ctx.client (ctx.sighted lib e) (ctx.exec lib e).2 (ctx.exec lib e).1.client := by
  cases e with
  | frame text env => exact Booked.of_keepsBooks (keepsBooks_frame lib w h)
  | worker env =>
      cases hqueue : ctx.queue with
      | nil =>
          simp only [exec, sighted, hqueue]
          exact Booked.of_keepsBooks ctx.client.keepsBooks_self
      | cons q queue =>
          obtain ⟨raw, ev⟩ := q
          simp only [exec, sighted, hqueue, NwcClient.dispatchRawNotification]
          cases hpn : ctx.client.decodeNotification lib raw with
          | none => exact Booked.of_keepsBooks ctx.client.keepsBooks_self
          | some pn =>
              have hrefresh := (ctx.client.applyPaymentToBalance env pn).1.keepsBooks_refreshBalance
                lib env
              exact (Booked.apply env ctx.client pn).append (Booked.of_keepsBooks hrefresh)
  | refresh env =>
      simp only [exec, sighted]
      split
      · exact Booked.of_keepsBooks (ctx.client.keepsBooks_requestGetBalance lib env)
      · exact Booked.of_keepsBooks ctx.client.keepsBooks_self

theorem booked_run (ctx : NwcCtx) {steps : List NwcStep} (h : ∀ e ∈ steps, w.Delivers e) :
    Booked ctx.client (ctx.turns lib steps) (emitted (exec lib) ctx steps)
      (reached (exec lib) ctx steps).client := by
  induction steps generalizing ctx with
  | nil => exact Booked.of_keepsBooks ctx.client.keepsBooks_self
  | cons e steps ih =>
      have hfirst := booked_exec lib w ctx (h e List.mem_cons_self)
      exact hfirst.append (ih _ fun f hf => h f (List.mem_cons_of_mem e hf))

/-! ### What goes on to the worker -/

theorem handleEvent_of_notification (env : Env) {c : NwcClient} {ev : Event}
    (hstate : c.state ≠ .fatal)
    (hkind : ev.kind = kKindNotifModern ∨
      ev.kind = kKindNotifLegacy ∧ ¬ (c.state = .ready ∧ c.encryption = .nip44V2)) :
    c.handleEvent lib env ev = ((c, []), some (NwcClient.rawNotification ev)) := by
  rcases hkind with hmodern | ⟨hlegacy, hskip⟩
  · exact NwcClient.handleEvent_of_modern lib env hstate hmodern
  · have hinfo : ev.kind ≠ kKindInfo := by rw [hlegacy]; decide
    have hresponse : ev.kind ≠ kKindResponse := by rw [hlegacy]; decide
    have hmodern : ev.kind ≠ kKindNotifModern := by rw [hlegacy]; decide
    rw [NwcClient.handleEvent, if_neg hstate, if_neg hinfo, if_neg hresponse, if_neg hmodern,
      if_pos hlegacy, if_neg hskip]

theorem handleEvent_snd_eq_none (env : Env) {c : NwcClient} {ev : Event}
    (h : ¬ (c.state ≠ .fatal ∧
      (ev.kind = kKindNotifModern ∨
        ev.kind = kKindNotifLegacy ∧ ¬ (c.state = .ready ∧ c.encryption = .nip44V2)))) :
    (c.handleEvent lib env ev).2 = none := by
  unfold NwcClient.handleEvent
  split_ifs with hfatal hinfo hresponse hmodern hlegacy hskip
  · rfl
  · rfl
  · rfl
  · exact absurd ⟨hfatal, Or.inl hmodern⟩ h
  · rfl
  · exact absurd ⟨hfatal, Or.inr ⟨hlegacy, hskip⟩⟩ h
  · rfl

/-- A frame which brings a notification hands it on, and does nothing else. -/
theorem exec_frame_of_forwards {ctx : NwcCtx} {text : String} (env : Env) {ev : Event}
    (hev : frameEvent text = some ev) (h : ctx.Forwards ev) :
    ctx.exec lib (.frame text env) =
      ({ ctx with queue := ctx.queue ++ [(NwcClient.rawNotification ev, ev)] }, []) := by
  simp only [exec, hev, handleEvent_of_notification lib env h.1 h.2.1, tryPush, if_pos h.2.2]

theorem exec_frame_queue {ctx : NwcCtx} {text : String} (env : Env) {ev : Event}
    (hev : frameEvent text = some ev) :
    (ctx.exec lib (.frame text env)).1.queue =
      if ctx.Forwards ev then ctx.queue ++ [(NwcClient.rawNotification ev, ev)]
      else ctx.queue := by
  split_ifs with hforwards
  · rw [exec_frame_of_forwards lib env hev hforwards]
  · rw [Forwards, ← and_assoc] at hforwards
    simp only [exec, hev]
    cases hraw : (ctx.client.handleEvent lib env ev).2 with
    | none => rfl
    | some raw =>
        have hfull : ¬ ctx.queue.length < kQueueCapacity := by
          intro hroom
          rw [handleEvent_snd_eq_none lib env fun h => hforwards ⟨h, hroom⟩] at hraw
          cases hraw
        simp only [tryPush, if_neg hfull]

theorem pairing_exec (ctx : NwcCtx) {e : NwcStep} (h : w.Delivers e) :
    (ctx.exec lib e).1.client.pairing = ctx.client.pairing :=
  (booked_exec lib w ctx h).pairing

/-- A notification in the queue was there before the step, or the step brought it. -/
theorem mem_queue_exec {ctx : NwcCtx} {e : NwcStep} {q : RawNotification × Event}
    (hq : q ∈ (ctx.exec lib e).1.queue) :
    q ∈ ctx.queue ∨ ∃ text env ev, e = .frame text env ∧ frameEvent text = some ev ∧
      ctx.Forwards ev ∧ q = (NwcClient.rawNotification ev, ev) := by
  cases e with
  | frame text env =>
      cases hev : frameEvent text with
      | none =>
          simp only [exec, hev] at hq
          exact Or.inl hq
      | some ev =>
          rw [exec_frame_queue lib env hev] at hq
          split_ifs at hq with hforwards
          · rcases List.mem_append.mp hq with hq | hq
            · exact Or.inl hq
            · exact Or.inr ⟨text, env, ev, rfl, hev, hforwards, List.mem_singleton.mp hq⟩
          · exact Or.inl hq
  | worker env =>
      cases hqueue : ctx.queue with
      | nil =>
          simp only [exec, hqueue, List.not_mem_nil] at hq
      | cons q' queue =>
          simp only [exec, hqueue] at hq
          exact Or.inl (List.mem_cons_of_mem q' hq)
  | refresh env =>
      refine Or.inl ?_
      simp only [exec] at hq
      split at hq
      · exact hq
      · exact hq

/-- What the worker reads in a step was in the queue. -/
theorem mem_sighted {ctx : NwcCtx} {e : NwcStep} {s : Sighting} (hs : s ∈ ctx.sighted lib e) :
    ∃ q ∈ ctx.queue, ctx.client.decodeNotification lib q.1 = some s.payment := by
  cases e with
  | worker env =>
      cases hqueue : ctx.queue with
      | nil =>
          simp only [sighted, hqueue, List.not_mem_nil] at hs
      | cons q queue =>
          simp only [sighted, hqueue] at hs
          obtain ⟨pn, hpn, rfl⟩ := List.mem_map.mp hs
          exact ⟨q, List.mem_cons_self, Option.mem_toList.mp hpn⟩
  | frame | refresh => cases hs

/-- What the worker reads was in the queue before the run, or a frame of the run brought it. -/
theorem exists_of_mem_turns {ctx : NwcCtx} {steps : List NwcStep}
    (h : ∀ e ∈ steps, w.Delivers e) {s : Sighting} (hs : s ∈ ctx.turns lib steps) :
    (∃ q ∈ ctx.queue, ctx.client.decodeNotification lib q.1 = some s.payment) ∨
      ∃ pre text env post ev, steps = pre ++ .frame text env :: post ∧
        frameEvent text = some ev ∧ (reached (exec lib) ctx pre).Forwards ev ∧
        ctx.client.decodeNotification lib (NwcClient.rawNotification ev) = some s.payment := by
  induction steps generalizing ctx with
  | nil => cases hs
  | cons e steps ih =>
      rcases List.mem_append.mp hs with hs | hs
      · exact Or.inl (mem_sighted lib hs)
      · have hpairing := pairing_exec lib w ctx (h e List.mem_cons_self)
        simp only [← NwcClient.decodeNotification_congr lib hpairing]
        rcases ih (fun f hf => h f (List.mem_cons_of_mem e hf)) hs with
          ⟨q, hq, hpn⟩ | ⟨pre, text, env, post, ev, rfl, hev, hforwards, hpn⟩
        · rcases mem_queue_exec lib hq with hq | ⟨text, env, ev, rfl, hev, hforwards, rfl⟩
          · exact Or.inl ⟨q, hq, hpn⟩
          · exact Or.inr ⟨[], text, env, steps, ev, rfl, hev, hforwards, hpn⟩
        · exact Or.inr ⟨e :: pre, text, env, post, ev, rfl, hev, hforwards, hpn⟩

/-- What is in the queue is read before the queue is empty. -/
theorem exists_mem_turns {ctx : NwcCtx} {steps : List NwcStep}
    (h : ∀ e ∈ steps, w.Delivers e) (hdrained : (reached (exec lib) ctx steps).queue = [])
    {q : RawNotification × Event} (hq : q ∈ ctx.queue) {pn : PaymentNotification}
    (hpn : ctx.client.decodeNotification lib q.1 = some pn) :
    ∃ s ∈ ctx.turns lib steps, s.payment = pn := by
  induction steps generalizing ctx with
  | nil =>
      rw [show ctx.queue = [] from hdrained] at hq
      cases hq
  | cons e steps ih =>
      have hlater (hmem : q ∈ (ctx.exec lib e).1.queue) :
          ∃ s ∈ ctx.turns lib (e :: steps), s.payment = pn := by
        have hpairing := pairing_exec lib w ctx (h e List.mem_cons_self)
        rw [← NwcClient.decodeNotification_congr lib hpairing] at hpn
        obtain ⟨s, hs, rfl⟩ := ih (fun f hf => h f (List.mem_cons_of_mem e hf)) hdrained hmem hpn
        exact ⟨s, List.mem_append_right _ hs, rfl⟩
      cases e with
      | frame text env =>
          refine hlater ?_
          cases hev : frameEvent text with
          | none =>
              simp only [exec, hev]
              exact hq
          | some ev =>
              rw [exec_frame_queue lib env hev]
              split_ifs
              · exact List.mem_append_left _ hq
              · exact hq
      | worker env =>
          cases hqueue : ctx.queue with
          | nil =>
              rw [hqueue] at hq
              cases hq
          | cons q' queue =>
              rw [hqueue] at hq
              rcases List.mem_cons.mp hq with rfl | hq
              · refine ⟨{ payment := pn, now := env.nowU64 }, List.mem_append_left _ ?_, rfl⟩
                simp [sighted, hqueue, hpn]
              · refine hlater ?_
                simp only [exec, hqueue]
                exact hq
      | refresh env =>
          refine hlater ?_
          simp only [exec]
          split
          · exact hq
          · exact hq

end NwcCtx

/-! ### Exactly once -/

namespace Booked

variable {c c' : NwcClient} {ss : List Sighting} {hooks : List Hook} {pn : PaymentNotification}

theorem count_of_hash (h : Booked c ss hooks c') (hpn : pn.paymentHash ≠ "") :
    (payments hooks).count pn =
      ((Fifo.newcomers SeenPayment.hits Sighting.record c.seenQueue (hashed ss)).map
        Sighting.payment).count pn := by
  rw [← h.named, List.count_filter]
  simpa using hpn

theorem count_of_nameless (h : Booked c ss hooks c') (hpn : pn.paymentHash = "") :
    (payments hooks).count pn =
      ((ss.filter fun s => s.hash == "").map Sighting.payment).count pn := by
  rw [← h.nameless, List.count_filter]
  simpa using hpn

/-- Only what was sighted reaches the payment hook. -/
theorem exists_of_mem_payments (h : Booked c ss hooks c') (hpn : pn ∈ payments hooks) :
    ∃ s ∈ ss, s.payment = pn := by
  by_cases hhash : pn.paymentHash = ""
  · have hmem : pn ∈ (payments hooks).filter fun pn => pn.paymentHash == "" :=
      List.mem_filter.mpr ⟨hpn, by simpa using hhash⟩
    rw [h.nameless] at hmem
    obtain ⟨s, hs, rfl⟩ := List.mem_map.mp hmem
    exact ⟨s, List.mem_of_mem_filter hs, rfl⟩
  · have hmem : pn ∈ (payments hooks).filter fun pn => pn.paymentHash != "" :=
      List.mem_filter.mpr ⟨hpn, by simpa using hhash⟩
    rw [h.named] at hmem
    obtain ⟨s, hs, rfl⟩ := List.mem_map.mp hmem
    exact ⟨s, List.mem_of_mem_filter ((Fifo.newcomers_sublist _ _).subset hs), rfl⟩

end Booked

theorem hashed_eq_append_cons {ss pre post : List Sighting} {s : Sighting}
    (h : hashed ss = pre ++ s :: post) :
    ∃ pre' post', ss = pre' ++ s :: post' ∧ hashed pre' = pre ∧ hashed post' = post ∧
      s.hash ≠ "" := by
  obtain ⟨pre', rest, rfl, hpre, hrest⟩ := List.filter_eq_append_iff.mp h
  obtain ⟨skipped, post', rfl, hskipped, hs, hpost⟩ := List.filter_eq_cons_iff.mp hrest
  refine ⟨pre' ++ skipped, post', by simp, ?_, hpost, by simpa using hs⟩
  have hnone : hashed skipped = [] := by
    rw [hashed, List.filter_eq_nil_iff]
    exact hskipped
  rw [hashed_append, hnone, List.append_nil]
  exact hpre

/-- A hash which is not among the hashed sightings is not among the others. -/
theorem notMem_map_hash {ss : List Sighting} {hash : String} (hne : hash ≠ "")
    (h : hash ∉ (hashed ss).map Sighting.hash) : hash ∉ ss.map Sighting.hash := by
  intro hmem
  obtain ⟨s, hs, rfl⟩ := List.mem_map.mp hmem
  exact h (List.mem_map_of_mem (List.mem_filter.mpr ⟨hs, by simpa using hne⟩))

theorem Recognised.hitsAgain {ss : List Sighting} (h : Recognised ss) :
    Fifo.HitsAgain SeenPayment.hits Sighting.record Sighting.hash (hashed ss) := by
  intro pre s mid s' post hsplit hname hfirst
  obtain ⟨pre', rest, rfl, rfl, hrest, hne⟩ := hashed_eq_append_cons hsplit
  obtain ⟨mid', post', rfl, rfl, -, -⟩ := hashed_eq_append_cons hrest
  exact (h pre' s mid' s' post' rfl hname (notMem_map_hash hne hfirst)).2

theorem fewNames_hashed {n : ℕ} {ss : List Sighting} (h : Fifo.FewNames Sighting.hash n ss) :
    Fifo.FewNames Sighting.hash n (hashed ss) := by
  intro pre s mid s' post hsplit hname
  obtain ⟨pre', rest, rfl, rfl, hrest, -⟩ := hashed_eq_append_cons hsplit
  obtain ⟨mid', post', rfl, rfl, -, -⟩ := hashed_eq_append_cons hrest
  refine Nat.lt_of_le_of_lt ?_ (h pre' s mid' s' post' rfl hname)
  refine (List.subperm_of_subset (List.nodup_dedup _) ?_).length_le
  intro hash hmem
  rw [List.mem_dedup] at hmem ⊢
  exact (List.filter_sublist.map Sighting.hash).subset hmem

namespace NwcCtx

variable {ι : Type*} {lib : Library} {w : Wallet ι} {ctx : NwcCtx} {steps : List NwcStep}

/-- What the worker reads is a payment of the wallet, of which a notification went on to it. -/
theorem forwarded_of_mem_turns (htruthful : w.Truthful lib ctx.client)
    (hdelivers : ∀ e ∈ steps, w.Delivers e) (hqueue : ctx.queue = []) {s : Sighting}
    (hs : s ∈ ctx.turns lib steps) :
    ∃ i, s.payment = w.payment i ∧ w.Readable lib ctx.client i ∧
      ctx.Forwarded lib w steps i := by
  rcases exists_of_mem_turns lib w hdelivers hs with
    ⟨q, hq, -⟩ | ⟨pre, text, env, post, ev, rfl, hev, hforwards, hpn⟩
  · rw [hqueue] at hq
    cases hq
  · obtain ⟨ev', hev', hkind⟩ := hdelivers (.frame text env) (by simp)
    rw [hev] at hev'
    cases hev'
    rcases hkind with hinfo | ⟨i, htells⟩
    · rcases hforwards.2.1 with hmodern | ⟨hlegacy, -⟩
      · exact absurd (hinfo.symm.trans hmodern) (by decide)
      · exact absurd (hinfo.symm.trans hlegacy) (by decide)
    · have hpayment := htruthful ev i s.payment htells hpn
      rw [hpayment] at hpn
      exact ⟨i, hpayment, ⟨ev, htells, hpn⟩,
        ⟨pre, text, env, post, ev, rfl, hev, htells, hpn, hforwards⟩⟩

theorem exists_turn_of_forwarded (hdelivers : ∀ e ∈ steps, w.Delivers e)
    (hdrained : (reached (exec lib) ctx steps).queue = []) {i : ι}
    (h : ctx.Forwarded lib w steps i) :
    ∃ s ∈ ctx.turns lib steps, s.payment = w.payment i := by
  obtain ⟨pre, text, env, post, ev, rfl, hev, htells, hpn, hforwards⟩ := h
  have hpre : ∀ e ∈ pre, w.Delivers e := fun e he => hdelivers e (List.mem_append_left _ he)
  have hframe : w.Delivers (.frame text env) := hdelivers _ (by simp)
  have hpost : ∀ e ∈ post, w.Delivers e := fun e he => hdelivers e (by simp [he])
  have hq : (NwcClient.rawNotification ev, ev) ∈
      ((reached (exec lib) ctx pre).exec lib (.frame text env)).1.queue := by
    rw [exec_frame_queue lib env hev, if_pos hforwards]
    exact List.mem_append_right _ (List.mem_singleton_self _)
  have hpairing := (pairing_exec lib w _ hframe).trans (booked_run lib w ctx hpre).pairing
  rw [← NwcClient.decodeNotification_congr lib hpairing] at hpn
  rw [reached_append] at hdrained
  obtain ⟨s, hs, hpayment⟩ := exists_mem_turns lib w hpost hdrained hq hpn
  refine ⟨s, ?_, hpayment⟩
  rw [turns, emitted_append]
  exact List.mem_append_right _ (List.mem_append_right _ hs)

theorem hitsByName_turns (htruthful : w.Truthful lib ctx.client)
    (hdelivers : ∀ e ∈ steps, w.Delivers e) (hunseen : w.Unseen ctx) :
    Fifo.HitsByName SeenPayment.hits Sighting.record Sighting.hash ctx.client.seenQueue
      (hashed (ctx.turns lib steps)) where
  old e he s hs := by
    obtain ⟨i, hpayment, -, -⟩ := forwarded_of_mem_turns htruthful hdelivers hunseen.queue
      (List.mem_of_mem_filter hs)
    rcases hunseen.ring e ((ctx.client.mem_seenQueue).mp he) i with hzero | hne
    · simp [SeenPayment.hits, hzero]
    · simp [SeenPayment.hits, Sighting.hash, hpayment, hne]
  other s _ s' _ hhits := by
    simp only [SeenPayment.hits, Bool.and_eq_true, beq_iff_eq] at hhits
    exact hhits.1.2

theorem count_eq_one_of_recognised (htruthful : w.Truthful lib ctx.client)
    (hdelivers : ∀ e ∈ steps, w.Delivers e) (hunseen : w.Unseen ctx)
    (hfew : Fifo.FewNames Sighting.hash kDedupRing (ctx.turns lib steps))
    (hrecognised : Recognised (ctx.turns lib steps)) {s : Sighting}
    (hs : s ∈ ctx.turns lib steps) {i : ι} (hi : s.payment = w.payment i) :
    (payments (emitted (exec lib) ctx steps)).count (w.payment i) = 1 := by
  have hbooked := booked_run lib w ctx hdelivers
  by_cases hhash : (w.payment i).paymentHash = ""
  · have hsame : s.hash = "" := by rw [Sighting.hash, hi, hhash]
    have hmem : s ∈ (ctx.turns lib steps).filter fun s => s.hash == "" :=
      List.mem_filter.mpr ⟨hs, by simpa using hsame⟩
    rw [hbooked.count_of_nameless hhash]
    match hnameless : (ctx.turns lib steps).filter fun s => s.hash == "" with
    | [] =>
        rw [hnameless] at hmem
        cases hmem
    | [a] =>
        rw [hnameless] at hmem
        rw [hnameless, ← List.mem_singleton.mp hmem, List.map_singleton, hi]
        exact List.count_singleton_self
    | a :: b :: rest =>
        -- a second turn without a hash is not recognised
        obtain ⟨pre, later, hsplit, hpre, ha, hlater⟩ := List.filter_eq_cons_iff.mp hnameless
        obtain ⟨mid, post, rfl, -, hb, -⟩ := List.filter_eq_cons_iff.mp hlater
        have ha : a.hash = "" := by simpa using ha
        have hb : b.hash = "" := by simpa using hb
        refine absurd ha (hrecognised pre a mid b post hsplit (ha.trans hb.symm) ?_).1
        intro hin
        obtain ⟨m, hm, hma⟩ := List.mem_map.mp hin
        exact hpre m hm (by simpa using hma.trans ha)
  · have hnames := hitsByName_turns htruthful hdelivers hunseen
    have hlen : Fifo.FewNames Sighting.hash ctx.client.seenQueue.length
        (hashed (ctx.turns lib steps)) := by
      rw [ctx.client.length_seenQueue]
      exact fewNames_hashed hfew
    have hnodup := hnames.nodup_newcomers hrecognised.hitsAgain hlen
    have hmem : s ∈ hashed (ctx.turns lib steps) := by
      refine List.mem_filter.mpr ⟨hs, ?_⟩
      simpa [Sighting.hash, hi] using hhash
    obtain ⟨m, hm, hms⟩ := List.mem_map.mp (hnames.name_mem_newcomers hmem)
    obtain ⟨j, hj, -, -⟩ := forwarded_of_mem_turns htruthful hdelivers hunseen.queue
      (List.mem_of_mem_filter ((Fifo.newcomers_sublist _ _).subset hm))
    have hij : j = i := by
      refine w.eq_of_hash ?_
      rw [← hj, ← hi]
      exact hms
    rw [hbooked.count_of_hash hhash]
    refine List.count_eq_one_of_mem (List.Nodup.of_map PaymentNotification.paymentHash ?_) ?_
    · rw [List.map_map]
      exact hnodup
    · exact List.mem_map.mpr ⟨m, hm, hij ▸ hj⟩

theorem recognised_of_count_eq_one (htruthful : w.Truthful lib ctx.client)
    (hdelivers : ∀ e ∈ steps, w.Delivers e) (hunseen : w.Unseen ctx)
    (honce : ∀ i, w.Readable lib ctx.client i →
      (payments (emitted (exec lib) ctx steps)).count (w.payment i) = 1) :
    Recognised (ctx.turns lib steps) := by
  intro pre s mid s' post hsplit hname hfirst
  have hbooked := booked_run lib w ctx hdelivers
  obtain ⟨i, hi, hreadable, -⟩ := forwarded_of_mem_turns htruthful hdelivers hunseen.queue
    (s := s) (by rw [hsplit]; simp)
  obtain ⟨j, hj, -, -⟩ := forwarded_of_mem_turns htruthful hdelivers hunseen.queue
    (s := s') (by rw [hsplit]; simp)
  have hij : j = i := by
    refine w.eq_of_hash ?_
    rw [← hj, ← hi]
    exact hname.symm
  rw [hij] at hj
  have hcount := honce i hreadable
  have hhashes : (w.payment i).paymentHash = s.hash := by rw [Sighting.hash, hi]
  by_cases hhash : s.hash = ""
  · have hsecond : s'.hash = "" := hname.symm.trans hhash
    rw [hbooked.count_of_nameless (hhashes.trans hhash), hsplit] at hcount
    simp only [List.filter_append, List.filter_cons, hhash, hsecond, beq_self_eq_true, if_true,
      List.map_append, List.map_cons, hi, hj, List.count_append, List.count_cons] at hcount
    omega
  · refine ⟨hhash, ?_⟩
    have hnames := hitsByName_turns htruthful hdelivers hunseen
    have hsplit' : hashed (ctx.turns lib steps) =
        hashed pre ++ s :: (hashed mid ++ s' :: hashed post) := by
      have hsecond : s'.hash ≠ "" := fun h => hhash (hname.trans h)
      simp [hsplit, hashed, hhash, hsecond]
    rw [hbooked.count_of_hash (hhashes ▸ hhash), List.count, List.countP_map] at hcount
    -- the newcomers with the hash are the newcomers with the payment
    have hsame : ((Fifo.newcomers SeenPayment.hits Sighting.record ctx.client.seenQueue
        (hashed (ctx.turns lib steps))).map Sighting.hash).count s.hash = 1 := by
      rw [List.count, List.countP_map, ← hcount]
      refine List.countP_congr ?_
      intro m hm
      obtain ⟨k, hk, -, -⟩ := forwarded_of_mem_turns htruthful hdelivers hunseen.queue
        (List.mem_of_mem_filter ((Fifo.newcomers_sublist _ _).subset hm))
      simp only [Function.comp_apply, beq_iff_eq]
      constructor
      · intro hms
        have hki : k = i := by
          refine w.eq_of_hash ?_
          rw [← hk, hhashes]
          exact hms
        rw [hk, hki]
      · intro hpayment
        rw [Sighting.hash, hpayment, hhashes]
    rw [hsplit'] at hnames hsame
    refine hnames.hits_of_count_le_one hname ?_ hsame.le
    intro hin
    exact hfirst ((List.filter_sublist.map Sighting.hash).subset hin)

/-- On every run, each readable payment reaches the payment hook once if and only if some readable
notification of each goes on to the worker, and the worker recognises the payments which come
again. -/
theorem notifiedOnce_iff (htruthful : w.Truthful lib ctx.client)
    (hdelivers : ∀ e ∈ steps, w.Delivers e) (hunseen : w.Unseen ctx)
    (hdrained : (reached (exec lib) ctx steps).queue = [])
    (hfew : Fifo.FewNames Sighting.hash kDedupRing (ctx.turns lib steps)) :
    ctx.NotifiedOnce lib w steps ↔
      (∀ i, w.Readable lib ctx.client i → ctx.Forwarded lib w steps i) ∧
        Recognised (ctx.turns lib steps) := by
  have hbooked := booked_run lib w ctx hdelivers
  constructor
  · intro h
    refine ⟨?_, recognised_of_count_eq_one htruthful hdelivers hunseen h.once⟩
    intro i hreadable
    have hmem : w.payment i ∈ payments (emitted (exec lib) ctx steps) := by
      rw [← List.count_pos_iff, h.once i hreadable]
      exact Nat.one_pos
    obtain ⟨s, hs, hi⟩ := hbooked.exists_of_mem_payments hmem
    obtain ⟨j, hj, -, hforwarded⟩ := forwarded_of_mem_turns htruthful hdelivers hunseen.queue hs
    have hij : j = i := by
      refine w.eq_of_hash ?_
      rw [← hj, hi]
    exact hij ▸ hforwarded
  · rintro ⟨hforwarded, hrecognised⟩
    refine ⟨?_, hbooked.balance⟩
    intro i hreadable
    obtain ⟨s, hs, hi⟩ := exists_turn_of_forwarded hdelivers hdrained (hforwarded i hreadable)
    exact count_eq_one_of_recognised htruthful hdelivers hunseen hfew hrecognised hs hi

/-! ### A clock which is set between the twins -/

@[irreducible]
def legacyContent : String :=
  "sqHzynLB/BlJ31YJgyX57NFggnsy4DGQjdVggM7GRViNljVv" ++
    ("/faosHXlksIV6Od0gKETPFOymEM+5iAIIHdLbRz8DdIBAPrwfi9GrRf6LTnIHIYUTuzCwc8mC3qnQ1RY" ++
      "1xVGFgTT8y0FZaYCjpgHXQ==?iv=AAAAAAAAAAAAAAAAAAAAAA==")

/-- The notification of the payment of `liveEvent` for a client without NIP-44. -/
def legacyEvent : Event where
  id := "26da3d25882cb3c913ebdf0fd434920df2f94b5cdcb9473fa8f3f78cb43c5f40"
  pubkey := "c6047f9441ed7d6d3045406e95c07cd85c778e4b8cef3ca7abac09b95c709ee5"
  createdAt := 1700000601
  kind := 23196
  tags := [⟨["p", "2f8bde4d1a07209355b4a7250a5c5128e88b84bddc619ab7cba8d569b240efe4"]⟩]
  content := legacyContent
  sig :=
    "1bda599a8e95994b3d577a9033f4b4f8d221e40573a1a041f2b80c078bb6bb07" ++
      "bf7ffa62f7944aa809730cff4f08125c71cff3af2f1214caa986f538bb189cc5"

def infoEvent : Event where
  id := "840bfc17560085cc0cdac8a2d5faf21d6ce55794b90d42e1bb8870f5d7e5fc5a"
  pubkey := "c6047f9441ed7d6d3045406e95c07cd85c778e4b8cef3ca7abac09b95c709ee5"
  createdAt := 1700000600
  kind := 13194
  tags :=
    [⟨["encryption", "nip44_v2 nip04"]⟩, ⟨["notifications", "payment_received payment_sent"]⟩]
  content := "pay_invoice get_balance list_transactions notifications"
  sig :=
    "965a49151c70ceb44702f2bab7500990d0cc6fc2579ec1b4229406ca8237c929" ++
      "93a982de24e0544c563b18758ed5c6ca21791c01579a6f842edbf7ba30c24205"

/-- The library on the contents of both twins. -/
def twinLibrary : Library :=
  { replayLibrary with
    decrypt := fun v seckey pubkey content =>
      if content = legacyContent then some livePlaintext
      else replayLibrary.decrypt v seckey pubkey content }

def twinWallet : Wallet Unit where
  payment _ := livePayment
  legacy _ := legacyEvent
  modern _ := liveEvent
  legacy_kind _ := rfl
  modern_kind _ := rfl
  distinct := Function.injective_of_subsingleton _

/-- A client which waits for the INFO event. -/
def waitingClient : NwcCtx where
  client := { pairing := demoPairing, state := .bootstrapping }

/-- Thirty seconds after the boot the clock is not set. -/
def bootEnv : Env where
  uptimeSecs := 30

/-- The legacy twin is read with the clock of the boot, the modern one with another clock, and
the INFO event comes last. -/
def twinSteps (env : Env) : List NwcStep :=
  [.frame (eventFrame "nwcr-c6047f94" legacyEvent) bootEnv, .worker bootEnv,
    .frame (eventFrame "nwcr-c6047f94" liveEvent) env, .worker env,
    .frame (eventFrame "nwci-c6047f94" infoEvent) env]

theorem liveContent_ne_legacyContent : liveContent ≠ legacyContent := by
  unfold liveContent legacyContent
  refine append_ne_append (n := 0) (c := 'A') (d := 's') ?_ ?_ (by decide) _ _
  · simp only [String.reduceToList]
    rfl
  · simp only [String.reduceToList]
    rfl

theorem frameEvent_legacyEvent :
    frameEvent (eventFrame "nwcr-c6047f94" legacyEvent) = some legacyEvent :=
  frameEvent_eventFrame _ ⟨by decide, by decide⟩

theorem frameEvent_liveEvent :
    frameEvent (eventFrame "nwcr-c6047f94" liveEvent) = some liveEvent :=
  frameEvent_eventFrame _ ⟨by decide, by decide⟩

theorem frameEvent_infoEvent :
    frameEvent (eventFrame "nwci-c6047f94" infoEvent) = some infoEvent :=
  frameEvent_eventFrame _ ⟨by decide, by decide⟩

theorem decodeNotification_twins {c : NwcClient} (hc : c.pairing = demoPairing) {ev : Event}
    (hev : ev = legacyEvent ∨ ev = liveEvent) :
    c.decodeNotification twinLibrary (NwcClient.rawNotification ev) = some livePayment := by
  have hparse : twinLibrary.jsonParse livePlaintext = some liveJson := jsonParse_livePlaintext
  refine decodeNotification_livePlaintext hparse hc ?_
  intro v seckey pubkey
  rcases hev with rfl | rfl
  · simp only [twinLibrary, legacyEvent, if_true]
  · simp only [twinLibrary, liveEvent, if_neg liveContent_ne_legacyContent, decrypt_liveContent]

theorem truthful_twinWallet : twinWallet.Truthful twinLibrary waitingClient.client := by
  intro ev i pn htells hpn
  rw [decodeNotification_twins rfl htells] at hpn
  exact (Option.some.inj hpn).symm

theorem delivers_twinSteps (env : Env) : ∀ e ∈ twinSteps env, twinWallet.Delivers e := by
  simp only [twinSteps, List.forall_mem_cons]
  refine ⟨?_, trivial, ?_, trivial, ?_, by simp⟩
  · exact ⟨legacyEvent, frameEvent_legacyEvent, Or.inr ⟨(), Or.inl rfl⟩⟩
  · exact ⟨liveEvent, frameEvent_liveEvent, Or.inr ⟨(), Or.inr rfl⟩⟩
  · exact ⟨infoEvent, frameEvent_infoEvent, Or.inl rfl⟩

theorem unseen_waitingClient : twinWallet.Unseen waitingClient where
  queue := rfl
  ring := by
    intro e he i
    refine Or.inl ?_
    revert e
    decide

/-- The worker takes the first notification. -/
theorem exec_worker_cons (lib : Library) (ctx : NwcCtx) (env : Env)
    {q : RawNotification × Event} {queue : List (RawNotification × Event)}
    (hqueue : ctx.queue = q :: queue) :
    ∃ c hooks, ctx.exec lib (.worker env) = ({ client := c, queue := queue }, hooks) ∧
      c.pairing = ctx.client.pairing ∧ c.state = ctx.client.state := by
  obtain ⟨raw, ev⟩ := q
  have hdelivers : twinWallet.Delivers (.worker env) := trivial
  have hpairing : (ctx.exec lib (.worker env)).1.client.pairing = ctx.client.pairing :=
    pairing_exec lib twinWallet ctx hdelivers
  have hexec : ctx.exec lib (.worker env) =
      ({ client := (ctx.client.dispatchRawNotification lib env raw).1, queue := queue },
        (ctx.client.dispatchRawNotification lib env raw).2) := by
    simp only [exec, hqueue]
  rw [hexec] at hpairing
  exact ⟨_, _, hexec, hpairing, ctx.client.dispatchRawNotification_state lib env raw⟩

/-- The context in which the event waits alone for the worker. -/
def waitingFor (c : NwcClient) (ev : Event) : NwcCtx where
  client := c
  queue := [(NwcClient.rawNotification ev, ev)]

theorem sighted_waitingFor {c : NwcClient} (hc : c.pairing = demoPairing) {ev : Event}
    (hev : ev = legacyEvent ∨ ev = liveEvent) (env : Env) :
    (waitingFor c ev).sighted twinLibrary (.worker env) =
      [{ payment := livePayment, now := env.nowU64 }] := by
  simp only [sighted, waitingFor, decodeNotification_twins hc hev]
  rfl

theorem exec_frame_waitingFor (lib : Library) {c : NwcClient} {text : String} (env : Env)
    {ev : Event} (hev : frameEvent text = some ev) (h : Forwards { client := c } ev) :
    exec lib { client := c } (.frame text env) = (waitingFor c ev, []) :=
  exec_frame_of_forwards lib env hev h

/-- Both twins are read, and nothing is left. -/
theorem turns_twinSteps (env : Env) :
    waitingClient.turns twinLibrary (twinSteps env) =
        [{ payment := livePayment, now := bootEnv.nowU64 },
          { payment := livePayment, now := env.nowU64 }] ∧
      (reached (exec twinLibrary) waitingClient (twinSteps env)).queue = [] := by
  have hframe (ctx : NwcCtx) (text : String) (env : Env) :
      ctx.sighted twinLibrary (.frame text env) = [] := rfl
  have hlegacy : waitingClient.exec twinLibrary
      (.frame (eventFrame "nwcr-c6047f94" legacyEvent) bootEnv) =
        (waitingFor waitingClient.client legacyEvent, []) :=
    exec_frame_waitingFor twinLibrary bootEnv frameEvent_legacyEvent (by decide)
  obtain ⟨c, hooks, hworker, hpairing, hstate⟩ := exec_worker_cons twinLibrary
    (waitingFor waitingClient.client legacyEvent) bootEnv rfl
  have hforwards : Forwards { client := c } liveEvent :=
    ⟨by rw [hstate]; decide, Or.inl rfl, (by decide : 0 < kQueueCapacity)⟩
  have hmodern := exec_frame_waitingFor twinLibrary env frameEvent_liveEvent hforwards
  obtain ⟨c', hooks', hworker', -, -⟩ := exec_worker_cons twinLibrary
    (waitingFor c liveEvent) env rfl
  have hinfo : ¬ Forwards { client := c' } infoEvent := by
    rintro ⟨-, hkind | ⟨hkind, -⟩, -⟩
    · exact absurd hkind (by decide)
    · exact absurd hkind (by decide)
  have hboot : waitingClient.client.pairing = demoPairing := rfl
  constructor
  · rw [twinSteps, turns_of_exec twinLibrary hlegacy, turns_of_exec twinLibrary hworker,
      turns_of_exec twinLibrary hmodern, turns_of_exec twinLibrary hworker', hframe, hframe,
      sighted_waitingFor hboot (Or.inl rfl), sighted_waitingFor hpairing (Or.inr rfl)]
    rfl
  · rw [twinSteps, reached_cons, hlegacy, reached_cons, hworker, reached_cons, hmodern,
      reached_cons, hworker', reached_cons, reached_nil,
      exec_frame_queue twinLibrary env frameEvent_infoEvent, if_neg hinfo]

theorem fewNames_twinSteps (env : Env) :
    Fifo.FewNames Sighting.hash kDedupRing (waitingClient.turns twinLibrary (twinSteps env)) := by
  intro pre s mid s' post hsplit hname
  rw [(turns_twinSteps env).1] at hsplit
  have hlength := congrArg List.length hsplit
  have hmid : mid = [] := by
    rw [← List.length_eq_zero_iff]
    simp only [List.length_cons, List.length_nil, List.length_append] at hlength
    omega
  rw [hmid]
  decide

/-- The clock is set between the twins, and the payment reaches the hook with both of them. -/
theorem not_notifiedOnce_twinSteps :
    twinWallet.Truthful twinLibrary waitingClient.client ∧ twinWallet.Unseen waitingClient ∧
      (∀ e ∈ twinSteps { uptimeSecs := 31, wallclockSecs := 1700000601 }, twinWallet.Delivers e) ∧
      (reached (exec twinLibrary) waitingClient
        (twinSteps { uptimeSecs := 31, wallclockSecs := 1700000601 })).queue = [] ∧
      Fifo.FewNames Sighting.hash kDedupRing (waitingClient.turns twinLibrary
        (twinSteps { uptimeSecs := 31, wallclockSecs := 1700000601 })) ∧
      ¬ waitingClient.NotifiedOnce twinLibrary twinWallet
        (twinSteps { uptimeSecs := 31, wallclockSecs := 1700000601 }) := by
  refine ⟨truthful_twinWallet, unseen_waitingClient, delivers_twinSteps _, (turns_twinSteps _).2,
    fewNames_twinSteps _, ?_⟩
  intro honce
  have hrecognised := recognised_of_count_eq_one truthful_twinWallet (delivers_twinSteps _)
    unseen_waitingClient honce.once
  rw [(turns_twinSteps _).1] at hrecognised
  have hhits := (hrecognised [] _ [] _ [] rfl rfl (by simp)).2
  exact absurd hhits (by decide)

/-- With the clock which runs on, the second twin is recognised. -/
theorem notifiedOnce_twinSteps :
    waitingClient.NotifiedOnce twinLibrary twinWallet (twinSteps { uptimeSecs := 31 }) := by
  refine (notifiedOnce_iff truthful_twinWallet (delivers_twinSteps _) unseen_waitingClient
    (turns_twinSteps _).2 (fewNames_twinSteps _)).mpr ⟨?_, ?_⟩
  · intro i _
    exact ⟨[], _, bootEnv, _, legacyEvent, rfl, frameEvent_legacyEvent, Or.inl rfl,
      decodeNotification_twins rfl (Or.inl rfl), by decide⟩
  · rw [(turns_twinSteps _).1]
    intro pre s mid s' post hsplit hname hfirst
    have hlength := congrArg List.length hsplit
    simp only [List.length_cons, List.length_nil, List.length_append] at hlength
    obtain ⟨rfl, rfl, rfl⟩ : pre = [] ∧ mid = [] ∧ post = [] := by
      simp only [← List.length_eq_zero_iff]
      omega
    obtain ⟨rfl, hrest⟩ := List.cons.inj hsplit
    obtain ⟨rfl, -⟩ := List.cons.inj hrest
    exact ⟨by decide, by decide⟩

end NwcCtx

end Nwc

end BtClock
