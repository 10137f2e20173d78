import BtClock.Nostr.Handlers
import BtClock.Transition.Run

/-!
# Whose events reach the display

A relay may deliver any event.  The handlers check the signature and the kind, but the
author of application data and the recipient of a zap are checked by no one on the
device: an event which anybody signed is as good as the publisher's.
-/

namespace BtClock

namespace Nostr

open Data

/-- A data source together with the hub it reports to. -/
structure DataFeed where
  source : NostrDataSource
  hub : DataSnapshot

namespace DataFeed

/-- The relay delivers an event under the subscription of the source. -/
def step (secp : Secp256k1) (s : DataFeed) (ev : Event) : DataFeed :=
  { source := (s.source.onEvent secp ev).1
    hub :=
      match (s.source.onEvent secp ev).2 with
      | none => s.hub
      | some p => report s.hub p }

/-- The event changes the snapshot only if it is genuine application data of the
configured publisher. -/
def ChangeIsAuthentic (secp : Secp256k1) (s : DataFeed) (ev : Event) : Prop :=
  (s.step secp ev).hub ≠ s.hub →
    verifyEvent secp ev = .ok ∧ ev.kind = kKindAppData ∧
      ev.pubkey = s.source.authorPubkeyHex

/-- An event of another author is rejected by one of the checks of the handler, or tells
the hub nothing new. -/
def ForeignIsInert (secp : Secp256k1) (s : DataFeed) (ev : Event) : Prop :=
  ev.pubkey ≠ s.source.authorPubkeyHex →
    ∀ p, NostrDataSource.Accepts secp s.source ev p → (s.hub.merge p).1 = s.hub

theorem step_hub_of_accepts {secp : Secp256k1} {s : DataFeed} {ev : Event}
    {p : DataSnapshot} (h : NostrDataSource.Accepts secp s.source ev p) :
    (s.step secp ev).hub = (s.hub.merge p).1 := by
  have hrep := NostrDataSource.onEvent_report_iff.mpr h
  simp only [step, hrep, report]

theorem accepts_of_step_hub_ne {secp : Secp256k1} {s : DataFeed} {ev : Event}
    (h : (s.step secp ev).hub ≠ s.hub) :
    ∃ p, NostrDataSource.Accepts secp s.source ev p := by
  cases hrep : (s.source.onEvent secp ev).2 with
  | none =>
      have hhub : (s.step secp ev).hub = s.hub := by simp only [step, hrep]
      exact absurd hhub h
  | some p => exact ⟨p, NostrDataSource.onEvent_report_iff.mp hrep⟩

theorem changeIsAuthentic_iff (secp : Secp256k1) (s : DataFeed) (ev : Event) :
    ChangeIsAuthentic secp s ev ↔ ForeignIsInert secp s ev := by
  constructor
  · intro h hne p hp
    by_contra hchange
    exact hne (h (step_hub_of_accepts hp ▸ hchange)).2.2
  · intro h hchange
    obtain ⟨p, hp⟩ := accepts_of_step_hub_ne hchange
    refine ⟨hp.verified, hp.kind, ?_⟩
    by_contra hne
    exact hchange ((step_hub_of_accepts hp).trans (h hne p hp))

end DataFeed

namespace ZapListener

/-- The relay delivers an event to the listener at a wall-clock time. -/
def step (secp : Secp256k1) (l : ZapListener) (e : ℤ × Event) : ZapListener :=
  (l.handle secp e.1 e.2).1

/-- One of the `p` tags names a configured recipient. -/
def NamesRecipient (l : ZapListener) (ev : Event) : Prop :=
  ∃ t ∈ ev.tags, t.values.head? = some "p" ∧ t.at 1 ∈ l.recipients

/-- `on_zap` fires only for a genuine zap receipt of at least one satoshi to a configured
recipient. -/
def CallIsAuthentic (secp : Secp256k1) (l : ZapListener) (e : ℤ × Event) : Prop :=
  (l.handle secp e.1 e.2).2.isSome = true →
    verifyEvent secp e.2 = .ok ∧ e.2.kind = kKindZapReceipt ∧
      (∃ msat, extractZapAmountMsat e.2 = some msat ∧ 1000 ≤ msat) ∧
      l.NamesRecipient e.2

/-- A receipt to somebody else is rejected by one of the checks of the handler. -/
def StrangerIsInert (secp : Secp256k1) (l : ZapListener) (e : ℤ × Event) : Prop :=
  ¬ l.NamesRecipient e.2 → ¬ Accepts secp e.1 l e.2

theorem callIsAuthentic_iff (secp : Secp256k1) (l : ZapListener) (e : ℤ × Event) :
    CallIsAuthentic secp l e ↔ StrangerIsInert secp l e := by
  constructor
  · intro h hstranger hacc
    exact hstranger (h (handle_isSome_iff.mpr hacc)).2.2.2
  · intro h hcall
    have hacc := handle_isSome_iff.mp hcall
    refine ⟨hacc.verified, hacc.kind, hacc.amount, ?_⟩
    by_contra hstranger
    exact h hstranger hacc

end ZapListener

/-- For every sequence of events to a data source and every sequence to a zap listener,
only genuine events of the configured parties have an effect, if and only if every
delivered event of another party is inert where it arrives. -/
theorem runs_authentic_iff (secp : Secp256k1) (s : DataFeed) (evs : List Event)
    (l : ZapListener) (zaps : List (ℤ × Event)) :
    (Transition.Along (DataFeed.step secp) (DataFeed.ChangeIsAuthentic secp) s evs ∧
        Transition.Along (ZapListener.step secp) (ZapListener.CallIsAuthentic secp)
          l zaps) ↔
      Transition.Along (DataFeed.step secp) (DataFeed.ForeignIsInert secp) s evs ∧
        Transition.Along (ZapListener.step secp) (ZapListener.StrangerIsInert secp)
          l zaps := by
  rw [Transition.along_congr (DataFeed.changeIsAuthentic_iff secp),
    Transition.along_congr (ZapListener.callIsAuthentic_iff secp)]

/-- A price of one dollar, signed by somebody. -/
def strangerPrice : Event where
  id := "a4b0d79fc50208368b6ea55d9b76c048799dc47ef7da989489e10a1c4d5dd78a"
  pubkey := "f9308a019258c31049344f85f89d5229b531c845836f99b08601f113bce036f9"
  createdAt := 1700000000
  kind := 30078
  tags := [⟨["d", "price:USD"]⟩]
  content := "1"
  sig :=
    "5394b8c5e5ad6d0aa297fb241489bbf9cf2e4af7f0ee296431b38a9a564a096d" ++
      "4139dec592b1fbb0dd88d91e7ef5817d8b41155a8c25ae4d09db70051fad23ca"

theorem verifyEvent_strangerPrice :
    verifyEvent (Secp256k1.ofEvents [strangerPrice]) strangerPrice = .ok := by
  decide +kernel

/-- A stranger's price is shown in place of the publisher's. -/
theorem run_strangerPrice_poisons :
    ¬ Transition.Along (DataFeed.step (Secp256k1.ofEvents [strangerPrice]))
      (DataFeed.ChangeIsAuthentic (Secp256k1.ofEvents [strangerPrice]))
      { source :=
          { authorPubkeyHex :=
              "2f8bde4d1a07209355b4a7250a5c5128e88b84bddc619ab7cba8d569b240efe4" }
        hub := {} } [strangerPrice] := by
  rintro ⟨hauth, -⟩
  have hacc : NostrDataSource.Accepts (Secp256k1.ofEvents [strangerPrice])
      { authorPubkeyHex :=
          "2f8bde4d1a07209355b4a7250a5c5128e88b84bddc619ab7cba8d569b240efe4" }
      strangerPrice { prices := AList.insert "USD" "1" ∅ } :=
    ⟨verifyEvent_strangerPrice, rfl, by decide, rfl, rfl⟩
  rw [DataFeed.changeIsAuthentic_iff] at hauth
  have hprice := congrArg (DataSnapshot.priceOf · "USD") (hauth (by decide) _ hacc)
  exact absurd hprice (by decide)

end Nostr

end BtClock
