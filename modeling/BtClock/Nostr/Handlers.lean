import BtClock.Nostr.Content
import BtClock.Nostr.EventVerify

/-!
# The handlers of the two consumers

`NostrDataSource::OnEvent` reports the publisher's application data to the hub, and
`ZapListener::Handle` calls back for a zap receipt.  Both verify an event before anything
else, and neither looks at the author or the recipient, which are left to the filter of
the subscription.
-/

namespace BtClock

namespace Nostr

open Data

/-- The state of a data source: the configured publisher, and the time of the newest
event consumed for each `d` slot. -/
structure NostrDataSource where
  authorPubkeyHex : String
  lastSeenCreatedAt : AList (fun _ : String => UInt64) := ∅

namespace NostrDataSource

/-- A newer event of the slot `d` was consumed already. -/
def isStale (src : NostrDataSource) (d : String) (createdAt : UInt64) : Bool :=
  match src.lastSeenCreatedAt.lookup d with
  | none => false
  | some seen => decide (createdAt < seen)

/-- `OnEvent`: the new state and the partial snapshot which is reported. -/
def onEvent (secp : Secp256k1) (src : NostrDataSource) (ev : Event) :
    NostrDataSource × Option DataSnapshot :=
  if verifyEvent secp ev ≠ .ok then (src, none)
  else if ev.kind ≠ kKindAppData then (src, none)
  else
    let d := ev.tagValue "d"
    if d = "" then (src, none)
    else if src.isStale d ev.createdAt then (src, none)
    else
      match parseNip78Content d ev.content with
      | none => (src, none)
      | some p =>
          ({ src with lastSeenCreatedAt := src.lastSeenCreatedAt.insert d ev.createdAt },
            some p)

/-- An event gets through all the checks of `OnEvent` with the partial snapshot `p`. -/
structure Accepts (secp : Secp256k1) (src : NostrDataSource) (ev : Event)
    (p : DataSnapshot) : Prop where
  verified : verifyEvent secp ev = .ok
  kind : ev.kind = kKindAppData
  slot : ev.tagValue "d" ≠ ""
  fresh : src.isStale (ev.tagValue "d") ev.createdAt = false
  parsed : parseNip78Content (ev.tagValue "d") ev.content = some p

theorem onEvent_of_accepts {secp : Secp256k1} {src : NostrDataSource} {ev : Event}
    {p : DataSnapshot} (h : Accepts secp src ev p) :
    src.onEvent secp ev =
      ({ src with
          lastSeenCreatedAt :=
            src.lastSeenCreatedAt.insert (ev.tagValue "d") ev.createdAt },
        some p) := by
  simp [onEvent, h.verified, h.kind, h.slot, h.fresh, h.parsed]

theorem onEvent_report_iff {secp : Secp256k1} {src : NostrDataSource} {ev : Event}
    {p : DataSnapshot} :
    (src.onEvent secp ev).2 = some p ↔ Accepts secp src ev p := by
  constructor
  · intro h
    unfold onEvent at h
    split at h
    · cases h
    rename_i hv
    split at h
    · cases h
    rename_i hk
    dsimp only at h
    split at h
    · cases h
    rename_i hd
    split at h
    · cases h
    rename_i hs
    split at h
    · cases h
    rename_i q hq
    cases h
    exact ⟨not_ne_iff.mp hv, not_ne_iff.mp hk, hd, by simpa using hs, hq⟩
  · intro h
    rw [onEvent_of_accepts h]

/-- An event which is not reported leaves the source as it is. -/
theorem onEvent_of_no_report {secp : Secp256k1} {src : NostrDataSource} {ev : Event}
    (h : (src.onEvent secp ev).2 = none) : (src.onEvent secp ev).1 = src := by
  unfold onEvent at h ⊢
  split
  · rfl
  split
  · rfl
  dsimp only at h ⊢
  split
  · rfl
  split
  · rfl
  split
  · rfl
  · simp_all

@[simp]
theorem onEvent_author (secp : Secp256k1) (src : NostrDataSource) (ev : Event) :
    (src.onEvent secp ev).1.authorPubkeyHex = src.authorPubkeyHex := by
  cases h : (src.onEvent secp ev).2 with
  | none => rw [onEvent_of_no_report h]
  | some p => rw [onEvent_of_accepts (onEvent_report_iff.mp h)]

end NostrDataSource

/-- The cast of a 64-bit time to a signed integer. -/
def signedTime (t : UInt64) : ℤ :=
  t.toInt64.toInt

/-- May the event be shown at the time `now`, after the one last shown?  The age is a signed
64-bit difference, which overflows for a creation time far in the past. -/
def shouldShowZap (now eventCreatedAt lastShownCreatedAt : ℤ) : Bool :=
  if lastShownCreatedAt > 0 ∧ eventCreatedAt ≤ lastShownCreatedAt then false
  else if eventCreatedAt > now then true
  else decide ((now - eventCreatedAt).bmod (2 ^ 64) ≤ kZapMaxAgeSeconds)

structure ZapInfo where
  amountMsat : UInt64
  bolt11 : String
  content : String
  raw : Event
  deriving DecidableEq

/-- The state of a zap listener. -/
structure ZapListener where
  recipients : List String
  lastShownCreatedAt : ℤ := 0
  deriving DecidableEq

namespace ZapListener

/-- The age gate drops the event.  It is off while the clock is not set. -/
def ageGateDrops (l : ZapListener) (now : ℤ) (ev : Event) : Bool :=
  decide (now > kZapMaxAgeSeconds) &&
    !shouldShowZap now (signedTime ev.createdAt) l.lastShownCreatedAt

/-- `Handle` at the time `now`: the new state and the call of `on_zap`. -/
def handle (secp : Secp256k1) (now : ℤ) (l : ZapListener) (ev : Event) :
    ZapListener × Option ZapInfo :=
  if ev.kind ≠ kKindZapReceipt then (l, none)
  else if verifyEvent secp ev ≠ .ok then (l, none)
  else if shouldSurfaceZap ev = false then (l, none)
  else if l.ageGateDrops now ev then (l, none)
  else
    ({ l with lastShownCreatedAt := signedTime ev.createdAt },
      some
        { amountMsat := (extractZapAmountMsat ev).getD 0
          bolt11 := (extractZapBolt11 ev).getD ""
          content := ev.content
          raw := ev })

/-- An event gets through all the checks of `Handle`. -/
structure Accepts (secp : Secp256k1) (now : ℤ) (l : ZapListener) (ev : Event) :
    Prop where
  kind : ev.kind = kKindZapReceipt
  verified : verifyEvent secp ev = .ok
  surfaces : shouldSurfaceZap ev = true
  shown : l.ageGateDrops now ev = false

theorem handle_isSome_iff {secp : Secp256k1} {now : ℤ} {l : ZapListener} {ev : Event} :
    (l.handle secp now ev).2.isSome = true ↔ Accepts secp now l ev := by
  constructor
  · intro h
    unfold handle at h
    split at h
    · cases h
    rename_i hk
    split at h
    · cases h
    rename_i hv
    split at h
    · cases h
    rename_i hs
    split at h
    · cases h
    rename_i ha
    exact ⟨not_ne_iff.mp hk, not_ne_iff.mp hv, by simpa using hs, by simpa using ha⟩
  · intro h
    simp [handle, h.kind, h.verified, h.surfaces, h.shown]

@[simp]
theorem handle_recipients (secp : Secp256k1) (now : ℤ) (l : ZapListener) (ev : Event) :
    (l.handle secp now ev).1.recipients = l.recipients := by
  unfold handle
  split
  · rfl
  split
  · rfl
  split
  · rfl
  split <;> rfl

/-- A surfaced receipt carries an amount of at least one satoshi. -/
theorem Accepts.amount {secp : Secp256k1} {now : ℤ} {l : ZapListener} {ev : Event}
    (h : Accepts secp now l ev) :
    ∃ msat, extractZapAmountMsat ev = some msat ∧ 1000 ≤ msat := by
  have hs := h.surfaces
  unfold shouldSurfaceZap at hs
  split at hs
  · cases hs
  split at hs
  · cases hs
  · rename_i msat hm
    exact ⟨msat, hm, by simpa using hs⟩

end ZapListener

end Nostr

end BtClock
