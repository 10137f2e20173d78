import BtClock.Nostr.Authenticity
import BtClock.Nostr.ZapIdLru
import BtClock.Transition.Emit
import Mathlib.Data.List.Dedup
import Mathlib.Data.List.Induction

/-!
# Runs of zap listeners

Every listener has its own watermark, the creation time of the zap which it passed on last, and
all of them share the ids of the zaps which were shown.  The watermark of a listener rises with
every zap, as long as no creation time is so far in the future that its age overflows; a receipt
from the future raises it above the zaps which come after it.
-/

namespace BtClock

namespace Nostr

open Transition

/-- A wall clock which is set, as a signed 64-bit time. -/
def ValidClock (now : ℤ) : Prop :=
  kZapMaxAgeSeconds < now ∧ now < 2 ^ 63

/-- The age of the event overflows. -/
def AgeOverflows (now : ℤ) (ev : Event) : Prop :=
  2 ^ 63 ≤ (ev.createdAt.toNat : ℤ) ∧ (ev.createdAt.toNat : ℤ) ≤ 2 ^ 63 + now

def FutureDated (now : ℤ) (ev : Event) : Prop :=
  now < ev.createdAt.toNat

instance (now : ℤ) (ev : Event) : Decidable (FutureDated now ev) :=
  inferInstanceAs (Decidable (_ < _))

instance (now : ℤ) : Decidable (ValidClock now) :=
  inferInstanceAs (Decidable (_ ∧ _))

theorem signedTime_eq (t : UInt64) :
    signedTime t = if t.toNat < 2 ^ 63 then (t.toNat : ℤ) else (t.toNat : ℤ) - 2 ^ 64 := by
  have hbits : signedTime t = t.toBitVec.toInt := rfl
  rw [hbits, BitVec.toInt_eq_toNat_cond, UInt64.toNat_toBitVec]
  split_ifs <;> omega

/-! ### The age gate -/

section AgeGate

variable {now lastShown : ℤ} {ev : Event}

/-- A zap which is shown is newer than the last one and not too old, unless its age overflows. -/
theorem lt_of_shouldShowZap (hclock : ValidClock now)
    (hage : AgeOverflows now ev → 0 < lastShown) (hlast : 0 ≤ lastShown)
    (h : shouldShowZap now (signedTime ev.createdAt) lastShown = true) :
    signedTime ev.createdAt = ev.createdAt.toNat ∧ lastShown < ev.createdAt.toNat ∧
      now - ev.createdAt.toNat ≤ kZapMaxAgeSeconds := by
  obtain ⟨hset, hbound⟩ := hclock
  rw [AgeOverflows] at hage
  rw [kZapMaxAgeSeconds] at hset ⊢
  have hlt := ev.createdAt.toNat_lt
  rw [shouldShowZap, signedTime_eq, kZapMaxAgeSeconds] at h
  rw [signedTime_eq]
  by_cases hsmall : ev.createdAt.toNat < 2 ^ 63
  · rw [if_pos hsmall] at h ⊢
    split_ifs at h with hold hfuture
    · exact ⟨rfl, by omega, by omega⟩
    · have hdiff : (now - (ev.createdAt.toNat : ℤ)).bmod (2 ^ 64) = now - ev.createdAt.toNat := by
        rw [Int.bmod]
        omega
      rw [hdiff, decide_eq_true_eq] at h
      exact ⟨rfl, by omega, h⟩
  · -- The age of such a time overflows, or is far too high.
    rw [if_neg hsmall] at h
    split_ifs at h with hold hfuture
    · omega
    · have hdiff : (now - ((ev.createdAt.toNat : ℤ) - 2 ^ 64)).bmod (2 ^ 64) =
          now - ((ev.createdAt.toNat : ℤ) - 2 ^ 64) := by
        rw [Int.bmod]
        omega
      rw [hdiff, decide_eq_true_eq] at h
      omega

/-- A zap from the last quarter of an hour is shown iff the watermark is below it. -/
theorem shouldShowZap_of_recent (hclock : ValidClock now) (hpast : ¬FutureDated now ev)
    (hage : now - ev.createdAt.toNat ≤ kZapMaxAgeSeconds) :
    shouldShowZap now (signedTime ev.createdAt) lastShown = true ↔
      ¬(0 < lastShown ∧ (ev.createdAt.toNat : ℤ) ≤ lastShown) := by
  obtain ⟨hset, hbound⟩ := hclock
  rw [FutureDated, Int.not_lt] at hpast
  have hsmall : ev.createdAt.toNat < 2 ^ 63 := by omega
  rw [kZapMaxAgeSeconds] at hset hage
  have hdiff : (now - (ev.createdAt.toNat : ℤ)).bmod (2 ^ 64) = now - ev.createdAt.toNat := by
    rw [Int.bmod]
    omega
  rw [signedTime_eq, if_pos hsmall, shouldShowZap, hdiff, kZapMaxAgeSeconds]
  split_ifs with hold hfuture
  · exact iff_of_false not_false (not_not.mpr hold)
  · omega
  · exact iff_of_true (decide_eq_true hage) hold

end AgeGate

namespace ZapListener

theorem handle_of_accepts {secp : Secp256k1} {now : ℤ} {l : ZapListener} {ev : Event}
    (h : Accepts secp now l ev) :
    l.handle secp now ev =
      ({ l with lastShownCreatedAt := signedTime ev.createdAt },
        some
          { amountMsat := (extractZapAmountMsat ev).getD 0
            bolt11 := (extractZapBolt11 ev).getD ""
            content := ev.content
            raw := ev }) := by
  simp [handle, h.kind, h.verified, h.surfaces, h.shown]

theorem handle_of_not_accepts {secp : Secp256k1} {now : ℤ} {l : ZapListener} {ev : Event}
    (h : ¬Accepts secp now l ev) : l.handle secp now ev = (l, none) := by
  rw [← handle_isSome_iff] at h
  unfold handle at h ⊢
  split_ifs at h ⊢ <;> first | rfl | exact absurd rfl h

end ZapListener

/-- A receipt whose signature holds, of one satoshi at least. -/
structure VerifiedZap (secp : Secp256k1) (ev : Event) : Prop where
  kind : ev.kind = kKindZapReceipt
  verified : verifyEvent secp ev = .ok
  amount : ∃ msat, extractZapAmountMsat ev = some msat ∧ 1000 ≤ msat

theorem VerifiedZap.surfaces {secp : Secp256k1} {ev : Event} (h : VerifiedZap secp ev) :
    shouldSurfaceZap ev = true := by
  obtain ⟨msat, hmsat, hle⟩ := h.amount
  simp only [shouldSurfaceZap, h.kind, hmsat, ne_eq, not_true_eq_false, if_false]
  exact decide_eq_true hle

theorem VerifiedZap.id_ne_empty {secp : Secp256k1} {ev : Event} (h : VerifiedZap secp ev) :
    ev.id ≠ "" := by
  intro hempty
  obtain ⟨-, -, -, -, -, hid, -, -⟩ := (verifyEvent_eq_ok_iff secp ev).mp h.verified
  rw [hempty] at hid
  cases hid

/-- Behind the checks of the signature and the amount only the age gate is left. -/
theorem ZapListener.accepts_iff {secp : Secp256k1} {now : ℤ} {l : ZapListener} {ev : Event}
    (hset : kZapMaxAgeSeconds < now) :
    Accepts secp now l ev ↔
      VerifiedZap secp ev ∧
        shouldShowZap now (signedTime ev.createdAt) l.lastShownCreatedAt = true := by
  have hgate : l.ageGateDrops now ev = false ↔
      shouldShowZap now (signedTime ev.createdAt) l.lastShownCreatedAt = true := by
    simp [ageGateDrops, hset]
  constructor
  · intro h
    exact ⟨⟨h.kind, h.verified, h.amount⟩, hgate.mp h.shown⟩
  · rintro ⟨hzap, hshown⟩
    exact ⟨hzap.kind, hzap.verified, hzap.surfaces, hgate.mpr hshown⟩

/-! ### Three receipts -/

/-- A zap of 21 satoshis. -/
def zapNow : Event where
  id := "c6d4fd4e453c7f017109ba96a83e86d46cd0f44bff35bb6900374b1356074219"
  pubkey := "774ae7f858a9411e5ef4246b70c65aac5649980be5c17891bbec17895da008cb"
  createdAt := 1700000000
  kind := 9735
  tags :=
    [⟨["p", "5cbdf0646e5db4eaa398f365f2ea7a0e3d419b7e0330e39ce92bddedcac4f9bc"]⟩,
      ⟨["amount", "21000"]⟩]
  content := ""
  sig :=
    "e43d3a8106b1b2fb98b8faa678e7879f76b3845b1fd0c1aca2961851b15d3dbe" ++
      "2cd90bcc34d15cb43a0b1bc97194a43023cf2c86fa006beaffb1678340d5b0b6"

/-- The same amount, six years ahead. -/
def zapFromFuture : Event where
  id := "aaa0a7bb5f2d5564a00c1fedda9ed2ef2971a111a3944b2b4a2401cabfb1e2ee"
  pubkey := "d01115d548e7561b15c38f004d734633687cf4419620095bc5b0f47070afe85a"
  createdAt := 1900000000
  kind := 9735
  tags :=
    [⟨["p", "5cbdf0646e5db4eaa398f365f2ea7a0e3d419b7e0330e39ce92bddedcac4f9bc"]⟩,
      ⟨["amount", "21000"]⟩]
  content := ""
  sig :=
    "c0042236181dec59424573e5586415fe7cadd5dc9be7a544bf29cb0bdfeba092" ++
      "939721dc9ad22fd7ff606de72bf0ba2ce6ebbbab4dfa5ed14a9d6493bccd74a0"

/-- The same amount, at the first time which has no signed form. -/
def zapOverflowing : Event where
  id := "c479008efc4bb8698d91b0375353efea0745b74810a8538783faa7414dedc461"
  pubkey := "f28773c2d975288bc7d1d205c3748651b075fbc6610e58cddeeddf8f19405aa8"
  createdAt := 9223372036854775808
  kind := 9735
  tags :=
    [⟨["p", "5cbdf0646e5db4eaa398f365f2ea7a0e3d419b7e0330e39ce92bddedcac4f9bc"]⟩,
      ⟨["amount", "21000"]⟩]
  content := ""
  sig :=
    "245280fcc3e31853e2fd39a5b62b9072c46fe7dbd13368b9f800e920a00ff478" ++
      "644b2445852565bd65e992f1aa094a4e97415907d02929b6856c2ba2d77fb0f3"

def zapKeys : Secp256k1 :=
  Secp256k1.ofEvents [zapNow, zapFromFuture, zapOverflowing]

theorem verifiedZap_zapNow : VerifiedZap zapKeys zapNow :=
  ⟨rfl, by decide +kernel, 21000, by decide +kernel, by decide⟩

theorem verifiedZap_zapFromFuture : VerifiedZap zapKeys zapFromFuture :=
  ⟨rfl, by decide +kernel, 21000, by decide +kernel, by decide⟩

theorem verifiedZap_zapOverflowing : VerifiedZap zapKeys zapOverflowing :=
  ⟨rfl, by decide +kernel, 21000, by decide +kernel, by decide⟩

theorem validClock_zapNow : ValidClock 1700000000 := by
  decide

/-! ### Listeners which share their ids -/

/-- The listeners of all relays, the ids of the zaps which they showed, and the setting which
puts a zap on the screen. -/
structure ZapBoard (ι : Type) where
  listeners : ι → ZapListener
  lru : ZapIdLru := {}
  zapNotify : Bool

/-- What the callback which is bound to a listener does with a zap that is new. -/
structure ZapAction where
  amountSats : UInt64
  message : String
  notify : Bool
  deriving DecidableEq

/-- A relay delivers an event to a listener. -/
structure Delivery (ι : Type) where
  listener : ι
  now : ℤ
  ev : Event

/-- A zap which a listener passes on, and what the callback does with it. -/
structure PassedZap (ι : Type) where
  listener : ι
  now : ℤ
  info : ZapInfo
  action : Option ZapAction

namespace ZapBoard

variable {ι : Type} [DecidableEq ι]

/-- The callback of `BindOnZap`. -/
def onZap (b : ZapBoard ι) (z : ZapInfo) : Option ZapAction × ZapIdLru :=
  let (fresh, lru) := b.lru.markFresh z.raw.id
  (if fresh then
      some
        { amountSats := z.amountMsat / 1000
          message := z.content
          notify := b.zapNotify }
    else none,
    lru)

def step (secp : Secp256k1) (b : ZapBoard ι) (d : Delivery ι) :
    ZapBoard ι × List (PassedZap ι) :=
  let (l, zap) := (b.listeners d.listener).handle secp d.now d.ev
  let b := { b with listeners := Function.update b.listeners d.listener l }
  match zap with
  | none => (b, [])
  | some z =>
      let (action, lru) := b.onZap z
      ({ b with lru := lru }, [⟨d.listener, d.now, z, action⟩])

/-- The zaps which the listeners pass on over a run. -/
def passed (secp : Secp256k1) (b : ZapBoard ι) (ds : List (Delivery ι)) : List (PassedZap ι) :=
  emitted (step secp) b ds

def passedIds (secp : Secp256k1) (b : ZapBoard ι) (ds : List (Delivery ι)) : List String :=
  (b.passed secp ds).map fun p => p.info.raw.id

/-- The ids of the zaps for which the action runs. -/
def shownIds (secp : Secp256k1) (b : ZapBoard ι) (ds : List (Delivery ι)) : List String :=
  ((b.passed secp ds).filter fun p => p.action.isSome).map fun p => p.info.raw.id

/-- The creation times of the zaps which one listener passes on. -/
def createdTimes (secp : Secp256k1) (b : ZapBoard ι) (ds : List (Delivery ι)) (i : ι) : List ℕ :=
  ((b.passed secp ds).filter fun p => p.listener = i).map fun p => p.info.raw.createdAt.toNat

/-- All listeners are new. -/
def boot (recipients : ι → List String) (zapNotify : Bool) : ZapBoard ι where
  listeners i := { recipients := recipients i }
  zapNotify := zapNotify

/-- One notification for each zap: no id is shown twice, and each listener passes on zaps which
are newer and newer, and none which is too old. -/
structure OneNotification (secp : Secp256k1) (b : ZapBoard ι) (ds : List (Delivery ι)) : Prop where
  once : (b.shownIds secp ds).Nodup
  newer : ∀ i, (b.createdTimes secp ds i).Pairwise (· < ·)
  recent : ∀ p ∈ b.passed secp ds, p.now - p.info.raw.createdAt.toNat ≤ kZapMaxAgeSeconds

/-- Between two deliveries of one id fewer ids are shown than are remembered. -/
def FewBetween (secp : Secp256k1) (b : ZapBoard ι) (ds : List (Delivery ι)) : Prop :=
  ∀ pre d mid d' post, ds = pre ++ d :: (mid ++ d' :: post) → d.ev.id = d'.ev.id →
    ((reached (step secp) b (pre ++ [d])).shownIds secp mid).dedup.length < ZapIdLru.kCap

/-- No verified zap whose age overflows comes to a listener without a watermark. -/
def NoOverflow (secp : Secp256k1) (b : ZapBoard ι) (d : Delivery ι) : Prop :=
  VerifiedZap secp d.ev → AgeOverflows d.now d.ev →
    0 < (b.listeners d.listener).lastShownCreatedAt

/-! ### Steps -/

section Steps

variable {secp : Secp256k1} {b : ZapBoard ι} {d : Delivery ι}

theorem step_of_not_accepts
    (h : ¬ZapListener.Accepts secp d.now (b.listeners d.listener) d.ev) :
    step secp b d = (b, []) := by
  simp only [step, ZapListener.handle_of_not_accepts h, Function.update_eq_self]

/-- A zap which gets through raises the watermark of its listener and is marked. -/
theorem step_of_accepts (h : ZapListener.Accepts secp d.now (b.listeners d.listener) d.ev) :
    ∃ z action, z.raw = d.ev ∧ (step secp b d).2 = [⟨d.listener, d.now, z, action⟩] ∧
      action.isSome = (b.lru.markFresh d.ev.id).1 ∧
      (step secp b d).1.lru = (b.lru.markFresh d.ev.id).2 ∧
      (step secp b d).1.listeners = Function.update b.listeners d.listener
        { b.listeners d.listener with lastShownCreatedAt := signedTime d.ev.createdAt } := by
  rw [step, ZapListener.handle_of_accepts h]
  refine ⟨_, _, rfl, rfl, ?_, rfl, rfl⟩
  simp only [onZap]
  cases (b.lru.markFresh d.ev.id).1 with
  | true => rfl
  | false => rfl

/-- A delivery passes on one zap at most. -/
theorem pairwise_step {α : Type} (R : α → α → Prop) (f : PassedZap ι → α)
    (p : PassedZap ι → Bool) : (((step secp b d).2.filter p).map f).Pairwise R := by
  have hone : ((step secp b d).2.map f).Pairwise R := by
    by_cases h : ZapListener.Accepts secp d.now (b.listeners d.listener) d.ev
    · obtain ⟨z, action, -, hpassed, -⟩ := step_of_accepts h
      rw [hpassed]
      exact List.pairwise_singleton R _
    · rw [step_of_not_accepts h]
      exact List.Pairwise.nil
  exact hone.sublist (List.filter_sublist.map f)

end Steps

/-! ### Every id once -/

section Once

variable {secp : Secp256k1}

theorem passed_cons (b : ZapBoard ι) (d : Delivery ι) (ds : List (Delivery ι)) :
    b.passed secp (d :: ds) = (step secp b d).2 ++ (step secp b d).1.passed secp ds :=
  rfl

theorem passed_append (b : ZapBoard ι) (ds es : List (Delivery ι)) :
    b.passed secp (ds ++ es) =
      b.passed secp ds ++ (reached (step secp) b ds).passed secp es :=
  emitted_append b ds es

theorem shownIds_append (b : ZapBoard ι) (ds es : List (Delivery ι)) :
    b.shownIds secp (ds ++ es) =
      b.shownIds secp ds ++ (reached (step secp) b ds).shownIds secp es := by
  rw [shownIds, passed_append, List.filter_append, List.map_append]
  rfl

theorem passedIds_cons (b : ZapBoard ι) (d : Delivery ι) (ds : List (Delivery ι)) :
    b.passedIds secp (d :: ds) =
      ((step secp b d).2.map fun p => p.info.raw.id) ++ (step secp b d).1.passedIds secp ds := by
  rw [passedIds, passed_cons, List.map_append]
  rfl

theorem shownIds_cons (b : ZapBoard ι) (d : Delivery ι) (ds : List (Delivery ι)) :
    b.shownIds secp (d :: ds) =
      (((step secp b d).2.filter fun p => p.action.isSome).map fun p => p.info.raw.id) ++
        (step secp b d).1.shownIds secp ds := by
  rw [shownIds, passed_cons, List.filter_append, List.map_append]
  rfl

/-- The ids which are shown are the ones which the queue does not know. -/
theorem shownIds_eq {ds : List (Delivery ι)} (hclock : ∀ d ∈ ds, ValidClock d.now)
    (b : ZapBoard ι) :
    (reached (step secp) b ds).lru.queue =
        run (Fifo.serve ZapIdLru.hits some) b.lru.queue (b.passedIds secp ds) ∧
      b.shownIds secp ds =
        Fifo.newcomers ZapIdLru.hits some b.lru.queue (b.passedIds secp ds) := by
  induction ds generalizing b with
  | nil => exact ⟨rfl, rfl⟩
  | cons d ds ih =>
      obtain ⟨hqueue, hshown⟩ := ih (fun d' hd' => hclock d' (List.mem_cons_of_mem d hd'))
        (step secp b d).1
      rw [reached_cons, hqueue, passedIds_cons, shownIds_cons, hshown]
      by_cases h : ZapListener.Accepts secp d.now (b.listeners d.listener) d.ev
      · have hid := ((ZapListener.accepts_iff (hclock d List.mem_cons_self).1).mp h).1.id_ne_empty
        obtain ⟨z, action, hraw, hpassed, haction, hlru, -⟩ := step_of_accepts h
        rw [ZapIdLru.markFresh_fst _ hid] at haction
        rw [hpassed, hlru, ZapIdLru.queue_markFresh _ hid]
        simp only [List.map_cons, List.map_nil, List.filter_cons, List.filter_nil, haction, hraw,
          List.singleton_append, run_cons, true_and]
        cases hknows : Fifo.knows ZapIdLru.hits b.lru.queue d.ev.id with
        | true =>
            rw [Fifo.newcomers_cons_of_knows hknows, Fifo.serve_of_knows hknows]
            simp
        | false =>
            rw [Fifo.newcomers_cons_of_not_knows hknows, Fifo.serve_of_not_knows hknows]
            simp [hraw]
      · rw [step_of_not_accepts h]
        exact ⟨rfl, rfl⟩

/-- An id is shown by a delivery at which the queue does not know it. -/
theorem exists_of_mem_shownIds {ds : List (Delivery ι)} {b : ZapBoard ι} {id : String}
    (hclock : ∀ d ∈ ds, ValidClock d.now) (h : id ∈ b.shownIds secp ds) :
    ∃ pre d mid, ds = pre ++ d :: mid ∧ d.ev.id = id ∧
      Fifo.knows ZapIdLru.hits (reached (step secp) b pre).lru.queue id = false ∧
      (step secp (reached (step secp) b pre) d).1.lru.queue =
        Fifo.push (reached (step secp) b pre).lru.queue (some id) := by
  induction ds generalizing b with
  | nil => cases h
  | cons d ds ih =>
      rw [shownIds_cons, List.mem_append] at h
      rcases h with h | h
      · by_cases hacc : ZapListener.Accepts secp d.now (b.listeners d.listener) d.ev
        · have hid :=
            ((ZapListener.accepts_iff (hclock d List.mem_cons_self).1).mp hacc).1.id_ne_empty
          obtain ⟨z, action, hraw, hpassed, haction, hlru, -⟩ := step_of_accepts hacc
          rw [ZapIdLru.markFresh_fst _ hid] at haction
          cases hknows : Fifo.knows ZapIdLru.hits b.lru.queue d.ev.id with
          | true => simp [hpassed, haction, hknows] at h
          | false =>
              have hself : id = d.ev.id := by simpa [hpassed, haction, hknows, hraw] using h
              subst hself
              refine ⟨[], d, ds, rfl, rfl, hknows, ?_⟩
              rw [reached_nil, hlru, ZapIdLru.queue_markFresh _ hid,
                Fifo.serve_of_not_knows hknows]
        · rw [step_of_not_accepts hacc] at h
          cases h
      · obtain ⟨pre, d', mid, rfl, hid, hnew, hqueue⟩ :=
          ih (fun d' hd' => hclock d' (List.mem_cons_of_mem d hd')) h
        exact ⟨d :: pre, d', mid, rfl, hid, hnew, hqueue⟩

theorem nodup_shownIds_singleton (b : ZapBoard ι) (d : Delivery ι) :
    (b.shownIds secp [d]).Nodup := by
  rw [shownIds_cons]
  exact (List.append_nil _).symm ▸ pairwise_step _ _ _

/-- An id which was shown is shown again only after as many others as are remembered. -/
theorem nodup_shownIds {ds : List (Delivery ι)} {b : ZapBoard ι}
    (hclock : ∀ d ∈ ds, ValidClock d.now) (hfew : FewBetween secp b ds) :
    (b.shownIds secp ds).Nodup := by
  induction ds using List.reverseRecOn with
  | nil => exact List.nodup_nil
  | append_singleton ds d ih =>
      have hclock' : ∀ d' ∈ ds, ValidClock d'.now := fun d' hd' =>
        hclock d' (List.mem_append_left [d] hd')
      have hnodup := ih hclock' (by
        rintro pre d₁ mid d₂ post rfl hid
        exact hfew pre d₁ mid d₂ (post ++ [d]) (by simp) hid)
      rw [shownIds_append]
      refine List.nodup_append.mpr ⟨hnodup, nodup_shownIds_singleton _ d, ?_⟩
      rintro id hbefore id' hlast rfl
      obtain ⟨pre, d₁, mid, rfl, hid, hnew, hpush⟩ := exists_of_mem_shownIds hclock' hbefore
      obtain ⟨pre', d₂, mid', hlist, hid', hnew', -⟩ :=
        exists_of_mem_shownIds (fun d' hd' => hclock d' (List.mem_append_right _ hd')) hlast
      obtain ⟨rfl, rfl, rfl⟩ : pre' = [] ∧ d₂ = d ∧ mid' = [] := by
        cases pre' with
        | nil => simpa [eq_comm] using hlist
        | cons d' pre' => simp at hlist
      -- The queue holds the id since it was shown first.
      have hsplit : pre ++ d₁ :: mid = pre ++ [d₁] ++ mid := by simp
      have hfirst : reached (step secp) b (pre ++ [d₁]) =
          (step secp (reached (step secp) b pre) d₁).1 := by
        rw [reached_append, reached_cons, reached_nil]
      have hbetween := hfew pre d₁ mid d₂ [] (by simp) (hid.trans hid'.symm)
      rw [hsplit, shownIds_append] at hnodup
      rw [List.Nodup.dedup (List.nodup_append.mp hnodup).2.1, hfirst] at hbetween
      obtain ⟨hqueue, hshown⟩ := @shownIds_eq ι _ secp mid
        (fun d' hd' => hclock' d' (by simp [hd'])) (step secp (reached (step secp) b pre) d₁).1
      rw [hshown, hpush] at hbetween
      rw [hpush] at hqueue
      have hknown := ZapIdLru.knows_run hnew (by rwa [ZapIdLru.length_queue])
      rw [reached_nil, hsplit, reached_append, hfirst, hqueue, hknown] at hnew'
      cases hnew'

end Once

/-! ### Newer and newer -/

section Newer

variable {secp : Secp256k1}

/-- No listener has a negative watermark. -/
def Watermarked (b : ZapBoard ι) : Prop :=
  ∀ i, 0 ≤ (b.listeners i).lastShownCreatedAt

/-- Without an overflow, what a listener passes on is newer than its watermark, which rises. -/
theorem step_newer {b : ZapBoard ι} {d : Delivery ι} (hclock : ValidClock d.now)
    (hfits : NoOverflow secp b d) (hb : Watermarked b) :
    Watermarked (step secp b d).1 ∧
      (∀ i, (b.listeners i).lastShownCreatedAt ≤
        ((step secp b d).1.listeners i).lastShownCreatedAt) ∧
      ∀ p ∈ (step secp b d).2,
        (b.listeners p.listener).lastShownCreatedAt < p.info.raw.createdAt.toNat ∧
          ((step secp b d).1.listeners p.listener).lastShownCreatedAt =
            p.info.raw.createdAt.toNat ∧
          p.now - p.info.raw.createdAt.toNat ≤ kZapMaxAgeSeconds := by
  by_cases h : ZapListener.Accepts secp d.now (b.listeners d.listener) d.ev
  · obtain ⟨hzap, hshown⟩ := (ZapListener.accepts_iff hclock.1).mp h
    obtain ⟨htime, hlt, hage⟩ := lt_of_shouldShowZap hclock (hfits hzap) (hb d.listener) hshown
    obtain ⟨z, action, hraw, hpassed, -, -, hlisteners⟩ := step_of_accepts h
    rw [hpassed, Watermarked, hlisteners, htime]
    have hrise : ∀ i, (b.listeners i).lastShownCreatedAt ≤
        (Function.update b.listeners d.listener
          { b.listeners d.listener with lastShownCreatedAt := d.ev.createdAt.toNat }
          i).lastShownCreatedAt := by
      intro i
      by_cases hi : i = d.listener
      · subst hi
        rw [Function.update_self]
        exact Int.le_of_lt hlt
      · exact Int.le_of_eq (by rw [Function.update_of_ne hi])
    refine ⟨fun i => Int.le_trans (hb i) (hrise i), hrise, ?_⟩
    intro p hp
    obtain rfl := List.mem_singleton.mp hp
    simp only [hraw, Function.update_self, true_and]
    exact ⟨hlt, hage⟩
  · rw [step_of_not_accepts h]
    exact ⟨hb, fun i => Int.le_refl _, nofun⟩

/-- What a listener passes on over a run is newer and newer, and newer than its watermark. -/
theorem passed_newer {ds : List (Delivery ι)} {b : ZapBoard ι}
    (hclock : ∀ d ∈ ds, ValidClock d.now)
    (hfits : Along (fun b d => (step secp b d).1) (NoOverflow secp) b ds) (hb : Watermarked b) :
    (∀ i, (b.createdTimes secp ds i).Pairwise (· < ·)) ∧
      ∀ p ∈ b.passed secp ds,
        (b.listeners p.listener).lastShownCreatedAt < p.info.raw.createdAt.toNat ∧
          p.now - p.info.raw.createdAt.toNat ≤ kZapMaxAgeSeconds := by
  induction ds generalizing b with
  | nil => exact ⟨fun i => List.Pairwise.nil, nofun⟩
  | cons d ds ih =>
      obtain ⟨hb', hrise, hfirst⟩ := step_newer (hclock d List.mem_cons_self) hfits.1 hb
      obtain ⟨hnewer, hrest⟩ :=
        ih (fun d' hd' => hclock d' (List.mem_cons_of_mem d hd')) hfits.2 hb'
      constructor
      · intro i
        rw [createdTimes, passed_cons, List.filter_append, List.map_append]
        refine List.pairwise_append.mpr ⟨?_, hnewer i, ?_⟩
        · exact pairwise_step _ _ _
        · intro c hc c' hc'
          obtain ⟨p, hp, rfl⟩ := List.mem_map.mp hc
          obtain ⟨p', hp', rfl⟩ := List.mem_map.mp hc'
          obtain ⟨hp, hi⟩ := List.mem_filter.mp hp
          obtain ⟨hp', hi'⟩ := List.mem_filter.mp hp'
          obtain ⟨-, hmark, -⟩ := hfirst p hp
          obtain ⟨hlt, -⟩ := hrest p' hp'
          rw [of_decide_eq_true hi', ← of_decide_eq_true hi, hmark] at hlt
          exact Int.ofNat_lt.mp hlt
      · intro p hp
        rw [passed_cons, List.mem_append] at hp
        rcases hp with hp | hp
        · exact ⟨(hfirst p hp).1, (hfirst p hp).2.2⟩
        · exact ⟨Int.lt_of_le_of_lt (hrise p.listener) (hrest p hp).1, (hrest p hp).2⟩

end Newer

/-- New listeners give one notification for each zap, as long as no verified zap whose age
overflows comes to a listener which has not passed on any. -/
theorem oneNotification_boot (secp : Secp256k1) (recipients : ι → List String) (zapNotify : Bool)
    (ds : List (Delivery ι)) (hclock : ∀ d ∈ ds, ValidClock d.now)
    (hfew : FewBetween secp (boot recipients zapNotify) ds)
    (hfits : Along (fun b d => (step secp b d).1) (NoOverflow secp) (boot recipients zapNotify)
      ds) : OneNotification secp (boot recipients zapNotify) ds where
  once := nodup_shownIds hclock hfew
  newer := (passed_newer hclock hfits fun _ => Int.le_refl 0).1
  recent p hp := ((passed_newer hclock hfits fun _ => Int.le_refl 0).2 p hp).2

theorem fewBetween_pair (secp : Secp256k1) (b : ZapBoard ι) (d₁ d₂ : Delivery ι) :
    FewBetween secp b [d₁, d₂] := by
  intro pre d mid d' post heq _
  have hlength := congrArg List.length heq
  simp only [List.length_append, List.length_cons, List.length_nil] at hlength
  obtain rfl := List.eq_nil_of_length_eq_zero (show mid.length = 0 by omega)
  exact Nat.succ_pos 63

/-- Two relays deliver one zap. -/
theorem oneNotification_twoRelays :
    OneNotification zapKeys (boot (fun _ : Bool => []) true)
      [⟨false, 1700000000, zapNow⟩, ⟨true, 1700000000, zapNow⟩] := by
  have hpast : ¬AgeOverflows 1700000000 zapNow := fun h => absurd h.1 (by decide)
  refine oneNotification_boot zapKeys (fun _ => []) true _ ?_ (fewBetween_pair _ _ _ _)
    ⟨fun _ h => absurd h hpast, fun _ h => absurd h hpast, trivial⟩
  intro d hd
  rcases List.mem_pair.mp hd with rfl | rfl
  · exact validClock_zapNow
  · exact validClock_zapNow

/-- A zap whose age overflows, and one which is older. -/
theorem not_oneNotification_overflowing :
    FewBetween zapKeys (boot (fun _ : Unit => []) true)
        [⟨(), 1700000000, zapOverflowing⟩, ⟨(), 1700000000, zapNow⟩] ∧
      ¬OneNotification zapKeys (boot (fun _ : Unit => []) true)
        [⟨(), 1700000000, zapOverflowing⟩, ⟨(), 1700000000, zapNow⟩] := by
  refine ⟨fewBetween_pair _ _ _ _, fun h => ?_⟩
  have hfirst : ZapListener.Accepts zapKeys 1700000000 { recipients := [] } zapOverflowing :=
    (ZapListener.accepts_iff (by decide)).mpr ⟨verifiedZap_zapOverflowing, by decide⟩
  obtain ⟨z, action, hraw, hpassed, -, -, hlisteners⟩ := @step_of_accepts Unit _ zapKeys
    (boot (fun _ => []) true) ⟨(), 1700000000, zapOverflowing⟩ hfirst
  have hsecond : ZapListener.Accepts zapKeys 1700000000
      { recipients := [], lastShownCreatedAt := signedTime zapOverflowing.createdAt } zapNow :=
    (ZapListener.accepts_iff (by decide)).mpr ⟨verifiedZap_zapNow, by decide⟩
  obtain ⟨z', action', hraw', hpassed', -⟩ := @step_of_accepts Unit _ zapKeys
    (step zapKeys (boot (fun _ => []) true) ⟨(), 1700000000, zapOverflowing⟩).1
    ⟨(), 1700000000, zapNow⟩ (by rw [hlisteners]; exact hsecond)
  have htimes : createdTimes zapKeys (boot (fun _ : Unit => []) true)
      [⟨(), 1700000000, zapOverflowing⟩, ⟨(), 1700000000, zapNow⟩] () =
        [zapOverflowing.createdAt.toNat, zapNow.createdAt.toNat] := by
    rw [createdTimes, passed_cons, passed_cons, hpassed, hpassed']
    simp [passed, hraw, hraw']
  have hnewer := h.newer ()
  rw [htimes] at hnewer
  exact absurd hnewer (by decide)

end ZapBoard

namespace ZapListener

/-! ### Receipts from the future -/

/-- A verified zap of the last quarter of an hour, which is newer than every receipt that came
before it and was not from the future then. -/
structure Genuine (secp : Secp256k1) (before : List (ℤ × Event)) (r : ℤ × Event) : Prop where
  zap : VerifiedZap secp r.2
  past : ¬FutureDated r.1 r.2
  recent : r.1 - r.2.createdAt.toNat ≤ kZapMaxAgeSeconds
  newest : ∀ e ∈ before, e.2.kind = kKindZapReceipt → ¬FutureDated e.1 e.2 →
    e.2.createdAt < r.2.createdAt

/-- A verified zap which was from the future when it came, and is not older than `r`. -/
structure Silences (secp : Secp256k1) (f r : ℤ × Event) : Prop where
  zap : VerifiedZap secp f.2
  future : FutureDated f.1 f.2
  signed : f.2.createdAt.toNat < 2 ^ 63
  notOlder : r.2.createdAt ≤ f.2.createdAt

section Watermark

variable {secp : Secp256k1}

theorem step_eq {e : ℤ × Event} (hclock : ValidClock e.1) (l : ZapListener) :
    step secp l e =
      open Classical in
      if VerifiedZap secp e.2 ∧
          shouldShowZap e.1 (signedTime e.2.createdAt) l.lastShownCreatedAt = true then
        { l with lastShownCreatedAt := signedTime e.2.createdAt }
      else l := by
  rw [step]
  split_ifs with h
  · rw [handle_of_accepts ((accepts_iff hclock.1).mpr h)]
  · rw [handle_of_not_accepts (mt (accepts_iff hclock.1).mp h)]

/-- A positive watermark does not fall. -/
theorem le_step {e : ℤ × Event} (hclock : ValidClock e.1) {l : ZapListener} {c : ℤ}
    (hpos : 0 < c) (hle : c ≤ l.lastShownCreatedAt) :
    c ≤ (step secp l e).lastShownCreatedAt := by
  rw [step_eq hclock]
  split_ifs with h
  · have hshown := h.2
    rw [shouldShowZap] at hshown
    split_ifs at hshown with hold hfuture
    · simp only
      omega
    · simp only
      omega
  · exact hle

/-- A receipt from the future leaves a watermark which is not below it. -/
theorem le_step_of_future {e : ℤ × Event} (hclock : ValidClock e.1) (l : ZapListener)
    (hzap : VerifiedZap secp e.2) (hfuture : FutureDated e.1 e.2)
    (hsigned : e.2.createdAt.toNat < 2 ^ 63) :
    (e.2.createdAt.toNat : ℤ) ≤ (step secp l e).lastShownCreatedAt := by
  have htime : signedTime e.2.createdAt = e.2.createdAt.toNat := by
    rw [signedTime_eq, if_pos hsigned]
  rw [step_eq hclock, htime]
  split_ifs with h
  · exact Int.le_refl _
  · by_contra hlow
    refine h ⟨hzap, ?_⟩
    rw [shouldShowZap, if_neg fun hold => hlow hold.2,
      if_pos (show (e.2.createdAt.toNat : ℤ) > e.1 from hfuture)]

/-- A positive watermark is the time of a verified zap which came before. -/
theorem exists_of_watermark_pos {es : List (ℤ × Event)} (hclock : ∀ e ∈ es, ValidClock e.1)
    {l : ZapListener} (hl : l.lastShownCreatedAt = 0)
    (hpos : 0 < (run (step secp) l es).lastShownCreatedAt) :
    ∃ p ∈ es, VerifiedZap secp p.2 ∧ p.2.createdAt.toNat < 2 ^ 63 ∧
      (run (step secp) l es).lastShownCreatedAt = p.2.createdAt.toNat := by
  induction es using List.reverseRecOn with
  | nil =>
      rw [run_nil, hl] at hpos
      exact absurd hpos (Int.lt_irrefl 0)
  | append_singleton es e ih =>
      rw [run_append_singleton, step_eq (hclock e (by simp))] at hpos ⊢
      split_ifs at hpos ⊢ with h
      · have htime := signedTime_eq e.2.createdAt
        have hlt := e.2.createdAt.toNat_lt
        simp only at hpos
        refine ⟨e, by simp, h.1, ?_, ?_⟩
        · split_ifs at htime with hsmall
          · exact hsmall
          · omega
        · split_ifs at htime with hsmall
          · exact htime
          · omega
      · obtain ⟨p, hp, hfound⟩ := ih (fun e' he' => hclock e' (List.mem_append_left [e] he')) hpos
        exact ⟨p, List.mem_append_left [e] hp, hfound⟩

/-- A receipt from the future which came before is not above the watermark. -/
theorem le_run_of_future {es : List (ℤ × Event)} (hclock : ∀ e ∈ es, ValidClock e.1)
    (l : ZapListener) {f : ℤ × Event} (hf : f ∈ es) (hzap : VerifiedZap secp f.2)
    (hfuture : FutureDated f.1 f.2) (hsigned : f.2.createdAt.toNat < 2 ^ 63) :
    (f.2.createdAt.toNat : ℤ) ≤ (run (step secp) l es).lastShownCreatedAt := by
  induction es using List.reverseRecOn with
  | nil => cases hf
  | append_singleton es e ih =>
      rw [run_append_singleton]
      rcases List.mem_append.mp hf with hf | hf
      · have hclock' : ∀ e' ∈ es, ValidClock e'.1 := fun e' he' =>
          hclock e' (List.mem_append_left [e] he')
        have hset := (hclock' f hf).1
        rw [FutureDated] at hfuture
        rw [kZapMaxAgeSeconds] at hset
        exact le_step (hclock e (by simp)) (by omega) (ih hclock' hf)
      · obtain rfl := List.mem_singleton.mp hf
        exact le_step_of_future (hclock f (by simp)) _ hzap hfuture hsigned

/-- A genuine zap is passed on iff no receipt from the future has silenced it. -/
theorem handle_genuine_iff {es : List (ℤ × Event)} (hclock : ∀ e ∈ es, ValidClock e.1)
    {l : ZapListener} (hl : l.lastShownCreatedAt = 0) {r : ℤ × Event} (hr : ValidClock r.1)
    (hgenuine : Genuine secp es r) :
    ((run (step secp) l es).handle secp r.1 r.2).2.isSome = true ↔
      ∀ f ∈ es, ¬Silences secp f r := by
  have hpast := hgenuine.past
  rw [FutureDated, Int.not_lt] at hpast
  rw [handle_isSome_iff, accepts_iff hr.1,
    shouldShowZap_of_recent hr hgenuine.past hgenuine.recent, and_iff_right hgenuine.zap]
  constructor
  · rintro hlow f hf ⟨hzap, hfuture, hsigned, hold⟩
    have hle := le_run_of_future hclock l hf hzap hfuture hsigned
    have hle' := UInt64.le_iff_toNat_le.mp hold
    have hset := (hclock f hf).1
    rw [FutureDated] at hfuture
    rw [kZapMaxAgeSeconds] at hset
    exact hlow ⟨by omega, by omega⟩
  · rintro hnone ⟨hpos, hold⟩
    obtain ⟨p, hp, hzap, hsigned, hmark⟩ := exists_of_watermark_pos hclock hl hpos
    rw [hmark] at hold
    have hle : r.2.createdAt ≤ p.2.createdAt := UInt64.le_iff_toNat_le.mpr (by omega)
    by_cases hfuture : FutureDated p.1 p.2
    · exact hnone p hp ⟨hzap, hfuture, hsigned, hle⟩
    · have hlt := UInt64.lt_iff_toNat_lt.mp (hgenuine.newest p hp hzap.kind hfuture)
      omega

end Watermark

/-- Every genuine zap of a run is passed on iff none of them comes behind a verified zap which was
from the future and is not older. -/
theorem handle_all_genuine_iff (secp : Secp256k1) (recipients : List String)
    (es : List (ℤ × Event)) (hclock : ∀ e ∈ es, ValidClock e.1) :
    (∀ pre r post, es = pre ++ r :: post → Genuine secp pre r →
        ((run (step secp) { recipients := recipients } pre).handle secp r.1 r.2).2.isSome = true) ↔
      ∀ pre r post, es = pre ++ r :: post → Genuine secp pre r →
        ∀ f ∈ pre, ¬Silences secp f r := by
  have hclocks : ∀ {pre r post}, es = pre ++ r :: post →
      (∀ e ∈ pre, ValidClock e.1) ∧ ValidClock r.1 := by
    rintro pre r post rfl
    exact ⟨fun e he => hclock e (by simp [he]), hclock r (by simp)⟩
  constructor
  · intro h pre r post hes hgenuine
    exact (handle_genuine_iff (hclocks hes).1 rfl (hclocks hes).2 hgenuine).mp
      (h pre r post hes hgenuine)
  · intro h pre r post hes hgenuine
    exact (handle_genuine_iff (hclocks hes).1 rfl (hclocks hes).2 hgenuine).mpr
      (h pre r post hes hgenuine)

theorem handle_all_genuine_iff_zapNow :
    (∀ pre r post, [((1700000000 : ℤ), zapNow)] = pre ++ r :: post → Genuine zapKeys pre r →
        ((run (step zapKeys) { recipients := [] } pre).handle zapKeys r.1 r.2).2.isSome = true) ↔
      ∀ pre r post, [((1700000000 : ℤ), zapNow)] = pre ++ r :: post → Genuine zapKeys pre r →
        ∀ f ∈ pre, ¬Silences zapKeys f r :=
  handle_all_genuine_iff zapKeys [] [(1700000000, zapNow)] fun e he => by
    rw [List.mem_singleton.mp he]
    exact validClock_zapNow

/-- A receipt from the future silences a genuine zap. -/
theorem zapFromFuture_silences :
    Genuine zapKeys [(1700000000, zapFromFuture)] (1700000000, zapNow) ∧
      ((run (step zapKeys) { recipients := [] } [(1700000000, zapFromFuture)]).handle zapKeys
        1700000000 zapNow).2 = none := by
  have hclock : ∀ e ∈ [((1700000000 : ℤ), zapFromFuture)], ValidClock e.1 := by
    intro e he
    rw [List.mem_singleton.mp he]
    exact validClock_zapNow
  have hgenuine : Genuine zapKeys [(1700000000, zapFromFuture)] (1700000000, zapNow) := by
    refine ⟨verifiedZap_zapNow, by decide, by decide, fun e he _ hpast => ?_⟩
    rw [List.mem_singleton.mp he] at hpast
    exact absurd (by decide) hpast
  refine ⟨hgenuine, Option.not_isSome_iff_eq_none.mp fun hshown => ?_⟩
  exact (handle_genuine_iff hclock rfl validClock_zapNow hgenuine).mp hshown _ List.mem_cons_self
    ⟨verifiedZap_zapFromFuture, by decide, by decide, by decide⟩

end ZapListener

end Nostr

end BtClock
