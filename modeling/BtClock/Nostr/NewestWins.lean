import BtClock.Data.Report
import BtClock.Nostr.Handlers
import BtClock.Transition.Run

/-!
# The newest value across relays

Several data sources of one author report into one hub.  Each keeps its own times of the
newest events it consumed, so a source which lags behind overwrites what another one
reported already.  The hub ends with the newest value of a slot exactly when the delivery
consumed last carries it.
-/

namespace BtClock

namespace Nostr

open Data

/-- The `d` slot of an event. -/
def Event.dTag (ev : Event) : String :=
  ev.tagValue "d"

/-- The partial snapshot which the contents of an event stand for. -/
def Event.partialSnapshot (ev : Event) : Option DataSnapshot :=
  parseNip78Content ev.dTag ev.content

/-- The hub shows the contents of an event. -/
def ShowsEvent (hub : DataSnapshot) (ev : Event) : Prop :=
  ∀ p, ev.partialSnapshot = some p → hub.Shows p

/-- Two events of a slot stand for the same values. -/
def SameContents (ev ev' : Event) : Prop :=
  ∀ p p', ev.partialSnapshot = some p → ev'.partialSnapshot = some p' → p.Shows p'

theorem priceOf_singleton (ccy ccy' content : String) :
    ({ prices := AList.insert ccy content ∅ } : DataSnapshot).priceOf ccy' =
      if ccy' = ccy then some content else none := by
  by_cases h : ccy' = ccy
  · subst h
    rw [if_pos rfl, DataSnapshot.priceOf, AList.lookup_insert]
  · rw [if_neg h, DataSnapshot.priceOf, AList.lookup_insert_ne h, AList.lookup_empty]

/-- What the contents of a slot can stand for. -/
theorem parseNip78Content_cases {d content : String} {p : DataSnapshot}
    (h : parseNip78Content d content = some p) :
    (d = "blockheight" ∧ ∃ height, p = { blockHeight := some height }) ∨
      (d = "medianFee" ∧
        ∃ fee, p = { blockFeePrecise := some fee, blockFee := some (roundFee fee) }) ∨
      ∃ ccy, d = kPricePrefix ++ ccy ∧ p = { prices := AList.insert ccy content ∅ } := by
  unfold parseNip78Content at h
  split at h
  · rename_i hd
    obtain ⟨height, -, rfl⟩ := Option.map_eq_some_iff.mp h
    exact .inl ⟨hd, height, rfl⟩
  split at h
  · rename_i hd
    obtain ⟨fee, -, rfl⟩ := Option.map_eq_some_iff.mp h
    exact .inr (.inl ⟨hd, fee, rfl⟩)
  split at h
  · rename_i hprefix
    split at h
    · cases h
    cases h
    refine .inr (.inr ⟨_, ?_, rfl⟩)
    obtain ⟨rest, hrest⟩ := List.isPrefixOf_iff_prefix.mp hprefix.2
    have hdrop : d.toList.drop kPricePrefix.length = rest := by
      rw [← hrest, ← String.length_toList, List.drop_left]
    rw [hdrop, ← String.toList_inj, ← hrest]
    simp
  · cases h

theorem pricePrefix_append_ne_blockheight (ccy : String) :
    kPricePrefix ++ ccy ≠ "blockheight" := by
  intro h
  have := congrArg (fun s => s.toList.head?) h
  simp [kPricePrefix] at this

theorem pricePrefix_append_ne_medianFee (ccy : String) :
    kPricePrefix ++ ccy ≠ "medianFee" := by
  intro h
  have := congrArg (fun s => s.toList.head?) h
  simp [kPricePrefix] at this

theorem pricePrefix_append_inj {ccy ccy' : String}
    (h : kPricePrefix ++ ccy = kPricePrefix ++ ccy') : ccy = ccy' := by
  have := congrArg String.toList h
  simpa [String.toList_inj] using this

theorem sameFields_of_dTag {d content content' : String} {p p' : DataSnapshot}
    (h : parseNip78Content d content = some p)
    (h' : parseNip78Content d content' = some p') : DataSnapshot.SameFields p p' := by
  rcases parseNip78Content_cases h with
    ⟨rfl, height, rfl⟩ | ⟨rfl, fee, rfl⟩ | ⟨ccy, rfl, rfl⟩
  · rcases parseNip78Content_cases h' with ⟨-, height', rfl⟩ | ⟨hd, -⟩ | ⟨ccy, hd, -⟩
    · refine ⟨fun c => ?_, rfl, rfl⟩
      rw [DataSnapshot.priceOf_of_no_prices rfl, DataSnapshot.priceOf_of_no_prices rfl]
    · exact absurd hd (by decide)
    · exact absurd hd.symm (pricePrefix_append_ne_blockheight ccy)
  · rcases parseNip78Content_cases h' with ⟨hd, -⟩ | ⟨-, fee', rfl⟩ | ⟨ccy, hd, -⟩
    · exact absurd hd (by decide)
    · refine ⟨fun c => ?_, by simp, by simp⟩
      rw [DataSnapshot.priceOf_of_no_prices rfl, DataSnapshot.priceOf_of_no_prices rfl]
    · exact absurd hd.symm (pricePrefix_append_ne_medianFee ccy)
  · rcases parseNip78Content_cases h' with ⟨hd, -⟩ | ⟨hd, -⟩ | ⟨ccy', hd, rfl⟩
    · exact absurd hd (pricePrefix_append_ne_blockheight ccy)
    · exact absurd hd (pricePrefix_append_ne_medianFee ccy)
    · cases pricePrefix_append_inj hd
      refine ⟨fun c => ?_, rfl, rfl⟩
      rw [priceOf_singleton, priceOf_singleton]
      split <;> rfl

theorem otherFields_of_dTag_ne {d d' content content' : String} {p p' : DataSnapshot}
    (h : parseNip78Content d content = some p)
    (h' : parseNip78Content d' content' = some p') (hne : d ≠ d') :
    DataSnapshot.OtherFields p p' := by
  rcases parseNip78Content_cases h with
    ⟨rfl, height, rfl⟩ | ⟨rfl, fee, rfl⟩ | ⟨ccy, rfl, rfl⟩
  · exact ⟨fun _ => .inl rfl, .inl rfl, .inl rfl⟩
  · rcases parseNip78Content_cases h' with ⟨-, height', rfl⟩ | ⟨hd, -⟩ | ⟨ccy, -, rfl⟩
    · exact ⟨fun _ => .inl rfl, .inr rfl, .inr rfl⟩
    · exact absurd hd.symm hne
    · exact ⟨fun _ => .inl rfl, .inr rfl, .inr rfl⟩
  · rcases parseNip78Content_cases h' with ⟨-, height', rfl⟩ | ⟨-, fee', rfl⟩ |
      ⟨ccy', rfl, rfl⟩
    · exact ⟨fun _ => .inr rfl, .inl rfl, .inl rfl⟩
    · exact ⟨fun _ => .inr rfl, .inl rfl, .inl rfl⟩
    · refine ⟨fun c => ?_, .inl rfl, .inl rfl⟩
      rw [priceOf_singleton, priceOf_singleton]
      by_cases hc : c = ccy
      · refine .inr (if_neg fun hc' => hne ?_)
        rw [← hc, hc']
      · exact .inl (if_neg hc)

/-- The data sources of one author and the hub they share. -/
structure RelayFeeds (n : ℕ) where
  sources : Fin n → NostrDataSource
  hub : DataSnapshot

namespace RelayFeeds

variable {n : ℕ}

/-- The sources have consumed nothing yet. -/
def init (authorPubkeyHex : String) (hub : DataSnapshot) : RelayFeeds n where
  sources _ := { authorPubkeyHex := authorPubkeyHex }
  hub := hub

/-- A relay delivers an event to its source. -/
def step (secp : Secp256k1) (s : RelayFeeds n) (x : Fin n × Event) : RelayFeeds n where
  sources := Function.update s.sources x.1 ((s.sources x.1).onEvent secp x.2).1
  hub :=
    match ((s.sources x.1).onEvent secp x.2).2 with
    | none => s.hub
    | some p => report s.hub p

/-- A delivered event is a verified one with contents for its slot. -/
structure Consumable (secp : Secp256k1) (ev : Event) : Prop where
  verified : verifyEvent secp ev = .ok
  kind : ev.kind = kKindAppData
  parses : ev.partialSnapshot.isSome = true

/-- After the deliveries `pre`, the relay of the delivery `x` has delivered nothing newer
for the slot. -/
def NotOlder (pre : List (Fin n × Event)) (x : Fin n × Event) : Prop :=
  ∀ y ∈ pre, y.1 = x.1 → y.2.dTag = x.2.dTag → y.2.createdAt ≤ x.2.createdAt

instance (pre : List (Fin n × Event)) (x : Fin n × Event) :
    Decidable (NotOlder pre x) :=
  inferInstanceAs (Decidable (∀ y ∈ pre, _ → _ → _))

/-- The event of the last delivery for the slot `d` which is not older than the earlier
ones of its own relay, after the deliveries `pre` with the result `last` so far. -/
def lastConsumedFrom (d : String) (pre : List (Fin n × Event)) (last : Option Event) :
    List (Fin n × Event) → Option Event
  | [] => last
  | x :: xs =>
      lastConsumedFrom d (pre ++ [x])
        (if x.2.dTag = d ∧ NotOlder pre x then some x.2 else last) xs

def lastConsumed (d : String) (xs : List (Fin n × Event)) : Option Event :=
  lastConsumedFrom d [] none xs

/-- The event is the newest of its slot among the deliveries. -/
def IsNewest (xs : List (Fin n × Event)) (ev : Event) : Prop :=
  (∃ r, (r, ev) ∈ xs) ∧ ∀ x ∈ xs, x.2.dTag = ev.dTag → x.2.createdAt ≤ ev.createdAt

/-- The hub shows the newest event of every slot. -/
def NewestWins (hub : DataSnapshot) (xs : List (Fin n × Event)) : Prop :=
  ∀ ev, IsNewest xs ev → ShowsEvent hub ev

/-- In every slot the event consumed last has the contents of the newest one. -/
def LastConsumedIsNewest (xs : List (Fin n × Event)) : Prop :=
  ∀ ev, IsNewest xs ev →
    ∀ last, lastConsumed ev.dTag xs = some last → SameContents last ev

/-- Each source remembers the newest time of each slot which its relay delivered. -/
def SeenInv (s : RelayFeeds n) (pre : List (Fin n × Event)) : Prop :=
  ∀ r d createdAt,
    (s.sources r).isStale d createdAt = false ↔
      ∀ y ∈ pre, y.1 = r → y.2.dTag = d → y.2.createdAt ≤ createdAt

theorem dTag_ne_empty {secp : Secp256k1} {ev : Event} (h : Consumable secp ev) :
    ev.dTag ≠ "" := by
  intro hd
  have hp := h.parses
  rw [Event.partialSnapshot, hd] at hp
  exact absurd hp (by simp [parseNip78Content])

theorem accepts_iff_notOlder {secp : Secp256k1} {s : RelayFeeds n}
    {pre : List (Fin n × Event)} (hinv : SeenInv s pre) {x : Fin n × Event}
    {p : DataSnapshot} (hx : Consumable secp x.2) (hp : x.2.partialSnapshot = some p) :
    NostrDataSource.Accepts secp (s.sources x.1) x.2 p ↔ NotOlder pre x := by
  rw [NotOlder, ← hinv x.1 x.2.dTag x.2.createdAt]
  constructor
  · intro h
    exact h.fresh
  · intro h
    exact ⟨hx.verified, hx.kind, dTag_ne_empty hx, h, hp⟩

theorem seenInv_init (authorPubkeyHex : String) (hub : DataSnapshot) :
    SeenInv (init authorPubkeyHex hub : RelayFeeds n) [] := by
  intro r d createdAt
  simp [init, NostrDataSource.isStale]

theorem isStale_insert (src : NostrDataSource) (d d' : String) (t t' : UInt64) :
    NostrDataSource.isStale
        { src with lastSeenCreatedAt := src.lastSeenCreatedAt.insert d' t' } d t =
      if d = d' then decide (t < t') else src.isStale d t := by
  by_cases hd : d = d'
  · subst hd
    simp [NostrDataSource.isStale]
  · rw [if_neg hd, NostrDataSource.isStale, NostrDataSource.isStale,
      AList.lookup_insert_ne hd]

theorem forall_mem_append_singleton {α : Type*} {P : α → Prop} {l : List α} {x : α} :
    (∀ y ∈ l ++ [x], P y) ↔ (∀ y ∈ l, P y) ∧ P x := by
  simp [or_imp, forall_and]

theorem step_sources_of_ne (secp : Secp256k1) (s : RelayFeeds n) {x : Fin n × Event}
    {r : Fin n} (hr : r ≠ x.1) : (s.step secp x).sources r = s.sources r :=
  Function.update_of_ne hr _ _

theorem step_of_notOlder {secp : Secp256k1} {s : RelayFeeds n}
    {pre : List (Fin n × Event)} (hinv : SeenInv s pre) {x : Fin n × Event}
    {p : DataSnapshot} (hx : Consumable secp x.2) (hp : x.2.partialSnapshot = some p)
    (hnew : NotOlder pre x) :
    (s.step secp x).sources x.1 =
        { s.sources x.1 with
          lastSeenCreatedAt :=
            (s.sources x.1).lastSeenCreatedAt.insert x.2.dTag x.2.createdAt } ∧
      (s.step secp x).hub = (s.hub.merge p).1 := by
  have hacc := (accepts_iff_notOlder hinv hx hp).mpr hnew
  have hev := NostrDataSource.onEvent_of_accepts hacc
  constructor
  · rw [step, hev]
    exact Function.update_self _ _ _
  · simp only [step, hev, report]

theorem step_of_older {secp : Secp256k1} {s : RelayFeeds n}
    {pre : List (Fin n × Event)} (hinv : SeenInv s pre) {x : Fin n × Event}
    (hx : Consumable secp x.2) (hold : ¬ NotOlder pre x) :
    (s.step secp x).sources x.1 = s.sources x.1 ∧ (s.step secp x).hub = s.hub := by
  have hrep : ((s.sources x.1).onEvent secp x.2).2 = none := by
    by_contra hsome
    obtain ⟨p, hp⟩ := Option.ne_none_iff_exists'.mp hsome
    have hacc := NostrDataSource.onEvent_report_iff.mp hp
    exact hold ((accepts_iff_notOlder hinv hx hacc.parsed).mp hacc)
  constructor
  · rw [step, NostrDataSource.onEvent_of_no_report hrep]
    exact Function.update_self _ _ _
  · simp only [step, hrep]

theorem SeenInv.step {secp : Secp256k1} {s : RelayFeeds n}
    {pre : List (Fin n × Event)} (hinv : SeenInv s pre) {x : Fin n × Event}
    (hx : Consumable secp x.2) : SeenInv (s.step secp x) (pre ++ [x]) := by
  intro r d t
  rw [forall_mem_append_singleton]
  by_cases hr : r = x.1
  · subst hr
    obtain ⟨p, hp⟩ := Option.isSome_iff_exists.mp hx.parses
    by_cases hnew : NotOlder pre x
    · rw [(step_of_notOlder hinv hx hp hnew).1, isStale_insert]
      by_cases hd : d = x.2.dTag
      · subst hd
        rw [if_pos rfl, decide_eq_false_iff_not, UInt64.not_lt]
        constructor
        · intro ht
          refine ⟨fun y hy hyr hyd => ?_, fun _ _ => ht⟩
          exact UInt64.le_trans (hnew y hy hyr hyd) ht
        · rintro ⟨-, ht⟩
          exact ht rfl rfl
      · rw [if_neg hd, hinv]
        constructor
        · intro h
          exact ⟨h, fun _ hd' => absurd hd'.symm hd⟩
        · rintro ⟨h, -⟩
          exact h
    · rw [(step_of_older hinv hx hnew).1, hinv]
      constructor
      · intro h
        refine ⟨h, ?_⟩
        rintro - rfl
        obtain ⟨y, hy, hyr, hyd, hlt⟩ : ∃ y ∈ pre, y.1 = x.1 ∧ y.2.dTag = x.2.dTag ∧
            ¬ y.2.createdAt ≤ x.2.createdAt := by
          simpa [NotOlder] using hnew
        exact UInt64.le_trans (UInt64.le_of_lt (UInt64.not_le.mp hlt)) (h y hy hyr hyd)
      · rintro ⟨h, -⟩
        exact h
  · rw [step_sources_of_ne secp s hr, hinv]
    constructor
    · intro h
      exact ⟨h, fun hx' => absurd hx'.symm hr⟩
    · rintro ⟨h, -⟩
      exact h

/-- The event is one of the slot `d` whose contents the hub shows. -/
structure ShownInSlot (hub : DataSnapshot) (d : String) (ev : Event) : Prop where
  slot : ev.dTag = d
  parses : ev.partialSnapshot.isSome = true
  shows : ShowsEvent hub ev

/-- A consumed event of the slot shows afterwards; every other delivery leaves what the
hub shows of the slot. -/
theorem shownInSlot_step {secp : Secp256k1} {s : RelayFeeds n}
    {pre : List (Fin n × Event)} (hinv : SeenInv s pre) {x : Fin n × Event}
    (hx : Consumable secp x.2) {d : String} {last : Option Event}
    (hlast : ∀ ev, last = some ev → ShownInSlot s.hub d ev) (ev : Event)
    (hev : (if x.2.dTag = d ∧ NotOlder pre x then some x.2 else last) = some ev) :
    ShownInSlot (s.step secp x).hub d ev := by
  obtain ⟨p, hp⟩ := Option.isSome_iff_exists.mp hx.parses
  by_cases hnew : NotOlder pre x
  · have hhub := (step_of_notOlder hinv hx hp hnew).2
    by_cases hd : x.2.dTag = d
    · rw [if_pos ⟨hd, hnew⟩] at hev
      cases hev
      refine ⟨hd, hx.parses, fun q hq => ?_⟩
      rw [hhub, Option.some.inj (hq.symm.trans hp)]
      exact DataSnapshot.shows_merge s.hub p
    · rw [if_neg fun h => hd h.1] at hev
      have hshown := hlast ev hev
      have hother : x.2.dTag ≠ ev.dTag := fun h => hd (h.trans hshown.slot)
      refine ⟨hshown.slot, hshown.parses, fun q hq => ?_⟩
      rw [hhub]
      exact (hshown.shows q hq).merge (otherFields_of_dTag_ne hp hq hother)
  · rw [if_neg fun h => hnew h.2] at hev
    rw [(step_of_older hinv hx hnew).2]
    exact hlast ev hev

/-- After the run, the hub shows the event which each slot consumed last. -/
theorem shownInSlot_run {secp : Secp256k1} {d : String} {s : RelayFeeds n}
    {pre xs : List (Fin n × Event)} (hinv : SeenInv s pre)
    (hxs : ∀ x ∈ xs, Consumable secp x.2) {last : Option Event}
    (hlast : ∀ ev, last = some ev → ShownInSlot s.hub d ev) (ev : Event)
    (hev : lastConsumedFrom d pre last xs = some ev) :
    ShownInSlot (Transition.run (step secp) s xs).hub d ev := by
  induction xs generalizing s pre last with
  | nil => exact hlast ev hev
  | cons x xs ih =>
      have hx := hxs x List.mem_cons_self
      have hrest : ∀ y ∈ xs, Consumable secp y.2 := fun y hy =>
        hxs y (List.mem_cons_of_mem x hy)
      exact ih (hinv.step hx) hrest (shownInSlot_step hinv hx hlast) hev

/-- Among events of one slot, the hub shows those with the contents of the shown one. -/
theorem ShownInSlot.showsEvent_iff {hub : DataSnapshot} {ev last : Event}
    (h : ShownInSlot hub ev.dTag last) : ShowsEvent hub ev ↔ SameContents last ev := by
  obtain ⟨p, hp⟩ := Option.isSome_iff_exists.mp h.parses
  have hp' : parseNip78Content ev.dTag last.content = some p := h.slot ▸ hp
  constructor
  · intro hshows q q' hq hq'
    cases Option.some.inj (hp.symm.trans hq)
    exact ((h.shows p hp).iff_of_sameFields (sameFields_of_dTag hp' hq')).mp (hshows q' hq')
  · intro hsame q' hq'
    exact ((h.shows p hp).iff_of_sameFields (sameFields_of_dTag hp' hq')).mpr
      (hsame p q' hp hq')

theorem lastConsumedFrom_isSome_of_last {d : String} {pre xs : List (Fin n × Event)}
    {last : Option Event} (h : last.isSome = true) :
    (lastConsumedFrom d pre last xs).isSome = true := by
  induction xs generalizing pre last with
  | nil => exact h
  | cons x xs ih =>
      refine ih ?_
      split
      · rfl
      · exact h

/-- A slot for which anything was delivered has consumed something. -/
theorem lastConsumedFrom_isSome {d : String} {pre xs : List (Fin n × Event)}
    {last : Option Event} (hpre : ∀ y ∈ pre, y.2.dTag ≠ d)
    (hxs : ∃ x ∈ xs, x.2.dTag = d) : (lastConsumedFrom d pre last xs).isSome = true := by
  induction xs generalizing pre last with
  | nil =>
      obtain ⟨x, hx, -⟩ := hxs
      cases hx
  | cons x xs ih =>
      by_cases hd : x.2.dTag = d
      · have hnew : NotOlder pre x := fun y hy _ hyd =>
          absurd (hyd.trans hd) (hpre y hy)
        rw [lastConsumedFrom, if_pos ⟨hd, hnew⟩]
        exact lastConsumedFrom_isSome_of_last rfl
      · refine ih ?_ ?_
        · rw [forall_mem_append_singleton]
          exact ⟨hpre, hd⟩
        · obtain ⟨y, hy, hyd⟩ := hxs
          rcases List.mem_cons.mp hy with rfl | hy
          · exact absurd hyd hd
          · exact ⟨y, hy, hyd⟩

/-- For every number of relays and every sequence of deliveries of verified events, the
hub shows the newest event of each slot exactly when the event consumed last in each slot
has its contents. -/
theorem newestWins_iff (secp : Secp256k1) (authorPubkeyHex : String)
    (hub : DataSnapshot) (xs : List (Fin n × Event))
    (hxs : ∀ x ∈ xs, Consumable secp x.2) :
    NewestWins (Transition.run (step secp) (init authorPubkeyHex hub) xs).hub xs ↔
      LastConsumedIsNewest xs := by
  have hshown : ∀ d last, lastConsumed d xs = some last →
      ShownInSlot (Transition.run (step secp) (init authorPubkeyHex hub) xs).hub d last :=
    fun d => shownInSlot_run (seenInv_init authorPubkeyHex hub) hxs (fun _ h => by cases h)
  constructor
  · intro hwins ev hnew last hlast
    exact (hshown ev.dTag last hlast).showsEvent_iff.mp (hwins ev hnew)
  · intro hcond ev hnew
    obtain ⟨r, hr⟩ := hnew.1
    obtain ⟨last, hlast⟩ : ∃ last, lastConsumed ev.dTag xs = some last :=
      Option.isSome_iff_exists.mp
        (lastConsumedFrom_isSome (by simp) ⟨(r, ev), hr, rfl⟩)
    exact (hshown ev.dTag last hlast).showsEvent_iff.mpr (hcond ev hnew last hlast)

/-- A price of the publisher, and a newer one. -/
def olderPrice : Event where
  id := "00026623b5b094d2aac167243db405dd615bbdfa8dd6f3e1a0943224844260d2"
  pubkey := "2f8bde4d1a07209355b4a7250a5c5128e88b84bddc619ab7cba8d569b240efe4"
  createdAt := 1700000000
  kind := 30078
  tags := [⟨["d", "price:USD"]⟩]
  content := "60000"
  sig :=
    "9b30e4cb3795a4fd5e0502b50245862a57d07b887b8816ed510db43ad4078c95" ++
      "f45c000c3c206b17a0f53d7d23c4969d5ff7cff746e58b77f3458c2865b23f99"

def newerPrice : Event where
  id := "5d8edefa5166343ea4e0734540bcf6d46b68e2374100d5948bc3fbeab54814e6"
  pubkey := "2f8bde4d1a07209355b4a7250a5c5128e88b84bddc619ab7cba8d569b240efe4"
  createdAt := 1700000060
  kind := 30078
  tags := [⟨["d", "price:USD"]⟩]
  content := "61000"
  sig :=
    "2f94b55338c6c942e3cee8d34b8f398ff50cee41eb9b270cbb260b0920db6705" ++
      "e05435716fef4b265921d07a1cf5358f1523e43906be5f48095c3387dd875c49"

/-- The library on the publisher's signatures. -/
def publisherSecp : Secp256k1 :=
  .ofEvents [olderPrice, newerPrice]

theorem consumable_prices :
    ∀ ev ∈ [olderPrice, newerPrice], Consumable publisherSecp ev := by
  intro ev hev
  rcases List.mem_pair.mp hev with rfl | rfl
  · exact ⟨by decide +kernel, rfl, rfl⟩
  · exact ⟨by decide +kernel, rfl, rfl⟩

/-- Two relays deliver both prices in order. -/
theorem newestWins_iff_inOrder :
    NewestWins
        (Transition.run (step publisherSecp)
          (init olderPrice.pubkey {} : RelayFeeds 2)
          [(0, olderPrice), (1, olderPrice), (0, newerPrice)]).hub
        [((0 : Fin 2), olderPrice), (1, olderPrice), (0, newerPrice)] ↔
      LastConsumedIsNewest [((0 : Fin 2), olderPrice), (1, olderPrice), (0, newerPrice)] :=
  newestWins_iff publisherSecp olderPrice.pubkey {} _ fun x hx =>
    consumable_prices x.2 (by
      have hall : ∀ y ∈ [((0 : Fin 2), olderPrice), (1, olderPrice), (0, newerPrice)],
          y.2 ∈ [olderPrice, newerPrice] := by decide +kernel
      exact hall x hx)

/-- The second relay lags behind and takes the newer price away. -/
theorem run_laggingRelay_overwrites :
    ¬ NewestWins
        (Transition.run (step publisherSecp)
          (init olderPrice.pubkey {} : RelayFeeds 2)
          [(0, newerPrice), (1, olderPrice)]).hub
        [((0 : Fin 2), newerPrice), (1, olderPrice)] := by
  intro hwins
  have hnew : IsNewest [((0 : Fin 2), newerPrice), (1, olderPrice)] newerPrice :=
    ⟨⟨0, List.mem_cons_self⟩, by decide⟩
  have hxs : ∀ x ∈ [((0 : Fin 2), newerPrice), (1, olderPrice)],
      Consumable publisherSecp x.2 := fun x hx =>
    consumable_prices x.2 (by
      have hall : ∀ y ∈ [((0 : Fin 2), newerPrice), (1, olderPrice)],
          y.2 ∈ [olderPrice, newerPrice] := by decide +kernel
      exact hall x hx)
  have hlast : lastConsumed "price:USD" [((0 : Fin 2), newerPrice), (1, olderPrice)] =
      some olderPrice := by decide
  have hshown := shownInSlot_run (seenInv_init olderPrice.pubkey {}) hxs
    (fun _ h => by cases h) olderPrice hlast
  have hnewer := (hwins newerPrice hnew _ rfl).prices "USD" "61000" rfl
  have holder := (hshown.shows _ rfl).prices "USD" "60000" rfl
  exact absurd (holder.symm.trans hnewer) (by decide)

end RelayFeeds

end Nostr

end BtClock
