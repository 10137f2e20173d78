import BtClock.Data.Snapshot

/-!
# What a report leaves in the hub

A partial snapshot which is merged shows in the hub afterwards, and what the hub shows of
another report stays, as long as the two report different fields.  Only the prices and
the fee are considered here: these fields take whatever was reported last.
-/

namespace BtClock

namespace Data

namespace DataSnapshot

/-- Two doubles which are the same, or compare as equal. -/
def SameDouble (x y : Float) : Prop :=
  x = y ∨ (x == y) = true

theorem SameDouble.symm {x y : Float} (h : SameDouble x y) : SameDouble y x := by
  rcases h with rfl | h
  · exact .inl rfl
  · exact .inr (Double.beq_symm h)

theorem SameDouble.trans {x y z : Float} (h : SameDouble x y) (h' : SameDouble y z) :
    SameDouble x z := by
  rcases h with rfl | h
  · exact h'
  rcases h' with rfl | h'
  · exact .inr h
  · exact .inr (Double.beq_trans h h')

/-- The hub shows the prices and the fee of a partial snapshot. -/
structure Shows (hub p : DataSnapshot) : Prop where
  prices : ∀ ccy price, p.priceOf ccy = some price → hub.priceOf ccy = some price
  fee : ∀ fee, p.blockFee = some fee → hub.blockFee = some fee
  precise : ∀ fee, p.blockFeePrecise = some fee →
    ∃ shown, hub.blockFeePrecise = some shown ∧ SameDouble shown fee

/-- Two partial snapshots report the same prices and fee fields. -/
structure SameFields (p q : DataSnapshot) : Prop where
  prices : ∀ ccy, (p.priceOf ccy).isSome = (q.priceOf ccy).isSome
  fee : p.blockFee.isSome = q.blockFee.isSome
  precise : p.blockFeePrecise.isSome = q.blockFeePrecise.isSome

/-- No price and no fee field is reported by both. -/
structure OtherFields (p q : DataSnapshot) : Prop where
  prices : ∀ ccy, p.priceOf ccy = none ∨ q.priceOf ccy = none
  fee : p.blockFee = none ∨ q.blockFee = none
  precise : p.blockFeePrecise = none ∨ q.blockFeePrecise = none

theorem priceOf_of_no_prices {p : DataSnapshot} (h : p.prices = ∅) (ccy : String) :
    p.priceOf ccy = none := by
  rw [priceOf, h, AList.lookup_empty]

theorem lookup_foldl_mergePrice (entries : List ((_ : String) × String))
    (hnodup : entries.NodupKeys) (st : AList (fun _ : String => String) × Bool)
    (ccy : String) :
    (entries.foldl mergePrice st).1.lookup ccy =
      (entries.dlookup ccy).or (st.1.lookup ccy) := by
  induction entries generalizing st with
  | nil => simp
  | cons entry entries ih =>
      obtain ⟨hnot, hnodup'⟩ := List.nodupKeys_cons.mp hnodup
      rw [List.foldl_cons, ih hnodup']
      have hstep : (mergePrice st entry).1.lookup ccy =
          if ccy = entry.1 then some entry.2 else st.1.lookup ccy := by
        unfold mergePrice
        by_cases hccy : ccy = entry.1
        · subst hccy
          split
          · simp
          · rename_i heq
            simpa using heq
        · rw [if_neg hccy]
          split
          · exact AList.lookup_insert_ne hccy
          · rfl
      rw [hstep]
      obtain ⟨key, price⟩ := entry
      by_cases hccy : ccy = key
      · subst hccy
        have hnone : entries.dlookup ccy = none := List.dlookup_eq_none.mpr hnot
        simp [hnone]
      · rw [if_neg hccy, List.dlookup_cons_ne _ _ hccy]

/-- A reported price replaces the hub's; the other prices stay. -/
theorem priceOf_merge (hub p : DataSnapshot) (ccy : String) :
    (hub.merge p).1.priceOf ccy = (p.priceOf ccy).or (hub.priceOf ccy) :=
  lookup_foldl_mergePrice p.prices.entries p.prices.nodupKeys (hub.prices, false) ccy

theorem blockFee_merge (hub p : DataSnapshot) :
    (hub.merge p).1.blockFee = p.blockFee.or hub.blockFee := by
  simp only [merge, mergeBlockFee]
  cases p.blockFee with
  | none => rfl
  | some fee =>
      by_cases hfee : hub.blockFee = some fee
      · simp [hfee]
      · simp [hfee]

theorem blockFeePrecise_merge_none {hub p : DataSnapshot}
    (h : p.blockFeePrecise = none) :
    (hub.merge p).1.blockFeePrecise = hub.blockFeePrecise := by
  simp [merge, mergeBlockFeePrecise, h]

theorem blockFeePrecise_merge_some {hub p : DataSnapshot} {fee : Float}
    (h : p.blockFeePrecise = some fee) :
    ∃ shown, (hub.merge p).1.blockFeePrecise = some shown ∧ SameDouble shown fee := by
  simp only [merge, mergeBlockFeePrecise, h]
  cases hmine : hub.blockFeePrecise with
  | none => exact ⟨fee, rfl, .inl rfl⟩
  | some mine =>
      by_cases heq : (mine == fee) = true
      · exact ⟨mine, by simp [doubleDiffers, heq], .inr heq⟩
      · exact ⟨fee, by simp [doubleDiffers, heq], .inl rfl⟩

theorem shows_merge (hub p : DataSnapshot) : Shows (hub.merge p).1 p where
  prices ccy price h := by rw [priceOf_merge, h, Option.some_or]
  fee fee h := by rw [blockFee_merge, h, Option.some_or]
  precise _ h := blockFeePrecise_merge_some h

theorem Shows.merge {hub q : DataSnapshot} (h : Shows hub q) {p : DataSnapshot}
    (hother : OtherFields p q) : Shows (hub.merge p).1 q where
  prices ccy price hq := by
    rcases hother.prices ccy with hp | hnone
    · rw [priceOf_merge, hp, Option.none_or]
      exact h.prices ccy price hq
    · rw [hnone] at hq
      cases hq
  fee fee hq := by
    rcases hother.fee with hp | hnone
    · rw [blockFee_merge, hp, Option.none_or]
      exact h.fee fee hq
    · rw [hnone] at hq
      cases hq
  precise fee hq := by
    rcases hother.precise with hp | hnone
    · rw [blockFeePrecise_merge_none hp]
      exact h.precise fee hq
    · rw [hnone] at hq
      cases hq

/-- A hub which shows a report shows another report of the same fields exactly when the
two agree. -/
theorem Shows.iff_of_sameFields {hub p q : DataSnapshot} (h : Shows hub p)
    (hfields : SameFields p q) : Shows hub q ↔ Shows p q := by
  constructor
  · intro hq
    refine ⟨fun ccy price hprice => ?_, fun fee hfee => ?_, fun fee hfee => ?_⟩
    · obtain ⟨price', hp⟩ := Option.isSome_iff_exists.mp
        ((hfields.prices ccy).trans (by rw [hprice, Option.isSome_some]))
      have heq := (h.prices ccy price' hp).symm.trans (hq.prices ccy price hprice)
      rw [hp, heq]
    · obtain ⟨fee', hp⟩ := Option.isSome_iff_exists.mp
        (hfields.fee.trans (by rw [hfee, Option.isSome_some]))
      have heq := (h.fee fee' hp).symm.trans (hq.fee fee hfee)
      rw [hp, heq]
    · obtain ⟨fee', hp⟩ := Option.isSome_iff_exists.mp
        (hfields.precise.trans (by rw [hfee, Option.isSome_some]))
      obtain ⟨shown, hshown, hsame⟩ := h.precise fee' hp
      obtain ⟨shown', hshown', hsame'⟩ := hq.precise fee hfee
      have heq := Option.some.inj (hshown.symm.trans hshown')
      exact ⟨fee', hp, hsame.symm.trans (heq ▸ hsame')⟩
  · intro hpq
    refine ⟨fun ccy price hprice => ?_, fun fee hfee => ?_, fun fee hfee => ?_⟩
    · exact h.prices ccy price (hpq.prices ccy price hprice)
    · exact h.fee fee (hpq.fee fee hfee)
    · obtain ⟨fee', hp, hsame'⟩ := hpq.precise fee hfee
      obtain ⟨shown, hshown, hsame⟩ := h.precise fee' hp
      exact ⟨shown, hshown, hsame.trans hsame'⟩

end DataSnapshot

end Data

end BtClock
