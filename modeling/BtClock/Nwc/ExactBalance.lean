import BtClock.Nwc.TwinNotifications

/-!
# The balance as a number

A payment is added to the cached balance, or taken from it with its fees, in words of 64 bits.
The subtraction is guarded, the sums are not.
-/

namespace BtClock

namespace Nwc

open Transition

/-- The balance after a payment, as natural numbers. -/
def exactBalance (balance : ℕ) (pn : PaymentNotification) : ℕ :=
  match pn.direction with
  | .incoming => balance + pn.amountMsat.toNat
  | .outgoing => balance - (pn.amountMsat.toNat + pn.feesPaidMsat.toNat)
  | .unknown => balance

/-- The sum which the payment takes fits 64 bits: with the balance for an incoming payment, of
amount and fees for an outgoing one. -/
def SumFits (balance : ℕ) (pn : PaymentNotification) : Prop :=
  match pn.direction with
  | .incoming => balance + pn.amountMsat.toNat < 2 ^ 64
  | .outgoing => pn.amountMsat.toNat + pn.feesPaidMsat.toNat < 2 ^ 64
  | .unknown => True

/-- A payment of a notification or of a list of transactions. -/
def IsParsed (pn : PaymentNotification) : Prop :=
  (∃ root, decodePaymentNotification root = .ok pn) ∨
    ∃ root txs, decodeListTransactionsResponse root = .ok txs ∧ pn ∈ txs

theorem toNat_add_eq_iff (a b : UInt64) :
    (a + b).toNat = a.toNat + b.toNat ↔ a.toNat + b.toNat < 2 ^ 64 := by
  have hlt := (a + b).toNat_lt
  rw [UInt64.toNat_add] at hlt ⊢
  constructor
  · intro heq
    rwa [heq] at hlt
  · exact Nat.mod_eq_of_lt

/-- The guarded difference is that of the natural numbers. -/
theorem toNat_guarded_sub (a b : UInt64) :
    (if a > b then a - b else 0).toNat = a.toNat - b.toNat := by
  split
  · rename_i hgt
    exact UInt64.toNat_sub_of_le a b (UInt64.le_of_lt hgt)
  · rename_i hle
    have hnat : a.toNat ≤ b.toNat := UInt64.le_iff_toNat_le.mp (UInt64.not_lt.mp hle)
    rw [Nat.sub_eq_zero_of_le hnat]
    rfl

namespace NwcClient

/-- The payment is applied as natural numbers are, the sum of amount and fees included. -/
structure AppliesExactly (env : Env) (c : NwcClient) (pn : PaymentNotification) : Prop where
  balance : (c.applyPaymentToBalance env pn).1.balanceMsatCache.toNat =
    exactBalance c.balanceMsatCache.toNat pn
  total : pn.direction = .outgoing →
    (pn.amountMsat + pn.feesPaidMsat).toNat = pn.amountMsat.toNat + pn.feesPaidMsat.toNat

/-- The balance is exact exactly when the sums fit; the difference always is. -/
theorem balanceAfter_exact_iff (balance : UInt64) (pn : PaymentNotification) :
    ((balanceAfter balance pn).toNat = exactBalance balance.toNat pn ∧
      (pn.direction = .outgoing →
        (pn.amountMsat + pn.feesPaidMsat).toNat =
          pn.amountMsat.toNat + pn.feesPaidMsat.toNat)) ↔
      SumFits balance.toNat pn := by
  unfold balanceAfter exactBalance SumFits
  cases pn.direction with
  | unknown => simp
  | incoming =>
      dsimp only
      rw [toNat_add_eq_iff]
      simp
  | outgoing =>
      dsimp only
      rw [toNat_guarded_sub, toNat_add_eq_iff]
      constructor
      · rintro ⟨-, hfits⟩
        exact hfits rfl
      · intro hfits
        rw [(toNat_add_eq_iff _ _).mpr hfits]
        exact ⟨rfl, fun _ => hfits⟩

theorem balance_of_not_drops (env : Env) {c : NwcClient} {pn : PaymentNotification}
    (h : c.dropsPayment env pn = false) :
    (c.applyPaymentToBalance env pn).1.balanceMsatCache =
      balanceAfter c.balanceMsatCache pn := by
  rw [balance_applyPaymentToBalance, c.applyPaymentToBalance_hooks env h]
  rfl

/-- Unless it is dropped as a duplicate, a payment is applied exactly when its sum fits. -/
theorem appliesExactly_iff (env : Env) (c : NwcClient) (pn : PaymentNotification) :
    (c.dropsPayment env pn = false → c.AppliesExactly env pn) ↔
      (c.dropsPayment env pn = false → SumFits c.balanceMsatCache.toNat pn) := by
  refine imp_congr_right fun hnew => ?_
  rw [← balanceAfter_exact_iff, ← balance_of_not_drops env hnew]
  exact ⟨fun h => ⟨h.balance, h.total⟩, fun h => ⟨h.1, h.2⟩⟩

/-- Over a list of payments the balance is the exact one of those which were let through, as
long as each of them fits. -/
theorem applyPayments_exact (env : Env) {c : NwcClient} {pns : List PaymentNotification}
    (h : Along (fun c pn => (applyPaymentToBalance env c pn).1)
      (fun c pn => c.dropsPayment env pn = false → SumFits c.balanceMsatCache.toNat pn) c pns) :
    (c.applyPayments env pns).1.balanceMsatCache.toNat =
      (payments (c.applyPayments env pns).2).foldl exactBalance c.balanceMsatCache.toNat := by
  induction pns generalizing c with
  | nil => rfl
  | cons pn pns ih =>
      obtain ⟨hpn, hrest⟩ := h
      have hfirst : (c.applyPaymentToBalance env pn).1.balanceMsatCache.toNat =
          (payments (c.applyPaymentToBalance env pn).2).foldl exactBalance
            c.balanceMsatCache.toNat := by
        cases hdrop : c.dropsPayment env pn with
        | true =>
            rw [c.applyPaymentToBalance_of_drops env hdrop]
            rfl
        | false =>
            have hexact := (c.appliesExactly_iff env pn).mpr hpn hdrop
            rw [hexact.balance, c.applyPaymentToBalance_hooks env hdrop]
            rfl
      rw [applyPayments]
      dsimp only
      rw [payments_append, List.foldl_append, ← hfirst]
      exact ih hrest

end NwcClient

/-- The largest amount, as some servers write it. -/
def hugeNotification : Json :=
  .object
    [("notification_type", .string "payment_received"),
      ("notification", .object [("amount", .string "18446744073709551615")])]

def hugePayment : PaymentNotification where
  direction := .incoming
  amountMsat := 18446744073709551615

theorem isParsed_hugePayment : IsParsed hugePayment :=
  Or.inl ⟨some hugeNotification, by decide⟩

/-- On top of one millisatoshi it leaves a balance of nothing. -/
theorem not_appliesExactly_huge :
    ¬ ∀ (env : Env) (c : NwcClient) (pn : PaymentNotification), IsParsed pn →
      c.dropsPayment env pn = false → c.AppliesExactly env pn := by
  intro h
  have hexact := h {} { pairing := NwcCtx.demoPairing, balanceMsatCache := 1 } hugePayment
    isParsed_hugePayment rfl
  exact absurd hexact.balance (by decide)

end Nwc

end BtClock
