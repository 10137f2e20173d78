import BtClock.Nwc.Client
import BtClock.Recency.Fifo
import Mathlib.Data.List.Rotate

/-!
# The ring of seen payments as a queue

Read from the place where it writes next, the ring is a queue with the oldest record first,
and a payment is served by it as a key is.
-/

namespace BtClock

namespace Nwc

open Transition

/-- A payment with the time at which the client meets it. -/
structure Sighting where
  payment : PaymentNotification
  now : ℕ

/-- What the ring records of it. -/
def Sighting.record (s : Sighting) : SeenPayment where
  hash := s.payment.paymentHash
  tsSecs := s.now

def Sighting.hash (s : Sighting) : String :=
  s.payment.paymentHash

/-- The record is of that payment, and not too old. -/
def SeenPayment.hits (e : SeenPayment) (s : Sighting) : Bool :=
  e.tsSecs ≠ 0 && e.hash == s.hash &&
    (s.now = 0 || (s.now + 2 ^ 64 - e.tsSecs) % 2 ^ 64 ≤ kDedupWindowSecs)

/-- The payments of a list which carry a hash, all met at one time. -/
def sightings (env : Env) (pns : List PaymentNotification) : List Sighting :=
  (pns.filter fun pn => pn.paymentHash != "").map fun pn =>
    { payment := pn, now := env.nowU64 }

namespace NwcClient

/-- The ring with the oldest record first. -/
def seenQueue (c : NwcClient) : List SeenPayment :=
  c.dedupRing.toList.rotate c.dedupNext

variable (env : Env) (c : NwcClient)

@[simp]
theorem length_seenQueue : c.seenQueue.length = kDedupRing := by
  simp [seenQueue, kDedupRing]

theorem mem_seenQueue {e : SeenPayment} : e ∈ c.seenQueue ↔ e ∈ c.dedupRing.toList :=
  List.mem_rotate

theorem isDuplicatePayment_eq (pn : PaymentNotification) :
    c.isDuplicatePayment env pn.paymentHash =
      Fifo.knows SeenPayment.hits c.seenQueue { payment := pn, now := env.nowU64 } := by
  rw [Bool.eq_iff_iff, Fifo.knows_eq_true_iff, isDuplicatePayment, List.any_eq_true]
  simp only [mem_seenQueue]
  rfl

theorem dropsPayment_eq_true_iff (pn : PaymentNotification) :
    c.dropsPayment env pn = true ↔
      pn.paymentHash ≠ "" ∧
        Fifo.knows SeenPayment.hits c.seenQueue { payment := pn, now := env.nowU64 } =
          true := by
  rw [dropsPayment, isDuplicatePayment_eq]
  simp

/-- To write into the ring and to go on by one place is to push. -/
theorem rotate_set (l : List SeenPayment) {i : ℕ} (hi : i < l.length) (e : SeenPayment) :
    (l.set i e).rotate (i + 1) = Fifo.push (l.rotate i) e := by
  have hle : i + 1 ≤ (l.set i e).length := by
    rw [List.length_set]
    exact hi
  have hne : l.drop i ≠ [] := by simp [hi]
  rw [List.rotate_eq_drop_append_take hle, List.rotate_eq_drop_append_take hi.le, Fifo.push,
    List.append_assoc, List.tail_append_of_ne_nil hne, List.tail_drop,
    List.drop_set_of_lt (Nat.lt_succ_self i), List.take_succ_eq_append_getElem hle,
    List.getElem_set_self, List.take_set_of_le (Nat.le_refl i)]

@[simp]
theorem seenQueue_notePayment (hash : String) :
    (c.notePayment env hash).seenQueue =
      Fifo.push c.seenQueue { hash := hash, tsSecs := env.nowU64 } := by
  have hlen : c.dedupRing.toList.length = 8 := by simp
  have hnext : ((c.dedupNext + 1 : Fin 8) : ℕ) = ((c.dedupNext : ℕ) + 1) % 8 := by
    simp [Fin.val_add]
  have hring : (c.notePayment env hash).dedupRing.toList =
      c.dedupRing.toList.set c.dedupNext { hash := hash, tsSecs := env.nowU64 } := by
    simp [notePayment, Vector.toList_set]
  have hrot : (c.notePayment env hash).seenQueue =
      (c.dedupRing.toList.set c.dedupNext { hash := hash, tsSecs := env.nowU64 }).rotate
        ((c.dedupNext : ℕ) + 1) := by
    rw [seenQueue, hring]
    show List.rotate _ ((c.dedupNext + 1 : Fin 8) : ℕ) = _
    rw [hnext]
    exact (congrArg _ (by rw [List.length_set, hlen])).trans (List.rotate_mod _ _)
  rw [hrot, rotate_set _ (by rw [hlen]; exact c.dedupNext.isLt)]
  rfl

/-! ### One payment after another -/

/-- A payment with a hash is served by the queue, one without a hash is not recorded. -/
theorem seenQueue_applyPaymentToBalance (pn : PaymentNotification) :
    (c.applyPaymentToBalance env pn).1.seenQueue =
      run (Fifo.serve SeenPayment.hits Sighting.record) c.seenQueue (sightings env [pn]) := by
  by_cases hhash : pn.paymentHash = ""
  · have hdrop : c.dropsPayment env pn = false := by simp [dropsPayment, hhash]
    have hsight : sightings env [pn] = [] := by simp [sightings, hhash]
    rw [hsight, run_nil]
    simp [applyPaymentToBalance, hdrop, hhash, seenQueue]
  · have hsight : sightings env [pn] = [{ payment := pn, now := env.nowU64 }] := by
      simp [sightings, hhash]
    rw [hsight, run_cons, run_nil]
    cases hdrop : c.dropsPayment env pn with
    | true =>
        rw [c.applyPaymentToBalance_of_drops env hdrop,
          Fifo.serve_of_knows ((c.dropsPayment_eq_true_iff env pn).mp hdrop).2]
    | false =>
        have hknows : Fifo.knows SeenPayment.hits c.seenQueue
            { payment := pn, now := env.nowU64 } = false := by
          rw [← isDuplicatePayment_eq]
          simpa [dropsPayment, hhash] using hdrop
        rw [Fifo.serve_of_not_knows hknows]
        have hnote : (c.applyPaymentToBalance env pn).1.seenQueue =
            (c.notePayment env pn.paymentHash).seenQueue := by
          simp [applyPaymentToBalance, hdrop, hhash, seenQueue]
        rw [hnote, seenQueue_notePayment]
        rfl

end NwcClient

end Nwc

end BtClock
