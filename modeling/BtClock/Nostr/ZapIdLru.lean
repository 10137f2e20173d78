import BtClock.Nostr.Handlers
import BtClock.Recency.Fifo

/-!
# The ids of the zaps which were shown

`ZapIdLru` remembers the last ids which were marked.  It is a queue of fixed length, whose places
are empty at first.
-/

namespace BtClock

namespace Nostr

open Transition

def ZapIdLru.kCap : ℕ := 64

/-- The ids in the order in which they came.  The set of the source holds the same ids. -/
structure ZapIdLru where
  ids : List String := []
  hlength : ids.length ≤ ZapIdLru.kCap := by decide
  deriving DecidableEq

namespace ZapIdLru

/-- Is the id new?  The oldest id leaves when there is no room for it. -/
def markFresh (lru : ZapIdLru) (eventId : String) : Bool × ZapIdLru :=
  if eventId = "" then (true, lru)
  else if eventId ∈ lru.ids then (false, lru)
  else if hfull : kCap ≤ lru.ids.length then
    (true,
      { ids := lru.ids.tail ++ [eventId]
        hlength := by
          have hlength := lru.hlength
          rw [List.length_append, List.length_tail, List.length_singleton]
          rw [kCap] at *
          omega })
  else
    (true,
      { ids := lru.ids ++ [eventId]
        hlength := by
          rw [List.length_append, List.length_singleton]
          omega })

/-- A place of the queue holds the id. -/
def hits (place : Option String) (id : String) : Bool :=
  place == some id

def queue (lru : ZapIdLru) : List (Option String) :=
  List.replicate (kCap - lru.ids.length) none ++ lru.ids.map some

theorem length_queue (lru : ZapIdLru) : lru.queue.length = kCap := by
  have hlength := lru.hlength
  rw [queue, List.length_append, List.length_replicate, List.length_map]
  omega

theorem knows_queue_iff (lru : ZapIdLru) (id : String) :
    Fifo.knows hits lru.queue id = true ↔ id ∈ lru.ids := by
  simp [Fifo.knows_eq_true_iff, queue, hits]

/-- An id is new where the queue does not know it. -/
theorem markFresh_fst (lru : ZapIdLru) {id : String} (hid : id ≠ "") :
    (lru.markFresh id).1 = !Fifo.knows hits lru.queue id := by
  have hknows := knows_queue_iff lru id
  rw [markFresh, if_neg hid]
  split_ifs with hmem hfull
  · rw [hknows.mpr hmem]
    rfl
  · rw [Bool.eq_false_iff.mpr (mt hknows.mp hmem)]
    rfl
  · rw [Bool.eq_false_iff.mpr (mt hknows.mp hmem)]
    rfl

theorem queue_markFresh (lru : ZapIdLru) {id : String} (hid : id ≠ "") :
    (lru.markFresh id).2.queue = Fifo.serve hits some lru.queue id := by
  have hknows := knows_queue_iff lru id
  have hlength := lru.hlength
  rw [markFresh, if_neg hid]
  split_ifs with hmem hfull
  · rw [Fifo.serve_of_knows (hknows.mpr hmem)]
  · rw [Fifo.serve_of_not_knows (Bool.eq_false_iff.mpr (mt hknows.mp hmem)), Fifo.push]
    have hzero : kCap - lru.ids.length = 0 := Nat.sub_eq_zero_of_le hfull
    have hne : lru.ids ≠ [] := fun h => by rw [h] at hfull; exact absurd hfull (by decide)
    have hlast : kCap - (lru.ids.tail ++ [id]).length = 0 := by
      have hpos := List.length_pos_iff.mpr hne
      rw [List.length_append, List.length_tail, List.length_singleton]
      omega
    rw [queue, queue, hzero, hlast, List.replicate_zero, List.nil_append, List.nil_append,
      List.map_append, List.map_tail, List.tail_append_of_ne_nil (by simpa using hne)]
    rfl
  · rw [Fifo.serve_of_not_knows (Bool.eq_false_iff.mpr (mt hknows.mp hmem)), Fifo.push]
    have hroom : kCap - lru.ids.length = kCap - (lru.ids ++ [id]).length + 1 := by
      rw [List.length_append, List.length_singleton]
      omega
    rw [queue, queue, hroom, List.replicate_succ, List.cons_append, List.cons_append,
      List.tail_cons, List.map_append, List.append_assoc]
    rfl

/-- An id which is marked stays known while fewer than 64 new ones come. -/
theorem knows_run {q : List (Option String)} {id : String} {ids : List String}
    (hnew : Fifo.knows hits q id = false)
    (hfew : (Fifo.newcomers hits some (Fifo.push q (some id)) ids).length < q.length) :
    Fifo.knows hits (run (Fifo.serve hits some) (Fifo.push q (some id)) ids) id = true := by
  have hsplit : Fifo.newcomers hits some q (id :: ids) =
      [] ++ id :: Fifo.newcomers hits some (Fifo.push q (some id)) ids :=
    Fifo.newcomers_cons_of_not_knows hnew
  have hknown := Fifo.knows_run_of_split hsplit hfew (beq_self_eq_true (some id))
  rwa [run_cons, Fifo.serve_of_not_knows hnew] at hknown

end ZapIdLru

end Nostr

end BtClock
