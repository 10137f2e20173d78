import BtClock.Nostr.ZapIdLru
import Mathlib.Data.Finset.Basic
import Mathlib.Data.Finset.Dedup
import Mathlib.Data.List.DropRight

/-!
# The two containers of the ids

`ZapIdLru` keeps its ids twice: in a deque, for their order, and in a set, for the search.  Both
hold the same ids after any calls, and these are the last ones which were stored.
-/

namespace BtClock

namespace Nostr

namespace ZapIdLru

open Transition

structure Containers where
  deque : List String := []
  set : Finset String := ∅
  deriving DecidableEq

namespace Containers

/-- `set_.erase(deque_.front())` and `deque_.pop_front()`. -/
def evict (c : Containers) : Containers where
  deque := c.deque.tail
  set := c.set.erase (c.deque.headD "")

/-- `deque_.push_back(key)` and `set_.insert(key)`. -/
def pushBack (c : Containers) (key : String) : Containers where
  deque := c.deque ++ [key]
  set := insert key c.set

def markFresh (c : Containers) (eventId : String) : Bool × Containers :=
  if eventId = "" then (true, c)
  else if eventId ∈ c.set then (false, c)
  else (true, (if kCap ≤ c.deque.length then c.evict else c).pushBack eventId)

end Containers

/-- The containers, and the ids for which the answer was `true`. -/
structure History where
  containers : Containers := {}
  accepted : List String := []

namespace History

def call (h : History) (eventId : String) : History where
  containers := (h.containers.markFresh eventId).2
  accepted :=
    if (h.containers.markFresh eventId).1 then h.accepted ++ [eventId] else h.accepted

/-- The accepted ids which are stored. -/
def stored (h : History) : List String :=
  h.accepted.filter (· ≠ "")

/-- The containers hold the last ids which were stored. -/
structure Exact (h : History) : Prop where
  deque : h.containers.deque = h.stored.rtake kCap
  set : h.containers.set = h.containers.deque.toFinset
  nodup : h.containers.deque.Nodup

end History

/-! ### The last elements -/

theorem length_rtake_le (n : ℕ) (l : List String) : (l.rtake n).length ≤ n := by
  rw [List.rtake, List.length_drop]
  omega

theorem rtake_of_length_le {n : ℕ} {l : List String} (h : l.length ≤ n) : l.rtake n = l := by
  rw [List.rtake, Nat.sub_eq_zero_of_le h, List.drop_zero]

/-- Where there is no room the first of the last elements leaves. -/
theorem tail_rtake_succ {n : ℕ} {l : List String} (h : n + 1 ≤ l.length) :
    (l.rtake (n + 1)).tail = l.rtake n := by
  rw [List.rtake, List.rtake, List.tail_drop]
  congr 1
  omega

/-! ### A call -/

namespace History

variable {h : History} {eventId : String}

theorem call_of_eq_empty (h : History) :
    (h.call "").containers = h.containers ∧ (h.call "").stored = h.stored := by
  have hmark : h.containers.markFresh "" = (true, h.containers) := if_pos rfl
  refine ⟨by rw [call, hmark], ?_⟩
  rw [stored, call, hmark]
  simp [stored]

theorem call_of_mem (hne : eventId ≠ "") (hmem : eventId ∈ h.containers.set) :
    h.call eventId = h := by
  have hmark : h.containers.markFresh eventId = (false, h.containers) :=
    (if_neg hne).trans (if_pos hmem)
  rw [call, hmark]
  rfl

theorem call_of_notMem (hne : eventId ≠ "") (hmem : eventId ∉ h.containers.set) :
    (h.call eventId).containers =
        (if kCap ≤ h.containers.deque.length then h.containers.evict
          else h.containers).pushBack eventId ∧
      (h.call eventId).stored = h.stored ++ [eventId] := by
  have hmark : h.containers.markFresh eventId = (true,
      (if kCap ≤ h.containers.deque.length then h.containers.evict
        else h.containers).pushBack eventId) :=
    (if_neg hne).trans (if_neg hmem)
  refine ⟨by rw [call, hmark], ?_⟩
  rw [stored, call, hmark]
  simp [stored, hne]

/-! ### The invariant -/

theorem exact_start : Exact {} where
  deque := rfl
  set := rfl
  nodup := List.nodup_nil

theorem toFinset_tail {l : List String} (hne : l ≠ []) (hnodup : l.Nodup) :
    l.toFinset.erase (l.headD "") = l.tail.toFinset := by
  obtain ⟨key, rest, rfl⟩ := List.exists_cons_of_ne_nil hne
  have hkey : key ∉ rest.toFinset := by
    rw [List.mem_toFinset]
    exact (List.nodup_cons.mp hnodup).1
  rw [List.headD_cons, List.tail_cons, List.toFinset_cons, Finset.erase_insert hkey]

/-- The oldest id leaves both containers, and all but the last ids are gone. -/
theorem Exact.room (hexact : Exact h) :
    (if kCap ≤ h.containers.deque.length then h.containers.evict else h.containers).deque =
        h.stored.rtake (kCap - 1) ∧
      (if kCap ≤ h.containers.deque.length then h.containers.evict else h.containers).set =
        (h.stored.rtake (kCap - 1)).toFinset := by
  have hcap : kCap = kCap - 1 + 1 := rfl
  split_ifs with hfull
  · have hlong : kCap ≤ h.stored.length := by
      rw [hexact.deque, List.rtake, List.length_drop] at hfull
      have hpos : 0 < kCap := by decide
      omega
    have htail : h.containers.deque.tail = h.stored.rtake (kCap - 1) := by
      rw [hexact.deque, hcap]
      exact tail_rtake_succ hlong
    have hne : h.containers.deque ≠ [] := by
      intro hnil
      rw [hnil] at hfull
      exact absurd hfull (by decide)
    refine ⟨htail, ?_⟩
    rw [← htail, ← toFinset_tail hne hexact.nodup, ← hexact.set]
    rfl
  · have hshort : h.stored.length ≤ kCap - 1 := by
      rw [hexact.deque, List.rtake, List.length_drop] at hfull
      omega
    have hall : h.containers.deque = h.stored.rtake (kCap - 1) := by
      rw [hexact.deque, rtake_of_length_le hshort, rtake_of_length_le (by omega)]
    exact ⟨hall, by rw [hexact.set, hall]⟩

theorem Exact.call (hexact : Exact h) (eventId : String) : Exact (h.call eventId) := by
  by_cases hne : eventId = ""
  · subst hne
    obtain ⟨hcontainers, hstored⟩ := call_of_eq_empty h
    exact ⟨by rw [hcontainers, hstored, hexact.deque], by rw [hcontainers, hexact.set],
      by rw [hcontainers]; exact hexact.nodup⟩
  by_cases hmem : eventId ∈ h.containers.set
  · rwa [call_of_mem hne hmem]
  obtain ⟨hcontainers, hstored⟩ := call_of_notMem hne hmem
  obtain ⟨hdeque, hset⟩ := hexact.room
  have hcap : kCap = kCap - 1 + 1 := rfl
  have hdeque' : (h.call eventId).containers.deque = h.stored.rtake (kCap - 1) ++ [eventId] := by
    rw [hcontainers, Containers.pushBack, hdeque]
  refine ⟨?_, ?_, ?_⟩
  · rw [hdeque', hstored, hcap, List.rtake_concat_succ, ← hcap]
  · rw [hdeque', hcontainers, Containers.pushBack, hset]
    ext key
    rw [Finset.mem_insert, List.mem_toFinset, List.mem_toFinset, List.mem_append,
      List.mem_singleton, or_comm]
  · rw [hdeque']
    have hsub : List.Sublist (h.stored.rtake (kCap - 1)) h.containers.deque := by
      rw [hexact.deque]
      exact List.drop_sublist_drop_left _ (Nat.sub_le_sub_left (Nat.sub_le kCap 1) _)
    have hnew : eventId ∉ h.stored.rtake (kCap - 1) := fun hin =>
      hmem (hexact.set ▸ List.mem_toFinset.mpr (hsub.subset hin))
    rw [← List.concat_eq_append, List.nodup_concat]
    exact ⟨hnew, hexact.nodup.sublist hsub⟩

/-- The history after some calls. -/
def after (calls : List String) : History :=
  run call {} calls

theorem exact_after (calls : List String) : (after calls).Exact :=
  run_invariant (I := Exact) (fun _ eventId hexact => hexact.call eventId) exact_start calls

theorem Exact.markFresh_eq_false_iff (hexact : Exact h) (hne : eventId ≠ "") :
    (h.containers.markFresh eventId).1 = false ↔ eventId ∈ h.stored.rtake kCap := by
  have hmem : eventId ∈ h.containers.set ↔ eventId ∈ h.stored.rtake kCap := by
    rw [hexact.set, List.mem_toFinset, hexact.deque]
  rw [← hmem, Containers.markFresh, if_neg hne]
  split_ifs with hin
  · exact iff_of_true rfl hin
  · exact iff_of_false (fun hfalse => absurd hfalse (by decide)) hin

/-! ### The recent set -/

/-- Both containers hold the same ids, at most 64 of them, and an id which is not empty is refused
iff it is one of the last 64 which were stored.  The empty id is fresh at all times and is not
stored. -/
structure RecentSet (h : History) : Prop where
  same : h.containers.set = h.containers.deque.toFinset
  distinct : h.containers.deque.Nodup
  bounded : h.containers.deque.length ≤ kCap
  refused eventId : eventId ≠ "" →
    ((h.containers.markFresh eventId).1 = false ↔ eventId ∈ h.stored.rtake kCap)
  recent_distinct : (h.stored.rtake kCap).Nodup
  empty : h.containers.markFresh "" = (true, h.containers)

theorem recentSet_after (calls : List String) : RecentSet (after calls) where
  same := (exact_after calls).set
  distinct := (exact_after calls).nodup
  bounded := (exact_after calls).deque ▸ length_rtake_le kCap _
  refused _ := (exact_after calls).markFresh_eq_false_iff
  recent_distinct := (exact_after calls).deque ▸ (exact_after calls).nodup
  empty := if_pos rfl

/-- The empty id was accepted, and is accepted again. -/
theorem empty_accepted_twice :
    ¬∀ calls eventId, ((after calls).containers.markFresh eventId).1 = false ↔
      eventId ∈ (after calls).accepted.rtake kCap := by
  intro hclaim
  have haccepted : "" ∈ (after [""]).accepted.rtake kCap := by decide
  exact absurd ((hclaim [""] "").mpr haccepted) (by decide)

/-! ### The queue of the handlers -/

/-- The containers answer as the queue does. -/
theorem markFresh_represents {lru : ZapIdLru} {c : Containers} (hdeque : c.deque = lru.ids)
    (hset : c.set = c.deque.toFinset) :
    (c.markFresh eventId).1 = (lru.markFresh eventId).1 ∧
      (c.markFresh eventId).2.deque = (lru.markFresh eventId).2.ids := by
  have hmem : eventId ∈ c.set ↔ eventId ∈ lru.ids := by
    rw [hset, List.mem_toFinset, hdeque]
  unfold Containers.markFresh ZapIdLru.markFresh
  simp only [hmem, hdeque]
  split_ifs
  · exact ⟨rfl, hdeque⟩
  · exact ⟨rfl, hdeque⟩
  · exact ⟨rfl, by rw [Containers.pushBack, Containers.evict, hdeque]⟩
  · exact ⟨rfl, by rw [Containers.pushBack, hdeque]⟩

/-- After the same calls the containers hold the ids of the queue. -/
theorem deque_after (calls : List String) :
    (after calls).containers.deque =
      (run (fun lru eventId => (markFresh lru eventId).2) {} calls).ids := by
  induction calls using List.reverseRecOn with
  | nil => rfl
  | append_singleton calls eventId ih =>
      rw [after, run_append_singleton, run_append_singleton]
      exact (markFresh_represents ih (exact_after calls).set).2

end History

end ZapIdLru

end Nostr

end BtClock
