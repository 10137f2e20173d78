import BtClock.Nwc.WalletEvents
import BtClock.Transition.Emit

/-!
# The notification queue

A queue of bounded length between the task of the socket and the worker, under one lock.  An
operation is a step, except that a consumer which finds nothing waits and takes the lock again
when it is woken.
-/

namespace BtClock

namespace Nwc

open Nostr Transition

def kDefaultCapacity : ℕ := 8

/-- The queue, with the consumers which wait for an item. -/
structure NotificationQueue (ι α : Type*) where
  capacity : ℕ
  items : List α := []
  shutdown : Bool := false
  pushed : UInt32 := 0
  popped : UInt32 := 0
  dropped : UInt32 := 0
  waiting : List ι := []

/-- What a task does with the queue.  A waiting consumer is woken, by a producer, by the end of
its time or for no reason. -/
inductive QueueStep (ι α : Type*)
  | tryPush (item : α)
  | waitPop (consumer : ι)
  | wake (consumer : ι) (timedOut : Bool)
  | shutdown

/-- The results of the operations. -/
inductive QueueEvent (α : Type*)
  | accepted (item : α)
  | refused (item : α)
  | popped (item : α)
  | gaveUp

variable {ι α : Type*}

namespace QueueEvent

def acceptedItem : QueueEvent α → Option α
  | .accepted item => some item
  | _ => none

def refusedItem : QueueEvent α → Option α
  | .refused item => some item
  | _ => none

def poppedItem : QueueEvent α → Option α
  | .popped item => some item
  | _ => none

end QueueEvent

def acceptedItems (events : List (QueueEvent α)) : List α :=
  events.filterMap QueueEvent.acceptedItem

def refusedItems (events : List (QueueEvent α)) : List α :=
  events.filterMap QueueEvent.refusedItem

def poppedItems (events : List (QueueEvent α)) : List α :=
  events.filterMap QueueEvent.poppedItem

theorem filterMap_snoc {β γ : Type*} (f : β → Option γ) (log : List β) (e : β) :
    (log ++ [e]).filterMap f = log.filterMap f ++ (f e).toList := by
  cases h : f e with
  | none => simp [List.filterMap_append, h]
  | some item => simp [List.filterMap_append, h]

theorem acceptedItems_snoc (log : List (QueueEvent α)) (e : QueueEvent α) :
    acceptedItems (log ++ [e]) = acceptedItems log ++ e.acceptedItem.toList :=
  filterMap_snoc _ log e

theorem refusedItems_snoc (log : List (QueueEvent α)) (e : QueueEvent α) :
    refusedItems (log ++ [e]) = refusedItems log ++ e.refusedItem.toList :=
  filterMap_snoc _ log e

theorem poppedItems_snoc (log : List (QueueEvent α)) (e : QueueEvent α) :
    poppedItems (log ++ [e]) = poppedItems log ++ e.poppedItem.toList :=
  filterMap_snoc _ log e

namespace NotificationQueue

def new (capacity : ℕ) : NotificationQueue ι α where
  capacity := if capacity = 0 then kDefaultCapacity else capacity

def tryPush (q : NotificationQueue ι α) (item : α) :
    NotificationQueue ι α × List (QueueEvent α) :=
  if q.shutdown ∨ q.items.length ≥ q.capacity then
    ({ q with dropped := q.dropped + 1 }, [.refused item])
  else ({ q with items := q.items ++ [item], pushed := q.pushed + 1 }, [.accepted item])

theorem tryPush_of_refuses {q : NotificationQueue ι α}
    (h : q.shutdown = true ∨ q.capacity ≤ q.items.length) (item : α) :
    q.tryPush item = ({ q with dropped := q.dropped + 1 }, [.refused item]) :=
  if_pos h

theorem tryPush_of_room {q : NotificationQueue ι α} (hopen : q.shutdown = false)
    (hroom : q.items.length < q.capacity) (item : α) :
    q.tryPush item =
      ({ q with items := q.items ++ [item], pushed := q.pushed + 1 }, [.accepted item]) :=
  if_neg (by simp [hopen, hroom])

/-- The end of `WaitPop`, after the wait. -/
def pop (q : NotificationQueue ι α) : NotificationQueue ι α × List (QueueEvent α) :=
  match q.items with
  | [] => (q, [.gaveUp])
  | item :: items => ({ q with items := items, popped := q.popped + 1 }, [.popped item])

/-- The state of the queue against all that has happened to it. -/
structure Conserves (q : NotificationQueue ι α) (log : List (QueueEvent α)) : Prop where
  fifo : poppedItems log ++ q.items = acceptedItems log
  size_le : q.items.length ≤ q.capacity
  pushed : q.pushed = UInt32.ofNat (acceptedItems log).length
  dropped : q.dropped = UInt32.ofNat (refusedItems log).length

theorem conserves_new (capacity : ℕ) : (new capacity : NotificationQueue ι α).Conserves [] where
  fifo := rfl
  size_le := Nat.zero_le _
  pushed := rfl
  dropped := rfl

variable {q : NotificationQueue ι α} {log : List (QueueEvent α)}

theorem Conserves.append_nil (h : q.Conserves log) : q.Conserves (log ++ []) := by
  rwa [List.append_nil]

/-- One event more: what leaves was there first, and what comes goes to the end. -/
theorem Conserves.snoc (h : q.Conserves log) {q' : NotificationQueue ι α} (e : QueueEvent α)
    (hflow : e.poppedItem.toList ++ q'.items = q.items ++ e.acceptedItem.toList)
    (hsize : q'.items.length ≤ q'.capacity)
    (hpushed : q'.pushed = q.pushed + UInt32.ofNat e.acceptedItem.toList.length)
    (hdropped : q'.dropped = q.dropped + UInt32.ofNat e.refusedItem.toList.length) :
    q'.Conserves (log ++ [e]) where
  fifo := by
    rw [poppedItems_snoc, acceptedItems_snoc, List.append_assoc, hflow, ← List.append_assoc,
      h.fifo]
  size_le := hsize
  pushed := by
    rw [acceptedItems_snoc, List.length_append, UInt32.ofNat_add, ← h.pushed, hpushed]
  dropped := by
    rw [refusedItems_snoc, List.length_append, UInt32.ofNat_add, ← h.dropped, hdropped]

theorem Conserves.tryPush (h : q.Conserves log) (item : α) :
    (q.tryPush item).1.Conserves (log ++ (q.tryPush item).2) := by
  by_cases hrefuses : q.shutdown = true ∨ q.capacity ≤ q.items.length
  · rw [tryPush_of_refuses hrefuses]
    apply h.snoc (.refused item)
    · exact (List.append_nil q.items).symm
    · exact h.size_le
    · exact (UInt32.add_zero q.pushed).symm
    · rfl
  · obtain ⟨hopen, hroom⟩ := not_or.mp hrefuses
    have hlt : q.items.length < q.capacity := Nat.lt_of_not_le hroom
    rw [tryPush_of_room (Bool.eq_false_iff.mpr hopen) hlt]
    apply h.snoc (.accepted item)
    · rfl
    · rw [List.length_append]
      exact hlt
    · rfl
    · exact (UInt32.add_zero q.dropped).symm

theorem Conserves.pop (h : q.Conserves log) : q.pop.1.Conserves (log ++ q.pop.2) := by
  have hsize := h.size_le
  unfold NotificationQueue.pop
  split
  · rename_i hempty
    apply h.snoc .gaveUp
    · exact (List.append_nil q.items).symm
    · exact hsize
    · exact (UInt32.add_zero q.pushed).symm
    · exact (UInt32.add_zero q.dropped).symm
  · rename_i item items hitems
    rw [hitems] at hsize
    apply h.snoc (.popped item)
    · rw [hitems]
      exact (List.append_nil (item :: items)).symm
    · exact Nat.le_of_succ_le hsize
    · exact (UInt32.add_zero q.pushed).symm
    · exact (UInt32.add_zero q.dropped).symm

theorem shutdown_pop : q.pop.1.shutdown = q.shutdown := by
  unfold NotificationQueue.pop
  split
  · rfl
  · rfl

theorem acceptedItems_pop : acceptedItems q.pop.2 = [] := by
  unfold NotificationQueue.pop
  split
  · rfl
  · rfl

variable [DecidableEq ι]

def exec (q : NotificationQueue ι α) :
    QueueStep ι α → NotificationQueue ι α × List (QueueEvent α)
  | .tryPush item => q.tryPush item
  | .waitPop consumer =>
      if q.items.isEmpty ∧ ¬q.shutdown then ({ q with waiting := consumer :: q.waiting }, [])
      else q.pop
  | .wake consumer timedOut =>
      -- the condition is asked under the lock
      if consumer ∈ q.waiting ∧ (timedOut ∨ q.shutdown ∨ ¬q.items.isEmpty) then
        { q with waiting := q.waiting.erase consumer }.pop
      else (q, [])
  | .shutdown => ({ q with shutdown := true }, [])

/-- The queue after the steps of all the tasks, in the order in which they took the lock. -/
def after (capacity : ℕ) (steps : List (QueueStep ι α)) : NotificationQueue ι α :=
  reached exec (new capacity) steps

def events (capacity : ℕ) (steps : List (QueueStep ι α)) : List (QueueEvent α) :=
  emitted exec (new capacity) steps

/-- A bounded queue, first in first out, whose counters count in words of 32 bits. -/
structure BoundedFifo (capacity : ℕ) (steps : List (QueueStep ι α)) : Prop where
  fifo : poppedItems (events capacity steps) ++ (after capacity steps).items =
    acceptedItems (events capacity steps)
  size_le : (after capacity steps).items.length ≤ (after capacity steps).capacity
  pushed : (after capacity steps).pushed.toNat =
    (acceptedItems (events capacity steps)).length % 2 ^ 32
  dropped : (after capacity steps).dropped.toNat =
    (refusedItems (events capacity steps)).length % 2 ^ 32
  closed : ∀ pre post, steps = pre ++ .shutdown :: post →
    acceptedItems (events capacity steps) = acceptedItems (events capacity pre)

/-- The counters count without bound. -/
def CountsExactly (capacity : ℕ) (steps : List (QueueStep ι α)) : Prop :=
  (after capacity steps).pushed.toNat = (acceptedItems (events capacity steps)).length ∧
    (after capacity steps).dropped.toNat = (refusedItems (events capacity steps)).length

/-! ### Runs -/

theorem Conserves.exec (h : q.Conserves log) (step : QueueStep ι α) :
    (exec q step).1.Conserves (log ++ (exec q step).2) := by
  cases step with
  | tryPush item => exact h.tryPush item
  | waitPop consumer =>
      unfold NotificationQueue.exec
      dsimp only
      split
      · exact Conserves.append_nil ⟨h.fifo, h.size_le, h.pushed, h.dropped⟩
      · exact h.pop
  | wake consumer timedOut =>
      unfold NotificationQueue.exec
      dsimp only
      split
      · exact Conserves.pop ⟨h.fifo, h.size_le, h.pushed, h.dropped⟩
      · exact h.append_nil
  | shutdown => exact Conserves.append_nil ⟨h.fifo, h.size_le, h.pushed, h.dropped⟩

theorem conserves_after (capacity : ℕ) (steps : List (QueueStep ι α)) :
    (after capacity steps).Conserves (events capacity steps) :=
  emitted_invariant (fun _ _ step h => h.exec step) (conserves_new capacity) steps

/-- A queue which is shut down stays so and accepts nothing. -/
theorem exec_of_shutdown (h : q.shutdown = true) (step : QueueStep ι α) :
    (exec q step).1.shutdown = true ∧ acceptedItems (exec q step).2 = [] := by
  cases step with
  | tryPush item =>
      rw [exec, tryPush_of_refuses (Or.inl h)]
      exact ⟨h, rfl⟩
  | waitPop consumer =>
      unfold NotificationQueue.exec
      dsimp only
      split
      · exact ⟨h, rfl⟩
      · exact ⟨shutdown_pop.trans h, acceptedItems_pop⟩
  | wake consumer timedOut =>
      unfold NotificationQueue.exec
      dsimp only
      split
      · exact ⟨shutdown_pop.trans h, acceptedItems_pop⟩
      · exact ⟨h, rfl⟩
  | shutdown => exact ⟨rfl, rfl⟩

theorem acceptedItems_emitted_of_shutdown (h : q.shutdown = true)
    (steps : List (QueueStep ι α)) : acceptedItems (emitted exec q steps) = [] := by
  induction steps generalizing q with
  | nil => rfl
  | cons step steps ih =>
      obtain ⟨hnext, hnone⟩ := exec_of_shutdown h step
      have happend : acceptedItems ((exec q step).2 ++ emitted exec (exec q step).1 steps) =
          acceptedItems (exec q step).2 ++ acceptedItems (emitted exec (exec q step).1 steps) :=
        List.filterMap_append
      rw [emitted_cons, happend, hnone, ih hnext, List.append_nil]

/-- In every order of the operations the queue is bounded, and first in is first out. -/
theorem boundedFifo (capacity : ℕ) (steps : List (QueueStep ι α)) :
    BoundedFifo capacity steps where
  fifo := (conserves_after capacity steps).fifo
  size_le := (conserves_after capacity steps).size_le
  pushed := by
    rw [(conserves_after capacity steps).pushed]
    exact UInt32.toNat_ofNat'
  dropped := by
    rw [(conserves_after capacity steps).dropped]
    exact UInt32.toNat_ofNat'
  closed := by
    rintro pre post rfl
    have hclosed : acceptedItems (emitted exec (after capacity pre) (.shutdown :: post)) = [] :=
      acceptedItems_emitted_of_shutdown (q := { after capacity pre with shutdown := true }) rfl post
    have happend : acceptedItems (events capacity (pre ++ .shutdown :: post)) =
        acceptedItems (events capacity pre) ++
          acceptedItems (emitted exec (after capacity pre) (.shutdown :: post)) := by
      rw [events, emitted_append]
      exact List.filterMap_append
    rw [happend, hclosed, List.append_nil]

theorem emitted_refused (h : q.shutdown = true) (item : α) (n : ℕ) :
    emitted exec q (List.replicate n (.tryPush item)) = List.replicate n (.refused item) := by
  induction n generalizing q with
  | zero => rfl
  | succ n ih =>
      have hnext : emitted exec { q with dropped := q.dropped + 1 }
          (List.replicate n (.tryPush item)) = List.replicate n (.refused item) := ih h
      rw [List.replicate_succ, emitted_cons, exec, tryPush_of_refuses (Or.inl h)]
      dsimp only
      rw [hnext]
      rfl

def lateNotification : RawNotification where
  kind := kKindNotifModern
  content := ""
  eventId := ""

/-- The queue is shut down, and `n` more notifications come. -/
def lateNotifications (n : ℕ) : List (QueueStep ℕ RawNotification) :=
  .shutdown :: List.replicate n (.tryPush lateNotification)

theorem length_refusedItems_late (capacity n : ℕ) :
    (refusedItems (events capacity (lateNotifications n))).length = n := by
  have hevents : events capacity (lateNotifications n) =
      List.replicate n (.refused lateNotification) :=
    emitted_refused (q := { (new capacity : NotificationQueue ℕ RawNotification) with
      shutdown := true }) rfl lateNotification n
  have hitem : (QueueEvent.refused lateNotification).refusedItem = some lateNotification := rfl
  rw [hevents, refusedItems, List.filterMap_replicate_of_some hitem, List.length_replicate]

/-- When a counter of 32 bits has gone round, it counts none. -/
theorem not_countsExactly_late :
    ¬ ∀ (capacity : ℕ) (steps : List (QueueStep ℕ RawNotification)),
      CountsExactly capacity steps := by
  intro h
  have hexact := (h 8 (lateNotifications (2 ^ 32))).2
  rw [(conserves_after _ _).dropped, length_refusedItems_late] at hexact
  exact absurd hexact (by decide)

end NotificationQueue

namespace NwcCtx

/-- The queue of the context, which is never shut down. -/
def notificationQueue (ctx : NwcCtx) : NotificationQueue ℕ (RawNotification × Event) where
  capacity := kDefaultCapacity
  items := ctx.queue

theorem queue_tryPush (ctx : NwcCtx) (raw : RawNotification) (ev : Event) :
    (ctx.tryPush (some raw) ev).queue = (ctx.notificationQueue.tryPush (raw, ev)).1.items := by
  unfold NwcCtx.tryPush
  dsimp only
  by_cases hroom : ctx.queue.length < kQueueCapacity
  · rw [if_pos hroom, NotificationQueue.tryPush_of_room rfl hroom]
    rfl
  · rw [if_neg hroom, NotificationQueue.tryPush_of_refuses (Or.inr (Nat.le_of_not_lt hroom))]
    rfl

theorem queue_worker (lib : Library) (ctx : NwcCtx) (env : Env) :
    (ctx.exec lib (.worker env)).1.queue = ctx.notificationQueue.pop.1.items := by
  unfold exec NotificationQueue.pop notificationQueue
  dsimp only
  split
  · rename_i hempty
    simp [hempty]
  · rename_i raw ev queue hqueue
    simp [hqueue]

end NwcCtx

end Nwc

end BtClock
