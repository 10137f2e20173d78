import Mathlib.Data.List.Basic
import Mathlib.Data.Nat.Notation

/-!
# Reading a stream in pieces

A script says what the reads of a connection give: items, which may be more than a read has room
for, or an error.  A read of no items is the end of the stream.
-/

namespace Reading

inductive Read (α ε : Type*)
  | got (items : List α)
  | failed (error : ε)
  deriving DecidableEq, Repr

variable {α ε : Type*}

def Read.items : Read α ε → List α
  | .got items => items
  | .failed _ => []

/-- The items which are still to be read. -/
def pending (rs : List (Read α ε)) : List α :=
  rs.flatMap Read.items

@[simp]
theorem pending_nil : pending ([] : List (Read α ε)) = [] :=
  rfl

@[simp]
theorem pending_got (items : List α) (rs : List (Read α ε)) :
    pending (.got items :: rs) = items ++ pending rs :=
  rfl

@[simp]
theorem pending_failed (error : ε) (rs : List (Read α ε)) :
    pending (.failed error :: rs) = pending rs :=
  rfl

/-- What is left of a piece is read next. -/
def putBack (items : List α) (rs : List (Read α ε)) : List (Read α ε) :=
  if items = [] then rs else .got items :: rs

@[simp]
theorem putBack_nil (rs : List (Read α ε)) : putBack [] rs = rs :=
  if_pos rfl

@[simp]
theorem pending_putBack (items : List α) (rs : List (Read α ε)) :
    pending (putBack items rs) = items ++ pending rs := by
  rw [putBack]
  split_ifs with h
  · simp [h]
  · rfl

/-- A read of at most `cap` items. -/
def recv (cap : ℕ) : List (Read α ε) → Read α ε × List (Read α ε)
  | [] => (.got [], [])
  | .got items :: rs => (.got (items.take cap), putBack (items.drop cap) rs)
  | .failed error :: rs => (.failed error, rs)

theorem length_recv_le {cap : ℕ} {rs rest : List (Read α ε)} {items : List α}
    (h : recv cap rs = (.got items, rest)) : items.length ≤ cap := by
  match rs with
  | [] =>
      cases h
      exact Nat.zero_le _
  | .got pieces :: rs =>
      cases h
      exact List.length_take_le cap pieces

/-- A piece which was read is read again. -/
theorem recv_recv (cap : ℕ) (rs : List (Read α ε)) :
    (recv cap [(recv cap rs).1]).1 = (recv cap rs).1 := by
  match rs with
  | [] =>
      change Read.got (([] : List α).take cap) = _
      rw [List.take_nil]
      rfl
  | .got items :: rs =>
      change Read.got ((items.take cap).take cap) = _
      rw [List.take_take, Nat.min_self]
      rfl
  | .failed error :: rs => rfl

/-- What is read and what is left make up what there was. -/
theorem items_append_pending_recv (cap : ℕ) (rs : List (Read α ε)) :
    (recv cap rs).1.items ++ pending (recv cap rs).2 = pending rs := by
  match rs with
  | [] => rfl
  | .got items :: rs =>
      change items.take cap ++ pending (putBack (items.drop cap) rs) = items ++ pending rs
      rw [pending_putBack, ← List.append_assoc, List.take_append_drop]
  | .failed error :: rs => rfl

/-! ### Where the reads of a stream are cut -/

/-- An error or the end comes before the first `n` items are read. -/
def BrokenBefore (n : ℕ) : List (Read α ε) → Prop
  | [] => 0 < n
  | .got items :: rs =>
      0 < n ∧ (items = [] ∨ items.length < n ∧ BrokenBefore (n - items.length) rs)
  | .failed _ :: _ => 0 < n

/-- No piece holds items from before and from behind the first `n`. -/
def CutAt (n : ℕ) : List (Read α ε) → Prop
  | [] => n = 0
  | .got items :: rs => n = 0 ∨ items.length ≤ n ∧ CutAt (n - items.length) rs
  | .failed _ :: rs => CutAt n rs

@[simp]
theorem cutAt_zero (rs : List (Read α ε)) : CutAt 0 rs := by
  induction rs with
  | nil => rfl
  | cons r rs ih =>
      cases r with
      | got items => exact Or.inl rfl
      | failed error => exact ih

theorem brokenBefore_got {n : ℕ} (hn : 0 < n) {items : List α} (hitems : items ≠ [])
    (rs : List (Read α ε)) :
    BrokenBefore n (.got items :: rs) ↔
      items.length < n ∧ BrokenBefore (n - items.length) rs := by
  simp only [BrokenBefore, hn, hitems, true_and, false_or]

theorem cutAt_got {n : ℕ} (hn : 0 < n) (items : List α) (rs : List (Read α ε)) :
    CutAt n (.got items :: rs) ↔ items.length ≤ n ∧ CutAt (n - items.length) rs := by
  simp only [CutAt, Nat.ne_of_gt hn, false_or]

/-- Two cuts of one stream. -/
theorem exists_eq_append_of_length_le {front back front' back' : List α}
    (h : front ++ back = front' ++ back') (hle : front.length ≤ front'.length) :
    ∃ middle, front' = front ++ middle ∧ back = middle ++ back' := by
  obtain ⟨middle, hfront, hback⟩ | ⟨middle, hfront, hback⟩ := List.append_eq_append_iff.mp h
  · exact ⟨middle, hfront, hback⟩
  · have hlength := congrArg List.length hfront
    rw [List.length_append] at hlength
    obtain rfl := List.eq_nil_of_length_eq_zero (show middle.length = 0 by omega)
    exact ⟨[], by simpa using hfront.symm, by simpa using hback.symm⟩

end Reading
