import Mathlib.Data.List.Range
import Mathlib.Data.Nat.Notation
import Mathlib.Logic.Function.Basic

/-!
# Passes which write over what they have read

A loop with two indices reads a text and writes its output into the same memory.  It writes one
element for one or more which it has read, so the writing index stays behind the reading one, and
the output is what a loop would write which leaves the text alone.
-/

namespace Reading

/-- What the loop does where it reads: the text ends there, or is refused, or an element is
written for the one which is read and for `skip` behind it. -/
inductive Move (α : Type*)
  | stop
  | fail
  | write (a : α) (skip : ℕ)
  deriving DecidableEq, Repr

structure Pass (α : Type*) where
  memory : ℕ → α
  r : ℕ
  w : ℕ

namespace Pass

variable {α : Type*}

/-- What is read from the reading index on. -/
def rest (p : Pass α) : ℕ → α :=
  fun k => p.memory (p.r + k)

def written (p : Pass α) : List α :=
  (List.range p.w).map p.memory

def put (p : Pass α) (a : α) (skip : ℕ) : Pass α where
  memory := Function.update p.memory p.w a
  r := p.r + (skip + 1)
  w := p.w + 1

section

variable (look : (ℕ → α) → Move α)

/-- The loop, and whether it came to the end of the text. -/
def run : ℕ → Pass α → Option (Bool × Pass α)
  | 0, _ => none
  | fuel + 1, p =>
      match look p.rest with
      | .stop => some (true, p)
      | .fail => some (false, p)
      | .write a skip => run fuel (p.put a skip)

/-- The passes which the loop goes through. -/
inductive Reaches (p : Pass α) : Pass α → Prop
  | refl : Reaches p p
  | step {q : Pass α} {a : α} {skip : ℕ} (h : Reaches p q) (hlook : look q.rest = .write a skip) :
      Reaches p (q.put a skip)

end

/-- The output of a loop which does not write over the text. -/
def scan (look : (ℕ → α) → Move α) : ℕ → (ℕ → α) → Option (Bool × List α)
  | 0, _ => none
  | fuel + 1, text =>
      match look text with
      | .stop => some (true, [])
      | .fail => some (false, [])
      | .write a skip =>
          (scan look fuel fun k => text (skip + 1 + k)).map fun (ok, out) => (ok, a :: out)

variable {look : (ℕ → α) → Move α} {p q : Pass α} {a : α} {skip fuel : ℕ}

theorem memory_put (p : Pass α) (a : α) (skip : ℕ) :
    (p.put a skip).memory = Function.update p.memory p.w a :=
  rfl

/-- What is still to be read is as it was. -/
theorem rest_put (h : p.w ≤ p.r) (a : α) (skip : ℕ) :
    (p.put a skip).rest = fun k => p.rest (skip + 1 + k) := by
  funext k
  have hr : (p.put a skip).r = p.r + (skip + 1) := rfl
  rw [rest, rest, memory_put, hr, Function.update_of_ne (by omega), Nat.add_assoc]

theorem written_put (p : Pass α) (a : α) (skip : ℕ) :
    (p.put a skip).written = p.written ++ [a] := by
  have hw : (p.put a skip).w = p.w + 1 := rfl
  rw [written, memory_put, hw, List.range_succ, List.map_append, List.map_singleton,
    Function.update_self]
  congr 1
  apply List.map_congr_left
  intro i hi
  rw [Function.update_of_ne (Nat.ne_of_lt (List.mem_range.mp hi))]

theorem Reaches.le (h : Reaches look p q) (hp : p.w ≤ p.r) : q.w ≤ q.r := by
  induction h with
  | refl => exact hp
  | @step q a skip _ _ ih =>
      simp only [put]
      omega

theorem Reaches.head (hlook : look p.rest = .write a skip)
    (h : Reaches look (p.put a skip) q) : Reaches look p q := by
  induction h with
  | refl => exact .step .refl hlook
  | step _ hlook' ih => exact .step ih hlook'

theorem reaches_of_run {ok : Bool} (h : p.run look fuel = some (ok, q)) : Reaches look p q := by
  induction fuel generalizing p with
  | zero => cases h
  | succ fuel ih =>
      rw [run] at h
      cases hlook : look p.rest with
      | stop =>
          rw [hlook] at h
          cases h
          exact .refl
      | fail =>
          rw [hlook] at h
          cases h
          exact .refl
      | write a skip =>
          rw [hlook] at h
          exact .head hlook (ih h)

/-- The two loops write the same. -/
theorem run_eq_scan (look : (ℕ → α) → Move α) (fuel : ℕ) (h : p.w ≤ p.r) :
    (p.run look fuel).map (fun (ok, q) => (ok, q.written)) =
      (scan look fuel p.rest).map fun (ok, out) => (ok, p.written ++ out) := by
  induction fuel generalizing p with
  | zero => rfl
  | succ fuel ih =>
      rw [run, scan]
      cases hlook : look p.rest with
      | stop => simp
      | fail => simp
      | write a skip =>
          have hle : (p.put a skip).w ≤ (p.put a skip).r := by
            simp only [put]
            omega
          simp only [ih hle, rest_put h, written_put, Option.map_map, Function.comp_def,
            List.append_assoc, List.singleton_append]

end Pass

end Reading
