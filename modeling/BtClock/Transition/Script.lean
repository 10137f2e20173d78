import Mathlib.Data.Nat.Basic

/-!
# Programs of tasks which share state

A task runs its program one atomic action after another.  Between two of them the other tasks may
change what is shared.  This file gives the programs, a step of one, and the assertion that a
program meets its postcondition whatever the others do within a rely condition.
-/

namespace Transition

universe u

/-- A program with the shared state `ρ` and a state `σ` of its own. -/
inductive Script (ρ σ α : Type u) : Type u
  | done (a : α)
  /-- An atomic look at the shared state. -/
  | ask (k : ρ → Script ρ σ α)
  /-- A look at its own state. -/
  | own (k : σ → Script ρ σ α)
  /-- An atomic change of its own state, which may read the shared one. -/
  | act (f : ρ → σ → σ) (p : Script ρ σ α)
  | pause (ms : ℕ) (p : Script ρ σ α)

namespace Script

variable {ρ σ α β γ : Type u}

def bind (p : Script ρ σ α) (next : α → Script ρ σ β) : Script ρ σ β :=
  match p with
  | .done a => next a
  | .ask k => .ask fun r => (k r).bind next
  | .own k => .own fun s => (k s).bind next
  | .act f p => .act f (p.bind next)
  | .pause ms p => .pause ms (p.bind next)

instance : Monad (Script ρ σ) where
  pure := done
  bind := bind

/-- The body for 0 up to `n - 1`, in this order. -/
def upTo (n : ℕ) (body : ℕ → Script ρ σ PUnit) : Script ρ σ PUnit :=
  match n with
  | 0 => pure ⟨⟩
  | n + 1 => do
    upTo n body
    body n

/-! ### Running -/

/-- Whether the next action is a look at the shared state. -/
def asks : Script ρ σ α → Bool
  | ask _ => true
  | _ => false

/-- One action. -/
def next (r : ρ) (s : σ) : Script ρ σ α → σ × Script ρ σ α
  | done a => (s, done a)
  | ask k => (s, k r)
  | own k => (s, k s)
  | act f p => (f r s, p)
  | pause _ p => (s, p)

/-! ### Assertions -/

/-- While the shared state meets `R` the own state meets `I`, and at the end `Q` holds. -/
inductive Meets (R : ρ → Prop) (I : σ → Prop) (Q : α → σ → Prop) : Script ρ σ α → σ → Prop
  | done {a : α} {s : σ} (hI : I s) (hQ : Q a s) : Meets R I Q (.done a) s
  | ask {k : ρ → Script ρ σ α} {s : σ} (hI : I s) (h : ∀ r, R r → Meets R I Q (k r) s) :
      Meets R I Q (.ask k) s
  | own {k : σ → Script ρ σ α} {s : σ} (hI : I s) (h : Meets R I Q (k s) s) :
      Meets R I Q (.own k) s
  | act {f : ρ → σ → σ} {p : Script ρ σ α} {s : σ} (hI : I s)
      (h : ∀ r, R r → Meets R I Q p (f r s)) : Meets R I Q (.act f p) s
  | pause {ms : ℕ} {p : Script ρ σ α} {s : σ} (hI : I s) (h : Meets R I Q p s) :
      Meets R I Q (.pause ms p) s

variable {R R' : ρ → Prop} {I I' : σ → Prop} {Q Q' : α → σ → Prop} {p : Script ρ σ α} {s : σ}

theorem Meets.here (h : p.Meets R I Q s) : I s := by
  cases h <;> assumption

theorem Meets.of_done {a : α} (h : (Script.done a : Script ρ σ α).Meets R I Q s) : Q a s := by
  cases h with
  | done _ hQ => exact hQ

theorem Meets.next {r : ρ} (h : p.Meets R I Q s) (hr : R r) :
    (p.next r s).2.Meets R I Q (p.next r s).1 := by
  cases h with
  | done hI hQ => exact .done hI hQ
  | ask _ h => exact h r hr
  | own _ h => exact h
  | act _ h => exact h r hr
  | pause _ h => exact h

theorem Meets.mono (h : p.Meets R I Q s) (hR : ∀ r, R' r → R r) (hI : ∀ s, I s → I' s)
    (hQ : ∀ a s, Q a s → Q' a s) : p.Meets R' I' Q' s := by
  induction h with
  | done h hq => exact .done (hI _ h) (hQ _ _ hq)
  | ask h _ ih => exact .ask (hI _ h) fun r hr => ih r (hR r hr)
  | own h _ ih => exact .own (hI _ h) ih
  | act h _ ih => exact .act (hI _ h) fun r hr => ih r (hR r hr)
  | pause h _ ih => exact .pause (hI _ h) ih

theorem Meets.weaken (h : p.Meets R I Q s) (hQ : ∀ a s, Q a s → Q' a s) : p.Meets R I Q' s :=
  h.mono (fun _ => id) (fun _ => id) hQ

/-- The rule for composition. -/
theorem Meets.bind {next : α → Script ρ σ β} {Q' : β → σ → Prop} (h : p.Meets R I Q s)
    (hnext : ∀ a s, Q a s → (next a).Meets R I Q' s) : (p >>= next).Meets R I Q' s := by
  change (Script.bind p next).Meets R I Q' s
  induction h with
  | done _ hQ => exact hnext _ _ hQ
  | ask hI _ ih => exact .ask hI ih
  | own hI _ ih => exact .own hI ih
  | act hI _ ih => exact .act hI ih
  | pause hI _ ih => exact .pause hI ih

/-- The rule for loops. -/
theorem Meets.upTo {J : ℕ → σ → Prop} {n : ℕ} {body : ℕ → Script ρ σ PUnit}
    (h : ∀ i < n, ∀ s, J i s → (body i).Meets R I (fun _ => J (i + 1)) s) (hI : I s)
    (hs : J 0 s) : (Script.upTo n body).Meets R I (fun _ => J n) s := by
  induction n with
  | zero => exact .done hI hs
  | succ n ih =>
      exact (ih fun i hi => h i (Nat.lt_succ_of_lt hi)).bind fun _ s hJ =>
        h n (Nat.lt_succ_self n) s hJ

/-- A program which is left alone meets the trivial assertion. -/
theorem meets_true (R : ρ → Prop) (p : Script ρ σ α) (s : σ) :
    p.Meets R (fun _ => True) (fun _ _ => True) s := by
  induction p generalizing s with
  | done a => exact .done trivial trivial
  | ask k ih => exact .ask trivial fun r _ => ih r s
  | own k ih => exact .own trivial (ih s s)
  | act f p ih => exact .act trivial fun r _ => ih (f r s)
  | pause ms p ih => exact .pause trivial (ih s)

end Script

end Transition
