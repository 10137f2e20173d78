import BtClock.Transition.Run

/-!
# A queue which remembers the latest keys

A queue of fixed length remembers what was seen lately.  A key which is hit by an entry of
the queue is known and leaves it alone.  Any other key is a newcomer, and its entry pushes
the oldest one out.
-/

namespace Fifo

open Transition

variable {ε κ : Type*}

/-- The entry comes in at the end, and the oldest one leaves. -/
def push (q : List ε) (e : ε) : List ε :=
  (q ++ [e]).tail

@[simp]
theorem length_push (q : List ε) (e : ε) : (push q e).length = q.length := by
  simp [push]

variable (hits : ε → κ → Bool) (entry : κ → ε)

/-- Some entry of the queue hits the key. -/
def knows (q : List ε) (k : κ) : Bool :=
  q.any fun e => hits e k

/-- The queue after a key. -/
def serve (q : List ε) (k : κ) : List ε :=
  if knows hits q k then q else push q (entry k)

/-- The keys which the queue does not know when they come. -/
def newcomers (q : List ε) : List κ → List κ
  | [] => []
  | k :: ks =>
      if knows hits q k then newcomers q ks else k :: newcomers (push q (entry k)) ks

variable {hits}

theorem knows_eq_true_iff {q : List ε} {k : κ} :
    knows hits q k = true ↔ ∃ e ∈ q, hits e k = true := by
  simp [knows]

variable {entry}

theorem serve_of_knows {q : List ε} {k : κ} (h : knows hits q k = true) :
    serve hits entry q k = q :=
  if_pos h

theorem serve_of_not_knows {q : List ε} {k : κ} (h : knows hits q k = false) :
    serve hits entry q k = push q (entry k) := by
  simp [serve, h]

theorem newcomers_cons_of_knows {q : List ε} {k : κ} {ks : List κ}
    (h : knows hits q k = true) :
    newcomers hits entry q (k :: ks) = newcomers hits entry q ks :=
  if_pos h

theorem newcomers_cons_of_not_knows {q : List ε} {k : κ} {ks : List κ}
    (h : knows hits q k = false) :
    newcomers hits entry q (k :: ks) = k :: newcomers hits entry (push q (entry k)) ks := by
  simp [newcomers, h]

/-- After a run the queue holds the last entries of what it held and of the newcomers. -/
theorem run_serve (q : List ε) (ks : List κ) :
    run (serve hits entry) q ks =
      (q ++ (newcomers hits entry q ks).map entry).drop (newcomers hits entry q ks).length := by
  induction ks generalizing q with
  | nil => simp [newcomers]
  | cons k ks ih =>
      rw [run_cons, ih]
      cases h : knows hits q k with
      | true => rw [serve_of_knows h, newcomers_cons_of_knows h]
      | false =>
          have hne : q ++ [entry k] ≠ [] := by simp
          rw [serve_of_not_knows h, newcomers_cons_of_not_knows h, List.map_cons,
            List.length_cons, ← List.drop_tail, List.append_cons,
            List.tail_append_of_ne_nil hne, push]

theorem newcomers_append (q : List ε) (ks ls : List κ) :
    newcomers hits entry q (ks ++ ls) =
      newcomers hits entry q ks ++
        newcomers hits entry (run (serve hits entry) q ks) ls := by
  induction ks generalizing q with
  | nil => simp [newcomers]
  | cons k ks ih =>
      rw [List.cons_append, run_cons]
      cases h : knows hits q k with
      | true =>
          rw [newcomers_cons_of_knows h, newcomers_cons_of_knows h, serve_of_knows h, ih]
      | false =>
          rw [newcomers_cons_of_not_knows h, newcomers_cons_of_not_knows h,
            serve_of_not_knows h, ih, List.cons_append]

/-- A newcomer is a key which the queue does not know when its turn comes. -/
theorem mem_newcomers_iff {q : List ε} {ks : List κ} {k : κ} :
    k ∈ newcomers hits entry q ks ↔
      ∃ pre post, ks = pre ++ k :: post ∧
        knows hits (run (serve hits entry) q pre) k = false := by
  constructor
  · intro hmem
    induction ks generalizing q with
    | nil => simp [newcomers] at hmem
    | cons l ks ih =>
        cases h : knows hits q l with
        | true =>
            rw [newcomers_cons_of_knows h] at hmem
            obtain ⟨pre, post, rfl, hk⟩ := ih hmem
            refine ⟨l :: pre, post, rfl, ?_⟩
            rwa [run_cons, serve_of_knows h]
        | false =>
            rw [newcomers_cons_of_not_knows h] at hmem
            rcases List.mem_cons.mp hmem with rfl | hmem
            · exact ⟨[], ks, rfl, h⟩
            · obtain ⟨pre, post, rfl, hk⟩ := ih hmem
              refine ⟨l :: pre, post, rfl, ?_⟩
              rwa [run_cons, serve_of_not_knows h]
  · rintro ⟨pre, post, rfl, hk⟩
    rw [newcomers_append, newcomers_cons_of_not_knows hk]
    simp

theorem newcomers_sublist (q : List ε) (ks : List κ) :
    (newcomers hits entry q ks).Sublist ks := by
  induction ks generalizing q with
  | nil => exact List.Sublist.refl _
  | cons k ks ih =>
      cases h : knows hits q k with
      | true =>
          rw [newcomers_cons_of_knows h]
          exact (ih q).cons k
      | false =>
          rw [newcomers_cons_of_not_knows h]
          exact (ih _).cons_cons k

/-- An entry stays until as many newcomers have come after it as the queue is long. -/
theorem knows_run_of_split {q : List ε} {ks : List κ} {n₁ n₂ : List κ} {k l : κ}
    (hsplit : newcomers hits entry q ks = n₁ ++ k :: n₂) (hlen : n₂.length < q.length)
    (hhit : hits (entry k) l = true) :
    knows hits (run (serve hits entry) q ks) l = true := by
  refine knows_eq_true_iff.mpr ⟨entry k, ?_, hhit⟩
  have hle : (newcomers hits entry q ks).length ≤ (q ++ n₁.map entry).length := by
    rw [hsplit]
    simp only [List.length_append, List.length_cons, List.length_map]
    omega
  rw [run_serve, hsplit, List.map_append, ← List.append_assoc, ← hsplit,
    List.drop_append_of_le_length hle]
  simp

end Fifo
