import Mathlib.Data.List.Induction
import Mathlib.Data.Nat.Notation

/-!
# Data taken block by block

A function which takes blocks of `n` items can be fed item by item: the items wait until a
block is full. What has been absorbed is then the complete blocks of the data, and what
waits is the rest.
-/

namespace BlockHash

variable {σ β : Type*}

/-- The first `k` blocks of `n` items. -/
def blocks (n : ℕ) : ℕ → List β → List (List β)
  | 0, _ => []
  | k + 1, data => data.take n :: blocks n k (data.drop n)

/-- The complete blocks of the data. -/
def parse (n : ℕ) (data : List β) : List (List β) :=
  blocks n (data.length / n) data

theorem parse_of_lt {n : ℕ} {data : List β} (h : data.length < n) : parse n data = [] := by
  rw [parse, Nat.div_eq_of_lt h, blocks]

theorem parse_append {n : ℕ} (hn : 0 < n) {block : List β} (hblock : block.length = n)
    (data : List β) : parse n (block ++ data) = block :: parse n data := by
  have hcount : (block ++ data).length / n = data.length / n + 1 := by
    rw [List.length_append, hblock, Nat.add_div_left _ hn]
  rw [parse, hcount, blocks, List.take_left' hblock, List.drop_left' hblock, parse]

theorem parse_self {n : ℕ} (hn : 0 < n) {block : List β} (hblock : block.length = n) :
    parse n block = [block] := by
  have h := parse_append hn hblock []
  rw [List.append_nil] at h
  rw [h, parse_of_lt (by simpa using hn)]

theorem parse_flatten_append {n : ℕ} (hn : 0 < n) {bs : List (List β)}
    (hbs : ∀ b ∈ bs, b.length = n) (data : List β) :
    parse n (bs.flatten ++ data) = bs ++ parse n data := by
  induction bs with
  | nil => rfl
  | cons b bs ih =>
      rw [List.flatten_cons, List.append_assoc,
        parse_append hn (hbs b (List.mem_cons_self ..)),
        ih fun b' hb' => hbs b' (List.mem_cons_of_mem b hb'), List.cons_append]

theorem length_of_mem_blocks {n k : ℕ} {data block : List β} (hk : n * k ≤ data.length)
    (h : block ∈ blocks n k data) : block.length = n := by
  induction k generalizing data with
  | zero => exact absurd h List.not_mem_nil
  | succ k ih =>
      rw [Nat.mul_succ] at hk
      rw [blocks] at h
      rcases List.mem_cons.mp h with rfl | h
      · rw [List.length_take]
        omega
      · exact ih (by rw [List.length_drop]; omega) h

theorem length_of_mem_parse {n : ℕ} {data block : List β} (h : block ∈ parse n data) :
    block.length = n :=
  length_of_mem_blocks (Nat.mul_div_le data.length n) h

/-- One item more: a full block is taken at once. -/
def absorb (n : ℕ) (f : σ → List β → σ) (s : σ × List β) (b : β) : σ × List β :=
  if s.2.length + 1 = n then (f s.1 (s.2 ++ [b]), []) else (s.1, s.2 ++ [b])

/-- The state after `data`: the complete blocks have been taken, the rest waits. -/
structure Absorbed (n : ℕ) (f : σ → List β → σ) (s₀ : σ) (data : List β)
    (s : σ × List β) : Prop where
  exists_blocks : ∃ bs : List (List β),
    (∀ b ∈ bs, b.length = n) ∧ bs.flatten ++ s.2 = data ∧ bs.foldl f s₀ = s.1
  rest_lt : s.2.length < n

variable {n : ℕ} {f : σ → List β → σ} {s₀ : σ}

theorem absorbed_nil (hn : 0 < n) : Absorbed n f s₀ [] (s₀, []) where
  exists_blocks := ⟨[], by simp, rfl, rfl⟩
  rest_lt := hn

theorem Absorbed.absorb {data : List β} {s : σ × List β} (h : Absorbed n f s₀ data s)
    (b : β) : Absorbed n f s₀ (data ++ [b]) (absorb n f s b) := by
  obtain ⟨bs, hbs, hdata, hs⟩ := h.exists_blocks
  have hlt := h.rest_lt
  have hpos : 0 < n := Nat.zero_lt_of_lt hlt
  unfold BlockHash.absorb
  split
  · rename_i hfull
    refine ⟨⟨bs ++ [s.2 ++ [b]], ?_, ?_, ?_⟩, hpos⟩
    · intro block hblock
      rcases List.mem_append.mp hblock with hblock | hblock
      · exact hbs block hblock
      · rw [List.mem_singleton.mp hblock, List.length_append, List.length_singleton, hfull]
    · rw [← hdata]
      simp
    · rw [List.foldl_append, hs, List.foldl_cons, List.foldl_nil]
  · rename_i hpart
    refine ⟨⟨bs, hbs, ?_, hs⟩, ?_⟩
    · rw [← hdata, List.append_assoc]
    · rw [List.length_append, List.length_singleton]
      omega

/-- After any data the state is that of its complete blocks. -/
theorem absorbed_foldl (hn : 0 < n) (data : List β) :
    Absorbed n f s₀ data (data.foldl (BlockHash.absorb n f) (s₀, [])) := by
  induction data using List.reverseRecOn with
  | nil => exact absorbed_nil hn
  | append_singleton data b ih =>
      rw [List.foldl_append, List.foldl_cons, List.foldl_nil]
      exact ih.absorb b

theorem Absorbed.length_rest {data : List β} {s : σ × List β} (h : Absorbed n f s₀ data s) :
    s.2.length = data.length % n := by
  obtain ⟨bs, hbs, hdata, -⟩ := h.exists_blocks
  have hflatten : bs.flatten.length = bs.length * n := by
    rw [List.length_flatten, List.map_congr_left hbs, List.map_const', List.sum_replicate_nat]
  rw [← hdata, List.length_append, hflatten, Nat.mul_add_mod_self_right,
    Nat.mod_eq_of_lt h.rest_lt]

/-- The blocks of the data with a tail are those absorbed and those of the waiting rest with
the tail. -/
theorem Absorbed.foldl_parse {data : List β} {s : σ × List β} (hn : 0 < n)
    (h : Absorbed n f s₀ data s) (tail : List β) :
    (parse n (data ++ tail)).foldl f s₀ = (parse n (s.2 ++ tail)).foldl f s.1 := by
  obtain ⟨bs, hbs, hdata, hs⟩ := h.exists_blocks
  rw [← hdata, List.append_assoc, parse_flatten_append hn hbs, List.foldl_append, hs]

end BlockHash
