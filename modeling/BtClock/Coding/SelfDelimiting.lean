import Mathlib.Data.List.Basic

/-!
# Self-delimiting codes

A code is self-delimiting when a word can be told from whatever follows it.  Such codes may
be written one after the other without losing anything.
-/

variable {α β γ : Type*}

/-- A word of the code ends where it ends, whatever comes behind it. -/
def SelfDelimiting (code : α → List γ) : Prop :=
  ∀ a b rest rest', code a ++ rest = code b ++ rest' → a = b ∧ rest = rest'

namespace SelfDelimiting

variable {code : α → List γ} {code' : β → List γ}

/-- A code is self-delimiting when some reader takes its words off the front of a text. -/
theorem of_read {read : List γ → Option (α × List γ)}
    (h : ∀ a rest, read (code a ++ rest) = some (a, rest)) : SelfDelimiting code := by
  intro a b rest rest' heq
  have hread := h a rest
  rw [heq, h b rest'] at hread
  have hpair := Option.some.inj hread
  exact ⟨(congrArg Prod.fst hpair).symm, (congrArg Prod.snd hpair).symm⟩

theorem injective (h : SelfDelimiting code) : Function.Injective code := by
  intro a b heq
  exact (h a b [] [] (congrArg (· ++ []) heq)).1

/-- A code of pairs: a word of the first code, a fixed text, a word of the second. -/
theorem pair (h : SelfDelimiting code) (h' : SelfDelimiting code') (sep : List γ) :
    SelfDelimiting fun p : α × β => code p.1 ++ (sep ++ code' p.2) := by
  intro p q rest rest' heq
  simp only [List.append_assoc] at heq
  obtain ⟨hfst, htail⟩ := h _ _ _ _ heq
  obtain ⟨hsnd, hrest⟩ := h' _ _ _ _ (List.append_cancel_left htail)
  exact ⟨Prod.ext hfst hsnd, hrest⟩

/-- Fixed texts around the words do not matter. -/
theorem enclose (h : SelfDelimiting code) (before after : List γ) :
    SelfDelimiting fun a => before ++ (code a ++ after) := by
  intro a b rest rest' heq
  simp only [List.append_assoc] at heq
  obtain ⟨hab, htail⟩ := h _ _ _ _ (List.append_cancel_left heq)
  exact ⟨hab, List.append_cancel_left htail⟩

/-- A sequence of words with a closing character, which no word begins with. -/
theorem flatMap_close {close : γ} (h : SelfDelimiting code)
    (hstart : ∀ a, ∃ c cs, code a = c :: cs ∧ c ≠ close) :
    SelfDelimiting fun as : List α => as.flatMap code ++ [close] := by
  intro as bs rest rest' heq
  simp only [List.append_assoc] at heq
  induction as generalizing bs with
  | nil =>
      cases bs with
      | nil => exact ⟨rfl, List.append_cancel_left heq⟩
      | cons b bs =>
          obtain ⟨c, cs, hc, hne⟩ := hstart b
          rw [List.flatMap_cons, hc] at heq
          exact absurd (List.cons.inj heq).1.symm hne
  | cons a as ih =>
      cases bs with
      | nil =>
          obtain ⟨c, cs, hc, hne⟩ := hstart a
          rw [List.flatMap_cons, hc] at heq
          exact absurd (List.cons.inj heq).1 hne
      | cons b bs =>
          rw [List.flatMap_cons, List.flatMap_cons, List.append_assoc, List.append_assoc] at heq
          obtain ⟨rfl, htail⟩ := h _ _ _ _ heq
          obtain ⟨rfl, hrest⟩ := ih bs htail
          exact ⟨rfl, hrest⟩

/-- A code none of whose words begins another one. -/
theorem of_prefixFree (h : ∀ a b, code a <+: code b → a = b) : SelfDelimiting code := by
  intro a b rest rest' heq
  have ha : code a <+: code b ++ rest' := heq ▸ List.prefix_append (code a) rest
  have hb : code b <+: code b ++ rest' := List.prefix_append (code b) rest'
  obtain rfl : a = b := by
    rcases Nat.le_total (code a).length (code b).length with hle | hle
    · exact h a b (List.prefix_of_prefix_length_le ha hb hle)
    · exact (h b a (List.prefix_of_prefix_length_le hb ha hle)).symm
  exact ⟨rfl, List.append_cancel_left heq⟩

end SelfDelimiting

/-! ### Words with a stop behind them -/

/-- A word ends where it ends, whatever comes behind the stop. -/
def DelimitedBy (stops : γ → Prop) (code : α → List γ) : Prop :=
  ∀ a b c d rest rest', stops c → stops d → code a ++ c :: rest = code b ++ d :: rest' →
    a = b ∧ c :: rest = d :: rest'

section

variable {stops : γ → Prop} {code : α → List γ} {code' : β → List γ}

theorem SelfDelimiting.delimitedBy (h : SelfDelimiting code) (stops : γ → Prop) :
    DelimitedBy stops code :=
  fun a b c d rest rest' _ _ heq => h a b (c :: rest) (d :: rest') heq

namespace DelimitedBy

/-- Words without stops in them. -/
theorem of_notMem (hinj : Function.Injective code) (h : ∀ a, ∀ c ∈ code a, ¬ stops c) :
    DelimitedBy stops code := by
  intro a b c d rest rest' hc hd heq
  have hend (u v : List γ) (hu : ∀ x ∈ u, ¬ stops x) (hv : ∀ x ∈ v, ¬ stops x)
      (huv : u ++ c :: rest = v ++ d :: rest') : u = v ∧ c :: rest = d :: rest' := by
    induction u generalizing v with
    | nil =>
        cases v with
        | nil => exact ⟨rfl, huv⟩
        | cons y v =>
            obtain ⟨rfl, -⟩ := List.cons.inj huv
            exact absurd hc (hv c List.mem_cons_self)
    | cons x u ih =>
        cases v with
        | nil =>
            obtain ⟨rfl, -⟩ := List.cons.inj huv
            exact absurd hd (hu x List.mem_cons_self)
        | cons y v =>
            obtain ⟨rfl, htail⟩ := List.cons.inj huv
            obtain ⟨rfl, hrest⟩ := ih v (fun z hz => hu z (List.mem_cons_of_mem x hz))
              (fun z hz => hv z (List.mem_cons_of_mem x hz)) htail
            exact ⟨rfl, hrest⟩
  obtain ⟨hword, hrest⟩ := hend (code a) (code b) (h a) (h b) heq
  exact ⟨hinj hword, hrest⟩

/-- A stop behind the words makes them delimit themselves. -/
theorem close {c : γ} (h : DelimitedBy stops code) (hc : stops c) :
    SelfDelimiting fun a => code a ++ [c] := by
  intro a b rest rest' heq
  rw [List.append_assoc, List.append_assoc] at heq
  obtain ⟨hab, hrest⟩ := h a b c c rest rest' hc hc heq
  exact ⟨hab, (List.cons.inj hrest).2⟩

/-- Words with a separator between them and a closing character, which no word begins with. -/
theorem separated {sep close : γ} (h : DelimitedBy (fun c => c = sep ∨ c = close) code)
    (hne : sep ≠ close) (hstart : ∀ a, ∃ c cs, code a = c :: cs ∧ c ≠ close) :
    SelfDelimiting fun as : List α => ((as.map code).intersperse [sep]).flatten ++ [close] := by
  have hhead (b : α) (bs : List α) (rest : List γ) :
      ∃ d v, ((((b :: bs).map code).intersperse [sep]).flatten ++ [close]) ++ rest =
          code b ++ d :: v ∧
        (bs = [] ∧ d :: v = close :: rest ∨
          bs ≠ [] ∧ d :: v =
            sep :: ((((bs.map code).intersperse [sep]).flatten ++ [close]) ++ rest)) := by
    cases bs with
    | nil => exact ⟨close, rest, by simp, .inl ⟨rfl, rfl⟩⟩
    | cons b' bs => exact ⟨sep, _, by simp, .inr ⟨List.cons_ne_nil b' bs, rfl⟩⟩
  intro as bs rest rest' heq
  induction as generalizing bs with
  | nil =>
      cases bs with
      | nil => exact ⟨rfl, by simpa using heq⟩
      | cons b bs =>
          obtain ⟨c, cs, hc, hclose⟩ := hstart b
          obtain ⟨d, v, hb, -⟩ := hhead b bs rest'
          rw [hb, hc] at heq
          exact absurd (List.cons.inj heq).1.symm hclose
  | cons a as ih =>
      obtain ⟨c, u, ha, hu⟩ := hhead a as rest
      cases bs with
      | nil =>
          obtain ⟨d, ds, hd, hclose⟩ := hstart a
          rw [ha, hd] at heq
          exact absurd (List.cons.inj heq).1 hclose
      | cons b bs =>
          obtain ⟨d, v, hb, hv⟩ := hhead b bs rest'
          have hstop {x : γ} {w r : List γ} {cs : List α}
              (hx : cs = [] ∧ x :: w = close :: r ∨ cs ≠ [] ∧ x :: w =
                sep :: ((((cs.map code).intersperse [sep]).flatten ++ [close]) ++ r)) :
              x = sep ∨ x = close :=
            hx.symm.imp (fun hx => (List.cons.inj hx.2).1) fun hx => (List.cons.inj hx.2).1
          rw [ha, hb] at heq
          obtain ⟨rfl, htail⟩ := h a b c d u v (hstop hu) (hstop hv) heq
          rcases hu with ⟨rfl, hu⟩ | ⟨-, hu⟩ <;> rcases hv with ⟨rfl, hv⟩ | ⟨-, hv⟩
          · rw [hu, hv] at htail
            exact ⟨rfl, (List.cons.inj htail).2⟩
          · rw [hu, hv] at htail
            exact absurd (List.cons.inj htail).1.symm hne
          · rw [hu, hv] at htail
            exact absurd (List.cons.inj htail).1 hne
          · rw [hu, hv] at htail
            obtain ⟨rfl, hrest⟩ := ih bs (List.cons.inj htail).2
            exact ⟨rfl, hrest⟩

end DelimitedBy

end
