import Mathlib.Data.List.Infix
import Mathlib.Data.List.TakeWhile
import Mathlib.Data.Nat.Notation

/-!
# A field among fields

The fields of a text stand between separators.  An occurrence of a key is the front of a field
when it stands at the front of the text or behind a separator, and the first of these is the
front of the first field which begins with the key.
-/

namespace Fields

variable {α : Type*}

theorem singleton_prefix_drop_iff {c : α} {text : List α} {i : ℕ} :
    [c] <+: text.drop i ↔ text[i]? = some c := by
  rw [List.prefix_iff_eq_take, ← List.head?_drop]
  cases text.drop i <;> simp [eq_comm]

section Find

variable [DecidableEq α]

/-- Where the needle first occurs. -/
def find (needle text : List α) : Option ℕ :=
  text.tails.findIdx? fun tail => needle.isPrefixOf tail

/-- Where the needle first occurs from an offset on. -/
def findFrom (needle text : List α) (pos : ℕ) : Option ℕ :=
  (find needle (text.drop pos)).map (pos + ·)

theorem find_eq_some_iff {needle text : List α} {i : ℕ} :
    find needle text = some i ↔
      i ≤ text.length ∧ needle <+: text.drop i ∧ ∀ j < i, ¬ needle <+: text.drop j := by
  simp only [find, List.findIdx?_eq_some_iff_getElem, List.length_tails, List.getElem_tails,
    List.isPrefixOf_iff_prefix, Nat.lt_succ_iff, exists_prop]

theorem find_eq_none_iff {needle text : List α} :
    find needle text = none ↔ ∀ i ≤ text.length, ¬ needle <+: text.drop i := by
  rw [find, List.findIdx?_eq_none_iff]
  constructor
  · intro h i hi hpre
    have hmem : text.drop i ∈ text.tails := (List.mem_tails _ _).mpr (List.drop_suffix i text)
    have hfalse := h _ hmem
    rw [List.isPrefixOf_iff_prefix.mpr hpre] at hfalse
    cases hfalse
  · intro h tail htail
    obtain ⟨front, rfl⟩ := (List.mem_tails _ _).mp htail
    have hnot := h front.length (by rw [List.length_append]; exact Nat.le_add_right _ _)
    rw [List.drop_left] at hnot
    exact Bool.eq_false_iff.mpr fun htrue => hnot (List.isPrefixOf_iff_prefix.mp htrue)

theorem findFrom_eq_some {needle text : List α} {pos i : ℕ}
    (h : findFrom needle text pos = some i) :
    pos ≤ i ∧ needle <+: text.drop i ∧ ∀ j, pos ≤ j → j < i → ¬ needle <+: text.drop j := by
  obtain ⟨k, hk, rfl⟩ := Option.map_eq_some_iff.mp h
  obtain ⟨_, hpre, hfirst⟩ := find_eq_some_iff.mp hk
  rw [List.drop_drop] at hpre
  refine ⟨Nat.le_add_right pos k, hpre, fun j hle hlt => ?_⟩
  have hnot := hfirst (j - pos) (by omega)
  rwa [List.drop_drop, Nat.add_sub_cancel' hle] at hnot

theorem findFrom_eq_none {needle text : List α} {pos i : ℕ}
    (h : findFrom needle text pos = none) (hle : pos ≤ i) (hi : i ≤ text.length) :
    ¬ needle <+: text.drop i := by
  have hnot := find_eq_none_iff.mp (Option.map_eq_none_iff.mp h) (i - pos)
    (by rw [List.length_drop]; omega)
  rwa [List.drop_drop, Nat.add_sub_cancel' hle] at hnot

/-- The text up to the first separator behind an offset, and the rest behind it. -/
theorem drop_of_findFrom_singleton {sep : α} {text : List α} {pos i : ℕ}
    (h : findFrom [sep] text pos = some i) :
    i < text.length ∧ sep ∉ (text.drop pos).take (i - pos) ∧
      text.drop pos = (text.drop pos).take (i - pos) ++ sep :: text.drop (i + 1) := by
  obtain ⟨hle, hpre, hfirst⟩ := findFrom_eq_some h
  obtain ⟨hlt, hsep⟩ := List.getElem?_eq_some_iff.mp (singleton_prefix_drop_iff.mp hpre)
  refine ⟨hlt, fun hmem => ?_, ?_⟩
  · obtain ⟨j, hj, heq⟩ := List.mem_iff_getElem.mp hmem
    rw [List.length_take, List.length_drop] at hj
    rw [List.getElem_take, List.getElem_drop] at heq
    refine hfirst (pos + j) (Nat.le_add_right _ _) (by omega) (singleton_prefix_drop_iff.mpr ?_)
    rw [List.getElem?_eq_getElem (by omega), heq]
  · conv_lhs => rw [← List.take_append_drop (i - pos) (text.drop pos), List.drop_drop,
      Nat.add_sub_cancel' hle, List.drop_eq_getElem_cons hlt, hsep]

theorem not_mem_drop_of_findFrom_singleton {sep : α} {text : List α} {pos : ℕ}
    (h : findFrom [sep] text pos = none) : sep ∉ text.drop pos := by
  intro hmem
  obtain ⟨j, hj, heq⟩ := List.mem_iff_getElem.mp hmem
  rw [List.length_drop] at hj
  rw [List.getElem_drop] at heq
  refine findFrom_eq_none h (Nat.le_add_right pos j) (by omega)
    (singleton_prefix_drop_iff.mpr ?_)
  rw [List.getElem?_eq_getElem (by omega), heq]

/-- What stands before the first separator. -/
theorem take_find_singleton (sep : α) (text : List α) :
    (match find [sep] text with
      | none => text
      | some i => text.take i) = text.takeWhile (· ≠ sep) := by
  split
  · rename_i hnone
    refine (List.takeWhile_eq_self_iff.mpr fun c hc => ?_).symm
    obtain ⟨i, hi, rfl⟩ := List.mem_iff_getElem.mp hc
    have hnot := find_eq_none_iff.mp hnone i hi.le
    rw [singleton_prefix_drop_iff, List.getElem?_eq_getElem hi, Option.some.injEq] at hnot
    simpa using hnot
  · rename_i i hsome
    obtain ⟨_, hpre, hfirst⟩ := find_eq_some_iff.mp hsome
    obtain ⟨hi, hsep⟩ := List.getElem?_eq_some_iff.mp (singleton_prefix_drop_iff.mp hpre)
    have hall : ∀ c ∈ text.take i, decide (c ≠ sep) = true := by
      intro c hc
      obtain ⟨j, hj, rfl⟩ := List.mem_iff_getElem.mp hc
      rw [List.length_take] at hj
      have hnot := hfirst j (by omega)
      rw [singleton_prefix_drop_iff, List.getElem?_eq_getElem (by omega),
        Option.some.injEq] at hnot
      simpa using hnot
    have hsplit : text = text.take i ++ sep :: text.drop (i + 1) := by
      conv_lhs => rw [← List.take_append_drop i text, List.drop_eq_getElem_cons hi, hsep]
    conv_rhs => rw [hsplit, List.takeWhile_append_of_pos hall]
    simp

end Find

section Hits

variable (sep : α) (needle : List α)

/-- The needle occurs at the front of a field. -/
def Hit (text : List α) (i : ℕ) : Prop :=
  needle <+: text.drop i ∧ (i = 0 ∨ text[i - 1]? = some sep)

/-- The first field which begins with the needle begins there. -/
def FirstHit (text : List α) (i : ℕ) : Prop :=
  Hit sep needle text i ∧ ∀ j < i, ¬ Hit sep needle text j

variable {sep needle}

/-- A needle without the separator does not go beyond the first field. -/
theorem prefix_of_prefix_append {field rest : List α} (hneedle : sep ∉ needle)
    (h : needle <+: field ++ sep :: rest) : needle <+: field := by
  have hfield : field <+: field ++ sep :: rest := List.prefix_append _ _
  rcases Nat.le_total needle.length field.length with hle | hle
  · exact List.prefix_of_prefix_length_le h hfield hle
  · obtain ⟨more, rfl⟩ := List.prefix_of_prefix_length_le hfield h hle
    cases more with
    | nil => rw [List.append_nil]
    | cons c more =>
        have hcons : c :: more <+: sep :: rest := (List.prefix_append_right_inj field).mp h
        obtain ⟨rfl, -⟩ := List.cons_prefix_cons.mp hcons
        exact absurd (List.mem_append_right field List.mem_cons_self) hneedle

/-- Behind a field the text goes on as the rest does. -/
theorem hit_add_iff (field rest : List α) (i : ℕ) :
    Hit sep needle (field ++ sep :: rest) (field.length + 1 + i) ↔ Hit sep needle rest i := by
  have hdrop : (field ++ sep :: rest).drop (field.length + 1 + i) = rest.drop i := by
    rw [Nat.add_assoc, List.drop_length_add_append, Nat.add_comm 1 i, List.drop_succ_cons]
  have hbefore : ∀ k, (field ++ sep :: rest)[field.length + k]? = (sep :: rest)[k]? := by
    intro k
    rw [List.getElem?_append_right (Nat.le_add_right _ _), Nat.add_sub_cancel_left]
  rw [Hit, Hit, hdrop]
  refine and_congr_right fun _ => ?_
  cases i with
  | zero =>
      simp
  | succ i =>
      have hindex : field.length + 1 + (i + 1) - 1 = field.length + (i + 1) := by omega
      rw [hindex, hbefore, List.getElem?_cons_succ]
      simp

theorem FirstHit.cons {field rest : List α} {i : ℕ} (hneedle : sep ∉ needle)
    (hfield : sep ∉ field) (hnot : ¬ needle <+: field) (h : FirstHit sep needle rest i) :
    FirstHit sep needle (field ++ sep :: rest) (field.length + 1 + i) := by
  refine ⟨(hit_add_iff field rest i).mpr h.1, fun j hlt hhit => ?_⟩
  rcases Nat.lt_or_ge field.length j with hbehind | hinside
  · obtain ⟨k, rfl⟩ := Nat.exists_eq_add_of_le hbehind
    exact h.2 k (by omega) ((hit_add_iff field rest k).mp hhit)
  · rcases hhit with ⟨hpre, rfl | hstart⟩
    · exact hnot (prefix_of_prefix_append hneedle hpre)
    · cases j with
      | zero => exact hnot (prefix_of_prefix_append hneedle hpre)
      | succ j =>
          rw [Nat.add_sub_cancel, List.getElem?_append_left (by omega)] at hstart
          exact hfield (List.mem_of_getElem? hstart)

/-- The first field which begins with the needle is found, and what it has behind the needle. -/
theorem exists_firstHit [DecidableEq α] {before : List (List α)} {value : List α}
    (after : List (List α)) (hneedle : sep ∉ needle)
    (hbefore : ∀ f ∈ before, sep ∉ f ∧ ¬ needle <+: f) (hvalue : sep ∉ value) :
    ∃ i, FirstHit sep needle ([sep].intercalate (before ++ (needle ++ value) :: after)) i ∧
      (([sep].intercalate (before ++ (needle ++ value) :: after)).drop
        (i + needle.length)).takeWhile (· ≠ sep) = value := by
  induction before with
  | nil =>
      have hall : ∀ c ∈ value, decide (c ≠ sep) = true := fun c hc =>
        decide_eq_true fun heq => hvalue (heq ▸ hc)
      obtain ⟨rest, hrest, hstop⟩ : ∃ rest,
          [sep].intercalate ((needle ++ value) :: after) = needle ++ (value ++ rest) ∧
            rest.takeWhile (· ≠ sep) = [] := by
        cases after with
        | nil => exact ⟨[], by simp, rfl⟩
        | cons f after =>
            refine ⟨sep :: [sep].intercalate (f :: after), ?_, ?_⟩
            · rw [List.intercalate_cons_cons, List.append_assoc, List.append_assoc,
                List.singleton_append]
            · simp
      refine ⟨0, ⟨⟨?_, Or.inl rfl⟩, nofun⟩, ?_⟩
      · rw [List.nil_append, hrest]
        exact List.prefix_append _ _
      · rw [List.nil_append, hrest, Nat.zero_add, List.drop_left,
          List.takeWhile_append_of_pos hall, hstop, List.append_nil]
  | cons f before ih =>
      obtain ⟨i, hfirst, hrest⟩ := ih fun g hg => hbefore g (List.mem_cons_of_mem _ hg)
      obtain ⟨hfield, hnot⟩ := hbefore f List.mem_cons_self
      have hjoin : [sep].intercalate (f :: before ++ (needle ++ value) :: after) =
          f ++ sep :: [sep].intercalate (before ++ (needle ++ value) :: after) := by
        cases before with
        | nil => simp
        | cons g before => simp
      refine ⟨f.length + 1 + i, ?_, ?_⟩
      · rw [hjoin]
        exact hfirst.cons hneedle hfield hnot
      · have hindex : f.length + 1 + i + needle.length = f.length + (i + needle.length + 1) := by
          omega
        rw [hjoin, hindex, List.drop_length_add_append, List.drop_succ_cons, hrest]

end Hits

end Fields
