import BtClock.Coding.Separated
import BtClock.Settings.Patch

/-!
# The text of a joined list

The lists of the settings are stored as one string with a comma between the entries.  Its
length and its characters are those of the entries and of the commas.
-/

namespace BtClock

namespace Settings

open Nwc (isHexString)
open Nostr (hexDigit)

/-- The characters which neither break a wire format nor render as garbage. -/
def Plain (s : String) : Prop :=
  ∀ c ∈ s.toList, 0x20 ≤ c.toNat ∧ c.toNat ≠ 0x7F

theorem hasControlBytes_eq_false_iff (s : String) : hasControlBytes s = false ↔ Plain s := by
  simp [hasControlBytes, Plain]

instance (s : String) : Decidable (Plain s) :=
  decidable_of_iff (hasControlBytes s = false) (hasControlBytes_eq_false_iff s)

@[simp]
theorem plain_empty : Plain "" :=
  nofun

theorem plain_append (s t : String) : Plain (s ++ t) ↔ Plain s ∧ Plain t := by
  simp only [Plain, String.toList_append, List.forall_mem_append]

/-- The entries of an array which are strings. -/
def stringEntries : List Json → List String
  | [] => []
  | .string s :: items => s :: stringEntries items
  | _ :: items => stringEntries items

def joinCsv (entries : List String) : String :=
  entries.foldl appendCsv ""

/-- The length of the entries with a comma between each two. -/
def csvLength (entries : List String) : ℕ :=
  (entries.map fun s => s.length + 1).sum - 1

theorem length_appendCsv {joined : String} (h : joined ≠ "") (s : String) :
    (appendCsv joined s).length = joined.length + (s.length + 1) := by
  rw [appendCsv, if_neg h, String.length_append, String.length_append, Nat.add_assoc,
    Nat.add_comm _ s.length]
  rfl

theorem appendCsv_ne_empty {joined : String} (h : joined ≠ "") (s : String) :
    appendCsv joined s ≠ "" := by
  intro hempty
  have hlen := length_appendCsv h s
  rw [hempty] at hlen
  simp at hlen

theorem length_foldl_appendCsv {joined : String} (h : joined ≠ "") (entries : List String) :
    (entries.foldl appendCsv joined).length =
      joined.length + (entries.map fun s => s.length + 1).sum := by
  induction entries generalizing joined with
  | nil => simp
  | cons s entries ih =>
      rw [List.foldl_cons, ih (appendCsv_ne_empty h s), length_appendCsv h, List.map_cons,
        List.sum_cons, Nat.add_assoc]

/-- The empty entries at the front leave no trace. -/
theorem length_joinCsv (entries : List String) :
    (joinCsv entries).length = csvLength (entries.dropWhile (· = "")) := by
  induction entries with
  | nil => rfl
  | cons s entries ih =>
      have hfirst : appendCsv "" s = s := if_pos rfl
      by_cases hs : s = ""
      · rw [List.dropWhile_cons_of_pos (by simpa using hs), ← ih, joinCsv, joinCsv,
          List.foldl_cons, hfirst, hs]
      · rw [List.dropWhile_cons_of_neg (by simpa using hs), joinCsv, List.foldl_cons, hfirst,
          length_foldl_appendCsv hs, csvLength, List.map_cons, List.sum_cons]
        omega

theorem length_joinCsv_of_nonempty {entries : List String} (h : ∀ s ∈ entries, s ≠ "") :
    (joinCsv entries).length = csvLength entries := by
  rw [length_joinCsv]
  cases entries with
  | nil => rfl
  | cons s entries =>
      rw [List.dropWhile_cons_of_neg (by simpa using h s List.mem_cons_self)]

theorem plain_appendCsv (joined s : String) :
    Plain (appendCsv joined s) ↔ Plain joined ∧ Plain s := by
  have hcomma : Plain "," := by decide
  by_cases h : joined = ""
  · simp [appendCsv, h]
  · simp [appendCsv, h, plain_append, hcomma]

theorem plain_joinCsv (entries : List String) :
    Plain (joinCsv entries) ↔ ∀ s ∈ entries, Plain s := by
  have hfold : ∀ joined, Plain (entries.foldl appendCsv joined) ↔
      Plain joined ∧ ∀ s ∈ entries, Plain s := by
    induction entries with
    | nil => simp
    | cons s entries ih =>
        intro joined
        rw [List.foldl_cons, ih, plain_appendCsv, List.forall_mem_cons, and_assoc]
  rw [joinCsv, hfold]
  simp

/-! ### The entries of a joined text -/

theorem notMem_comma_of_mem_splitCsv {s item : String} (h : item ∈ splitCsv s) :
    ',' ∉ item.toList := by
  obtain ⟨part, hpart, rfl⟩ := List.mem_map.mp h
  rw [String.toList_ofList]
  exact (Separated.of_mem_splitOn (List.mem_filter.mp hpart).1).1

/-- An entry without a comma reads as itself, and a blank one as nothing. -/
theorem splitCsv_of_notMem_comma {s : String} (h : ',' ∉ s.toList) :
    splitCsv s = [s].filter (· ≠ "") := by
  rw [splitCsv, List.splitOn_eq_singleton h]
  by_cases hs : s = ""
  · rw [hs]
    rfl
  · have hlist : s.toList ≠ [] := fun hnil => hs (String.toList_eq_nil_iff.mp hnil)
    simp [hs, hlist]

theorem splitCsv_foldl (entries : List String) (joined : String) :
    splitCsv (entries.foldl appendCsv joined) = splitCsv joined ++ entries.flatMap splitCsv := by
  induction entries generalizing joined with
  | nil => simp
  | cons s entries ih =>
      rw [List.foldl_cons, ih, splitCsv_appendCsv, List.flatMap_cons, List.append_assoc]

theorem splitCsv_joinCsv (entries : List String) :
    splitCsv (joinCsv entries) = entries.flatMap splitCsv := by
  rw [joinCsv, splitCsv_foldl, splitCsv_empty, List.nil_append]

theorem flatMap_splitCsv {entries : List String} (h : ∀ s ∈ entries, ',' ∉ s.toList) :
    entries.flatMap splitCsv = entries.filter (· ≠ "") := by
  induction entries with
  | nil => rfl
  | cons s entries ih =>
      rw [List.flatMap_cons, splitCsv_of_notMem_comma (h s List.mem_cons_self),
        ih fun t ht => h t (List.mem_cons_of_mem _ ht), ← List.filter_append,
        List.singleton_append]

theorem foldl_appendCsv_ne_empty {joined : String} (h : joined ≠ "") (entries : List String) :
    entries.foldl appendCsv joined ≠ "" := by
  induction entries generalizing joined with
  | nil => exact h
  | cons s entries ih => exact ih (appendCsv_ne_empty h s)

theorem joinCsv_eq_empty_iff (entries : List String) :
    joinCsv entries = "" ↔ entries.filter (· ≠ "") = [] := by
  induction entries with
  | nil => exact iff_of_true rfl rfl
  | cons s entries ih =>
      have hfirst : joinCsv (s :: entries) = entries.foldl appendCsv s := by
        rw [joinCsv, List.foldl_cons, appendCsv, if_pos rfl]
      by_cases hs : s = ""
      · rw [hfirst, hs, List.filter_cons_of_neg (by decide)]
        exact ih
      · rw [hfirst, List.filter_cons_of_pos (by simpa using hs)]
        exact iff_of_false (foldl_appendCsv_ne_empty hs entries) (List.cons_ne_nil _ _)

theorem ne_empty_of_mem_splitCsv {s item : String} (h : item ∈ splitCsv s) : item ≠ "" := by
  obtain ⟨part, hpart, rfl⟩ := List.mem_map.mp h
  intro hempty
  rw [String.ofList_eq_empty_iff.mp hempty] at hpart
  simp at hpart

/-- The characters of a joined text are the separated ones of the entries. -/
theorem toList_joinCsv (entries : List String) :
    (joinCsv entries).toList =
      (entries.map String.toList).foldl (Separated.append ',') [] := by
  have happend : ∀ joined s : String,
      (appendCsv joined s).toList = Separated.append ',' joined.toList s.toList := by
    intro joined s
    rw [appendCsv, Separated.append]
    by_cases h : joined = ""
    · simp [h]
    · simp [h, String.toList_eq_nil_iff]
  have hfold : ∀ joined : String, (entries.foldl appendCsv joined).toList =
      (entries.map String.toList).foldl (Separated.append ',') joined.toList := by
    induction entries with
    | nil => exact fun _ => rfl
    | cons s entries ih =>
        intro joined
        rw [List.foldl_cons, ih, happend, List.map_cons, List.foldl_cons]
  exact hfold ""

/-- Some entries of a text give it back when they are all of its pieces. -/
theorem joinCsv_filter_splitCsv {s : String} (hs : s ≠ "") (p : String → Bool) :
    joinCsv ((splitCsv s).filter p) = s ↔
      [] ∉ s.toList.splitOn ',' ∧ ∀ item ∈ splitCsv s, p item = true := by
  have hlist : s.toList ≠ [] := fun hnil => hs (String.toList_eq_nil_iff.mp hnil)
  have hparts : ((splitCsv s).filter p).map String.toList =
      (s.toList.splitOn ',').filter fun part => !part.isEmpty && p (String.ofList part) := by
    rw [splitCsv, List.filter_map, List.filter_filter, List.map_map]
    simp only [Function.comp_def, String.toList_ofList, List.map_id', Bool.and_comm]
  rw [← String.toList_inj, toList_joinCsv, hparts,
    Separated.foldl_append_filter_splitOn_iff hlist fun part hpart => ?_]
  · simp only [splitCsv, List.forall_mem_map, List.mem_filter, Bool.and_eq_true, and_imp]
    constructor
    · intro h
      refine ⟨fun hnil => ?_, fun part hpart _ => (h part hpart).2⟩
      exact Bool.false_ne_true (h [] hnil).1
    · rintro ⟨hnil, h⟩ part hpart
      have hne : (!part.isEmpty) = true := by
        rw [Bool.not_eq_true', List.isEmpty_eq_false_iff]
        exact fun heq => hnil (heq ▸ hpart)
      exact ⟨hne, h part hpart hne⟩
  · rintro rfl
    exact Bool.false_ne_true hpart

/-! ### What the three blocks join -/

/-- The entries which are not blank. -/
def keptEntries (items : List Json) : List String :=
  (stringEntries items).filter (· ≠ "")

/-- The currencies which are known, all of them without a list of the known ones. -/
def keptCurrencies (valid : List String) (items : List Json) : List String :=
  (stringEntries items).filter fun code => valid = [] ∨ code ∈ valid

theorem joinCurrencies_eq {valid : List String} {items : List Json} {joined out : String}
    (h : joinCurrencies valid items joined = .ok out) :
    out = (keptCurrencies valid items).foldl appendCsv joined := by
  induction items, joined using joinCurrencies.induct valid with
  | case1 joined =>
      cases h
      rfl
  | case2 joined code items hdrop ih =>
      rw [joinCurrencies, if_pos hdrop] at h
      rw [ih h, keptCurrencies, keptCurrencies, stringEntries,
        List.filter_cons_of_neg (by simpa using hdrop)]
  | case3 joined code items hkeep ih =>
      rw [joinCurrencies, if_neg hkeep] at h
      rw [ih h, keptCurrencies, keptCurrencies, stringEntries,
        List.filter_cons_of_pos (by simpa [imp_iff_not_or] using hkeep), List.foldl_cons]
  | case4 => simp_all [joinCurrencies]

theorem checkPubkey_eq_ok {key s : String} (h : checkPubkey key s = .ok ()) :
    s.length = 64 ∧ isHexString s.toList = true := by
  simp only [checkPubkey] at h
  split at h
  · cases h
  · rename_i hlen
    split at h
    · cases h
    · rename_i hhex
      exact ⟨not_not.mp hlen, by simpa using hhex⟩

theorem plain_of_hexDigit {c : Char} (h : (hexDigit c).isSome = true) :
    0x20 ≤ c.toNat ∧ c.toNat ≠ 0x7F := by
  have hrange := Nostr.toNat_of_hexDigit h
  have hzero : '0'.toNat = 48 := rfl
  have hf : 'f'.toNat = 102 := rfl
  omega

theorem plain_of_checkPubkey {key s : String} (h : checkPubkey key s = .ok ()) : Plain s :=
  fun c hc => plain_of_hexDigit (List.all_eq_true.mp (checkPubkey_eq_ok h).2 c hc)

/-- Every public key which is joined has passed its check. -/
theorem joinPubkeys_eq {items : List Json} {count : ℕ} {joined out : String}
    (h : joinPubkeys items count joined = .ok out) :
    out = (keptEntries items).foldl appendCsv joined ∧
      ∀ s ∈ keptEntries items, checkPubkey kNostrZapPubkeys s = .ok () := by
  induction items, count, joined using joinPubkeys.induct with
  | case1 count joined =>
      cases h
      exact ⟨rfl, nofun⟩
  | case2 items count joined ih =>
      rw [joinPubkeys, if_pos rfl] at h
      exact ih h
  | case3 s items count joined hs e he => simp [joinPubkeys, hs, he] at h
  | case4 s items count joined hs hcheck hmany => simp [joinPubkeys, hs, hcheck, hmany] at h
  | case5 s items count joined hs hcheck hfew ih =>
      simp only [joinPubkeys, if_neg hs, hcheck, if_neg hfew] at h
      obtain ⟨hout, hall⟩ := ih h
      have hkept : keptEntries (.string s :: items) = s :: keptEntries items :=
        List.filter_cons_of_pos (by simpa using hs)
      rw [hkept]
      exact ⟨hout, List.forall_mem_cons.mpr ⟨hcheck, hall⟩⟩
  | case6 => simp_all [joinPubkeys]

theorem joinRelays_eq {items : List Json} {count n : ℕ} {joined out : String}
    (h : joinRelays items count joined = .ok (n, out)) :
    out = (keptEntries items).foldl appendCsv joined := by
  induction items, count, joined using joinRelays.induct with
  | case1 count joined =>
      cases h
      rfl
  | case2 items count joined ih =>
      rw [joinRelays, if_pos rfl] at h
      exact ih h
  | case3 s items count joined hs hscheme => simp [joinRelays, hs, hscheme] at h
  | case4 s items count joined hs hscheme hmany => simp [joinRelays, hs, hscheme, hmany] at h
  | case5 s items count joined hs hscheme hfew ih =>
      rw [joinRelays, if_neg hs, if_neg hscheme, if_neg hfew] at h
      have hkept : keptEntries (.string s :: items) = s :: keptEntries items :=
        List.filter_cons_of_pos (by simpa using hs)
      rw [hkept, List.foldl_cons]
      exact ih h
  | case6 => simp_all [joinRelays]

end Settings

end BtClock
