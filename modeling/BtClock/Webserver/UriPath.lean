import BtClock.Coding.Separated
import BtClock.Nostr.EventVerify

/-!
# The path of a request below the web root

The query and the fragment are dropped, the escapes are decoded, and the segments are joined
again.  A byte string has one character for each byte.
-/

namespace BtClock

namespace StaticFiles

open Nostr (hexDigit)

/-! ### The path before the query -/

/-- What stands before the query and the fragment. -/
def uriPath (uri : List Char) : List Char :=
  uri.takeWhile fun c => c != '?' && c != '#'

/-- Decodes the escapes, and refuses a NUL.  A percent sign which starts no escape stays. -/
def decodePath : List Char → Option (List Char)
  | '%' :: x :: y :: rest =>
      match hexDigit x, hexDigit y with
      | some hi, some lo =>
          if Char.ofNat (16 * hi + lo) = '\x00' then none
          else (decodePath rest).map (Char.ofNat (16 * hi + lo) :: ·)
      | _, _ => (decodePath (x :: y :: rest)).map ('%' :: ·)
  | c :: rest => if c = '\x00' then none else (decodePath rest).map (c :: ·)
  | [] => some []

def slash : Char := '/'

def dot : List Char := ['.']

def dotDot : List Char := ['.', '.']

/-- The path with one more segment. -/
def appendSegment (out seg : List Char) : List Char :=
  Separated.append slash out seg

/-- The segments are appended to `out`; the empty ones and the single dots are left out. -/
def joinSegments : List (List Char) → List Char → Option (List Char)
  | [], out => some out
  | seg :: segs, out =>
      if seg = dotDot ∨ '\x00' ∈ seg then none
      else if seg ≠ [] ∧ seg ≠ dot then joinSegments segs (appendSegment out seg)
      else joinSegments segs out

def indexHtml : List Char := "index.html".toList

/-- The path below the web root, `none` for a request which is refused. -/
def normaliseUriPath (uri : List Char) : Option (List Char) :=
  if (uriPath uri).head? ≠ some slash then none
  else
    match decodePath (uriPath uri) with
    | none => none
    | some decoded =>
        match joinSegments ((decoded.drop 1).splitOn slash) [] with
        | none => none
        | some out =>
            if out = [] ∨ decoded.getLast? = some slash then some (appendSegment out indexHtml)
            else some out

/-! ### Decoding -/

/-- The decoded text, with the NULs. -/
def unescape : List Char → List Char
  | '%' :: x :: y :: rest =>
      match hexDigit x, hexDigit y with
      | some hi, some lo => Char.ofNat (16 * hi + lo) :: unescape rest
      | _, _ => '%' :: unescape (x :: y :: rest)
  | c :: rest => c :: unescape rest
  | [] => []

theorem map_cons_ite {decoded : Option (List Char)} {text : List Char} (c : Char)
    (h : decoded = if '\x00' ∈ text then none else some text) (hc : c ≠ '\x00') :
    decoded.map (c :: ·) = if '\x00' ∈ c :: text then none else some (c :: text) := by
  subst h
  have hmem : '\x00' ∈ c :: text ↔ '\x00' ∈ text := by
    rw [List.mem_cons, or_iff_right (Ne.symm hc)]
  simp only [hmem]
  split <;> rfl

theorem decodePath_eq (s : List Char) :
    decodePath s = if '\x00' ∈ unescape s then none else some (unescape s) := by
  fun_induction decodePath s with
  | case1 x y rest hi lo hx hy hnul =>
      simp only [unescape, hx, hy]
      rw [hnul, if_pos List.mem_cons_self]
  | case2 x y rest hi lo hx hy hnul ih =>
      simp only [unescape, hx, hy]
      exact map_cons_ite _ ih hnul
  | case3 x y rest hxy ih =>
      have hunescape : unescape ('%' :: x :: y :: rest) = '%' :: unescape (x :: y :: rest) := by
        rw [unescape]
        split
        · rename_i hi lo hx hy
          exact absurd hy (hxy hi lo hx)
        · rfl
      rw [hunescape]
      exact map_cons_ite _ ih (by decide)
  | case4 rest hplain =>
      rw [unescape.eq_2 _ _ hplain, if_pos List.mem_cons_self]
  | case5 c rest hplain hc ih =>
      rw [unescape.eq_2 _ _ hplain]
      exact map_cons_ite _ ih hc
  | case6 => rfl

/-! ### Joining the segments -/

/-- A segment which names an entry of its directory. -/
structure Entry (seg : List Char) : Prop where
  ne_nil : seg ≠ []
  ne_dot : seg ≠ dot
  ne_dotDot : seg ≠ dotDot
  noSlash : slash ∉ seg
  noNul : '\x00' ∉ seg

theorem entry_indexHtml : Entry indexHtml := by
  constructor <;> decide

/-- The segments which are kept. -/
def kept (segs : List (List Char)) : List (List Char) :=
  segs.filter fun seg => seg ≠ [] ∧ seg ≠ dot

theorem joinSegments_eq (segs : List (List Char)) (out : List Char) :
    joinSegments segs out =
      if dotDot ∈ segs ∨ ∃ seg ∈ segs, '\x00' ∈ seg then none
      else some ((kept segs).foldl appendSegment out) := by
  fun_induction joinSegments segs out with
  | case1 out => simp [kept]
  | case2 seg segs out hbad =>
      rw [if_pos]
      rcases hbad with rfl | hnul
      · exact Or.inl List.mem_cons_self
      · exact Or.inr ⟨seg, List.mem_cons_self, hnul⟩
  | case3 seg segs out hgood hkeep ih =>
      have hbad : (dotDot ∈ seg :: segs ∨ ∃ t ∈ seg :: segs, '\x00' ∈ t) ↔
          (dotDot ∈ segs ∨ ∃ t ∈ segs, '\x00' ∈ t) := by
        simp only [List.mem_cons, exists_eq_or_imp]
        grind
      rw [ih, kept, kept, List.filter_cons_of_pos (by simpa using hkeep), List.foldl_cons]
      simp only [hbad]
  | case4 seg segs out hgood hkeep ih =>
      have hbad : (dotDot ∈ seg :: segs ∨ ∃ t ∈ seg :: segs, '\x00' ∈ t) ↔
          (dotDot ∈ segs ∨ ∃ t ∈ segs, '\x00' ∈ t) := by
        simp only [List.mem_cons, exists_eq_or_imp]
        grind
      rw [ih, kept, kept, List.filter_cons_of_neg (by simpa using hkeep)]
      simp only [hbad]

/-- Nothing in the path leads out of the directory which it is below. -/
structure Confined (rel : List Char) : Prop where
  ne_nil : rel ≠ []
  relative : rel.head? ≠ some slash
  noNul : '\x00' ∉ rel
  segments : ∀ seg ∈ rel.splitOn slash, seg ≠ [] ∧ seg ≠ dot ∧ seg ≠ dotDot

section Joined

variable {segs : List (List Char)} (hne : segs ≠ []) (h : ∀ seg ∈ segs, Entry seg)

include hne h

/-- The entries are the segments of the path which they are joined to. -/
theorem splitOn_joined : (segs.foldl appendSegment []).splitOn slash = segs :=
  Separated.splitOn_foldl_append hne (fun seg hseg => (h seg hseg).ne_nil)
    fun seg hseg => (h seg hseg).noSlash

theorem confined_joined : Confined (segs.foldl appendSegment []) where
  ne_nil := by
    intro hnil
    have hsplit := splitOn_joined hne h
    rw [hnil, List.splitOn_nil] at hsplit
    exact (h [] (hsplit ▸ List.mem_cons_self)).ne_nil rfl
  relative := by
    intro hhead
    obtain ⟨rest, hrest⟩ := List.head?_eq_some_iff.mp hhead
    have hsplit := splitOn_joined hne h
    rw [hrest, Separated.splitOn_cons_self] at hsplit
    exact (h [] (hsplit ▸ List.mem_cons_self)).ne_nil rfl
  noNul := by
    intro hnul
    rcases Separated.mem_foldl_append hnul with hout | hslash | ⟨seg, hseg, hc⟩
    · cases hout
    · exact absurd hslash (by decide)
    · exact (h seg hseg).noNul hc
  segments := by
    rw [splitOn_joined hne h]
    exact fun seg hseg => ⟨(h seg hseg).ne_nil, (h seg hseg).ne_dot, (h seg hseg).ne_dotDot⟩

end Joined

/-! ### What is refused -/

/-- The path is not rooted, or its decoded text has a NUL or leads to a parent directory. -/
def Refused (uri : List Char) : Prop :=
  (uriPath uri).head? ≠ some slash ∨ '\x00' ∈ unescape (uriPath uri) ∨
    dotDot ∈ (unescape (uriPath uri)).splitOn slash

/-- The segments of a decoded path, the default file behind a directory. -/
def servedSegments (decoded : List Char) : List (List Char) :=
  kept ((decoded.drop 1).splitOn slash) ++
    if kept ((decoded.drop 1).splitOn slash) = [] ∨ decoded.getLast? = some slash then [indexHtml]
    else []

theorem servedSegments_ne_nil (decoded : List Char) : servedSegments decoded ≠ [] := by
  intro hnil
  rw [servedSegments, List.append_eq_nil_iff] at hnil
  rw [if_pos (Or.inl hnil.1)] at hnil
  exact absurd hnil.2 (by simp)

theorem entry_of_mem_servedSegments {decoded seg : List Char} (hnul : '\x00' ∉ decoded)
    (hparent : dotDot ∉ (decoded.drop 1).splitOn slash) (h : seg ∈ servedSegments decoded) :
    Entry seg := by
  rw [servedSegments, List.mem_append] at h
  rcases h with hkept | hindex
  · obtain ⟨hseg, hkeep⟩ := List.mem_filter.mp hkept
    obtain ⟨hne, hdot⟩ := of_decide_eq_true hkeep
    obtain ⟨hslash, hsub⟩ := Separated.of_mem_splitOn hseg
    exact ⟨hne, hdot, fun h => hparent (h ▸ hseg), hslash,
      fun h => hnul (List.mem_of_mem_drop (hsub _ h))⟩
  · split at hindex
    · rw [List.mem_singleton.mp hindex]
      exact entry_indexHtml
    · cases hindex

instance (uri : List Char) : Decidable (Refused uri) :=
  inferInstanceAs (Decidable (_ ∨ _ ∨ _))

/-- Decoding leaves the slash at the front. -/
theorem unescape_slash (path : List Char) :
    unescape (slash :: path) = slash :: unescape path := by
  rw [unescape.eq_2]
  intro x y rest hslash
  exact absurd hslash (by decide)

theorem ne_nil_of_mem_kept {segs : List (List Char)} {seg : List Char} (h : seg ∈ kept segs) :
    seg ≠ [] :=
  (of_decide_eq_true (List.mem_filter.mp h).2).1

section Rooted

variable {uri path : List Char} (hpath : uriPath uri = slash :: path)

include hpath

theorem refused_rooted_iff :
    Refused uri ↔ '\x00' ∈ unescape path ∨ dotDot ∈ (unescape path).splitOn slash := by
  have hnul : '\x00' ∈ slash :: unescape path ↔ '\x00' ∈ unescape path := by
    rw [List.mem_cons, or_iff_right (by decide)]
  have hparent : dotDot ∈ [] :: (unescape path).splitOn slash ↔
      dotDot ∈ (unescape path).splitOn slash := by
    rw [List.mem_cons, or_iff_right (by decide)]
  rw [Refused, hpath, unescape_slash, Separated.splitOn_cons_self, hnul, hparent]
  exact or_iff_right (by simp)

theorem normaliseUriPath_rooted :
    normaliseUriPath uri =
      if Refused uri then none
      else some ((servedSegments (slash :: unescape path)).foldl appendSegment []) := by
  have hhead : ¬ (uriPath uri).head? ≠ some slash := by simp [hpath]
  rw [normaliseUriPath, if_neg hhead, decodePath_eq, hpath, unescape_slash]
  by_cases hnul : '\x00' ∈ unescape path
  · rw [if_pos (List.mem_cons_of_mem _ hnul), if_pos ((refused_rooted_iff hpath).mpr (Or.inl hnul))]
  have hcons : '\x00' ∉ slash :: unescape path := by
    rw [List.mem_cons, or_iff_right (by decide)]
    exact hnul
  have hsegs : ¬ ∃ seg ∈ (unescape path).splitOn slash, '\x00' ∈ seg := fun ⟨_, hseg, hmem⟩ =>
    hnul ((Separated.of_mem_splitOn hseg).2 _ hmem)
  have hrest : (slash :: unescape path).drop 1 = unescape path := rfl
  simp only [if_neg hcons, hrest, joinSegments_eq, hsegs, or_false]
  by_cases hparent : dotDot ∈ (unescape path).splitOn slash
  · rw [if_pos hparent, if_pos ((refused_rooted_iff hpath).mpr (Or.inr hparent))]
  have hgood : ¬ Refused uri := fun h =>
    ((refused_rooted_iff hpath).mp h).elim hnul hparent
  have hnil : (kept ((unescape path).splitOn slash)).foldl appendSegment [] = [] ↔
      kept ((unescape path).splitOn slash) = [] :=
    Separated.foldl_append_eq_nil_iff fun seg hseg => ne_nil_of_mem_kept hseg
  simp only [if_neg hparent, if_neg hgood, servedSegments, hrest, List.foldl_append, hnil]
  split <;> rfl

end Rooted

theorem normaliseUriPath_refused {uri : List Char} (h : Refused uri) :
    normaliseUriPath uri = none := by
  by_cases hhead : (uriPath uri).head? ≠ some slash
  · rw [normaliseUriPath, if_pos hhead]
  · obtain ⟨path, hpath⟩ := List.head?_eq_some_iff.mp (not_not.mp hhead)
    rw [normaliseUriPath_rooted hpath, if_pos h]

theorem confined_of_not_refused {uri : List Char} (h : ¬ Refused uri) :
    ∃ rel, normaliseUriPath uri = some rel ∧ Confined rel := by
  have hhead : (uriPath uri).head? = some slash :=
    not_not.mp fun hhead => h (Or.inl hhead)
  obtain ⟨path, hpath⟩ := List.head?_eq_some_iff.mp hhead
  obtain ⟨hnul, hparent⟩ := not_or.mp (mt (refused_rooted_iff hpath).mpr h)
  refine ⟨_, by rw [normaliseUriPath_rooted hpath, if_neg h], ?_⟩
  have hcons : '\x00' ∉ slash :: unescape path := by
    rw [List.mem_cons, or_iff_right (by decide)]
    exact hnul
  exact confined_joined (servedSegments_ne_nil _) fun seg hseg =>
    entry_of_mem_servedSegments hcons hparent hseg

theorem length_unescape_le (s : List Char) : (unescape s).length ≤ s.length := by
  fun_induction unescape s with
  | case1 x y rest hi lo hx hy ih =>
      simp only [List.length_cons] at ih ⊢
      omega
  | case2 x y rest hxy ih =>
      simp only [List.length_cons] at ih ⊢
      omega
  | case3 c rest hplain ih =>
      simp only [List.length_cons] at ih ⊢
      omega
  | case4 => exact Nat.le_refl _

theorem length_joined_le (decoded : List Char) :
    ((servedSegments decoded).foldl appendSegment []).length ≤ decoded.length + 12 := by
  have hjoin : ((servedSegments decoded).foldl appendSegment []).length ≤
      0 + ((servedSegments decoded).map fun seg => seg.length + 1).sum :=
    Separated.length_foldl_append_le _ _
  have hsplit := Separated.sum_length_splitOn slash (decoded.drop 1)
  have hkept : ((kept ((decoded.drop 1).splitOn slash)).map fun seg => seg.length + 1).sum ≤
      (((decoded.drop 1).splitOn slash).map fun seg => seg.length + 1).sum :=
    Separated.sum_length_filter_le _ _
  have hserved : ((servedSegments decoded).map fun seg => seg.length + 1).sum ≤
      ((kept ((decoded.drop 1).splitOn slash)).map fun seg => seg.length + 1).sum + 11 := by
    rw [servedSegments, List.map_append, List.sum_append]
    split
    · exact Nat.le_refl _
    · exact Nat.add_le_add_left (Nat.zero_le 11) _
  rw [List.length_drop] at hsplit
  omega

theorem length_normaliseUriPath_le {uri rel : List Char} (h : normaliseUriPath uri = some rel) :
    rel.length ≤ uri.length + 12 := by
  by_cases hrefused : Refused uri
  · rw [normaliseUriPath_refused hrefused] at h
    cases h
  · obtain ⟨path, hpath⟩ := List.head?_eq_some_iff.mp
      (not_not.mp fun hhead => hrefused (Or.inl hhead))
    rw [normaliseUriPath_rooted hpath, if_neg hrefused] at h
    have hjoin := length_joined_le (slash :: unescape path)
    have hdecoded := length_unescape_le path
    have huri : (uriPath uri).length ≤ uri.length := (List.takeWhile_sublist _).length_le
    rw [← Option.some.inj h]
    rw [hpath] at huri
    simp only [List.length_cons] at hjoin huri
    omega

/-- A path which is served is confined, and a request is refused exactly when its path is not
rooted or decodes to a text with a NUL or a parent segment. -/
theorem normaliseUriPath_confined (uri : List Char) :
    (∀ rel, normaliseUriPath uri = some rel → Confined rel) ∧
      (normaliseUriPath uri = none ↔ (uriPath uri).head? ≠ some '/' ∨
        '\x00' ∈ unescape (uriPath uri) ∨ ['.', '.'] ∈ (unescape (uriPath uri)).splitOn '/') := by
  by_cases hrefused : Refused uri
  · have hnone := normaliseUriPath_refused hrefused
    refine ⟨fun rel hrel => ?_, iff_of_true hnone hrefused⟩
    rw [hnone] at hrel
    cases hrel
  · obtain ⟨rel, hrel, hconfined⟩ := confined_of_not_refused hrefused
    refine ⟨fun rel' hrel' => ?_, iff_of_false (by simp [hrel]) hrefused⟩
    rw [hrel] at hrel'
    rwa [← Option.some.inj hrel']

end StaticFiles

end BtClock
