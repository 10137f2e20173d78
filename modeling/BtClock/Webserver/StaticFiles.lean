import BtClock.Webserver.BasicAuth
import BtClock.Webserver.UriPath

/-!
# The files of the user interface

A file is looked up below the web root, the compressed one first when the client takes it.
The app shell must not be cached, everything else may be for five minutes.
-/

namespace BtClock

namespace StaticFiles

open Auth (asciiLower)

/-! ### The type of a file -/

def endsWithCi (path ext : List Char) : Bool :=
  decide (ext.length ≤ path.length) && (path.drop (path.length - ext.length)).map asciiLower == ext

/-- The extensions with their types, in the order in which they are tried. -/
def mimeTypes : List (List String × String) :=
  [([".html", ".htm"], "text/html"), ([".js", ".mjs"], "application/javascript"),
    ([".css"], "text/css"), ([".json"], "application/json"), ([".svg"], "image/svg+xml"),
    ([".png"], "image/png"), ([".jpg", ".jpeg"], "image/jpeg"), ([".gif"], "image/gif"),
    ([".webp"], "image/webp"), ([".ico"], "image/x-icon"), ([".woff2"], "font/woff2"),
    ([".woff"], "font/woff"), ([".ttf"], "font/ttf"), ([".xml"], "application/xml"),
    ([".txt"], "text/plain"), ([".map"], "application/json")]

def mimeTypeForPath (path : List Char) : String :=
  let path := if endsWithCi path ".gz".toList then path.take (path.length - 3) else path
  match mimeTypes.find? fun entry => entry.1.any fun ext => endsWithCi path ext.toList with
  | some entry => entry.2
  | none => "application/octet-stream"

/-! ### The file of a request -/

/-- A request with its `Accept-Encoding` header.  A text is at most half of the address
space. -/
structure StaticRequest where
  uri : List Char
  acceptEncoding : Option (List Char) := none
  short : uri.length < 2 ^ 31

/-- A header which does not fit in the buffer counts as missing. -/
def requestAcceptsGzip (req : StaticRequest) : Bool :=
  match req.acceptEncoding with
  | none => false
  | some v => decide (v.length < 96) && v.tails.any fun t => "gzip".toList.isPrefixOf t

/-- The size in the directory, zero when it is not known, and what is read. -/
structure StaticFile where
  stSize : ℕ
  data : List UInt8
  deriving DecidableEq, Repr

abbrev LittleFs := List Char → Option StaticFile

def kWebRootBase : List Char := "/lfs/www".toList

def gzSuffix : List Char := ".gz".toList

structure Opened where
  file : StaticFile
  chosenGz : Bool
  spaFallback : Bool := false
  deriving DecidableEq, Repr

/-- The compressed file first when the client takes it, and last when it does not. -/
def openAsset (fs : LittleFs) (rel : List Char) (wantGz : Bool) : Option Opened :=
  let base := kWebRootBase ++ slash :: rel
  let gz := base ++ gzSuffix
  match if wantGz then fs gz else none with
  | some f => some { file := f, chosenGz := true }
  | none =>
      match fs base with
      | some f => some { file := f, chosenGz := false }
      | none => (if wantGz then none else fs gz).map fun f => { file := f, chosenGz := true }

/-- The routes which the app shell serves. -/
def kSpaRoutes : List (List Char) :=
  ["api".toList, "convert".toList]

def resolve (fs : LittleFs) (rel : List Char) (wantGz : Bool) : Option Opened :=
  match openAsset fs rel wantGz with
  | some opened => some opened
  | none =>
      if rel ∈ kSpaRoutes then
        (fs (kWebRootBase ++ slash :: indexHtml ++ gzSuffix)).map fun f =>
          { file := f, chosenGz := true, spaFallback := true }
      else none

/-! ### The caching policy -/

/-- The largest value of a size. -/
def npos : ℕ := 2 ^ 32 - 1

/-- The last place up to `i` where the pattern stands. -/
def rfindFrom (s pat : List Char) : ℕ → ℕ
  | 0 => if pat.isPrefixOf s then 0 else npos
  | i + 1 => if pat.isPrefixOf (s.drop (i + 1)) then i + 1 else rfindFrom s pat i

def rfind (s pat : List Char) : ℕ :=
  rfindFrom s pat s.length

/-- The difference of two sizes. -/
def sizeSub (m n : ℕ) : ℕ :=
  (m + (2 ^ 32 - n)) % 2 ^ 32

def slashIndexHtml : List Char := "/index.html".toList

def isIndexHtml (rel : List Char) : Bool :=
  rel == indexHtml || rfind rel slashIndexHtml == sizeSub rel.length 11

def cacheControl (rel : List Char) (spaFallback : Bool) : String :=
  if isIndexHtml rel || spaFallback then "no-cache" else "public, max-age=300"

/-! ### The response -/

inductive Body
  | whole (bytes : List UInt8)
  | chunks (pieces : List (List UInt8))
  | text (message : String)
  deriving DecidableEq, Repr

structure Response where
  status : String := "200 OK"
  contentType : String
  headers : List (String × String) := []
  body : Body
  deriving DecidableEq, Repr

def kSmallFileMax : ℕ := 2 * 1024

def kChunk : ℕ := 4 * 1024

/-- A small file is sent whole, and a short read of it is an error. -/
def fileResponse (contentType : String) (headers : List (String × String)) (f : StaticFile) :
    Response :=
  if 0 < f.stSize ∧ f.stSize ≤ kSmallFileMax then
    if (f.data.take f.stSize).length ≠ f.stSize then
      { status := "500 Internal Server Error", contentType := "text/html", headers,
        body := .text "short read" }
    else { contentType, headers, body := .whole (f.data.take f.stSize) }
  else { contentType, headers, body := .chunks (f.data.toChunks kChunk) }

def handleStatic (fs : Option LittleFs) (req : StaticRequest) : Response :=
  match normaliseUriPath req.uri with
  | none => { status := "400 Bad Request", contentType := "text/plain", body := .text "bad path" }
  | some rel =>
      match fs with
      | none =>
          { status := "503 Service Unavailable", contentType := "text/plain",
            headers := [("Retry-After", "10")], body := .text "filesystem not ready" }
      | some fs =>
          match resolve fs rel (requestAcceptsGzip req) with
          | none =>
              { status := "404 Not Found", contentType := "text/plain", body := .text "not found" }
          | some opened =>
              fileResponse (if opened.spaFallback then "text/html" else mimeTypeForPath rel)
                ((if opened.chosenGz then
                    [("Content-Encoding", "gzip"), ("Vary", "Accept-Encoding")] else []) ++
                  [("Cache-Control", cacheControl rel opened.spaFallback)]) opened.file

/-! ### The last occurrence -/

theorem slashIndexHtml_eq : slashIndexHtml = slash :: indexHtml := by
  decide

theorem length_slashIndexHtml : slashIndexHtml.length = 11 := by
  decide

section Rfind

variable {s pat : List Char}

theorem rfindFrom_of_prefix {k : ℕ} (h : pat <+: s.drop k) {i : ℕ} (hk : k ≤ i)
    (hlast : ∀ j, k < j → j ≤ i → ¬ pat <+: s.drop j) : rfindFrom s pat i = k := by
  induction i with
  | zero =>
      obtain rfl := Nat.le_zero.mp hk
      rw [List.drop_zero] at h
      rw [rfindFrom, if_pos (List.isPrefixOf_iff_prefix.mpr h)]
  | succ i ih =>
      by_cases hi : k = i + 1
      · rw [hi] at h
        rw [rfindFrom, if_pos (List.isPrefixOf_iff_prefix.mpr h), hi]
      · have hnot := hlast (i + 1) (by omega) (Nat.le_refl _)
        rw [rfindFrom, if_neg fun hpre => hnot (List.isPrefixOf_iff_prefix.mp hpre)]
        exact ih (by omega) fun j hj hji => hlast j hj (by omega)

/-- What is found is an occurrence. -/
theorem rfindFrom_spec (s pat : List Char) (i : ℕ) :
    rfindFrom s pat i = npos ∨ pat <+: s.drop (rfindFrom s pat i) := by
  induction i with
  | zero =>
      rw [rfindFrom]
      split
      · rename_i hpre
        exact Or.inr (List.isPrefixOf_iff_prefix.mp hpre)
      · exact Or.inl rfl
  | succ i ih =>
      rw [rfindFrom]
      split
      · rename_i hpre
        exact Or.inr (List.isPrefixOf_iff_prefix.mp hpre)
      · exact ih

/-- A pattern which is longer than the text is not found. -/
theorem rfind_eq_npos (h : s.length < pat.length) : rfind s pat = npos := by
  rcases rfindFrom_spec s pat s.length with hnone | hpre
  · exact hnone
  · have hlen := hpre.length_le
    rw [List.length_drop] at hlen
    omega

/-- The last occurrence is at the end exactly when the text ends with the pattern. -/
theorem rfind_eq_length_sub_iff (h : pat.length ≤ s.length) (hs : s.length < npos) :
    rfind s pat = s.length - pat.length ↔ pat <:+ s := by
  constructor
  · intro hfind
    rcases rfindFrom_spec s pat s.length with hnone | hpre
    · rw [rfind, hnone] at hfind
      omega
    · change pat <+: s.drop (rfind s pat) at hpre
      rw [hfind] at hpre
      have hwhole : pat = s.drop (s.length - pat.length) := by
        refine hpre.eq_of_length ?_
        rw [List.length_drop]
        omega
      rw [hwhole]
      exact List.drop_suffix _ s
  · intro hsuffix
    have hdrop := List.suffix_iff_eq_drop.mp hsuffix
    refine rfindFrom_of_prefix ⟨[], ?_⟩ (Nat.sub_le _ _) fun j hj _ hpre => ?_
    · rw [List.append_nil, ← hdrop]
    · have hlen := hpre.length_le
      rw [List.length_drop] at hlen
      omega

end Rfind

/-! ### What is the app shell -/

/-- The last segment of a path. -/
def lastSegment (rel : List Char) : Option (List Char) :=
  (rel.splitOn slash).getLast?

theorem lastSegment_eq_indexHtml_iff (rel : List Char) :
    lastSegment rel = some indexHtml ↔ rel = indexHtml ∨ slashIndexHtml <:+ rel := by
  rw [lastSegment, Separated.getLast?_splitOn_eq_some_iff, slashIndexHtml_eq]
  exact and_iff_right (by decide)

theorem sizeSub_eq {m n : ℕ} (hn : n ≤ m) (hm : m < 2 ^ 32) : sizeSub m n = m - n := by
  rw [sizeSub]
  omega

/-- The test takes every path of ten characters for the shell. -/
theorem isIndexHtml_iff {rel : List Char} (h : rel.length < npos) :
    isIndexHtml rel = true ↔ lastSegment rel = some indexHtml ∨ rel.length = 10 := by
  have hten : indexHtml.length = 10 := by decide
  rw [lastSegment_eq_indexHtml_iff, isIndexHtml, Bool.or_eq_true, beq_iff_eq, beq_iff_eq]
  by_cases hlong : 11 ≤ rel.length
  · have hsub : sizeSub rel.length 11 = rel.length - slashIndexHtml.length := by
      rw [length_slashIndexHtml]
      exact sizeSub_eq hlong (by rw [npos] at h; omega)
    rw [hsub, rfind_eq_length_sub_iff (length_slashIndexHtml ▸ hlong) h]
    constructor
    · exact fun hindex => Or.inl hindex
    · rintro (hindex | hlen)
      · exact hindex
      · omega
  · have hshort : rel.length < slashIndexHtml.length := by
      rw [length_slashIndexHtml]
      omega
    have hnot : ¬ slashIndexHtml <:+ rel := fun hsuffix => by
      have := hsuffix.length_le
      omega
    have hsub : npos = sizeSub rel.length 11 ↔ rel.length = 10 := by
      rw [npos, sizeSub]
      omega
    rw [rfind_eq_npos hshort, hsub]
    constructor
    · exact fun hindex => hindex.imp_left Or.inl
    · rintro ((hindex | hsuffix) | hlen)
      · exact Or.inl hindex
      · exact absurd hsuffix hnot
      · exact Or.inr hlen

theorem openAsset_spaFallback {fs : LittleFs} {rel : List Char} {wantGz : Bool}
    {opened : Opened} (h : openAsset fs rel wantGz = some opened) :
    opened.spaFallback = false := by
  simp only [openAsset] at h
  generalize fs (kWebRootBase ++ slash :: rel ++ gzSuffix) = gz at h
  generalize fs (kWebRootBase ++ slash :: rel) = base at h
  cases gz <;> cases base <;> cases wantGz <;> simp at h <;> rw [← h]

/-- Only a route of the app shell falls back to it. -/
theorem mem_kSpaRoutes {fs : LittleFs} {rel : List Char} {wantGz : Bool} {opened : Opened}
    (h : resolve fs rel wantGz = some opened) (hspa : opened.spaFallback = true) :
    rel ∈ kSpaRoutes := by
  unfold resolve at h
  split at h
  · rename_i found hfound
    rw [Option.some.inj h] at hfound
    rw [openAsset_spaFallback hfound] at hspa
    cases hspa
  · split at h
    · assumption
    · cases h

theorem length_ne_ten_of_mem_kSpaRoutes {rel : List Char} (h : rel ∈ kSpaRoutes) :
    rel.length ≠ 10 := by
  have hall : ∀ route ∈ kSpaRoutes, route.length ≠ 10 := by decide
  exact hall rel h

theorem fileResponse_headers (contentType : String) (headers : List (String × String))
    (f : StaticFile) : (fileResponse contentType headers f).headers = headers := by
  unfold fileResponse
  split
  · split <;> rfl
  · rfl

theorem handleStatic_cacheControl {fs : LittleFs} {req : StaticRequest} {rel : List Char}
    {opened : Opened} (hrel : normaliseUriPath req.uri = some rel)
    (hopened : resolve fs rel (requestAcceptsGzip req) = some opened) :
    (handleStatic (some fs) req).headers.lookup "Cache-Control" =
      some (cacheControl rel opened.spaFallback) := by
  simp only [handleStatic, hrel, hopened, fileResponse_headers]
  cases opened.chosenGz <;> rfl

/-- The policy of the caches: the app shell is not to be kept. -/
def cachePolicy (rel : List Char) (spaFallback : Bool) : String :=
  if lastSegment rel = some indexHtml ∨ spaFallback = true then "no-cache"
  else "public, max-age=300"

/-- The header of a file follows the policy, but for the other paths of ten characters. -/
theorem handleStatic_cachePolicy_iff {fs : LittleFs} {req : StaticRequest} {rel : List Char}
    {opened : Opened} (hrel : normaliseUriPath req.uri = some rel)
    (hopened : resolve fs rel (requestAcceptsGzip req) = some opened) :
    (handleStatic (some fs) req).headers.lookup "Cache-Control" =
        some (cachePolicy rel opened.spaFallback) ↔
      (rel.length = 10 → rel = indexHtml) := by
  have hlen : rel.length < npos := by
    have huri := length_normaliseUriPath_le hrel
    have hshort := req.short
    rw [npos]
    omega
  have hten : rel.length = 10 → (lastSegment rel = some indexHtml ↔ rel = indexHtml) := by
    intro hten
    rw [lastSegment_eq_indexHtml_iff]
    refine or_iff_left fun hsuffix => ?_
    have := hsuffix.length_le
    rw [length_slashIndexHtml] at this
    omega
  have hspa : opened.spaFallback = true → rel.length ≠ 10 := fun hspa =>
    length_ne_ten_of_mem_kSpaRoutes (mem_kSpaRoutes hopened hspa)
  have hindex := isIndexHtml_iff hlen
  have hne : "no-cache" ≠ "public, max-age=300" := by decide
  rw [handleStatic_cacheControl hrel hopened, Option.some_inj, cacheControl, cachePolicy]
  cases hfallback : opened.spaFallback with
  | true => simpa using fun h => absurd h (hspa hfallback)
  | false =>
      simp only [Bool.or_false, Bool.false_eq_true, or_false, hindex]
      by_cases hlast : lastSegment rel = some indexHtml
      · rw [if_pos (Or.inl hlast), if_pos hlast]
        exact iff_of_true rfl fun h => (hten h).mp hlast
      · rw [if_neg hlast]
        by_cases hlen : rel.length = 10
        · rw [if_pos (Or.inr hlen)]
          exact iff_of_false hne fun h => hlast ((hten hlen).mpr (h hlen))
        · rw [if_neg (not_or.mpr ⟨hlast, hlen⟩)]
          exact iff_of_true rfl fun h => absurd h hlen

/-- A file system with one file. -/
def oneFile (path : List Char) : LittleFs :=
  fun p => if p = path then some { stSize := 1, data := [0] } else none

def homePage : StaticRequest where
  uri := "/".toList
  short := by decide

theorem cachePolicy_homePage :
    (handleStatic (some (oneFile "/lfs/www/index.html".toList)) homePage).headers.lookup
        "Cache-Control" = some (cachePolicy indexHtml false) := by
  have hrel : normaliseUriPath homePage.uri = some indexHtml := by decide
  have hopened : resolve (oneFile "/lfs/www/index.html".toList) indexHtml
      (requestAcceptsGzip homePage) =
        some { file := { stSize := 1, data := [0] }, chosenGz := false } := by
    decide
  exact (handleStatic_cachePolicy_iff hrel hopened).mpr fun _ => rfl

def commitFile : StaticRequest where
  uri := "/commit.txt".toList
  short := by decide

/-- The file of the commit has a name of ten characters. -/
theorem commitFile_not_cachePolicy :
    normaliseUriPath commitFile.uri = some "commit.txt".toList ∧
      lastSegment "commit.txt".toList ≠ some indexHtml ∧
      resolve (oneFile "/lfs/www/commit.txt".toList) "commit.txt".toList false =
        some { file := { stSize := 1, data := [0] }, chosenGz := false } ∧
      (handleStatic (some (oneFile "/lfs/www/commit.txt".toList)) commitFile).headers.lookup
        "Cache-Control" = some "no-cache" := by
  decide

end StaticFiles

end BtClock
