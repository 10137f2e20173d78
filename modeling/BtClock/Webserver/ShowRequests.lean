import Mathlib.Data.List.TakeWhile
import BtClock.Webserver.Request
import BtClock.Webserver.ShowText

/-!
# The requests which show a text

A text comes in the body under one of two names, or in the query.  The body is read again where
no text was found, and the second reading finds nothing.
-/

namespace BtClock

namespace ShowText

open Reading Settings Auth Webserver

/-! ### The body -/

/-- A buffer of bytes up to its end. -/
def cText (buf : List UInt8) : List UInt8 :=
  buf.takeWhile (· ≠ 0)

def isAcceptableBodySize (contentLen maxBytes : ℕ) : Bool :=
  decide (0 < contentLen) && decide (contentLen ≤ maxBytes)

/-- The loop of `ReadFullBody`, with the number of bytes which are missing. -/
def readLoop (left : ℕ) (reads : BodyReads) : Option (List UInt8) × BodyReads :=
  if _hleft : 0 < left then
    match recv left reads with
    | (.failed _, reads) => (none, reads)
    | (.got [], reads) => (none, reads)
    | (.got (b :: bs), reads) =>
        let rest := readLoop (left - (b :: bs).length) reads
        (rest.1.map ((b :: bs) ++ ·), rest.2)
  else (some [], reads)
termination_by left
decreasing_by simp only [List.length_cons]; omega

def readFullBody (contentLen maxBytes : ℕ) (reads : BodyReads) :
    Option (List UInt8) × BodyReads :=
  if isAcceptableBodySize contentLen maxBytes = false then (none, reads)
  else
    let out := readLoop contentLen reads
    (out.1.map cText, out.2)

/-- `cJSON_Parse`. -/
abbrev JsonParse := List UInt8 → Option Json

/-- The text of a string, up to its end. -/
def valueString : Option Json → Option (List UInt8)
  | some (.string v) => some (cText (bytesOf v))
  | _ => none

def jsonStringParam (parse : JsonParse) (contentLen maxBytes : ℕ) (key : String)
    (reads : BodyReads) : Option (List UInt8) × BodyReads :=
  match readFullBody contentLen maxBytes reads with
  | (none, reads) => (none, reads)
  | (some body, reads) =>
      match parse body with
      | some (.object members) => (valueString ((Json.object members).getObjectItem key), reads)
      | _ => (none, reads)

/-! ### The payload -/

def parseShowTextBody (parse : JsonParse) (body : List UInt8) (nPanels : ℕ) :
    Except String (List Cell) :=
  if nPanels = 0 then .error "no_panels"
  else if body = [] then splitShowTextAcrossPanels [] nPanels
  else
    match parse body with
    | some (.object members) =>
        match valueString ((Json.object members).getObjectItem "text") with
        | some text => splitShowTextAcrossPanels text nPanels
        | none => .error "missing_text"
    | _ => .error "bad_json"

/-- The array itself, or the one in the member `cells`. -/
def cellItems : Json → Option (List Json)
  | .array items => some items
  | .object members =>
      match (Json.object members).getObjectItem "cells" with
      | some (.array items) => some items
      | _ => none
  | _ => none

/-- The items behind the last panel are not looked at. -/
def parseShowCustomBody (parse : JsonParse) (body : List UInt8) (nPanels : ℕ) :
    Except String (List Cell) :=
  if nPanels = 0 then .error "no_panels"
  else if body = [] then .error "bad_json"
  else
    match (parse body).bind cellItems with
    | none => .error "bad_json"
    | some items =>
        match (items.take nPanels).mapM fun e => valueString (some e) with
        | none => .error "bad_json"
        | some cells => .ok (cells ++ List.replicate (nPanels - cells.length) [])

def panelCount (numScreens : ℕ) : ℕ :=
  if numScreens ≠ 0 then numScreens else 7

def kShowTextMax : ℕ := 1024

def kShowCustomMax : ℕ := 8 * 1024

/-- `char qbuf[256]`. -/
def kTextBuffer : ℕ := 256

/-- The libraries which read the requests, and the number of screens. -/
structure ShowConfig where
  parse : JsonParse
  keyValue : QueryKeyValue
  numScreens : ℕ

/-- The text of the member `t` or of the parameter `t`, empty when there is none, and what is left
of the body. -/
def showTextParam (cfg : ShowConfig) (req : HttpRequest) : List UInt8 × BodyReads :=
  match jsonStringParam cfg.parse req.contentLen kShowTextMax "t" req.body with
  | (some text, reads) => (text, reads)
  | (none, reads) => (((queryParam cfg.keyValue req.query "t" kTextBuffer).map
      fun value => value.map Nostr.byteOfChar).getD [], reads)

/-- The cells of a request for a text. -/
def showTextPayload (cfg : ShowConfig) (req : HttpRequest) : Except String (List Cell) :=
  let nPanels := panelCount cfg.numScreens
  match showTextParam cfg req with
  | (text, reads) =>
      if text ≠ [] then splitShowTextAcrossPanels text nPanels
      else
        let body := (readFullBody req.contentLen kShowTextMax reads).1
        parseShowTextBody cfg.parse (body.getD []) nPanels

/-- The cells of a request for single cells. -/
def showCustomPayload (cfg : ShowConfig) (req : HttpRequest) : Except String (List Cell) :=
  match (readFullBody req.contentLen kShowCustomMax req.body).1 with
  | none => .error "bad body"
  | some body => parseShowCustomBody cfg.parse body (panelCount cfg.numScreens)

/-! ### The pending cells and the command queue -/

inductive Kind
  | kFullRefresh
  | kIdentify
  | kRestart
  | kShowScreen
  | kShowCurrency
  | kNextScreen
  | kPrevScreen
  | kStopDataSources
  | kRestartDataSources
  | kShowCustom
  | kRebuildScreens
  | kSetBlockFeeDec
  | kSetFont
  | kSetTimezone
  | kPublishLiveStatus
  deriving DecidableEq, Repr

/-- The pending payload is missing when it is not valid. -/
structure ControlServer (α : Type*) where
  queue : List Kind := []
  pendingCustom : Option α := none
  deriving DecidableEq, Repr

/-- `xQueueCreate(8, ..)`. -/
def kQueueLength : ℕ := 8

section Queue

variable {α : Type*}

/-- A command which finds no room is dropped. -/
def postCommand (cmd : Kind) (s : ControlServer α) : Bool × ControlServer α :=
  if s.queue.length < kQueueLength then (true, { s with queue := s.queue ++ [cmd] })
  else (false, s)

def tryPopCommand (s : ControlServer α) : Option Kind × ControlServer α :=
  match s.queue with
  | [] => (none, s)
  | cmd :: queue => (some cmd, { s with queue := queue })

def takePendingCustomCells (s : ControlServer α) : Option α × ControlServer α :=
  (s.pendingCustom, { s with pendingCustom := none })

def storePending (payload : α) (s : ControlServer α) : ControlServer α :=
  { s with pendingCustom := some payload }

@[simp]
theorem pendingCustom_postCommand (cmd : Kind) (s : ControlServer α) :
    (postCommand cmd s).2.pendingCustom = s.pendingCustom := by
  rw [postCommand]
  split_ifs <;> rfl

end Queue

/-- `httpd_resp_send_err` with `HTTPD_400_BAD_REQUEST`. -/
def sendBadRequest (msg : String) : Reply where
  status := "400 Bad Request"
  contentType := "text/html"
  body := msg

def sendEmptyOk : Reply where
  contentType := "text/html"
  body := ""

/-- The cells of a request which passes the gate, or the answer of the refusal. -/
def admitShow (prefs : Prefs) (req : HttpRequest) (payload : Except String (List Cell)) :
    Except Reply (List Cell) :=
  if requireHttpAuth prefs req.authorization = false then .error sendUnauthorized
  else
    match payload with
    | .error error => .error (sendBadRequest error)
    | .ok cells => .ok cells

/-- The answer does not depend on the room in the queue. -/
def handleShow (payload : Except Reply (List Cell)) (s : ControlServer (List Cell)) :
    Reply × ControlServer (List Cell) :=
  match payload with
  | .error reply => (reply, s)
  | .ok cells => (sendEmptyOk, (postCommand .kShowCustom (storePending cells s)).2)

def handleShowText (cfg : ShowConfig) (prefs : Prefs) (req : HttpRequest) :
    ControlServer (List Cell) → Reply × ControlServer (List Cell) :=
  handleShow (admitShow prefs req (showTextPayload cfg req))

def handleShowCustom (cfg : ShowConfig) (prefs : Prefs) (req : HttpRequest) :
    ControlServer (List Cell) → Reply × ControlServer (List Cell) :=
  handleShow (admitShow prefs req (showCustomPayload cfg req))

/-- The cells of an admitted request are pending, whether there is room in the queue or not. -/
theorem pendingCustom_handleShow {prefs : Prefs} {req : HttpRequest}
    (hauth : requireHttpAuth prefs req.authorization = true) (cells : List Cell)
    (s : ControlServer (List Cell)) :
    (handleShow (admitShow prefs req (.ok cells)) s).2.pendingCustom = some cells := by
  simp [handleShow, admitShow, hauth, storePending]

/-! ### What a request carries -/

def charOfByte (b : UInt8) : Char :=
  Char.ofNat b.toNat

def textOf (s : List UInt8) : String :=
  String.ofList (s.map charOfByte)

inductive Form
  | jsonT
  | jsonText
  | queryT
  deriving DecidableEq, Repr

/-- The name of the member or of the parameter. -/
def Form.key : Form → String
  | .jsonT => "t"
  | .jsonText => "text"
  | .queryT => "t"

/-- A text with escapes in the place of some of its bytes. -/
inductive PercentEncodes : List Char → List UInt8 → Prop
  | nil : PercentEncodes [] []
  | plain {raw : List Char} {s : List UInt8} {b : UInt8} (hplus : charOfByte b ≠ '+')
      (hpercent : charOfByte b ≠ '%') (h : PercentEncodes raw s) :
      PercentEncodes (charOfByte b :: raw) (b :: s)
  | blank {raw : List Char} {s : List UInt8} (h : PercentEncodes raw s) :
      PercentEncodes ('+' :: raw) (0x20 :: s)
  | escape {raw : List Char} {s : List UInt8} {b : UInt8} {x y : Char} {hi lo : ℕ}
      (hx : Nostr.hexDigit x = some hi) (hy : Nostr.hexDigit y = some lo)
      (hb : b.toNat = 16 * hi + lo) (h : PercentEncodes raw s) :
      PercentEncodes ('%' :: x :: y :: raw) (b :: s)

/-- The body is read once, in pieces. -/
structure Delivers (req : HttpRequest) (body : List UInt8) : Prop where
  contentLen : req.contentLen = body.length
  pending : pending req.body = body
  pieces : ∀ r ∈ req.body, ∃ piece, piece ≠ [] ∧ r = .got piece

/-- The request has the text in that form, within the limits. -/
def Carries (cfg : ShowConfig) (s : List UInt8) (req : HttpRequest) : Form → Prop
  | .queryT =>
      Delivers req [] ∧ 0 < req.query.length ∧ req.query.length < kQueryBuffer ∧
        ∃ raw, cfg.keyValue req.query Form.queryT.key = some raw ∧ raw.length < kTextBuffer ∧
          PercentEncodes raw s
  | form =>
      req.query = [] ∧ ∃ body, Delivers req body ∧ body ≠ [] ∧ body.length ≤ kShowTextMax ∧
        cfg.parse (cText body) = some (.object [(form.key, .string (textOf s))])

/-- The cells of the text are pending behind the request. -/
def ShowsText (cfg : ShowConfig) (prefs : Prefs) (s : List UInt8) (req : HttpRequest) : Prop :=
  ∀ server, ∃ cells, splitShowTextAcrossPanels s (panelCount cfg.numScreens) = .ok cells ∧
    (handleShowText cfg prefs req server).2.pendingCustom = some cells

theorem panelCount_pos (numScreens : ℕ) : 0 < panelCount numScreens := by
  rw [panelCount]
  split_ifs <;> omega

theorem toNat_charOfByte (b : UInt8) : (charOfByte b).toNat = b.toNat := by
  have hb : b.toNat < 256 := b.toNat_lt
  have hvalid : b.toNat.isValidChar := Or.inl (by omega)
  rw [charOfByte, Char.ofNat, dif_pos hvalid]
  rfl

theorem byteOfChar_charOfByte (b : UInt8) : Nostr.byteOfChar (charOfByte b) = b := by
  rw [Nostr.byteOfChar, toNat_charOfByte, UInt8.ofNat_toNat]

theorem bytesOf_textOf (s : List UInt8) : bytesOf (textOf s) = s := by
  rw [bytesOf, textOf, String.toList_ofList, List.map_map]
  conv_rhs => rw [← List.map_id s]
  exact List.map_congr_left fun b _ => byteOfChar_charOfByte b

theorem charOfByte_eq_nul_iff (b : UInt8) : charOfByte b = '\x00' ↔ b = 0 := by
  rw [← Char.toNat_inj, toNat_charOfByte, ← UInt8.toNat_inj]
  rfl

/-- A value is cut at the same byte as a text. -/
theorem map_cString (s : List UInt8) :
    (cString (s.map charOfByte)).map Nostr.byteOfChar = cText s := by
  induction s with
  | nil => rfl
  | cons b s ih =>
      simp only [cString, cText, List.map_cons, List.takeWhile_cons, ne_eq, decide_not,
        charOfByte_eq_nul_iff] at ih ⊢
      by_cases hb : b = 0
      · simp [hb]
      · simp [hb, byteOfChar_charOfByte, ih]

/-- The decoder undoes the encoding. -/
theorem PercentEncodes.urlDecodeInPlace {raw : List Char} {s : List UInt8}
    (h : PercentEncodes raw s) :
    Webserver.urlDecodeInPlace raw = some (s.map charOfByte) := by
  induction h with
  | nil => rfl
  | @plain raw s b hplus hpercent h ih =>
      rw [Webserver.urlDecodeInPlace.eq_def]
      simp [hplus, hpercent, ih]
  | blank h ih =>
      have hblank : charOfByte 0x20 = ' ' := rfl
      rw [Webserver.urlDecodeInPlace.eq_def]
      simp [ih, hblank]
  | escape hx hy hb h ih =>
      rw [Webserver.urlDecodeInPlace.eq_def]
      simp [hx, hy, ih, charOfByte, hb]

/-! ### Which forms show the text -/

theorem readLoop_nil (left : ℕ) (hleft : 0 < left) : readLoop left [] = (none, []) := by
  rw [readLoop, dif_pos hleft]
  rfl

theorem readLoop_pieces {reads : BodyReads}
    (h : ∀ r ∈ reads, ∃ piece, piece ≠ [] ∧ r = .got piece) :
    readLoop (pending reads).length reads = (some (pending reads), []) := by
  induction reads with
  | nil => rw [readLoop]; rfl
  | cons r reads ih =>
      obtain ⟨piece, hpiece, rfl⟩ := h r List.mem_cons_self
      obtain ⟨b, bs, rfl⟩ := List.exists_cons_of_ne_nil hpiece
      have hrest := ih fun r hr => h r (List.mem_cons_of_mem _ hr)
      have hle : (b :: bs).length ≤ (pending (.got (b :: bs) :: reads)).length := by
        rw [pending_got, List.length_append]
        exact Nat.le_add_right _ _
      have hrecv : recv (pending (.got (b :: bs) :: reads)).length (.got (b :: bs) :: reads) =
          (.got (b :: bs), reads) := by
        rw [recv, List.take_of_length_le hle, List.drop_eq_nil_of_le hle, putBack_nil]
      have hleft : (pending (.got (b :: bs) :: reads)).length - (b :: bs).length =
          (pending reads).length := by
        rw [pending_got, List.length_append, Nat.add_sub_cancel_left]
      rw [readLoop, dif_pos (Nat.lt_of_lt_of_le (Nat.succ_pos _) hle), hrecv]
      dsimp only
      rw [hleft, hrest]
      rfl

/-- A body which was delivered is read, and nothing is left of it. -/
theorem readFullBody_of_delivers {req : HttpRequest} {body : List UInt8} {maxBytes : ℕ}
    (h : Delivers req body) (hne : body ≠ []) (hle : body.length ≤ maxBytes) :
    readFullBody req.contentLen maxBytes req.body = (some (cText body), []) := by
  have hpos : 0 < body.length := List.length_pos_iff.mpr hne
  have hloop := readLoop_pieces h.pieces
  rw [h.pending] at hloop
  simp [readFullBody, isAcceptableBodySize, h.contentLen, hpos, hle, hloop]

/-- Nothing is read of a body which was read before. -/
theorem readFullBody_nil (contentLen maxBytes : ℕ) :
    readFullBody contentLen maxBytes [] = (none, []) := by
  rw [readFullBody]
  split_ifs with hsize
  · rfl
  · have hpos : 0 < contentLen := by
      simp only [isAcceptableBodySize, Bool.and_eq_false_iff, not_or, decide_eq_false_iff_not,
        not_not] at hsize
      exact hsize.1
    rw [readLoop_nil contentLen hpos]
    rfl

theorem readFullBody_of_empty {req : HttpRequest} (h : Delivers req []) (maxBytes : ℕ)
    (reads : BodyReads) : readFullBody req.contentLen maxBytes reads = (none, reads) := by
  simp [readFullBody, isAcceptableBodySize, h.contentLen]

theorem parseShowTextBody_nil (parse : JsonParse) (n : ℕ) :
    parseShowTextBody parse [] n = splitShowTextAcrossPanels [] n := by
  rw [parseShowTextBody, splitShowTextAcrossPanels, if_pos (rfl : ([] : List UInt8) = [])]
  split_ifs <;> rfl

/-- The payload from the first reading, where the second one finds nothing. -/
theorem showTextPayload_eq {cfg : ShowConfig} {req : HttpRequest} {text : List UInt8}
    (reads : BodyReads) (htext : showTextParam cfg req = (text, reads))
    (hnone : (readFullBody req.contentLen kShowTextMax reads).1 = none) :
    showTextPayload cfg req = splitShowTextAcrossPanels text (panelCount cfg.numScreens) := by
  rw [showTextPayload]
  simp only [htext, hnone, Option.getD_none, parseShowTextBody_nil]
  split_ifs with hne
  · rfl
  · rw [not_not.mp hne]

/-- The text which is found. -/
def Form.found (s : List UInt8) : Form → List UInt8
  | .jsonText => []
  | _ => cText s

theorem showTextPayload_of_carries {cfg : ShowConfig} {req : HttpRequest} {s : List UInt8}
    {form : Form} (h : Carries cfg s req form) :
    showTextPayload cfg req =
      splitShowTextAcrossPanels (form.found s) (panelCount cfg.numScreens) := by
  cases form with
  | queryT =>
      obtain ⟨hbody, hpos, hshort, raw, hraw, hlen, hencodes⟩ := h
      have hparam : queryParam cfg.keyValue req.query "t" kTextBuffer =
          some (cString (s.map charOfByte)) := by
        have hlimits : ¬ (req.query.length = 0 ∨ kQueryBuffer ≤ req.query.length) := by omega
        change cfg.keyValue req.query "t" = some raw at hraw
        rw [queryParam, if_neg hlimits, hraw]
        simp only [if_neg (Nat.not_le.mpr hlen), hencodes.urlDecodeInPlace, Option.map_some]
      refine showTextPayload_eq req.body ?_
        (congrArg Prod.fst (readFullBody_of_empty hbody _ _))
      simp only [showTextParam, jsonStringParam, readFullBody_of_empty hbody, hparam,
        Option.map_some, Option.getD_some, map_cString, Form.found]
  | jsonT =>
      obtain ⟨hquery, body, hbody, hne, hle, hparse⟩ := h
      refine showTextPayload_eq [] ?_ (congrArg Prod.fst (readFullBody_nil _ _))
      simp [showTextParam, jsonStringParam, readFullBody_of_delivers hbody hne hle, hparse,
        Form.key, Json.getObjectItem, valueString, bytesOf_textOf, Form.found]
  | jsonText =>
      obtain ⟨hquery, body, hbody, hne, hle, hparse⟩ := h
      refine showTextPayload_eq [] ?_ (congrArg Prod.fst (readFullBody_nil _ _))
      have hkey : ("text" == "t") = false := rfl
      simp [showTextParam, jsonStringParam, readFullBody_of_delivers hbody hne hle, hparse,
        Form.key, Json.getObjectItem, valueString, Form.found, hquery, queryParam]

/-- A text has a first glyph. -/
theorem splitShowTextAcrossPanels_ne {s : List UInt8} (hs : s ≠ []) {n : ℕ} (hn : 0 < n) :
    splitShowTextAcrossPanels [] n ≠ splitShowTextAcrossPanels s n := by
  intro heq
  obtain ⟨m, rfl⟩ : ∃ m, n = m + 1 := ⟨n - 1, by omega⟩
  obtain ⟨glyphs, hglyphs⟩ := exists_glyphs s
  rw [splitShowTextAcrossPanels, splitShowTextAcrossPanels, if_neg (Nat.ne_of_gt hn),
    if_neg (Nat.ne_of_gt hn), fillPanels_eq .nil, fillPanels_eq hglyphs] at heq
  have hcells := Except.ok.inj heq
  cases hglyphs with
  | nil => exact hs rfl
  | sequence h hrest =>
      exact sequence_ne_nil h (List.cons.inj hcells).1.symm
  | byte h hrest => exact absurd (List.cons.inj hcells).1 (List.cons_ne_nil _ _).symm

/-- The cells of a text are pending behind a request in every form but the one with the member
`text`, up to the end of the text as a string of C. -/
theorem handleShowText_showsText_iff {cfg : ShowConfig} {prefs : Prefs} {req : HttpRequest}
    {s : List UInt8} {form : Form} (hauth : requireHttpAuth prefs req.authorization = true)
    (hs : s ≠ []) (h : Carries cfg s req form) :
    ShowsText cfg prefs s req ↔
      form ≠ .jsonText ∧ splitShowTextAcrossPanels (cText s) (panelCount cfg.numScreens) =
        splitShowTextAcrossPanels s (panelCount cfg.numScreens) := by
  have hn := panelCount_pos cfg.numScreens
  have hpayload := showTextPayload_of_carries h
  have hshows : ShowsText cfg prefs s req ↔
      splitShowTextAcrossPanels (form.found s) (panelCount cfg.numScreens) =
        splitShowTextAcrossPanels s (panelCount cfg.numScreens) := by
    have hsplit (text : List UInt8) : splitShowTextAcrossPanels text (panelCount cfg.numScreens) =
        .ok (fillPanels (panelCount cfg.numScreens) text) := if_neg (Nat.ne_of_gt hn)
    have hpending (server : ControlServer (List Cell)) :
        (handleShowText cfg prefs req server).2.pendingCustom =
          some (fillPanels (panelCount cfg.numScreens) (form.found s)) := by
      rw [handleShowText, hpayload, hsplit, pendingCustom_handleShow hauth]
    simp only [ShowsText, hpending, hsplit, Except.ok.injEq, Option.some.injEq, exists_eq_left']
    exact ⟨fun heq => heq {}, fun heq _ => heq⟩
  rw [hshows]
  cases form with
  | jsonText => simpa [Form.found] using splitShowTextAcrossPanels_ne hs hn
  | jsonT => simp [Form.found]
  | queryT => simp [Form.found]

/-- A text without a NUL is read in full. -/
theorem cText_of_notMem {s : List UInt8} (h : 0 ∉ s) : cText s = s :=
  List.takeWhile_eq_self_iff.mpr fun _ hb => decide_eq_true fun hzero => h (hzero ▸ hb)

/-- The body with the text `A` in the member `text`. -/
def legacyBody : List UInt8 :=
  bytesOf "\x7b\"text\":\"A\"\x7d"

def legacyRequest : HttpRequest where
  contentLen := 12
  body := [.got legacyBody]

/-- The body with the text `A` in the member `t`. -/
def shortBody : List UInt8 :=
  bytesOf "\x7b\"t\":\"A\"\x7d"

def shortRequest : HttpRequest where
  contentLen := 9
  body := [.got shortBody]

/-- The values of the two bodies. -/
def twoBodies : ShowConfig where
  parse body :=
    if body = legacyBody then some (.object [("text", .string "A")])
    else if body = shortBody then some (.object [("t", .string "A")])
    else none
  keyValue _ _ := none
  numScreens := 7

theorem carries_shortRequest : Carries twoBodies [0x41] shortRequest .jsonT := by
  have hdelivers : Delivers shortRequest shortBody := by
    refine ⟨by decide, by simp [shortRequest], fun r hr => ⟨shortBody, by decide, ?_⟩⟩
    exact List.mem_singleton.mp hr
  have hparse : twoBodies.parse (cText shortBody) =
      some (.object [("t", .string (textOf [0x41]))]) := by
    have hne : cText shortBody ≠ legacyBody := by decide
    have hbody : cText shortBody = shortBody := by decide
    simp only [twoBodies, if_neg hne, if_pos hbody]
    rfl
  exact ⟨rfl, shortBody, hdelivers, by decide, by decide, hparse⟩

theorem showsText_shortRequest : ShowsText twoBodies Prefs.empty [0x41] shortRequest :=
  (handleShowText_showsText_iff rfl (by decide) carries_shortRequest).mpr
    ⟨by decide, by rw [cText_of_notMem (by decide)]⟩

/-- The form which the handler documents clears the panels. -/
theorem legacyRequest_not_showsText :
    Carries twoBodies [0x41] legacyRequest .jsonText ∧
      (handleShowText twoBodies Prefs.empty legacyRequest {}).2.pendingCustom =
        some [[], [], [], [], [], [], []] ∧
      ¬ ShowsText twoBodies Prefs.empty [0x41] legacyRequest := by
  have hdelivers : Delivers legacyRequest legacyBody := by
    refine ⟨by decide, by simp [legacyRequest], fun r hr => ⟨legacyBody, by decide, ?_⟩⟩
    exact List.mem_singleton.mp hr
  have hparse : twoBodies.parse (cText legacyBody) =
      some (.object [("text", .string (textOf [0x41]))]) := by
    have hbody : cText legacyBody = legacyBody := by decide
    simp only [twoBodies, if_pos hbody]
    rfl
  have hcarries : Carries twoBodies [0x41] legacyRequest .jsonText :=
    ⟨rfl, legacyBody, hdelivers, by decide, by decide, hparse⟩
  have hpending : (handleShowText twoBodies Prefs.empty legacyRequest {}).2.pendingCustom =
      some [[], [], [], [], [], [], []] := by
    rw [handleShowText, showTextPayload_of_carries hcarries]
    rfl
  refine ⟨hcarries, hpending, fun h => ?_⟩
  obtain ⟨cells, hcells, hshown⟩ := h {}
  rw [hpending] at hshown
  obtain rfl := Option.some.inj hshown
  exact absurd hcells (by decide)

end ShowText

end BtClock
