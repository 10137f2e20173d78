import BtClock.Nostr.Content

/-!
# The envelope parser

The walker which decodes one frame of a relay.  A position in the frame is the list of
the characters from there on.  The reasons of a `CLOSED`, `NOTICE` or `OK` frame are only
logged and are left out.
-/

namespace BtClock

namespace Nostr

namespace JsonWalker

def isWs (c : Char) : Bool :=
  c = ' ' || c = '\t' || c = '\n' || c = '\r'

def skipWs (s : List Char) : List Char :=
  s.dropWhile isWs

/-- The character which a one-letter escape stands for. -/
def unescape (c : Char) : Option Char :=
  if c = '"' then some '"'
  else if c = '\\' then some '\\'
  else if c = '/' then some '/'
  else if c = 'n' then some '\n'
  else if c = 'r' then some '\r'
  else if c = 't' then some '\t'
  else if c = 'b' then some (Char.ofNat 8)
  else if c = 'f' then some (Char.ofNat 12)
  else none

/-- The contents of a string up to its closing quote.  An escape by number is passed
through as it stands. -/
def stringBody : List Char → Option (List Char × List Char)
  | [] => none
  | '"' :: rest => some ([], rest)
  | '\\' :: 'u' :: a :: b :: c :: d :: rest =>
      (stringBody rest).map fun (body, rest) => ('\\' :: 'u' :: a :: b :: c :: d :: body, rest)
  | '\\' :: e :: rest =>
      match unescape e with
      | none => none
      | some c => (stringBody rest).map fun (body, rest) => (c :: body, rest)
  | ['\\'] => none
  | c :: rest => (stringBody rest).map fun (body, rest) => (c :: body, rest)

def parseString : List Char → Option (String × List Char)
  | '"' :: rest => (stringBody rest).map fun (body, rest) => (String.ofList body, rest)
  | _ => none

/-- An optional sign, and whether it is a minus. -/
def takeSign : List Char → Bool × List Char
  | '-' :: rest => (true, rest)
  | '+' :: rest => (false, rest)
  | s => (false, s)

/-- The digits behind a point. -/
def takeFraction : List Char → List Char × List Char
  | '.' :: rest => (rest.takeWhile isDigit, rest.dropWhile isDigit)
  | s => ([], s)

/-- The exponent, 0 without digits, and whether it is negative. -/
def takeExponent : List Char → (Bool × ℕ) × List Char
  | c :: rest =>
      if c = 'e' ∨ c = 'E' then
        let (negative, rest) := takeSign rest
        ((negative, digitsValue (rest.takeWhile isDigit)), rest.dropWhile isDigit)
      else ((false, 0), c :: rest)
  | [] => ((false, 0), [])

def parseNumber (s : List Char) : Option (Float × List Char) :=
  let (minus, s) := takeSign s
  let whole := s.takeWhile isDigit
  let (fraction, s) := takeFraction (s.dropWhile isDigit)
  let ((negative, exponent), s) := takeExponent s
  if whole = [] ∧ fraction = [] then none
  else
    let mantissa := digitsValue (whole ++ fraction)
    let value :=
      if negative then Float.ofScientific mantissa true (exponent + fraction.length)
      else if exponent < fraction.length then
        Float.ofScientific mantissa true (fraction.length - exponent)
      else Float.ofScientific mantissa false (exponent - fraction.length)
    some (if minus then -value else value, s)

/-- The loop which skips an object or an array: `depth` counts the brackets of the kind
it began with. -/
def skipBrackets (opening closing : Char) : ℕ → Bool → List Char → Option (List Char)
  | _, _, [] => none
  | depth, true, '\\' :: _ :: rest => skipBrackets opening closing depth true rest
  | depth, true, d :: rest => skipBrackets opening closing depth (d != '"') rest
  | depth, false, d :: rest =>
      if d = '"' then skipBrackets opening closing depth true rest
      else if d = opening then skipBrackets opening closing (depth + 1) false rest
      else if d = closing then
        if depth = 1 then some rest else skipBrackets opening closing (depth - 1) false rest
      else skipBrackets opening closing depth false rest

def isDelimiter (c : Char) : Bool :=
  c = ',' || c = ']' || c = '}' || isWs c

/-- Skips a value of any kind. -/
def skipValue (s : List Char) : Option (List Char) :=
  let s := skipWs s
  match s with
  | [] => none
  | c :: _ =>
      if c = '"' then (parseString s).map Prod.snd
      else if c = '{' then skipBrackets '{' '}' 0 false s
      else if c = '[' then skipBrackets '[' ']' 0 false s
      else if c = '-' ∨ isDigit c = true then (parseNumber s).map Prod.snd
      else if isDelimiter c then none
      else some (s.dropWhile fun d => !isDelimiter d)

/-- Expects the character `c`, and skips the white space behind it. -/
def expect (c : Char) : List Char → Option (List Char)
  | d :: rest => if d = c then some (skipWs rest) else none
  | [] => none

/-- The items of an array after its opening bracket.  An item consumes a character at
least, so the length of the text bounds the number of turns. -/
def itemLoop {α : Type} (item : List Char → Option (α × List Char)) :
    ℕ → List Char → Option (List α × List Char)
  | 0, _ => none
  | fuel + 1, s => do
      let (a, s) ← item s
      match skipWs s with
      | ']' :: rest => return ([a], rest)
      | ',' :: rest =>
          let (as, s) ← itemLoop item fuel (skipWs rest)
          return (a :: as, s)
      | _ => none

def parseArray {α : Type} (item : List Char → Option (α × List Char)) (s : List Char) :
    Option (List α × List Char) := do
  let s ← expect '[' s
  match s with
  | ']' :: rest => return ([], rest)
  | _ => itemLoop item s.length s

def parseTag (s : List Char) : Option (Tag × List Char) :=
  (parseArray parseString s).map fun (values, rest) => (⟨values⟩, rest)

def parseTags (s : List Char) : Option (List Tag × List Char) :=
  parseArray parseTag s

/-- One field of the event object. -/
def parseField (ev : Event) (key : String) (s : List Char) : Option (Event × List Char) :=
  if key = "id" then (parseString s).map fun (v, s) => ({ ev with id := v }, s)
  else if key = "pubkey" then (parseString s).map fun (v, s) => ({ ev with pubkey := v }, s)
  else if key = "sig" then (parseString s).map fun (v, s) => ({ ev with sig := v }, s)
  else if key = "content" then
    (parseString s).map fun (v, s) => ({ ev with content := v }, s)
  else if key = "created_at" then
    (parseNumber s).map fun (d, s) => ({ ev with createdAt := d.toUInt64 }, s)
  else if key = "kind" then
    (parseNumber s).map fun (d, s) => ({ ev with kind := d.toUInt32 }, s)
  else if key = "tags" then (parseTags s).map fun (v, s) => ({ ev with tags := v }, s)
  else (skipValue s).map fun s => (ev, s)

/-- The fields of the event object after its opening brace. -/
def fieldLoop : ℕ → Event → List Char → Option Event
  | 0, _, _ => none
  | fuel + 1, ev, s => do
      let (key, s) ← parseString s
      let s ← expect ':' (skipWs s)
      let (ev, s) ← parseField ev key s
      match skipWs s with
      | '}' :: _ => return ev
      | ',' :: rest => fieldLoop fuel ev (skipWs rest)
      | _ => none

def parseEventObject (json : List Char) : Option Event := do
  let s ← expect '{' (skipWs json)
  match s with
  | '}' :: _ => return {}
  | _ => fieldLoop s.length {} s

end JsonWalker

open JsonWalker

inductive Envelope
  | event (subId : String) (ev : Event)
  | eose (subId : String)
  | closed (subId : String)
  | notice
  | ok (eventId : String)
  deriving DecidableEq, Repr

def parseEnvelope (frame : String) : Option Envelope := do
  let s ← expect '[' (skipWs frame.toList)
  let (type, s) ← parseString s
  let s := skipWs s
  if type = "EVENT" then
    let (subId, s) ← parseString (← expect ',' s)
    let s ← expect ',' (skipWs s)
    let rest ← skipValue s
    let ev ← parseEventObject (s.take (s.length - rest.length))
    return .event subId ev
  else if type = "EOSE" then
    let (subId, _) ← parseString (← expect ',' s)
    return .eose subId
  else if type = "CLOSED" then
    let (subId, _) ← parseString (← expect ',' s)
    return .closed subId
  else if type = "NOTICE" then
    let _ ← parseString (← expect ',' s)
    return .notice
  else if type = "OK" then
    let (eventId, _) ← parseString (← expect ',' s)
    return .ok eventId
  else none

example :
    parseEnvelope ("[\"EVENT\", \"s\",\x7b\"kind\":13194," ++
        "\"tags\":[[\"e\",\"a\\n\"],[]],\"x\":[1,\"]\"]\x7d]") =
      some (.event "s" { kind := 13194, tags := [⟨["e", "a\n"]⟩, ⟨[]⟩] }) := by
  decide

end Nostr

end BtClock
