import Mathlib.Algebra.Group.Nat.Defs
import Mathlib.Data.List.Basic
import Mathlib.Data.Nat.Notation

/-!
# Event streams

A text is read line by line.  The lines fill a buffer for the data and one for the type, and an
empty line dispatches what they hold.
-/

namespace EventStream

/-- A message as it is dispatched. -/
@[ext]
structure Event where
  type : List Char
  data : List Char
  lastEventId : List Char
  deriving DecidableEq

/-- The buffers of a parser. -/
structure Parser where
  data : List Char := []
  type : List Char := []
  lastEventId : List Char := []
  reconnectionTime : Option ℕ := none
  deriving DecidableEq

/-- The type of an event which names none. -/
def message : List Char := ['m', 'e', 's', 's', 'a', 'g', 'e']

/-- The lines which a text ends, by CR LF, by LF or by CR.  The first argument holds the line as
far as it is read. -/
def lines : List Char → List Char → List (List Char)
  | _, [] => []
  | line, '\r' :: '\n' :: rest => line :: lines [] rest
  | line, '\r' :: rest => line :: lines [] rest
  | line, '\n' :: rest => line :: lines [] rest
  | line, c :: rest => lines (line ++ [c]) rest

/-- The number of ASCII digits. -/
def ofDigits? (text : List Char) : Option ℕ :=
  if text ≠ [] ∧ text.all fun c => '0' ≤ c ∧ c ≤ '9' then
    some (text.foldl (fun n c => 10 * n + (c.toNat - '0'.toNat)) 0)
  else none

namespace Parser

def processField (p : Parser) (field value : List Char) : Parser :=
  if field = ['e', 'v', 'e', 'n', 't'] then { p with type := value }
  else if field = ['d', 'a', 't', 'a'] then { p with data := p.data ++ value ++ ['\n'] }
  else if field = ['i', 'd'] then
    if '\x00' ∈ value then p else { p with lastEventId := value }
  else if field = ['r', 'e', 't', 'r', 'y'] then
    match ofDigits? value with
    | some n => { p with reconnectionTime := some n }
    | none => p
  else p

/-- The event of the buffers, which are empty behind it. -/
def dispatch (p : Parser) : Parser × List Event :=
  let fresh := { p with data := [], type := [] }
  if p.data = [] then (fresh, [])
  else
    let data := if p.data.getLast? = some '\n' then p.data.dropLast else p.data
    let type := if p.type = [] then message else p.type
    (fresh, [{ type, data, lastEventId := p.lastEventId }])

/-- A value loses one space in front. -/
def fieldValue : List Char → List Char
  | ' ' :: value => value
  | value => value

def processLine (p : Parser) (line : List Char) : Parser × List Event :=
  if line = [] then p.dispatch
  else if line.head? = some ':' then (p, [])
  else if ':' ∈ line then
    let field := line.takeWhile (· ≠ ':')
    let value := line.drop (field.length + 1)
    (p.processField field (fieldValue value), [])
  else (p.processField line [], [])

/-- The lines one after the other. -/
def run : Parser → List (List Char) → Parser × List Event
  | p, [] => (p, [])
  | p, line :: rest =>
      let next := p.processLine line
      let last := next.1.run rest
      (last.1, next.2 ++ last.2)

end Parser

/-- The byte order mark which may stand in front of a stream. -/
def stripMark : List Char → List Char
  | '\uFEFF' :: rest => rest
  | text => text

/-- The events of a stream. -/
def interpret (text : List Char) : List Event :=
  (Parser.run {} (lines [] (stripMark text))).2

theorem stripMark_cons {c : Char} (h : c ≠ '\uFEFF') (rest : List Char) :
    stripMark (c :: rest) = c :: rest := by
  unfold stripMark
  split
  · rename_i heq
    exact absurd (List.cons.inj heq).1 h
  · rfl

/-! ### Lines -/

/-- The text ends no line. -/
def NoLineEnd (text : List Char) : Prop :=
  ∀ c ∈ text, c ≠ '\r' ∧ c ≠ '\n'

theorem lines_append_newline {body : List Char} (h : NoLineEnd body) (line rest : List Char) :
    lines line (body ++ '\n' :: rest) = (line ++ body) :: lines [] rest := by
  induction body generalizing line with
  | nil => simp [lines]
  | cons c body ih =>
      obtain ⟨hcr, hlf⟩ := h c List.mem_cons_self
      have hbody : NoLineEnd body := fun d hd => h d (List.mem_cons_of_mem _ hd)
      rw [List.cons_append]
      simp [lines, hcr, ih hbody]

theorem lines_flatMap {parts : List (List Char)} (h : ∀ part ∈ parts, NoLineEnd part)
    (rest : List Char) :
    lines [] (parts.flatMap (· ++ ['\n']) ++ rest) = parts ++ lines [] rest := by
  induction parts with
  | nil => rfl
  | cons part parts ih =>
      have hpart := h part List.mem_cons_self
      have hrest := ih fun p hp => h p (List.mem_cons_of_mem _ hp)
      rw [List.flatMap_cons, List.append_assoc, List.append_assoc, List.singleton_append,
        lines_append_newline hpart, hrest, List.nil_append, List.cons_append]

/-! ### Fields -/

namespace Parser

variable (p : Parser)

theorem run_append (first rest : List (List Char)) :
    p.run (first ++ rest) =
      (((p.run first).1.run rest).1, (p.run first).2 ++ ((p.run first).1.run rest).2) := by
  induction first generalizing p with
  | nil => rfl
  | cons line first ih => simp [run, ih]

theorem processLine_field {field : List Char} (hfield : ':' ∉ field) (hne : field ≠ [])
    (rest : List Char) :
    p.processLine (field ++ ':' :: rest) = (p.processField field (fieldValue rest), []) := by
  obtain ⟨c, field, rfl⟩ := List.exists_cons_of_ne_nil hne
  have hhead : c ≠ ':' := fun heq => hfield (heq ▸ List.mem_cons_self)
  have hall : ∀ d ∈ c :: field, decide (d ≠ ':') = true := fun d hd =>
    decide_eq_true fun heq => hfield (heq ▸ hd)
  have htake : (c :: field ++ ':' :: rest).takeWhile (· ≠ ':') = c :: field := by
    rw [List.takeWhile_append_of_pos hall, List.takeWhile_cons_of_neg (by simp), List.append_nil]
  have hdrop : (c :: field ++ ':' :: rest).drop ((c :: field).length + 1) = rest := by
    rw [List.drop_length_add_append, List.drop_succ_cons, List.drop_zero]
  rw [processLine, if_neg (by simp), if_neg (by simpa using hhead), if_pos (by simp)]
  simp only [htake, hdrop]

theorem processLine_event (value : List Char) :
    p.processLine (['e', 'v', 'e', 'n', 't'] ++ ':' :: ' ' :: value) =
      ({ p with type := value }, []) :=
  p.processLine_field (by decide) (by decide) (' ' :: value)

/-- A line of data, with the space in front of its value left out where the value is empty. -/
def dataLine (value : List Char) : List Char :=
  ['d', 'a', 't', 'a'] ++ ':' :: (if value = [] then [] else ' ' :: value)

theorem processLine_dataLine (value : List Char) :
    p.processLine (dataLine value) = ({ p with data := p.data ++ value ++ ['\n'] }, []) := by
  have hvalue : fieldValue (if value = [] then [] else ' ' :: value) = value := by
    split
    · rename_i hnil
      rw [hnil]
      rfl
    · rfl
  rw [dataLine, p.processLine_field (by decide) (by decide), hvalue]
  rfl

theorem run_dataLines (values : List (List Char)) :
    p.run (values.map dataLine) =
      ({ p with data := p.data ++ values.flatMap (· ++ ['\n']) }, []) := by
  induction values generalizing p with
  | nil => simp [run]
  | cons value values ih =>
      rw [List.map_cons, run, processLine_dataLine, ih]
      simp

theorem processLine_nil {data : List Char} (h : p.data = data ++ ['\n']) :
    p.processLine [] =
      ({ p with data := [], type := [] },
        [{ type := if p.type = [] then message else p.type, data
           lastEventId := p.lastEventId }]) := by
  have hne : p.data ≠ [] := by simp [h]
  have hlast : p.data.getLast? = some '\n' := by simp [h]
  have hfront : p.data.dropLast = data := by simp [h]
  rw [processLine, if_pos rfl, dispatch, if_neg hne, if_pos hlast, hfront]

end Parser

/-- The parts with a newline behind each are the text which they divide, with one behind it. -/
theorem flatMap_splitOn (text : List Char) :
    (text.splitOn '\n').flatMap (· ++ ['\n']) = text ++ ['\n'] := by
  have hjoin : ∀ parts : List (List Char), parts ≠ [] →
      parts.flatMap (· ++ ['\n']) = ['\n'].intercalate parts ++ ['\n'] := by
    intro parts hne
    induction parts with
    | nil => exact absurd rfl hne
    | cons part parts ih =>
        cases parts with
        | nil => simp
        | cons q parts =>
            rw [List.flatMap_cons, ih (List.cons_ne_nil _ _), List.intercalate_cons_cons]
            simp
  rw [hjoin _ (List.splitOn_ne_nil _ _), List.intercalate_splitOn]

/-- The lines of data are dispatched as the text whose parts they carry. -/
theorem run_dispatch {p : Parser} (hdata : p.data = []) (text : List Char) :
    p.run ((text.splitOn '\n').map Parser.dataLine ++ [[]]) =
      ({ p with data := [], type := [] },
        [{ type := if p.type = [] then message else p.type, data := text
           lastEventId := p.lastEventId }]) := by
  have hlast := Parser.processLine_nil { p with data := text ++ ['\n'] } rfl
  rw [Parser.run_append, Parser.run_dataLines, hdata, List.nil_append, flatMap_splitOn]
  simp only [Parser.run, hlast, List.nil_append, List.append_nil]

/-- A comment changes nothing. -/
theorem Parser.processLine_comment (p : Parser) (text : List Char) :
    p.processLine (':' :: text) = (p, []) := by
  rw [processLine, if_neg (List.cons_ne_nil _ _), List.head?_cons, if_pos rfl]

end EventStream
