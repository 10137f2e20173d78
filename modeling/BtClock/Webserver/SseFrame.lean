import BtClock.Coding.EventStream
import BtClock.Coding.Fields
import BtClock.Coding.Utf8

/-!
# The frames of the event stream

A frame names the event and carries its data line by line.  A browser which reads the frames of
the server dispatches one event for each of them.
-/

namespace BtClock

namespace SseFrame

open EventStream Fields Utf8

def kNewline : UInt8 := 0x0A

/-- `event: ` -/
def kEvent : List UInt8 := [0x65, 0x76, 0x65, 0x6E, 0x74, 0x3A, 0x20]

/-- `data:` -/
def kData : List UInt8 := [0x64, 0x61, 0x74, 0x61, 0x3A]

/-- One line of the loop. -/
def dataLine (data : List UInt8) (begin pos : ℕ) : List UInt8 :=
  kData ++ (if begin < pos then 0x20 :: (data.drop begin).take (pos - begin) else []) ++
    [kNewline]

/-- The loop over the newlines of the data. -/
def dataLines (data : List UInt8) (begin : ℕ) : List UInt8 :=
  if _hbegin : begin ≤ data.length then
    match _heq : findFrom [kNewline] data begin with
    | none => dataLine data begin data.length
    | some nl => dataLine data begin nl ++ dataLines data (nl + 1)
  else []
termination_by data.length + 1 - begin
decreasing_by
  have hle := (findFrom_eq_some _heq).1
  omega

def makeSseFrame (eventName data : List UInt8) : List UInt8 :=
  (if eventName ≠ [] then kEvent ++ eventName ++ [kNewline] else []) ++ dataLines data 0 ++
    [kNewline]

def makeSseComment (text : List UInt8) : List UInt8 :=
  [0x3A] ++ (if text ≠ [] then 0x20 :: text else []) ++ [kNewline, kNewline]

example : makeSseFrame [] [0x61, 0x0A] =
    kData ++ [0x20, 0x61, 0x0A] ++ kData ++ [0x0A, 0x0A] := by
  decide +kernel

/-! ### The lines of a frame -/

/-- The line of one part of the data. -/
def partLine (part : List UInt8) : List UInt8 :=
  kData ++ (if part = [] then [] else 0x20 :: part) ++ [kNewline]

theorem dataLine_eq {data : List UInt8} {begin pos : ℕ} (hpos : pos ≤ data.length) :
    dataLine data begin pos = partLine ((data.drop begin).take (pos - begin)) := by
  have hnil : (data.drop begin).take (pos - begin) = [] ↔ ¬ begin < pos := by
    rw [← List.length_eq_zero_iff, List.length_take, List.length_drop]
    omega
  rw [dataLine, partLine]
  by_cases h : begin < pos
  · rw [if_pos h, if_neg (fun heq => hnil.mp heq h)]
  · rw [if_neg h, if_pos (hnil.mpr h)]

/-- The loop writes one line for each part between the newlines. -/
theorem dataLines_eq (data : List UInt8) (begin : ℕ) (hbegin : begin ≤ data.length) :
    dataLines data begin = ((data.drop begin).splitOn kNewline).flatMap partLine := by
  rw [dataLines, dif_pos hbegin]
  split
  · rename_i hnone
    rw [dataLine_eq (Nat.le_refl _), List.take_of_length_le (by rw [List.length_drop]),
      List.splitOn_eq_singleton (not_mem_drop_of_findFrom_singleton hnone),
      List.flatMap_singleton]
  · rename_i nl hsome
    have hle := (findFrom_eq_some hsome).1
    obtain ⟨hlt, hnot, hdrop⟩ := drop_of_findFrom_singleton hsome
    have hsplit : (data.drop begin).splitOn kNewline =
        (data.drop begin).take (nl - begin) :: (data.drop (nl + 1)).splitOn kNewline := by
      conv_lhs => rw [hdrop]
      rw [List.splitOn_append_cons_self, List.splitOn_eq_singleton hnot, List.singleton_append]
    rw [dataLine_eq hlt.le, dataLines_eq data (nl + 1) hlt, hsplit, List.flatMap_cons]
termination_by data.length + 1 - begin

/-! ### The text of a frame -/

/-- The lines of a frame, the blank one at its end. -/
def frameLines (name data : List Char) : List (List Char) :=
  (if name = [] then [] else [['e', 'v', 'e', 'n', 't'] ++ ':' :: ' ' :: name]) ++
    ((data.splitOn '\n').map Parser.dataLine ++ [[]])

/-- The lines of a comment. -/
def commentLines (text : List Char) : List (List Char) :=
  [':' :: (if text = [] then [] else ' ' :: text), []]

/-- Lines with a newline behind each. -/
def textOf (lines : List (List Char)) : List Char :=
  lines.flatMap (· ++ ['\n'])

theorem encodeText_newline : encodeText ['\n'] = [kNewline] := by
  decide

theorem partLine_encodeText (part : List Char) :
    partLine (encodeText part) = encodeText (Parser.dataLine part ++ ['\n']) := by
  have hfront : encodeText (['d', 'a', 't', 'a'] ++ [':']) = kData := by
    decide
  have hvalue : (if encodeText part = [] then [] else 0x20 :: encodeText part) =
      encodeText (if part = [] then [] else ' ' :: part) := by
    by_cases h : part = []
    · rw [if_pos h, if_pos (encodeText_eq_nil_iff.mpr h)]
      rfl
    · rw [if_neg h, if_neg fun heq => h (encodeText_eq_nil_iff.mp heq)]
      rfl
  have hline : Parser.dataLine part =
      (['d', 'a', 't', 'a'] ++ [':']) ++ if part = [] then [] else ' ' :: part := by
    rw [Parser.dataLine, List.append_assoc, List.singleton_append]
  rw [hline, encodeText_append, encodeText_append, hfront, encodeText_newline, partLine, hvalue]

theorem textOf_cons (line : List Char) (lines : List (List Char)) :
    textOf (line :: lines) = line ++ ['\n'] ++ textOf lines :=
  List.flatMap_cons

theorem textOf_append (first rest : List (List Char)) :
    textOf (first ++ rest) = textOf first ++ textOf rest :=
  List.flatMap_append

theorem flatMap_partLine (parts : List (List Char)) :
    (parts.map encodeText).flatMap partLine = encodeText (textOf (parts.map Parser.dataLine)) := by
  induction parts with
  | nil => rfl
  | cons part parts ih =>
      rw [List.map_cons, List.flatMap_cons, ih, partLine_encodeText, List.map_cons, textOf_cons,
        encodeText_append (_ ++ _)]

/-- The frame of two texts is the text of its lines. -/
theorem makeSseFrame_encodeText (name data : List Char) :
    makeSseFrame (encodeText name) (encodeText data) =
      encodeText (textOf (frameLines name data)) := by
  have hparts : dataLines (encodeText data) 0 =
      encodeText (textOf ((data.splitOn '\n').map Parser.dataLine)) := by
    have hsplit : (encodeText data).splitOn kNewline = (data.splitOn '\n').map encodeText :=
      splitOn_encodeText (by decide) (by decide) data
    rw [dataLines_eq _ 0 (Nat.zero_le _), List.drop_zero, hsplit, flatMap_partLine]
  have hname : (if encodeText name ≠ [] then kEvent ++ encodeText name ++ [kNewline] else []) =
      encodeText (textOf
        (if name = [] then [] else [['e', 'v', 'e', 'n', 't'] ++ ':' :: ' ' :: name])) := by
    have hfront : encodeText (['e', 'v', 'e', 'n', 't'] ++ [':', ' ']) = kEvent := by
      decide
    by_cases h : name = []
    · rw [if_pos h, if_neg (not_not_intro (encodeText_eq_nil_iff.mpr h))]
      rfl
    · rw [if_neg h, if_pos fun heq => h (encodeText_eq_nil_iff.mp heq), ← hfront,
        ← encodeText_newline, ← encodeText_append, ← encodeText_append]
      simp [textOf]
  rw [makeSseFrame, hparts, hname, ← encodeText_newline, ← encodeText_append,
    ← encodeText_append, frameLines, textOf_append, textOf_append, List.append_assoc]
  rfl

theorem makeSseComment_encodeText (text : List Char) :
    makeSseComment (encodeText text) = encodeText (textOf (commentLines text)) := by
  have hfront : encodeText [':'] = [0x3A] := by decide
  have hend : [kNewline, kNewline] = encodeText ['\n', '\n'] := by decide
  have hvalue : (if encodeText text ≠ [] then 0x20 :: encodeText text else []) =
      encodeText (if text = [] then [] else ' ' :: text) := by
    by_cases h : text = []
    · rw [if_pos h, if_neg (not_not_intro (encodeText_eq_nil_iff.mpr h))]
      rfl
    · rw [if_neg h, if_pos fun heq => h (encodeText_eq_nil_iff.mp heq)]
      rfl
  rw [makeSseComment, hvalue, ← hfront, hend, ← encodeText_append, ← encodeText_append]
  simp [textOf, commentLines]

/-! ### What a browser makes of it -/

theorem frameLines_noLineEnd {name data : List Char} (hname : NoLineEnd name)
    (hdata : '\r' ∉ data) : ∀ line ∈ frameLines name data, NoLineEnd line := by
  intro line hline
  rw [frameLines, List.mem_append, List.mem_append, List.mem_map, List.mem_singleton] at hline
  rcases hline with hevent | ⟨part, hpart, rfl⟩ | rfl
  · split at hevent
    · cases hevent
    · rw [List.mem_singleton.mp hevent]
      intro c hc
      simp only [List.mem_append, List.mem_cons, List.not_mem_nil, or_false] at hc
      rcases hc with (rfl | rfl | rfl | rfl | rfl) | rfl | rfl | hc
      all_goals first | exact hname c hc | decide
  · obtain ⟨hnot, hsub⟩ := Separated.of_mem_splitOn hpart
    have hpart : NoLineEnd part := fun c hc =>
      ⟨fun heq => hdata (heq ▸ hsub c hc), fun heq => hnot (heq ▸ hc)⟩
    intro c hc
    simp only [Parser.dataLine, List.mem_append, List.mem_cons, List.not_mem_nil, or_false] at hc
    rcases hc with (rfl | rfl | rfl | rfl) | rfl | hc
    all_goals try decide
    split at hc
    · cases hc
    · rcases List.mem_cons.mp hc with rfl | hc
      · decide
      · exact hpart c hc
  · intro c hc
    cases hc

theorem commentLines_noLineEnd {text : List Char} (h : NoLineEnd text) :
    ∀ line ∈ commentLines text, NoLineEnd line := by
  intro line hline
  rw [commentLines, List.mem_cons, List.mem_singleton] at hline
  rcases hline with rfl | rfl
  · intro c hc
    rcases List.mem_cons.mp hc with rfl | hc
    · decide
    · split at hc
      · cases hc
      · rcases List.mem_cons.mp hc with rfl | hc
        · decide
        · exact h c hc
  · intro c hc
    cases hc

/-- What the server puts on the stream. -/
inductive Sent
  | frame (name data : List Char)
  | comment (text : List Char)

namespace Sent

def bytes : Sent → List UInt8
  | frame name data => makeSseFrame (encodeText name) (encodeText data)
  | comment text => makeSseComment (encodeText text)

def lines : Sent → List (List Char)
  | frame name data => frameLines name data
  | comment text => commentLines text

/-- The event which it stands for. -/
def events : Sent → List Event
  | frame name data =>
      [{ type := if name = [] then message else name, data, lastEventId := [] }]
  | comment _ => []

/-- A name and a comment take up one line, and the data ends its lines by LF. -/
def Plain : Sent → Prop
  | frame name data => NoLineEnd name ∧ '\r' ∉ data
  | comment text => NoLineEnd text

theorem bytes_eq (s : Sent) : s.bytes = encodeText (textOf s.lines) := by
  cases s with
  | frame name data => exact makeSseFrame_encodeText name data
  | comment text => exact makeSseComment_encodeText text

theorem Plain.noLineEnd {s : Sent} (h : s.Plain) : ∀ line ∈ s.lines, NoLineEnd line := by
  cases s with
  | frame name data => exact frameLines_noLineEnd h.1 h.2
  | comment text => exact commentLines_noLineEnd h

/-- A fresh parser is fresh again behind it. -/
theorem run_lines (s : Sent) : Parser.run {} s.lines = ({}, s.events) := by
  cases s with
  | frame name data =>
      rw [lines, frameLines, Parser.run_append]
      by_cases h : name = []
      · rw [if_pos h, Parser.run, run_dispatch rfl]
        simp [events, h]
      · have hevent := Parser.processLine_event {} name
        rw [if_neg h, Parser.run, hevent, Parser.run, run_dispatch rfl]
        simp [events, h]
  | comment text =>
      rw [lines, commentLines, Parser.run, Parser.processLine_comment]
      rfl

theorem run_stream (sent : List Sent) :
    Parser.run {} (sent.flatMap lines) = ({}, sent.flatMap events) := by
  induction sent with
  | nil => rfl
  | cons s sent ih => rw [List.flatMap_cons, Parser.run_append, run_lines, ih, List.flatMap_cons]

/-- No mark is taken off the front of the stream. -/
theorem stripMark_textOf (sent : List Sent) :
    stripMark (textOf (sent.flatMap lines)) = textOf (sent.flatMap lines) := by
  cases sent with
  | nil => rfl
  | cons s sent =>
      obtain ⟨c, rest, htext, hmark⟩ : ∃ c rest,
          textOf s.lines = c :: rest ∧ c ≠ '\uFEFF' := by
        cases s with
        | frame name data =>
            obtain ⟨part, parts, hparts⟩ :=
              List.exists_cons_of_ne_nil (List.splitOn_ne_nil '\n' data)
            by_cases h : name = []
            · refine ⟨'d', (textOf (frame name data).lines).tail, ?_, by decide⟩
              rw [lines, frameLines, if_pos h, hparts]
              rfl
            · refine ⟨'e', (textOf (frame name data).lines).tail, ?_, by decide⟩
              rw [lines, frameLines, if_neg h]
              rfl
        | comment text => exact ⟨':', _, rfl, by decide⟩
      rw [List.flatMap_cons, textOf_append, htext, List.cons_append, stripMark_cons hmark]

/-- A browser dispatches the events which were sent, in the order in which they were sent. -/
theorem interpret_stream {sent : List Sent} (h : ∀ s ∈ sent, s.Plain) :
    (decodeText? (sent.flatMap bytes)).map interpret = some (sent.flatMap events) := by
  have hbytes : sent.flatMap bytes = encodeText (textOf (sent.flatMap lines)) := by
    clear h
    induction sent with
    | nil => rfl
    | cons s sent ih =>
        rw [List.flatMap_cons, List.flatMap_cons, textOf_append, encodeText_append, ih, bytes_eq]
  have hlines : EventStream.lines [] (textOf (sent.flatMap lines)) = sent.flatMap lines := by
    have hplain : ∀ line ∈ sent.flatMap lines, NoLineEnd line := by
      intro line hline
      obtain ⟨s, hs, hmem⟩ := List.mem_flatMap.mp hline
      exact (h s hs).noLineEnd line hmem
    have hread := lines_flatMap hplain []
    rwa [List.append_nil, EventStream.lines, List.append_nil] at hread
  rw [hbytes, decodeText?_encodeText, Option.map_some, interpret, stripMark_textOf, hlines,
    run_stream]

end Sent

/-- A frame is one event with the name and the data which it was made of. -/
theorem interpret_makeSseFrame {name data : List Char} (hname : NoLineEnd name)
    (hdata : '\r' ∉ data) :
    (decodeText? (makeSseFrame (encodeText name) (encodeText data))).map interpret =
      some [{ type := if name = [] then message else name, data, lastEventId := [] }] := by
  have hplain : ∀ s ∈ [Sent.frame name data], s.Plain := by
    intro s hs
    rw [List.mem_singleton.mp hs]
    exact ⟨hname, hdata⟩
  have hstream := Sent.interpret_stream hplain
  rwa [List.flatMap_singleton, List.flatMap_singleton] at hstream

theorem interpret_makeSseFrame_log :
    NoLineEnd ['l', 'o', 'g'] ∧ '\r' ∉ ['\n', ' ', 'ü', '\n'] ∧
      (decodeText? (makeSseFrame (encodeText ['l', 'o', 'g'])
        (encodeText ['\n', ' ', 'ü', '\n']))).map interpret =
          some [{ type := ['l', 'o', 'g'], data := ['\n', ' ', 'ü', '\n'],
                  lastEventId := [] }] := by
  have hname : NoLineEnd ['l', 'o', 'g'] := by simp [NoLineEnd]
  exact ⟨hname, by simp, interpret_makeSseFrame hname (by simp)⟩

end SseFrame

end BtClock
