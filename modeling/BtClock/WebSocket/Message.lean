import Mathlib.Data.List.Basic
import Mathlib.Data.Nat.Notation

/-!
# Messages of a web socket

A message is sent in one or more frames, and a frame is handed on in one or more chunks.  The
first frame carries the op code of the message and the others the op code 0; only the last
frame has the flag `fin`.
-/

namespace WebSocket

/-- A chunk of a frame, as it is handed on. -/
structure DataEvent where
  opCode : ℕ
  fin : Bool
  /-- The length of the whole frame. -/
  payloadLen : ℕ
  payloadOffset : ℕ
  data : List UInt8
  deriving DecidableEq, Repr

/-- The frame is complete with this chunk. -/
def DataEvent.Completes (ev : DataEvent) : Prop :=
  ev.payloadLen ≤ ev.payloadOffset + ev.data.length

instance (ev : DataEvent) : Decidable ev.Completes :=
  inferInstanceAs (Decidable (_ ≤ _))

/-- The chunks of a frame.  A frame without bytes is one empty chunk. -/
structure Frame where
  chunks : List (List UInt8)
  full : chunks = [[]] ∨ chunks ≠ [] ∧ ∀ c ∈ chunks, c ≠ []

def Frame.payload (f : Frame) : List UInt8 :=
  f.chunks.flatten

/-- The chunks from an offset on, of a frame of `len` bytes. -/
def chunkEvents (op : ℕ) (fin : Bool) (len : ℕ) : ℕ → List (List UInt8) → List DataEvent
  | _, [] => []
  | offset, c :: cs => ⟨op, fin, len, offset, c⟩ :: chunkEvents op fin len (offset + c.length) cs

def Frame.events (op : ℕ) (fin : Bool) (f : Frame) : List DataEvent :=
  chunkEvents op fin f.payload.length 0 f.chunks

/-- A message, which has a frame at least. -/
structure Message where
  first : Frame
  rest : List Frame := []

def Message.frames (m : Message) : List Frame :=
  m.first :: m.rest

def Message.payload (m : Message) : List UInt8 :=
  m.frames.flatMap Frame.payload

def Message.last (m : Message) : Frame :=
  m.frames.getLast (List.cons_ne_nil _ _)

/-- The last frame has a byte. -/
def Message.EndsFull (m : Message) : Prop :=
  m.last.payload ≠ []

def restEvents : List Frame → List DataEvent
  | [] => []
  | f :: fs => f.events 0 fs.isEmpty ++ restEvents fs

def Message.events (op : ℕ) (m : Message) : List DataEvent :=
  m.first.events op m.rest.isEmpty ++ restEvents m.rest

/-- The chunk belongs to a message with the op code `op`. -/
def Relevant (op : ℕ) (ev : DataEvent) : Prop :=
  ev.opCode = op ∨ ev.opCode = 0

instance (op : ℕ) : DecidablePred (Relevant op) :=
  fun ev => inferInstanceAs (Decidable (ev.opCode = op ∨ ev.opCode = 0))

/-! ### The last chunk of a message -/

/-- All chunks but the last leave the frame incomplete. -/
theorem exists_chunkEvents_eq (op : ℕ) (fin : Bool) {len : ℕ} (offset : ℕ) (c : List UInt8)
    {cs : List (List UInt8)} (hfull : ∀ d ∈ cs, d ≠ [])
    (hlen : offset + (c :: cs).flatten.length = len) :
    ∃ init e, chunkEvents op fin len offset (c :: cs) = init ++ [e] ∧
      ∀ ev ∈ init, ¬ev.Completes := by
  induction cs generalizing offset c with
  | nil => exact ⟨[], _, rfl, nofun⟩
  | cons d cs ih =>
      have hd : d ≠ [] := hfull d List.mem_cons_self
      have hpos : 0 < d.length := List.length_pos_iff.mpr hd
      obtain ⟨init, e, heq, hinit⟩ := ih (offset + c.length) d
        (fun x hx => hfull x (List.mem_cons_of_mem d hx))
        (by simp only [List.flatten_cons, List.length_append] at hlen ⊢; omega)
      refine ⟨_ :: init, e, by rw [chunkEvents, heq]; rfl, ?_⟩
      intro ev hev
      rcases List.mem_cons.mp hev with rfl | hev
      · simp only [DataEvent.Completes, List.flatten_cons, List.length_append] at hlen ⊢
        omega
      · exact hinit ev hev

theorem Frame.exists_events_eq (op : ℕ) (fin : Bool) (f : Frame) :
    ∃ init e, f.events op fin = init ++ [e] ∧ ∀ ev ∈ init, ¬ev.Completes := by
  obtain ⟨chunks, hfull⟩ := f
  rcases hfull with rfl | ⟨hne, hfull⟩
  · exact ⟨[], _, rfl, nofun⟩
  · obtain ⟨c, cs, rfl⟩ := List.exists_cons_of_ne_nil hne
    exact exists_chunkEvents_eq op fin 0 c
      (fun d hd => hfull d (List.mem_cons_of_mem c hd)) (Nat.zero_add _)

theorem mem_chunkEvents {op : ℕ} {fin : Bool} {len offset : ℕ} {cs : List (List UInt8)}
    {ev : DataEvent} (h : ev ∈ chunkEvents op fin len offset cs) :
    ev.opCode = op ∧ ev.fin = fin := by
  induction cs generalizing offset with
  | nil => cases h
  | cons c cs ih =>
      rcases List.mem_cons.mp h with rfl | h
      · exact ⟨rfl, rfl⟩
      · exact ih h

theorem exists_restEvents_eq {fs : List Frame} (hne : fs ≠ []) :
    ∃ init e, restEvents fs = init ++ [e] ∧ ∀ ev ∈ init, ¬(ev.fin = true ∧ ev.Completes) := by
  induction fs with
  | nil => exact absurd rfl hne
  | cons f fs ih =>
      obtain ⟨init, e, heq, hinit⟩ := f.exists_events_eq 0 fs.isEmpty
      cases fs with
      | nil =>
          refine ⟨init, e, by rw [restEvents, heq]; simp [restEvents], ?_⟩
          exact fun ev hev h => hinit ev hev h.2
      | cons g fs =>
          obtain ⟨init', e', heq', hinit'⟩ := ih (List.cons_ne_nil g fs)
          refine ⟨f.events 0 false ++ init', e', ?_, ?_⟩
          · rw [restEvents, heq', List.append_assoc]
            rfl
          · intro ev hev h
            rcases List.mem_append.mp hev with hev | hev
            · rw [(mem_chunkEvents hev).2] at h
              cases h.1
            · exact hinit' ev hev h

/-- Only the last chunk of a message has `fin` and completes its frame. -/
theorem Message.exists_events_eq (op : ℕ) (m : Message) :
    ∃ init e, m.events op = init ++ [e] ∧ ∀ ev ∈ init, ¬(ev.fin = true ∧ ev.Completes) := by
  obtain ⟨init, e, heq, hinit⟩ := m.first.exists_events_eq op m.rest.isEmpty
  cases hrest : m.rest with
  | nil =>
      rw [hrest] at heq
      refine ⟨init, e, by rw [Message.events, hrest, heq]; simp [restEvents], ?_⟩
      exact fun ev hev h => hinit ev hev h.2
  | cons g fs =>
      obtain ⟨init', e', heq', hinit'⟩ := exists_restEvents_eq (List.cons_ne_nil g fs)
      refine ⟨m.first.events op false ++ init', e', ?_, ?_⟩
      · rw [Message.events, hrest, heq', List.append_assoc]
        rfl
      · intro ev hev h
        rcases List.mem_append.mp hev with hev | hev
        · rw [(mem_chunkEvents hev).2] at h
          cases h.1
        · exact hinit' ev hev h

end WebSocket
