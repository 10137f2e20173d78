import BtClock.Transition.Emit
import BtClock.WebSocket.Message

/-!
# Putting messages together

A receiver has a buffer.  A chunk which starts something drops what is in the buffer, and after
a chunk which ends something the buffer is handed on.
-/

namespace WebSocket

open Transition

/-- The buffer after a chunk, and what is handed on.  A chunk without bytes is passed over. -/
def assemble (relevant starts ends : DataEvent → Prop) [DecidablePred relevant]
    [DecidablePred starts] [DecidablePred ends] (buf : List UInt8) (ev : DataEvent) :
    List UInt8 × List (List UInt8) :=
  if relevant ev ∧ 0 < ev.data.length then
    let buf := if starts ev then [] else buf
    let buf := buf ++ ev.data
    if ends ev then ([], [buf]) else (buf, [])
  else (buf, [])

section

variable {relevant starts ends : DataEvent → Prop} [DecidablePred relevant]
  [DecidablePred starts] [DecidablePred ends] {buf : List UInt8} {ev : DataEvent}

theorem assemble_of_not (h : ¬(relevant ev ∧ 0 < ev.data.length)) :
    assemble relevant starts ends buf ev = (buf, []) :=
  if_neg h

theorem assemble_empty {ev : DataEvent} (h : ev.data = []) :
    assemble relevant starts ends buf ev = (buf, []) :=
  assemble_of_not fun hpos => by simp [h] at hpos

/-- A chunk which goes on with what is in the buffer. -/
theorem assemble_append (hrel : relevant ev) (hdata : ev.data ≠ []) (hbuf : starts ev → buf = []) :
    assemble relevant starts ends buf ev =
      if ends ev then ([], [buf ++ ev.data]) else (buf ++ ev.data, []) := by
  have hkept : (if starts ev then [] else buf) = buf :=
    ite_eq_right_iff.mpr fun h => (hbuf h).symm
  rw [assemble, if_pos ⟨hrel, List.length_pos_iff.mpr hdata⟩, hkept]

/-- A chunk which starts something. -/
theorem assemble_start (hrel : relevant ev) (hdata : ev.data ≠ []) (hstarts : starts ev) :
    assemble relevant starts ends buf ev = assemble relevant starts ends [] ev := by
  simp only [assemble, if_pos hstarts, if_pos (And.intro hrel (List.length_pos_iff.mpr hdata))]

theorem emitted_assemble_eq_nil (buf : List UInt8) {evs : List DataEvent}
    (h : ∀ ev ∈ evs, ¬ends ev) : emitted (assemble relevant starts ends) buf evs = [] := by
  refine emitted_eq_nil (P := fun ev => ¬ends ev) ?_ buf h
  intro buf ev hev
  simp only [assemble, if_neg hev]
  split_ifs <;> rfl

/-! ### Chunks of a frame -/

variable {op : ℕ} {fin stop : Bool}

/-- Chunks which go on with what is in the buffer. -/
theorem run_chunkEvents (hrel : ∀ ev : DataEvent, ev.opCode = op → relevant ev)
    (hstarts : ∀ ev : DataEvent, starts ev → ev.payloadOffset = 0)
    (hends : ∀ ev : DataEvent, ev.fin = fin → (ends ev ↔ stop = true ∧ ev.Completes))
    {len : ℕ} (offset : ℕ) (buf : List UInt8) {cs : List (List UInt8)}
    (hfull : ∀ c ∈ cs, c ≠ []) (hcs : cs ≠ [])
    (hbuf : (∃ c, starts ⟨op, fin, len, offset, c⟩) → buf = [])
    (hlen : offset + cs.flatten.length = len) :
    (reached (assemble relevant starts ends) buf (chunkEvents op fin len offset cs),
        emitted (assemble relevant starts ends) buf (chunkEvents op fin len offset cs)) =
      if stop = true then ([], [buf ++ cs.flatten]) else (buf ++ cs.flatten, []) := by
  induction cs generalizing offset buf with
  | nil => exact absurd rfl hcs
  | cons c cs ih =>
      have hc : c ≠ [] := hfull c List.mem_cons_self
      have hpos : 0 < c.length := List.length_pos_iff.mpr hc
      simp only [List.flatten_cons, List.length_append] at hlen
      rw [chunkEvents, reached_cons, emitted_cons,
        assemble_append (hrel _ rfl) hc fun h => hbuf ⟨c, h⟩]
      cases cs with
      | nil =>
          have hcompletes : DataEvent.Completes ⟨op, fin, len, offset, c⟩ := by
            simp only [DataEvent.Completes, List.flatten_nil, List.length_nil] at hlen ⊢
            omega
          cases stop with
          | true =>
              rw [if_pos ((hends _ rfl).mpr ⟨rfl, hcompletes⟩)]
              simp [chunkEvents]
          | false =>
              rw [if_neg fun h => Bool.false_ne_true ((hends _ rfl).mp h).1]
              simp [chunkEvents]
      | cons d cs =>
          have hd : 0 < d.length :=
            List.length_pos_iff.mpr (hfull d (List.mem_cons_of_mem c List.mem_cons_self))
          have hmore : ¬DataEvent.Completes ⟨op, fin, len, offset, c⟩ := by
            simp only [DataEvent.Completes, List.flatten_cons, List.length_append] at hlen ⊢
            omega
          rw [if_neg fun h => hmore ((hends _ rfl).mp h).2]
          have hrest := ih (offset + c.length) (buf ++ c)
            (fun x hx => hfull x (List.mem_cons_of_mem c hx)) (List.cons_ne_nil d cs)
            (by rintro ⟨x, hx⟩; have := hstarts _ hx; simp only at this; omega) (by omega)
          rw [List.nil_append, hrest, List.append_assoc]
          rfl

/-- A frame which goes on with what is in the buffer. -/
theorem run_frame (hrel : ∀ ev : DataEvent, ev.opCode = op → relevant ev)
    (hstarts : ∀ ev : DataEvent, starts ev → ev.payloadOffset = 0)
    (hends : ∀ ev : DataEvent, ev.fin = fin → (ends ev ↔ stop = true ∧ ev.Completes))
    (buf : List UInt8) {f : Frame} (hne : f.payload ≠ [])
    (hbuf : (∃ ev, ev.opCode = op ∧ starts ev) → buf = []) :
    (reached (assemble relevant starts ends) buf (f.events op fin),
        emitted (assemble relevant starts ends) buf (f.events op fin)) =
      if stop = true then ([], [buf ++ f.payload]) else (buf ++ f.payload, []) := by
  obtain ⟨chunks, rfl | ⟨hcs, hfull⟩⟩ := f
  · exact absurd rfl hne
  · exact run_chunkEvents hrel hstarts hends 0 buf hfull hcs
      (fun ⟨_, hc⟩ => hbuf ⟨_, rfl, hc⟩) (Nat.zero_add _)

/-- A frame which starts something. -/
theorem run_startFrame (hrel : ∀ ev : DataEvent, ev.opCode = op → relevant ev)
    (hstarts : ∀ ev : DataEvent, starts ev → ev.payloadOffset = 0)
    (hends : ∀ ev : DataEvent, ev.fin = fin → (ends ev ↔ stop = true ∧ ev.Completes))
    (hstart : ∀ ev : DataEvent, ev.opCode = op → ev.payloadOffset = 0 → starts ev)
    (buf : List UInt8) {f : Frame} (hne : f.payload ≠ []) :
    (reached (assemble relevant starts ends) buf (f.events op fin),
        emitted (assemble relevant starts ends) buf (f.events op fin)) =
      if stop = true then ([], [f.payload]) else (f.payload, []) := by
  obtain ⟨chunks, rfl | ⟨hcs, hfull⟩⟩ := f
  · exact absurd rfl hne
  · obtain ⟨c, cs, rfl⟩ := List.exists_cons_of_ne_nil hcs
    have hc : c ≠ [] := hfull c List.mem_cons_self
    have hfirst : ∀ len, assemble relevant starts ends buf ⟨op, fin, len, 0, c⟩ =
        assemble relevant starts ends [] ⟨op, fin, len, 0, c⟩ :=
      fun _ => assemble_start (hrel _ rfl) hc (hstart _ rfl rfl)
    have hrun := run_chunkEvents hrel hstarts hends 0 [] hfull hcs (fun _ => rfl)
      (Nat.zero_add _)
    rw [List.nil_append] at hrun
    simp only [chunkEvents, reached_cons, emitted_cons] at hrun
    simp only [Frame.events, Frame.payload, chunkEvents, reached_cons, emitted_cons, hfirst]
    exact hrun

/-- An empty frame does nothing. -/
theorem run_emptyFrame (op : ℕ) (fin : Bool) (buf : List UInt8) {f : Frame}
    (hempty : f.payload = []) :
    reached (assemble relevant starts ends) buf (f.events op fin) = buf ∧
      emitted (assemble relevant starts ends) buf (f.events op fin) = [] := by
  obtain ⟨chunks, rfl | ⟨hcs, hfull⟩⟩ := f
  · have hskip : assemble relevant starts ends buf ⟨op, fin, 0, 0, []⟩ = (buf, []) :=
      assemble_empty rfl
    simp [Frame.events, Frame.payload, chunkEvents, hskip]
  · obtain ⟨c, cs, rfl⟩ := List.exists_cons_of_ne_nil hcs
    have hc := hfull c List.mem_cons_self
    simp only [Frame.payload, List.flatten_cons, List.append_eq_nil_iff] at hempty
    exact absurd hempty.1 hc

end

end WebSocket
