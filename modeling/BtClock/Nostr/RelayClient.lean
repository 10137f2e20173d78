import BtClock.WebSocket.Assembly

/-!
# The relay client

`RelayClient::HandleEvent` puts a text message together from the chunks which the web socket
hands on.  A chunk without bytes is passed over, so a message whose last frame is empty is
never handed on.
-/

namespace BtClock

open Transition WebSocket

/-- An event of the web socket library. -/
inductive SocketEvent
  | connected
  | disconnected
  | data (ev : DataEvent)
  | error
  | other
  deriving DecidableEq, Repr

def SocketEvent.dataEvent? : SocketEvent → Option DataEvent
  | .data ev => some ev
  | _ => none

namespace Nostr

/-- The reassembly rule, for messages with the op code `op`.  Only the first frame of a message
drops what is in the buffer, and only the last chunk of its last frame hands it on. -/
def reassemble (op : ℕ) (buf : List UInt8) (ev : DataEvent) : List UInt8 × List (List UInt8) :=
  assemble (Relevant op) (fun ev => ev.opCode = op ∧ ev.payloadOffset = 0)
    (fun ev => ev.fin = true ∧ ev.Completes) buf ev

structure RelayClient where
  connected : Bool := false
  fragmentBuf : List UInt8 := []
  deriving DecidableEq, Repr

/-- A call of one of the client's callbacks. -/
inductive RelayCall
  | onConnect (connected : Bool)
  | onFrame (bytes : List UInt8)
  deriving DecidableEq, Repr

def kOpText : ℕ := 1

def RelayClient.handleEvent (c : RelayClient) : SocketEvent → RelayClient × List RelayCall
  | .connected => ({ c with connected := true }, [.onConnect true])
  | .disconnected => ({ connected := false, fragmentBuf := [] }, [.onConnect false])
  | .data ev =>
      let (buf, messages) := reassemble kOpText c.fragmentBuf ev
      ({ c with fragmentBuf := buf }, messages.map .onFrame)
  | .error => (c, [])
  | .other => (c, [])

/-! ### One message -/

/-- A frame which goes on with a message. -/
theorem run_nextFrame {op : ℕ} (fin : Bool) (hop : op ≠ 0) (buf : List UInt8) {f : Frame}
    (hne : f.payload ≠ []) :
    (reached (reassemble op) buf (f.events 0 fin),
        emitted (reassemble op) buf (f.events 0 fin)) =
      if fin = true then ([], [buf ++ f.payload]) else (buf ++ f.payload, []) :=
  run_frame (fun _ h => Or.inr h) (fun _ h => h.2) (fun ev h => by rw [h]) buf hne
    fun ⟨_, h, hstarts⟩ => absurd (hstarts.1.symm.trans h) hop

/-- The first frame of a message. -/
theorem run_firstFrame (op : ℕ) (fin : Bool) (buf : List UInt8) {f : Frame}
    (hne : f.payload ≠ []) :
    (reached (reassemble op) buf (f.events op fin),
        emitted (reassemble op) buf (f.events op fin)) =
      if fin = true then ([], [f.payload]) else (f.payload, []) :=
  run_startFrame (fun _ h => Or.inl h) (fun _ h => h.2) (fun ev h => by rw [h])
    (fun _ hop hoffset => ⟨hop, hoffset⟩) buf hne

theorem run_skippedFrame (op op' : ℕ) (fin : Bool) (buf : List UInt8) {f : Frame}
    (hempty : f.payload = []) :
    reached (reassemble op) buf (f.events op' fin) = buf ∧
      emitted (reassemble op) buf (f.events op' fin) = [] :=
  run_emptyFrame op' fin buf hempty

/-- The frames which go on with a message. -/
theorem run_restEvents {op : ℕ} (hop : op ≠ 0) (buf : List UInt8) {fs : List Frame}
    (hne : fs ≠ []) :
    (reached (reassemble op) buf (restEvents fs), emitted (reassemble op) buf (restEvents fs)) =
      if (fs.getLast hne).payload ≠ [] then ([], [buf ++ fs.flatMap Frame.payload])
      else (buf ++ fs.flatMap Frame.payload, []) := by
  induction fs generalizing buf with
  | nil => exact absurd rfl hne
  | cons f fs ih =>
      rw [restEvents, reached_append, emitted_append, List.flatMap_cons]
      cases fs with
      | nil =>
          by_cases hf : f.payload = []
          · obtain ⟨hreached, hemitted⟩ := run_skippedFrame op 0 true buf hf
            simp [restEvents, hreached, hemitted, hf]
          · obtain ⟨hreached, hemitted⟩ := Prod.mk.inj (run_nextFrame true hop buf hf)
            simp [restEvents, hreached, hemitted, hf]
      | cons g fs =>
          rw [List.isEmpty_cons, List.getLast_cons (List.cons_ne_nil g fs)]
          by_cases hf : f.payload = []
          · obtain ⟨hreached, hemitted⟩ := run_skippedFrame op 0 false buf hf
            rw [hreached, hemitted, hf, List.nil_append, List.nil_append]
            exact ih buf (List.cons_ne_nil g fs)
          · obtain ⟨hreached, hemitted⟩ := Prod.mk.inj (run_nextFrame false hop buf hf)
            rw [hreached, hemitted, List.nil_append, ← List.append_assoc]
            exact ih (buf ++ f.payload) (List.cons_ne_nil g fs)

/-- What is in front of a message in the buffer: what was there, when the message begins with
an empty frame. -/
def kept (buf : List UInt8) (m : Message) : List UInt8 :=
  if m.first.payload = [] then buf else []

instance : DecidablePred Message.EndsFull :=
  fun m => inferInstanceAs (Decidable (m.last.payload ≠ []))

/-- A message is handed on iff its last frame has a byte. -/
theorem run_message {op : ℕ} (hop : op ≠ 0) (buf : List UInt8) (m : Message) :
    (reached (reassemble op) buf (m.events op), emitted (reassemble op) buf (m.events op)) =
      if m.EndsFull then ([], [kept buf m ++ m.payload]) else (kept buf m ++ m.payload, []) := by
  obtain ⟨f, fs⟩ := m
  simp only [Message.events, Message.EndsFull, Message.last, Message.payload, Message.frames, kept,
    reached_append, emitted_append, List.flatMap_cons]
  cases fs with
  | nil =>
      by_cases hf : f.payload = []
      · obtain ⟨hreached, hemitted⟩ := run_skippedFrame op op true buf hf
        simp [restEvents, hreached, hemitted, hf]
      · have hrun := Prod.ext_iff.mp (run_firstFrame op true buf hf)
        simp only [if_true] at hrun
        simp [restEvents, hrun.1, hrun.2, hf]
  | cons g fs =>
      rw [List.isEmpty_cons, List.getLast_cons (List.cons_ne_nil g fs)]
      by_cases hf : f.payload = []
      · obtain ⟨hreached, hemitted⟩ := run_skippedFrame op op false buf hf
        rw [hreached, hemitted, if_pos hf, hf, List.nil_append, List.nil_append]
        exact run_restEvents hop buf (List.cons_ne_nil g fs)
      · obtain ⟨hreached, hemitted⟩ := Prod.mk.inj (run_firstFrame op false buf hf)
        rw [hreached, hemitted, if_neg hf, List.nil_append, List.nil_append]
        exact run_restEvents hop f.payload (List.cons_ne_nil g fs)

/-! ### Messages in a row -/

theorem run_messages_of_endsFull {op : ℕ} (hop : op ≠ 0) {ms : List Message}
    (hms : ∀ m ∈ ms, m.EndsFull) :
    (reached (reassemble op) [] (ms.flatMap (Message.events op)),
        emitted (reassemble op) [] (ms.flatMap (Message.events op))) =
      ([], ms.map Message.payload) := by
  induction ms with
  | nil => rfl
  | cons m ms ih =>
      have hrun := run_message hop [] m
      rw [if_pos (hms m List.mem_cons_self), kept, ite_self] at hrun
      obtain ⟨hreached, hemitted⟩ := Prod.mk.inj hrun
      obtain ⟨hreached', hemitted'⟩ :=
        Prod.mk.inj (ih fun m' hm' => hms m' (List.mem_cons_of_mem m hm'))
      rw [List.flatMap_cons, reached_append, emitted_append, hreached, hemitted, hreached',
        hemitted']
      rfl

theorem length_emitted_messages {op : ℕ} (hop : op ≠ 0) (buf : List UInt8) (ms : List Message) :
    (emitted (reassemble op) buf (ms.flatMap (Message.events op))).length =
      ms.countP (fun m => m.EndsFull) := by
  induction ms generalizing buf with
  | nil => rfl
  | cons m ms ih =>
      have hrun := run_message hop buf m
      rw [List.flatMap_cons, emitted_append, List.length_append, ih, List.countP_cons,
        Nat.add_comm]
      by_cases hm : m.EndsFull
      · rw [if_pos hm] at hrun
        simp [(Prod.mk.inj hrun).2, hm]
      · rw [if_neg hm] at hrun
        simp [(Prod.mk.inj hrun).2, hm]

/-- A part of a message is never handed on. -/
theorem emitted_of_append_eq {op : ℕ} (buf : List UInt8) {m : Message} {cut rest : List DataEvent}
    (hrest : rest ≠ []) (h : m.events op = cut ++ rest) :
    emitted (reassemble op) buf cut = [] := by
  obtain ⟨init, e, heq, hinit⟩ := m.exists_events_eq op
  obtain ⟨rest', e', rfl⟩ := (List.eq_nil_or_concat' rest).resolve_left hrest
  have hcut : cut ++ rest' = init := by
    rw [heq, ← List.append_assoc] at h
    exact (List.append_inj_left' h rfl).symm
  exact emitted_assemble_eq_nil buf fun ev hev => hinit ev (hcut ▸ List.mem_append_left rest' hev)

/-! ### The client -/

def RelayCall.frame? : RelayCall → Option (List UInt8)
  | .onFrame bytes => some bytes
  | .onConnect _ => none

/-- The frames which the client hands on. -/
def framesOf (c : RelayClient) (es : List SocketEvent) : List (List UInt8) :=
  (emitted RelayClient.handleEvent c es).filterMap RelayCall.frame?

theorem framesOf_append (c : RelayClient) (es fs : List SocketEvent) :
    framesOf c (es ++ fs) =
      framesOf c es ++ framesOf (reached RelayClient.handleEvent c es) fs := by
  rw [framesOf, emitted_append, List.filterMap_append]
  rfl

/-- Between two disconnects only the chunks matter. -/
theorem framesOf_of_connected (c : RelayClient) {es : List SocketEvent}
    (hes : ∀ e ∈ es, e ≠ .disconnected) :
    framesOf c es =
      emitted (reassemble kOpText) c.fragmentBuf (es.filterMap SocketEvent.dataEvent?) := by
  induction es generalizing c with
  | nil => rfl
  | cons e es ih =>
      have hrest := ih (c.handleEvent e).1 fun x hx => hes x (List.mem_cons_of_mem e hx)
      rw [framesOf, emitted_cons, List.filterMap_append, ← framesOf, hrest]
      cases e with
      | disconnected => exact absurd rfl (hes _ List.mem_cons_self)
      | data ev =>
          simp [RelayClient.handleEvent, SocketEvent.dataEvent?, List.filterMap_map,
            Function.comp_def, RelayCall.frame?]
      | connected => rfl
      | error => rfl
      | other => rfl

end Nostr

/-- The events between two disconnects, which carry whole messages and then a part of one. -/
structure Session (op : ℕ) where
  events : List SocketEvent
  messages : List Message
  cut : List DataEvent
  connected : ∀ e ∈ events, e ≠ .disconnected
  carries : (events.filterMap SocketEvent.dataEvent?).filter (Relevant op) =
    messages.flatMap (Message.events op) ++ cut
  unfinished : ∃ (m : Message) (rest : List DataEvent), rest ≠ [] ∧ m.events op = cut ++ rest

/-- Sessions in a row, with a disconnect after each but the last. -/
def sessionEvents {op : ℕ} (ss : List (Session op)) (last : Session op) : List SocketEvent :=
  ss.flatMap (fun s => s.events ++ [.disconnected]) ++ last.events

def sessionMessages {op : ℕ} (ss : List (Session op)) (last : Session op) : List Message :=
  (ss ++ [last]).flatMap Session.messages

namespace Nostr

theorem framesOf_session (c : RelayClient) (s : Session kOpText) :
    framesOf c s.events =
      emitted (reassemble kOpText) c.fragmentBuf
        (s.messages.flatMap (Message.events kOpText)) := by
  obtain ⟨m, rest, hrest, hcut⟩ := s.unfinished
  have hskip : ∀ buf ev, decide (Relevant kOpText ev) = false →
      reassemble kOpText buf ev = (buf, []) := fun buf ev hev =>
    assemble_of_not fun h => of_decide_eq_false hev h.1
  rw [framesOf_of_connected c s.connected, ← (run_filter hskip _ _).2, s.carries, emitted_append,
    emitted_of_append_eq _ hrest hcut, List.append_nil]

theorem framesOf_sessionEvents_nil (c : RelayClient) (last : Session kOpText) :
    framesOf c (sessionEvents [] last) = framesOf c last.events :=
  rfl

/-- A disconnect leaves nothing for the next session. -/
theorem framesOf_sessionEvents_cons (c : RelayClient) (s : Session kOpText)
    (ss : List (Session kOpText)) (last : Session kOpText) :
    framesOf c (sessionEvents (s :: ss) last) =
      framesOf c s.events ++ framesOf {} (sessionEvents ss last) := by
  simp only [sessionEvents, List.flatMap_cons, List.append_assoc]
  rw [framesOf_append, List.singleton_append]
  rfl

/-- The client hands on the messages of every session, in order and as they were sent, iff each
of them ends with a frame which has a byte. -/
theorem framesOf_sessionEvents_iff (ss : List (Session kOpText)) (last : Session kOpText) :
    framesOf {} (sessionEvents ss last) = (sessionMessages ss last).map Message.payload ↔
      ∀ m ∈ sessionMessages ss last, m.EndsFull := by
  have hop : kOpText ≠ 0 := Nat.one_ne_zero
  constructor
  · have hlength : (framesOf {} (sessionEvents ss last)).length =
        (sessionMessages ss last).countP (fun m => m.EndsFull) := by
      induction ss with
      | nil =>
          rw [framesOf_sessionEvents_nil, framesOf_session, length_emitted_messages hop]
          simp [sessionMessages]
      | cons s ss ih =>
          rw [framesOf_sessionEvents_cons, List.length_append, ih, framesOf_session,
            length_emitted_messages hop]
          simp [sessionMessages, List.countP_append]
    intro h m hm
    rw [h, List.length_map, eq_comm, List.countP_eq_length] at hlength
    exact of_decide_eq_true (hlength m hm)
  · intro h
    induction ss with
    | nil =>
        have hlast : ∀ m ∈ last.messages, m.EndsFull := by simpa [sessionMessages] using h
        rw [framesOf_sessionEvents_nil, framesOf_session,
          (Prod.mk.inj (run_messages_of_endsFull hop hlast)).2]
        simp [sessionMessages]
    | cons s ss ih =>
        simp only [sessionMessages, List.cons_append, List.flatMap_cons, List.mem_append] at h
        rw [framesOf_sessionEvents_cons, framesOf_session, ih fun m hm => h m (Or.inr hm),
          (Prod.mk.inj (run_messages_of_endsFull hop fun m hm => h m (Or.inl hm))).2]
        simp [sessionMessages]

/-- A message whose second frame, the last one, is empty. -/
def emptyLastFrame : Session kOpText where
  events := [.connected, .data ⟨1, false, 2, 0, [0x5b, 0x5d]⟩, .data ⟨0, true, 0, 0, []⟩]
  messages := [{ first := ⟨[[0x5b, 0x5d]], by simp⟩, rest := [⟨[[]], Or.inl rfl⟩] }]
  cut := []
  connected := by simp
  carries := by decide
  unfinished := ⟨{ first := ⟨[[]], Or.inl rfl⟩ }, _, List.cons_ne_nil _ _, rfl⟩

theorem framesOf_emptyLastFrame_ne :
    framesOf {} (sessionEvents [] emptyLastFrame) ≠
      (sessionMessages [] emptyLastFrame).map Message.payload := by
  decide

end Nostr

end BtClock
