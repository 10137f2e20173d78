import Mathlib.Algebra.Order.BigOperators.Group.List
import Mathlib.Algebra.Order.Ring.Nat
import BtClock.Nostr.RelayClient

/-!
# The web socket handlers of the data sources

The mempool and the kraken handler hand on every frame, and the handler of the btclock source
every chunk.  They agree with the rule of the relay client on the messages which have one frame
with bytes, or one chunk.
-/

namespace BtClock

namespace Data

open Transition WebSocket Nostr

/-- What a handler of a source calls. -/
inductive SourceCall
  | sendSubscriptions
  | forceNotify
  | handleFrame (bytes : List UInt8)
  deriving DecidableEq, Repr

def SourceCall.frame? : SourceCall → Option (List UInt8)
  | .handleFrame bytes => some bytes
  | _ => none

def forceNotify (hub : Bool) : List SourceCall :=
  if hub then [.forceNotify] else []

/-- One of the two sockets of the mempool source. -/
structure FrameSocket where
  connected : Bool := false
  frame : List UInt8 := []
  deriving DecidableEq, Repr

/-- Every frame drops what is in the buffer, and its last chunk hands it on. -/
def assembleFrame (buf : List UInt8) (ev : DataEvent) : List UInt8 × List (List UInt8) :=
  assemble (Relevant kOpText) (fun ev => ev.payloadOffset = 0) DataEvent.Completes buf ev

def FrameSocket.handleEvent (hub : Bool) (s : FrameSocket) :
    SocketEvent → FrameSocket × List SourceCall
  | .connected => ({ connected := true, frame := [] }, .sendSubscriptions :: forceNotify hub)
  | .disconnected => ({ connected := false, frame := [] }, [])
  | .data ev =>
      let (frame, frames) := assembleFrame s.frame ev
      ({ s with frame := frame }, frames.map .handleFrame)
  | .error => ({ s with connected := false }, [])
  | .other => (s, [])

structure MempoolKrakenSource where
  hub : Bool
  mempool : FrameSocket := {}
  kraken : FrameSocket := {}
  deriving DecidableEq, Repr

def MempoolKrakenSource.handleMempoolEvent (s : MempoolKrakenSource) (e : SocketEvent) :
    MempoolKrakenSource × List SourceCall :=
  let (mempool, calls) := s.mempool.handleEvent s.hub e
  ({ s with mempool := mempool }, calls)

def MempoolKrakenSource.handleKrakenEvent (s : MempoolKrakenSource) (e : SocketEvent) :
    MempoolKrakenSource × List SourceCall :=
  let (kraken, calls) := s.kraken.handleEvent s.hub e
  ({ s with kraken := kraken }, calls)

structure BtclockDataSource where
  hub : Bool
  wsConnected : Bool := false
  deriving DecidableEq, Repr

def kOpBinary : ℕ := 2

def BtclockDataSource.handleEvent (s : BtclockDataSource) :
    SocketEvent → BtclockDataSource × List SourceCall
  | .connected => ({ s with wsConnected := true }, .sendSubscriptions :: forceNotify s.hub)
  | .disconnected => ({ s with wsConnected := false }, [])
  | .data ev => (s, if ev.opCode = kOpBinary then [.handleFrame ev.data] else [])
  | .error => (s, [])
  | .other => (s, [])

/-- Chunks which carry whole messages, with chunks of other op codes between them. -/
structure Stream (op : ℕ) where
  events : List DataEvent
  messages : List Message
  carries : events.filter (Relevant op) = messages.flatMap (Message.events op)

/-- The frames which a handler hands to its parser over a run. -/
def framesHandled {σ : Type} (step : σ → SocketEvent → σ × List SourceCall) (s : σ)
    (evs : List DataEvent) : List (List UInt8) :=
  (emitted step s (evs.map .data)).filterMap SourceCall.frame?

/-! ### Frames -/

theorem assembleFrame_of_not {buf : List UInt8} {ev : DataEvent} (h : ¬Relevant kOpText ev) :
    assembleFrame buf ev = (buf, []) :=
  assemble_of_not fun hev => h hev.1

theorem framesHandled_mempool (s : MempoolKrakenSource) (evs : List DataEvent) :
    framesHandled MempoolKrakenSource.handleMempoolEvent s evs =
      emitted assembleFrame s.mempool.frame evs := by
  induction evs generalizing s with
  | nil => rfl
  | cons ev evs ih =>
      rw [emitted_cons, framesHandled, List.map_cons, emitted_cons, List.filterMap_append,
        ← framesHandled, ih]
      simp [MempoolKrakenSource.handleMempoolEvent, FrameSocket.handleEvent, List.filterMap_map,
        Function.comp_def, SourceCall.frame?]

theorem framesHandled_kraken (s : MempoolKrakenSource) (evs : List DataEvent) :
    framesHandled MempoolKrakenSource.handleKrakenEvent s evs =
      emitted assembleFrame s.kraken.frame evs := by
  induction evs generalizing s with
  | nil => rfl
  | cons ev evs ih =>
      rw [emitted_cons, framesHandled, List.map_cons, emitted_cons, List.filterMap_append,
        ← framesHandled, ih]
      simp [MempoolKrakenSource.handleKrakenEvent, FrameSocket.handleEvent, List.filterMap_map,
        Function.comp_def, SourceCall.frame?]

/-- A frame with bytes is handed on, with what it carries and nothing else. -/
theorem emitted_assembleFrame (op : ℕ) (hop : op = kOpText ∨ op = 0) (fin : Bool)
    (buf : List UInt8) (f : Frame) :
    emitted assembleFrame buf (f.events op fin) = if f.payload = [] then [] else [f.payload] := by
  by_cases hf : f.payload = []
  · rw [if_pos hf]
    exact (run_emptyFrame op fin buf hf).2
  · have hrun : (reached assembleFrame buf (f.events op fin),
          emitted assembleFrame buf (f.events op fin)) =
        if true = true then ([], [f.payload]) else (f.payload, []) :=
      run_startFrame (fun ev h => by rw [Relevant, h]; exact hop) (fun _ h => h)
        (fun ev _ => by simp) (fun _ _ h => h) buf hf
    rw [if_neg hf]
    exact (Prod.mk.inj hrun).2

/-- The frames of a message which carry bytes. -/
def fullFrames (m : Message) : List Frame :=
  m.frames.filter fun f => f.payload ≠ []

theorem emitted_restFrames (buf : List UInt8) (fs : List Frame) :
    emitted assembleFrame buf (restEvents fs) =
      (fs.filter fun f => f.payload ≠ []).map Frame.payload := by
  induction fs generalizing buf with
  | nil => rfl
  | cons f fs ih =>
      rw [restEvents, emitted_append, ih, emitted_assembleFrame 0 (Or.inr rfl)]
      by_cases hf : f.payload = []
      · simp [hf]
      · simp [hf]

theorem emitted_message (buf : List UInt8) (m : Message) :
    emitted assembleFrame buf (m.events kOpText) = (fullFrames m).map Frame.payload := by
  rw [Message.events, emitted_append, emitted_restFrames,
    emitted_assembleFrame kOpText (Or.inl rfl), fullFrames, Message.frames]
  by_cases hf : m.first.payload = []
  · simp [hf]
  · simp [hf]

theorem emitted_messages (buf : List UInt8) (ms : List Message) :
    emitted assembleFrame buf (ms.flatMap (Message.events kOpText)) =
      ms.flatMap fun m => (fullFrames m).map Frame.payload := by
  induction ms generalizing buf with
  | nil => rfl
  | cons m ms ih => rw [List.flatMap_cons, emitted_append, emitted_message, ih, List.flatMap_cons]

/-- Only the last frame of the message may carry bytes. -/
def OneFullFrame (m : Message) : Prop :=
  ∀ f ∈ m.frames.dropLast, f.payload = []

theorem frames_eq (m : Message) : m.frames = m.frames.dropLast ++ [m.last] :=
  (List.dropLast_append_getLast _).symm

theorem fullFrames_eq (m : Message) :
    fullFrames m = (m.frames.dropLast.filter fun f => f.payload ≠ []) ++
      if m.EndsFull then [m.last] else [] := by
  rw [fullFrames, frames_eq, List.filter_append, ← frames_eq]
  by_cases hends : m.EndsFull
  · rw [if_pos hends, List.filter_cons_of_pos (by simpa [Message.EndsFull] using hends)]
    rfl
  · rw [if_neg hends, List.filter_cons_of_neg (by simpa [Message.EndsFull] using hends)]
    rfl

/-- A message whose last frame carries bytes is handed on once at least. -/
theorem length_fullFrames (m : Message) :
    (fullFrames m).length =
      (m.frames.dropLast.filter fun f => f.payload ≠ []).length +
        if m.EndsFull then 1 else 0 := by
  rw [fullFrames_eq, List.length_append]
  by_cases hends : m.EndsFull
  · simp only [if_pos hends, List.length_singleton]
  · simp only [if_neg hends, List.length_nil]

theorem oneFullFrame_iff (m : Message) :
    OneFullFrame m ↔ (fullFrames m).length = if m.EndsFull then 1 else 0 := by
  rw [length_fullFrames, Nat.add_eq_right, List.length_eq_zero_iff, List.filter_eq_nil_iff]
  simp [OneFullFrame]

/-! ### The rule of the relay client -/

/-- What the rule of the relay client hands on. -/
def relayMessages (op : ℕ) (evs : List DataEvent) : List (List UInt8) :=
  emitted (reassemble op) [] evs

theorem relayMessages_events {op : ℕ} (s : Stream op) :
    relayMessages op s.events =
      emitted (reassemble op) [] (s.messages.flatMap (Message.events op)) := by
  have hskip : ∀ buf ev, decide (Relevant op ev) = false → reassemble op buf ev = (buf, []) :=
    fun buf ev hev => assemble_of_not fun h => of_decide_eq_false hev h.1
  rw [relayMessages, ← (run_filter hskip _ _).2, s.carries]

theorem emitted_assembleFrame_events (buf : List UInt8) (s : Stream kOpText) :
    emitted assembleFrame buf s.events =
      s.messages.flatMap fun m => (fullFrames m).map Frame.payload := by
  have hskip : ∀ buf ev, decide (Relevant kOpText ev) = false →
      assembleFrame buf ev = (buf, []) := fun buf ev hev =>
    assembleFrame_of_not (of_decide_eq_false hev)
  rw [← (run_filter hskip _ _).2, s.carries, emitted_messages]

theorem sum_endsFull (ms : List Message) :
    (ms.map fun m => if m.EndsFull then 1 else 0).sum = ms.countP fun m => m.EndsFull := by
  induction ms with
  | nil => rfl
  | cons m ms ih =>
      rw [List.map_cons, List.sum_cons, ih, List.countP_cons, Nat.add_comm]
      simp only [decide_eq_true_eq]

/-- Where no source hands a message on less often than the rule does, they agree only where
each message is handed on as often. -/
theorem eq_of_sum_eq {ms : List Message} {count : Message → ℕ}
    (hle : ∀ m ∈ ms, (if m.EndsFull then 1 else 0) ≤ count m)
    (h : (ms.map count).sum = ms.countP fun m => m.EndsFull) :
    ∀ m ∈ ms, count m = if m.EndsFull then 1 else 0 := by
  intro m hm
  by_contra hne
  have hlt := List.sum_lt_sum (fun m => if m.EndsFull then 1 else 0) count hle
    ⟨m, hm, lt_of_le_of_ne (hle m hm) (Ne.symm hne)⟩
  rw [h, sum_endsFull] at hlt
  exact lt_irrefl _ hlt

/-- A message whose only frame with bytes is the last one is handed on by both alike. -/
theorem run_message_of_oneFullFrame {op : ℕ} (hop : op ≠ 0) {m : Message} (hm : OneFullFrame m) :
    (reached (reassemble op) [] (m.events op), emitted (reassemble op) [] (m.events op)) =
      ([], (fullFrames m).map Frame.payload) := by
  have hinit : m.frames.dropLast.flatMap Frame.payload = [] := List.flatMap_eq_nil_iff.mpr hm
  have hpayload : m.payload = m.last.payload := by
    rw [Message.payload, frames_eq, List.flatMap_append, hinit, List.flatMap_singleton]
    rfl
  have hfilter : m.frames.dropLast.filter (fun f => f.payload ≠ []) = [] :=
    List.filter_eq_nil_iff.mpr fun f hf => by simp [hm f hf]
  rw [run_message hop, kept, ite_self, List.nil_append, fullFrames_eq, hfilter, hpayload]
  by_cases hends : m.EndsFull
  · rw [if_pos hends, if_pos hends]
    rfl
  · rw [if_neg hends, if_neg hends]
    exact congrArg (·, []) (not_not.mp hends)

theorem emitted_messages_of_oneFullFrame {op : ℕ} (hop : op ≠ 0) {ms : List Message}
    (hms : ∀ m ∈ ms, OneFullFrame m) :
    emitted (reassemble op) [] (ms.flatMap (Message.events op)) =
      ms.flatMap fun m => (fullFrames m).map Frame.payload := by
  induction ms with
  | nil => rfl
  | cons m ms ih =>
      obtain ⟨hreached, hemitted⟩ :=
        Prod.mk.inj (run_message_of_oneFullFrame hop (hms m List.mem_cons_self))
      rw [List.flatMap_cons, emitted_append, hreached, hemitted,
        ih fun m' hm' => hms m' (List.mem_cons_of_mem m hm'), List.flatMap_cons]

/-- The mempool and the kraken socket agree with the rule iff only the last frame of each message
carries bytes. -/
theorem emitted_assembleFrame_iff (buf : List UInt8) (s : Stream kOpText) :
    emitted assembleFrame buf s.events = relayMessages kOpText s.events ↔
      ∀ m ∈ s.messages, OneFullFrame m := by
  have hop : kOpText ≠ 0 := Nat.one_ne_zero
  rw [emitted_assembleFrame_events, relayMessages_events]
  constructor
  · intro h m hm
    have hlength := congrArg List.length h
    rw [length_emitted_messages hop, List.length_flatMap] at hlength
    simp only [List.length_map] at hlength
    refine (oneFullFrame_iff m).mpr (eq_of_sum_eq ?_ hlength m hm)
    intro m' _
    rw [length_fullFrames]
    exact Nat.le_add_left _ _
  · exact fun h => (emitted_messages_of_oneFullFrame hop h).symm

/-! ### Chunks -/

theorem framesHandled_btclock (s : BtclockDataSource) (evs : List DataEvent) :
    framesHandled BtclockDataSource.handleEvent s evs =
      (evs.filter fun ev => ev.opCode = kOpBinary).map DataEvent.data := by
  induction evs generalizing s with
  | nil => rfl
  | cons ev evs ih =>
      rw [framesHandled, List.map_cons, emitted_cons, List.filterMap_append, ← framesHandled, ih]
      by_cases hop : ev.opCode = kOpBinary
      · simp [BtclockDataSource.handleEvent, hop, SourceCall.frame?]
      · simp [BtclockDataSource.handleEvent, hop]

theorem map_data_chunkEvents (op : ℕ) (fin : Bool) (len offset : ℕ) (cs : List (List UInt8)) :
    (chunkEvents op fin len offset cs).map DataEvent.data = cs := by
  induction cs generalizing offset with
  | nil => rfl
  | cons c cs ih => rw [chunkEvents, List.map_cons, ih]

theorem opCode_of_mem_restEvents {fs : List Frame} {ev : DataEvent} (h : ev ∈ restEvents fs) :
    ev.opCode = 0 := by
  induction fs with
  | nil => cases h
  | cons f fs ih =>
      rcases List.mem_append.mp h with h | h
      · exact (mem_chunkEvents h).1
      · exact ih h

/-- Only the chunks of the first frame have the op code of the message. -/
theorem filter_events {op : ℕ} (hop : op ≠ 0) (m : Message) :
    (m.events op).filter (fun ev => ev.opCode = op) = m.first.events op m.rest.isEmpty := by
  rw [Message.events, List.filter_append, List.filter_eq_self.mpr, List.filter_eq_nil_iff.mpr,
    List.append_nil]
  · intro ev hev
    rw [opCode_of_mem_restEvents hev]
    simp [Ne.symm hop]
  · intro ev hev
    exact decide_eq_true (mem_chunkEvents hev).1

theorem framesHandled_btclock_events (src : BtclockDataSource) (s : Stream kOpBinary) :
    framesHandled BtclockDataSource.handleEvent src s.events =
      s.messages.flatMap fun m => m.first.chunks := by
  have hop : kOpBinary ≠ 0 := by decide
  have hrelevant : ∀ ev : DataEvent, decide (ev.opCode = kOpBinary) =
      (decide (ev.opCode = kOpBinary) && decide (Relevant kOpBinary ev)) := by
    intro ev
    by_cases hev : ev.opCode = kOpBinary
    · simp [hev, Relevant]
    · simp [hev]
  rw [framesHandled_btclock, List.filter_congr fun ev _ => hrelevant ev, ← List.filter_filter,
    s.carries, List.filter_flatMap, List.map_flatMap]
  congr 1
  funext m
  rw [filter_events hop, Frame.events, map_data_chunkEvents]

/-- The message is one chunk with bytes. -/
def OneFullChunk (m : Message) : Prop :=
  m.rest = [] ∧ ∃ c, c ≠ [] ∧ m.first.chunks = [c]

theorem length_chunks_pos (f : Frame) : 0 < f.chunks.length := by
  obtain ⟨chunks, rfl | ⟨hne, -⟩⟩ := f
  · exact Nat.one_pos
  · exact List.length_pos_iff.mpr hne

theorem OneFullChunk.endsFull {m : Message} (h : OneFullChunk m) : m.EndsFull := by
  obtain ⟨f, fs⟩ := m
  obtain ⟨rfl, c, hc, hchunks⟩ := h
  simp only at hchunks
  simpa [Message.EndsFull, Message.last, Message.frames, Frame.payload, hchunks] using hc

theorem OneFullChunk.chunks_eq {m : Message} (h : OneFullChunk m) :
    m.first.chunks = [m.payload] := by
  obtain ⟨f, fs⟩ := m
  obtain ⟨rfl, c, -, hchunks⟩ := h
  simp only at hchunks
  simp [Message.payload, Message.frames, Frame.payload, hchunks]

/-- Where the first frame carries all bytes of a message which ends with a byte, it is the only
one. -/
theorem rest_eq_nil {m : Message} (hends : m.EndsFull) (h : m.first.payload = m.payload) :
    m.rest = [] := by
  by_contra hne
  rw [Message.payload, Message.frames, List.flatMap_cons, eq_comm,
    List.append_right_eq_self, List.flatMap_eq_nil_iff] at h
  refine hends (h m.last ?_)
  rw [Message.last]
  simp only [Message.frames, List.getLast_cons hne]
  exact List.getLast_mem hne

/-- The btclock source agrees with the rule iff each message is one chunk with bytes. -/
theorem framesHandled_btclock_iff (src : BtclockDataSource) (s : Stream kOpBinary) :
    framesHandled BtclockDataSource.handleEvent src s.events =
        relayMessages kOpBinary s.events ↔
      ∀ m ∈ s.messages, OneFullChunk m := by
  have hop : kOpBinary ≠ 0 := by decide
  rw [framesHandled_btclock_events, relayMessages_events]
  constructor
  · intro h
    have hlength := congrArg List.length h
    rw [length_emitted_messages hop, List.length_flatMap] at hlength
    have hcount : ∀ m ∈ s.messages, m.first.chunks.length = if m.EndsFull then 1 else 0 := by
      refine eq_of_sum_eq (fun m _ => ?_) hlength
      have hpos := length_chunks_pos m.first
      split_ifs <;> omega
    have hends : ∀ m ∈ s.messages, m.EndsFull := by
      intro m hm
      by_contra hnot
      have hpos := length_chunks_pos m.first
      rw [hcount m hm, if_neg hnot] at hpos
      exact lt_irrefl 0 hpos
    have hchunks : ∀ m ∈ s.messages, m.first.chunks = [m.first.payload] := by
      intro m hm
      have hone := hcount m hm
      rw [if_pos (hends m hm)] at hone
      obtain ⟨c, hc⟩ := List.length_eq_one_iff.mp hone
      rw [Frame.payload, hc]
      simp
    rw [(Prod.mk.inj (run_messages_of_endsFull hop hends)).2, List.flatMap_congr hchunks,
      ← List.map_eq_flatMap, List.map_inj_left] at h
    intro m hm
    refine ⟨rest_eq_nil (hends m hm) (h m hm), m.first.payload, ?_, hchunks m hm⟩
    have hlast := hends m hm
    rw [Message.EndsFull, Message.last] at hlast
    simpa only [Message.frames, rest_eq_nil (hends m hm) (h m hm), List.getLast_singleton]
      using hlast
  · intro h
    rw [(Prod.mk.inj (run_messages_of_endsFull hop fun m hm => (h m hm).endsFull)).2,
      List.flatMap_congr fun m hm => (h m hm).chunks_eq, List.map_eq_flatMap]

/-- All three handlers agree with the rule of the relay client iff no message of the text sockets
has bytes before its last frame and each message of the binary one is one chunk with bytes. -/
theorem framesHandled_eq_iff (mk : MempoolKrakenSource) (btc : BtclockDataSource)
    (mempool kraken : Stream kOpText) (binary : Stream kOpBinary) :
    (framesHandled MempoolKrakenSource.handleMempoolEvent mk mempool.events =
          relayMessages kOpText mempool.events ∧
        framesHandled MempoolKrakenSource.handleKrakenEvent mk kraken.events =
          relayMessages kOpText kraken.events ∧
        framesHandled BtclockDataSource.handleEvent btc binary.events =
          relayMessages kOpBinary binary.events) ↔
      (∀ m ∈ mempool.messages, OneFullFrame m) ∧ (∀ m ∈ kraken.messages, OneFullFrame m) ∧
        ∀ m ∈ binary.messages, OneFullChunk m := by
  rw [framesHandled_mempool, framesHandled_kraken, emitted_assembleFrame_iff,
    emitted_assembleFrame_iff, framesHandled_btclock_iff]

/-- A message in two frames with a byte each. -/
def twoFrames : Message where
  first := ⟨[[0x5b]], by simp⟩
  rest := [⟨[[0x5d]], by simp⟩]

def twoFramesStream : Stream kOpText where
  events := [⟨kOpText, false, 1, 0, [0x5b]⟩, ⟨0, true, 1, 0, [0x5d]⟩]
  messages := [twoFrames]
  carries := rfl

theorem framesHandled_twoFramesStream_ne :
    framesHandled MempoolKrakenSource.handleMempoolEvent { hub := true }
        twoFramesStream.events ≠
      relayMessages kOpText twoFramesStream.events := by
  decide

end Data

end BtClock
