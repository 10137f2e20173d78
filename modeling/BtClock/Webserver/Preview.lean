import BtClock.Coding.LittleEndian
import BtClock.Data.Json
import BtClock.Transition.Emit
import Mathlib.Data.List.Nodup

/-!
# The live preview

The main task publishes what it painted, and a worker sends it to the browsers which asked for it.
The one slot between them keeps the newest snapshot.
-/

namespace BtClock

namespace Preview

open Transition

/-! ### The packet of a panel -/

structure PreviewPanelHeader where
  compressionKind : UInt8
  panelIndex : UInt8
  width : UInt16
  height : UInt16
  stride : UInt16
  rotationDeg : UInt16
  frameId : UInt32
  timestampMs : UInt32
  payloadSize : UInt32
  rawSize : UInt32
  deriving DecidableEq, Repr

def kPreviewHeaderBytes : ℕ := 34

def kPreviewVersion : UInt8 := 1

def kPreviewKindPanelFrame : UInt8 := 1

def kPreviewCompressionNone : UInt8 := 0

def kPreviewCompressionDeflate : UInt8 := 1

def kPreviewSourceBitDepth : UInt8 := 1

/-- `BTFB` -/
def kPreviewMagic : List UInt8 := [0x42, 0x54, 0x46, 0x42]

def writeLe16 (v : UInt16) : List UInt8 :=
  [(v &&& 0xff).toUInt8, ((v >>> 8) &&& 0xff).toUInt8]

def writeLe32 (v : UInt32) : List UInt8 :=
  [(v &&& 0xff).toUInt8, ((v >>> 8) &&& 0xff).toUInt8, ((v >>> 16) &&& 0xff).toUInt8,
    ((v >>> 24) &&& 0xff).toUInt8]

def writePreviewPanelHeader (h : PreviewPanelHeader) : List UInt8 :=
  kPreviewMagic ++
    [kPreviewVersion, kPreviewKindPanelFrame, h.compressionKind, kPreviewSourceBitDepth,
      h.panelIndex, 0] ++
    writeLe16 h.width ++ writeLe16 h.height ++ writeLe16 h.stride ++ writeLe16 h.rotationDeg ++
    writeLe32 h.frameId ++ writeLe32 h.timestampMs ++ writeLe32 h.payloadSize ++
    writeLe32 h.rawSize

/-- A panel as it was painted. -/
structure PreviewPanelFrame where
  panelIndex : UInt8
  width : UInt16
  height : UInt16
  stride : UInt16
  rotationDeg : UInt16
  raw : List UInt8
  deriving DecidableEq, Repr

structure PreviewSnapshot where
  frameId : UInt32
  timestampMs : UInt64
  panels : List PreviewPanelFrame
  deriving DecidableEq, Repr

/-- `tdefl_compress_mem_to_mem` with room for so many bytes; none when it does not fit. -/
abbrev Deflate := ℕ → List UInt8 → Option (List UInt8)

/-- Four attempts, each with twice the room of the one before. -/
def compressAttempts (deflate : Deflate) (raw : List UInt8) : ℕ → ℕ → Option (List UInt8)
  | 0, _ => none
  | attempts + 1, room => (deflate room raw).or (compressAttempts deflate raw attempts (2 * room))

/-- The kind of the compression and the payload. -/
def previewPayload (deflate : Deflate) (raw : List UInt8) : UInt8 × List UInt8 :=
  match compressAttempts deflate raw 4 (max 128 raw.length) with
  | some compressed => (kPreviewCompressionDeflate, compressed)
  | none => (kPreviewCompressionNone, raw)

def previewHeader (snap : PreviewSnapshot) (panel : PreviewPanelFrame)
    (payload : UInt8 × List UInt8) : PreviewPanelHeader where
  compressionKind := payload.1
  panelIndex := panel.panelIndex
  width := panel.width
  height := panel.height
  stride := panel.stride
  rotationDeg := panel.rotationDeg
  frameId := snap.frameId
  timestampMs := snap.timestampMs.toUInt32
  payloadSize := UInt32.ofNat payload.2.length
  rawSize := UInt32.ofNat panel.raw.length

def previewPacket (deflate : Deflate) (snap : PreviewSnapshot) (panel : PreviewPanelFrame) :
    List UInt8 :=
  let payload := previewPayload deflate panel.raw
  writePreviewPanelHeader (previewHeader snap panel payload) ++ payload.2

/-! ### What a browser reads -/

/-- The header as the capture tool reads it. -/
structure DecodedHeader where
  version : UInt8
  kind : UInt8
  compression : UInt8
  bitDepth : UInt8
  panel : UInt8
  width : UInt16
  height : UInt16
  stride : UInt16
  rotationDeg : UInt16
  frameId : UInt32
  timestampMs : UInt32
  payloadSize : UInt32
  rawSize : UInt32
  deriving DecidableEq, Repr

def readUInt8 (buf : List UInt8) (offset : ℕ) : UInt8 :=
  buf.getD offset 0

def readUInt16LE (buf : List UInt8) (offset : ℕ) : UInt16 :=
  UInt16.ofNat (LittleEndian.toNat ((buf.drop offset).take 2))

def readUInt32LE (buf : List UInt8) (offset : ℕ) : UInt32 :=
  UInt32.ofNat (LittleEndian.toNat ((buf.drop offset).take 4))

/-- None for a frame which is too short or has another magic. -/
def decodeHeader (buf : List UInt8) : Option DecodedHeader :=
  if buf.length < kPreviewHeaderBytes then none
  else if buf.take 4 ≠ kPreviewMagic then none
  else
    some
      { version := readUInt8 buf 4
        kind := readUInt8 buf 5
        compression := readUInt8 buf 6
        bitDepth := readUInt8 buf 7
        panel := readUInt8 buf 8
        width := readUInt16LE buf 10
        height := readUInt16LE buf 12
        stride := readUInt16LE buf 14
        rotationDeg := readUInt16LE buf 16
        frameId := readUInt32LE buf 18
        timestampMs := readUInt32LE buf 22
        payloadSize := readUInt32LE buf 26
        rawSize := readUInt32LE buf 30 }

/-- `inflateSync` -/
abbrev Inflate := List UInt8 → Option (List UInt8)

/-- None for another compression. -/
def decodePayload (inflate : Inflate) (buf : List UInt8) (hdr : DecodedHeader) :
    Option (List UInt8) :=
  let compressed := (buf.drop kPreviewHeaderBytes).take hdr.payloadSize.toNat
  if hdr.compression = 0 then some compressed
  else if hdr.compression = 1 then inflate compressed
  else none

/-- A panel of the snapshot with the given number, as it is shown. -/
structure ShownPanel where
  frameId : UInt32
  timestampMs : UInt32
  panel : PreviewPanelFrame
  deriving DecidableEq, Repr

def PreviewSnapshot.shownPanel (snap : PreviewSnapshot) (panel : PreviewPanelFrame) :
    ShownPanel where
  frameId := snap.frameId
  timestampMs := snap.timestampMs.toUInt32
  panel := panel

def readPacket (inflate : Inflate) (buf : List UInt8) : Option ShownPanel := do
  let hdr ← decodeHeader buf
  let payload ← decodePayload inflate buf hdr
  some
    { frameId := hdr.frameId
      timestampMs := hdr.timestampMs
      panel :=
        { panelIndex := hdr.panel
          width := hdr.width
          height := hdr.height
          stride := hdr.stride
          rotationDeg := hdr.rotationDeg
          raw := payload } }

def PreviewPanelHeader.decoded (h : PreviewPanelHeader) : DecodedHeader where
  version := kPreviewVersion
  kind := kPreviewKindPanelFrame
  compression := h.compressionKind
  bitDepth := kPreviewSourceBitDepth
  panel := h.panelIndex
  width := h.width
  height := h.height
  stride := h.stride
  rotationDeg := h.rotationDeg
  frameId := h.frameId
  timestampMs := h.timestampMs
  payloadSize := h.payloadSize
  rawSize := h.rawSize

theorem toNat_writeLe16 (v : UInt16) : LittleEndian.toNat (writeLe16 v) = v.toNat := by
  have hmask (n : ℕ) : n &&& 255 = n % 256 := Nat.and_two_pow_sub_one_eq_mod n 8
  have hlt := v.toNat_lt
  simp [writeLe16, LittleEndian.toNat, hmask, Nat.shiftRight_eq_div_pow]
  omega

theorem toNat_writeLe32 (v : UInt32) : LittleEndian.toNat (writeLe32 v) = v.toNat := by
  have hmask (n : ℕ) : n &&& 255 = n % 256 := Nat.and_two_pow_sub_one_eq_mod n 8
  have hlt := v.toNat_lt
  simp [writeLe32, LittleEndian.toNat, hmask, Nat.shiftRight_eq_div_pow]
  omega

theorem readUInt16LE_eq {buf : List UInt8} {offset : ℕ} {v : UInt16}
    (h : (buf.drop offset).take 2 = writeLe16 v) : readUInt16LE buf offset = v := by
  rw [readUInt16LE, h, toNat_writeLe16, UInt16.ofNat_toNat]

theorem readUInt32LE_eq {buf : List UInt8} {offset : ℕ} {v : UInt32}
    (h : (buf.drop offset).take 4 = writeLe32 v) : readUInt32LE buf offset = v := by
  rw [readUInt32LE, h, toNat_writeLe32, UInt32.ofNat_toNat]

theorem length_writePreviewPanelHeader (h : PreviewPanelHeader) :
    (writePreviewPanelHeader h).length = kPreviewHeaderBytes :=
  rfl

/-- The tool reads the header which the device writes. -/
theorem decodeHeader_writePreviewPanelHeader (h : PreviewPanelHeader) (payload : List UInt8) :
    decodeHeader (writePreviewPanelHeader h ++ payload) = some h.decoded := by
  have hlength : ¬ (writePreviewPanelHeader h ++ payload).length < kPreviewHeaderBytes := by
    rw [List.length_append, length_writePreviewPanelHeader]
    exact Nat.not_lt.mpr (Nat.le_add_right _ _)
  rw [decodeHeader, if_neg hlength, if_neg fun hne => hne rfl, Option.some.injEq,
    PreviewPanelHeader.decoded, DecodedHeader.mk.injEq]
  exact ⟨rfl, rfl, rfl, rfl, rfl, readUInt16LE_eq rfl, readUInt16LE_eq rfl, readUInt16LE_eq rfl,
    readUInt16LE_eq rfl, readUInt32LE_eq rfl, readUInt32LE_eq rfl, readUInt32LE_eq rfl,
    readUInt32LE_eq rfl⟩

theorem drop_writePreviewPanelHeader (h : PreviewPanelHeader) (payload : List UInt8) :
    (writePreviewPanelHeader h ++ payload).drop kPreviewHeaderBytes = payload :=
  rfl

/-- The compressor and the decompressor, on a device whose addresses have 32 bits. -/
def Inverse (deflate : Deflate) (inflate : Inflate) : Prop :=
  ∀ room raw compressed, deflate room raw = some compressed →
    compressed.length < 2 ^ 32 ∧ inflate compressed = some raw

variable {deflate : Deflate} {inflate : Inflate}

theorem Inverse.compressAttempts (h : Inverse deflate inflate) {raw compressed : List UInt8}
    {attempts room : ℕ} (hsome : compressAttempts deflate raw attempts room = some compressed) :
    compressed.length < 2 ^ 32 ∧ inflate compressed = some raw := by
  induction attempts generalizing room with
  | zero => cases hsome
  | succ attempts ih =>
      rw [Preview.compressAttempts, Option.or_eq_some_iff] at hsome
      rcases hsome with hfirst | ⟨-, hrest⟩
      · exact h room raw compressed hfirst
      · exact ih hrest

/-- What is painted is read from the packet. -/
theorem readPacket_previewPacket (h : Inverse deflate inflate) (snap : PreviewSnapshot)
    {panel : PreviewPanelFrame} (hraw : panel.raw.length < 2 ^ 32) :
    readPacket inflate (previewPacket deflate snap panel) =
      some (snap.shownPanel panel) := by
  have hdecoded (kind : UInt8) (payload : List UInt8) (hlength : payload.length < 2 ^ 32)
      (hkind : (if kind = 0 then some payload else if kind = 1 then inflate payload else none) =
        some panel.raw) :
      readPacket inflate (writePreviewPanelHeader (previewHeader snap panel (kind, payload)) ++
        payload) =
      some (snap.shownPanel panel) := by
    have hsize : (UInt32.ofNat payload.length).toNat = payload.length := by
      rw [UInt32.toNat_ofNat', Nat.mod_eq_of_lt hlength]
    rw [readPacket, decodeHeader_writePreviewPanelHeader, Option.bind_eq_bind, Option.bind_some,
      decodePayload, drop_writePreviewPanelHeader]
    simp only [PreviewPanelHeader.decoded, previewHeader, hsize, List.take_length, hkind]
    rfl
  rw [previewPacket, previewPayload]
  split
  · rename_i compressed hcompressed
    obtain ⟨hlength, hinflate⟩ := h.compressAttempts hcompressed
    exact hdecoded kPreviewCompressionDeflate compressed hlength hinflate
  · exact hdecoded kPreviewCompressionNone panel.raw hraw rfl

/-! ### The worker and the clients -/

/-- What the main task shows of a panel; the frame buffer may be missing, and its size is a
number of 32 bits. -/
structure FramebufferPanelView where
  panelIndex : UInt8
  width : UInt16
  height : UInt16
  stride : UInt16
  rotationDeg : UInt16
  data : Option { bytes : List UInt8 // bytes.length < 2 ^ 32 }
  deriving DecidableEq, Repr

structure PreviewClientState where
  fd : ℕ
  streaming : Bool
  deriving DecidableEq, Repr

/-- Where the worker is in its loop. -/
inductive PreviewWorker
  /-- At `ulTaskNotifyTake`. -/
  | waiting
  /-- Behind it. -/
  | woken
  /-- The packets which are left with their sockets, and the sockets which failed. -/
  | sending (queue : List (ℕ × List UInt8)) (dead : List ℕ)
  | ended
  deriving DecidableEq, Repr

structure PreviewServer where
  server : Bool := true
  previewClients : List PreviewClientState := []
  previewPending : Option PreviewSnapshot := none
  previewWorkerStop : Bool := false
  previewFrameSeq : UInt32 := 0
  notified : Bool := false
  worker : PreviewWorker := .waiting
  deriving DecidableEq, Repr

/-- A frame from a browser. -/
inductive WsFrame
  | close
  | text (body : List Char)
  /-- Neither a text nor a close. -/
  | other
  deriving DecidableEq, Repr

inductive PreviewStep
  | publish (panels : List FramebufferPanelView) (timestampMs : UInt64)
  | handshake (fd : ℕ) (requireHttpAuth : Bool)
  /-- Nothing when the frame could not be received. -/
  | receive (fd : ℕ) (frame : Option WsFrame)
  /-- The worker goes on; `sent` is what `httpd_ws_send_data` says. -/
  | work (sent : Bool)
  | destroy
  deriving DecidableEq, Repr

inductive PreviewEffect
  | published (snap : PreviewSnapshot)
  | sent (fd : ℕ) (packet : List UInt8)
  | lost (fd : ℕ)
  | kPublishLiveStatus
  | ack (fd : ℕ) (streaming : Bool)
  deriving DecidableEq, Repr

/-- What the device sends for a snapshot. -/
def previewPackets (deflate : Deflate) (snap : PreviewSnapshot) : List (List UInt8) :=
  (snap.panels.filter fun panel => !panel.raw.isEmpty).map (previewPacket deflate snap)

def isLineEnd (c : Char) : Bool :=
  c == '\n' || c == '\r'

def trimPreviewWsTextPayload (body : List Char) : List Char :=
  (body.reverse.dropWhile isLineEnd).reverse.dropWhile isLineEnd

/-- The member `action` of an object. -/
def hasAction (parse : List Char → Option Json) (word : String) (body : List Char) : Bool :=
  match (parse body).bind fun root => root.getObjectItem "action" with
  | some (.string action) => action == word
  | _ => false

def isPreviewStartCommand (parse : List Char → Option Json) (body : List Char) : Bool :=
  body == "start".toList || hasAction parse "start" body

def isPreviewStopCommand (parse : List Char → Option Json) (body : List Char) : Bool :=
  body == "stop".toList || hasAction parse "stop" body

/-- Whether a client wants the stream, when the text says so. -/
def previewCommand (parse : List Char → Option Json) (body : List Char) : Option Bool :=
  if isPreviewStartCommand parse body then some true
  else if isPreviewStopCommand parse body then some false
  else none

namespace PreviewServer

def hasPreviewStreamingClients (s : PreviewServer) : Bool :=
  s.previewClients.any PreviewClientState.streaming

def removePreviewClient (s : PreviewServer) (fd : ℕ) : PreviewServer :=
  { s with previewClients := s.previewClients.filter fun c => c.fd != fd }

/-- The client with that socket, or a new one. -/
def setStreaming (fd : ℕ) (streaming : Bool) : List PreviewClientState → List PreviewClientState
  | [] => [{ fd := fd, streaming := streaming }]
  | c :: rest =>
      if c.fd = fd then { c with streaming := streaming } :: rest
      else c :: setStreaming fd streaming rest

/-- A view without data is passed by. -/
def capturePanel (view : FramebufferPanelView) : Option PreviewPanelFrame :=
  match view.data with
  | none => none
  | some data =>
      if data.val = [] then none
      else
        some
          { panelIndex := view.panelIndex
            width := view.width
            height := view.height
            stride := view.stride
            rotationDeg := view.rotationDeg
            raw := data.val }

def publishFramebufferSnapshot (s : PreviewServer) (panels : List FramebufferPanelView)
    (timestampMs : UInt64) : PreviewServer × List PreviewEffect :=
  if panels = [] then (s, [])
  else if s.hasPreviewStreamingClients = false then (s, [])
  else
    let frameId := s.previewFrameSeq + 1
    let snap : PreviewSnapshot :=
      { frameId := frameId, timestampMs := timestampMs, panels := panels.filterMap capturePanel }
    if snap.panels = [] then ({ s with previewFrameSeq := frameId }, [])
    else
      ({ s with
          previewFrameSeq := frameId
          previewPending := some snap
          notified := true },
        [.published snap])

/-- The worker goes on to where another task may come in between. -/
def previewWorker (deflate : Deflate) (s : PreviewServer) (sent : Bool) :
    PreviewServer × List PreviewEffect :=
  match s.worker with
  | .waiting => if s.notified then ({ s with notified := false, worker := .woken }, []) else (s, [])
  | .woken =>
      if s.previewWorkerStop then ({ s with worker := .ended }, [])
      else
        match s.previewPending with
        | none => ({ s with worker := .waiting }, [])
        | some snap =>
            let fds := (s.previewClients.filter PreviewClientState.streaming).map
              PreviewClientState.fd
            let s := { s with previewPending := none }
            if s.server = false ∨ fds = [] ∨ snap.panels = [] then
              ({ s with worker := .waiting }, [])
            else
              ({ s with
                  worker := .sending
                    ((previewPackets deflate snap).flatMap fun packet =>
                      fds.map fun fd => (fd, packet)) [] },
                [])
  | .sending ((fd, packet) :: queue) dead =>
      if sent then ({ s with worker := .sending queue dead }, [.sent fd packet])
      else ({ s with worker := .sending queue (dead ++ [fd]) }, [.lost fd])
  | .sending [] dead => ({ dead.foldl removePreviewClient s with worker := .waiting }, [])
  | .ended => (s, [])

def handleWsPreview (parse : List Char → Option Json) (s : PreviewServer) (fd : ℕ) :
    WsFrame → PreviewServer × List PreviewEffect
  | .close => (s.removePreviewClient fd, [])
  | .other => (s, [])
  | .text body =>
      if body = [] then (s, [])
      else
        match previewCommand parse (trimPreviewWsTextPayload body) with
        | none => (s, [])
        | some streaming =>
            ({ s with previewClients := setStreaming fd streaming s.previewClients },
              if streaming then [.kPublishLiveStatus, .ack fd true] else [.ack fd false])

def step (deflate : Deflate) (parse : List Char → Option Json) (s : PreviewServer) :
    PreviewStep → PreviewServer × List PreviewEffect
  | .publish panels timestampMs => s.publishFramebufferSnapshot panels timestampMs
  | .handshake fd requireHttpAuth =>
      if requireHttpAuth then
        ({ s with previewClients := setStreaming fd false s.previewClients }, [])
      else (s, [])
  | .receive _ none => (s, [])
  | .receive fd (some frame) => s.handleWsPreview parse fd frame
  | .work sent => s.previewWorker deflate sent
  | .destroy => ({ s with previewWorkerStop := true, notified := true }, [])

end PreviewServer

/-! ### What a socket is sent -/

namespace PreviewWorker

/-- The packets a socket is still to be sent. -/
def queuedTo (fd : ℕ) : PreviewWorker → List (List UInt8)
  | sending queue _ => queue.filterMap fun x => if x.1 = fd then some x.2 else none
  | waiting | woken | ended => []

/-- The sockets which failed. -/
def dead : PreviewWorker → List ℕ
  | sending _ dead => dead
  | waiting | woken | ended => []

/-- The socket whose turn it is. -/
def next : PreviewWorker → Option ℕ
  | sending queue _ => queue.head?.map Prod.fst
  | waiting | woken | ended => none

end PreviewWorker

namespace PreviewEffect

def packetTo (fd : ℕ) : PreviewEffect → Option (List UInt8)
  | sent fd' packet => if fd' = fd then some packet else none
  | published _ | lost _ | kPublishLiveStatus | ack _ _ => none

def snapshot : PreviewEffect → Option PreviewSnapshot
  | published snap => some snap
  | sent _ _ | lost _ | kPublishLiveStatus | ack _ _ => none

end PreviewEffect

def packetsTo (fd : ℕ) (log : List PreviewEffect) : List (List UInt8) :=
  log.filterMap (PreviewEffect.packetTo fd)

def publishedIn (log : List PreviewEffect) : List PreviewSnapshot :=
  log.filterMap PreviewEffect.snapshot

theorem packetsTo_append (fd : ℕ) (first rest : List PreviewEffect) :
    packetsTo fd (first ++ rest) = packetsTo fd first ++ packetsTo fd rest :=
  List.filterMap_append

theorem publishedIn_append (first rest : List PreviewEffect) :
    publishedIn (first ++ rest) = publishedIn first ++ publishedIn rest :=
  List.filterMap_append

/-- Every packet goes to every socket, so one socket gets them all, in order. -/
theorem queuedTo_sending {fd : ℕ} {fds : List ℕ} (hnodup : fds.Nodup) (hmem : fd ∈ fds)
    (packets : List (List UInt8)) (dead : List ℕ) :
    (PreviewWorker.sending (packets.flatMap fun packet => fds.map fun fd => (fd, packet))
      dead).queuedTo fd = packets := by
  have hone (packet : List UInt8) :
      (fds.map fun fd => (fd, packet)).filterMap
        (fun x => if x.1 = fd then some x.2 else none) = [packet] := by
    rw [List.filterMap_map]
    clear packets dead
    induction fds with
    | nil => cases hmem
    | cons fd' rest ih =>
        rw [List.nodup_cons] at hnodup
        by_cases heq : fd' = fd
        · subst heq
          have hne : ∀ fd ∈ rest, ¬ fd = fd' := fun fd hfd heq => hnodup.1 (heq ▸ hfd)
          simpa using hne
        · have hrest := (List.mem_cons.mp hmem).resolve_left fun h => heq h.symm
          rw [List.filterMap_cons_none (by simp [heq]), ih hnodup.2 hrest]
  induction packets with
  | nil => rfl
  | cons packet rest ih =>
      rw [PreviewWorker.queuedTo] at ih ⊢
      rw [List.flatMap_cons, List.filterMap_append, hone, ih, List.singleton_append]

namespace PreviewServer

theorem fd_mem_setStreaming_iff {fd fd' : ℕ} {streaming : Bool}
    {clients : List PreviewClientState} :
    fd' ∈ (setStreaming fd streaming clients).map PreviewClientState.fd ↔
      fd' = fd ∨ fd' ∈ clients.map PreviewClientState.fd := by
  induction clients with
  | nil => simp [setStreaming]
  | cons c rest ih =>
      rw [setStreaming]
      by_cases h : c.fd = fd
      · simp [h]
      · rw [if_neg h, List.map_cons, List.mem_cons, ih, List.map_cons, List.mem_cons]
        exact or_left_comm

theorem nodup_setStreaming {fd : ℕ} {streaming : Bool} {clients : List PreviewClientState}
    (h : (clients.map PreviewClientState.fd).Nodup) :
    ((setStreaming fd streaming clients).map PreviewClientState.fd).Nodup := by
  induction clients with
  | nil => simp [setStreaming]
  | cons c rest ih =>
      rw [List.map_cons, List.nodup_cons] at h
      rw [setStreaming]
      split
      · simpa using h
      · rename_i hne
        rw [List.map_cons, List.nodup_cons, fd_mem_setStreaming_iff]
        exact ⟨not_or.mpr ⟨hne, h.1⟩, ih h.2⟩

theorem mem_setStreaming (fd : ℕ) (streaming : Bool) (clients : List PreviewClientState) :
    { fd := fd, streaming := streaming } ∈ setStreaming fd streaming clients := by
  induction clients with
  | nil => simp [setStreaming]
  | cons c rest ih =>
      rw [setStreaming]
      split
      · rename_i heq
        simp [← heq]
      · exact List.mem_cons_of_mem c ih

theorem mem_setStreaming_of_ne {fd : ℕ} {streaming : Bool} {clients : List PreviewClientState}
    {c : PreviewClientState} (hmem : c ∈ clients) (hne : c.fd ≠ fd) :
    c ∈ setStreaming fd streaming clients := by
  induction clients with
  | nil => cases hmem
  | cons first rest ih =>
      rw [setStreaming]
      rcases List.mem_cons.mp hmem with rfl | hrest
      · rw [if_neg hne]
        exact List.mem_cons_self
      · split
        · exact List.mem_cons_of_mem _ hrest
        · exact List.mem_cons_of_mem _ (ih hrest)

theorem previewClients_removeAll (fds : List ℕ) (s : PreviewServer) :
    fds.foldl removePreviewClient s =
      { s with previewClients := s.previewClients.filter fun c => !fds.contains c.fd } := by
  induction fds generalizing s with
  | nil => simp
  | cons fd rest ih =>
      rw [List.foldl_cons, ih, removePreviewClient, List.filter_filter]
      congr 1
      refine List.filter_congr fun c _ => ?_
      rw [List.contains_cons, Bool.not_or, Bool.and_comm]
      rfl

end PreviewServer

/-! ### What every run keeps -/

/-- There are panels, and there is something in each of them. -/
def PreviewSnapshot.Painted (snap : PreviewSnapshot) : Prop :=
  snap.panels ≠ [] ∧ ∀ panel ∈ snap.panels, panel.raw ≠ [] ∧ panel.raw.length < 2 ^ 32

/-- Some elements of a list, in its order, with its last one. -/
def Newest {α : Type*} (all some : List α) : Prop :=
  some.Sublist all ∧ some.getLast? = all.getLast?

theorem Newest.snoc {α : Type*} {all shown waiting : List α} (h : Newest all (shown ++ waiting))
    (x : α) : Newest (all ++ [x]) (shown ++ [x]) := by
  refine ⟨((List.sublist_append_left shown waiting).trans h.1).append_right [x], ?_⟩
  rw [List.getLast?_append, List.getLast?_append]
  rfl

theorem previewPackets_of_painted {snap : PreviewSnapshot} (h : snap.Painted) (deflate : Deflate) :
    previewPackets deflate snap = snap.panels.map (previewPacket deflate snap) := by
  rw [previewPackets, List.filter_eq_self.mpr]
  intro panel hpanel
  simpa using (h.2 panel hpanel).1

namespace PreviewServer

theorem raw_of_capturePanel {view : FramebufferPanelView} {panel : PreviewPanelFrame}
    (h : capturePanel view = some panel) : panel.raw ≠ [] ∧ panel.raw.length < 2 ^ 32 := by
  unfold capturePanel at h
  split at h
  · cases h
  · rename_i data hdata
    split at h
    · cases h
    · rename_i hne
      cases h
      exact ⟨hne, data.property⟩

/-- A socket occurs once, and the worker does not sleep over a snapshot. -/
structure Sound (s : PreviewServer) : Prop where
  server : s.server = true
  nodup : (s.previewClients.map PreviewClientState.fd).Nodup
  awake : s.previewPending ≠ none → s.notified = true ∨ s.worker = .woken ∨ s.worker = .ended
  painted : ∀ snap ∈ s.previewPending, snap.Painted

variable {parse : List Char → Option Json} {s : PreviewServer}

theorem sound_init : Sound {} :=
  ⟨rfl, List.nodup_nil, fun h => absurd rfl h, nofun⟩

/-- Another list of clients. -/
theorem Sound.of_clients (h : s.Sound) {clients : List PreviewClientState}
    (hnodup : (clients.map PreviewClientState.fd).Nodup) :
    Sound { s with previewClients := clients } :=
  ⟨h.server, hnodup, h.awake, h.painted⟩

theorem nodup_filter (h : s.Sound) (p : PreviewClientState → Bool) :
    ((s.previewClients.filter p).map PreviewClientState.fd).Nodup :=
  (List.filter_sublist.map _).nodup h.nodup

theorem Sound.publish (h : s.Sound) (panels : List FramebufferPanelView) (timestampMs : UInt64) :
    Sound (s.publishFramebufferSnapshot panels timestampMs).1 := by
  unfold publishFramebufferSnapshot
  split
  · exact h
  · split
    · exact h
    · dsimp only
      split
      · exact ⟨h.server, h.nodup, h.awake, h.painted⟩
      · rename_i hpanels
        refine ⟨h.server, h.nodup, fun _ => .inl rfl, ?_⟩
        rintro snap ⟨⟩
        refine ⟨hpanels, fun panel hpanel => ?_⟩
        obtain ⟨view, -, hview⟩ := List.mem_filterMap.mp hpanel
        exact raw_of_capturePanel hview

theorem Sound.work (h : s.Sound) (sent : Bool) : Sound (s.previewWorker deflate sent).1 := by
  have hclear (worker : PreviewWorker) :
      Sound { s with previewPending := none, worker := worker } :=
    ⟨h.server, h.nodup, fun hne => absurd rfl hne, nofun⟩
  unfold previewWorker
  cases hworker : s.worker with
  | waiting =>
      dsimp only
      split
      · exact ⟨h.server, h.nodup, fun _ => .inr (.inl rfl), h.painted⟩
      · exact h
  | woken =>
      dsimp only
      split
      · exact ⟨h.server, h.nodup, fun _ => .inr (.inr rfl), h.painted⟩
      · split
        · rename_i hpending
          exact ⟨h.server, h.nodup, fun hne => absurd hpending hne, h.painted⟩
        · split
          · exact hclear _
          · exact hclear _
  | sending queue dead =>
      have hawake (hne : s.previewPending ≠ none) : s.notified = true := by
        simpa [hworker] using h.awake hne
      cases queue with
      | nil =>
          dsimp only
          rw [previewClients_removeAll]
          exact ⟨h.server, nodup_filter h _, fun hne => .inl (hawake hne), h.painted⟩
      | cons x queue =>
          dsimp only
          split
          · exact ⟨h.server, h.nodup, fun hne => .inl (hawake hne), h.painted⟩
          · exact ⟨h.server, h.nodup, fun hne => .inl (hawake hne), h.painted⟩
  | ended => exact h

theorem Sound.step (h : s.Sound) (e : PreviewStep) : Sound (s.step deflate parse e).1 := by
  cases e with
  | publish panels timestampMs => exact h.publish panels timestampMs
  | handshake fd requireHttpAuth =>
      rw [PreviewServer.step]
      split
      · exact h.of_clients (nodup_setStreaming h.nodup)
      · exact h
  | receive fd frame =>
      cases frame with
      | none => exact h
      | some frame =>
          rw [PreviewServer.step]
          cases frame with
          | close => exact h.of_clients (nodup_filter h _)
          | other => exact h
          | text body =>
              rw [handleWsPreview]
              split
              · exact h
              · split
                · exact h
                · exact h.of_clients (nodup_setStreaming h.nodup)
  | work sent => exact h.work sent
  | destroy => exact ⟨h.server, h.nodup, fun _ => .inl rfl, h.painted⟩

theorem Sound.run (h : s.Sound) (steps : List PreviewStep) :
    Sound (reached (PreviewServer.step deflate parse) s steps) :=
  run_invariant (fun _ e hs => hs.step e) h steps

/-! ### A client which goes on streaming -/

/-- Neither the client nor its socket ends the stream, and the server is not destroyed. -/
def Keeps (parse : List Char → Option Json) (fd : ℕ) (s : PreviewServer) : PreviewStep → Prop
  | .publish _ _ => True
  | .handshake fd' requireHttpAuth => fd' = fd → requireHttpAuth = false
  | .receive _ none => True
  | .receive _ (some .other) => True
  | .receive fd' (some .close) => fd' ≠ fd
  | .receive fd' (some (.text body)) =>
      fd' = fd → previewCommand parse (trimPreviewWsTextPayload body) ≠ some false
  | .work sent => s.worker.next = some fd → sent = true
  | .destroy => False

instance (parse : List Char → Option Json) (fd : ℕ) (s : PreviewServer) :
    (e : PreviewStep) → Decidable (s.Keeps parse fd e)
  | .publish _ _ => isTrue trivial
  | .handshake fd' requireHttpAuth =>
      inferInstanceAs (Decidable (fd' = fd → requireHttpAuth = false))
  | .receive _ none => isTrue trivial
  | .receive _ (some .other) => isTrue trivial
  | .receive fd' (some .close) => inferInstanceAs (Decidable (fd' ≠ fd))
  | .receive fd' (some (.text body)) => inferInstanceAs (Decidable
      (fd' = fd → previewCommand parse (trimPreviewWsTextPayload body) ≠ some false))
  | .work sent => inferInstanceAs (Decidable (s.worker.next = some fd → sent = true))
  | .destroy => isFalse id

/-- What the worker shows the client: `shown` of the snapshots in `before` and in the log. -/
structure Follows (deflate : Deflate) (fd : ℕ) (before : List PreviewSnapshot)
    (s : PreviewServer) (log : List PreviewEffect) (shown : List PreviewSnapshot) : Prop where
  up : s.previewWorkerStop = false
  streaming : { fd := fd, streaming := true } ∈ s.previewClients
  alive : fd ∉ s.worker.dead
  packets : packetsTo fd log ++ s.worker.queuedTo fd = shown.flatMap (previewPackets deflate)
  painted : ∀ snap ∈ shown, snap.Painted
  newest : Newest (before ++ publishedIn log) (shown ++ s.previewPending.toList)

variable {fd : ℕ} {before shown : List PreviewSnapshot} {log : List PreviewEffect}

/-- A step which publishes nothing and, of what is queued, sends the front at most. -/
theorem Follows.congr (h : Follows deflate fd before s log shown) {s' : PreviewServer}
    {effects : List PreviewEffect} (hstop : s'.previewWorkerStop = s.previewWorkerStop)
    (hpending : s'.previewPending = s.previewPending) (hpublished : publishedIn effects = [])
    (hpackets : packetsTo fd effects ++ s'.worker.queuedTo fd = s.worker.queuedTo fd)
    (halive : fd ∉ s'.worker.dead)
    (hstreaming : { fd := fd, streaming := true } ∈ s'.previewClients) :
    Follows deflate fd before s' (log ++ effects) shown where
  up := hstop.trans h.up
  streaming := hstreaming
  alive := halive
  packets := by
    rw [packetsTo_append, List.append_assoc, hpackets]
    exact h.packets
  painted := h.painted
  newest := by
    rw [publishedIn_append, hpublished, List.append_nil, hpending]
    exact h.newest

/-- A step which only looks at the clients. -/
theorem Follows.of_clients (h : Follows deflate fd before s log shown) {s' : PreviewServer}
    {effects : List PreviewEffect} (hstop : s'.previewWorkerStop = s.previewWorkerStop)
    (hworker : s'.worker = s.worker) (hpending : s'.previewPending = s.previewPending)
    (hpublished : publishedIn effects = []) (hpackets : packetsTo fd effects = [])
    (hstreaming : { fd := fd, streaming := true } ∈ s'.previewClients) :
    Follows deflate fd before s' (log ++ effects) shown :=
  h.congr hstop hpending hpublished (by rw [hpackets, hworker, List.nil_append])
    (hworker ▸ h.alive) hstreaming

theorem Follows.publish (h : Follows deflate fd before s log shown)
    (panels : List FramebufferPanelView) (timestampMs : UInt64) :
    Follows deflate fd before (s.publishFramebufferSnapshot panels timestampMs).1
      (log ++ (s.publishFramebufferSnapshot panels timestampMs).2) shown := by
  unfold publishFramebufferSnapshot
  split
  · exact h.of_clients rfl rfl rfl rfl rfl h.streaming
  · split
    · exact h.of_clients rfl rfl rfl rfl rfl h.streaming
    · dsimp only
      split
      · exact h.of_clients rfl rfl rfl rfl rfl h.streaming
      · refine ⟨h.up, h.streaming, h.alive, ?_, h.painted, ?_⟩
        · rw [packetsTo_append, List.append_assoc]
          exact h.packets
        · rw [publishedIn_append, ← List.append_assoc]
          exact h.newest.snoc _

/-- The worker takes a snapshot, for this client among others. -/
theorem Follows.take (h : Follows deflate fd before s log shown) (hsound : s.Sound)
    (hworker : s.worker = .woken) {snap : PreviewSnapshot}
    (hpending : s.previewPending = some snap) {fds : List ℕ} (hnodup : fds.Nodup)
    (hmem : fd ∈ fds) :
    Follows deflate fd before
      { s with
          previewPending := none
          worker := .sending ((previewPackets deflate snap).flatMap fun packet =>
            fds.map fun fd => (fd, packet)) [] }
      (log ++ []) (shown ++ [snap]) where
  up := h.up
  streaming := h.streaming
  alive := List.not_mem_nil
  packets := by
    have hpackets := h.packets
    rw [hworker, PreviewWorker.queuedTo, List.append_nil] at hpackets
    rw [queuedTo_sending hnodup hmem, List.append_nil, hpackets, List.flatMap_append,
      List.flatMap_singleton]
  painted := by
    intro snap' hsnap
    rcases List.mem_append.mp hsnap with hold | hnew
    · exact h.painted snap' hold
    · obtain rfl := List.mem_singleton.mp hnew
      exact hsound.painted snap' hpending
  newest := by
    have hnewest := h.newest
    rw [hpending] at hnewest
    simpa using hnewest

theorem Follows.work (h : Follows deflate fd before s log shown) (hsound : s.Sound) {sent : Bool}
    (hkeeps : s.worker.next = some fd → sent = true) :
    ∃ shown', Follows deflate fd before (s.previewWorker deflate sent).1
      (log ++ (s.previewWorker deflate sent).2) shown' := by
  unfold previewWorker
  cases hworker : s.worker with
  | waiting =>
      refine ⟨shown, ?_⟩
      dsimp only
      split
      · exact h.congr rfl rfl rfl (by rw [hworker]; rfl) List.not_mem_nil h.streaming
      · exact h.of_clients rfl rfl rfl rfl rfl h.streaming
  | woken =>
      have hmem : fd ∈ (s.previewClients.filter PreviewClientState.streaming).map
          PreviewClientState.fd :=
        List.mem_map.mpr ⟨_, List.mem_filter.mpr ⟨h.streaming, rfl⟩, rfl⟩
      dsimp only
      rw [if_neg (by simp [h.up])]
      split
      · exact ⟨shown, h.congr rfl rfl rfl (by rw [hworker]; rfl) List.not_mem_nil h.streaming⟩
      · rename_i snap hpending
        have htakes : ¬ (s.server = false ∨ (s.previewClients.filter
            PreviewClientState.streaming).map PreviewClientState.fd = [] ∨ snap.panels = []) := by
          rw [not_or, not_or]
          exact ⟨by simp [hsound.server], List.ne_nil_of_mem hmem,
            (hsound.painted snap hpending).1⟩
        rw [if_neg htakes]
        exact ⟨shown ++ [snap], h.take hsound hworker hpending (nodup_filter hsound _) hmem⟩
  | sending queue dead =>
      have halive := h.alive
      rw [hworker] at halive hkeeps
      refine ⟨shown, ?_⟩
      cases queue with
      | nil =>
          dsimp only
          rw [previewClients_removeAll]
          refine h.congr rfl rfl rfl (by rw [hworker]; rfl) List.not_mem_nil
            (List.mem_filter.mpr ⟨h.streaming, ?_⟩)
          simpa [PreviewWorker.dead] using halive
      | cons x queue =>
          obtain ⟨fd', packet⟩ := x
          by_cases heq : fd' = fd
          · subst heq
            rw [hkeeps rfl]
            refine h.congr rfl rfl rfl ?_ halive h.streaming
            rw [hworker]
            simp [packetsTo, PreviewEffect.packetTo, PreviewWorker.queuedTo]
          · have hqueued : packetsTo fd [] ++ (PreviewWorker.sending queue dead).queuedTo fd =
                s.worker.queuedTo fd := by
              rw [hworker]
              simp [packetsTo, PreviewWorker.queuedTo, heq]
            dsimp only
            split
            · refine h.congr rfl rfl rfl ?_ halive h.streaming
              rw [← hqueued]
              simp [packetsTo, PreviewEffect.packetTo, heq]
            · refine h.congr rfl rfl rfl hqueued ?_ h.streaming
              have hne : ¬ fd = fd' := fun h => heq h.symm
              simpa [PreviewWorker.dead, hne] using halive
  | ended => exact ⟨shown, h.of_clients rfl rfl rfl rfl rfl h.streaming⟩

theorem Follows.step (h : Follows deflate fd before s log shown) (hsound : s.Sound)
    {e : PreviewStep} (hkeeps : Keeps parse fd s e) :
    ∃ shown', Follows deflate fd before (s.step deflate parse e).1
      (log ++ (s.step deflate parse e).2) shown' := by
  have hstays {fd' : ℕ} {streaming : Bool} (hsame : fd' = fd → streaming = true) :
      { fd := fd, streaming := true } ∈ setStreaming fd' streaming s.previewClients := by
    by_cases heq : fd' = fd
    · rw [hsame heq, heq]
      exact mem_setStreaming fd true s.previewClients
    · exact mem_setStreaming_of_ne h.streaming fun heq' => heq heq'.symm
  cases e with
  | publish panels timestampMs => exact ⟨shown, h.publish panels timestampMs⟩
  | handshake fd' requireHttpAuth =>
      refine ⟨shown, ?_⟩
      rw [PreviewServer.step]
      split
      · rename_i hauth
        refine h.of_clients rfl rfl rfl rfl rfl (hstays fun heq => ?_)
        exact absurd hauth (by rw [hkeeps heq]; exact Bool.false_ne_true)
      · exact h.of_clients rfl rfl rfl rfl rfl h.streaming
  | receive fd' frame =>
      refine ⟨shown, ?_⟩
      cases frame with
      | none => exact h.of_clients rfl rfl rfl rfl rfl h.streaming
      | some frame =>
          rw [PreviewServer.step]
          cases frame with
          | close =>
              refine h.of_clients rfl rfl rfl rfl rfl (List.mem_filter.mpr ⟨h.streaming, ?_⟩)
              have hne : ¬ fd = fd' := fun heq => hkeeps heq.symm
              simpa using hne
          | other => exact h.of_clients rfl rfl rfl rfl rfl h.streaming
          | text body =>
              rw [handleWsPreview]
              split
              · exact h.of_clients rfl rfl rfl rfl rfl h.streaming
              · split
                · exact h.of_clients rfl rfl rfl rfl rfl h.streaming
                · rename_i streaming hcommand
                  refine h.of_clients rfl rfl rfl ?_ ?_ (hstays fun heq => ?_)
                  · cases streaming <;> rfl
                  · cases streaming <;> rfl
                  · have hgoes := hkeeps heq
                    rw [hcommand] at hgoes
                    simpa using hgoes
  | work sent => exact h.work hsound hkeeps
  | destroy => exact absurd hkeeps id

theorem follows_of_run (hsound : s.Sound) (h : Follows deflate fd before s [] [])
    {steps : List PreviewStep}
    (hkeeps : Along (fun s e => (step deflate parse s e).1) (Keeps parse fd) s steps) :
    ∃ shown, Follows deflate fd before (reached (step deflate parse) s steps)
      (emitted (step deflate parse) s steps) shown := by
  have hstart : s.Sound ∧ ∃ shown, Follows deflate fd before s [] shown := ⟨hsound, [], h⟩
  obtain ⟨-, shown, hfollows⟩ := hkeeps.emitted_invariant
    (I := fun s log => s.Sound ∧ ∃ shown, Follows deflate fd before s log shown)
    (fun s log e hI hkeep => by
      obtain ⟨hs, shown, hshown⟩ := hI
      exact ⟨hs.step e, hshown.step hs hkeep⟩) hstart
  exact ⟨shown, hfollows⟩

/-- The worker sleeps, and nobody has woken it. -/
def Asleep (s : PreviewServer) : Prop :=
  s.worker = .waiting ∧ s.notified = false

instance (s : PreviewServer) : Decidable s.Asleep :=
  inferInstanceAs (Decidable (s.worker = .waiting ∧ s.notified = false))

theorem Sound.pending_of_asleep (h : s.Sound) (hasleep : s.Asleep) : s.previewPending = none := by
  by_contra hne
  simpa [hasleep.1, hasleep.2] using h.awake hne

end PreviewServer

/-- What a browser has of a snapshot. -/
def PreviewSnapshot.shownPanels (snap : PreviewSnapshot) : List ShownPanel :=
  snap.panels.map snap.shownPanel

/-- The panels of a snapshot, read one by one. -/
theorem mapM_readPacket_previewPackets (h : Inverse deflate inflate) {shown : List PreviewSnapshot}
    (hpainted : ∀ snap ∈ shown, snap.Painted) :
    (shown.flatMap (previewPackets deflate)).mapM (readPacket inflate) =
      some (shown.flatMap PreviewSnapshot.shownPanels) := by
  have hpanels (snap : PreviewSnapshot) (panels : List PreviewPanelFrame)
      (hraw : ∀ panel ∈ panels, panel.raw.length < 2 ^ 32) :
      (panels.map (previewPacket deflate snap)).mapM (readPacket inflate) =
        some (panels.map snap.shownPanel) := by
    induction panels with
    | nil => rfl
    | cons panel rest ih =>
        rw [List.map_cons, List.mapM_cons,
          readPacket_previewPacket h snap (hraw panel List.mem_cons_self),
          ih fun other hother => hraw other (List.mem_cons_of_mem panel hother)]
        rfl
  induction shown with
  | nil => rfl
  | cons snap rest ih =>
      have hsnap := hpainted snap List.mem_cons_self
      rw [List.flatMap_cons, List.mapM_append,
        ih fun other hother => hpainted other (List.mem_cons_of_mem snap hother),
        previewPackets_of_painted hsnap, hpanels snap snap.panels fun panel hpanel =>
          (hsnap.2 panel hpanel).2]
      rfl

namespace PreviewServer

variable {parse : List Char → Option Json} {s : PreviewServer} {fd : ℕ}

/-- A browser which asked for the stream.  Whatever order the main task, the worker and the other
browsers take turns in, once the worker sleeps the browser has read some of the snapshots,
each with all its panels as they were painted, in their order, and the newest one is the last. -/
theorem frames_of_client (h : Inverse deflate inflate) {pre post : List PreviewStep}
    {body : List Char} (hbody : body ≠ [])
    (hstart : previewCommand parse (trimPreviewWsTextPayload body) = some true)
    (hs : s = reached (step deflate parse) {} (pre ++ [.receive fd (some (.text body))]))
    (hup : s.previewWorkerStop = false) (hqueue : s.worker.queuedTo fd = [])
    (hdead : fd ∉ s.worker.dead)
    (hkeeps : Along (fun s e => (step deflate parse s e).1) (Keeps parse fd) s post)
    (hasleep : (reached (step deflate parse) s post).Asleep) :
    ∃ shown : List PreviewSnapshot,
      Newest (s.previewPending.toList ++ publishedIn (emitted (step deflate parse) s post)) shown ∧
        (packetsTo fd (emitted (step deflate parse) s post)).mapM (readPacket inflate) =
          some (shown.flatMap PreviewSnapshot.shownPanels) := by
  have hsound : s.Sound := hs ▸ sound_init.run _
  have hstreaming : { fd := fd, streaming := true } ∈ s.previewClients := by
    rw [hs, reached_append, reached_cons, reached_nil, step, handleWsPreview, if_neg hbody, hstart]
    exact mem_setStreaming fd true _
  have hfollows : Follows deflate fd s.previewPending.toList s [] [] :=
    ⟨hup, hstreaming, hdead, hqueue, nofun, by simp [publishedIn, Newest]⟩
  obtain ⟨shown, hshown⟩ := follows_of_run hsound hfollows hkeeps
  have hpending := (hsound.run post).pending_of_asleep hasleep
  have hnewest := hshown.newest
  have hpackets := hshown.packets
  rw [hpending, Option.toList_none, List.append_nil] at hnewest
  rw [hasleep.1, PreviewWorker.queuedTo, List.append_nil] at hpackets
  refine ⟨shown, hnewest, ?_⟩
  rw [hpackets]
  exact mapM_readPacket_previewPackets h hshown.painted

/-- A byte in front of what was compressed, where there is room. -/
def tagged : Deflate := fun room raw =>
  if raw.length < room ∧ raw.length < 1000 then some (0 :: raw) else none

theorem inverse_tagged : Inverse tagged List.tail? := by
  intro room raw compressed h
  unfold tagged at h
  split at h
  · rename_i hroom
    cases h
    exact ⟨by simp; omega, rfl⟩
  · cases h

def eightPixels (index b : UInt8) : FramebufferPanelView where
  panelIndex := index
  width := 8
  height := 1
  stride := 1
  rotationDeg := 180
  data := some ⟨[b], by simp⟩

/-- The second of three snapshots is replaced before the worker takes it. -/
def threeSnapshots : List PreviewStep :=
  [.publish [eightPixels 0 1] 10, .work true, .work true, .publish [eightPixels 0 2] 20,
    .work true, .publish [eightPixels 0 3, eightPixels 1 4] 30, .work true, .work true, .work true,
    .work true, .work true, .work true]

/-- The browser at socket 5 has asked for the stream. -/
def oneStream : PreviewServer where
  previewClients := [{ fd := 5, streaming := true }]

theorem frames_of_client_threeSnapshots :
    ∃ shown : List PreviewSnapshot,
      Newest (publishedIn (emitted (step tagged fun _ => none) oneStream threeSnapshots)) shown ∧
        (packetsTo 5 (emitted (step tagged fun _ => none) oneStream threeSnapshots)).mapM
            (readPacket List.tail?) =
          some (shown.flatMap PreviewSnapshot.shownPanels) :=
  @frames_of_client tagged List.tail? (fun _ => none) oneStream 5 inverse_tagged
    [.handshake 5 true] threeSnapshots ['s', 't', 'a', 'r', 't'] (by decide) (by decide) rfl rfl rfl
    (by decide) (by decide) (by decide)

end PreviewServer

end Preview

end BtClock
