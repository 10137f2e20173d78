import BtClock.Proxy.Framing

/-!
# The proxy handshake

A handshake which succeeds leaves the socket at the payload, but for HTTP CONNECT: there the
reply is read in pieces until its end is in the buffer, and what such a piece holds of the
payload is dropped.
-/

namespace BtClock

namespace Proxy

open Reading

inductive Kind
  | none
  | httpConnect
  | socks4
  | socks4a
  | socks5
  deriving DecidableEq, Repr

structure Config where
  kind : Kind
  user : List UInt8
  pass : List UInt8
  deriving DecidableEq, Repr

/-! ### The handshakes -/

/-- The user and the password, where the proxy asks for them. -/
def sendUserPass (s : Socket) (cfg : Config) : Option Socket := do
  let s ← s.sendAll (buildSocks5UserPass cfg.user cfg.pass)
  let (reply, s) ← s.recvAll 2
  if parseSocks5UserPassReply reply then some s else none

/-- The method which the proxy picks. -/
def followMethod (s : Socket) (cfg : Config) (m : UInt8) : Option Socket :=
  if m = kRejected then none else if m = kUserPass then sendUserPass s cfg else some s

/-- The length of the address in a reply with the header `hdr`.  A name is behind a byte with its
length. -/
def recvAddrLen (s : Socket) (hdr : List UInt8) : Option (ℕ × Socket) :=
  if hdr.getD 0 0 ≠ 0x05 then none
  else if hdr.getD 3 0 = 0x01 then some (4, s)
  else if hdr.getD 3 0 = 0x04 then some (16, s)
  else if hdr.getD 3 0 = 0x03 then
    (s.recvAll 1).map fun (len, s) => ((len.getD 0 0).toNat, s)
  else none

def recvConnectReply (s : Socket) : Option Socket := do
  let (hdr, s) ← s.recvAll 4
  let (addrLen, s) ← recvAddrLen s hdr
  let (_, s) ← s.recvAll (addrLen + 2)
  if hdr.getD 1 0 ≠ 0x00 then none else some s

def runSocks5 (s : Socket) (cfg : Config) (destHost : List UInt8) (destPort : UInt16) :
    Option Socket := do
  let s ← s.sendAll (buildSocks5Greeting (cfg.user ≠ []))
  let (reply, s) ← s.recvAll 2
  let m ← parseSocks5GreetingReply reply
  let s ← followMethod s cfg m
  let s ← s.sendAll (buildSocks5Connect destHost destPort)
  recvConnectReply s

def runSocks4a (s : Socket) (cfg : Config) (destHost : List UInt8) (destPort : UInt16) :
    Option Socket := do
  let s ← s.sendAll (buildSocks4aRequest destHost destPort cfg.user)
  let (reply, s) ← s.recvAll 8
  if parseSocks4Reply reply ≠ 0x5A then none else some s

def runSocks4 (s : Socket) (cfg : Config) (destHost : List UInt8) (destPort : UInt16) :
    Option Socket :=
  runSocks4a s cfg destHost destPort

def httpConnectRequest (cfg : Config) (destHost : List UInt8) (destPort : UInt16) : List UInt8 :=
  let authB64 := if cfg.user = [] then [] else base64Encode (cfg.user ++ ascii ":" ++ cfg.pass)
  buildHttpConnectRequest destHost destPort authB64

def kHttpBuf : ℕ := 1024

/-- What was read behind the reply is in the buffer only, and the buffer is gone. -/
def runHttpConnect (s : Socket) (cfg : Config) (destHost : List UInt8) (destPort : UInt16) :
    Option Socket := do
  let s ← s.sendAll (httpConnectRequest cfg destHost destPort)
  let (status, _, s) := s.recvUntilParsed kHttpBuf parseHttpConnectStatus
  if status < 0 then none else if status ≠ 200 then none else some s

def runProxyHandshake (s : Socket) (cfg : Config) (destHost : List UInt8) (destPort : UInt16) :
    Option Socket :=
  match cfg.kind with
  | .none => some s
  | .httpConnect => runHttpConnect s cfg destHost destPort
  | .socks4 => runSocks4 s cfg destHost destPort
  | .socks4a => runSocks4a s cfg destHost destPort
  | .socks5 => runSocks5 s cfg destHost destPort

/-! ### The replies of a proxy which agrees -/

inductive Socks5Address
  | ipv4 (bytes : List UInt8) (h : bytes.length = 4)
  | name (bytes : List UInt8) (h : bytes.length < 256)
  | ipv6 (bytes : List UInt8) (h : bytes.length = 16)

def Socks5Address.atyp : Socks5Address → UInt8
  | .ipv4 _ _ => 0x01
  | .name _ _ => 0x03
  | .ipv6 _ _ => 0x04

def Socks5Address.bytes : Socks5Address → List UInt8
  | .ipv4 bytes _ => bytes
  | .name bytes _ => UInt8.ofNat bytes.length :: bytes
  | .ipv6 bytes _ => bytes

/-- The proxy may ask for the user and the password. -/
structure Socks5Reply where
  asksUserPass : Bool
  reserved : UInt8
  address : Socks5Address
  port : UInt16

def Socks5Reply.connectBytes (r : Socks5Reply) : List UInt8 :=
  [0x05, 0x00, r.reserved, r.address.atyp] ++ (r.address.bytes ++ portBytes r.port)

def Socks5Reply.bytes (r : Socks5Reply) : List UInt8 :=
  if r.asksUserPass then [0x05, kUserPass] ++ ([0x01, 0x00] ++ r.connectBytes)
  else [0x05, 0x00] ++ r.connectBytes

structure Socks4Reply where
  rest : List UInt8
  hrest : rest.length = 6

def Socks4Reply.bytes (r : Socks4Reply) : List UInt8 :=
  [0x00, 0x5A] ++ r.rest

inductive Reply : Kind → Type
  | none : Reply .none
  | httpConnect (r : HttpReply) : Reply .httpConnect
  | socks4 (r : Socks4Reply) : Reply .socks4
  | socks4a (r : Socks4Reply) : Reply .socks4a
  | socks5 (r : Socks5Reply) : Reply .socks5

def Reply.bytes : {kind : Kind} → Reply kind → List UInt8
  | _, .none => []
  | _, .httpConnect r => r.bytes
  | _, .socks4 r => r.bytes
  | _, .socks4a r => r.bytes
  | _, .socks5 r => r.bytes

/-! ### SOCKS -/

variable {s s' : Socket} {cfg : Config} {destHost payload : List UInt8} {destPort : UInt16}

theorem pending_sendUserPass (h : sendUserPass s cfg = some s')
    (hpending : pending s.reads = [0x01, 0x00] ++ payload) : pending s'.reads = payload := by
  obtain ⟨s₁, hsend, h⟩ := Option.bind_eq_some_iff.mp h
  obtain ⟨⟨reply, s₂⟩, hrecv, h⟩ := Option.bind_eq_some_iff.mp h
  rw [← Socket.reads_sendAll hsend] at hpending
  obtain ⟨-, hrest⟩ := Socket.pending_recvAll hrecv hpending rfl
  simp only at h
  split_ifs at h
  cases h
  exact hrest

theorem pending_recvAddrLen {addrLen : ℕ} {reserved : UInt8} {address : Socks5Address}
    (h : recvAddrLen s [0x05, 0x00, reserved, address.atyp] = some (addrLen, s'))
    (hpending : pending s.reads = address.bytes ++ payload) :
    ∃ bytes, bytes.length = addrLen ∧ pending s'.reads = bytes ++ payload := by
  cases address with
  | ipv4 bytes hbytes =>
      cases h
      exact ⟨bytes, hbytes, hpending⟩
  | ipv6 bytes hbytes =>
      cases h
      exact ⟨bytes, hbytes, hpending⟩
  | name bytes hbytes =>
      obtain ⟨⟨len, s₁⟩, hrecv, heq⟩ := Option.map_eq_some_iff.mp
        (show (s.recvAll 1).map (fun (len, s) => ((len.getD 0 0).toNat, s)) = some (addrLen, s')
          from h)
      cases heq
      rw [Socks5Address.bytes, ← List.singleton_append, List.append_assoc] at hpending
      obtain ⟨rfl, hrest⟩ := Socket.pending_recvAll hrecv hpending rfl
      refine ⟨bytes, ?_, hrest⟩
      simp only [List.getD_cons_zero, UInt8.toNat_ofNat']
      exact (Nat.mod_eq_of_lt hbytes).symm

theorem pending_recvConnectReply {r : Socks5Reply} (h : recvConnectReply s = some s')
    (hpending : pending s.reads = r.connectBytes ++ payload) : pending s'.reads = payload := by
  obtain ⟨⟨hdr, s₁⟩, hhdr, h⟩ := Option.bind_eq_some_iff.mp h
  obtain ⟨⟨addrLen, s₂⟩, haddr, h⟩ := Option.bind_eq_some_iff.mp h
  obtain ⟨⟨scratch, s₃⟩, hscratch, h⟩ := Option.bind_eq_some_iff.mp h
  rw [Socks5Reply.connectBytes, List.append_assoc] at hpending
  obtain ⟨rfl, hpending⟩ := Socket.pending_recvAll hhdr hpending rfl
  rw [List.append_assoc] at hpending
  obtain ⟨bytes, hbytes, hpending⟩ := pending_recvAddrLen haddr hpending
  rw [← List.append_assoc] at hpending
  obtain ⟨-, hpending⟩ := Socket.pending_recvAll hscratch hpending
    (by rw [List.length_append, hbytes]; rfl)
  cases h
  exact hpending

theorem pending_runSocks5 {r : Socks5Reply} (h : runSocks5 s cfg destHost destPort = some s')
    (hpending : pending s.reads = r.bytes ++ payload) : pending s'.reads = payload := by
  obtain ⟨s₁, hgreet, h⟩ := Option.bind_eq_some_iff.mp h
  obtain ⟨⟨reply, s₂⟩, hmethod, h⟩ := Option.bind_eq_some_iff.mp h
  obtain ⟨m, hm, h⟩ := Option.bind_eq_some_iff.mp h
  obtain ⟨s₃, hfollow, h⟩ := Option.bind_eq_some_iff.mp h
  obtain ⟨s₄, hconnect, h⟩ := Option.bind_eq_some_iff.mp h
  rw [← Socket.reads_sendAll hgreet, Socks5Reply.bytes] at hpending
  have hbehind : pending s₃.reads = r.connectBytes ++ payload := by
    split_ifs at hpending with hasks
    · rw [List.append_assoc] at hpending
      obtain ⟨rfl, hpending⟩ := Socket.pending_recvAll hmethod hpending rfl
      cases hm
      rw [List.append_assoc] at hpending
      exact pending_sendUserPass hfollow hpending
    · rw [List.append_assoc] at hpending
      obtain ⟨rfl, hpending⟩ := Socket.pending_recvAll hmethod hpending rfl
      cases hm
      cases hfollow
      exact hpending
  rw [← Socket.reads_sendAll hconnect] at hbehind
  exact pending_recvConnectReply h hbehind

theorem pending_runSocks4a {r : Socks4Reply} (h : runSocks4a s cfg destHost destPort = some s')
    (hpending : pending s.reads = r.bytes ++ payload) : pending s'.reads = payload := by
  obtain ⟨s₁, hsend, h⟩ := Option.bind_eq_some_iff.mp h
  obtain ⟨⟨reply, s₂⟩, hrecv, h⟩ := Option.bind_eq_some_iff.mp h
  rw [← Socket.reads_sendAll hsend] at hpending
  obtain ⟨-, hpending⟩ := Socket.pending_recvAll hrecv hpending
    (by rw [Socks4Reply.bytes, List.length_append, r.hrest]; rfl)
  simp only at h
  split_ifs at h
  cases h
  exact hpending

/-! ### HTTP CONNECT -/

/-- Where the reply of an HTTP proxy ends with a piece which is read, or does not leave room for
more, or the handshake fails. -/
def KeepsPayload (s : Socket) (cfg : Config) (destHost : List UInt8) (destPort : UInt16)
    (r : HttpReply) : Prop :=
  s.sendAll (httpConnectRequest cfg destHost destPort) = none ∨ r.status ≠ 200 ∨
    BrokenBefore r.bytes.length s.reads ∨ kHttpBuf ≤ r.bytes.length ∨
      CutAt r.bytes.length s.reads

theorem runHttpConnect_iff {r : HttpReply} (hpending : pending s.reads = r.bytes ++ payload) :
    (∀ s', runHttpConnect s cfg destHost destPort = some s' → pending s'.reads = payload) ↔
      KeepsPayload s cfg destHost destPort r := by
  have hpos : 0 < r.bytes.length := by
    simp only [HttpReply.bytes, List.length_append, List.length_cons]
    omega
  cases hsend : s.sendAll (httpConnectRequest cfg destHost destPort) with
  | none =>
      refine iff_of_true (fun s' h => ?_) (Or.inl hsend)
      rw [runHttpConnect, hsend] at h
      cases h
  | some s₁ =>
      have hreads : s₁.reads = s.reads := Socket.reads_sendAll hsend
      obtain ⟨hstatus, hkeeps⟩ := @parseLoop_spec kHttpBuf parseHttpConnectStatus r.bytes payload []
        r.status s₁.reads (parsesReply r) hpos (by rw [List.nil_append, hreads, hpending])
      rw [hreads, List.length_nil, Nat.sub_zero] at hkeeps
      rw [KeepsPayload, hsend, or_iff_right (Option.some_ne_none s₁), ← hkeeps, runHttpConnect,
        hsend, ← hreads]
      generalize hloop : parseLoop kHttpBuf parseHttpConnectStatus [] s₁.reads = loop at hstatus ⊢
      obtain ⟨status, consumed, rs⟩ := loop
      simp only [Option.bind_eq_bind, Option.bind_some, Socket.recvUntilParsed, hloop]
      simp only at hstatus
      rcases hstatus with rfl | rfl
      · exact iff_of_true (fun s' h => by cases h) (Or.inr (Or.inl rfl))
      · by_cases h200 : r.status = 200
        · simp only [h200]
          constructor
          · exact fun h => Or.inr (Or.inr (h _ rfl))
          · rintro (h | h | h) s' hs'
            · exact absurd rfl h
            · cases h
            · cases hs'
              exact h
        · refine iff_of_true (fun s' h => ?_) (Or.inl h200)
          rw [if_neg (by omega), if_pos (by omega)] at h
          cases h

def Reply.KeepsPayload (s : Socket) (cfg : Config) (destHost : List UInt8) (destPort : UInt16) :
    {kind : Kind} → Reply kind → Prop
  | _, .httpConnect r => Proxy.KeepsPayload s cfg destHost destPort r
  | _, _ => True

/-- A handshake which succeeds leaves the socket at the payload for every SOCKS proxy, and for an
HTTP proxy iff the reads are cut at the end of its reply or leave no room behind it. -/
theorem runProxyHandshake_iff (s : Socket) (cfg : Config) (destHost : List UInt8)
    (destPort : UInt16) (reply : Reply cfg.kind) (payload : List UInt8)
    (hpending : pending s.reads = reply.bytes ++ payload) :
    (∀ s', runProxyHandshake s cfg destHost destPort = some s' → pending s'.reads = payload) ↔
      reply.KeepsPayload s cfg destHost destPort := by
  obtain ⟨kind, user, pass⟩ := cfg
  cases reply with
  | none =>
      refine iff_of_true (fun s' h => ?_) trivial
      cases h
      exact hpending
  | httpConnect r => exact runHttpConnect_iff hpending
  | socks4 r => exact iff_of_true (fun s' h => pending_runSocks4a h hpending) trivial
  | socks4a r => exact iff_of_true (fun s' h => pending_runSocks4a h hpending) trivial
  | socks5 r => exact iff_of_true (fun s' h => pending_runSocks5 h hpending) trivial

/-- `HTTP/1.1 200 OK` and no headers. -/
def okReply : HttpReply where
  minor := 0x31
  d₁ := 0x32
  d₂ := 0x30
  d₃ := 0x30
  reason := [kSpace, 0x4F, 0x4B]
  headers := []
  hd₁ := rfl
  hd₂ := rfl
  hd₃ := rfl
  hreason := by decide
  hheaders := nofun

/-- A server which speaks first: its first byte comes together with the reply of the proxy. -/
def speaksFirst : Socket where
  reads := [.got (okReply.bytes ++ [0x16])]
  sends := [.took 100]

def httpProxy : Config where
  kind := .httpConnect
  user := []
  pass := []

theorem runProxyHandshake_iff_speaksFirst :
    (∀ s', runProxyHandshake speaksFirst httpProxy [0x61] 443 = some s' →
        pending s'.reads = [0x16]) ↔
      (Reply.httpConnect okReply).KeepsPayload speaksFirst httpProxy [0x61] 443 :=
  runProxyHandshake_iff speaksFirst httpProxy [0x61] 443 (.httpConnect okReply) [0x16]
    (by decide)

theorem exists_runProxyHandshake_drops :
    pending speaksFirst.reads = (Reply.httpConnect okReply).bytes ++ [0x16] ∧
      ∃ s', runProxyHandshake speaksFirst httpProxy [0x61] 443 = some s' ∧
        pending s'.reads ≠ [0x16] :=
  ⟨by decide, ⟨[], [], httpConnectRequest httpProxy [0x61] 443⟩, by decide, nofun⟩

end Proxy

end BtClock
