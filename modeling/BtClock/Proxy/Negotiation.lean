import BtClock.Proxy.Handshake

/-!
# The negotiation with a SOCKS5 proxy

What the bytes on the connection were whenever the handshake succeeds: one exchange, from the
method to the bound address.  The method is the proxy's choice, and the client refuses one value
of it only.
-/

namespace BtClock

namespace Proxy

open Reading

/-- What the proxy says in a handshake: the method, and the address to which it is bound. -/
structure Socks5Exchange where
  method : UInt8
  reserved : UInt8
  address : Socks5Address
  port : UInt16

namespace Socks5Exchange

/-- The answer to the user and the password: there is one for the method 0x02 only. -/
def subNegotiation (method : UInt8) : List UInt8 :=
  if method = kUserPass then [0x01, 0x00] else []

/-- A reply of version 5 and status 0 with its whole address. -/
def connectReply (e : Socks5Exchange) : List UInt8 :=
  [0x05, 0x00, e.reserved, e.address.atyp] ++ (e.address.bytes ++ portBytes e.port)

def read (e : Socks5Exchange) : List UInt8 :=
  [0x05, e.method] ++ (subNegotiation e.method ++ e.connectReply)

def sent (e : Socks5Exchange) (cfg : Config) (destHost : List UInt8) (destPort : UInt16) :
    List UInt8 :=
  buildSocks5Greeting (cfg.user ≠ []) ++
    (if e.method = kUserPass then buildSocks5UserPass cfg.user cfg.pass else []) ++
    buildSocks5Connect destHost destPort

end Socks5Exchange

/-- The methods of the greeting, behind its version and their number. -/
def offeredMethods (cfg : Config) : List UInt8 :=
  (buildSocks5Greeting (cfg.user ≠ [])).drop 2

/-- The exchange is what was read and sent between two states of the socket. -/
structure Socks5Exchange.Between (e : Socks5Exchange) (cfg : Config) (destHost : List UInt8)
    (destPort : UInt16) (s s' : Socket) : Prop where
  read : pending s.reads = e.read ++ pending s'.reads
  sent : s'.sent = s.sent ++ e.sent cfg destHost destPort

/-- Whichever way the stream comes, a handshake which succeeds on it was an exchange with a method
which was offered. -/
def FollowsNegotiation (stream : List UInt8) (cfg : Config) (destHost : List UInt8)
    (destPort : UInt16) : Prop :=
  ∀ s s', pending s.reads = stream → runSocks5 s cfg destHost destPort = some s' →
    ∃ e : Socks5Exchange, e.method ∈ offeredMethods cfg ∧ e.Between cfg destHost destPort s s'

variable {s s' : Socket} {cfg : Config} {destHost : List UInt8} {destPort : UInt16}

/-! ### A handshake which succeeds -/

theorem eq_of_parseSocks5UserPassReply {reply : List UInt8} (hlength : reply.length = 2)
    (h : parseSocks5UserPassReply reply = true) : reply = [0x01, 0x00] := by
  obtain ⟨version, status, rfl⟩ := List.length_eq_two.mp hlength
  simpa [parseSocks5UserPassReply] using h

theorem eq_of_parseSocks5GreetingReply {reply : List UInt8} {m : UInt8}
    (hlength : reply.length = 2) (h : parseSocks5GreetingReply reply = some m) :
    reply = [0x05, m] := by
  obtain ⟨version, method, rfl⟩ := List.length_eq_two.mp hlength
  simpa [parseSocks5GreetingReply] using h

theorem between_sendUserPass (h : sendUserPass s cfg = some s') :
    pending s.reads = [0x01, 0x00] ++ pending s'.reads ∧
      s'.sent = s.sent ++ buildSocks5UserPass cfg.user cfg.pass := by
  obtain ⟨s₁, hsend, h⟩ := Option.bind_eq_some_iff.mp h
  obtain ⟨⟨reply, s₂⟩, hrecv, h⟩ := Option.bind_eq_some_iff.mp h
  obtain ⟨hpending, hlength, hsent⟩ := Socket.append_pending_recvAll hrecv
  simp only at h
  split_ifs at h with hparse
  cases h
  rw [← Socket.reads_sendAll hsend, ← hpending, eq_of_parseSocks5UserPassReply hlength hparse]
  exact ⟨rfl, hsent.trans (Socket.sent_sendAll hsend)⟩

theorem between_followMethod {m : UInt8} (h : followMethod s cfg m = some s') :
    m ≠ kRejected ∧ pending s.reads = Socks5Exchange.subNegotiation m ++ pending s'.reads ∧
      s'.sent =
        s.sent ++ (if m = kUserPass then buildSocks5UserPass cfg.user cfg.pass else []) := by
  rw [followMethod] at h
  split_ifs at h with hrejected huser
  · rw [Socks5Exchange.subNegotiation, if_pos huser, if_pos huser]
    exact ⟨hrejected, between_sendUserPass h⟩
  · cases h
    rw [Socks5Exchange.subNegotiation, if_neg huser, if_neg huser, List.append_nil]
    exact ⟨hrejected, rfl, rfl⟩

/-- The length is that of an address of the type in the header, behind what was read for it. -/
theorem exists_front_of_recvAddrLen {version status reserved atyp : UInt8} {addrLen : ℕ}
    (h : recvAddrLen s [version, status, reserved, atyp] = some (addrLen, s')) :
    version = 0x05 ∧ s'.sent = s.sent ∧ ∃ front, pending s.reads = front ++ pending s'.reads ∧
      ∀ bytes : List UInt8, bytes.length = addrLen →
        ∃ address : Socks5Address, address.atyp = atyp ∧ address.bytes = front ++ bytes := by
  rw [recvAddrLen] at h
  simp only [List.getD_cons_zero, List.getD_cons_succ] at h
  split_ifs at h with hversion hipv4 hipv6 hname
  · cases h
    exact ⟨not_not.mp hversion, rfl, [], rfl, fun bytes hbytes =>
      ⟨.ipv4 bytes hbytes, hipv4.symm, rfl⟩⟩
  · cases h
    exact ⟨not_not.mp hversion, rfl, [], rfl, fun bytes hbytes =>
      ⟨.ipv6 bytes hbytes, hipv6.symm, rfl⟩⟩
  · obtain ⟨⟨len, s₁⟩, hrecv, heq⟩ := Option.map_eq_some_iff.mp h
    cases heq
    obtain ⟨hpending, hlength, hsent⟩ := Socket.append_pending_recvAll hrecv
    obtain ⟨n, rfl⟩ := List.length_eq_one_iff.mp hlength
    refine ⟨not_not.mp hversion, hsent, [n], hpending.symm, fun bytes hbytes => ?_⟩
    have hn : bytes.length = n.toNat := hbytes
    refine ⟨.name bytes (hn ▸ n.toNat_lt), hname.symm, ?_⟩
    rw [Socks5Address.bytes, hn, UInt8.ofNat_toNat]
    rfl

theorem exists_portBytes {bytes : List UInt8} (h : bytes.length = 2) :
    ∃ port, portBytes port = bytes := by
  obtain ⟨high, low, rfl⟩ := List.length_eq_two.mp h
  have hhigh := high.toNat_lt
  have hlow := low.toNat_lt
  refine ⟨UInt16.ofNat (high.toNat * 256 + low.toNat), ?_⟩
  rw [portBytes, List.cons.injEq, List.cons.injEq, ← UInt8.toNat_inj, ← UInt8.toNat_inj]
  simp only [UInt16.toNat_toUInt8, UInt16.toNat_shiftRight, UInt16.toNat_ofNat',
    Nat.shiftRight_eq_div_pow]
  refine ⟨?_, ?_, trivial⟩
  · change (high.toNat * 256 + low.toNat) % 65536 / 256 % 256 = high.toNat
    omega
  · omega

theorem exists_reply_of_recvConnectReply (h : recvConnectReply s = some s') :
    ∃ reserved address port,
      pending s.reads = [0x05, 0x00, reserved, Socks5Address.atyp address] ++
        (address.bytes ++ portBytes port) ++ pending s'.reads ∧ s'.sent = s.sent := by
  obtain ⟨⟨hdr, s₁⟩, hhdr, h⟩ := Option.bind_eq_some_iff.mp h
  obtain ⟨⟨addrLen, s₂⟩, haddr, h⟩ := Option.bind_eq_some_iff.mp h
  obtain ⟨⟨scratch, s₃⟩, hscratch, h⟩ := Option.bind_eq_some_iff.mp h
  simp only at h
  split_ifs at h with hstatus
  cases h
  obtain ⟨hpending, hlength, hsent⟩ := Socket.append_pending_recvAll hhdr
  obtain ⟨version, status, reserved, atyp, rfl⟩ := List.length_eq_four.mp hlength
  obtain ⟨rfl, hsent₁, front, hfront, haddress⟩ := exists_front_of_recvAddrLen haddr
  obtain ⟨hrest, hlength', hsent₂⟩ := Socket.append_pending_recvAll hscratch
  obtain ⟨address, rfl, hbytes⟩ := haddress (scratch.take addrLen)
    (List.length_take_of_le (by omega))
  obtain ⟨port, hport⟩ : ∃ port, portBytes port = scratch.drop addrLen :=
    exists_portBytes (by rw [List.length_drop]; omega)
  refine ⟨reserved, address, port, ?_, hsent₂.trans (hsent₁.trans hsent)⟩
  have hstatus : status = 0x00 := not_not.mp hstatus
  rw [← hpending, hfront, ← hrest, hbytes, hport, hstatus]
  simp only [List.append_assoc, List.take_append_drop]

/-- A handshake which succeeds was an exchange, with any method but the one of rejection. -/
theorem exists_exchange_of_runSocks5 (h : runSocks5 s cfg destHost destPort = some s') :
    ∃ e : Socks5Exchange, e.method ≠ kRejected ∧ e.Between cfg destHost destPort s s' := by
  obtain ⟨s₁, hgreet, h⟩ := Option.bind_eq_some_iff.mp h
  obtain ⟨⟨reply, s₂⟩, hmethod, h⟩ := Option.bind_eq_some_iff.mp h
  obtain ⟨m, hm, h⟩ := Option.bind_eq_some_iff.mp h
  obtain ⟨s₃, hfollow, h⟩ := Option.bind_eq_some_iff.mp h
  obtain ⟨s₄, hconnect, h⟩ := Option.bind_eq_some_iff.mp h
  obtain ⟨hpending, hlength, hsent⟩ := Socket.append_pending_recvAll hmethod
  obtain ⟨hrejected, hsub, hsentSub⟩ := between_followMethod hfollow
  obtain ⟨reserved, address, port, hreply, hsentReply⟩ := exists_reply_of_recvConnectReply h
  refine ⟨⟨m, reserved, address, port⟩, hrejected, ?_, ?_⟩
  · rw [← Socket.reads_sendAll hgreet, ← hpending, eq_of_parseSocks5GreetingReply hlength hm, hsub,
      ← Socket.reads_sendAll hconnect, hreply]
    simp only [Socks5Exchange.read, Socks5Exchange.connectReply, List.append_assoc]
  · rw [hsentReply, Socket.sent_sendAll hconnect, hsentSub, hsent, Socket.sent_sendAll hgreet]
    simp only [Socks5Exchange.sent, List.append_assoc]

/-! ### An exchange which is carried through -/

/-- A socket on which the stream comes in one piece, and every `send` takes all. -/
def carrying (stream : List UInt8) : Socket where
  reads := putBack stream []
  sends := List.replicate 3 (.took 1000)

theorem pending_carrying (stream : List UInt8) : pending (carrying stream).reads = stream := by
  rw [carrying, pending_putBack, pending_nil, List.append_nil]

theorem length_sized_le (bytes : List UInt8) : (sized bytes).length ≤ 256 := by
  rw [sized, List.length_cons, List.length_take]
  omega

theorem exists_sendUserPass {ss : List Send} {back : List UInt8}
    (hreads : s.reads = putBack ([0x01, 0x00] ++ back) []) (hsends : s.sends = .took 1000 :: ss) :
    ∃ s', sendUserPass s cfg = some s' ∧ s'.reads = putBack back [] ∧ s'.sends = ss := by
  have huser := length_sized_le cfg.user
  have hpass := length_sized_le cfg.pass
  have hle : (buildSocks5UserPass cfg.user cfg.pass).length ≤ 1000 := by
    rw [buildSocks5UserPass, List.length_append, List.length_cons]
    omega
  obtain ⟨s₁, hsend, hreads₁, hsends₁⟩ := Socket.exists_sendAll hsends (List.cons_ne_nil _ _) hle
  obtain ⟨s₂, hrecv, hreads₂, hsends₂⟩ := Socket.exists_recvAll 2 (hreads₁.trans hreads) rfl
  refine ⟨s₂, ?_, hreads₂, hsends₂.trans hsends₁⟩
  refine Option.bind_eq_some_iff.mpr ⟨s₁, hsend, ?_⟩
  exact Option.bind_eq_some_iff.mpr ⟨_, hrecv, rfl⟩

theorem exists_followMethod {m : UInt8} (hm : m ≠ kRejected) {back : List UInt8}
    (hreads : s.reads = putBack (Socks5Exchange.subNegotiation m ++ back) [])
    (hsends : s.sends = List.replicate 2 (.took 1000)) :
    ∃ s' ss, followMethod s cfg m = some s' ∧ s'.reads = putBack back [] ∧
      s'.sends = .took 1000 :: ss := by
  rw [followMethod, if_neg hm]
  by_cases huser : m = kUserPass
  · rw [Socks5Exchange.subNegotiation, if_pos huser] at hreads
    rw [if_pos huser]
    obtain ⟨s', h, hreads', hsends'⟩ := exists_sendUserPass hreads hsends
    exact ⟨s', [], h, hreads', hsends'⟩
  · rw [Socks5Exchange.subNegotiation, if_neg huser, List.nil_append] at hreads
    rw [if_neg huser]
    exact ⟨s, [.took 1000], rfl, hreads, hsends⟩

/-- The length of an address is found, and as many bytes of it are left. -/
theorem exists_recvAddrLen (reserved : UInt8) (address : Socks5Address) {back : List UInt8}
    (hreads : s.reads = putBack (address.bytes ++ back) []) :
    ∃ addrLen s' bytes, recvAddrLen s [0x05, 0x00, reserved, address.atyp] = some (addrLen, s') ∧
      bytes.length = addrLen ∧ s'.reads = putBack (bytes ++ back) [] := by
  cases address with
  | ipv4 bytes hbytes => exact ⟨4, s, bytes, rfl, hbytes, hreads⟩
  | ipv6 bytes hbytes => exact ⟨16, s, bytes, rfl, hbytes, hreads⟩
  | name bytes hbytes =>
      have hreads : s.reads = putBack ([UInt8.ofNat bytes.length] ++ (bytes ++ back)) [] := hreads
      obtain ⟨s₁, hrecv, hreads₁, -⟩ := Socket.exists_recvAll 1 hreads rfl
      have hlen : (UInt8.ofNat bytes.length).toNat = bytes.length :=
        UInt8.toNat_ofNat_of_lt' hbytes
      refine ⟨bytes.length, s₁, bytes, ?_, rfl, hreads₁⟩
      refine Option.map_eq_some_iff.mpr ⟨_, hrecv, ?_⟩
      simp only [List.getD_cons_zero, hlen]

theorem exists_recvConnectReply {e : Socks5Exchange} {back : List UInt8}
    (hreads : s.reads = putBack (e.connectReply ++ back) []) :
    ∃ s', recvConnectReply s = some s' := by
  rw [Socks5Exchange.connectReply, List.append_assoc] at hreads
  obtain ⟨s₁, hhdr, hreads₁, -⟩ := Socket.exists_recvAll 4 hreads rfl
  rw [List.append_assoc] at hreads₁
  obtain ⟨addrLen, s₂, bytes, haddr, hbytes, hreads₂⟩ :=
    exists_recvAddrLen e.reserved e.address hreads₁
  rw [← List.append_assoc] at hreads₂
  obtain ⟨s₃, hscratch, -⟩ := Socket.exists_recvAll (addrLen + 2) hreads₂
    (by rw [List.length_append, hbytes]; rfl)
  refine ⟨s₃, Option.bind_eq_some_iff.mpr ⟨_, hhdr, ?_⟩⟩
  refine Option.bind_eq_some_iff.mpr ⟨_, haddr, ?_⟩
  exact Option.bind_eq_some_iff.mpr ⟨_, hscratch, rfl⟩

theorem exists_runSocks5 (cfg : Config) (destHost : List UInt8) (destPort : UInt16)
    {e : Socks5Exchange} (hmethod : e.method ≠ kRejected) (payload : List UInt8) :
    ∃ s', runSocks5 (carrying (e.read ++ payload)) cfg destHost destPort = some s' := by
  have hgreeting : buildSocks5Greeting (cfg.user ≠ []) ≠ [] ∧
      (buildSocks5Greeting (cfg.user ≠ [])).length ≤ 1000 := by
    rw [buildSocks5Greeting]
    split_ifs <;> decide
  have hhost := length_sized_le destHost
  have hrequest : (buildSocks5Connect destHost destPort).length ≤ 1000 := by
    simp only [buildSocks5Connect, portBytes, List.length_append, List.length_cons, List.length_nil]
    omega
  have hreads : (carrying (e.read ++ payload)).reads =
      putBack ([0x05, e.method] ++
        (Socks5Exchange.subNegotiation e.method ++ (e.connectReply ++ payload))) [] := by
    simp only [carrying, Socks5Exchange.read, List.append_assoc]
  have hsends : (carrying (e.read ++ payload)).sends =
      .took 1000 :: List.replicate 2 (.took 1000) := rfl
  obtain ⟨s₁, hgreet, hreads₁, hsends₁⟩ := Socket.exists_sendAll hsends hgreeting.1 hgreeting.2
  obtain ⟨s₂, hreply, hreads₂, hsends₂⟩ := Socket.exists_recvAll 2 (hreads₁.trans hreads) rfl
  obtain ⟨s₃, ss, hfollow, hreads₃, hsends₃⟩ := exists_followMethod hmethod hreads₂
    (hsends₂.trans hsends₁)
  obtain ⟨s₄, hconnect, hreads₄, -⟩ := Socket.exists_sendAll hsends₃ (List.cons_ne_nil _ _) hrequest
  obtain ⟨s', hend⟩ := exists_recvConnectReply (hreads₄.trans hreads₃)
  refine ⟨s', Option.bind_eq_some_iff.mpr ⟨s₁, hgreet, ?_⟩⟩
  refine Option.bind_eq_some_iff.mpr ⟨_, hreply, ?_⟩
  refine Option.bind_eq_some_iff.mpr ⟨e.method, rfl, ?_⟩
  refine Option.bind_eq_some_iff.mpr ⟨s₃, hfollow, ?_⟩
  exact Option.bind_eq_some_iff.mpr ⟨s₄, hconnect, hend⟩

/-! ### The method -/

/-- The byte of the stream in which the proxy gives the method. -/
def selectedMethod (stream : List UInt8) : UInt8 :=
  stream.getD 1 0

theorem selectedMethod_read (e : Socks5Exchange) (payload : List UInt8) :
    selectedMethod (e.read ++ payload) = e.method :=
  rfl

/-- The client checks that the method is not the one of rejection, where it is to check that it
was offered: a method of neither kind is taken for one without authentication, and 0x02 is
followed without credentials. -/
theorem followsNegotiation_iff (stream : List UInt8) (cfg : Config) (destHost : List UInt8)
    (destPort : UInt16) :
    FollowsNegotiation stream cfg destHost destPort ↔
      selectedMethod stream ∈ offeredMethods cfg ∨ selectedMethod stream = kRejected ∨
        ∀ (e : Socks5Exchange) (payload : List UInt8), stream ≠ e.read ++ payload := by
  constructor
  · intro hfollows
    by_contra hnot
    simp only [not_or, not_forall, not_not] at hnot
    obtain ⟨hoffered, hrejected, e, payload, rfl⟩ := hnot
    obtain ⟨s', hrun⟩ := exists_runSocks5 cfg destHost destPort hrejected payload
    obtain ⟨e', hoffered', hbetween⟩ := hfollows _ s' (pending_carrying _) hrun
    have hread := hbetween.read
    rw [pending_carrying] at hread
    rw [hread, selectedMethod_read] at hoffered
    exact hoffered hoffered'
  · rintro hstream s s' rfl hrun
    obtain ⟨e, hrejected, hbetween⟩ := exists_exchange_of_runSocks5 hrun
    have hmethod : selectedMethod (pending s.reads) = e.method := by
      rw [hbetween.read, selectedMethod_read]
    rcases hstream with hoffered | hstream | hstream
    · exact ⟨e, hmethod ▸ hoffered, hbetween⟩
    · exact absurd (hmethod ▸ hstream) hrejected
    · exact absurd hbetween.read (hstream e _)

/-- A proxy without a user configured for it. -/
def anonymousProxy : Config where
  kind := .socks5
  user := []
  pass := []

/-- The proxy picks GSSAPI, which the client does not know, and then lets the request through. -/
def picksGssapi : Socks5Exchange where
  method := 0x01
  reserved := 0x00
  address := .ipv4 [0x00, 0x00, 0x00, 0x00] rfl
  port := 0

theorem not_followsNegotiation_gssapi :
    ¬FollowsNegotiation picksGssapi.read anonymousProxy [0x61] 443 := by
  intro hfollows
  obtain ⟨e, hoffered, hbetween⟩ := hfollows (carrying picksGssapi.read)
    ⟨[], [.took 1000], picksGssapi.sent anonymousProxy [0x61] 443⟩ (by decide) (by decide)
  have hmethod : e.method = 0x01 := (congrArg selectedMethod hbetween.read).symm
  rw [hmethod] at hoffered
  exact absurd hoffered (by decide)

end Proxy

end BtClock
