import BtClock.Proxy.Handshake
import BtClock.Transition.Ledger
import BtClock.Transition.Run

/-!
# The sockets of the proxy transport

The transport keeps one socket and one TLS session.  Every call leaves a ledger of what it opened
and closed, where the session does not close the socket which it was given.
-/

namespace BtClock

namespace Proxy

open Ledger Transition

/-! ### The bypass -/

structure ProxyConfig extends Config where
  host : List UInt8
  port : UInt16
  bypass : List (List UInt8)

def isEnabled (cfg : ProxyConfig) : Bool :=
  cfg.kind ≠ .none

def toLower (b : UInt8) : UInt8 :=
  if 0x41 ≤ b ∧ b ≤ 0x5A then b + 0x20 else b

def iCmpEqual (a b : List UInt8) : Bool :=
  a.map toLower == b.map toLower

def iEndsWith (s suffix : List UInt8) : Bool :=
  if suffix.length > s.length then false
  else iCmpEqual (s.drop (s.length - suffix.length)) suffix

def iStartsWith (s front : List UInt8) : Bool :=
  if front.length > s.length then false else iCmpEqual (s.take front.length) front

def kStar : UInt8 := 0x2A

def matchesGlob (pattern host : List UInt8) : Bool :=
  if pattern = [] then false
  else if pattern = [kStar] then true
  else if pattern.head? = some kStar then iEndsWith host (pattern.drop 1)
  else if pattern.getLast? = some kStar then iStartsWith host pattern.dropLast
  else iCmpEqual pattern host

def shouldBypass (cfg : ProxyConfig) (destHost : List UInt8) : Bool :=
  if isEnabled cfg = false then true else cfg.bypass.any fun pat => matchesGlob pat destHost

/-! ### What the calls meet -/

/-- An address which `getaddrinfo` gives, with what `socket` and `connect` do for it. -/
structure Address where
  inet : Bool
  socket : Option ℕ
  connect : UInt16 → Bool

/-- What `Connect` meets.  The peer is behind the socket to the proxy. -/
structure Environment where
  getaddrinfo : List UInt8 → Option (List Address)
  peer : Socket
  tlsInit : Option ℕ
  setConnSockfd : Bool
  setConnState : Bool
  connNewSync : Bool

/-- What `Read` and `Write` meet: the bytes which the session holds, the socket which it gives,
and the results of `select` and of the transfer, which may be tried again. -/
structure Transfer where
  bytesAvail : ℤ
  connSockfd : Option ℤ
  select : ℤ
  n : ℤ
  again : Bool

/-! ### The transport -/

inductive Resource
  | socket (fd : ℕ)
  | session (tls : ℕ)
  deriving DecidableEq, Repr

abbrev Log := List (Entry Resource)

/-- `Ctx`, where `none` stands for -1 and for no session, and the ledger of its calls. -/
structure Transport where
  cfg : ProxyConfig
  useTls : Bool
  fd : Option ℕ := none
  tls : Option ℕ := none
  bypassed : Bool := false
  log : Log := []

/-- The loop over the addresses. -/
def tryAddresses (port : UInt16) : List Address → Log → Option ℕ × Log
  | [], log => (none, log)
  | p :: ps, log =>
      if p.inet = false then tryAddresses port ps log
      else
        match p.socket with
        | none => tryAddresses port ps log
        | some fd =>
            let log := log ++ [.opened (.socket fd)]
            if p.connect port then (some fd, log)
            else tryAddresses port ps (log ++ [.closed (.socket fd)])

def openTcpSocket (env : Environment) (host : List UInt8) (port : UInt16) (log : Log) :
    Option ℕ × Log :=
  match env.getaddrinfo host with
  | none => (none, log)
  | some res => tryAddresses port res log

namespace Transport

/-- `esp_tls_conn_destroy` when there is a session. -/
def destroyTls (t : Transport) : Transport :=
  match t.tls with
  | none => t
  | some tls => { t with tls := none, log := t.log ++ [.closed (.session tls)] }

/-- `close` when there is a socket. -/
def closeFd (t : Transport) : Transport :=
  match t.fd with
  | none => t
  | some fd => { t with fd := none, log := t.log ++ [.closed (.socket fd)] }

/-- `Connect` behind the socket. -/
def startTls (t : Transport) (env : Environment) : Transport × ℤ :=
  if t.useTls = false then (t, 0)
  else
    match env.tlsInit with
    | none => (t.closeFd, -1)
    | some tls =>
        let t := { t with tls := some tls, log := t.log ++ [.opened (.session tls)] }
        if env.setConnSockfd = false then (t.destroyTls.closeFd, -1)
        else if env.setConnState = false then (t.destroyTls.closeFd, -1)
        else if env.connNewSync = false then (t.destroyTls.closeFd, -1)
        else (t, 0)

def connect (t : Transport) (host : List UInt8) (port : ℕ) (env : Environment) : Transport × ℤ :=
  let t := t.destroyTls.closeFd
  let t := { t with bypassed := shouldBypass t.cfg host }
  let port := if port = 0 then if t.useTls then 443 else 80 else port
  if t.bypassed then
    let (fd, log) := openTcpSocket env host (UInt16.ofNat port) t.log
    let t := { t with fd := fd, log := log }
    if fd = none then (t, -1) else t.startTls env
  else
    let (fd, log) := openTcpSocket env t.cfg.host t.cfg.port t.log
    let t := { t with fd := fd, log := log }
    if fd = none then (t, -1)
    else
      match runProxyHandshake env.peer t.cfg.toConfig host (UInt16.ofNat port) with
      | none => (t.closeFd, -1)
      | some _ => t.startTls env

def pollRead (t : Transport) (io : Transfer) : ℤ :=
  if t.tls ≠ none then
    if io.bytesAvail > 0 then 1
    else
      match io.connSockfd with
      | none => -1
      | some fd => if fd < 0 then -1 else io.select
  else if t.fd = none then -1
  else io.select

def pollWrite (t : Transport) (io : Transfer) : ℤ :=
  if t.tls ≠ none then
    match io.connSockfd with
    | none => -1
    | some fd => if fd < 0 then -1 else io.select
  else if t.fd = none then -1
  else io.select

def kConnectionClosedByFin : ℤ := -1

def kConnectionFailed : ℤ := -2

def read (t : Transport) (io : Transfer) : ℤ :=
  let p := t.pollRead io
  if p < 0 then -1
  else if p = 0 then 0
  else if t.tls ≠ none then
    if io.n > 0 then io.n else if io.n = 0 then 0 else if io.again then 0 else kConnectionFailed
  else if t.fd = none then kConnectionFailed
  else if io.n > 0 then io.n
  else if io.n = 0 then kConnectionClosedByFin
  else if io.again then 0
  else kConnectionFailed

def write (t : Transport) (io : Transfer) : ℤ :=
  let p := t.pollWrite io
  if p < 0 then -1
  else if p = 0 then 0
  else if t.tls = none ∧ t.fd = none then kConnectionFailed
  else if io.n > 0 then io.n
  else if io.n = 0 then 0
  else if io.again then 0
  else kConnectionFailed

def close (t : Transport) : Transport :=
  t.destroyTls.closeFd

/-- The ledger when the transport is gone. -/
def destroy (t : Transport) : Log :=
  t.destroyTls.closeFd.log

end Transport

inductive Call
  | connect (host : List UInt8) (port : ℕ) (env : Environment)
  | read (io : Transfer)
  | write (io : Transfer)
  | close

/-- The transport behind a call, and what the call gives. -/
def Transport.call (t : Transport) : Call → Transport × ℤ
  | .connect host port env => t.connect host port env
  | .read io => (t, t.read io)
  | .write io => (t, t.write io)
  | .close => (t.close, 0)

def Transport.step (t : Transport) (c : Call) : Transport :=
  (t.call c).1

/-! ### What a call holds -/

def Resource.isSocket : Resource → Bool
  | .socket _ => true
  | .session _ => false

/-- At most one socket and at most one session. -/
def AtMostOneEach (held : List Resource) : Prop :=
  held.countP Resource.isSocket ≤ 1 ∧ held.countP (fun r => !r.isSocket) ≤ 1

namespace Transport

def heldSocket (fd : Option ℕ) : List Resource :=
  fd.toList.map .socket

/-- What the transport holds. -/
def held (t : Transport) : List Resource :=
  t.tls.toList.map .session ++ heldSocket t.fd

/-- The ledger leaves what the transport holds. -/
def Balanced (t : Transport) : Prop :=
  Leaves AtMostOneEach t.log t.held

theorem atMostOneEach_held (t : Transport) : AtMostOneEach t.held := by
  obtain ⟨cfg, useTls, fd, tls, bypassed, log⟩ := t
  cases fd <;> cases tls <;> simp [AtMostOneEach, held, heldSocket, Resource.isSocket]

theorem Balanced.destroyTls {t : Transport} (h : t.Balanced) :
    t.destroyTls.Balanced ∧ t.destroyTls.tls = none := by
  rw [Transport.destroyTls]
  split
  · rename_i hnone
    exact ⟨h, hnone⟩
  · rename_i tls hsome
    refine ⟨h.snoc ?_ (atMostOneEach_held { t with tls := none }), rfl⟩
    simp [held, hsome, replay]

theorem Balanced.closeFd {t : Transport} (h : t.Balanced) (htls : t.tls = none) :
    t.closeFd.Balanced ∧ t.closeFd.held = [] := by
  rw [Transport.closeFd]
  split
  · rename_i hnone
    exact ⟨h, by simp [held, heldSocket, htls, hnone]⟩
  · rename_i fd hsome
    refine ⟨h.snoc ?_ (atMostOneEach_held { t with fd := none }), by simp [held, heldSocket, htls]⟩
    simp [held, heldSocket, htls, hsome, replay]

/-- What is released leaves nothing. -/
theorem Balanced.release {t : Transport} (h : t.Balanced) :
    t.destroyTls.closeFd.Balanced ∧ t.destroyTls.closeFd.held = [] :=
  h.destroyTls.1.closeFd h.destroyTls.2

theorem leaves_tryAddresses (port : UInt16) (ps : List Address) (log : Log)
    (h : Leaves AtMostOneEach log []) :
    Leaves AtMostOneEach (tryAddresses port ps log).2
      (heldSocket (tryAddresses port ps log).1) := by
  have hone : ∀ fd, AtMostOneEach [Resource.socket fd] := fun _ => by
    simp [AtMostOneEach, Resource.isSocket]
  induction ps generalizing log with
  | nil => exact h
  | cons p ps ih =>
      rw [tryAddresses]
      split
      · exact ih log h
      · split
        · exact ih log h
        · rename_i fd hsocket
          have hopened : Leaves AtMostOneEach (log ++ [.opened (.socket fd)]) [.socket fd] :=
            h.snoc (by simp [replay]) (hone fd)
          dsimp only
          split
          · exact hopened
          · exact ih _ (hopened.snoc (by simp [replay]) ⟨by decide, by decide⟩)

theorem leaves_openTcpSocket (env : Environment) (host : List UInt8) (port : UInt16) (log : Log)
    (h : Leaves AtMostOneEach log []) :
    Leaves AtMostOneEach (openTcpSocket env host port log).2
      (heldSocket (openTcpSocket env host port log).1) := by
  rw [openTcpSocket]
  split
  · exact h
  · exact leaves_tryAddresses port _ log h

/-- A call keeps the ledger, and holds nothing when it fails. -/
theorem Balanced.startTls {t : Transport} (h : t.Balanced) (htls : t.tls = none)
    (env : Environment) :
    (t.startTls env).1.Balanced ∧ ((t.startTls env).2 ≠ 0 → (t.startTls env).1.held = []) := by
  rw [Transport.startTls]
  split
  · exact ⟨h, fun hne => absurd rfl hne⟩
  · split
    · exact ⟨(h.closeFd htls).1, fun _ => (h.closeFd htls).2⟩
    · rename_i tls hinit
      have hopened : ({ t with
          tls := some tls
          log := t.log ++ [.opened (.session tls)] } : Transport).Balanced := by
        refine h.snoc ?_ (atMostOneEach_held { t with tls := some tls })
        cases hfd : t.fd <;> simp [held, heldSocket, htls, hfd, replay]
      dsimp only
      split_ifs
      · exact ⟨hopened.release.1, fun _ => hopened.release.2⟩
      · exact ⟨hopened.release.1, fun _ => hopened.release.2⟩
      · exact ⟨hopened.release.1, fun _ => hopened.release.2⟩
      · exact ⟨hopened, fun hne => absurd rfl hne⟩

/-- A transport without a session has what was opened for it. -/
theorem balanced_of_opened {t : Transport} (htls : t.tls = none)
    (h : Leaves AtMostOneEach t.log (heldSocket t.fd)) : t.Balanced := by
  rw [Balanced, held, htls]
  exact h

theorem Balanced.connect {t : Transport} (h : t.Balanced) (host : List UInt8) (port : ℕ)
    (env : Environment) :
    (t.connect host port env).1.Balanced ∧
      ((t.connect host port env).2 ≠ 0 → (t.connect host port env).1.held = []) := by
  obtain ⟨hbalanced, hheld⟩ := h.release
  rw [Transport.connect]
  generalize t.destroyTls.closeFd = r at hbalanced hheld
  have htls : r.tls = none := by
    cases htls : r.tls with
    | none => rfl
    | some tls =>
        rw [held, htls] at hheld
        cases hheld
  have hlog : Leaves AtMostOneEach r.log [] := hheld ▸ hbalanced
  have hopen : ∀ dest p, ({ r with
      bypassed := shouldBypass r.cfg host
      fd := (openTcpSocket env dest p r.log).1
      log := (openTcpSocket env dest p r.log).2 } : Transport).Balanced := fun dest p =>
    balanced_of_opened htls (leaves_openTcpSocket env dest p r.log hlog)
  have hclosed : ∀ dest p, (openTcpSocket env dest p r.log).1 = none → ({ r with
      bypassed := shouldBypass r.cfg host
      fd := (openTcpSocket env dest p r.log).1
      log := (openTcpSocket env dest p r.log).2 } : Transport).held = [] := by
    intro dest p hnone
    rw [held, htls, hnone]
    rfl
  dsimp only
  generalize (if port = 0 then if r.useTls = true then 443 else 80 else port) = p
  split
  · split
    · rename_i hnone
      exact ⟨hopen _ _, fun _ => hclosed _ _ hnone⟩
    · exact (hopen _ _).startTls htls env
  · split
    · rename_i hnone
      exact ⟨hopen _ _, fun _ => hclosed _ _ hnone⟩
    · split
      · exact ⟨((hopen _ _).closeFd htls).1, fun _ => ((hopen _ _).closeFd htls).2⟩
      · exact (hopen _ _).startTls htls env

theorem Balanced.step {t : Transport} (h : t.Balanced) (c : Call) : (t.step c).Balanced := by
  cases c with
  | connect host port env => exact (h.connect host port env).1
  | read io => exact h
  | write io => exact h
  | close => exact h.release.1

/-- A call behind which the transport is to hold nothing: `Connect` which fails, and `Close`. -/
def Releases (t : Transport) : Call → Prop
  | .connect host port env => (t.connect host port env).2 ≠ 0
  | .close => True
  | .read _ | .write _ => False

theorem Balanced.held_of_releases {t : Transport} (h : t.Balanced) {c : Call}
    (hreleases : Releases t c) : (t.step c).held = [] := by
  cases c with
  | connect host port env => exact (h.connect host port env).2 hreleases
  | read io => exact hreleases.elim
  | write io => exact hreleases.elim
  | close => exact h.release.2

/-- A new transport behind some calls. -/
def after (cfg : ProxyConfig) (useTls : Bool) (calls : List Call) : Transport :=
  run Transport.step { cfg := cfg, useTls := useTls } calls

theorem balanced_after (cfg : ProxyConfig) (useTls : Bool) (calls : List Call) :
    (after cfg useTls calls).Balanced := by
  have hinit : ({ cfg := cfg, useTls := useTls } : Transport).Balanced :=
    leaves_nil ⟨by decide, by decide⟩
  have hstep : ∀ (t : Transport) (c : Call), t.Balanced → (t.step c).Balanced :=
    fun _ c h => h.step c
  exact run_invariant hstep hinit calls

/-- In a life of a transport, which `Destroy` ends, every socket and every session is closed as
often as it is opened and only while it is open.  At most one of each is open at any time, and
none behind a `Connect` which fails or a `Close`. -/
theorem ledger_of_life (cfg : ProxyConfig) (useTls : Bool) (calls : List Call) :
    Always AtMostOneEach [] (after cfg useTls calls).destroy ∧
      replay [] (after cfg useTls calls).destroy = some [] ∧
        (∀ r, (after cfg useTls calls).destroy.count (.opened r) =
          (after cfg useTls calls).destroy.count (.closed r)) ∧
          ∀ pre c post, calls = pre ++ c :: post → Releases (after cfg useTls pre) c →
            replay [] (after cfg useTls (pre ++ [c])).log = some [] := by
  obtain ⟨hreleased, hheld⟩ := (balanced_after cfg useTls calls).release
  have hempty : replay [] (after cfg useTls calls).destroy = some [] :=
    hreleased.replayed.trans (congrArg _ hheld)
  refine ⟨hreleased.always, hempty, fun r => by simpa using count_of_replay hempty r, ?_⟩
  rintro pre c post - hreleases
  have hbefore := balanced_after cfg useTls pre
  rw [after, run_append_singleton]
  exact (hbefore.step c).replayed.trans (congrArg _ (hbefore.held_of_releases hreleases))

end Transport

end Proxy

end BtClock
