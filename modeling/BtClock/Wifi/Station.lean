import BtClock.Ota.PushImage

/-!
# The station

A task calls `Connect` and `TryConnect`, the task of the event loop handles what the driver
raises, and both go on in any order.  An event is kept with the configuration its association
was made with, which the code does not know.
-/

namespace BtClock

open Ota (EspErr espOk)

abbrev espErrTimeout : EspErr := 0x107

abbrev espErrInvalidResponse : EspErr := 0x108

/-- The bytes before the NUL. -/
abbrev CString := List UInt8

/-- What the driver functions give; `ESP_ERR_INVALID_RESPONSE` is none of their codes. -/
structure DriverCode where
  rc : EspErr
  rc_ne : rc ≠ espErrInvalidResponse

inductive AuthMode
  | wifiAuthOpen
  | wifiAuthWpa2Psk
  deriving DecidableEq, Repr

/-- `wifi_config_t` of the station. -/
structure StaConfig where
  ssid : CString := []
  password : CString := []
  authmode : AuthMode := .wifiAuthOpen
  pmfCapable : Bool := false
  deriving DecidableEq, Repr

/-- The arrays of the driver keep room for a NUL. -/
def staConfig (ssid password : CString) : StaConfig where
  ssid := ssid.take 31
  password := password.take 63
  authmode := if password ≠ [] then .wifiAuthWpa2Psk else .wifiAuthOpen
  pmfCapable := true

inductive DriverEventKind
  | staDisconnected (reason : UInt8)
  | staGotIp (addr : UInt32)
  deriving DecidableEq, Repr

structure DriverEvent where
  madeWith : StaConfig
  kind : DriverEventKind
  deriving DecidableEq, Repr

/-- The reasons which do not heal themselves. -/
def isTerminal (reason : UInt8) : Bool :=
  reason == 201 || reason == 202 || reason == 203 || reason == 204 || reason == 205

def DriverEvent.isGotIp (e : DriverEvent) : Bool :=
  match e.kind with
  | .staGotIp _ => true
  | .staDisconnected _ => false

/-- A disconnect which ends a verification. -/
def DriverEvent.isRefusal (e : DriverEvent) : Bool :=
  match e.kind with
  | .staDisconnected reason => isTerminal reason
  | .staGotIp _ => false

namespace Wifi

inductive State
  | idle
  | connecting
  | connected
  | disconnected
  deriving DecidableEq, Repr

end Wifi

/-- The members of the class. -/
structure Wifi where
  started : Bool := false
  state : Wifi.State := .idle
  lastReason : UInt8 := 0
  ip : UInt32 := 0
  terminalStrikes : UInt32 := 0
  staAutoRetry : Bool := false
  retrySsid : CString := []
  retryPw : CString := []
  deriving DecidableEq, Repr

namespace Wifi

/-- Where `ApplyStaConfigAndConnect` stands, by its next call or store. -/
inductive ApplyStage
  | setConfig
  | resetReason
  | setConnecting
  | connect
  deriving DecidableEq, Repr

/-- Who called `ApplyStaConfigAndConnect`; `TryConnect` resumes with the code it gives. -/
inductive Origin
  | connect
  | verify
  | resume (rc : EspErr)
  deriving DecidableEq, Repr

/-- Where the calling task stands. -/
inductive Caller
  | idle
  | pausing
  | applying (cfg : StaConfig) (stage : ApplyStage) (origin : Origin)
  /-- at the deadline of the loop -/
  | polling
  /-- before the load of the state -/
  | checking
  /-- before the load of the reason -/
  | reading
  | disconnecting (rc : EspErr)
  | rearming (rc : EspErr)
  /-- behind `TryConnect` -/
  | returned (rc : EspErr)
  deriving DecidableEq, Repr

/-- Where `OnEvent` stands. -/
inductive Handler
  | idle
  /-- the reason is stored -/
  | disconnected
  /-- before the load of the retry flag -/
  | deciding
  /-- inside the delay -/
  | waiting
  | reconnecting
  /-- the address is stored -/
  | gotIp (e : DriverEvent)
  deriving DecidableEq, Repr

/-- The call of `TryConnect`: the candidate, the network which was saved when it was called, and
the events which arrived since the candidate was configured. -/
structure Verify where
  candidate : StaConfig := {}
  hadRetryTarget : Bool := false
  savedSsid : CString := []
  savedPw : CString := []
  seen : List DriverEvent := []
  deriving DecidableEq, Repr

/-- The class with its two tasks and the driver. -/
structure System where
  wifi : Wifi := {}
  config : StaConfig := {}
  attempts : List StaConfig := []
  inFlight : List DriverEvent := []
  handler : Handler := .idle
  caller : Caller := .idle
  verify : Verify := {}
  deriving DecidableEq, Repr

/-- The steps of the calling task behind the call, with what the driver gives. -/
inductive CallerAct
  | setConfig (code : DriverCode)
  | connect (began : Bool)
  | deadline (expired : Bool)
  | go

inductive Act
  /-- with the code of `Start` -/
  | connect (ssid password : CString) (start : DriverCode)
  | tryConnect (ssid password : CString) (start : DriverCode)
  | startSoftAp (rc : EspErr)
  | call (a : CallerAct)
  /-- the driver raises an event of one of the associations -/
  | raise (attempt : ℕ) (kind : DriverEventKind)
  | dispatch
  | handle (began : Bool)

/-- The credentials are configured and `TryConnect` has no result yet. -/
def Caller.verifying : Caller → Bool
  | .applying _ stage .verify => stage ≠ .setConfig
  | .polling | .checking | .reading => true
  | _ => false

/-- A new call can be made. -/
def Caller.free : Caller → Bool
  | .idle | .returned _ => true
  | _ => false

namespace System

/-- `esp_wifi_connect`, which makes an association when it begins one. -/
def wifiConnect (s : System) (began : Bool) : System :=
  if began then { s with attempts := s.attempts ++ [s.config] } else s

/-- `Connect` up to `ApplyStaConfigAndConnect`. -/
def connect (s : System) (ssid password : CString) (start : DriverCode) : System :=
  if s.wifi.started = false ∧ start.rc ≠ espOk then { s with caller := .idle }
  else
    { s with
      wifi := { s.wifi with
        started := true
        retrySsid := ssid
        retryPw := password
        staAutoRetry := true }
      caller := .applying (staConfig ssid password) .setConfig .connect }

/-- `TryConnect` up to the store which pauses the retry. -/
def tryConnect (s : System) (ssid password : CString) (start : DriverCode) : System :=
  let s := { s with
    verify :=
      { candidate := staConfig ssid password
        hadRetryTarget := s.wifi.retrySsid ≠ []
        savedSsid := s.wifi.retrySsid
        savedPw := s.wifi.retryPw } }
  if s.wifi.started = false ∧ start.rc ≠ espOk then { s with caller := .returned start.rc }
  else { s with wifi := { s.wifi with started := true }, caller := .pausing }

/-- Where the caller goes behind `ApplyStaConfigAndConnect`, which gave `rc`. -/
def afterApply (rc : EspErr) : Origin → Caller
  | .connect => .idle
  | .verify => if rc ≠ espOk then .returned rc else .polling
  | .resume rc' => .returned rc'

def stepCaller (s : System) (a : CallerAct) : System :=
  match s.caller, a with
  | .pausing, .go =>
      { s with
        wifi := { s.wifi with staAutoRetry := false }
        caller := .applying s.verify.candidate .setConfig .verify }
  | .applying cfg .setConfig origin, .setConfig code =>
      if code.rc ≠ espOk then { s with caller := afterApply code.rc origin }
      else { s with config := cfg, caller := .applying cfg .resetReason origin }
  | .applying cfg .resetReason origin, .go =>
      { s with
        wifi := { s.wifi with lastReason := 0 }
        caller := .applying cfg .setConnecting origin }
  | .applying cfg .setConnecting origin, .go =>
      { s with
        wifi := { s.wifi with state := .connecting }
        caller := .applying cfg .connect origin }
  | .applying _ .connect origin, .connect began =>
      { s.wifiConnect began with caller := afterApply espOk origin }
  | .polling, .deadline expired =>
      { s with caller := if expired then .disconnecting espErrTimeout else .checking }
  | .checking, .go =>
      { s with caller := if s.wifi.state = .connected then .returned espOk else .reading }
  | .reading, .go =>
      { s with
        caller :=
          if isTerminal s.wifi.lastReason then .disconnecting espErrInvalidResponse
          else .polling }
  | .disconnecting rc, .go =>
      if s.verify.hadRetryTarget then { s with caller := .rearming rc }
      else { s with wifi := { s.wifi with state := .idle }, caller := .returned rc }
  | .rearming rc, .go =>
      { s with
        wifi := { s.wifi with staAutoRetry := true }
        caller :=
          .applying (staConfig s.wifi.retrySsid s.wifi.retryPw) .setConfig (.resume rc) }
  | _, _ => s

/-- The first stores of `OnEvent`. -/
def arrive (s : System) (e : DriverEvent) : System :=
  let s := if s.caller.verifying then
      { s with verify := { s.verify with seen := s.verify.seen ++ [e] } }
    else s
  match e.kind with
  | .staDisconnected reason =>
      { s with
        wifi := { s.wifi with
          lastReason := reason
          terminalStrikes :=
            if isTerminal reason then s.wifi.terminalStrikes + 1 else s.wifi.terminalStrikes }
        handler := .disconnected }
  | .staGotIp addr => { s with wifi := { s.wifi with ip := addr }, handler := .gotIp e }

/-- The next step of `OnEvent`. -/
def stepHandler (s : System) (began : Bool) : System :=
  match s.handler with
  | .idle => s
  | .disconnected =>
      { s with wifi := { s.wifi with state := .disconnected, ip := 0 }, handler := .deciding }
  | .deciding => { s with handler := if s.wifi.staAutoRetry then .waiting else .idle }
  | .waiting =>
      { s with wifi := { s.wifi with state := .connecting }, handler := .reconnecting }
  | .reconnecting => { s.wifiConnect began with handler := .idle }
  | .gotIp _ =>
      { s with
        wifi := { s.wifi with state := .connected, terminalStrikes := 0 }
        handler := .idle }

def step (s : System) : Act → System
  | .connect ssid password start =>
      if s.caller.free then s.connect ssid password start else s
  | .tryConnect ssid password start =>
      if s.caller.free then s.tryConnect ssid password start else s
  | .startSoftAp rc =>
      if s.caller.free ∧ rc = espOk then { s with wifi := { s.wifi with started := true } } else s
  | .call a => s.stepCaller a
  | .raise attempt kind =>
      match s.attempts[attempt]? with
      | some cfg => { s with inFlight := s.inFlight ++ [⟨cfg, kind⟩] }
      | none => s
  | .dispatch =>
      match s.handler, s.inFlight with
      | .idle, e :: rest => { s with inFlight := rest }.arrive e
      | _, _ => s
  | .handle began => s.stepHandler began

end System

end Wifi

end BtClock
