import BtClock.Arith.Printf
import BtClock.Arith.Strtod
import BtClock.Data.Snapshot
import BtClock.Transition.History

/-!
# The watchdog of the block height

The websocket may stay up while the relay has stopped to forward new blocks.  A timer looks at
the time since the height changed last.  When it is long a probe task asks the relay for the
height over HTTP, and a different answer restarts the data sources.  The timer, the probe, the
task of the websocket and the caller of `Start` and `Stop` share the height, the time of its
change and a flag, without a lock.
-/

open Transition

namespace BtClock

namespace Data

/-! ### Frames of the relay -/

/-- The value of a price, under the tests `is<const char*>`, `is<double>` and `is<long long>`. -/
structure PriceValue where
  text : Option String := none
  number : Option Float := none
  whole : Option Int64 := none

/-- The members of a decoded frame which have the type that is asked for. -/
structure HubFrame where
  blockheight : Option UInt32 := none
  blockfee : Option Int32 := none
  blockfee2 : Option Float := none
  price : List (String × PriceValue) := []

/-- What `snprintf` leaves in a buffer of 32 bytes. -/
def printed (text : String) : String :=
  String.ofList (text.toList.take 31)

def PriceValue.val (v : PriceValue) : String :=
  match v.text, v.number, v.whole with
  | some text, _, _ => text
  | none, some number, _ => printed (Double.formatFixed 2 number)
  | none, none, some whole => printed (toString whole.toInt)
  | none, none, none => ""

def addPrice (prices : AList fun _ : String => String) (kv : String × PriceValue) :
    AList fun _ : String => String :=
  if kv.2.val = "" then prices else prices.insert kv.1 kv.2.val

/-- What `HandleBinaryFrame` reports; the fee stream which is not subscribed to is ignored. -/
def HubFrame.partialSnapshot (f : HubFrame) (blockFeeDec : Bool) : DataSnapshot where
  blockHeight := f.blockheight
  blockFee := if blockFeeDec then none else f.blockfee
  blockFeePrecise := if blockFeeDec then f.blockfee2 else none
  prices := f.price.foldl addPrice ∅

/-! ### The height over HTTP -/

def lastblockUri (httpScheme : String) (rest : List Char) : String :=
  let authority := rest.takeWhile (· ≠ '/')
  if authority = [] then ""
  else httpScheme ++ String.ofList authority ++ "/api/lastblock"

/-- The address next to the websocket's; empty for other schemes. -/
def buildLastblockUri (wsUri : String) : String :=
  match wsUri.toList with
  | 'w' :: 's' :: 's' :: ':' :: '/' :: '/' :: rest => lastblockUri "https://" rest
  | 'w' :: 's' :: ':' :: '/' :: '/' :: rest => lastblockUri "http://" rest
  | _ => ""

def kLastblockMaxBytes : ℕ := 32

structure LastblockFetchCtx where
  buf : List Char := []
  truncated : Bool := false
  deriving DecidableEq

def lastblockHttpEvent (ctx : LastblockFetchCtx) (data : List Char) : LastblockFetchCtx :=
  if data = [] then ctx
  else if ctx.buf.length + data.length > kLastblockMaxBytes then { ctx with truncated := true }
  else { ctx with buf := ctx.buf ++ data }

/-- `strtol` in base ten, with a `long` of 32 bits; nothing when it reads no digit. -/
def strtol (text : List Char) : Option ℤ :=
  let (negative, rest) := Double.takeSign (text.dropWhile Double.isSpace)
  let digits := rest.takeWhile Double.isDecimal
  if digits = [] then none
  else
    let value : ℤ := Double.digitsValue 10 digits
    some (max (-2147483648) (min 2147483647 (if negative then -value else value)))

/-- What `esp_http_client_perform` comes to: an error, or a status and the pieces of the body. -/
inductive Transfer
  | failed
  | answered (status : ℤ) (body : List (List Char))

def fetchUpstreamHeight (uri : String) (transfer : Transfer) : Option UInt32 :=
  if buildLastblockUri uri = "" then none
  else
    match transfer with
    | .failed => none
    | .answered status body =>
        let ctx := body.foldl lastblockHttpEvent {}
        if status < 200 ∨ 300 ≤ status then none
        else if ctx.truncated = true ∨ ctx.buf = [] then none
        else
          match strtol ctx.buf with
          | none => none
          | some parsed => if parsed ≤ 0 then none else some (UInt32.ofNat parsed.toNat)

theorem foldl_lastblockHttpEvent_truncated (ctx : LastblockFetchCtx) (body : List (List Char))
    (h : ctx.truncated = true) : (body.foldl lastblockHttpEvent ctx).truncated = true := by
  induction body generalizing ctx with
  | nil => exact h
  | cons data body ih =>
      refine ih _ ?_
      unfold lastblockHttpEvent
      split
      · exact h
      · split
        · rfl
        · exact h

/-- The pieces in which the body arrives do not matter. -/
theorem foldl_lastblockHttpEvent (ctx : LastblockFetchCtx) (body : List (List Char))
    (h : ctx.truncated = false) (hroom : ctx.buf.length ≤ kLastblockMaxBytes) :
    if ctx.buf.length + body.flatten.length ≤ kLastblockMaxBytes then
      body.foldl lastblockHttpEvent ctx = ⟨ctx.buf ++ body.flatten, false⟩
    else (body.foldl lastblockHttpEvent ctx).truncated = true := by
  induction body generalizing ctx with
  | nil =>
      obtain ⟨buf, truncated⟩ := ctx
      subst h
      simpa using hroom
  | cons data body ih =>
      rw [List.foldl_cons, List.flatten_cons, List.length_append]
      by_cases hdata : data = []
      · subst hdata
        have hstep : lastblockHttpEvent ctx [] = ctx := if_pos rfl
        rw [hstep]
        simpa using ih ctx h hroom
      · by_cases hfits : ctx.buf.length + data.length ≤ kLastblockMaxBytes
        · have hstep : lastblockHttpEvent ctx data = { ctx with buf := ctx.buf ++ data } := by
            rw [lastblockHttpEvent, if_neg hdata, if_neg (by omega)]
          rw [hstep]
          have hrest := ih { ctx with buf := ctx.buf ++ data } h (by simpa using hfits)
          simpa [Nat.add_assoc] using hrest
        · have hstep : lastblockHttpEvent ctx data = { ctx with truncated := true } := by
            rw [lastblockHttpEvent, if_neg hdata, if_pos (by omega)]
          rw [hstep, if_neg (by omega)]
          exact foldl_lastblockHttpEvent_truncated _ _ rfl

/-- A height is taken only from a short answer with a success status, and is not zero. -/
theorem fetchUpstreamHeight_eq_some {uri : String} {transfer : Transfer} {upstream : UInt32}
    (h : fetchUpstreamHeight uri transfer = some upstream) :
    buildLastblockUri uri ≠ "" ∧ ∃ status body parsed, transfer = .answered status body ∧
      200 ≤ status ∧ status < 300 ∧ body.flatten.length ≤ kLastblockMaxBytes ∧
        strtol body.flatten = some parsed ∧ 0 < parsed ∧ upstream = UInt32.ofNat parsed.toNat := by
  unfold fetchUpstreamHeight at h
  split at h
  · cases h
  rename_i huri
  refine ⟨huri, ?_⟩
  split at h
  · cases h
  rename_i status body
  dsimp only at h
  split at h
  · cases h
  rename_i hstatus
  split at h
  · cases h
  rename_i hctx
  have hbody := foldl_lastblockHttpEvent {} body rfl (Nat.zero_le _)
  split at hbody
  · rename_i hlength
    rw [hbody] at h
    split at h
    · cases h
    rename_i parsed hparsed
    split at h
    · cases h
    rename_i hpos
    exact ⟨status, body, parsed, rfl, by omega, by omega, by simpa using hlength,
      by simpa using hparsed, by omega, (Option.some.inj h).symm⟩
  · exact absurd (Or.inl hbody) hctx

/-! ### The tasks -/

/-- The timing of a build. -/
structure WatchdogTimes where
  kStaleThresholdMs : UInt32
  portTickPeriodMs : UInt32

def production : WatchdogTimes := ⟨60 * 60 * 1000, 1⟩

/-- `CONFIG_BTCLOCK_WATCHDOG_FAST_FOR_TEST` -/
def fastForTest : WatchdogTimes := ⟨60 * 1000, 1⟩

/-- Where the timer task stands in `OnWatchdogTick`. -/
inductive WatchdogTick
  | idle
  /-- The clock is read, the time of the change is not. -/
  | read (now : ℕ)
  /-- The age exceeds the threshold, the flag is not asked yet. -/
  | stale
  /-- The flag is taken, the task is not created yet. -/
  | creating
  deriving DecidableEq

/-- Where a task stands in `ProbeTaskTrampoline`. -/
inductive Probe
  | started
  | fetching
  | fetched (upstream : UInt32)
  | read (upstream : UInt32) (now : ℕ)
  /-- The heights agree, the clock is not reset yet. -/
  | same (now : ℕ)
  /-- The heights differ, nothing is requested yet. -/
  | differs
  | recovered
  | resetting (now : ℕ)
  | leaving
  deriving DecidableEq

/-- Where the task of the websocket stands in `HandleBinaryFrame`. -/
inductive FrameHandler
  | idle
  | changed (partialSnapshot : DataSnapshot)
  | stamping (now : ℕ) (partialSnapshot : DataSnapshot)
  | reporting (partialSnapshot : DataSnapshot)

/-- Where the main task stands in `Start`. -/
inductive StartCall
  | idle
  | started
  | stamping (now : ℕ)
  deriving DecidableEq

/-- The first of the two readings of a tick. -/
def WatchdogTick.reading : WatchdogTick → Option ℕ
  | .read now => some now
  | _ => none

/-- The reading of the clock which is to be stored. -/
def FrameHandler.reading : FrameHandler → Option ℕ
  | .stamping now _ => some now
  | _ => none

def StartCall.reading : StartCall → Option ℕ
  | .stamping now => some now
  | _ => none

def Probe.reading : Probe → Option ℕ
  | .read _ now | .same now | .resetting now => some now
  | _ => none

def Probe.MayRecover : Probe → Prop
  | .started | .fetching | .fetched _ | .read .. | .differs => True
  | .same _ | .recovered | .resetting _ | .leaving => False

/-- Its recovery is requested and the clock is not reset yet. -/
def Probe.Unsettled : Probe → Prop
  | .recovered | .resetting _ => True
  | _ => False

/-- The data source as the watchdog sees it.  Readings of the tick count are kept as they are,
and become a `TickType_t` where the source computes with them. -/
structure TipWatchdog where
  uri : String
  ticks : ℕ := 0
  client : Bool := false
  hub : Bool := false
  blockFeeDec : Bool := true
  restartRequester : Bool := false
  lastHeight : UInt32 := 0
  lastChangeTick : ℕ := 0
  probeInFlight : Bool := false
  tick : WatchdogTick := .idle
  probes : List Probe := []
  handler : FrameHandler := .idle
  caller : StartCall := .idle

inductive WatchdogEvent
  /-- `last_height_` is exchanged. -/
  | height (h : UInt32)
  /-- `last_change_tick_` is stored. -/
  | stamped (now : ℕ)
  | reported (partialSnapshot : DataSnapshot)
  /-- A tick finds the age above the threshold. -/
  | stale (now since : ℕ)
  /-- A probe task is created. -/
  | spawned
  /-- A transfer gives a height. -/
  | fetched (transfer : Transfer)
  /-- The two heights are compared. -/
  | compared (cached upstream : UInt32)
  /-- The hub is asked for a restart, or the websocket is closed. -/
  | recovered (viaHub : Bool) (now : ℕ)

def WatchdogEvent.isStamped : WatchdogEvent → Bool
  | .stamped _ => true
  | _ => false

/-- What the main task calls. -/
inductive SourceChange
  /-- `Start` with a client or without one, which runs or does not. -/
  | start (client running : Bool)
  | stop
  | setBlockFeeDec (blockFeeDec : Bool)
  | setRestartRequester

/-- One task does its next step, or the clock goes on.  The timer may fire at any time. -/
inductive WatchdogMove
  | elapse (n : ℕ)
  | timer (created : Bool)
  | probe (i : ℕ) (transfer : Transfer)
  | frame (f : HubFrame)
  | main (change : SourceChange)

def WatchdogMove.isProbe : WatchdogMove → Bool
  | .probe .. => true
  | _ => false

namespace TipWatchdog

/-- `(now - since_tick) * portTICK_PERIOD_MS` -/
def sinceMs (times : WatchdogTimes) (now since : ℕ) : UInt32 :=
  (UInt32.ofNat now - UInt32.ofNat since) * times.portTickPeriodMs

/-- The time of a change, which is zero before the first one, lies the threshold back. -/
def Stale (times : WatchdogTimes) (now since : ℕ) : Prop :=
  UInt32.ofNat since ≠ 0 ∧ ¬ sinceMs times now since < times.kStaleThresholdMs

instance (times : WatchdogTimes) (now since : ℕ) : Decidable (Stale times now since) :=
  inferInstanceAs (Decidable (_ ∧ _))

def onWatchdogTick (times : WatchdogTimes) (s : TipWatchdog) (created : Bool) :
    TipWatchdog × List WatchdogEvent :=
  match s.tick with
  | .idle => (if s.client then { s with tick := .read s.ticks } else s, [])
  | .read now =>
      if Stale times now s.lastChangeTick then
        ({ s with tick := .stale }, [.stale now s.lastChangeTick])
      else ({ s with tick := .idle }, [])
  | .stale =>
      -- the exchange fails while a probe is in flight
      if s.probeInFlight then ({ s with tick := .idle }, [])
      else ({ s with tick := .creating, probeInFlight := true }, [])
  | .creating =>
      if created then ({ s with tick := .idle, probes := s.probes ++ [.started] }, [.spawned])
      else ({ s with tick := .idle, probeInFlight := false }, [])

/-- The next step of a probe; nothing is left of it when it clears the flag. -/
def runStalenessProbe (s : TipWatchdog) (transfer : Transfer) :
    Probe → TipWatchdog × Option Probe × List WatchdogEvent
  | .started => (s, some (if s.client then .fetching else .leaving), [])
  | .fetching =>
      match fetchUpstreamHeight s.uri transfer with
      | none => (s, some .leaving, [])
      | some upstream => (s, some (.fetched upstream), [.fetched transfer])
  | .fetched upstream => (s, some (.read upstream s.ticks), [])
  | .read upstream now =>
      (s, some (if s.lastHeight = upstream then .same now else .differs),
        [.compared s.lastHeight upstream])
  | .same now => ({ s with lastChangeTick := now }, some .leaving, [.stamped now])
  | .differs =>
      -- without a requester the websocket is closed, when there is one
      (s, some .recovered,
        if s.restartRequester || s.client then [.recovered s.restartRequester s.ticks] else [])
  | .recovered => (s, some (.resetting s.ticks), [])
  | .resetting now => ({ s with lastChangeTick := now }, some .leaving, [.stamped now])
  | .leaving => ({ s with probeInFlight := false }, none, [])

def stepProbe (s : TipWatchdog) (i : ℕ) (transfer : Transfer) :
    TipWatchdog × List WatchdogEvent :=
  match s.probes[i]? with
  | none => (s, [])
  | some p =>
      match s.runStalenessProbe transfer p with
      | (s', some p', events) => ({ s' with probes := s.probes.set i p' }, events)
      | (s', none, events) => ({ s' with probes := s.probes.eraseIdx i }, events)

def handleBinaryFrame (s : TipWatchdog) (f : HubFrame) : TipWatchdog × List WatchdogEvent :=
  match s.handler with
  | .idle =>
      let partialSnapshot := f.partialSnapshot s.blockFeeDec
      match f.blockheight with
      | none => ({ s with handler := .reporting partialSnapshot }, [])
      | some h =>
          -- only a change resets the clock, a height which is sent again does not
          ({ s with
              lastHeight := h
              handler :=
                if s.lastHeight = h then .reporting partialSnapshot
                else .changed partialSnapshot },
            [.height h])
  | .changed partialSnapshot => ({ s with handler := .stamping s.ticks partialSnapshot }, [])
  | .stamping now partialSnapshot =>
      ({ s with lastChangeTick := now, handler := .reporting partialSnapshot }, [.stamped now])
  | .reporting partialSnapshot =>
      ({ s with handler := .idle }, if s.hub then [.reported partialSnapshot] else [])

def stepMain (s : TipWatchdog) (change : SourceChange) : TipWatchdog × List WatchdogEvent :=
  match s.caller with
  | .idle =>
      match change with
      | .start client running =>
          ({ s with
              hub := true
              client
              caller := if client && running then .started else .idle }, [])
      -- how long the call waits for a probe does not matter here
      | .stop => ({ s with hub := false, client := false }, [])
      | .setBlockFeeDec blockFeeDec => ({ s with blockFeeDec }, [])
      | .setRestartRequester => ({ s with restartRequester := true }, [])
  | .started => ({ s with caller := .stamping s.ticks }, [])
  | .stamping now => ({ s with lastChangeTick := now, caller := .idle }, [.stamped now])

def step (times : WatchdogTimes) (s : TipWatchdog) :
    WatchdogMove → TipWatchdog × List WatchdogEvent
  | .elapse n => ({ s with ticks := s.ticks + n }, [])
  | .timer created => s.onWatchdogTick times created
  | .probe i transfer => s.stepProbe i transfer
  | .frame f => s.handleBinaryFrame f
  | .main change => s.stepMain change

/-! ### What a recovery follows -/

def heightAfter (last : UInt32) : WatchdogEvent → UInt32
  | .height h => h
  | _ => last

def stampAfter (last : ℕ) : WatchdogEvent → ℕ
  | .stamped now => now
  | _ => last

/-- The height which a frame carried last. -/
def lastHeightOf (log : List WatchdogEvent) : UInt32 :=
  log.foldl heightAfter 0

/-- The time which was stored last. -/
def lastStampOf (log : List WatchdogEvent) : ℕ :=
  log.foldl stampAfter 0

@[simp]
theorem lastHeightOf_append_singleton (log : List WatchdogEvent) (e : WatchdogEvent) :
    lastHeightOf (log ++ [e]) = heightAfter (lastHeightOf log) e := by
  simp [lastHeightOf]

@[simp]
theorem lastStampOf_append_singleton (log : List WatchdogEvent) (e : WatchdogEvent) :
    lastStampOf (log ++ [e]) = stampAfter (lastStampOf log) e := by
  simp [lastStampOf]

/-- No tick finds an age above the threshold, and no probe is created. -/
def UntilSpawned (e : WatchdogEvent) : Prop :=
  (∀ now since, e ≠ .stale now since) ∧ e ≠ .spawned

/-- No probe is created and nothing is recovered. -/
def WhileProbing (e : WatchdogEvent) : Prop :=
  e ≠ .spawned ∧ ∀ viaHub now, e ≠ .recovered viaHub now

/-- A tick has found the time which was stored last the threshold back. -/
def FoundStale (times : WatchdogTimes) (log : List WatchdogEvent) : Prop :=
  ∃ now since, Stale times now since ∧
    Behind UntilSpawned (fun past => lastStampOf past = since) (.stale now since) log

/-- A probe was created for such a tick. -/
def Probing (times : WatchdogTimes) (log : List WatchdogEvent) : Prop :=
  Behind WhileProbing (FoundStale times) .spawned log

/-- It was told the height `upstream`. -/
def ToldHeight (times : WatchdogTimes) (uri : String) (upstream : UInt32)
    (log : List WatchdogEvent) : Prop :=
  ∃ transfer, fetchUpstreamHeight uri transfer = some upstream ∧
    Behind WhileProbing (Probing times) (.fetched transfer) log

/-- And the height of the last frame was another one. -/
def FoundDifferent (times : WatchdogTimes) (uri : String) (log : List WatchdogEvent) : Prop :=
  ∃ cached upstream, cached ≠ upstream ∧
    Behind WhileProbing
      (fun past => lastHeightOf past = cached ∧ ToldHeight times uri upstream past)
      (.compared cached upstream) log

/-- What the log says of a probe. -/
def ProbeTraced (times : WatchdogTimes) (uri : String) (log : List WatchdogEvent) : Probe → Prop
  | .started | .fetching => Probing times log
  | .fetched upstream | .read upstream _ => ToldHeight times uri upstream log
  | .differs => FoundDifferent times uri log
  | .same _ | .recovered | .resetting _ | .leaving => True

/-- A recovery comes after a probe which found different heights. -/
def Justified (times : WatchdogTimes) (uri : String) (past : List WatchdogEvent)
    (e : WatchdogEvent) : Prop :=
  ∀ viaHub now, e = .recovered viaHub now → FoundDifferent times uri past

variable {times : WatchdogTimes} {uri : String} {s s' : TipWatchdog} {log es : List WatchdogEvent}

theorem FoundStale.append (h : FoundStale times log) (hes : ∀ e ∈ es, UntilSpawned e) :
    FoundStale times (log ++ es) := by
  obtain ⟨now, since, hstale, hbehind⟩ := h
  exact ⟨now, since, hstale, hbehind.append hes⟩

theorem Probing.append (h : Probing times log) (hes : ∀ e ∈ es, WhileProbing e) :
    Probing times (log ++ es) :=
  Behind.append h hes

theorem ToldHeight.append {upstream : UInt32} (h : ToldHeight times uri upstream log)
    (hes : ∀ e ∈ es, WhileProbing e) : ToldHeight times uri upstream (log ++ es) := by
  obtain ⟨transfer, hfetch, hbehind⟩ := h
  exact ⟨transfer, hfetch, hbehind.append hes⟩

theorem FoundDifferent.append (h : FoundDifferent times uri log)
    (hes : ∀ e ∈ es, WhileProbing e) : FoundDifferent times uri (log ++ es) := by
  obtain ⟨cached, upstream, hne, hbehind⟩ := h
  exact ⟨cached, upstream, hne, hbehind.append hes⟩

theorem ProbeTraced.append {p : Probe} (h : ProbeTraced times uri log p)
    (hes : ∀ e ∈ es, WhileProbing e) : ProbeTraced times uri (log ++ es) p := by
  cases p with
  | started | fetching => exact Probing.append h hes
  | fetched upstream => exact ToldHeight.append h hes
  | read upstream now => exact ToldHeight.append h hes
  | differs => exact FoundDifferent.append h hes
  | same | recovered | resetting | leaving => trivial

/-- The log tells how the tasks came to where they stand, and at most one of them holds the
flag. -/
structure Traced (times : WatchdogTimes) (uri : String) (s : TipWatchdog)
    (log : List WatchdogEvent) : Prop where
  uri_eq : s.uri = uri
  flag : s.probes.length + (if s.tick = .creating then 1 else 0) = s.probeInFlight.toNat
  height : lastHeightOf log = s.lastHeight
  stamp : lastStampOf log = s.lastChangeTick
  tick : s.tick = .stale ∨ s.tick = .creating → FoundStale times log
  probes : ∀ p ∈ s.probes, ProbeTraced times uri log p
  justified : Throughout (Justified times uri) log

/-- An event which is not part of the way to a recovery. -/
def Aside (e : WatchdogEvent) : Prop :=
  UntilSpawned e ∧ WhileProbing e

theorem justified_of_whileProbing {e : WatchdogEvent} (h : WhileProbing e)
    (past : List WatchdogEvent) : Justified times uri past e :=
  fun viaHub now heq => absurd heq (h.2 viaHub now)

theorem traced_initial (times : WatchdogTimes) (uri : String) : Traced times uri { uri } [] :=
  ⟨rfl, rfl, rfl, rfl, by simp, by simp, by simp⟩

/-- A step which leaves the timer, the probes and the flag alone. -/
theorem Traced.aside (h : Traced times uri s log) (huri : s'.uri = s.uri)
    (hprobes : s'.probes = s.probes) (hflag : s'.probeInFlight = s.probeInFlight)
    (htick : s'.tick = s.tick) (hes : ∀ e ∈ es, Aside e)
    (hheight : lastHeightOf (log ++ es) = s'.lastHeight)
    (hstamp : lastStampOf (log ++ es) = s'.lastChangeTick) : Traced times uri s' (log ++ es) where
  uri_eq := huri.trans h.uri_eq
  flag := by rw [hprobes, hflag, htick]; exact h.flag
  height := hheight
  stamp := hstamp
  tick hs := (h.tick (htick ▸ hs)).append fun e he => (hes e he).1
  probes p hp := (h.probes p (hprobes ▸ hp)).append fun e he => (hes e he).2
  justified := h.justified.append fun e he past => justified_of_whileProbing (hes e he).2 past

theorem Traced.probes_eq_nil (h : Traced times uri s log)
    (hs : s.probeInFlight = false ∨ s.tick = .creating) : s.probes = [] := by
  have hflag := h.flag
  have hle := Bool.toNat_le s.probeInFlight
  apply List.eq_nil_of_length_eq_zero
  rcases hs with hs | hs
  · rw [hs, Bool.toNat_false] at hflag
    omega
  · rw [if_pos hs] at hflag
    omega

theorem Traced.onWatchdogTick (h : Traced times uri s log) (created : Bool) :
    Traced times uri (s.onWatchdogTick times created).1
      (log ++ (s.onWatchdogTick times created).2) := by
  obtain ⟨huri, hflag, hheight, hstamp, hfound, hprobes, hjust⟩ := h
  unfold TipWatchdog.onWatchdogTick
  cases htick : s.tick with
  | idle =>
      rw [htick] at hflag
      dsimp only
      rw [List.append_nil]
      split
      · exact ⟨huri, hflag, hheight, hstamp, by simp, hprobes, hjust⟩
      · exact ⟨huri, by rw [htick]; exact hflag, hheight, hstamp, by simp [htick], hprobes, hjust⟩
  | read now =>
      rw [htick] at hflag
      dsimp only
      split
      · rename_i hstale
        refine ⟨huri, hflag, by simpa [heightAfter] using hheight,
          by simpa [stampAfter] using hstamp, fun _ => ?_, fun p hp => ?_, ?_⟩
        · exact ⟨now, _, hstale, behind_append_self _ hstamp⟩
        · exact (hprobes p hp).append (by simp [WhileProbing])
        · exact hjust.append fun e he => justified_of_whileProbing (by
            rw [List.mem_singleton.mp he]
            simp [WhileProbing])
      · rw [List.append_nil]
        exact ⟨huri, hflag, hheight, hstamp, by simp, hprobes, hjust⟩
  | stale =>
      rw [htick] at hflag
      dsimp only
      split
      · rw [List.append_nil]
        exact ⟨huri, hflag, hheight, hstamp, by simp, hprobes, hjust⟩
      · rename_i hfree
        rw [Bool.not_eq_true] at hfree
        rw [hfree] at hflag
        rw [List.append_nil]
        exact ⟨huri, by simpa using hflag, hheight, hstamp, fun _ => hfound (.inl htick),
          hprobes, hjust⟩
  | creating =>
      have hnil : s.probes = [] :=
        Traced.probes_eq_nil ⟨huri, hflag, hheight, hstamp, hfound, hprobes, hjust⟩ (.inr htick)
      have htaken : s.probeInFlight = true := by
        rw [htick, hnil] at hflag
        simpa using hflag.symm
      dsimp only
      rw [hnil]
      split
      · refine ⟨huri, by simp [htaken], by simpa [heightAfter] using hheight,
          by simpa [stampAfter] using hstamp, by simp, ?_, ?_⟩
        · rintro p hp
          obtain rfl : p = .started := by simpa using hp
          exact behind_append_self _ (hfound (.inr htick))
        · refine throughout_append_singleton.mpr ⟨hjust, fun viaHub now heq => ?_⟩
          cases heq
      · rw [List.append_nil]
        exact ⟨huri, by simp, hheight, hstamp, by simp, by simp, hjust⟩

theorem Traced.handleBinaryFrame (h : Traced times uri s log) (f : HubFrame) :
    Traced times uri (s.handleBinaryFrame f).1 (log ++ (s.handleBinaryFrame f).2) := by
  unfold TipWatchdog.handleBinaryFrame
  cases s.handler with
  | idle =>
      dsimp only
      split
      · exact h.aside rfl rfl rfl rfl (by simp) (by simpa using h.height) (by simpa using h.stamp)
      · exact h.aside rfl rfl rfl rfl (by simp [Aside, UntilSpawned, WhileProbing])
          (by simp [heightAfter]) (by simpa [stampAfter] using h.stamp)
  | changed partialSnapshot =>
      exact h.aside rfl rfl rfl rfl (by simp) (by simpa using h.height) (by simpa using h.stamp)
  | stamping now partialSnapshot =>
      exact h.aside rfl rfl rfl rfl (by simp [Aside, UntilSpawned, WhileProbing])
        (by simpa [heightAfter] using h.height) (by simp [stampAfter])
  | reporting partialSnapshot =>
      dsimp only
      split
      · exact h.aside rfl rfl rfl rfl (by simp [Aside, UntilSpawned, WhileProbing])
          (by simpa [heightAfter] using h.height) (by simpa [stampAfter] using h.stamp)
      · exact h.aside rfl rfl rfl rfl (by simp) (by simpa using h.height)
          (by simpa using h.stamp)

theorem Traced.stepMain (h : Traced times uri s log) (change : SourceChange) :
    Traced times uri (s.stepMain change).1 (log ++ (s.stepMain change).2) := by
  have hheight : lastHeightOf (log ++ []) = s.lastHeight := by simpa using h.height
  have hstamp : lastStampOf (log ++ []) = s.lastChangeTick := by simpa using h.stamp
  unfold TipWatchdog.stepMain
  cases s.caller with
  | idle =>
      cases change with
      | start | stop | setBlockFeeDec | setRestartRequester =>
          exact h.aside rfl rfl rfl rfl (by simp) hheight hstamp
  | started => exact h.aside rfl rfl rfl rfl (by simp) hheight hstamp
  | stamping now =>
      exact h.aside rfl rfl rfl rfl (by simp [Aside, UntilSpawned, WhileProbing])
        (by simpa [heightAfter] using h.height) (by simp [stampAfter])

/-- A step of the only probe. -/
theorem Traced.probing (h : Traced times uri s log) {p p' : Probe} (hp : s.probes = [p])
    (huri : s'.uri = s.uri) (hprobes : s'.probes = [p'])
    (hflag : s'.probeInFlight = s.probeInFlight) (htick : s'.tick = s.tick)
    (hes : ∀ e ∈ es, UntilSpawned e) (hheight : lastHeightOf (log ++ es) = s'.lastHeight)
    (hstamp : lastStampOf (log ++ es) = s'.lastChangeTick)
    (htraced : ProbeTraced times uri (log ++ es) p')
    (hjust : Throughout (Justified times uri) (log ++ es)) : Traced times uri s' (log ++ es) where
  uri_eq := huri.trans h.uri_eq
  flag := by rw [hprobes, hflag, htick, ← h.flag, hp]; rfl
  height := hheight
  stamp := hstamp
  tick hs := (h.tick (htick ▸ hs)).append hes
  probes q hq := by
    rw [hprobes] at hq
    rw [List.mem_singleton.mp hq]
    exact htraced
  justified := hjust

theorem Traced.probes_eq_singleton (h : Traced times uri s log) {i : ℕ} {p : Probe}
    (hp : s.probes[i]? = some p) : i = 0 ∧ s.probes = [p] ∧ s.tick ≠ .creating := by
  have hflag := h.flag
  have hle := Bool.toNat_le s.probeInFlight
  cases hprobes : s.probes with
  | nil => simp [hprobes] at hp
  | cons q rest =>
      rw [hprobes, List.length_cons] at hflag
      obtain rfl : rest = [] := List.eq_nil_of_length_eq_zero (by omega)
      rw [hprobes] at hp
      cases i with
      | zero =>
          obtain rfl : q = p := Option.some.inj hp
          refine ⟨rfl, rfl, fun hcreating => ?_⟩
          rw [if_pos hcreating] at hflag
          omega
      | succ i => cases hp

theorem Traced.stepProbe (h : Traced times uri s log) (i : ℕ) (transfer : Transfer) :
    Traced times uri (s.stepProbe i transfer).1 (log ++ (s.stepProbe i transfer).2) := by
  unfold TipWatchdog.stepProbe
  cases hi : s.probes[i]? with
  | none =>
      dsimp only
      rw [List.append_nil]
      exact h
  | some p =>
      obtain ⟨rfl, hone, hcreating⟩ := h.probes_eq_singleton hi
      have htraced : ProbeTraced times uri log p := h.probes p (by rw [hone]; simp)
      have hheight : lastHeightOf (log ++ []) = s.lastHeight := by simpa using h.height
      have hstamp : lastStampOf (log ++ []) = s.lastChangeTick := by simpa using h.stamp
      have hjust : Throughout (Justified times uri) (log ++ []) := by simpa using h.justified
      have hset (p' : Probe) : s.probes.set 0 p' = [p'] := by rw [hone]; rfl
      have hquiet {e : WatchdogEvent} (he : WhileProbing e) :
          Throughout (Justified times uri) (log ++ [e]) :=
        throughout_append_singleton.mpr ⟨h.justified, justified_of_whileProbing he log⟩
      cases p with
      | started =>
          dsimp only [runStalenessProbe]
          refine h.probing hone rfl (hset _) rfl rfl (by simp) hheight hstamp ?_ hjust
          split
          · simpa [ProbeTraced] using htraced
          · trivial
      | fetching =>
          cases hfetch : fetchUpstreamHeight s.uri transfer with
          | none =>
              simp only [runStalenessProbe, hfetch]
              exact h.probing hone rfl (hset _) rfl rfl (by simp) hheight hstamp trivial hjust
          | some upstream =>
              simp only [runStalenessProbe, hfetch]
              refine h.probing hone rfl (hset _) rfl rfl (by simp [UntilSpawned])
                (by simpa [heightAfter] using h.height) (by simpa [stampAfter] using h.stamp) ?_
                (hquiet (by simp [WhileProbing]))
              exact ⟨transfer, h.uri_eq ▸ hfetch, behind_append_self _ htraced⟩
      | fetched upstream =>
          dsimp only [runStalenessProbe]
          exact h.probing hone rfl (hset _) rfl rfl (by simp) hheight hstamp
            (by simpa [ProbeTraced] using htraced) hjust
      | read upstream now =>
          dsimp only [runStalenessProbe]
          refine h.probing hone rfl (hset _) rfl rfl (by simp [UntilSpawned])
            (by simpa [heightAfter] using h.height) (by simpa [stampAfter] using h.stamp) ?_
            (hquiet (by simp [WhileProbing]))
          split
          · trivial
          · rename_i hne
            exact ⟨_, _, hne, behind_append_self _ ⟨h.height, htraced⟩⟩
      | same now | resetting now =>
          dsimp only [runStalenessProbe]
          exact h.probing hone rfl (hset _) rfl rfl (by simp [UntilSpawned])
            (by simpa [heightAfter] using h.height) (by simp [stampAfter]) trivial
            (hquiet (by simp [WhileProbing]))
      | differs =>
          dsimp only [runStalenessProbe]
          split
          · refine h.probing hone rfl (hset _) rfl rfl (by simp [UntilSpawned])
              (by simpa [heightAfter] using h.height) (by simpa [stampAfter] using h.stamp) trivial
              (throughout_append_singleton.mpr ⟨h.justified, fun _ _ _ => htraced⟩)
          · exact h.probing hone rfl (hset _) rfl rfl (by simp) hheight hstamp trivial hjust
      | recovered =>
          dsimp only [runStalenessProbe]
          exact h.probing hone rfl (hset _) rfl rfl (by simp) hheight hstamp trivial hjust
      | leaving =>
          dsimp only [runStalenessProbe]
          have hnil : s.probes.eraseIdx 0 = [] := by rw [hone]; rfl
          refine ⟨h.uri_eq, ?_, hheight, hstamp, ?_, ?_, hjust⟩
          · show (s.probes.eraseIdx 0).length + (if s.tick = .creating then 1 else 0) = 0
            rw [hnil, if_neg hcreating]
            rfl
          · intro hs
            simpa using h.tick hs
          · intro q hq
            have hq : q ∈ s.probes.eraseIdx 0 := hq
            rw [hnil] at hq
            exact absurd hq List.not_mem_nil

theorem Traced.step (h : Traced times uri s log) (m : WatchdogMove) :
    Traced times uri (s.step times m).1 (log ++ (s.step times m).2) := by
  cases m with
  | elapse n =>
      dsimp only [TipWatchdog.step]
      exact h.aside rfl rfl rfl rfl (by simp) (by simpa using h.height) (by simpa using h.stamp)
  | timer created => exact h.onWatchdogTick created
  | probe i transfer => exact h.stepProbe i transfer
  | frame f => exact h.handleBinaryFrame f
  | main change => exact h.stepMain change

theorem traced_of_run (times : WatchdogTimes) (uri : String) (moves : List WatchdogMove) :
    Traced times uri (reached (step times) { uri } moves) (emitted (step times) { uri } moves) := by
  have h : Traced times uri (reached (TipWatchdog.step times) { uri } moves)
      ([] ++ emitted (TipWatchdog.step times) { uri } moves) :=
    emitted_invariant (fun _ _ m h => h.step m) (traced_initial times uri) moves
  rwa [List.nil_append] at h

/-- However the tasks interleave, no more than one probe runs, and each recovery follows a tick
which found the time of the last change the threshold back, the one probe which was created for
that tick, a height the relay told this probe, and a comparison which found that the last frame
carried another one. -/
theorem recovered_of_run (times : WatchdogTimes) (uri : String) (moves : List WatchdogMove) :
    (reached (step times) { uri } moves).probes.length ≤ 1 ∧
      ∀ past viaHub now later,
        emitted (step times) { uri } moves = past ++ .recovered viaHub now :: later →
          FoundDifferent times uri past := by
  have h := traced_of_run times uri moves
  refine ⟨?_, fun past viaHub now later hsplit => ?_⟩
  · have hflag := h.flag
    have hle := Bool.toNat_le (reached (step times) { uri } moves).probeInFlight
    omega
  · exact h.justified past _ later hsplit viaHub now rfl

/-- A relay which has sent no block for an hour, and the height behind it. -/
def silentRelay : List WatchdogMove :=
  [.elapse 1, .main .setRestartRequester, .main (.start true true), .main .stop, .main .stop,
    .elapse 3600000] ++ List.replicate 4 (.timer true) ++
    List.replicate 5 (.probe 0 (.answered 200 [['8', '4'], ['0', '\n']]))

theorem recovered_of_run_silentRelay :
    FoundDifferent production "wss://relay/ws"
      [.stamped 1, .stale 3600001 1, .spawned, .fetched (.answered 200 [['8', '4'], ['0', '\n']]),
        .compared 0 840] :=
  (recovered_of_run production "wss://relay/ws" silentRelay).2 _ true 3600001 [] rfl

/-! ### How often the sources are restarted -/

def recoveryTime : WatchdogEvent → Option ℕ
  | .recovered _ now => some now
  | _ => none

/-- The times of the recoveries, the first one in front. -/
def recoveries (log : List WatchdogEvent) : List ℕ :=
  log.filterMap recoveryTime

theorem recoveries_append (log es : List WatchdogEvent) :
    recoveries (log ++ es) = recoveries log ++ recoveries es :=
  List.filterMap_append

/-- The threshold or more lies between the two times. -/
def LongBefore (times : WatchdogTimes) (now r : ℕ) : Prop :=
  times.kStaleThresholdMs.toNat ≤ (now - r) * times.portTickPeriodMs.toNat

theorem LongBefore.mono {now now' r r' : ℕ} (h : LongBefore times now r) (hnow : now ≤ now')
    (hr : r' ≤ r) : LongBefore times now' r' :=
  Nat.le_trans h (Nat.mul_le_mul_right _ (by omega))

/-- The arithmetic of `TickType_t` makes no age longer, as long as the time is not ahead. -/
theorem Stale.longBefore {now since : ℕ} (h : Stale times now since) (hle : since ≤ now) :
    LongBefore times now since := by
  have hage : (UInt32.ofNat now - UInt32.ofNat since).toNat ≤ now - since := by
    rw [UInt32.toNat_sub, UInt32.toNat_ofNat', UInt32.toNat_ofNat']
    omega
  have hms : (sinceMs times now since).toNat ≤ (now - since) * times.portTickPeriodMs.toNat := by
    rw [sinceMs, UInt32.toNat_mul]
    exact Nat.le_trans (Nat.mod_le _ _) (Nat.mul_le_mul_right _ hage)
  have hthreshold : times.kStaleThresholdMs.toNat ≤ (sinceMs times now since).toNat := by
    rw [← UInt32.le_iff_toNat_le]
    exact UInt32.not_lt.mp h.2
  exact Nat.le_trans hthreshold hms

/-- The time of the change, or a reading of the clock which another task than a probe will store
there. -/
def Stamp (s : TipWatchdog) (n : ℕ) : Prop :=
  n = s.lastChangeTick ∨ s.handler.reading = some n ∨ s.caller.reading = some n

/-- Every recovery was followed by its reset of the clock. -/
def Settled (s : TipWatchdog) : Prop :=
  ∀ p ∈ s.probes, ¬ p.Unsettled

/-- A recovery may come without another tick. -/
def Pending (s : TipWatchdog) : Prop :=
  s.tick = .stale ∨ s.tick = .creating ∨ ∃ p ∈ s.probes, p.MayRecover

/-- No task stores the clock while a tick stands between its two readings, and no probe does
while another task holds a reading. -/
def Undisturbed (times : WatchdogTimes) (s : TipWatchdog) (m : WatchdogMove) : Prop :=
  (s.step times m).2.any WatchdogEvent.isStamped = true →
    s.tick.reading = none ∧
      (m.isProbe = true → s.handler.reading = none ∧ s.caller.reading = none)

instance (times : WatchdogTimes) (s : TipWatchdog) (m : WatchdogMove) :
    Decidable (Undisturbed times s m) :=
  inferInstanceAs (Decidable (_ → _))

/-- The clock was reset after every recovery but the last, and after that one too when no probe
is about to do so. -/
def ResetAt (s : TipWatchdog) (log : List WatchdogEvent) (n : ℕ) : Prop :=
  (∀ r ∈ (recoveries log).dropLast, r ≤ n) ∧ (Settled s → ∀ r ∈ recoveries log, r ≤ n)

/-- A recovery lies far behind all earlier ones but the last. -/
def Apart (times : WatchdogTimes) (past : List WatchdogEvent) (e : WatchdogEvent) : Prop :=
  ∀ viaHub now, e = .recovered viaHub now →
    ∀ r ∈ (recoveries past).dropLast, LongBefore times now r

/-- All recoveries but the last lie far back when another one may come, and the last one too as
long as a tick and a probe are both on their way to one. -/
structure Spaced (times : WatchdogTimes) (s : TipWatchdog) (log : List WatchdogEvent) : Prop where
  past : ∀ r ∈ recoveries log, r ≤ s.ticks
  stamps : ∀ n, Stamp s n → n ≤ s.ticks ∧ ResetAt s log n
  read : ∀ now, s.tick = .read now → s.lastChangeTick ≤ now ∧ now ≤ s.ticks
  pending : Pending s → ∀ r ∈ (recoveries log).dropLast, LongBefore times s.ticks r
  overtaken : s.tick = .stale → (∃ p ∈ s.probes, p.MayRecover) →
    ∀ r ∈ recoveries log, LongBefore times s.ticks r
  readings : ∀ p ∈ s.probes, ∀ now ∈ p.reading, now ≤ s.ticks ∧ ∀ r ∈ recoveries log, r ≤ now
  apart : Throughout (Apart times) log

theorem recoveries_append_of_nil (h : recoveries es = []) :
    recoveries (log ++ es) = recoveries log := by
  rw [recoveries_append, h, List.append_nil]

theorem apart_append (h : Throughout (Apart times) log) (hes : recoveries es = []) :
    Throughout (Apart times) (log ++ es) := by
  refine h.append fun e he past viaHub now heq => ?_
  have hnone := List.filterMap_eq_nil_iff.mp hes e he
  rw [heq] at hnone
  cases hnone

/-- A step of another task than the timer and the probe. -/
theorem Spaced.aside (h : Spaced times s log) (hprobes : s'.probes = s.probes)
    (htick : s'.tick = s.tick) (hticks : s.ticks ≤ s'.ticks) (hes : recoveries es = [])
    (hstamps : ∀ n, Stamp s' n → Stamp s n ∨ n = s.ticks)
    (hread : s.tick.reading = none ∨ s'.lastChangeTick = s.lastChangeTick) :
    Spaced times s' (log ++ es) := by
  have hrec : recoveries (log ++ es) = recoveries log := recoveries_append_of_nil hes
  constructor
  · intro r hr
    rw [hrec] at hr
    exact Nat.le_trans (h.past r hr) hticks
  · intro n hn
    rw [ResetAt, Settled, hrec, hprobes]
    rcases hstamps n hn with hn | rfl
    · exact ⟨Nat.le_trans (h.stamps n hn).1 hticks, (h.stamps n hn).2⟩
    · exact ⟨hticks, fun r hr => h.past r (List.dropLast_subset _ hr), fun _ => h.past⟩
  · intro now hs
    rw [htick] at hs
    obtain ⟨hle, hnow⟩ := h.read now hs
    rcases hread with hread | hread
    · rw [hs] at hread
      cases hread
    · exact ⟨hread ▸ hle, Nat.le_trans hnow hticks⟩
  · intro hs r hr
    rw [Pending, htick, hprobes] at hs
    rw [hrec] at hr
    exact (h.pending hs r hr).mono hticks (Nat.le_refl r)
  · intro hs hp r hr
    rw [htick] at hs
    rw [hprobes] at hp
    rw [hrec] at hr
    exact (h.overtaken hs hp r hr).mono hticks (Nat.le_refl r)
  · intro p hp now hnow
    rw [hprobes] at hp
    rw [hrec]
    obtain ⟨hle, hall⟩ := h.readings p hp now hnow
    exact ⟨Nat.le_trans hle hticks, hall⟩
  · exact apart_append h.apart hes

/-- A step which stores nothing and reads no clock. -/
theorem Stamp.kept {n : ℕ} (hn : Stamp s' n) (hlast : s'.lastChangeTick = s.lastChangeTick)
    (hhandler : s'.handler.reading = none ∨ s'.handler.reading = s.handler.reading)
    (hcaller : s'.caller.reading = none ∨ s'.caller.reading = s.caller.reading) : Stamp s n := by
  rcases hn with hn | hn | hn
  · exact .inl (hn.trans hlast)
  · rcases hhandler with hhandler | hhandler
    · cases hhandler.symm.trans hn
    · exact .inr (.inl (hhandler ▸ hn))
  · rcases hcaller with hcaller | hcaller
    · cases hcaller.symm.trans hn
    · exact .inr (.inr (hcaller ▸ hn))

theorem Spaced.handleBinaryFrame (h : Spaced times s log) (f : HubFrame)
    (hread : (s.handleBinaryFrame f).2.any WatchdogEvent.isStamped = true →
      s.tick.reading = none) :
    Spaced times (s.handleBinaryFrame f).1 (log ++ (s.handleBinaryFrame f).2) := by
  unfold TipWatchdog.handleBinaryFrame at hread ⊢
  cases hhandler : s.handler with
  | idle =>
      dsimp only
      split
      · exact h.aside rfl rfl (Nat.le_refl _) rfl
          (fun n hn => .inl (hn.kept rfl (.inl rfl) (.inr rfl))) (.inr rfl)
      · refine h.aside rfl rfl (Nat.le_refl _) rfl
          (fun n hn => .inl (hn.kept rfl (.inl ?_) (.inr rfl))) (.inr rfl)
        dsimp only
        split <;> rfl
  | changed partialSnapshot =>
      refine h.aside rfl rfl (Nat.le_refl _) rfl (fun n hn => ?_) (.inr rfl)
      rcases hn with hn | hn | hn
      · exact .inl (.inl hn)
      · exact .inr (Option.some.inj hn).symm
      · exact .inl (.inr (.inr hn))
  | stamping now partialSnapshot =>
      rw [hhandler] at hread
      refine h.aside rfl rfl (Nat.le_refl _) rfl (fun n hn => .inl ?_)
        (.inl (hread rfl))
      rcases hn with hn | hn | hn
      · exact .inr (.inl (by rw [hn, hhandler]; rfl))
      · cases hn
      · exact .inr (.inr hn)
  | reporting partialSnapshot =>
      refine h.aside rfl rfl (Nat.le_refl _) ?_
        (fun n hn => .inl (hn.kept rfl (.inl rfl) (.inr rfl))) (.inr rfl)
      dsimp only
      split <;> rfl

theorem Spaced.stepMain (h : Spaced times s log) (change : SourceChange)
    (hread : (s.stepMain change).2.any WatchdogEvent.isStamped = true →
      s.tick.reading = none) :
    Spaced times (s.stepMain change).1 (log ++ (s.stepMain change).2) := by
  unfold TipWatchdog.stepMain at hread ⊢
  cases hcaller : s.caller with
  | idle =>
      cases change with
      | start client running =>
          refine h.aside rfl rfl (Nat.le_refl _) rfl
            (fun n hn => .inl (hn.kept rfl (.inr rfl) (.inl ?_))) (.inr rfl)
          dsimp only
          split <;> rfl
      | stop | setBlockFeeDec | setRestartRequester =>
          exact h.aside rfl rfl (Nat.le_refl _) rfl
            (fun n hn => .inl (hn.kept rfl (.inr rfl) (.inl rfl))) (.inr rfl)
  | started =>
      refine h.aside rfl rfl (Nat.le_refl _) rfl (fun n hn => ?_) (.inr rfl)
      rcases hn with hn | hn | hn
      · exact .inl (.inl hn)
      · exact .inl (.inr (.inl hn))
      · exact .inr (Option.some.inj hn).symm
  | stamping now =>
      rw [hcaller] at hread
      refine h.aside rfl rfl (Nat.le_refl _) rfl (fun n hn => .inl ?_)
        (.inl (hread rfl))
      rcases hn with hn | hn | hn
      · exact .inr (.inr (by rw [hn, hcaller]; rfl))
      · exact .inr (.inl hn)
      · cases hn

/-- A probe which may still recover has left no recovery behind. -/
theorem Traced.settled (h : Traced times uri s log) (hp : ∃ p ∈ s.probes, p.MayRecover) :
    Settled s := by
  obtain ⟨p, hp, hmay⟩ := hp
  intro q hq
  obtain ⟨i, hi⟩ := List.mem_iff_getElem?.mp hp
  rw [(h.probes_eq_singleton hi).2.1, List.mem_singleton] at hq
  rw [hq]
  cases p with
  | started | fetching | fetched | read | differs => simp [Probe.Unsettled]
  | same | recovered | resetting | leaving => cases hmay

/-- A step of the timer which creates no probe. -/
theorem Spaced.ticking (h : Spaced times s log) {tick : WatchdogTick} {probeInFlight : Bool}
    (hes : recoveries es = [])
    (hread : ∀ now, tick = .read now → s.lastChangeTick ≤ now ∧ now ≤ s.ticks)
    (hpending : tick = .stale ∨ tick = .creating →
      ∀ r ∈ (recoveries log).dropLast, LongBefore times s.ticks r)
    (hovertaken : tick = .stale → (∃ p ∈ s.probes, p.MayRecover) →
      ∀ r ∈ recoveries log, LongBefore times s.ticks r) :
    Spaced times { s with tick, probeInFlight } (log ++ es) := by
  have hrec : recoveries (log ++ es) = recoveries log := recoveries_append_of_nil hes
  constructor
  · rw [hrec]
    exact h.past
  · intro n hn
    rw [ResetAt, hrec]
    exact h.stamps n hn
  · exact hread
  · rw [hrec]
    rintro (hs | hs | hp)
    · exact hpending (.inl hs)
    · exact hpending (.inr hs)
    · exact h.pending (.inr (.inr hp))
  · rw [hrec]
    exact hovertaken
  · rw [hrec]
    exact h.readings
  · exact apart_append h.apart hes

/-- The creation of a probe. -/
theorem Spaced.spawn (h : Spaced times s log) (hcreating : s.tick = .creating)
    (hnil : s.probes = []) :
    Spaced times { s with tick := .idle, probes := [.started] } (log ++ [.spawned]) := by
  have hrec : recoveries (log ++ [.spawned]) = recoveries log := recoveries_append_of_nil rfl
  constructor
  · rw [hrec]
    exact h.past
  · intro n hn
    obtain ⟨hle, hfirst, hall⟩ := h.stamps n hn
    rw [ResetAt, hrec]
    exact ⟨hle, hfirst, fun _ => hall (by simp [Settled, hnil])⟩
  · simp
  · rw [hrec]
    exact fun _ => h.pending (.inr (.inl hcreating))
  · simp
  · intro p hp now hnow
    obtain rfl : p = .started := List.mem_singleton.mp hp
    cases hnow
  · exact apart_append h.apart rfl

theorem Spaced.onWatchdogTick (h : Spaced times s log) (htraced : Traced times uri s log)
    (created : Bool) :
    Spaced times (s.onWatchdogTick times created).1
      (log ++ (s.onWatchdogTick times created).2) := by
  unfold TipWatchdog.onWatchdogTick
  cases htick : s.tick with
  | idle =>
      dsimp only
      split
      · refine h.ticking rfl (fun now hs => ?_) (by simp) (by simp)
        obtain rfl : s.ticks = now := by simpa using hs
        exact ⟨(h.stamps _ (.inl rfl)).1, Nat.le_refl _⟩
      · rw [List.append_nil]
        exact h
  | read now =>
      obtain ⟨hlate, hnow⟩ := h.read now htick
      obtain ⟨hfirst, hall⟩ := (h.stamps _ (.inl rfl)).2
      dsimp only
      split
      · rename_i hstale
        have hlong : LongBefore times s.ticks s.lastChangeTick :=
          (hstale.longBefore hlate).mono hnow (Nat.le_refl _)
        refine h.ticking rfl (by simp) (fun _ r hr => ?_) (fun _ hp r hr => ?_)
        · exact hlong.mono (Nat.le_refl _) (hfirst r hr)
        · exact hlong.mono (Nat.le_refl _) (hall (htraced.settled hp) r hr)
      · exact h.ticking rfl (by simp) (by simp) (by simp)
  | stale =>
      have hold := h.pending (.inl htick)
      dsimp only
      split
      · exact h.ticking rfl (by simp) (by simp) (by simp)
      · exact h.ticking rfl (by simp) (fun _ => hold) (by simp)
  | creating =>
      dsimp only
      split
      · have hnil := htraced.probes_eq_nil (.inr htick)
        rw [hnil]
        exact h.spawn htick hnil
      · exact h.ticking rfl (by simp) (by simp) (by simp)

/-- A step of the only probe which requests nothing. -/
theorem Spaced.probing (h : Spaced times s log) {p p' : Probe} (hp : s.probes = [p])
    (hprobes : s'.probes = [p']) (htick : s'.tick = s.tick) (hticks : s'.ticks = s.ticks)
    (hes : recoveries es = [])
    (hstamps : ∀ n, Stamp s' n → Stamp s n ∧ (¬ p'.Unsettled → ¬ p.Unsettled) ∨
      n ∈ p.reading)
    (hread : s.tick.reading = none ∨ s'.lastChangeTick = s.lastChangeTick)
    (hmay : p'.MayRecover → p.MayRecover)
    (hreading : ∀ now ∈ p'.reading, now ∈ p.reading ∨ now = s.ticks) :
    Spaced times s' (log ++ es) := by
  have hrec : recoveries (log ++ es) = recoveries log := recoveries_append_of_nil hes
  have hmem : p ∈ s.probes := by rw [hp]; exact List.mem_singleton_self p
  have hexists : (∃ q ∈ s'.probes, q.MayRecover) → ∃ q ∈ s.probes, q.MayRecover := by
    rintro ⟨q, hq, hqmay⟩
    rw [hprobes, List.mem_singleton] at hq
    exact ⟨p, hmem, hmay (hq ▸ hqmay)⟩
  constructor
  · rw [hrec, hticks]
    exact h.past
  · intro n hn
    rw [ResetAt, hrec, hticks]
    rcases hstamps n hn with ⟨hn, hsettles⟩ | hn
    · obtain ⟨hle, hfirst, hall⟩ := h.stamps n hn
      refine ⟨hle, hfirst, fun hsettled => hall fun q hq => ?_⟩
      rw [hp, List.mem_singleton] at hq
      rw [hq]
      exact hsettles (hsettled p' (by rw [hprobes]; exact List.mem_singleton_self p'))
    · obtain ⟨hle, hall⟩ := h.readings p hmem n hn
      exact ⟨hle, fun r hr => hall r (List.dropLast_subset _ hr), fun _ => hall⟩
  · intro now hs
    rw [htick] at hs
    rw [hticks]
    rcases hread with hread | hread
    · rw [hs] at hread
      cases hread
    · rw [hread]
      exact h.read now hs
  · intro hs
    rw [hrec, hticks]
    rw [Pending, htick] at hs
    exact h.pending (hs.imp_right fun hs => hs.imp_right hexists)
  · intro hs hq
    rw [hrec, hticks]
    rw [htick] at hs
    exact h.overtaken hs (hexists hq)
  · intro q hq now hnow
    rw [hprobes, List.mem_singleton] at hq
    subst hq
    rw [hrec, hticks]
    rcases hreading now hnow with hnow | rfl
    · exact h.readings p hmem now hnow
    · exact ⟨Nat.le_refl _, h.past⟩
  · exact apart_append h.apart hes

/-- The request of the only probe. -/
theorem Spaced.recover (h : Spaced times s log) (hp : s.probes = [.differs])
    (hcreating : s.tick ≠ .creating) (viaHub : Bool) :
    Spaced times { s with probes := [.recovered] } (log ++ [.recovered viaHub s.ticks]) := by
  have hmay : ∃ p ∈ s.probes, p.MayRecover := ⟨.differs, by simp [hp], trivial⟩
  have hrec : recoveries (log ++ [.recovered viaHub s.ticks]) = recoveries log ++ [s.ticks] :=
    recoveries_append log _
  constructor
  · intro r hr
    rw [hrec] at hr
    rcases List.mem_append.mp hr with hr | hr
    · exact h.past r hr
    · exact Nat.le_of_eq (List.mem_singleton.mp hr)
  · intro n hn
    obtain ⟨hle, -, hall⟩ := h.stamps n hn
    rw [ResetAt, hrec, List.dropLast_concat]
    refine ⟨hle, hall fun p hq => ?_, fun hsettled => ?_⟩
    · rw [hp, List.mem_singleton] at hq
      rw [hq]
      exact id
    · exact absurd trivial (hsettled .recovered (List.mem_singleton_self _))
  · exact h.read
  · rw [hrec, List.dropLast_concat]
    rintro (hs | hs | ⟨p, hq, hqmay⟩)
    · exact h.overtaken hs hmay
    · exact absurd hs hcreating
    · rw [List.mem_singleton.mp hq] at hqmay
      cases hqmay
  · rintro - ⟨p, hq, hqmay⟩
    rw [List.mem_singleton.mp hq] at hqmay
    cases hqmay
  · intro p hq now hnow
    rw [List.mem_singleton.mp hq] at hnow
    cases hnow
  · refine throughout_append_singleton.mpr ⟨h.apart, fun _ now heq => ?_⟩
    obtain ⟨-, rfl⟩ := WatchdogEvent.recovered.inj heq
    exact h.pending (.inr (.inr hmay))

/-- The end of the only probe. -/
theorem Spaced.leave (h : Spaced times s log) (hp : s.probes = [.leaving]) :
    Spaced times { s with probes := [], probeInFlight := false } log := by
  have hsettled : Settled s := by
    intro p hq
    rw [hp, List.mem_singleton] at hq
    rw [hq]
    exact id
  constructor
  · exact h.past
  · intro n hn
    obtain ⟨hle, hfirst, hall⟩ := h.stamps n hn
    exact ⟨hle, hfirst, fun _ => hall hsettled⟩
  · exact h.read
  · rintro (hs | hs | ⟨p, hq, -⟩)
    · exact h.pending (.inl hs)
    · exact h.pending (.inr (.inl hs))
    · exact absurd hq List.not_mem_nil
  · rintro - ⟨p, hq, -⟩
    exact absurd hq List.not_mem_nil
  · intro p hq
    exact absurd hq List.not_mem_nil
  · exact h.apart

theorem Spaced.stepProbe (h : Spaced times s log) (htraced : Traced times uri s log) (i : ℕ)
    (transfer : Transfer)
    (hundisturbed : (s.stepProbe i transfer).2.any WatchdogEvent.isStamped = true →
      s.tick.reading = none ∧ s.handler.reading = none ∧ s.caller.reading = none) :
    Spaced times (s.stepProbe i transfer).1 (log ++ (s.stepProbe i transfer).2) := by
  unfold TipWatchdog.stepProbe at hundisturbed ⊢
  cases hi : s.probes[i]? with
  | none =>
      dsimp only
      rw [List.append_nil]
      exact h
  | some p =>
      obtain ⟨rfl, hone, hcreating⟩ := htraced.probes_eq_singleton hi
      have hset (p' : Probe) : s.probes.set 0 p' = [p'] := by rw [hone]; rfl
      have hmem : p ∈ s.probes := by rw [hone]; exact List.mem_singleton_self p
      rw [hi] at hundisturbed
      cases p with
      | started =>
          dsimp only [runStalenessProbe]
          refine h.probing hone (hset _) rfl rfl rfl (fun n hn => .inl ⟨hn, fun _ => id⟩) (.inr rfl)
            (fun _ => trivial) ?_
          split <;> simp [Probe.reading]
      | fetching =>
          cases hfetch : fetchUpstreamHeight s.uri transfer with
          | none =>
              simp only [runStalenessProbe, hfetch]
              exact h.probing hone (hset _) rfl rfl rfl (fun n hn => .inl ⟨hn, fun _ => id⟩)
                (.inr rfl) (fun _ => trivial) (by simp [Probe.reading])
          | some upstream =>
              simp only [runStalenessProbe, hfetch]
              exact h.probing hone (hset _) rfl rfl rfl (fun n hn => .inl ⟨hn, fun _ => id⟩)
                (.inr rfl) (fun _ => trivial) (by simp [Probe.reading])
      | fetched upstream =>
          exact h.probing hone (hset _) rfl rfl rfl (fun n hn => .inl ⟨hn, fun _ => id⟩)
            (.inr rfl) (fun _ => trivial) (by simp [Probe.reading])
      | read upstream now =>
          dsimp only [runStalenessProbe]
          refine h.probing hone (hset _) rfl rfl rfl (fun n hn => .inl ⟨hn, fun _ => id⟩) (.inr rfl)
            (fun _ => trivial) ?_
          split <;> simp [Probe.reading]
      | same now | resetting now =>
          dsimp only [runStalenessProbe] at hundisturbed ⊢
          obtain ⟨hread, hhandler, hcaller⟩ := hundisturbed rfl
          refine h.probing hone (hset _) rfl rfl rfl (fun n hn => .inr ?_) (.inl hread) id
            (by simp [Probe.reading])
          rcases hn with hn | hn | hn
          · exact hn ▸ rfl
          · exact absurd (hhandler.symm.trans hn) (by simp)
          · exact absurd (hcaller.symm.trans hn) (by simp)
      | recovered =>
          exact h.probing hone (hset _) rfl rfl rfl (fun n hn => .inl ⟨hn, id⟩)
            (.inr rfl) id (by simp [Probe.reading])
      | differs =>
          dsimp only [runStalenessProbe]
          rw [hset]
          split
          · exact h.recover hone hcreating s.restartRequester
          · exact h.probing hone rfl rfl rfl rfl (fun n hn => .inl ⟨hn, fun _ => id⟩)
              (.inr rfl) (fun _ => trivial) (by simp [Probe.reading])
      | leaving =>
          have hnil : s.probes.eraseIdx 0 = [] := by rw [hone]; rfl
          dsimp only [runStalenessProbe]
          rw [hnil, List.append_nil]
          exact h.leave hone

theorem Spaced.step (h : Spaced times s log) (htraced : Traced times uri s log)
    {m : WatchdogMove} (hm : Undisturbed times s m) :
    Spaced times (s.step times m).1 (log ++ (s.step times m).2) := by
  cases m with
  | elapse n =>
      exact h.aside rfl rfl (Nat.le_add_right _ _) rfl (fun n hn => .inl hn) (.inr rfl)
  | timer created => exact h.onWatchdogTick htraced created
  | probe i transfer =>
      exact h.stepProbe htraced i transfer fun hstamped => ⟨(hm hstamped).1, (hm hstamped).2 rfl⟩
  | frame f => exact h.handleBinaryFrame f fun hstamped => (hm hstamped).1
  | main change => exact h.stepMain change fun hstamped => (hm hstamped).1

theorem spaced_initial (times : WatchdogTimes) (uri : String) : Spaced times { uri } [] where
  past := by simp [recoveries]
  stamps n hn := by
    rcases hn with rfl | hn | hn
    · exact ⟨Nat.le_refl _, by simp [recoveries], by simp [recoveries]⟩
    · cases hn
    · cases hn
  read := by simp
  pending := by simp [recoveries]
  overtaken := by simp
  readings := by simp
  apart := throughout_nil

/-- Of three recoveries in a row the last one comes the threshold or more after the first, in
every interleaving in which the clock is not stored between the two readings of a tick, and not
by a probe while another task holds a reading: a stuck relay costs two restarts an hour at most. -/
theorem recoveries_spaced (times : WatchdogTimes) (uri : String) (moves : List WatchdogMove)
    (hmoves : Along (fun s m => (s.step times m).1) (Undisturbed times) { uri } moves)
    (past : List WatchdogEvent) (viaHub : Bool) (now : ℕ) (later : List WatchdogEvent)
    (hsplit : emitted (step times) { uri } moves = past ++ .recovered viaHub now :: later) :
    ∀ r ∈ (recoveries past).dropLast, LongBefore times now r := by
  have h := hmoves.emitted_invariant
    (I := fun s log => Traced times uri s log ∧ Spaced times s log)
    (fun s log m h hm => ⟨h.1.step m, h.2.step h.1 hm⟩)
    ⟨traced_initial times uri, spaced_initial times uri⟩
  rw [List.nil_append] at h
  exact h.2.apart past _ later hsplit viaHub now rfl

/-- Two restarts at once, as the second tick looks at the clock before the first probe resets it,
and a third one an hour later. -/
def threeRestarts : List WatchdogMove :=
  let answer : WatchdogMove := .probe 0 (.answered 200 [['8', '4', '0']])
  let toRestart := [.timer true, .timer true, answer, answer, answer, answer, answer]
  [.elapse 1, .main .setRestartRequester, .main (.start true true), .main .stop, .main .stop,
    .elapse 3600000, .timer true, .timer true, .timer true, .timer true, answer, answer, answer,
    answer, .timer true, .timer true] ++ List.replicate 4 answer ++ toRestart ++
    List.replicate 3 answer ++ [.elapse 3600000, .timer true, .timer true] ++ toRestart

theorem recoveries_spaced_threeRestarts : LongBefore production 7200001 3600001 :=
  recoveries_spaced production "wss://relay/ws" threeRestarts (by decide +kernel)
    ((emitted (step production) { uri := "wss://relay/ws" } threeRestarts).dropLast) true 7200001
    [] (by rfl) 3600001 (by decide +kernel)

end TipWatchdog

end Data

end BtClock
