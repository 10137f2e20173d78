import BtClock.Transition.Emit
import BtClock.Transition.Ledger
import BtClock.Webserver.SseFrame
import Mathlib.Data.List.Nodup

/-!
# The clients of the event stream

A request is detached and put on a list, and every client of the list gets the broadcasts and the
pings until a chunk fails.  The handler, the broadcasts and the heartbeat take turns at the lock.
-/

namespace BtClock

open EventStream Fields Ledger SseFrame Transition Utf8

/-- A client, with its detached request. -/
structure SseClient where
  req : ℕ
  lastHeartbeatUs : ℤ
  deriving DecidableEq, Repr

/-- Where the one task of the server is in `HandleEvents`. -/
inductive EventsHandler
  | idle
  /-- Behind the check of the number of clients. -/
  | counted
  /-- Behind `httpd_req_async_handler_begin`. -/
  | detached (req : ℕ)
  /-- Behind the welcome. -/
  | listed
  deriving DecidableEq, Repr

structure SseServer where
  maxClients : ℕ := 4
  clients : List SseClient := []
  heartbeatTask : Bool := false
  shutdown : Bool := false
  handler : EventsHandler := .idle
  deriving DecidableEq, Repr

/-- What `HandleEvents` meets: the answer of the gate, the detached request, the time behind the
welcome when it could be sent, and whether the heartbeat task was created. -/
structure EventsEnv where
  requireHttpAuth : Bool := true
  async : Option ℕ := none
  send : Option ℤ := none
  taskCreated : Bool := true

/-- A turn at the lock.  For each client, `send` is the time behind a chunk which was sent. -/
inductive SseStep
  | handleEvents (env : EventsEnv)
  | broadcast (eventName data : List UInt8) (send : ℕ → Option ℤ)
  | heartbeat (send : ℕ → Option ℤ)
  | destroy

inductive SseEffect
  | refused
  | opened (req : ℕ)
  | sent (req : ℕ) (frame : List UInt8)
  | completed (req : ℕ)
  deriving DecidableEq, Repr

namespace SseServer

/-- `welcome` -/
def kWelcomeEvent : List UInt8 := encodeText ['w', 'e', 'l', 'c', 'o', 'm', 'e']

/-- An object without members. -/
def kWelcomePayload : List UInt8 := encodeText ['\x7b', '\x7d']

/-- `ping` -/
def kPing : List UInt8 := encodeText ['p', 'i', 'n', 'g']

/-- The loop over the clients.  The one whose chunk fails is evicted, which moves the rest down
to its place. -/
def sendAll (frame : List UInt8) (send : ℕ → Option ℤ) :
    List SseClient → List SseClient × List SseEffect
  | [] => ([], [])
  | c :: rest =>
      let next := sendAll frame send rest
      match send c.req with
      | some now => ({ c with lastHeartbeatUs := now } :: next.1, .sent c.req frame :: next.2)
      | none => (next.1, .completed c.req :: next.2)

/-- The part of `HandleEvents` up to the next turn of another task. -/
def handleEvents (s : SseServer) (env : EventsEnv) : SseServer × List SseEffect :=
  match s.handler with
  | .idle =>
      if env.requireHttpAuth = false then (s, [])
      else if s.clients.length ≥ s.maxClients then (s, [.refused])
      else ({ s with handler := .counted }, [])
  | .counted =>
      match env.async with
      | none => ({ s with handler := .idle }, [])
      | some req => ({ s with handler := .detached req }, [.opened req])
  | .detached req =>
      match env.send with
      | some now =>
          ({ s with
              clients := s.clients ++ [{ req := req, lastHeartbeatUs := now }]
              handler := .listed },
            [.sent req (makeSseFrame kWelcomeEvent kWelcomePayload)])
      | none => ({ s with handler := .idle }, [.completed req])
  | .listed =>
      ({ s with heartbeatTask := s.heartbeatTask || env.taskCreated, handler := .idle }, [])

def broadcast (s : SseServer) (eventName data : List UInt8) (send : ℕ → Option ℤ) :
    SseServer × List SseEffect :=
  let sent := sendAll (makeSseFrame eventName data) send s.clients
  ({ s with clients := sent.1 }, sent.2)

/-- The heartbeat task behind its wait. -/
def heartbeat (s : SseServer) (send : ℕ → Option ℤ) : SseServer × List SseEffect :=
  if s.heartbeatTask = false then (s, [])
  else if s.shutdown then ({ s with heartbeatTask := false }, [])
  else
    let sent := sendAll (makeSseComment kPing) send s.clients
    ({ s with clients := sent.1 }, sent.2)

/-- The destructor. -/
def destroy (s : SseServer) : SseServer × List SseEffect :=
  ({ s with shutdown := true, clients := [] }, s.clients.map fun c => .completed c.req)

def step (s : SseServer) : SseStep → SseServer × List SseEffect
  | .handleEvents env => s.handleEvents env
  | .broadcast eventName data send => s.broadcast eventName data send
  | .heartbeat send => s.heartbeat send
  | .destroy => s.destroy

/-! ### The loop over the clients -/

section

variable (frame : List UInt8) (send : ℕ → Option ℤ) (clients : List SseClient)

/-- The clients which are left. -/
theorem map_req_sendAll :
    (sendAll frame send clients).1.map SseClient.req =
      (clients.map SseClient.req).filter fun req => (send req).isSome := by
  induction clients with
  | nil => rfl
  | cons c rest ih =>
      rw [sendAll]
      cases h : send c.req with
      | none => simp [h, ih]
      | some now => simp [h, ih]

/-- The clients which are evicted. -/
theorem completed_mem_sendAll_iff {req : ℕ} :
    .completed req ∈ (sendAll frame send clients).2 ↔
      req ∈ clients.map SseClient.req ∧ send req = none := by
  induction clients with
  | nil => simp [sendAll]
  | cons c rest ih =>
      rw [sendAll]
      cases h : send c.req with
      | none =>
          simp only [List.mem_cons, SseEffect.completed.injEq, ih, List.map_cons]
          constructor
          · rintro (rfl | ⟨hmem, hnone⟩)
            · exact ⟨.inl rfl, h⟩
            · exact ⟨.inr hmem, hnone⟩
          · rintro ⟨rfl | hmem, hnone⟩
            · exact .inl rfl
            · exact .inr ⟨hmem, hnone⟩
      | some now =>
          simp only [List.mem_cons, reduceCtorEq, false_or, ih, List.map_cons]
          constructor
          · rintro ⟨hmem, hnone⟩
            exact ⟨.inr hmem, hnone⟩
          · rintro ⟨rfl | hmem, hnone⟩
            · rw [h] at hnone
              cases hnone
            · exact ⟨hmem, hnone⟩

end

end SseServer

/-! ### The frames of a client and the ledger of the requests -/

namespace SseEffect

def entry : SseEffect → Option (Entry ℕ)
  | .opened req => some (.opened req)
  | .completed req => some (.closed req)
  | .refused | .sent _ _ => none

def frameTo (req : ℕ) : SseEffect → Option (List UInt8)
  | .sent r frame => if r = req then some frame else none
  | .refused | .opened _ | .completed _ => none

end SseEffect

/-- The requests which are opened and completed. -/
def requestLog (effects : List SseEffect) : List (Entry ℕ) :=
  effects.filterMap SseEffect.entry

/-- The chunks of one request. -/
def framesTo (req : ℕ) (effects : List SseEffect) : List (List UInt8) :=
  effects.filterMap (SseEffect.frameTo req)

theorem requestLog_cons (e : SseEffect) (effects : List SseEffect) :
    requestLog (e :: effects) = e.entry.toList ++ requestLog effects := by
  cases e <;> rfl

theorem framesTo_cons (req : ℕ) (e : SseEffect) (effects : List SseEffect) :
    framesTo req (e :: effects) = (e.frameTo req).toList ++ framesTo req effects := by
  rw [framesTo, List.filterMap_cons]
  cases e.frameTo req <;> rfl

theorem framesTo_append (req : ℕ) (first rest : List SseEffect) :
    framesTo req (first ++ rest) = framesTo req first ++ framesTo req rest :=
  List.filterMap_append

namespace SseServer

section

variable (frame : List UInt8) (send : ℕ → Option ℤ) {clients : List SseClient}

theorem requestLog_sendAll :
    requestLog (sendAll frame send clients).2 =
      ((clients.map SseClient.req).filter fun req => (send req).isNone).map .closed := by
  induction clients with
  | nil => rfl
  | cons c rest ih =>
      rw [sendAll]
      cases h : send c.req with
      | none => simp [requestLog_cons, SseEffect.entry, h, ih]
      | some now => simp [requestLog_cons, SseEffect.entry, h, ih]

theorem framesTo_sendAll_of_notMem {req : ℕ} (h : req ∉ clients.map SseClient.req) :
    framesTo req (sendAll frame send clients).2 = [] := by
  induction clients with
  | nil => rfl
  | cons c rest ih =>
      rw [List.map_cons, List.mem_cons, not_or] at h
      have hne : ¬ c.req = req := fun heq => h.1 heq.symm
      rw [sendAll]
      cases hsend : send c.req with
      | none => exact ih h.2
      | some now => simp [framesTo_cons, SseEffect.frameTo, hne, ih h.2]

/-- A client which is not evicted gets the frame once. -/
theorem framesTo_sendAll {req : ℕ} (hnodup : (clients.map SseClient.req).Nodup)
    (hmem : req ∈ clients.map SseClient.req) (hsend : send req ≠ none) :
    framesTo req (sendAll frame send clients).2 = [frame] := by
  induction clients with
  | nil => cases hmem
  | cons c rest ih =>
      rw [List.map_cons, List.nodup_cons] at hnodup
      rw [sendAll]
      rcases List.mem_cons.mp hmem with rfl | hrest
      · obtain ⟨now, hnow⟩ := Option.ne_none_iff_exists'.mp hsend
        have hnone := framesTo_sendAll_of_notMem frame send hnodup.1
        simp [hnow, framesTo_cons, SseEffect.frameTo, hnone]
      · have hne : ¬ c.req = req := fun heq => hnodup.1 (heq ▸ hrest)
        cases hnow : send c.req with
        | none => exact ih hnodup.2 hrest
        | some now => simp [framesTo_cons, SseEffect.frameTo, hne, ih hnodup.2 hrest]

end

/-- The destructor evicts all clients. -/
theorem sendAll_none (frame : List UInt8) (clients : List SseClient) :
    sendAll frame (fun _ => none) clients = ([], clients.map fun c => .completed c.req) := by
  induction clients with
  | nil => rfl
  | cons c rest ih => rw [sendAll, ih, List.map_cons]

/-! ### The requests over a run -/

end SseServer

/-- A detached request which is not on the list yet. -/
def EventsHandler.held : EventsHandler → List ℕ
  | .detached req => [req]
  | .idle | .counted | .listed => []

namespace SseServer

/-- The requests which are detached and not completed. -/
def held (s : SseServer) : List ℕ :=
  s.handler.held ++ (s.clients.map SseClient.req).reverse

/-- A detached request is none of those which are live, and the owner stops the server before it
destroys this one. -/
def Allowed (s : SseServer) : SseStep → Prop
  | .handleEvents env =>
      s.shutdown = false ∧ (s.handler = .counted → ∀ req ∈ env.async, req ∉ s.held)
  | .broadcast _ _ _ => s.shutdown = false
  | .heartbeat _ => True
  | .destroy => s.handler = .idle

instance (s : SseServer) : (e : SseStep) → Decidable (s.Allowed e)
  | .handleEvents env => inferInstanceAs (Decidable
      (s.shutdown = false ∧ (s.handler = .counted → ∀ req ∈ env.async, req ∉ s.held)))
  | .broadcast _ _ _ => inferInstanceAs (Decidable (s.shutdown = false))
  | .heartbeat _ => isTrue trivial
  | .destroy => inferInstanceAs (Decidable (s.handler = .idle))

/-- The server against all that it has opened and completed. -/
structure Sound (maxClients : ℕ) (s : SseServer) (log : List SseEffect) : Prop where
  max : s.maxClients = maxClients
  leaves : Leaves (fun held => held.length ≤ maxClients) (requestLog log) s.held
  nodup : s.held.Nodup
  room : s.handler = .counted ∨ s.handler.held ≠ [] → s.clients.length < maxClients
  closed : s.shutdown = true → s.handler = .idle ∧ s.clients = []

theorem length_held (s : SseServer) :
    s.held.length = s.handler.held.length + s.clients.length := by
  simp [held]

theorem requestLog_append (first rest : List SseEffect) :
    requestLog (first ++ rest) = requestLog first ++ requestLog rest :=
  List.filterMap_append

variable {maxClients : ℕ} {s : SseServer} {log : List SseEffect}

theorem Sound.nodup_req (h : Sound maxClients s log) : (s.clients.map SseClient.req).Nodup :=
  List.nodup_reverse.mp (List.nodup_append.mp h.nodup).2.1

/-- The clients whose chunk fails are completed, and no others. -/
theorem Sound.sendAll (h : Sound maxClients s log) (frame : List UInt8) (send : ℕ → Option ℤ) :
    Sound maxClients { s with clients := (sendAll frame send s.clients).1 }
      (log ++ (sendAll frame send s.clients).2) := by
  have hreqs := map_req_sendAll frame send s.clients
  have hlen : (SseServer.sendAll frame send s.clients).1.length ≤ s.clients.length := by
    have hmap := congrArg List.length hreqs
    rw [List.length_map] at hmap
    rw [hmap]
    exact (List.length_filter_le _ _).trans (List.length_map _).le
  have hheld : ({ s with clients := (SseServer.sendAll frame send s.clients).1 } : SseServer).held =
      s.held.diff ((s.clients.map SseClient.req).filter fun req => (send req).isNone) := by
    have hdisjoint := (List.nodup_append.mp h.nodup).2.2
    rw [h.nodup.sdiff_eq_filter, held, held, List.filter_append, hreqs, List.filter_reverse]
    congr 1
    · refine (List.filter_eq_self.mpr fun req hreq => ?_).symm
      rw [decide_eq_true_eq]
      intro hmem
      exact hdisjoint req hreq req (List.mem_reverse.mpr (List.mem_of_mem_filter hmem)) rfl
    · congr 1
      refine List.filter_congr fun req hreq => ?_
      cases hsend : send req <;> simp [hsend, hreq]
  refine ⟨h.max, ?_, ?_, fun hbusy => hlen.trans_lt (h.room hbusy), fun hdown => ?_⟩
  · rw [requestLog_append, requestLog_sendAll, hheld]
    refine h.leaves.closeAll (fun held k hk => (List.length_erase_le).trans hk) ?_
    exact (List.filter_sublist.subperm.trans (List.reverse_perm _).symm.subperm).trans
      (List.sublist_append_right _ _).subperm
  · rw [hheld]
    exact h.nodup.diff
  · obtain ⟨hidle, hnil⟩ := h.closed hdown
    exact ⟨hidle, by rw [hnil]; rfl⟩

/-- A step which neither opens nor completes a request. -/
theorem Sound.congr_held (h : Sound maxClients s log) {s' : SseServer} {effects : List SseEffect}
    (hmax : s'.maxClients = s.maxClients) (heffects : requestLog effects = [])
    (hheld : s'.held = s.held)
    (hroom : s'.handler = .counted ∨ s'.handler.held ≠ [] → s'.clients.length < maxClients)
    (hclosed : s'.shutdown = true → s'.handler = .idle ∧ s'.clients = []) :
    Sound maxClients s' (log ++ effects) where
  max := hmax.trans h.max
  leaves := by
    rw [requestLog_append, heffects, List.append_nil, hheld]
    exact h.leaves
  nodup := by
    rw [hheld]
    exact h.nodup
  room := hroom
  closed := hclosed

theorem Sound.handleEvents (h : Sound maxClients s log) {env : EventsEnv}
    (hallowed : s.Allowed (.handleEvents env)) :
    Sound maxClients (s.handleEvents env).1 (log ++ (s.handleEvents env).2) := by
  obtain ⟨hopen, hfresh⟩ := hallowed
  have hup (s' : SseServer) (hs' : s'.shutdown = s.shutdown) (hdown : s'.shutdown = true) :
      s'.handler = .idle ∧ s'.clients = [] := by
    rw [hs', hopen] at hdown
    cases hdown
  rw [SseServer.handleEvents]
  cases hhandler : s.handler with
  | idle =>
      have hheld : s.held = (s.clients.map SseClient.req).reverse := by rw [held, hhandler]; rfl
      dsimp only
      split_ifs with hauth hfull
      · exact h.congr_held rfl rfl rfl h.room h.closed
      · exact h.congr_held rfl rfl rfl h.room h.closed
      · refine h.congr_held rfl rfl hheld.symm (fun _ => ?_) (hup _ rfl)
        rw [← h.max]
        exact not_le.mp hfull
  | counted =>
      have hheld : s.held = (s.clients.map SseClient.req).reverse := by rw [held, hhandler]; rfl
      have hroom := h.room (.inl hhandler)
      dsimp only
      cases hasync : env.async with
      | none =>
          refine h.congr_held rfl rfl hheld.symm (fun hbusy => ?_) (hup _ rfl)
          rcases hbusy with hbusy | hbusy
          · cases hbusy
          · exact absurd rfl hbusy
      | some req =>
          have hnot : req ∉ s.held := hfresh hhandler req hasync
          have hheld' : ({ s with handler := .detached req } : SseServer).held = req :: s.held := by
            rw [hheld]
            rfl
          refine ⟨h.max, ?_, ?_, fun _ => hroom, hup _ rfl⟩
          · rw [requestLog_append, hheld']
            refine h.leaves.snoc (by simp [replay, hnot]) ?_
            rw [List.length_cons, hheld, List.length_reverse, List.length_map]
            exact hroom
          · rw [hheld']
            exact List.nodup_cons.mpr ⟨hnot, h.nodup⟩
  | detached req =>
      have hheld : s.held = req :: (s.clients.map SseClient.req).reverse := by
        rw [held, hhandler]
        rfl
      dsimp only
      cases hsend : env.send with
      | none =>
          have hclose : Leaves (fun held => held.length ≤ maxClients)
              (requestLog log ++ [.closed req]) (s.held.erase req) :=
            h.leaves.snoc (by simp [replay, hheld]) ((List.length_erase_le).trans h.leaves.holds)
          rw [hheld, List.erase_cons_head] at hclose
          refine ⟨h.max, ?_, (List.nodup_cons.mp (hheld ▸ h.nodup)).2, fun hbusy => ?_, hup _ rfl⟩
          · rw [requestLog_append]
            exact hclose
          · rcases hbusy with hbusy | hbusy
            · cases hbusy
            · exact absurd rfl hbusy
      | some now =>
          refine h.congr_held rfl rfl ?_ (fun hbusy => ?_) (hup _ rfl)
          · rw [hheld, held]
            simp [EventsHandler.held]
          · rcases hbusy with hbusy | hbusy
            · cases hbusy
            · exact absurd rfl hbusy
  | listed =>
      have hheld : s.held = (s.clients.map SseClient.req).reverse := by rw [held, hhandler]; rfl
      refine h.congr_held rfl rfl hheld.symm (fun hbusy => ?_) (hup _ rfl)
      rcases hbusy with hbusy | hbusy
      · cases hbusy
      · exact absurd rfl hbusy

theorem Sound.step (h : Sound maxClients s log) {e : SseStep} (hallowed : s.Allowed e) :
    Sound maxClients (s.step e).1 (log ++ (s.step e).2) := by
  cases e with
  | handleEvents env => exact h.handleEvents hallowed
  | broadcast eventName data send => exact h.sendAll (makeSseFrame eventName data) send
  | heartbeat send =>
      rw [SseServer.step, heartbeat]
      split_ifs with htask hdown
      · simpa using h
      · exact h.congr_held rfl rfl rfl h.room h.closed
      · exact h.sendAll (makeSseComment kPing) send
  | destroy =>
      have hidle : s.handler = .idle := hallowed
      have hall := h.sendAll [] fun _ => none
      rw [sendAll_none] at hall
      exact ⟨hall.max, hall.leaves, hall.nodup, hall.room, fun _ => ⟨hidle, rfl⟩⟩

theorem sound_of_run {steps : List SseStep}
    (h : Along (fun s e => (step s e).1) Allowed { maxClients } steps) :
    Sound maxClients (reached step { maxClients } steps)
      (emitted step { maxClients } steps) := by
  have hstart : Sound maxClients { maxClients } [] :=
    ⟨rfl, leaves_nil (Nat.zero_le _), List.nodup_nil, by simp [EventsHandler.held], by simp⟩
  exact h.emitted_invariant (fun _ _ _ hsound hallowed => hsound.step hallowed) hstart

/-- Whatever order the handler, the broadcasts and the heartbeat take turns in, at most
`maxClients` requests are detached, each is completed once, and those which are open at the end
are the one in the handler and those on the list.  The destructor leaves none. -/
theorem requests_of_run {steps : List SseStep}
    (h : Along (fun s e => (step s e).1) Allowed { maxClients } steps) :
    let s := reached step { maxClients } steps
    let log := requestLog (emitted step { maxClients } steps)
    Always (fun held => held.length ≤ maxClients) [] log ∧ replay [] log = some s.held ∧
      (s.shutdown = true → ∀ req, log.count (.opened req) = log.count (.closed req)) := by
  have hsound := sound_of_run h
  refine ⟨hsound.leaves.always, hsound.leaves.replayed, fun hdown req => ?_⟩
  obtain ⟨hidle, hnil⟩ := hsound.closed hdown
  have hheld : (reached step { maxClients } steps).held = [] := by
    rw [held, hidle, hnil]
    rfl
  have hcount := count_of_replay hsound.leaves.replayed req
  rwa [hheld, List.count_nil, Nat.zero_add, Nat.zero_add] at hcount

/-- A client is detached while another one is evicted. -/
def evictedMeanwhile : List SseStep :=
  [.handleEvents {}, .handleEvents { async := some 7 }, .handleEvents { send := some 1 },
    .handleEvents {}, .handleEvents {}, .handleEvents { async := some 8 },
    .heartbeat fun _ => none, .handleEvents { send := some 2 }, .handleEvents {}, .destroy]

theorem requests_of_evictedMeanwhile :
    Along (fun s e => (step s e).1) Allowed { maxClients := 2 } evictedMeanwhile ∧
      ∀ req, (requestLog (emitted step { maxClients := 2 } evictedMeanwhile)).count (.opened req) =
        (requestLog (emitted step { maxClients := 2 } evictedMeanwhile)).count (.closed req) := by
  have hallowed : Along (fun s e => (step s e).1) Allowed { maxClients := 2 } evictedMeanwhile := by
    decide
  exact ⟨hallowed, (requests_of_run hallowed).2.2 rfl⟩

/-! ### The stream of a client -/

/-- What one step puts on the stream of a client which stays. -/
def chunk (s : SseServer) : SseStep → Option (List UInt8)
  | .broadcast eventName data _ => some (makeSseFrame eventName data)
  | .heartbeat _ =>
      if s.heartbeatTask = true ∧ s.shutdown = false then some (makeSseComment kPing) else none
  | .handleEvents _ | .destroy => none

theorem framesTo_handleEvents (h : Sound maxClients s log) {req : ℕ}
    (hmem : req ∈ s.clients.map SseClient.req) (env : EventsEnv) :
    framesTo req (s.handleEvents env).2 = [] ∧
      req ∈ (s.handleEvents env).1.clients.map SseClient.req := by
  rw [SseServer.handleEvents]
  cases hhandler : s.handler with
  | idle =>
      dsimp only
      split_ifs <;> exact ⟨rfl, hmem⟩
  | counted =>
      cases env.async with
      | none => exact ⟨rfl, hmem⟩
      | some r => exact ⟨rfl, hmem⟩
  | detached r =>
      have hheld : s.held = r :: (s.clients.map SseClient.req).reverse := by
        rw [held, hhandler]
        rfl
      have hne : ¬ r = req := by
        rintro rfl
        exact (List.nodup_cons.mp (hheld ▸ h.nodup)).1 (List.mem_reverse.mpr hmem)
      cases env.send with
      | none => exact ⟨rfl, hmem⟩
      | some now =>
          refine ⟨by simp [framesTo, SseEffect.frameTo, hne], ?_⟩
          rw [List.map_append]
          exact List.mem_append_left _ hmem
  | listed => exact ⟨rfl, hmem⟩

/-- A listed client which is not evicted gets what the step says, and stays. -/
theorem framesTo_step (h : Sound maxClients s log) {req : ℕ} {e : SseStep}
    (hmem : req ∈ s.clients.map SseClient.req) (hlive : .completed req ∉ (s.step e).2) :
    framesTo req (s.step e).2 = (s.chunk e).toList ∧
      req ∈ (s.step e).1.clients.map SseClient.req := by
  have hall (frame : List UInt8) (send : ℕ → Option ℤ)
      (hstays : .completed req ∉ (SseServer.sendAll frame send s.clients).2) :
      framesTo req (SseServer.sendAll frame send s.clients).2 = [frame] ∧
        req ∈ (SseServer.sendAll frame send s.clients).1.map SseClient.req := by
    have hsend : send req ≠ none := fun hnone =>
      hstays ((completed_mem_sendAll_iff frame send s.clients).mpr ⟨hmem, hnone⟩)
    refine ⟨framesTo_sendAll frame send h.nodup_req hmem hsend, ?_⟩
    rw [map_req_sendAll, List.mem_filter]
    exact ⟨hmem, Option.isSome_iff_ne_none.mpr hsend⟩
  cases e with
  | handleEvents env => exact framesTo_handleEvents h hmem env
  | broadcast eventName data send => exact hall (makeSseFrame eventName data) send hlive
  | heartbeat send =>
      rw [SseServer.step, heartbeat] at hlive ⊢
      rw [chunk]
      cases htask : s.heartbeatTask with
      | false => exact ⟨rfl, hmem⟩
      | true =>
          cases hdown : s.shutdown with
          | true => exact ⟨rfl, hmem⟩
          | false =>
              rw [htask, hdown] at hlive
              exact hall (makeSseComment kPing) send hlive
  | destroy =>
      obtain ⟨c, hc, rfl⟩ := List.mem_map.mp hmem
      exact absurd (List.mem_map.mpr ⟨c, hc, rfl⟩) hlive

/-- The events which a step tells everyone on the list. -/
def Tells : SseStep → List Event → Prop
  | .broadcast eventName data _, told =>
      ∃ n d, eventName = encodeText n ∧ data = encodeText d ∧ (Sent.frame n d).Plain ∧
        told = (Sent.frame n d).events
  | .handleEvents _, told | .heartbeat _, told | .destroy, told => told = []

theorem plain_ping : (Sent.comment ['p', 'i', 'n', 'g']).Plain := by
  simp [Sent.Plain, NoLineEnd]

/-- The chunk of a step, as a frame or a comment. -/
theorem chunk_eq_bytes {e : SseStep} {told : List Event} (h : Tells e told) :
    ∃ sent : List Sent, (s.chunk e).toList = sent.map Sent.bytes ∧
      (∀ m ∈ sent, m.Plain) ∧ sent.flatMap Sent.events = told := by
  cases e with
  | handleEvents env => exact ⟨[], rfl, by simp, h.symm⟩
  | broadcast eventName data send =>
      obtain ⟨n, d, rfl, rfl, hplain, rfl⟩ := h
      exact ⟨[.frame n d], rfl, by simpa using hplain, by simp⟩
  | heartbeat send =>
      obtain rfl : told = [] := h
      rw [chunk]
      split_ifs
      · exact ⟨[.comment ['p', 'i', 'n', 'g']], rfl, by simpa using plain_ping, rfl⟩
      · exact ⟨[], rfl, by simp, rfl⟩
  | destroy => exact ⟨[], rfl, by simp, h.symm⟩

/-- What a listed client gets over a run. -/
theorem frames_of_run (h : Sound maxClients s log) {req : ℕ}
    (hmem : req ∈ s.clients.map SseClient.req) {steps : List SseStep} {told : List (List Event)}
    (hallowed : Along (fun s e => (step s e).1) Allowed s steps)
    (hlive : .completed req ∉ emitted step s steps) (htold : List.Forall₂ Tells steps told) :
    ∃ sent : List Sent, framesTo req (emitted step s steps) = sent.map Sent.bytes ∧
      (∀ m ∈ sent, m.Plain) ∧ sent.flatMap Sent.events = told.flatten := by
  induction htold generalizing s log with
  | nil => exact ⟨[], rfl, by simp, rfl⟩
  | @cons e events steps told hevents htold ih =>
      rw [emitted_cons, List.mem_append, not_or] at hlive
      obtain ⟨hframes, hstays⟩ := framesTo_step h hmem hlive.1
      obtain ⟨first, hchunk, hplain, htells⟩ := chunk_eq_bytes (s := s) hevents
      obtain ⟨rest, hrest, hplains, hevents⟩ := ih (h.step hallowed.1) hstays hallowed.2 hlive.2
      refine ⟨first ++ rest, ?_, ?_, ?_⟩
      · rw [emitted_cons, framesTo_append, hframes, hchunk, hrest, List.map_append]
      · intro m hm
        exact (List.mem_append.mp hm).elim (hplain m) (hplains m)
      · rw [List.flatMap_append, htells, hevents, List.flatten_cons]

theorem plain_welcome :
    (Sent.frame ['w', 'e', 'l', 'c', 'o', 'm', 'e'] ['\x7b', '\x7d']).Plain := by
  simp [Sent.Plain, NoLineEnd]

/-- A client which was welcomed and has not been evicted has read the welcome and then the
broadcasts since, all of them, once each and in their order. -/
theorem stream_of_client {pre post : List SseStep} {env : EventsEnv} {req : ℕ} {now : ℤ}
    {told : List (List Event)}
    (hallowed : Along (fun s e => (step s e).1) Allowed { maxClients }
      (pre ++ .handleEvents env :: post))
    (hdetached : (reached step { maxClients } pre).handler = .detached req)
    (hwelcome : env.send = some now)
    (hlive : .completed req ∉
      emitted step (reached step { maxClients } pre) (.handleEvents env :: post))
    (htold : List.Forall₂ Tells post told) :
    (decodeText? (framesTo req (emitted step (reached step { maxClients } pre)
        (.handleEvents env :: post))).flatten).map interpret =
      some ({ type := ['w', 'e', 'l', 'c', 'o', 'm', 'e'], data := ['\x7b', '\x7d'],
              lastEventId := [] } :: told.flatten) := by
  obtain ⟨hpre, hstep, hpost⟩ := (along_append _ _ _ pre _).mp hallowed
  have hsound := (sound_of_run hpre).step hstep
  let s := reached step { maxClients } pre
  have hwelcomed : s.step (.handleEvents env) =
      ({ s with
          clients := s.clients ++ [{ req := req, lastHeartbeatUs := now }]
          handler := .listed },
        [.sent req (makeSseFrame kWelcomeEvent kWelcomePayload)]) := by
    rw [SseServer.step, SseServer.handleEvents, hdetached, hwelcome]
  have hmem : req ∈ (s.step (.handleEvents env)).1.clients.map SseClient.req := by
    rw [hwelcomed]
    simp
  rw [emitted_cons, List.mem_append, not_or] at hlive
  obtain ⟨rest, hrest, hplain, hevents⟩ :=
    frames_of_run hsound hmem hpost hlive.2 htold
  have hframes : framesTo req (emitted step s (.handleEvents env :: post)) =
      (Sent.frame ['w', 'e', 'l', 'c', 'o', 'm', 'e'] ['\x7b', '\x7d'] :: rest).map Sent.bytes := by
    rw [emitted_cons, framesTo_append, hrest, hwelcomed]
    simp [framesTo, SseEffect.frameTo, Sent.bytes, kWelcomeEvent, kWelcomePayload]
  rw [hframes, ← List.flatMap_def, Sent.interpret_stream, List.flatMap_cons, hevents]
  · rfl
  · intro m hm
    rcases List.mem_cons.mp hm with rfl | hm
    · exact plain_welcome
    · exact hplain m hm

theorem stream_of_client_status :
    (decodeText? (framesTo 7 (emitted step { maxClients := 4, handler := .detached 7 }
        [.handleEvents { send := some 1 }, .handleEvents {},
          .broadcast (encodeText ['s']) (encodeText ['1']) fun _ => some 2,
          .heartbeat fun _ => some 3])).flatten).map interpret =
      some [{ type := ['w', 'e', 'l', 'c', 'o', 'm', 'e'], data := ['\x7b', '\x7d'],
              lastEventId := [] },
            { type := ['s'], data := ['1'], lastEventId := [] }] := by
  have htold : List.Forall₂ Tells
      [.handleEvents {}, .broadcast (encodeText ['s']) (encodeText ['1']) fun _ => some 2,
        .heartbeat fun _ => some 3]
      [[], [{ type := ['s'], data := ['1'], lastEventId := [] }], []] :=
    .cons rfl (.cons ⟨['s'], ['1'], rfl, rfl, by simp [Sent.Plain, NoLineEnd], rfl⟩
      (.cons rfl .nil))
  have hallowed : Along (fun s e => (step s e).1) Allowed { maxClients := 4 }
      ([.handleEvents {}, .handleEvents { async := some 7 }] ++
        .handleEvents { send := some 1 } :: [.handleEvents {},
          .broadcast (encodeText ['s']) (encodeText ['1']) fun _ => some 2,
          .heartbeat fun _ => some 3]) := by
    decide
  exact stream_of_client hallowed rfl rfl (by decide) htold

end SseServer

end BtClock
