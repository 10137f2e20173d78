import BtClock.Nostr.SubscriptionManager
import BtClock.Transition.Run
import Mathlib.Logic.Function.Basic

/-!
# The subscriptions which a relay holds

A subscription is kept in the manager and told to the relay.  The owner subscribes and
unsubscribes on one task while the task of the socket tells a new session all of them, and the
link can go down at any time.
-/

namespace BtClock

namespace Nostr

open Transition

/-- What a client says to a relay. -/
inductive RelayMessage
  | req (subId : String) (filter : Filter)
  | close (subId : String)
  deriving DecidableEq, Repr

/-- A `REQ` opens a subscription or replaces the one with its id. -/
def RelayMessage.apply (opened : String → Option Filter) :
    RelayMessage → String → Option Filter
  | .req subId filter => Function.update opened subId (some filter)
  | .close subId => Function.update opened subId none

/-- Where a call of `Subscribe` or `Unsubscribe` is. -/
inductive Caller
  | idle
  /-- Behind the lock. -/
  | changed (m : RelayMessage)
  /-- The relay was connected. -/
  | sending (m : RelayMessage)
  deriving DecidableEq, Repr

/-- Where the task of the socket is in `HandleEvent`. -/
inductive SocketTask
  | idle
  /-- `connected_` is set. -/
  | connected
  /-- What is left of the copy of `ReissueAll`. -/
  | reissuing (rest : List (String × Filter))
  deriving DecidableEq, Repr

/-- What is left of a copy. -/
def SocketTask.copy : SocketTask → List (String × Filter)
  | .reissuing rest => rest
  | .idle | .connected => []

/-- The two tasks, and the relay's side of the session. -/
structure RelaySession where
  manager : SubscriptionManager := {}
  connected : Bool := false
  caller : Caller := .idle
  socket : SocketTask := .idle
  /-- What is sent gets through. -/
  up : Bool := false
  opened : String → Option Filter := fun _ => none

inductive SessionStep
  | subscribe (subId : String) (filter : Filter)
  | unsubscribe (subId : String)
  | caller
  | socketConnected
  | socket
  | socketDisconnected
  | linkLost
  deriving DecidableEq, Repr

namespace RelaySession

def sendText (s : RelaySession) (m : RelayMessage) : RelaySession :=
  if s.connected ∧ s.up then { s with opened := m.apply s.opened } else s

/-- The first part of `Subscribe`. -/
def subscribe (s : RelaySession) (subId : String) (filter : Filter) : RelaySession :=
  match s.manager.subscribe subId filter with
  | none => s
  | some manager => { s with manager, caller := .changed (.req subId filter) }

/-- The first part of `Unsubscribe`. -/
def unsubscribe (s : RelaySession) (subId : String) : RelaySession :=
  if s.manager.subs.any fun sub => sub.1 == subId then
    { s with manager := s.manager.unsubscribe subId, caller := .changed (.close subId) }
  else s

/-- The rest of both. -/
def callerTurn (s : RelaySession) : RelaySession :=
  match s.caller with
  | .idle => s
  | .changed m => { s with caller := if s.connected then .sending m else .idle }
  | .sending m => { s.sendText m with caller := .idle }

/-- `ReissueAll`, by turns. -/
def socketTurn (s : RelaySession) : RelaySession :=
  match s.socket with
  | .idle => s
  | .connected => { s with socket := .reissuing s.manager.subs }
  | .reissuing [] => { s with socket := .idle }
  | .reissuing (sub :: rest) =>
      { s.sendText (.req sub.1 sub.2) with socket := .reissuing rest }

/-- A task takes a call or an event when it is done with the one before. -/
def step (s : RelaySession) : SessionStep → RelaySession
  | .subscribe subId filter => if s.caller = .idle then s.subscribe subId filter else s
  | .unsubscribe subId => if s.caller = .idle then s.unsubscribe subId else s
  | .caller => s.callerTurn
  | .socketConnected =>
      if s.socket = .idle then
        { s with connected := true, up := true, opened := fun _ => none, socket := .connected }
      else s
  | .socket => s.socketTurn
  | .socketDisconnected =>
      if s.socket = .idle then { s with connected := false, up := false } else s
  | .linkLost => { s with up := false }

/-- What the caller is about to send. -/
def pending (s : RelaySession) : Option RelayMessage :=
  match s.caller with
  | .idle => none
  | .changed m | .sending m => some m

/-- What the socket task is about to send. -/
def rest (s : RelaySession) : List (String × Filter) :=
  match s.socket with
  | .idle => []
  | .connected => s.manager.subs
  | .reissuing rest => rest

variable {s : RelaySession}

theorem rest_of_connected (h : s.socket = .connected) : s.rest = s.manager.subs := by
  rw [rest, h]

theorem rest_eq_copy (h : s.socket ≠ .connected) : s.rest = s.socket.copy := by
  rw [rest]
  cases hs : s.socket with
  | idle => rfl
  | connected => exact absurd hs h
  | reissuing rest => rfl

theorem rest_eq_of_ne_connected {s' : RelaySession} (h : s.socket ≠ .connected)
    (hsocket : s'.socket = s.socket) : s'.rest = s.rest := by
  rw [rest_eq_copy h, rest_eq_copy (hsocket ▸ h), hsocket]

section

variable (m : RelayMessage)

@[simp]
theorem manager_sendText : (s.sendText m).manager = s.manager := by
  rw [sendText]
  split_ifs <;> rfl

@[simp]
theorem connected_sendText : (s.sendText m).connected = s.connected := by
  rw [sendText]
  split_ifs <;> rfl

@[simp]
theorem up_sendText : (s.sendText m).up = s.up := by
  rw [sendText]
  split_ifs <;> rfl

@[simp]
theorem caller_sendText : (s.sendText m).caller = s.caller := by
  rw [sendText]
  split_ifs <;> rfl

@[simp]
theorem socket_sendText : (s.sendText m).socket = s.socket := by
  rw [sendText]
  split_ifs <;> rfl

theorem opened_sendText (hconnected : s.connected = true) (hup : s.up = true) :
    (s.sendText m).opened = m.apply s.opened := by
  rw [sendText, if_pos ⟨hconnected, hup⟩]

end

/-- The subscriptions behind the lock, by the message which will tell of the change. -/
def Changed (subs subs' : List (String × Filter)) : RelayMessage → Prop
  | .req subId filter =>
      (∀ f, (subId, f) ∉ subs) ∧
        ∀ id f, (id, f) ∈ subs' ↔ (id, f) ∈ subs ∨ id = subId ∧ f = filter
  | .close subId => ∀ id f, (id, f) ∈ subs' ↔ (id, f) ∈ subs ∧ id ≠ subId

/-- A call which changes the subscriptions changes nothing else so far. -/
structure Called (s s' : RelaySession) (m : RelayMessage) : Prop where
  subs : Changed s.manager.subs s'.manager.subs m
  pending : s'.pending = some m
  connected : s'.connected = s.connected
  socket : s'.socket = s.socket
  up : s'.up = s.up
  opened : s'.opened = s.opened

theorem subscribe_called (s : RelaySession) (subId : String) (filter : Filter) :
    s.subscribe subId filter = s ∨ Called s (s.subscribe subId filter) (.req subId filter) := by
  rw [subscribe, SubscriptionManager.subscribe]
  split_ifs with h
  · exact .inl rfl
  · refine .inr ⟨⟨fun f hmem => h ?_, fun id f => ?_⟩, rfl, rfl, rfl, rfl, rfl⟩
    · exact List.any_eq_true.mpr ⟨(subId, f), hmem, by simp⟩
    · simp

theorem unsubscribe_called (s : RelaySession) (subId : String) :
    s.unsubscribe subId = s ∨ Called s (s.unsubscribe subId) (.close subId) := by
  rw [unsubscribe]
  split_ifs with h
  · exact .inr ⟨fun id f => by simp [SubscriptionManager.unsubscribe], rfl, rfl, rfl, rfl, rfl⟩
  · exact .inl rfl

/-- What is sent gets to the relay. -/
def Live (s : RelaySession) : Prop :=
  s.connected = true ∧ s.up = true

/-- A step which neither changes the subscriptions nor tells of them. -/
structure Quiet (s s' : RelaySession) : Prop where
  manager : s'.manager = s.manager
  rest : s'.rest = s.rest
  opened : s'.opened = s.opened
  live : s'.Live → s.Live ∧ s'.pending = s.pending
  pending : s'.pending = s.pending ∨ s'.pending = none

/-- A step which tells of a change. -/
structure Told (s s' : RelaySession) (m : RelayMessage) : Prop where
  manager : s'.manager = s.manager
  live : s'.Live → s.Live
  opened : s.Live → s'.opened = m.apply s.opened

/-- All that a step can do. -/
inductive StepCase (e : SessionStep) (s s' : RelaySession) : Prop
  | quiet (h : Quiet s s')
  | called (m : RelayMessage) (hidle : s.caller = .idle) (h : Called s s' m)
      (hclose : ∀ id, m = .close id → e = .unsubscribe id)
  | connected (hmanager : s'.manager = s.manager) (hpending : s'.pending = s.pending)
      (hsocket : s'.socket = .connected) (hopened : s'.opened = fun _ => none)
  | caller (m : RelayMessage) (h : Told s s' m) (hpending : s.pending = some m)
      (hnone : s'.pending = none) (hrest : s'.rest = s.rest)
  | socket (sub : String × Filter) (h : Told s s' (.req sub.1 sub.2))
      (hpending : s'.pending = s.pending) (hrest : s.rest = sub :: s'.rest)

theorem quiet_self (s : RelaySession) : Quiet s s :=
  ⟨rfl, rfl, rfl, fun h => ⟨h, rfl⟩, .inl rfl⟩

theorem told_sendText (m : RelayMessage) {s' : RelaySession}
    (hmanager : s'.manager = s.manager) (hconnected : s'.connected = s.connected)
    (hup : s'.up = s.up) (hopened : s'.opened = (s.sendText m).opened) : Told s s' m where
  manager := hmanager
  live h := ⟨hconnected.symm.trans h.1, hup.symm.trans h.2⟩
  opened h := hopened.trans (opened_sendText m h.1 h.2)

theorem callerTurn_cases (e : SessionStep) (s : RelaySession) : StepCase e s s.callerTurn := by
  rw [callerTurn]
  cases hcaller : s.caller with
  | idle => exact .quiet (quiet_self s)
  | changed m =>
      have hpending : s.pending = some m := by rw [pending, hcaller]
      refine .quiet ⟨rfl, rfl, rfl, fun h => ⟨h, ?_⟩, ?_⟩
      · have hconnected : s.connected = true := h.1
        rw [hpending, pending, hconnected]
        rfl
      · cases hconnected : s.connected
        · exact .inr rfl
        · exact .inl hpending.symm
  | sending m =>
      refine .caller m ?_ (by rw [pending, hcaller]) rfl ?_
      · exact told_sendText m (manager_sendText m) (connected_sendText m) (up_sendText m) rfl
      · simp [rest]

theorem socketTurn_cases (e : SessionStep) (s : RelaySession) : StepCase e s s.socketTurn := by
  rw [socketTurn]
  cases hsocket : s.socket with
  | idle => exact .quiet (quiet_self s)
  | connected =>
      refine .quiet ⟨rfl, ?_, rfl, fun h => ⟨h, rfl⟩, .inl rfl⟩
      rw [rest_of_connected hsocket]
      rfl
  | reissuing left =>
      have hrest : s.rest = left := by rw [rest, hsocket]
      cases left with
      | nil => exact .quiet ⟨rfl, hrest.symm, rfl, fun h => ⟨h, rfl⟩, .inl rfl⟩
      | cons sub left =>
          refine .socket sub ?_ ?_ hrest
          · exact told_sendText _ (manager_sendText _) (connected_sendText _) (up_sendText _) rfl
          · simp [pending]

theorem step_cases (s : RelaySession) (e : SessionStep) : StepCase e s (s.step e) := by
  cases e with
  | subscribe subId filter =>
      rw [step]
      split_ifs with hidle
      · rcases subscribe_called s subId filter with heq | hcalled
        · exact .quiet (heq.symm ▸ quiet_self s)
        · exact .called _ hidle hcalled (by simp)
      · exact .quiet (quiet_self s)
  | unsubscribe subId =>
      rw [step]
      split_ifs with hidle
      · rcases unsubscribe_called s subId with heq | hcalled
        · exact .quiet (heq.symm ▸ quiet_self s)
        · exact .called _ hidle hcalled fun id hid => by rw [(RelayMessage.close.inj hid)]
      · exact .quiet (quiet_self s)
  | caller => exact callerTurn_cases _ s
  | socketConnected =>
      rw [step]
      split_ifs
      · exact .connected rfl rfl rfl rfl
      · exact .quiet (quiet_self s)
  | socket => exact socketTurn_cases _ s
  | socketDisconnected =>
      rw [step]
      split_ifs
      · exact .quiet ⟨rfl, rfl, rfl, fun h => (Bool.false_ne_true h.1).elim, .inl rfl⟩
      · exact .quiet (quiet_self s)
  | linkLost => exact .quiet ⟨rfl, rfl, rfl, fun h => (Bool.false_ne_true h.2).elim, .inl rfl⟩

/-! ### The manager and the caller -/

/-- The ids of the manager are unique, and what the caller says agrees with it. -/
structure Consistent (s : RelaySession) : Prop where
  unique : ∀ id f g, (id, f) ∈ s.manager.subs → (id, g) ∈ s.manager.subs → f = g
  req : ∀ id f, s.pending = some (.req id f) → (id, f) ∈ s.manager.subs
  close : ∀ id f, s.pending = some (.close id) → (id, f) ∉ s.manager.subs

theorem Consistent.called (h : s.Consistent) {s' : RelaySession} {m : RelayMessage}
    (hcalled : Called s s' m) : s'.Consistent := by
  have hpending := hcalled.pending
  cases m with
  | req subId filter =>
      obtain ⟨hfree, hsubs⟩ := hcalled.subs
      refine ⟨fun id f g hf hg => ?_, fun id f hreq => ?_, fun id f hclose => ?_⟩
      · rcases (hsubs id f).mp hf with hf | ⟨rfl, rfl⟩
        · rcases (hsubs id g).mp hg with hg | ⟨rfl, rfl⟩
          · exact h.unique id f g hf hg
          · exact absurd hf (hfree f)
        · rcases (hsubs id g).mp hg with hg | ⟨-, rfl⟩
          · exact absurd hg (hfree g)
          · rfl
      · obtain ⟨rfl, rfl⟩ : subId = id ∧ filter = f := by simpa [hpending] using hreq
        exact (hsubs subId filter).mpr (.inr ⟨rfl, rfl⟩)
      · simp [hpending] at hclose
  | close subId =>
      have hsubs := hcalled.subs
      refine ⟨fun id f g hf hg => ?_, fun id f hreq => ?_, fun id f hclose hmem => ?_⟩
      · exact h.unique id f g ((hsubs id f).mp hf).1 ((hsubs id g).mp hg).1
      · simp [hpending] at hreq
      · obtain rfl : subId = id := by simpa [hpending] using hclose
        exact ((hsubs subId f).mp hmem).2 rfl

theorem Consistent.congr (h : s.Consistent) {s' : RelaySession} (hmanager : s'.manager = s.manager)
    (hpending : s'.pending = s.pending ∨ s'.pending = none) : s'.Consistent where
  unique := by
    rw [hmanager]
    exact h.unique
  req id f hreq := by
    rw [hmanager]
    rcases hpending with hpending | hpending
    · exact h.req id f (hpending ▸ hreq)
    · rw [hpending] at hreq
      cases hreq
  close id f hclose := by
    rw [hmanager]
    rcases hpending with hpending | hpending
    · exact h.close id f (hpending ▸ hclose)
    · rw [hpending] at hclose
      cases hclose

theorem Consistent.step (h : s.Consistent) (e : SessionStep) : (s.step e).Consistent := by
  cases step_cases s e with
  | quiet hquiet => exact h.congr hquiet.manager hquiet.pending
  | called m _ hcalled _ => exact h.called hcalled
  | connected hmanager hpending _ _ => exact h.congr hmanager (.inl hpending)
  | caller m htold _ hnone _ => exact h.congr htold.manager (.inr hnone)
  | socket sub htold hpending _ => exact h.congr htold.manager (.inl hpending)

/-! ### What the relay holds -/

/-- Each subscription is open at the relay or about to be told to it, up to the filter. -/
def CoveredUpTo (R : Filter → Filter → Prop) (s : RelaySession) : Prop :=
  s.Live → ∀ id f, (id, f) ∈ s.manager.subs →
    (∃ g, s.opened id = some g ∧ R f g) ∨ s.pending = some (.req id f) ∨
      ∃ g, (id, g) ∈ s.rest ∧ R f g

section

variable {R : Filter → Filter → Prop} [Std.Refl R]

theorem coveredUpTo_of_connected (h : s.socket = .connected) : s.CoveredUpTo R := by
  intro _ id f hmem
  refine .inr (.inr ⟨f, ?_, refl f⟩)
  rwa [rest_of_connected h]

theorem CoveredUpTo.called (h : s.CoveredUpTo R) (hcaller : s.caller = .idle)
    {s' : RelaySession} {m : RelayMessage} (hcalled : Called s s' m) : s'.CoveredUpTo R := by
  by_cases hsocket : s.socket = .connected
  · exact coveredUpTo_of_connected (hcalled.socket.trans hsocket)
  · intro hlive id f hmem
    have hlive' : s.Live :=
      ⟨hcalled.connected.symm.trans hlive.1, hcalled.up.symm.trans hlive.2⟩
    have hold (hmem : (id, f) ∈ s.manager.subs) := h hlive' id f hmem
    have hidle : s.pending = none := by rw [pending, hcaller]
    rw [hidle] at hold
    rw [rest_eq_of_ne_connected hsocket hcalled.socket, hcalled.opened, hcalled.pending]
    cases m with
    | req subId filter =>
        rcases (hcalled.subs.2 id f).mp hmem with hmem | ⟨rfl, rfl⟩
        · exact (hold hmem).imp_right fun hrest => .inr (hrest.resolve_left (by simp))
        · exact .inr (.inl rfl)
    | close subId =>
        exact (hold ((hcalled.subs id f).mp hmem).1).imp_right fun hrest =>
          .inr (hrest.resolve_left (by simp))

/-- A filter which is told, in whatever order, agrees with the manager. -/
theorem CoveredUpTo.step (h : s.CoveredUpTo R) (hs : s.Consistent)
    (hrest : ∀ id f g, (id, g) ∈ s.rest → (id, f) ∈ s.manager.subs → R f g) (e : SessionStep) :
    (s.step e).CoveredUpTo R := by
  cases step_cases s e with
  | quiet hquiet =>
      intro hlive
      obtain ⟨hlive, hpending⟩ := hquiet.live hlive
      rw [hquiet.manager, hquiet.rest, hquiet.opened, hpending]
      exact h hlive
  | called m hidle hcalled _ => exact h.called hidle hcalled
  | connected _ _ hsocket _ => exact coveredUpTo_of_connected hsocket
  | caller m htold hpending hnone hsame =>
      intro hlive id f hmem
      have hlive := htold.live hlive
      rw [htold.manager] at hmem
      rw [htold.opened hlive, hsame]
      cases m with
      | req subId filter =>
          by_cases hid : id = subId
          · subst hid
            obtain rfl := hs.unique id f filter hmem (hs.req id filter hpending)
            exact .inl ⟨f, Function.update_self .., refl f⟩
          · rw [RelayMessage.apply, Function.update_of_ne hid]
            rcases h hlive id f hmem with hopen | hreq | hleft
            · exact .inl hopen
            · rw [hpending] at hreq
              exact absurd (RelayMessage.req.inj (Option.some.inj hreq)).1.symm hid
            · exact .inr (.inr hleft)
      | close subId =>
          have hid : id ≠ subId := by
            rintro rfl
            exact hs.close id f hpending hmem
          rw [RelayMessage.apply, Function.update_of_ne hid]
          rcases h hlive id f hmem with hopen | hreq | hleft
          · exact .inl hopen
          · simp [hpending] at hreq
          · exact .inr (.inr hleft)
  | socket sub htold hpending hleft =>
      intro hlive id f hmem
      have hlive := htold.live hlive
      rw [htold.manager] at hmem
      rw [htold.opened hlive, RelayMessage.apply, hpending]
      by_cases hid : id = sub.1
      · refine .inl ⟨sub.2, by rw [hid, Function.update_self], hrest id f sub.2 ?_ hmem⟩
        rw [hleft, hid]
        exact List.mem_cons_self
      · rw [Function.update_of_ne hid]
        rcases h hlive id f hmem with hopen | hreq | ⟨g, hg, hR⟩
        · exact .inl hopen
        · exact .inr (.inl hreq)
        · rw [hleft] at hg
          rcases List.mem_cons.mp hg with heq | hg
          · exact absurd (congrArg Prod.fst heq) hid
          · exact .inr (.inr ⟨g, hg, hR⟩)

end

/-- A subscription which is being told again is not taken back. -/
def SparesReissue (s : RelaySession) : SessionStep → Prop
  | .unsubscribe subId => ∀ sub ∈ s.socket.copy, sub.1 ≠ subId
  | _ => True

instance (s : RelaySession) : (e : SessionStep) → Decidable (s.SparesReissue e)
  | .unsubscribe subId => inferInstanceAs (Decidable (∀ sub ∈ s.socket.copy, sub.1 ≠ subId))
  | .subscribe _ _ | .caller | .socketConnected | .socket | .socketDisconnected | .linkLost =>
      isTrue trivial

/-- Nothing else is open or about to be told. -/
structure Exact (s : RelaySession) : Prop where
  rest : ∀ sub ∈ s.rest, sub ∈ s.manager.subs
  opened : s.Live → ∀ id f, s.opened id = some f →
    (id, f) ∈ s.manager.subs ∨ s.pending = some (.close id)

theorem Exact.called (h : s.Exact) (hcaller : s.caller = .idle) {s' : RelaySession}
    {m : RelayMessage} (hcalled : Called s s' m)
    (hspares : ∀ id, m = .close id → ∀ sub ∈ s.socket.copy, sub.1 ≠ id) :
    s'.Exact where
  rest sub hsub := by
    by_cases hsocket : s.socket = .connected
    · rwa [rest_of_connected (hcalled.socket.trans hsocket)] at hsub
    · rw [rest_eq_of_ne_connected hsocket hcalled.socket] at hsub
      have hmem := h.rest sub hsub
      cases m with
      | req subId filter => exact (hcalled.subs.2 sub.1 sub.2).mpr (.inl hmem)
      | close subId =>
          refine (hcalled.subs sub.1 sub.2).mpr ⟨hmem, hspares subId rfl sub ?_⟩
          rwa [rest_eq_copy hsocket] at hsub
  opened hlive id f hopen := by
    have hlive' : s.Live :=
      ⟨hcalled.connected.symm.trans hlive.1, hcalled.up.symm.trans hlive.2⟩
    have hidle : s.pending = none := by rw [pending, hcaller]
    rw [hcalled.opened] at hopen
    rw [hcalled.pending]
    have hmem := (h.opened hlive' id f hopen).resolve_right (by simp [hidle])
    cases m with
    | req subId filter => exact .inl ((hcalled.subs.2 id f).mpr (.inl hmem))
    | close subId =>
        by_cases hid : id = subId
        · exact .inr (by rw [hid])
        · exact .inl ((hcalled.subs id f).mpr ⟨hmem, hid⟩)

theorem Exact.step (h : s.Exact) (hs : s.Consistent) {e : SessionStep}
    (hspares : s.SparesReissue e) : (s.step e).Exact := by
  cases step_cases s e with
  | quiet hquiet =>
      refine ⟨?_, fun hlive => ?_⟩
      · rw [hquiet.rest, hquiet.manager]
        exact h.rest
      · obtain ⟨hlive, hpending⟩ := hquiet.live hlive
        rw [hquiet.opened, hquiet.manager, hpending]
        exact h.opened hlive
  | called m hidle hcalled hclose =>
      refine h.called hidle hcalled fun id hid => ?_
      rwa [hclose id hid] at hspares
  | connected hmanager hpending hsocket hopened =>
      refine ⟨fun sub hsub => ?_, fun _ id f hopen => ?_⟩
      · rwa [rest_of_connected hsocket] at hsub
      · simp [hopened] at hopen
  | caller m htold hpending hnone hsame =>
      refine ⟨?_, fun hlive id f hopen => .inl ?_⟩
      · rw [hsame, htold.manager]
        exact h.rest
      · have hlive := htold.live hlive
        rw [htold.opened hlive] at hopen
        rw [htold.manager]
        cases m with
        | req subId filter =>
            by_cases hid : id = subId
            · subst hid
              rw [RelayMessage.apply, Function.update_self] at hopen
              obtain rfl := Option.some.inj hopen
              exact hs.req id filter hpending
            · rw [RelayMessage.apply, Function.update_of_ne hid] at hopen
              exact (h.opened hlive id f hopen).resolve_right (by simp [hpending])
        | close subId =>
            by_cases hid : id = subId
            · simp [RelayMessage.apply, hid] at hopen
            · rw [RelayMessage.apply, Function.update_of_ne hid] at hopen
              exact (h.opened hlive id f hopen).resolve_right (by simp [hpending, Ne.symm hid])
  | socket sub htold hpending hleft =>
      have hsub : sub ∈ s.manager.subs := h.rest sub (hleft ▸ List.mem_cons_self)
      refine ⟨fun other hother => ?_, fun hlive id f hopen => ?_⟩
      · rw [htold.manager]
        exact h.rest other (hleft ▸ List.mem_cons_of_mem sub hother)
      · have hlive := htold.live hlive
        rw [htold.opened hlive, RelayMessage.apply] at hopen
        rw [htold.manager, hpending]
        by_cases hid : id = sub.1
        · rw [hid, Function.update_self] at hopen
          obtain rfl := Option.some.inj hopen
          exact .inl (hid ▸ hsub)
        · rw [Function.update_of_ne hid] at hopen
          exact h.opened hlive id f hopen

theorem Exact.filter_eq (h : s.Exact) (hs : s.Consistent) (id : String) (f g : Filter)
    (hg : (id, g) ∈ s.rest) (hf : (id, f) ∈ s.manager.subs) : f = g :=
  hs.unique id f g hf (h.rest (id, g) hg)

/-- Both tasks are done, and the session goes on. -/
def AtRest (s : RelaySession) : Prop :=
  s.caller = .idle ∧ s.socket = .idle ∧ s.Live

theorem consistent_init : Consistent {} :=
  ⟨by simp, by simp [pending], by simp [pending]⟩

theorem AtRest.opened (hrest : s.AtRest) {R : Filter → Filter → Prop} (h : s.CoveredUpTo R)
    {id : String} {f : Filter} (hmem : (id, f) ∈ s.manager.subs) :
    ∃ g, s.opened id = some g ∧ R f g := by
  obtain ⟨hcaller, hsocket, hlive⟩ := hrest
  rcases h hlive id f hmem with hopen | hpending | ⟨g, hg, -⟩
  · exact hopen
  · simp [pending, hcaller] at hpending
  · simp [rest, hsocket] at hg

/-- Whenever the session is at rest, whatever happened to this one and to those before, every
subscription is open at the relay.  Nothing else is open, and each has its own filter, unless
one was taken back while it was being told again. -/
theorem opened_of_run {steps : List SessionStep} (hrest : (run step {} steps).AtRest) :
    let s := run step {} steps
    (∀ id f, (id, f) ∈ s.manager.subs → s.opened id ≠ none) ∧
      (Along step SparesReissue {} steps →
        ∀ id f, s.opened id = some f ↔ (id, f) ∈ s.manager.subs) := by
  constructor
  · intro id f hmem
    have : Std.Refl fun _ _ : Filter => True := ⟨fun _ => trivial⟩
    have hrun : (run step {} steps).Consistent ∧
        (run step {} steps).CoveredUpTo fun _ _ => True := by
      refine run_invariant
        (I := fun s : RelaySession => s.Consistent ∧ s.CoveredUpTo fun _ _ => True)
        (fun s e h => ⟨h.1.step e, h.2.step h.1 (by simp) e⟩) ?_ steps
      exact ⟨consistent_init, fun hlive => (Bool.false_ne_true hlive.1).elim⟩
    obtain ⟨g, hopen, -⟩ := hrest.opened hrun.2 hmem
    rw [hopen]
    exact Option.some_ne_none g
  · intro hspares id f
    obtain ⟨-, hcovered, hexact⟩ : (run step {} steps).Consistent ∧
        (run step {} steps).CoveredUpTo Eq ∧ (run step {} steps).Exact := by
      refine hspares.invariant
        (I := fun s : RelaySession => s.Consistent ∧ s.CoveredUpTo Eq ∧ s.Exact)
        (fun s e h he => ⟨h.1.step e, h.2.1.step h.1 (h.2.2.filter_eq h.1) e,
          h.2.2.step h.1 he⟩) ?_
      refine ⟨consistent_init, fun hlive => (Bool.false_ne_true hlive.1).elim, ?_⟩
      exact ⟨by simp [rest], fun hlive => (Bool.false_ne_true hlive.1).elim⟩
    constructor
    · intro hopen
      refine (hexact.opened hrest.2.2 id f hopen).resolve_right ?_
      simp [pending, hrest.1]
    · intro hmem
      obtain ⟨g, hopen, rfl⟩ := hrest.opened hcovered hmem
      exact hopen

/-- Taken back between the copy and the `REQ`, a subscription is opened again behind its
`CLOSE`. -/
theorem opened_of_unsubscribe_reissuing :
    let s := run step {} [.subscribe "zap-0" {}, .caller, .socketConnected, .socket,
      .unsubscribe "zap-0", .caller, .caller, .socket, .socket]
    s.AtRest ∧ s.manager.subs = [] ∧ s.opened "zap-0" = some {} := by
  refine ⟨⟨?_, ?_, ?_, ?_⟩, ?_, ?_⟩ <;> decide

theorem opened_of_run_reconnected :
    let s := run step {} [.subscribe "zap-0" {}, .caller, .socketConnected, .socket, .socket,
      .socket, .linkLost, .subscribe "btclock-v1-0" {}, .caller, .socketDisconnected, .caller,
      .socketConnected, .socket, .unsubscribe "btclock-v2", .socket, .socket, .socket]
    s.opened "btclock-v1-0" = some {} ∧ s.opened "zap-0" ≠ none := by
  have hrest : (run step {} [.subscribe "zap-0" {}, .caller, .socketConnected, .socket, .socket,
      .socket, .linkLost, .subscribe "btclock-v1-0" {}, .caller, .socketDisconnected, .caller,
      .socketConnected, .socket, .unsubscribe "btclock-v2", .socket, .socket, .socket]).AtRest :=
    ⟨by decide, by decide, by decide, by decide⟩
  obtain ⟨hall, hexact⟩ := opened_of_run hrest
  exact ⟨(hexact (by decide) "btclock-v1-0" {}).mpr (by decide), hall "zap-0" {} (by decide)⟩

end RelaySession

end Nostr

end BtClock
