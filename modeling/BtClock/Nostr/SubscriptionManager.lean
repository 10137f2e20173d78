import BtClock.Nostr.Event

/-!
# Subscription managers, zap listeners and their wiring

A `SubscriptionManager` keeps the filters of its subscriptions and one event callback.
A `NostrDataSource` installs its callback at `Start`; the constructor of a `ZapListener`
installs one as well.  The listeners are heap objects: a callback holds a reference to
the object which installed it, and that object may be gone by the time of a call.
-/

namespace BtClock

namespace Nostr

/-- The subset of the filter fields which the firmware uses. -/
structure Filter where
  kinds : List UInt32 := []
  authors : List String := []
  dTags : List String := []
  pTags : List String := []
  since : UInt64 := 0
  limit : ℕ := 0
  deriving DecidableEq, Repr

/-- The callback held by a manager. -/
inductive EventCallback
  | none
  | dataSource (source : ℕ)
  | zapListener (object : ℕ)
  deriving DecidableEq, Repr

structure SubscriptionManager where
  subs : List (String × Filter) := []
  onEvent : EventCallback := .none
  deriving DecidableEq, Repr

namespace SubscriptionManager

def setOnEvent (m : SubscriptionManager) (cb : EventCallback) : SubscriptionManager :=
  { m with onEvent := cb }

/-- Opens a subscription, unless its id is in use. -/
def subscribe (m : SubscriptionManager) (subId : String) (filter : Filter) :
    Option SubscriptionManager :=
  if m.subs.any fun s => s.1 == subId then .none
  else some { m with subs := m.subs ++ [(subId, filter)] }

def unsubscribe (m : SubscriptionManager) (subId : String) : SubscriptionManager :=
  { m with subs := m.subs.filter fun s => s.1 != subId }

end SubscriptionManager

/-- The manager of a data source's relay, or of a relay opened for the zaps alone. -/
inductive ManagerRef
  | source (source : ℕ)
  | dedicated (relay : ℕ)
  deriving DecidableEq, Repr

/-- The configuration of a started data source. -/
structure SourceConfig where
  relayUrl : String
  authorPubkeyHex : String
  subId : String
  deriving DecidableEq, Repr

/-- A zap listener object. -/
structure ZapListenerObject where
  manager : ManagerRef
  subId : String
  recipients : List String
  started : Bool := false
  deriving DecidableEq, Repr

/-- The settings which the zap listeners read. -/
structure ZapListenerConfig where
  enabled : Bool
  relayUrls : List String
  zapPubkeys : List String
  ledFlashOnZap : Bool := true
  frontlightFlashOnZap : Bool := true
  zapScreenNotify : Bool := true
  zapScreenAutoRestore : Bool := true
  deriving DecidableEq, Repr

/-- Lower case of an ASCII letter. -/
def toLowerAscii (c : Char) : Char :=
  if 'A' ≤ c ∧ c ≤ 'Z' then Char.ofNat (c.toNat + 32) else c

/-- Drops a single trailing slash. -/
def stripSlash (s : List Char) : List Char :=
  if s.getLast? = some '/' then s.dropLast else s

def shouldShareNostrRelay (a b : String) : Bool :=
  if a = "" ∨ b = "" then false
  else
    decide ((stripSlash a.toList).map toLowerAscii =
      (stripSlash b.toList).map toLowerAscii)

/-- Does the url have a scheme of a web socket? -/
def hasWsScheme (url : String) : Bool :=
  "wss://".toList.isPrefixOf url.toList || "ws://".toList.isPrefixOf url.toList

/-- The part of the application context which wires the relays to their consumers. -/
structure ZapCtx where
  sources : List SourceConfig
  manager : ManagerRef → SubscriptionManager
  objects : List ZapListenerObject := []
  zapListeners : List ℕ := []
  zapRelays : List String := []
  zapPubkeysCurrent : List String := []
  flashOnZapEnabled : Bool := false
  flashFrontlightOnZapEnabled : Bool := false
  zapNotifyScreenEnabled : Bool := false
  zapScreenAutoRestore : Bool := false

namespace ZapCtx

/-- The filter of a data source: the publisher's application data. -/
def sourceFilter (cfg : SourceConfig) : Filter :=
  { kinds := [kKindAppData]
    authors := if cfg.authorPubkeyHex = "" then [] else [cfg.authorPubkeyHex] }

/-- `NostrDataSource::Start` has run for every source. -/
def boot (sources : List SourceConfig) : ZapCtx where
  sources := sources
  manager
    | .source k =>
        match sources[k]? with
        | some cfg => { subs := [(cfg.subId, sourceFilter cfg)], onEvent := .dataSource k }
        | none => {}
    | .dedicated _ => {}

/-- The configurations which `MaybeAddNostrSource` makes of the relay list. -/
def sourceConfigs (relayUrls : List String) (authorPubkeyHex : String) :
    List SourceConfig :=
  relayUrls.foldl (fun sources url =>
    if hasWsScheme url then
      sources ++ [{
        relayUrl := url
        authorPubkeyHex := authorPubkeyHex
        subId := "btclock-v1-" ++ toString sources.length }]
    else sources) []

def updateManager (ctx : ZapCtx) (m : ManagerRef) (mgr : SubscriptionManager) :
    ZapCtx :=
  { ctx with manager := fun m' => if m' = m then mgr else ctx.manager m' }

/-- The constructor of a `ZapListener` takes over the manager's callback. -/
def newListener (ctx : ZapCtx) (m : ManagerRef) (subId : String)
    (recipients : List String) : ZapCtx :=
  let object := ctx.objects.length
  let listener : ZapListenerObject :=
    { manager := m, subId := subId, recipients := recipients }
  let ctx := { ctx with objects := ctx.objects ++ [listener] }
  ctx.updateManager m ((ctx.manager m).setOnEvent (.zapListener object))

/-- The filter of a zap listener at the wall-clock time `now`. -/
def zapFilter (recipients : List String) (now : ℤ) : Filter :=
  { kinds := [kKindZapReceipt]
    pTags := recipients
    since := if now > kZapMaxAgeSeconds then UInt64.ofInt (now - kZapMaxAgeSeconds) else 0
    limit := 1 }

/-- `ZapListener::Start`, with its result. -/
def startListener (ctx : ZapCtx) (object : ℕ) (now : ℤ) : ZapCtx × Bool :=
  match ctx.objects[object]? with
  | none => (ctx, false)
  | some l =>
      if l.started then (ctx, true)
      else if l.recipients = [] then (ctx, false)
      else
        match (ctx.manager l.manager).subscribe l.subId (zapFilter l.recipients now) with
        | none => (ctx, false)
        | some mgr =>
            let ctx := ctx.updateManager l.manager mgr
            ({ ctx with objects := ctx.objects.set object { l with started := true } },
              true)

/-- `ZapListener::Stop`. -/
def stopListener (ctx : ZapCtx) (object : ℕ) : ZapCtx :=
  match ctx.objects[object]? with
  | none => ctx
  | some l =>
      if l.started then
        let ctx := ctx.updateManager l.manager
          ((ctx.manager l.manager).unsubscribe l.subId)
        { ctx with objects := ctx.objects.set object { l with started := false } }
      else ctx

/-- The first data source which already connects to the relay. -/
def findSiblingSubs (ctx : ZapCtx) (url : String) : Option ManagerRef :=
  (ctx.sources.findIdx? fun ds => shouldShareNostrRelay ds.relayUrl url).map .source

def zapConfigBasicallyValid (cfg : ZapListenerConfig) : Bool :=
  cfg.enabled && !cfg.relayUrls.isEmpty && !cfg.zapPubkeys.isEmpty &&
    cfg.zapPubkeys.all fun pk => decide (pk.length = 64)

def storeFlags (ctx : ZapCtx) (cfg : ZapListenerConfig) : ZapCtx :=
  { ctx with
    flashOnZapEnabled := cfg.ledFlashOnZap
    flashFrontlightOnZapEnabled := cfg.frontlightFlashOnZap
    zapNotifyScreenEnabled := cfg.zapScreenNotify
    zapScreenAutoRestore := cfg.zapScreenAutoRestore }

def zapSubId (i : ℕ) : String :=
  "zap-" ++ toString i

/-- Constructs a listener, starts it and puts it on the list whatever `Start` says. -/
def attachListener (ctx : ZapCtx) (m : ManagerRef) (i : ℕ)
    (recipients : List String) (now : ℤ) : ZapCtx :=
  let object := ctx.objects.length
  let ctx := ((ctx.newListener m (zapSubId i) recipients).startListener object now).1
  { ctx with zapListeners := ctx.zapListeners ++ [object] }

/-- One turn of the loop of `InitZapListener`.  A dedicated relay which does not start
is dropped together with its manager and its listener. -/
def initRelay (cfg : ZapListenerConfig) (relayStarts : ℕ → Bool) (now : ℤ)
    (ctx : ZapCtx) (relay : String × ℕ) : ZapCtx :=
  if hasWsScheme relay.1 then
    match ctx.findSiblingSubs relay.1 with
    | some m => ctx.attachListener m relay.2 cfg.zapPubkeys now
    | none =>
        if relayStarts relay.2 then
          let m := ManagerRef.dedicated ctx.zapRelays.length
          { ctx with zapRelays := ctx.zapRelays ++ [relay.1] }.attachListener m relay.2
            cfg.zapPubkeys now
        else ctx
  else ctx

/-- `InitZapListener` with the settings `cfg`.  `relayStarts i` says whether the dedicated
relay of the `i`-th url starts. -/
def initZapListener (ctx : ZapCtx) (cfg : ZapListenerConfig)
    (relayStarts : ℕ → Bool) (now : ℤ) : ZapCtx :=
  let ctx := ctx.storeFlags cfg
  if zapConfigBasicallyValid cfg then
    let ctx := cfg.relayUrls.zipIdx.foldl (initRelay cfg relayStarts now) ctx
    { ctx with zapPubkeysCurrent := cfg.zapPubkeys }
  else ctx

/-- The first dedicated relay from index `start` on which matches the url. -/
def findDedicated (ctx : ZapCtx) (start : ℕ) (url : String) : Option ℕ :=
  ((ctx.zapRelays.drop start).findIdx? fun r => shouldShareNostrRelay r url).map
    (start + ·)

/-- Constructs and starts a listener, which stays only if `Start` succeeds. -/
def rebuildListener (ctx : ZapCtx) (m : ManagerRef) (i : ℕ)
    (recipients : List String) (now : ℤ) : ZapCtx :=
  let object := ctx.objects.length
  let (ctx, ok) :=
    (ctx.newListener m (zapSubId i) recipients).startListener object now
  if ok then { ctx with zapListeners := ctx.zapListeners ++ [object] } else ctx

/-- One turn of the rebuilding loop, with the index of the next dedicated relay. -/
def refreshRelay (cfg : ZapListenerConfig) (now : ℤ) (st : ZapCtx × ℕ)
    (relay : String × ℕ) : ZapCtx × ℕ :=
  match st.1.findSiblingSubs relay.1 with
  | some m => (st.1.rebuildListener m relay.2 cfg.zapPubkeys now, st.2)
  | none =>
      match st.1.findDedicated st.2 relay.1 with
      | none => (st.1, max st.2 st.1.zapRelays.length)
      | some k =>
          (st.1.rebuildListener (.dedicated k) relay.2 cfg.zapPubkeys now, k + 1)

/-- `RefreshZapListenerSettings` with the settings `cfg`. -/
def refreshZapListenerSettings (ctx : ZapCtx) (cfg : ZapListenerConfig) (now : ℤ) :
    ZapCtx :=
  let ctx := ctx.storeFlags cfg
  if ctx.zapListeners = [] then ctx
  else if cfg.zapPubkeys = ctx.zapPubkeysCurrent then ctx
  else if cfg.zapPubkeys = [] then ctx
  else if (cfg.zapPubkeys.all fun pk => decide (pk.length = 64)) = false then ctx
  else
    let ctx := ctx.zapListeners.foldl stopListener ctx
    let ctx := { ctx with zapListeners := [] }
    let (ctx, _) := cfg.relayUrls.zipIdx.foldl (refreshRelay cfg now) (ctx, 0)
    { ctx with zapPubkeysCurrent := cfg.zapPubkeys }

/-- A consumer of event frames. -/
inductive Consumer
  | dataSource (source : ℕ)
  | zapListener (object : ℕ)
  deriving DecidableEq, Repr

/-- The consumers whose handler the manager `m` calls for an event under `subId`.  A
callback whose object was destroyed reaches nobody. -/
def handleEvent (ctx : ZapCtx) (m : ManagerRef) (subId : String) : List Consumer :=
  match (ctx.manager m).onEvent with
  | .none => []
  | .dataSource k => [.dataSource k]
  | .zapListener object =>
      if object ∈ ctx.zapListeners ∧
          (ctx.objects[object]?.map ZapListenerObject.subId) = some subId then
        [.zapListener object]
      else []

/-! ### A listener which is opened -/

/-- A listener which was constructed, started and put on the list. -/
def opened (ctx : ZapCtx) (m : ManagerRef) (i : ℕ) (recipients : List String) (now : ℤ) :
    ZapCtx :=
  { ctx with
    objects := ctx.objects ++ [⟨m, zapSubId i, recipients, true⟩]
    zapListeners := ctx.zapListeners ++ [ctx.objects.length]
    manager := fun m' =>
      if m' = m then
        ⟨(ctx.manager m).subs ++ [(zapSubId i, zapFilter recipients now)],
          .zapListener ctx.objects.length⟩
      else ctx.manager m' }

section Opened

variable {ctx : ZapCtx} {m : ManagerRef} {i : ℕ} {recipients : List String}

/-- A listener whose id is free starts. -/
theorem startListener_new (hfree : ∀ s ∈ (ctx.manager m).subs, s.1 ≠ zapSubId i)
    (hrecipients : recipients ≠ []) (now : ℤ) :
    (ctx.newListener m (zapSubId i) recipients).startListener ctx.objects.length now =
      ({ ctx.opened m i recipients now with zapListeners := ctx.zapListeners }, true) := by
  have hobject : (ctx.newListener m (zapSubId i) recipients).objects[ctx.objects.length]? =
      some ⟨m, zapSubId i, recipients, false⟩ := List.getElem?_concat_length
  have hmanager : (ctx.newListener m (zapSubId i) recipients).manager m =
      ⟨(ctx.manager m).subs, .zapListener ctx.objects.length⟩ := by
    simp [newListener, updateManager, SubscriptionManager.setOnEvent]
  have hset : (ctx.newListener m (zapSubId i) recipients).objects.set ctx.objects.length
      ⟨m, zapSubId i, recipients, true⟩ = ctx.objects ++ [⟨m, zapSubId i, recipients, true⟩] := by
    simp [newListener, updateManager]
  have hnew : ((ctx.manager m).subs.any fun s => s.1 == zapSubId i) = false := by
    rw [List.any_eq_false]
    intro s hs
    simpa using hfree s hs
  simp only [startListener, hobject, Bool.false_eq_true, if_false, hrecipients, hmanager,
    SubscriptionManager.subscribe, hnew, hset, updateManager, opened, Prod.mk.injEq, and_true]
  congr 1
  funext m'
  by_cases hm' : m' = m
  · simp only [if_pos hm']
  · simp [newListener, updateManager, hm']

theorem attachListener_eq (hfree : ∀ s ∈ (ctx.manager m).subs, s.1 ≠ zapSubId i)
    (hrecipients : recipients ≠ []) (now : ℤ) :
    ctx.attachListener m i recipients now = ctx.opened m i recipients now := by
  simp only [attachListener, startListener_new hfree hrecipients now]
  rfl

theorem rebuildListener_eq (hfree : ∀ s ∈ (ctx.manager m).subs, s.1 ≠ zapSubId i)
    (hrecipients : recipients ≠ []) (now : ℤ) :
    ctx.rebuildListener m i recipients now = ctx.opened m i recipients now := by
  simp only [rebuildListener, startListener_new hfree hrecipients now, if_true]
  rfl

end Opened

end ZapCtx

end Nostr

end BtClock
