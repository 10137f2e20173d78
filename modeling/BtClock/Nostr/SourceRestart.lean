import BtClock.Nostr.Routing

/-!
# Restarting the data sources

`StopAll` destroys the subscription managers of the data sources, and `StartAll` makes new ones.
The zap listeners hear of neither: a listener on a manager of a data source is left with a
reference to an object which is gone, and the new manager does not know of it.
-/

namespace BtClock

namespace Nostr

inductive SourceCommand
  | stopDataSources
  | restartDataSources (relayStarts : ℕ → Bool)

/-- The wiring, with the number of the current build of the sources' managers. -/
structure SourceCtx where
  ctx : ZapCtx
  build : ℕ
  running : Bool

namespace SourceCtx

open ZapCtx

/-- The managers of the data sources are `subs k`; the dedicated ones stay. -/
def replaceManagers (ctx : ZapCtx) (subs : ℕ → SubscriptionManager) : ZapCtx :=
  { ctx with
    manager := fun m =>
      match m with
      | .source k => subs k
      | .dedicated j => ctx.manager (.dedicated j) }

/-- `NostrDataSource::Start` subscribes only if its relay starts. -/
def startedManager (sources : List SourceConfig) (relayStarts : ℕ → Bool) (k : ℕ) :
    SubscriptionManager :=
  match sources[k]? with
  | some cfg =>
      { subs := if relayStarts k then [(cfg.subId, sourceFilter cfg)] else []
        onEvent := .dataSource k }
  | none => {}

def stopAll (s : SourceCtx) : SourceCtx :=
  { s with ctx := replaceManagers s.ctx fun _ => {}, running := false }

def startAll (s : SourceCtx) (relayStarts : ℕ → Bool) : SourceCtx where
  ctx := replaceManagers s.ctx (startedManager s.ctx.sources relayStarts)
  build := s.build + 1
  running := true

/-- `kStopDataSources` and `kRestartDataSources` of the command drain. -/
def step (s : SourceCtx) : SourceCommand → SourceCtx
  | .stopDataSources => s.stopAll
  | .restartDataSources relayStarts => s.stopAll.startAll relayStarts

/-- The sources are started and the zap listeners wired. -/
def boot (sources : List SourceConfig) (cfg : ZapListenerConfig) (relayStarts : ℕ → Bool)
    (now : ℤ) : SourceCtx where
  ctx := (ZapCtx.boot sources).initZapListener cfg relayStarts now
  build := 0
  running := true

/-! ### What is asked of a restart -/

/-- The manager object a listener was constructed on at boot still exists. -/
def Exists (s : SourceCtx) : ManagerRef → Prop
  | .source _ => s.running = true ∧ s.build = 0
  | .dedicated _ => True

def NoDangling (s : SourceCtx) : Prop :=
  ∀ o ∈ s.ctx.zapListeners, ∀ l, s.ctx.objects[o]? = some l → s.Exists l.manager

/-- The manager of its relay has the subscription of the listener, and hands the frames under its
id to it. -/
def Served (ctx : ZapCtx) (o : ℕ) : Prop :=
  ∃ l, ctx.objects[o]? = some l ∧ l.subId ∈ (ctx.manager l.manager).subs.map Prod.fst ∧
    Consumer.zapListener o ∈ ctx.handleEvent l.manager l.subId

/-- After the command no listener has a dangling reference, and after a restart every listener is
served. -/
def KeepsZaps (s : SourceCtx) (c : SourceCommand) : Prop :=
  (s.step c).NoDangling ∧
    ∀ relayStarts, c = .restartDataSources relayStarts →
      ∀ o ∈ (s.step c).ctx.zapListeners, Served (s.step c).ctx o

/-- Some zap relay is the relay of a data source, too. -/
def SharesRelay (sources : List SourceConfig) (cfg : ZapListenerConfig) : Prop :=
  zapConfigBasicallyValid cfg = true ∧
    ∃ url ∈ cfg.relayUrls, hasWsScheme url = true ∧
      ∃ ds ∈ sources, shouldShareNostrRelay ds.relayUrl url = true

/-! ### What is constructed at boot -/

/-- A listener on the list was constructed on a data source's manager. -/
def OnSource (ctx : ZapCtx) : Prop :=
  ∃ o ∈ ctx.zapListeners, ∃ k, ctx.ConstructedOn (.source k) o

theorem constructedOn_startListener (ctx : ZapCtx) (object : ℕ) (now : ℤ) :
    ∀ m o, (ctx.startListener object now).1.ConstructedOn m o ↔ ctx.ConstructedOn m o :=
  (sameCallbacks_startListener ctx object now).constructedOn

theorem constructedOn_attachListener (ctx : ZapCtx) (m : ManagerRef) (i : ℕ)
    (recipients : List String) (now : ℤ) (m' : ManagerRef) (o : ℕ) :
    (ctx.attachListener m i recipients now).ConstructedOn m' o ↔
      ctx.ConstructedOn m' o ∨ (m' = m ∧ o = ctx.objects.length) := by
  rw [← constructedOn_newListener]
  exact constructedOn_startListener _ _ now m' o

theorem zapListeners_startListener (ctx : ZapCtx) (object : ℕ) (now : ℤ) :
    (ctx.startListener object now).1.zapListeners = ctx.zapListeners := by
  unfold startListener
  split
  · rfl
  split
  · rfl
  split
  · rfl
  split
  · rfl
  · rfl

theorem zapListeners_attachListener (ctx : ZapCtx) (m : ManagerRef) (i : ℕ)
    (recipients : List String) (now : ℤ) :
    (ctx.attachListener m i recipients now).zapListeners =
      ctx.zapListeners ++ [ctx.objects.length] := by
  show (ZapCtx.startListener _ _ _).1.zapListeners ++ _ = _
  rw [zapListeners_startListener]
  rfl

theorem OnSource.attachListener {ctx : ZapCtx} (h : OnSource ctx) (m : ManagerRef) (i : ℕ)
    (recipients : List String) (now : ℤ) : OnSource (ctx.attachListener m i recipients now) := by
  obtain ⟨o, ho, k, hk⟩ := h
  refine ⟨o, ?_, k, (constructedOn_attachListener ..).mpr (Or.inl hk)⟩
  rw [zapListeners_attachListener]
  exact List.mem_append_left _ ho

theorem onSource_attachListener (ctx : ZapCtx) (k i : ℕ) (recipients : List String) (now : ℤ) :
    OnSource (ctx.attachListener (.source k) i recipients now) := by
  refine ⟨ctx.objects.length, ?_, k, (constructedOn_attachListener ..).mpr (Or.inr ⟨rfl, rfl⟩)⟩
  rw [zapListeners_attachListener]
  exact List.mem_append_right _ List.mem_cons_self

theorem sources_attachListener (ctx : ZapCtx) (m : ManagerRef) (i : ℕ)
    (recipients : List String) (now : ℤ) :
    (ctx.attachListener m i recipients now).sources = ctx.sources :=
  (sameCallbacks_startListener _ _ now).sources

theorem sources_initRelay (cfg : ZapListenerConfig) (relayStarts : ℕ → Bool) (now : ℤ)
    (ctx : ZapCtx) (relay : String × ℕ) :
    (ctx.initRelay cfg relayStarts now relay).sources = ctx.sources := by
  unfold initRelay
  split
  · split
    · exact sources_attachListener ..
    · split
      · exact sources_attachListener ..
      · rfl
  · rfl

theorem findSiblingSubs_eq_none_iff (ctx : ZapCtx) (url : String) :
    ctx.findSiblingSubs url = none ↔
      ∀ ds ∈ ctx.sources, shouldShareNostrRelay ds.relayUrl url = false := by
  rw [findSiblingSubs, Option.map_eq_none_iff, List.findIdx?_eq_none_iff]

theorem OnSource.initRelay {ctx : ZapCtx} (h : OnSource ctx) (cfg : ZapListenerConfig)
    (relayStarts : ℕ → Bool) (now : ℤ) (relay : String × ℕ) :
    OnSource (ctx.initRelay cfg relayStarts now relay) := by
  unfold ZapCtx.initRelay
  split
  · split
    · exact h.attachListener _ _ _ _
    · split
      · have hrelay : OnSource { ctx with zapRelays := ctx.zapRelays ++ [relay.1] } := h
        exact hrelay.attachListener _ _ _ _
      · exact h
  · exact h

/-- A zap relay which a data source connects to gets a listener on the source's manager. -/
theorem onSource_initRelay {ctx : ZapCtx} (cfg : ZapListenerConfig) (relayStarts : ℕ → Bool)
    (now : ℤ) {relay : String × ℕ} (hscheme : hasWsScheme relay.1 = true) {ds : SourceConfig}
    (hds : ds ∈ ctx.sources) (hshare : shouldShareNostrRelay ds.relayUrl relay.1 = true) :
    OnSource (ctx.initRelay cfg relayStarts now relay) := by
  unfold ZapCtx.initRelay
  rw [if_pos hscheme]
  match hsibling : ctx.findSiblingSubs relay.1 with
  | none =>
      have hnone := (findSiblingSubs_eq_none_iff ctx relay.1).mp hsibling ds hds
      rw [hshare] at hnone
      cases hnone
  | some m =>
      obtain ⟨k, _, rfl⟩ := Option.map_eq_some_iff.mp hsibling
      exact onSource_attachListener ..

theorem OnSource.foldl_initRelay {ctx : ZapCtx} (h : OnSource ctx) (cfg : ZapListenerConfig)
    (relayStarts : ℕ → Bool) (now : ℤ) (relays : List (String × ℕ)) :
    OnSource (relays.foldl (ZapCtx.initRelay cfg relayStarts now) ctx) := by
  induction relays generalizing ctx with
  | nil => exact h
  | cons relay relays ih => exact ih (h.initRelay cfg relayStarts now relay)

theorem onSource_foldl_initRelay {ctx : ZapCtx} (cfg : ZapListenerConfig)
    (relayStarts : ℕ → Bool) (now : ℤ) {relays : List (String × ℕ)} {relay : String × ℕ}
    (hrelay : relay ∈ relays) (hscheme : hasWsScheme relay.1 = true) {ds : SourceConfig}
    (hds : ds ∈ ctx.sources) (hshare : shouldShareNostrRelay ds.relayUrl relay.1 = true) :
    OnSource (relays.foldl (ZapCtx.initRelay cfg relayStarts now) ctx) := by
  induction relays generalizing ctx with
  | nil => cases hrelay
  | cons first relays ih =>
      rcases List.mem_cons.mp hrelay with rfl | hrelay
      · exact (onSource_initRelay cfg relayStarts now hscheme hds hshare).foldl_initRelay ..
      · refine ih hrelay ?_
        rw [sources_initRelay]
        exact hds

/-! ### Listeners on relays of their own -/

/-- Every listener has a dedicated manager, which has its subscription and its callback. -/
structure AllDedicated (ctx : ZapCtx) : Prop where
  served : ∀ o ∈ ctx.zapListeners, ∃ i l, i < ctx.zapRelays.length ∧
    ctx.objects[o]? = some l ∧ l.manager = .dedicated i ∧
      l.subId ∈ (ctx.manager (.dedicated i)).subs.map Prod.fst ∧
        (ctx.manager (.dedicated i)).onEvent = .zapListener o
  fresh : ∀ j, ctx.zapRelays.length ≤ j → ctx.manager (.dedicated j) = {}

theorem AllDedicated.servedAt {ctx : ZapCtx} (h : AllDedicated ctx) {o : ℕ}
    (ho : o ∈ ctx.zapListeners) : Served ctx o := by
  obtain ⟨i, l, _, hl, hm, hsub, hevent⟩ := h.served o ho
  refine ⟨l, hl, ?_, ?_⟩
  · rw [hm]
    exact hsub
  · rw [hm, handleEvent, hevent]
    simp [ho, hl]

theorem AllDedicated.attachListener {ctx : ZapCtx} (h : AllDedicated ctx) (url : String) (i : ℕ)
    {recipients : List String} (hrecipients : recipients ≠ []) (now : ℤ) :
    AllDedicated (({ ctx with zapRelays := ctx.zapRelays ++ [url] } : ZapCtx).attachListener
      (.dedicated ctx.zapRelays.length) i recipients now) := by
  have hlength : (ctx.zapRelays ++ [url]).length = ctx.zapRelays.length + 1 :=
    List.length_append
  have hfresh : ({ ctx with zapRelays := ctx.zapRelays ++ [url] } : ZapCtx).manager
      (.dedicated ctx.zapRelays.length) = {} := h.fresh _ (Nat.le_refl _)
  rw [attachListener_eq (by rw [hfresh]; nofun) hrecipients now, opened]
  constructor
  · intro o ho
    rcases List.mem_append.mp ho with ho | ho
    · obtain ⟨j, l, hj, hl, hm, hsub, hevent⟩ := h.served o ho
      have hne : ManagerRef.dedicated j ≠ .dedicated ctx.zapRelays.length := by
        intro heq
        cases heq
        exact Nat.lt_irrefl _ hj
      refine ⟨j, l, ?_, ?_, hm, ?_, ?_⟩
      · rw [hlength]
        exact Nat.lt_succ_of_lt hj
      · have hlt := (List.getElem?_eq_some_iff.mp hl).1
        exact (List.getElem?_append_left hlt).trans hl
      · simpa only [if_neg hne] using hsub
      · simpa only [if_neg hne] using hevent
    · rw [List.mem_singleton.mp ho]
      refine ⟨ctx.zapRelays.length, _, ?_, List.getElem?_concat_length, rfl, ?_, ?_⟩
      · rw [hlength]
        exact Nat.lt_succ_self _
      · simp only [if_true]
        exact List.mem_map_of_mem (List.mem_append_right _ List.mem_cons_self)
      · simp only [if_true]
  · intro j hj
    have hle : ctx.zapRelays.length + 1 ≤ j := hlength ▸ hj
    have hne : ManagerRef.dedicated j ≠ .dedicated ctx.zapRelays.length := by
      intro heq
      cases heq
      exact Nat.not_succ_le_self _ hle
    simp only [if_neg hne]
    exact h.fresh j (Nat.le_of_succ_le hle)

theorem AllDedicated.initRelay {ctx : ZapCtx} (h : AllDedicated ctx) {cfg : ZapListenerConfig}
    (hpubkeys : cfg.zapPubkeys ≠ []) (relayStarts : ℕ → Bool) (now : ℤ) {relay : String × ℕ}
    (hshare : hasWsScheme relay.1 = true →
      ∀ ds ∈ ctx.sources, shouldShareNostrRelay ds.relayUrl relay.1 = false) :
    AllDedicated (ctx.initRelay cfg relayStarts now relay) := by
  unfold ZapCtx.initRelay
  split
  · rename_i hscheme
    rw [(findSiblingSubs_eq_none_iff ctx relay.1).mpr (hshare hscheme)]
    dsimp only
    split
    · exact h.attachListener relay.1 relay.2 hpubkeys now
    · exact h
  · exact h

theorem AllDedicated.foldl_initRelay {ctx : ZapCtx} (h : AllDedicated ctx)
    {cfg : ZapListenerConfig} (hpubkeys : cfg.zapPubkeys ≠ []) (relayStarts : ℕ → Bool) (now : ℤ)
    (relays : List (String × ℕ))
    (hshare : ∀ relay ∈ relays, hasWsScheme relay.1 = true →
      ∀ ds ∈ ctx.sources, shouldShareNostrRelay ds.relayUrl relay.1 = false) :
    AllDedicated (relays.foldl (ZapCtx.initRelay cfg relayStarts now) ctx) := by
  induction relays generalizing ctx with
  | nil => exact h
  | cons relay relays ih =>
      refine ih (h.initRelay hpubkeys relayStarts now (hshare relay List.mem_cons_self)) ?_
      intro relay' hrelay'
      rw [sources_initRelay]
      exact hshare relay' (List.mem_cons_of_mem _ hrelay')

section Boot

variable (sources : List SourceConfig) (cfg : ZapListenerConfig) (relayStarts : ℕ → Bool)
  (now : ℤ)

theorem allDedicated_boot (hshare : ¬ SharesRelay sources cfg) :
    AllDedicated (boot sources cfg relayStarts now).ctx := by
  have hempty : AllDedicated ((ZapCtx.boot sources).storeFlags cfg) := ⟨nofun, fun _ _ => rfl⟩
  unfold boot initZapListener
  dsimp only
  split
  · rename_i hvalid
    have hpubkeys : cfg.zapPubkeys ≠ [] := by
      intro hnil
      simp [zapConfigBasicallyValid, hnil] at hvalid
    have hfold := hempty.foldl_initRelay hpubkeys relayStarts now cfg.relayUrls.zipIdx
      fun relay hrelay hscheme ds hds => ?_
    · exact ⟨hfold.served, hfold.fresh⟩
    · by_contra hne
      have hmem : relay.1 ∈ cfg.relayUrls := List.fst_mem_of_mem_zipIdx hrelay
      exact hshare ⟨hvalid, relay.1, hmem, hscheme, ds, hds, (Bool.not_eq_false _).mp hne⟩
  · exact hempty

theorem onSource_boot (hshare : SharesRelay sources cfg) :
    OnSource (boot sources cfg relayStarts now).ctx := by
  obtain ⟨hvalid, url, hurl, hscheme, ds, hds, hds'⟩ := hshare
  obtain ⟨i, hi⟩ := List.getElem?_of_mem hurl
  unfold boot initZapListener
  dsimp only
  rw [if_pos hvalid]
  have hrelay : (url, i) ∈ cfg.relayUrls.zipIdx := List.mk_mem_zipIdx_iff_getElem?.mpr hi
  have hsource : ds ∈ ((ZapCtx.boot sources).storeFlags cfg).sources := hds
  exact onSource_foldl_initRelay cfg relayStarts now hrelay hscheme hsource hds'

end Boot

/-! ### Runs of the commands -/

/-- The commands touch neither the listeners nor the dedicated relays. -/
theorem AllDedicated.step {s : SourceCtx} (h : AllDedicated s.ctx) (c : SourceCommand) :
    AllDedicated (s.step c).ctx := by
  cases c with
  | stopDataSources => exact ⟨h.served, h.fresh⟩
  | restartDataSources relayStarts => exact ⟨h.served, h.fresh⟩

theorem AllDedicated.noDangling {s : SourceCtx} (h : AllDedicated s.ctx) : s.NoDangling := by
  intro o ho l hl
  obtain ⟨i, l', _, hl', hm, _⟩ := h.served o ho
  cases hl.symm.trans hl'
  rw [hm]
  trivial

theorem OnSource.dangling {s : SourceCtx} (h : OnSource s.ctx) (c : SourceCommand) :
    ¬ (s.step c).NoDangling := by
  obtain ⟨o, ho, k, l, hl, hm⟩ := h
  intro hdangling
  cases c with
  | stopDataSources =>
      have hexists := hdangling o ho l hl
      rw [hm] at hexists
      exact Bool.false_ne_true hexists.1
  | restartDataSources relayStarts =>
      have hexists := hdangling o ho l hl
      rw [hm] at hexists
      exact Nat.succ_ne_zero _ hexists.2

theorem noDangling_boot (sources : List SourceConfig) (cfg : ZapListenerConfig)
    (relayStarts : ℕ → Bool) (now : ℤ) : (boot sources cfg relayStarts now).NoDangling := by
  intro o _ l _
  cases l.manager with
  | source k => exact ⟨rfl, rfl⟩
  | dedicated j => trivial

/-- The zaps are kept through a sequence of commands exactly when there is no command, or no zap
relay is the relay of a data source. -/
theorem run_keepsZaps_iff (sources : List SourceConfig) (cfg : ZapListenerConfig)
    (relayStarts : ℕ → Bool) (now : ℤ) (cs : List SourceCommand) :
    (boot sources cfg relayStarts now).NoDangling ∧
        Transition.Along step KeepsZaps (boot sources cfg relayStarts now) cs ↔
      cs = [] ∨ ¬ SharesRelay sources cfg := by
  constructor
  · rintro ⟨_, hkeeps⟩
    match cs with
    | [] => exact Or.inl rfl
    | c :: cs =>
        refine Or.inr fun hshare => ?_
        exact (onSource_boot sources cfg relayStarts now hshare).dangling c hkeeps.1.1
  · intro h
    refine ⟨noDangling_boot sources cfg relayStarts now, ?_⟩
    rcases h with rfl | hshare
    · trivial
    · have hall : Transition.Along step (fun _ _ => True) (boot sources cfg relayStarts now) cs :=
        (Transition.along_iff_forall_split ..).mpr fun _ _ _ _ => trivial
      refine hall.mono_of_invariant (I := fun s => AllDedicated s.ctx) (fun s c h _ => ?_)
        (allDedicated_boot sources cfg relayStarts now hshare)
      have hnext := h.step c
      exact ⟨⟨hnext.noDangling, fun _ _ o ho => hnext.servedAt ho⟩, hnext⟩

/-- One restart with a zap listener on the relay of the data source. -/
theorem restart_sharedRelay_not_keepsZaps :
    ¬ ((boot (sourceConfigs ["wss://relay.primal.net"] "author")
          ⟨true, ["wss://relay.primal.net"], [String.ofList (List.replicate 64 'a')],
            true, true, true, true⟩ (fun _ => true) 0).NoDangling ∧
        Transition.Along step KeepsZaps
          (boot (sourceConfigs ["wss://relay.primal.net"] "author")
            ⟨true, ["wss://relay.primal.net"], [String.ofList (List.replicate 64 'a')],
              true, true, true, true⟩ (fun _ => true) 0)
          [.restartDataSources fun _ => true]) := by
  rintro ⟨_, ⟨hdangling, _⟩, _⟩
  exact absurd (hdangling 0 (by decide) _ rfl).2 (by decide)

end SourceCtx

end Nostr

end BtClock
