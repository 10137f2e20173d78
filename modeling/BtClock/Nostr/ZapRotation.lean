import BtClock.Nostr.SourceRestart
import BtClock.Reading.Cursor
import Mathlib.Data.List.Nodup

/-!
# Rotating the zap pubkeys

New pubkeys take new listeners, since a listener has the filter it was constructed with.  The
listeners are rebuilt along the list of relays which is stored now, on the connections which were
opened along the list of the boot.
-/

namespace BtClock

namespace Nostr

namespace ZapCtx

open Transition

/-- The listeners on the list. -/
def live (ctx : ZapCtx) : List ZapListenerObject :=
  ctx.zapListeners.filterMap fun o => ctx.objects[o]?

def startedOn (ctx : ZapCtx) (m : ManagerRef) : List ZapListenerObject :=
  ctx.live.filter fun l => l.manager = m ∧ l.started = true

/-- The manager has exactly one started listener, and it is bound to the pubkeys. -/
def OneStarted (ctx : ZapCtx) (pubkeys : List String) (m : ManagerRef) : Prop :=
  ∃ l, ctx.startedOn m = [l] ∧ l.recipients = pubkeys

/-- Every relay of the list which is connected has its listener: the dedicated connections, and
the relays of the data sources. -/
structure KeepsRelays (ctx : ZapCtx) (cfg : ZapListenerConfig) : Prop where
  dedicated : ∀ k, ∀ hk : k < ctx.zapRelays.length,
    (∃ url ∈ cfg.relayUrls, shouldShareNostrRelay ctx.zapRelays[k] url = true) →
      ctx.OneStarted cfg.zapPubkeys (.dedicated k)
  shared : ∀ url ∈ cfg.relayUrls, ∀ m, ctx.findSiblingSubs url = some m →
    ctx.OneStarted cfg.zapPubkeys m

/-- The urls of the list which no data source connects to. -/
def unshared (ctx : ZapCtx) (urls : List String) : List String :=
  urls.filter fun url => (ctx.findSiblingSubs url).isNone

/-- Some relay of the list is connected. -/
def Connected (ctx : ZapCtx) (urls : List String) : Prop :=
  ∃ url ∈ urls, (∃ m, ctx.findSiblingSubs url = some m) ∨
    ∃ r ∈ ctx.zapRelays, shouldShareNostrRelay r url = true

/-- The dedicated relays which are still on the list are, in their order, the first of its urls
which no data source connects to; no data source is on it twice; and some listener is wired, if
any relay of the list is connected. -/
structure Rotates (ctx : ZapCtx) (urls : List String) : Prop where
  front : Cursor.InFront shouldShareNostrRelay ctx.zapRelays (ctx.unshared urls)
  once : (urls.filterMap ctx.findSiblingSubs).Nodup
  wired : ctx.zapListeners = [] → ¬ ctx.Connected urls

/-- New pubkeys which pass the checks. -/
structure NewPubkeys (ctx : ZapCtx) (cfg : ZapListenerConfig) : Prop where
  changed : cfg.zapPubkeys ≠ ctx.zapPubkeysCurrent
  nonempty : cfg.zapPubkeys ≠ []
  length : ∀ pk ∈ cfg.zapPubkeys, pk.length = 64

/-! ### The ids of the subscriptions -/

theorem zapSubId_injective {i j : ℕ} (h : zapSubId i = zapSubId j) : i = j := by
  have htext : (toString i).toList = (toString j).toList := by
    have hlist := congrArg String.toList h
    simpa only [zapSubId, String.toList_append, List.append_cancel_left_eq] using hlist
  have hdigits : ∀ n : ℕ, (toString n).toList = Nat.toDigits 10 n := fun n => by
    rw [Nat.toString_eq_repr, Nat.repr, String.toList_ofList]
  rw [hdigits, hdigits] at htext
  rw [← Nat.ofDigitChars_ten_toDigits (n := i), htext, Nat.ofDigitChars_ten_toDigits]

theorem sourceSubId_ne_zapSubId (k i : ℕ) : "btclock-v1-" ++ toString k ≠ zapSubId i := by
  intro h
  have hhead := congrArg (fun s => s.toList.head?) h
  simp [zapSubId] at hhead

/-- No id from the index on is in use. -/
def IdsBelow (ctx : ZapCtx) (i : ℕ) : Prop :=
  ∀ m, ∀ s ∈ (ctx.manager m).subs, ∀ j, i ≤ j → s.1 ≠ zapSubId j

/-- The listeners on the list are objects, and every zap subscription is one of theirs. -/
structure Wired (ctx : ZapCtx) : Prop where
  listed : ∀ o ∈ ctx.zapListeners, o < ctx.objects.length
  owned : ∀ m, ∀ s ∈ (ctx.manager m).subs, ∀ j, s.1 = zapSubId j →
    ∃ o ∈ ctx.zapListeners, ∃ l, ctx.objects[o]? = some l ∧ l.manager = m ∧ l.subId = s.1 ∧
      l.started = true

section Opened

variable {ctx : ZapCtx} {i : ℕ} {recipients : List String}

theorem IdsBelow.free (h : IdsBelow ctx i) (m : ManagerRef) :
    ∀ s ∈ (ctx.manager m).subs, s.1 ≠ zapSubId i :=
  fun s hs => h m s hs i (Nat.le_refl i)

theorem IdsBelow.succ (h : IdsBelow ctx i) : IdsBelow ctx (i + 1) :=
  fun m s hs j hj => h m s hs j (Nat.le_of_succ_le hj)

variable (m : ManagerRef) (now : ℤ)

theorem mem_subs_opened {m' : ManagerRef} {s : String × Filter}
    (h : s ∈ ((ctx.opened m i recipients now).manager m').subs) :
    s ∈ (ctx.manager m').subs ∨ m' = m ∧ s = (zapSubId i, zapFilter recipients now) := by
  simp only [opened] at h
  split at h
  · rename_i hm
    rcases List.mem_append.mp h with hs | hs
    · exact Or.inl (hm ▸ hs)
    · exact Or.inr ⟨hm, List.mem_singleton.mp hs⟩
  · exact Or.inl h

theorem IdsBelow.opened (h : IdsBelow ctx i) :
    IdsBelow (ctx.opened m i recipients now) (i + 1) := by
  intro m' s hs j hj
  rcases mem_subs_opened m now hs with hs | ⟨-, rfl⟩
  · exact h.succ m' s hs j hj
  · intro heq
    have hij := zapSubId_injective heq
    omega

theorem Wired.opened (h : Wired ctx) : Wired (ctx.opened m i recipients now) := by
  constructor
  · intro o ho
    simp only [ZapCtx.opened, List.length_append, List.length_singleton] at ho ⊢
    rcases List.mem_append.mp ho with ho | ho
    · exact Nat.lt_succ_of_lt (h.listed o ho)
    · rw [List.mem_singleton.mp ho]
      exact Nat.lt_succ_self _
  · intro m' s hs j hj
    rcases mem_subs_opened m now hs with hs | ⟨rfl, rfl⟩
    · obtain ⟨o, ho, l, hl, hrest⟩ := h.owned m' s hs j hj
      have hlt := (List.getElem?_eq_some_iff.mp hl).1
      exact ⟨o, List.mem_append_left _ ho, l, (List.getElem?_append_left hlt).trans hl, hrest⟩
    · exact ⟨ctx.objects.length, List.mem_append_right _ List.mem_cons_self, _,
        List.getElem?_concat_length, rfl, rfl, rfl⟩

theorem live_opened (h : Wired ctx) :
    (ctx.opened m i recipients now).live = ctx.live ++ [⟨m, zapSubId i, recipients, true⟩] := by
  have hold : ctx.zapListeners.filterMap
      (fun o => (ctx.objects ++ [⟨m, zapSubId i, recipients, true⟩])[o]?) = ctx.live :=
    List.filterMap_congr fun o ho => List.getElem?_append_left (h.listed o ho)
  simp only [live, opened, List.filterMap_append] at hold ⊢
  rw [hold]
  simp

end Opened

/-! ### Boot -/

/-- What holds from the boot on: the dedicated relays have a url of their own. -/
structure Booted (ctx : ZapCtx) : Prop where
  wired : Wired ctx
  relays : ∀ r ∈ ctx.zapRelays, r ≠ "" ∧ ctx.findSiblingSubs r = none

theorem subId_of_mem_sourceConfigs {relayUrls : List String} {author : String} :
    ∀ ds ∈ sourceConfigs relayUrls author, ∃ k : ℕ, ds.subId = "btclock-v1-" ++ toString k := by
  refine List.foldlRecOn (motive := fun sources : List SourceConfig =>
    ∀ ds ∈ sources, ∃ k : ℕ, ds.subId = "btclock-v1-" ++ toString k) relayUrls _ nofun ?_
  intro sources hsources url _ ds hds
  split at hds
  · rcases List.mem_append.mp hds with hds | hds
    · exact hsources ds hds
    · rw [List.mem_singleton.mp hds]
      exact ⟨sources.length, rfl⟩
  · exact hsources ds hds

theorem idsBelow_boot (relayUrls : List String) (author : String) :
    IdsBelow (boot (sourceConfigs relayUrls author)) 0 := by
  intro m s hs j _
  cases m with
  | dedicated k => cases hs
  | source k =>
      simp only [boot] at hs
      split at hs
      · rename_i ds hds
        obtain ⟨n, hn⟩ := subId_of_mem_sourceConfigs ds (List.mem_of_getElem? hds)
        rw [List.mem_singleton.mp hs, hn]
        exact sourceSubId_ne_zapSubId n j
      · cases hs

theorem wired_of_idsBelow {ctx : ZapCtx} (h : IdsBelow ctx 0) (hlisteners : ctx.zapListeners = []) :
    Wired ctx where
  listed o ho := by
    rw [hlisteners] at ho
    cases ho
  owned m s hs j hj := absurd hj (h m s hs j (Nat.zero_le j))

section Init

variable {ctx : ZapCtx} {cfg : ZapListenerConfig} {i : ℕ}

theorem ne_empty_of_hasWsScheme {url : String} (h : hasWsScheme url = true) : url ≠ "" := by
  rintro rfl
  revert h
  decide

theorem Booted.initRelay (h : Booted ctx) (hids : IdsBelow ctx i) (hpubkeys : cfg.zapPubkeys ≠ [])
    (relayStarts : ℕ → Bool) (now : ℤ) (url : String) :
    Booted (ctx.initRelay cfg relayStarts now (url, i)) ∧
      IdsBelow (ctx.initRelay cfg relayStarts now (url, i)) (i + 1) := by
  unfold ZapCtx.initRelay
  split
  · rename_i hscheme
    split
    · rename_i m _
      rw [attachListener_eq (hids.free m) hpubkeys now]
      exact ⟨⟨h.wired.opened m now, h.relays⟩, hids.opened m now⟩
    · rename_i hnone
      dsimp only
      split
      · have hids' : IdsBelow { ctx with zapRelays := ctx.zapRelays ++ [url] } i := hids
        have hwired : Wired { ctx with zapRelays := ctx.zapRelays ++ [url] } :=
          ⟨h.wired.listed, h.wired.owned⟩
        rw [attachListener_eq (hids'.free _) hpubkeys now]
        refine ⟨⟨hwired.opened _ now, fun r hr => ?_⟩, hids'.opened _ now⟩
        rcases List.mem_append.mp hr with hr | hr
        · exact h.relays r hr
        · rw [List.mem_singleton.mp hr]
          exact ⟨ne_empty_of_hasWsScheme hscheme, hnone⟩
      · exact ⟨h, hids.succ⟩
  · exact ⟨h, hids.succ⟩

theorem Booted.foldl_initRelay (h : Booted ctx) (hids : IdsBelow ctx i)
    (hpubkeys : cfg.zapPubkeys ≠ []) (relayStarts : ℕ → Bool) (now : ℤ) (urls : List String) :
    Booted ((urls.zipIdx i).foldl (ZapCtx.initRelay cfg relayStarts now) ctx) := by
  induction urls generalizing ctx i with
  | nil => exact h
  | cons url urls ih =>
      obtain ⟨hnext, hids'⟩ := h.initRelay hids hpubkeys relayStarts now url
      exact ih hnext hids'

end Init

theorem booted_initZapListener (relayUrls : List String) (author : String)
    (cfg : ZapListenerConfig) (relayStarts : ℕ → Bool) (now : ℤ) :
    Booted ((boot (sourceConfigs relayUrls author)).initZapListener cfg relayStarts now) := by
  have hids : IdsBelow ((boot (sourceConfigs relayUrls author)).storeFlags cfg) 0 :=
    idsBelow_boot relayUrls author
  have hboot : Booted ((boot (sourceConfigs relayUrls author)).storeFlags cfg) :=
    ⟨wired_of_idsBelow hids rfl, nofun⟩
  unfold initZapListener
  dsimp only
  split
  · rename_i hvalid
    have hpubkeys : cfg.zapPubkeys ≠ [] := by
      intro hnil
      simp [zapConfigBasicallyValid, hnil] at hvalid
    have hfold := hboot.foldl_initRelay hids hpubkeys relayStarts now cfg.relayUrls
    exact ⟨⟨hfold.wired.listed, hfold.wired.owned⟩, hfold.relays⟩
  · exact hboot

/-! ### Stopping the listeners -/

/-- Every zap subscription is one of these objects'. -/
def OwnedBy (ctx : ZapCtx) (objects : List ℕ) : Prop :=
  ∀ m, ∀ s ∈ (ctx.manager m).subs, ∀ j, s.1 = zapSubId j →
    ∃ o ∈ objects, ∃ l, ctx.objects[o]? = some l ∧ l.manager = m ∧ l.subId = s.1 ∧
      l.started = true

theorem OwnedBy.stopListener {ctx : ZapCtx} {o : ℕ} {objects : List ℕ}
    (h : OwnedBy ctx (o :: objects)) : OwnedBy (ctx.stopListener o) objects := by
  unfold ZapCtx.stopListener
  split
  · rename_i hnone
    intro m s hs j hj
    obtain ⟨o', ho', l', hl', hrest⟩ := h m s hs j hj
    rcases List.mem_cons.mp ho' with rfl | ho'
    · cases hnone.symm.trans hl'
    · exact ⟨o', ho', l', hl', hrest⟩
  · rename_i l hl
    split
    · intro m s hs j hj
      have hold : s ∈ (ctx.manager m).subs ∧ ¬ (l.manager = m ∧ l.subId = s.1) := by
        simp only [updateManager] at hs
        split at hs
        · rename_i hm
          obtain ⟨hmem, hne⟩ := List.mem_filter.mp hs
          exact ⟨hm ▸ hmem, fun heq => (bne_iff_ne.mp hne) heq.2.symm⟩
        · rename_i hm
          exact ⟨hs, fun heq => hm heq.1.symm⟩
      obtain ⟨o', ho', l', hl', hm', hid', hstarted⟩ := h m s hold.1 j hj
      have hne : o ≠ o' := by
        rintro rfl
        cases hl.symm.trans hl'
        exact hold.2 ⟨hm', hid'⟩
      refine ⟨o', (List.mem_cons.mp ho').resolve_left (Ne.symm hne), l', ?_, hm', hid', hstarted⟩
      exact (List.getElem?_set_ne hne).trans hl'
    · rename_i hstopped
      intro m s hs j hj
      obtain ⟨o', ho', l', hl', hm', hid', hstarted⟩ := h m s hs j hj
      rcases List.mem_cons.mp ho' with rfl | ho'
      · cases hl.symm.trans hl'
        exact absurd hstarted hstopped
      · exact ⟨o', ho', l', hl', hm', hid', hstarted⟩

theorem relays_stopListener (ctx : ZapCtx) (o : ℕ) :
    (ctx.stopListener o).sources = ctx.sources ∧
      (ctx.stopListener o).zapRelays = ctx.zapRelays := by
  unfold ZapCtx.stopListener
  split
  · exact ⟨rfl, rfl⟩
  · split
    · exact ⟨rfl, rfl⟩
    · exact ⟨rfl, rfl⟩

/-- All the listeners stopped, no zap subscription is left. -/
theorem OwnedBy.foldl_stopListener {ctx : ZapCtx} {objects : List ℕ} (h : OwnedBy ctx objects) :
    IdsBelow (objects.foldl ZapCtx.stopListener ctx) 0 ∧
      (objects.foldl ZapCtx.stopListener ctx).sources = ctx.sources ∧
        (objects.foldl ZapCtx.stopListener ctx).zapRelays = ctx.zapRelays := by
  induction objects generalizing ctx with
  | nil =>
      refine ⟨fun m s hs j _ heq => ?_, rfl, rfl⟩
      obtain ⟨o, ho, _⟩ := h m s hs j heq
      cases ho
  | cons o objects ih =>
      obtain ⟨hids, hsources, hrelays⟩ := ih h.stopListener
      have hstop := relays_stopListener ctx o
      exact ⟨hids, hsources.trans hstop.1, hrelays.trans hstop.2⟩

/-! ### Rebuilding the listeners -/

/-- The managers which the loop gives to the urls, from a position of the cursor on. -/
def assigned (ctx : ZapCtx) : ℕ → List String → List ManagerRef
  | _, [] => []
  | start, url :: urls =>
      match ctx.findSiblingSubs url with
      | some m => m :: assigned ctx start urls
      | none =>
          match ctx.findDedicated start url with
          | none => assigned ctx (max start ctx.zapRelays.length) urls
          | some k => .dedicated k :: assigned ctx (k + 1) urls

/-- The listeners of the managers are on the list behind those of the first context, started and
bound to the pubkeys. -/
structure Rebuilt (ctx ctx' : ZapCtx) (pubkeys : List String) (managers : List ManagerRef) :
    Prop where
  sources : ctx'.sources = ctx.sources
  relays : ctx'.zapRelays = ctx.zapRelays
  wired : Wired ctx'
  live : ∃ new, ctx'.live = ctx.live ++ new ∧ new.map ZapListenerObject.manager = managers ∧
    ∀ l ∈ new, l.started = true ∧ l.recipients = pubkeys

section Rebuild

variable {ctx ctx' : ZapCtx} {pubkeys : List String} {managers : List ManagerRef} {i : ℕ}

theorem Rebuilt.refl (h : Wired ctx) : Rebuilt ctx ctx pubkeys [] :=
  ⟨rfl, rfl, h, [], (List.append_nil _).symm, rfl, nofun⟩

theorem Rebuilt.opened_trans {m : ManagerRef} {now : ℤ} (h : Wired ctx)
    (hrest : Rebuilt (ctx.opened m i pubkeys now) ctx' pubkeys managers) :
    Rebuilt ctx ctx' pubkeys (m :: managers) := by
  obtain ⟨new, hlive, hmanagers, hnew⟩ := hrest.live
  refine ⟨hrest.sources, hrest.relays, hrest.wired, ⟨m, zapSubId i, pubkeys, true⟩ :: new, ?_, ?_,
    fun l hl => ?_⟩
  · rw [hlive, live_opened m now h, List.append_assoc, List.singleton_append]
  · rw [List.map_cons, hmanagers]
  · rcases List.mem_cons.mp hl with rfl | hl
    · exact ⟨rfl, rfl⟩
    · exact hnew l hl

theorem assigned_congr (ctx ctx' : ZapCtx) (hsources : ctx'.sources = ctx.sources)
    (hrelays : ctx'.zapRelays = ctx.zapRelays) (start : ℕ) (urls : List String) :
    ctx'.assigned start urls = ctx.assigned start urls := by
  induction urls generalizing start with
  | nil => rfl
  | cons url urls ih =>
      simp only [assigned, findSiblingSubs, findDedicated, hsources, hrelays, ih]

theorem foldl_refreshRelay {cfg : ZapListenerConfig} (hpubkeys : cfg.zapPubkeys ≠ []) (now : ℤ)
    (urls : List String) (start : ℕ) (h : Wired ctx) (hids : IdsBelow ctx i) :
    Rebuilt ctx ((urls.zipIdx i).foldl (refreshRelay cfg now) (ctx, start)).1 cfg.zapPubkeys
      (ctx.assigned start urls) := by
  induction urls generalizing ctx i start with
  | nil => exact .refl h
  | cons url urls ih =>
      rw [List.zipIdx_cons, List.foldl_cons]
      have hopened : ∀ (m : ManagerRef) (start : ℕ),
          Rebuilt ctx ((urls.zipIdx (i + 1)).foldl (refreshRelay cfg now)
            (ctx.opened m i cfg.zapPubkeys now, start)).1 cfg.zapPubkeys
            (m :: ctx.assigned start urls) := by
        intro m start
        have hwired : Wired (ctx.opened m i cfg.zapPubkeys now) := h.opened m now
        have hrest := ih start hwired (hids.opened m now)
        have hassigned : (ctx.opened m i cfg.zapPubkeys now).assigned start urls =
            ctx.assigned start urls :=
          assigned_congr ctx (ctx.opened m i cfg.zapPubkeys now) rfl rfl start urls
        rw [hassigned] at hrest
        exact .opened_trans h hrest
      cases hm : ctx.findSiblingSubs url with
      | some m =>
          simp only [refreshRelay, assigned, hm, rebuildListener_eq (hids.free m) hpubkeys now]
          exact hopened m start
      | none =>
          cases hk : ctx.findDedicated start url with
          | none =>
              simp only [refreshRelay, assigned, hm, hk]
              exact ih _ h hids.succ
          | some k =>
              simp only [refreshRelay, assigned, hm, hk,
                rebuildListener_eq (hids.free _) hpubkeys now]
              exact hopened (.dedicated k) (k + 1)

end Rebuild

section Counts

variable (ctx : ZapCtx)

theorem findSiblingSubs_source {url : String} {m : ManagerRef}
    (h : ctx.findSiblingSubs url = some m) : ∃ k, m = .source k := by
  obtain ⟨k, _, rfl⟩ := Option.map_eq_some_iff.mp h
  exact ⟨k, rfl⟩

/-- The data sources get a listener for each of their urls. -/
theorem count_source_assigned (k start : ℕ) (urls : List String) :
    (ctx.assigned start urls).count (.source k) =
      (urls.filterMap ctx.findSiblingSubs).count (.source k) := by
  induction urls generalizing start with
  | nil => rfl
  | cons url urls ih =>
      rw [assigned]
      split
      · rename_i m hm
        rw [List.filterMap_cons_some hm, List.count_cons, List.count_cons, ih]
      · rename_i hnone
        rw [List.filterMap_cons_none hnone]
        split
        · exact ih _
        · rw [List.count_cons_of_ne (by simp), ih]

/-- The dedicated relays get the listeners of the urls which the cursor finds them for. -/
theorem count_dedicated_assigned (k start : ℕ) (urls : List String) :
    (ctx.assigned start urls).count (.dedicated k) =
      (Cursor.taken shouldShareNostrRelay ctx.zapRelays start (ctx.unshared urls)).count k := by
  induction urls generalizing start with
  | nil => rfl
  | cons url urls ih =>
      rw [assigned]
      split
      · rename_i m hm
        obtain ⟨j, rfl⟩ := ctx.findSiblingSubs_source hm
        have hshared : ctx.unshared (url :: urls) = ctx.unshared urls :=
          List.filter_cons_of_neg (by simp [hm])
        rw [List.count_cons_of_ne (by simp), ih, hshared]
      · rename_i hnone
        have hshared : ctx.unshared (url :: urls) = url :: ctx.unshared urls :=
          List.filter_cons_of_pos (by simp [hnone])
        have hfind : Cursor.findFrom shouldShareNostrRelay ctx.zapRelays start url =
            ctx.findDedicated start url := rfl
        rw [hshared, Cursor.taken, hfind]
        cases ctx.findDedicated start url with
        | none => exact ih _
        | some j =>
            dsimp only
            rw [List.count_cons, List.count_cons, ih]
            simp

end Counts

/-! ### The refresh -/

section Refresh

variable {ctx : ZapCtx} {cfg : ZapListenerConfig}

/-- The context with its listeners stopped and taken off the list. -/
def stopped (ctx : ZapCtx) (cfg : ZapListenerConfig) : ZapCtx :=
  { ctx.zapListeners.foldl stopListener (ctx.storeFlags cfg) with zapListeners := [] }

theorem idsBelow_stopped (h : Wired ctx) (cfg : ZapListenerConfig) :
    IdsBelow (ctx.stopped cfg) 0 ∧ (ctx.stopped cfg).sources = ctx.sources ∧
      (ctx.stopped cfg).zapRelays = ctx.zapRelays := by
  have howned : OwnedBy (ctx.storeFlags cfg) ctx.zapListeners := h.owned
  exact howned.foldl_stopListener

/-- With new pubkeys and some listener wired, the listeners are rebuilt along the list. -/
theorem NewPubkeys.rebuilt (h : NewPubkeys ctx cfg) (hctx : Wired ctx)
    (hlisteners : ctx.zapListeners ≠ []) (now : ℤ) :
    Rebuilt (ctx.stopped cfg) (ctx.refreshZapListenerSettings cfg now) cfg.zapPubkeys
      (ctx.assigned 0 cfg.relayUrls) := by
  obtain ⟨hids, hsources, hrelays⟩ := idsBelow_stopped hctx cfg
  have hrebuilt := foldl_refreshRelay h.nonempty now cfg.relayUrls 0
    (wired_of_idsBelow hids rfl) hids
  have hassigned : (ctx.stopped cfg).assigned 0 cfg.relayUrls = ctx.assigned 0 cfg.relayUrls :=
    assigned_congr _ _ hsources hrelays 0 cfg.relayUrls
  have hlength : (cfg.zapPubkeys.all fun pk => decide (pk.length = 64)) = true :=
    List.all_eq_true.mpr fun pk hpk => decide_eq_true (h.length pk hpk)
  have hrefresh : ctx.refreshZapListenerSettings cfg now =
      { ((cfg.relayUrls.zipIdx.foldl (refreshRelay cfg now) (ctx.stopped cfg, 0)).1) with
        zapPubkeysCurrent := cfg.zapPubkeys } := by
    unfold refreshZapListenerSettings
    dsimp only
    rw [if_neg (show (ctx.storeFlags cfg).zapListeners ≠ [] from hlisteners),
      if_neg (show cfg.zapPubkeys ≠ (ctx.storeFlags cfg).zapPubkeysCurrent from h.changed),
      if_neg h.nonempty, if_neg (by rw [hlength]; exact Bool.noConfusion)]
    rfl
  rw [hrefresh, ← hassigned]
  exact ⟨hrebuilt.sources, hrebuilt.relays, ⟨hrebuilt.wired.listed, hrebuilt.wired.owned⟩,
    hrebuilt.live⟩

/-- After a rebuild a manager has one listener exactly when it was given one. -/
theorem Rebuilt.oneStarted_iff {ctx ctx' : ZapCtx} {pubkeys : List String}
    {managers : List ManagerRef} (h : Rebuilt ctx ctx' pubkeys managers) (hlive : ctx.live = [])
    (m : ManagerRef) : ctx'.OneStarted pubkeys m ↔ managers.count m = 1 := by
  obtain ⟨new, hnew, hmanagers, hbound⟩ := h.live
  rw [hlive, List.nil_append] at hnew
  have hstarted : ctx'.startedOn m = new.filter fun l => l.manager = m := by
    rw [startedOn, hnew]
    refine List.filter_congr fun l hl => decide_eq_decide.mpr ?_
    exact and_iff_left (hbound l hl).1
  have hcount : (ctx'.startedOn m).length = managers.count m := by
    rw [hstarted, ← hmanagers, List.count, List.countP_map, List.countP_eq_length_filter]
    rfl
  rw [← hcount, List.length_eq_one_iff, OneStarted]
  refine exists_congr fun l => and_iff_left_of_imp fun heq => ?_
  have hmem : l ∈ ctx'.startedOn m := heq ▸ List.mem_cons_self
  rw [hstarted] at hmem
  exact (hbound l (List.mem_of_mem_filter hmem)).2

/-- Without a listener or without new pubkeys nothing but the flags is stored. -/
theorem refresh_eq_storeFlags (h : ctx.zapListeners = [] ∨ ¬ NewPubkeys ctx cfg) (now : ℤ) :
    ctx.refreshZapListenerSettings cfg now = ctx.storeFlags cfg := by
  unfold refreshZapListenerSettings
  dsimp only
  split
  · rfl
  split
  · rfl
  split
  · rfl
  split
  · rfl
  · rename_i hlisteners hchanged hnonempty hlength
    have hnew : NewPubkeys ctx cfg := by
      refine ⟨hchanged, hnonempty, fun pk hpk => ?_⟩
      exact of_decide_eq_true (List.all_eq_true.mp ((Bool.not_eq_false _).mp hlength) pk hpk)
    exact absurd hnew (h.resolve_left hlisteners)

theorem Booted.refresh (h : Booted ctx) (cfg : ZapListenerConfig) (now : ℤ) :
    Booted (ctx.refreshZapListenerSettings cfg now) := by
  by_cases hnew : ctx.zapListeners = [] ∨ ¬ NewPubkeys ctx cfg
  · rw [refresh_eq_storeFlags hnew now]
    exact ⟨⟨h.wired.listed, h.wired.owned⟩, h.relays⟩
  · obtain ⟨hlisteners, hnew⟩ := not_or.mp hnew
    have hrebuilt := (not_not.mp hnew).rebuilt h.wired hlisteners now
    obtain ⟨-, hsources, hrelays⟩ := idsBelow_stopped h.wired cfg
    refine ⟨hrebuilt.wired, fun r hr => ?_⟩
    rw [hrebuilt.relays, hrelays] at hr
    rw [findSiblingSubs, hrebuilt.sources, hsources]
    exact h.relays r hr

end Refresh

/-! ### Which relays are kept -/

theorem shouldShareNostrRelay_iff (a b : String) :
    shouldShareNostrRelay a b = true ↔
      a ≠ "" ∧ b ≠ "" ∧ (stripSlash a.toList).map toLowerAscii =
        (stripSlash b.toList).map toLowerAscii := by
  unfold shouldShareNostrRelay
  split
  · rename_i h
    exact iff_of_false Bool.false_ne_true fun hall => h.elim hall.1 hall.2.1
  · rename_i h
    rw [decide_eq_true_iff]
    exact ⟨fun heq => ⟨(not_or.mp h).1, (not_or.mp h).2, heq⟩, fun hall => hall.2.2⟩

/-- Two relays which are shared with the same one are shared with each other. -/
theorem shouldShareNostrRelay_of_common {a b url : String}
    (ha : shouldShareNostrRelay a url = true) (hb : shouldShareNostrRelay b url = true) :
    shouldShareNostrRelay a b = true := by
  rw [shouldShareNostrRelay_iff] at ha hb ⊢
  exact ⟨ha.1, hb.1, ha.2.2.trans hb.2.2.symm⟩

section Keeps

variable {ctx : ZapCtx} {cfg : ZapListenerConfig}

/-- A url which a dedicated relay is shared with has no data source. -/
theorem Booted.wantedBy_unshared_iff (h : Booted ctx) {r : String} (hr : r ∈ ctx.zapRelays)
    (urls : List String) :
    Cursor.wantedBy shouldShareNostrRelay (ctx.unshared urls) r = true ↔
      ∃ url ∈ urls, shouldShareNostrRelay r url = true := by
  rw [Cursor.wantedBy_iff]
  constructor
  · rintro ⟨url, hurl, hshare⟩
    exact ⟨url, List.mem_of_mem_filter hurl, hshare⟩
  · rintro ⟨url, hurl, hshare⟩
    refine ⟨url, List.mem_filter.mpr ⟨hurl, ?_⟩, hshare⟩
    rw [Option.isNone_iff_eq_none, SourceCtx.findSiblingSubs_eq_none_iff]
    intro ds hds
    refine Bool.eq_false_iff.mpr fun hds' => ?_
    have hnone := (SourceCtx.findSiblingSubs_eq_none_iff ctx r).mp (h.relays r hr).2 ds hds
    rw [shouldShareNostrRelay_of_common hds' hshare] at hnone
    cases hnone

/-- The dedicated relays on the list are taken one by one exactly when they come first on it. -/
theorem Booted.dedicated_iff (h : Booted ctx) (urls : List String) :
    (∀ k, ∀ hk : k < ctx.zapRelays.length,
        (∃ url ∈ urls, shouldShareNostrRelay ctx.zapRelays[k] url = true) →
          (ctx.assigned 0 urls).count (.dedicated k) = 1) ↔
      Cursor.InFront shouldShareNostrRelay ctx.zapRelays (ctx.unshared urls) := by
  have hfront := Cursor.forall_mem_taken_iff (r := shouldShareNostrRelay) ctx.zapRelays 0
    (ctx.unshared urls)
  rw [List.drop_zero] at hfront
  rw [← hfront]
  have hcount : ∀ k, (ctx.assigned 0 urls).count (.dedicated k) = 1 ↔
      k ∈ Cursor.taken shouldShareNostrRelay ctx.zapRelays 0 (ctx.unshared urls) := by
    intro k
    rw [count_dedicated_assigned, (Cursor.nodup_taken _ _ _).count]
    split
    · exact iff_of_true rfl ‹_›
    · exact iff_of_false Nat.zero_ne_one ‹_›
  refine forall_congr' fun k => ⟨fun hall _ hk hwanted => ?_, fun hall hk hwanted => ?_⟩
  · have hurl := (h.wantedBy_unshared_iff (List.getElem_mem hk) urls).mp hwanted
    exact (hcount k).mp (hall hk hurl)
  · have hunshared := (h.wantedBy_unshared_iff (List.getElem_mem hk) urls).mpr hwanted
    exact (hcount k).mpr (hall (Nat.zero_le k) hk hunshared)

/-- The data sources on the list have one listener each exactly when none is on it twice. -/
theorem shared_iff (ctx : ZapCtx) (urls : List String) :
    (∀ url ∈ urls, ∀ m, ctx.findSiblingSubs url = some m → (ctx.assigned 0 urls).count m = 1) ↔
      (urls.filterMap ctx.findSiblingSubs).Nodup := by
  rw [List.nodup_iff_count_eq_one]
  constructor
  · intro h m hm
    obtain ⟨url, hurl, hm⟩ := List.mem_filterMap.mp hm
    obtain ⟨k, rfl⟩ := ctx.findSiblingSubs_source hm
    rw [← count_source_assigned]
    exact h url hurl _ hm
  · intro h url hurl m hm
    obtain ⟨k, rfl⟩ := ctx.findSiblingSubs_source hm
    rw [count_source_assigned]
    exact h _ (List.mem_filterMap.mpr ⟨url, hurl, hm⟩)

theorem not_oneStarted_of_live_eq_nil {pubkeys : List String} (h : ctx.live = [])
    (m : ManagerRef) : ¬ ctx.OneStarted pubkeys m := by
  rintro ⟨l, hl, -⟩
  rw [startedOn, h] at hl
  cases hl

/-- Without a listener no relay of the list may be connected. -/
theorem keepsRelays_of_live_eq_nil (h : ctx.live = []) :
    KeepsRelays ctx cfg ↔ ¬ ctx.Connected cfg.relayUrls := by
  constructor
  · rintro hkeeps ⟨url, hurl, ⟨m, hm⟩ | ⟨r, hr, hshare⟩⟩
    · exact not_oneStarted_of_live_eq_nil h m (hkeeps.shared url hurl m hm)
    · obtain ⟨k, hk, rfl⟩ := List.mem_iff_getElem.mp hr
      exact not_oneStarted_of_live_eq_nil h _ (hkeeps.dedicated k hk ⟨url, hurl, hshare⟩)
  · intro hnot
    constructor
    · rintro k hk ⟨url, hurl, hshare⟩
      exact absurd ⟨url, hurl, Or.inr ⟨_, List.getElem_mem hk, hshare⟩⟩ hnot
    · intro url hurl m hm
      exact absurd ⟨url, hurl, Or.inl ⟨m, hm⟩⟩ hnot

/-- Where no relay of the list is connected the rebuild has nothing to pass over. -/
theorem Rotates.of_not_connected (h : Booted ctx) {urls : List String}
    (hnot : ¬ ctx.Connected urls) : Rotates ctx urls := by
  refine ⟨(h.dedicated_iff urls).mp ?_, (shared_iff ctx urls).mp ?_, fun _ => hnot⟩
  · rintro k hk ⟨url, hurl, hshare⟩
    exact absurd ⟨url, hurl, Or.inr ⟨_, List.getElem_mem hk, hshare⟩⟩ hnot
  · intro url hurl m hm
    exact absurd ⟨url, hurl, Or.inl ⟨m, hm⟩⟩ hnot

/-- New pubkeys keep the relays exactly when the condition on the two lists holds. -/
theorem Booted.keepsRelays_iff (h : Booted ctx) (hnew : NewPubkeys ctx cfg) (now : ℤ) :
    KeepsRelays (ctx.refreshZapListenerSettings cfg now) cfg ↔ Rotates ctx cfg.relayUrls := by
  by_cases hlisteners : ctx.zapListeners = []
  · have hlive : (ctx.storeFlags cfg).live = [] := by
      show ctx.zapListeners.filterMap _ = []
      rw [hlisteners]
      rfl
    rw [refresh_eq_storeFlags (Or.inl hlisteners) now, keepsRelays_of_live_eq_nil hlive]
    exact ⟨fun hnot => .of_not_connected h hnot, fun hrotates => hrotates.wired hlisteners⟩
  · have hrebuilt := hnew.rebuilt h.wired hlisteners now
    obtain ⟨-, hsources, hrelays⟩ := idsBelow_stopped h.wired cfg
    have hone := hrebuilt.oneStarted_iff rfl
    have hsibling : (ctx.refreshZapListenerSettings cfg now).findSiblingSubs =
        ctx.findSiblingSubs := by
      funext url
      rw [findSiblingSubs, findSiblingSubs, hrebuilt.sources, hsources]
    have hzapRelays : (ctx.refreshZapListenerSettings cfg now).zapRelays = ctx.zapRelays :=
      hrebuilt.relays.trans hrelays
    constructor
    · rintro ⟨hdedicated, hshared⟩
      simp only [hone, hzapRelays, hsibling] at hdedicated hshared
      exact ⟨(h.dedicated_iff _).mp hdedicated, (shared_iff ctx _).mp hshared,
        fun hnil => absurd hnil hlisteners⟩
    · rintro ⟨hfront, honce, -⟩
      have hdedicated := (h.dedicated_iff _).mpr hfront
      have hshared := (shared_iff ctx _).mpr honce
      constructor
      · simpa only [hone, hzapRelays] using hdedicated
      · simpa only [hone, hsibling] using hshared

end Keeps

/-! ### Runs of refreshes -/

/-- The wiring after the boot and the refreshes since. -/
def afterRefreshes (dataRelays : List String) (author : String) (bootCfg : ZapListenerConfig)
    (relayStarts : ℕ → Bool) (bootNow : ℤ) (refreshes : List (ZapListenerConfig × ℤ)) : ZapCtx :=
  run (fun ctx refresh => ctx.refreshZapListenerSettings refresh.1 refresh.2)
    ((boot (sourceConfigs dataRelays author)).initZapListener bootCfg relayStarts bootNow)
    refreshes

theorem booted_afterRefreshes (dataRelays : List String) (author : String)
    (bootCfg : ZapListenerConfig) (relayStarts : ℕ → Bool) (bootNow : ℤ)
    (refreshes : List (ZapListenerConfig × ℤ)) :
    Booted (afterRefreshes dataRelays author bootCfg relayStarts bootNow refreshes) :=
  run_invariant (fun _ refresh h => h.refresh refresh.1 refresh.2)
    (booted_initZapListener dataRelays author bootCfg relayStarts bootNow) refreshes

/-- Whatever was stored at the boot and at the refreshes since, a refresh with new pubkeys keeps
the relays of its list exactly when the dedicated ones come first on it in their order, no data
source is on it twice, and a listener is wired. -/
theorem refresh_keepsRelays_iff (dataRelays : List String) (author : String)
    (bootCfg : ZapListenerConfig) (relayStarts : ℕ → Bool) (bootNow : ℤ)
    (refreshes : List (ZapListenerConfig × ℤ)) {cfg : ZapListenerConfig} (now : ℤ)
    (hnew : NewPubkeys
      (afterRefreshes dataRelays author bootCfg relayStarts bootNow refreshes) cfg) :
    KeepsRelays
        ((afterRefreshes dataRelays author bootCfg relayStarts bootNow
          refreshes).refreshZapListenerSettings cfg now) cfg ↔
      Rotates (afterRefreshes dataRelays author bootCfg relayStarts bootNow refreshes)
        cfg.relayUrls :=
  (booted_afterRefreshes ..).keepsRelays_iff hnew now

/-- A configuration with one pubkey, which repeats a character. -/
def plainConfig (relayUrls : List String) (c : Char) : ZapListenerConfig where
  enabled := true
  relayUrls := relayUrls
  zapPubkeys := [String.ofList (List.replicate 64 c)]

theorem newPubkeys_plainConfig (relayUrls : List String) :
    NewPubkeys (afterRefreshes [] "" (plainConfig ["wss://a", "wss://b"] 'a') (fun _ => true) 0 [])
      (plainConfig relayUrls 'b') where
  changed := by
    have hne : [String.ofList (List.replicate 64 'b')] ≠
        [String.ofList (List.replicate 64 'a')] := by
      decide
    exact hne
  nonempty := List.cons_ne_nil _ _
  length pk hpk := by
    rw [List.mem_singleton.mp hpk]
    decide

/-- The list of the boot with a relay behind it. -/
theorem refresh_keepsRelays_appended :
    NewPubkeys (afterRefreshes [] "" (plainConfig ["wss://a", "wss://b"] 'a') (fun _ => true) 0 [])
        (plainConfig ["wss://a", "wss://b", "wss://c"] 'b') ∧
      (KeepsRelays
          ((afterRefreshes [] "" (plainConfig ["wss://a", "wss://b"] 'a') (fun _ => true) 0
            []).refreshZapListenerSettings (plainConfig ["wss://a", "wss://b", "wss://c"] 'b') 0)
          (plainConfig ["wss://a", "wss://b", "wss://c"] 'b') ↔
        Rotates (afterRefreshes [] "" (plainConfig ["wss://a", "wss://b"] 'a') (fun _ => true) 0 [])
          ["wss://a", "wss://b", "wss://c"]) :=
  ⟨newPubkeys_plainConfig _, refresh_keepsRelays_iff [] "" _ _ 0 [] 0 (newPubkeys_plainConfig _)⟩

/-- The two relays of the boot are stored the other way round. -/
theorem not_keepsRelays_reordered :
    NewPubkeys (afterRefreshes [] "" (plainConfig ["wss://a", "wss://b"] 'a') (fun _ => true) 0 [])
        (plainConfig ["wss://b", "wss://a"] 'b') ∧
      ¬ KeepsRelays
        ((afterRefreshes [] "" (plainConfig ["wss://a", "wss://b"] 'a') (fun _ => true) 0
          []).refreshZapListenerSettings (plainConfig ["wss://b", "wss://a"] 'b') 0)
        (plainConfig ["wss://b", "wss://a"] 'b') := by
  refine ⟨newPubkeys_plainConfig _, fun h => ?_⟩
  obtain ⟨l, hl, -⟩ := h.dedicated 0 (by decide) ⟨"wss://a", by decide, by decide⟩
  have hnil : ((afterRefreshes [] "" (plainConfig ["wss://a", "wss://b"] 'a') (fun _ => true) 0
      []).refreshZapListenerSettings (plainConfig ["wss://b", "wss://a"] 'b') 0).startedOn
        (.dedicated 0) = [] := by
    decide
  cases hnil.symm.trans hl

end ZapCtx

end Nostr

end BtClock
