import BtClock.Nostr.SubscriptionManager
import BtClock.Transition.Run

/-!
# Routing of event frames

The data source and the zap listeners of a relay share one `SubscriptionManager`.  Each
has a subscription id of its own, but the manager has one callback, and a listener takes
it over when it is constructed.  An event frame reaches the consumer it is for as long as
no listener was constructed on the same manager after that consumer.
-/

namespace BtClock

namespace Nostr

namespace ZapCtx

/-- What happens to the wiring: boot or a settings change attaches listeners, and a
relay sends an event frame. -/
inductive WiringEvent
  | init (cfg : ZapListenerConfig) (relayStarts : ℕ → Bool) (now : ℤ)
  | refresh (cfg : ZapListenerConfig) (now : ℤ)
  | frame (m : ManagerRef) (subId : String) (ev : Event)

def step (ctx : ZapCtx) : WiringEvent → ZapCtx
  | .init cfg relayStarts now => ctx.initZapListener cfg relayStarts now
  | .refresh cfg now => ctx.refreshZapListenerSettings cfg now
  | .frame _ _ _ => ctx

/-- The consumer `c` is attached to the manager `m` under the id `subId`. -/
def Attached (ctx : ZapCtx) (m : ManagerRef) (subId : String) : Consumer → Prop
  | .dataSource k =>
      m = .source k ∧ ctx.sources[k]?.map SourceConfig.subId = some subId
  | .zapListener object =>
      object ∈ ctx.zapListeners ∧
        ∃ l, ctx.objects[object]? = some l ∧ l.manager = m ∧ l.subId = subId

/-- A frame under `subId` reaches every consumer it is for, exactly once. -/
def FrameReaches (ctx : ZapCtx) : WiringEvent → Prop
  | .frame m subId _ =>
      ∀ c, ctx.Attached m subId c → (ctx.handleEvent m subId).count c = 1
  | _ => True

/-- The listeners constructed on the manager `m`, by object number. -/
def ConstructedOn (ctx : ZapCtx) (m : ManagerRef) (object : ℕ) : Prop :=
  ∃ l, ctx.objects[object]? = some l ∧ l.manager = m

/-- A frame of the data source arrives while no listener was constructed on its manager,
and a frame of a listener while none was constructed there after it. -/
def FrameUnshadowed (ctx : ZapCtx) : WiringEvent → Prop
  | .frame m subId _ =>
      (∀ k, ctx.Attached m subId (.dataSource k) → ∀ o, ¬ ctx.ConstructedOn m o) ∧
      ∀ o, ctx.Attached m subId (.zapListener o) →
        ∀ o', ctx.ConstructedOn m o' → o' ≤ o
  | _ => True

/-- The callback of each manager is the one of the last listener constructed on it, and
the data source's while there is none. -/
structure CallbackInv (ctx : ZapCtx) : Prop where
  last : ∀ m o, (ctx.manager m).onEvent = .zapListener o →
    ctx.ConstructedOn m o ∧ ∀ o', ctx.ConstructedOn m o' → o' ≤ o
  source : ∀ m k, (ctx.manager m).onEvent = .dataSource k →
    m = .source k ∧ ∀ o, ¬ ctx.ConstructedOn m o
  none : ∀ m, (ctx.manager m).onEvent = .none →
    (∀ o, ¬ ctx.ConstructedOn m o) ∧ ∀ k, m = .source k → ctx.sources.length ≤ k

theorem callbackInv_boot (sources : List SourceConfig) :
    CallbackInv (boot sources) where
  last m o h := by
    cases m with
    | source k => cases hk : sources[k]? <;> simp [boot, hk] at h
    | dedicated k => simp [boot] at h
  source m k h := by
    cases m with
    | source j =>
        cases hk : sources[j]? <;> simp [boot, hk] at h
        subst h
        exact ⟨rfl, fun o ⟨l, hl, _⟩ => by simp [boot] at hl⟩
    | dedicated j => simp [boot] at h
  none m h := by
    refine ⟨fun o ⟨l, hl, _⟩ => by simp [boot] at hl, ?_⟩
    rintro k rfl
    cases hk : sources[k]? with
    | none => exact List.getElem?_eq_none_iff.mp hk
    | some cfg => simp [boot, hk] at h

/-- Two contexts with the same sources, objects and callbacks. -/
structure SameCallbacks (ctx ctx' : ZapCtx) : Prop where
  sources : ctx'.sources = ctx.sources
  constructedOn : ∀ m o, ctx'.ConstructedOn m o ↔ ctx.ConstructedOn m o
  onEvent : ∀ m, (ctx'.manager m).onEvent = (ctx.manager m).onEvent

theorem SameCallbacks.refl (ctx : ZapCtx) : SameCallbacks ctx ctx :=
  ⟨rfl, fun _ _ => Iff.rfl, fun _ => rfl⟩

theorem SameCallbacks.trans {ctx ctx' ctx'' : ZapCtx} (h : SameCallbacks ctx ctx')
    (h' : SameCallbacks ctx' ctx'') : SameCallbacks ctx ctx'' :=
  ⟨h'.sources.trans h.sources,
    fun m o => (h'.constructedOn m o).trans (h.constructedOn m o),
    fun m => (h'.onEvent m).trans (h.onEvent m)⟩

theorem CallbackInv.congr {ctx ctx' : ZapCtx} (hinv : CallbackInv ctx)
    (h : SameCallbacks ctx ctx') : CallbackInv ctx' where
  last m o ho := by
    simpa only [h.constructedOn] using hinv.last m o (h.onEvent m ▸ ho)
  source m k hk := by
    simpa only [h.constructedOn] using hinv.source m k (h.onEvent m ▸ hk)
  none m hm := by
    simpa only [h.constructedOn, h.sources] using hinv.none m (h.onEvent m ▸ hm)

theorem constructedOn_set {ctx : ZapCtx} {object : ℕ} {l l' : ZapListenerObject}
    {ctx' : ZapCtx} (hl : ctx.objects[object]? = some l)
    (hobj : ctx'.objects = ctx.objects.set object l') (hm : l'.manager = l.manager)
    (m : ManagerRef) (o : ℕ) :
    ctx'.ConstructedOn m o ↔ ctx.ConstructedOn m o := by
  have hlt : object < ctx.objects.length := (List.getElem?_eq_some_iff.mp hl).1
  rw [ConstructedOn, ConstructedOn, hobj]
  by_cases ho : object = o
  · subst ho
    simp [List.getElem?_set_self hlt, hl, hm]
  · rw [List.getElem?_set_ne ho]

theorem sameCallbacks_startListener (ctx : ZapCtx) (object : ℕ) (now : ℤ) :
    SameCallbacks ctx (ctx.startListener object now).1 := by
  unfold startListener
  split
  · exact .refl ctx
  rename_i l hl
  split
  · exact .refl ctx
  split
  · exact .refl ctx
  split
  · exact .refl ctx
  rename_i mgr hmgr
  refine ⟨rfl, constructedOn_set hl rfl rfl, fun m => ?_⟩
  have hev : mgr.onEvent = (ctx.manager l.manager).onEvent := by
    simp only [SubscriptionManager.subscribe] at hmgr
    split at hmgr
    · cases hmgr
    · cases hmgr
      rfl
  by_cases hm : m = l.manager
  · subst hm
    simp [updateManager, hev]
  · simp [updateManager, hm]

theorem sameCallbacks_stopListener (ctx : ZapCtx) (object : ℕ) :
    SameCallbacks ctx (ctx.stopListener object) := by
  unfold stopListener
  split
  · exact .refl ctx
  rename_i l hl
  split
  · refine ⟨rfl, constructedOn_set hl rfl rfl, fun m => ?_⟩
    by_cases hm : m = l.manager
    · subst hm
      simp [updateManager, SubscriptionManager.unsubscribe]
    · simp [updateManager, hm]
  · exact .refl ctx

@[simp]
theorem newListener_sources (ctx : ZapCtx) (m : ManagerRef) (subId : String)
    (recipients : List String) :
    (ctx.newListener m subId recipients).sources = ctx.sources :=
  rfl

theorem constructedOn_newListener (ctx : ZapCtx) (m : ManagerRef) (subId : String)
    (recipients : List String) (m' : ManagerRef) (o : ℕ) :
    (ctx.newListener m subId recipients).ConstructedOn m' o ↔
      ctx.ConstructedOn m' o ∨ (m' = m ∧ o = ctx.objects.length) := by
  simp only [ConstructedOn, newListener, updateManager]
  rcases Nat.lt_trichotomy o ctx.objects.length with ho | ho | ho
  · rw [List.getElem?_append_left ho]
    have : ¬ o = ctx.objects.length := Nat.ne_of_lt ho
    simp [this]
  · subst ho
    simp [eq_comm]
  · rw [List.getElem?_eq_none_iff.mpr (by simp; omega),
      List.getElem?_eq_none_iff.mpr (Nat.le_of_lt ho)]
    have : ¬ o = ctx.objects.length := by omega
    simp [this]

theorem ConstructedOn.lt_length {ctx : ZapCtx} {m : ManagerRef} {o : ℕ}
    (h : ctx.ConstructedOn m o) : o < ctx.objects.length := by
  obtain ⟨l, hl, -⟩ := h
  exact (List.getElem?_eq_some_iff.mp hl).1

/-- Constructing a listener makes it the last one of its manager. -/
theorem CallbackInv.newListener {ctx : ZapCtx} (hinv : CallbackInv ctx)
    (m : ManagerRef) (subId : String) (recipients : List String) :
    CallbackInv (ctx.newListener m subId recipients) := by
  have hcb : ∀ m', ((ctx.newListener m subId recipients).manager m').onEvent =
      if m' = m then .zapListener ctx.objects.length else (ctx.manager m').onEvent := by
    intro m'
    by_cases hm : m' = m
    · subst hm
      simp [ZapCtx.newListener, updateManager, SubscriptionManager.setOnEvent]
    · simp [ZapCtx.newListener, updateManager, hm]
  refine ⟨fun m' o ho => ?_, fun m' k hk => ?_, fun m' hn => ?_⟩
  · rw [hcb] at ho
    by_cases hm : m' = m
    · rw [if_pos hm] at ho
      cases ho
      refine ⟨(constructedOn_newListener ..).mpr (.inr ⟨hm, rfl⟩), fun o' ho' => ?_⟩
      rcases (constructedOn_newListener ..).mp ho' with h | ⟨-, rfl⟩
      · exact Nat.le_of_lt h.lt_length
      · exact Nat.le_refl _
    · rw [if_neg hm] at ho
      simpa [constructedOn_newListener, hm] using hinv.last m' o ho
  · rw [hcb] at hk
    by_cases hm : m' = m
    · rw [if_pos hm] at hk
      cases hk
    · rw [if_neg hm] at hk
      simpa [constructedOn_newListener, hm] using hinv.source m' k hk
  · rw [hcb] at hn
    by_cases hm : m' = m
    · rw [if_pos hm] at hn
      cases hn
    · rw [if_neg hm] at hn
      simpa [constructedOn_newListener, hm] using hinv.none m' hn

theorem CallbackInv.attachListener {ctx : ZapCtx} (hinv : CallbackInv ctx)
    (m : ManagerRef) (i : ℕ) (recipients : List String) (now : ℤ) :
    CallbackInv (ctx.attachListener m i recipients now) :=
  ((hinv.newListener m (zapSubId i) recipients).congr
    (sameCallbacks_startListener _ _ _)).congr ⟨rfl, fun _ _ => Iff.rfl, fun _ => rfl⟩

theorem CallbackInv.rebuildListener {ctx : ZapCtx} (hinv : CallbackInv ctx)
    (m : ManagerRef) (i : ℕ) (recipients : List String) (now : ℤ) :
    CallbackInv (ctx.rebuildListener m i recipients now) := by
  have h := (hinv.newListener m (zapSubId i) recipients).congr
    (sameCallbacks_startListener _ ctx.objects.length now)
  unfold ZapCtx.rebuildListener
  dsimp only
  split
  · exact h.congr ⟨rfl, fun _ _ => Iff.rfl, fun _ => rfl⟩
  · exact h

theorem CallbackInv.initRelay {ctx : ZapCtx} (hinv : CallbackInv ctx)
    (cfg : ZapListenerConfig) (relayStarts : ℕ → Bool) (now : ℤ) (relay : String × ℕ) :
    CallbackInv (ctx.initRelay cfg relayStarts now relay) := by
  unfold ZapCtx.initRelay
  split
  · split
    · exact hinv.attachListener _ _ _ _
    · split
      · have hrelay : CallbackInv { ctx with zapRelays := ctx.zapRelays ++ [relay.1] } :=
          hinv.congr ⟨rfl, fun _ _ => Iff.rfl, fun _ => rfl⟩
        exact hrelay.attachListener _ _ _ _
      · exact hinv
  · exact hinv

theorem CallbackInv.refreshRelay {st : ZapCtx × ℕ} (hinv : CallbackInv st.1)
    (cfg : ZapListenerConfig) (now : ℤ) (relay : String × ℕ) :
    CallbackInv (refreshRelay cfg now st relay).1 := by
  unfold ZapCtx.refreshRelay
  split
  · exact hinv.rebuildListener _ _ _ _
  · split
    · exact hinv
    · exact hinv.rebuildListener _ _ _ _

theorem CallbackInv.foldl_stopListener {ctx : ZapCtx} (hinv : CallbackInv ctx)
    (objects : List ℕ) : CallbackInv (objects.foldl stopListener ctx) := by
  induction objects generalizing ctx with
  | nil => exact hinv
  | cons o objects ih => exact ih (hinv.congr (sameCallbacks_stopListener ctx o))

theorem CallbackInv.foldl_initRelay {ctx : ZapCtx} (hinv : CallbackInv ctx)
    (cfg : ZapListenerConfig) (relayStarts : ℕ → Bool) (now : ℤ)
    (relays : List (String × ℕ)) :
    CallbackInv (relays.foldl (ZapCtx.initRelay cfg relayStarts now) ctx) := by
  induction relays generalizing ctx with
  | nil => exact hinv
  | cons relay relays ih => exact ih (hinv.initRelay cfg relayStarts now relay)

theorem CallbackInv.foldl_refreshRelay {st : ZapCtx × ℕ} (hinv : CallbackInv st.1)
    (cfg : ZapListenerConfig) (now : ℤ) (relays : List (String × ℕ)) :
    CallbackInv (relays.foldl (ZapCtx.refreshRelay cfg now) st).1 := by
  induction relays generalizing st with
  | nil => exact hinv
  | cons relay relays ih => exact ih (hinv.refreshRelay cfg now relay)

theorem CallbackInv.step {ctx : ZapCtx} (hinv : CallbackInv ctx) (e : WiringEvent) :
    CallbackInv (ctx.step e) := by
  have hflags : ∀ cfg, CallbackInv (ctx.storeFlags cfg) := fun cfg =>
    hinv.congr ⟨rfl, fun _ _ => Iff.rfl, fun _ => rfl⟩
  cases e with
  | init cfg relayStarts now =>
      unfold ZapCtx.step initZapListener
      dsimp only
      split
      · exact ((hflags cfg).foldl_initRelay cfg relayStarts now _).congr
          ⟨rfl, fun _ _ => Iff.rfl, fun _ => rfl⟩
      · exact hflags cfg
  | refresh cfg now =>
      unfold ZapCtx.step refreshZapListenerSettings
      dsimp only
      split
      · exact hflags cfg
      split
      · exact hflags cfg
      split
      · exact hflags cfg
      split
      · exact hflags cfg
      · have hstop := (hflags cfg).foldl_stopListener (ctx.storeFlags cfg).zapListeners
        have hclear : CallbackInv { (ctx.storeFlags cfg).zapListeners.foldl stopListener
            (ctx.storeFlags cfg) with zapListeners := [] } :=
          hstop.congr ⟨rfl, fun _ _ => Iff.rfl, fun _ => rfl⟩
        exact (CallbackInv.foldl_refreshRelay hclear cfg now _).congr
          ⟨rfl, fun _ _ => Iff.rfl, fun _ => rfl⟩
  | frame m subId ev => exact hinv

/-- The callback is the attached data source's exactly while no listener was
constructed on its manager. -/
theorem CallbackInv.onEvent_eq_dataSource_iff {ctx : ZapCtx} (hinv : CallbackInv ctx)
    {m : ManagerRef} {subId : String} {k : ℕ}
    (hatt : ctx.Attached m subId (.dataSource k)) :
    (ctx.manager m).onEvent = .dataSource k ↔ ∀ o, ¬ ctx.ConstructedOn m o := by
  obtain ⟨rfl, hsub⟩ := hatt
  constructor
  · intro h
    exact (hinv.source _ _ h).2
  · intro hnone
    cases hev : (ctx.manager (.source k)).onEvent with
    | none =>
        have hlen := (hinv.none _ hev).2 k rfl
        rw [List.getElem?_eq_none_iff.mpr hlen] at hsub
        cases hsub
    | dataSource j =>
        have hj := (hinv.source _ _ hev).1
        cases hj
        rfl
    | zapListener o => exact absurd (hinv.last _ _ hev).1 (hnone o)

/-- The callback is the attached listener's exactly while it is the last one constructed
on its manager. -/
theorem CallbackInv.onEvent_eq_zapListener_iff {ctx : ZapCtx} (hinv : CallbackInv ctx)
    {m : ManagerRef} {subId : String} {o : ℕ}
    (hatt : ctx.Attached m subId (.zapListener o)) :
    (ctx.manager m).onEvent = .zapListener o ↔
      ∀ o', ctx.ConstructedOn m o' → o' ≤ o := by
  obtain ⟨-, l, hl, hm, -⟩ := hatt
  have hcon : ctx.ConstructedOn m o := ⟨l, hl, hm⟩
  constructor
  · intro h
    exact (hinv.last _ _ h).2
  · intro hlast
    cases hev : (ctx.manager m).onEvent with
    | none => exact absurd hcon ((hinv.none _ hev).1 o)
    | dataSource j => exact absurd hcon ((hinv.source _ _ hev).2 o)
    | zapListener o' =>
        obtain ⟨hcon', hle⟩ := hinv.last _ _ hev
        rw [Nat.le_antisymm (hlast o' hcon') (hle o hcon)]

theorem count_handleEvent_dataSource (ctx : ZapCtx) (m : ManagerRef) (subId : String)
    (k : ℕ) :
    (ctx.handleEvent m subId).count (.dataSource k) = 1 ↔
      (ctx.manager m).onEvent = .dataSource k := by
  unfold handleEvent
  cases (ctx.manager m).onEvent with
  | none => simp
  | dataSource j =>
      by_cases hj : j = k
      · simp [hj]
      · simp [hj]
  | zapListener o =>
      dsimp only
      split
      · simp
      · simp

theorem count_handleEvent_zapListener {ctx : ZapCtx} {m : ManagerRef} {subId : String}
    {o : ℕ} (hatt : ctx.Attached m subId (.zapListener o)) :
    (ctx.handleEvent m subId).count (.zapListener o) = 1 ↔
      (ctx.manager m).onEvent = .zapListener o := by
  obtain ⟨hlive, l, hl, -, hsub⟩ := hatt
  unfold handleEvent
  cases (ctx.manager m).onEvent with
  | none => simp
  | dataSource j => simp
  | zapListener o' =>
      dsimp only
      by_cases ho : o' = o
      · subst ho
        simp [hlive, hl, hsub]
      · split
        · simp [ho]
        · simp [ho]

theorem CallbackInv.frameReaches_iff {ctx : ZapCtx} (hinv : CallbackInv ctx)
    (e : WiringEvent) : ctx.FrameReaches e ↔ ctx.FrameUnshadowed e := by
  cases e with
  | init cfg relayStarts now => exact Iff.rfl
  | refresh cfg now => exact Iff.rfl
  | frame m subId ev =>
      constructor
      · intro h
        refine ⟨fun k hatt => ?_, fun o hatt => ?_⟩
        · have hcount := (count_handleEvent_dataSource ctx m subId k).mp (h _ hatt)
          exact (hinv.onEvent_eq_dataSource_iff hatt).mp hcount
        · have hcount := (count_handleEvent_zapListener hatt).mp (h _ hatt)
          exact (hinv.onEvent_eq_zapListener_iff hatt).mp hcount
      · rintro ⟨hsource, hlistener⟩ c hatt
        cases c with
        | dataSource k =>
            have hev := (hinv.onEvent_eq_dataSource_iff hatt).mpr (hsource k hatt)
            exact (count_handleEvent_dataSource ctx m subId k).mpr hev
        | zapListener o =>
            have hev := (hinv.onEvent_eq_zapListener_iff hatt).mpr (hlistener o hatt)
            exact (count_handleEvent_zapListener hatt).mpr hev

/-- In every run from boot, each frame reaches the consumers it is for exactly once if
and only if none of them is shadowed by a listener constructed later on its manager. -/
theorem run_frameReaches_iff (sources : List SourceConfig) (es : List WiringEvent) :
    Transition.Along step FrameReaches (boot sources) es ↔
      Transition.Along step FrameUnshadowed (boot sources) es := by
  have hstep : ∀ ctx e, CallbackInv ctx → CallbackInv (ctx.step e) :=
    fun _ e hinv => hinv.step e
  have hiff : ∀ ctx e, CallbackInv ctx → (ctx.FrameReaches e ↔ ctx.FrameUnshadowed e) :=
    fun _ e hinv => hinv.frameReaches_iff e
  exact Transition.along_congr_of_invariant hstep hiff (callbackInv_boot sources) es

/-- One zap listener on the relay of the data source takes the prices away from it. -/
theorem run_sharedRelay_loses_frame :
    ¬ Transition.Along step FrameReaches
      (boot (sourceConfigs ["wss://relay.primal.net"] "author"))
      [.init ⟨true, ["wss://relay.primal.net"], [String.ofList (List.replicate 64 'a')],
          true, true, true, true⟩ (fun _ => true) 0,
        .frame (.source 0) "btclock-v1-0" {}] := by
  rintro ⟨-, hframe, -⟩
  exact absurd (hframe (.dataSource 0) ⟨rfl, by decide⟩) (by decide)

end ZapCtx

end Nostr

end BtClock
