import BtClock.Screen.RotationIndex
import BtClock.Webserver.SettingsHooks

/-!
# The running carousel and the stored settings

The boot plans the rotation from the stored settings.  Afterwards a settings request which
touches a setting of the rotation posts a command, and the main loop plans the rotation again
when it drains the command.
-/

namespace BtClock

open Settings Webserver SlotMap RotationPlan

/-! ### What the boot plans -/

/-- The rotation of the stored settings. -/
def plannedRotation (prefs : Prefs) : List ℕ :=
  buildRotationSequence (readString prefs "screenOrder") (screenEnabled prefs)
    (activeCurrencies prefs).length

/-- Does the stored pool publish an estimate of the earnings? -/
def poolEstimates (prefs : Prefs) : Bool :=
  MiningPools.poolSupportsEstimatedEarnings (readString prefs "miningPoolName")

/-- The estimated earnings are in the rotation when the pool publishes them. -/
structure EstimateListed (prefs : Prefs) : Prop where
  ordered : readString prefs "screenOrder" = "" ∨
    kApiIdMiningPoolEstimatedEarnings ∈ parseScreenOrderCsv (readString prefs "screenOrder")
  poolStats : readBool prefs "miningPoolStats" = true
  visible : prefs.getBool (visibleKey kApiIdMiningPoolEstimatedEarnings) true = true

theorem screenEnabled_estimate (prefs : Prefs) :
    screenEnabled prefs kApiIdMiningPoolEstimatedEarnings = true ↔
      readBool prefs "miningPoolStats" = true ∧ poolEstimates prefs = true ∧
        prefs.getBool (visibleKey kApiIdMiningPoolEstimatedEarnings) true = true := by
  have hid : ¬ ((72 : Int32) = 80 ∨ (72 : Int32) = 81) := by decide
  have hwallet : ¬ (72 : Int32) = 90 := by decide
  have hdefault : defaultScreenVisible 72 = true := by decide
  simp only [screenEnabled, poolEstimates, kApiIdMiningPoolEstimatedEarnings, hid, hwallet,
    hdefault, or_true, true_and, false_and, if_false]
  split_ifs with hstats hpool <;> simp_all

/-- An id outside of the catalogue stands for no slot. -/
theorem expandApiId_of_notMem {apiId : Int32} (h : apiId ∉ catalogIds) (n : ℕ) :
    expandApiId apiId n = [] := by
  have hkind : isPerCurrencyKind apiId = false := by
    simp only [isPerCurrencyKind, Bool.or_eq_false_iff, beq_eq_false_iff_ne]
    refine ⟨⟨?_, ?_⟩, ?_⟩ <;> rintro rfl <;> exact h (by decide)
  have hfee : apiId ≠ kApiIdBlockFeeRate := by
    rintro rfl
    exact h (by decide)
  have hlookup : kAgnosticApiIds.lookup apiId = none := by
    rw [List.lookup_eq_none_iff]
    intro entry hentry
    have hall : ∀ entry ∈ kAgnosticApiIds, entry.1 ∈ catalogIds := by decide
    rw [bne_iff_ne]
    rintro rfl
    exact h (hall entry hentry)
  simp only [expandApiId, hkind, agnosticSlotForApiId, if_neg hfee, hlookup]
  rfl

/-- The rotation looks at the screens of the catalogue only. -/
theorem buildRotationSequence_congr {csv : String} {isEnabled isEnabled' : Int32 → Bool} (n : ℕ)
    (h : ∀ id ∈ catalogIds, (csv = "" ∨ id ∈ parseScreenOrderCsv csv) →
      isEnabled id = isEnabled' id) :
    buildRotationSequence csv isEnabled n = buildRotationSequence csv isEnabled' n := by
  unfold buildRotationSequence
  split_ifs with hcsv
  · refine congrArg orBlockHeight (List.filter_congr fun slot hslot => ?_)
    rw [h _ (apiIdForSlot_mem_catalogIds (List.mem_range.mp hslot)) (Or.inl hcsv)]
  · refine congrArg orBlockHeight ?_
    have hids : ∀ ids : List Int32, (∀ id ∈ ids, id ∈ parseScreenOrderCsv csv) →
        (ids.filter isEnabled).flatMap (fun id => expandApiId id n) =
          (ids.filter isEnabled').flatMap fun id => expandApiId id n := by
      intro ids hsub
      induction ids with
      | nil => rfl
      | cons id ids ih =>
          have ih' := ih fun i hi => hsub i (List.mem_cons_of_mem _ hi)
          by_cases hid : id ∈ catalogIds
          · rw [List.filter_cons, List.filter_cons,
              h id hid (Or.inr (hsub id List.mem_cons_self))]
            split_ifs
            · rw [List.flatMap_cons, List.flatMap_cons, ih']
            · exact ih'
          · have hnil := expandApiId_of_notMem hid n
            rw [List.filter_cons, List.filter_cons]
            split_ifs <;> simp only [List.flatMap_cons, hnil, List.nil_append, ih']
    exact hids _ fun _ hid => hid

/-- The slot of the estimated earnings belongs to no other screen. -/
theorem mem_expandApiId_nine_iff (apiId : Int32) (n : ℕ) :
    9 ∈ expandApiId apiId n ↔ apiId = kApiIdMiningPoolEstimatedEarnings := by
  constructor
  · intro h
    unfold expandApiId at h
    split at h
    · obtain ⟨k, _, hk⟩ := List.mem_map.mp h
      simp only [kAgnosticSlots, kPerCurrencySlots] at hk
      omega
    · have hslot := Option.mem_toList.mp h
      unfold agnosticSlotForApiId at hslot
      split at hslot
      · split at hslot
        · cases hslot
        · have hfee := Option.some.inj hslot
          rw [slotCount_eq] at hfee
          omega
      · obtain ⟨before, after, heq, _⟩ := List.lookup_eq_some_iff.mp hslot
        have hall : ∀ entry ∈ kAgnosticApiIds, entry.2 = 9 →
            entry.1 = kApiIdMiningPoolEstimatedEarnings := by
          decide
        have hmem : (apiId, 9) ∈ kAgnosticApiIds := by
          rw [heq]
          exact List.mem_append_right _ List.mem_cons_self
        exact hall _ hmem rfl
  · rintro rfl
    exact List.mem_cons_self

theorem mem_orBlockHeight_iff {sequence : List ℕ} {slot : ℕ} (h : slot ≠ 0) :
    slot ∈ orBlockHeight sequence ↔ slot ∈ sequence := by
  constructor
  · exact fun hmem => (mem_orBlockHeight hmem).resolve_left h
  · intro hmem
    rwa [orBlockHeight, if_neg (List.ne_nil_of_mem hmem)]

/-- The slot of the estimated earnings is in the rotation exactly when the screen is listed and
enabled. -/
theorem mem_buildRotationSequence_nine_iff (csv : String) (isEnabled : Int32 → Bool) (n : ℕ) :
    9 ∈ buildRotationSequence csv isEnabled n ↔
      (csv = "" ∨ kApiIdMiningPoolEstimatedEarnings ∈ parseScreenOrderCsv csv) ∧
        isEnabled kApiIdMiningPoolEstimatedEarnings = true := by
  unfold buildRotationSequence
  split_ifs with hcsv
  · have hslot : apiIdForSlot 9 n = kApiIdMiningPoolEstimatedEarnings := by
      have hcount : ¬ 9 ≥ slotCount n ∧ ¬ 9 = slotCount n - 1 := by
        rw [slotCount_eq]
        omega
      rw [apiIdForSlot, if_neg hcount.1, if_neg hcount.2]
    have hlt : 9 < slotCount n := by
      rw [slotCount_eq]
      omega
    rw [mem_orBlockHeight_iff (by decide), List.mem_filter, List.mem_range, hslot,
      and_iff_right hlt, and_iff_right (Or.inl hcsv), Bool.and_eq_true, and_iff_right (by decide)]
  · rw [mem_orBlockHeight_iff (by decide), List.mem_flatMap, or_iff_right hcsv]
    simp only [mem_expandApiId_nine_iff, List.mem_filter]
    constructor
    · rintro ⟨id, hid, rfl⟩
      exact hid
    · exact fun hid => ⟨_, hid, rfl⟩

theorem readBool_congr {prefs prefs' : Prefs} {key : String} (h : prefs key = prefs' key) :
    readBool prefs key = readBool prefs' key :=
  Prefs.getBool_congr h _

/-- Two stores which differ in the pool at most, as far as the rotation is concerned. -/
structure SameButPool (prefs prefs' : Prefs) : Prop where
  screenOrder : prefs' "screenOrder" = prefs "screenOrder"
  actCurrencies : prefs' "actCurrencies" = prefs "actCurrencies"
  poolStats : prefs' "miningPoolStats" = prefs "miningPoolStats"
  bitaxe : prefs' "bitaxeEnabled" = prefs "bitaxeEnabled"
  nwc : prefs' "nwcEnabled" = prefs "nwcEnabled"
  visible : ∀ id ∈ catalogIds, prefs' (visibleKey id) = prefs (visibleKey id)

theorem SameButPool.activeCurrencies {prefs prefs' : Prefs} (h : SameButPool prefs prefs') :
    BtClock.activeCurrencies prefs' = BtClock.activeCurrencies prefs := by
  simp only [BtClock.activeCurrencies, readString_congr h.actCurrencies]

theorem SameButPool.estimateListed_iff {prefs prefs' : Prefs} (h : SameButPool prefs prefs') :
    EstimateListed prefs' ↔ EstimateListed prefs := by
  have hvisible :=
    Prefs.getBool_congr (h.visible kApiIdMiningPoolEstimatedEarnings (by decide)) true
  have hstats := readBool_congr h.poolStats
  have horder := readString_congr h.screenOrder
  constructor
  · rintro ⟨hordered, hpool, hshown⟩
    exact ⟨horder ▸ hordered, hstats ▸ hpool, hvisible ▸ hshown⟩
  · rintro ⟨hordered, hpool, hshown⟩
    exact ⟨horder.symm ▸ hordered, hstats.symm ▸ hpool, hvisible.symm ▸ hshown⟩

theorem SameButPool.screenEnabled {prefs prefs' : Prefs} (h : SameButPool prefs prefs')
    {id : Int32} (hid : id ∈ catalogIds) (hne : id ≠ kApiIdMiningPoolEstimatedEarnings) :
    BtClock.screenEnabled prefs' id = BtClock.screenEnabled prefs id := by
  have hne' : ¬ id = 72 := hne
  have hpool : ∀ p : Prefs, BtClock.screenEnabled p id =
      if (id = 70 ∨ id = 71 ∨ id = 72) ∧ readBool p "miningPoolStats" = false then false
      else if (id = 80 ∨ id = 81) ∧ readBool p "bitaxeEnabled" = false then false
      else if id = 90 ∧ readBool p "nwcEnabled" = false then false
      else p.getBool (visibleKey id) (defaultScreenVisible id) := by
    intro p
    simp only [BtClock.screenEnabled, hne', false_and, if_false]
  rw [hpool prefs', hpool prefs, readBool_congr h.poolStats, readBool_congr h.bitaxe,
    readBool_congr h.nwc, Prefs.getBool_congr (h.visible id hid)]

theorem mem_plannedRotation_nine_iff (prefs : Prefs) :
    9 ∈ plannedRotation prefs ↔ EstimateListed prefs ∧ poolEstimates prefs = true := by
  rw [plannedRotation, mem_buildRotationSequence_nine_iff, screenEnabled_estimate]
  constructor
  · rintro ⟨hordered, hstats, hpool, hvisible⟩
    exact ⟨⟨hordered, hstats, hvisible⟩, hpool⟩
  · rintro ⟨⟨hordered, hstats, hvisible⟩, hpool⟩
    exact ⟨hordered, hstats, hpool, hvisible⟩

/-- The plan is the same exactly when the pool makes no difference to it. -/
theorem SameButPool.plannedRotation_eq_iff {prefs prefs' : Prefs} (h : SameButPool prefs prefs') :
    plannedRotation prefs' = plannedRotation prefs ↔
      poolEstimates prefs' = poolEstimates prefs ∨ ¬ EstimateListed prefs := by
  constructor
  · intro heq
    by_contra hnot
    obtain ⟨hpool, hlisted⟩ := not_or.mp hnot
    have hlisted := not_not.mp hlisted
    have hafter := mem_plannedRotation_nine_iff prefs'
    rw [heq, mem_plannedRotation_nine_iff prefs, h.estimateListed_iff, and_iff_right hlisted,
      and_iff_right hlisted] at hafter
    exact hpool (Bool.eq_iff_iff.mpr hafter.symm)
  · intro hpool
    rw [plannedRotation, plannedRotation, h.activeCurrencies, readString_congr h.screenOrder]
    refine buildRotationSequence_congr _ fun id hid hordered => ?_
    by_cases hne : id = kApiIdMiningPoolEstimatedEarnings
    · rw [hne] at hordered ⊢
      rw [Bool.eq_iff_iff, screenEnabled_estimate, screenEnabled_estimate,
        readBool_congr h.poolStats,
        Prefs.getBool_congr (h.visible kApiIdMiningPoolEstimatedEarnings (by decide))]
      rcases hpool with hpool | hunlisted
      · rw [hpool]
      · constructor
        · rintro ⟨hstats, _, hvisible⟩
          exact absurd ⟨hordered, hstats, hvisible⟩ hunlisted
        · rintro ⟨hstats, _, hvisible⟩
          exact absurd ⟨hordered, hstats, hvisible⟩ hunlisted
    · exact h.screenEnabled hid hne

/-! ### The rotation in the running firmware -/

/-- The settings namespace, the screens, and the number of posted commands `kRebuildScreens`. -/
structure Carousel where
  prefs : Prefs
  screens : ScreenCtx
  posted : ℕ

namespace Carousel

def boot (prefs : Prefs) (lastSlot lastBlockHeight : UInt32) (nowMs : ℤ) : Carousel where
  prefs := prefs
  screens := ScreenCtx.initScreenManager prefs lastSlot lastBlockHeight nowMs
  posted := 0

/-- A settings request, with the hook once it is accepted. -/
def handleSettingsPatch (ctx : DeviceContext) (body : Option Json) (c : Carousel) : Carousel :=
  let out := applyPatch ctx body c.prefs
  { c with
    prefs := applyWrites c.prefs out.writes
    posted :=
      if out.result.status = .ok ∧ Hook.screens.called out.result = true then c.posted + 1
      else c.posted }

/-- The main loop drains the queue; every command reads the settings of that moment. -/
def drainControlCommands (c : Carousel) : Carousel :=
  { c with
    screens := Nat.iterate (ScreenCtx.rebuildScreens c.prefs) c.posted c.screens
    posted := 0 }

inductive Event
  | patch (ctx : DeviceContext) (body : Option Json)
  | drain
  | manager (op : ScreenManager.Op) (keeps : op.rebuilds = false)

def step (c : Carousel) : Event → Carousel
  | .patch ctx body => c.handleSettingsPatch ctx body
  | .drain => c.drainControlCommands
  | .manager op _ => { c with screens := { c.screens with sm := c.screens.sm.step op } }

/-- An accepted request which asks for no reboot. -/
def Accepted (c : Carousel) : Event → Prop
  | .patch ctx body =>
      (applyPatch ctx body c.prefs).result.status = .ok ∧
        (applyPatch ctx body c.prefs).result.rebootRequired = false
  | _ => True

instance (c : Carousel) : DecidablePred c.Accepted
  | .patch ctx body =>
      inferInstanceAs (Decidable ((applyPatch ctx body c.prefs).result.status = .ok ∧
        (applyPatch ctx body c.prefs).result.rebootRequired = false))
  | .drain => .isTrue trivial
  | .manager _ _ => .isTrue trivial

/-- The currencies and the rotation are those of a boot from the stored settings. -/
def AsBooted (c : Carousel) : Prop :=
  ∀ (lastSlot lastBlockHeight : UInt32) (nowMs : ℤ),
    let booted := ScreenCtx.initScreenManager c.prefs lastSlot lastBlockHeight nowMs
    c.screens.currencies = booted.currencies ∧ c.screens.sm.currencies = booted.sm.currencies ∧
      c.screens.sm.rotationSequence = booted.sm.rotationSequence

/-- With nothing left in the queue the carousel is as booted. -/
def UpToDate (c : Carousel) : Prop :=
  c.posted = 0 → c.AsBooted

/-! ### What is asked of the requests -/

/-- What the currencies of the body leave to be stored. -/
def currenciesAsked (ctx : DeviceContext) (root : Json) : Option String :=
  match root.getObjectItem kActCurrencies with
  | some (.array items) => (joinCurrencies ctx.availableCurrencies items "").toOption
  | _ => none

/-- What the order of the screens of the body leaves to be stored. -/
def orderAsked (ctx : DeviceContext) (root : Json) : Option String :=
  (checkScreenOrder ctx (screenEntries root)).toOption.join

/-- The hook of the screens knows the key. -/
def RotationKey (key : String) : Prop :=
  Hook.screens.watches key = true

instance : DecidablePred RotationKey := fun key =>
  inferInstanceAs (Decidable (Hook.screens.watches key = true))

/-- An entry of the screens asks for another visibility, under a key which the hook knows. -/
def VisibleAsked (ctx : DeviceContext) (s : Json) (prefs : Prefs) : Prop :=
  ∃ id next, s.getObjectItem "id" = some (.number id) ∧
    s.getObjectItem "enabled" = some (.bool next) ∧
    RotationKey (visibleKey (Double.castInt32 id)) ∧
    prefs.getBool (visibleKey (Double.castInt32 id))
      (defaultVisible ctx (Double.castInt32 id)) ≠ next

/-- The body asks for another value of a setting of the rotation. -/
def RebuildAsked (ctx : DeviceContext) (members : List (String × Json)) (prefs : Prefs) : Prop :=
  MemberAsks RotationKey members prefs ∨
    (∃ csv, currenciesAsked ctx (.object members) = some csv ∧
      prefs.getString kActCurrencies "USD,EUR,JPY" ≠ csv) ∨
    (∃ csv, orderAsked ctx (.object members) = some csv ∧
      prefs.getString kScreenOrder "" ≠ csv) ∨
    ∃ s ∈ screenEntries (.object members), VisibleAsked ctx s prefs

/-- Whether the pool publishes an estimate, after a member. -/
def noteEstimates (estimates : Bool) (m : String × Json) : Bool :=
  match m.2 with
  | .string name =>
      if m.1 = "miningPoolName" then MiningPools.poolSupportsEstimatedEarnings name
      else estimates
  | _ => estimates

/-- A command is in the queue or is posted by the request, or the pool makes no difference to
the rotation. -/
def KeepsUpToDate (c : Carousel) : Event → Prop
  | .patch ctx body => c.posted = 0 → ∀ members, body = some (.object members) →
      RebuildAsked ctx members c.prefs ∨
        members.foldl noteEstimates (poolEstimates c.prefs) = poolEstimates c.prefs ∨
        ¬ EstimateListed c.prefs
  | _ => True

end Carousel

/-! ### The plans of the boot and of the command -/

namespace ScreenManager

/-- The currencies and the rotation. -/
def plan (s : ScreenManager) : List String × List ℕ :=
  (s.currencies, s.rotationSequence)

theorem plan_setSlot (s : ScreenManager) (slot : ℕ) (nowMs : ℤ) :
    (s.setSlot slot nowMs).plan = s.plan := by
  simp only [setSlot]
  split_ifs <;> rfl

theorem plan_stepRotation (s : ScreenManager) (direction : ℤ) (exitingOverlay : Bool) :
    (s.stepRotation direction exitingOverlay).plan = s.plan := by
  have hskipped (s : ScreenManager) : (s.advancePastSkipped direction).plan = s.plan := by
    unfold advancePastSkipped
    split <;> rfl
  have hsequence (s : ScreenManager) : (s.advanceInSequence direction).plan = s.plan := by
    unfold advanceInSequence
    split_ifs <;> rfl
  simp only [stepRotation]
  split_ifs
  · exact hskipped _
  · exact hskipped _
  · exact hsequence _
  · exact hsequence _

theorem plan_maybeAutoRotate (s : ScreenManager) (nowMs periodMs : ℤ) :
    (s.maybeAutoRotate nowMs periodMs).1.plan = s.plan := by
  unfold maybeAutoRotate
  split_ifs
  · rfl
  · rfl
  · rfl
  · rfl
  · rfl
  · rfl
  · exact plan_stepRotation _ 1 _
  · rfl

/-- Only the two replacing calls change the currencies or the rotation. -/
theorem plan_step (s : ScreenManager) {op : Op} (h : op.rebuilds = false) :
    (s.step op).plan = s.plan := by
  cases op with
  | setSlot slot nowMs => exact plan_setSlot s slot nowMs
  | setKind kind nowMs =>
      simp only [step, setKind]
      split
      · exact plan_setSlot ..
      · rfl
  | setCurrency ccy nowMs =>
      simp only [step, setCurrency]
      split
      · exact plan_setSlot ..
      · rfl
  | setCurrencies currencies => cases h
  | setRotationSequence sequence => cases h
  | nextScreen nowMs => exact plan_stepRotation s.clearOverlays 1 _
  | prevScreen nowMs => exact plan_stepRotation s.clearOverlays (-1) _
  | maybeAutoRotate nowMs periodMs => exact plan_maybeAutoRotate s nowMs periodMs
  | toggleDebug nowMs =>
      simp only [step, toggleDebug]
      split <;> rfl
  | consumeNewBlock blockHeight => cases blockHeight <;> rfl
  | _ => rfl

end ScreenManager

namespace ScreenCtx

theorem plan_planRotation (prefs : Prefs) {s : ScreenManager}
    (h : s.currencies = activeCurrencies prefs) :
    (planRotation prefs s).plan = (activeCurrencies prefs, plannedRotation prefs) := by
  simp only [planRotation, ScreenManager.setRotationSequence, plannedRotation, ← h]
  split_ifs <;> rfl

theorem plan_initScreenManager (prefs : Prefs) (lastSlot lastBlockHeight : UInt32) (nowMs : ℤ) :
    (initScreenManager prefs lastSlot lastBlockHeight nowMs).sm.plan =
      (activeCurrencies prefs, plannedRotation prefs) := by
  have hplan := plan_planRotation prefs
    (s := (ScreenManager.create nowMs (activeCurrencies prefs)
      (activeCurrencies_ne_nil prefs)).setPaused (!prefs.getBool "timerActive" true)) rfl
  rw [← hplan]
  simp only [initScreenManager]
  generalize planRotation prefs _ = s
  cases resumeSlot lastSlot s.slotCount s.rotationSequence with
  | none =>
    dsimp only
    split_ifs <;> rfl
  | some slot =>
    dsimp only
    split_ifs <;> exact ScreenManager.plan_setSlot s slot nowMs

theorem plan_rebuildScreens (prefs : Prefs) (c : ScreenCtx) :
    (c.rebuildScreens prefs).sm.plan = (activeCurrencies prefs, plannedRotation prefs) := by
  exact plan_planRotation prefs
    (ScreenManager.setCurrencies_currencies c.sm (activeCurrencies_ne_nil prefs))

end ScreenCtx

namespace Carousel

/-- The currencies and the rotation of the boot are the plan of the stored settings. -/
theorem asBooted_iff (c : Carousel) :
    c.AsBooted ↔ c.screens.currencies = activeCurrencies c.prefs ∧
      c.screens.sm.plan = (activeCurrencies c.prefs, plannedRotation c.prefs) := by
  constructor
  · intro h
    obtain ⟨hcurrencies, hmanager, hrotation⟩ := h 0 0 0
    refine ⟨hcurrencies, ?_⟩
    rw [← ScreenCtx.plan_initScreenManager c.prefs 0 0 0]
    simp only [ScreenManager.plan, hmanager, hrotation]
  · rintro ⟨hcurrencies, hplan⟩ lastSlot lastBlockHeight nowMs
    rw [← ScreenCtx.plan_initScreenManager c.prefs lastSlot lastBlockHeight nowMs] at hplan
    exact ⟨hcurrencies, congrArg Prod.fst hplan, congrArg Prod.snd hplan⟩

theorem upToDate_boot (prefs : Prefs) (lastSlot lastBlockHeight : UInt32) (nowMs : ℤ) :
    (boot prefs lastSlot lastBlockHeight nowMs).UpToDate := by
  intro _
  exact (asBooted_iff _).mpr
    ⟨rfl, ScreenCtx.plan_initScreenManager prefs lastSlot lastBlockHeight nowMs⟩

theorem upToDate_drain {c : Carousel} (h : c.UpToDate) : c.drainControlCommands.UpToDate := by
  intro _
  rw [asBooted_iff]
  match hposted : c.posted with
  | 0 =>
      have hscreens : c.drainControlCommands.screens = c.screens := by
        simp only [drainControlCommands, hposted]
        rfl
      rw [hscreens]
      exact (asBooted_iff c).mp (h hposted)
  | n + 1 =>
      have hscreens : c.drainControlCommands.screens =
          ScreenCtx.rebuildScreens c.prefs
            (Nat.iterate (ScreenCtx.rebuildScreens c.prefs) n c.screens) := by
        simp only [drainControlCommands, hposted]
        exact Function.iterate_succ_apply' ..
      rw [hscreens]
      exact ⟨rfl, ScreenCtx.plan_rebuildScreens c.prefs _⟩

theorem upToDate_manager {c : Carousel} (h : c.UpToDate) {op : ScreenManager.Op}
    (hop : op.rebuilds = false) : (c.step (.manager op hop)).UpToDate := by
  intro hposted
  obtain ⟨hcurrencies, hplan⟩ := (asBooted_iff c).mp (h hposted)
  exact (asBooted_iff _).mpr ⟨hcurrencies, (ScreenManager.plan_step c.screens.sm hop).trans hplan⟩

/-! ### When the command is posted -/

theorem rotationKey_of {key : String}
    (h : key ∈ [kScreenOrder, kActCurrencies, "miningPoolStats", "bitaxeEnabled"]) :
    RotationKey key := by
  simp only [List.mem_cons, List.not_mem_nil, or_false] at h
  simp only [RotationKey, Hook.watches, Bool.or_eq_true, beq_iff_eq]
  rcases h with rfl | rfl | rfl | rfl <;> simp

theorem reportClosed_rotationKey : ReportClosed RotationKey :=
  reportClosed_of (by decide) (by decide)

theorem asks_patchActCurrencies (ctx : DeviceContext) (root : Json) :
    Asks RotationKey [patchActCurrencies ctx root] fun prefs =>
      ∃ csv, currenciesAsked ctx root = some csv ∧
        prefs.getString kActCurrencies "USD,EUR,JPY" ≠ csv := by
  have hkey : RotationKey kActCurrencies := rotationKey_of (by decide)
  by_cases hitems : ∃ items, root.getObjectItem kActCurrencies = some (.array items)
  · obtain ⟨items, hitems⟩ := hitems
    have heq : patchActCurrencies ctx root =
        validated (joinCurrencies ctx.availableCurrencies items "") fun joined =>
          storeString kActCurrencies "USD,EUR,JPY" joined false := by
      simp only [patchActCurrencies, hitems]
    rw [heq]
    simp only [currenciesAsked, hitems]
    refine asks_validated (fun csv prefs => candid_storeString ..)
      (fun csv prefs prefs' hsame => ?_) fun csv prefs => touched_ite_iff hkey
    rw [Prefs.getString_congr (hsame kActCurrencies hkey)]
  · have heq : patchActCurrencies ctx root = skip := by
      unfold patchActCurrencies
      split
      · rename_i items hsome
        exact absurd ⟨items, hsome⟩ hitems
      · rfl
    have hnone : currenciesAsked ctx root = none := by
      unfold currenciesAsked
      split
      · rename_i items hsome
        exact absurd ⟨items, hsome⟩ hitems
      · rfl
    rw [heq, hnone]
    exact asks_skip.of_iff fun prefs => iff_of_false id fun ⟨_, h, _⟩ => nomatch h

theorem asks_patchScreenOrder (ctx : DeviceContext) (root : Json) :
    Asks RotationKey [patchScreenOrder ctx root] fun prefs =>
      ∃ csv, orderAsked ctx root = some csv ∧ prefs.getString kScreenOrder "" ≠ csv := by
  have hkey : RotationKey kScreenOrder := rotationKey_of (by decide)
  have hblock : Asks RotationKey [patchScreenOrder ctx root] fun prefs =>
      ∃ order, (checkScreenOrder ctx (screenEntries root)).toOption = some order ∧
        ∃ csv, order = some csv ∧ prefs.getString kScreenOrder "" ≠ csv := by
    refine asks_validated (fun order prefs => ?_) (fun order prefs prefs' hsame => ?_)
      fun order prefs => ?_
    · match order with
      | none => exact candid_none
      | some csv => exact candid_storeString ..
    · rw [Prefs.getString_congr (hsame kScreenOrder hkey)]
    · match order with
      | none => exact iff_of_false (fun ⟨_, ht, _⟩ => nomatch ht) fun ⟨_, h, _⟩ => nomatch h
      | some csv =>
          refine (touched_ite_iff hkey).trans ⟨fun hne => ⟨csv, rfl, hne⟩, ?_⟩
          rintro ⟨csv', hcsv, hne⟩
          cases hcsv
          exact hne
  refine hblock.of_iff fun prefs => ?_
  constructor
  · rintro ⟨_, horder, csv, rfl, hne⟩
    exact ⟨csv, by rw [orderAsked, horder]; rfl, hne⟩
  · rintro ⟨csv, horder, hne⟩
    exact ⟨some csv, Option.join_eq_some_iff.mp horder, csv, rfl, hne⟩

theorem asks_patchVisible (ctx : DeviceContext) (s : Json) :
    Asks RotationKey [patchVisible ctx s] (VisibleAsked ctx s) := by
  refine asks_singleton (candid_patchVisible ctx s) (fun prefs prefs' hsame => ?_)
    fun prefs effect hb => ?_
  · refine exists_congr fun id => exists_congr fun next => and_congr_right fun _ =>
      and_congr_right fun _ => and_congr_right fun hkey => ?_
    rw [Prefs.getBool_congr (hsame _ hkey)]
  by_cases hitems : ∃ id next, s.getObjectItem "id" = some (.number id) ∧
      s.getObjectItem "enabled" = some (.bool next)
  · obtain ⟨id, next, hid, hnext⟩ := hitems
    have heq : patchVisible ctx s = accepted (storeVisible ctx (Double.castInt32 id) next) := by
      simp only [patchVisible, hid, hnext]
    rw [heq] at hb
    cases hb
    simp only [VisibleAsked, hid, hnext, Option.some.injEq, Json.number.injEq, Json.bool.injEq]
    by_cases hkey : RotationKey (visibleKey (Double.castInt32 id))
    · refine (touched_ite_iff hkey).trans ⟨fun hne => ⟨id, next, rfl, rfl, hkey, hne⟩, ?_⟩
      rintro ⟨_, _, rfl, rfl, _, hne⟩
      exact hne
    · refine iff_of_false ?_ ?_
      · rintro ⟨t, ht, hwatched⟩
        simp only [storeVisible] at ht
        split_ifs at ht
        · rw [List.mem_singleton.mp ht] at hwatched
          exact hkey hwatched
        · cases ht
      · rintro ⟨_, _, rfl, rfl, hwatched, _⟩
        exact hkey hwatched
  · have heq : patchVisible ctx s = skip := by
      unfold patchVisible
      split
      · rename_i id next hid hnext
        exact absurd ⟨id, next, hid, hnext⟩ hitems
      · rfl
    rw [heq] at hb
    cases hb
    refine iff_of_false ?_ ?_
    · rintro ⟨_, ht, _⟩
      cases ht
    · rintro ⟨id, next, hid, hnext, _⟩
      exact hitems ⟨id, next, hid, hnext⟩

section Request

variable {ctx : DeviceContext} {members : List (String × Json)} {prefs : Prefs}

/-- The blocks which have nothing to do with the rotation, those in front of the currencies,
those behind them, and those behind the screens. -/
def otherBlocks (root : Json) : List PatchBlock × List PatchBlock × List PatchBlock :=
  ([patchInvertedColor root, patchTimePerScreen root, patchTxPower root],
    [patchZapPubkey root, patchZapPubkeys root, patchRelay root, patchRelays root],
    [patchDndTimeEnabled root, patchDnd root])

theorem blocks_eq_rotation :
    blocks ctx members =
      memberBlocks ctx members ++ ((otherBlocks (.object members)).1 ++
        ([patchActCurrencies ctx (.object members)] ++ ((otherBlocks (.object members)).2.1 ++
          ([patchScreenOrder ctx (.object members)] ++
            ((screenEntries (.object members)).map (patchVisible ctx) ++
              (otherBlocks (.object members)).2.2))))) := by
  simp only [blocks, listBlocks, nestedBlocks, otherBlocks, List.append_assoc, List.cons_append,
    List.nil_append]

/-- The keys of the other blocks. -/
def otherKeys : List String :=
  [kInvertedColor, "fgColor", "bgColor", kTimerSeconds, kTxPower, kNostrZapPubkeys, kNostrRelays,
    kDndTimeEnabled, kDndStartHour, kDndStartMin, kDndEndHour, kDndEndMin]

theorem writesOnly_otherBlocks {root : Json} {block : PatchBlock}
    (h : block ∈ (otherBlocks root).1 ∨ block ∈ (otherBlocks root).2.1 ∨
      block ∈ (otherBlocks root).2.2) : WritesOnly (· ∈ otherKeys) block := by
  simp only [otherBlocks, List.mem_cons, List.not_mem_nil, or_false] at h
  rcases h with (rfl | rfl | rfl) | (rfl | rfl | rfl | rfl) | rfl | rfl
  · exact (writesOnly_patchInvertedColor root).mono (by decide)
  · exact (writesOnly_patchTimePerScreen root).mono fun key hkey => hkey ▸ by decide
  · exact (writesOnly_patchTxPower root).mono fun key hkey => hkey ▸ by decide
  · exact (writesOnly_patchZapPubkey root).mono fun key hkey => hkey ▸ by decide
  · exact (writesOnly_patchZapPubkeys root).mono fun key hkey => hkey ▸ by decide
  · exact (writesOnly_patchRelay root).mono fun key hkey => hkey ▸ by decide
  · exact (writesOnly_patchRelays root).mono fun key hkey => hkey ▸ by decide
  · exact (writesOnly_patchDndTimeEnabled root).mono fun key hkey => hkey ▸ by decide
  · exact (writesOnly_patchDnd root).mono (by decide)

theorem candid_otherBlocks {root : Json} {block : PatchBlock}
    (h : block ∈ (otherBlocks root).1 ∨ block ∈ (otherBlocks root).2.1 ∨
      block ∈ (otherBlocks root).2.2) : EveryEffect Effect.Candid block := by
  have hblocks : block ∈ listBlocks {} root ∨ block ∈ nestedBlocks {} root := by
    simp only [otherBlocks, List.mem_cons, List.not_mem_nil, or_false] at h
    rcases h with (rfl | rfl | rfl) | (rfl | rfl | rfl | rfl) | rfl | rfl
    all_goals simp [listBlocks, nestedBlocks]
  exact hblocks.elim candid_listBlocks candid_nestedBlocks

theorem asks_otherBlocks (root : Json) {bs : List PatchBlock}
    (h : ∀ block ∈ bs, block ∈ (otherBlocks root).1 ∨ block ∈ (otherBlocks root).2.1 ∨
      block ∈ (otherBlocks root).2.2) : Asks RotationKey bs fun _ => False := by
  have hkeys : ∀ key ∈ otherKeys, ¬ RotationKey key := by decide
  exact asks_of_writesOnly (fun block hblock => candid_otherBlocks (h block hblock))
    fun block hblock => (writesOnly_otherBlocks (h block hblock)).mono hkeys

/-- The request asks through its members, its currencies and its screens. -/
theorem asks_blocks (ctx : DeviceContext) (members : List (String × Json)) :
    Asks RotationKey (blocks ctx members) (RebuildAsked ctx members) := by
  have hK := reportClosed_rotationKey
  have hbehind := (asks_map hK (asks_patchVisible ctx) (screenEntries (.object members))).append hK
    (asks_otherBlocks (.object members) fun block hblock => Or.inr (Or.inr hblock))
  have hscreens := (asks_patchScreenOrder ctx (.object members)).append hK hbehind
  have hmiddle :=
    (asks_otherBlocks (.object members) fun block hblock => Or.inr (Or.inl hblock)).append hK
      hscreens
  have hcurrencies := (asks_patchActCurrencies ctx (.object members)).append hK hmiddle
  have hfront :=
    (asks_otherBlocks (.object members) fun block hblock => Or.inl hblock).append hK hcurrencies
  rw [blocks_eq_rotation]
  refine ((asks_walk ctx (.object members) members).append hK hfront).of_iff fun prefs => ?_
  simp only [false_or, or_false]
  rfl

/-- The command is posted exactly when the body asks for another value. -/
theorem called_iff (h : AllAccepted (blocks ctx members) prefs) :
    Hook.screens.called (runBlocks (blocks ctx members) prefs).result = true ↔
      RebuildAsked ctx members prefs := by
  rw [← (asks_blocks ctx members).touches prefs h, Hook.called, List.any_eq_true]
  rfl

/-! ### What a request changes -/

theorem findField_poolName :
    findField "miningPoolName" =
      some { key := "miningPoolName", kind := .string, defaultStr := "noderunners" } := by
  decide

theorem noteEstimates_of_ne {m : String × Json} (h : m.1 ≠ "miningPoolName")
    (estimates : Bool) : noteEstimates estimates m = estimates := by
  simp only [noteEstimates, if_neg h]
  split <;> rfl

/-- An empty name and the default of the schema publish nothing. -/
theorem poolEstimates_of_getString {name : String}
    (h : prefs.getString "miningPoolName" "noderunners" = name) :
    poolEstimates prefs = MiningPools.poolSupportsEstimatedEarnings name := by
  have hdefault : defaultStringFor "miningPoolName" = "noderunners" := by decide
  simp only [poolEstimates, readString, hdefault, h]
  split_ifs with hempty
  · rw [hempty.1]
    decide
  · rfl

/-- An accepted member leaves the pool as it is noted. -/
theorem estimates_of_patchMember {root : Json} {m : String × Json} {effect : Effect}
    (hb : patchMember ctx root m prefs = .ok effect) :
    poolEstimates (applyWrites prefs effect.writes) = noteEstimates (poolEstimates prefs) m := by
  by_cases hm : m.1 = "miningPoolName"
  · obtain ⟨key, item⟩ := m
    subst hm
    have hreads := (of_patchMember_eq_ok (by decide) findField_poolName hb).2
    cases item <;> simp only [ReadsAs] at hreads
    simp only [noteEstimates, if_true]
    exact poolEstimates_of_getString hreads
  · rw [noteEstimates_of_ne hm]
    have hkey := (writesOnly_patchMember ctx root m).frame hb fun hkey => hm hkey.1.symm
    simp only [poolEstimates, readString_congr hkey]

theorem estimates_walk {root : Json} (ms : List (String × Json))
    (h : AllAccepted (ms.map (patchMember ctx root)) prefs) :
    poolEstimates (storeAfter (ms.map (patchMember ctx root)) prefs) =
      ms.foldl noteEstimates (poolEstimates prefs) := by
  induction ms generalizing prefs with
  | nil => rfl
  | cons m ms ih =>
      obtain ⟨effect, hb, hrest⟩ := h
      rw [List.map_cons, storeAfter_cons_ok hb, ih hrest, estimates_of_patchMember hb]
      rfl

theorem allAccepted_walk (h : AllAccepted (blocks ctx members) prefs) :
    AllAccepted (members.map (patchMember ctx (.object members))) prefs := by
  rw [blocks_eq_walk] at h
  exact ((allAccepted_append _ _ prefs).mp h).1

theorem poolEstimates_blocks (h : AllAccepted (blocks ctx members) prefs) :
    poolEstimates (storeAfter (blocks ctx members) prefs) =
      members.foldl noteEstimates (poolEstimates prefs) := by
  have hfield : findField "miningPoolName" ≠ none := by
    rw [findField_poolName]
    exact Option.some_ne_none _
  rw [← estimates_walk members (allAccepted_walk h)]
  simp only [poolEstimates, readString_congr (storeAfter_blocks_of_field hfield (by decide) h)]

/-- The switch of the wallet changes with a reboot only. -/
theorem nwc_of_no_reboot (h : AllAccepted (blocks ctx members) prefs)
    (hreboot : rebootBy (blocks ctx members) prefs = false) :
    storeAfter (blocks ctx members) prefs kNwcEnabled = prefs kNwcEnabled := by
  have hwalk := allAccepted_walk h
  have hfield : findField kNwcEnabled ≠ none := by
    rw [findField_nwcEnabled]
    exact Option.some_ne_none _
  rw [storeAfter_blocks_of_field hfield (by decide) h]
  rw [blocks_eq_walk, rebootBy_append hwalk, Bool.or_eq_false_iff] at hreboot
  by_contra hne
  have hcandid : ∀ block ∈ members.map (patchMember ctx (.object members)),
      EveryEffect Effect.Candid block := by
    intro block hblock
    obtain ⟨m, _, rfl⟩ := List.mem_map.mp hblock
    exact candid_patchMember ctx _ m
  obtain ⟨t, ht, hreports⟩ := exists_reports_of_ne hcandid hne
  have hreported : t = kNwcEnabled := by
    rcases hreports with rfl | ⟨_, hmem⟩ | ⟨_, hmem⟩
    · rfl
    · exact absurd hmem (by decide)
    · exact absurd hmem (by decide)
  obtain ⟨m, hm, hkey, hasks⟩ := (touchedBy_walk_iff (K := (· = kNwcEnabled)) hwalk).mp
    ⟨t, ht, hreported⟩
  have hbootOnly : BootOnlyKey m.1 := by
    rw [hkey]
    exact ⟨_, findField_nwcEnabled, rfl⟩
  have htrue := (rebootBy_walk_iff hwalk).mpr ⟨m, hm, hbootOnly, hasks⟩
  rw [hreboot.1] at htrue
  cases htrue

/-- A request which asks for nothing of the rotation and for no reboot changes the pool at
most. -/
theorem sameButPool_of_not_asked (h : AllAccepted (blocks ctx members) prefs)
    (hreboot : rebootBy (blocks ctx members) prefs = false)
    (hnot : ¬ RebuildAsked ctx members prefs) :
    SameButPool prefs (storeAfter (blocks ctx members) prefs) := by
  have hasks := asks_blocks ctx members
  have hkeeps (key : String) (hkey : RotationKey key) :
      storeAfter (blocks ctx members) prefs key = prefs key :=
    storeAfter_of_not_touched reportClosed_rotationKey hasks.candid
      (fun htouched => hnot ((hasks.touches prefs h).mp htouched)) hkey
  have hvisible : catalogIds.all (fun id => decide (RotationKey (visibleKey id))) = true := by
    decide
  exact ⟨hkeeps _ (rotationKey_of (by decide)), hkeeps _ (rotationKey_of (by decide)),
    hkeeps _ (rotationKey_of (by decide)), hkeeps _ (rotationKey_of (by decide)),
    nwc_of_no_reboot h hreboot,
    fun id hid => hkeeps _ (of_decide_eq_true (List.all_eq_true.mp hvisible id hid))⟩

/-- A request keeps the carousel up to date exactly when a command is in the queue or is posted,
or the pool makes no difference. -/
theorem upToDate_patch_iff {c : Carousel} (hc : c.UpToDate)
    (h : AllAccepted (blocks ctx members) c.prefs)
    (hreboot : rebootBy (blocks ctx members) c.prefs = false) :
    (c.handleSettingsPatch ctx (some (.object members))).UpToDate ↔
      (c.posted = 0 → RebuildAsked ctx members c.prefs ∨
        members.foldl noteEstimates (poolEstimates c.prefs) = poolEstimates c.prefs ∨
        ¬ EstimateListed c.prefs) := by
  have hstatus : (runBlocks (blocks ctx members) c.prefs).result.status = .ok :=
    (status_eq_ok_iff _ c.prefs).mpr h
  by_cases hasked : RebuildAsked ctx members c.prefs
  · have hstep : (c.handleSettingsPatch ctx (some (.object members))).posted = c.posted + 1 :=
      if_pos ⟨hstatus, (called_iff h).mpr hasked⟩
    refine iff_of_true (fun hposted => ?_) fun _ => Or.inl hasked
    rw [hstep] at hposted
    cases hposted
  · have hnot : ¬ Hook.screens.called (runBlocks (blocks ctx members) c.prefs).result = true :=
      fun hcalled => hasked ((called_iff h).mp hcalled)
    have hstep : c.handleSettingsPatch ctx (some (.object members)) =
        { c with prefs := storeAfter (blocks ctx members) c.prefs } := by
      show ({ c with prefs := _, posted := _ } : Carousel) = _
      rw [if_neg fun hboth => hnot hboth.2]
      rfl
    have hsame := sameButPool_of_not_asked h hreboot hasked
    rw [hstep]
    refine imp_congr_right fun hposted => ?_
    obtain ⟨hcurrencies, hplan⟩ := (asBooted_iff c).mp (hc hposted)
    rw [asBooted_iff, or_iff_right hasked, ← poolEstimates_blocks h,
      ← hsame.plannedRotation_eq_iff, hcurrencies, hplan, hsame.activeCurrencies]
    simp only [true_and, Prod.mk.injEq]
    exact eq_comm

end Request

/-- A step keeps the carousel up to date exactly when it meets the condition. -/
theorem upToDate_step_iff {c : Carousel} (hc : c.UpToDate) {event : Event}
    (haccepted : c.Accepted event) : (c.step event).UpToDate ↔ c.KeepsUpToDate event := by
  match event with
  | .drain => exact iff_of_true (upToDate_drain hc) trivial
  | .manager op hop => exact iff_of_true (upToDate_manager hc hop) trivial
  | .patch ctx (some (.object members)) =>
      have hall : AllAccepted (blocks ctx members) c.prefs :=
        (status_eq_ok_iff _ c.prefs).mp haccepted.1
      refine (upToDate_patch_iff hc hall haccepted.2).trans ?_
      constructor
      · rintro hkeeps hposted members' hbody
        cases hbody
        exact hkeeps hposted
      · exact fun hkeeps hposted => hkeeps hposted members rfl
  | .patch _ none => cases haccepted.1
  | .patch _ (some .null) => cases haccepted.1
  | .patch _ (some (.bool _)) => cases haccepted.1
  | .patch _ (some (.number _)) => cases haccepted.1
  | .patch _ (some (.string _)) => cases haccepted.1
  | .patch _ (some (.array _)) => cases haccepted.1

/-- Along accepted requests without a reboot the carousel is up to date whenever the queue is
drained, exactly when every request keeps it so. -/
theorem forall_upToDate_iff (prefs : Prefs) (lastSlot lastBlockHeight : UInt32) (nowMs : ℤ)
    (events : List Event)
    (haccepted :
      Transition.Along step Accepted (boot prefs lastSlot lastBlockHeight nowMs) events) :
    (∀ pre post, events = pre ++ post →
      (Transition.run step (boot prefs lastSlot lastBlockHeight nowMs) pre).UpToDate) ↔
      Transition.Along step KeepsUpToDate (boot prefs lastSlot lastBlockHeight nowMs) events :=
  haccepted.forall_prefix_iff (I := UpToDate) (fun _ _ hc hevent => upToDate_step_iff hc hevent)
    (upToDate_boot prefs lastSlot lastBlockHeight nowMs)

def patchMembers (members : List (String × Json)) : Event :=
  .patch {} (some (.object members))

/-- The statistics of the pool are switched on, and the carousel catches up. -/
def statsOn : List Event :=
  [patchMembers [("miningPoolStats", .bool true)], .drain]

/-- Then the pool is replaced by one which publishes an estimate. -/
def poolReplaced : List Event :=
  statsOn ++ [patchMembers [("miningPoolName", .string "blitzpool")]]

theorem upToDate_statsOn :
    Transition.Along step Accepted (boot Prefs.empty kNoSavedSlot 0 0) statsOn ∧
      ∀ pre post, statsOn = pre ++ post →
        (Transition.run step (boot Prefs.empty kNoSavedSlot 0 0) pre).UpToDate := by
  have haccepted : Transition.Along step Accepted (boot Prefs.empty kNoSavedSlot 0 0) statsOn := by
    decide
  refine ⟨haccepted,
    (forall_upToDate_iff Prefs.empty kNoSavedSlot 0 0 statsOn haccepted).mpr ⟨?_, trivial, trivial⟩⟩
  rintro _ members hbody
  cases hbody
  exact Or.inl (Or.inl ⟨("miningPoolStats", .bool true), List.mem_cons_self, by decide,
    by decide, { key := "miningPoolStats", kind := .bool }, by decide, fun h => nomatch h⟩)

/-- The new pool publishes an estimate, which the carousel does not show before a reboot. -/
theorem poolReplaced_not_upToDate :
    Transition.Along step Accepted (boot Prefs.empty kNoSavedSlot 0 0) poolReplaced ∧
      (Transition.run step (boot Prefs.empty kNoSavedSlot 0 0) poolReplaced).posted = 0 ∧
      ¬ (Transition.run step (boot Prefs.empty kNoSavedSlot 0 0) poolReplaced).AsBooted := by
  refine ⟨by decide, by decide, fun h => ?_⟩
  have hplan := congrArg Prod.snd ((asBooted_iff _).mp h).2
  revert hplan
  decide

end Carousel

end BtClock
