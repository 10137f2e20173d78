import BtClock.Transition.Run
import BtClock.Webserver.SettingsHooks

/-!
# The two copies of the do-not-disturb settings

The singleton holds the settings of do-not-disturb in memory; its setters write them to the
settings namespace as well.  A settings request writes the namespace alone, and its hook reads
the new settings into the singleton.
-/

namespace BtClock

namespace Dnd

open Settings Webserver

structure DndConfig where
  enabled : Bool := false
  timeEnabled : Bool := false
  startHour : UInt8 := 23
  startMinute : UInt8 := 0
  endHour : UInt8 := 7
  endMinute : UInt8 := 0
  deriving DecidableEq, Repr

def lowByte (v : UInt32) : UInt8 :=
  (v &&& 0xFF).toUInt8

/-- What is not stored stays as it is. -/
def DndConfig.load (cfg : DndConfig) (prefs : Prefs) : DndConfig where
  enabled := prefs.getBool kDndEnabled cfg.enabled
  timeEnabled := prefs.getBool kDndTimeEnabled cfg.timeEnabled
  startHour := lowByte (prefs.getU32 kDndStartHour cfg.startHour.toUInt32)
  startMinute := lowByte (prefs.getU32 kDndStartMin cfg.startMinute.toUInt32)
  endHour := lowByte (prefs.getU32 kDndEndHour cfg.endHour.toUInt32)
  endMinute := lowByte (prefs.getU32 kDndEndMin cfg.endMinute.toUInt32)

/-- The settings namespace and the singleton. -/
structure State where
  prefs : Prefs
  cfg : DndConfig

namespace State

def boot (prefs : Prefs) : State :=
  ⟨prefs, DndConfig.load {} prefs⟩

def setEnabled (enabled : Bool) (s : State) : State where
  prefs := applyWrites s.prefs [.setBool kDndEnabled enabled]
  cfg := { s.cfg with enabled }

def setTimeEnabled (enabled : Bool) (s : State) : State where
  prefs := applyWrites s.prefs [.setBool kDndTimeEnabled enabled]
  cfg := { s.cfg with timeEnabled := enabled }

def setTimeRange (startHour startMinute endHour endMinute : UInt8) (s : State) : State where
  prefs := applyWrites s.prefs
    [.setU32 kDndStartHour startHour.toUInt32, .setU32 kDndStartMin startMinute.toUInt32,
      .setU32 kDndEndHour endHour.toUInt32, .setU32 kDndEndMin endMinute.toUInt32]
  cfg := { s.cfg with startHour, startMinute, endHour, endMinute }

/-- The hook of the settings request. -/
def onDndChanged (s : State) : State :=
  let s := s.setTimeEnabled (readBool s.prefs kDndTimeEnabled)
  s.setTimeRange (lowByte (readU32 s.prefs kDndStartHour)) (lowByte (readU32 s.prefs kDndStartMin))
    (lowByte (readU32 s.prefs kDndEndHour)) (lowByte (readU32 s.prefs kDndEndMin))

/-- A settings request, with the hook once it is accepted. -/
def handleSettingsPatch (ctx : DeviceContext) (body : Option Json) (s : State) : State :=
  let out := applyPatch ctx body s.prefs
  let s := { s with prefs := applyWrites s.prefs out.writes }
  if out.result.status = .ok ∧ Hook.dnd.called out.result = true then s.onDndChanged else s

end State

/-- A settings request, or a request to switch do-not-disturb on or off. -/
inductive Op
  | patch (ctx : DeviceContext) (body : Option Json)
  | setEnabled (enabled : Bool)

def State.step (s : State) : Op → State
  | .patch ctx body => s.handleSettingsPatch ctx body
  | .setEnabled enabled => s.setEnabled enabled

def Accepted (s : State) : Op → Prop
  | .patch ctx body => (applyPatch ctx body s.prefs).result.status = .ok
  | .setEnabled _ => True

/-! ### One state -/

/-- The settings as they are reported. -/
structure Report where
  enabled : Bool
  timeEnabled : Bool
  startHour : UInt32
  startMinute : UInt32
  endHour : UInt32
  endMinute : UInt32
  deriving DecidableEq, Repr

/-- What the settings request reports. -/
def storedReport (prefs : Prefs) : Report where
  enabled := prefs.getBool kDndEnabled false
  timeEnabled := prefs.getBool kDndTimeEnabled false
  startHour := readU32 prefs kDndStartHour
  startMinute := readU32 prefs kDndStartMin
  endHour := readU32 prefs kDndEndHour
  endMinute := readU32 prefs kDndEndMin

/-- What the status request reports. -/
def DndConfig.report (cfg : DndConfig) : Report where
  enabled := cfg.enabled
  timeEnabled := cfg.timeEnabled
  startHour := cfg.startHour.toUInt32
  startMinute := cfg.startMinute.toUInt32
  endHour := cfg.endHour.toUInt32
  endMinute := cfg.endMinute.toUInt32

theorem dndBlock_eq (prefs : Prefs) :
    dndBlock prefs = ("dnd", .object
      [("enabled", .bool (storedReport prefs).enabled),
        ("dndTimeEnabled", .bool (storedReport prefs).timeEnabled),
        ("startHour", ofUInt32 (storedReport prefs).startHour),
        ("startMinute", ofUInt32 (storedReport prefs).startMinute),
        ("endHour", ofUInt32 (storedReport prefs).endHour),
        ("endMinute", ofUInt32 (storedReport prefs).endMinute)]) :=
  rfl

/-- The singleton holds what is stored: both reports agree, and a reboot loads the same. -/
structure InStep (s : State) : Prop where
  reboot : DndConfig.load {} s.prefs = s.cfg
  report : storedReport s.prefs = s.cfg.report

/-! ### What is asked of the steps -/

def timeKeys : List String :=
  [kDndStartHour, kDndStartMin, kDndEndHour, kDndEndMin]

/-- The keys of do-not-disturb. -/
def dndKeys : List String :=
  kDndEnabled :: kDndTimeEnabled :: timeKeys

/-- The start hour is stored, since the report and the singleton fall back to different ones,
and no time is above a byte. -/
structure TimesAgree (prefs : Prefs) : Prop where
  stored : ∃ hour, prefs kDndStartHour = some (.u32 hour)
  small : ∀ key ∈ timeKeys, ∀ v, prefs key = some (.u32 v) → v < 256

/-- The manual flag after a member. -/
def noteEnabled (on : Bool) (m : String × Json) : Bool :=
  match m.2 with
  | .bool b => if m.1 = kDndEnabled then b else on
  | _ => on

/-- The four times of the body, when they are all there and in range. -/
def dndTimes (root : Json) : Option DndTimes :=
  match dndMember root "startHour", dndMember root "startMinute",
    dndMember root "endHour", dndMember root "endMinute" with
  | some (.number sh), some (.number sm), some (.number eh), some (.number em) =>
      (checkDnd sh sm eh em).toOption
  | _, _, _, _ => none

/-- The nested member asks for another value. -/
def NestedAsked (root : Json) (prefs : Prefs) : Prop :=
  (∃ next, dndMember root "dndTimeEnabled" = some (.bool next) ∧
      prefs.getBool kDndTimeEnabled false ≠ next) ∨
    ∃ t, dndTimes root = some t ∧
      (prefs.getU32 kDndStartHour 22 ≠ t.startHour ∨
        prefs.getU32 kDndStartMin 0 ≠ t.startMinute ∨
        prefs.getU32 kDndEndHour 7 ≠ t.endHour ∨ prefs.getU32 kDndEndMin 0 ≠ t.endMinute)

/-- The body asks for another value of a setting of do-not-disturb. -/
def DndAsked (members : List (String × Json)) (prefs : Prefs) : Prop :=
  MemberAsks (· ∈ dndKeys) members prefs ∨ NestedAsked (.object members) prefs

/-- The times agree, or the request has them written; and it leaves the manual flag as it is
stored. -/
def KeepsInStep (s : State) : Op → Prop
  | .patch _ body => ∀ members, body = some (.object members) →
      members.foldl noteEnabled (s.prefs.getBool kDndEnabled false) =
          s.prefs.getBool kDndEnabled false ∧
        (DndAsked members s.prefs ∨ TimesAgree s.prefs)
  | .setEnabled _ => TimesAgree s.prefs

/-! ### The bytes of the times -/

theorem lowByte_toUInt32 (b : UInt8) : lowByte b.toUInt32 = b := by
  apply UInt8.toNat_inj.mp
  have hb : b.toNat < 256 := b.toNat_lt
  simp [lowByte, Nat.and_two_pow_sub_one_eq_mod _ 8]

theorem toUInt32_lowByte_iff (v : UInt32) : v = (lowByte v).toUInt32 ↔ v < 256 := by
  rw [← UInt32.toNat_inj, UInt32.lt_iff_toNat_lt]
  simp [lowByte, Nat.and_two_pow_sub_one_eq_mod _ 8]
  omega

theorem dnd_defaults :
    defaultBoolFor kDndTimeEnabled = false ∧ (defaultIntFor kDndStartHour).toUInt32 = 22 ∧
      (defaultIntFor kDndStartMin).toUInt32 = 0 ∧ (defaultIntFor kDndEndHour).toUInt32 = 7 ∧
      (defaultIntFor kDndEndMin).toUInt32 = 0 := by
  decide

/-- With one default of a byte, a number reads the same from both when the stored one is
small. -/
theorem getU32_eq_lowByte_iff {d : UInt32} (hd : d < 256) (prefs : Prefs) (key : String) :
    prefs.getU32 key d = (lowByte (prefs.getU32 key d)).toUInt32 ↔
      ∀ v, prefs key = some (.u32 v) → v < 256 := by
  rw [toUInt32_lowByte_iff]
  unfold Prefs.getU32
  cases hkey : prefs key with
  | none => exact iff_of_true hd nofun
  | some stored =>
      cases stored with
      | str s => exact iff_of_true hd nofun
      | u32 v =>
          constructor
          · rintro h w hw
            cases hw
            exact h
          · exact fun h => h v rfl

/-- The two defaults of the start hour differ, so the stored one is read. -/
theorem startHour_eq_iff (prefs : Prefs) :
    prefs.getU32 kDndStartHour 22 = (lowByte (prefs.getU32 kDndStartHour 23)).toUInt32 ↔
      ∃ hour, prefs kDndStartHour = some (.u32 hour) ∧ hour < 256 := by
  have hdefault : ¬ (22 : UInt32) = (lowByte 23).toUInt32 := by decide
  unfold Prefs.getU32
  cases hkey : prefs kDndStartHour with
  | none => exact iff_of_false hdefault fun ⟨_, h, _⟩ => nomatch h
  | some stored =>
      cases stored with
      | str s => exact iff_of_false hdefault fun ⟨_, h, _⟩ => nomatch h
      | u32 v =>
          refine (toUInt32_lowByte_iff v).trans ⟨fun h => ⟨v, rfl, h⟩, ?_⟩
          rintro ⟨hour, hhour, hsmall⟩
          cases hhour
          exact hsmall

/-- The two reports agree exactly when the times do. -/
theorem storedReport_eq_iff (prefs : Prefs) :
    storedReport prefs = (DndConfig.load {} prefs).report ↔ TimesAgree prefs := by
  obtain ⟨_, hsh, hsm, heh, hem⟩ := dnd_defaults
  have hzero := getU32_eq_lowByte_iff (d := 0) (by decide) prefs
  have hseven := getU32_eq_lowByte_iff (d := 7) (by decide) prefs
  simp only [storedReport, DndConfig.report, DndConfig.load, readU32, Report.mk.injEq, hsh, hsm,
    heh, hem, true_and]
  constructor
  · rintro ⟨hstart, hstartMin, hend, hendMin⟩
    obtain ⟨hour, hstored, hsmall⟩ := (startHour_eq_iff prefs).mp hstart
    refine ⟨⟨hour, hstored⟩, fun key hkey => ?_⟩
    simp only [timeKeys, List.mem_cons, List.not_mem_nil, or_false] at hkey
    rcases hkey with rfl | rfl | rfl | rfl
    · intro v hv
      rw [hstored] at hv
      cases hv
      exact hsmall
    · exact (hzero _).mp hstartMin
    · exact (hseven _).mp hend
    · exact (hzero _).mp hendMin
  · rintro ⟨⟨hour, hstored⟩, hsmall⟩
    have hstart := hsmall kDndStartHour (by decide) hour hstored
    exact ⟨(startHour_eq_iff prefs).mpr ⟨hour, hstored, hstart⟩,
      (hzero _).mpr (hsmall kDndStartMin (by decide)),
      (hseven _).mpr (hsmall kDndEndHour (by decide)),
      (hzero _).mpr (hsmall kDndEndMin (by decide))⟩

theorem inStep_iff (s : State) :
    InStep s ↔ DndConfig.load {} s.prefs = s.cfg ∧ TimesAgree s.prefs := by
  rw [← storedReport_eq_iff]
  constructor
  · rintro ⟨hreboot, hreport⟩
    exact ⟨hreboot, hreboot ▸ hreport⟩
  · rintro ⟨hreboot, hreport⟩
    exact ⟨hreboot, hreboot ▸ hreport⟩

/-! ### The setters -/

theorem TimesAgree.congr {prefs prefs' : Prefs} (h : TimesAgree prefs)
    (hsame : ∀ key ∈ timeKeys, prefs' key = prefs key) : TimesAgree prefs' where
  stored := by
    obtain ⟨hour, hstored⟩ := h.stored
    exact ⟨hour, (hsame kDndStartHour (by decide)).trans hstored⟩
  small key hkey v hv := h.small key hkey v ((hsame key hkey).symm.trans hv)

theorem load_congr {prefs prefs' : Prefs} (hsame : ∀ key ∈ dndKeys, prefs' key = prefs key)
    (cfg : DndConfig) : cfg.load prefs' = cfg.load prefs := by
  simp only [DndConfig.load, Prefs.getBool_congr (hsame kDndEnabled (by decide)),
    Prefs.getBool_congr (hsame kDndTimeEnabled (by decide)),
    Prefs.getU32_congr (hsame kDndStartHour (by decide)),
    Prefs.getU32_congr (hsame kDndStartMin (by decide)),
    Prefs.getU32_congr (hsame kDndEndHour (by decide)),
    Prefs.getU32_congr (hsame kDndEndMin (by decide))]

/-- The manual flag is written to both copies. -/
theorem load_setEnabled {s : State} (h : DndConfig.load {} s.prefs = s.cfg) (enabled : Bool) :
    DndConfig.load {} (s.setEnabled enabled).prefs = (s.setEnabled enabled).cfg := by
  have hsame (key : String) (hkey : key ≠ kDndEnabled) :
      (s.setEnabled enabled).prefs key = s.prefs key :=
    PrefsWrite.apply_of_ne hkey s.prefs
  have hflag : (s.setEnabled enabled).prefs.getBool kDndEnabled false = enabled :=
    getBool_setBool kDndEnabled enabled false s.prefs
  show _ = { s.cfg with enabled }
  rw [← h]
  simp only [DndConfig.load, hflag, Prefs.getBool_congr (hsame kDndTimeEnabled (by decide)),
    Prefs.getU32_congr (hsame kDndStartHour (by decide)),
    Prefs.getU32_congr (hsame kDndStartMin (by decide)),
    Prefs.getU32_congr (hsame kDndEndHour (by decide)),
    Prefs.getU32_congr (hsame kDndEndMin (by decide))]

theorem inStep_setEnabled_iff {s : State} (h : DndConfig.load {} s.prefs = s.cfg)
    (enabled : Bool) : InStep (s.setEnabled enabled) ↔ TimesAgree s.prefs := by
  have hsame : ∀ key ∈ timeKeys, (s.setEnabled enabled).prefs key = s.prefs key := by
    intro key hkey
    refine PrefsWrite.apply_of_ne ?_ s.prefs
    rintro rfl
    exact absurd hkey (by decide : kDndEnabled ∉ timeKeys)
  rw [inStep_iff, and_iff_right (load_setEnabled h enabled)]
  exact ⟨fun hafter => hafter.congr fun key hkey => (hsame key hkey).symm,
    fun hbefore => hbefore.congr hsame⟩

/-! ### The hook -/

/-- What the hook stores is what it leaves in the singleton. -/
theorem onDndChanged_stored (s : State) :
    s.onDndChanged.prefs kDndTimeEnabled =
        some (.u32 (if s.onDndChanged.cfg.timeEnabled then 1 else 0)) ∧
      s.onDndChanged.prefs kDndStartHour = some (.u32 s.onDndChanged.cfg.startHour.toUInt32) ∧
      s.onDndChanged.prefs kDndStartMin =
        some (.u32 s.onDndChanged.cfg.startMinute.toUInt32) ∧
      s.onDndChanged.prefs kDndEndHour = some (.u32 s.onDndChanged.cfg.endHour.toUInt32) ∧
      s.onDndChanged.prefs kDndEndMin = some (.u32 s.onDndChanged.cfg.endMinute.toUInt32) := by
  simp [State.onDndChanged, State.setTimeRange, State.setTimeEnabled, PrefsWrite.apply,
    PrefsWrite.key, PrefsWrite.stored, kDndTimeEnabled, kDndStartHour, kDndStartMin, kDndEndHour,
    kDndEndMin]
  rfl

/-- The hook leaves the manual flags alone. -/
theorem enabled_onDndChanged (s : State) :
    s.onDndChanged.prefs kDndEnabled = s.prefs kDndEnabled := by
  simp [State.onDndChanged, State.setTimeRange, State.setTimeEnabled, PrefsWrite.apply,
    PrefsWrite.key, kDndEnabled, kDndTimeEnabled, kDndStartHour, kDndStartMin, kDndEndHour,
    kDndEndMin]

/-- After the hook, what is stored apart from the manual flag is what the singleton holds. -/
theorem load_onDndChanged (s : State) :
    DndConfig.load {} s.onDndChanged.prefs =
      { s.onDndChanged.cfg with enabled := s.prefs.getBool kDndEnabled false } := by
  obtain ⟨htime, hsh, hsm, heh, hem⟩ := onDndChanged_stored s
  have hflag := Prefs.getBool_congr (enabled_onDndChanged s) false
  have htimeEnabled : s.onDndChanged.prefs.getBool kDndTimeEnabled false =
      s.onDndChanged.cfg.timeEnabled := by
    rw [Prefs.getBool, getU32_of_stored htime]
    cases s.onDndChanged.cfg.timeEnabled <;> rfl
  simp only [DndConfig.load, hflag, htimeEnabled, getU32_of_stored hsh, getU32_of_stored hsm,
    getU32_of_stored heh, getU32_of_stored hem, lowByte_toUInt32]

theorem timesAgree_onDndChanged (s : State) : TimesAgree s.onDndChanged.prefs := by
  obtain ⟨_, hsh, hsm, heh, hem⟩ := onDndChanged_stored s
  have hbyte (b : UInt8) : b.toUInt32 < 256 := UInt32.lt_iff_toNat_lt.mpr b.toNat_lt
  refine ⟨⟨_, hsh⟩, fun key hkey v hv => ?_⟩
  simp only [timeKeys, List.mem_cons, List.not_mem_nil, or_false] at hkey
  rcases hkey with rfl | rfl | rfl | rfl
  · cases hsh.symm.trans hv
    exact hbyte _
  · cases hsm.symm.trans hv
    exact hbyte _
  · cases heh.symm.trans hv
    exact hbyte _
  · cases hem.symm.trans hv
    exact hbyte _

/-- The hook brings everything in step but the manual flag. -/
theorem inStep_onDndChanged_iff (s : State) :
    InStep s.onDndChanged ↔ s.prefs.getBool kDndEnabled false = s.cfg.enabled := by
  rw [inStep_iff, and_iff_left (timesAgree_onDndChanged s), load_onDndChanged]
  constructor
  · exact fun h => congrArg DndConfig.enabled h
  · intro h
    rw [h]
    rfl

/-! ### The request -/

theorem watches_iff (key : String) : Hook.dnd.watches key = true ↔ key ∈ dndKeys :=
  decide_eq_true_iff

section Request

variable {ctx : DeviceContext} {members : List (String × Json)} {prefs : Prefs}

/-- The blocks between the walk over the members and the two of do-not-disturb. -/
def quietBlocks (ctx : DeviceContext) (root : Json) : List PatchBlock :=
  listBlocks ctx root ++ patchScreenOrder ctx root :: (screenEntries root).map (patchVisible ctx)

theorem blocks_eq_quiet :
    blocks ctx members = (memberBlocks ctx members ++ quietBlocks ctx (.object members)) ++
      [patchDndTimeEnabled (.object members), patchDnd (.object members)] := by
  simp only [blocks, quietBlocks, nestedBlocks, List.append_assoc, List.cons_append]

theorem writesOnly_quietBlocks {root : Json} {block : PatchBlock}
    (h : block ∈ quietBlocks ctx root) : WritesOnly (· ∉ dndKeys) block := by
  simp only [quietBlocks, listBlocks, List.cons_append, List.nil_append, List.mem_cons,
    List.mem_map] at h
  rcases h with rfl | rfl | rfl | rfl | rfl | rfl | rfl | rfl | rfl | ⟨s, _, rfl⟩
  · exact (writesOnly_patchInvertedColor root).mono (by decide)
  · exact (writesOnly_patchTimePerScreen root).mono fun key hkey => hkey ▸ by decide
  · exact (writesOnly_patchTxPower root).mono fun key hkey => hkey ▸ by decide
  · exact (writesOnly_patchActCurrencies ctx root).mono fun key hkey => hkey ▸ by decide
  · exact (writesOnly_patchZapPubkey root).mono fun key hkey => hkey ▸ by decide
  · exact (writesOnly_patchZapPubkeys root).mono fun key hkey => hkey ▸ by decide
  · exact (writesOnly_patchRelay root).mono fun key hkey => hkey ▸ by decide
  · exact (writesOnly_patchRelays root).mono fun key hkey => hkey ▸ by decide
  · exact (writesOnly_patchScreenOrder ctx root).mono fun key hkey => hkey ▸ by decide
  · refine (writesOnly_patchVisible ctx s).mono ?_
    rintro key ⟨id, rfl⟩ hmem
    have hfield : ∀ key ∈ dndKeys, findField key ≠ none := by decide
    exact hfield _ hmem (findField_visibleKey id)

theorem candid_quietBlocks {block : PatchBlock}
    (h : block ∈ quietBlocks ctx (.object members)) : EveryEffect Effect.Candid block := by
  have hmem : block ∈ blocks ctx members := by
    rw [blocks_eq_quiet]
    exact List.mem_append_left _ (List.mem_append_right _ h)
  exact candid_blocks hmem

theorem findField_dndEnabled :
    findField kDndEnabled = some { key := kDndEnabled, kind := .bool } :=
  rfl

theorem noteEnabled_of_ne {m : String × Json} (h : m.1 ≠ kDndEnabled) (on : Bool) :
    noteEnabled on m = on := by
  simp only [noteEnabled, if_neg h]
  split <;> rfl

/-- An accepted member leaves the manual flag as it is noted. -/
theorem enabled_of_patchMember {root : Json} {m : String × Json} {effect : Effect}
    (hb : patchMember ctx root m prefs = .ok effect) :
    (applyWrites prefs effect.writes).getBool kDndEnabled false =
      noteEnabled (prefs.getBool kDndEnabled false) m := by
  by_cases hm : m.1 = kDndEnabled
  · obtain ⟨key, item⟩ := m
    subst hm
    have hreads := (of_patchMember_eq_ok (by decide) findField_dndEnabled hb).2
    cases item <;> simp only [ReadsAs] at hreads
    simp only [noteEnabled, if_true]
    exact hreads
  · rw [noteEnabled_of_ne hm]
    exact Prefs.getBool_congr
      ((writesOnly_patchMember ctx root m).frame hb fun hkey => hm hkey.1.symm) _

theorem enabled_walk {root : Json} (ms : List (String × Json))
    (h : AllAccepted (ms.map (patchMember ctx root)) prefs) :
    (storeAfter (ms.map (patchMember ctx root)) prefs).getBool kDndEnabled false =
      ms.foldl noteEnabled (prefs.getBool kDndEnabled false) := by
  induction ms generalizing prefs with
  | nil => rfl
  | cons m ms ih =>
      obtain ⟨effect, hb, hrest⟩ := h
      rw [List.map_cons, storeAfter_cons_ok hb, ih hrest, enabled_of_patchMember hb]
      rfl

theorem enabled_blocks (h : AllAccepted (blocks ctx members) prefs) :
    (storeAfter (blocks ctx members) prefs).getBool kDndEnabled false =
      members.foldl noteEnabled (prefs.getBool kDndEnabled false) := by
  have hwalk : AllAccepted (members.map (patchMember ctx (.object members))) prefs := by
    rw [blocks_eq_walk] at h
    exact ((allAccepted_append _ _ prefs).mp h).1
  have hfield : findField kDndEnabled ≠ none := by
    rw [findField_dndEnabled]
    exact Option.some_ne_none _
  rw [← enabled_walk members hwalk]
  exact Prefs.getBool_congr (storeAfter_blocks_of_field hfield (by decide) h) _

/-! ### When the hook is called -/

theorem reportClosed_dndKeys : ReportClosed (· ∈ dndKeys) :=
  reportClosed_of (by decide) (by decide)

theorem asks_patchDndTimeEnabled (root : Json) :
    Asks (· ∈ dndKeys) [patchDndTimeEnabled root] fun prefs =>
      ∃ next, dndMember root "dndTimeEnabled" = some (.bool next) ∧
        prefs.getBool kDndTimeEnabled false ≠ next := by
  refine asks_singleton (candid_patchDndTimeEnabled root) (fun prefs prefs' hsame => ?_)
    fun prefs effect hb => ?_
  · simp only [Prefs.getBool_congr (hsame kDndTimeEnabled (by decide))]
  by_cases hitem : ∃ next, dndMember root "dndTimeEnabled" = some (.bool next)
  · obtain ⟨next, hnext⟩ := hitem
    have heq : patchDndTimeEnabled root = accepted (storeDndTimeEnabled next) := by
      simp only [patchDndTimeEnabled, hnext]
    rw [heq] at hb
    cases hb
    refine (touched_ite_iff (by decide)).trans ?_
    simp only [hnext, Option.some.injEq, Json.bool.injEq, exists_eq_left']
  · have heq : patchDndTimeEnabled root = skip := by
      unfold patchDndTimeEnabled
      split
      · rename_i next hnext
        exact absurd ⟨next, hnext⟩ hitem
      · rfl
    rw [heq] at hb
    cases hb
    refine iff_of_false ?_ ?_
    · rintro ⟨_, ht, _⟩
      cases ht
    · rintro ⟨next, hnext, _⟩
      exact hitem ⟨next, hnext⟩

/-- The block of the times does nothing without the four of them. -/
theorem patchDnd_cases (root : Json) :
    (∃ t, dndTimes root = some t ∧ patchDnd root = accepted (storeDnd t)) ∨
      dndTimes root = none ∧ ∀ prefs effect, patchDnd root prefs = .ok effect → effect = {} := by
  by_cases hitems : ∃ sh sm eh em, dndMember root "startHour" = some (.number sh) ∧
      dndMember root "startMinute" = some (.number sm) ∧
      dndMember root "endHour" = some (.number eh) ∧
      dndMember root "endMinute" = some (.number em)
  · obtain ⟨sh, sm, eh, em, hsh, hsm, heh, hem⟩ := hitems
    simp only [dndTimes, patchDnd, hsh, hsm, heh, hem]
    cases checkDnd sh sm eh em with
    | error e => exact Or.inr ⟨rfl, fun _ _ hb => by cases hb⟩
    | ok t => exact Or.inl ⟨t, rfl, rfl⟩
  · have htimes : dndTimes root = none := by
      unfold dndTimes
      split
      · rename_i hsh hsm heh hem
        exact absurd ⟨_, _, _, _, hsh, hsm, heh, hem⟩ hitems
      · rfl
    have hskip : patchDnd root = skip := by
      unfold patchDnd
      split
      · rename_i hsh hsm heh hem
        exact absurd ⟨_, _, _, _, hsh, hsm, heh, hem⟩ hitems
      · rfl
    refine Or.inr ⟨htimes, fun prefs effect hb => ?_⟩
    rw [hskip] at hb
    cases hb
    rfl

theorem asks_patchDnd (root : Json) :
    Asks (· ∈ dndKeys) [patchDnd root] fun prefs =>
      ∃ t, dndTimes root = some t ∧
        (prefs.getU32 kDndStartHour 22 ≠ t.startHour ∨
          prefs.getU32 kDndStartMin 0 ≠ t.startMinute ∨
          prefs.getU32 kDndEndHour 7 ≠ t.endHour ∨ prefs.getU32 kDndEndMin 0 ≠ t.endMinute) := by
  refine asks_singleton (candid_patchDnd root) (fun prefs prefs' hsame => ?_)
    fun prefs effect hb => ?_
  · simp only [Prefs.getU32_congr (hsame kDndStartHour (by decide)),
      Prefs.getU32_congr (hsame kDndStartMin (by decide)),
      Prefs.getU32_congr (hsame kDndEndHour (by decide)),
      Prefs.getU32_congr (hsame kDndEndMin (by decide))]
  rcases patchDnd_cases root with ⟨t, ht, heq⟩ | ⟨hnone, hempty⟩
  · rw [heq] at hb
    cases hb
    refine (touched_ite_iff (by decide)).trans ?_
    simp only [ht, Option.some.injEq, exists_eq_left']
  · rw [hempty prefs effect hb]
    refine iff_of_false (fun ⟨_, ht, _⟩ => nomatch ht) ?_
    rintro ⟨t, ht, _⟩
    cases hnone.symm.trans ht

/-- The request asks through its members and through the nested one. -/
theorem asks_blocks (ctx : DeviceContext) (members : List (String × Json)) :
    Asks (· ∈ dndKeys) (blocks ctx members) (DndAsked members) := by
  have hcandid : ∀ block ∈ quietBlocks ctx (.object members),
      EveryEffect Effect.Candid block := fun _ => candid_quietBlocks
  have hquiet := asks_of_writesOnly (K := (· ∈ dndKeys)) hcandid fun _ => writesOnly_quietBlocks
  have hfront := (asks_walk ctx (.object members) members).append reportClosed_dndKeys hquiet
  have hnested := (asks_patchDndTimeEnabled (.object members)).append reportClosed_dndKeys
    (asks_patchDnd (.object members))
  rw [blocks_eq_quiet]
  refine (hfront.append reportClosed_dndKeys hnested).of_iff fun prefs => ?_
  rw [or_false]
  rfl

/-- The hook is called exactly when the body asks for another value. -/
theorem called_iff (h : AllAccepted (blocks ctx members) prefs) :
    Hook.dnd.called (runBlocks (blocks ctx members) prefs).result = true ↔
      DndAsked members prefs := by
  rw [← (asks_blocks ctx members).touches prefs h]
  simp only [Hook.called, List.any_eq_true, watches_iff]
  rfl

/-- A request on copies which a reboot would not change leaves them in step exactly when it
keeps the manual flag and has the times written or finds them agreeing. -/
theorem inStep_patch_iff {s : State} (hload : DndConfig.load {} s.prefs = s.cfg)
    (h : AllAccepted (blocks ctx members) s.prefs) :
    InStep (s.handleSettingsPatch ctx (some (.object members))) ↔
      members.foldl noteEnabled (s.prefs.getBool kDndEnabled false) =
          s.prefs.getBool kDndEnabled false ∧
        (DndAsked members s.prefs ∨ TimesAgree s.prefs) := by
  have henabled : s.cfg.enabled = s.prefs.getBool kDndEnabled false := by
    rw [← hload]
    rfl
  have hstatus : (runBlocks (blocks ctx members) s.prefs).result.status = .ok :=
    (status_eq_ok_iff _ s.prefs).mpr h
  by_cases hasked : DndAsked members s.prefs
  · have hstep : s.handleSettingsPatch ctx (some (.object members)) =
        State.onDndChanged ⟨storeAfter (blocks ctx members) s.prefs, s.cfg⟩ :=
      if_pos ⟨hstatus, (called_iff h).mpr hasked⟩
    rw [hstep, inStep_onDndChanged_iff, and_iff_left (Or.inl hasked), ← enabled_blocks h,
      ← henabled]
  · have hnot : ¬ Hook.dnd.called (runBlocks (blocks ctx members) s.prefs).result = true :=
      fun hcalled => hasked ((called_iff h).mp hcalled)
    have hstep : s.handleSettingsPatch ctx (some (.object members)) =
        ⟨storeAfter (blocks ctx members) s.prefs, s.cfg⟩ :=
      if_neg fun hboth => hnot hboth.2
    have hsame : ∀ key ∈ dndKeys,
        storeAfter (blocks ctx members) s.prefs key = s.prefs key := fun key hkey =>
      storeAfter_of_not_touched reportClosed_dndKeys (fun _ => candid_blocks)
        (fun htouched => hasked (((asks_blocks ctx members).touches _ h).mp htouched)) hkey
    have hkeeps : members.foldl noteEnabled (s.prefs.getBool kDndEnabled false) =
        s.prefs.getBool kDndEnabled false := by
      rw [← enabled_blocks h]
      exact Prefs.getBool_congr (hsame kDndEnabled (by decide)) _
    have htimes (key : String) (hkey : key ∈ timeKeys) :
        storeAfter (blocks ctx members) s.prefs key = s.prefs key :=
      hsame key (List.mem_cons_of_mem _ (List.mem_cons_of_mem _ hkey))
    rw [hstep, inStep_iff, load_congr hsame, and_iff_right hload, and_iff_right hkeeps,
      or_iff_right hasked]
    exact ⟨fun hafter => hafter.congr fun key hkey => (htimes key hkey).symm,
      fun hbefore => hbefore.congr htimes⟩

end Request

theorem inStep_step_iff {s : State} (hload : DndConfig.load {} s.prefs = s.cfg) {op : Op}
    (haccepted : Accepted s op) : InStep (s.step op) ↔ KeepsInStep s op := by
  match op with
  | .setEnabled enabled => exact inStep_setEnabled_iff hload enabled
  | .patch ctx (some (.object members)) =>
      have hall : AllAccepted (blocks ctx members) s.prefs :=
        (status_eq_ok_iff _ s.prefs).mp haccepted
      refine (inStep_patch_iff hload hall).trans ?_
      constructor
      · rintro hkeeps members' hbody
        cases hbody
        exact hkeeps
      · exact fun hkeeps => hkeeps members rfl
  | .patch _ none => cases haccepted
  | .patch _ (some .null) => cases haccepted
  | .patch _ (some (.bool _)) => cases haccepted
  | .patch _ (some (.number _)) => cases haccepted
  | .patch _ (some (.string _)) => cases haccepted
  | .patch _ (some (.array _)) => cases haccepted

/-- Along a run of accepted operations the two copies are in step after each of them exactly
when each keeps them in step. -/
theorem along_inStep_iff (prefs : Prefs) (ops : List Op)
    (haccepted : Transition.Along State.step Accepted (State.boot prefs) ops) :
    Transition.Along State.step (fun s op => InStep (s.step op)) (State.boot prefs) ops ↔
      Transition.Along State.step KeepsInStep (State.boot prefs) ops := by
  constructor
  · intro hinStep
    refine (haccepted.and hinStep).mono_of_invariant
      (I := fun s => DndConfig.load {} s.prefs = s.cfg) ?_ rfl
    rintro s op hload ⟨hop, hstep⟩
    exact ⟨(inStep_step_iff hload hop).mp hstep, hstep.reboot⟩
  · intro hkeeps
    refine (haccepted.and hkeeps).mono_of_invariant
      (I := fun s => DndConfig.load {} s.prefs = s.cfg) ?_ rfl
    rintro s op hload ⟨hop, hstep⟩
    have hinStep := (inStep_step_iff hload hop).mpr hstep
    exact ⟨hinStep, hinStep.reboot⟩

/-- The schedule is switched on, and then the manual flag. -/
def scheduleThenManual : List Op :=
  [.patch {} (some (.object [(kDndTimeEnabled, .bool true)])), .setEnabled true]

theorem along_inStep_scheduleThenManual :
    Transition.Along State.step (fun s op => InStep (s.step op)) (State.boot Prefs.empty)
      scheduleThenManual := by
  have haccepted : Accepted (State.boot Prefs.empty)
      (.patch {} (some (.object [(kDndTimeEnabled, .bool true)]))) :=
    (by decide : (applyPatch {} (some (.object [(kDndTimeEnabled, .bool true)]))
      Prefs.empty).result.status = .ok)
  have hkeeps : KeepsInStep (State.boot Prefs.empty)
      (.patch {} (some (.object [(kDndTimeEnabled, .bool true)]))) := by
    intro members hbody
    cases hbody
    refine ⟨by decide, Or.inl (Or.inl ?_)⟩
    exact ⟨(kDndTimeEnabled, .bool true), List.mem_cons_self, by decide, by decide,
      { key := kDndTimeEnabled, kind := .bool }, rfl, fun h => nomatch h⟩
  have hfirst := (inStep_step_iff rfl haccepted).mpr hkeeps
  exact (along_inStep_iff Prefs.empty scheduleThenManual ⟨haccepted, trivial, trivial⟩).mpr
    ⟨hkeeps, ((inStep_iff _).mp hfirst).2, trivial⟩

/-- A request which sets the manual flag leaves the singleton without it; and on a clock without
stored times the other way of setting it leaves another start hour in the report than in the
singleton. -/
theorem manualFlag_not_inStep :
    (Transition.Along State.step Accepted (State.boot Prefs.empty)
        [.patch {} (some (.object [(kDndEnabled, .bool true)]))] ∧
      ¬Transition.Along State.step (fun s op => InStep (s.step op)) (State.boot Prefs.empty)
        [.patch {} (some (.object [(kDndEnabled, .bool true)]))]) ∧
    (Transition.Along State.step Accepted (State.boot Prefs.empty) [.setEnabled true] ∧
      ¬Transition.Along State.step (fun s op => InStep (s.step op)) (State.boot Prefs.empty)
        [.setEnabled true]) := by
  refine ⟨⟨⟨?_, trivial⟩, fun h => ?_⟩, ⟨trivial, trivial⟩, fun h => ?_⟩
  · exact (by decide : (applyPatch {} (some (.object [(kDndEnabled, .bool true)]))
      Prefs.empty).result.status = .ok)
  · have hflag := congrArg DndConfig.enabled h.1.reboot
    revert hflag
    decide
  · have hhour := congrArg Report.startHour h.1.report
    revert hhour
    decide

end Dnd

end BtClock
