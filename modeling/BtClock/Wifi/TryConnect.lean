import BtClock.Transition.Run
import BtClock.Wifi.Station

/-!
# Verified credentials

`TryConnect` concludes from the shared state and reason.  Its answer is about the candidate as
long as the events which decide it are, and the retry goes on as long as the candidate can be
configured.
-/

namespace BtClock

namespace Wifi

open Ota (EspErr espOk)
open Transition

/-! ### What is asked of an answer -/

/-- An address was got for the candidate since it was configured. -/
def Verify.SawGotIp (v : Verify) : Prop :=
  ∃ e ∈ v.seen, e.madeWith = v.candidate ∧ e.isGotIp = true

/-- The candidate was refused since it was configured. -/
def Verify.SawRefusal (v : Verify) : Prop :=
  ∃ e ∈ v.seen, e.madeWith = v.candidate ∧ e.isRefusal = true

/-- What the answer `rc` says of the events. -/
def Verify.Backs (v : Verify) (rc : EspErr) : Prop :=
  (rc = espOk → v.SawGotIp) ∧ (rc = espErrInvalidResponse → v.SawRefusal)

theorem Verify.SawGotIp.mono {v : Verify} (h : v.SawGotIp) (e : DriverEvent) :
    Verify.SawGotIp { v with seen := v.seen ++ [e] } := by
  obtain ⟨e', he', hrest⟩ := h
  exact ⟨e', List.mem_append_left _ he', hrest⟩

theorem Verify.SawRefusal.mono {v : Verify} (h : v.SawRefusal) (e : DriverEvent) :
    Verify.SawRefusal { v with seen := v.seen ++ [e] } := by
  obtain ⟨e', he', hrest⟩ := h
  exact ⟨e', List.mem_append_left _ he', hrest⟩

namespace System

/-- The retry of the network which was saved. -/
def Resumed (s : System) : Prop :=
  s.wifi.staAutoRetry = true ∧ s.wifi.retrySsid = s.verify.savedSsid ∧
    s.wifi.retryPw = s.verify.savedPw

/-- What `TryConnect` gave. -/
def answer : Caller → Option EspErr
  | .returned rc => some rc
  | _ => none

/-- When `TryConnect` has returned, its answer is about the candidate, and without success the
saved network is retried. -/
def Answered (s : System) : Prop :=
  ∀ rc ∈ answer s.caller,
    s.verify.Backs rc ∧ (rc ≠ espOk → s.verify.savedSsid ≠ [] → s.Resumed)

/-- The reason is reset and `TryConnect` has no result yet. -/
def pastReason : Caller → Bool
  | .applying _ .setConnecting .verify | .applying _ .connect .verify => true
  | .polling | .checking | .reading => true
  | _ => false

/-- The state is reset and `TryConnect` has no result yet. -/
def pastState : Caller → Bool
  | .applying _ .connect .verify => true
  | .polling | .checking | .reading => true
  | _ => false

/-- The event whose address is stored. -/
def arriving : Handler → Option DriverEvent
  | .gotIp e => some e
  | _ => none

/-- The candidate is about to be configured. -/
def configures : Caller → Bool
  | .applying _ .setConfig .verify => true
  | _ => false

/-- The condition on a step: an event which decides is one of the candidate, which arrived since
it was configured, and the candidate is configured when there is a network to be resumed. -/
def Decisive (s : System) : Act → Prop
  | .dispatch =>
      ∀ e ∈ s.inFlight.head?, s.handler = .idle → pastReason s.caller = true →
        e.isRefusal = true → e.madeWith = s.verify.candidate
  | .handle _ =>
      ∀ e ∈ arriving s.handler, pastState s.caller = true →
        e ∈ s.verify.seen ∧ e.madeWith = s.verify.candidate
  | .call (.setConfig code) =>
      configures s.caller = true → code.rc ≠ espOk → s.wifi.retrySsid = []
  | _ => True

/-! ### The invariant -/

/-- The result which `TryConnect` will give. -/
def verdict : Caller → Option EspErr
  | .disconnecting rc | .rearming rc | .applying _ _ (.resume rc) | .returned rc => some rc
  | _ => none

/-- `TryConnect` runs, or was the last call. -/
def inVerify : Caller → Bool
  | .idle | .applying _ _ .connect => false
  | _ => true

/-- The retry was enabled again. -/
def Rearmed : Caller → Prop
  | .applying _ _ (.resume _) => True
  | .returned rc => rc ≠ espOk
  | _ => False

structure Invariant (s : System) : Prop where
  started : s.wifi.retrySsid ≠ [] → s.wifi.started = true
  reason : pastReason s.caller = true → isTerminal s.wifi.lastReason = true →
    s.verify.SawRefusal
  state : pastState s.caller = true → s.wifi.state = .connected → s.verify.SawGotIp
  backed : ∀ rc, verdict s.caller = some rc → s.verify.Backs rc
  saved : inVerify s.caller = true →
    s.wifi.retrySsid = s.verify.savedSsid ∧ s.wifi.retryPw = s.verify.savedPw ∧
      (s.verify.hadRetryTarget = true ↔ s.verify.savedSsid ≠ [])
  rearmed : Rearmed s.caller → s.verify.hadRetryTarget = true → s.wifi.staAutoRetry = true
  gotIp : ∀ e ∈ arriving s.handler, e.isGotIp = true

theorem Invariant.answered {s : System} (h : Invariant s) : Answered s := by
  intro rc hrc
  have hcaller : s.caller = .returned rc := by
    cases hc : s.caller with
    | returned rc' =>
        rw [hc] at hrc
        cases hrc
        rfl
    | _ =>
        rw [hc] at hrc
        cases hrc
  refine ⟨h.backed rc (by rw [hcaller]; rfl), fun hne htarget => ?_⟩
  obtain ⟨hssid, hpw, hhad⟩ := h.saved (by rw [hcaller]; rfl)
  exact ⟨h.rearmed (by rw [hcaller]; exact hne) (hhad.mpr htarget), hssid, hpw⟩

theorem invariant_initial : Invariant {} where
  started h := absurd rfl h
  reason h := nomatch h
  state h := nomatch h
  backed _ h := nomatch h
  saved h := nomatch h
  rearmed h := h.elim
  gotIp _ h := nomatch h

/-- An error of the driver says nothing of the events. -/
theorem backs_of_code (v : Verify) {code : DriverCode} (h : code.rc ≠ espOk) :
    v.Backs code.rc :=
  ⟨fun hok => absurd hok h, fun hinvalid => absurd hinvalid code.rc_ne⟩

/-! ### The calling task -/

section Caller

variable {s : System}

theorem Invariant.connect (h : Invariant s) (ssid password : CString) (start : DriverCode) :
    Invariant (s.connect ssid password start) := by
  unfold System.connect
  split
  · exact
      { started := h.started
        reason := nofun
        state := nofun
        backed := nofun
        saved := nofun
        rearmed := nofun
        gotIp := h.gotIp }
  · exact
      { started := fun _ => rfl
        reason := nofun
        state := nofun
        backed := nofun
        saved := nofun
        rearmed := nofun
        gotIp := h.gotIp }

theorem Invariant.tryConnect (h : Invariant s) (ssid password : CString) (start : DriverCode) :
    Invariant (s.tryConnect ssid password start) := by
  unfold System.tryConnect
  simp only
  split
  · rename_i hstart
    have hnone : s.wifi.retrySsid = [] := by
      by_contra hne
      rw [h.started hne] at hstart
      exact Bool.noConfusion hstart.1
    exact
      { started := h.started
        reason := nofun
        state := nofun
        backed := by
          rintro rc ⟨⟩
          exact backs_of_code _ hstart.2
        saved := fun _ => ⟨rfl, rfl, by simp⟩
        rearmed := fun _ hhad => by simp [hnone] at hhad
        gotIp := h.gotIp }
  · exact
      { started := fun _ => rfl
        reason := nofun
        state := nofun
        backed := nofun
        saved := fun _ => ⟨rfl, rfl, by simp⟩
        rearmed := nofun
        gotIp := h.gotIp }

/-- The caller goes on without a store. -/
theorem Invariant.goTo (h : Invariant s) {c : Caller}
    (hreason : pastReason c = true → pastReason s.caller = true)
    (hstate : pastState c = true → pastState s.caller = true)
    (hbacked : ∀ rc, verdict c = some rc → s.verify.Backs rc)
    (hsaved : inVerify c = true → inVerify s.caller = true)
    (hrearmed : Rearmed c → s.verify.hadRetryTarget = true → s.wifi.staAutoRetry = true) :
    Invariant { s with caller := c } :=
  { h with
    reason := fun hc => h.reason (hreason hc)
    state := fun hc => h.state (hstate hc)
    backed := hbacked
    saved := fun hc => h.saved (hsaved hc)
    rearmed := hrearmed }

/-- The next store of `ApplyStaConfigAndConnect`, which leaves the retry alone. -/
theorem Invariant.advance (h : Invariant s) {cfg : StaConfig} {stage : ApplyStage}
    {origin : Origin} (hcaller : s.caller = .applying cfg stage origin) (stage' : ApplyStage)
    (w : Wifi) (hstarted : w.started = s.wifi.started)
    (hretry : w.retrySsid = s.wifi.retrySsid ∧ w.retryPw = s.wifi.retryPw ∧
      w.staAutoRetry = s.wifi.staAutoRetry)
    (hreason : origin = .verify → pastReason (.applying cfg stage' .verify) = true →
      isTerminal w.lastReason = true → s.verify.SawRefusal)
    (hstate : origin = .verify → pastState (.applying cfg stage' .verify) = true →
      w.state = .connected → s.verify.SawGotIp) :
    Invariant { s with wifi := w, caller := .applying cfg stage' origin } where
  started hne := hstarted.trans (h.started (hretry.1 ▸ hne))
  reason hc := by
    cases origin with
    | verify => exact hreason rfl hc
    | connect => cases stage' <;> cases hc
    | resume rc => cases stage' <;> cases hc
  state hc := by
    cases origin with
    | verify => exact hstate rfl hc
    | connect => cases stage' <;> cases hc
    | resume rc => cases stage' <;> cases hc
  backed rc hrc := by
    cases origin with
    | verify => cases hrc
    | connect => cases hrc
    | resume rc' => exact h.backed rc (by rw [hcaller]; exact hrc)
  saved hc := by
    have hsaved := h.saved (by rw [hcaller]; cases origin <;> first | rfl | cases hc)
    exact ⟨hretry.1.trans hsaved.1, hretry.2.1.trans hsaved.2.1, hsaved.2.2⟩
  rearmed hc hhad := by
    cases origin with
    | verify => exact hc.elim
    | connect => exact hc.elim
    | resume rc => exact hretry.2.2.trans (h.rearmed (by rw [hcaller]; trivial) hhad)
  gotIp := h.gotIp

/-- Behind a failed configuration. -/
theorem Invariant.failed (h : Invariant s) {cfg : StaConfig} {origin : Origin}
    {code : DriverCode} (hcaller : s.caller = .applying cfg .setConfig origin)
    (hcode : code.rc ≠ espOk) (hcondition : origin = .verify → s.wifi.retrySsid = []) :
    Invariant { s with caller := afterApply code.rc origin } := by
  cases origin with
  | connect => exact h.goTo nofun nofun nofun nofun nofun
  | verify =>
      have hsaved := h.saved (by rw [hcaller]; rfl)
      have hafter : afterApply code.rc .verify = .returned code.rc := if_pos hcode
      rw [hafter]
      refine h.goTo nofun nofun ?_ (fun _ => by rw [hcaller]; rfl) fun _ hhad => ?_
      · rintro rc ⟨⟩
        exact backs_of_code _ hcode
      · exact absurd (hsaved.1.symm.trans (hcondition rfl)) (hsaved.2.2.mp hhad)
  | resume rc =>
      refine h.goTo nofun nofun (fun rc' hrc' => h.backed rc' ?_) (fun _ => ?_) fun _ =>
        h.rearmed ?_
      · rw [hcaller]
        exact hrc'
      · rw [hcaller]
        rfl
      · rw [hcaller]
        trivial

/-- Behind `esp_wifi_connect`. -/
theorem Invariant.applied (h : Invariant s) {cfg : StaConfig} {origin : Origin}
    (hcaller : s.caller = .applying cfg .connect origin) :
    Invariant { s with caller := afterApply espOk origin } := by
  cases origin with
  | connect => exact h.goTo nofun nofun nofun nofun nofun
  | verify =>
      refine h.goTo (fun _ => ?_) (fun _ => ?_) nofun (fun _ => ?_) nofun <;>
        rw [hcaller] <;> rfl
  | resume rc =>
      refine h.goTo nofun nofun (fun rc' hrc' => h.backed rc' ?_) (fun _ => ?_) fun _ =>
        h.rearmed ?_
      · rw [hcaller]
        exact hrc'
      · rw [hcaller]
        rfl
      · rw [hcaller]
        trivial

theorem Invariant.stepCaller (h : Invariant s) {a : CallerAct} (hcondition : Decisive s (.call a)) :
    Invariant (s.stepCaller a) := by
  unfold System.stepCaller
  split
  · rename_i hcaller
    exact { h with
      reason := nofun
      state := nofun
      backed := nofun
      saved := fun _ => h.saved (by rw [hcaller]; rfl)
      rearmed := nofun }
  · rename_i cfg origin code hcaller
    split
    · rename_i hcode
      refine h.failed hcaller hcode ?_
      rintro rfl
      exact hcondition (by rw [hcaller]; rfl) hcode
    · exact { h.advance hcaller .resetReason s.wifi rfl ⟨rfl, rfl, rfl⟩ nofun nofun with }
  · rename_i cfg origin hcaller
    exact h.advance hcaller .setConnecting _ rfl ⟨rfl, rfl, rfl⟩ nofun nofun
  · rename_i cfg origin hcaller
    refine h.advance hcaller .connect _ rfl ⟨rfl, rfl, rfl⟩ ?_ nofun
    rintro rfl _
    exact h.reason (by rw [hcaller]; rfl)
  · rename_i cfg origin began hcaller
    have happlied := h.applied hcaller
    cases began
    · exact happlied
    · exact { happlied with }
  · rename_i expired hcaller
    cases expired with
    | true =>
        refine h.goTo nofun nofun ?_ (fun _ => by rw [hcaller]; rfl) nofun
        rintro rc ⟨⟩
        exact ⟨nofun, nofun⟩
    | false =>
        refine h.goTo (fun _ => ?_) (fun _ => ?_) nofun (fun _ => ?_) nofun <;>
          rw [hcaller] <;> rfl
  · rename_i hcaller
    split
    · rename_i hconnected
      refine h.goTo nofun nofun ?_ (fun _ => by rw [hcaller]; rfl) fun hok => absurd rfl hok
      rintro rc ⟨⟩
      exact ⟨fun _ => h.state (by rw [hcaller]; rfl) hconnected, nofun⟩
    · refine h.goTo (fun _ => ?_) (fun _ => ?_) nofun (fun _ => ?_) nofun <;>
        rw [hcaller] <;> rfl
  · rename_i hcaller
    split
    · rename_i hterminal
      refine h.goTo nofun nofun ?_ (fun _ => by rw [hcaller]; rfl) nofun
      rintro rc ⟨⟩
      exact ⟨nofun, fun _ => h.reason (by rw [hcaller]; rfl) hterminal⟩
    · refine h.goTo (fun _ => ?_) (fun _ => ?_) nofun (fun _ => ?_) nofun <;>
        rw [hcaller] <;> rfl
  · rename_i rc hcaller
    have hbacked := h.backed rc (by rw [hcaller]; rfl)
    split
    · refine h.goTo nofun nofun ?_ (fun _ => by rw [hcaller]; rfl) nofun
      rintro rc' ⟨⟩
      exact hbacked
    · rename_i hnone
      exact { h with
        reason := nofun
        state := nofun
        backed := by
          rintro rc' ⟨⟩
          exact hbacked
        saved := fun _ => h.saved (by rw [hcaller]; rfl)
        rearmed := fun _ hhad => absurd hhad hnone }
  · rename_i rc hcaller
    exact { h with
      reason := nofun
      state := nofun
      backed := fun rc' hrc' => h.backed rc' (by rw [hcaller]; exact hrc')
      saved := fun _ => h.saved (by rw [hcaller]; rfl)
      rearmed := fun _ _ => rfl }
  · exact h

end Caller

/-! ### The task of the event loop -/

section Handler

variable {s : System}

/-- A step which leaves the caller and the retry alone. -/
theorem Invariant.ofHandler (h : Invariant s) (w : Wifi) {handler : Handler}
    (hstarted : w.started = s.wifi.started)
    (hretry : w.retrySsid = s.wifi.retrySsid ∧ w.retryPw = s.wifi.retryPw ∧
      w.staAutoRetry = s.wifi.staAutoRetry)
    (hreason : pastReason s.caller = true → isTerminal w.lastReason = true →
      s.verify.SawRefusal)
    (hstate : pastState s.caller = true → w.state = .connected → s.verify.SawGotIp)
    (hgotIp : ∀ e ∈ arriving handler, e.isGotIp = true) :
    Invariant { s with wifi := w, handler := handler } where
  started hne := hstarted.trans (h.started (hretry.1 ▸ hne))
  reason := hreason
  state := hstate
  backed := h.backed
  saved hc :=
    have hsaved := h.saved hc
    ⟨hretry.1.trans hsaved.1, hretry.2.1.trans hsaved.2.1, hsaved.2.2⟩
  rearmed hc hhad := hretry.2.2.trans (h.rearmed hc hhad)
  gotIp := hgotIp

/-- An event which arrives is seen. -/
theorem Invariant.see (h : Invariant s) (e : DriverEvent) :
    Invariant { s with verify := { s.verify with seen := s.verify.seen ++ [e] } } where
  started := h.started
  reason hc hterminal := (h.reason hc hterminal).mono e
  state hc hconnected := (h.state hc hconnected).mono e
  backed rc hrc :=
    ⟨fun hok => ((h.backed rc hrc).1 hok).mono e,
      fun hinvalid => ((h.backed rc hrc).2 hinvalid).mono e⟩
  saved := h.saved
  rearmed := h.rearmed
  gotIp := h.gotIp

theorem verifying_of_pastReason {c : Caller} (h : pastReason c = true) : c.verifying = true := by
  cases c with
  | applying cfg stage origin => cases origin <;> cases stage <;> first | rfl | cases h
  | polling => rfl
  | checking => rfl
  | reading => rfl
  | _ => cases h

theorem Invariant.arrive (h : Invariant s) (e : DriverEvent)
    (hcondition : pastReason s.caller = true → e.isRefusal = true →
      e.madeWith = s.verify.candidate) :
    Invariant (s.arrive e) := by
  have hrefusal : ∀ reason, e.kind = .staDisconnected reason →
      e.isRefusal = isTerminal reason := by
    intro reason hkind
    rw [DriverEvent.isRefusal, hkind]
  have hgotIp : ∀ addr, e.kind = .staGotIp addr →
      ∀ e' ∈ arriving (.gotIp e), e'.isGotIp = true := by
    rintro addr hkind e' ⟨⟩
    rw [DriverEvent.isGotIp, hkind]
  by_cases hverifying : s.caller.verifying = true
  · have hseen := h.see e
    simp only [System.arrive, if_pos hverifying]
    split
    · rename_i reason hkind
      refine hseen.ofHandler _ rfl ⟨rfl, rfl, rfl⟩ (fun hpast hterminal => ?_) hseen.state nofun
      have hrefuses := (hrefusal reason hkind).trans hterminal
      exact ⟨e, List.mem_append_right _ List.mem_cons_self, hcondition hpast hrefuses, hrefuses⟩
    · rename_i addr hkind
      exact hseen.ofHandler _ rfl ⟨rfl, rfl, rfl⟩ hseen.reason hseen.state (hgotIp addr hkind)
  · have hpast : pastReason s.caller ≠ true := fun hpast =>
      hverifying (verifying_of_pastReason hpast)
    simp only [System.arrive, if_neg hverifying]
    split
    · exact h.ofHandler _ rfl ⟨rfl, rfl, rfl⟩ (fun hc => absurd hc hpast) h.state nofun
    · rename_i addr hkind
      exact h.ofHandler _ rfl ⟨rfl, rfl, rfl⟩ h.reason h.state (hgotIp addr hkind)

theorem Invariant.stepHandler (h : Invariant s) {began : Bool}
    (hcondition : Decisive s (.handle began)) : Invariant (s.stepHandler began) := by
  unfold System.stepHandler
  split
  · exact h
  · exact h.ofHandler _ rfl ⟨rfl, rfl, rfl⟩ h.reason nofun nofun
  · refine h.ofHandler s.wifi rfl ⟨rfl, rfl, rfl⟩ h.reason h.state fun e he => ?_
    split at he <;> cases he
  · exact h.ofHandler _ rfl ⟨rfl, rfl, rfl⟩ h.reason nofun nofun
  · have hidle : Invariant { s with handler := .idle } :=
      h.ofHandler s.wifi rfl ⟨rfl, rfl, rfl⟩ h.reason h.state nofun
    cases began
    · exact hidle
    · exact { hidle with }
  · rename_i e hhandler
    refine h.ofHandler _ rfl ⟨rfl, rfl, rfl⟩ h.reason (fun hpast _ => ?_) nofun
    have harriving : e ∈ arriving s.handler := by
      rw [hhandler]
      rfl
    obtain ⟨hseen, hmade⟩ := hcondition e harriving hpast
    exact ⟨e, hseen, hmade, h.gotIp e harriving⟩

end Handler

/-! ### A run -/

theorem Invariant.step {s : System} (h : Invariant s) {a : Act} (hcondition : Decisive s a) :
    Invariant (s.step a) := by
  cases a with
  | connect ssid password start =>
      simp only [System.step]
      split
      · exact h.connect ssid password start
      · exact h
  | tryConnect ssid password start =>
      simp only [System.step]
      split
      · exact h.tryConnect ssid password start
      · exact h
  | startSoftAp rc =>
      simp only [System.step]
      split
      · exact { h with started := fun _ => rfl }
      · exact h
  | call a => exact h.stepCaller hcondition
  | raise attempt kind =>
      simp only [System.step]
      split
      · exact { h with }
      · exact h
  | dispatch =>
      simp only [System.step]
      split
      · rename_i e rest hidle hqueue
        have hrest : Invariant { s with inFlight := rest } := { h with }
        exact hrest.arrive e (hcondition e (by rw [hqueue]; rfl) hidle)
      · exact h
  | handle began => exact h.stepHandler hcondition

/-- In a run whose deciding events are all of the candidate, and whose candidates are configured
when a network is to be resumed, every answer is about its candidate and the saved network is
retried behind every failure. -/
theorem along_answered (acts : List Act) (hrun : Along System.step Decisive {} acts)
    (pre post : List Act) (hacts : acts = pre ++ post) : Answered (run System.step {} pre) := by
  rw [hacts, along_append] at hrun
  exact Invariant.answered (hrun.1.invariant (fun s a h ha => h.step ha) invariant_initial)

instance (s : System) : DecidablePred (Decisive s)
  | .dispatch => inferInstanceAs (Decidable (∀ e ∈ s.inFlight.head?, _ → _ → _ → _))
  | .handle _ => inferInstanceAs (Decidable (∀ e ∈ arriving s.handler, _ → _))
  | .call (.setConfig _) => inferInstanceAs (Decidable (_ → _ → _))
  | .connect _ _ _ | .tryConnect _ _ _ | .startSoftAp _ | .call (.connect _)
  | .call (.deadline _) | .call .go | .raise _ _ => inferInstanceAs (Decidable True)

instance (v : Verify) (rc : EspErr) : Decidable (v.Backs rc) :=
  inferInstanceAs (Decidable ((_ → ∃ e ∈ v.seen, _) ∧ (_ → ∃ e ∈ v.seen, _)))

instance (s : System) : Decidable (Answered s) :=
  inferInstanceAs
    (Decidable (∀ rc ∈ answer s.caller, s.verify.Backs rc ∧ (_ → _ → _ ∧ _ ∧ _)))

def codeOk : DriverCode := ⟨espOk, by decide⟩

/-- `ESP_ERR_WIFI_PASSWORD` -/
def codePassword : DriverCode := ⟨0x300B, by decide⟩

/-- `ApplyStaConfigAndConnect` without a failure. -/
def applySteps : List Act :=
  [.call (.setConfig codeOk), .call .go, .call .go, .call (.connect true)]

/-- The saved network `[1]`, whose association is still under way, and the call of `TryConnect`
for the network `[2]` up to the store which pauses the retry. -/
def callSteps : List Act :=
  [.connect [1] [1] codeOk] ++ applySteps ++ [.tryConnect [2] [2] codeOk, .call .go]

/-- The candidate is refused, and the saved network comes back. -/
def refusedRun : List Act :=
  callSteps ++ applySteps ++
    [.raise 1 (.staDisconnected 202), .dispatch, .handle false, .handle false,
      .call (.deadline false), .call .go, .call .go, .call .go, .call .go] ++
    applySteps ++ [.raise 2 (.staGotIp 7), .dispatch, .handle false]

theorem refusedRun_answered : Answered (run System.step {} refusedRun) :=
  along_answered refusedRun (by decide) refusedRun [] (List.append_nil _).symm

/-- The saved network gets its address while the candidate is verified. -/
def staleAddress : List Act :=
  callSteps ++ applySteps ++
    [.raise 0 (.staGotIp 7), .dispatch, .handle false, .call (.deadline false), .call .go]

/-- The saved network is lost while the candidate is verified. -/
def staleDisconnect : List Act :=
  callSteps ++ applySteps ++
    [.raise 0 (.staDisconnected 201), .dispatch, .handle false, .handle false,
      .call (.deadline false), .call .go, .call .go, .call .go, .call .go] ++ applySteps

/-- The driver does not take the configuration, and the retry stays paused. -/
def refusedConfig : List Act :=
  callSteps ++ [.call (.setConfig codePassword)]

theorem not_answered :
    ¬ Answered (run System.step {} staleAddress) ∧
      ¬ Answered (run System.step {} staleDisconnect) ∧
        ¬ Answered (run System.step {} refusedConfig) := by
  decide

end System

end Wifi

end BtClock
