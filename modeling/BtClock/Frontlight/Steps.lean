import BtClock.Frontlight.Controller

/-!
# Calls and turns of the frontlight controller

A call leaves the panel alone and puts at most one command on the queue.  With the mute
on, whatever goes through `Post` arrives as an off.  A panel is sealed when the task has
nothing left to do but to fade it to 0.
-/

namespace BtClock

namespace Frontlight

/-- The events which fade the panel to 0. -/
def FrontlightEvent.ForcesOff : FrontlightEvent → Prop
  | .off | .ambientOff | .darkOff => True
  | _ => False

instance : DecidablePred FrontlightEvent.ForcesOff := fun e => by
  cases e <;> unfold FrontlightEvent.ForcesOff <;> infer_instance

namespace FrontlightController

/-- The command can raise the duty of a channel when the task takes it. -/
def CanRaise (s : FrontlightController) (cmd : FrontlightCommand) : Prop :=
  match cmd.event with
  | .off | .ambientOff | .darkOff => False
  | .setChannelDuties => ∃ d ∈ s.pendingManualDuties, d ≠ 0
  | .on | .ambientOn | .setBrightness | .blockFlash | .zapFlash => True

/-- Every channel of the panel has duty 0. -/
def Dark (s : FrontlightController) : Prop :=
  ∀ d ∈ s.channels, d = 0

instance : DecidablePred Dark := fun s => inferInstanceAs (Decidable (∀ d ∈ s.channels, _))

/-- The commands which a call puts on the queue. -/
def puts (s : FrontlightController) (op : Op) : List FrontlightCommand :=
  match op with
  | .task _ => []
  | op => (s.step op).queue.drop s.queue.length

/-! ### What a call does -/

/-- A call leaves the panel to the task: it only puts commands on the queue, of which `P`
holds. -/
structure Sends (s s' : FrontlightController) (P : FrontlightCommand → Prop) : Prop where
  fader : s'.fader = s.fader
  channels : s'.channels = s.channels
  pulse : s'.pulse = s.pulse
  queue : ∃ cmds, s'.queue = s.queue ++ cmds ∧ ∀ cmd ∈ cmds, P cmd

variable {s s' : FrontlightController} {P Q : FrontlightCommand → Prop}

theorem Sends.mono (hPQ : ∀ cmd, P cmd → Q cmd) (h : Sends s s' P) : Sends s s' Q := by
  obtain ⟨cmds, hq, hP⟩ := h.queue
  exact ⟨h.fader, h.channels, h.pulse, cmds, hq, fun cmd hc => hPQ cmd (hP cmd hc)⟩

/-- A call which touches neither the panel nor the queue. -/
theorem Sends.nothing (hf : s'.fader = s.fader) (hc : s'.channels = s.channels)
    (hp : s'.pulse = s.pulse) (hq : s'.queue = s.queue) : Sends s s' P :=
  ⟨hf, hc, hp, [], by simp [hq], by simp⟩

theorem sendOrDrop_sends (cmd : FrontlightCommand)
    (h : s.queue.length < kQueueDepth → P cmd) : Sends s (s.sendOrDrop cmd) P := by
  unfold sendOrDrop
  split
  · rename_i hlt
    refine ⟨rfl, rfl, rfl, [cmd], rfl, ?_⟩
    intro c hc
    rw [List.mem_singleton.mp hc]
    exact h hlt
  · exact Sends.nothing rfl rfl rfl rfl

theorem forcedOff_forcesOff (cmd : FrontlightCommand) :
    (forcedOff cmd).event.ForcesOff := by
  unfold forcedOff
  split
  · rename_i h
    rw [h]
    exact trivial
  · exact trivial

/-- With the mute on, whatever is posted arrives as an off. -/
theorem post_sends_of_disabled (hd : s.disabled = true) (cmd : FrontlightCommand)
    (dndActive : Bool) :
    Sends s (s.post cmd dndActive) fun c => c.event.ForcesOff := by
  rw [post, if_pos hd]
  exact sendOrDrop_sends _ fun _ => forcedOff_forcesOff cmd

theorem onAmbientLux_sends_of_disabled (hd : s.disabled = true) (lux : Float32)
    (dndActive : Bool) :
    Sends s (s.onAmbientLux lux dndActive) fun c => c.event.ForcesOff := by
  simp only [onAmbientLux]
  generalize ({ s.policy with outputOn := s.logicalOn }).evaluate lux = result
  obtain ⟨policy, action⟩ := result
  have hpost : ∀ cmd, Sends s ({ s with policy := policy }.post cmd dndActive)
      fun c => c.event.ForcesOff := by
    intro cmd
    have h := post_sends_of_disabled (s := { s with policy := policy }) hd cmd dndActive
    exact ⟨h.fader, h.channels, h.pulse, h.queue⟩
  cases action with
  | none => exact Sends.nothing rfl rfl rfl rfl
  | on => exact hpost _
  | off => exact hpost _

/-- The call does not put a command on the queue which lights the panel.  The two calls
which go past `Post` are `SetChannelDuties` and the lift of a suppression. -/
def CallSafe (s : FrontlightController) : Op → Prop
  | .setChannelDuties duties =>
      s.queue.length < kQueueDepth → ∀ d ∈ duties.take kManualCap, d = 0
  | .onDndStateMaybeChanged dndActive =>
      s.queue.length < kQueueDepth →
        s.lastDndSuppressed = true → (dndActive && s.offOnDnd) = true
  | _ => True

instance (s : FrontlightController) : DecidablePred s.CallSafe := fun op => by
  cases op <;> unfold CallSafe <;> infer_instance

theorem not_canRaise_of_forcesOff {cmd : FrontlightCommand} (h : cmd.event.ForcesOff) :
    ¬ s.CanRaise cmd := by
  unfold CanRaise
  cases hc : cmd.event <;> simp_all [FrontlightEvent.ForcesOff]

theorem setChannelDuties_sends (duties : List ℕ) (h : s.CallSafe (.setChannelDuties duties)) :
    Sends s (s.setChannelDuties duties)
      fun c => ¬ (s.setChannelDuties duties).CanRaise c := by
  have hstaged : (s.setChannelDuties duties).pendingManualDuties =
      duties.take kManualCap := by
    unfold setChannelDuties sendOrDrop
    split <;> rfl
  have hsend := sendOrDrop_sends (s := { s with pendingManualDuties := duties.take kManualCap })
    (P := fun c => ¬ (s.setChannelDuties duties).CanRaise c) { event := .setChannelDuties } ?_
  · exact ⟨hsend.fader, hsend.channels, hsend.pulse, hsend.queue⟩
  · intro hlt
    simpa [CanRaise, hstaged] using h hlt

theorem onDndStateMaybeChanged_sends (dndActive : Bool)
    (h : s.CallSafe (.onDndStateMaybeChanged dndActive)) :
    Sends s (s.onDndStateMaybeChanged dndActive) fun c => c.event.ForcesOff := by
  simp only [onDndStateMaybeChanged]
  split
  · exact Sends.nothing rfl rfl rfl rfl
  · rename_i hne
    have hsend := sendOrDrop_sends
      (s := { s with lastDndSuppressed := dndActive && s.offOnDnd })
      (P := fun c => c.event.ForcesOff)
      { event := if (dndActive && s.offOnDnd) = true then .ambientOff else .ambientOn } ?_
    · exact ⟨hsend.fader, hsend.channels, hsend.pulse, hsend.queue⟩
    · intro hlt
      have hlift := h hlt
      cases hs : s.lastDndSuppressed with
      | true => simp [hlift hs, FrontlightEvent.ForcesOff]
      | false =>
          have hnow : (dndActive && s.offOnDnd) = true := by simpa [hs] using hne
          simp [hnow, FrontlightEvent.ForcesOff]

/-- With the mute on, a safe call puts no command on the queue which can raise a duty. -/
theorem step_sends_of_disabled (hd : s.disabled = true) {op : Op}
    (htask : op.isTask = false) (h : s.CallSafe op) :
    Sends s (s.step op) fun c => ¬ (s.step op).CanRaise c := by
  have hoff : ∀ c : FrontlightCommand, c.event.ForcesOff → ¬ (s.step op).CanRaise c :=
    fun c hc => not_canRaise_of_forcesOff hc
  cases op with
  | post cmd dnd => exact (post_sends_of_disabled hd cmd dnd).mono hoff
  | setConfiguredBrightness duty dnd => exact (post_sends_of_disabled hd _ dnd).mono hoff
  | onAmbientLux lux dnd => exact (onAmbientLux_sends_of_disabled hd lux dnd).mono hoff
  | setChannelDuties duties => exact setChannelDuties_sends duties h
  | onDndStateMaybeChanged dnd => exact (onDndStateMaybeChanged_sends dnd h).mono hoff
  | setDisabled => exact Sends.nothing rfl rfl rfl rfl
  | setAlwaysOn => exact Sends.nothing rfl rfl rfl rfl
  | setFlashOnUpdate => exact Sends.nothing rfl rfl rfl rfl
  | setOffOnDnd => exact Sends.nothing rfl rfl rfl rfl
  | setEffectDelay => exact Sends.nothing rfl rfl rfl rfl
  | setAmbientAutoOff => exact Sends.nothing rfl rfl rfl rfl
  | setLuxThreshold => exact Sends.nothing rfl rfl rfl rfl
  | setOffWhenDark => exact Sends.nothing rfl rfl rfl rfl
  | task msNow => cases htask

theorem sendOrDrop_disabled (s : FrontlightController) (cmd : FrontlightCommand) :
    (s.sendOrDrop cmd).disabled = s.disabled := by
  unfold sendOrDrop
  split <;> rfl

theorem post_disabled (s : FrontlightController) (cmd : FrontlightCommand)
    (dndActive : Bool) : (s.post cmd dndActive).disabled = s.disabled := by
  unfold post
  split
  · exact s.sendOrDrop_disabled _
  · split
    · rfl
    · split
      · rfl
      · split <;> exact s.sendOrDrop_disabled _

theorem onAmbientLux_disabled (s : FrontlightController) (lux : Float32)
    (dndActive : Bool) : (s.onAmbientLux lux dndActive).disabled = s.disabled := by
  simp only [onAmbientLux]
  generalize ({ s.policy with outputOn := s.logicalOn }).evaluate lux = result
  obtain ⟨policy, action⟩ := result
  cases action with
  | none => rfl
  | on => exact post_disabled _ _ _
  | off => exact post_disabled _ _ _

theorem onDndStateMaybeChanged_disabled (s : FrontlightController) (dndActive : Bool) :
    (s.onDndStateMaybeChanged dndActive).disabled = s.disabled := by
  simp only [onDndStateMaybeChanged]
  split
  · rfl
  · exact sendOrDrop_disabled _ _

/-! ### What a turn of the task does -/

theorem applyChannelDuties_disabled (s : FrontlightController) :
    s.applyChannelDuties.disabled = s.disabled := by
  simp only [applyChannelDuties]
  split <;> rfl

theorem applyChannelDuties_queue (s : FrontlightController) :
    s.applyChannelDuties.queue = s.queue := by
  simp only [applyChannelDuties]
  split <;> rfl

theorem receive_disabled (s : FrontlightController) (cmd : FrontlightCommand) :
    (s.receive cmd).disabled = s.disabled := by
  unfold receive
  cases cmd.event with
  | ambientOn => dsimp only; split <;> rfl
  | setBrightness => dsimp only; split <;> split <;> rfl
  | setChannelDuties => exact s.applyChannelDuties_disabled
  | on => rfl
  | off => rfl
  | ambientOff => rfl
  | darkOff => rfl
  | blockFlash => rfl
  | zapFlash => rfl

theorem receive_queue (s : FrontlightController) (cmd : FrontlightCommand) :
    (s.receive cmd).queue = s.queue := by
  unfold receive
  cases cmd.event with
  | ambientOn => dsimp only; split <;> rfl
  | setBrightness => dsimp only; split <;> split <;> rfl
  | setChannelDuties => exact s.applyChannelDuties_queue
  | on => rfl
  | off => rfl
  | ambientOff => rfl
  | darkOff => rfl
  | blockFlash => rfl
  | zapFlash => rfl

theorem advance_disabled (s : FrontlightController) (msNow : ℤ) :
    (s.advance msNow).disabled = s.disabled := by
  unfold advance
  cases s.pulse.phase with
  | idle => rfl
  | firstHalf => dsimp only; split <;> rfl
  | midHold => dsimp only; split <;> rfl
  | secondHalf => dsimp only; split <;> rfl

theorem taskTurn_cons {s : FrontlightController} {cmd : FrontlightCommand}
    {queue : List FrontlightCommand} (hq : s.queue = cmd :: queue) (msNow : ℤ) :
    s.taskTurn msNow = { s with queue := queue }.receive cmd := by
  simp [taskTurn, hq]

theorem taskTurn_nil {s : FrontlightController} (hq : s.queue = []) (msNow : ℤ) :
    s.taskTurn msNow = if s.waitsForever then s else s.advance msNow := by
  simp [taskTurn, hq]

theorem taskTurn_disabled (s : FrontlightController) (msNow : ℤ) :
    (s.taskTurn msNow).disabled = s.disabled := by
  cases hq : s.queue with
  | nil =>
      rw [taskTurn_nil hq]
      split
      · rfl
      · exact s.advance_disabled msNow
  | cons cmd queue =>
      rw [taskTurn_cons hq]
      exact receive_disabled _ cmd

/-- Only `SetDisabled` changes the mute. -/
theorem step_disabled (s : FrontlightController) {op : Op}
    (h : ∀ b, op ≠ .setDisabled b) : (s.step op).disabled = s.disabled := by
  cases op with
  | post cmd dnd => exact s.post_disabled cmd dnd
  | setConfiguredBrightness duty dnd => exact s.post_disabled _ dnd
  | onAmbientLux lux dnd => exact s.onAmbientLux_disabled lux dnd
  | setChannelDuties duties => exact sendOrDrop_disabled _ _
  | onDndStateMaybeChanged dnd => exact s.onDndStateMaybeChanged_disabled dnd
  | setDisabled b => exact absurd rfl (h b)
  | setAlwaysOn => rfl
  | setFlashOnUpdate => rfl
  | setOffOnDnd => rfl
  | setEffectDelay => rfl
  | setAmbientAutoOff => rfl
  | setLuxThreshold => rfl
  | setOffWhenDark => rfl
  | task msNow => exact s.taskTurn_disabled msNow

/-- The task has nothing left to do but to fade to 0. -/
structure Sealed (s : FrontlightController) : Prop where
  idle : s.pulse.phase = .idle
  target : s.fader.target = 0
  dark : s.fader.current = 0 → s.Dark

/-- The commands which the task may take while the panel is sealed. -/
def TakeSafe (s : FrontlightController) (cmd : FrontlightCommand) : Prop :=
  match cmd.event with
  | .off | .ambientOff | .darkOff => s.fader.current = 0 → s.Dark
  | .setChannelDuties =>
      (∀ d ∈ s.pendingManualDuties, d = 0) ∧
        ∀ d ∈ s.channels.drop s.pendingManualDuties.length, d = 0
  | _ => True

instance (s : FrontlightController) : Decidable s.Sealed :=
  decidable_of_iff
    (s.pulse.phase = .idle ∧ s.fader.target = 0 ∧ (s.fader.current = 0 → s.Dark))
    ⟨fun h => ⟨h.1, h.2.1, h.2.2⟩, fun h => ⟨h.idle, h.target, h.dark⟩⟩

instance (s : FrontlightController) : DecidablePred s.TakeSafe := fun cmd => by
  unfold TakeSafe
  split <;> infer_instance

theorem Sends.sealed {s s' : FrontlightController} {P : FrontlightCommand → Prop}
    (h : Sends s s' P) (hs : s.Sealed) : s'.Sealed where
  idle := by rw [h.pulse]; exact hs.idle
  target := by rw [h.fader]; exact hs.target
  dark := by
    intro hc
    rw [h.fader] at hc
    unfold Dark
    rw [h.channels]
    exact hs.dark hc

/-- An off seals the panel, unless it meets lit channels under a fader at 0. -/
theorem receive_sealed_of_forcesOff {s : FrontlightController} {cmd : FrontlightCommand}
    (hoff : cmd.event.ForcesOff) (hsafe : s.TakeSafe cmd) :
    (s.receive cmd).Sealed ∧ (s.receive cmd).fader.current = s.fader.current := by
  unfold TakeSafe at hsafe
  unfold receive
  cases hc : cmd.event with
  | off => simp only [hc] at hsafe; exact ⟨⟨rfl, rfl, hsafe⟩, rfl⟩
  | ambientOff => simp only [hc] at hsafe; exact ⟨⟨rfl, rfl, hsafe⟩, rfl⟩
  | darkOff => simp only [hc] at hsafe; exact ⟨⟨rfl, rfl, hsafe⟩, rfl⟩
  | _ => simp [hc, FrontlightEvent.ForcesOff] at hoff

/-- Staged zeros for every lit channel turn the panel dark. -/
theorem receive_sealed_of_setChannelDuties {s : FrontlightController}
    {cmd : FrontlightCommand} (hcmd : cmd.event = .setChannelDuties)
    (hsafe : s.TakeSafe cmd) :
    (s.receive cmd).Sealed ∧ (s.receive cmd).fader.current = 0 := by
  simp only [TakeSafe, hcmd] at hsafe
  obtain ⟨hzero, hrest⟩ := hsafe
  have hhead : s.pendingManualDuties.headD 0 = 0 := by
    cases hp : s.pendingManualDuties with
    | nil => rfl
    | cons d ds => exact hzero d (by simp [hp])
  have hany : ((s.pendingManualDuties.take s.channelCount).any (· > 0)) = false := by
    rw [List.any_eq_false]
    intro d hd
    simp [hzero d (List.mem_of_mem_take hd)]
  simp only [receive, hcmd, applyChannelDuties, hany, hhead]
  refine ⟨⟨rfl, rfl, ?_⟩, rfl⟩
  intro _ d hd
  rcases List.mem_append.mp hd with hd | hd
  · exact hzero d (List.mem_of_mem_take hd)
  · exact hrest d hd

/-- A quiet command keeps the panel sealed and does not raise the fader. -/
theorem receive_sealed {s : FrontlightController} {cmd : FrontlightCommand}
    (hq : cmd.event.ForcesOff ∨ cmd.event = .setChannelDuties) (hsafe : s.TakeSafe cmd) :
    (s.receive cmd).Sealed ∧ (s.receive cmd).fader.current ≤ s.fader.current := by
  rcases hq with hoff | hduties
  · obtain ⟨hs, hc⟩ := receive_sealed_of_forcesOff hoff hsafe
    exact ⟨hs, Nat.le_of_eq hc⟩
  · obtain ⟨hs, hc⟩ := receive_sealed_of_setChannelDuties hduties hsafe
    exact ⟨hs, by rw [hc]; exact Nat.zero_le _⟩

/-- An idle turn of a sealed panel takes one step off the fader. -/
theorem taskTurn_sealed {s : FrontlightController} (hq : s.queue = []) (hs : s.Sealed)
    (msNow : ℤ) :
    (s.taskTurn msNow).Sealed ∧
      (s.taskTurn msNow).fader.current = s.fader.current - kFadeStep ∧
      (s.taskTurn msNow).queue = [] := by
  rw [taskTurn_nil hq]
  split
  · rename_i hwait
    have hat : s.fader.current = 0 := by
      simpa [waitsForever, FrontlightFader.atTarget, hs.idle, hs.target] using hwait
    exact ⟨hs, by simp [hat], hq⟩
  · simp only [advance, hs.idle]
    refine ⟨⟨hs.idle, hs.target, ?_⟩,
      FrontlightFader.step_current_of_target_zero hs.target, hq⟩
    intro hc d hd
    rw [List.eq_of_mem_replicate hd]
    exact hc

end FrontlightController

end Frontlight

end BtClock
